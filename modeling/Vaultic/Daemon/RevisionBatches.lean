/-
  Daemon/RevisionBatches.lean  —  revisions stay as they were written.

  Source: internal/index/daemon/schema_store_generation.go (`PublishRevisionBatch`,
  `PublishRevisionBatchesDeferred`), schema_store_publish.go (`validateRelatedMutations`),
  schema_store_reconcile.go (`validateMutableDeleteKey`).

  Besides the reconciled publications there are two calls that store a revision and move the
  current pointer to it: one for a single revision and one for a list of them in one
  transaction.  All of them write a revision only where none is stored, and move a pointer
  only forward, so from one committed store to the next the revisions are kept and the
  pointers do not go back.  The call for a list compares each of its publications with the
  store at the beginning of the transaction, not with each other: a list that names one
  revision key with two values is accepted whole, and the last value is stored; and one that
  names a later revision of an inode before an earlier leaves the pointer at the earlier.

  A commit that reports an error may have been applied or not; both are steps here.
-/
import Vaultic.Daemon.PublicationRuns

set_option autoImplicit false

namespace Vaultic.Daemon

open Vaultic.Lib Vaultic.Schema

/-! ## Publications of revisions -/

/-- `RevisionPublication` -/
structure RevisionPublication where
  (currentKey revisionKey : Key)
  revisionValue : Value
  revision : Nat
  relatedPuts : List Mutation := []
  relatedDeletes : List Key := []

/-- The kinds without a key of their own that `validateMutableDeleteKey` accepts. -/
def deletableKinds : List Wire.KeyKind :=
  [.exportIndexCheckpoint, .analyticsDelta] ++ derivedKinds

/-- `validateMutableDeleteKey` -/
def validateMutableDeleteKey : Key → Result Unit
  | .reverseManifest _ _ | .reverseInode _ _ _ | .referenceCount _ | .garbageCollection _ _
  | .packHistory _ _ _ | .packPlacement _ _ | .backendPack _ _ | .placementDeleteQueue _ _ _
  | .repackLineage _ _ | .pathVersion _ _ _ => .ok ()
  | .other bytes => do
      let parsed ← Wire.parseKey bytes
      if parsed.kind ∈ deletableKinds then .ok ()
      else .error "schema key must remain visible and cannot be deleted"
  | _ => .error "schema key must remain visible and cannot be deleted"

/-- `validateDistinctMutations` -/
def validateDistinctMutations (puts : List Mutation) (deletes : List Key) : Result Unit :=
  if (puts.map (·.1) ++ deletes).Nodup then .ok ()
  else .error "schema batch contains duplicate key"

/-- `validateRelatedMutations` -/
def validateRelatedMutations (puts : List Mutation) (deletes : List Key) : Result Unit := do
  validateDistinctMutations puts deletes
  let _ ← (puts.map fun put => do
    validateMutableKey put.1
    if validMutableValue put.1 put.2 then (.ok () : Result Unit)
    else .error (malformed "truncated value")).mapM id
  let _ ← (deletes.map validateMutableDeleteKey).mapM id
  .ok ()

section

variable (store : SchemaStore) (publication : RevisionPublication)

/-- Both keys name one inode or one directory, and the revision. -/
def validRevisionPair : Bool :=
  match publication.currentKey, publication.revisionKey with
  | .currentInode fsid inode, .inodeRevision fsid' inode' revision =>
    decide (fsid = fsid' ∧ inode = inode' ∧ revision = publication.revision)
  | .currentDirectory fsid inode, .directoryRevision fsid' inode' revision =>
    decide (fsid = fsid' ∧ inode = inode' ∧ revision = publication.revision)
  | _, _ => false

/-- The check of the keys and of the revision value, `ValidateValue`. -/
def validateRevision : Result Unit :=
  if validRevisionPair publication then
    match publication.revisionKey with
    | .inodeRevision _ _ _ => validateRevisionValue true publication.revisionValue
    | _ => validateRevisionValue false publication.revisionValue
  else .error "revision key does not match revision"

/-- The check against what is stored: the revision is new or the same, and the pointer is not
newer. -/
def checkStoredRevision : Result Unit :=
  if (store.lookup publication.revisionKey).any
      (fun value => decide (value ≠ publication.revisionValue)) then
    .error "immutable revision already exists with different data"
  else
    match store.lookup publication.currentKey with
    | none => .ok ()
    | some value => do
        let pointer ← unmarshalCurrentPointer value
        if pointer.revision > publication.revision then .error "current revision is newer"
        else .ok ()

/-- The puts of a publication: the pointer, the revision unless it is stored, and the related
puts. -/
def revisionPuts (current : Value) : List Mutation :=
  (publication.currentKey, current) ::
    (if (store.lookup publication.revisionKey).isSome then []
      else [(publication.revisionKey, publication.revisionValue)]) ++
    publication.relatedPuts

/-- `publishRevisionBatch`; `PublishRevision` has no related mutations. -/
def publishRevisionBatch (limits : Limits) (publication : RevisionPublication)
    (store : SchemaStore) : Result SchemaStore := do
  validateRelatedMutations publication.relatedPuts publication.relatedDeletes
  let current ← marshalCurrentPointer ⟨publication.revision, publication.revisionKey⟩
  validateRevision publication
  checkStoredRevision store publication
  writeTransactionBatches limits store (revisionPuts store publication current)
    publication.relatedDeletes

/-- `validateRevisionPublication` -/
def validateRevisionPublication : Result Unit := do
  validateRelatedMutations publication.relatedPuts publication.relatedDeletes
  validateRevision publication

/-- One publication of a list, planned against the store at the beginning. -/
def planRevisionPublication : Result (List Mutation) := do
  checkStoredRevision store publication
  let current ← marshalCurrentPointer ⟨publication.revision, publication.revisionKey⟩
  .ok (revisionPuts store publication current)

/-- `PublishRevisionBatchesDeferred` -/
def publishRevisionBatchesDeferred (limits : Limits) (publications : List RevisionPublication)
    (store : SchemaStore) : Result SchemaStore :=
  if publications = [] then .ok store
  else do
    let _ ← (publications.map validateRevisionPublication).mapM id
    if limits.maxBatchItems = 0 then
      .error "vaulticdb advertised an invalid multi-get item limit"
    else
      let puts ← (publications.map (planRevisionPublication store)).mapM id
      writeTransactionBatches limits store puts.flatten
        (publications.flatMap (·.relatedDeletes))

/-! ## What is kept -/

def isRevisionKey : Key → Bool
  | .inodeRevision _ _ _ | .directoryRevision _ _ _ => true
  | _ => false

def isCurrentKey : Key → Bool
  | .currentInode _ _ | .currentDirectory _ _ => true
  | _ => false

/-- The revisions of a store stay, and its current pointers do not go back. -/
structure RevisionsKept (look look' : Key → Option Value) : Prop where
  immutable : ∀ {key value}, isRevisionKey key = true → look key = some value →
    look' key = some value
  monotone : ∀ {key pointer}, isCurrentKey key = true → look key = some (.currentPointer pointer) →
    ∃ pointer', look' key = some (.currentPointer pointer') ∧ pointer.revision ≤ pointer'.revision

theorem RevisionsKept.refl (look : Key → Option Value) : RevisionsKept look look where
  immutable := fun _ h => h
  monotone := fun _ h => ⟨_, h, Nat.le_refl _⟩

theorem RevisionsKept.trans {look look' look'' : Key → Option Value}
    (h : RevisionsKept look look') (h' : RevisionsKept look' look'') :
    RevisionsKept look look'' where
  immutable := fun hkey hvalue => h'.immutable hkey (h.immutable hkey hvalue)
  monotone := by
    intro key pointer hkey hpointer
    obtain ⟨pointer', hpointer', hle⟩ := h.monotone hkey hpointer
    obtain ⟨pointer'', hpointer'', hle'⟩ := h'.monotone hkey hpointer'
    exact ⟨pointer'', hpointer'', hle.trans hle'⟩

/-- Puts that write a revision only where there is none, and move pointers only forward. -/
structure KeepingPuts (puts : List Mutation) : Prop where
  revision : ∀ put ∈ puts, isRevisionKey put.1 = true → store.lookup put.1 = none
  current : ∀ put ∈ puts, isCurrentKey put.1 = true →
    ∃ pointer', put.2 = .currentPointer pointer' ∧
      ∀ pointer, store.lookup put.1 = some (.currentPointer pointer) →
        pointer.revision ≤ pointer'.revision

end

theorem KeepingPuts.kept {store : SchemaStore} {puts : List Mutation}
    (hputs : KeepingPuts store puts) :
    RevisionsKept (fun key => store.lookup key) (fun key => (store.putAll puts).lookup key) where
  immutable := by
    intro key value hkey hvalue
    refine (Table.lookup_putAll_of_forall_ne ?_).trans hvalue
    rintro put hput rfl
    rw [hputs.revision put hput hkey] at hvalue
    cases hvalue
  monotone := by
    intro key pointer hkey hpointer
    rcases Table.lookup_putAll_or store puts key with ⟨value, hput, hlook⟩ | ⟨-, hlook⟩
    · obtain ⟨pointer', rfl, hle⟩ := hputs.current _ hput hkey
      exact ⟨pointer', hlook, hle pointer hpointer⟩
    · exact ⟨pointer, hlook.trans hpointer, Nat.le_refl _⟩

variable {key : Key}

/-- Related puts and deletes leave revisions and pointers alone. -/
theorem validateMutableKey_kept (h : validateMutableKey key = .ok ()) :
    isRevisionKey key = false ∧ isCurrentKey key = false := by
  cases key <;> first | exact ⟨rfl, rfl⟩ | cases h

theorem validateMutableDeleteKey_kept (h : validateMutableDeleteKey key = .ok ()) :
    isRevisionKey key = false ∧ isCurrentKey key = false := by
  cases key <;> first | exact ⟨rfl, rfl⟩ | cases h

theorem validateRelatedMutations_inv {puts : List Mutation} {deletes : List Key}
    (h : validateRelatedMutations puts deletes = .ok ()) :
    (∀ put ∈ puts, validateMutableKey put.1 = .ok ()) ∧
      ∀ key ∈ deletes, validateMutableDeleteKey key = .ok () := by
  obtain ⟨⟨⟩, -, h⟩ := of_bind h
  obtain ⟨checked, hputs, h⟩ := of_bind h
  obtain ⟨checked', hdeletes, -⟩ := of_bind h
  constructor
  · intro put hput
    obtain ⟨⟨⟩, -, hok⟩ := ok_of_mapM_map hputs hput
    obtain ⟨⟨⟩, hkey, -⟩ := of_bind hok
    exact hkey
  · intro key hkey
    obtain ⟨⟨⟩, -, hok⟩ := ok_of_mapM_map hdeletes hkey
    exact hok

variable {look : Key → Option Value}

/-- Deleting other keys keeps what is kept. -/
theorem RevisionsKept.deleteAll {store : SchemaStore}
    {deletes : List Key} (h : RevisionsKept look fun key => store.lookup key)
    (hdeletes : ∀ key ∈ deletes, isRevisionKey key = false ∧ isCurrentKey key = false) :
    RevisionsKept look fun key => (store.deleteAll deletes).lookup key where
  immutable := by
    intro key value hkey hvalue
    refine (Table.lookup_deleteAll _ _ _).trans ((if_neg fun hmem => ?_).trans
      (h.immutable hkey hvalue))
    rw [(hdeletes key hmem).1] at hkey
    cases hkey
  monotone := by
    intro key pointer hkey hpointer
    obtain ⟨pointer', hpointer', hle⟩ := h.monotone hkey hpointer
    refine ⟨pointer', (Table.lookup_deleteAll _ _ _).trans ((if_neg fun hmem => ?_).trans
      hpointer'), hle⟩
    rw [(hdeletes key hmem).2] at hkey
    cases hkey

/-! ## One publication -/

section Publication

variable {store : SchemaStore} {publication : RevisionPublication}

theorem validRevisionPair_kinds (h : validRevisionPair publication = true) :
    isCurrentKey publication.currentKey = true ∧ isRevisionKey publication.revisionKey = true ∧
      isCurrentKey publication.revisionKey = false ∧
      isRevisionKey publication.currentKey = false := by
  unfold validRevisionPair at h
  split at h <;> try cases h
  all_goals
    rename_i hcurrent hrevision
    rw [hcurrent, hrevision]
    exact ⟨rfl, rfl, rfl, rfl⟩

theorem checkStoredRevision_inv (h : checkStoredRevision store publication = .ok ()) :
    (∀ value, store.lookup publication.revisionKey = some value →
        value = publication.revisionValue) ∧
      ∀ pointer, store.lookup publication.currentKey = some (.currentPointer pointer) →
        pointer.revision ≤ publication.revision := by
  obtain ⟨hsame, h⟩ := of_guard h
  constructor
  · intro value hvalue
    rw [hvalue] at hsame
    simpa using hsame
  · intro pointer hpointer
    rw [hpointer] at h
    obtain ⟨decoded, hdecoded, hguard⟩ := of_bind h
    obtain rfl := unmarshalCurrentPointer_inv hdecoded
    exact Nat.not_lt.mp (of_guard hguard).1

/-- What a publication puts under the pointer it makes. -/
def checkedPuts (store : SchemaStore) (publication : RevisionPublication) : List Mutation :=
  revisionPuts store publication (.currentPointer ⟨publication.revision, publication.revisionKey⟩)

/-- What the checks of a publication have established. -/
structure CheckedRevision (store : SchemaStore) (publication : RevisionPublication) : Prop where
  pair : validRevisionPair publication = true
  related : ∀ put ∈ publication.relatedPuts, validateMutableKey put.1 = .ok ()
  deletes : ∀ key ∈ publication.relatedDeletes, validateMutableDeleteKey key = .ok ()
  stored : ∀ value, store.lookup publication.revisionKey = some value →
    value = publication.revisionValue
  newer : ∀ pointer, store.lookup publication.currentKey = some (.currentPointer pointer) →
    pointer.revision ≤ publication.revision

theorem checkedRevision
    (hrelated : validateRelatedMutations publication.relatedPuts publication.relatedDeletes =
      .ok ()) (hvalid : validateRevision publication = .ok ())
    (hstored : checkStoredRevision store publication = .ok ()) :
    CheckedRevision store publication := by
  obtain ⟨hvalue, hnewer⟩ := checkStoredRevision_inv hstored
  obtain ⟨hputs, hdeletes⟩ := validateRelatedMutations_inv hrelated
  refine ⟨?_, hputs, hdeletes, hvalue, hnewer⟩
  rcases ite_eq_iff.mp hvalid with ⟨hpair, -⟩ | ⟨-, hvalid⟩
  · exact hpair
  · cases hvalid

section

variable (hchecked : CheckedRevision store publication)
include hchecked

/-- The pointer, the revision unless it is stored, and puts under other keys. -/
theorem CheckedRevision.mem_puts {put : Mutation} (hput : put ∈ checkedPuts store publication) :
    put = (publication.currentKey,
        .currentPointer ⟨publication.revision, publication.revisionKey⟩) ∨
      (store.lookup publication.revisionKey = none ∧
        put = (publication.revisionKey, publication.revisionValue)) ∨
      (isRevisionKey put.1 = false ∧ isCurrentKey put.1 = false) := by
  rw [checkedPuts, revisionPuts, List.mem_append, List.mem_cons] at hput
  rcases hput with (hput | hput) | hput
  · exact .inl hput
  · split_ifs at hput with hsome
    · cases hput
    · exact .inr (.inl ⟨Option.not_isSome_iff_eq_none.mp hsome, List.mem_singleton.mp hput⟩)
  · exact .inr (.inr (validateMutableKey_kept (hchecked.related put hput)))

/-- A put under a revision key is the revision of the publication, which was not stored. -/
theorem CheckedRevision.value_of_mem
    {put : Mutation} (hput : put ∈ checkedPuts store publication)
    (hkey : isRevisionKey put.1 = true) : store.lookup publication.revisionKey = none ∧
      put = (publication.revisionKey, publication.revisionValue) := by
  rcases hchecked.mem_puts hput with rfl | hrevision | ⟨hother, -⟩
  · rw [(validRevisionPair_kinds hchecked.pair).2.2.2] at hkey
    cases hkey
  · exact hrevision
  · rw [hother] at hkey
    cases hkey

/-- A put under a pointer is that of the publication. -/
theorem CheckedRevision.pointer_of_mem {put : Mutation} (hput : put ∈ checkedPuts store publication)
    (hkey : isCurrentKey put.1 = true) :
    put = (publication.currentKey,
      .currentPointer ⟨publication.revision, publication.revisionKey⟩) := by
  rcases hchecked.mem_puts hput with hpointer | ⟨-, rfl⟩ | ⟨-, hother⟩
  · exact hpointer
  · rw [(validRevisionPair_kinds hchecked.pair).2.2.1] at hkey
    cases hkey
  · rw [hother] at hkey
    cases hkey

/-- The revision is stored already, or put. -/
theorem CheckedRevision.revision_mem :
    store.lookup publication.revisionKey = some publication.revisionValue ∨
      (publication.revisionKey, publication.revisionValue) ∈ checkedPuts store publication := by
  cases hlook : store.lookup publication.revisionKey with
  | some value => exact .inl (congrArg some (hchecked.stored value hlook))
  | none =>
    right
    rw [checkedPuts, revisionPuts, hlook]
    exact List.mem_append_left _ (.tail _ (.head _))

end

end Publication

/-! ## Lists of publications -/

/-- A list that names a revision key more than once names it with one value, and names the
revisions of an inode or a directory in their order. -/
structure ConsistentRevisions (publications : List RevisionPublication) : Prop where
  values : ∀ left ∈ publications, ∀ right ∈ publications, left.revisionKey = right.revisionKey →
    left.revisionValue = right.revisionValue
  ordered : publications.Pairwise fun left right => left.currentKey = right.currentKey →
    left.revision ≤ right.revision

section Lists

variable {limits : Limits} {store written : SchemaStore}

variable {publications : List RevisionPublication}

/-- How a list of publications is written: each is checked against the store before, and the
puts of all are written one after the other. -/
def WrittenRevisions (store : SchemaStore) (publications : List RevisionPublication)
    (written : SchemaStore) : Prop :=
  (∀ publication ∈ publications, CheckedRevision store publication) ∧
    written = (store.putAll (publications.flatMap (checkedPuts store))).deleteAll
      (publications.flatMap (·.relatedDeletes))

theorem publishRevisionBatchesDeferred_inv
    (h : publishRevisionBatchesDeferred limits publications store = .ok written) :
    WrittenRevisions store publications written := by
  rcases ite_eq_iff.mp h with ⟨rfl, h⟩ | ⟨-, h⟩
  · cases h
    exact ⟨List.forall_mem_nil _, rfl⟩
  obtain ⟨checked, hchecked, h⟩ := of_bind h
  replace h := (of_guard h).2
  obtain ⟨puts, hputs, h⟩ := of_bind h
  constructor
  · intro publication hmem
    obtain ⟨⟨⟩, -, hvalid⟩ := ok_of_mapM_map hchecked hmem
    obtain ⟨⟨⟩, hrelated, hvalid⟩ := of_bind hvalid
    obtain ⟨own, -, hplan⟩ := ok_of_mapM_map hputs hmem
    obtain ⟨⟨⟩, hstored, -⟩ := of_bind hplan
    exact checkedRevision hrelated hvalid hstored
  · have hplanned : puts = publications.map (checkedPuts store) := by
      refine mapM_map_eq_map hputs fun publication _ own hplan => ?_
      obtain ⟨⟨⟩, -, hplan⟩ := of_bind hplan
      replace hplan := of_encode hplan
      exact (Except.ok.inj hplan).symm
    rw [writeTransactionBatches_eq h, hplanned, ← List.flatMap_def]

section

variable (h : WrittenRevisions store publications written)
include h

theorem WrittenRevisions.kept :
    RevisionsKept (fun key => store.lookup key) (fun key => written.lookup key) := by
  obtain ⟨hchecked, rfl⟩ := h
  refine RevisionsKept.deleteAll (KeepingPuts.kept ⟨?_, ?_⟩) ?_
  · intro put hput hkey
    obtain ⟨publication, hmem, hput⟩ := List.mem_flatMap.mp hput
    obtain ⟨hnone, rfl⟩ := (hchecked publication hmem).value_of_mem hput hkey
    exact hnone
  · intro put hput hkey
    obtain ⟨publication, hmem, hput⟩ := List.mem_flatMap.mp hput
    obtain rfl := (hchecked publication hmem).pointer_of_mem hput hkey
    exact ⟨_, rfl, (hchecked publication hmem).newer⟩
  · intro key hkey
    obtain ⟨publication, hmem, hkey⟩ := List.mem_flatMap.mp hkey
    exact validateMutableDeleteKey_kept ((hchecked publication hmem).deletes key hkey)

/-- The related deletes leave revisions and pointers as they were put. -/
theorem WrittenRevisions.lookup (hkey : isRevisionKey key || isCurrentKey key) :
    written.lookup key = (store.putAll (publications.flatMap (checkedPuts store))).lookup key := by
  obtain ⟨hchecked, rfl⟩ := h
  rw [Table.lookup_deleteAll, if_neg]
  intro hdeleted
  obtain ⟨publication, hmem, hdeleted⟩ := List.mem_flatMap.mp hdeleted
  obtain ⟨hrevision, hcurrent⟩ :=
    validateMutableDeleteKey_kept ((hchecked publication hmem).deletes key hdeleted)
  rw [hrevision, hcurrent] at hkey
  cases hkey

end

variable {publication : RevisionPublication}

/-- What is put for a list in order: the pointer of each publication is then at its revision
or at a later one. -/
theorem pointer_putAll (table : SchemaStore)
    (hchecked : ∀ publication ∈ publications, CheckedRevision store publication)
    (hordered : publications.Pairwise fun left right => left.currentKey = right.currentKey →
      left.revision ≤ right.revision) (hmem : publication ∈ publications) :
    ∃ pointer, (table.putAll (publications.flatMap (checkedPuts store))).lookup
        publication.currentKey = some (.currentPointer pointer) ∧
      publication.revision ≤ pointer.revision := by
  -- The induction is on the list; the table carries what the publications before have put.
  induction publications generalizing table with
  | nil => cases hmem
  | cons first rest ih =>
    obtain ⟨hfirst, hrest⟩ := List.forall_mem_cons.mp hchecked
    obtain ⟨hle, hordered⟩ := List.pairwise_cons.mp hordered
    rw [List.flatMap_cons, Table.putAll_append]
    rcases List.mem_cons.mp hmem with rfl | hmem
    · have hkey := (validRevisionPair_kinds hfirst.pair).1
      rcases Table.lookup_putAll_or (table.putAll (checkedPuts store publication))
        (rest.flatMap (checkedPuts store)) publication.currentKey with
        ⟨value, hput, hlook⟩ | ⟨-, hlook⟩
      · obtain ⟨later, hlater, hput⟩ := List.mem_flatMap.mp hput
        obtain ⟨hsame, rfl⟩ := Prod.mk.inj ((hrest later hlater).pointer_of_mem hput hkey)
        exact ⟨_, hlook, hle later hlater hsame⟩
      · refine ⟨⟨publication.revision, publication.revisionKey⟩, hlook.trans ?_, le_rfl⟩
        refine Table.lookup_putAll_of_mem (.head _) fun value hvalue => ?_
        exact (Prod.mk.inj (hfirst.pointer_of_mem hvalue hkey)).2
    · exact ih _ hrest hordered hmem

/-- A revision that a call has accepted, with its pointer. -/
structure AcceptedRevision where
  currentKey : Key
  revision : Nat
  revisionKey : Key
  value : Value
  deriving DecidableEq

def RevisionPublication.accepted (publication : RevisionPublication) : AcceptedRevision :=
  ⟨publication.currentKey, publication.revision, publication.revisionKey,
    publication.revisionValue⟩

/-- The revision is stored, and its pointer is there with this revision or a later one. -/
structure StoredRevision (look : Key → Option Value) (entry : AcceptedRevision) : Prop where
  kinds : isRevisionKey entry.revisionKey = true ∧ isCurrentKey entry.currentKey = true
  value : look entry.revisionKey = some entry.value
  pointer : ∃ pointer, look entry.currentKey = some (.currentPointer pointer) ∧
    entry.revision ≤ pointer.revision

/-- A consistent list stores the revision of each of its publications. -/
theorem WrittenRevisions.stored (h : WrittenRevisions store publications written)
    (hconsistent : ConsistentRevisions publications) (hmem : publication ∈ publications) :
    StoredRevision (fun key => written.lookup key) publication.accepted := by
  have hchecked := h.1 publication hmem
  obtain ⟨hcurrent, hkey, -⟩ := validRevisionPair_kinds hchecked.pair
  refine ⟨⟨hkey, hcurrent⟩, ?_, ?_⟩
  · rcases hchecked.revision_mem with hstored | hput
    · exact h.kept.immutable hkey hstored
    refine (h.lookup (Bool.or_eq_true_iff.mpr (.inl hkey))).trans ?_
    refine Table.lookup_putAll_of_mem (List.mem_flatMap.mpr ⟨publication, hmem, hput⟩) ?_
    intro value hvalue
    obtain ⟨other, hother, hvalue⟩ := List.mem_flatMap.mp hvalue
    obtain ⟨hsame, rfl⟩ := Prod.mk.inj ((h.1 other hother).value_of_mem hvalue hkey).2
    exact (hconsistent.values publication hmem other hother hsame).symm
  · obtain ⟨pointer, hpointer, hle⟩ := pointer_putAll store h.1 hconsistent.ordered hmem
    exact ⟨pointer, (h.lookup (Bool.or_eq_true_iff.mpr (.inr hcurrent))).trans hpointer, hle⟩

/-- A single publication is the list of it, apart from the order of the checks. -/
theorem publishRevisionBatch_inv (h : publishRevisionBatch limits publication store = .ok written) :
    WrittenRevisions store [publication] written := by
  obtain ⟨⟨⟩, hrelated, h⟩ := of_bind h
  replace h := of_encode h
  obtain ⟨⟨⟩, hvalid, h⟩ := of_bind h
  obtain ⟨⟨⟩, hstored, h⟩ := of_bind h
  refine ⟨List.forall_mem_singleton.mpr (checkedRevision hrelated hvalid hstored), ?_⟩
  rw [List.flatMap_singleton, List.flatMap_singleton]
  exact writeTransactionBatches_eq h

theorem consistentRevisions_singleton : ConsistentRevisions [publication] := by
  refine ⟨fun left hleft right hright _ => ?_, List.pairwise_singleton _ _⟩
  rw [List.mem_singleton.mp hleft, List.mem_singleton.mp hright]

end Lists

/-! ## Reconciled publications -/

section Reconciled

variable {manifestHash : List ID → ID} {store : SchemaStore} {request : ReconciledRevision}
  {input : PublicationInput} {puts : Pending} {state : ReconciledState} {plan : PublicationPlan}

theorem Prepared.kinds (hprepared : Prepared request input) :
    isCurrentKey request.currentKey = true ∧ isRevisionKey request.revisionKey = true ∧
      isCurrentKey request.revisionKey = false ∧ isRevisionKey request.currentKey = false := by
  obtain ⟨hcurrent, hrevision⟩ := reconciledIdentity_keys hprepared.identity
  rw [hcurrent, hrevision]
  cases input.isInode <;> exact ⟨rfl, rfl, rfl, rfl⟩

section

variable (hplanned : Planned manifestHash store input puts state plan)
  (hprepared : Prepared request input)
include hplanned hprepared

/-- The puts that close a plan are not under revisions or pointers. -/
theorem Planned.lookup_revisions (hkey : isRevisionKey key || isCurrentKey key) :
    puts.lookup key = plan.puts.lookup key := by
  obtain rfl := hprepared.request
  refine hplanned.lookup_other (hprepared.closingAvoids_of
    (fun key => isRevisionKey key || isCurrentKey key) (fun _ _ _ _ _ _ => ⟨rfl, rfl, rfl⟩)
    (fun put hput => ?_) hkey) ?_
  · obtain ⟨hrevision, hcurrent⟩ := validateMutableKey_kept (hprepared.related put hput)
    rw [hrevision, hcurrent]
    rfl
  · cases key <;> first | rfl | cases hkey

theorem Planned.keeping : KeepingPuts store (reconciledMutations puts) := by
  obtain ⟨hcurrentKey, hrevisionKey, hnotCurrent, hnotRevision⟩ := hprepared.kinds
  obtain ⟨-, hfound, -, hnewer⟩ := loadReconciledRevisionState_checked hplanned.loaded
  obtain rfl := hprepared.request
  have hfirst : ∀ put ∈ reconciledMutations puts, isRevisionKey put.1 || isCurrentKey put.1 →
      put = (input.reconciled.currentKey, input.currentValue) ∨ (state.revisionFound = false ∧
        put = (input.reconciled.revisionKey, input.reconciled.revisionValue)) := by
    intro put hput hkey
    obtain ⟨entry, hentry, rfl⟩ := List.mem_map.mp hput
    have hlook := Table.mem_entries_iff.mp hentry
    rw [hplanned.lookup_revisions hprepared hkey] at hlook
    rcases hplanned.first.mem hlook with heq | hrevision | ⟨segment, -, -, heq⟩
    · exact .inl heq
    · exact .inr hrevision
    · rw [(Prod.mk.inj heq).1] at hkey
      cases hkey
  constructor
  · intro put hput hkey
    rcases hfirst put hput (Bool.or_eq_true_iff.mpr (.inl hkey)) with rfl | ⟨hnew, rfl⟩
    · rw [hnotRevision] at hkey
      cases hkey
    · rw [hfound] at hnew
      exact Option.not_isSome_iff_eq_none.mp (Bool.eq_false_iff.mp hnew)
  · intro put hput hkey
    rcases hfirst put hput (Bool.or_eq_true_iff.mpr (.inr hkey)) with rfl | ⟨-, rfl⟩
    · exact ⟨_, hprepared.current, hnewer⟩
    · rw [hnotCurrent] at hkey
      cases hkey

theorem Planned.seen_revision :
    seen store puts request.revisionKey = some request.revisionValue := by
  obtain ⟨-, hkey, -⟩ := hprepared.kinds
  obtain ⟨hvalue, hfound, -⟩ := loadReconciledRevisionState_checked hplanned.loaded
  obtain rfl := hprepared.request
  have hdistinct := distinctKeys_of_identity hprepared.identity
  rw [seen_congr (hplanned.lookup_revisions hprepared (Bool.or_eq_true_iff.mpr (.inl hkey)))]
  cases hstored : store.lookup input.reconciled.revisionKey with
  | none =>
    rw [hstored] at hfound
    exact seen_of_lookup (hplanned.first.lookup_revision hdistinct hfound)
  | some value =>
    rw [hvalue value hstored] at hstored
    refine (seen_of_lookup_none ?_).trans hstored
    rw [hstored] at hfound
    refine Option.eq_none_iff_forall_ne_some.mpr fun written hlook => ?_
    rcases hplanned.first.mem hlook with heq | ⟨hnew, -⟩ | ⟨segment, -, -, heq⟩
    · exact hdistinct.pointer (Prod.mk.inj heq).1.symm
    · rw [hfound] at hnew
      cases hnew
    · exact hdistinct.revision _ _ (Prod.mk.inj heq).1

theorem Planned.seen_current : seen store puts request.currentKey =
    some (.currentPointer ⟨request.revision, request.revisionKey⟩) := by
  obtain ⟨hkey, -⟩ := hprepared.kinds
  obtain rfl := hprepared.request
  rw [seen_congr (hplanned.lookup_revisions hprepared (Bool.or_eq_true_iff.mpr (.inr hkey))),
    ← hprepared.current]
  exact seen_of_lookup
    (hplanned.first.lookup_current (distinctKeys_of_identity hprepared.identity))

end

def ReconciledRevision.accepted (request : ReconciledRevision) : AcceptedRevision :=
  ⟨request.currentKey, request.revision, request.revisionKey, request.revisionValue⟩

end Reconciled

/-! ## Runs -/

/-- A call that stores revisions. -/
inductive RevisionWrite where
  | batch (publication : RevisionPublication)
  | deferred (publications : List RevisionPublication)
  | reconciled (call : PublicationCall)

/-- The revisions that a call has accepted and the store after. -/
def RevisionWrite.run (limits : Limits) (manifestHash : List ID → ID) (store : SchemaStore) :
    RevisionWrite → Result (List AcceptedRevision × SchemaStore)
  | .batch publication => do
      let written ← publishRevisionBatch limits publication store
      .ok ([publication.accepted], written)
  | .deferred publications => do
      let written ← publishRevisionBatchesDeferred limits publications store
      .ok (publications.map (·.accepted), written)
  | .reconciled call => do
      let (requests, written) ← call.run limits manifestHash store
      .ok (requests.map (·.accepted), written)

/-- A call and whether its commit, if it comes to one, is applied. -/
structure RevisionAction where
  write : RevisionWrite
  applied : Bool

/-- A store and the revisions that were accepted, as often as they were. -/
structure RevisionState where
  store : SchemaStore
  accepted : List AcceptedRevision := []

def revisionWriteStep (limits : Limits) (manifestHash : List ID → ID) (state : RevisionState)
    (action : RevisionAction) : RevisionState :=
  match action.write.run limits manifestHash state.store with
  | .ok (accepted, store) =>
    if action.applied then ⟨store, state.accepted ++ accepted⟩ else state
  | .error _ => state

def RevisionWrite.Consistent : RevisionWrite → Prop
  | .deferred publications => ConsistentRevisions publications
  | _ => True

/-- The revisions that were accepted are those that are stored. -/
def AcceptedStored (look : Key → Option Value) (accepted : List AcceptedRevision) : Prop :=
  ∀ entry ∈ accepted, StoredRevision look entry

theorem AcceptedStored.of_kept {look look' : Key → Option Value} {accepted : List AcceptedRevision}
    (h : AcceptedStored look accepted) (hkept : RevisionsKept look look') :
    AcceptedStored look' accepted := by
  intro entry hentry
  obtain ⟨⟨hrevision, hcurrent⟩, hvalue, pointer, hpointer, hle⟩ := h entry hentry
  obtain ⟨pointer', hpointer', hle'⟩ := hkept.monotone hcurrent hpointer
  exact ⟨⟨hrevision, hcurrent⟩, hkept.immutable hrevision hvalue, pointer', hpointer',
    hle.trans hle'⟩

theorem AcceptedStored.append {accepted more : List AcceptedRevision}
    (h : AcceptedStored look accepted) (hmore : AcceptedStored look more) :
    AcceptedStored look (accepted ++ more) :=
  List.forall_mem_append.mpr ⟨h, hmore⟩

section Runs

variable {limits : Limits} {manifestHash : List ID → ID}

/-- Reconciled publications keep the revisions of any store before, and store their own. -/
theorem kept_reconciled (before : Key → Option Value) :
    KeptByPublications manifestHash
      (fun accepted (request : ReconciledRevision) =>
        accepted ++ [request.accepted])
      (fun _ _ => True)
      (fun look accepted => RevisionsKept before look ∧ AcceptedStored look accepted) where
  congr_keys := by
    intro look look' accepted hinv h
    have hsame : RevisionsKept look look' := by
      constructor
      · intro key value hkey hvalue
        rw [h key ?_, hvalue]
        rintro rfl
        cases hkey
      · intro key pointer hkey hpointer
        refine ⟨pointer, ?_, Nat.le_refl _⟩
        rw [h key ?_, hpointer]
        rintro rfl
        cases hkey
    exact ⟨hinv.1.trans hsame, hinv.2.of_kept hsame⟩
  noop := by
    intro store accepted request input state hinv hprepared h hnoop
    obtain ⟨hvalue, -, hstored, -⟩ := loadReconciledRevisionState_checked h
    obtain ⟨hfound, pointer, hpointer, hrevision⟩ := hstored hnoop
    obtain ⟨value, hlook⟩ := Option.isSome_iff_exists.mp hfound
    rw [hvalue value hlook] at hlook
    obtain ⟨hcurrentKey, hrevisionKey, -⟩ := hprepared.kinds
    obtain rfl := hprepared.request
    refine ⟨hinv.1, hinv.2.append (List.forall_mem_singleton.mpr ?_)⟩
    exact ⟨⟨hrevisionKey, hcurrentKey⟩, hlook, pointer, hpointer, hrevision.ge⟩
  publish := by
    intro now store accepted request input puts hinv hprepared _ h
    have hprepared := prepareReconciledRevision_inv hprepared
    obtain ⟨state, plan, hplanned⟩ := planReconciledRevision_inv h
    have hkept := (hplanned.keeping hprepared).kept
    simp only [lookup_putAll_reconciledMutations] at hkept
    obtain ⟨hcurrentKey, hrevisionKey, -⟩ := hprepared.kinds
    refine ⟨hinv.1.trans hkept,
      (hinv.2.of_kept hkept).append (List.forall_mem_singleton.mpr ?_)⟩
    exact ⟨⟨hrevisionKey, hcurrentKey⟩, hplanned.seen_revision hprepared, _,
      hplanned.seen_current hprepared, le_rfl⟩

theorem PublicationCall.meets_true (store : SchemaStore) (call : PublicationCall) :
    call.Meets limits manifestHash (fun _ _ => True) store := by
  cases call with
  | single now request => trivial
  | allocated now build => exact fun _ _ _ => trivial
  | grouped now count build => exact fun _ _ _ => groupMeets_of_forall (fun _ _ _ => trivial) store

variable {store written : SchemaStore}

/-- A call that is accepted keeps the revisions and pointers, and a consistent one stores
what it has accepted. -/
theorem RevisionWrite.run_kept {write : RevisionWrite} {accepted : List AcceptedRevision}
    (h : write.run limits manifestHash store = .ok (accepted, written)) :
    RevisionsKept (fun key => store.lookup key) (fun key => written.lookup key) ∧
      (write.Consistent → AcceptedStored (fun key => written.lookup key) accepted) := by
  cases write with
  | batch publication =>
    obtain ⟨after, hafter, h⟩ := of_bind h
    cases h
    have hwritten := publishRevisionBatch_inv hafter
    exact ⟨hwritten.kept, fun _ => List.forall_mem_singleton.mpr
      (hwritten.stored consistentRevisions_singleton (List.mem_singleton_self _))⟩
  | deferred publications =>
    obtain ⟨after, hafter, h⟩ := of_bind h
    cases h
    have hwritten := publishRevisionBatchesDeferred_inv hafter
    exact ⟨hwritten.kept, fun hconsistent =>
      List.forall_mem_map.mpr fun _ hmem => hwritten.stored hconsistent hmem⟩
  | reconciled call =>
    obtain ⟨⟨requests, after⟩, hafter, h⟩ := of_bind h
    cases h
    obtain ⟨hkept, hstored⟩ := (kept_reconciled fun key => store.lookup key).call
      (call.meets_true store)
      ⟨RevisionsKept.refl _, List.forall_mem_nil _⟩ hafter
    rw [List.foldl_append_eq_append, ← List.flatMap_def, ← List.map_eq_flatMap] at hstored
    exact ⟨hkept, fun _ => hstored⟩

/-- Every step keeps the revisions and pointers, whatever the lists. -/
theorem revisionWriteStep_kept (state : RevisionState) (action : RevisionAction) :
    RevisionsKept (fun key => state.store.lookup key)
      (fun key => (revisionWriteStep limits manifestHash state action).store.lookup key) := by
  unfold revisionWriteStep
  split
  · rename_i hrun
    split
    · exact (RevisionWrite.run_kept hrun).1
    · exact RevisionsKept.refl _
  · exact RevisionsKept.refl _

theorem revisionWriteStep_stored {state : RevisionState} {action : RevisionAction}
    (hconsistent : action.write.Consistent)
    (h : AcceptedStored (fun key => state.store.lookup key) state.accepted) :
    AcceptedStored
      (fun key => (revisionWriteStep limits manifestHash state action).store.lookup key)
      (revisionWriteStep limits manifestHash state action).accepted := by
  unfold revisionWriteStep
  split
  · rename_i hrun
    split
    · obtain ⟨hkept, hstored⟩ := RevisionWrite.run_kept hrun
      exact (h.of_kept hkept).append (hstored hconsistent)
    · exact h
  · exact h

end Runs

/-- After a run: no two values were accepted for one revision key, what was accepted is
stored, and no pointer is behind a revision that was accepted for it. -/
structure RevisionsSound (state : RevisionState) : Prop where
  once : ∀ left ∈ state.accepted, ∀ right ∈ state.accepted,
    left.revisionKey = right.revisionKey → left.value = right.value
  stored : AcceptedStored (fun key => state.store.lookup key) state.accepted

/-- Over every run of calls from any store, applied or not: the revisions are kept and the
pointers do not go back; and as long as every list is consistent, the same holds inside the
transactions, for all that was accepted. -/
theorem revisions_accepted_once (limits : Limits) (manifestHash : List ID → ID)
    (store : SchemaStore) (actions : List RevisionAction)
    (hconsistent : ∀ action ∈ actions, action.write.Consistent) :
    Along (revisionWriteStep limits manifestHash)
      (fun state action => RevisionsKept (fun key => state.store.lookup key)
        (fun key => (revisionWriteStep limits manifestHash state action).store.lookup key))
      ⟨store, []⟩ actions ∧
    RevisionsSound (actions.foldl (revisionWriteStep limits manifestHash) ⟨store, []⟩) := by
  constructor
  · apply Along.of_forall_mem
    intro action _ state
    exact revisionWriteStep_kept state action
  · have halong : Along (revisionWriteStep limits manifestHash)
        (fun _ action => action.write.Consistent) ⟨store, []⟩ actions :=
      Along.of_forall_mem (fun action haction _ => hconsistent action haction) _
    have hstored := halong.invariant
      (fun state => AcceptedStored (fun key => state.store.lookup key) state.accepted)
      (fun _ _ hmeets h => revisionWriteStep_stored hmeets h)
      (fun _ hmem => absurd hmem List.not_mem_nil)
    refine ⟨fun left hleft right hright hsame => ?_, hstored⟩
    have hlook := (hstored left hleft).value
    rw [hsame, (hstored right hright).value] at hlook
    exact (Option.some.inj hlook).symm

/-- A revision of inode 2, which has no content. -/
def sizedRevision (revision size : Nat) : RevisionPublication :=
  { currentKey := .currentInode 1 2
    revisionKey := .inodeRevision 1 2 revision
    revisionValue := .inodeRevision { contentMode := .none, size }
    revision }

/-- A list with a repetition and a later revision, and a revision after it. -/
theorem revisions_accepted_once_repeated : let actions : List RevisionAction :=
      [⟨.deferred [sizedRevision 1 5, sizedRevision 1 5, sizedRevision 3 7], true⟩,
        ⟨.batch (sizedRevision 4 6), true⟩]
    Along (revisionWriteStep ⟨100, 65536⟩ fun _ => 1)
      (fun state action => RevisionsKept (fun key => state.store.lookup key)
        (fun key => (revisionWriteStep ⟨100, 65536⟩ (fun _ => 1) state action).store.lookup key))
      ⟨∅, []⟩ actions ∧
    RevisionsSound (actions.foldl (revisionWriteStep ⟨100, 65536⟩ fun _ => 1) ⟨∅, []⟩) := by
  apply revisions_accepted_once
  refine List.forall_mem_cons.mpr ⟨⟨?_, ?_⟩, List.forall_mem_singleton.mpr trivial⟩ <;> decide

/-- A list that names revision 1 with two values is accepted, and the second is stored; one
that names revision 5 before revision 3 is accepted, and the pointer is left at 3. -/
theorem two_values_accepted :
    (let state := revisionWriteStep ⟨100, 65536⟩ (fun _ => 1) ⟨∅, []⟩
      ⟨.deferred [sizedRevision 1 5, sizedRevision 1 6], true⟩
    state.accepted = [(sizedRevision 1 5).accepted, (sizedRevision 1 6).accepted] ∧
      state.store.lookup (.inodeRevision 1 2 1) =
        some (.inodeRevision { contentMode := .none, size := 6 })) ∧
    let state := revisionWriteStep ⟨100, 65536⟩ (fun _ => 1) ⟨∅, []⟩
      ⟨.deferred [sizedRevision 5 7, sizedRevision 3 7], true⟩
    state.accepted = [(sizedRevision 5 7).accepted, (sizedRevision 3 7).accepted] ∧
      state.store.lookup (.currentInode 1 2) =
        some (.currentPointer ⟨3, .inodeRevision 1 2 3⟩) := by
  decide +kernel

end Vaultic.Daemon
