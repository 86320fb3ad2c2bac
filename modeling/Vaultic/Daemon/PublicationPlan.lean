/-
  Daemon/PublicationPlan.lean  —  what the plan of a publication writes.

  The phases of a plan go blob by blob, and each blob has keys of its own: its count and
  its reverse records.  So the plan is described one blob at a time, by what the phases make
  of the counts of the blob and of the sets of inodes and manifests it is filed under.  The
  other keys are written before the phases, and the puts that close the plan (debts, related
  puts, analytics, hardlinks) are under keys that the counts do not depend on.
-/
import Vaultic.Daemon.Publication

set_option autoImplicit false

namespace Vaultic.Daemon

open Vaultic.Lib Vaultic.Schema

/-! ## The keys of a blob -/

/-- The blob whose references a key keeps. -/
def referenceOwner : Key → Option ID
  | .reverseInode blob _ _ | .reverseManifest blob _ | .referenceCount blob => some blob
  | _ => none

/-- What a transaction reads: its pending puts, then the store. -/
def seen (store : SchemaStore) (puts : Pending) (key : Key) : Option Value :=
  (puts.lookup key).or (store.lookup key)

/-- The manifest of a plan, if it has one. -/
def PublicationPlan.manifest (plan : PublicationPlan) : Option ID :=
  if plan.segments = [] then none else some plan.manifestID

variable {manifestHash : List ID → ID} {now : Int} {store : SchemaStore} {puts puts' : Pending}
  {key : Key} {value : Value} {blob manifest : ID} {reconciled : ReconciledRevision}
  {input : PublicationInput} {state : ReconciledState} {plan : PublicationPlan}

theorem seen_of_lookup (h : puts.lookup key = some value) : seen store puts key = some value := by
  rw [seen, h]
  rfl

theorem seen_of_lookup_none
    (h : puts.lookup key = none) : seen store puts key = store.lookup key := by
  rw [seen, h]
  rfl

theorem seen_congr
    (h : puts'.lookup key = puts.lookup key) : seen store puts' key = seen store puts key := by
  rw [seen, seen, h]

/-- The plan is what the store holds after it was written. -/
theorem lookup_putAll_reconciledMutations (store : SchemaStore) (puts : Pending) (key : Key) :
    (store.putAll (reconciledMutations puts)).lookup key = seen store puts key := by
  have h := Table.lookup_putAll_entries (t := store) (s := puts) (f := id) (g := fun _ v => v)
    Function.injective_id key
  unfold reconciledMutations seen
  refine h.trans ?_
  cases puts.lookup key <;> rfl

/-- The references of one blob: its counts, where they can be read, and the inodes and
manifests it is filed under. -/
@[ext] structure BlobView where
  counts : Option ReferenceCounts
  inodes : Set (Nat × Nat)
  manifests : Set ID

/-- The counts of a blob; a blob without a record has none. -/
def lookupCounts (look : Key → Option Value) (blob : ID) : Option ReferenceCounts :=
  match look (.referenceCount blob) with
  | none => some {}
  | some value => valueCounts value

def blobView (look : Key → Option Value) (blob : ID) : BlobView :=
  { counts := lookupCounts look blob
    inodes := {inode | (look (.reverseInode blob inode.1 inode.2)).isSome}
    manifests := {manifest | (look (.reverseManifest blob manifest)).isSome} }

theorem blobView_congr {look look' : Key → Option Value}
    (h : ∀ key, referenceOwner key = some blob → look key = look' key) :
    blobView look blob = blobView look' blob := by
  unfold blobView lookupCounts
  congr 1
  · rw [h (.referenceCount blob) rfl]
  · ext inode
    rw [Set.mem_ofPred_eq, Set.mem_ofPred_eq, h (.reverseInode blob inode.1 inode.2) rfl]
  · ext manifest
    rw [Set.mem_ofPred_eq, Set.mem_ofPred_eq, h (.reverseManifest blob manifest) rfl]

/-- The counts in a record. -/
def recordCounts (record : ReferenceCountRecord) : ReferenceCounts :=
  { totalReferences := record.totalReferences, distinctInodes := record.distinctInodes
    distinctRevisions := record.distinctRevisions
    distinctManifests := record.distinctManifests }

variable {record : ReferenceCountRecord}

theorem transactionReferenceCount_counts
    (h : transactionReferenceCount store puts blob = .ok record) :
    lookupCounts (seen store puts) blob = some (recordCounts record) := by
  have hdecode : ∀ value, unmarshalReferenceCountRecord value = .ok record →
      valueCounts value = some (recordCounts record) := by
    intro value hvalue
    obtain ⟨-, hview, -⟩ := decode_eq_ok.mp hvalue
    cases value with
    | referenceCount r =>
      cases hview
      rfl
    | _ => cases hview
  revert h
  unfold transactionReferenceCount lookupCounts seen
  cases puts.lookup (.referenceCount blob) with
  | some value => exact hdecode value
  | none =>
    cases store.lookup (.referenceCount blob) with
    | some value => exact hdecode value
    | none =>
      intro h
      cases h
      rfl

theorem transactionReferenceCount_congr
    (h : ∀ key, referenceOwner key = some blob → puts.lookup key = puts'.lookup key) :
    transactionReferenceCount store puts blob = transactionReferenceCount store puts' blob := by
  unfold transactionReferenceCount
  rw [h (.referenceCount blob) rfl]

/-! ## The phases -/

/-- The inode of the request. -/
abbrev PublicationInput.identity (input : PublicationInput) : Nat × Nat :=
  (input.fsid, input.inode)

/-- What a phase over blobs makes of each blob, in any view that reads only the keys of the
blob. -/
theorem planEach_view {ν : Type} {view : (Key → Option Value) → ID → ν}
    (hview : ∀ {look look' blob}, (∀ key, referenceOwner key = some blob → look key = look' key) →
      view look blob = view look' blob) {plan : Pending → ID → Result (List Mutation)}
    (hlocal : Local referenceOwner plan) (change : ID → ν → ν)
    (hplan : ∀ puts blob mutations, plan puts blob = .ok mutations →
      view (seen store (puts.putAll mutations)) blob = change blob (view (seen store puts) blob))
    {ids : List ID} (hnodup : ids.Nodup) (h : planEach plan ids puts = .ok puts') (blob : ID) :
    view (seen store puts') blob =
      if blob ∈ ids then change blob (view (seen store puts) blob)
      else view (seen store puts) blob := by
  split
  · rename_i hblob
    obtain ⟨mutations, hrun, hlookup⟩ := hlocal.planEach_owned h hnodup hblob
    rw [← hplan puts blob mutations hrun]
    exact hview fun key hkey => seen_congr (hlookup key hkey)
  · rename_i hblob
    refine hview fun key hkey => seen_congr (hlocal.planEach_other h ?_)
    intro item hitem howner
    rw [hkey] at howner
    exact hblob (Option.some.inj howner ▸ hitem)

theorem seen_insert (puts : Pending) (a key : Key) (value : Value) :
    seen store (puts.insert a value) key = if a = key then some value else seen store puts key := by
  unfold seen
  rw [Table.lookup_insert_eq]
  split <;> rfl

/-- The puts of the inode phases: a reverse record and a count. -/
theorem blobView_inodePuts (inode : Nat × Nat) {reverse : Value} :
    blobView (seen store (puts.putAll
      [(.reverseInode blob inode.1 inode.2, reverse),
        (.referenceCount blob, .referenceCount record)])) blob =
      { counts := some (recordCounts record)
        inodes := insert inode (blobView (seen store puts) blob).inodes
        manifests := (blobView (seen store puts) blob).manifests } := by
  ext1
  · simp [blobView, lookupCounts, seen_insert, valueCounts, recordCounts]
  · ext ⟨fsid, inode'⟩
    by_cases heq : inode = (fsid, inode')
    · simp [blobView, seen_insert, heq]
    · have hne : ¬(inode.1 = fsid ∧ inode.2 = inode') := fun h => heq (Prod.ext h.1 h.2)
      simp [blobView, seen_insert, hne, Ne.symm heq]
  · ext manifest
    simp [blobView, seen_insert]

/-- The puts of the manifest phases. -/
theorem blobView_manifestPut {reverse : Value} :
    blobView (seen store (puts.putAll [(.reverseManifest blob manifest, reverse)])) blob =
      { blobView (seen store puts) blob with
        manifests := insert manifest (blobView (seen store puts) blob).manifests } := by
  ext1
  · simp [blobView, lookupCounts, seen_insert]
  · ext inode
    simp [blobView, seen_insert]
  ext manifest'
  by_cases heq : manifest = manifest'
  · simp [blobView, seen_insert, heq]
  · simp [blobView, seen_insert, heq, Ne.symm heq]

theorem blobView_countPut :
    blobView (seen store (puts.putAll [(.referenceCount blob, .referenceCount record)])) blob =
      { blobView (seen store puts) blob with counts := some (recordCounts record) } := by
  ext1
  · simp [blobView, lookupCounts, seen_insert, valueCounts, recordCounts]
  · ext inode
    simp [blobView, seen_insert]
  · ext manifest
    simp [blobView, seen_insert]

theorem historicalInodePuts_local : Local referenceOwner (historicalInodePuts store input) where
  writes := by
    intro puts blob mutations h put hput
    obtain ⟨reverse, -, h⟩ := of_bind h
    obtain ⟨count, -, h⟩ := of_bind h
    obtain ⟨encoded, -, h⟩ := of_bind h
    cases h
    simp only [List.mem_cons, List.not_mem_nil, or_false] at hput
    rcases hput with rfl | rfl <;> rfl
  reads := by
    intro puts puts' blob h
    unfold historicalInodePuts
    rw [transactionReferenceCount_congr h]

/-- A blob that left the content stays filed under the inode. -/
def historicalView (input : PublicationInput) (view : BlobView) : BlobView :=
  { view with inodes := insert input.identity view.inodes }

variable {mutations : List Mutation}

theorem historicalInodePuts_view (h : historicalInodePuts store input puts blob = .ok mutations) :
    blobView (seen store (puts.putAll mutations)) blob =
      historicalView input (blobView (seen store puts) blob) := by
  obtain ⟨reverse, -, h⟩ := of_bind h
  obtain ⟨count, hcount, h⟩ := of_bind h
  replace h := of_encode h
  cases h
  have hcounts := transactionReferenceCount_counts hcount
  refine (blobView_inodePuts input.identity).trans (BlobView.ext ?_ rfl rfl)
  exact hcounts.symm

theorem historicalManifestPuts_local :
    Local referenceOwner (historicalManifestPuts store manifest) where
  writes := by
    intro puts blob mutations h put hput
    unfold historicalManifestPuts at h
    split at h
    · cases h
      cases hput
    obtain ⟨reverse, -, h⟩ := of_bind h
    obtain ⟨encoded, -, h⟩ := of_bind h
    cases h
    rw [List.mem_singleton.mp hput]
    rfl
  reads := fun _ => rfl

/-- Only manifests that the blob is filed under are written. -/
theorem historicalManifestPuts_view
    (h : historicalManifestPuts store manifest puts blob = .ok mutations) :
    blobView (seen store (puts.putAll mutations)) blob = blobView (seen store puts) blob := by
  unfold historicalManifestPuts at h
  split at h
  · cases h
    rfl
  rename_i value hstored
  obtain ⟨reverse, -, h⟩ := of_bind h
  obtain ⟨encoded, -, h⟩ := of_bind h
  cases h
  refine blobView_manifestPut.trans (BlobView.ext rfl rfl (Set.insert_eq_of_mem ?_))
  change (seen store puts (.reverseManifest blob manifest)).isSome = true
  unfold seen
  rw [hstored]
  cases puts.lookup (.reverseManifest blob manifest) <;> rfl

/-- The counts of a blob of the new content. -/
def addRevision (occurrences : Nat) (known : Bool) (counts : ReferenceCounts) : ReferenceCounts :=
  { counts with
    totalReferences := counts.totalReferences + occurrences
    distinctInodes := if known then counts.distinctInodes else counts.distinctInodes + 1
    distinctRevisions := counts.distinctRevisions + 1 }

theorem currentInodePuts_inv (h : currentInodePuts store input puts blob = .ok mutations) :
    ∃ reverse count record, transactionReferenceCount store puts blob = .ok count ∧
      recordCounts record = addRevision (input.reconciled.contentIDs.count blob)
        (store.lookup (.reverseInode blob input.fsid input.inode)).isSome (recordCounts count) ∧
      mutations = [(.reverseInode blob input.fsid input.inode, reverse),
        (.referenceCount blob, .referenceCount record)] := by
  obtain ⟨reverse, -, h⟩ := of_bind h
  obtain ⟨count, hcount, h⟩ := of_bind h
  obtain ⟨encoded, hencoded, h⟩ := of_bind (of_guard h).2
  obtain ⟨-, -, rfl⟩ := encode_eq_ok.mp hencoded
  exact ⟨reverse, count, _, hcount, rfl, (Except.ok.inj h).symm⟩

theorem currentInodePuts_local : Local referenceOwner (currentInodePuts store input) where
  writes := by
    intro puts blob mutations h put hput
    obtain ⟨reverse, count, record, -, -, rfl⟩ := currentInodePuts_inv h
    simp only [List.mem_cons, List.not_mem_nil, or_false] at hput
    rcases hput with rfl | rfl <;> rfl
  reads := by
    intro puts puts' blob h
    unfold currentInodePuts
    rw [transactionReferenceCount_congr h]

/-- A blob of the new content: counted for the revision and filed under the inode. -/
def currentView (store : SchemaStore) (input : PublicationInput) (blob : ID) (view : BlobView) :
    BlobView :=
  { view with
    counts := view.counts.map (addRevision (input.reconciled.contentIDs.count blob)
      (store.lookup (.reverseInode blob input.fsid input.inode)).isSome)
    inodes := insert input.identity view.inodes }

theorem currentInodePuts_view (h : currentInodePuts store input puts blob = .ok mutations) :
    blobView (seen store (puts.putAll mutations)) blob =
      currentView store input blob (blobView (seen store puts) blob) := by
  obtain ⟨reverse, count, record, hcount, hrecord, rfl⟩ := currentInodePuts_inv h
  have hcounts := transactionReferenceCount_counts hcount
  refine (blobView_inodePuts input.identity).trans (BlobView.ext ?_ rfl rfl)
  change _ = (lookupCounts (seen store puts) blob).map _
  rw [hcounts, hrecord]
  rfl

/-- The counts of a blob that is filed under a manifest for the first time. -/
def addManifest (known : Bool) (counts : ReferenceCounts) : ReferenceCounts :=
  if known then counts
  else
    { counts with
      totalReferences := counts.totalReferences + 1
      distinctManifests := counts.distinctManifests + 1 }

theorem currentManifestPuts_local :
    Local referenceOwner (currentManifestPuts store input manifest) where
  writes := by
    intro puts blob mutations h put hput
    obtain ⟨reverse, -, h⟩ := of_bind h
    split at h
    · cases h
      rw [List.mem_singleton.mp hput]
      rfl
    · obtain ⟨count, -, h⟩ := of_bind h
      split at h
      · cases h
      obtain ⟨encoded, -, h⟩ := of_bind h
      cases h
      simp only [List.mem_cons, List.not_mem_nil, or_false] at hput
      rcases hput with rfl | rfl <;> rfl
  reads := by
    intro puts puts' blob h
    unfold currentManifestPuts
    rw [transactionReferenceCount_congr h]

/-- A blob of the new manifest. -/
def manifestView (store : SchemaStore) (manifest blob : ID) (view : BlobView) : BlobView :=
  { view with
    counts := view.counts.map
      (addManifest (store.lookup (.reverseManifest blob manifest)).isSome)
    manifests := insert manifest view.manifests }

theorem currentManifestPuts_view
    (h : currentManifestPuts store input manifest puts blob = .ok mutations) :
    blobView (seen store (puts.putAll mutations)) blob =
      manifestView store manifest blob (blobView (seen store puts) blob) := by
  obtain ⟨reverse, -, h⟩ := of_bind h
  split at h
  · rename_i hknown
    cases h
    refine blobView_manifestPut.trans (BlobView.ext ?_ rfl rfl)
    change _ = Option.map _ (blobView (seen store puts) blob).counts
    rw [hknown]
    exact Option.map_id'.symm
  · rename_i hknown
    obtain ⟨count, hcount, h⟩ := of_bind h
    split at h
    · cases h
    replace h := of_encode h
    cases h
    have hcounts := transactionReferenceCount_counts hcount
    have hboth := Table.putAll_append puts [(.reverseManifest blob manifest, reverse)]
      [(.referenceCount blob, .referenceCount { count with
        totalReferences := count.totalReferences + 1
        distinctManifests := count.distinctManifests + 1
        updateSequence := input.reconciled.revision })]
    refine (congrArg (fun p => blobView (seen store p) blob) hboth).trans ?_
    rw [blobView_countPut, blobView_manifestPut]
    refine BlobView.ext ?_ rfl rfl
    change _ = (lookupCounts (seen store puts) blob).map _
    rw [hcounts, Bool.eq_false_of_not_eq_true hknown]
    rfl

/-! ## A request that was prepared -/

/-- The keys that the state of a publication is kept under. -/
def publicationKey : Key → Bool
  | .currentInode _ _ | .inodeRevision _ _ _ | .contentManifest _ _ | .reverseInode _ _ _
  | .reverseManifest _ _ | .referenceCount _ => true
  | _ => false

theorem validateMutableKey_publicationKey (h : validateMutableKey key = .ok ())
    (howner : referenceOwner key = none) : publicationKey key = false := by
  cases key with
  | reverseManifest | reverseInode | referenceCount => cases howner
  | currentInode | inodeRevision | contentManifest => cases h
  | _ => rfl

/-- The references of blobs. -/
def blobReference (key : Key) : Bool := (referenceOwner key).isSome

/-- The references of blobs from inodes. -/
def inodeReference : Key → Bool
  | .reverseInode _ _ _ => true
  | _ => false

/-- The keys of publications, but of the references only those that are guarded. -/
def guardedKey (guarded : Key → Bool) (key : Key) : Bool :=
  publicationKey key && (!blobReference key || guarded key)

theorem guardedKey_of_owned (hkey : referenceOwner key = some blob) :
    guardedKey blobReference key = true := by
  cases key <;> first | rfl | cases hkey

theorem guardedKey_mono (hkey : guardedKey inodeReference key = true) :
    guardedKey blobReference key = true := by
  cases key <;> first | rfl | cases hkey

/-- What the preparation of a request has checked. -/
structure Prepared (reconciled : ReconciledRevision) (input : PublicationInput) : Prop where
  request : input.reconciled = reconciled
  current : input.currentValue = .currentPointer ⟨reconciled.revision, reconciled.revisionKey⟩
  identity : reconciledIdentity reconciled = some (input.isInode, input.fsid, input.inode)
  value : validateRevisionValue input.isInode reconciled.revisionValue = .ok ()
  directory : input.isInode = false → reconciled.contentIDs = []
  debts : ∀ key ∈ reconciled.debtKeys, ∃ scope path, key = .crawlDebt scope path
  related : ∀ put ∈ reconciled.relatedPuts, validateMutableKey put.1 = .ok ()

theorem validateReconciledRevisionExtras_inv
    (h : validateReconciledRevisionExtras reconciled = .ok ()) :
    (∀ key ∈ reconciled.debtKeys, ∃ scope path, key = .crawlDebt scope path) ∧
      ∀ put ∈ reconciled.relatedPuts, validateMutableKey put.1 = .ok () := by
  obtain ⟨hdebts, h⟩ := of_guard h
  obtain ⟨checked, hrelated, -⟩ := of_bind h
  constructor
  · intro key hkey
    have hdebt := List.any_eq_false.mp (Bool.eq_false_of_not_eq_true hdebts) key hkey
    cases key <;> first | exact ⟨_, _, rfl⟩ | exact absurd rfl hdebt
  · intro put hput
    obtain ⟨⟨⟩, -, hok⟩ := ok_of_mapM_map hrelated hput
    obtain ⟨⟨⟩, hkey, -⟩ := of_bind hok
    exact hkey

theorem prepareReconciledRevision_inv (h : prepareReconciledRevision reconciled = .ok input) :
    Prepared reconciled input := by
  replace h := of_encode h
  split at h
  · cases h
  rename_i isInode fsid inode hidentity
  obtain ⟨⟨⟩, hvalue, h⟩ := of_bind h
  obtain ⟨hdirectory, h⟩ := of_guard h
  obtain ⟨⟨⟩, hextras, h⟩ := of_bind h
  obtain ⟨hdebts, hrelated⟩ := validateReconciledRevisionExtras_inv hextras
  cases h
  refine ⟨rfl, rfl, hidentity, hvalue, ?_, hdebts, hrelated⟩
  intro hinode
  simpa [show isInode = false from hinode] using hdirectory

/-- An identity is read off the two keys of the request. -/
theorem reconciledIdentity_keys {isInode : Bool} {fsid inode : Nat}
    (h : reconciledIdentity reconciled = some (isInode, fsid, inode)) :
    reconciled.currentKey = (bif isInode then Key.currentInode else .currentDirectory) fsid inode ∧
      reconciled.revisionKey = (bif isInode then Key.inodeRevision else .directoryRevision)
        fsid inode reconciled.revision := by
  unfold reconciledIdentity at h
  split at h <;> try cases h
  all_goals
    rename_i hcurrent hrevision
    split_ifs at h with hsame
    obtain ⟨-, rfl, rfl, rfl⟩ := hsame
    cases h
    exact ⟨hcurrent, hrevision⟩

section

variable (h : Prepared reconciled input)
include h

theorem Prepared.inodeKeys (hinode : input.isInode = true) :
    reconciled.currentKey = .currentInode input.fsid input.inode ∧
      reconciled.revisionKey = .inodeRevision input.fsid input.inode reconciled.revision := by
  simpa [hinode] using reconciledIdentity_keys h.identity

theorem Prepared.directoryKeys (hdirectory : input.isInode = false) :
    reconciled.currentKey = .currentDirectory input.fsid input.inode ∧
      reconciled.revisionKey = .directoryRevision input.fsid input.inode reconciled.revision := by
  simpa [hdirectory] using reconciledIdentity_keys h.identity

end

/-! ## The puts that close a plan -/

theorem debtPuts_key {put : Mutation} (h : debtPuts now store key = .ok (some put)) :
    put.1 = key := by
  unfold debtPuts at h
  split at h
  · cases h
  obtain ⟨debt, -, h⟩ := of_bind h
  obtain ⟨encoded, -, h⟩ := of_bind h
  cases h
  rfl

theorem planReconciledDebt_lookup (h : planReconciledDebt now store reconciled puts = .ok puts')
    (hdebts : ∀ debt ∈ reconciled.debtKeys, debt ≠ key)
    (hrelated : ∀ put ∈ reconciled.relatedPuts, put.1 ≠ key) :
    puts'.lookup key = puts.lookup key := by
  obtain ⟨debts, hplanned, h⟩ := of_bind h
  cases h
  rw [Table.lookup_putAll_of_forall_ne hrelated]
  refine Table.lookup_putAll_of_forall_ne fun put hput => hdebts _ ?_
  exact keys_of_planned hplanned (fun _ _ => debtPuts_key) hput

theorem planReconciledAnalytics_lookup
    (h : planReconciledAnalytics now store input state puts = .ok puts')
    (hkey : ∀ bytes, key ≠ .other bytes) : puts'.lookup key = puts.lookup key := by
  unfold planReconciledAnalytics at h
  split at h
  · cases h
    rfl
  split at h
  · cases h
    rfl
  obtain ⟨record, -, h⟩ := of_bind h
  obtain ⟨encoded, -, h⟩ := of_bind h
  cases h
  exact AList.lookup_insert_ne (hkey _)

theorem planReconciledHardlinks_lookup (h : planReconciledHardlinks input puts = .ok puts')
    (hkey : ∀ fsid inode revision, key ≠ .hardlinkRefs fsid inode revision) :
    puts'.lookup key = puts.lookup key := by
  rcases ite_eq_iff.mp h with ⟨-, h⟩ | ⟨-, h⟩
  · cases h
    rfl
  obtain ⟨encoded, -, h⟩ := of_bind h
  cases h
  exact AList.lookup_insert_ne (hkey _ _ _)

/-- The keys that the puts which close the plan of a request are not under. -/
structure ClosingAvoids (reconciled : ReconciledRevision) (key : Key) : Prop where
  debts : ∀ debt ∈ reconciled.debtKeys, debt ≠ key
  related : ∀ put ∈ reconciled.relatedPuts, put.1 ≠ key
  other : ∀ bytes, key ≠ .other bytes
  hardlinks : ∀ fsid inode revision, key ≠ .hardlinkRefs fsid inode revision

/-- The keys of a kind that neither the closing puts nor the related ones are of. -/
theorem Prepared.closingAvoids_of (hprepared : Prepared reconciled input) (kind : Key → Bool)
    (hclosing : ∀ scope path bytes fsid inode revision, kind (.crawlDebt scope path) = false ∧
      kind (.other bytes) = false ∧ kind (.hardlinkRefs fsid inode revision) = false)
    (hrelated : ∀ put ∈ reconciled.relatedPuts, kind put.1 = false) (hkey : kind key = true) :
    ClosingAvoids reconciled key := by
  have hne : ∀ {other}, kind other = false → other ≠ key := by
    rintro other hother rfl
    rw [hother] at hkey
    cases hkey
  refine ⟨fun debt hdebt => ?_, fun put hput => hne (hrelated put hput),
    fun bytes => (hne (hclosing 0 0 bytes 0 0 0).2.1).symm,
    fun fsid inode revision => (hne (hclosing 0 0 [] fsid inode revision).2.2).symm⟩
  obtain ⟨scope, path, rfl⟩ := hprepared.debts _ hdebt
  exact hne (hclosing scope path [] 0 0 0).1

/-- The keys of publications, when the related puts leave the guarded references alone. -/
theorem Prepared.closingAvoids (hprepared : Prepared reconciled input) {guarded : Key → Bool}
    (hrelated : ∀ put ∈ reconciled.relatedPuts, guarded put.1 = false)
    (hkey : guardedKey guarded key = true) : ClosingAvoids reconciled key := by
  refine hprepared.closingAvoids_of _ (fun _ _ _ _ _ _ => ⟨rfl, rfl, rfl⟩) (fun put hput => ?_) hkey
  unfold guardedKey blobReference
  cases howner : referenceOwner put.1 with
  | none =>
    rw [validateMutableKey_publicationKey (hprepared.related put hput) howner]
    rfl
  | some blob =>
    rw [hrelated put hput]
    exact Bool.and_false _

/-! ## The first puts -/

variable {ids : List ID}

theorem mem_uniqueSchemaIDs {id : ID} : id ∈ uniqueSchemaIDs ids ↔ id ∈ ids := by
  simp [uniqueSchemaIDs]

theorem nodup_uniqueSchemaIDs (ids : List ID) : (uniqueSchemaIDs ids).Nodup :=
  List.nodup_reverse.mpr (List.nodup_dedup _)

/-- A content has a manifest when it is too long to be inline. -/
def manifestSegments (ids : List ID) : List ContentManifest :=
  if ids.length ≤ maxInlineContentIDs then [] else defaultSegments ids

/-- The manifest of a content, if it has one. -/
def contentManifest (manifestHash : List ID → ID) (ids : List ID) : Option ID :=
  if ids.length ≤ maxInlineContentIDs then none else some (manifestHash ids)

theorem segmentPut_inv {segment : ContentManifest} {put : Option Mutation}
    (h : segmentPut store manifest segment = .ok put) :
    (put = none ∧ store.lookup (.contentManifest manifest segment.segment) =
        some (.contentManifest segment)) ∨
      (put = some (.contentManifest manifest segment.segment, .contentManifest segment) ∧
        store.lookup (.contentManifest manifest segment.segment) = none) := by
  replace h := of_encode h
  split at h
  · rename_i hnone
    cases h
    exact .inr ⟨rfl, hnone⟩
  · rename_i existing hstored
    split at h
    · rename_i heq
      cases h
      exact .inl ⟨rfl, heq ▸ hstored⟩
    · cases h

/-- The plan before its phases: where it is written, and what it leaves. -/
structure FirstPuts (store : SchemaStore) (input : PublicationInput) (state : ReconciledState)
    (manifestHash : List ID → ID) (plan : PublicationPlan) : Prop where
  oldUnique : plan.oldUnique = uniqueSchemaIDs state.oldContent
  newUnique : plan.newUnique = uniqueSchemaIDs input.reconciled.contentIDs
  segments : plan.segments = manifestSegments input.reconciled.contentIDs
  manifestID : plan.segments ≠ [] → plan.manifestID = manifestHash input.reconciled.contentIDs
  short : plan.segments = [] →
    plan.manifestID = 0 ∧ input.reconciled.contentIDs.length ≤ maxInlineContentIDs
  mem : ∀ {key value}, plan.puts.lookup key = some value →
    (key, value) = (input.reconciled.currentKey, input.currentValue) ∨
    (state.revisionFound = false ∧
      (key, value) = (input.reconciled.revisionKey, input.reconciled.revisionValue)) ∨
    ∃ segment ∈ plan.segments, store.lookup key = none ∧
      (key, value) = (.contentManifest plan.manifestID segment.segment, .contentManifest segment)
  current : (plan.puts.lookup input.reconciled.currentKey).isSome
  revision : state.revisionFound = false →
    (plan.puts.lookup input.reconciled.revisionKey).isSome
  stored : ∀ segment ∈ plan.segments,
    (plan.puts.lookup (.contentManifest plan.manifestID segment.segment)).isSome ∨
      store.lookup (.contentManifest plan.manifestID segment.segment) =
        some (.contentManifest segment)

theorem reconciledManifest_inv {manifestID : ID} {segments : List ContentManifest}
    (h : reconciledManifest manifestHash ids = .ok (manifestID, segments)) :
    segments = manifestSegments ids ∧ (segments ≠ [] → manifestID = manifestHash ids) ∧
      (segments = [] → manifestID = 0 ∧ ids.length ≤ maxInlineContentIDs) := by
  rcases ite_eq_iff.mp h with ⟨hshort, h⟩ | ⟨hlong, h⟩
  · cases h
    exact ⟨(if_pos hshort).symm, fun hne => absurd rfl hne, fun _ => ⟨rfl, hshort⟩⟩
  replace h := (of_guard h).2
  cases h
  refine ⟨(if_neg hlong).symm, fun _ => rfl, fun hnil => ?_⟩
  -- A content that is too long to be inline has at least one segment.
  rw [contentSegments, List.map_eq_nil_iff, List.range_eq_nil] at hnil
  simp only [defaultContentSegmentIDs, maxInlineContentIDs] at hnil hlong ⊢
  omega

theorem newReconciledRevisionPlan_inv
    (h : newReconciledRevisionPlan manifestHash store input state = .ok plan) :
    FirstPuts store input state manifestHash plan := by
  obtain ⟨⟨manifestID, segments⟩, hmanifest, h⟩ := of_bind h
  obtain ⟨segmentPuts, hsegmentPuts, h⟩ := of_bind h
  obtain ⟨hsegments, hmanifestID, hshort⟩ := reconciledManifest_inv hmanifest
  cases h
  refine ⟨rfl, rfl, hsegments, hmanifestID, hshort, ?_, ?_, ?_, ?_⟩
  · intro key value hlook
    rcases Table.lookup_putAll_cases hlook with hmem | ⟨-, hnone⟩
    · rcases List.mem_cons.mp hmem with hcurrent | hmem
      · exact .inl hcurrent
      rcases List.mem_append.mp hmem with hrevision | hsegmentPut
      · cases hfound : state.revisionFound with
        | true => simp [hfound] at hrevision
        | false => exact .inr (.inl ⟨rfl, by simpa [hfound] using hrevision⟩)
      · have hput : some (key, value) ∈ segmentPuts := by simpa using hsegmentPut
        obtain ⟨segment, hsegment, hrun⟩ := (mem_of_mapM_map hsegmentPuts).mp hput
        rcases segmentPut_inv hrun with ⟨hne, -⟩ | ⟨heq, hnone⟩
        · cases hne
        · cases heq
          exact .inr (.inr ⟨segment, hsegment, hnone, rfl⟩)
    · cases hnone
  · exact Table.isSome_lookup_putAll (.head _)
  · intro hfound
    rw [hfound]
    exact Table.isSome_lookup_putAll (.tail _ (.head _))
  · intro segment hsegment
    obtain ⟨put, hput, hrun⟩ := ok_of_mapM_map hsegmentPuts hsegment
    rcases segmentPut_inv hrun with ⟨-, hstored⟩ | ⟨rfl, -⟩
    · exact .inr hstored
    exact .inl (Table.isSome_lookup_putAll (List.mem_append_right _ (by simpa using hput)))

/-- The three kinds of keys of the first puts are different. -/
structure DistinctKeys (reconciled : ReconciledRevision) : Prop where
  pointer : reconciled.currentKey ≠ reconciled.revisionKey
  current : ∀ manifest number, reconciled.currentKey ≠ .contentManifest manifest number
  revision : ∀ manifest number, reconciled.revisionKey ≠ .contentManifest manifest number

theorem distinctKeys_of_identity {isInode : Bool} {fsid inode : Nat}
    (h : reconciledIdentity reconciled = some (isInode, fsid, inode)) :
    DistinctKeys reconciled := by
  obtain ⟨hcurrent, hrevision⟩ := reconciledIdentity_keys h
  cases isInode <;> constructor <;> intros <;> simp [hcurrent, hrevision]

section Lookup

variable (hfirst : FirstPuts store input state manifestHash plan)
  (hkeys : DistinctKeys input.reconciled)

include hfirst

theorem FirstPuts.lookup_none (hcurrent : key ≠ input.reconciled.currentKey)
    (hrevision : key ≠ input.reconciled.revisionKey)
    (hmanifest : ∀ manifest number, key ≠ .contentManifest manifest number) :
    plan.puts.lookup key = none := by
  refine Option.eq_none_iff_forall_ne_some.mpr fun value hlook => ?_
  rcases hfirst.mem hlook with heq | ⟨-, heq⟩ | ⟨segment, -, -, heq⟩
  · exact hcurrent (congrArg Prod.fst heq)
  · exact hrevision (congrArg Prod.fst heq)
  · exact hmanifest _ _ (congrArg Prod.fst heq)

include hkeys

theorem FirstPuts.lookup_current :
    plan.puts.lookup input.reconciled.currentKey = some input.currentValue := by
  obtain ⟨value, hvalue⟩ := Option.isSome_iff_exists.mp hfirst.current
  rcases hfirst.mem hvalue with heq | ⟨-, heq⟩ | ⟨segment, -, -, heq⟩
  · rw [hvalue, (Prod.mk.inj heq).2]
  · exact absurd (congrArg Prod.fst heq) hkeys.pointer
  · exact absurd (congrArg Prod.fst heq) (hkeys.current _ _)

theorem FirstPuts.lookup_revision (hfound : state.revisionFound = false) :
    plan.puts.lookup input.reconciled.revisionKey = some input.reconciled.revisionValue := by
  obtain ⟨value, hvalue⟩ := Option.isSome_iff_exists.mp (hfirst.revision hfound)
  rcases hfirst.mem hvalue with heq | ⟨-, heq⟩ | ⟨segment, -, -, heq⟩
  · exact absurd (congrArg Prod.fst heq).symm hkeys.pointer
  · rw [hvalue, (Prod.mk.inj heq).2]
  · exact absurd (congrArg Prod.fst heq) (hkeys.revision _ _)

/-- A segment that is put was not stored, and is the segment of its number. -/
theorem FirstPuts.lookup_segment {number : Nat}
    (hlook : plan.puts.lookup (.contentManifest manifest number) = some value) :
    ∃ segment ∈ plan.segments, store.lookup (.contentManifest manifest number) = none ∧
      manifest = plan.manifestID ∧ number = segment.segment ∧ value = .contentManifest segment := by
  rcases hfirst.mem hlook with heq | ⟨-, heq⟩ | ⟨segment, hsegment, hnone, heq⟩
  · exact absurd (congrArg Prod.fst heq).symm (hkeys.current _ _)
  · exact absurd (congrArg Prod.fst heq).symm (hkeys.revision _ _)
  · cases heq
    exact ⟨segment, hsegment, hnone, rfl, rfl, rfl⟩

/-- After the first puts the whole manifest is there. -/
theorem FirstPuts.seen_segment {segment : ContentManifest} (hsegment : segment ∈ plan.segments) :
    seen store plan.puts (.contentManifest plan.manifestID segment.segment) =
      some (.contentManifest segment) := by
  cases hlook : plan.puts.lookup (.contentManifest plan.manifestID segment.segment) with
  | none =>
    rw [seen_of_lookup_none hlook]
    rcases hfirst.stored segment hsegment with hsome | hstored
    · rw [hlook] at hsome
      cases hsome
    · exact hstored
  | some value =>
    rw [seen_of_lookup hlook]
    obtain ⟨other, hother, -, -, hnumber, rfl⟩ := hfirst.lookup_segment hkeys hlook
    have hlong : plan.segments = defaultSegments input.reconciled.contentIDs := by
      rw [hfirst.segments, manifestSegments] at hsegment ⊢
      split at hsegment
      · cases hsegment
      · rename_i hlong
        exact if_neg hlong
    rw [hlong] at hsegment hother
    -- A segment is known by its number.
    obtain ⟨i, -, rfl⟩ := List.mem_map.mp hsegment
    obtain ⟨j, -, rfl⟩ := List.mem_map.mp hother
    obtain rfl : i = j := hnumber
    rfl

/-- What is stored of a manifest stays. -/
theorem FirstPuts.seen_of_stored {number : Nat}
    (hstored : store.lookup (.contentManifest manifest number) = some value) :
    seen store plan.puts (.contentManifest manifest number) = some value := by
  refine (seen_of_lookup_none ?_).trans hstored
  refine Option.eq_none_iff_forall_ne_some.mpr fun written hlook => ?_
  obtain ⟨segment, -, hnone, -⟩ := hfirst.lookup_segment hkeys hlook
  rw [hstored] at hnone
  cases hnone

end Lookup

/-- The first puts are under no key of a blob. -/
theorem FirstPuts.lookup_owned (hfirst : FirstPuts store input state manifestHash plan)
    (hprepared : Prepared reconciled input) (hkey : referenceOwner key ≠ none) :
    plan.puts.lookup key = none := by
  refine Option.eq_none_iff_forall_ne_some.mpr fun value hlook => hkey ?_
  obtain rfl := hprepared.request
  have hkeys : referenceOwner input.reconciled.currentKey = none ∧
      referenceOwner input.reconciled.revisionKey = none := by
    obtain ⟨hcurrent, hrevision⟩ := reconciledIdentity_keys hprepared.identity
    rw [hcurrent, hrevision]
    cases input.isInode <;> exact ⟨rfl, rfl⟩
  rcases hfirst.mem hlook with heq | ⟨-, heq⟩ | ⟨segment, -, -, heq⟩
  · cases heq
    exact hkeys.1
  · cases heq
    exact hkeys.2
  · cases heq
    rfl

/-! ## The state before -/

theorem unmarshalCurrentPointer_eq_ok {value : Value} {pointer : CurrentPointer}
    (h : unmarshalCurrentPointer value = .ok pointer) : value = .currentPointer pointer := by
  obtain ⟨-, hview, -⟩ := decode_eq_ok.mp h
  cases value <;> simp_all

theorem unmarshalCurrentPointer_inv {record pointer : CurrentPointer}
    (h : unmarshalCurrentPointer (.currentPointer record) = .ok pointer) : pointer = record :=
  (Value.currentPointer.inj (unmarshalCurrentPointer_eq_ok h)).symm

/-- How a publication finds the store: without a current revision, already published, or
with a current revision that is not newer. -/
theorem loadReconciledRevisionState_inv
    (h : loadReconciledRevisionState manifestHash store input = .ok state) :
    (store.lookup input.reconciled.currentKey = none ∧
      state = { revisionFound := (store.lookup input.reconciled.revisionKey).isSome }) ∨
    ∃ value pointer, store.lookup input.reconciled.currentKey = some value ∧
      unmarshalCurrentPointer value = .ok pointer ∧
      (((store.lookup input.reconciled.revisionKey).isSome ∧
          pointer.revision = input.reconciled.revision ∧
          state =
            { revisionFound := (store.lookup input.reconciled.revisionKey).isSome
              currentFound := true, noop := true }) ∨
        (¬((store.lookup input.reconciled.revisionKey).isSome = true ∧
            pointer.revision = input.reconciled.revision ∧
            pointer.recordKey = input.reconciled.revisionKey) ∧
          pointer.revision ≤ input.reconciled.revision ∧
          if input.isInode then
            loadPriorInodeContent manifestHash store pointer.recordKey
              { revisionFound := (store.lookup input.reconciled.revisionKey).isSome
                currentFound := true } = .ok state
          else state =
            { revisionFound := (store.lookup input.reconciled.revisionKey).isSome
              currentFound := true })) := by
  replace h := (of_guard h).2
  dsimp only at h
  split at h
  · rename_i hnone
    exact .inl ⟨hnone, (Except.ok.inj h).symm⟩
  rename_i value hlook
  obtain ⟨pointer, hpointer, h⟩ := of_bind h
  refine .inr ⟨value, pointer, hlook, hpointer, ?_⟩
  rcases ite_eq_iff.mp h with ⟨hsame, h⟩ | ⟨hother, h⟩
  · cases h
    exact .inl ⟨hsame.1, hsame.2.1, rfl⟩
  obtain ⟨hnewer, h⟩ := of_guard h
  refine .inr ⟨hother, Nat.not_lt.mp hnewer, ?_⟩
  cases hinode : input.isInode with
  | true =>
    rw [hinode] at h
    exact h
  | false =>
    rw [hinode] at h
    exact (Except.ok.inj h).symm

theorem loadPriorInodeContent_kept {before : ReconciledState}
    (h : loadPriorInodeContent manifestHash store key before = .ok state) :
    state.noop = before.noop ∧ state.revisionFound = before.revisionFound := by
  unfold loadPriorInodeContent at h
  split at h
  · cases h
  obtain ⟨record, -, h⟩ := of_bind h
  obtain ⟨content, -, h⟩ := of_bind h
  cases h
  exact ⟨rfl, rfl⟩

/-- What a publication has checked: the revision is new or the same, and the pointer is not
newer. -/
theorem loadReconciledRevisionState_checked
    (h : loadReconciledRevisionState manifestHash store input = .ok state) :
    (∀ value, store.lookup input.reconciled.revisionKey = some value →
        value = input.reconciled.revisionValue) ∧
      state.revisionFound = (store.lookup input.reconciled.revisionKey).isSome ∧
      (state.noop = true → (store.lookup input.reconciled.revisionKey).isSome ∧
        ∃ pointer, store.lookup input.reconciled.currentKey = some (.currentPointer pointer) ∧
          pointer.revision = input.reconciled.revision) ∧
      ∀ pointer, store.lookup input.reconciled.currentKey = some (.currentPointer pointer) →
        pointer.revision ≤ input.reconciled.revision := by
  have hcases := loadReconciledRevisionState_inv h
  have hsame := (of_guard h).1
  constructor
  · intro value hvalue
    rw [hvalue] at hsame
    simpa using hsame
  rcases hcases with ⟨hnone, rfl⟩ | ⟨value, pointer, hlook, hpointer, hcases⟩
  · refine ⟨rfl, fun hnoop => (by cases hnoop), fun pointer hpointer => ?_⟩
    rw [hnone] at hpointer
    cases hpointer
  have hle : pointer.revision ≤ input.reconciled.revision → ∀ other,
      store.lookup input.reconciled.currentKey = some (.currentPointer other) →
        other.revision ≤ input.reconciled.revision := by
    intro hle other hother
    rw [hlook] at hother
    cases hother
    rw [← unmarshalCurrentPointer_inv hpointer]
    exact hle
  rcases hcases with ⟨hstored, hrevision, rfl⟩ | ⟨-, hnewer, hprior⟩
  · refine ⟨rfl, fun _ => ⟨hstored, pointer, ?_, hrevision⟩, hle hrevision.le⟩
    rw [hlook, unmarshalCurrentPointer_eq_ok hpointer]
  split at hprior
  · obtain ⟨hnoop, hfound⟩ := loadPriorInodeContent_kept hprior
    refine ⟨hfound, fun h => ?_, hle hnewer⟩
    rw [h] at hnoop
    cases hnoop
  · rw [hprior]
    exact ⟨rfl, fun h => (by cases h), hle hnewer⟩

/-! ## The whole plan -/

/-- What a publication makes of the references of a blob. -/
def publishedView (store : SchemaStore) (input : PublicationInput) (old : List ID)
    (manifest : Option ID) (blob : ID) : BlobView :=
  let view := blobView (fun key => store.lookup key) blob
  if blob ∈ input.reconciled.contentIDs then
    match manifest with
    | none => currentView store input blob view
    | some manifest => manifestView store manifest blob (currentView store input blob view)
  else if blob ∈ old then historicalView input view
  else view

section

variable (h : planHistoricalReferences store input state plan puts = .ok puts')
include h

theorem planHistoricalReferences_view (hnodup : plan.oldUnique.Nodup) (blob : ID) :
    blobView (seen store puts') blob =
      if blob ∈ plan.oldUnique.filter fun id => id ∉ plan.newUnique then
        historicalView input (blobView (seen store puts) blob)
      else blobView (seen store puts) blob := by
  obtain ⟨middle, hmiddle, h⟩ := of_bind h
  have hinodes :=
    planEach_view blobView_congr historicalInodePuts_local (fun _ => historicalView input)
    (fun _ _ _ hrun => historicalInodePuts_view hrun) (hnodup.filter _) hmiddle blob
  rw [← hinodes]
  rcases ite_eq_iff.mp h with ⟨-, h⟩ | ⟨-, h⟩
  · cases h
    rfl
  · rw [planEach_view blobView_congr historicalManifestPuts_local (fun _ view => view)
      (fun _ _ _ hrun => historicalManifestPuts_view hrun) hnodup h, ite_self]

theorem planHistoricalReferences_lookup
    (hkey : referenceOwner key = none) : puts'.lookup key = puts.lookup key := by
  obtain ⟨middle, hmiddle, h⟩ := of_bind h
  rw [← historicalInodePuts_local.planEach_unowned hmiddle hkey]
  rcases ite_eq_iff.mp h with ⟨-, h⟩ | ⟨-, h⟩
  · cases h
    rfl
  · exact historicalManifestPuts_local.planEach_unowned h hkey

end

section

variable (h : planCurrentManifestReferences store input plan puts = .ok puts')
include h

theorem planCurrentManifestReferences_view (hnodup : plan.newUnique.Nodup) (blob : ID) :
    blobView (seen store puts') blob =
      if plan.segments ≠ [] ∧ blob ∈ plan.newUnique then
        manifestView store plan.manifestID blob (blobView (seen store puts) blob)
      else blobView (seen store puts) blob := by
  rcases ite_eq_iff.mp h with ⟨hnone, h⟩ | ⟨hsome, h⟩
  · cases h
    simp [hnone]
  · rw [planEach_view blobView_congr currentManifestPuts_local (manifestView store plan.manifestID)
      (fun _ _ _ hrun => currentManifestPuts_view hrun) hnodup h]
    simp [hsome]

theorem planCurrentManifestReferences_lookup
    (hkey : referenceOwner key = none) : puts'.lookup key = puts.lookup key := by
  rcases ite_eq_iff.mp h with ⟨-, h⟩ | ⟨-, h⟩
  · cases h
    rfl
  · exact currentManifestPuts_local.planEach_unowned h hkey

end

/-- How a plan came about: the first puts, the phases over the blobs, and closing puts under
other keys. -/
structure Planned (manifestHash : List ID → ID) (store : SchemaStore) (input : PublicationInput)
    (puts : Pending) (state : ReconciledState) (plan : PublicationPlan) : Prop where
  loaded : loadReconciledRevisionState manifestHash store input = .ok state
  fresh : state.noop = false
  first : FirstPuts store input state manifestHash plan
  phases : ∃ historical current filed,
    planHistoricalReferences store input state plan plan.puts = .ok historical ∧
    planCurrentInodeReferences store input plan historical = .ok current ∧
    planCurrentManifestReferences store input plan current = .ok filed ∧
    ∀ key, ClosingAvoids input.reconciled key → puts.lookup key = filed.lookup key

theorem planReconciledRevision_inv
    (h : planReconciledRevision manifestHash now store input = .ok (some puts)) :
    ∃ state plan, Planned manifestHash store input puts state plan := by
  obtain ⟨state, hstate, h⟩ := of_bind h
  rcases ite_eq_iff.mp h with ⟨-, h⟩ | ⟨hnoop, h⟩
  · cases h
  obtain ⟨plan, hplan, h⟩ := of_bind h
  obtain ⟨historical, hhistorical, h⟩ := of_bind h
  obtain ⟨current, hcurrent, h⟩ := of_bind h
  obtain ⟨filed, hfiled, h⟩ := of_bind h
  obtain ⟨settled, hsettled, h⟩ := of_bind h
  obtain ⟨counted, hcounted, h⟩ := of_bind h
  obtain ⟨linked, hlinked, h⟩ := of_bind h
  cases h
  refine ⟨state, plan, hstate, Bool.eq_false_of_not_eq_true hnoop,
    newReconciledRevisionPlan_inv hplan, historical, current, filed, hhistorical, hcurrent,
    hfiled, ?_⟩
  intro key hkey
  rw [planReconciledHardlinks_lookup hlinked hkey.hardlinks,
    planReconciledAnalytics_lookup hcounted hkey.other]
  exact planReconciledDebt_lookup hsettled hkey.debts hkey.related

theorem FirstPuts.manifest_eq
    (hfirst : FirstPuts store input state manifestHash plan) :
    plan.manifest = contentManifest manifestHash input.reconciled.contentIDs := by
  unfold PublicationPlan.manifest contentManifest
  split
  · rename_i hnil
    rw [if_pos (hfirst.short hnil).2]
  rename_i hsegments
  have hlong : ¬input.reconciled.contentIDs.length ≤ maxInlineContentIDs := by
    intro hshort
    refine hsegments (hfirst.segments.trans ?_)
    rw [manifestSegments, if_pos hshort]
  rw [if_neg hlong, hfirst.manifestID hsegments]

namespace Planned

section

variable (hplanned : Planned manifestHash store input puts state plan)
include hplanned

/-- Under the keys that belong to no blob a plan has its first puts. -/
theorem lookup_other
    (hkey : ClosingAvoids input.reconciled key) (howner : referenceOwner key = none) :
    puts.lookup key = plan.puts.lookup key := by
  obtain ⟨historical, current, filed, hhistorical, hcurrent, hfiled, hclosing⟩ := hplanned.phases
  rw [hclosing key hkey, planCurrentManifestReferences_lookup hfiled howner,
    currentInodePuts_local.planEach_unowned hcurrent howner,
    planHistoricalReferences_lookup hhistorical howner]

theorem nodup_newUnique : plan.newUnique.Nodup := by
  rw [hplanned.first.newUnique]
  exact nodup_uniqueSchemaIDs _

theorem nodup_oldUnique : plan.oldUnique.Nodup := by
  rw [hplanned.first.oldUnique]
  exact nodup_uniqueSchemaIDs _

/-- Where the phases start, the keys of a blob are as they are stored. -/
theorem seen_first (hprepared : Prepared reconciled input)
    (hkey : referenceOwner key = some blob) : seen store plan.puts key = store.lookup key := by
  refine seen_of_lookup_none (hplanned.first.lookup_owned hprepared ?_)
  rw [hkey]
  exact Option.some_ne_none blob

end

/-- Up to the closing puts a plan changes the references of each blob as the phases do. -/
theorem view (hplanned : Planned manifestHash store input puts state plan)
    (hprepared : Prepared reconciled input) :
    ∃ filed, (∀ key, ClosingAvoids input.reconciled key → puts.lookup key = filed.lookup key) ∧
      ∀ blob, blobView (seen store filed) blob =
        publishedView store input state.oldContent plan.manifest blob := by
  obtain ⟨historical, current, filed, hhistorical, hcurrent, hfiled, hclosing⟩ := hplanned.phases
  refine ⟨filed, hclosing, fun blob => ?_⟩
  have hstart : blobView (seen store plan.puts) blob =
      blobView (fun key => store.lookup key) blob :=
    blobView_congr fun key hkey => hplanned.seen_first hprepared hkey
  rw [planCurrentManifestReferences_view hfiled hplanned.nodup_newUnique,
    planEach_view blobView_congr currentInodePuts_local (currentView store input)
      (fun _ _ _ hrun => currentInodePuts_view hrun) hplanned.nodup_newUnique hcurrent,
    planHistoricalReferences_view hhistorical hplanned.nodup_oldUnique, hstart]
  unfold publishedView PublicationPlan.manifest
  simp only [hplanned.first.newUnique, hplanned.first.oldUnique, List.mem_filter,
    mem_uniqueSchemaIDs, decide_eq_true_eq]
  by_cases hblob : blob ∈ input.reconciled.contentIDs
  · by_cases hsegments : plan.segments = [] <;> simp [hblob, hsegments]
  · simp [hblob]

end Planned

end Vaultic.Daemon
