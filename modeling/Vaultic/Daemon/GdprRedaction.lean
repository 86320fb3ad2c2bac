/-
  Daemon/GdprRedaction.lean  —  what is left of a user after a forget.

  Source: internal/index/daemon/schema_store_gdpr.go, and for the path records
  internal/index/reconcile/reconcile.go (`pathVersionMutations`).

  Redaction, pruning and the deletion of hardlink records reach everything they are
  meant to.  Path records are another matter.  Their writers put them under file
  system 0, whatever file system the inode is on, while the forget looks for
  revisions of the file system that the key names.
-/
import Vaultic.Daemon.GdprPacks

set_option autoImplicit false

namespace Vaultic.Daemon

open Vaultic.Lib Vaultic.Schema

/-! ## Path records, as they are written -/

section

variable (digest : GoString → GoString) (store : SchemaStore)

/-- The key under which a path is recorded: the path itself where it fits, else its
digest. -/
def pathRecordKey (fsid : Nat) (path : GoString) (revision : Nat) : Option Key :=
  (pathVersionKey fsid (trimSlash path) revision).or
    (pathOverflowKey digest fsid (trimSlash path) revision)

/-- One path of `pathVersionMutations`. -/
def pathVersionMutation (path : GoString) (nodeType : NodeType) (inode revision : Nat) :
    Result (Option Mutation) := do
  let record : PathVersionRecord :=
    if (pathVersionKey 0 (trimSlash path) revision).isSome then
      { state := .bound, nodeType := some nodeType, inode, revision }
    else { state := .overflow }
  let value ← marshalPathVersionRecord record
  .ok ((pathRecordKey digest 0 path revision).map fun key => (key, value))

/-! ## What a forget is about -/

/-- The directory revision is stored with this record. -/
def IsDirectory (id : RevisionID) (record : DirectoryRevision) : Prop :=
  store.lookup id.directoryKey = some (.directoryRevision record)

def RedactedInode (uid : Nat) (id : RevisionID) : Prop :=
  ∃ record, IsRevision store id record ∧ ownedInode uid record = true

def RedactedDirectory (uid : Nat) (id : RevisionID) : Prop :=
  ∃ record, IsDirectory store id record ∧ ownedDirectory uid record = true

/-- The revision, of a file or of a directory, is the user's. -/
def Redacted (uid : Nat) (id : RevisionID) : Prop :=
  RedactedInode store uid id ∨ RedactedDirectory store uid id

/-- The key of a redacted revision. -/
def RedactedKey (uid : Nat) (key : Key) : Prop :=
  (∃ id, RedactedInode store uid id ∧ key = id.inodeKey) ∨
    ∃ id, RedactedDirectory store uid id ∧ key = id.directoryKey

/-- The source path of a redacted revision. -/
def RedactedPath (uid : Nat) (path : GoString) : Prop :=
  path ≠ [] ∧
    ((∃ id record, IsRevision store id record ∧ ownedInode uid record = true ∧
        record.sourcePath = path) ∨
      ∃ id record, IsDirectory store id record ∧ ownedDirectory uid record = true ∧
        record.sourcePath = path)

/-- The path record binds its path to the revision.  It names the inode and the
revision only. -/
def BoundTo (record : PathVersionRecord) (id : RevisionID) : Prop :=
  record.state = .bound ∧ record.inode = id.2.1 ∧ record.revision = id.2.2

/-- A path record that a forget should delete: it stands under the key of a redacted
path, or it is bound to a redacted revision. -/
def ConcernsUser (uid fsid : Nat) (path : GoString) (revision : Nat) (record : PathVersionRecord) :
    Prop :=
  (∃ source, RedactedPath store uid source ∧
      pathRecordKey digest fsid source revision = some (.pathVersion fsid path revision)) ∨
    ∃ id, Redacted store uid id ∧ BoundTo record id

/-- No trace of the user is left, and the revisions of others are as before. -/
structure Forgotten (store store' : SchemaStore) (uid : Nat) : Prop where
  inodes : ∀ id record, IsRevision store' id record → ownedInode uid record = false
  directories : ∀ id record, IsDirectory store' id record → ownedDirectory uid record = false
  children : ∀ id record, IsDirectory store' id record →
    ∀ child ∈ record.children, ¬RedactedKey store uid child.metadataKey
  hardlinks : ∀ id, Redacted store uid id → store'.lookup id.hardlinkKey = none
  paths : ∀ fsid path revision record,
    store'.lookup (.pathVersion fsid path revision) = some (.pathVersion record) →
      ¬ConcernsUser digest store uid fsid path revision record
  others : ∀ id record, IsRevision store id record → ownedInode uid record = false →
    IsRevision store' id record

/-- The forget finds the record: by a redacted path, or by the redacted revision of
the file system its key names. -/
def FoundByForget (uid fsid : Nat) (path : GoString) (record : PathVersionRecord) : Prop :=
  (∃ source, RedactedPath store uid source ∧
      (trimSlash path = trimSlash source ∨
        record.path ≠ [] ∧ trimSlash record.path = trimSlash source)) ∨
    record.state = .bound ∧ Redacted store uid (fsid, record.inode, record.revision)

/-- Every path record about the user is one the forget finds. -/
def PathRecordsFound (uid : Nat) : Prop :=
  ∀ fsid path revision record,
    store.lookup (.pathVersion fsid path revision) = some (.pathVersion record) →
      ConcernsUser digest store uid fsid path revision record →
        FoundByForget store uid fsid path record

end

/-! ## Redaction of one record -/

theorem has_redacted (known : KnownMask) :
    KnownMask.has (known &&& ~~~redactedMask) knownUID = false := by
  have hmask : ~~~redactedMask &&& knownUID = 0 := by decide
  unfold KnownMask.has
  rw [BitVec.and_assoc, hmask]
  simp

@[simp] theorem ownedInode_redactInode (uid : Nat) (record : InodeRevision) :
    ownedInode uid (redactInode record) = false := by
  simp [ownedInode, redactInode, has_redacted]

@[simp] theorem ownedDirectory_redactDirectory (uid : Nat) (record : DirectoryRevision) :
    ownedDirectory uid (redactDirectory record) = false := by
  simp [ownedDirectory, redactDirectory, has_redacted]

/-- A changed directory is not the user's and has no targeted child. -/
theorem redactedDirectory_spec {uid : Nat} {targets : List Key} {record changed : DirectoryRevision}
    (h : redactedDirectory uid targets record = some changed) :
    ownedDirectory uid changed = false ∧
      ∀ child ∈ changed.children, child.metadataKey ∉ targets := by
  have hpruned : ∀ child ∈ (pruneChildren targets record).children,
      child.metadataKey ∉ targets := by
    intro child hchild
    exact of_decide_eq_true (List.mem_filter.mp hchild).2
  unfold redactedDirectory at h
  dsimp only at h
  split at h
  · cases h
    exact ⟨ownedDirectory_redactDirectory uid _, hpruned⟩
  rename_i howned
  split at h
  · cases h
    exact ⟨by simpa [ownedDirectory, pruneChildren] using howned, hpruned⟩
  · cases h

variable {record : DirectoryRevision}

/-- A directory that is left alone has neither. -/
theorem redactedDirectory_eq_none {uid : Nat} {targets : List Key}
    (h : redactedDirectory uid targets record = none) :
    ownedDirectory uid record = false ∧
      ∀ child ∈ record.children, child.metadataKey ∉ targets := by
  unfold redactedDirectory at h
  dsimp only at h
  split at h
  · cases h
  rename_i howned
  split at h
  · cases h
  · rename_i hchildren
    refine ⟨by simpa using howned, fun child hchild htarget => hchildren ?_⟩
    exact List.any_eq_true.mpr ⟨child, hchild, decide_eq_true htarget⟩

/-! ## The targets of a plan -/

variable {value : Value}

theorem unmarshalDirectoryRevision_eq_ok
    (h : unmarshalDirectoryRevision value = .ok record) : value = .directoryRevision record := by
  obtain ⟨-, hview, -⟩ := decode_eq_ok.mp h
  cases value <;> simp_all

theorem unmarshalPathVersionRecord_eq_ok {record : PathVersionRecord}
    (h : unmarshalPathVersionRecord value = .ok record) : value = .pathVersion record := by
  obtain ⟨-, hview, -⟩ := decode_eq_ok.mp h
  cases value <;> simp_all

variable {id : RevisionID}

variable {path : GoString}

namespace ForgetParts.Planned

variable {store : SchemaStore} {request : GdprForgetRequest} {parts : ForgetParts store request}

section

variable (h : parts.Planned)
include h

theorem mem_revisions {record : InodeRevision} :
    (id, record) ∈ parts.inventory.revisions ↔ IsRevision store id record :=
  mem_scanGdprRevisions (isInventory_of_build h.inventory).revisions

theorem mem_directories : (id, record) ∈ parts.directories ↔ IsDirectory store id record := by
  refine Table.mem_collectBy_iff RevisionID.directoryKey h.directories ?_
    unmarshalDirectoryRevision_eq_ok (fun _ _ => Value.directoryRevision.inj)
  rintro key ⟨fsid, inode, revision⟩
  cases key <;> simp

theorem mem_target_keys {key : Key} :
    key ∈ parts.targets.keys ↔ RedactedKey store request.uid key := by
  simp only [targets, gdprTargets, List.mem_append, List.mem_map, List.mem_filter, Prod.exists,
    h.mem_revisions, h.mem_directories, RedactedKey, RedactedInode, RedactedDirectory]
  refine or_congr ?_ ?_
  all_goals
    constructor
    · rintro ⟨fsid, inode, revision, record, hrecord, rfl⟩
      exact ⟨fsid, inode, revision, ⟨record, hrecord⟩, rfl⟩
    · rintro ⟨fsid, inode, revision, ⟨record, hrecord⟩, rfl⟩
      exact ⟨fsid, inode, revision, record, hrecord, rfl⟩

theorem mem_target_revisions : id ∈ parts.targets.revisions ↔ Redacted store request.uid id := by
  simp only [targets, gdprTargets, List.mem_append, List.mem_map, List.mem_filter, Redacted]
  refine or_congr ?_ ?_
  · constructor
    · rintro ⟨⟨id, record⟩, ⟨hmem, howned⟩, rfl⟩
      exact ⟨record, h.mem_revisions.mp hmem, howned⟩
    · rintro ⟨record, hrevision, howned⟩
      exact ⟨(id, record), ⟨h.mem_revisions.mpr hrevision, howned⟩, rfl⟩
  · constructor
    · rintro ⟨⟨id, record⟩, ⟨hmem, howned⟩, rfl⟩
      exact ⟨record, h.mem_directories.mp hmem, howned⟩
    · rintro ⟨record, hdirectory, howned⟩
      exact ⟨(id, record), ⟨h.mem_directories.mpr hdirectory, howned⟩, rfl⟩

theorem mem_target_paths :
    path ∈ parts.targets.paths ↔
      ∃ source, RedactedPath store request.uid source ∧ path = trimSlash source := by
  simp only [targets, gdprTargets, List.mem_map, List.mem_filter, List.mem_append,
    decide_eq_true_eq]
  constructor
  · rintro ⟨source, ⟨hsource, hne⟩, rfl⟩
    refine ⟨source, ⟨hne, ?_⟩, rfl⟩
    rcases hsource with ⟨⟨id, record⟩, ⟨hmem, howned⟩, rfl⟩ | ⟨⟨id, record⟩, ⟨hmem, howned⟩, rfl⟩
    · exact .inl ⟨id, record, h.mem_revisions.mp hmem, howned, rfl⟩
    · exact .inr ⟨id, record, h.mem_directories.mp hmem, howned, rfl⟩
  · rintro ⟨source, ⟨hne, hsource⟩, rfl⟩
    refine ⟨source, ⟨?_, hne⟩, rfl⟩
    rcases hsource with ⟨id, record, hrevision, howned, rfl⟩ | ⟨id, record, hdirectory, howned, rfl⟩
    · exact .inl ⟨(id, record), ⟨h.mem_revisions.mpr hrevision, howned⟩, rfl⟩
    · exact .inr ⟨(id, record), ⟨h.mem_directories.mpr hdirectory, howned⟩, rfl⟩

/-- The code's test of a path record. -/
theorem pathTargeted_iff {fsid : Nat} {record : PathVersionRecord} :
    pathTargeted parts.targets fsid path record = true ↔
      FoundByForget store request.uid fsid path record := by
  simp only [pathTargeted, FoundByForget, Bool.or_eq_true, Bool.and_eq_true, decide_eq_true_eq,
    h.mem_target_paths, h.mem_target_revisions]
  refine or_congr_left ?_
  constructor
  · rintro (⟨source, hsource, hpath⟩ | ⟨hne, source, hsource, hpath⟩)
    · exact ⟨source, hsource, .inl hpath⟩
    · exact ⟨source, hsource, .inr ⟨hne, hpath⟩⟩
  · rintro ⟨source, hsource, hpath | ⟨hne, hpath⟩⟩
    · exact .inl ⟨source, hsource, hpath⟩
    · exact .inr ⟨hne, source, hsource, hpath⟩

end

end ForgetParts.Planned

/-! ## The store after a forget -/

section After

variable {store : SchemaStore} {request : GdprForgetRequest} {parts : ForgetParts store request}

section

variable (h : parts.Planned)
include h

/-- A put under an inode key is the redaction of that revision. -/
theorem ForgetParts.Planned.put_inode (hput : (id.inodeKey, value) ∈ parts.puts) :
    ∃ record, IsRevision store id record ∧ ownedInode request.uid record = true ∧
      value = .inodeRevision (redactInode record) := by
  cases h.isPut hput with
  | inode hmem howned => exact ⟨_, h.mem_revisions.mp hmem, howned, rfl⟩

/-- A revision after the forget is one from before, redacted where the user owns it. -/
theorem ForgetParts.Planned.isRevision_after {record : InodeRevision} :
    IsRevision parts.after id record ↔ ∃ before, IsRevision store id before ∧
      record = if ownedInode request.uid before = true then redactInode before else before := by
  have hredacted : ∀ before, IsRevision store id before → ownedInode request.uid before = true →
      (id.inodeKey, Value.inodeRevision (redactInode before)) ∈ parts.puts := by
    intro before hbefore howned
    have hmem : (id, before) ∈ parts.inventory.revisions.filter fun revision =>
        ownedInode request.uid revision.2 :=
      List.mem_filter.mpr ⟨h.mem_revisions.mpr hbefore, howned⟩
    obtain ⟨put, hput, hok⟩ := ok_of_mapM_map h.inodePuts hmem
    rw [← redactInodePut_eq_ok hok]
    exact List.mem_append_left _ hput
  unfold IsRevision
  rw [h.lookup_kept id.inodeKey nofun]
  constructor
  · intro hlook
    rcases Table.lookup_putAll_cases hlook with hput | ⟨hnone, hbefore⟩
    · obtain ⟨before, hbefore, howned, hvalue⟩ := h.put_inode hput
      exact ⟨before, hbefore, by rw [if_pos howned, Value.inodeRevision.inj hvalue]⟩
    · refine ⟨record, hbefore, (if_neg fun howned => ?_).symm⟩
      exact hnone _ (hredacted record hbefore howned) rfl
  · rintro ⟨before, hbefore, rfl⟩
    split
    · rename_i howned
      refine Table.lookup_putAll_of_mem (hredacted before hbefore howned) fun value hput => ?_
      obtain ⟨other, hother, -, rfl⟩ := h.put_inode hput
      cases hbefore.symm.trans hother
      rfl
    · rename_i howned
      rw [Table.lookup_putAll_of_forall_ne]
      · exact hbefore
      rintro ⟨key, value⟩ hput rfl
      obtain ⟨other, hother, hother_owned, -⟩ := h.put_inode hput
      cases hbefore.symm.trans hother
      exact howned hother_owned

/-- A directory after the forget is not the user's and refers to no target. -/
theorem ForgetParts.Planned.isDirectory_after (hdirectory : IsDirectory parts.after id record) :
    ownedDirectory request.uid record = false ∧
      ∀ child ∈ record.children, child.metadataKey ∉ parts.targets.keys := by
  unfold IsDirectory at hdirectory
  rw [h.lookup_kept id.directoryKey nofun] at hdirectory
  rcases Table.lookup_putAll_cases hdirectory with hput | ⟨hnone, hbefore⟩
  · cases h.isPut hput with
    | directory hmem hchanged =>
      obtain ⟨howned, hchildren⟩ := redactedDirectory_spec hchanged
      refine ⟨howned, fun child hchild => hchildren child ?_⟩
      exact (List.perm_insertionSort _ _).mem_iff.mp hchild
  · refine redactedDirectory_eq_none
      (Option.eq_none_iff_forall_ne_some.mpr fun changed hchanged => ?_)
    -- A changed directory has a put, so its key cannot be free of puts.
    obtain ⟨result, hresult, hok⟩ :=
      ok_of_mapM_map h.directoryPuts (h.mem_directories.mpr hbefore)
    cases result with
    | none =>
      simp only [redactDirectoryPut, hchanged] at hok
      obtain ⟨value, -, hok⟩ := of_bind hok
      cases hok
    | some put =>
      have hput : put ∈ parts.puts := by simp [puts, hresult]
      obtain ⟨_, -, rfl⟩ := redactDirectoryPut_eq_ok hok
      exact hnone _ hput rfl

theorem ForgetParts.Planned.lookup_hardlink
    (hredacted : Redacted store request.uid id) : parts.after.lookup id.hardlinkKey = none := by
  rw [after, Table.lookup_deleteAll, if_pos]
  refine List.mem_dedup.mpr ?_
  simp only [List.mem_append, List.mem_map]
  exact .inl (.inl (.inl ⟨id, h.mem_target_revisions.mpr hredacted, rfl⟩))

/-- The path records that remain are those the forget does not find. -/
theorem ForgetParts.Planned.lookup_path {fsid : Nat} {revision : Nat} {record : PathVersionRecord} :
    parts.after.lookup (.pathVersion fsid path revision) = some (.pathVersion record) ↔
      store.lookup (.pathVersion fsid path revision) = some (.pathVersion record) ∧
        ¬FoundByForget store request.uid fsid path record := by
  have hputs : (store.putAll parts.puts).lookup (.pathVersion fsid path revision) =
      store.lookup (.pathVersion fsid path revision) := by
    refine Table.lookup_putAll_of_forall_ne ?_
    rintro ⟨key, value⟩ hput rfl
    cases h.isPut hput
  have hdelete : ∀ stored, store.lookup (.pathVersion fsid path revision) =
      some (.pathVersion stored) → (.pathVersion fsid path revision ∈ parts.deletes ↔
        FoundByForget store request.uid fsid path stored) := by
    intro stored hstored
    rw [← h.pathTargeted_iff]
    constructor
    · intro hmem
      cases h.isDelete hmem with
      | path hlook hvalue htargeted =>
        obtain rfl := unmarshalPathVersionRecord_eq_ok hvalue
        cases hstored.symm.trans hlook
        exact htargeted
    · intro htargeted
      obtain ⟨records, hrecords, -⟩ := of_bind h.pathDeletes
      obtain ⟨decoded, hdecoded⟩ := Table.decode_ok_of_collectBy hrecords hstored rfl
      obtain ⟨⟩ := unmarshalPathVersionRecord_eq_ok hdecoded
      have hmem := h.mem_pathDeletes hstored hdecoded htargeted
      simp [deletes, hmem]
  rw [after, Table.lookup_deleteAll, hputs]
  constructor
  · intro hlook
    split at hlook
    · cases hlook
    · rename_i hkept
      exact ⟨hlook, fun hfound => hkept ((hdelete record hlook).mpr hfound)⟩
  · rintro ⟨hlook, hnot⟩
    rw [if_neg fun hmem => hnot ((hdelete record hlook).mp hmem)]
    exact hlook

end

end After

/-! ## What remains -/

/-- A forget that committed left no trace of the user exactly when it found every
path record about the user. -/
theorem executeGdprForget_forgotten_iff (digest : GoString → GoString) (limits : Limits) (now : Int)
    (request : GdprForgetRequest) (store store' : SchemaStore)
    (certificate : DeletionCertificateRecord) (hfresh : findGdprReplay store request = .ok none)
    (h : executeGdprForget limits now request store = .ok (certificate, store')) :
    Forgotten digest store store' request.uid ↔ PathRecordsFound digest store request.uid := by
  rcases executeGdprForget_inv h with ⟨hreplay, -⟩ | ⟨-, parts, hparts, rfl⟩
  · rw [hfresh] at hreplay
    cases hreplay
  constructor
  · intro hforgotten fsid path revision record hlook hconcerns
    by_contra hmissed
    exact hforgotten.paths fsid path revision record (hparts.lookup_path.mpr ⟨hlook, hmissed⟩)
      hconcerns
  · intro hfound
    refine ⟨?_, ?_, ?_, fun id => hparts.lookup_hardlink, ?_, ?_⟩
    · intro id record hrevision
      obtain ⟨before, -, rfl⟩ := hparts.isRevision_after.mp hrevision
      split
      · exact ownedInode_redactInode _ _
      · rename_i howned
        simpa using howned
    · intro id record hdirectory
      exact (hparts.isDirectory_after hdirectory).1
    · intro id record hdirectory child hchild hredacted
      exact (hparts.isDirectory_after hdirectory).2 child hchild
        (hparts.mem_target_keys.mpr hredacted)
    · intro fsid path revision record hlook hconcerns
      obtain ⟨hbefore, hmissed⟩ := hparts.lookup_path.mp hlook
      exact hmissed (hfound fsid path revision record hbefore hconcerns)
    · intro id record hrevision howned
      exact hparts.isRevision_after.mpr ⟨record, hrevision, by simp [howned]⟩

/-- Some digest of a path. -/
def sampleDigest (path : GoString) : GoString := path.take 32

/-- A file of user 1000 on file system 2049, with the path record the reconciler
writes for `a`.  The revision of a hardlinked file has no source path. -/
def hardlinkedFile (sourcePath : GoString) : SchemaStore :=
  (∅ : SchemaStore).putAll
    [(.inodeRevision 2049 10 7, .inodeRevision
        { uid := 1000, known := knownUID, hasMultipleParents := true, sourcePath }),
      (.pathVersion 0 [0x61] 7, .pathVersion
        { state := .bound, nodeType := some .file, inode := 10, revision := 7 })]

theorem executeGdprForget_keeps_bound_path :
    (∃ value, pathVersionMutation sampleDigest [0x61] .file 10 7 =
        .ok (some (.pathVersion 0 [0x61] 7, value)) ∧
      (hardlinkedFile []).lookup (.pathVersion 0 [0x61] 7) = some value) ∧
    findGdprReplay (hardlinkedFile []) sampleForget = .ok none ∧
    ∃ certificate store',
      executeGdprForget ⟨1000, 1048576⟩ 1 sampleForget (hardlinkedFile []) =
        .ok (certificate, store') ∧
      ¬Forgotten sampleDigest (hardlinkedFile []) store' 1000 := by
  have hrun : okAnd (executeGdprForget ⟨1000, 1048576⟩ 1 sampleForget (hardlinkedFile []))
      (fun result => decide (result.2.lookup (.pathVersion 0 [0x61] 7) = some (.pathVersion
        { state := .bound, nodeType := some .file, inode := 10, revision := 7 }))) = true := by
    decide +kernel
  obtain ⟨⟨certificate, store'⟩, hok, hafter⟩ := okAnd_eq_true.mp hrun
  refine ⟨⟨_, rfl, rfl⟩, rfl, certificate, store', hok, fun hforgotten => ?_⟩
  refine hforgotten.paths _ _ _ _ (of_decide_eq_true hafter) (.inr ⟨(2049, 10, 7), ?_, ?_⟩)
  · exact .inl ⟨_, rfl, rfl⟩
  · exact ⟨rfl, rfl, rfl⟩

theorem executeGdprForget_forgotten_iff_sample :
    findGdprReplay (hardlinkedFile [0x61]) sampleForget = .ok none ∧
    ∃ certificate store',
      executeGdprForget ⟨1000, 1048576⟩ 1 sampleForget (hardlinkedFile [0x61]) =
        .ok (certificate, store') ∧
      (Forgotten sampleDigest (hardlinkedFile [0x61]) store' 1000 ↔
        PathRecordsFound sampleDigest (hardlinkedFile [0x61]) 1000) := by
  have hrun : okAnd (executeGdprForget ⟨1000, 1048576⟩ 1 sampleForget (hardlinkedFile [0x61]))
      (fun _ => true) = true := by
    decide +kernel
  obtain ⟨⟨certificate, store'⟩, hok, -⟩ := okAnd_eq_true.mp hrun
  exact ⟨rfl, certificate, store', hok,
    executeGdprForget_forgotten_iff _ _ _ _ _ _ _ rfl hok⟩

end Vaultic.Daemon
