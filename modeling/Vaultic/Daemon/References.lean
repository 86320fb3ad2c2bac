/-
  Daemon/References.lean  —  what a reference count is a count of.

  The `rc:` record of a blob is derived from inode revisions and content manifests.  This
  module says what it is derived from, over a whole store: the occurrences of the blob in
  the content of every revision, and the revisions, inodes and manifests that have it.
-/
import Vaultic.Lib.TableSum
import Vaultic.Daemon.GdprPacks

set_option autoImplicit false

namespace Vaultic.Daemon

open Vaultic.Lib Vaultic.Schema

/-! ## Occurrences -/

/-- The occurrences of a blob in one segment of a manifest. -/
def segmentWeight (manifest blob : ID) : Key → Value → Nat
  | .contentManifest id _, .contentManifest record =>
    if id = manifest then record.contentIDs.count blob else 0
  | _, _ => 0

section

variable (store : SchemaStore)

/-- The occurrences of a blob in the stored segments of a manifest. -/
def manifestCount (manifest blob : ID) : Nat :=
  store.sum (segmentWeight manifest blob)

/-- The occurrences of a blob in the content of a revision. -/
def contentCount (record : InodeRevision) (blob : ID) : Nat :=
  match record.contentMode with
  | .none => 0
  | .inline => record.contentIDs.count blob
  | .manifestRef => manifestCount store record.contentManifestID blob

/-- A weight of the inode revisions. -/
def overRevisions (w : InodeRevision → Nat) : Key → Value → Nat
  | .inodeRevision _ _ _, .inodeRevision record => w record
  | _, _ => 0

/-- The occurrences of a blob in the content of all revisions. -/
def occurrences (blob : ID) : Nat :=
  store.sum (overRevisions fun record => contentCount store record blob)

/-! ## Holders -/

/-- The revisions whose content has a blob. -/
def holdingRevisions (blob : ID) : Finset RevisionID :=
  (store.scan fun key value =>
    match key, value with
    | .inodeRevision fsid inode revision, .inodeRevision record =>
      if 0 < contentCount store record blob then some (fsid, inode, revision) else none
    | _, _ => none).toFinset

/-- The inodes with such a revision. -/
def holdingInodes (blob : ID) : Finset (Nat × Nat) :=
  (holdingRevisions store blob).image fun id => (id.1, id.2.1)

/-- The manifests that have a blob. -/
def holdingManifests (blob : ID) : Finset ID :=
  (store.scan fun key value =>
    match key, value with
    | .contentManifest manifest _, .contentManifest record =>
      if blob ∈ record.contentIDs then some manifest else none
    | _, _ => none).toFinset

/-! ## The law -/

/-- The counts of a `rc:` record that are derived from revisions and manifests. -/
structure ReferenceCounts where
  (totalReferences distinctInodes distinctRevisions distinctManifests : Nat := 0)
  deriving DecidableEq, Repr

def valueCounts : Value → Option ReferenceCounts
  | .referenceCount record =>
    some
      { totalReferences := record.totalReferences, distinctInodes := record.distinctInodes
        distinctRevisions := record.distinctRevisions
        distinctManifests := record.distinctManifests }
  | _ => none

/-- The counts that the `rc:` record of a blob is to have. -/
def referenceCounts (blob : ID) : ReferenceCounts :=
  { totalReferences := occurrences store blob + (holdingManifests store blob).card
    distinctInodes := (holdingInodes store blob).card
    distinctRevisions := (holdingRevisions store blob).card
    distinctManifests := (holdingManifests store blob).card }

/-- The record of the blob has its counts; there is none when all of them are zero. -/
def CountsHold (blob : ID) : Prop :=
  (store.lookup (.referenceCount blob)).map valueCounts =
    if referenceCounts store blob = {} then none else some (some (referenceCounts store blob))

end

instance (store : SchemaStore) (blob : ID) : Decidable (CountsHold store blob) :=
  inferInstanceAs (Decidable (_ = _))

/-! ## What the counts depend on -/

variable {store : SchemaStore}

theorem mem_holdingRevisions {blob : ID} {id : RevisionID} :
    id ∈ holdingRevisions store blob ↔
      ∃ record, IsRevision store id record ∧ 0 < contentCount store record blob := by
  rw [holdingRevisions, List.mem_toFinset, Table.mem_scan]
  constructor
  · rintro ⟨key, value, hlook, hselect⟩
    split at hselect
    · split at hselect
      · rename_i record hcount
        cases hselect
        exact ⟨record, hlook, hcount⟩
      · cases hselect
    · cases hselect
  · rintro ⟨record, hrevision, hcount⟩
    exact ⟨_, _, hrevision, by simp [hcount]⟩

theorem mem_holdingManifests {blob manifest : ID} :
    manifest ∈ holdingManifests store blob ↔ InManifest store manifest blob := by
  rw [holdingManifests, List.mem_toFinset, Table.mem_scan]
  constructor
  · rintro ⟨key, value, hlook, hselect⟩
    split at hselect
    · rename_i segment record
      split at hselect
      · rename_i hblob
        cases hselect
        exact ⟨segment, record, hlook, hblob⟩
      · cases hselect
    · cases hselect
  · rintro ⟨segment, record, hlook, hblob⟩
    exact ⟨_, _, hlook, by simp [hblob]⟩

/-- A manifest has a blob exactly when it occurs in it. -/
theorem manifestCount_pos_iff {manifest blob : ID} :
    0 < manifestCount store manifest blob ↔ InManifest store manifest blob := by
  constructor
  · intro hpos
    by_contra hout
    refine absurd (Table.sum_eq_zero fun key value hlook => ?_) hpos.ne'
    unfold segmentWeight
    split
    · rename_i id segment record
      split
      · rename_i hid
        refine List.count_eq_zero.mpr fun hblob => hout ⟨segment, record, ?_, hblob⟩
        rw [← hid]
        exact hlook
      · rfl
    · rfl
  · rintro ⟨segment, record, hlook, hblob⟩
    have hle := Table.weightAt_le_sum store (segmentWeight manifest blob)
      (.contentManifest manifest segment)
    rw [Table.weightAt_of_lookup hlook] at hle
    simp only [segmentWeight, if_true] at hle
    exact Nat.lt_of_lt_of_le (List.count_pos_iff.mpr hblob) hle

theorem contentCount_pos_iff {record : InodeRevision} {blob : ID} :
    0 < contentCount store record blob ↔ InContent store record blob := by
  unfold contentCount InContent
  cases record.contentMode with
  | none => simp
  | inline => exact List.count_pos_iff
  | manifestRef => exact manifestCount_pos_iff

/-- The blobs that an entry names in its content or its key. -/
def namedBlobs : Key → Value → List ID
  | .referenceCount blob, _ => [blob]
  | .inodeRevision _ _ _, .inodeRevision record => record.contentIDs
  | .contentManifest _ _, .contentManifest record => record.contentIDs
  | _, _ => []

def mentionedBlobs (store : SchemaStore) : List ID :=
  (store.scan fun key value => some (namedBlobs key value)).flatten

/-- Blobs that a store does not name have no counts and need none. -/
theorem countsHold_of_mentioned
    (h : (mentionedBlobs store).all (fun blob => CountsHold store blob) = true) (blob : ID) :
    CountsHold store blob := by
  by_cases hmem : blob ∈ mentionedBlobs store
  · exact of_decide_eq_true (List.all_eq_true.mp h blob hmem)
  have hout : ∀ key value, store.lookup key = some value → blob ∉ namedBlobs key value := by
    intro key value hlook hnamed
    exact hmem (List.mem_flatten.mpr ⟨_, Table.mem_scan.mpr ⟨key, value, hlook, rfl⟩, hnamed⟩)
  have hmanifest : ∀ manifest, ¬InManifest store manifest blob := by
    rintro manifest ⟨segment, record, hlook, hblob⟩
    exact hout _ _ hlook hblob
  have hcontent : ∀ id record, IsRevision store id record → contentCount store record blob = 0 := by
    intro id record hrevision
    refine Nat.eq_zero_of_not_pos fun hpos => ?_
    have hblob := contentCount_pos_iff.mp hpos
    unfold InContent at hblob
    split at hblob
    · exact hout _ _ hrevision hblob
    · exact hblob
    · exact hmanifest _ hblob
  have hoccurrences : occurrences store blob = 0 := by
    refine Table.sum_eq_zero fun key value hlook => ?_
    unfold overRevisions
    split
    · exact hcontent (_, _, _) _ hlook
    · rfl
  have hrevisions : holdingRevisions store blob = ∅ := by
    refine Finset.eq_empty_of_forall_notMem fun id hid => ?_
    obtain ⟨record, hrevision, hpos⟩ := mem_holdingRevisions.mp hid
    exact absurd hpos (by rw [hcontent id record hrevision]; exact Nat.lt_irrefl 0)
  have hmanifests : holdingManifests store blob = ∅ := by
    refine Finset.eq_empty_of_forall_notMem fun manifest hin => ?_
    exact hmanifest manifest (mem_holdingManifests.mp hin)
  have hzero : referenceCounts store blob = {} := by
    unfold referenceCounts holdingInodes
    rw [hoccurrences, hrevisions, hmanifests]
    rfl
  have hnone : store.lookup (.referenceCount blob) = none := by
    refine Option.eq_none_iff_forall_ne_some.mpr fun value hlook => ?_
    exact hout _ _ hlook (List.mem_singleton_self blob)
  rw [CountsHold, hzero, hnone]
  rfl

/-- The key of a segment of the manifest. -/
def isSegmentOf (manifest : ID) : Key → Bool
  | .contentManifest id _ => decide (id = manifest)
  | _ => false

/-- The occurrences in a manifest depend on its own segments. -/
theorem manifestCount_congr {store store' : SchemaStore} {manifest blob : ID}
    (h : ∀ segment, store'.lookup (.contentManifest manifest segment) =
      store.lookup (.contentManifest manifest segment)) :
    manifestCount store' manifest blob = manifestCount store manifest blob := by
  have houtside : ∀ key value, isSegmentOf manifest key = false →
      segmentWeight manifest blob key value = 0 := by
    intro key value hcounted
    unfold segmentWeight
    split
    · rw [if_neg (of_decide_eq_false hcounted)]
    · rfl
  refine Table.sum_congr houtside fun key hcounted => ?_
  cases key with
  | contentManifest id segment =>
    rw [show id = manifest from of_decide_eq_true hcounted]
    exact h segment
  | _ => cases hcounted

theorem weightAt_overRevisions_eq_zero {w : InodeRevision → Nat} {key : Key}
    (h : ∀ id record, key = RevisionID.inodeKey id → ¬IsRevision store id record) :
    store.weightAt (overRevisions w) key = 0 := by
  cases hlook : store.lookup key with
  | none => exact Table.weightAt_of_lookup_none hlook
  | some value =>
    rw [Table.weightAt_of_lookup hlook]
    unfold overRevisions
    split
    · rename_i fsid inode revision record
      exact absurd hlook (h (fsid, inode, revision) record rfl)
    · rfl

/-- A change of each revision changes a sum over them by its weights only. -/
theorem sum_overRevisions {store store' : SchemaStore} {w w' : InodeRevision → Nat}
    (change : InodeRevision → InodeRevision)
    (hrevisions : ∀ id record, IsRevision store' id record ↔
      ∃ before, IsRevision store id before ∧ record = change before)
    (hw : ∀ id record, IsRevision store id record → w' (change record) = w record) :
    store'.sum (overRevisions w') = store.sum (overRevisions w) := by
  refine Table.sum_of_weightAt fun key => ?_
  by_cases hkey : ∃ id record, key = RevisionID.inodeKey id ∧ IsRevision store id record
  · obtain ⟨id, record, rfl, hrevision⟩ := hkey
    rw [Table.weightAt_of_lookup ((hrevisions id _).mpr ⟨record, hrevision, rfl⟩),
      Table.weightAt_of_lookup hrevision]
    exact hw id record hrevision
  · rw [weightAt_overRevisions_eq_zero, weightAt_overRevisions_eq_zero]
    · intro id record hid hrevision
      exact hkey ⟨id, record, hid, hrevision⟩
    · intro id record hid hrevision
      obtain ⟨before, hbefore, -⟩ := (hrevisions id record).mp hrevision
      exact hkey ⟨id, before, hid, hbefore⟩

end Vaultic.Daemon
