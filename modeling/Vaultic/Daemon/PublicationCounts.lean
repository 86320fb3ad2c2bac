/-
  Daemon/PublicationCounts.lean  —  reference counts over runs of publications.

  Publications only add: a revision, the manifest of its content, and the reverse records of
  its blobs.  From an empty store every count is therefore kept by counting what is added,
  as long as nothing is counted twice.  A retried publication finds its revision current and
  writes nothing; a newer revision of an inode finds the inode already filed under the blobs
  the two have in common; a manifest that several revisions share is counted once.

  The revisions are counted as they were published, each with the content of the request
  that published it.
-/
import Vaultic.Daemon.PublicationRuns

set_option autoImplicit false

namespace Vaultic.Daemon

open Vaultic.Lib Vaultic.Schema

/-! ## Requests that agree with their revision -/

/-- The content of a request is the one its revision value has. -/
def contentAgrees (manifestHash : List ID → ID) (record : InodeRevision) (ids : List ID) : Prop :=
  match record.contentMode with
  | .none => ids = []
  | .inline => record.contentIDs = ids
  | .manifestRef =>
    record.contentManifestID = manifestHash ids ∧ record.contentCount = ids.length

section

variable (manifestHash : List ID → ID) (guarded : Key → Bool)

/-- The caller's part: content that agrees with the revision value, and related puts that
leave the guarded references alone. -/
structure ReconciledRevision.Agrees (request : ReconciledRevision) : Prop where
  content : ∀ record, request.revisionValue = .inodeRevision record →
    contentAgrees manifestHash record request.contentIDs
  related : ∀ put ∈ request.relatedPuts, guarded put.1 = false

/-- Every request that the call can come to publish agrees. -/
def PublicationCall.Agrees : PublicationCall → Prop
  | .single _ request => request.Agrees manifestHash guarded
  | .allocated _ build => ∀ revision request, build revision = .ok request →
      request.Agrees manifestHash guarded
  | .grouped _ _ build => ∀ first requests, build first = .ok requests →
      ∀ request ∈ requests, request.Agrees manifestHash guarded

end

/-! ## Counts -/

def reverseInodeOf (blob : ID) : Key → Option (Nat × Nat)
  | .reverseInode id fsid inode => if id = blob then some (fsid, inode) else none
  | _ => none

def reverseManifestOf (blob : ID) : Key → Option ID
  | .reverseManifest id manifest => if id = blob then some manifest else none
  | _ => none

/-- The inodes that a blob is filed under. -/
def reverseInodes (store : SchemaStore) (blob : ID) : Finset (Nat × Nat) :=
  (store.scan fun key _ => reverseInodeOf blob key).toFinset

/-- The manifests that a blob is filed under. -/
def reverseManifests (store : SchemaStore) (blob : ID) : Finset ID :=
  (store.scan fun key _ => reverseManifestOf blob key).toFinset

/-- The published revisions whose content holds a blob. -/
def publishedHolders (published : Published) (blob : ID) : Nat :=
  published.sum fun _ ids => if blob ∈ ids then 1 else 0

/-- The occurrences of a blob in the content of the published revisions. -/
def publishedOccurrences (published : Published) (blob : ID) : Nat :=
  published.sum fun _ ids => ids.count blob

theorem reverseInodeOf_eq_some {blob : ID} (key : Key) (inode : Nat × Nat) :
    reverseInodeOf blob key = some inode ↔ key = .reverseInode blob inode.1 inode.2 := by
  cases key <;> simp [reverseInodeOf, Prod.ext_iff]

theorem reverseManifestOf_eq_some {blob : ID} (key : Key) (manifest : ID) :
    reverseManifestOf blob key = some manifest ↔ key = .reverseManifest blob manifest := by
  cases key <;> simp [reverseManifestOf]

theorem coe_reverseInodes (store : SchemaStore) (blob : ID) :
    (reverseInodes store blob : Set (Nat × Nat)) =
      (blobView (fun key => store.lookup key) blob).inodes := by
  ext inode
  rw [Finset.mem_coe, reverseInodes, List.mem_toFinset,
    Table.mem_scan_keys reverseInodeOf_eq_some]
  rfl

theorem coe_reverseManifests (store : SchemaStore) (blob : ID) :
    (reverseManifests store blob : Set ID) =
      (blobView (fun key => store.lookup key) blob).manifests := by
  ext manifest
  rw [Finset.mem_coe, reverseManifests, List.mem_toFinset,
    Table.mem_scan_keys reverseManifestOf_eq_some]
  rfl

/-! ## The content of a published revision -/

/-- Reading the segments of a list one after the other gives the list. -/
theorem flatMap_segments {α : Type} (l : List α) (size count : Nat) :
    ((List.range count).flatMap fun i => (l.drop (i * size)).take size) =
      l.take (count * size) := by
  induction count with
  | zero => simp
  | succ count ih =>
    rw [List.range_succ, List.flatMap_append, ih, List.flatMap_singleton, Nat.succ_mul,
      List.take_add]

section Segments

variable {ids : List ID} {size total : Nat} {segments : List ContentManifest}
  {manifestHash : List ID → ID} {manifest : ID}

theorem contentSegments_contentIDs (ids : List ID) (hsize : 0 < size) :
    (contentSegments ids size).flatMap (·.contentIDs) = ids := by
  rw [contentSegments, List.flatMap_map]
  dsimp only
  rw [flatMap_segments]
  refine List.take_of_length_le ?_
  have hmod := Nat.mod_lt (ids.length + size - 1) hsize
  have hdiv := Nat.div_add_mod' (ids.length + size - 1) size
  omega

/-- The segments have the numbers of their places, and agree on their count and on the length
of the content. -/
def Numbered (segments : List ContentManifest) (total : Nat) : Prop :=
  ∀ entry ∈ segments.zipIdx, entry.1.segment = entry.2 ∧
    entry.1.segmentCount = segments.length ∧ entry.1.totalCount = total

theorem numbered_contentSegments : Numbered (contentSegments ids size) ids.length := by
  intro entry hentry
  rw [contentSegments, List.zipIdx_map] at hentry
  obtain ⟨⟨number, place⟩, hplace, rfl⟩ := List.mem_map.mp hentry
  obtain ⟨-, rfl⟩ := List.getElem?_eq_some_iff.mp (List.mk_mem_zipIdx_iff_getElem?.mp hplace)
  simp [contentSegments]

theorem Numbered.numbers (h : Numbered segments total) :
    segments.map (·.segment) = List.range segments.length := by
  rw [List.range_eq_range', ← List.zipIdx_map_snd 0 segments]
  refine Eq.trans ?_ (List.map_congr_left fun entry hentry => (h entry hentry).1)
  exact (congrArg (List.map (·.segment)) (List.zipIdx_map_fst 0 segments)).symm.trans List.map_map

/-- Numbered segments are sorted, whatever their order was. -/
theorem Numbered.insertionSort_eq (h : Numbered segments total) {permuted : List ContentManifest}
    (hperm : permuted.Perm segments) :
    permuted.insertionSort (fun left right => left.segment ≤ right.segment) = segments := by
  have hpairs := List.pairwise_map.mp (h.numbers ▸ List.pairwise_lt_range)
  refine ((List.perm_insertionSort _ permuted).trans hperm).eq_of_pairwise ?_
    (List.pairwise_insertionSort _ _) (hpairs.imp Nat.le_of_lt)
  intro left right hleft hright hle hge
  have hinj : (segments.map (·.segment)).Nodup := h.numbers ▸ List.nodup_range
  exact List.inj_on_of_nodup_map hinj (hperm.mem_iff.mp ((List.mem_insertionSort _).mp hleft))
    hright (Nat.le_antisymm hle hge)

/-- What `AssembleContent` accepts. -/
theorem assembleContent_eq_ok : assembleContent manifestHash manifest segments = .ok ids ↔
    ∃ sorted, segments.insertionSort (fun left right => left.segment ≤ right.segment) = sorted ∧
      sorted ≠ [] ∧ Numbered sorted ids.length ∧ ids = sorted.flatMap (·.contentIDs) ∧
      ids.length ≤ maxContentIDs ∧ manifestHash ids = manifest := by
  rw [exists_eq_left', assembleContent]
  cases segments.insertionSort fun left right => left.segment ≤ right.segment with
  | nil => simp
  | cons first rest =>
    simp only [guard_eq_ok, Bool.not_eq_true, List.any_eq_false, decide_eq_true_eq, ne_eq, not_or,
      not_not, gt_iff_lt, not_lt, Except.ok.injEq]
    constructor
    · rintro ⟨⟨hmax, hcount⟩, htotal, hsame, hhash, rfl⟩
      rw [hcount, ← htotal] at hsame
      exact ⟨nofun, hsame, rfl, htotal ▸ hmax, hhash⟩
    · rintro ⟨-, hnumbered, rfl, hmax, hhash⟩
      obtain ⟨-, hcount, htotal⟩ := hnumbered (first, 0) (by simp)
      dsimp only at hcount htotal
      rw [hcount, htotal]
      exact ⟨⟨hmax, rfl⟩, rfl, hnumbered, hhash, rfl⟩

/-- Segments of every allowed size are put together again in any order; and what is put together
hashes to the manifest and is made of segments without gap or repetition. -/
theorem assembleContent_segments (manifestHash : List ID → ID) :
    (∀ (ids : List ID) (size : Nat), ids ≠ [] → ids.length ≤ maxContentIDs → 1 ≤ size →
      size ≤ maxContentSegmentIDs → ∃ manifest segments,
        segmentContent manifestHash ids size = .ok (manifest, segments) ∧
        ∀ permuted, permuted.Perm segments →
          assembleContent manifestHash manifest permuted = .ok ids) ∧
    ∀ manifest segments ids, assembleContent manifestHash manifest segments = .ok ids →
      manifestHash ids = manifest ∧ ∃ sorted : List ContentManifest, sorted.Perm segments ∧
        sorted.map (·.segment) = List.range sorted.length ∧
        ids = sorted.flatMap (·.contentIDs) := by
  constructor
  · intro ids size hne hmax hsize hlimit
    refine ⟨_, _, if_neg (by simp [hne, hmax, hlimit]; omega), fun permuted hperm => ?_⟩
    have hids := contentSegments_contentIDs ids hsize
    refine assembleContent_eq_ok.mpr ⟨_, numbered_contentSegments.insertionSort_eq hperm, ?_,
      numbered_contentSegments, hids.symm, hmax, rfl⟩
    intro hnil
    rw [hnil] at hids
    exact hne hids.symm
  · intro manifest segments ids h
    obtain ⟨sorted, hsorted, -, hnumbered, hids, -, hhash⟩ := assembleContent_eq_ok.mp h
    exact ⟨hhash, sorted, hsorted ▸ List.perm_insertionSort _ _, hnumbered.numbers, hids⟩

/-- The size that is just too large for a segment: there is nothing to assemble. -/
theorem segmentContent_too_large :
    segmentContent (fun _ => 0) [1] (maxContentSegmentIDs + 1) =
      .error (malformed "invalid content segmentation") :=
  if_pos (by decide)

theorem assembleContent_segments_single :
    ∃ manifest segments, segmentContent (fun _ => 7) [1, 2, 3] 2 = .ok (manifest, segments) ∧
      ∀ permuted, permuted.Perm segments →
        assembleContent (fun _ => 7) manifest permuted = .ok [1, 2, 3] :=
  (assembleContent_segments fun _ => 7).1 [1, 2, 3] 2 (by decide) (by decide) (by decide)
    (by decide)

theorem defaultSegments_contentIDs (ids : List ID) :
    (defaultSegments ids).flatMap (·.contentIDs) = ids :=
  contentSegments_contentIDs ids (by decide)

end Segments

variable {record : InodeRevision}

variable {request : ReconciledRevision} {input : PublicationInput} {published : Published}

/-- The published revisions with the one of a request. -/
abbrev PublicationInput.extend (input : PublicationInput) (published : Published) : Published :=
  published.insert (input.fsid, input.inode, input.reconciled.revision) input.reconciled.contentIDs

section

variable (hprepared : Prepared request input) (hinode : input.isInode = true)
include hprepared hinode

theorem Prepared.inodeRevision :
    ∃ record, request.revisionValue = .inodeRevision record ∧ checkInodeRevision record = none := by
  have hvalue := hprepared.value
  rw [hinode] at hvalue
  obtain ⟨record, hdecoded, -⟩ := map_eq_ok.mp hvalue
  exact ⟨record, unmarshalInodeRevision_eq_ok hdecoded, (decode_eq_ok.mp hdecoded).2.2⟩

/-- A request for an inode publishes a revision that is not published yet. -/
theorem Prepared.recordPublished_eq
    (hfresh : published.lookup (input.fsid, input.inode, input.reconciled.revision) = none) :
    recordPublished published request = input.extend published := by
  obtain rfl := hprepared.request
  unfold recordPublished
  rw [(hprepared.inodeKeys hinode).2]
  dsimp only
  rw [hfresh]
  rfl

end

variable {manifestHash : List ID → ID} {guarded : Key → Bool}

/-- Requests that agree do so in every store. -/
theorem along_agrees {limits : Limits} {calls : List PublicationCall}
    (hagrees : ∀ call ∈ calls, call.Agrees manifestHash guarded) {state : PublicationState} :
    Along (publicationStep limits manifestHash)
      (fun state call => call.Meets limits manifestHash
        (fun _ request => request.Agrees manifestHash guarded) state.store) state calls := by
  apply Along.of_forall_mem
  intro call hmem state
  have hcall := hagrees call hmem
  cases call with
  | single now request => exact hcall
  | allocated now build => exact hcall
  | grouped now count build =>
    exact fun first requests h =>
      groupMeets_of_forall (fun request hrequest _ => hcall first requests h request hrequest) _

variable {ids : List ID}

variable {segments : List ContentManifest}

variable {store : SchemaStore}

/-- The segments of a content that is stored whole are loaded as they were written. -/
theorem loadSegments_inv {manifest : ID} (hstored : ∀ segment ∈ defaultSegments ids,
      store.lookup (.contentManifest manifest segment.segment) = some (.contentManifest segment))
    (h : ((List.range ((ids.length + defaultContentSegmentIDs - 1) / defaultContentSegmentIDs)).map
      (loadSegment store manifest)).mapM id = .ok segments) : segments = defaultSegments ids := by
  have hloaded := mapM_id_eq_ok.mp h
  have hok : (Except.ok (ε := String) : ContentManifest → _).Injective := fun _ _ => Except.ok.inj
  refine hok.list_map ?_
  rw [← hloaded, defaultSegments, contentSegments, List.map_map]
  refine List.map_congr_left fun number hnumber => ?_
  have hmem := List.mem_map_of_mem (f := loadSegment store manifest) hnumber
  rw [hloaded] at hmem
  obtain ⟨segment, -, hsegment⟩ := List.mem_map.mp hmem
  rw [← hsegment, Function.comp_apply]
  rw [loadSegment, hstored _ (List.mem_map_of_mem hnumber)] at hsegment
  obtain ⟨-, hview, -⟩ := decode_eq_ok.mp hsegment.symm
  exact congrArg Except.ok (Option.some.inj hview).symm

theorem validContentState_of_check (hcheck : checkInodeRevision record = none) :
    validContentState record.contentMode record.contentCount record.contentIDs
      record.contentManifestID = true := by
  unfold checkInodeRevision at hcheck
  split_ifs at hcheck with hknown hcontent
  exact Bool.eq_true_of_not_eq_false hcontent

theorem contentCount_of_manifestRef
    (hcheck : checkInodeRevision record = none) (hmode : record.contentMode = .manifestRef) :
    maxInlineContentIDs < record.contentCount := by
  have hstate := validContentState_of_check hcheck
  rw [hmode] at hstate
  simp only [validContentState, Bool.and_eq_true, decide_eq_true_eq] at hstate
  exact hstate.1.1.1

/-- A transaction reads back the content that a revision was published with. -/
theorem transactionContentIDs_inv
    {ids read : List ID} (hagrees : contentAgrees manifestHash record ids)
    (hcheck : checkInodeRevision record = none) (hsegments : ∀ segment ∈ manifestSegments ids,
      store.lookup (.contentManifest (manifestHash ids) segment.segment) =
        some (.contentManifest segment))
    (h : transactionContentIDs manifestHash store record = .ok read) : read = ids := by
  unfold contentAgrees at hagrees
  unfold transactionContentIDs at h
  cases hmode : record.contentMode with
  | none =>
    rw [hmode] at hagrees h
    cases h
    exact hagrees.symm
  | inline =>
    rw [hmode] at hagrees h
    cases h
    exact hagrees
  | manifestRef =>
    rw [hmode] at hagrees h
    obtain ⟨hmanifest, hcount⟩ := hagrees
    have hlong : ¬ids.length ≤ maxInlineContentIDs := by
      rw [← hcount]
      exact Nat.not_le.mpr (contentCount_of_manifestRef hcheck hmode)
    rw [manifestSegments, if_neg hlong] at hsegments
    obtain ⟨segments, hload, hassemble⟩ := of_bind h
    rw [hcount, hmanifest] at hload
    rw [loadSegments_inv hsegments hload] at hassemble
    obtain ⟨sorted, hsorted, -, -, hread, -⟩ := assembleContent_eq_ok.mp hassemble
    have hkept := numbered_contentSegments.insertionSort_eq (.refl (defaultSegments ids))
    rw [hread, ← hsorted, hkept]
    exact defaultSegments_contentIDs ids

/-- A revision refers to the manifest of its content, which is not zero. -/
theorem contentManifest_of_agrees
    (hagrees : contentAgrees manifestHash record ids) (hcheck : checkInodeRevision record = none) :
    contentManifest manifestHash ids =
        (if record.contentMode = .manifestRef then some record.contentManifestID else none) ∧
      contentManifest manifestHash ids ≠ some 0 := by
  have hstate := validContentState_of_check hcheck
  unfold contentAgrees at hagrees
  unfold contentManifest
  cases hmode : record.contentMode with
  | none =>
    rw [hmode] at hagrees
    rw [hagrees, List.length_nil, if_pos (Nat.zero_le _)]
    exact ⟨rfl, (Option.some_ne_none 0).symm⟩
  | inline =>
    rw [hmode] at hagrees hstate
    simp only [validContentState, Bool.and_eq_true, decide_eq_true_eq, beq_iff_eq] at hstate
    obtain ⟨⟨⟨-, hshort⟩, hlength⟩, -⟩ := hstate
    rw [hlength, hagrees] at hshort
    rw [if_pos hshort]
    exact ⟨rfl, (Option.some_ne_none 0).symm⟩
  | manifestRef =>
    rw [hmode] at hagrees hstate
    simp only [validContentState, Bool.and_eq_true, decide_eq_true_eq, bne_iff_ne] at hstate
    obtain ⟨hmanifest, hcount⟩ := hagrees
    rw [← hcount, if_neg (Nat.not_le.mpr hstate.1.1.1), if_pos rfl, ← hmanifest]
    exact ⟨rfl, fun hzero => hstate.2 (Option.some.inj hzero)⟩

/-! ## What is added to the counts -/

section Views

variable {blob : ID}

/-- The counts of a view are those of its sets and of what was published. -/
structure BlobView.Counted (view : BlobView) (occurrences holders : Nat) : Prop where
  inodes : view.inodes.Finite
  manifests : view.manifests.Finite
  counts : view.counts = some
    { totalReferences := occurrences + view.manifests.ncard
      distinctInodes := view.inodes.ncard
      distinctRevisions := holders
      distinctManifests := view.manifests.ncard }

theorem ncard_insert {α : Type} {s : Set α} (hs : s.Finite) {a : α} {known : Bool}
    (hknown : known = true ↔ a ∈ s) :
    (insert a s).ncard = if known then s.ncard else s.ncard + 1 := by
  cases known with
  | true => rw [Set.insert_eq_of_mem (hknown.mp rfl), if_pos rfl]
  | false =>
    rw [Set.ncard_insert_of_notMem (fun ha => Bool.false_ne_true (hknown.mpr ha)) hs,
      if_neg Bool.false_ne_true]

section

variable {view : BlobView} {occurrences holders : Nat} (h : view.Counted occurrences holders)
include h

theorem BlobView.Counted.current
    (hknown : (store.lookup (.reverseInode blob input.fsid input.inode)).isSome ↔
      input.identity ∈ view.inodes) :
    (currentView store input blob view).Counted
      (occurrences + input.reconciled.contentIDs.count blob) (holders + 1) where
  inodes := h.inodes.insert _
  manifests := h.manifests
  counts := by
    simp only [currentView, h.counts, Option.map_some, addRevision, ncard_insert h.inodes hknown,
      Nat.add_right_comm]

theorem BlobView.Counted.manifest {manifest : ID}
    (hknown : (store.lookup (.reverseManifest blob manifest)).isSome ↔
      manifest ∈ view.manifests) :
    (manifestView store manifest blob view).Counted occurrences holders where
  inodes := h.inodes
  manifests := h.manifests.insert _
  counts := by
    simp only [manifestView, h.counts, Option.map_some, addManifest,
      ncard_insert h.manifests hknown]
    split <;> rfl

end

variable {manifest : Option ID}

/-- The references of a blob stay counted over a publication. -/
theorem counted_publishedView
    (hfresh : published.lookup (input.fsid, input.inode, input.reconciled.revision) = none)
    (h : (blobView (fun key => store.lookup key) blob).Counted
      (publishedOccurrences published blob) (publishedHolders published blob)) :
    (publishedView store input [] manifest blob).Counted
      (publishedOccurrences (input.extend published) blob)
      (publishedHolders (input.extend published) blob) := by
  rw [publishedOccurrences, publishedHolders, Table.sum_insert_fresh hfresh,
    Table.sum_insert_fresh hfresh]
  unfold publishedView
  by_cases hblob : blob ∈ input.reconciled.contentIDs
  · simp only [if_pos hblob]
    cases manifest with
    | none => exact h.current Iff.rfl
    | some manifest => exact (h.current Iff.rfl).manifest Iff.rfl
  · simp only [if_neg hblob, List.not_mem_nil, if_false, List.count_eq_zero_of_not_mem hblob,
      Nat.add_zero]
    exact h

/-- Publications only add to what a blob is filed under. -/
theorem mem_inodes_publishedView {inode : Nat × Nat} :
    inode ∈ (publishedView store input [] manifest blob).inodes ↔
      (inode = input.identity ∧ blob ∈ input.reconciled.contentIDs) ∨
        inode ∈ (blobView (fun key => store.lookup key) blob).inodes := by
  unfold publishedView
  dsimp only
  split
  · rename_i hblob
    rw [and_iff_left hblob]
    cases manifest <;> exact Set.mem_insert_iff
  · rename_i hblob
    rw [if_neg List.not_mem_nil, or_iff_right fun h => hblob h.2]

theorem mem_manifests_publishedView {other : ID} :
    other ∈ (publishedView store input [] manifest blob).manifests ↔
      (manifest = some other ∧ blob ∈ input.reconciled.contentIDs) ∨
        other ∈ (blobView (fun key => store.lookup key) blob).manifests := by
  unfold publishedView
  dsimp only
  split
  · rename_i hblob
    rw [and_iff_left hblob]
    cases manifest with
    | none => exact (or_iff_right (Option.some_ne_none other).symm).symm
    | some manifest =>
      rw [Option.some_inj, eq_comm]
      exact Set.mem_insert_iff
  · rename_i hblob
    rw [if_neg List.not_mem_nil, or_iff_right fun h => hblob h.2]

end Views

/-! ## The invariant -/

/-- What holds of a store and of the revisions that were published to it. -/
structure ContentInvariant (manifestHash : List ID → ID) (look : Key → Option Value)
    (published : Published) : Prop where
  /-- A current pointer names a published revision. -/
  pointer : ∀ {fsid inode value}, look (.currentInode fsid inode) = some value →
    ∃ current, value = .currentPointer ⟨current, .inodeRevision fsid inode current⟩ ∧
      (published.lookup (fsid, inode, current)).isSome
  /-- The current revision of an inode is its newest. -/
  newest : ∀ {fsid inode revision}, (published.lookup (fsid, inode, revision)).isSome →
    ∃ current, revision ≤ current ∧ look (.currentInode fsid inode) =
      some (.currentPointer ⟨current, .inodeRevision fsid inode current⟩)
  /-- The stored revisions are the published ones. -/
  known : ∀ {fsid inode revision}, (look (.inodeRevision fsid inode revision)).isSome →
    (published.lookup (fsid, inode, revision)).isSome
  stored : ∀ {fsid inode revision ids}, published.lookup (fsid, inode, revision) = some ids →
    ∃ record, look (.inodeRevision fsid inode revision) = some (.inodeRevision record) ∧
      contentAgrees manifestHash record ids
  segments : ∀ {id ids}, published.lookup id = some ids → ∀ segment ∈ manifestSegments ids,
    look (.contentManifest (manifestHash ids) segment.segment) = some (.contentManifest segment)
  /-- Every blob of a published content is filed under the inode. -/
  filed : ∀ {fsid inode revision ids}, published.lookup (fsid, inode, revision) = some ids →
    ∀ blob ∈ ids, (look (.reverseInode blob fsid inode)).isSome

namespace ContentInvariant

variable {look look' : Key → Option Value}

theorem empty : ContentInvariant manifestHash (fun _ => none) ∅ where
  pointer := fun h => by cases h
  newest := fun h => by cases h
  known := fun h => by cases h
  stored := fun h => by cases h
  segments := fun h => by cases h
  filed := fun h => by cases h

/-- The invariant is about the keys of publications and the references from inodes. -/
theorem congr_keys (hinv : ContentInvariant manifestHash look published)
    (hlook : ∀ key, guardedKey inodeReference key = true → look' key = look key) :
    ContentInvariant manifestHash look' published where
  pointer := by
    intro fsid inode value h
    rw [hlook _ rfl] at h
    exact hinv.pointer h
  newest := by
    intro fsid inode revision h
    rw [hlook _ rfl]
    exact hinv.newest h
  known := by
    intro fsid inode revision h
    rw [hlook _ rfl] at h
    exact hinv.known h
  stored := by
    intro fsid inode revision ids h
    rw [hlook _ rfl]
    exact hinv.stored h
  segments := by
    intro id ids h segment hsegment
    rw [hlook _ rfl]
    exact hinv.segments h segment hsegment
  filed := by
    intro fsid inode revision ids h blob hblob
    rw [hlook _ rfl]
    exact hinv.filed h blob hblob

/-! ### The state before a publication -/

variable {state : ReconciledState}

/-- What a publication finds of the inode: nothing, or the content of the current revision. -/
inductive FoundContent (manifestHash : List ID → ID) (store : SchemaStore) (published : Published)
    (fsid inode : Nat) (state : ReconciledState) : Prop where
  | first (hnone : store.lookup (.currentInode fsid inode) = none)
    (hcontent : state.oldContent = [])
      (hmanifest : state.oldManifestID = 0)
  | later {current : Nat}
      (hcurrent : store.lookup (.currentInode fsid inode) =
        some (.currentPointer ⟨current, .inodeRevision fsid inode current⟩))
      (hcontent : published.lookup (fsid, inode, current) = some state.oldContent)
      (hmanifest : state.oldManifestID = (contentManifest manifestHash state.oldContent).getD 0)

/-- The content that a publication replaces is filed under the inode. -/
theorem FoundContent.filed {fsid inode : Nat}
    (hfound : FoundContent manifestHash store published fsid inode state)
    (hinv : ContentInvariant manifestHash (fun key => store.lookup key) published) :
    ∀ blob ∈ state.oldContent,
      (fsid, inode) ∈ (blobView (fun key => store.lookup key) blob).inodes := by
  intro blob hblob
  cases hfound with
  | first hnone hcontent hmanifest =>
    rw [hcontent] at hblob
    cases hblob
  | later hcurrent hcontent hmanifest => exact hinv.filed hcontent blob hblob

section

variable (hinv : ContentInvariant manifestHash (fun key => store.lookup key) published)
include hinv

theorem foundContent_of_prior {fsid inode current : Nat}
    (hlook : store.lookup (.currentInode fsid inode) =
      some (.currentPointer ⟨current, .inodeRevision fsid inode current⟩))
    (hcurrent : (published.lookup (fsid, inode, current)).isSome) {before : ReconciledState}
    (h : loadPriorInodeContent manifestHash store (.inodeRevision fsid inode current) before =
      .ok state) :
    state.revisionFound = before.revisionFound ∧
      FoundContent manifestHash store published fsid inode state := by
  obtain ⟨ids, hids⟩ := Option.isSome_iff_exists.mp hcurrent
  obtain ⟨record, hrecord, hagrees⟩ := hinv.stored hids
  unfold loadPriorInodeContent at h
  rw [hrecord] at h
  obtain ⟨decoded, hdecoded, h⟩ := of_bind h
  obtain ⟨-, hview, hcheck⟩ := decode_eq_ok.mp hdecoded
  obtain rfl : record = decoded := Option.some.inj hview
  obtain ⟨content, hcontent, h⟩ := of_bind h
  cases h
  obtain rfl := transactionContentIDs_inv hagrees hcheck (hinv.segments hids) hcontent
  refine ⟨rfl, .later hlook hids ?_⟩
  dsimp only
  rw [(contentManifest_of_agrees hagrees hcheck).1]
  split <;> rfl

/-- A publication that is not a repetition has a new revision, newer than the current one. -/
theorem loadReconciledRevisionState_inode
    (hprepared : Prepared request input) (hinode : input.isInode = true)
    (h : loadReconciledRevisionState manifestHash store input = .ok state)
    (hnoop : state.noop = false) :
    state.revisionFound = false ∧
      published.lookup (input.fsid, input.inode, request.revision) = none ∧
      (∀ current, store.lookup (.currentInode input.fsid input.inode) =
          some (.currentPointer ⟨current, .inodeRevision input.fsid input.inode current⟩) →
        current ≤ request.revision) ∧
      FoundContent manifestHash store published input.fsid input.inode state := by
  obtain ⟨hcurrentKey, hrevisionKey⟩ := hprepared.inodeKeys hinode
  have hcases := loadReconciledRevisionState_inv h
  rw [hprepared.request, hcurrentKey, hrevisionKey, hinode] at hcases
  -- It is enough that the revision is not stored: then it was not published either.
  have hnew : ∀ {rest : Prop},
      (store.lookup (.inodeRevision input.fsid input.inode request.revision)).isSome = false ∧
        state.revisionFound =
          (store.lookup (.inodeRevision input.fsid input.inode request.revision)).isSome ∧ rest →
      state.revisionFound = false ∧
        published.lookup (input.fsid, input.inode, request.revision) = none ∧ rest := by
    rintro rest ⟨hstored, hfound, hrest⟩
    refine ⟨hfound.trans hstored, ?_, hrest⟩
    refine Option.eq_none_iff_forall_ne_some.mpr fun ids hids => ?_
    obtain ⟨record, hrecord, -⟩ := hinv.stored hids
    rw [hrecord] at hstored
    cases hstored
  apply hnew
  rcases hcases with ⟨hnone, rfl⟩ | ⟨value, pointer, hlook, hpointer, hcases⟩
  · refine ⟨Bool.eq_false_of_not_eq_true fun hstored => ?_, rfl, fun current hcurrent => ?_,
      .first hnone rfl rfl⟩
    · obtain ⟨current, -, hcurrent⟩ := hinv.newest (hinv.known hstored)
      rw [hnone] at hcurrent
      cases hcurrent
    · rw [hnone] at hcurrent
      cases hcurrent
  · obtain ⟨current, rfl, hcurrent⟩ := hinv.pointer hlook
    obtain rfl := unmarshalCurrentPointer_inv hpointer
    rcases hcases with ⟨-, -, hrepeated⟩ | ⟨hother, hle, hprior⟩
    · rw [hrepeated] at hnoop
      cases hnoop
    obtain ⟨hfound, hcontent⟩ := hinv.foundContent_of_prior hlook hcurrent hprior
    refine ⟨Bool.eq_false_of_not_eq_true fun hstored => hother ?_, hfound, ?_, hcontent⟩
    · -- A stored revision is not newer than the current one, so it is the current one.
      obtain ⟨newest, hge, hnewest⟩ := hinv.newest (hinv.known hstored)
      rw [hlook] at hnewest
      cases hnewest
      obtain rfl : current = request.revision := Nat.le_antisymm hle hge
      exact ⟨hstored, rfl, rfl⟩
    · intro other hlook'
      rw [hlook] at hlook'
      cases hlook'
      exact hle

/-- A repeated publication adds nothing. -/
theorem recordPublished_of_noop (hprepared : Prepared request input)
    (h : loadReconciledRevisionState manifestHash store input = .ok state)
    (hnoop : state.noop = true) : recordPublished published request = published := by
  have hstored : (store.lookup request.revisionKey).isSome := by
    have hcases := loadReconciledRevisionState_inv h
    rw [hprepared.request] at hcases
    rcases hcases with ⟨-, rfl⟩ | ⟨value, pointer, -, -, ⟨hstored, -⟩ | ⟨-, -, hprior⟩⟩
    · cases hnoop
    · exact hstored
    split at hprior
    · have hbefore := (loadPriorInodeContent_kept hprior).1
      rw [hnoop] at hbefore
      cases hbefore
    · rw [hprior] at hnoop
      cases hnoop
  unfold recordPublished
  cases hinode : input.isInode with
  | true =>
    rw [(hprepared.inodeKeys hinode).2] at hstored ⊢
    exact if_pos (hinv.known hstored)
  | false => rw [(hprepared.directoryKeys hinode).2]

end

/-- A directory has no content. -/
theorem loadReconciledRevisionState_directory (hdirectory : input.isInode = false)
    (h : loadReconciledRevisionState manifestHash store input = .ok state)
    (hnoop : state.noop = false) : state.oldContent = [] := by
  have hcases := loadReconciledRevisionState_inv h
  rw [hdirectory] at hcases
  rcases hcases with ⟨-, rfl⟩ | ⟨value, pointer, -, -, ⟨-, -, hrepeated⟩ | ⟨-, -, hprior⟩⟩
  · rfl
  · rw [hrepeated] at hnoop
    cases hnoop
  · rw [if_neg Bool.false_ne_true] at hprior
    rw [hprior]

/-! ### One publication -/

variable {puts : Pending} {plan : PublicationPlan}

/-- The publication of a directory has no blobs to go through. -/
theorem seen_directory (hprepared : Prepared request input) (hdirectory : input.isInode = false)
    (hrelated : ∀ put ∈ request.relatedPuts, guarded put.1 = false)
    (hplanned : Planned manifestHash store input puts state plan) {key : Key}
    (hkey : guardedKey guarded key = true) : seen store puts key = store.lookup key := by
  obtain rfl := hprepared.request
  obtain ⟨hcurrentKey, hrevisionKey⟩ := hprepared.directoryKeys hdirectory
  have hcontent := hprepared.directory hdirectory
  have hnew : plan.newUnique = [] := by
    rw [hplanned.first.newUnique, hcontent]
    rfl
  have hold : plan.oldUnique = [] := by
    rw [hplanned.first.oldUnique,
      loadReconciledRevisionState_directory hdirectory hplanned.loaded hplanned.fresh]
    rfl
  obtain ⟨historical, current, filed, hhistorical, hcurrent, hfiled, hclosing⟩ := hplanned.phases
  have hfirst : filed = plan.puts := by
    simp only [planHistoricalReferences, hold, List.filter_nil, planEach, ite_self] at hhistorical
    simp only [planCurrentInodeReferences, hnew, planEach] at hcurrent
    simp only [planCurrentManifestReferences, hnew, planEach, ite_self] at hfiled
    cases hhistorical
    cases hcurrent
    cases hfiled
    rfl
  refine seen_of_lookup_none ((hclosing key (hprepared.closingAvoids hrelated hkey)).trans ?_)
  rw [hfirst]
  refine Option.eq_none_iff_forall_ne_some.mpr fun value hlook => ?_
  rcases hplanned.first.mem hlook with heq | ⟨-, heq⟩ | ⟨segment, hsegment, -⟩
  · rw [hcurrentKey] at heq
    cases heq
    cases hkey
  · rw [hrevisionKey] at heq
    cases heq
    cases hkey
  · rw [hplanned.first.segments, hcontent] at hsegment
    cases hsegment

/-- What the publication of an inode changes, seen from `look`. -/
structure PublishesInode (manifestHash : List ID → ID) (store : SchemaStore)
    (published : Published) (input : PublicationInput) (look : Key → Option Value) : Prop where
  fresh : published.lookup (input.fsid, input.inode, input.reconciled.revision) = none
  newer : ∀ current, store.lookup (.currentInode input.fsid input.inode) =
      some (.currentPointer ⟨current, .inodeRevision input.fsid input.inode current⟩) →
    current ≤ input.reconciled.revision
  current : ∀ fsid inode, look (.currentInode fsid inode) =
    if (fsid, inode) = input.identity then
      some (.currentPointer
        ⟨input.reconciled.revision, .inodeRevision fsid inode input.reconciled.revision⟩)
    else store.lookup (.currentInode fsid inode)
  revision : ∀ fsid inode revision, look (.inodeRevision fsid inode revision) =
    if (fsid, inode, revision) = (input.fsid, input.inode, input.reconciled.revision) then
      some input.reconciled.revisionValue
    else store.lookup (.inodeRevision fsid inode revision)
  segments : ∀ segment ∈ manifestSegments input.reconciled.contentIDs,
    look (.contentManifest (manifestHash input.reconciled.contentIDs) segment.segment) =
      some (.contentManifest segment)
  stays : ∀ manifest number value,
    store.lookup (.contentManifest manifest number) = some value →
      look (.contentManifest manifest number) = some value
  inodes : ∀ blob fsid inode, (look (.reverseInode blob fsid inode)).isSome ↔
    ((fsid, inode) = input.identity ∧ blob ∈ input.reconciled.contentIDs) ∨
      (store.lookup (.reverseInode blob fsid inode)).isSome

theorem publishedView_of_filed {old : List ID} {manifest : Option ID} {blob : ID}
    (hfiled : ∀ blob ∈ old, input.identity ∈ (blobView (fun key => store.lookup key) blob).inodes) :
    publishedView store input old manifest blob = publishedView store input [] manifest blob := by
  unfold publishedView
  dsimp only
  split
  · rfl
  split
  · rename_i hold
    rw [if_neg List.not_mem_nil]
    exact BlobView.ext rfl (Set.insert_eq_of_mem (hfiled blob hold)) rfl
  · rfl

theorem publishesInode
    (hinv : ContentInvariant manifestHash (fun key => store.lookup key) published)
    (hprepared : Prepared request input) (hinode : input.isInode = true)
    (hrelated : ∀ put ∈ request.relatedPuts, guarded put.1 = false)
    (hkeys : ∀ {key}, guardedKey inodeReference key = true → guardedKey guarded key = true)
    (hplanned : Planned manifestHash store input puts state plan) :
    PublishesInode manifestHash store published input (seen store puts) := by
  obtain ⟨hfound, hfresh, hnewer, hcontent⟩ :=
    hinv.loadReconciledRevisionState_inode hprepared hinode hplanned.loaded hplanned.fresh
  obtain rfl := hprepared.request
  have hfirst := hplanned.first
  have hfirstKeys : ∀ {key}, guardedKey inodeReference key = true → referenceOwner key = none →
      puts.lookup key = plan.puts.lookup key :=
    fun hkey => hplanned.lookup_other (hprepared.closingAvoids hrelated (hkeys hkey))
  obtain ⟨hcurrentKey, hrevisionKey⟩ := hprepared.inodeKeys hinode
  have hcurrent := hprepared.current
  rw [hrevisionKey] at hcurrent
  have hdistinct := distinctKeys_of_identity hprepared.identity
  refine ⟨hfresh, hnewer, ?_, ?_, ?_, ?_, ?_⟩
  · intro fsid inode
    rw [seen_congr (hfirstKeys rfl rfl)]
    split
    · rename_i heq
      cases heq
      have hlook := hfirst.lookup_current hdistinct
      rw [hcurrentKey, hcurrent] at hlook
      exact seen_of_lookup hlook
    · rename_i hne
      refine seen_of_lookup_none (hfirst.lookup_none ?_ ?_ (fun _ _ => Key.noConfusion))
      · rw [hcurrentKey]
        intro heq
        exact hne (Prod.ext (Key.currentInode.inj heq).1 (Key.currentInode.inj heq).2)
      · rw [hrevisionKey]
        exact Key.noConfusion
  · intro fsid inode revision
    rw [seen_congr (hfirstKeys rfl rfl)]
    split
    · rename_i heq
      cases heq
      have hlook := hfirst.lookup_revision hdistinct hfound
      rw [hrevisionKey] at hlook
      exact seen_of_lookup hlook
    · rename_i hne
      refine seen_of_lookup_none (hfirst.lookup_none ?_ ?_ (fun _ _ => Key.noConfusion))
      · rw [hcurrentKey]
        exact Key.noConfusion
      rw [hrevisionKey]
      intro heq
      obtain ⟨rfl, rfl, rfl⟩ := Key.inodeRevision.inj heq
      exact hne rfl
  · intro segment hsegment
    rw [← hfirst.segments] at hsegment
    rw [← hfirst.manifestID (List.ne_nil_of_mem hsegment), seen_congr (hfirstKeys rfl rfl)]
    exact hfirst.seen_segment hdistinct hsegment
  · intro manifest number value hstored
    rw [seen_congr (hfirstKeys rfl rfl)]
    exact hfirst.seen_of_stored hdistinct hstored
  · obtain ⟨filed, hclosing, hview⟩ := hplanned.view hprepared
    intro blob fsid inode
    rw [seen_congr (hclosing _ (hprepared.closingAvoids hrelated (hkeys rfl)))]
    change (fsid, inode) ∈ (blobView (seen store filed) blob).inodes ↔ _
    rw [hview blob, publishedView_of_filed (hcontent.filed hinv)]
    exact mem_inodes_publishedView

theorem lookup_insert_of_fresh {id other : RevisionID} {ids ids' : List ID}
    (hfresh : published.lookup id = none) (h : published.lookup other = some ids') :
    (published.insert id ids).lookup other = some ids' := by
  rw [Table.lookup_insert_eq, if_neg fun heq => ?_, h]
  rw [heq, h] at hfresh
  cases hfresh

/-- Publishing a new revision of an inode keeps the invariant. -/
theorem insert (hinv : ContentInvariant manifestHash (fun key => store.lookup key) published)
    (hvalue : input.reconciled.revisionValue = .inodeRevision record)
    (hagrees : contentAgrees manifestHash record input.reconciled.contentIDs)
    (hpub : PublishesInode manifestHash store published input look) :
    ContentInvariant manifestHash look (input.extend published) := by
  constructor
  case pointer =>
    intro fsid inode value h
    rw [hpub.current] at h
    split at h
    · rename_i heq
      cases heq
      cases h
      refine ⟨_, rfl, ?_⟩
      rw [Table.lookup_insert_eq, if_pos rfl]
      rfl
    · obtain ⟨current, hpointer, hcurrent⟩ := hinv.pointer h
      exact ⟨current, hpointer, Table.isSome_lookup_insert hcurrent⟩
  case newest =>
    intro fsid inode revision h
    rw [hpub.current]
    rw [Table.lookup_insert_eq] at h
    split at h
    · rename_i heq
      cases heq
      exact ⟨_, Nat.le_refl _, if_pos rfl⟩
    · obtain ⟨current, hle, hcurrent⟩ := hinv.newest h
      split
      · rename_i heq
        cases heq
        exact ⟨_, hle.trans (hpub.newer current hcurrent), rfl⟩
      · exact ⟨current, hle, hcurrent⟩
  case known =>
    intro fsid inode revision h
    rw [hpub.revision] at h
    split at h
    · rename_i heq
      rw [Table.lookup_insert_eq, if_pos heq.symm]
      rfl
    · exact Table.isSome_lookup_insert (hinv.known h)
  case stored =>
    intro fsid inode revision ids h
    rw [hpub.revision]
    rcases Table.lookup_insert_cases h with ⟨heq, rfl⟩ | ⟨hne, h⟩
    · rw [if_pos heq.symm]
      exact ⟨record, congrArg some hvalue, hagrees⟩
    · rw [if_neg (Ne.symm hne)]
      exact hinv.stored h
  case segments =>
    intro id ids h segment hsegment
    rcases Table.lookup_insert_cases h with ⟨-, rfl⟩ | ⟨-, h⟩
    · exact hpub.segments segment hsegment
    · exact hpub.stays _ _ _ (hinv.segments h segment hsegment)
  case filed =>
    intro fsid inode revision ids h blob hblob
    rw [hpub.inodes]
    rcases Table.lookup_insert_cases h with ⟨heq, rfl⟩ | ⟨-, h⟩
    · cases heq
      exact .inl ⟨rfl, hblob⟩
    · exact .inr (hinv.filed h blob hblob)

/-- An invariant that includes this one and is about the guarded keys is kept if the
publication of a new revision of an inode keeps it. -/
theorem kept_of {holds : (Key → Option Value) → Published → Prop}
    {meets : SchemaStore → ReconciledRevision → Prop}
    (hkeys : ∀ {key}, guardedKey inodeReference key = true → guardedKey guarded key = true)
    (hcontent : ∀ {look published}, holds look published →
      ContentInvariant manifestHash look published)
    (hcongr : ∀ {look look' published}, holds look published →
      (∀ key, guardedKey guarded key = true → look' key = look key) → holds look' published)
    (hagrees : ∀ {store request}, meets store request → request.Agrees manifestHash guarded)
    (hinsert : ∀ {store published request input puts state plan},
      holds (fun key => store.lookup key) published → Prepared request input →
      input.isInode = true → meets store request →
      Planned manifestHash store input puts state plan →
      PublishesInode manifestHash store published input (seen store puts) →
      ContentInvariant manifestHash (seen store puts) (input.extend published) →
      FoundContent manifestHash store published input.fsid input.inode state →
        holds (seen store puts) (input.extend published)) :
    KeptByPublications manifestHash recordPublished meets holds where
  congr_keys := fun hinv h => hcongr hinv fun key hkey =>
    h key (by rintro rfl; cases hkey)
  noop := fun hinv hprepared h hnoop => by
    rw [(hcontent hinv).recordPublished_of_noop hprepared h hnoop]
    exact hinv
  publish := by
    intro now store published request input puts hinv hprepared hmeets h
    have hprepared := prepareReconciledRevision_inv hprepared
    obtain ⟨state, plan, hplanned⟩ := planReconciledRevision_inv h
    have hagrees := hagrees hmeets
    cases hinode : input.isInode with
    | false =>
      rw [recordPublished, (hprepared.directoryKeys hinode).2]
      exact hcongr hinv fun key hkey =>
        seen_directory hprepared hinode hagrees.related hplanned hkey
    | true =>
      have hpub := (hcontent hinv).publishesInode hprepared hinode hagrees.related hkeys hplanned
      obtain ⟨-, -, -, hfound⟩ := (hcontent hinv).loadReconciledRevisionState_inode hprepared
        hinode hplanned.loaded hplanned.fresh
      obtain ⟨record, hrecord, -⟩ := hprepared.inodeRevision hinode
      rw [hprepared.recordPublished_eq hinode hpub.fresh]
      exact hinsert hinv hprepared hinode hmeets hplanned hpub
        ((hcontent hinv).insert (hprepared.request ▸ hrecord)
          (hprepared.request ▸ hagrees.content record hrecord) hpub) hfound

/-- If all references are guarded, those of a blob change as the phases say. -/
theorem view (hinv : ContentInvariant manifestHash (fun key => store.lookup key) published)
    (hprepared : Prepared request input) (hagrees : request.Agrees manifestHash blobReference)
    (hplanned : Planned manifestHash store input puts state plan)
    (hfound : FoundContent manifestHash store published input.fsid input.inode state) (blob : ID) :
    blobView (seen store puts) blob = publishedView store input []
      (contentManifest manifestHash input.reconciled.contentIDs) blob := by
  obtain ⟨filed, hclosing, hview⟩ := hplanned.view hprepared
  obtain rfl := hprepared.request
  rw [← publishedView_of_filed (hfound.filed hinv), ← hplanned.first.manifest_eq, ← hview blob]
  exact blobView_congr fun key hkey => seen_congr
    (hclosing key (hprepared.closingAvoids hagrees.related (guardedKey_of_owned hkey)))

end ContentInvariant

/-- The references of every blob are counted. -/
structure CountsInvariant (manifestHash : List ID → ID) (look : Key → Option Value)
    (published : Published) : Prop extends ContentInvariant manifestHash look published where
  counted : ∀ blob, (blobView look blob).Counted (publishedOccurrences published blob)
    (publishedHolders published blob)

namespace CountsInvariant

theorem empty : CountsInvariant manifestHash (fun _ => none) ∅ where
  toContentInvariant := .empty
  counted := by
    intro blob
    constructor <;> simp [blobView, lookupCounts, publishedOccurrences, publishedHolders]

theorem kept : KeptByPublications manifestHash recordPublished
    (fun _ request => request.Agrees manifestHash blobReference)
    (CountsInvariant manifestHash) := by
  apply ContentInvariant.kept_of guardedKey_mono toContentInvariant ?_ id
  · intro store published request input puts state plan hinv hprepared _ hagrees hplanned hpub
      hafter hfound
    refine ⟨hafter, fun blob => ?_⟩
    rw [hinv.toContentInvariant.view hprepared hagrees hplanned hfound]
    exact counted_publishedView hpub.fresh (hinv.counted blob)
  · intro look look' published hinv h
    refine ⟨hinv.congr_keys fun key hkey => h key (guardedKey_mono hkey), fun blob => ?_⟩
    rw [blobView_congr fun key hkey => h key (guardedKey_of_owned hkey)]
    exact hinv.counted blob

end CountsInvariant

/-! ## The counts of a run -/

/-- The stored counts of a blob; a blob without a record has none. -/
def storedCounts (store : SchemaStore) (blob : ID) : Option ReferenceCounts :=
  lookupCounts (fun key => store.lookup key) blob

/-- Over every run of publications from an empty store, the counts of a blob are the numbers
of its reverse records, of the published revisions that hold it, and of its occurrences in
them with one for each manifest. -/
theorem publication_counts (limits : Limits) (manifestHash : List ID → ID)
    (calls : List PublicationCall)
    (hagrees : ∀ call ∈ calls, call.Agrees manifestHash blobReference) (blob : ID) :
    let state := calls.foldl (publicationStep limits manifestHash) {}
    storedCounts state.store blob = some
      { totalReferences :=
          publishedOccurrences state.published blob + (reverseManifests state.store blob).card
        distinctInodes := (reverseInodes state.store blob).card
        distinctRevisions := publishedHolders state.published blob
        distinctManifests := (reverseManifests state.store blob).card } := by
  intro state
  have hinv : CountsInvariant manifestHash (fun key => state.store.lookup key) state.published :=
    CountsInvariant.kept.run (along_agrees hagrees) CountsInvariant.empty
  have hcounts := (hinv.counted blob).counts
  rw [← coe_reverseInodes, ← coe_reverseManifests, Set.ncard_coe_finset,
    Set.ncard_coe_finset] at hcounts
  exact hcounts

/-- A revision of inode 2 with an inline content. -/
def inlineRequest (revision : Nat) (ids : List ID) : ReconciledRevision :=
  { currentKey := .currentInode 1 2
    revisionKey := .inodeRevision 1 2 revision
    revisionValue := .inodeRevision
      { contentMode := .inline, contentCount := ids.length, contentIDs := ids }
    revision
    contentIDs := ids }

/-- One publication, its repetition, and a newer revision of the same inode. -/
def inlineCalls : List PublicationCall :=
  [.single 0 (inlineRequest 1 [7, 7, 8]), .single 0 (inlineRequest 1 [7, 7, 8]),
    .single 0 (inlineRequest 2 [8, 9])]

theorem inlineCalls_agree (manifestHash : List ID → ID) (guarded : Key → Bool) :
    ∀ call ∈ inlineCalls, call.Agrees manifestHash guarded := by
  intro call hcall
  simp only [inlineCalls, List.mem_cons, List.not_mem_nil, or_false] at hcall
  rcases hcall with rfl | rfl | rfl
  all_goals
    refine ⟨fun record hrecord => ?_, List.forall_mem_nil _⟩
    cases hrecord
    rfl

theorem publication_counts_inline :
    let state := inlineCalls.foldl (publicationStep ⟨100, 65536⟩ fun _ => 1) {}
    storedCounts state.store 8 = some
      { totalReferences :=
          publishedOccurrences state.published 8 + (reverseManifests state.store 8).card
        distinctInodes := (reverseInodes state.store 8).card
        distinctRevisions := publishedHolders state.published 8
        distinctManifests := (reverseManifests state.store 8).card } ∧
    storedCounts state.store 8 = some ⟨2, 1, 2, 0⟩ := by
  exact ⟨publication_counts ⟨100, 65536⟩ (fun _ => 1) inlineCalls (inlineCalls_agree _ _) 8,
    by decide +kernel⟩

end Vaultic.Daemon
