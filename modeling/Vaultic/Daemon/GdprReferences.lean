/-
  Daemon/GdprReferences.lean  —  the reference counts that a forget leaves.

  A forget rebuilds the counts of the blobs that the user's revisions held, from the
  revisions and manifests that stay.  The rebuild counts every occurrence of a blob in a
  manifest, where publication counts the manifest once, so a manifest that repeats a blob
  makes the two differ.
-/
import Vaultic.Daemon.References
import Vaultic.Daemon.GdprRedaction

set_option autoImplicit false

namespace Vaultic.Daemon

open Vaultic.Lib Vaultic.Schema

/-! ## The store after a forget -/

section After

variable {store : SchemaStore} {request : GdprForgetRequest} {parts : ForgetParts store request}

section

variable (h : parts.Planned)
include h

/-- The count of a blob is the rebuilt one if it is affected, and as before otherwise. -/
theorem ForgetParts.Planned.lookup_referenceCount (blob : ID) :
    parts.after.lookup (.referenceCount blob) =
      if blob ∈ affectedBlobs request.uid parts.inventory then
        (gdprCounts request parts.inventory blob).map .referenceCount
      else store.lookup (.referenceCount blob) := by
  have hdelete : (.referenceCount blob : Key) ∈ parts.deletes ↔
      blob ∈ affectedBlobs request.uid parts.inventory ∧
        gdprCounts request parts.inventory blob = none := by
    constructor
    · intro hmem
      cases h.isDelete hmem with
      | count haffected hnone => exact ⟨haffected, hnone⟩
    · rintro ⟨haffected, hnone⟩
      have hmem : .referenceCount blob ∈ referenceDeletes request parts.inventory := by
        refine List.mem_flatMap.mpr ⟨blob, haffected, List.mem_append_left _ ?_⟩
        rw [if_pos hnone]
        exact List.mem_singleton_self _
      simp [deletes, hmem]
  have hput : ∀ value, ((.referenceCount blob, value) : Mutation) ∈ parts.puts ↔
      blob ∈ affectedBlobs request.uid parts.inventory ∧
        (gdprCounts request parts.inventory blob).map .referenceCount = some value := by
    intro value
    constructor
    · intro hmem
      cases h.isPut hmem with
      | reference haffected hcount => exact ⟨haffected, by rw [hcount]; rfl⟩
    · rintro ⟨haffected, hvalue⟩
      obtain ⟨count, hcount, rfl⟩ := Option.map_eq_some_iff.mp hvalue
      have hmem := (mem_referencePuts h.references).mpr ⟨blob, haffected, count, hcount, rfl⟩
      simp [puts, hmem]
  rw [after, Table.lookup_deleteAll]
  split
  · rename_i hmem
    obtain ⟨haffected, hnone⟩ := hdelete.mp hmem
    rw [if_pos haffected, hnone]
    rfl
  rename_i hstays
  rcases Table.lookup_putAll_or store parts.puts (.referenceCount blob) with
    ⟨value, hmem, hlook⟩ | ⟨hne, hlook⟩ <;> rw [hlook]
  · obtain ⟨haffected, hvalue⟩ := (hput value).mp hmem
    rw [if_pos haffected, hvalue]
  · rw [if_neg]
    intro haffected
    cases hcount : gdprCounts request parts.inventory blob with
    | none => exact hstays (hdelete.mpr ⟨haffected, hcount⟩)
    | some count => exact hne _ ((hput _).mpr ⟨haffected, by rw [hcount]; rfl⟩) rfl

/-- The segments of manifests that only the user's revisions use are gone. -/
theorem ForgetParts.Planned.lookup_contentManifest (manifest : ID)
    (segment : Nat) [Decidable (Orphaned store request.uid manifest)] :
    parts.after.lookup (.contentManifest manifest segment) =
      if Orphaned store request.uid manifest then none
      else store.lookup (.contentManifest manifest segment) := by
  have hinventory := isInventory_of_build h.inventory
  have hputs : (store.putAll parts.puts).lookup (.contentManifest manifest segment) =
      store.lookup (.contentManifest manifest segment) := by
    refine Table.lookup_putAll_of_forall_ne ?_
    rintro ⟨key, value⟩ hmem rfl
    cases h.isPut hmem
  have hdelete : (.contentManifest manifest segment : Key) ∈ parts.deletes ↔
      ∃ record, ((manifest, segment), record) ∈ orphanedSegments request.uid parts.inventory := by
    constructor
    · intro hmem
      cases h.isDelete hmem with
      | segment horphaned => exact ⟨_, horphaned⟩
    · rintro ⟨record, horphan⟩
      have hmem : .contentManifest manifest segment ∈
          planGdprGlobalCleanup request.uid parts.inventory store :=
        List.mem_append_left _ (List.mem_flatMap.mpr ⟨_, horphan, .head _⟩)
      simp [deletes, hmem]
  rw [after, Table.lookup_deleteAll, hputs]
  by_cases horphaned : Orphaned store request.uid manifest
  · rw [if_pos horphaned]
    cases hlook : store.lookup (.contentManifest manifest segment) with
    | none => exact ite_self none
    | some value =>
      obtain ⟨record, hrecord⟩ := Table.decode_ok_of_collectBy hinventory.manifests hlook
        (a := (manifest, segment)) rfl
      rw [unmarshalContentManifest_eq_ok hrecord] at hlook
      refine if_pos (hdelete.mpr ⟨record, List.mem_filter.mpr ⟨?_, ?_⟩⟩)
      · exact (mem_scanGdprManifests hinventory.manifests).mpr hlook
      · exact decide_eq_true (hinventory.mem_orphaned.mpr horphaned)
  · rw [if_neg horphaned, if_neg]
    intro hmem
    obtain ⟨record, horphan⟩ := hdelete.mp hmem
    exact horphaned (hinventory.mem_orphaned.mp (of_decide_eq_true (List.mem_filter.mp horphan).2))

theorem ForgetParts.Planned.inManifest_after {manifest blob : ID} :
    InManifest parts.after manifest blob ↔
      InManifest store manifest blob ∧ ¬Orphaned store request.uid manifest := by
  classical
  unfold InManifest
  simp only [h.lookup_contentManifest]
  by_cases horphaned : Orphaned store request.uid manifest <;> simp [horphaned]

/-- The content of a revision that the user does not own stays. -/
theorem ForgetParts.Planned.contentCount_after {id : RevisionID}
    {record : InodeRevision} (hrevision : IsRevision store id record)
    (hforeign : ownedInode request.uid record = false) (blob : ID) :
    contentCount parts.after record blob = contentCount store record blob := by
  classical
  unfold contentCount
  cases hmode : record.contentMode with
  | none | inline => rfl
  | manifestRef =>
    refine manifestCount_congr fun segment => ?_
    rw [h.lookup_contentManifest, if_neg]
    intro horphaned
    rw [horphaned.2 id record hrevision hmode rfl] at hforeign
    cases hforeign

end

/-! ## The counts that are left -/

/-- The occurrences of a blob in a revision, where it is not the user's. -/
def foreignCount (store : SchemaStore) (uid : Nat) (blob : ID) (record : InodeRevision) : Nat :=
  if ownedInode uid record = true then 0 else contentCount store record blob

/-- The occurrences after a forget are those in the revisions of others. -/
theorem ForgetParts.Planned.occurrences_after (h : parts.Planned) (blob : ID) :
    occurrences parts.after blob =
      store.sum (overRevisions (foreignCount store request.uid blob)) := by
  refine sum_overRevisions _ (fun id record => h.isRevision_after) fun id record hrevision => ?_
  unfold foreignCount
  split
  · rfl
  · rename_i howned
    exact h.contentCount_after hrevision (by simpa using howned) blob

theorem ForgetParts.Planned.mem_holdingRevisions_after (h : parts.Planned) {blob : ID}
    {id : RevisionID} :
    id ∈ holdingRevisions parts.after blob ↔
      ∃ record, IsRevision store id record ∧ ownedInode request.uid record = false ∧
        InContent store record blob := by
  rw [mem_holdingRevisions]
  constructor
  · rintro ⟨record, hrecord, hcount⟩
    obtain ⟨before, hbefore, rfl⟩ := h.isRevision_after.mp hrecord
    split at hcount
    · exact absurd hcount (Nat.lt_irrefl 0)
    rename_i howned
    have hforeign : ownedInode request.uid before = false := by simpa using howned
    rw [h.contentCount_after hbefore hforeign] at hcount
    exact ⟨before, hbefore, hforeign, contentCount_pos_iff.mp hcount⟩
  · rintro ⟨record, hrevision, hforeign, hblob⟩
    refine ⟨record, h.isRevision_after.mpr ⟨record, hrevision, ?_⟩, ?_⟩
    · rw [hforeign]
      rfl
    · rw [h.contentCount_after hrevision hforeign]
      exact contentCount_pos_iff.mpr hblob

/-! ## Blobs that the user did not have -/

/-- A forget leaves the counts of other blobs as they were. -/
theorem ForgetParts.Planned.referenceCounts_of_unaffected (h : parts.Planned) {blob : ID}
    (hout : ¬InOwnedContent store request.uid blob) :
    referenceCounts parts.after blob = referenceCounts store blob := by
  have hforeign : ∀ id record, IsRevision store id record → InContent store record blob →
      ownedInode request.uid record = false := by
    intro id record hrevision hblob
    by_contra howned
    exact hout ⟨id, record, hrevision, by simpa using howned, hblob⟩
  have hoccurrences : occurrences parts.after blob = occurrences store blob := by
    rw [h.occurrences_after]
    refine sum_overRevisions (fun record => record) (fun _ _ => by simp) ?_
    intro id record hrevision
    unfold foreignCount
    split
    · rename_i howned
      refine (Nat.eq_zero_of_not_pos fun hpos => ?_).symm
      rw [hforeign id record hrevision (contentCount_pos_iff.mp hpos)] at howned
      cases howned
    · rfl
  have hrevisions : holdingRevisions parts.after blob = holdingRevisions store blob := by
    ext id
    rw [h.mem_holdingRevisions_after, mem_holdingRevisions]
    constructor
    · rintro ⟨record, hrevision, -, hblob⟩
      exact ⟨record, hrevision, contentCount_pos_iff.mpr hblob⟩
    · rintro ⟨record, hrevision, hcount⟩
      have hblob := contentCount_pos_iff.mp hcount
      exact ⟨record, hrevision, hforeign id record hrevision hblob, hblob⟩
  have hmanifests : holdingManifests parts.after blob = holdingManifests store blob := by
    ext manifest
    rw [mem_holdingManifests, mem_holdingManifests, h.inManifest_after]
    refine and_iff_left_of_imp fun hin horphaned => ?_
    -- An orphaned manifest is content of a revision of the user.
    obtain ⟨⟨id, record, hrevision, hmode, hmanifest⟩, hall⟩ := horphaned
    refine hout ⟨id, record, hrevision, hall id record hrevision hmode hmanifest, ?_⟩
    unfold InContent
    rw [hmode, hmanifest]
    exact hin
  unfold referenceCounts holdingInodes
  rw [hoccurrences, hrevisions, hmanifests]

/-! ## Blobs that the user had -/

theorem ForgetParts.Planned.toFinset_rebuiltRevisions (h : parts.Planned) (blob : ID) :
    (rebuiltRevisions request.uid parts.inventory blob).toFinset =
      holdingRevisions parts.after blob := by
  ext id
  rw [List.mem_toFinset, h.mem_holdingRevisions_after,
    (isInventory_of_build h.inventory).mem_rebuiltRevisions]

theorem ForgetParts.Planned.toFinset_rebuiltManifests (h : parts.Planned) (blob : ID) :
    (rebuiltManifests request.uid parts.inventory blob).toFinset =
      holdingManifests parts.after blob := by
  ext manifest
  rw [List.mem_toFinset, mem_holdingManifests, h.inManifest_after,
    (isInventory_of_build h.inventory).mem_rebuiltManifests]

/-- The edges to one blob, with their owners. -/
theorem map_filter_edges {α β : Type} (items : List β) (content : β → List ID) (owner : β → α)
    (blob : ID) :
    (((items.flatMap fun item => (content item).map fun id => (id, owner item)).filter
        (·.1 = blob)).map (·.2)) =
      items.flatMap fun item => List.replicate ((content item).count blob) (owner item) := by
  have hone : ∀ (ids : List ID) (a : α),
      ((ids.map fun id => (id, a)).filter (·.1 = blob)).map (·.2) =
        List.replicate (ids.count blob) a := by
    intro ids a
    induction ids with
    | nil => rfl
    | cons id rest ih =>
      by_cases hid : id = blob <;> simp [hid, ih, List.replicate_succ]
  induction items with
  | nil => rfl
  | cons item rest ih =>
    rw [List.flatMap_cons, List.filter_append, List.map_append, hone, ih, List.flatMap_cons]

theorem sum_map_ite_filter {α : Type} (l : List α) (p : α → Bool) (f : α → Nat) :
    ((l.filter p).map f).sum = (l.map fun a => if p a = true then f a else 0).sum := by
  induction l with
  | nil => rfl
  | cons a rest ih =>
    cases hp : p a <;> simp [hp, ih]

variable {inventory : GdprInventory}

/-- The occurrences in a manifest, read off the inventory. -/
theorem IsInventory.manifestCount_eq (h : IsInventory store inventory) (manifest blob : ID) :
    manifestCount store manifest blob =
      ((inventory.manifests.filter (·.1.1 = manifest)).map
        (·.2.contentIDs.count blob)).sum := by
  rw [sum_map_ite_filter]
  refine Table.sum_of_collectBy h.manifests (g := fun id record =>
    if decide (id.1 = manifest) = true then record.contentIDs.count blob else 0) ?_ ?_
  · intro key value hselect
    cases key <;> first | rfl | cases hselect
  intro key value id record hselect hdecode
  rw [unmarshalContentManifest_eq_ok hdecode]
  cases key <;> cases hselect
  simp [segmentWeight]

/-- The occurrences in a revision, read off the inventory. -/
theorem IsInventory.contentCount_eq (h : IsInventory store inventory) (record : InodeRevision)
    (blob : ID) :
    contentCount store record blob =
      (gdprRevisionContent record inventory.manifests).count blob := by
  unfold contentCount gdprRevisionContent
  cases record.contentMode with
  | none | inline => rfl
  | manifestRef =>
    rw [List.count_flatMap]
    exact h.manifestCount_eq _ _

section

variable (h : parts.Planned)
include h

/-- The rebuild has a revision edge for every occurrence that stays. -/
theorem ForgetParts.Planned.length_rebuiltRevisions (blob : ID) :
    (rebuiltRevisions request.uid parts.inventory blob).length = occurrences parts.after blob := by
  have hinventory := isInventory_of_build h.inventory
  have hsum : occurrences parts.after blob = (parts.inventory.revisions.map fun revision =>
      foreignCount store request.uid blob revision.2).sum := by
    rw [h.occurrences_after]
    refine Table.sum_of_collectBy hinventory.revisions (g := fun _ record =>
      foreignCount store request.uid blob record) ?_ ?_
    · intro key value hselect
      cases key <;> first | rfl | cases hselect
    intro key value id record hselect hdecode
    rw [unmarshalInodeRevision_eq_ok hdecode]
    cases key <;> cases hselect
    rfl
  rw [hsum, rebuiltRevisions, remainingInodeEdges, map_filter_edges, List.length_flatMap,
    remainingRevisions, sum_map_ite_filter]
  refine congrArg List.sum (List.map_congr_left fun revision _ => ?_)
  rw [List.length_replicate, foreignCount, hinventory.contentCount_eq]
  cases ownedInode request.uid revision.2 <;> rfl

/-- The rebuild has a manifest edge for every occurrence, where publication counts the
manifest once. -/
theorem ForgetParts.Planned.count_rebuiltManifests (manifest blob : ID)
    [Decidable (Orphaned store request.uid manifest)] :
    (rebuiltManifests request.uid parts.inventory blob).count manifest =
      if Orphaned store request.uid manifest then 0 else manifestCount store manifest blob := by
  have hinventory := isInventory_of_build h.inventory
  rw [rebuiltManifests, remainingManifestEdges, map_filter_edges, List.count_flatMap,
    sum_map_ite_filter, hinventory.manifestCount_eq, sum_map_ite_filter]
  split
  · rename_i horphaned
    refine List.sum_eq_zero fun weight hweight => ?_
    obtain ⟨segment, -, rfl⟩ := List.mem_map.mp hweight
    by_cases hid : segment.1.1 = manifest
    · rw [if_neg]
      rw [hid]
      simpa using hinventory.mem_orphaned.mpr horphaned
    · simp [List.count_replicate, hid]
  · rename_i hstays
    refine congrArg List.sum (List.map_congr_left fun segment _ => ?_)
    by_cases hid : segment.1.1 = manifest
    · have hnot : manifest ∉ orphanedManifests request.uid parts.inventory := fun hmem =>
        hstays (hinventory.mem_orphaned.mp hmem)
      simp [hid, hnot]
    · simp [List.count_replicate, hid]

/-- The counts of a blob after a forget, in terms of the rebuilt edges. -/
theorem ForgetParts.Planned.referenceCounts_after (blob : ID) :
    let manifests := rebuiltManifests request.uid parts.inventory blob
    let revisions := rebuiltRevisions request.uid parts.inventory blob
    referenceCounts parts.after blob =
      { totalReferences := revisions.length + manifests.dedup.length
        distinctInodes := (revisions.map fun id => (id.1, id.2.1)).dedup.length
        distinctRevisions := revisions.dedup.length
        distinctManifests := manifests.dedup.length } := by
  have hinodes : holdingInodes parts.after blob =
      ((rebuiltRevisions request.uid parts.inventory blob).map
        fun id => (id.1, id.2.1)).toFinset := by
    ext inode
    simp [holdingInodes, ← h.toFinset_rebuiltRevisions]
  unfold referenceCounts
  rw [hinodes, ← h.toFinset_rebuiltManifests, ← h.toFinset_rebuiltRevisions,
    ← h.length_rebuiltRevisions]
  simp only [List.card_toFinset]

/-- The law holds for a blob of the user exactly when no manifest that stays repeats it. -/
theorem ForgetParts.Planned.countsHold_of_affected {blob : ID}
    (hin : InOwnedContent store request.uid blob) :
    CountsHold parts.after blob ↔ ∀ manifest, ¬Orphaned store request.uid manifest →
      manifestCount store manifest blob ≤ 1 := by
  classical
  have haffected := (isInventory_of_build h.inventory).mem_affected.mpr hin
  have hcounts := h.referenceCounts_after blob
  have hnodup : (rebuiltManifests request.uid parts.inventory blob).Nodup ↔
      ∀ manifest, ¬Orphaned store request.uid manifest →
        manifestCount store manifest blob ≤ 1 := by
    rw [List.nodup_iff_count_le_one]
    refine forall_congr' fun manifest => ?_
    rw [h.count_rebuiltManifests]
    split <;> rename_i horphaned <;> simp [horphaned]
  rw [← hnodup, CountsHold, h.lookup_referenceCount, if_pos haffected, gdprCounts,
    rebuildReferenceCounts, ← rebuiltManifests, ← rebuiltRevisions]
  change _ = _ at hcounts
  generalize rebuiltManifests request.uid parts.inventory blob = manifests at hcounts ⊢
  generalize rebuiltRevisions request.uid parts.inventory blob = revisions at hcounts ⊢
  split
  · rename_i hempty
    obtain ⟨rfl, rfl⟩ := hempty
    simp [hcounts]
  · rename_i hedges
    have hne : referenceCounts parts.after blob ≠ {} := by
      intro hzero
      rw [hcounts, ReferenceCounts.mk.injEq] at hzero
      obtain ⟨htotal, -⟩ := hzero
      obtain ⟨hrevisions, hmanifests⟩ := Nat.add_eq_zero_iff.mp htotal
      exact hedges ⟨(List.dedup_eq_nil _).mp (List.length_eq_zero_iff.mp hmanifests),
        List.length_eq_zero_iff.mp hrevisions⟩
    rw [if_neg hne, hcounts]
    -- All counts agree but the total, which has the manifests with their repetitions.
    simp only [Option.map_some, valueCounts, Option.some.injEq, ReferenceCounts.mk.injEq, and_true]
    rw [← List.dedup_eq_self, ← (List.dedup_sublist manifests).length_eq]
    omega

end

end After

/-! ## The law -/

/-- No manifest that stays has a blob of the user twice. -/
def NoRepeatStays (store : SchemaStore) (uid : Nat) : Prop :=
  ∀ blob, InOwnedContent store uid blob → ∀ manifest, ¬Orphaned store uid manifest →
    manifestCount store manifest blob ≤ 1

/-- Where the counts of every blob held, a forget that committed leaves them exact unless
it rebuilt the count of a blob that a remaining manifest repeats. -/
theorem executeGdprForget_countsHold_iff (limits : Limits) (now : Int)
    (request : GdprForgetRequest) (store store' : SchemaStore)
    (certificate : DeletionCertificateRecord) (hcounts : ∀ blob, CountsHold store blob)
    (h : executeGdprForget limits now request store = .ok (certificate, store')) :
    (∀ blob, CountsHold store' blob) ↔
      (findGdprReplay store request = .ok none → NoRepeatStays store request.uid) := by
  rcases executeGdprForget_inv h with ⟨hreplay, rfl⟩ | ⟨hfresh, parts, hparts, rfl⟩
  · simp [hreplay, hcounts]
  constructor
  · intro hafter _ blob hin
    exact (hparts.countsHold_of_affected hin).mp (hafter blob)
  intro hrepeat blob
  by_cases hin : InOwnedContent store request.uid blob
  · exact (hparts.countsHold_of_affected hin).mpr (hrepeat hfresh blob hin)
  have hlookup := hparts.lookup_referenceCount blob
  rw [if_neg fun hmem => hin ((isInventory_of_build hparts.inventory).mem_affected.mp hmem)]
    at hlookup
  rw [CountsHold, hlookup, hparts.referenceCounts_of_unaffected hin]
  exact hcounts blob

/-- A file of user 1000 with blob 1, a file of user 1001 with other content, and the counts
of blob 1. -/
def sharedBlobStore (other : InodeRevision) (counts : ReferenceCountRecord) : SchemaStore :=
  (∅ : SchemaStore).putAll
    [(.inodeRevision 1 10 1, .inodeRevision
        { uid := 1000, known := knownUID, contentMode := .inline, contentCount := 1
          contentIDs := [1] }),
      (.inodeRevision 1 11 2, .inodeRevision { other with uid := 1001, known := knownUID }),
      (.referenceCount 1, .referenceCount counts)]

/-- The other file is sparse: its manifest has blob 1 in every place. -/
def sparseFileStore : SchemaStore :=
  (sharedBlobStore
    { contentMode := .manifestRef, contentCount := 129, contentManifestID := 5 }
    { totalReferences := 131, distinctInodes := 2, distinctRevisions := 2
      distinctManifests := 1 }).putAll
    [(.contentManifest 5 0, .contentManifest ⟨129, 0, 1, List.replicate 129 1⟩)]

/-- The other file has blob 1 twice, inline. -/
def inlineFileStore : SchemaStore :=
  sharedBlobStore { contentMode := .inline, contentCount := 2, contentIDs := [1, 1] }
    { totalReferences := 3, distinctInodes := 2, distinctRevisions := 2 }

theorem sharedBlobStore_counts :
    (mentionedBlobs sparseFileStore).all (fun blob => CountsHold sparseFileStore blob) = true ∧
    (mentionedBlobs inlineFileStore).all (fun blob => CountsHold inlineFileStore blob) = true ∧
    okAnd (executeGdprForget ⟨1000, 1048576⟩ 1 sampleForget sparseFileStore)
      (fun result => !decide (CountsHold result.2 1)) = true ∧
    okAnd (executeGdprForget ⟨1000, 1048576⟩ 1 sampleForget inlineFileStore)
      (fun result => CountsHold result.2 1) = true := by
  decide +kernel

/-- Blob 1 is left with 258 references where there are 130. -/
theorem executeGdprForget_counts_repetition :
    (∀ blob, CountsHold sparseFileStore blob) ∧
    ∃ certificate store',
      executeGdprForget ⟨1000, 1048576⟩ 1 sampleForget sparseFileStore =
        .ok (certificate, store') ∧
      ¬CountsHold store' 1 := by
  obtain ⟨hcounts, -, hrun, -⟩ := sharedBlobStore_counts
  obtain ⟨⟨certificate, store'⟩, hok, hafter⟩ := okAnd_eq_true.mp hrun
  exact ⟨countsHold_of_mentioned hcounts, certificate, store', hok, by simpa using hafter⟩

theorem executeGdprForget_countsHold_iff_inline :
    (∀ blob, CountsHold inlineFileStore blob) ∧
    ∃ certificate store',
      executeGdprForget ⟨1000, 1048576⟩ 1 sampleForget inlineFileStore =
        .ok (certificate, store') ∧
      ((∀ blob, CountsHold store' blob) ↔
        (findGdprReplay inlineFileStore sampleForget = .ok none →
          NoRepeatStays inlineFileStore 1000)) := by
  obtain ⟨-, hcounts, -, hrun⟩ := sharedBlobStore_counts
  obtain ⟨⟨certificate, store'⟩, hok, -⟩ := okAnd_eq_true.mp hrun
  exact ⟨countsHold_of_mentioned hcounts, certificate, store', hok,
    executeGdprForget_countsHold_iff _ _ _ _ _ _ (countsHold_of_mentioned hcounts) hok⟩

end Vaultic.Daemon
