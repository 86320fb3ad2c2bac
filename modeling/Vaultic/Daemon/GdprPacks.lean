/-
  Daemon/GdprPacks.lean  —  which packs a forget moves to delete-pending.

  The packs are characterised by the store before the transaction: what the
  revisions of the user and of others hold, which manifests stay, where blobs are
  located and how packs are placed.  References are counted for the content of
  inode revisions only.  A tree blob is in no revision's content, so it never
  keeps its pack.
-/
import Vaultic.Daemon.Gdpr

set_option autoImplicit false

namespace Vaultic.Daemon

open Vaultic.Lib Vaultic.Schema

/-! ## Content, as the store has it -/

section

variable (store : SchemaStore)

/-- The revision is stored with this record. -/
def IsRevision (id : RevisionID) (record : InodeRevision) : Prop :=
  store.lookup id.inodeKey = some (.inodeRevision record)

/-- The blob occurs in a segment of the manifest. -/
def InManifest (manifest blob : ID) : Prop :=
  ∃ segment record, store.lookup (.contentManifest manifest segment) =
    some (.contentManifest record) ∧ blob ∈ record.contentIDs

/-- The blob occurs in the content of a revision, inline or through its manifest. -/
def InContent (record : InodeRevision) (blob : ID) : Prop :=
  match record.contentMode with
  | .inline => blob ∈ record.contentIDs
  | .none => False
  | .manifestRef => InManifest store record.contentManifestID blob

/-- The blob occurs in the content of a revision the user owns. -/
def InOwnedContent (uid : Nat) (blob : ID) : Prop :=
  ∃ id record, IsRevision store id record ∧ ownedInode uid record = true ∧
    InContent store record blob

/-- The blob occurs in the content of a revision the user does not own. -/
def InForeignContent (uid : Nat) (blob : ID) : Prop :=
  ∃ id record, IsRevision store id record ∧ ownedInode uid record = false ∧
    InContent store record blob

/-- Some revision refers to the manifest, and the user owns every one that does. -/
def Orphaned (uid : Nat) (manifest : ID) : Prop :=
  (∃ id record, IsRevision store id record ∧ record.contentMode = .manifestRef ∧
      record.contentManifestID = manifest) ∧
    ∀ id record, IsRevision store id record → record.contentMode = .manifestRef →
      record.contentManifestID = manifest → ownedInode uid record = true

/-- The blob keeps a reference: from a foreign revision, or from a manifest that
stays. -/
def Referenced (uid : Nat) (blob : ID) : Prop :=
  InForeignContent store uid blob ∨
    ∃ manifest, InManifest store manifest blob ∧ ¬Orphaned store uid manifest

/-- Some placement of the pack is one that a forget schedules. -/
def Schedulable (pack : ID) : Prop :=
  ∃ backend placement, store.lookup (.packPlacement pack backend) = some (.placement placement) ∧
    schedulable placement = true

/-- A published pack with a blob of the user, without a referenced blob, and with a
placement to schedule. -/
structure ForgetMoves (uid : Nat) (pack : ID) : Prop where
  published : lifecycleOf store pack = some .published
  touched : ∃ handle, Located store handle pack ∧ InOwnedContent store uid handle.id
  unreferenced : ∀ handle, Located store handle pack → ¬Referenced store uid handle.id
  placed : Schedulable store pack

end

/-! ## The scans read the store -/

variable {value : Value} {record : InodeRevision}

theorem unmarshalContentManifest_eq_ok {record : ContentManifest}
    (h : unmarshalContentManifest value = .ok record) : value = .contentManifest record := by
  obtain ⟨-, hview, -⟩ := decode_eq_ok.mp h
  cases value <;> simp_all

variable {store : SchemaStore}

theorem mem_scanGdprRevisions
    {revisions : List (RevisionID × InodeRevision)} (h : scanGdprRevisions store = .ok revisions)
    {id : RevisionID} : (id, record) ∈ revisions ↔ IsRevision store id record := by
  refine Table.mem_collectBy_iff RevisionID.inodeKey h ?_ unmarshalInodeRevision_eq_ok
    (fun _ _ => Value.inodeRevision.inj)
  rintro key ⟨fsid, inode, revision⟩
  cases key <;> simp

theorem mem_scanGdprManifests
    {manifests : List ((ID × Nat) × ContentManifest)} (h : scanGdprManifests store = .ok manifests)
    {manifest : ID} {segment : Nat} {record : ContentManifest} :
    ((manifest, segment), record) ∈ manifests ↔
      store.lookup (.contentManifest manifest segment) = some (.contentManifest record) := by
  refine Table.mem_collectBy_iff (fun id : ID × Nat => .contentManifest id.1 id.2) h ?_
    unmarshalContentManifest_eq_ok (fun _ _ => Value.contentManifest.inj)
  rintro key ⟨manifest, segment⟩
  cases key <;> simp

variable {blob : ID}

theorem mem_scanGdprBlobs {blobs : List (ID × BlobRecord)}
    (h : scanGdprBlobs store = .ok blobs) {record : BlobRecord} :
    (blob, record) ∈ blobs ↔ store.lookup (.blob blob) = some (.blob record) := by
  refine Table.mem_collectBy_iff Key.blob h ?_ unmarshalBlobRecord_eq_ok (fun _ _ => Value.blob.inj)
  intro key blob
  cases key <;> simp

/-- The inventory of a store. -/
structure IsInventory (store : SchemaStore) (inventory : GdprInventory) : Prop where
  revisions : scanGdprRevisions store = .ok inventory.revisions
  manifests : scanGdprManifests store = .ok inventory.manifests

theorem isInventory_of_build {inventory : GdprInventory}
    (h : buildGdprInventory store = .ok inventory) : IsInventory store inventory := by
  obtain ⟨revisions, hrevisions, h⟩ := of_bind h
  obtain ⟨manifests, hmanifests, h⟩ := of_bind h
  cases h
  exact ⟨hrevisions, hmanifests⟩

variable {request : GdprForgetRequest} {uid : Nat}

section Inventory

variable {store : SchemaStore} {inventory : GdprInventory}

theorem IsInventory.mem_manifest (h : IsInventory store inventory) {manifest blob : ID} :
    (∃ segment ∈ inventory.manifests, segment.1.1 = manifest ∧ blob ∈ segment.2.contentIDs) ↔
      InManifest store manifest blob := by
  constructor
  · rintro ⟨⟨⟨found, segment⟩, record⟩, hmem, rfl, hblob⟩
    exact ⟨segment, record, (mem_scanGdprManifests h.manifests).mp hmem, hblob⟩
  · rintro ⟨segment, record, hlook, hblob⟩
    exact ⟨((manifest, segment), record), (mem_scanGdprManifests h.manifests).mpr hlook, rfl, hblob⟩

theorem IsInventory.mem_content (h : IsInventory store inventory) :
    blob ∈ gdprRevisionContent record inventory.manifests ↔ InContent store record blob := by
  unfold gdprRevisionContent InContent
  cases record.contentMode with
  | none => simp
  | inline => rfl
  | manifestRef =>
    rw [← h.mem_manifest]
    simp [List.mem_flatMap, and_assoc]

/-- The manifests of the rebuilt edges of a blob, once for each occurrence. -/
def rebuiltManifests (uid : Nat) (inventory : GdprInventory) (blob : ID) : List ID :=
  ((remainingManifestEdges uid inventory).filter (·.1 = blob)).map (·.2)

/-- The revisions of the rebuilt edges of a blob, once for each occurrence. -/
def rebuiltRevisions (uid : Nat) (inventory : GdprInventory) (blob : ID) : List RevisionID :=
  ((remainingInodeEdges uid inventory).filter (·.1 = blob)).map (·.2)

section

variable (h : IsInventory store inventory)
include h

/-- The manifests the plan drops are those only the user's revisions refer to. -/
theorem IsInventory.mem_orphaned {manifest : ID} :
    manifest ∈ orphanedManifests uid inventory ↔ Orphaned store uid manifest := by
  have huses : manifestUses (inventory.revisions.filter fun r => ownedInode uid r.2) manifest =
      manifestUses inventory.revisions manifest ↔
        ∀ revision ∈ inventory.revisions, revision.2.contentMode = .manifestRef →
          revision.2.contentManifestID = manifest → ownedInode uid revision.2 = true := by
    unfold manifestUses
    rw [List.filter_comm, List.length_filter_eq_length_iff]
    simp only [List.mem_filter, Bool.and_eq_true, decide_eq_true_eq, and_imp]
  simp only [orphanedManifests, List.mem_filter, List.mem_dedup, List.mem_map, decide_eq_true_eq,
    huses]
  constructor
  · rintro ⟨⟨⟨id, record⟩, ⟨⟨hmem, -⟩, hmode⟩, hmanifest⟩, hall⟩
    refine ⟨⟨id, record, (mem_scanGdprRevisions h.revisions).mp hmem, hmode, hmanifest⟩, ?_⟩
    intro id record hrevision
    exact hall (id, record) ((mem_scanGdprRevisions h.revisions).mpr hrevision)
  · rintro ⟨⟨id, record, hrevision, hmode, hmanifest⟩, hall⟩
    refine ⟨⟨(id, record), ⟨⟨(mem_scanGdprRevisions h.revisions).mpr hrevision, ?_⟩, hmode⟩,
      hmanifest⟩, ?_⟩
    · exact hall id record hrevision hmode hmanifest
    · rintro ⟨id, record⟩ hmem
      exact hall id record ((mem_scanGdprRevisions h.revisions).mp hmem)

/-- The affected blobs are those of the user's revisions: an orphaned manifest is
content of one of them. -/
theorem IsInventory.mem_affected :
    blob ∈ affectedBlobs uid inventory ↔ InOwnedContent store uid blob := by
  simp only [affectedBlobs, List.mem_dedup, List.mem_append, List.mem_flatMap, List.mem_filter,
    orphanedSegments, decide_eq_true_eq]
  constructor
  · rintro (⟨⟨id, record⟩, ⟨hmem, howned⟩, hblob⟩ | ⟨segment, ⟨hmem, horphaned⟩, hblob⟩)
    · exact ⟨id, record, (mem_scanGdprRevisions h.revisions).mp hmem, howned,
        h.mem_content.mp hblob⟩
    obtain ⟨⟨id, record, hrevision, hmode, hmanifest⟩, hall⟩ := h.mem_orphaned.mp horphaned
    refine ⟨id, record, hrevision, hall id record hrevision hmode hmanifest, ?_⟩
    unfold InContent
    rw [hmode]
    exact h.mem_manifest.mp ⟨segment, hmem, hmanifest.symm, hblob⟩
  · rintro ⟨id, record, hrevision, howned, hblob⟩
    exact .inl ⟨(id, record), ⟨(mem_scanGdprRevisions h.revisions).mpr hrevision, howned⟩,
      h.mem_content.mpr hblob⟩

theorem IsInventory.mem_rebuiltRevisions {id : RevisionID} :
    id ∈ rebuiltRevisions uid inventory blob ↔
      ∃ record, IsRevision store id record ∧ ownedInode uid record = false ∧
        InContent store record blob := by
  simp only [rebuiltRevisions, remainingInodeEdges, remainingRevisions, List.mem_map,
    List.mem_filter, List.mem_flatMap, decide_eq_true_eq]
  constructor
  · rintro ⟨edge, ⟨⟨⟨found, record⟩, ⟨hmem, hforeign⟩, other, hother, rfl⟩, rfl⟩, rfl⟩
    exact ⟨record, (mem_scanGdprRevisions h.revisions).mp hmem, by simpa using hforeign,
      h.mem_content.mp hother⟩
  · rintro ⟨record, hrevision, hforeign, hblob⟩
    exact ⟨(blob, id), ⟨⟨(id, record), ⟨(mem_scanGdprRevisions h.revisions).mpr hrevision,
      by simpa using hforeign⟩, blob, h.mem_content.mpr hblob, rfl⟩, rfl⟩, rfl⟩

theorem IsInventory.mem_rebuiltManifests {manifest : ID} :
    manifest ∈ rebuiltManifests uid inventory blob ↔
      InManifest store manifest blob ∧ ¬Orphaned store uid manifest := by
  rw [← h.mem_manifest, ← h.mem_orphaned]
  simp only [rebuiltManifests, remainingManifestEdges, List.mem_map, List.mem_filter,
    List.mem_flatMap, decide_eq_true_eq]
  constructor
  · rintro ⟨edge, ⟨⟨segment, ⟨hmem, hstays⟩, other, hother, rfl⟩, rfl⟩, rfl⟩
    exact ⟨⟨segment, hmem, rfl, hother⟩, hstays⟩
  · rintro ⟨⟨segment, hmem, rfl, hblob⟩, hstays⟩
    exact ⟨(blob, segment.1.1), ⟨⟨segment, ⟨hmem, hstays⟩, blob, hblob, rfl⟩, rfl⟩, rfl⟩

/-- A blob has a rebuilt count with references exactly when it is referenced. -/
theorem IsInventory.counts_ne_zero :
    ((gdprCounts request inventory blob).map (·.totalReferences)).getD 0 ≠ 0 ↔
      Referenced store request.uid blob := by
  have hinode : rebuiltRevisions request.uid inventory blob ≠ [] ↔
      InForeignContent store request.uid blob := by
    simp only [ne_eq, List.eq_nil_iff_forall_not_mem, not_forall_not, h.mem_rebuiltRevisions]
    rfl
  have hmanifest : rebuiltManifests request.uid inventory blob ≠ [] ↔
      ∃ manifest, InManifest store manifest blob ∧ ¬Orphaned store request.uid manifest := by
    simp only [ne_eq, List.eq_nil_iff_forall_not_mem, not_forall_not, h.mem_rebuiltManifests]
  unfold Referenced gdprCounts rebuildReferenceCounts
  rw [← hinode, ← hmanifest]
  unfold rebuiltRevisions rebuiltManifests
  dsimp only
  split
  · rename_i hnone
    simp [hnone.1, hnone.2]
  rename_i hsome
  simp only [Option.map_some, Option.getD_some, ne_eq, Nat.add_eq_zero_iff,
    List.length_eq_zero_iff]
  rw [not_and_or, or_comm]

end

end Inventory

/-! ## The packs that are moved -/

section Packs

variable {store : SchemaStore} {inventory : GdprInventory} {request : GdprForgetRequest}
  {blobs : List (ID × BlobRecord)} {eligible : List (ID × PackRecord)}
  {scheduled : List ((ID × Nat) × PlacementRecord)}

/-- The members of a pack are the blobs located in it, of either type. -/
theorem mem_gdprPackBlobs (h : scanGdprBlobs store = .ok blobs) {pack blob : ID} :
    blob ∈ gdprPackBlobs blobs pack ↔ ∃ type, Located store ⟨blob, type⟩ pack := by
  simp only [gdprPackBlobs, List.mem_flatMap, List.mem_map, List.mem_filter, decide_eq_true_eq]
  constructor
  · rintro ⟨⟨blob, record⟩, hmem, location, ⟨hlocation, hpack⟩, rfl⟩
    exact ⟨location.type, record, (mem_scanGdprBlobs h).mp hmem, location, hlocation, hpack, rfl⟩
  · rintro ⟨type, record, hlook, location, hlocation, hpack, -⟩
    exact ⟨(blob, record), (mem_scanGdprBlobs h).mpr hlook, location, ⟨hlocation, hpack⟩, rfl⟩

variable {pack : ID}

theorem mem_gdprPacks (h : scanGdprBlobs store = .ok blobs) {handle : BlobHandle}
    (hlocated : Located store handle pack) : pack ∈ gdprPacks blobs := by
  obtain ⟨record, hlook, location, hlocation, hpack, -⟩ := hlocated
  refine List.mem_dedup.mpr (List.mem_flatMap.mpr ⟨(handle.id, record), ?_, ?_⟩)
  · exact (mem_scanGdprBlobs h).mpr hlook
  · exact List.mem_map.mpr ⟨location, hlocation, hpack⟩

/-- One pack of the discovery. -/
theorem eligiblePack_eq_some (hinventory : IsInventory store inventory)
    (hblobs : scanGdprBlobs store = .ok blobs) {pack found : ID} {record : PackRecord} :
    eligiblePack store blobs (affectedBlobs request.uid inventory) (gdprCounts request inventory)
        pack = .ok (some (found, record)) →
      found = pack ∧
      (∃ handle, Located store handle pack ∧ InOwnedContent store request.uid handle.id) ∧
      (∀ handle, Located store handle pack → ¬Referenced store request.uid handle.id) ∧
      store.lookup (.pack pack) = some (.pack record) ∧
      (record.lifecycle = .published ∨ record.lifecycle = .deletePending) := by
  intro h
  unfold eligiblePack at h
  dsimp only at h
  split at h
  · cases h
  rename_i hmembers
  rw [not_or, Bool.not_eq_true, List.all_eq_false, Bool.not_eq_true] at hmembers
  obtain ⟨⟨blob, hblob, haffected⟩, hreferences⟩ := hmembers
  obtain ⟨loaded, hloaded, h⟩ := of_bind h
  obtain ⟨known, rfl, hknown⟩ := Option.bind_eq_some_iff.mp (Except.ok.inj h)
  split at hknown
  · rename_i hlifecycle
    cases hknown
    refine ⟨rfl, ?_, ?_, loadPackRecord_eq_ok hloaded, hlifecycle⟩
    · obtain ⟨type, hlocated⟩ := (mem_gdprPackBlobs hblobs).mp hblob
      exact ⟨⟨blob, type⟩, hlocated, hinventory.mem_affected.mp (by simpa using haffected)⟩
    intro handle hlocated hreferenced
    have hmember := (mem_gdprPackBlobs hblobs).mpr ⟨handle.type, hlocated⟩
    have hzero := List.any_eq_false.mp hreferences handle.id hmember
    simp only [decide_eq_true_eq] at hzero
    exact hzero (hinventory.counts_ne_zero.mpr hreferenced)
  · cases hknown

/-- The discovery finds every such pack. -/
theorem eligiblePack_of_moves (hinventory : IsInventory store inventory)
    (hblobs : scanGdprBlobs store = .ok blobs) {result : Option (ID × PackRecord)}
    (hmoves : ForgetMoves store request.uid pack)
    (h : eligiblePack store blobs (affectedBlobs request.uid inventory)
      (gdprCounts request inventory) pack = .ok result) :
    ∃ record, result = some (pack, record) ∧ record.lifecycle = .published := by
  unfold eligiblePack at h
  dsimp only at h
  split at h
  · rename_i hskip
    exfalso
    rcases hskip with hskip | hskip
    · obtain ⟨handle, hlocated, howned⟩ := hmoves.touched
      have hmember := (mem_gdprPackBlobs hblobs).mpr ⟨handle.type, hlocated⟩
      have hnot := of_decide_eq_true (List.all_eq_true.mp hskip handle.id hmember)
      exact hnot (hinventory.mem_affected.mpr howned)
    · obtain ⟨blob, hblob, hcount⟩ := List.any_eq_true.mp hskip
      obtain ⟨type, hlocated⟩ := (mem_gdprPackBlobs hblobs).mp hblob
      exact hmoves.unreferenced ⟨blob, type⟩ hlocated
        (hinventory.counts_ne_zero.mp (of_decide_eq_true hcount))
  · obtain ⟨loaded, hloaded, h⟩ := of_bind h
    obtain rfl := Except.ok.inj h
    have hpublished := hmoves.published
    cases loaded with
    | none =>
      rw [lifecycleOf, loadPackRecord_eq_ok hloaded] at hpublished
      cases hpublished
    | some record =>
      rw [lifecycleOf_of_lookup (loadPackRecord_eq_ok hloaded)] at hpublished
      have hlifecycle := Option.some.inj hpublished
      exact ⟨record, by simp [hlifecycle], hlifecycle⟩

theorem mem_scheduledPlacements (h : scheduledPlacements store eligible = .ok scheduled) :
    pack ∈ scheduled.map (·.1.1) ↔ pack ∈ eligible.map (·.1) ∧ Schedulable store pack := by
  obtain ⟨placements, hplacements, h⟩ := of_bind h
  rw [← Except.ok.inj h]
  simp only [List.mem_map, List.mem_filter]
  constructor
  · rintro ⟨⟨⟨found, backend⟩, placement⟩, ⟨hmem, hschedulable⟩, rfl⟩
    obtain ⟨key, value, hlook, hkey, hvalue⟩ := (Table.mem_of_collectBy hplacements).mp hmem
    obtain rfl := unmarshalPlacementRecord_eq_ok hvalue
    cases key <;> simp at hkey
    obtain ⟨hmember, rfl, rfl⟩ := hkey
    obtain ⟨record, hrecord⟩ := hmember
    exact ⟨⟨_, hrecord, rfl⟩, _, placement, hlook, hschedulable⟩
  · rintro ⟨hmember, backend, placement, hlook, hschedulable⟩
    have hkey : (if pack ∈ eligible.map (·.1) then some (pack, backend) else none) =
        some (pack, backend) := if_pos (List.mem_map.mpr hmember)
    obtain ⟨decoded, hdecoded⟩ := Table.decode_ok_of_collectBy hplacements hlook hkey
    obtain ⟨⟩ := unmarshalPlacementRecord_eq_ok hdecoded
    exact ⟨((pack, backend), placement),
      ⟨(Table.mem_of_collectBy hplacements).mpr ⟨_, _, hlook, hkey, hdecoded⟩, hschedulable⟩, rfl⟩

/-- The packs that are moved, each with its record before. -/
theorem mem_movedPacks (hinventory : IsInventory store inventory)
    (heligible : discoverGdprDeletionPacks store (affectedBlobs request.uid inventory)
      (gdprCounts request inventory) = .ok eligible)
    (hscheduled : scheduledPlacements store eligible = .ok scheduled) :
    (∃ record, (pack, record) ∈ movedPacks eligible scheduled) ↔
      ForgetMoves store request.uid pack := by
  obtain ⟨blobs, hblobs, heligible⟩ := of_bind heligible
  obtain ⟨found, hfound, heligible⟩ := of_bind heligible
  have hmem : ∀ entry, entry ∈ eligible ↔ some entry ∈ found := by
    intro entry
    rw [← Except.ok.inj heligible]
    simp
  simp only [movedPacks, List.mem_filter, Bool.and_eq_true, decide_eq_true_eq,
    mem_scheduledPlacements hscheduled, hmem]
  constructor
  · rintro ⟨record, hentry, ⟨-, hplaced⟩, hlifecycle⟩
    obtain ⟨candidate, -, hcandidate⟩ := (mem_of_mapM_map hfound).mp hentry
    obtain ⟨rfl, htouched, hunreferenced, hlook, hstate⟩ :=
      eligiblePack_eq_some hinventory hblobs hcandidate
    refine ⟨?_, htouched, hunreferenced, hplaced⟩
    rw [lifecycleOf_of_lookup hlook, hstate.resolve_right hlifecycle]
  · intro hmoves
    obtain ⟨handle, hlocated, -⟩ := hmoves.touched
    obtain ⟨result, hresult, hcandidate⟩ := ok_of_mapM_map hfound (mem_gdprPacks hblobs hlocated)
    obtain ⟨record, rfl, hlifecycle⟩ := eligiblePack_of_moves hinventory hblobs hmoves hcandidate
    refine ⟨record, hresult, ⟨?_, hmoves.placed⟩, ?_⟩
    · exact List.mem_map.mpr ⟨_, (hmem _).mpr hresult, rfl⟩
    · rw [hlifecycle]
      decide

end Packs

/-! ## The store after the transaction -/

section After

variable {store : SchemaStore} {request : GdprForgetRequest} {parts : ForgetParts store request}

section

variable (h : parts.Planned)
include h

variable {pack : ID}

/-- A put of a pack record moves a pack that the forget is about. -/
theorem ForgetParts.Planned.put_pack {value : Value} (hput : (.pack pack, value) ∈ parts.puts) :
    ForgetMoves store request.uid pack ∧
      ∃ record : PackRecord, value = .pack { record with lifecycle := .deletePending } := by
  cases h.isPut hput with
  | pack hput =>
    obtain ⟨eligible, scheduled, heligible, hscheduled, hputs⟩ := planGdprPackDeletion_inv h.packs
    rw [hputs] at hput
    rcases List.mem_append.mp hput with hput | hput
    · obtain ⟨entry, -, hput⟩ := List.mem_flatMap.mp hput
      unfold scheduledPuts placedPuts at hput
      split_ifs at hput <;> simp at hput
    · obtain ⟨⟨found, record⟩, hmoved, heq⟩ := List.mem_map.mp hput
      cases heq
      exact ⟨(mem_movedPacks (isInventory_of_build h.inventory) heligible hscheduled).mp
        ⟨record, hmoved⟩, record, rfl⟩

theorem ForgetParts.Planned.exists_put_pack (hmoves : ForgetMoves store request.uid pack) :
    ∃ value, (.pack pack, value) ∈ parts.puts := by
  obtain ⟨eligible, scheduled, heligible, hscheduled, hputs⟩ := planGdprPackDeletion_inv h.packs
  obtain ⟨record, hmoved⟩ :=
    (mem_movedPacks (isInventory_of_build h.inventory) heligible hscheduled).mpr hmoves
  have hput : (.pack pack, .pack { record with lifecycle := .deletePending }) ∈
      parts.packs.puts := by
    rw [hputs]
    exact List.mem_append_right _ (List.mem_map.mpr ⟨_, hmoved, rfl⟩)
  exact ⟨.pack { record with lifecycle := .deletePending }, by simp [ForgetParts.puts, hput]⟩

theorem ForgetParts.Planned.lifecycleOf_moved (hmoves : ForgetMoves store request.uid pack) :
    lifecycleOf parts.after pack = some .deletePending := by
  obtain ⟨put, hput⟩ := h.exists_put_pack hmoves
  unfold lifecycleOf
  rw [h.lookup_kept (.pack pack) nofun]
  rcases Table.lookup_putAll_or store parts.puts (.pack pack) with ⟨value, hmem, hlook⟩ | ⟨hne, -⟩
  · obtain ⟨-, record, rfl⟩ := h.put_pack hmem
    rw [hlook]
  · exact absurd rfl (hne _ hput)

theorem ForgetParts.Planned.lookup_of_not_moved (hmoves : ¬ForgetMoves store request.uid pack) :
    parts.after.lookup (.pack pack) = store.lookup (.pack pack) := by
  rw [h.lookup_kept (.pack pack) nofun]
  refine Table.lookup_putAll_of_forall_ne ?_
  rintro ⟨key, value⟩ hput rfl
  exact hmoves (h.put_pack hput).1

end

end After

/-! ## What a moved pack holds -/

/-- The step moved the pack to delete-pending. -/
def MovedToDeletePending (store store' : SchemaStore) (pack : ID) : Prop :=
  lifecycleOf store pack ≠ some .deletePending ∧ lifecycleOf store' pack = some .deletePending

theorem movedToDeletePending_iff {limits : Limits} {now : Int}
    {store store' : SchemaStore} {certificate : DeletionCertificateRecord}
    (h : executeGdprForget limits now request store = .ok (certificate, store')) {pack : ID} :
    MovedToDeletePending store store' pack ↔
      findGdprReplay store request = .ok none ∧ ForgetMoves store request.uid pack := by
  unfold MovedToDeletePending
  rcases executeGdprForget_inv h with ⟨hreplay, rfl⟩ | ⟨hfresh, parts, hparts, rfl⟩
  · simp [hreplay]
  rw [hfresh]
  constructor
  · rintro ⟨hbefore, hafter⟩
    refine ⟨rfl, by_contra fun hmoves => hbefore ?_⟩
    rw [← lifecycleOf_congr (hparts.lookup_of_not_moved hmoves), hafter]
  · rintro ⟨-, hmoves⟩
    refine ⟨?_, hparts.lifecycleOf_moved hmoves⟩
    rw [hmoves.published]
    decide

/-- The pack has no tree blob, and no data blob of a revision of another user. -/
def HoldsOnlyForgotten (store : SchemaStore) (uid : Nat) (pack : ID) : Prop :=
  (∀ blob, ¬Located store ⟨blob, .tree⟩ pack) ∧
    ∀ blob, Located store ⟨blob, .data⟩ pack → ¬InForeignContent store uid blob

/-- Packs moved by a forget hold only forgotten content exactly when no pack it moves
has a tree blob.  A replayed request moves none. -/
theorem executeGdprForget_moves_only_forgotten_iff (limits : Limits) (now : Int)
    (request : GdprForgetRequest) (store store' : SchemaStore)
    (certificate : DeletionCertificateRecord)
    (h : executeGdprForget limits now request store = .ok (certificate, store')) :
    (∀ pack, MovedToDeletePending store store' pack →
        HoldsOnlyForgotten store request.uid pack) ↔
      (findGdprReplay store request = .ok none →
        ∀ pack, ForgetMoves store request.uid pack →
          ∀ blob, ¬Located store ⟨blob, .tree⟩ pack) := by
  constructor
  · intro hall hfresh pack hmoves
    exact (hall pack ((movedToDeletePending_iff h).mpr ⟨hfresh, hmoves⟩)).1
  intro htree pack hmoved
  obtain ⟨hfresh, hmoves⟩ := (movedToDeletePending_iff h).mp hmoved
  refine ⟨htree hfresh pack hmoves, fun blob hlocated hforeign => ?_⟩
  exact hmoves.unreferenced ⟨blob, .data⟩ hlocated (.inl hforeign)

/-- A data location of blob 1 and a tree location of blob 2, both in pack 10. -/
def mixedPackStore (second : BlobType) : SchemaStore :=
  (∅ : SchemaStore).putAll
    [(.inodeRevision 1 10 1, .inodeRevision
        { uid := 1000, known := knownUID, contentMode := .inline, contentCount := 1
          contentIDs := [1] }),
      (.blob 1, .blob ⟨[⟨10, 0, 5, 0, .data⟩]⟩), (.blob 2, .blob ⟨[⟨10, 5, 5, 0, second⟩]⟩),
      (.pack 10, .pack
        { type := .mixed, lifecycle := .published, blobCount := 2, payloadSize := 10 }),
      (.packPlacement 10 7, .placement { state := .live })]

/-- A request to forget user 1000. -/
def sampleForget : GdprForgetRequest :=
  { uid := 1000, executedAt := 1, runID := 1
    crypto := ⟨fun _ _ => 1, List.replicate 32 0, fun _ => List.replicate 64 0⟩ }

theorem executeGdprForget_moves_tree_blob :
    ∃ certificate store',
      executeGdprForget ⟨1000, 1048576⟩ 1 sampleForget (mixedPackStore .tree) =
        .ok (certificate, store') ∧
      MovedToDeletePending (mixedPackStore .tree) store' 10 ∧
      Located (mixedPackStore .tree) ⟨2, .tree⟩ 10 := by
  have hrun : okAnd (executeGdprForget ⟨1000, 1048576⟩ 1 sampleForget (mixedPackStore .tree))
      (fun result => decide (lifecycleOf result.2 10 = some .deletePending)) = true := by
    decide +kernel
  obtain ⟨⟨certificate, store'⟩, hok, hafter⟩ := okAnd_eq_true.mp hrun
  refine ⟨certificate, store', hok, ⟨by decide +kernel, of_decide_eq_true hafter⟩, ?_⟩
  exact ⟨_, rfl, _, List.mem_singleton_self _, rfl, rfl⟩

theorem executeGdprForget_moves_only_forgotten_iff_sample :
    ∃ certificate store',
      executeGdprForget ⟨1000, 1048576⟩ 1 sampleForget (mixedPackStore .data) =
        .ok (certificate, store') ∧
      ((∀ pack, MovedToDeletePending (mixedPackStore .data) store' pack →
          HoldsOnlyForgotten (mixedPackStore .data) 1000 pack) ↔
        (findGdprReplay (mixedPackStore .data) sampleForget = .ok none →
          ∀ pack, ForgetMoves (mixedPackStore .data) 1000 pack →
            ∀ blob, ¬Located (mixedPackStore .data) ⟨blob, .tree⟩ pack)) := by
  have hrun : okAnd (executeGdprForget ⟨1000, 1048576⟩ 1 sampleForget (mixedPackStore .data))
      (fun _ => true) = true := by
    decide +kernel
  obtain ⟨⟨certificate, store'⟩, hok, -⟩ := okAnd_eq_true.mp hrun
  exact ⟨certificate, store', hok, executeGdprForget_moves_only_forgotten_iff _ _ _ _ _ _ hok⟩

/-! ## Which packs are left out -/

/-- A published pack of data blobs with a blob of the user and without a referenced blob,
whatever its placements. -/
structure Forgettable (store : SchemaStore) (uid : Nat) (pack : ID) : Prop where
  published : lifecycleOf store pack = some .published
  dataOnly : ∀ handle, Located store handle pack → handle.type = .data
  touched : ∃ handle, Located store handle pack ∧ InOwnedContent store uid handle.id
  unreferenced : ∀ handle, Located store handle pack → ¬Referenced store uid handle.id

/-- A forget makes every forgettable pack delete-pending exactly when each of them has a
placement that it can schedule and the request is not a replay. -/
theorem executeGdprForget_moves_all_iff (limits : Limits) (now : Int)
    (request : GdprForgetRequest) (store store' : SchemaStore)
    (certificate : DeletionCertificateRecord)
    (h : executeGdprForget limits now request store = .ok (certificate, store')) :
    (∀ pack, Forgettable store request.uid pack →
        lifecycleOf store' pack = some .deletePending) ↔
      ∀ pack, Forgettable store request.uid pack →
        findGdprReplay store request = .ok none ∧ Schedulable store pack := by
  refine forall₂_congr fun pack hpack => ?_
  have hmoved : MovedToDeletePending store store' pack ↔
      lifecycleOf store' pack = some .deletePending := by
    unfold MovedToDeletePending
    rw [hpack.published]
    simp
  rw [← hmoved, movedToDeletePending_iff h]
  exact and_congr_right fun _ => ⟨fun hmoves => hmoves.placed,
    fun hplaced => ⟨hpack.published, hpack.touched, hpack.unreferenced, hplaced⟩⟩

/-- Blob 1 of user 1000 in the published pack 10, which may have a placement. -/
def placedPackPuts (placement : Option PlacementRecord) : List Mutation :=
  [(.inodeRevision 1 10 1, .inodeRevision
      { uid := 1000, known := knownUID, contentMode := .inline, contentCount := 1
        contentIDs := [1] }),
    (.blob 1, .blob ⟨[⟨10, 0, 5, 0, .data⟩]⟩),
    (.pack 10, .pack
      { type := .data, lifecycle := .published, blobCount := 1, payloadSize := 5 })] ++
    placement.toList.map fun record => (.packPlacement 10 7, .placement record)

def placedPackStore (placement : Option PlacementRecord) : SchemaStore :=
  (∅ : SchemaStore).putAll (placedPackPuts placement)

theorem lookup_placedPackStore {placement : Option PlacementRecord} {key : Key}
    (h : (placedPackStore placement).lookup key = some value) :
    (key = .inodeRevision 1 10 1 ∧ value = .inodeRevision
        { uid := 1000, known := knownUID, contentMode := .inline, contentCount := 1
          contentIDs := [1] }) ∨
      (key = .blob 1 ∧ value = .blob ⟨[⟨10, 0, 5, 0, .data⟩]⟩) ∨ key = .pack 10 ∨
      key = .packPlacement 10 7 := by
  rcases Table.lookup_putAll_cases h with hput | ⟨-, hnone⟩
  · simp only [placedPackPuts, List.mem_append, List.mem_cons, List.not_mem_nil, Prod.mk.injEq,
      or_false, List.mem_map] at hput
    rcases hput with (hrevision | hblob | hpack) | ⟨record, -, hkey, -⟩
    all_goals simp_all
  · cases hnone

theorem forgettable_placedPackStore (placement : Option PlacementRecord) :
    Forgettable (placedPackStore placement) 1000 10 := by
  have hblob : (placedPackStore placement).lookup (.blob 1) =
      some (.blob ⟨[⟨10, 0, 5, 0, .data⟩]⟩) := by
    cases placement <;> rfl
  constructor
  · cases placement <;> rfl
  · intro handle hlocated
    obtain ⟨record, hlook, location, hmem, -, htype⟩ := hlocated
    rcases lookup_placedPackStore hlook with ⟨hkey, -⟩ | ⟨-, ⟨⟩⟩ | hkey | hkey <;> try cases hkey
    rw [List.mem_singleton.mp hmem] at htype
    exact htype.symm
  · refine ⟨⟨1, .data⟩, ⟨_, hblob, _, List.mem_singleton_self _, rfl, rfl⟩, ?_⟩
    refine ⟨(1, 10, 1), _, by cases placement <;> rfl, rfl, ?_⟩
    exact List.mem_singleton.mpr rfl
  · intro handle hlocated hreferenced
    rcases hreferenced with ⟨id, record, hrecord, hforeign, -⟩ | ⟨manifest, hin, -⟩
    · rcases lookup_placedPackStore hrecord with ⟨-, ⟨⟩⟩ | ⟨hkey, -⟩ | hkey | hkey
      · cases hforeign
      all_goals cases hkey
    · obtain ⟨segment, record, hlook, -⟩ := hin
      rcases lookup_placedPackStore hlook with ⟨hkey, -⟩ | ⟨hkey, -⟩ | hkey | hkey <;> cases hkey

/-- The pack has no placement, or only one that is evicted: the forget leaves it published. -/
theorem executeGdprForget_leaves_unplaced :
    (∃ certificate store',
        executeGdprForget ⟨1000, 1048576⟩ 1 sampleForget (placedPackStore none) =
          .ok (certificate, store') ∧
        Forgettable (placedPackStore none) 1000 10 ∧
        lifecycleOf store' 10 = some .published) ∧
      ∃ certificate store',
        executeGdprForget ⟨1000, 1048576⟩ 1 sampleForget
            (placedPackStore (some { state := .evicted })) = .ok (certificate, store') ∧
        Forgettable (placedPackStore (some { state := .evicted })) 1000 10 ∧
        lifecycleOf store' 10 = some .published := by
  have hrun : ∀ placement ∈ [none, some { state := .evicted }],
      okAnd (executeGdprForget ⟨1000, 1048576⟩ 1 sampleForget (placedPackStore placement))
        (fun result => decide (lifecycleOf result.2 10 = some .published)) = true := by
    decide +kernel
  constructor
  · obtain ⟨⟨certificate, store'⟩, hok, hafter⟩ := okAnd_eq_true.mp (hrun none (by simp))
    exact ⟨certificate, store', hok, forgettable_placedPackStore none, of_decide_eq_true hafter⟩
  · obtain ⟨⟨certificate, store'⟩, hok, hafter⟩ :=
      okAnd_eq_true.mp (hrun (some { state := .evicted }) (by simp))
    exact ⟨certificate, store', hok, forgettable_placedPackStore _, of_decide_eq_true hafter⟩

/-- A live placement is scheduled, and with it the pack. -/
theorem executeGdprForget_moves_all_iff_live :
    ∃ certificate store',
      executeGdprForget ⟨1000, 1048576⟩ 1 sampleForget (placedPackStore (some { state := .live })) =
        .ok (certificate, store') ∧
      Forgettable (placedPackStore (some { state := .live })) 1000 10 ∧
      ((∀ pack, Forgettable (placedPackStore (some { state := .live })) 1000 pack →
          lifecycleOf store' pack = some .deletePending) ↔
        ∀ pack, Forgettable (placedPackStore (some { state := .live })) 1000 pack →
          findGdprReplay (placedPackStore (some { state := .live })) sampleForget = .ok none ∧
            Schedulable (placedPackStore (some { state := .live })) pack) := by
  have hrun : okAnd (executeGdprForget ⟨1000, 1048576⟩ 1 sampleForget
      (placedPackStore (some { state := .live }))) (fun _ => true) = true := by
    decide +kernel
  obtain ⟨⟨certificate, store'⟩, hok, -⟩ := okAnd_eq_true.mp hrun
  exact ⟨certificate, store', hok, forgettable_placedPackStore _,
    executeGdprForget_moves_all_iff _ _ _ _ _ _ hok⟩

end Vaultic.Daemon
