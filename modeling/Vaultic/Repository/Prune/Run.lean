/-
  Repository/Prune/Run.lean  —  a prune never loses a stored blob, if backups let it.

  The end of a prune deletes only packs that no surviving index file lists.  What a
  backup uploads itself is therefore safe as soon as it is indexed.  What it skips is
  not: the index it loaded may name a pack that the prune is about to drop, and
  nothing tells the prune that the pack is wanted again.  The condition of the main
  result says when the skipped blobs are out of danger.
-/
import Vaultic.Repository.Prune.World

set_option autoImplicit false

namespace Vaultic.Repository.Prune

open Vaultic.Lib Vaultic.Schema

/-! ## Where a blob is -/

section

variable (world : World)

def PackPresent (pack : ID) : Prop := (world.packs.lookup pack).isSome = true

/-- The blob lies in an existing pack listed by an existing index file. -/
def Kept (handle : BlobHandle) : Prop :=
  ∃ file, ∃ blob ∈ contents world.indexes file, blob.handle = handle ∧
    PackPresent world blob.packID

/-- The packs that the prune may still drop, by what it knows: everything it loaded
until it has planned, then what the plan names. -/
def AtRisk : Stage → ID → Prop
  | .scanned _ index _, pack => Indexed index pack
  | .planned _ _ plan, pack | .repacked _ _ plan, pack => pack ∈ doomed plan
  | _, _ => False

/-- The index files that the prune will delete. -/
def Obsolete : Stage → ID → Prop
  | .rewritten _ obsolete, file => file ∈ obsolete
  | _, _ => False

/-- The blobs that the prune found in use. -/
def Stage.used : Stage → List BlobHandle
  | .scanned _ _ used | .planned _ used _ | .repacked _ used _ | .rewritten used _ => used
  | _ => []

/-- The blob lies in an existing pack that the prune will not drop, listed by a file
that it will not delete. -/
def SafelyHeld (handle : BlobHandle) : Prop :=
  ∃ file, ∃ blob ∈ contents world.indexes file, blob.handle = handle ∧
    PackPresent world blob.packID ∧ ¬AtRisk world.stage blob.packID ∧ ¬Obsolete world.stage file

/-- The prune will see to the blob itself: it is used, or about to be copied. -/
def Spared : Stage → BlobHandle → Prop
  | .scanned _ _ used, handle => handle ∈ used
  | .planned _ _ plan, handle => handle ∈ keptHandles plan
  | _, _ => False

def Secure (handle : BlobHandle) : Prop :=
  Spared world.stage handle ∨ SafelyHeld world handle

/-- A backup under way counts on the blob, which is not one it has yet to index. -/
def CountedOn (handle : BlobHandle) : Prop :=
  ∃ id backup, world.backups.lookup id = some backup ∧ handle ∈ backup.stored ∧
    ∀ blob ∈ backup.pending, blob.handle ≠ handle

/-- A snapshot or a backup under way relies on the blob. -/
def Promised (handle : BlobHandle) : Prop :=
  (∃ snapshot ∈ world.snapshots, handle ∈ snapshot.stored) ∨ CountedOn world handle

/-! ## The condition on a run -/

/-- No index file lists the pack. -/
def Unlisted (pack : ID) : Prop :=
  ∀ file, ∀ blob ∈ contents world.indexes file, blob.packID ≠ pack

/-- New files have new names: a file is named by the hash of its encrypted content. -/
def Action.Fresh : Action → Prop
  | .upload _ pack => ¬PackPresent world pack.id ∧ Unlisted world pack.id
  | .saveIndex _ file => world.indexes.lookup file = none
  | .repack uploads => ∀ upload ∈ uploads, ¬PackPresent world upload.1.id ∧
      Unlisted world upload.1.id ∧ world.indexes.lookup upload.2 = none
  | .rewrite _ target => ∀ pack, world.indexes.lookup (target pack) = none
  | _ => True

/-- The condition on one step.  When the prune looks for used blobs, what backups under
way count on is used by a saved snapshot, or lies in a pack the prune has not loaded.
From then on a backup skips a stored blob only if it was found in use, or lies in a
pack that stays.  And planning needs the packs of used blobs to be listed. -/
def Action.Meets : Action → Prop
  | .scan => ∀ files index, world.stage = .loaded files index → ∀ handle, CountedOn world handle →
      (∃ snapshot ∈ world.snapshots, handle ∈ snapshot.reaches) ∨
        ∃ file, ∃ blob ∈ contents world.indexes file, blob.handle = handle ∧
          PackPresent world blob.packID ∧ ¬Indexed index blob.packID
  | .plan _ config => ∀ files index used, world.stage = .scanned files index used →
      UsedListed (planSource config world index) used
  | .skip _ handle => Kept world handle → handle ∈ world.stage.used ∨ SafelyHeld world handle
  | _ => True

end

/-- Every step of the run meets its condition in the world it starts from. -/
def MeetsAlong : World → List Action → Prop
  | _, [] => True
  | world, action :: rest =>
    action.Fresh world ∧ action.Meets world ∧ MeetsAlong (step world action) rest

/-! ## Index files -/

variable {blob : IndexedBlob} {indexes : Table ID (List IndexedBlob)}

theorem mem_indexEntries : blob ∈ indexEntries indexes ↔ ∃ file, blob ∈ contents indexes file := by
  simp only [indexEntries, List.mem_flatMap]
  constructor
  · rintro ⟨⟨file, blobs⟩, hentry, hblob⟩
    refine ⟨file, ?_⟩
    rw [contents, Table.mem_entries_iff.mp hentry]
    exact hblob
  · rintro ⟨file, hblob⟩
    unfold contents at hblob
    cases hlook : indexes.lookup file with
    | none =>
      rw [hlook] at hblob
      simp at hblob
    | some blobs =>
      rw [hlook] at hblob
      exact ⟨⟨file, blobs⟩, Table.mem_entries_iff.mpr hlook, hblob⟩

theorem mem_contents_addEntries {file other : ID} {blobs : List IndexedBlob} :
    blob ∈ contents (addEntries indexes file blobs) other ↔
      blob ∈ contents indexes other ∨ (file = other ∧ blob ∈ blobs) := by
  unfold addEntries
  rw [contents, Table.lookup_insert_eq]
  by_cases hfile : file = other
  · rw [if_pos hfile, hfile]
    simp [contents]
  · simp [hfile, contents]

variable {file : ID}

section

variable {α : Type} {items : List α} {file : α → ID} {blobs : α → List IndexedBlob} {other : ID}

/-- Adding entries to several files. -/
theorem mem_contents_foldl_addEntries :
    blob ∈ contents (items.foldl (fun indexes item =>
        addEntries indexes (file item) (blobs item)) indexes) other ↔
      blob ∈ contents indexes other ∨ ∃ item ∈ items, file item = other ∧ blob ∈ blobs item := by
  induction items generalizing indexes with
  | nil => simp
  | cons item rest ih =>
    rw [List.foldl_cons, ih, mem_contents_addEntries, or_assoc, List.exists_mem_cons_iff]

theorem lookup_foldl_addEntries :
    (items.foldl (fun indexes item => addEntries indexes (file item) (blobs item))
        indexes).lookup other ≠ none ↔
      indexes.lookup other ≠ none ∨ ∃ item ∈ items, file item = other := by
  induction items generalizing indexes with
  | nil => simp
  | cons item rest ih =>
    rw [List.foldl_cons, ih, addEntries, Table.lookup_insert_eq, List.exists_mem_cons_iff]
    by_cases hfile : file item = other <;> simp [hfile]

end

/-! ## The invariant -/

/-- The files are there. -/
def FilesExist (world : World) (files : List ID) : Prop :=
  ∀ file ∈ files, world.indexes.lookup file ≠ none

/-- What a stage holds in memory is what the repository has. -/
def StageSound (world : World) : Prop :=
  match world.stage with
  | .loaded files index | .scanned files index _ =>
    FilesExist world files ∧ ∀ blob ∈ index, ∃ file, blob ∈ contents world.indexes file
  | .planned files _ plan =>
    FilesExist world files ∧ (∀ pack ∈ doomed plan, ¬Unlisted world pack) ∧
      (plan.repackPacks = ∅ → keptHandles plan = [])
  | .repacked files _ plan =>
    FilesExist world files ∧ ∀ pack ∈ doomed plan, ¬Unlisted world pack
  | .rewritten _ obsolete => ∀ file ∈ obsolete, world.indexes.lookup file ≠ none
  | _ => True

/-- The marker is that of the stage. -/
def MarkerSound (world : World) : Prop :=
  match world.stage with
  | .idle => world.marker = none
  | .rewritten _ obsolete =>
    ∃ requiredIndexes packIDs, world.marker = some (.ready requiredIndexes obsolete packIDs)
  | _ => world.marker = some .phaseA

structure Invariant (world : World) : Prop where
  promised : ∀ handle, Promised world handle → Kept world handle ∧ Secure world handle
  used : ∀ handle ∈ world.stage.used, Secure world handle
  snapshots : ∀ snapshot ∈ world.snapshots, ∀ handle ∈ snapshot.stored,
    handle ∈ snapshot.reaches
  backups : ∀ id backup, world.backups.lookup id = some backup →
    (∀ handle ∈ backup.stored, handle ∈ backup.reaches) ∧
    (∀ blob ∈ backup.known, ∃ file, blob ∈ contents world.indexes file) ∧
    ∀ blob ∈ backup.pending, PackPresent world blob.packID ∧ Unlisted world blob.packID
  disjoint : ∀ id id' backup backup', world.backups.lookup id = some backup →
    world.backups.lookup id' = some backup' → id ≠ id' →
    ∀ blob ∈ backup.pending, ∀ blob' ∈ backup'.pending, blob.packID ≠ blob'.packID
  stage : StageSound world
  marker : MarkerSound world

/-- Files are only added. -/
structure Grows (world world' : World) : Prop where
  packs : ∀ pack, PackPresent world pack → PackPresent world' pack
  indexes : ∀ file blob, blob ∈ contents world.indexes file → blob ∈ contents world'.indexes file
  files : ∀ file, world.indexes.lookup file ≠ none → world'.indexes.lookup file ≠ none

variable {pack : ID}

section Monotone

variable {world world' : World} {handle : BlobHandle}

section

variable (hgrows : Grows world world')
include hgrows

theorem Kept.mono (h : Kept world handle) : Kept world' handle := by
  obtain ⟨file, blob, hblob, hhandle, hpack⟩ := h
  exact ⟨file, blob, hgrows.indexes file blob hblob, hhandle, hgrows.packs _ hpack⟩

theorem SafelyHeld.mono (h : SafelyHeld world handle) (hstage : world'.stage = world.stage) :
    SafelyHeld world' handle := by
  obtain ⟨file, blob, hblob, hhandle, hpack, hrisk, hfile⟩ := h
  refine ⟨file, blob, hgrows.indexes file blob hblob, hhandle, hgrows.packs _ hpack, ?_, ?_⟩
  · rw [hstage]
    exact hrisk
  · rw [hstage]
    exact hfile

theorem Secure.mono (h : Secure world handle) (hstage : world'.stage = world.stage) :
    Secure world' handle := by
  rcases h with h | h
  · exact .inl (hstage ▸ h)
  · exact .inr (h.mono hgrows hstage)

theorem Grows.listed (h : ¬Unlisted world pack) :
    ¬Unlisted world' pack := fun hunlisted =>
  h fun file blob hblob => hunlisted file blob (hgrows.indexes file blob hblob)

theorem Grows.entry (h : ∃ file, blob ∈ contents world.indexes file) :
    ∃ file, blob ∈ contents world'.indexes file := by
  obtain ⟨file, hblob⟩ := h
  exact ⟨file, hgrows.indexes file blob hblob⟩

theorem StageSound.mono (h : StageSound world) (hstage : world'.stage = world.stage) :
    StageSound world' := by
  unfold StageSound at h ⊢
  rw [hstage]
  have hexist : ∀ files, FilesExist world files → FilesExist world' files :=
    fun files hfiles file hfile => hgrows.files file (hfiles file hfile)
  cases hcase : world.stage <;> rw [hcase] at h
  case idle => trivial
  case claimed => trivial
  case loaded files index =>
    exact ⟨hexist files h.1, fun blob hblob => hgrows.entry (h.2 blob hblob)⟩
  case scanned files index used =>
    exact ⟨hexist files h.1, fun blob hblob => hgrows.entry (h.2 blob hblob)⟩
  case planned files used plan =>
    exact ⟨hexist files h.1, fun pack hpack => hgrows.listed (h.2.1 pack hpack), h.2.2⟩
  case repacked files used plan =>
    exact ⟨hexist files h.1, fun pack hpack => hgrows.listed (h.2 pack hpack)⟩
  case rewritten used obsolete => exact fun file hfile => hgrows.files file (h file hfile)

end

theorem SafelyHeld.kept (h : SafelyHeld world handle) : Kept world handle := by
  obtain ⟨file, blob, hblob, hhandle, hpack, -⟩ := h
  exact ⟨file, blob, hblob, hhandle, hpack⟩

/-- A stage in which nothing is at risk and nothing is in use yet. -/
def Calm (stage : Stage) : Prop :=
  (∀ pack, ¬AtRisk stage pack) ∧ (∀ file, ¬Obsolete stage file) ∧ stage.used = []

theorem Kept.secure_of_calm (h : Kept world handle) (hcalm : Calm world.stage) :
    Secure world handle := by
  obtain ⟨file, blob, hblob, hhandle, hpack⟩ := h
  exact .inr ⟨file, blob, hblob, hhandle, hpack, hcalm.1 _, hcalm.2.1 _⟩

/-- Nothing that is not yet listed is at risk. -/
theorem StageSound.not_atRisk (h : StageSound world) (hpack : Unlisted world pack) :
    ¬AtRisk world.stage pack := by
  unfold StageSound at h
  intro hrisk
  cases hstage : world.stage <;> rw [hstage] at h hrisk <;> try exact hrisk
  case scanned files index used =>
    obtain ⟨blob, hblob, rfl⟩ := hrisk
    obtain ⟨file, hfile⟩ := h.2 blob hblob
    exact hpack file blob hfile rfl
  case planned files used plan => exact h.2.1 pack hrisk hpack
  case repacked files used plan => exact h.2 pack hrisk hpack

/-- A file with a new name is not one the prune will delete. -/
theorem StageSound.not_obsolete (h : StageSound world)
    (hfile : world.indexes.lookup file = none) : ¬Obsolete world.stage file := by
  unfold StageSound at h
  intro hobsolete
  cases hstage : world.stage <;> rw [hstage] at h hobsolete <;> try exact hobsolete
  case rewritten used obsolete => exact h file hobsolete hfile

end Monotone

/-! ## Steps of the prune -/

variable {handle : BlobHandle}

section PruneSteps

variable {world next : World} {marker : Option Marker} {stage : Stage}

theorem Secure.at_stage (h : Secure world handle) (hstage : world.stage = stage) :
    Secure { world with stage } handle := by
  subst hstage
  exact h

theorem calm_idle : Calm .idle := ⟨fun _ => not_false, fun _ => not_false, rfl⟩

theorem calm_claimed : Calm .claimed := ⟨fun _ => not_false, fun _ => not_false, rfl⟩

theorem calm_loaded (files : List ID) (index : List IndexedBlob) : Calm (.loaded files index) :=
  ⟨fun _ => not_false, fun _ => not_false, rfl⟩

variable {config : PruneSource}

variable {files : List ID}

section

variable {index : List IndexedBlob} {opts : PruneOptions} {plan : PrunePlan}
  {used : List BlobHandle} (hplan : planPrune opts (planSource config world index) used = .ok plan)
include hplan

/-- A plan secures what it found in use. -/
theorem secure_of_planned (hsound : ∀ blob ∈ index, ∃ file, blob ∈ contents world.indexes file)
    (hlisted : UsedListed (planSource config world index) used) (hused : handle ∈ used) :
    Secure { world with stage := .planned files used plan } handle := by
  rcases (planPrune_coversUsed_iff hplan).mpr (hlisted.missingKept _) handle hused with
    ⟨blob, hblob, hhandle, hpack, hremove, -, hrepack⟩ | ⟨⟨keep, hkeep, hkept⟩, -⟩
  · obtain ⟨file, hfile⟩ := hsound blob hblob
    refine .inr ⟨file, blob, hfile, hhandle, Option.isSome_iff_exists.mpr hpack, ?_, not_false⟩
    intro hdoomed
    simp only [AtRisk, doomed, Finset.mem_union] at hdoomed
    rcases hdoomed with (hdoomed | hdoomed) | hdoomed
    · exact hremove hdoomed
    · exact hrepack hdoomed
    · exact (planPrune_drops hplan).2 hdoomed hpack
  · refine .inl ?_
    obtain ⟨count, hcount⟩ := Option.ne_none_iff_exists'.mp hkept
    simp only [Spared, keptHandles, hkeep, Option.map_some, Option.getD_some, List.mem_map]
    exact ⟨⟨handle, count⟩, Table.mem_entries_iff.mpr hcount, rfl⟩

/-- Without repacking there is nothing to copy. -/
theorem planPrune_keptHandles (hnone : plan.repackPacks = ∅) : keptHandles plan = [] := by
  obtain ⟨-, -, -, actions, -, -, hrepack, -, -, hkeep⟩ := planPrune_inv hplan
  rw [hrepack] at hnone
  simp [keptHandles, hkeep, hnone]

end

variable {keep : ID → Bool}

theorem obsoleteIndexes_subset {plan : PrunePlan}
    (h : file ∈ obsoleteIndexes keep plan files world) : file ∈ files := by
  unfold obsoleteIndexes at h
  split at h
  · simp at h
  · exact (List.mem_filter.mp (List.mem_toFinset.mp h)).1

/-- Each entry of an obsolete file that stays is copied. -/
theorem mem_copiedEntries {plan : PrunePlan} (hfile : file ∈ obsoleteIndexes keep plan files world)
    (hblob : blob ∈ contents world.indexes file) (hstays : blob.packID ∉ doomed plan) :
    blob ∈ copiedEntries keep plan files world := by
  refine List.mem_filter.mpr ⟨List.mem_flatMap.mpr ⟨file, ?_, hblob⟩, decide_eq_true hstays⟩
  exact List.mem_filter.mpr ⟨obsoleteIndexes_subset hfile, decide_eq_true hfile⟩

theorem lookup_eq_none_of_entries {backups : Table Nat RunningBackup} (h : backups.entries = [])
    (id : Nat) : backups.lookup id = none := by
  cases hlook : backups.lookup id with
  | none => rfl
  | some backup =>
    have hmem := Table.mem_entries_iff.mpr hlook
    rw [h] at hmem
    cases hmem

variable (h : Invariant world)
include h

/-- What holds at the stage that the prune is in. -/
theorem Invariant.sound_at (hstage : world.stage = stage) :
    MarkerSound { world with stage } ∧ StageSound { world with stage } := by
  subst hstage
  exact ⟨h.marker, h.stage⟩

/-- A step that changes nothing but the stage and the marker. -/
theorem Invariant.restage (hnext : next = { world with stage, marker })
    (hsecure : ∀ handle, Promised world handle → Secure next handle)
    (hused : ∀ handle ∈ stage.used, Secure next handle) (hstage : StageSound next)
    (hmarker : MarkerSound next) : Invariant next := by
  subst hnext
  exact ⟨fun handle hpromised => ⟨(h.promised handle hpromised).1, hsecure handle hpromised⟩,
    hused, h.snapshots, h.backups, h.disjoint, hstage, hmarker⟩

theorem Invariant.restage_calm (hnext : next = { world with stage, marker })
    (hcalm : Calm stage) (hstage : StageSound next) (hmarker : MarkerSound next) :
    Invariant next := by
  refine h.restage hnext (fun handle hpromised => ?_) (fun handle hmem => ?_) hstage hmarker
  · subst hnext
    have hkept : Kept { world with stage, marker } handle := (h.promised handle hpromised).1
    exact hkept.secure_of_calm hcalm
  · rw [hcalm.2.2] at hmem
    cases hmem

theorem Invariant.claim : Invariant (pruneStep world .claim) := by
  unfold pruneStep
  dsimp only
  split
  · unfold beginPrunePlan
    split
    · exact h
    · exact h.restage_calm rfl calm_claimed trivial rfl
  · exact h

theorem Invariant.load : Invariant (pruneStep world .load) := by
  unfold pruneStep
  dsimp only
  split
  · rename_i hstage
    obtain ⟨hmarker, -⟩ := h.sound_at hstage
    refine h.restage_calm rfl (calm_loaded _ _) ⟨fun file hfile => ?_,
      fun blob hblob => mem_indexEntries.mp hblob⟩ hmarker
    obtain ⟨entry, hentry, rfl⟩ := List.mem_map.mp hfile
    rw [Table.mem_entries_iff.mp hentry]
    simp
  · exact h

theorem Invariant.scan (hmeets : Action.Meets world .scan) : Invariant (pruneStep world .scan) := by
  unfold pruneStep
  dsimp only
  split
  · rename_i files index hstage
    obtain ⟨hmarker, hsound⟩ := h.sound_at hstage
    refine h.restage rfl (fun handle hpromised => ?_) (fun _ hmem => .inl hmem) hsound hmarker
    rcases hpromised with ⟨snapshot, hsnapshot, hstored⟩ | hcounted
    · refine .inl (List.mem_flatMap.mpr ⟨snapshot, hsnapshot, ?_⟩)
      exact h.snapshots snapshot hsnapshot handle hstored
    rcases hmeets files index hstage handle hcounted with ⟨snapshot, hsnapshot, hreaches⟩ |
      ⟨file, blob, hblob, hhandle, hpack, hindexed⟩
    · exact .inl (List.mem_flatMap.mpr ⟨snapshot, hsnapshot, hreaches⟩)
    · exact .inr ⟨file, blob, hblob, hhandle, hpack, hindexed, not_false⟩
  · exact h

theorem Invariant.plan {opts : PruneOptions}
    (hmeets : Action.Meets world (.plan opts config)) :
    Invariant (pruneStep world (.plan opts config)) := by
  unfold pruneStep
  dsimp only
  split
  · rename_i files index used hstage
    split
    · rename_i plan hplan
      obtain ⟨hmarker, hfiles, hindexed⟩ := h.sound_at hstage
      have hlisted := hmeets files index used hstage
      have hdrops : ∀ pack ∈ doomed plan, Indexed index pack := by
        intro pack hpack
        simp only [doomed, Finset.mem_union, or_assoc] at hpack
        exact (planPrune_drops hplan).1 hpack
      refine h.restage rfl (fun handle hpromised => ?_)
        (fun handle hmem => secure_of_planned hplan hindexed hlisted hmem)
        ⟨hfiles, ?_, planPrune_keptHandles hplan⟩ hmarker
      · rcases (h.promised handle hpromised).2.at_stage hstage with
          hused | ⟨file, blob, hblob, hhandle, hpack, hrisk, -⟩
        · exact secure_of_planned hplan hindexed hlisted hused
        · exact .inr ⟨file, blob, hblob, hhandle, hpack, fun hdoomed => hrisk
            (hdrops _ hdoomed), not_false⟩
      · intro pack hpack hunlisted
        obtain ⟨blob, hblob, rfl⟩ := hdrops pack hpack
        obtain ⟨file, hfile⟩ := hindexed blob hblob
        exact hunlisted file blob hfile rfl
    · exact h
  · exact h

/-- A step that adds files and moves on to another stage. -/
theorem Invariant.grow {packs : Table ID Nat}
    (hnext : next = { world with packs, indexes, stage, marker }) (hgrows : Grows world next)
    (hunlisted : ∀ pack, PackPresent world pack → Unlisted world pack → Unlisted next pack)
    (hsecure : ∀ handle, Secure world handle → Secure next handle)
    (hused : stage.used = world.stage.used) (hstage : StageSound next)
    (hmarker : MarkerSound next) : Invariant next := by
  subst hnext
  refine ⟨fun handle hpromised => ?_, fun handle hmem => ?_, h.snapshots, fun id backup hlook => ?_,
    h.disjoint, hstage, hmarker⟩
  · obtain ⟨hkept, hsafe⟩ := h.promised handle hpromised
    exact ⟨hkept.mono hgrows, hsecure handle hsafe⟩
  · refine hsecure handle (h.used handle ?_)
    rw [← hused]
    exact hmem
  · obtain ⟨hreaches, hknown, hpending⟩ := h.backups id backup hlook
    refine ⟨hreaches, fun blob hblob => hgrows.entry (hknown blob hblob), fun blob hblob => ?_⟩
    obtain ⟨hpack, hpackUnlisted⟩ := hpending blob hblob
    exact ⟨hgrows.packs _ hpack, hunlisted _ hpack hpackUnlisted⟩

theorem Invariant.repack {uploads : List (NewPack × ID)}
    (hfresh : Action.Fresh world (.repack uploads)) :
    Invariant (pruneStep world (.repack uploads)) := by
  unfold pruneStep
  dsimp only
  split
  case h_2 => exact h
  case h_1 files used plan hstage =>
  obtain ⟨hmarker, hfiles, hdoomed, hnothing⟩ := h.sound_at hstage
  have hsecure : ∀ handle, Secure world handle → handle ∈ keptHandles plan ∨
      ∃ file, ∃ blob ∈ contents world.indexes file, blob.handle = handle ∧
        PackPresent world blob.packID ∧ blob.packID ∉ doomed plan := by
    intro handle hsafe
    rcases hsafe.at_stage hstage with hkept | ⟨file, blob, hblob, hhandle, hpack, hrisk, -⟩
    · exact .inl hkept
    · exact .inr ⟨file, blob, hblob, hhandle, hpack, hrisk⟩
  unfold executeRepack
  split
  · rename_i hempty
    refine h.grow rfl ⟨fun _ hp => hp, fun _ _ hb => hb, fun _ hf => hf⟩ (fun _ _ hu => hu)
      (fun handle hsafe => ?_) (by rw [hstage]; rfl) ⟨hfiles, hdoomed⟩ hmarker
    rcases hsecure handle hsafe with hkept | ⟨file, blob, hblob, hhandle, hpack, hrisk⟩
    · rw [hnothing hempty] at hkept
      cases hkept
    · exact .inr ⟨file, blob, hblob, hhandle, hpack, hrisk, not_false⟩
  split
  · exact h
  rename_i hall
  rw [not_not] at hall
  have hgrows : Grows world { world with
      packs := world.packs.putAll (uploads.map fun upload => (upload.1.id, upload.1.size))
      indexes := uploads.foldl (fun indexes upload =>
        addEntries indexes upload.2 (copyOnly plan upload.1).occurrences) world.indexes
      stage := .repacked (files ++ uploads.map (·.2)) used plan } := by
    refine ⟨fun pack hpack => ?_, fun file blob hblob => ?_, fun file hfile => ?_⟩
    · unfold PackPresent at hpack ⊢
      rcases Table.lookup_putAll_or world.packs
          (uploads.map fun upload => (upload.1.id, upload.1.size)) pack with
        ⟨size, -, hlook⟩ | ⟨-, hlook⟩
      · rw [hlook]
        rfl
      · rw [hlook]
        exact hpack
    · exact mem_contents_foldl_addEntries.mpr (.inl hblob)
    · exact lookup_foldl_addEntries.mpr (.inl hfile)
  refine h.grow rfl hgrows (fun pack hpack hunlisted file blob hblob => ?_) (fun handle hsafe => ?_)
    (by rw [hstage]; rfl) ⟨fun file hfile => ?_, fun pack hpack => ?_⟩ hmarker
  · rcases mem_contents_foldl_addEntries.mp hblob with hblob | ⟨upload, hupload, -, hblob⟩
    · exact hunlisted file blob hblob
    · obtain ⟨_, -, rfl⟩ := List.mem_map.mp hblob
      rintro rfl
      exact (hfresh upload hupload).1 hpack
  · rcases hsecure handle hsafe with hkept | ⟨file, blob, hblob, hhandle, hpack, hrisk⟩
    · obtain ⟨upload, hupload, blob, hblob, rfl⟩ := hall handle hkept
      refine .inr ⟨upload.2, { blob with packID := upload.1.id }, ?_, rfl, ?_, ?_, not_false⟩
      · refine mem_contents_foldl_addEntries.mpr (.inr ⟨upload, hupload, rfl, ?_⟩)
        exact List.mem_map.mpr ⟨blob, List.mem_filter.mpr ⟨hblob, decide_eq_true hkept⟩, rfl⟩
      · exact Table.isSome_lookup_putAll (List.mem_map.mpr ⟨upload, hupload, rfl⟩)
      · exact fun hrisk => hdoomed _ hrisk (hfresh upload hupload).2.1
    · exact .inr ⟨file, blob, hgrows.indexes file blob hblob, hhandle, hgrows.packs _ hpack,
        hrisk, not_false⟩
  · rcases List.mem_append.mp hfile with hfile | hfile
    · exact hgrows.files file (hfiles file hfile)
    · obtain ⟨upload, hupload, rfl⟩ := List.mem_map.mp hfile
      exact lookup_foldl_addEntries.mpr (.inr ⟨upload, hupload, rfl⟩)
  · exact hgrows.listed (hdoomed pack hpack)

theorem Invariant.rewrite {target : ID → ID}
    (hfresh : Action.Fresh world (.rewrite keep target)) :
    Invariant (pruneStep world (.rewrite keep target)) := by
  unfold pruneStep
  dsimp only
  split
  case h_2 => exact h
  case h_1 files used plan hstage =>
  obtain ⟨(hmarker : world.marker = some .phaseA), hfiles, hdoomed⟩ := h.sound_at hstage
  unfold executeRewrite
  dsimp only
  split
  · exact h.restage_calm rfl calm_idle trivial rfl
  simp only [completePrunePlan, hmarker, Except.toOption, Option.getD_some]
  have hgrows : Grows world { world with
      indexes := (copiedEntries keep plan files world).foldl (fun indexes blob =>
        addEntries indexes (target blob.packID) [blob]) world.indexes
      stage := .rewritten used (obsoleteIndexes keep plan files world) } :=
    ⟨fun _ hp => hp, fun _ _ hb => mem_contents_foldl_addEntries.mpr (.inl hb),
      fun _ hf => lookup_foldl_addEntries.mpr (.inl hf)⟩
  refine h.grow rfl ⟨hgrows.packs, hgrows.indexes, hgrows.files⟩
    (fun pack _ hunlisted file blob hblob => ?_) (fun handle hsafe => ?_) (by rw [hstage]; rfl)
    (fun file hfile => hgrows.files file (hfiles file (obsoleteIndexes_subset hfile)))
    ⟨_, _, rfl⟩
  · -- Only entries that are listed already are copied.
    rcases mem_contents_foldl_addEntries.mp hblob with hblob | ⟨copied, hcopied, -, hblob⟩
    · exact hunlisted file blob hblob
    · obtain rfl := List.mem_singleton.mp hblob
      obtain ⟨old, -, hold⟩ := List.mem_flatMap.mp (List.mem_filter.mp hcopied).1
      exact hunlisted old blob hold
  · rcases hsafe.at_stage hstage with hfalse | ⟨file, blob, hblob, hhandle, hpack, hrisk, -⟩
    · exact absurd hfalse not_false
    by_cases hobsolete : file ∈ obsoleteIndexes keep plan files world
    · refine .inr ⟨target blob.packID, blob, ?_, hhandle, hpack, not_false, fun hnew => ?_⟩
      · exact mem_contents_foldl_addEntries.mpr (.inr ⟨blob,
          mem_copiedEntries hobsolete hblob hrisk, rfl, List.mem_singleton_self _⟩)
      · exact hfiles _ (obsoleteIndexes_subset hnew) (hfresh blob.packID)
    · exact .inr ⟨file, blob, hgrows.indexes file blob hblob, hhandle, hpack, not_false,
        hobsolete⟩

theorem Invariant.finalize (staged : Finset ID) :
    Invariant (pruneStep world (.finalize staged)) := by
  unfold pruneStep
  dsimp only
  split
  case isFalse => exact h
  case isTrue hnone =>
  unfold finalizePrunePlan
  split
  · exact h
  · exact h.restage_calm rfl calm_idle trivial rfl
  rename_i requiredIndexes indexIDs packIDs hready
  split
  · exact h
  dsimp only
  split
  · exact h
  rename_i hunreferenced
  -- Only a rewriting leaves such a marker.
  have hstage : ∃ used, world.stage = .rewritten used indexIDs := by
    have hmarker := h.marker
    unfold MarkerSound at hmarker
    rw [hready] at hmarker
    cases hcase : world.stage <;> rw [hcase] at hmarker
    case rewritten used obsolete =>
      obtain ⟨_, _, heq⟩ := hmarker
      cases heq
      exact ⟨used, rfl⟩
    all_goals cases hmarker
  obtain ⟨used, hstage⟩ := hstage
  refine ⟨fun handle hpromised => ?_, List.forall_mem_nil _,
    h.snapshots, fun id backup hlook => ?_, h.disjoint, trivial, rfl⟩
  · have hkept : Kept { world with
        indexes := world.indexes.discard fun file => decide (file ∈ indexIDs)
        packs := world.packs.discard fun pack => decide (pack ∈ packIDs ∧ pack ∉ staged)
        marker := none, stage := .idle } handle := by
      have hsafe := (h.promised handle hpromised).2
      unfold Secure SafelyHeld at hsafe
      rw [hstage] at hsafe
      rcases hsafe with hfalse | ⟨file, blob, hblob, hhandle, hpack, -, hfile⟩
      · exact absurd hfalse not_false
      have hsurvives : blob ∈ contents
          (world.indexes.discard fun file => decide (file ∈ indexIDs)) file := by
        have hkeep : file ∉ indexIDs := hfile
        rw [contents, Table.lookup_discard, if_neg (by simpa using hkeep)]
        exact hblob
      refine ⟨file, blob, hsurvives, hhandle, ?_⟩
      have hsafePack : blob.packID ∉ packIDs := fun hmem =>
        hunreferenced ⟨blob, mem_indexEntries.mpr ⟨file, hsurvives⟩, hmem⟩
      unfold PackPresent
      rw [Table.lookup_discard, if_neg (by simp [hsafePack])]
      exact hpack
    exact ⟨hkept, hkept.secure_of_calm calm_idle⟩
  · have hlook' : world.backups.lookup id = some backup := hlook
    rw [lookup_eq_none_of_entries hnone] at hlook'
    cases hlook'

end PruneSteps

/-! ## Steps of a backup -/

section BackupSteps

variable {world world' : World} {id : Nat} {backup next : RunningBackup}
  {packs : Table ID Nat}

/-- What is counted on after one backup changed was so before, or is due to it. -/
theorem countedOn_insert (h : CountedOn world' handle)
    (hworld : world' = { world with packs, indexes, backups := world.backups.insert id next }) :
    CountedOn world handle ∨
      (handle ∈ next.stored ∧ ∀ blob ∈ next.pending, blob.handle ≠ handle) := by
  subst hworld
  obtain ⟨found, running, hlook, hstored, hpending⟩ := h
  rcases Table.lookup_insert_cases hlook with ⟨-, rfl⟩ | ⟨-, hlook⟩
  · exact .inr ⟨hstored, hpending⟩
  · exact .inl ⟨found, running, hlook, hstored, hpending⟩

section

variable (h : Invariant world)
include h

/-- A step of a backup adds files and replaces its own state. -/
theorem Invariant.progress
    (hworld : world' = { world with packs, indexes, backups := world.backups.insert id next })
    (hgrows : Grows world world')
    (hcounted : ∀ handle ∈ next.stored, (∀ blob ∈ next.pending, blob.handle ≠ handle) →
      Kept world' handle ∧ Secure world' handle)
    (hnext : (∀ handle ∈ next.stored, handle ∈ next.reaches) ∧
      (∀ blob ∈ next.known, ∃ file, blob ∈ contents indexes file) ∧
      ∀ blob ∈ next.pending, PackPresent world' blob.packID ∧ Unlisted world' blob.packID)
    (hothers : ∀ other running, other ≠ id → world.backups.lookup other = some running →
      ∀ blob ∈ running.pending, Unlisted world' blob.packID ∧
        ∀ blob' ∈ next.pending, blob.packID ≠ blob'.packID) : Invariant world' := by
  subst hworld
  refine ⟨fun handle hpromised => ?_, fun handle hmem => (h.used handle hmem).mono hgrows rfl,
    h.snapshots, fun found running hlook => ?_,
    fun left right running running' hleft hright hne => ?_,
    h.stage.mono hgrows rfl, h.marker⟩
  · have hold : Promised world handle ∨
        (handle ∈ next.stored ∧ ∀ blob ∈ next.pending, blob.handle ≠ handle) := by
      rcases hpromised with hsnapshot | hcount
      · exact .inl (.inl hsnapshot)
      · rcases countedOn_insert hcount rfl with hcount | hdue
        · exact .inl (.inr hcount)
        · exact .inr hdue
    rcases hold with hold | ⟨hstored, hpending⟩
    · obtain ⟨hkept, hsafe⟩ := h.promised handle hold
      exact ⟨hkept.mono hgrows, hsafe.mono hgrows rfl⟩
    · exact hcounted handle hstored hpending
  · rcases Table.lookup_insert_cases hlook with ⟨-, rfl⟩ | ⟨hne, hlook⟩
    · exact hnext
    obtain ⟨hreaches, hknown, hpending⟩ := h.backups found running hlook
    refine ⟨hreaches, fun blob hblob => hgrows.entry (hknown blob hblob), fun blob hblob => ?_⟩
    exact ⟨hgrows.packs _ (hpending blob hblob).1,
      (hothers found running (Ne.symm hne) hlook blob hblob).1⟩
  · rcases Table.lookup_insert_cases hleft with ⟨rfl, rfl⟩ | ⟨hid, hleft⟩ <;>
      rcases Table.lookup_insert_cases hright with ⟨hid', rfl⟩ | ⟨hid', hright⟩
    · exact absurd hid' hne
    · intro blob hblob blob' hblob'
      exact Ne.symm ((hothers right running' (Ne.symm hid') hright blob' hblob').2 blob hblob)
    · exact fun blob hblob => (hothers left running (Ne.symm hid) hleft blob hblob).2
    · exact h.disjoint left right running running' hleft hright hne

theorem Invariant.start : Invariant (step world (.start id)) := by
  unfold step
  dsimp only
  split
  · exact h
  refine h.progress rfl
    ⟨fun _ hp => hp, fun _ _ hb => hb, fun _ hf => hf⟩ (by simp) ⟨by simp, ?_, by simp⟩ ?_
  · exact fun blob hblob => mem_indexEntries.mp hblob
  · rintro other running - hlook blob hblob
    exact ⟨((h.backups other running hlook).2.2 blob hblob).2, by simp⟩

variable (hlook : world.backups.lookup id = some backup)
include hlook

theorem Invariant.skip (hmeets : Action.Meets world (.skip id handle)) :
    Invariant (backupStep world id backup (.skip id handle)) := by
  unfold backupStep
  dsimp only
  split
  case isFalse => exact h
  obtain ⟨hreaches, hknown, hpending⟩ := h.backups id backup hlook
  have hstored : storedIn world.packs backup.known handle = true → Kept world handle := by
    intro hany
    obtain ⟨blob, hblob, hcheck⟩ := List.any_eq_true.mp hany
    simp only [Bool.and_eq_true, decide_eq_true_eq] at hcheck
    obtain ⟨file, hfile⟩ := hknown blob hblob
    exact ⟨file, blob, hfile, hcheck.1, hcheck.2⟩
  have hcases : ∀ found ∈ (if storedIn world.packs backup.known handle then
      handle :: backup.stored else backup.stored),
      (found = handle ∧ storedIn world.packs backup.known handle = true) ∨
        found ∈ backup.stored := by
    intro found hfound
    split at hfound
    · rename_i hany
      rcases List.mem_cons.mp hfound with rfl | hfound
      · exact .inl ⟨rfl, hany⟩
      · exact .inr hfound
    · exact .inr hfound
  refine h.progress rfl
    ⟨fun _ hp => hp, fun _ _ hb => hb, fun _ hf => hf⟩ (fun found hfound hnew => ?_)
    ⟨fun found hfound => ?_, hknown, hpending⟩ ?_
  · rcases hcases found hfound with ⟨rfl, hany⟩ | hold
    · refine ⟨hstored hany, ?_⟩
      rcases hmeets (hstored hany) with hused | hsafe
      · exact h.used found hused
      · exact .inr hsafe
    · exact h.promised found (.inr ⟨id, backup, hlook, hold, hnew⟩)
  · rcases hcases found hfound with ⟨rfl, -⟩ | hold
    · exact .head _
    · exact .tail _ (hreaches found hold)
  · intro other running hne hother blob hblob
    exact ⟨((h.backups other running hother).2.2 blob hblob).2,
      h.disjoint other id running backup hother hlook hne blob hblob⟩

theorem Invariant.upload {pack : NewPack} (hfresh : Action.Fresh world (.upload id pack)) :
    Invariant (backupStep world id backup (.upload id pack)) := by
  unfold backupStep
  obtain ⟨hreaches, hknown, hpending⟩ := h.backups id backup hlook
  have hgrows : ∀ next, Grows world { world with
      packs := world.packs.insert pack.id pack.size
      backups := world.backups.insert id next } :=
    fun next => ⟨fun _ hp => Table.isSome_lookup_insert hp, fun _ _ hb => hb, fun _ hf => hf⟩
  refine h.progress rfl (hgrows _) (fun handle hstored hnew => ?_)
    ⟨fun handle hstored => ?_, hknown, fun blob hblob => ?_⟩
    (fun other running hne hother blob hblob => ?_)
  · -- A blob of the new pack is yet to be indexed, so this is one from before.
    have hold : handle ∈ backup.stored := by
      rcases List.mem_append.mp hstored with hmem | hmem
      · obtain ⟨blob, hblob, rfl⟩ := List.mem_map.mp hmem
        exact absurd rfl (hnew { blob with packID := pack.id }
          (List.mem_append_left _ (List.mem_map.mpr ⟨blob, hblob, rfl⟩)))
      · exact hmem
    obtain ⟨hkept, hsafe⟩ := h.promised handle (.inr ⟨id, backup, hlook, hold,
      fun blob hblob => hnew blob (List.mem_append_right _ hblob)⟩)
    exact ⟨hkept.mono (hgrows _), hsafe.mono (hgrows _) rfl⟩
  · rcases List.mem_append.mp hstored with hmem | hmem
    · exact List.mem_append_left _ hmem
    · exact List.mem_append_right _ (hreaches handle hmem)
  · rcases List.mem_append.mp hblob with hmem | hmem
    · obtain ⟨_, -, rfl⟩ := List.mem_map.mp hmem
      refine ⟨?_, hfresh.2⟩
      unfold PackPresent
      rw [AList.lookup_insert]
      rfl
    · exact ⟨Table.isSome_lookup_insert (hpending blob hmem).1, (hpending blob hmem).2⟩
  · obtain ⟨hthere, hunlisted⟩ := (h.backups other running hother).2.2 blob hblob
    refine ⟨hunlisted, fun blob' hblob' => ?_⟩
    rcases List.mem_append.mp hblob' with hmem | hmem
    · obtain ⟨_, -, rfl⟩ := List.mem_map.mp hmem
      intro heq
      rw [heq] at hthere
      exact hfresh.1 hthere
    · exact h.disjoint other id running backup hother hlook hne blob hblob blob' hmem

theorem Invariant.saveIndex (hfresh : Action.Fresh world (.saveIndex id file)) :
    Invariant (backupStep world id backup (.saveIndex id file)) := by
  obtain ⟨hreaches, hknown, hpending⟩ := h.backups id backup hlook
  have hgrows : ∀ next, Grows world { world with
      indexes := addEntries world.indexes file backup.pending
      backups := world.backups.insert id next } := by
    refine fun next => ⟨fun _ hp => hp, fun _ _ hb => mem_contents_addEntries.mpr (.inl hb),
      fun found hfound => ?_⟩
    rw [← Option.isSome_iff_ne_none] at hfound ⊢
    exact Table.isSome_lookup_insert hfound
  refine h.progress rfl (hgrows _) (fun handle hstored _ => ?_)
    ⟨hreaches, fun blob hblob => (hgrows backup).entry (hknown blob hblob), by simp⟩
    (fun other running hne hother blob hblob => ⟨?_, by simp⟩)
  · by_cases hwaiting : ∃ blob ∈ backup.pending, blob.handle = handle
    · obtain ⟨blob, hblob, hhandle⟩ := hwaiting
      obtain ⟨hthere, hunlisted⟩ := hpending blob hblob
      have hsafe : SafelyHeld { world with
          indexes := addEntries world.indexes file backup.pending
          backups := world.backups.insert id { backup with pending := [] } } handle :=
        ⟨file, blob, mem_contents_addEntries.mpr (.inr ⟨rfl, hblob⟩), hhandle, hthere,
          h.stage.not_atRisk hunlisted, h.stage.not_obsolete hfresh⟩
      exact ⟨hsafe.kept, .inr hsafe⟩
    · push Not at hwaiting
      obtain ⟨hkept, hsafe⟩ := h.promised handle (.inr ⟨id, backup, hlook, hstored, hwaiting⟩)
      exact ⟨hkept.mono (hgrows _), hsafe.mono (hgrows _) rfl⟩
  · intro found listed hlisted
    rcases mem_contents_addEntries.mp hlisted with hlisted | ⟨-, hlisted⟩
    · exact ((h.backups other running hother).2.2 blob hblob).2 found listed hlisted
    · exact Ne.symm (h.disjoint other id running backup hother hlook hne blob hblob listed hlisted)

theorem Invariant.saveSnapshot : Invariant (backupStep world id backup (.saveSnapshot id)) := by
  unfold backupStep
  dsimp only
  split
  case isFalse => exact h
  case isTrue hindexed =>
  obtain ⟨hreaches, -, -⟩ := h.backups id backup hlook
  refine ⟨fun handle hpromised => ?_, h.used, List.forall_mem_cons.mpr ⟨hreaches, h.snapshots⟩,
    fun other running hother => h.backups other running (Table.lookup_of_erase hother),
    fun left right running running' hleft hright => h.disjoint left right running running'
      (Table.lookup_of_erase hleft) (Table.lookup_of_erase hright),
    h.stage, h.marker⟩
  refine h.promised handle ?_
  rcases hpromised with ⟨snapshot, hsnapshot, hstored⟩ | ⟨other, running, hother, hrest⟩
  · rcases List.mem_cons.mp hsnapshot with rfl | hsnapshot
    · exact .inr ⟨id, backup, hlook, hstored, by simp [hindexed]⟩
    · exact .inl ⟨snapshot, hsnapshot, hstored⟩
  · exact .inr ⟨other, running, Table.lookup_of_erase hother, hrest⟩

end

end BackupSteps

/-! ## Runs -/

variable {world : World}

theorem Invariant.step (h : Invariant world) {action : Action}
    (hfresh : action.Fresh world) (hmeets : action.Meets world) :
    Invariant (step world action) := by
  have hbackup : ∀ id, action.backup = some id → (∀ backup, world.backups.lookup id = some backup →
      Invariant (backupStep world id backup action)) → Invariant (Prune.step world action) := by
    intro id hid hrunning
    unfold Prune.step
    cases hlook : world.backups.lookup id <;> cases action <;> simp_all [Action.backup]
  cases action with
  | claim => exact h.claim
  | load => exact h.load
  | scan => exact h.scan hmeets
  | plan opts config => exact h.plan hmeets
  | repack uploads => exact h.repack hfresh
  | rewrite keep target => exact h.rewrite hfresh
  | finalize staged => exact h.finalize staged
  | start id => exact h.start
  | skip id handle => exact hbackup id rfl fun backup hlook => h.skip hlook hmeets
  | upload id pack => exact hbackup id rfl fun backup hlook => h.upload hlook hfresh
  | saveIndex id file => exact hbackup id rfl fun backup hlook => h.saveIndex hlook hfresh
  | saveSnapshot id => exact hbackup id rfl fun backup hlook => h.saveSnapshot hlook

theorem Invariant.run (h : Invariant world) {actions : List Action}
    (hmeets : MeetsAlong world actions) : Invariant (run world actions) := by
  induction actions generalizing world with
  | nil => exact h
  | cons action rest ih =>
    obtain ⟨hfresh, hcondition, hrest⟩ := hmeets
    exact ih (h.step hfresh hcondition) hrest

/-- The repository before a prune: neither a prune nor a backup is under way, and what
snapshots found stored is there. -/
structure Settled (world : World) : Prop where
  stage : world.stage = .idle
  marker : world.marker = none
  backups : world.backups.entries = []
  reaches : ∀ snapshot ∈ world.snapshots, ∀ handle ∈ snapshot.stored, handle ∈ snapshot.reaches
  kept : ∀ snapshot ∈ world.snapshots, ∀ handle ∈ snapshot.stored, Kept world handle

theorem Settled.invariant (h : Settled world) : Invariant world := by
  have hnone := lookup_eq_none_of_entries h.backups
  have hcalm : Calm world.stage := by
    rw [h.stage]
    exact calm_idle
  refine ⟨fun handle hpromised => ?_, ?_, h.reaches, fun id backup hlook => ?_,
    fun id _ backup _ hlook => ?_, ?_, ?_⟩
  · rcases hpromised with ⟨snapshot, hsnapshot, hstored⟩ | ⟨id, backup, hlook, -⟩
    · exact ⟨h.kept snapshot hsnapshot handle hstored,
        (h.kept snapshot hsnapshot handle hstored).secure_of_calm hcalm⟩
    · rw [hnone id] at hlook
      cases hlook
  · rw [h.stage]
    exact List.forall_mem_nil _
  · rw [hnone id] at hlook
    cases hlook
  · rw [hnone id] at hlook
    cases hlook
  · unfold StageSound
    rw [h.stage]
    trivial
  · unfold MarkerSound
    rw [h.stage]
    exact h.marker

/-- Along a run whose steps all meet their conditions, what a snapshot found stored
stays in an existing pack that an existing index file lists: in particular after the
prune has deleted what it had marked. -/
theorem run_keeps_stored (world : World) (hsettled : Settled world) (actions : List Action)
    (hmeets : MeetsAlong world actions) :
    ∀ snapshot ∈ (run world actions).snapshots, ∀ handle ∈ snapshot.stored,
      Kept (run world actions) handle := by
  intro snapshot hsnapshot handle hstored
  exact ((hsettled.invariant.run hmeets).promised handle
    (.inl ⟨snapshot, hsnapshot, hstored⟩)).1

/-- The data blob 1 is used and lies in pack 10; the data blob 2 is not, and lies in
pack 11. -/
def halfUsedWorld : World :=
  { packs := ((∅ : Table ID Nat).insert 11 87).insert 10 87
    indexes := (∅ : Table ID (List IndexedBlob)).insert 100
      [⟨10, ⟨1, .data⟩, 10, true⟩, ⟨11, ⟨2, .data⟩, 10, true⟩]
    snapshots := [⟨[⟨1, .data⟩], [⟨1, .data⟩]⟩] }

/-- A prune and, after it has planned, a backup that finds blob 1 and uploads blob 3. -/
def sparedRun : List Action :=
  [.claim, .load, .scan, .plan defaultPruneOptions { index := [], listing := ∅ }, .start 1,
    .skip 1 ⟨1, .data⟩, .repack [], .upload 1 ⟨12, 87, [⟨0, ⟨3, .data⟩, 10, true⟩]⟩,
    .rewrite (fun _ => true) (fun _ => 101), .saveIndex 1 102, .saveSnapshot 1, .finalize ∅]

/-- A prune and, after it has planned, a backup that finds blob 2. -/
def doomedRun : List Action :=
  [.claim, .load, .scan, .plan defaultPruneOptions { index := [], listing := ∅ }, .start 1,
    .skip 1 ⟨2, .data⟩, .repack [], .rewrite (fun _ => true) (fun _ => 101), .saveSnapshot 1,
    .finalize ∅]

theorem halfUsedWorld_settled : Settled halfUsedWorld := by
  refine ⟨rfl, rfl, rfl, ?_, ?_⟩
  · simp [halfUsedWorld]
  intro snapshot hsnapshot handle hstored
  rw [List.mem_singleton.mp hsnapshot] at hstored
  rw [List.mem_singleton.mp hstored]
  exact ⟨100, ⟨10, ⟨1, .data⟩, 10, true⟩, by decide, rfl, by unfold PackPresent; decide⟩

theorem unlisted_iff :
    Unlisted world pack ↔ ∀ blob ∈ indexEntries world.indexes, blob.packID ≠ pack := by
  simp only [mem_indexEntries, forall_exists_index]
  exact forall_comm

theorem sparedRun_meetsAlong : MeetsAlong halfUsedWorld sparedRun := by
  refine ⟨trivial, trivial, trivial, trivial, trivial, ?scan, trivial, ?plan, trivial, trivial,
    trivial, ?skip, List.forall_mem_nil _, trivial,
    ⟨?present, ?unlisted⟩, trivial, fun _ => ?target, trivial, ?file, trivial, trivial, trivial,
    trivial, trivial, trivial⟩
  case scan =>
    rintro files index - handle ⟨id, backup, hlook, -⟩
    have hnone : (step (step halfUsedWorld .claim) .load).backups.entries = [] := by decide +kernel
    rw [lookup_eq_none_of_entries hnone] at hlook
    cases hlook
  case plan =>
    intro files index used hstage blob hblob hused
    have hscanned : (step (step (step halfUsedWorld .claim) .load) .scan).stage =
        .scanned [100] [⟨10, ⟨1, .data⟩, 10, true⟩, ⟨11, ⟨2, .data⟩, 10, true⟩] [⟨1, .data⟩] := rfl
    rw [hscanned] at hstage
    cases hstage
    rcases List.mem_cons.mp hblob with rfl | hblob
    · exact ⟨87, by decide +kernel⟩
    · rw [List.mem_singleton.mp hblob] at hused
      exact absurd hused (by decide)
  case skip => exact fun _ => .inl (by decide +kernel)
  case present =>
    unfold PackPresent
    decide +kernel
  case unlisted => exact unlisted_iff.mpr (by decide +kernel)
  case target =>
    beta_reduce
    decide +kernel
  case file =>
    unfold Action.Fresh
    decide +kernel

/-- Pack 11 goes while the backup runs; what it found and what it uploaded stay. -/
theorem run_keeps_stored_sample :
    (run halfUsedWorld sparedRun).packs.lookup 11 = none ∧
      (run halfUsedWorld sparedRun).snapshots.length = 2 ∧
      ∀ snapshot ∈ (run halfUsedWorld sparedRun).snapshots, ∀ handle ∈ snapshot.stored,
        Kept (run halfUsedWorld sparedRun) handle :=
  ⟨by decide +kernel, by decide +kernel,
    run_keeps_stored halfUsedWorld halfUsedWorld_settled sparedRun sparedRun_meetsAlong⟩

/-- The backup referred to blob 2 while it was stored, in a pack that the prune had
already chosen; no index file left names the pack, and it is deleted. -/
theorem run_loses_skipped_blob :
    Settled halfUsedWorld ∧
      ∃ snapshot ∈ (run halfUsedWorld doomedRun).snapshots, ∃ handle ∈ snapshot.stored,
        ¬Kept (run halfUsedWorld doomedRun) handle := by
  have hsnapshot : (⟨[⟨2, .data⟩], [⟨2, .data⟩]⟩ : SavedSnapshot) ∈
      (run halfUsedWorld doomedRun).snapshots := by
    decide +kernel
  have hentries : ∀ blob ∈ indexEntries (run halfUsedWorld doomedRun).indexes,
      blob.handle ≠ ⟨2, .data⟩ := by
    decide +kernel
  refine ⟨halfUsedWorld_settled, _, hsnapshot, ⟨2, .data⟩, List.mem_singleton_self _, ?_⟩
  rintro ⟨file, blob, hblob, hhandle, -⟩
  exact hentries blob (mem_indexEntries.mpr ⟨file, hblob⟩) hhandle

end Vaultic.Repository.Prune
