/-
  Repository/GC/Safety.lean  —  executing a plan removes nothing that is needed.

  The catalog is read as a holding of blob handles by packs, in which the
  delete-pending packs are doomed.  Each operation of a pass keeps the reached
  handles covered, so a physical removal never takes the only copy of one.
-/
import Vaultic.Lib.Coverage
import Vaultic.Repository.GC.Execute

set_option autoImplicit false

namespace Vaultic.Repository

open Vaultic.Lib Vaultic.Schema Vaultic.Daemon

/-- The catalog as a holding: packs hold the handles located in them, and a
delete-pending pack is doomed. -/
def holding (store : SchemaStore) : Holding BlobHandle ID where
  holds := Located store
  doomed pack := lifecycleOf store pack = some .deletePending

/-- The removal of a pack from this catalog takes no live handle's only location. -/
def RemovalSafe (live : Finset BlobHandle) (removal : Removal) : Prop :=
  ∀ handle ∈ live, Located removal.store handle removal.pack →
    ∃ other, other ≠ removal.pack ∧ Located removal.store handle other

/-- A pack may be removed: it is doomed, or it holds nothing any more. -/
def Removable (store : SchemaStore) (pack : ID) : Prop :=
  (holding store).doomed pack ∨ ∀ handle, ¬Located store handle pack

/-- The plan does something with the pack. -/
def GCPlan.Names (plan : GCPlan) (pack : ID) : Prop :=
  pack ∈ plan.retryPacks ∨ pack ∈ plan.mixedPacks ∨ pack ∈ plan.wholePacks

/-- What holds throughout a pass that was planned on the store `planned`. -/
structure PassInvariant (planned : SchemaStore) (live : Finset BlobHandle) (plan : GCPlan)
    (world : World) : Prop where
  covers : (holding world.store).Covers live
  /-- Nothing is added to a pack the plan names. -/
  shrinks : ∀ handle pack, plan.Names pack → Located world.store handle pack →
    Located planned handle pack
  retries : ∀ pack ∈ plan.retryPacks, Removable world.store pack
  removals : ∀ removal ∈ world.removals, RemovalSafe live removal

variable {live : Finset BlobHandle} {planned store store' : SchemaStore} {plan : GCPlan}
  {world : World} {env : ExecuteEnv} {phase : Phase} {pack other : ID} {members : List ID}

theorem Removable.safe {time : Int} (h : Removable store pack)
    (hcovers : (holding store).Covers live) : RemovalSafe live ⟨pack, store, time⟩ := by
  intro handle hlive hlocated
  rcases h with hdoomed | hempty
  · exact hcovers.heldElsewhere hdoomed hlive
  · exact absurd hlocated (hempty handle)

/-! ## Stores that agree on the catalog -/

theorem Covers.of_sameCatalog (hsame : SameCatalog store store') (h : (holding store).Covers live) :
    (holding store').Covers live := by
  refine h.of_kept fun handle _ pack hholds hstays => ⟨?_, ?_⟩
  · exact (located_congr (hsame.blobs handle.id)).mpr hholds
  · intro hdoomed
    exact hstays ((hsame.lifecycles pack).symm.trans hdoomed)

/-- A pack stays removable as long as nothing is added to it. -/
theorem Removable.mono (h : Removable store pack)
    (hdoomed : lifecycleOf store pack = some .deletePending →
      lifecycleOf store' pack = some .deletePending)
    (hlocated : ∀ handle, Located store' handle pack → Located store handle pack) :
    Removable store' pack :=
  h.imp hdoomed fun hempty handle hin => hempty handle (hlocated handle hin)

theorem PassInvariant.of_sameCatalog (h : PassInvariant planned live plan world)
    (hsame : SameCatalog world.store store) :
    PassInvariant planned live plan { world with store } where
  covers := Covers.of_sameCatalog hsame h.covers
  shrinks handle pack hplan hlocated :=
    h.shrinks handle pack hplan ((located_congr (hsame.blobs handle.id)).mp hlocated)
  retries pack hpack := (h.retries pack hpack).mono (hsame.lifecycles pack).trans
    fun handle => (located_congr (hsame.blobs handle.id)).mp
  removals := h.removals

variable {now : Int} {limits : Limits}

theorem sameCatalog_recordPackEvents {events : List PackEvent}
    (h : recordPackEvents limits now events store = .ok store') : SameCatalog store store' := by
  obtain ⟨mutations, hmutations, h⟩ := of_bind h
  rw [writeTransactionBatches_eq h, Table.deleteAll_nil]
  exact (bookkeeping_of_history hmutations).sameCatalog

theorem PassInvariant.attempt_sameCatalog (h : PassInvariant planned live plan world)
    (outcome : Outcome) {operation : SchemaStore → Result SchemaStore}
    (hsame : ∀ store, operation world.store = .ok store → SameCatalog world.store store) :
    PassInvariant planned live plan (world.attempt outcome operation).2 :=
  attempt_rule h fun store hrun => h.of_sameCatalog (hsame store hrun)

/-! ## One pack -/

section Pass

variable (h : PassInvariant planned live plan world)
include h

section

variable (hremovable : Removable world.store pack)
include hremovable

/-- Removing the object of a removable pack is logged as a safe removal. -/
theorem PassInvariant.removed :
    PassInvariant planned live plan
      { world with
        objects := world.objects.erase pack
        removals := world.removals ++ [⟨pack, world.store, now⟩] } where
  covers := h.covers
  shrinks := h.shrinks
  retries := h.retries
  removals := List.forall_mem_append.mpr
    ⟨h.removals, List.forall_mem_singleton.mpr (hremovable.safe h.covers)⟩

variable (hmembers : pack ∈ plan.retryPacks →
  ∀ handle, Located world.store handle pack → handle.id ∈ members)
include hmembers

/-- Purging a removable pack keeps the invariant. -/
theorem PassInvariant.purge
    (hrun : markPackDeleted limits now world.store pack members = .ok store) :
    PassInvariant planned live plan { world with store } where
  covers := by
    refine h.covers.of_kept fun handle _ other hholds hstays => ?_
    have hother : other ≠ pack := by
      rintro rfl
      rcases hremovable with hdoomed | hempty
      · exact hstays hdoomed
      · exact hempty handle hholds
    refine ⟨(located_markPackDeleted hrun).mpr ⟨hholds, fun hgone => hother hgone.1⟩, ?_⟩
    intro hdoomed
    refine hstays ?_
    have hlifecycle := lifecycleOf_markPackDeleted hrun other
    rw [if_neg hother] at hlifecycle
    exact hlifecycle.symm.trans hdoomed
  shrinks handle other hplan hlocated :=
    h.shrinks handle other hplan ((located_markPackDeleted hrun).mp hlocated).1
  retries other hother := by
    by_cases heq : other = pack
    · subst heq
      refine .inr fun handle hlocated => ?_
      obtain ⟨hbefore, hkept⟩ := (located_markPackDeleted hrun).mp hlocated
      exact hkept ⟨rfl, hmembers hother handle hbefore⟩
    · refine (h.retries other hother).mono ?_ fun handle hlocated =>
        ((located_markPackDeleted hrun).mp hlocated).1
      rw [lifecycleOf_markPackDeleted hrun, if_neg heq]
      exact id
  removals := h.removals

/-- `deletePackObjectAndCatalog` on a removable pack. -/
theorem PassInvariant.delete : PassInvariant planned live plan
      (deletePackObjectAndCatalog env phase pack members world).2 := by
  refine delete_rule h (fun _ => h.removed hremovable) ?_
  intro after store hafter hstore _ hrun
  rw [← hstore] at hremovable hmembers hrun
  exact hafter.purge hremovable hmembers hrun

end

theorem PassInvariant.recordFailure (env : ExecuteEnv) (phase : Phase) (pack : ID) :
    PassInvariant planned live plan (recordDeleteFailure env plan phase pack world) :=
  h.attempt_sameCatalog _ fun _ => sameCatalog_recordPackEvents

/-- One retried deletion. -/
theorem PassInvariant.retryPack (hretry : pack ∈ plan.retryPacks)
    (hmembers : ∀ handle, Located planned handle pack → handle.id ∈ members) :
    PassInvariant planned live plan (retryPack env plan world pack members).2 := by
  apply retryPack_rule h
  · exact fun after hafter => hafter.recordFailure env .retry pack
  · intro _
    refine h.delete (h.retries pack hretry) fun _ handle hlocated => ?_
    exact hmembers handle (h.shrinks handle pack (.inl hretry) hlocated)

variable (helse : ∀ handle ∈ live, Located world.store handle pack →
  ∃ other, other ≠ pack ∧ Located world.store handle other ∧
    lifecycleOf world.store other ≠ some .deletePending)
include helse

/-- Marking a pack whose live handles are held by packs that stay. -/
theorem PassInvariant.mark
    (hrun : markPackDeletePending now world.store pack = .ok store) :
    PassInvariant planned live plan { world with store } := by
  obtain ⟨hblobs, hpending, hothers, -⟩ := markPackDeletePending_spec hrun
  have hlocated : ∀ handle other,
      Located store handle other ↔ Located world.store handle other :=
    fun handle other => located_congr (hblobs handle.id)
  refine ⟨?_, ?_, ?_, h.removals⟩
  · refine h.covers.doom (k := pack) (fun handle other => (hlocated handle other).mpr) ?_ helse
    intro other hne hstays hdoomed
    exact hstays ((hothers other hne).symm.trans hdoomed)
  · intro handle other hplan hin
    exact h.shrinks handle other hplan ((hlocated handle other).mp hin)
  · intro other hother
    by_cases heq : other = pack
    · subst heq
      exact .inl hpending
    · exact (h.retries other hother).mono (hothers other heq).trans
        fun handle => (hlocated handle other).mp

/-- One pack of the loops that mark and then delete. -/
theorem PassInvariant.markAndDelete (hretry : pack ∉ plan.retryPacks) :
    PassInvariant planned live plan (markAndDelete env plan phase world pack members).2 := by
  apply markAndDelete_rule h
  · exact fun after hafter => hafter.recordFailure env phase pack
  intro store hrun
  have hmarked := h.mark helse hrun
  refine ⟨hmarked, fun _ => hmarked.delete ?_ fun hin => absurd hin hretry⟩
  exact .inl (markPackDeletePending_spec hrun).2.1

end Pass

/-! ## Packs a loop does not name -/

theorem mem_packEntries {table : Table ID (List ID)} {entry : ID × List ID}
    (h : entry ∈ packEntries table) : table.lookup entry.1 = some entry.2 := by
  obtain ⟨found, hfound, rfl⟩ := List.mem_map.mp h
  exact Table.mem_entries_iff.mp hfound

/-- A pack holds the same handles under the same lifecycle in both stores. -/
structure SamePack (store store' : SchemaStore) (pack : ID) : Prop where
  located : ∀ handle, Located store' handle pack ↔ Located store handle pack
  lifecycle : lifecycleOf store' pack = lifecycleOf store pack

theorem SamePack.kept {handle : BlobHandle} (h : SamePack store store' pack)
    (hlocated : Located store handle pack) (hlife : lifecycleOf store pack ≠ some .deletePending) :
    Located store' handle pack ∧ lifecycleOf store' pack ≠ some .deletePending :=
  ⟨(h.located handle).mpr hlocated, h.lifecycle ▸ hlife⟩

theorem SamePack.refl (store : SchemaStore) (pack : ID) : SamePack store store pack :=
  ⟨fun _ => Iff.rfl, rfl⟩

theorem SamePack.trans {a b c : SchemaStore} (hab : SamePack a b pack)
    (hbc : SamePack b c pack) : SamePack a c pack :=
  ⟨fun handle => (hbc.located handle).trans (hab.located handle),
    hbc.lifecycle.trans hab.lifecycle⟩

theorem SameCatalog.samePack (h : SameCatalog store store')
    (pack : ID) : SamePack store store' pack :=
  ⟨fun handle => located_congr (h.blobs handle.id), h.lifecycles pack⟩

theorem samePack_attempt {outcome : Outcome}
    {operation : SchemaStore → Result SchemaStore}
    (h : ∀ store, operation world.store = .ok store → SamePack world.store store pack) :
    SamePack world.store (world.attempt outcome operation).2.store pack :=
  attempt_rule (P := fun after => SamePack world.store after.store pack) (.refl _ _) h

theorem samePack_recordFailure :
    SamePack world.store (recordDeleteFailure env plan phase pack world).store other :=
  samePack_attempt fun _ hrun => SameCatalog.samePack (sameCatalog_recordPackEvents hrun) other

section

variable (hne : other ≠ pack)
include hne

theorem samePack_markPackDeletePending
    (h : markPackDeletePending now store pack = .ok store') : SamePack store store' other := by
  obtain ⟨hblobs, -, hothers, -⟩ := markPackDeletePending_spec h
  exact ⟨fun handle => located_congr (hblobs handle.id), hothers other hne⟩

theorem samePack_markPackDeleted
    (h : markPackDeleted limits now store pack members = .ok store') :
    SamePack store store' other := by
  refine ⟨fun handle => ?_, ?_⟩
  · rw [located_markPackDeleted h]
    simp [hne]
  · rw [lifecycleOf_markPackDeleted h, if_neg hne]

theorem samePack_delete (members : List ID) (world : World) :
    SamePack world.store (deletePackObjectAndCatalog env phase pack members world).2.store
      other := by
  apply delete_rule (P := fun after => SamePack world.store after.store other) (.refl _ _)
  · exact fun _ => .refl _ _
  · exact fun _ _ _ _ _ => samePack_markPackDeleted hne

/-- Marking and deleting one pack leaves the others alone. -/
theorem samePack_markAndDelete (members : List ID) (world : World) :
    SamePack world.store (markAndDelete env plan phase world pack members).2.store other := by
  apply markAndDelete_rule (P := fun after => SamePack world.store after.store other) (.refl _ _)
  · exact fun _ hafter => hafter.trans samePack_recordFailure
  intro store hrun
  have hmarked := samePack_markPackDeletePending hne hrun
  exact ⟨hmarked, fun _ => hmarked.trans (samePack_delete hne members { world with store })⟩

theorem samePack_retryPack (members : List ID) (world : World) :
    SamePack world.store (retryPack env plan world pack members).2.store other := by
  apply retryPack_rule (P := fun after => SamePack world.store after.store other) (.refl _ _)
  · exact fun _ hafter => hafter.trans samePack_recordFailure
  · exact fun _ => samePack_delete hne members world

end

/-- Retrying leaves alone what the plan does not retry. -/
theorem samePack_retryPending (env : ExecuteEnv) (world : World)
    (hother : other ∉ plan.retryPacks) :
    SamePack world.store
      (forPacks (retryPack env plan) (packEntries plan.retryPacks) world).2.store other := by
  apply forPacks_induct (P := fun after => SamePack world.store after.store other) _ (.refl _ _)
  intro entry hentry after hafter
  refine hafter.trans (samePack_retryPack ?_ entry.2 after)
  rintro rfl
  exact hother (Table.mem_iff_lookup.mpr ⟨_, mem_packEntries hentry⟩)

/-! ## Uploads -/

/-- The handle is in a pack that stays and that the plan does not name. -/
def Rescued (plan : GCPlan) (store : SchemaStore) (handle : BlobHandle) : Prop :=
  ∃ pack, ¬plan.Names pack ∧ Located store handle pack ∧
    lifecycleOf store pack ≠ some .deletePending

/-- Filling packs the plan does not name keeps the invariant. -/
theorem PassInvariant.of_copyFrame {packs : List PublishedPack} {after : World}
    (h : PassInvariant planned live plan world) (hframe : CopyFrame packs world.store after.store)
    (hremovals : after.removals = world.removals)
    (hnew : ∀ published ∈ packs, ¬plan.Names published.packID) :
    PassInvariant planned live plan after := by
  have hnamed : ∀ handle pack, plan.Names pack → Located after.store handle pack →
      Located world.store handle pack := by
    intro handle pack hname hin
    rcases hframe.origin handle pack hin with hold | ⟨published, hmem, rfl, -⟩
    · exact hold
    · exact absurd hname (hnew published hmem)
  refine ⟨?_, ?_, ?_, ?_⟩
  · refine h.covers.of_kept fun handle _ pack hholds hstays => ?_
    exact ⟨hframe.grows handle pack hholds, fun hd => hstays ((hframe.doomed pack).mp hd)⟩
  · intro handle pack hname hin
    exact h.shrinks handle pack hname (hnamed handle pack hname hin)
  · intro pack hretry
    exact (h.retries pack hretry).mono (hframe.doomed pack).mpr
      fun handle => hnamed handle pack (.inl hretry)
  · rw [hremovals]
    exact h.removals

/-- A copy keeps the invariant, and one that left nothing over has rescued every
live handle of the packs to repack. -/
theorem copyLiveBlobs_spec
    (h : PassInvariant planned live plan world)
    (hfresh : ∀ upload ∈ env.copy.uploads, ¬plan.Names upload.1.packID ∧
      lifecycleOf world.store upload.1.packID ≠ some .deletePending) :
    PassInvariant planned live plan (copyLiveBlobs env plan world).2 ∧
      ((copyLiveBlobs env plan world).1 = .ok () → ∀ handle ∈ repackKeep plan,
        Rescued plan (copyLiveBlobs env plan world).2.store handle) := by
  have hnever : ∀ {message : String}, (.error message : Result Unit) ≠ .ok () :=
    fun heq => by cases heq
  have hpacks : ∀ published ∈ (env.copy.packs (repackKeep plan)).map (·.1),
      ¬plan.Names published.packID ∧
        lifecycleOf world.store published.packID ≠ some .deletePending := by
    intro published hmem
    obtain ⟨upload, hupload, heq⟩ := mem_packs_map.mp hmem
    rw [← heq]
    exact hfresh upload hupload
  obtain ⟨hframe, hremovals, hcarried⟩ := copyBlobs_spec env.limits (env.clock .repack 0) env.copy
    (repackKeep plan) world
  have hinv := h.of_copyFrame hframe hremovals fun published hmem => (hpacks published hmem).1
  unfold copyLiveBlobs
  generalize copyBlobs _ _ _ _ _ = copied at hinv hframe hcarried ⊢
  obtain ⟨_ | remaining, after⟩ := copied
  · exact ⟨hinv, fun hok => absurd hok hnever⟩
  dsimp only
  split
  · rename_i hnone
    refine ⟨hinv, fun _ handle hkeep => ?_⟩
    have hcopied : handle ∉ remaining := by
      rw [hnone]
      exact Finset.notMem_empty handle
    obtain ⟨published, hmem, -, hlocated⟩ := hcarried remaining rfl handle hkeep hcopied
    obtain ⟨hname, hstays⟩ := hpacks published hmem
    exact ⟨published.packID, hname, hlocated, fun hd => hstays ((hframe.doomed _).mp hd)⟩
  · exact ⟨hinv, fun hok => absurd hok hnever⟩

/-! ## The pass -/

/-- What a plan must say about the store it was made on for its execution to be
safe. -/
structure PlanSafe (planned : SchemaStore) (live : Finset BlobHandle) (plan : GCPlan) : Prop where
  whole : ∀ handle ∈ live, ∀ pack ∈ plan.wholePacks, ¬Located planned handle pack
  mixed : ∀ handle ∈ live, ∀ pack keep, plan.mixedPacks.lookup pack = some keep →
    Located planned handle pack → handle ∈ keep
  retry : ∀ pack members, plan.retryPacks.lookup pack = some members →
    lifecycleOf planned pack = some .deletePending ∧
      ∀ handle, Located planned handle pack → handle.id ∈ members
  scheduled : ∀ pack, pack ∈ plan.mixedPacks ∨ pack ∈ plan.wholePacks →
    lifecycleOf planned pack = some .published

theorem PlanSafe.not_retry (h : PlanSafe planned live plan)
    (hpack : pack ∈ plan.mixedPacks ∨ pack ∈ plan.wholePacks) : pack ∉ plan.retryPacks := by
  intro hretry
  obtain ⟨members, hlook⟩ := Table.mem_iff_lookup.mp hretry
  have hboth := (h.scheduled pack hpack).symm.trans (h.retry pack members hlook).1
  simp at hboth

/-- A pack the plan names has a record in the catalog. -/
theorem PlanSafe.recorded (h : PlanSafe planned live plan) (hname : plan.Names pack) :
    lifecycleOf planned pack ≠ none := by
  rcases hname with hretry | hscheduled
  · obtain ⟨members, hlook⟩ := Table.mem_iff_lookup.mp hretry
    simp [(h.retry pack members hlook).1]
  · simp [h.scheduled pack hscheduled]

theorem mem_foldl_union {handle : BlobHandle}
    {entries : List (Sigma fun _ : ID => Finset BlobHandle)} {acc : Finset BlobHandle} :
    handle ∈ entries.foldl (fun acc entry => acc ∪ entry.2) acc ↔
      handle ∈ acc ∨ ∃ entry ∈ entries, handle ∈ entry.2 := by
  induction entries generalizing acc with
  | nil => simp
  | cons entry rest ih =>
    rw [List.foldl_cons, ih, Finset.mem_union]
    simp [or_assoc]

section

variable (hplan : PlanSafe planned live plan) (h : PassInvariant planned live plan world)
include hplan h

theorem PassInvariant.retryPending (env : ExecuteEnv) :
    PassInvariant planned live plan
      (forPacks (Repository.retryPack env plan) (packEntries plan.retryPacks) world).2 := by
  refine forPacks_induct (fun entry hentry world hworld => ?_) h
  have hlook := mem_packEntries hentry
  have hretry : entry.1 ∈ plan.retryPacks := Table.mem_iff_lookup.mpr ⟨_, hlook⟩
  exact hworld.retryPack hretry (hplan.retry entry.1 entry.2 hlook).2

theorem PassInvariant.sweep (env : ExecuteEnv) :
    PassInvariant planned live plan
      (forPacks (Repository.markAndDelete env plan .whole) (packEntries plan.wholePacks)
        world).2 := by
  refine forPacks_induct (fun entry hentry world hworld => ?_) h
  have hwhole : entry.1 ∈ plan.wholePacks :=
    Table.mem_iff_lookup.mpr ⟨_, mem_packEntries hentry⟩
  refine hworld.markAndDelete ?_ (hplan.not_retry (.inr hwhole))
  intro handle hlive hin
  exact absurd (hworld.shrinks handle entry.1 (.inr (.inr hwhole)) hin)
    (hplan.whole handle hlive entry.1 hwhole)

/-- Once the live handles are copied, the repacked sources can go one by one: the
copies are in packs the plan does not name, which the loop leaves alone. -/
theorem PassInvariant.dropRepacked (env : ExecuteEnv)
    (hrescued : ∀ handle ∈ repackKeep plan, Rescued plan world.store handle) :
    PassInvariant planned live plan
      (forPacks (Repository.markAndDelete env plan .repack)
        (plan.mixedPacks.keys.map fun pack =>
          (pack, (plan.mixedPackMembers.lookup pack).getD [])) world).2 := by
  have hloop := @forPacks_induct (Repository.markAndDelete env plan .repack)
    (plan.mixedPacks.keys.map fun pack => (pack, (plan.mixedPackMembers.lookup pack).getD []))
    (fun world => PassInvariant planned live plan world ∧
      ∀ handle ∈ repackKeep plan, Rescued plan world.store handle) ?_ world ⟨h, hrescued⟩
  · exact hloop.1
  rintro entry hentry world ⟨hworld, hsafe⟩
  obtain ⟨pack, hpack, rfl⟩ := List.mem_map.mp hentry
  have hmixed : pack ∈ plan.mixedPacks := AList.mem_keys.mp hpack
  have hnames : plan.Names pack := .inr (.inl hmixed)
  obtain ⟨keep, hlook⟩ := Table.mem_iff_lookup.mp hmixed
  refine ⟨hworld.markAndDelete ?_ (hplan.not_retry (.inl hmixed)), ?_⟩
  · intro handle hlive hin
    have hkeep := hplan.mixed handle hlive pack keep hlook (hworld.shrinks handle pack hnames hin)
    obtain ⟨other, hnot, hloc, hlife⟩ := hsafe handle
      (mem_foldl_union.mpr (.inr ⟨⟨pack, keep⟩, Table.mem_entries_iff.mpr hlook, hkeep⟩))
    exact ⟨other, fun heq => hnot (heq ▸ hnames), hloc, hlife⟩
  · intro handle hkeep
    obtain ⟨other, hnot, hloc, hlife⟩ := hsafe handle hkeep
    refine ⟨other, hnot, (samePack_markAndDelete ?_ _ world) |>.kept hloc hlife⟩
    exact fun heq => hnot (heq ▸ hnames)

theorem PassInvariant.repack (env : ExecuteEnv)
    (hfresh : ∀ upload ∈ env.copy.uploads, ¬plan.Names upload.1.packID ∧
      lifecycleOf world.store upload.1.packID ≠ some .deletePending) :
    PassInvariant planned live plan (repackMixedPacks env plan world).2 := by
  obtain ⟨hcopied, hrescued⟩ := copyLiveBlobs_spec h hfresh
  unfold repackMixedPacks
  split
  · exact h
  generalize copyLiveBlobs env plan world = copied at hcopied hrescued ⊢
  obtain ⟨_ | _, after⟩ := copied
  · exact hcopied
  refine PassInvariant.dropRepacked hplan
    (hcopied.attempt_sameCatalog _ fun _ => sameCatalog_recordPackEvents) env ?_
  intro handle hkeep
  obtain ⟨pack, hnot, hloc, hlife⟩ := hrescued rfl handle hkeep
  refine ⟨pack, hnot, SamePack.kept (samePack_attempt fun _ hrec => ?_) hloc hlife⟩
  exact SameCatalog.samePack (sameCatalog_recordPackEvents hrec) pack

/-- Executing a safe plan keeps the invariant whatever fails on the way, provided
the packs it uploads are new. -/
theorem PassInvariant.execute (env : ExecuteEnv)
    (hfresh : ∀ upload ∈ env.copy.uploads, lifecycleOf planned upload.1.packID = none ∧
      lifecycleOf world.store upload.1.packID = none) :
    PassInvariant planned live plan (execute env plan world).2 := by
  have hnew : ∀ upload ∈ env.copy.uploads, ¬plan.Names upload.1.packID :=
    fun upload hin hname => hplan.recorded hname (hfresh upload hin).1
  unfold Repository.execute
  split
  · exact h
  split
  · exact h
  · exact h
  have hretried := PassInvariant.retryPending hplan h env
  have hsame := fun upload hin => samePack_retryPending env world
    fun hretry => hnew upload hin (.inl hretry)
  generalize forPacks _ _ world = retried at hretried hsame ⊢
  obtain ⟨_ | _, after⟩ := retried
  · exact hretried
  have hrepacked := PassInvariant.repack hplan hretried env fun upload hin => by
    refine ⟨hnew upload hin, ?_⟩
    rw [(hsame upload hin).lifecycle, (hfresh upload hin).2]
    simp
  dsimp only
  generalize repackMixedPacks env plan after = repacked at hrepacked ⊢
  obtain ⟨_ | _, final⟩ := repacked
  · exact hrepacked
  · exact PassInvariant.sweep hplan hrepacked env

end

end Vaultic.Repository
