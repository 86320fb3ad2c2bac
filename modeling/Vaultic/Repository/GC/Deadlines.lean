/-
  Repository/GC/Deadlines.lean  —  no pack is removed before the deadlines of its placements.

  Source: internal/repository/gc.go (`packReadyForPhysicalDeletion` and its callers),
  internal/index/daemon/schema_store_import.go (`markPackDeletePendingOnce`).

  A pack that is marked delete-pending gets a deadline for each of its live and pending
  placements.  Whatever backups, forgets and collections follow, the object is there only
  together with these deadlines, and each removal in the log has a time at which all of them
  had passed (`removed_after_deadlines`).  The deadline of a placement that is evicted
  already does not count (`removed_before_evicted`): its copy is gone.
-/
import Vaultic.Daemon.Evictions
import Vaultic.Repository.GC.Run

set_option autoImplicit false

namespace Vaultic.Repository

open Vaultic.Lib Vaultic.Schema Vaultic.Daemon

variable {pack other : ID} {now : Int} {limits : Limits} {deadlines : Nat → Int → Prop}
  {uploads : List (PublishedPack × Outcome)} {phase : Phase} {env : ExecuteEnv}
  {plan : GCPlan} {members : List ID}

/-- A pack that is ready has no evicting placement whose deadline is ahead. -/
theorem deadline_le_of_ready {store : SchemaStore}
    (h : packReadyForPhysicalDeletion now store pack = .ok true) {backend : Nat} {deadline : Int}
    (hevicting : EvictingAt store pack backend deadline) : deadline ≤ now := by
  obtain ⟨placements, hplacements, h⟩ := of_bind h
  obtain ⟨placement, hstored, hstate, rfl⟩ := hevicting
  have hmem : (backend, placement) ∈ placements := by
    refine (Table.mem_collectBy_iff (Key.packPlacement pack) hplacements ?_
      unmarshalPlacementRecord_eq_ok fun _ _ => Value.placement.inj).mpr hstored
    intro key backend
    cases key <;> simp
  have hall := List.all_eq_true.mp (Except.ok.inj h) (backend, placement)
    (List.mem_filter.mpr ⟨hmem, decide_eq_true hstate⟩)
  exact of_decide_eq_true hall

theorem keepsEvicting_recordPackEvents {events : List PackEvent}
    {store store' : SchemaStore} (h : recordPackEvents limits now events store = .ok store') :
    KeepsEvicting pack store store' := by
  obtain ⟨mutations, hmutations, h⟩ := of_bind h
  rw [writeTransactionBatches_eq h, Table.deleteAll_nil]
  exact (bookkeeping_of_history hmutations).keepsEvicting

/-! ## One pass -/

/-- The object is there only with all its deadlines, and every logged removal of the pack
came after them. -/
structure Guarded (pack : ID) (deadlines : Nat → Int → Prop) (world : World) : Prop where
  evicting : pack ∈ world.objects → ∀ backend deadline, deadlines backend deadline →
    EvictingAt world.store pack backend deadline
  removals : ∀ removal ∈ world.removals, removal.pack = pack →
    ∀ backend deadline, deadlines backend deadline → deadline ≤ removal.time

section

variable {world after : World} (h : Guarded pack deadlines world)
include h

theorem Guarded.of_keeps (hobjects : pack ∈ after.objects → pack ∈ world.objects)
    (hkeeps : KeepsEvicting pack world.store after.store)
    (hremovals : ∀ removal ∈ after.removals, removal.pack = pack → removal ∈ world.removals) :
    Guarded pack deadlines after where
  evicting hmem backend deadline hdeadline :=
    hkeeps backend deadline (h.evicting (hobjects hmem) backend deadline hdeadline)
  removals removal hin hpack := h.removals removal (hremovals removal hin hpack) hpack

/-- A change of the store alone. -/
theorem Guarded.of_store {store : SchemaStore} (hkeeps : KeepsEvicting pack world.store store) :
    Guarded pack deadlines { world with store } :=
  h.of_keeps id hkeeps fun _ hin _ => hin

theorem Guarded.attempt {outcome : Outcome} {operation : SchemaStore → Result SchemaStore}
    (hkeeps : ∀ store, operation world.store = .ok store →
      KeepsEvicting pack world.store store) :
    Guarded pack deadlines (world.attempt outcome operation).2 :=
  attempt_rule h fun store hrun => h.of_store (hkeeps store hrun)

theorem Guarded.recordFailure :
    Guarded pack deadlines (recordDeleteFailure env plan phase other world) :=
  h.attempt fun _ => keepsEvicting_recordPackEvents

/-- A pack that is found ready may be removed. -/
theorem Guarded.delete_ready (members : List ID)
    (hready : packReadyForPhysicalDeletion (env.clock phase other) world.store other = .ok true) :
    Guarded pack deadlines (deletePackObjectAndCatalog env phase other members world).2 := by
  apply delete_rule h
  · intro hmem
    refine ⟨fun hin => h.evicting (Finset.mem_of_mem_erase hin), ?_⟩
    refine List.forall_mem_append.mpr ⟨h.removals, List.forall_mem_singleton.mpr ?_⟩
    rintro rfl backend deadline hdeadline
    exact deadline_le_of_ready hready (h.evicting hmem backend deadline hdeadline)
  · intro after store hafter hstore hgone hrun
    by_cases hother : other = pack
    · exact ⟨fun hmem => absurd hmem (hother ▸ hgone), hafter.removals⟩
    · rw [← hstore] at hrun
      exact hafter.of_store (keepsEvicting_markPackDeleted hother hrun)

theorem Guarded.publishUploads (hnew : ∀ upload ∈ uploads, upload.1.packID ≠ pack) :
    Guarded pack deadlines (publishUploads limits now uploads world).2 := by
  induction uploads generalizing world with
  | nil => exact h
  | cons upload rest ih =>
    obtain ⟨published, outcome⟩ := upload
    have hother : published.packID ≠ pack := hnew _ (.head _)
    have huploaded : Guarded pack deadlines
        { world with objects := insert published.packID world.objects } := by
      refine h.of_keeps ?_ (.refl pack world.store) fun _ hin _ => hin
      simp [Ne.symm hother]
    have hpublished : Guarded pack deadlines
        (World.attempt { world with objects := insert published.packID world.objects } outcome
          fun store => publishPack limits now store published).2 :=
      huploaded.attempt fun store => keepsEvicting_publishPack hother
    unfold Repository.publishUploads
    dsimp only
    generalize World.attempt _ _ _ = attempted at hpublished ⊢
    obtain ⟨_ | _, after⟩ := attempted
    · exact hpublished
    · exact ih hpublished fun other hin => hnew other (.tail _ hin)

/-- Acknowledging published packs. -/
theorem Guarded.acknowledge {outcome : Outcome} {packs : List ID} :
    Guarded pack deadlines (world.attempt outcome fun store =>
      markPacksPublished limits now store packs).2 :=
  h.attempt fun _ hrun => .of_lookup fun _ => lookup_markPacksPublished hrun rfl nofun

theorem Guarded.copyBlobs {copy : CopyEnv} {keep : Finset BlobHandle}
    (hnew : ∀ upload ∈ copy.uploads, upload.1.packID ≠ pack) :
    Guarded pack deadlines (copyBlobs limits now copy keep world).2 := by
  have hpacks : ∀ upload ∈ copy.packs keep, upload.1.packID ≠ pack := by
    intro upload hupload
    obtain ⟨source, hsource, rfl⟩ := List.mem_map.mp hupload
    exact hnew source hsource
  have huploads : Guarded pack deadlines
      (Repository.publishUploads limits now (copy.packs keep) world).2 := h.publishUploads hpacks
  unfold Repository.copyBlobs
  generalize Repository.publishUploads _ _ _ _ = uploaded at huploads ⊢
  obtain ⟨_ | _, after⟩ := uploaded
  · exact huploads
  have hacknowledged : Guarded pack deadlines
      (after.attempt copy.acknowledge fun store =>
        markPacksPublished limits now store ((copy.packs keep).map (·.1.packID))).2 :=
    huploads.acknowledge
  dsimp only
  generalize World.attempt _ _ _ = attempted at hacknowledged ⊢
  obtain ⟨_ | _, final⟩ := attempted
  · exact hacknowledged
  · dsimp only
    split <;> exact hacknowledged

theorem Guarded.retryPack (other : ID) (members : List ID) :
    Guarded pack deadlines (retryPack env plan world other members).2 := by
  apply retryPack_rule h
  · exact fun after hafter => hafter.recordFailure
  · exact h.delete_ready members

theorem Guarded.markAndDelete (phase : Phase) (other : ID) (members : List ID) :
    Guarded pack deadlines (markAndDelete env plan phase world other members).2 := by
  apply markAndDelete_rule h
  · exact fun after hafter => hafter.recordFailure
  intro store hrun
  have hmarked : Guarded pack deadlines { world with store } :=
    h.of_store (keepsEvicting_markPackDeletePending hrun)
  exact ⟨hmarked, hmarked.delete_ready members⟩

variable (hnew : ∀ upload ∈ env.copy.uploads, upload.1.packID ≠ pack)
include hnew

theorem Guarded.repackMixedPacks : Guarded pack deadlines (repackMixedPacks env plan world).2 := by
  have hcopied : Guarded pack deadlines (copyLiveBlobs env plan world).2 := by
    have hcopy : Guarded pack deadlines
        (Repository.copyBlobs env.limits (env.clock .repack 0) env.copy (repackKeep plan)
          world).2 := h.copyBlobs hnew
    unfold copyLiveBlobs
    generalize Repository.copyBlobs _ _ _ _ _ = copied at hcopy ⊢
    obtain ⟨_ | remaining, after⟩ := copied
    · exact hcopy
    · dsimp only
      split <;> exact hcopy
  unfold Repository.repackMixedPacks
  split
  · exact h
  generalize copyLiveBlobs env plan world = copied at hcopied ⊢
  obtain ⟨_ | _, after⟩ := copied
  · exact hcopied
  apply forPacks_induct
  · intro entry hentry reached hreached
    exact hreached.markAndDelete .repack entry.1 entry.2
  · exact hcopied.attempt fun _ => keepsEvicting_recordPackEvents

/-- A pass keeps the pack guarded. -/
theorem Guarded.execute : Guarded pack deadlines (execute env plan world).2 := by
  have hretried : Guarded pack deadlines
      (forPacks (Repository.retryPack env plan) (packEntries plan.retryPacks) world).2 := by
    apply forPacks_induct
    · intro entry hentry reached hreached
      exact hreached.retryPack entry.1 entry.2
    · exact h
  unfold Repository.execute
  split
  · exact h
  split
  · exact h
  · exact h
  generalize forPacks _ _ world = retried at hretried ⊢
  obtain ⟨_ | _, after⟩ := retried
  · exact hretried
  have hrepacked : Guarded pack deadlines (Repository.repackMixedPacks env plan after).2 :=
    hretried.repackMixedPacks hnew
  dsimp only
  generalize Repository.repackMixedPacks env plan after = repacked at hrepacked ⊢
  obtain ⟨_ | _, final⟩ := repacked
  · exact hrepacked
  apply forPacks_induct
  · intro entry hentry reached hreached
    exact hreached.markAndDelete .whole entry.1 entry.2
  · exact hrepacked

end

/-- Planning keeps the evicting placements. -/
theorem keepsEvicting_planGC (env : GCEnv) (opts : GCOptions) (store : SchemaStore) (pack : ID) :
    KeepsEvicting pack store (planGC env opts store).2 := by
  obtain hsame | ⟨decision, hdecision, hafter⟩ := store_planGC env opts store
  · rw [hsame]
    exact .refl pack store
  · rw [hafter]
    exact (bookkeeping_decideGC hdecision).keepsEvicting.trans
      (.of_lookup fun _ => lookup_updatePackUsage rfl _ _)

/-! ## Runs -/

/-- The packs that an action uploads. -/
def Action.uploaded : Action → List ID
  | .backup job => job.uploads.map (·.1.packID)
  | .forget _ => []
  | .collect _ _ execution => execution.copy.uploads.map (·.1.packID)

/-- The state as the world of a pass that logs to it. -/
def RepoState.world (state : RepoState) : World :=
  ⟨state.store, state.objects, state.removals.map (·.2)⟩

theorem ne_of_notMem_uploaded
    (h : pack ∉ uploads.map (·.1.packID)) : ∀ upload ∈ uploads, upload.1.packID ≠ pack := by
  intro upload hupload heq
  exact h (heq ▸ List.mem_map_of_mem hupload)

section

variable {state : RepoState} (h : Guarded pack deadlines state.world)
include h

theorem Guarded.collect {env : GCEnv} {opts : GCOptions} {execution : ExecuteEnv}
    (hnew : pack ∉ (Action.collect env opts execution).uploaded) :
    Guarded pack deadlines (runCollect state env opts execution).world := by
  have hplanned := keepsEvicting_planGC (passEnv env state) opts state.store pack
  unfold runCollect
  generalize planGC _ _ _ = planned at hplanned ⊢
  obtain ⟨_ | plan, store⟩ := planned
  · exact h.of_store hplanned
  have hstart : Guarded pack deadlines ⟨store, state.objects, []⟩ :=
    h.of_keeps id hplanned nofun
  have hend : Guarded pack deadlines
      (Repository.execute execution plan ⟨store, state.objects, []⟩).2 :=
    hstart.execute (ne_of_notMem_uploaded hnew)
  refine ⟨hend.evicting, ?_⟩
  unfold RepoState.world
  rw [List.map_append, List.map_map]
  refine List.forall_mem_append.mpr ⟨h.removals, ?_⟩
  rw [List.forall_mem_map]
  exact hend.removals

theorem Guarded.backup {job : Backup} (hnew : pack ∉ (Action.backup job).uploaded) :
    Guarded pack deadlines (runBackup state job).world := by
  have hstart : Guarded pack deadlines
      ⟨state.store.putAll (job.edges.map Edge.put), state.objects, []⟩ :=
    h.of_keeps id (bookkeeping_edges job.edges).keepsEvicting nofun
  have huploads : Guarded pack deadlines (Repository.publishUploads job.limits job.now job.uploads
      ⟨state.store.putAll (job.edges.map Edge.put), state.objects, []⟩).2 :=
    hstart.publishUploads (ne_of_notMem_uploaded hnew)
  unfold runBackup
  dsimp only
  generalize Repository.publishUploads _ _ _ _ = uploaded at huploads ⊢
  obtain ⟨_ | _, after⟩ := uploaded
  · exact ⟨huploads.evicting, h.removals⟩
  have hacknowledged : Guarded pack deadlines (after.attempt job.acknowledge fun store =>
      markPacksPublished job.limits job.now store (job.uploads.map (·.1.packID))).2 :=
    huploads.acknowledge
  dsimp only
  generalize World.attempt _ _ _ = attempted at hacknowledged ⊢
  obtain ⟨_ | _, final⟩ := attempted <;> exact ⟨hacknowledged.evicting, h.removals⟩

/-- Actions that do not upload the pack keep it guarded. -/
theorem Guarded.run {actions : List Action} (hnew : ∀ action ∈ actions, pack ∉ action.uploaded) :
    Guarded pack deadlines (run state actions).world := by
  have halong : Along step (fun _ action => pack ∉ action.uploaded) state actions :=
    .of_forall_mem (fun action hin _ => hnew action hin) state
  refine halong.invariant (fun state => Guarded pack deadlines state.world) ?_ h
  intro state action hnew h
  cases action with
  | backup job => exact h.backup hnew
  | forget snapshot => exact h
  | collect env opts execution => exact h.collect hnew

end

/-- The rest of a pass, once a pack was marked in it: more packs to mark and delete. -/
def finishPass (env : ExecuteEnv) (plan : GCPlan) (rest : List (Phase × ID × List ID))
    (world : World) : World :=
  rest.foldl (fun world item => (markAndDelete env plan item.1 world item.2.1 item.2.2).2) world

theorem Guarded.finishPass (rest : List (Phase × ID × List ID)) {world : World}
    (h : Guarded pack deadlines world) : Guarded pack deadlines (finishPass env plan rest world) :=
  run_invariant (Guarded pack deadlines)
    (fun _ item hworld => hworld.markAndDelete item.1 item.2.1 item.2.2) rest h

/-- At the given time the deadlines have passed that the placements of the pack got when it was
marked, and the known retentions of those that were live or pending before. -/
def DeadlinesPassed (store marked : SchemaStore) (pack : ID) (time : Int) : Prop :=
  (∀ backend deadline, EvictingAt marked pack backend deadline → deadline ≤ time) ∧
    ∀ backend placement,
      store.lookup (.packPlacement pack backend) = some (.placement placement) →
      placement.state = .live ∨ placement.state = .pending →
      placement.retentionSource ≠ .unknown → placement.minRetentionUntil ≤ time

theorem deadlinesPassed_of_evicting {markedAt time : Int} {store marked : SchemaStore}
    (hpublished : lifecycleOf store pack = some .published)
    (hmark : markPackDeletePending markedAt store pack = .ok marked)
    (h : ∀ backend deadline, EvictingAt marked pack backend deadline → deadline ≤ time) :
    DeadlinesPassed store marked pack time := by
  refine ⟨h, fun backend placement hstored hstate hknown => ?_⟩
  have hpending : lifecycleOf store pack ≠ some .deletePending := by simp [hpublished]
  obtain ⟨deadline, hevicting, -, hretained⟩ := evicting_of_marked hpending hmark hstored hstate
  exact (hretained hknown).trans (h backend deadline hevicting)

/-- The call that marks the pack guards it with the deadlines it gets. -/
theorem guarded_markAndDelete {world : World} {marked : SchemaStore}
    (hmark : markPackDeletePending (env.clock phase pack) world.store pack = .ok marked)
    (happlied : (env.mark phase pack).applied = true) (hlog : world.removals = []) :
    Guarded pack (EvictingAt marked pack) (markAndDelete env plan phase world pack members).2 := by
  have hmarked : Guarded pack (EvictingAt marked pack) { world with store := marked } :=
    ⟨fun _ _ _ hdeadline => hdeadline, hlog ▸ nofun⟩
  unfold markAndDelete World.attempt
  simp only [hmark, if_pos happlied]
  cases decide (env.mark phase pack = .done) with
  | false => exact hmarked
  | true =>
    dsimp only
    split
    · exact hmarked
    · exact hmarked
    rename_i hready
    have hdeleted := hmarked.delete_ready members hready
    split <;> rename_i after hrun <;> rw [hrun] at hdeleted
    · exact hdeleted
    split
    · exact hdeleted.recordFailure
    · exact hdeleted

/-- Every removal of the pack in the log came at a time at which its deadlines had passed. -/
def RemovedInTime (store marked : SchemaStore) (pack : ID) (log : List Removal) : Prop :=
  ∀ removal ∈ log, removal.pack = pack → DeadlinesPassed store marked pack removal.time

/-- The object of a pack is removed only at a time at which the deadlines of all its evicting
placements have passed: by the call of a pass that marks it, by the rest of that pass and by
any actions that follow, and by any actions after it was marked otherwise.  The log starts
empty.  Packs are named by the hash of their encrypted content, so no later action uploads
the pack again. -/
theorem removed_after_deadlines {pack : ID} {markedAt : Int} {store marked : SchemaStore}
    (hpublished : lifecycleOf store pack = some .published)
    (hmark : markPackDeletePending markedAt store pack = .ok marked) :
    (∀ (env : ExecuteEnv) (plan : GCPlan) (phase : Phase) (members : List ID)
      (rest : List (Phase × ID × List ID)) (world : World) (state : RepoState)
      (actions : List Action),
      env.clock phase pack = markedAt → (env.mark phase pack).applied = true →
      world.store = store → world.removals = [] →
      state.world = finishPass env plan ((phase, pack, members) :: rest) world →
      (∀ action ∈ actions, pack ∉ action.uploaded) →
      RemovedInTime store marked pack (run state actions).world.removals) ∧
    ∀ (state : RepoState) (actions : List Action),
      state.store = marked → state.removals = [] →
      (∀ action ∈ actions, pack ∉ action.uploaded) →
      RemovedInTime store marked pack (run state actions).world.removals := by
  have hpassed : ∀ {state : RepoState} {actions : List Action},
      Guarded pack (EvictingAt marked pack) state.world →
      (∀ action ∈ actions, pack ∉ action.uploaded) →
      RemovedInTime store marked pack (run state actions).world.removals :=
    fun h hnew removal hin hpack =>
      deadlinesPassed_of_evicting hpublished hmark ((h.run hnew).removals removal hin hpack)
  constructor
  · intro env plan phase members rest world state actions hclock happlied hstore hlog hstate hnew
    refine hpassed ?_ hnew
    rw [hstate]
    subst hclock hstore
    exact (guarded_markAndDelete hmark happlied hlog).finishPass rest
  · intro state actions hstore hlog hnew
    subst hstore
    refine hpassed ⟨fun _ _ _ hdeadline => hdeadline, ?_⟩ hnew
    unfold RepoState.world
    rw [hlog]
    nofun

/-! ## Samples -/

/-- The catalog of pack 10 with one placement, on backend 7. -/
def placedStore (placement : PlacementRecord) : SchemaStore :=
  (∅ : SchemaStore).putAll
    [(.pack 10, .pack { type := .data, lifecycle := .published }),
      (.packPlacement 10 7, .placement placement)]

/-- The catalog after the pack was marked at time 10. -/
def markedStore (placement : PlacementRecord) : SchemaStore :=
  match markPackDeletePending 10 (placedStore placement) 10 with
  | .ok marked => marked
  | .error _ => ∅

def markedState (placement : PlacementRecord) : RepoState :=
  { store := markedStore placement, objects := {10} }

def executionAt (time : Int) : ExecuteEnv := executionWith time .done

def collectAt (time : Int) : Action :=
  .collect { limits := sampleLimits, now := time, runID := 0, walk := .ok ∅ } {} (executionAt time)

/-- A live placement that is retained until time 100. -/
def retainedPlacement : PlacementRecord :=
  { state := .live, retentionSource := .config, minRetentionUntil := 100 }

/-- A placement that is evicted, with a later deadline. -/
def evictedPlacement : PlacementRecord := { state := .evicted, deleteAfter := 100 }

theorem markedStore_eq {placement : PlacementRecord}
    (h : (markPackDeletePending 10 (placedStore placement) 10).isOk = true) :
    markPackDeletePending 10 (placedStore placement) 10 = .ok (markedStore placement) := by
  unfold markedStore
  cases hrun : markPackDeletePending 10 (placedStore placement) 10 with
  | error message =>
    rw [hrun] at h
    cases h
  | ok marked => rfl

/-- A collection at time 50 leaves a pack that is retained until 100, one at 120 removes it. -/
theorem removed_after_deadlines_retained :
    (run (markedState retainedPlacement) [collectAt 50, collectAt 120]).world.removals.map
        (fun removal => (removal.pack, removal.time)) = [(10, 120)] ∧
      RemovedInTime (placedStore retainedPlacement) (markedStore retainedPlacement) 10
        (run (markedState retainedPlacement) [collectAt 50, collectAt 120]).world.removals := by
  have hevaluated : lifecycleOf (placedStore retainedPlacement) 10 = some .published ∧
      (markPackDeletePending 10 (placedStore retainedPlacement) 10).isOk = true ∧
      (run (markedState retainedPlacement) [collectAt 50, collectAt 120]).world.removals.map
        (fun removal => (removal.pack, removal.time)) = [(10, 120)] := by
    decide +kernel
  obtain ⟨hpublished, hok, hremovals⟩ := hevaluated
  refine ⟨hremovals, (removed_after_deadlines hpublished (markedStore_eq hok)).2 _ _ rfl rfl ?_⟩
  exact List.forall_mem_cons.mpr ⟨List.not_mem_nil, List.forall_mem_singleton.mpr List.not_mem_nil⟩

/-- A pack with an evicted placement is removed at time 20, before the deadline that the
placement still has. -/
theorem removed_before_evicted :
    lifecycleOf (placedStore evictedPlacement) 10 = some .published ∧
      markPackDeletePending 10 (placedStore evictedPlacement) 10 =
        .ok (markedStore evictedPlacement) ∧
      (markedStore evictedPlacement).lookup (.packPlacement 10 7) =
        some (.placement evictedPlacement) ∧
      10 ∈ (markedState evictedPlacement).objects ∧
      10 ∉ (run (markedState evictedPlacement) [collectAt 20]).objects ∧
      ∀ phase, (executionAt 20).clock phase 10 < evictedPlacement.deleteAfter := by
  refine ⟨?_, markedStore_eq ?_, ?_, ?_, ?_, fun phase => ?deadline⟩
  case deadline =>
    change (20 : Int) < 100
    decide
  all_goals decide +kernel

end Vaultic.Repository
