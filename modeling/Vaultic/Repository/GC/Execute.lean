/-
  Repository/GC/Execute.lean  —  executing a garbage collection plan.

  Source: internal/repository/gc.go (`Execute` and what it calls),
  internal/index/daemon/history.go (`RecordPackEvents`).

  A process that stops in the middle of a pass is one whose remaining operations
  all fail.  Each physical removal is logged with the catalog it found and the clock of the
  check before it.
-/
import Vaultic.Repository.GC.Retention
import Vaultic.Repository.Repack

set_option autoImplicit false

namespace Vaultic.Repository

open Vaultic.Lib Vaultic.Schema Vaultic.Daemon

/-- The three loops of `Execute`. -/
inductive Phase where
  | retry
  | repack
  | whole
  deriving DecidableEq, Repr

/-- What execution meets outside the process. -/
structure ExecuteEnv where
  limits : Limits
  runID : ID
  /-- The generation status: an error, or whether destructive maintenance is allowed
  and the name of the state. -/
  interlock : Result (Bool × String)
  clock : Phase → ID → Int
  stagedRoots : Phase → ID → Option (Result (Finset ID))
  (mark remove purge : Phase → ID → Outcome)
  copy : CopyEnv
  history : Phase → ID → Outcome
  /-- Did the removal fail because the pass was cancelled? -/
  cancelled : Phase → ID → Bool

/-! ## Operations -/

/-- `RecordPackEvents` -/
def recordPackEvents (limits : Limits) (now : Int) (events : List PackEvent)
    (store : SchemaStore) : Result SchemaStore := do
  let mutations ← packHistoryMutations (historySeconds now) store events
  writeTransactionBatches limits store mutations []

/-- `packReadyForPhysicalDeletion`: the latest deadline of the evicting placements
has passed.  Only the placements of the pack are read. -/
def packReadyForPhysicalDeletion (now : Int) (store : SchemaStore) (pack : ID) :
    Result Bool := do
  let placements ← store.collectBy
    (fun
      | .packPlacement owner backend => if owner = pack then some backend else none
      | _ => none)
    unmarshalPlacementRecord
  let evicting := placements.filter fun placement => placement.2.state = .evicting
  .ok (evicting.all fun placement => decide (placement.2.deleteAfter ≤ now))

/-- The staged roots read again before a removal: do they let it through? -/
def removalAllowed (stagedRoots : Option (Result (Finset ID))) (pack : ID) : Bool :=
  match stagedRoots with
  | none => true
  | some (.error _) => false
  | some (.ok staged) => decide (pack ∉ staged)

section

variable (env : ExecuteEnv) (plan : GCPlan) (world : World)

/-- `deletePackObjectAndCatalog`.  An object that is already gone counts as removed. -/
def deletePackObjectAndCatalog (phase : Phase) (pack : ID) (members : List ID) (world : World) :
    Bool × World :=
  if removalAllowed (env.stagedRoots phase pack) pack = false then (false, world)
  else
    let outcome := env.remove phase pack
    let world :=
      if outcome.applied ∧ pack ∈ world.objects then
        { world with
          objects := world.objects.erase pack
          removals := world.removals ++ [⟨pack, world.store, env.clock phase pack⟩] }
      else world
    if outcome ≠ .done then (false, world)
    else
      world.attempt (env.purge phase pack) fun store =>
        markPackDeleted env.limits (env.clock phase pack) store pack members

/-- `recordDeleteFailure`, whose own failure is only printed. -/
def recordDeleteFailure (phase : Phase) (pack : ID) (world : World) : World :=
  let record := (plan.packRecords.lookup pack).getD { type := .unknown, lifecycle := .imported }
  (world.attempt (env.history phase pack)
    (recordPackEvents env.limits (env.clock phase pack)
      [⟨pack,
        { type := .deleteFailed, packType := record.type, physicalSize := record.physicalSize
          payloadSize := record.payloadSize, runID := env.runID
          reasonCode := if env.cancelled phase pack then "cancelled" else "backend_error" }⟩])).2

/-! ## The loops -/

/-- One pack of `retryPendingDeletions`; an unreadable placement ends the pass. -/
def retryPack (pack : ID) (members : List ID) : Result Unit × World :=
  match packReadyForPhysicalDeletion (env.clock .retry pack) world.store pack with
  | .error message => (.error message, world)
  | .ok false => (.ok (), world)
  | .ok true =>
    match deletePackObjectAndCatalog env .retry pack members world with
    | (true, world) => (.ok (), world)
    | (false, world) => (.ok (), recordDeleteFailure env plan .retry pack world)

/-- One pack of `deleteWholePacks` or of the deletions after a repack: mark it,
and remove it once it is ready. -/
def markAndDelete (phase : Phase) (world : World) (pack : ID) (members : List ID) :
    Result Unit × World :=
  match world.attempt (env.mark phase pack) fun store =>
      markPackDeletePending (env.clock phase pack) store pack with
  | (false, world) => (.ok (), world)
  | (true, world) =>
    match packReadyForPhysicalDeletion (env.clock phase pack) world.store pack with
    | .error message => (.error message, world)
    | .ok false => (.ok (), world)
    | .ok true =>
      match deletePackObjectAndCatalog env phase pack members world with
      | (true, world) => (.ok (), world)
      | (false, world) =>
        -- Only `deleteWholePacks` records the failure.
        if phase = .whole then (.ok (), recordDeleteFailure env plan phase pack world)
        else (.ok (), world)

/-- A loop over the packs of a plan that stops at the first error. -/
def forPacks (body : World → ID → List ID → Result Unit × World) :
    List (ID × List ID) → World → Result Unit × World
  | [], world => (.ok (), world)
  | (pack, members) :: rest, world =>
    match body world pack members with
    | (.error message, world) => (.error message, world)
    | (.ok (), world) => forPacks body rest world

/-- The entries of a table of the plan, in its order. -/
def packEntries (table : Table ID (List ID)) : List (ID × List ID) :=
  table.entries.map fun entry => (entry.1, entry.2)

/-! ## Repacking -/

/-- The live handles of all packs to repack. -/
def repackKeep : Finset BlobHandle :=
  plan.mixedPacks.entries.foldl (fun keep entry => keep ∪ entry.2) ∅

/-- The copying of `repackMixedPacks`.  Live handles that were not copied fail the
pass. -/
def copyLiveBlobs : Result Unit × World :=
  match copyBlobs env.limits (env.clock .repack 0) env.copy (repackKeep plan) world with
  | (.error message, world) => (.error s!"repack mixed packs: {message}", world)
  | (.ok remaining, world) =>
    if remaining = ∅ then (.ok (), world)
    else (.error s!"internal error: {remaining.card} live blobs were not repacked", world)

/-- The lineage event of a repacked source. -/
def repackedFromEvent (pack : ID) : PackEvent :=
  let record := (plan.packRecords.lookup pack).getD { type := .unknown, lifecycle := .imported }
  ⟨pack,
    { type := .repackedFrom, packType := record.type, physicalSize := record.physicalSize
      payloadSize := record.payloadSize, runID := env.runID
      reasonCode := "mixed_pack_repack" }⟩

/-- `repackMixedPacks` -/
def repackMixedPacks : Result Unit × World :=
  if plan.mixedPacks.entries = [] then (.ok (), world)
  else
    match copyLiveBlobs env plan world with
    | (.error message, world) => (.error message, world)
    | (.ok (), world) =>
      -- A lost lineage record does not abort the repack.
      let recorded := (world.attempt (env.history .repack 0)
        (recordPackEvents env.limits (env.clock .repack 0)
          (plan.mixedPacks.keys.map (repackedFromEvent env plan)))).2
      forPacks (markAndDelete env plan .repack)
        (plan.mixedPacks.keys.map fun pack =>
          (pack, (plan.mixedPackMembers.lookup pack).getD []))
        recorded

/-- `Execute` -/
def execute : Result Unit × World :=
  if plan.opts.discoverOnly ∨ plan.opts.dryRun then (.ok (), world)
  else
    match env.interlock with
    | .error message =>
      (.error s!"verify metadata generation maintenance interlock: {message}", world)
    | .ok (false, state) =>
      (.error
        s!"destructive maintenance is disabled while metadata generation state is \"{state}\"",
        world)
    | .ok (true, _) =>
      match forPacks (retryPack env plan) (packEntries plan.retryPacks) world with
      | (.error message, world) => (.error message, world)
      | (.ok (), world) =>
        match repackMixedPacks env plan world with
        | (.error message, world) => (.error message, world)
        | (.ok (), world) =>
          forPacks (markAndDelete env plan .whole) (packEntries plan.wholePacks) world

end

/-! ## What the operations on a pack keep -/

section Rules

variable {P : World → Prop} {env : ExecuteEnv} {plan : GCPlan} {phase : Phase} {pack : ID}
  {members : List ID} {world : World} (h : P world)
include h

/-- The catalog of the pack is purged only once its object is gone. -/
theorem delete_rule
    (hremove : pack ∈ world.objects → P { world with
      objects := world.objects.erase pack
      removals := world.removals ++ [⟨pack, world.store, env.clock phase pack⟩] })
    (hpurge : ∀ after store, P after → after.store = world.store → pack ∉ after.objects →
      markPackDeleted env.limits (env.clock phase pack) world.store pack members = .ok store →
      P { after with store }) : P (deletePackObjectAndCatalog env phase pack members world).2 := by
  unfold deletePackObjectAndCatalog
  split
  · exact h
  dsimp only
  by_cases happlied : (env.remove phase pack).applied = true ∧ pack ∈ world.objects
  · rw [if_pos happlied]
    split
    · exact hremove happlied.2
    · apply attempt_rule (hremove happlied.2)
      exact fun store => hpurge _ store (hremove happlied.2) rfl (Finset.notMem_erase _ _)
  · rw [if_neg happlied]
    split
    · exact h
    rename_i hdone
    -- A removal that is done has been applied, so the object was gone before.
    have hgone : pack ∉ world.objects := fun hmem =>
      happlied ⟨by rw [not_not.mp hdone]; rfl, hmem⟩
    exact attempt_rule h fun store => hpurge world store h rfl hgone

theorem retryPack_rule
    (hfailure : ∀ after, P after → P (recordDeleteFailure env plan .retry pack after))
    (hdelete : packReadyForPhysicalDeletion (env.clock .retry pack) world.store pack = .ok true →
      P (deletePackObjectAndCatalog env .retry pack members world).2) :
    P (retryPack env plan world pack members).2 := by
  unfold retryPack
  split
  · exact h
  · exact h
  rename_i hready
  have hdeleted := hdelete hready
  split <;> rename_i after hrun <;> rw [hrun] at hdeleted
  · exact hdeleted
  · exact hfailure after hdeleted

theorem markAndDelete_rule
    (hfailure : ∀ after, P after → P (recordDeleteFailure env plan phase pack after))
    (hmark : ∀ store, markPackDeletePending (env.clock phase pack) world.store pack = .ok store →
      P { world with store } ∧
        (packReadyForPhysicalDeletion (env.clock phase pack) store pack = .ok true →
          P (deletePackObjectAndCatalog env phase pack members { world with store }).2)) :
    P (markAndDelete env plan phase world pack members).2 := by
  unfold markAndDelete
  split
  · rename_i after hrun
    rw [show after = (false, after).2 from rfl, ← hrun]
    exact attempt_rule h fun store hstore => (hmark store hstore).1
  rename_i after hrun
  obtain ⟨store, hstore, rfl⟩ := attempt_eq_true hrun
  obtain ⟨hmarked, hdelete⟩ := hmark store hstore
  split
  · exact hmarked
  · exact hmarked
  rename_i hready
  have hdeleted := hdelete hready
  split <;> rename_i after hrun <;> rw [hrun] at hdeleted
  · exact hdeleted
  split
  · exact hfailure after hdeleted
  · exact hdeleted

end Rules

/-- A loop keeps what its body keeps for each of its packs. -/
theorem forPacks_induct {body : World → ID → List ID → Result Unit × World}
    {packs : List (ID × List ID)} {P : World → Prop}
    (hbody : ∀ entry ∈ packs, ∀ world, P world → P (body world entry.1 entry.2).2)
    {world : World} (h : P world) : P (forPacks body packs world).2 := by
  induction packs generalizing world with
  | nil => exact h
  | cons entry rest ih =>
    have hfirst := hbody entry (.head _) world h
    unfold forPacks
    generalize body world entry.1 entry.2 = result at hfirst ⊢
    obtain ⟨_ | _, after⟩ := result
    · exact hfirst
    · exact ih (fun e he => hbody e (.tail _ he)) hfirst

end Vaultic.Repository
