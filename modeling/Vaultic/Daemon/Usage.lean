/-
  Daemon/Usage.lean  —  usage accounting of packs.

  Source: internal/index/daemon/schema_store_reconcile.go
  (`UpdatePackUsageForRun`, `updatePackUsageOnce`, `applyPackAggregateDeltas`).

  Garbage collection refreshes how many payload bytes of a pack are reachable.
  The refresh runs in batches of 256 packs, one transaction each; a batch that
  fails ends the refresh and leaves the batches before it committed.
-/
import Vaultic.Daemon.Catalog

set_option autoImplicit false

namespace Vaultic.Daemon

open Vaultic.Lib Vaultic.Schema

/-- `PackUsage`: the reachable and the unreachable payload of one pack. -/
structure PackUsage where
  (used unused : Nat)

/-- `packChange` -/
structure PackChange where
  packID : ID
  (old current : PackRecord)

/-- `packUsageBatchSize` -/
def packUsageBatchSize : Nat := 256

section

variable (limits : Limits) (now : Int) (runID : ID) (store : SchemaStore)

/-- One pack of `updatePackUsageOnce`.  A split that no longer sums to the payload
is stale and skipped, as is one that is recorded already. -/
def planUsageChange (item : ID × PackUsage) : Result (Option PackChange) := do
  let found ← loadPackRecord store item.1
  match found with
  | none => .ok none
  | some current =>
    let split := item.2
    if split.used > current.payloadSize ∨ split.used + split.unused ≠ current.payloadSize then
      .ok none
    else if current.usageKnown = true ∧ current.usedPayloadBytes = split.used ∧
        current.unusedPayloadBytes = split.unused then
      .ok none
    else
      .ok (some ⟨item.1, current,
        { current with
          usageKnown := true
          usedPayloadBytes := split.used
          unusedPayloadBytes := split.unused }⟩)

/-- The put of one changed pack. -/
def usagePut (change : PackChange) : Result Mutation := do
  let value ← marshalPackRecord change.current
  .ok (.pack change.packID, value)

/-- Move one change through an aggregate. -/
def applyChange (key : Key) (state : PackAggregate × Bool) (change : PackChange) :
    Result (PackAggregate × Bool) := do
  let (aggregate, left) ← leaveAggregate store (some change.old) key state.1
  enterAggregate change.current key aggregate (state.2 || left)

/-- One aggregate of `applyPackAggregateDeltas`, which advances touched aggregates
only. -/
def applyAggregateDelta (changes : List PackChange) (key : Key) :
    Result (Option Mutation) := do
  let aggregate ← loadAggregate store key
  let (aggregate, touched) ← changes.foldlM (applyChange store key) (aggregate, false)
  if touched then .ok (some (aggregatePut key aggregate)) else .ok none

/-- `applyPackAggregateDeltas` -/
def applyPackAggregateDeltas (changes : List PackChange) : Result (List Mutation) := do
  let puts ← (aggregateKeys.map (applyAggregateDelta store changes)).mapM id
  .ok (puts.filterMap id)

/-- The coalesced history event of one changed pack. -/
def usageEvent (change : PackChange) : PackEvent :=
  let (usedDelta, unusedDelta) := usageDeltas (some change.old) change.current
  ⟨change.packID,
    { type := .usageChanged, packType := change.current.type,
      physicalSize := change.current.physicalSize, payloadSize := change.current.payloadSize,
      usedDelta, unusedDelta, runID }⟩

/-- `updatePackUsageOnce`: the refreshed store and the number of changed packs. -/
def updatePackUsageOnce (batch : List (ID × PackUsage)) : Result (SchemaStore × Nat) := do
  let planned ← (batch.map (planUsageChange store)).mapM id
  let changes := planned.filterMap id
  if changes = [] then .ok (store, 0)
  else
    let puts ← (changes.map usagePut).mapM id
    let aggregates ← applyPackAggregateDeltas store changes
    let history ← packHistoryMutations (historySeconds now) store (changes.map (usageEvent runID))
    let store ← writeTransactionBatches limits store (puts ++ (aggregates ++ history)) []
    .ok (store, changes.length)

/-- The batches of a refresh, one transaction each: the outcome and the store the
committed batches leave. -/
def updateUsageBatches :
    List (List (ID × PackUsage)) → Nat → SchemaStore → Result Nat × SchemaStore
  | [], applied, store => (.ok applied, store)
  | batch :: rest, applied, store =>
    match updatePackUsageOnce limits now runID store batch with
    | .error message => (.error message, store)
    | .ok (store', count) => updateUsageBatches rest (applied + count) store'

/-- `UpdatePackUsageForRun` -/
def updatePackUsage (usage : List (ID × PackUsage)) : Result Nat × SchemaStore :=
  let sorted := usage.insertionSort fun left right => left.1 ≤ right.1
  updateUsageBatches limits now runID (sorted.toChunks packUsageBatchSize) 0 store

end

/-! ## Frame: accounting moves no blob and changes no lifecycle -/

variable {changes : List PackChange} {store : SchemaStore}

theorem applyAggregateDelta_key {key : Key} {m : Mutation}
    (h : applyAggregateDelta store changes key = .ok (some m)) : m.1 = key := by
  obtain ⟨aggregate, -, h⟩ := of_bind h
  obtain ⟨⟨moved, touched⟩, -, h⟩ := of_bind h
  dsimp only at h
  split at h
  · cases h
    rfl
  · cases h

theorem applyPackAggregateDeltas_keys {puts : List Mutation}
    (h : applyPackAggregateDeltas store changes = .ok puts) {m : Mutation} (hm : m ∈ puts) :
    isAggregateKey m.1 = true := by
  obtain ⟨planned, hplanned, h⟩ := of_bind h
  cases h
  exact isAggregateKey_of_mem (keys_of_planned hplanned (fun _ _ => applyAggregateDelta_key) hm)

theorem planUsageChange_spec {item : ID × PackUsage}
    {change : PackChange} (h : planUsageChange store item = .ok (some change)) :
    lifecycleOf store change.packID = some change.current.lifecycle := by
  obtain ⟨found, hfound, h⟩ := of_bind h
  cases found with
  | none => cases h
  | some current =>
    dsimp only at h
    split at h
    · cases h
    split at h
    · cases h
    cases h
    have hlifecycle : lifecycleOf store item.1 = some current.lifecycle :=
      lifecycleOf_of_lookup (loadPackRecord_eq_ok hfound)
    exact hlifecycle

variable {limits : Limits} {now : Int} {runID : ID}

/-- The keys accounting may write: packs, their aggregates and their history. -/
def isAccountingKey (key : Key) : Bool :=
  isAggregateKey key || isHistoryKey key || (match key with | .pack _ => true | _ => false)

section

variable {batch : List (ID × PackUsage)} {count : Nat} {store store' : SchemaStore}
  (h : updatePackUsageOnce limits now runID store batch = .ok (store', count))
include h

/-- What a batch of usage writes: pack records under their old lifecycles, aggregates and
history. -/
theorem updatePackUsageOnce_inv :
    ∃ puts side,
      (∀ m ∈ puts, ∃ pack record, m = (.pack pack, .pack record) ∧
        lifecycleOf store pack = some record.lifecycle) ∧
      (∀ m ∈ side, isAggregateKey m.1 = true ∨ isHistoryKey m.1 = true) ∧
      store' = store.putAll (puts ++ side) := by
  obtain ⟨planned, hplanned, h⟩ := of_bind h
  dsimp only at h
  split at h
  · cases h
    exact ⟨[], [], List.forall_mem_nil _, List.forall_mem_nil _, rfl⟩
  obtain ⟨puts, hputs, h⟩ := of_bind h
  obtain ⟨aggregates, haggregates, h⟩ := of_bind h
  obtain ⟨history, hhistory, h⟩ := of_bind h
  obtain ⟨written, hwritten, h⟩ := of_bind h
  cases h
  refine ⟨puts, aggregates ++ history, ?_, List.forall_mem_append.mpr
    ⟨fun m hm => .inl (applyPackAggregateDeltas_keys haggregates hm),
      fun m hm => .inr (packHistoryMutations_keys hhistory hm)⟩,
    writeTransactionBatches_eq hwritten⟩
  intro m hm
  obtain ⟨change, hchange, hrun⟩ := (mem_of_mapM_map hputs).mp hm
  replace hrun := of_encode hrun
  cases hrun
  have hsome : some change ∈ planned := by simpa using hchange
  obtain ⟨item, -, hitem⟩ := (mem_of_mapM_map hplanned).mp hsome
  exact ⟨change.packID, change.current, rfl, planUsageChange_spec hitem⟩

theorem sameCatalog_updatePackUsageOnce : SameCatalog store store' := by
  obtain ⟨puts, side, hputs, hkeys, rfl⟩ := updatePackUsageOnce_inv h
  have hside : Bookkeeping side := fun m hm =>
    (hkeys m hm).elim isCatalogKey_of_aggregate isCatalogKey_of_history
  constructor
  · intro blob
    rw [hside.lookup rfl]
    refine Table.lookup_putAll_of_forall_ne fun m hm => ?_
    obtain ⟨pack, record, rfl, -⟩ := hputs m hm
    exact nofun
  · intro pack
    rw [lifecycleOf_congr (hside.lookup rfl)]
    rcases Table.lookup_putAll_or store puts (.pack pack) with ⟨value, hput, hlook⟩ | ⟨-, hlook⟩
    · obtain ⟨owner, record, heq, hlifecycle⟩ := hputs _ hput
      cases heq
      rw [lifecycleOf_of_lookup hlook, hlifecycle]
    · exact lifecycleOf_congr hlook

end

theorem sameCatalog_updateUsageBatches {batches : List (List (ID × PackUsage))} {applied : Nat} :
    SameCatalog store (updateUsageBatches limits now runID batches applied store).2 := by
  induction batches generalizing applied store with
  | nil => exact SameCatalog.refl store
  | cons batch rest ih =>
    unfold updateUsageBatches
    split
    · exact SameCatalog.refl store
    · rename_i store' count hbatch
      exact (sameCatalog_updatePackUsageOnce hbatch).trans ih

/-- Refreshing usage leaves the catalog's answers as they are, whether or not
every batch commits. -/
theorem sameCatalog_updatePackUsage {usage : List (ID × PackUsage)} :
    SameCatalog store (updatePackUsage limits now runID store usage).2 :=
  sameCatalog_updateUsageBatches

section

variable {key : Key} (hkey : isAccountingKey key = false)
include hkey

theorem lookup_updatePackUsageOnce {store store' : SchemaStore} {batch : List (ID × PackUsage)}
    {count : Nat} (h : updatePackUsageOnce limits now runID store batch = .ok (store', count)) :
    store'.lookup key = store.lookup key := by
  obtain ⟨puts, side, hputs, hside, rfl⟩ := updatePackUsageOnce_inv h
  apply Table.lookup_putAll_of_forall_ne
  intro put hput heq
  subst heq
  rcases List.mem_append.mp hput with hput | hput
  · obtain ⟨pack, record, rfl, -⟩ := hputs put hput
    cases hkey
  · rcases hside put hput with hside | hside <;> simp [isAccountingKey, hside] at hkey

theorem lookup_updateUsageBatches
    (batches : List (List (ID × PackUsage))) (applied : Nat) (store : SchemaStore) :
    (updateUsageBatches limits now runID batches applied store).2.lookup key =
      store.lookup key := by
  induction batches generalizing applied store with
  | nil => rfl
  | cons batch rest ih =>
    unfold updateUsageBatches
    split
    · rfl
    · rename_i store' count hrun
      exact (ih _ _).trans (lookup_updatePackUsageOnce hkey hrun)

/-- Refreshing usage writes accounting keys only, whether or not every batch commits. -/
theorem lookup_updatePackUsage (store : SchemaStore) (usage : List (ID × PackUsage)) :
    (updatePackUsage limits now runID store usage).2.lookup key = store.lookup key :=
  lookup_updateUsageBatches hkey _ _ _

end

end Vaultic.Daemon
