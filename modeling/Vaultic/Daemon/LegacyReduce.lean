/-
  Daemon/LegacyReduce.lean  —  reducing the receipts of a split legacy import.

  Source: internal/index/daemon/schema_store_import_split.go
  (`ReduceLegacyImportBatchesCheckpoints`, `reduceLegacyImportBatchesOnce`).

  A split import writes packs and blobs with a receipt, and leaves the aggregates, the
  history and the checkpoint to a later reduction of the receipt.  One call may reduce
  several receipts.  It reads the aggregates once, so it treats a tier that is created by
  the first receipt as absent for all of them; one call per receipt does not.
-/
import Vaultic.Daemon.AggregateDeltas

set_option autoImplicit false

namespace Vaultic.Daemon

open Vaultic.Lib Vaultic.Schema

/-! ## Receipts and checkpoints -/

structure LegacyImportIndexTally where
  sourceIndex : ID
  (packsImported blobsImported errorsSeen : Nat := 0)
  deriving DecidableEq, Repr

/-- `LegacyImportReceiptRecord`, with its pack records and events decoded. -/
structure LegacyImportReceipt where
  (contentHash sourceIndex : ID)
  (packsImported blobsImported errorsSeen : Nat := 0)
  reduced : Bool := false
  changes : List LegacyPackChange := []
  events : List PackEvent := []
  indexTallies : List LegacyImportIndexTally := []

section

variable (receipt : LegacyImportReceipt) (limits : Limits) (seconds : Nat)

/-- What `MarshalBinary` of a receipt rejects. -/
def checkLegacyImportReceipt : Option String :=
  if receipt.contentHash = 0 ∨ receipt.sourceIndex = 0 ∨ receipt.changes.length > 256 ∨
      receipt.events.length > 1024 then
    some "invalid legacy import receipt"
  else if receipt.changes.any (·.packID = 0) then some "invalid legacy import receipt change"
  else if receipt.events.any (·.packID = 0) then some "invalid legacy import receipt event"
  else if receipt.indexTallies.length > 256 then
    some "too many legacy import receipt index tallies"
  else if receipt.indexTallies.any (·.sourceIndex = 0) then
    some "invalid legacy import receipt index tally"
  else none

structure ImportCheckpoint where
  (packsImported blobsImported errorsSeen : Nat := 0)
  deriving DecidableEq, Repr

/-- A receipt is stored under its session and batch. -/
abbrev ReceiptKey := ID × Nat

/-- A checkpoint is stored under its source index. -/
abbrev CheckpointPut := ID × ImportCheckpoint

/-- The store, with the receipts and checkpoints of legacy imports apart. -/
structure ImportState where
  store : SchemaStore
  receipts : Table ReceiptKey LegacyImportReceipt
  checkpoints : Table ID ImportCheckpoint

/-- `legacyReceiptIndexTally` -/
def legacyReceiptIndexTally (sourceIndex : ID) : Option LegacyImportIndexTally :=
  match receipt.indexTallies.find? (·.sourceIndex = sourceIndex) with
  | some tally => some tally
  | none =>
    if receipt.indexTallies = [] ∧ receipt.sourceIndex = sourceIndex then
      some ⟨sourceIndex, receipt.packsImported, receipt.blobsImported, receipt.errorsSeen⟩
    else none

/-- `validateCheckpointForLegacyReceipt` -/
def validateCheckpointForLegacyReceipt (checkpoint : CheckpointPut) : Result Unit :=
  match legacyReceiptIndexTally receipt checkpoint.1 with
  | none => .error "legacy import checkpoint source index mismatch"
  | some tally =>
    if checkpoint.2.packsImported < tally.packsImported ∨
        checkpoint.2.blobsImported < tally.blobsImported ∨
        checkpoint.2.errorsSeen < tally.errorsSeen then
      .error "legacy import checkpoint counters mismatch"
    else .ok ()

/-- `checkpointsMatchInTransaction` -/
def checkpointsMatch (state : ImportState) : List CheckpointPut → Result Bool
  | [] => .ok true
  | (sourceIndex, record) :: rest =>
    match state.checkpoints.lookup sourceIndex with
    | none => .ok false
    | some stored =>
      if stored = record then checkpointsMatch state rest
      else .error "legacy import checkpoint conflicts with existing value"

/-! ## The reduction -/

/-- The aggregate puts of a reduction; without a change nothing is read. -/
def reductionAggregates (store : SchemaStore) (changes : List LegacyPackChange) :
    Result (List Mutation) :=
  if changes = [] then .ok [] else applyPackAggregateDeltasFromValues store changes true

/-- Apply the pending receipts and mark them reduced. -/
def applyReceipts (pending : List (ReceiptKey × LegacyImportReceipt))
    (finalCheckpoints : List CheckpointPut) (state : ImportState) : Result ImportState := do
  let aggregates ← reductionAggregates state.store (pending.flatMap (·.2.changes))
  let history ← packHistoryMutations seconds state.store (pending.flatMap (·.2.events))
  let reduced := pending.map fun entry => (entry.1, { entry.2 with reduced := true })
  match reduced.findSome? (checkLegacyImportReceipt ·.2) with
  | some reason => .error reason
  | none =>
    if ¬(finalCheckpoints.map Prod.fst).Nodup then .error "schema batch contains duplicate key"
    else do
      let store ← writeTransactionBatches limits state.store (aggregates ++ history) []
      .ok
        { store, receipts := state.receipts.putAll reduced
          checkpoints := state.checkpoints.putAll finalCheckpoints }

/-- `reduceLegacyImportBatchesOnce` where every receipt was found: those that are reduced
come first and are passed over. -/
def reduceFound (receipts : List (ReceiptKey × LegacyImportReceipt))
    (finalCheckpoints : List CheckpointPut) (state : ImportState) : Result ImportState :=
  let pending := receipts.dropWhile (·.2.reduced)
  if pending = [] then do
    let applied ← checkpointsMatch state finalCheckpoints
    if applied then .ok state else .error "legacy checkpoint for reduced batch is missing"
  else if pending.any (·.2.reduced) then
    .error "legacy import receipts are not reduced in order"
  else applyReceipts limits seconds pending finalCheckpoints state

/-- `reduceLegacyImportBatchesOnce` -/
def reduceLegacyImportBatchesOnce (keys : List ReceiptKey) (finalCheckpoints : List CheckpointPut)
    (state : ImportState) : Result ImportState :=
  let found := keys.map fun key => (key, state.receipts.lookup key)
  if found.any (·.2.isNone) then
    if finalCheckpoints = [] then .error "legacy import receipt is missing"
    else do
      let applied ← checkpointsMatch state finalCheckpoints
      -- A session that was completed has no receipts left.
      if applied && found.all (·.2.isNone) then .ok state
      else .error "legacy import receipt is missing"
  else
    let receipts := found.filterMap fun entry => entry.2.map fun receipt => (entry.1, receipt)
    match receipts.getLast? with
    | none => .ok state
    | some last => do
        let _ ← (finalCheckpoints.map (validateCheckpointForLegacyReceipt last.2)).mapM id
        reduceFound limits seconds receipts finalCheckpoints state

/-- `ReduceLegacyImportBatchesCheckpoints`; `allowed` says whether the client may use
the session. -/
def reduceLegacyImportBatchesCheckpoints (allowed : Bool) (session : ID) (batches : List Nat)
    (finalCheckpoints : List CheckpointPut) (state : ImportState) : Result ImportState :=
  if batches = [] then .error "legacy import reduction requires at least one batch"
  else if session = 0 then .error "legacy import session is required"
  else if !allowed then .error "stage 3 legacy import requires fresh import mode"
  else if ¬batches.Nodup then .error "legacy import reduction batch is duplicated"
  else
    reduceLegacyImportBatchesOnce limits seconds (batches.map fun batch => (session, batch))
      finalCheckpoints state

/-- One call for each batch, in order. -/
def reduceOneByOne (allowed : Bool) (session : ID) :
    List (Nat × List CheckpointPut) → ImportState → Result ImportState
  | [], state => .ok state
  | (batch, finalCheckpoints) :: rest, state => do
      let state ← reduceLegacyImportBatchesCheckpoints limits seconds allowed session [batch]
        finalCheckpoints state
      reduceOneByOne allowed session rest state

end

/-! ## What a reduction does -/

/-- The changes of the receipts that are still to be reduced, batch by batch. -/
def pendingChanges (state : ImportState) (keys : List ReceiptKey) : List (List LegacyPackChange) :=
  keys.filterMap fun key => (state.receipts.lookup key).bind fun receipt =>
    if receipt.reduced then none else some receipt.changes

/-- The aggregates moved by these changes, in one batch. -/
def AggregatesMoved (store store' : SchemaStore) (changes : List LegacyPackChange) : Prop :=
  ∀ key ∈ aggregateKeys,
    (changes = [] ∧ store'.lookup key = store.lookup key) ∨
      ∃ stored after : Option PackAggregate, store.lookup key = stored.map .packAggregate ∧
        aggregateAfter key stored changes = .ok after ∧
        store'.lookup key = after.map .packAggregate

theorem AggregatesMoved.refl (store : SchemaStore) : AggregatesMoved store store [] :=
  fun _ _ => .inl ⟨rfl, rfl⟩

variable {key : Key}

theorem isAggregateKey_of_history (h : isHistoryKey key = true) : isAggregateKey key = false := by
  cases key <;> first | rfl | cases h

variable {limits : Limits} {seconds : Nat} {finalCheckpoints : List CheckpointPut}
  {state state' : ImportState}

theorem applyReceipts_spec {pending : List (ReceiptKey × LegacyImportReceipt)}
    (h : applyReceipts limits seconds pending finalCheckpoints state = .ok state') :
    AggregatesMoved state.store state'.store (pending.flatMap (·.2.changes)) ∧
      state'.receipts = state.receipts.putAll
        (pending.map fun entry => (entry.1, { entry.2 with reduced := true })) := by
  obtain ⟨aggregates, haggregates, h⟩ := of_bind h
  obtain ⟨history, hhistory, h⟩ := of_bind h
  dsimp only at h
  split at h
  · cases h
  obtain ⟨-, h⟩ := of_guard h
  obtain ⟨store, hstore, h⟩ := of_bind h
  cases h
  refine ⟨fun key hkey => ?_, rfl⟩
  have hframe : store.lookup key = (state.store.putAll aggregates).lookup key := by
    rw [writeTransactionBatches_eq hstore, Table.putAll_append]
    refine Table.lookup_putAll_of_forall_ne fun put hput heq => ?_
    have hno := isAggregateKey_of_history (packHistoryMutations_keys hhistory hput)
    rw [heq, isAggregateKey_of_mem hkey] at hno
    cases hno
  unfold reductionAggregates at haggregates
  split at haggregates
  · rename_i hempty
    cases haggregates
    exact .inl ⟨hempty, hframe⟩
  · rename_i hne
    obtain ⟨stored, after, hstored, hafter, hlookup⟩ :=
      applyPackAggregateDeltasFromValues_lookup haggregates hne hkey
    exact .inr ⟨stored, after, hstored, hafter, hframe.trans hlookup⟩

/-- The receipts of a list of keys, with their keys. -/
def foundReceipts (state : ImportState) (keys : List ReceiptKey) :
    List (ReceiptKey × LegacyImportReceipt) :=
  keys.filterMap fun key => (state.receipts.lookup key).map fun receipt => (key, receipt)

variable {keys : List ReceiptKey}

theorem mem_foundReceipts {state : ImportState} {key : ReceiptKey} {receipt : LegacyImportReceipt} :
    (key, receipt) ∈ foundReceipts state keys ↔
      key ∈ keys ∧ state.receipts.lookup key = some receipt := by
  simp only [foundReceipts, List.mem_filterMap, Option.map_eq_some_iff, Prod.mk.injEq]
  constructor
  · rintro ⟨other, hmem, found, hfound, rfl, rfl⟩
    exact ⟨hmem, hfound⟩
  · rintro ⟨hmem, hfound⟩
    exact ⟨key, hmem, receipt, hfound, rfl, rfl⟩

theorem pendingChanges_eq (state : ImportState) (keys : List ReceiptKey) :
    pendingChanges state keys =
      ((foundReceipts state keys).filter fun entry => !entry.2.reduced).map (·.2.changes) := by
  unfold pendingChanges foundReceipts
  induction keys with
  | nil => rfl
  | cons key rest ih =>
    rw [List.filterMap_cons, List.filterMap_cons]
    cases state.receipts.lookup key with
    | none => exact ih
    | some receipt =>
      cases hreduced : receipt.reduced <;> simp [hreduced, ih]

/-- A list whose elements with a property come first. -/
theorem dropWhile_eq_filter {α : Type} {p : α → Bool} {l : List α}
    (h : (l.dropWhile p).any p = false) : l.dropWhile p = l.filter fun a => !p a := by
  induction l with
  | nil => rfl
  | cons a rest ih =>
    cases hp : p a with
    | true =>
      rw [List.dropWhile_cons_of_pos hp] at h ⊢
      rw [ih h, List.filter_cons_of_neg (by simp [hp])]
    | false =>
      rw [List.dropWhile_cons_of_neg (by simp [hp])] at h ⊢
      rw [eq_comm, List.filter_eq_self]
      simpa using h

theorem lookup_markReduced {state : ImportState} (keys : List ReceiptKey) (key : ReceiptKey) :
    (state.receipts.putAll (((foundReceipts state keys).filter fun entry => !entry.2.reduced).map
        fun entry => (entry.1, { entry.2 with reduced := true }))).lookup key =
      (state.receipts.lookup key).map fun receipt =>
        if key ∈ keys then { receipt with reduced := true } else receipt := by
  have hput : ∀ value, (key, value) ∈ ((foundReceipts state keys).filter fun entry =>
      !entry.2.reduced).map (fun entry => (entry.1, { entry.2 with reduced := true })) ↔
        key ∈ keys ∧ ∃ receipt, state.receipts.lookup key = some receipt ∧
          receipt.reduced = false ∧ value = { receipt with reduced := true } := by
    intro value
    simp only [List.mem_map, List.mem_filter, Prod.mk.injEq]
    constructor
    · rintro ⟨⟨other, receipt⟩, ⟨hmem, hreduced⟩, rfl, rfl⟩
      obtain ⟨hkey, hlook⟩ := mem_foundReceipts.mp hmem
      exact ⟨hkey, receipt, hlook, by simpa using hreduced, rfl⟩
    · rintro ⟨hkey, receipt, hlook, hreduced, rfl⟩
      exact ⟨(key, receipt), ⟨mem_foundReceipts.mpr ⟨hkey, hlook⟩, by simp [hreduced]⟩, rfl, rfl⟩
  rcases Table.lookup_putAll_or state.receipts _ key with ⟨value, hmem, hlook⟩ | ⟨hne, hlook⟩ <;>
    rw [hlook]
  · obtain ⟨hkey, receipt, hfound, -, rfl⟩ := (hput value).mp hmem
    rw [hfound, Option.map_some, if_pos hkey]
  cases hfound : state.receipts.lookup key with
  | none => rfl
  | some receipt =>
    rw [Option.map_some]
    split
    · rename_i hkey
      cases hreduced : receipt.reduced with
      | true => rw [← hreduced]
      | false => exact absurd rfl (hne _ ((hput _).mpr ⟨hkey, receipt, hfound, hreduced, rfl⟩))
    · rfl

/-- Every receipt of the keys is reduced afterwards, and their changes have moved the
aggregates. -/
theorem reduceOnce_spec
    (h : reduceLegacyImportBatchesOnce limits seconds keys finalCheckpoints state = .ok state') :
    AggregatesMoved state.store state'.store (pendingChanges state keys).flatten ∧
      ∀ key, state'.receipts.lookup key = (state.receipts.lookup key).map fun receipt =>
        if key ∈ keys then { receipt with reduced := true } else receipt := by
  rw [pendingChanges_eq, ← List.flatMap_def]
  simp only [← lookup_markReduced]
  generalize hpending : (foundReceipts state keys).filter (fun entry => !entry.2.reduced) = pending
  suffices hspec : AggregatesMoved state.store state'.store (pending.flatMap (·.2.changes)) ∧
      state'.receipts = state.receipts.putAll
        (pending.map fun entry => (entry.1, { entry.2 with reduced := true })) from
    ⟨hspec.1, fun key => by rw [hspec.2]⟩
  -- Where nothing is pending the state is left alone.
  have hidle : pending = [] → AggregatesMoved state.store state.store
      (pending.flatMap (·.2.changes)) ∧ state.receipts = state.receipts.putAll
        (pending.map fun entry => (entry.1, { entry.2 with reduced := true })) := by
    rintro rfl
    exact ⟨AggregatesMoved.refl _, rfl⟩
  unfold reduceLegacyImportBatchesOnce at h
  dsimp only at h
  have hfound : ((keys.map fun key => (key, state.receipts.lookup key)).filterMap fun entry =>
      entry.2.map fun receipt => (entry.1, receipt)) = foundReceipts state keys := by
    rw [List.filterMap_map]
    rfl
  rw [hfound] at h
  split at h
  · split at h
    · cases h
    obtain ⟨applied, -, h⟩ := of_bind h
    split at h
    · rename_i hmissing
      cases h
      refine hidle (hpending ▸ List.filter_eq_nil_iff.mpr fun entry hmem => ?_)
      obtain ⟨hkey, hlook⟩ := mem_foundReceipts.mp hmem
      have hnone := List.all_eq_true.mp (Bool.and_eq_true_iff.mp hmissing).2 _
        (List.mem_map_of_mem hkey)
      simp only [hlook] at hnone
      cases hnone
    · cases h
  · split at h
    · rename_i hlast
      cases h
      exact hidle (by rw [← hpending, List.getLast?_eq_none_iff.mp hlast]; rfl)
    · obtain ⟨checked, -, h⟩ := of_bind h
      unfold reduceFound at h
      dsimp only at h
      split at h
      · rename_i hempty
        obtain ⟨applied, -, h⟩ := of_bind h
        split at h
        · cases h
          exact hidle (by rw [← hpending, ← dropWhile_eq_filter (by rw [hempty]; rfl), hempty])
        · cases h
      · obtain ⟨horder, h⟩ := of_guard h
        rw [dropWhile_eq_filter (by simpa using horder), hpending] at h
        exact applyReceipts_spec h

/-! ## Together or one by one -/

/-- The aggregates of a store, apart from their update sequences. -/
def aggregateTotals (store : SchemaStore) (key : Key) : Option (Option PackAggregate) :=
  (store.lookup key).map fun
    | .packAggregate aggregate => some aggregate.totals
    | _ => none

/-- The stores have the same aggregates, apart from their update sequences. -/
def SameAggregates (store store' : SchemaStore) : Prop :=
  ∀ key ∈ aggregateKeys, aggregateTotals store key = aggregateTotals store' key

instance (store store' : SchemaStore) : Decidable (SameAggregates store store') :=
  inferInstanceAs (Decidable (∀ key ∈ aggregateKeys, _ = _))

theorem aggregateTotals_of_lookup {store : SchemaStore}
    {stored : Option PackAggregate} (h : store.lookup key = stored.map .packAggregate) :
    aggregateTotals store key = (storedTotals stored).map some := by
  rw [aggregateTotals, h]
  cases stored <;> rfl

theorem reduceBatches_inv {allowed : Bool} {session : ID} {batches : List Nat}
    (h : reduceLegacyImportBatchesCheckpoints limits seconds allowed session batches
      finalCheckpoints state = .ok state') :
    batches.Nodup ∧ reduceLegacyImportBatchesOnce limits seconds
      (batches.map fun batch => (session, batch)) finalCheckpoints state = .ok state' := by
  obtain ⟨-, h⟩ := of_guard h
  obtain ⟨-, h⟩ := of_guard h
  obtain ⟨-, h⟩ := of_guard h
  obtain ⟨hnodup, h⟩ := of_guard h
  exact ⟨not_not.mp hnodup, h⟩

/-- The receipts of a session that are still to be reduced, in the order of the batches. -/
abbrev pendingOf (state : ImportState) (session : ID) (batches : List Nat) :
    List (List LegacyPackChange) :=
  pendingChanges state (batches.map fun batch => (session, batch))

/-- The aggregate under a key moved by groups of changes, one after the other. -/
def MovedStepwise (store store' : SchemaStore) (groups : List (List LegacyPackChange)) (key : Key) :
    Prop :=
  (groups.flatten = [] ∧ store'.lookup key = store.lookup key) ∨
    ∃ stored after : Option PackAggregate, store.lookup key = stored.map .packAggregate ∧
      groups.foldlM (aggregateAfter key) stored = .ok after ∧
      store'.lookup key = after.map .packAggregate

variable {groups : List (List LegacyPackChange)}

theorem foldlM_aggregateAfter_of_flatten_nil (h : groups.flatten = [])
    (stored : Option PackAggregate) : groups.foldlM (aggregateAfter key) stored = .ok stored := by
  induction groups with
  | nil => rfl
  | cons group rest ih =>
    rw [List.flatten_cons, List.append_eq_nil_iff] at h
    rw [List.foldlM_cons, h.1]
    exact ih h.2

theorem MovedStepwise.lookup_of_flatten_nil {store store' : SchemaStore}
    (h : MovedStepwise store store' groups key) (hempty : groups.flatten = []) :
    store'.lookup key = store.lookup key := by
  rcases h with ⟨-, hsame⟩ | ⟨stored, after, hstored, hmoved, hafter⟩
  · exact hsame
  · rw [foldlM_aggregateAfter_of_flatten_nil hempty] at hmoved
    cases hmoved
    exact hafter.trans hstored.symm

theorem MovedStepwise.trans {first second third : SchemaStore}
    {groups groups' : List (List LegacyPackChange)} (h : MovedStepwise first second groups key)
    (h' : MovedStepwise second third groups' key) :
    MovedStepwise first third (groups ++ groups') key := by
  rcases h with ⟨hempty, hsame⟩ | ⟨stored, after, hstored, hmoved, hafter⟩
  · rcases h' with ⟨hempty', hsame'⟩ | ⟨stored', after', hstored', hmoved', hafter'⟩
    · exact .inl ⟨by simp [hempty, hempty'], hsame'.trans hsame⟩
    · refine .inr ⟨stored', after', hsame.symm.trans hstored', ?_, hafter'⟩
      rw [List.foldlM_append, foldlM_aggregateAfter_of_flatten_nil hempty]
      exact hmoved'
  · rcases h' with ⟨hempty', hsame'⟩ | ⟨stored', after', hstored', hmoved', hafter'⟩
    · refine .inr ⟨stored, after, hstored, ?_, hsame'.trans hafter⟩
      rw [List.foldlM_append, hmoved]
      exact foldlM_aggregateAfter_of_flatten_nil hempty' after
    · have heq : after = stored' :=
        Option.map_injective (fun _ _ => Value.packAggregate.inj) (hafter.symm.trans hstored')
      refine .inr ⟨stored, after', hstored, ?_, hafter'⟩
      rw [List.foldlM_append, hmoved, heq]
      exact hmoved'

/-- One call for one batch. -/
theorem movedStepwise_of_single {key : ReceiptKey}
    (h : reduceLegacyImportBatchesOnce limits seconds [key] finalCheckpoints state = .ok state')
    {aggregateKey : Key} (hkey : aggregateKey ∈ aggregateKeys) :
    MovedStepwise state.store state'.store (pendingChanges state [key]) aggregateKey := by
  have hfold : ∀ stored, (pendingChanges state [key]).foldlM (aggregateAfter aggregateKey) stored =
      aggregateAfter aggregateKey stored (pendingChanges state [key]).flatten := by
    intro stored
    rw [pendingChanges, List.filterMap_cons, List.filterMap_nil]
    split
    · rfl
    · rename_i group hgroup
      rw [List.flatten_singleton, List.foldlM_cons]
      cases aggregateAfter aggregateKey stored group <;> rfl
  rcases (reduceOnce_spec h).1 aggregateKey hkey with hsame |
    ⟨stored, after, hstored, hmoved, hafter⟩
  · exact .inl hsame
  · exact .inr ⟨stored, after, hstored, (hfold stored).trans hmoved, hafter⟩

/-- What calls for single batches leave under an aggregate key. -/
theorem reduceOneByOne_spec {allowed : Bool} {session : ID}
    {calls : List (Nat × List CheckpointPut)} (hnodup : (calls.map Prod.fst).Nodup)
    (h : reduceOneByOne limits seconds allowed session calls state = .ok state')
    (hkey : key ∈ aggregateKeys) :
    MovedStepwise state.store state'.store (pendingOf state session (calls.map Prod.fst)) key := by
  induction calls generalizing state with
  | nil =>
    cases h
    exact .inl ⟨rfl, rfl⟩
  | cons call rest ih =>
    obtain ⟨batch, finalCheckpoints⟩ := call
    rw [List.map_cons, List.nodup_cons] at hnodup
    obtain ⟨middle, hfirst, hrest⟩ := of_bind h
    obtain ⟨-, honce⟩ := reduceBatches_inv hfirst
    -- The receipts of the later batches are not touched by the first call.
    have hpending : pendingOf middle session (rest.map Prod.fst) =
        pendingOf state session (rest.map Prod.fst) := by
      refine List.filterMap_congr fun other hother => ?_
      obtain ⟨later, hlater, rfl⟩ := List.mem_map.mp hother
      have hne : (session, later) ∉ [batch].map fun batch => (session, batch) := by
        simp only [List.map_cons, List.map_nil, List.mem_singleton, Prod.mk.injEq, true_and]
        rintro rfl
        exact hnodup.1 hlater
      simp only [(reduceOnce_spec honce).2, if_neg hne, Option.map_id']
    have hsplit : pendingOf state session (((batch, finalCheckpoints) :: rest).map Prod.fst) =
        pendingChanges state [(session, batch)] ++ pendingOf state session (rest.map Prod.fst) := by
      rw [pendingOf, pendingChanges, pendingChanges, pendingOf, pendingChanges,
        ← List.filterMap_append]
      rfl
    rw [hsplit, ← hpending]
    exact (movedStepwise_of_single honce hkey).trans (ih hnodup.2 hrest)

/-- For every tier that has no aggregate, no pending receipt takes out of it what an
earlier one puts in. -/
def ReducibleTogether (state : ImportState) (session : ID) (batches : List Nat) : Prop :=
  ∀ key ∈ aggregateKeys, isTierAggregate key = true → state.store.lookup key = none →
    InOrderFor key (pendingOf state session batches)

/-- Reducing receipts in one call leaves the aggregates that one call for each receipt
leaves, exactly when no tier is created and taken from among them. -/
theorem reduce_together_iff_oneByOne (limits : Limits) (seconds : Nat) (allowed : Bool)
    (session : ID) (finalCheckpoints : List CheckpointPut)
    (calls : List (Nat × List CheckpointPut)) (state together separate : ImportState)
    (htogether : reduceLegacyImportBatchesCheckpoints limits seconds allowed session
      (calls.map Prod.fst) finalCheckpoints state = .ok together)
    (hseparate : reduceOneByOne limits seconds allowed session calls state = .ok separate) :
    SameAggregates together.store separate.store ↔
      ReducibleTogether state session (calls.map Prod.fst) := by
  obtain ⟨hnodup, honce⟩ := reduceBatches_inv htogether
  refine forall_congr' fun key => forall_congr' fun hkey => ?_
  have hone := (reduceOnce_spec honce).1 key hkey
  have hsteps := reduceOneByOne_spec hnodup hseparate hkey
  unfold pendingOf at hsteps ⊢
  generalize pendingChanges state _ = groups at hone hsteps ⊢
  by_cases hempty : groups.flatten = []
  · -- Nothing is pending for the key, so both leave it alone.
    have htotals : together.store.lookup key = separate.store.lookup key := by
      rw [hsteps.lookup_of_flatten_nil hempty]
      rcases hone with ⟨-, hsame⟩ | ⟨stored, after, hstored, hmoved, hafter⟩
      · exact hsame
      · rw [hempty] at hmoved
        cases hmoved
        exact hafter.trans hstored.symm
    refine iff_of_true (by rw [aggregateTotals, htotals, aggregateTotals]) fun _ _ => ?_
    refine List.pairwise_of_forall_mem_list fun _ _ later hlater _ => ?_
    rw [List.flatten_eq_nil_iff.mp hempty later hlater]
    rfl
  · obtain ⟨stored, once, hstored, honce, hafter⟩ := hone.resolve_left fun h => hempty h.1
    obtain ⟨stored', stepwise, hstored', hstepwise, hafter'⟩ :=
      hsteps.resolve_left fun h => hempty h.1
    cases Option.map_injective (fun _ _ => Value.packAggregate.inj) (hstored.symm.trans hstored')
    rw [aggregateTotals_of_lookup hafter, aggregateTotals_of_lookup hafter',
      (Option.map_injective (Option.some_injective _)).eq_iff]
    cases htier : isTierAggregate key with
    | false =>
      refine iff_of_true ?_ fun hfalse => by cases hfalse
      have hsame := foldlM_aggregateAfter_of_not_tier htier stored groups
      rw [honce, hstepwise] at hsame
      exact (Except.ok.inj hsame).symm
    | true =>
      cases stored with
      | none =>
        rw [foldlM_aggregateAfter_tier_iff htier honce hstepwise]
        exact ⟨fun h _ _ => h, fun h => h rfl hstored⟩
      | some stored =>
        refine iff_of_true ?_ fun _ hnone => by rw [hstored] at hnone; cases hnone
        have hsame := foldlM_aggregateAfter_some key stored groups
        rw [hstepwise, ← aggregateAfter_some, honce] at hsame
        exact (Except.ok.inj hsame).symm

/-- A pack in the hot tier. -/
def hotPack : PackRecord :=
  { type := .data, lifecycle := .published, blobCount := 1, payloadSize := 10, tier := .hot }

/-- A session with two receipts on an empty store: the first imports pack 10. -/
def twoReceipts (second : LegacyPackChange) : ImportState where
  store := ∅
  receipts := (∅ : Table ReceiptKey LegacyImportReceipt).putAll
    [((7, 0), { contentHash := 1, sourceIndex := 3, changes := [⟨10, none, hotPack⟩] }),
      ((7, 1), { contentHash := 2, sourceIndex := 3, changes := [second] })]
  checkpoints := ∅

/-- The second receipt of pack 10, imported again from another index. -/
def repeatedImport : LegacyPackChange := ⟨10, some hotPack, hotPack⟩

def sampleLimits : Limits := ⟨1000, 1048576⟩

theorem twoReceipts_reduced :
    okAnd (reduceLegacyImportBatchesCheckpoints sampleLimits 1 true 7 [0, 1] []
        (twoReceipts repeatedImport)) (fun together =>
      okAnd (reduceOneByOne sampleLimits 1 true 7 [(0, []), (1, [])] (twoReceipts repeatedImport))
        fun separate => !decide (SameAggregates together.store separate.store)) = true ∧
    okAnd (reduceLegacyImportBatchesCheckpoints sampleLimits 1 true 7 [0, 1] []
        (twoReceipts ⟨11, none, hotPack⟩)) (fun _ =>
      okAnd (reduceOneByOne sampleLimits 1 true 7 [(0, []), (1, [])]
        (twoReceipts ⟨11, none, hotPack⟩)) fun _ => true) = true := by
  decide +kernel

/-- Reduced together, pack 10 counts twice in the hot tier. -/
theorem reduce_together_counts_pack_twice :
    ∃ together separate,
      reduceLegacyImportBatchesCheckpoints sampleLimits 1 true 7 [0, 1] []
        (twoReceipts repeatedImport) = .ok together ∧
      reduceOneByOne sampleLimits 1 true 7 [(0, []), (1, [])] (twoReceipts repeatedImport) =
        .ok separate ∧
      ¬SameAggregates together.store separate.store := by
  obtain ⟨together, htogether, hrest⟩ := okAnd_eq_true.mp twoReceipts_reduced.1
  obtain ⟨separate, hseparate, hdiffer⟩ := okAnd_eq_true.mp hrest
  exact ⟨together, separate, htogether, hseparate, by simpa using hdiffer⟩

theorem reduce_together_iff_oneByOne_sample :
    ∃ together separate,
      reduceLegacyImportBatchesCheckpoints sampleLimits 1 true 7 [0, 1] []
        (twoReceipts ⟨11, none, hotPack⟩) = .ok together ∧
      reduceOneByOne sampleLimits 1 true 7 [(0, []), (1, [])]
        (twoReceipts ⟨11, none, hotPack⟩) = .ok separate ∧
      (SameAggregates together.store separate.store ↔
        ReducibleTogether (twoReceipts ⟨11, none, hotPack⟩) 7 [0, 1]) := by
  obtain ⟨together, htogether, hrest⟩ := okAnd_eq_true.mp twoReceipts_reduced.2
  obtain ⟨separate, hseparate, -⟩ := okAnd_eq_true.mp hrest
  exact ⟨together, separate, htogether, hseparate,
    reduce_together_iff_oneByOne _ _ _ _ _ [(0, []), (1, [])] _ _ _ htogether hseparate⟩

end Vaultic.Daemon
