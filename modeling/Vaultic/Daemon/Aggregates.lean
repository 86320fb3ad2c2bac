/-
  Daemon/Aggregates.lean  —  the totals kept per pack type and per tier.

  Source: internal/index/daemon/schema_store_reconcile.go
  (`updatePackAggregates`, `removePackAggregates`).

  Every catalog transition of a pack moves its totals inside the same
  transaction.  What the rest of the development needs from this module is the
  frame: aggregate updates write aggregate keys only.
-/
import Vaultic.Daemon.Transaction

set_option autoImplicit false

namespace Vaultic.Daemon

open Vaultic.Lib Vaultic.Schema

/-! ## Aggregate keys -/

/-- `aggregateKeys`: the type dimension, then the tier dimension. -/
def aggregateKeys : List Key :=
  [.packAggregate .data, .packAggregate .tree, .packAggregate .mixed, .packAggregate .unknown,
    .packAggregate .all, .tierAggregate .unknown, .tierAggregate .hot, .tierAggregate .cold,
    .tierAggregate .mirrored, .tierAggregate .single]

def aggregateKind : PackType → AggregateKind
  | .data => .data
  | .tree => .tree
  | .mixed => .mixed
  | .unknown => .unknown

/-- `aggregateAppliesTo` -/
def aggregateAppliesTo (key : Key) (record : PackRecord) : Bool :=
  match key with
  | .packAggregate kind => kind == .all || aggregateKind record.type == kind
  | .tierAggregate tier => tier == record.tier
  | _ => false

/-- `isTierAggregateOffset` -/
def isTierAggregate : Key → Bool
  | .tierAggregate _ => true
  | _ => false

/-! ## Checked arithmetic -/

/-- `subtractPackAggregate` -/
def subtractPackAggregate (aggregate : PackAggregate) (record : PackRecord) :
    Result PackAggregate :=
  if aggregate.packCount = 0 ∨ aggregate.physicalSize < record.physicalSize ∨
      aggregate.payloadSize < record.payloadSize ∨ aggregate.headerSize < record.headerSize ∨
      aggregate.blobCount < record.blobCount then
    .error "pack aggregate underflow"
  else if record.usageKnown = true ∧ (aggregate.accountedPackCount = 0 ∨
      aggregate.usedPayloadBytes < record.usedPayloadBytes ∨
      aggregate.unusedPayloadBytes < record.unusedPayloadBytes) then
    .error "pack aggregate usage underflow"
  else
    let aggregate := { aggregate with
      packCount := aggregate.packCount - 1
      physicalSize := aggregate.physicalSize - record.physicalSize
      payloadSize := aggregate.payloadSize - record.payloadSize
      headerSize := aggregate.headerSize - record.headerSize
      blobCount := aggregate.blobCount - record.blobCount }
    .ok (if record.usageKnown then { aggregate with
      accountedPackCount := aggregate.accountedPackCount - 1
      usedPayloadBytes := aggregate.usedPayloadBytes - record.usedPayloadBytes
      unusedPayloadBytes := aggregate.unusedPayloadBytes - record.unusedPayloadBytes }
    else aggregate)

/-- `addPackAggregate` -/
def addPackAggregate (aggregate : PackAggregate) (record : PackRecord) : Result PackAggregate :=
  if aggregate.packCount = maxUint64 ∨ maxUint64 - aggregate.physicalSize < record.physicalSize ∨
      maxUint64 - aggregate.payloadSize < record.payloadSize ∨
      maxUint64 - aggregate.headerSize < record.headerSize ∨
      maxUint64 - aggregate.blobCount < record.blobCount then
    .error "pack aggregate overflow"
  else if record.usageKnown = true ∧ (aggregate.accountedPackCount = maxUint64 ∨
      maxUint64 - aggregate.usedPayloadBytes < record.usedPayloadBytes ∨
      maxUint64 - aggregate.unusedPayloadBytes < record.unusedPayloadBytes) then
    .error "pack aggregate usage overflow"
  else
    let aggregate := { aggregate with
      packCount := aggregate.packCount + 1
      physicalSize := aggregate.physicalSize + record.physicalSize
      payloadSize := aggregate.payloadSize + record.payloadSize
      headerSize := aggregate.headerSize + record.headerSize
      blobCount := aggregate.blobCount + record.blobCount }
    .ok (if record.usageKnown then { aggregate with
      accountedPackCount := aggregate.accountedPackCount + 1
      usedPayloadBytes := aggregate.usedPayloadBytes + record.usedPayloadBytes
      unusedPayloadBytes := aggregate.unusedPayloadBytes + record.unusedPayloadBytes }
    else aggregate)

/-! ## Moving a pack between aggregates -/

section

variable (store : SchemaStore)

/-- The stored aggregate under a key, or an empty one. -/
def loadAggregate (key : Key) : Result PackAggregate :=
  match store.lookup key with
  | none => .ok {}
  | some value => unmarshalPackAggregate value

/-- The put that advances an aggregate. -/
def aggregatePut (key : Key) (aggregate : PackAggregate) : Mutation :=
  (key, .packAggregate { aggregate with
    updateSequence := (aggregate.updateSequence + 1) % 2 ^ 64 })

/-- Take the old record of a pack out of an aggregate.  A tier record that does
not exist has nothing to subtract from. -/
def leaveAggregate (old : Option PackRecord) (key : Key) (aggregate : PackAggregate) :
    Result (PackAggregate × Bool) :=
  match old with
  | none => .ok (aggregate, false)
  | some record =>
    if aggregateAppliesTo key record &&
        ((store.lookup key).isSome || !isTierAggregate key) then do
      let aggregate ← subtractPackAggregate aggregate record
      .ok (aggregate, true)
    else .ok (aggregate, false)

def enterAggregate (current : PackRecord) (key : Key) (aggregate : PackAggregate)
    (touched : Bool) : Result (PackAggregate × Bool) :=
  if aggregateAppliesTo key current then do
    let aggregate ← addPackAggregate aggregate current
    .ok (aggregate, true)
  else .ok (aggregate, touched)

/-- One aggregate of `updatePackAggregates`: unused tiers stay absent. -/
def updateAggregate (old : Option PackRecord) (current : PackRecord) (key : Key) :
    Result (Option Mutation) := do
  let aggregate ← loadAggregate store key
  let (aggregate, touched) ← leaveAggregate store old key aggregate
  let (aggregate, touched) ← enterAggregate current key aggregate touched
  if !touched && isTierAggregate key && (store.lookup key).isNone then .ok none
  else .ok (some (aggregatePut key aggregate))

/-- `updatePackAggregates` -/
def updatePackAggregates (old : Option PackRecord) (current : PackRecord) :
    Result (List Mutation) := do
  let puts ← (aggregateKeys.map (updateAggregate store old current)).mapM id
  .ok (puts.filterMap id)

/-- One aggregate of `removePackAggregates`: a missing type aggregate is
corruption, a missing tier aggregate only predates the tier dimension. -/
def removeFromAggregate (record : PackRecord) (key : Key) : Result (Option Mutation) :=
  if !aggregateAppliesTo key record then .ok none
  else if (store.lookup key).isNone then
    if isTierAggregate key then .ok none else .error "pack aggregate is missing"
  else do
    let aggregate ← loadAggregate store key
    let aggregate ← subtractPackAggregate aggregate record
    .ok (some (aggregatePut key aggregate))

/-- `removePackAggregates` -/
def removePackAggregates (record : PackRecord) : Result (List Mutation) := do
  let puts ← (aggregateKeys.map (removeFromAggregate store record)).mapM id
  .ok (puts.filterMap id)

end

/-! ## Frame -/

/-- The keys of the two aggregate dimensions. -/
def isAggregateKey : Key → Bool
  | .packAggregate _ | .tierAggregate _ => true
  | _ => false

theorem isAggregateKey_of_mem {key : Key} (h : key ∈ aggregateKeys) :
    isAggregateKey key = true := by
  simp only [aggregateKeys, List.mem_cons, List.not_mem_nil, or_false] at h
  rcases h with rfl | rfl | rfl | rfl | rfl | rfl | rfl | rfl | rfl | rfl <;> rfl

variable {m : Mutation}

/-- Puts planned one key at a time write the keys they were planned for. -/
theorem keys_of_planned {plan : Key → Result (Option Mutation)} {keys : List Key}
    {puts : List (Option Mutation)} (h : (keys.map plan).mapM id = .ok puts)
    (hplan : ∀ key m, plan key = .ok (some m) → m.1 = key) (hm : m ∈ puts.filterMap id) :
    m.1 ∈ keys := by
  have hmem : some m ∈ puts := by simpa using hm
  have hok : (.ok (some m) : Result (Option Mutation)) ∈ keys.map plan := by
    rw [mapM_id_eq_ok.mp h]
    exact List.mem_map_of_mem hmem
  obtain ⟨key, hkey, hrun⟩ := List.mem_map.mp hok
  rw [hplan key m hrun]
  exact hkey

variable {store : SchemaStore} {old : Option PackRecord} {current : PackRecord}

theorem updateAggregate_key
    {key : Key} (h : updateAggregate store old current key = .ok (some m)) : m.1 = key := by
  obtain ⟨aggregate, -, h⟩ := of_bind h
  obtain ⟨⟨left, touched⟩, -, h⟩ := of_bind h
  obtain ⟨⟨entered, touched'⟩, -, h⟩ := of_bind h
  dsimp only at h
  split at h
  · cases h
  · cases h
    rfl

theorem removeFromAggregate_key {record : PackRecord} {key : Key}
    (h : removeFromAggregate store record key = .ok (some m)) : m.1 = key := by
  unfold removeFromAggregate at h
  split at h
  · cases h
  split at h
  · split at h <;> cases h
  obtain ⟨aggregate, -, h⟩ := of_bind h
  obtain ⟨left, -, h⟩ := of_bind h
  cases h
  rfl

theorem updatePackAggregates_keys {puts : List Mutation}
    (h : updatePackAggregates store old current = .ok puts) (hm : m ∈ puts) :
    isAggregateKey m.1 = true := by
  obtain ⟨planned, hplanned, h⟩ := of_bind h
  cases h
  exact isAggregateKey_of_mem
    (keys_of_planned hplanned (fun _ _ => updateAggregate_key) hm)

theorem removePackAggregates_keys {record : PackRecord}
    {puts : List Mutation} (h : removePackAggregates store record = .ok puts) (hm : m ∈ puts) :
    isAggregateKey m.1 = true := by
  obtain ⟨planned, hplanned, h⟩ := of_bind h
  cases h
  exact isAggregateKey_of_mem
    (keys_of_planned hplanned (fun _ _ => removeFromAggregate_key) hm)

end Vaultic.Daemon
