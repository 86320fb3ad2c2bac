/-
  Wire/History.lean  —  the records of the pack history (`internal/index/schema/history.go`):
  events, the buckets they are rolled up into, and the markers of the collected range.

  An event without a pack type is written with the unknown type, a bucket without a
  coverage with the complete one.
-/
import Vaultic.Wire.Packs

set_option autoImplicit false

namespace Vaultic.Wire

open Vaultic.Lib
open Vaultic.Schema (ID)

/-! ## Events -/

/-- What happens to packs. -/
abbrev PackEventType := UInt8

def eventCreated : PackEventType := 1
def eventImported : PackEventType := 2
def eventPromoted : PackEventType := 6
def eventRepackedInto : PackEventType := 10
def eventDeleted : PackEventType := 12
def eventTierChanged : PackEventType := 15

def validPackEventType (value : PackEventType) : Bool :=
  eventCreated ≤ value && value ≤ eventTierChanged

def maxHistoryPredecessors : Nat := 1024

/-- What happened to a pack, to be read after it is gone. -/
structure PackHistoryEvent where
  type : PackEventType
  packType : PackType
  (backend physicalSize payloadSize : UInt64)
  (usedDelta unusedDelta : Int64)
  predecessorPackIDs : List ID
  runID : ID
  reasonCode : Bytes
  deriving DecidableEq, Repr

namespace PackHistoryEvent

/-- A missing pack type is written as unknown. -/
def normalized (record : PackHistoryEvent) : PackHistoryEvent :=
  { record with packType := if record.packType = 0 then packUnknown else record.packType }

def write (record : PackHistoryEvent) : Encoder := do
  Put.u8 record.type
  Put.u8 record.packType
  Put.u64 record.backend
  Put.u64 record.physicalSize
  Put.u64 record.payloadSize
  Put.i64 record.usedDelta
  Put.i64 record.unusedDelta
  Put.u32 (UInt32.ofNat record.predecessorPackIDs.length)
  writeEach Put.id record.predecessorPackIDs
  Put.id record.runID
  Put.string record.reasonCode

def marshalBinary (record : PackHistoryEvent) : Result Bytes := do
  rejected (!validPackEventType record.type) "invalid pack event type"
  rejected (!validPackType record.normalized.packType) "invalid pack event classification"
  rejected (record.predecessorPackIDs.length > maxHistoryPredecessors)
    "too many repack predecessors"
  encoded record.normalized.write

end PackHistoryEvent

def unmarshalPackHistoryEvent : Bytes → Result PackHistoryEvent :=
  decodedSized fun size => do
    let type ← Get.u8
    let packType ← Get.u8
    let backend ← Get.u64
    let physicalSize ← Get.u64
    let payloadSize ← Get.u64
    let usedDelta ← Get.i64
    let unusedDelta ← Get.i64
    let count ← named (malformed "invalid repack lineage count") Get.u32
    reject (count.toNat * 32 > size || count.toNat > maxHistoryPredecessors)
      "invalid repack lineage count"
    let predecessorPackIDs ← readEach Get.id count.toNat
    let runID ← Get.id
    let reasonCode ← Get.string
    reject (!validPackEventType type || !validPackType packType)
      "invalid pack event classification"
    Get.done
    pure { type, packType, backend, physicalSize, payloadSize, usedDelta, unusedDelta,
           predecessorPackIDs, runID, reasonCode }

namespace PackHistoryEvent

theorem appends_write (record : PackHistoryEvent) :
    ∃ size, Appends record.write size ∧ record.predecessorPackIDs.length * 32 ≤ size :=
  ⟨_, .bind .u8 <| .bind .u8 <| .bind .u64 <| .bind .u64 <|
    .bind .u64 <| .bind .i64 <| .bind .i64 <| .bind .u32 <|
    (Appends.eachOf (fun _ => .id) record.predecessorPackIDs).bind <| .bind .id .string,
    by omega⟩

theorem unmarshal_marshalBinary {record : PackHistoryEvent} {data : Bytes}
    (h : record.marshalBinary = .ok data) :
    unmarshalPackHistoryEvent data = .ok record.normalized := by
  obtain ⟨⟨⟩, htype, h⟩ := of_bind h
  obtain ⟨⟨⟩, hpackType, h⟩ := of_bind h
  obtain ⟨⟨⟩, hlineage, hencoded⟩ := of_bind h
  rw [rejected_eq_ok] at htype hpackType hlineage
  rw [decide_eq_false_iff_not] at hlineage
  obtain ⟨size, happends, hroom⟩ := record.normalized.appends_write
  obtain ⟨hlength, hmax⟩ := length_of_encoded hencoded happends
  have hids : record.normalized.predecessorPackIDs = record.predecessorPackIDs := rfl
  have hcount : (UInt32.ofNat record.normalized.predecessorPackIDs.length).toNat =
      record.normalized.predecessorPackIDs.length := toNat_count (by omega)
  refine decodedSized_encoded hencoded ?_
  refine .bind .u8 <| .bind .u8 <| .bind .u64 <|
    .bind .u64 <| .bind .u64 <| .bind .i64 <| .bind .i64 <| .bind (.named .u32) <| .checkRead ?_ <|
    .bind (.counted hcount fun _ _ _ => .id) <| .bind .id <| .last .string <|
    .checkRead ?_ .done
  · rw [rejected_eq_ok, hcount, Bool.or_eq_false_iff, decide_eq_false_iff_not,
      decide_eq_false_iff_not]
    exact ⟨by omega, by rwa [hids]⟩
  · rw [rejected_eq_ok, Bool.or_eq_false_iff]
    exact ⟨htype, hpackType⟩

end PackHistoryEvent

/-! ## Buckets and markers -/

/-- How much of the range of a bucket was observed. -/
abbrev HistoryCoverage := UInt8

def coverageComplete : HistoryCoverage := 1
def coveragePartial : HistoryCoverage := 2
def coverageReconstructed : HistoryCoverage := 3

def validHistoryCoverage (value : HistoryCoverage) : Bool :=
  coverageComplete ≤ value && value ≤ coverageReconstructed

/-- The events of one window, summed up. -/
structure PackHistoryBucket where
  (packsCreated packsDeleted packsRepacked packsPromoted bytesAdded bytesDeleted : UInt64)
  (bytesRepacked bytesPromoted endPackCount endPhysicalSize endPayloadSize : UInt64)
  coverage : HistoryCoverage
  eventsObserved : UInt64
  deriving DecidableEq, Repr

namespace PackHistoryBucket

/-- A missing coverage is written as complete. -/
def normalized (record : PackHistoryBucket) : PackHistoryBucket :=
  { record with coverage := if record.coverage = 0 then coverageComplete else record.coverage }

def write (record : PackHistoryBucket) : Encoder := do
  Put.u64 record.packsCreated
  Put.u64 record.packsDeleted
  Put.u64 record.packsRepacked
  Put.u64 record.packsPromoted
  Put.u64 record.bytesAdded
  Put.u64 record.bytesDeleted
  Put.u64 record.bytesRepacked
  Put.u64 record.bytesPromoted
  Put.u64 record.endPackCount
  Put.u64 record.endPhysicalSize
  Put.u64 record.endPayloadSize
  Put.u64 record.eventsObserved
  Put.u8 record.coverage

def marshalBinary (record : PackHistoryBucket) : Result Bytes := do
  rejected (!validHistoryCoverage record.normalized.coverage) "invalid history coverage"
  encoded record.normalized.write

end PackHistoryBucket

def unmarshalPackHistoryBucket : Bytes → Result PackHistoryBucket := decoded do
  let packsCreated ← Get.u64
  let packsDeleted ← Get.u64
  let packsRepacked ← Get.u64
  let packsPromoted ← Get.u64
  let bytesAdded ← Get.u64
  let bytesDeleted ← Get.u64
  let bytesRepacked ← Get.u64
  let bytesPromoted ← Get.u64
  let endPackCount ← Get.u64
  let endPhysicalSize ← Get.u64
  let endPayloadSize ← Get.u64
  let eventsObserved ← Get.u64
  let coverage ← named (malformed "invalid history coverage") Get.u8
  reject (!validHistoryCoverage coverage) "invalid history coverage"
  Get.done
  pure { packsCreated, packsDeleted, packsRepacked, packsPromoted, bytesAdded, bytesDeleted,
         bytesRepacked, bytesPromoted, endPackCount, endPhysicalSize, endPayloadSize, coverage,
         eventsObserved }

theorem PackHistoryBucket.unmarshal_marshalBinary {record : PackHistoryBucket} {data : Bytes}
    (h : record.marshalBinary = .ok data) :
    unmarshalPackHistoryBucket data = .ok record.normalized := by
  obtain ⟨⟨⟩, hcoverage, hencoded⟩ := of_bind h
  refine decoded_encoded hencoded ?_
  exact .bind .u64 <| .bind .u64 <| .bind .u64 <| .bind .u64 <| .bind .u64 <| .bind .u64 <|
    .bind .u64 <| .bind .u64 <| .bind .u64 <| .bind .u64 <| .bind .u64 <| .bind .u64 <|
    .last (.named .u8) <| .checkRead hcoverage .done

/-- A boundary in unix seconds. -/
structure HistoryMarker where
  unixSeconds : UInt64

def HistoryMarker.marshalBinary (record : HistoryMarker) : Result Bytes :=
  encoded (Put.u64 record.unixSeconds)

def unmarshalHistoryMarker : Bytes → Result HistoryMarker := decoded do
  let unixSeconds ← Get.u64
  Get.done
  pure { unixSeconds }

theorem HistoryMarker.unmarshal_marshalBinary : ReadsBack marshalBinary unmarshalHistoryMarker :=
  readsBack fun _ =>
    .last .u64 .done

end Vaultic.Wire
