/-
  Wire/Packs.lean  —  the records of blobs, packs and placements
  (`internal/index/schema/records.go`).

  Each record has the checks of its `MarshalBinary`, its fields in the order they are
  written, and its reader, followed by the theorem that the reader takes back every
  accepted record, up to `normalized` where the writer fills in a value.
-/
import Vaultic.Wire.KeyParse

set_option autoImplicit false

namespace Vaultic.Wire

open Vaultic.Lib
open Vaultic.Schema (ID)

/-! ## Blobs -/

/-- What a blob holds. -/
abbrev BlobType := UInt8

def blobData : BlobType := 1
def blobTree : BlobType := 2

/-- A copy of a blob in a pack. -/
structure BlobLocation where
  packID : ID
  offset : UInt64
  (length uncompressedSize : UInt32)
  type : BlobType

/-- The copies of a blob. -/
structure BlobRecord where
  locations : List BlobLocation

namespace BlobRecord

def writeLocation (location : BlobLocation) : Encoder := do
  reject (location.type != blobData && location.type != blobTree) "invalid blob type"
  Put.id location.packID
  Put.u64 location.offset
  Put.u32 location.length
  Put.u32 location.uncompressedSize
  Put.u8 location.type

def marshalBinary (record : BlobRecord) : Result Bytes := do
  rejected record.locations.isEmpty "blob has no locations"
  encoded do
    Put.u32 (UInt32.ofNat record.locations.length)
    writeEach writeLocation record.locations

def readLocation : Decoder BlobLocation := do
  let packID ← Get.id
  let offset ← Get.u64
  let length ← Get.u32
  let uncompressedSize ← Get.u32
  let type ← Get.u8
  reject (type != blobData && type != blobTree) "invalid blob type"
  pure { packID, offset, length, uncompressedSize, type }

end BlobRecord

def unmarshalBlobRecord : Bytes → Result BlobRecord := decodedSized fun size => do
  let count ← named (malformed "invalid blob location count") Get.u32
  reject (count == 0 || count.toNat * 49 > size) "invalid blob location count"
  let locations ← readEach BlobRecord.readLocation count.toNat
  Get.done
  pure { locations }

namespace BlobRecord

theorem readLocation_roundTrips (location : BlobLocation) (rest : Bytes) :
    RoundTrips rest (writeLocation location) readLocation location :=
  .checkWrite fun htype => .bind .id <| .bind .u64 <|
    .bind .u32 <| .bind .u32 <| .last .u8 <| .checkRead htype .pure

theorem unmarshal_marshalBinary : ReadsBack marshalBinary unmarshalBlobRecord := by
  intro record data h
  obtain ⟨⟨⟩, hsome, hencoded⟩ := of_bind h
  obtain ⟨hlength, hmax⟩ := length_of_encoded hencoded <| .bind .u32 <|
    .eachOf (fun _ => .checked <| .bind .id <| .bind .u64 <| .bind .u32 <|
      .bind .u32 .u8) record.locations
  have hle : record.locations.length ≤ maxEncodedValueBytes := by omega
  refine decodedSized_encoded hencoded ?_
  refine .bind (.named .u32) <| .checkRead ?_ <|
    .last (.counted (toNat_count hle) fun location _ => readLocation_roundTrips location) .done
  rw [rejected_eq_ok, Bool.or_eq_false_iff, beq_eq_false_iff_ne, ne_eq, count_eq_zero_iff hle,
    toNat_count hle]
  exact ⟨by simpa [rejected_eq_ok] using hsome, by simp; omega⟩

end BlobRecord

/-! ## Placements -/

/-- The state of a copy. -/
abbrev PlacementState := UInt8

def placementPending : PlacementState := 1
def placementEvicting : PlacementState := 3
def placementEvicted : PlacementState := 4
def placementFailed : PlacementState := 5

def validPlacementState (value : PlacementState) : Bool :=
  placementPending ≤ value && value ≤ placementFailed

/-- Where a retention deadline comes from. -/
abbrev RetentionSource := UInt8

def retentionUnknown : RetentionSource := 1
def retentionBackend : RetentionSource := 3

def validRetentionSource (value : RetentionSource) : Bool :=
  retentionUnknown ≤ value && value ≤ retentionBackend

/-- A copy of a pack on a backend. -/
structure PlacementRecord where
  state : PlacementState
  storageClass : Bytes
  placedAt : Int64
  placementTimeKnown : Bool
  bytes : UInt64
  minRetentionUntil : Int64
  retentionSource : RetentionSource
  (deleteAfter lastVerifiedAt : Int64)

namespace PlacementRecord

/-- A missing retention source is written as unknown. -/
def normalized (record : PlacementRecord) : PlacementRecord :=
  if record.retentionSource = 0 then { record with retentionSource := retentionUnknown }
  else record

def validate (record : PlacementRecord) : Result Unit := do
  let record := record.normalized
  rejected (!validPlacementState record.state || !validRetentionSource record.retentionSource)
    "invalid placement state"
  rejected (!record.placementTimeKnown && record.placedAt != 0)
    "placement time without a known flag"
  rejected (record.retentionSource == retentionUnknown && record.minRetentionUntil != 0)
    "placement retention deadline without a source"
  rejected (record.deleteAfter != 0 && record.state != placementEvicting &&
    record.state != placementEvicted) "placement delete deadline without evicting state"

def write (record : PlacementRecord) : Encoder := do
  Put.u8 record.state
  Put.string record.storageClass
  Put.i64 record.placedAt
  Put.bool record.placementTimeKnown
  Put.u64 record.bytes
  Put.i64 record.minRetentionUntil
  Put.u8 record.retentionSource
  Put.i64 record.deleteAfter
  Put.i64 record.lastVerifiedAt

def marshalBinary (record : PlacementRecord) : Result Bytes := do
  record.normalized.validate
  encoded record.normalized.write

end PlacementRecord

def unmarshalPlacementRecord : Bytes → Result PlacementRecord := decoded do
  let state ← Get.u8
  let storageClass ← Get.string
  let placedAt ← Get.i64
  let placementTimeKnown ← Get.bool
  let bytes ← Get.u64
  let minRetentionUntil ← Get.i64
  let retentionSource ← Get.u8
  let deleteAfter ← Get.i64
  let lastVerifiedAt ← Get.i64
  let record : PlacementRecord :=
    { state, storageClass, placedAt, placementTimeKnown, bytes, minRetentionUntil,
      retentionSource, deleteAfter, lastVerifiedAt }
  check record.validate
  Get.done
  pure record

variable {data : Bytes}

theorem PlacementRecord.unmarshal_marshalBinary {record : PlacementRecord}
    (h : record.marshalBinary = .ok data) :
    unmarshalPlacementRecord data = .ok record.normalized := by
  obtain ⟨⟨⟩, hvalid, hencoded⟩ := of_bind h
  refine decoded_encoded hencoded ?_
  exact .bind .u8 <| .bind .string <| .bind .i64 <| .bind .bool <| .bind .u64 <| .bind .i64 <|
    .bind .u8 <| .bind .i64 <| .last .i64 <| .checkRead hvalid .done

/-- The same copy, under the backend. -/
structure BackendPackRecord where
  state : PlacementState
  bytes : UInt64
  placedAt : Int64

def BackendPackRecord.marshalBinary (record : BackendPackRecord) : Result Bytes := do
  rejected (!validPlacementState record.state) "invalid backend-pack state"
  encoded do
    Put.u8 record.state
    Put.u64 record.bytes
    Put.i64 record.placedAt

def unmarshalBackendPackRecord : Bytes → Result BackendPackRecord := decoded do
  let state ← Get.u8
  let bytes ← Get.u64
  let placedAt ← Get.i64
  reject (!validPlacementState state) "invalid backend-pack state"
  Get.done
  pure { state, bytes, placedAt }

theorem BackendPackRecord.unmarshal_marshalBinary :
    ReadsBack marshalBinary unmarshalBackendPackRecord :=
  readsBack_checked fun _ hvalid =>
    .bind .u8 <| .bind .u64 <| .last .i64 <| .checkRead hvalid .done

/-- A copy that waits for its deletion. -/
structure PlacementDeleteRecord where
  (backend physicalSize : UInt64)
  reason : Bytes
  runID : ID

def PlacementDeleteRecord.marshalBinary (record : PlacementDeleteRecord) : Result Bytes := do
  rejected (record.backend == 0) "placement delete queue without backend"
  encoded do
    Put.u64 record.backend
    Put.u64 record.physicalSize
    Put.string record.reason
    Put.id record.runID

def unmarshalPlacementDeleteRecord : Bytes → Result PlacementDeleteRecord := decoded do
  let backend ← Get.u64
  let physicalSize ← Get.u64
  let reason ← Get.string
  let runID ← Get.id
  reject (backend == 0) "placement delete queue without backend"
  Get.done
  pure { backend, physicalSize, reason, runID }

theorem PlacementDeleteRecord.unmarshal_marshalBinary :
    ReadsBack marshalBinary unmarshalPlacementDeleteRecord :=
  readsBack_checked fun _ hvalid =>
    .bind .u64 <| .bind .u64 <| .bind .string <| .last .id <| .checkRead hvalid .done

/-- How long the content of a pack is kept. -/
structure PromotionEligibilityRecord where
  (survivalUntil evaluatedAt : Int64)
  indefinite : Bool

namespace PromotionEligibilityRecord

/-- The condition both the writer and the reader refuse. -/
def invalid (record : PromotionEligibilityRecord) : Bool :=
  record.evaluatedAt ≤ 0 || (!record.indefinite && record.survivalUntil ≤ 0)

def marshalBinary (record : PromotionEligibilityRecord) : Result Bytes := do
  rejected record.invalid "invalid promotion eligibility"
  encoded do
    Put.i64 record.survivalUntil
    Put.i64 record.evaluatedAt
    Put.bool record.indefinite

end PromotionEligibilityRecord

def unmarshalPromotionEligibilityRecord : Bytes → Result PromotionEligibilityRecord :=
  decoded do
    let survivalUntil ← Get.i64
    let evaluatedAt ← Get.i64
    let indefinite ← Get.bool
    let record : PromotionEligibilityRecord := { survivalUntil, evaluatedAt, indefinite }
    reject record.invalid "invalid promotion eligibility"
    Get.done
    pure record

theorem PromotionEligibilityRecord.unmarshal_marshalBinary :
    ReadsBack marshalBinary unmarshalPromotionEligibilityRecord :=
  readsBack_checked fun _ hvalid =>
    .bind .i64 <| .bind .i64 <| .last .bool <| .checkRead hvalid .done

/-- Why a pack replaced another. -/
abbrev RepackLineageKind := UInt8

def lineageRepack : RepackLineageKind := 1
def lineagePromotion : RepackLineageKind := 2

/-- The run in which a pack replaced another. -/
structure RepackLineageRecord where
  runID : ID
  kind : RepackLineageKind

def RepackLineageRecord.marshalBinary (record : RepackLineageRecord) : Result Bytes :=
  encoded do
    Put.id record.runID
    reject (record.kind != lineageRepack && record.kind != lineagePromotion)
      "invalid repack lineage kind"
    Put.u8 record.kind

def unmarshalRepackLineageRecord : Bytes → Result RepackLineageRecord := decoded do
  let runID ← Get.id
  let kind ← named (malformed "invalid repack lineage kind") Get.u8
  reject (kind != lineageRepack && kind != lineagePromotion) "invalid repack lineage kind"
  Get.done
  pure { runID, kind }

theorem RepackLineageRecord.unmarshal_marshalBinary :
    ReadsBack marshalBinary unmarshalRepackLineageRecord := by
  intro record data h
  refine decoded_encoded h ?_
  exact .bind .id <| .checkWrite fun hkind =>
    .last (.named .u8) <| .checkRead hkind .done

/-- What a request asks for. -/
abbrev PlacementRequestOperation := UInt8

def placementRequestPlace : PlacementRequestOperation := 1
def placementRequestEvict : PlacementRequestOperation := 3

def validPlacementRequestOperation (operation : PlacementRequestOperation) : Bool :=
  placementRequestPlace ≤ operation && operation ≤ placementRequestEvict

/-- What is to be done with the copies of a pack. -/
structure PlacementRequestRecord where
  classes : List Bytes
  operation : PlacementRequestOperation
  targetBackend : UInt64
  attempts : UInt32
  (lastAttempt notBefore : Int64)
  lastError : Bytes

namespace PlacementRequestRecord

def writeClass (name : Bytes) : Encoder := do
  reject name.isEmpty "empty placement request class"
  Put.string name

def marshalBinary (record : PlacementRequestRecord) : Result Bytes := do
  rejected record.classes.isEmpty "placement request requires at least one class"
  rejected (!validPlacementRequestOperation record.operation || record.targetBackend == 0)
    "placement request requires an operation and target backend"
  encoded do
    Put.u32 (UInt32.ofNat record.classes.length)
    writeEach writeClass record.classes
    Put.u8 record.operation
    Put.u64 record.targetBackend
    Put.u32 record.attempts
    Put.i64 record.lastAttempt
    Put.i64 record.notBefore
    Put.string record.lastError

def readClass : Decoder Bytes := do
  let name ← Get.string
  reject name.isEmpty "empty placement request class"
  pure name

end PlacementRequestRecord

def unmarshalPlacementRequestRecord : Bytes → Result PlacementRequestRecord := decoded do
  let count ← named (malformed "invalid placement request class count") Get.u32
  reject (count == 0 || count > 1024) "invalid placement request class count"
  let classes ← readEach PlacementRequestRecord.readClass count.toNat
  let operation ← Get.u8
  let targetBackend ← Get.u64
  let attempts ← Get.u32
  let lastAttempt ← Get.i64
  let notBefore ← Get.i64
  let lastError ← Get.string
  reject (!validPlacementRequestOperation operation || targetBackend == 0)
    "invalid placement request operation or backend"
  Get.done
  pure { classes, operation, targetBackend, attempts, lastAttempt, notBefore, lastError }

/-- Only the reader bounds the number of classes. -/
theorem PlacementRequestRecord.unmarshal_marshalBinary {record : PlacementRequestRecord}
    (hclasses : record.classes.length ≤ 1024) (h : record.marshalBinary = .ok data) :
    unmarshalPlacementRequestRecord data = .ok record := by
  obtain ⟨⟨⟩, hsome, h⟩ := of_bind h
  obtain ⟨⟨⟩, hvalid, hencoded⟩ := of_bind h
  have hle : record.classes.length ≤ maxEncodedValueBytes := hclasses.trans (by decide)
  have hitem (name : Bytes) (_ : name ∈ record.classes) (rest : Bytes) :
      RoundTrips rest (writeClass name) readClass name :=
    .checkWrite fun hname => .last .string <| .checkRead hname .pure
  refine decoded_encoded hencoded ?_
  refine .bind (.named .u32) <| .checkRead ?_ <|
    .bind (.counted (toNat_count hle) hitem) <| .bind .u8 <| .bind .u64 <| .bind .u32 <|
    .bind .i64 <| .bind .i64 <| .last .string <| .checkRead (rejected_retext hvalid) .done
  rw [rejected_eq_ok, Bool.or_eq_false_iff, beq_eq_false_iff_ne, ne_eq, count_eq_zero_iff hle,
    decide_eq_false_iff_not, gt_iff_lt, UInt32.lt_iff_toNat_lt, toNat_count hle]
  exact ⟨by simpa [rejected_eq_ok] using hsome, by simpa using hclasses⟩

/-! ## Packs -/

/-- The state of a pack in the catalog. -/
abbrev PackLifecycle := UInt8

def packImported : PackLifecycle := 1
def packStateUnknown : PackLifecycle := 7

def validPackLifecycle (value : PackLifecycle) : Bool :=
  packImported ≤ value && value ≤ packStateUnknown

/-- The sum of two sizes, unless it overflows. -/
def add (left right : UInt64) : Option UInt64 :=
  if 18446744073709551615 - left < right then none else some (left + right)

/-- A pack file in the catalog. -/
structure PackRecord where
  type : PackType
  (physicalSize payloadSize headerSize blobCount : UInt64)
  physicalSizeKnown : Bool
  creationTime : Int64
  creationTimeKnown : Bool
  lifecycle : PackLifecycle
  sourceIndexIDs : List ID
  tier : PackTier
  storageClass : Bytes
  minRetentionUntil : Int64
  retentionSource : RetentionSource
  (usedPayloadBytes unusedPayloadBytes : UInt64)
  usageKnown : Bool
  deleteAfter : Int64

namespace PackRecord

section

variable (record : PackRecord)

/-- An unset tier or retention source is recorded as unknown. -/
def normalized : PackRecord :=
  { record with
    tier := if record.tier = 0 then tierUnknown else record.tier
    retentionSource :=
      if record.retentionSource = 0 then retentionUnknown else record.retentionSource }

def validatePackLifetime : Result Unit := do
  rejected (!validPackTier record.tier || !validRetentionSource record.retentionSource)
    "invalid pack tier state"
  rejected (record.retentionSource == retentionUnknown && record.minRetentionUntil != 0)
    "retention deadline without a source"
  rejected (record.retentionSource != retentionUnknown && !record.creationTimeKnown)
    "retention deadline without a known creation time"
  rejected (!record.creationTimeKnown && record.creationTime != 0)
    "creation time without a known flag"
  rejected (!record.usageKnown &&
    (record.usedPayloadBytes != 0 || record.unusedPayloadBytes != 0))
    "usage accounting without a known flag"
  rejected (record.usageKnown &&
    add record.usedPayloadBytes record.unusedPayloadBytes != some record.payloadSize)
    "usage accounting does not sum to the payload size"

/-- The checks that `MarshalBinary` and `UnmarshalPackRecord` have in common. -/
def validate : Result Unit := do
  rejected (!validPackType record.type || !validPackLifecycle record.lifecycle)
    "invalid pack classification"
  rejected ((!record.physicalSizeKnown && (record.physicalSize != 0 || record.headerSize != 0)) ||
    (record.physicalSizeKnown && record.physicalSize ≥ record.payloadSize &&
      record.headerSize != record.physicalSize - record.payloadSize) ||
    (record.physicalSizeKnown && record.physicalSize < record.payloadSize &&
      record.headerSize != 0)) "invalid pack size state"
  record.validatePackLifetime

/-- The fields that records of earlier releases end before. -/
def writeLifetime : Encoder := do
  Put.u8 record.tier
  Put.string record.storageClass
  Put.i64 record.minRetentionUntil
  Put.u8 record.retentionSource
  Put.bool record.usageKnown
  Put.u64 record.usedPayloadBytes
  Put.u64 record.unusedPayloadBytes
  Put.i64 record.deleteAfter

def write : Encoder := do
  Put.u8 record.type
  Put.u64 record.physicalSize
  Put.u64 record.payloadSize
  Put.u64 record.headerSize
  Put.u64 record.blobCount
  Put.i64 record.creationTime
  Put.bool record.creationTimeKnown
  Put.u8 record.lifecycle
  Put.u32 (UInt32.ofNat record.sourceIndexIDs.length)
  writeEach Put.id record.sourceIndexIDs
  Put.bool record.physicalSizeKnown
  record.writeLifetime

def marshalBinary : Result Bytes := do
  record.normalized.validate
  encoded record.normalized.write

/-- The fields behind `PhysicalSizeKnown`, into a record without them. -/
def readLifetime : Decoder PackRecord := do
  let tier ← Get.u8
  let storageClass ← Get.string
  let minRetentionUntil ← Get.i64
  let retentionSource ← Get.u8
  let usageKnown ← Get.bool
  let usedPayloadBytes ← Get.u64
  let unusedPayloadBytes ← Get.u64
  let deleteAfter ← Get.i64
  pure { record with
    tier, storageClass, minRetentionUntil, retentionSource, usageKnown, usedPayloadBytes,
    unusedPayloadBytes, deleteAfter }

end

end PackRecord

def unmarshalPackRecord : Bytes → Result PackRecord := decodedSized fun size => do
  let type ← Get.u8
  let physicalSize ← Get.u64
  let payloadSize ← Get.u64
  let headerSize ← Get.u64
  let blobCount ← Get.u64
  let creationTime ← Get.i64
  let creationTimeKnown ← Get.bool
  let lifecycle ← Get.u8
  let count ← named (malformed "invalid provenance count") Get.u32
  reject (count.toNat * 32 > size) "invalid provenance count"
  let sourceIndexIDs ← readEach Get.id count.toNat
  let physicalSizeKnown ← orDefault (physicalSize != 0) Get.bool
  -- a record of an earlier release ends here, with an unknown tier and retention
  let short : PackRecord :=
    { type, physicalSize, payloadSize, headerSize, blobCount, creationTime, creationTimeKnown,
      lifecycle, sourceIndexIDs, physicalSizeKnown, tier := tierUnknown, storageClass := [],
      minRetentionUntil := 0, retentionSource := retentionUnknown, usageKnown := false,
      usedPayloadBytes := 0, unusedPayloadBytes := 0, deleteAfter := 0 }
  let record ← orDefault short short.readLifetime
  check record.validate
  Get.done
  pure record

namespace PackRecord

theorem appends_writeLifetime (record : PackRecord) :
    Appends record.writeLifetime (1 + (4 + record.storageClass.length + 34)) :=
  .bind .u8 <| .bind .string <| .bind .i64 <| .bind .u8 <|
    .bind .bool <| .bind .u64 <| .bind .u64 .i64

theorem appends_write (record : PackRecord) :
    ∃ size, Appends record.write size ∧ record.sourceIndexIDs.length * 32 ≤ size :=
  ⟨_, .bind .u8 <| .bind .u64 <| .bind .u64 <| .bind .u64 <|
    .bind .u64 <| .bind .i64 <| .bind .bool <| .bind .u8 <|
    .bind .u32 <| (Appends.eachOf (fun _ => .id) record.sourceIndexIDs).bind <|
    .bind .bool record.appends_writeLifetime, by omega⟩

theorem readLifetime_roundTrips (record short : PackRecord) (rest : Bytes) :
    RoundTrips rest record.writeLifetime (orDefault short short.readLifetime)
      { short with
        tier := record.tier, storageClass := record.storageClass
        minRetentionUntil := record.minRetentionUntil, retentionSource := record.retentionSource
        usageKnown := record.usageKnown, usedPayloadBytes := record.usedPayloadBytes
        unusedPayloadBytes := record.unusedPayloadBytes, deleteAfter := record.deleteAfter } :=
  .orDefault record.appends_writeLifetime (by omega) <|
    .bind .u8 <| .bind .string <| .bind .i64 <| .bind .u8 <| .bind .bool <| .bind .u64 <|
    .bind .u64 <| .last .i64 .pure

/-- The reader takes back what was written of `record`. -/
theorem read_write {record : PackRecord} (hvalid : record.validate = .ok ())
    (hencoded : encoded record.write = .ok data) : unmarshalPackRecord data = .ok record := by
  obtain ⟨size, happends, hroom⟩ := record.appends_write
  obtain ⟨hlength, hmax⟩ := length_of_encoded hencoded happends
  have hle : record.sourceIndexIDs.length ≤ maxEncodedValueBytes := by omega
  refine decodedSized_encoded hencoded ?_
  refine .bind .u8 <| .bind .u64 <| .bind .u64 <|
    .bind .u64 <| .bind .u64 <| .bind .i64 <| .bind .bool <| .bind .u8 <| .bind (.named .u32) <|
    .checkRead ?_ <| .bind (.counted (toNat_count hle) fun _ _ _ => .id) <|
    .bind (.orDefault .bool (by decide) .bool) <|
    .last (readLifetime_roundTrips record _ _) <| .checkRead hvalid .done
  rw [rejected_eq_ok, toNat_count hle, decide_eq_false_iff_not]
  omega

theorem unmarshal_marshalBinary {record : PackRecord} (h : record.marshalBinary = .ok data) :
    unmarshalPackRecord data = .ok record.normalized := by
  obtain ⟨⟨⟩, hvalid, hencoded⟩ := of_bind h
  exact read_write hvalid hencoded

end PackRecord

/-- The totals of the packs of one type or tier. -/
structure PackAggregate where
  (packCount physicalSize payloadSize headerSize blobCount updateSequence usedPayloadBytes : UInt64)
  (unusedPayloadBytes accountedPackCount : UInt64)

namespace PackAggregate

def writeUsage (record : PackAggregate) : Encoder := do
  Put.u64 record.usedPayloadBytes
  Put.u64 record.unusedPayloadBytes
  Put.u64 record.accountedPackCount

def marshalBinary (record : PackAggregate) : Result Bytes := encoded do
  Put.u64 record.packCount
  Put.u64 record.physicalSize
  Put.u64 record.payloadSize
  Put.u64 record.headerSize
  Put.u64 record.blobCount
  Put.u64 record.updateSequence
  record.writeUsage

def readUsage : Decoder (UInt64 × UInt64 × UInt64) := do
  let usedPayloadBytes ← Get.u64
  let unusedPayloadBytes ← Get.u64
  let accountedPackCount ← Get.u64
  pure (usedPayloadBytes, unusedPayloadBytes, accountedPackCount)

end PackAggregate

def unmarshalPackAggregate : Bytes → Result PackAggregate := decoded do
  let packCount ← Get.u64
  let physicalSize ← Get.u64
  let payloadSize ← Get.u64
  let headerSize ← Get.u64
  let blobCount ← Get.u64
  let updateSequence ← Get.u64
  -- an aggregate of an earlier release ends here
  let (usedPayloadBytes, unusedPayloadBytes, accountedPackCount) ←
    orDefault (0, 0, 0) PackAggregate.readUsage
  Get.done
  pure { packCount, physicalSize, payloadSize, headerSize, blobCount, updateSequence,
         usedPayloadBytes, unusedPayloadBytes, accountedPackCount }

theorem PackAggregate.unmarshal_marshalBinary : ReadsBack marshalBinary unmarshalPackAggregate := by
  intro record data h
  have husage (rest : Bytes) : RoundTrips rest record.writeUsage (orDefault (0, 0, 0) readUsage)
      (record.usedPayloadBytes, record.unusedPayloadBytes, record.accountedPackCount) :=
    .orDefault (.bind .u64 <| .bind .u64 .u64) (by decide) <|
      .bind .u64 <| .bind .u64 <| .last .u64 .pure
  refine decoded_encoded h ?_
  exact .bind .u64 <| .bind .u64 <| .bind .u64 <| .bind .u64 <| .bind .u64 <| .bind .u64 <|
    .last (husage _) .done

/-! ## Pointers to a current revision -/

/-- Which revision is the current one. -/
structure CurrentPointer where
  revision : UInt64
  recordKey : Bytes

namespace CurrentPointer

/-- `recordKey` is not the key of this revision of an inode or a directory. -/
def mismatch (revision : UInt64) (recordKey : Bytes) : Bool :=
  match parseKey recordKey with
  | .error _ => true
  | .ok parsed =>
    (parsed.kind != .inodeRevision && parsed.kind != .directoryRevision) ||
      parsed.revision != revision

def marshalBinary (record : CurrentPointer) : Result Bytes := do
  rejected (record.revision == 0) "zero revision"
  rejected (mismatch record.revision record.recordKey) "current pointer target mismatch"
  encoded do
    Put.u64 record.revision
    Put.bytes record.recordKey

end CurrentPointer

def unmarshalCurrentPointer : Bytes → Result CurrentPointer := decoded do
  let revision ← named (malformed "invalid current revision") Get.u64
  reject (revision == 0) "invalid current revision"
  let recordKey ← Get.bytes
  reject (CurrentPointer.mismatch revision recordKey) "current pointer target mismatch"
  Get.done
  pure { revision, recordKey }

theorem CurrentPointer.unmarshal_marshalBinary :
    ReadsBack marshalBinary unmarshalCurrentPointer := by
  intro record data h
  obtain ⟨⟨⟩, hrevision, h⟩ := of_bind h
  obtain ⟨⟨⟩, htarget, hencoded⟩ := of_bind h
  refine decoded_encoded hencoded ?_
  exact .bind (.named .u64) <| .checkRead (rejected_retext hrevision) <| .last .bytes <|
    .checkRead htarget .done

end Vaultic.Wire
