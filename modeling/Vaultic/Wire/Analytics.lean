/-
  Wire/Analytics.lean  —  the records of the analytics engine
  (`internal/index/schema/analytics.go`): fact segments and their indexes, deltas,
  crawl proofs, manifests, aggregates and queries.
-/
import Vaultic.Wire.Inodes

set_option autoImplicit false

namespace Vaultic.Wire

open Vaultic.Lib
open Vaultic.Schema (ID)

/-! ## Segments -/

/-- Which field of a fact a column holds. -/
abbrev AnalyticsColumnKind := UInt8

def analyticsColumnSizeLog10 : AnalyticsColumnKind := 15

/-- How a column is encoded. -/
abbrev AnalyticsColumnCodec := UInt8

def analyticsCodecRaw : AnalyticsColumnCodec := 1
def analyticsCodecZstd : AnalyticsColumnCodec := 4
def analyticsCodecRoaring : AnalyticsColumnCodec := 5

/-- A column of a segment of facts. -/
structure AnalyticsColumn where
  kind : AnalyticsColumnKind
  codec : AnalyticsColumnCodec
  data : Bytes

/-- A segment of facts, column by column. -/
structure AnalyticsFactSegmentRecord where
  rowCount : UInt32
  columns : List AnalyticsColumn

/-- Columns with kinds above `previous`, in increasing order. -/
def validColumns (previous : AnalyticsColumnKind) : List AnalyticsColumn → Bool
  | [] => true
  | column :: columns =>
    if column.kind ≤ previous || column.kind > analyticsColumnSizeLog10 ||
        column.codec < analyticsCodecRaw || column.codec > analyticsCodecZstd ||
        column.data.isEmpty then false
    else validColumns column.kind columns

def validAnalyticsFactSegment (record : AnalyticsFactSegmentRecord) : Bool :=
  if record.rowCount == 0 || record.columns.isEmpty ||
      record.columns.length > analyticsColumnSizeLog10.toNat then false
  else validColumns 0 record.columns

namespace AnalyticsFactSegmentRecord

def writeColumn (column : AnalyticsColumn) : Encoder := do
  Put.u8 column.kind
  Put.u8 column.codec
  Put.bytes column.data

def marshalBinary (record : AnalyticsFactSegmentRecord) : Result Bytes := do
  rejected (!validAnalyticsFactSegment record) "invalid analytics fact segment"
  encoded do
    Put.u32 record.rowCount
    Put.u16 (UInt16.ofNat record.columns.length)
    writeEach writeColumn record.columns

def readColumn : Decoder AnalyticsColumn := do
  let kind ← Get.u8
  let codec ← Get.u8
  let data ← Get.bytes
  pure { kind, codec, data }

end AnalyticsFactSegmentRecord

def unmarshalAnalyticsFactSegmentRecord : Bytes → Result AnalyticsFactSegmentRecord :=
  decoded do
    let rowCount ← Get.u32
    let count ← Get.u16
    let columns ← readEach AnalyticsFactSegmentRecord.readColumn count.toNat
    let record : AnalyticsFactSegmentRecord := { rowCount, columns }
    reject (!validAnalyticsFactSegment record) "invalid analytics fact segment"
    Get.done
    pure record

theorem length_columns_le {record : AnalyticsFactSegmentRecord}
    (h : validAnalyticsFactSegment record = true) : record.columns.length ≤ 15 := by
  unfold validAnalyticsFactSegment at h
  split_ifs at h with hinvalid
  simp only [Bool.or_eq_true, not_or, decide_eq_true_eq, not_lt] at hinvalid
  exact hinvalid.2

theorem AnalyticsFactSegmentRecord.unmarshal_marshalBinary :
    ReadsBack marshalBinary unmarshalAnalyticsFactSegmentRecord := by
  intro record data h
  obtain ⟨⟨⟩, hvalid, hencoded⟩ := of_bind h
  have hle := length_columns_le (by simpa [rejected_eq_ok] using hvalid)
  have hcount : (UInt16.ofNat record.columns.length).toNat = record.columns.length := by
    rw [UInt16.toNat_ofNat', Nat.mod_eq_of_lt (by omega)]
  have hcolumn (column : AnalyticsColumn) (_ : column ∈ record.columns) (rest : Bytes) :
      RoundTrips rest (writeColumn column) readColumn column :=
    .bind .u8 <| .bind .u8 <| .last .bytes .pure
  refine decoded_encoded hencoded ?_
  exact .bind .u32 <| .bind .u16 <| .last (.counted hcount hcolumn) <| .checkRead hvalid .done

/-- The text that a dictionary number stands for. -/
structure AnalyticsDictionaryRecord where
  value : Bytes

def AnalyticsDictionaryRecord.marshalBinary (record : AnalyticsDictionaryRecord) :
    Result Bytes := do
  rejected record.value.isEmpty "empty analytics dictionary value"
  encoded (Put.string record.value)

def unmarshalAnalyticsDictionaryRecord : Bytes → Result AnalyticsDictionaryRecord :=
  decoded do
    let value ← named (malformed "empty analytics dictionary value") Get.string
    reject value.isEmpty "empty analytics dictionary value"
    Get.done
    pure { value }

theorem AnalyticsDictionaryRecord.unmarshal_marshalBinary :
    ReadsBack marshalBinary unmarshalAnalyticsDictionaryRecord :=
  readsBack_checked fun _ hvalid =>
    .last (.named .string) <| .checkRead hvalid .done

/-- What a segment covers, so that a query can skip it. -/
structure AnalyticsSegmentMetadataRecord where
  rowCount : UInt32
  (minCreatedAt maxCreatedAt : Int64)
  (minLogicalSize maxLogicalSize minRevision maxRevision firstCommit lastCommit : UInt64)
  classificationEpoch : UInt64
  (bloom codecParameters : Bytes)

def validAnalyticsSegmentMetadata (record : AnalyticsSegmentMetadataRecord) : Bool :=
  record.rowCount > 0 && record.minCreatedAt ≤ record.maxCreatedAt &&
    record.minLogicalSize ≤ record.maxLogicalSize && record.minRevision > 0 &&
    record.minRevision ≤ record.maxRevision && record.firstCommit > 0 &&
    record.firstCommit ≤ record.lastCommit && record.classificationEpoch > 0

def AnalyticsSegmentMetadataRecord.marshalBinary (record : AnalyticsSegmentMetadataRecord) :
    Result Bytes := do
  rejected (!validAnalyticsSegmentMetadata record) "invalid analytics segment metadata"
  encoded do
    Put.u32 record.rowCount
    Put.i64 record.minCreatedAt
    Put.i64 record.maxCreatedAt
    Put.u64 record.minLogicalSize
    Put.u64 record.maxLogicalSize
    Put.u64 record.minRevision
    Put.u64 record.maxRevision
    Put.u64 record.firstCommit
    Put.u64 record.lastCommit
    Put.u64 record.classificationEpoch
    Put.bytes record.bloom
    Put.string record.codecParameters

def unmarshalAnalyticsSegmentMetadataRecord : Bytes → Result AnalyticsSegmentMetadataRecord :=
  decoded do
    let rowCount ← Get.u32
    let minCreatedAt ← Get.i64
    let maxCreatedAt ← Get.i64
    let minLogicalSize ← Get.u64
    let maxLogicalSize ← Get.u64
    let minRevision ← Get.u64
    let maxRevision ← Get.u64
    let firstCommit ← Get.u64
    let lastCommit ← Get.u64
    let classificationEpoch ← Get.u64
    let bloom ← Get.bytes
    let codecParameters ← Get.string
    let record : AnalyticsSegmentMetadataRecord :=
      { rowCount, minCreatedAt, maxCreatedAt, minLogicalSize, maxLogicalSize, minRevision,
        maxRevision, firstCommit, lastCommit, classificationEpoch, bloom, codecParameters }
    reject (!validAnalyticsSegmentMetadata record) "invalid analytics segment metadata"
    Get.done
    pure record

theorem AnalyticsSegmentMetadataRecord.unmarshal_marshalBinary :
    ReadsBack marshalBinary unmarshalAnalyticsSegmentMetadataRecord :=
  readsBack_checked fun _ hvalid =>
    .bind .u32 <| .bind .i64 <| .bind .i64 <| .bind .u64 <| .bind .u64 <| .bind .u64 <|
    .bind .u64 <| .bind .u64 <| .bind .u64 <| .bind .u64 <| .bind .bytes <| .last .string <|
    .checkRead hvalid .done

/-- The rows of a segment with one value of a dimension. -/
structure AnalyticsDimensionIndexRecord where
  codec : AnalyticsColumnCodec
  (rowCount matchCount : UInt32)
  logicalBytes : UInt64
  bitmap : Bytes

namespace AnalyticsDimensionIndexRecord

def invalid (record : AnalyticsDimensionIndexRecord) : Bool :=
  (record.codec != analyticsCodecRaw && record.codec != analyticsCodecRoaring &&
    record.codec != analyticsCodecZstd) || record.rowCount == 0 || record.matchCount == 0 ||
    record.matchCount > record.rowCount || record.bitmap.isEmpty

def marshalBinary (record : AnalyticsDimensionIndexRecord) : Result Bytes := do
  rejected record.invalid "invalid analytics dimension index"
  encoded do
    Put.u8 record.codec
    Put.u32 record.rowCount
    Put.u32 record.matchCount
    Put.u64 record.logicalBytes
    Put.bytes record.bitmap

end AnalyticsDimensionIndexRecord

def unmarshalAnalyticsDimensionIndexRecord : Bytes → Result AnalyticsDimensionIndexRecord :=
  decoded do
    let codec ← Get.u8
    let rowCount ← Get.u32
    let matchCount ← Get.u32
    let logicalBytes ← Get.u64
    let bitmap ← Get.bytes
    let record : AnalyticsDimensionIndexRecord :=
      { codec, rowCount, matchCount, logicalBytes, bitmap }
    reject record.invalid "invalid analytics dimension index"
    Get.done
    pure record

theorem AnalyticsDimensionIndexRecord.unmarshal_marshalBinary :
    ReadsBack marshalBinary unmarshalAnalyticsDimensionIndexRecord :=
  readsBack_checked fun _ hvalid =>
    .bind .u8 <| .bind .u32 <| .bind .u32 <| .bind .u64 <| .last .bytes <|
    .checkRead hvalid .done

/-! ## Residency and deltas -/

/-- The residency of an identity, and the row of its fact. -/
structure AnalyticsResidencyRecord where
  state : AnalyticsResidency
  lastCompleteCrawl : Int64
  (retainedSnapshotRefs classificationEpoch factSegment : UInt64)
  row : UInt32

def validAnalyticsResidency (record : AnalyticsResidencyRecord) : Bool :=
  if record.state < analyticsLive || record.state > analyticsExpired ||
      record.classificationEpoch == 0 || record.factSegment == 0 then false
  else if record.state == analyticsArchiveOnly &&
      (record.lastCompleteCrawl == 0 || record.retainedSnapshotRefs == 0) then false
  else if record.state == analyticsExpired && record.retainedSnapshotRefs != 0 then false
  else true

def AnalyticsResidencyRecord.marshalBinary (record : AnalyticsResidencyRecord) :
    Result Bytes := do
  rejected (!validAnalyticsResidency record) "invalid analytics residency"
  encoded do
    Put.u8 record.state
    Put.i64 record.lastCompleteCrawl
    Put.u64 record.retainedSnapshotRefs
    Put.u64 record.classificationEpoch
    Put.u64 record.factSegment
    Put.u32 record.row

def unmarshalAnalyticsResidencyRecord : Bytes → Result AnalyticsResidencyRecord := decoded do
  let state ← Get.u8
  let lastCompleteCrawl ← Get.i64
  let retainedSnapshotRefs ← Get.u64
  let classificationEpoch ← Get.u64
  let factSegment ← Get.u64
  let row ← Get.u32
  let record : AnalyticsResidencyRecord :=
    { state, lastCompleteCrawl, retainedSnapshotRefs, classificationEpoch, factSegment, row }
  reject (!validAnalyticsResidency record) "invalid analytics residency"
  Get.done
  pure record

theorem AnalyticsResidencyRecord.unmarshal_marshalBinary :
    ReadsBack marshalBinary unmarshalAnalyticsResidencyRecord :=
  readsBack_checked fun _ hvalid =>
    .bind .u8 <| .bind .i64 <| .bind .u64 <| .bind .u64 <| .bind .u64 <| .last .u32 <|
    .checkRead hvalid .done

/-- What a delta changes. -/
abbrev AnalyticsDeltaKind := UInt8

def analyticsDeltaCreation : AnalyticsDeltaKind := 1
def analyticsDeltaSourceState : AnalyticsDeltaKind := 2
def analyticsDeltaRetainedReferences : AnalyticsDeltaKind := 3
def analyticsDeltaClassification : AnalyticsDeltaKind := 4

/-- What a delta does to the count of references. -/
abbrev AnalyticsReferenceOperation := UInt8

def analyticsReferencesLegacy : AnalyticsReferenceOperation := 0
def analyticsReferencesSet : AnalyticsReferenceOperation := 1
def analyticsReferencesIncrement : AnalyticsReferenceOperation := 2
def analyticsReferencesDecrement : AnalyticsReferenceOperation := 3

/-- A change that a commit makes to the facts. -/
structure AnalyticsDeltaRecord where
  kind : AnalyticsDeltaKind
  fsid : UInt32
  (inode identityGeneration revision : UInt64)
  (uid gid : UInt32)
  known : UInt16
  createdAt : Int64
  logicalSize : UInt64
  creationBasis : AnalyticsCreationBasis
  identityContinuity : AnalyticsIdentityContinuity
  state : AnalyticsResidency
  (retainedSnapshotRefs classificationEpoch : UInt64)
  (svm volume pathGroup : UInt32)
  referenceOperation : AnalyticsReferenceOperation
  deriving DecidableEq, Repr

def validAnalyticsDelta (record : AnalyticsDeltaRecord) : Bool :=
  if record.kind < analyticsDeltaCreation || record.kind > analyticsDeltaClassification ||
      record.identityGeneration == 0 || record.revision == 0 || unknownFields record.known ||
      record.classificationEpoch == 0 ||
      record.identityContinuity > analyticsContinuitySourceGeneration ||
      record.state > analyticsExpired ||
      record.referenceOperation > analyticsReferencesDecrement then false
  else if record.kind != analyticsDeltaRetainedReferences &&
      record.referenceOperation != analyticsReferencesLegacy then false
  else if record.kind == analyticsDeltaCreation then
    record.creationBasis ≥ analyticsCTime && record.creationBasis ≤ analyticsFirstSeen
  else record.state ≥ analyticsLive

def AnalyticsDeltaRecord.marshalBinary (record : AnalyticsDeltaRecord) : Result Bytes := do
  rejected (!validAnalyticsDelta record) "invalid analytics delta"
  encoded do
    Put.u8 record.kind
    Put.u32 record.fsid
    Put.u64 record.inode
    Put.u64 record.identityGeneration
    Put.u64 record.revision
    Put.u32 record.uid
    Put.u32 record.gid
    Put.u16 record.known
    Put.i64 record.createdAt
    Put.u64 record.logicalSize
    Put.u8 record.creationBasis
    Put.u8 record.identityContinuity
    Put.u8 record.state
    Put.u64 record.retainedSnapshotRefs
    Put.u64 record.classificationEpoch
    Put.u32 record.svm
    Put.u32 record.volume
    Put.u32 record.pathGroup
    Put.u8 record.referenceOperation

def unmarshalAnalyticsDeltaRecord : Bytes → Result AnalyticsDeltaRecord := decoded do
  let kind ← Get.u8
  let fsid ← Get.u32
  let inode ← Get.u64
  let identityGeneration ← Get.u64
  let revision ← Get.u64
  let uid ← Get.u32
  let gid ← Get.u32
  let known ← Get.u16
  let createdAt ← Get.i64
  let logicalSize ← Get.u64
  let creationBasis ← Get.u8
  let identityContinuity ← Get.u8
  let state ← Get.u8
  let retainedSnapshotRefs ← Get.u64
  let classificationEpoch ← Get.u64
  let svm ← Get.u32
  let volume ← Get.u32
  let pathGroup ← Get.u32
  let referenceOperation ← orDefault analyticsReferencesLegacy Get.u8
  let record : AnalyticsDeltaRecord :=
    { kind, fsid, inode, identityGeneration, revision, uid, gid, known, createdAt, logicalSize,
      creationBasis, identityContinuity, state, retainedSnapshotRefs, classificationEpoch, svm,
      volume, pathGroup, referenceOperation }
  reject (!validAnalyticsDelta record) "invalid analytics delta"
  Get.done
  pure record

theorem AnalyticsDeltaRecord.unmarshal_marshalBinary :
    ReadsBack marshalBinary unmarshalAnalyticsDeltaRecord :=
  readsBack_checked fun _ hvalid =>
    .bind .u8 <| .bind .u32 <| .bind .u64 <| .bind .u64 <| .bind .u64 <| .bind .u32 <| .bind .u32 <|
    .bind .u16 <| .bind .i64 <| .bind .u64 <| .bind .u8 <| .bind .u8 <| .bind .u8 <| .bind .u64 <|
    .bind .u64 <| .bind .u32 <| .bind .u32 <| .bind .u32 <|
    .last (.orDefault .u8 (by decide) .u8) <| .checkRead hvalid .done

/-! ## Crawl proofs and source bindings -/

/-- A crawl of a scope, from its fence to its commit. -/
structure AuthoritativeCrawlProofRecord where
  scopeID : ID
  rootFSID : UInt32
  (rootInode startFence endCommit : UInt64)
  completedAt : Int64
  (complete debtFree : Bool)

def validAuthoritativeCrawlProof (record : AuthoritativeCrawlProofRecord) : Bool :=
  record.scopeID != 0 && record.rootFSID != 0 && record.rootInode != 0 &&
    record.startFence != 0 && record.endCommit ≥ record.startFence && record.completedAt != 0

def AuthoritativeCrawlProofRecord.marshalBinary (record : AuthoritativeCrawlProofRecord) :
    Result Bytes := do
  rejected (!validAuthoritativeCrawlProof record) "invalid authoritative crawl proof"
  encoded do
    Put.id record.scopeID
    Put.u32 record.rootFSID
    Put.u64 record.rootInode
    Put.u64 record.startFence
    Put.u64 record.endCommit
    Put.i64 record.completedAt
    Put.bool record.complete
    Put.bool record.debtFree

def unmarshalAuthoritativeCrawlProofRecord : Bytes → Result AuthoritativeCrawlProofRecord :=
  decoded do
    let scopeID ← Get.id
    let rootFSID ← Get.u32
    let rootInode ← Get.u64
    let startFence ← Get.u64
    let endCommit ← Get.u64
    let completedAt ← Get.i64
    let complete ← Get.bool
    let debtFree ← Get.bool
    let record : AuthoritativeCrawlProofRecord :=
      { scopeID, rootFSID, rootInode, startFence, endCommit, completedAt, complete, debtFree }
    reject (!validAuthoritativeCrawlProof record) "invalid authoritative crawl proof"
    Get.done
    pure record

theorem AuthoritativeCrawlProofRecord.unmarshal_marshalBinary :
    ReadsBack marshalBinary unmarshalAuthoritativeCrawlProofRecord :=
  readsBack_checked fun _ hvalid =>
    .bind .id <| .bind .u32 <| .bind .u64 <| .bind .u64 <| .bind .u64 <| .bind .i64 <|
    .bind .bool <| .last .bool <| .checkRead hvalid .done

/-- Whether the inode is still at the source. -/
abbrev AuthoritativeSourceState := UInt8

def authoritativeSourceLive : AuthoritativeSourceState := 1
def authoritativeSourceDeleted : AuthoritativeSourceState := 2
def authoritativeSourceUnknown : AuthoritativeSourceState := 3

/-- What the crawls of a scope last saw of an inode. -/
structure AuthoritativeSourceBindingRecord where
  (generation revision : UInt64)
  state : AuthoritativeSourceState
  continuity : AnalyticsIdentityContinuity
  lastObservedCommit : UInt64
  deriving DecidableEq, Repr

def validAuthoritativeSourceBinding (record : AuthoritativeSourceBindingRecord) : Bool :=
  record.generation != 0 && record.revision != 0 && record.state ≥ authoritativeSourceLive &&
    record.state ≤ authoritativeSourceUnknown &&
    record.continuity ≤ analyticsContinuitySourceGeneration && record.lastObservedCommit != 0

def AuthoritativeSourceBindingRecord.marshalBinary (record : AuthoritativeSourceBindingRecord) :
    Result Bytes := do
  rejected (!validAuthoritativeSourceBinding record) "invalid authoritative source binding"
  encoded do
    Put.u64 record.generation
    Put.u64 record.revision
    Put.u8 record.state
    Put.u8 record.continuity
    Put.u64 record.lastObservedCommit

def unmarshalAuthoritativeSourceBindingRecord : Bytes → Result AuthoritativeSourceBindingRecord :=
  decoded do
    let generation ← Get.u64
    let revision ← Get.u64
    let state ← Get.u8
    let continuity ← Get.u8
    let lastObservedCommit ← Get.u64
    let record : AuthoritativeSourceBindingRecord :=
      { generation, revision, state, continuity, lastObservedCommit }
    reject (!validAuthoritativeSourceBinding record) "invalid authoritative source binding"
    Get.done
    pure record

theorem AuthoritativeSourceBindingRecord.unmarshal_marshalBinary :
    ReadsBack marshalBinary unmarshalAuthoritativeSourceBindingRecord :=
  readsBack_checked fun _ hvalid =>
    .bind .u64 <| .bind .u64 <| .bind .u8 <| .bind .u8 <| .last .u64 <| .checkRead hvalid .done

/-! ## Watermarks, manifests and checkpoints -/

/-- The commit up to which the analytics are applied. -/
structure AnalyticsWatermarkRecord where
  (repositoryGeneration appliedCommit manifestGeneration : UInt64)
  appliedAt : Int64

namespace AnalyticsWatermarkRecord

def invalid (record : AnalyticsWatermarkRecord) : Bool :=
  record.repositoryGeneration == 0 || record.manifestGeneration == 0 || record.appliedAt == 0

def marshalBinary (record : AnalyticsWatermarkRecord) : Result Bytes := do
  rejected record.invalid "invalid analytics watermark"
  encoded do
    Put.u64 record.repositoryGeneration
    Put.u64 record.appliedCommit
    Put.u64 record.manifestGeneration
    Put.i64 record.appliedAt

end AnalyticsWatermarkRecord

def unmarshalAnalyticsWatermarkRecord : Bytes → Result AnalyticsWatermarkRecord := decoded do
  let repositoryGeneration ← Get.u64
  let appliedCommit ← Get.u64
  let manifestGeneration ← Get.u64
  let appliedAt ← Get.i64
  let record : AnalyticsWatermarkRecord :=
    { repositoryGeneration, appliedCommit, manifestGeneration, appliedAt }
  reject record.invalid "invalid analytics watermark"
  Get.done
  pure record

theorem AnalyticsWatermarkRecord.unmarshal_marshalBinary :
    ReadsBack marshalBinary unmarshalAnalyticsWatermarkRecord :=
  readsBack_checked fun _ hvalid =>
    .bind .u64 <| .bind .u64 <| .bind .u64 <| .last .i64 <| .checkRead hvalid .done

/-- Numbers above `previous`, strictly increasing; the source starts at zero, since a zero is
refused. -/
def strictlyIncreasing (previous : UInt64) : List UInt64 → Bool
  | [] => true
  | value :: values => !(value == 0 || previous ≥ value) && strictlyIncreasing value values

def strictlyIncreasingOrEmpty (values : List UInt64) : Bool :=
  values.isEmpty || strictlyIncreasing 0 values

/-- A list of segments behind its length. -/
def writeSegments (segments : List UInt64) : Encoder := do
  Put.u32 (UInt32.ofNat segments.length)
  writeEach Put.u64 segments

def readSegments (text : String) : Decoder (List UInt64) := do
  let count ← named (malformed text) Get.u32
  reject (count.toNat > maxEncodedValueBytes / 8) text
  readEach Get.u64 count.toNat

theorem appends_writeSegments (segments : List UInt64) :
    Appends (writeSegments segments) (4 + segments.length * 8) :=
  .bind .u32 <| .eachOf (fun _ => .u64) segments

theorem readSegments_roundTrips {segments : List UInt64} {text : String}
    (h : segments.length * 8 ≤ maxEncodedValueBytes) (rest : Bytes) :
    RoundTrips rest (writeSegments segments) (readSegments text) segments := by
  have hcount : (UInt32.ofNat segments.length).toNat = segments.length := toNat_count (by omega)
  refine .bind (.named .u32) <| .checkRead ?_ <| .counted hcount fun _ _ _ => .u64
  rw [rejected_eq_ok, hcount, decide_eq_false_iff_not]
  omega

/-- The segments of a generation. -/
structure AnalyticsManifestRecord where
  (generation parentGeneration : UInt64)
  layerDepth : UInt8
  segments : List UInt64

namespace AnalyticsManifestRecord

def invalid (record : AnalyticsManifestRecord) : Bool :=
  record.generation == 0 || record.parentGeneration ≥ record.generation ||
    (record.parentGeneration == 0 && record.layerDepth != 0) ||
    (record.parentGeneration != 0 && record.layerDepth == 0) ||
    !strictlyIncreasingOrEmpty record.segments

def marshalBinary (record : AnalyticsManifestRecord) : Result Bytes := do
  rejected record.invalid "invalid analytics manifest"
  encoded do
    Put.u64 record.generation
    Put.u64 record.parentGeneration
    Put.u8 record.layerDepth
    writeSegments record.segments

end AnalyticsManifestRecord

def unmarshalAnalyticsManifestRecord : Bytes → Result AnalyticsManifestRecord := decoded do
  let generation ← Get.u64
  let parentGeneration ← Get.u64
  let layerDepth ← Get.u8
  let segments ← readSegments "invalid analytics manifest"
  let record : AnalyticsManifestRecord := { generation, parentGeneration, layerDepth, segments }
  reject record.invalid "invalid analytics manifest"
  Get.done
  pure record

theorem AnalyticsManifestRecord.unmarshal_marshalBinary :
    ReadsBack marshalBinary unmarshalAnalyticsManifestRecord := by
  intro record data h
  obtain ⟨⟨⟩, hvalid, hencoded⟩ := of_bind h
  have hlength := length_of_encoded hencoded <| .bind .u64 <| .bind .u64 <|
    .bind .u8 <| appends_writeSegments record.segments
  refine decoded_encoded hencoded ?_
  exact .bind .u64 <| .bind .u64 <| .bind .u8 <| .last (readSegments_roundTrips (by omega) _) <|
    .checkRead hvalid .done

/-- Where an interrupted build goes on. -/
structure AnalyticsBuildCheckpointRecord where
  buildID : ID
  formatVersion : UInt8
  generation : UInt64
  (configJSON sourceKeyCursor : Bytes)
  (facts appliedCommit : UInt64)
  candidateSegments : List UInt64
  (startedAt updatedAt : Int64)

def validAnalyticsBuildCheckpoint (record : AnalyticsBuildCheckpointRecord) : Bool :=
  record.buildID != 0 && record.formatVersion == 1 && record.generation != 0 &&
    !record.configJSON.isEmpty && strictlyIncreasingOrEmpty record.candidateSegments &&
    record.startedAt != 0 && record.updatedAt ≥ record.startedAt

def AnalyticsBuildCheckpointRecord.marshalBinary (record : AnalyticsBuildCheckpointRecord) :
    Result Bytes := do
  rejected (!validAnalyticsBuildCheckpoint record) "invalid analytics build checkpoint"
  encoded do
    Put.id record.buildID
    Put.u8 record.formatVersion
    Put.u64 record.generation
    Put.string record.configJSON
    Put.bytes record.sourceKeyCursor
    Put.u64 record.facts
    Put.u64 record.appliedCommit
    writeSegments record.candidateSegments
    Put.i64 record.startedAt
    Put.i64 record.updatedAt

def unmarshalAnalyticsBuildCheckpointRecord : Bytes → Result AnalyticsBuildCheckpointRecord :=
  decoded do
    let buildID ← Get.id
    let formatVersion ← Get.u8
    let generation ← Get.u64
    let configJSON ← Get.string
    let sourceKeyCursor ← Get.bytes
    let facts ← Get.u64
    let appliedCommit ← Get.u64
    let candidateSegments ← readSegments "invalid analytics build checkpoint"
    let startedAt ← Get.i64
    let updatedAt ← Get.i64
    let record : AnalyticsBuildCheckpointRecord :=
      { buildID, formatVersion, generation, configJSON, sourceKeyCursor, facts, appliedCommit,
        candidateSegments, startedAt, updatedAt }
    reject (!validAnalyticsBuildCheckpoint record) "invalid analytics build checkpoint"
    Get.done
    pure record

theorem AnalyticsBuildCheckpointRecord.unmarshal_marshalBinary :
    ReadsBack marshalBinary unmarshalAnalyticsBuildCheckpointRecord := by
  intro record data h
  obtain ⟨⟨⟩, hvalid, hencoded⟩ := of_bind h
  have hlength := length_of_encoded hencoded <| .bind .id <| .bind .u8 <|
    .bind .u64 <| .bind .string <| .bind .bytes <| .bind .u64 <|
    .bind .u64 <| (appends_writeSegments record.candidateSegments).bind <|
    .bind .i64 .i64
  refine decoded_encoded hencoded ?_
  exact .bind .id <| .bind .u8 <| .bind .u64 <| .bind .string <| .bind .bytes <| .bind .u64 <|
    .bind .u64 <| .bind (readSegments_roundTrips (by omega) _) <| .bind .i64 <| .last .i64 <|
    .checkRead hvalid .done

/-! ## Aggregates and summaries -/

/-- What was added and deleted in one period. -/
structure AnalyticsAggregateRecord where
  (bytesAdded bytesDeleted filesAdded filesDeleted : UInt64)

def AnalyticsAggregateRecord.marshalBinary (record : AnalyticsAggregateRecord) : Result Bytes :=
  encoded do
    Put.u64 record.bytesAdded
    Put.u64 record.bytesDeleted
    Put.u64 record.filesAdded
    Put.u64 record.filesDeleted

def unmarshalAnalyticsAggregateRecord : Bytes → Result AnalyticsAggregateRecord := decoded do
  let bytesAdded ← Get.u64
  let bytesDeleted ← Get.u64
  let filesAdded ← Get.u64
  let filesDeleted ← Get.u64
  Get.done
  pure { bytesAdded, bytesDeleted, filesAdded, filesDeleted }

theorem AnalyticsAggregateRecord.unmarshal_marshalBinary :
    ReadsBack marshalBinary unmarshalAnalyticsAggregateRecord :=
  readsBack fun _ =>
    .bind .u64 <| .bind .u64 <| .bind .u64 <| .last .u64 .done

/-- The totals of a user or a group. -/
structure AnalyticsSummaryRecord where
  (activeBytes activeFiles uniqueBlobCount uniqueBlobBytes : UInt64)

def AnalyticsSummaryRecord.marshalBinary (record : AnalyticsSummaryRecord) : Result Bytes :=
  encoded do
    Put.u64 record.activeBytes
    Put.u64 record.activeFiles
    Put.u64 record.uniqueBlobCount
    Put.u64 record.uniqueBlobBytes

def unmarshalAnalyticsSummaryRecord : Bytes → Result AnalyticsSummaryRecord := decoded do
  let activeBytes ← Get.u64
  let activeFiles ← Get.u64
  let uniqueBlobCount ← Get.u64
  let uniqueBlobBytes ← Get.u64
  Get.done
  pure { activeBytes, activeFiles, uniqueBlobCount, uniqueBlobBytes }

theorem AnalyticsSummaryRecord.unmarshal_marshalBinary :
    ReadsBack marshalBinary unmarshalAnalyticsSummaryRecord :=
  readsBack fun _ =>
    .bind .u64 <| .bind .u64 <| .bind .u64 <| .last .u64 .done

/-- An inode of a user, with one of its paths. -/
structure AnalyticsUserInodeRecord where
  latestRevision : UInt64
  pathSample : Bytes

def AnalyticsUserInodeRecord.marshalBinary (record : AnalyticsUserInodeRecord) :
    Result Bytes := do
  rejected (record.latestRevision == 0) "invalid analytics user inode"
  encoded do
    Put.u64 record.latestRevision
    Put.string record.pathSample

def unmarshalAnalyticsUserInodeRecord : Bytes → Result AnalyticsUserInodeRecord := decoded do
  let latestRevision ← Get.u64
  let pathSample ← Get.string
  reject (latestRevision == 0) "invalid analytics user inode"
  Get.done
  pure { latestRevision, pathSample }

theorem AnalyticsUserInodeRecord.unmarshal_marshalBinary :
    ReadsBack marshalBinary unmarshalAnalyticsUserInodeRecord :=
  readsBack_checked fun _ hvalid =>
    .bind .u64 <| .last .string <| .checkRead hvalid .done

/-- The references of a user to a blob. -/
structure AnalyticsUserBlobRecord where
  referenceCount : UInt64
  firstSeen : Int64

def AnalyticsUserBlobRecord.marshalBinary (record : AnalyticsUserBlobRecord) :
    Result Bytes := do
  rejected (record.referenceCount == 0 || record.firstSeen == 0) "invalid analytics user blob"
  encoded do
    Put.u64 record.referenceCount
    Put.i64 record.firstSeen

def unmarshalAnalyticsUserBlobRecord : Bytes → Result AnalyticsUserBlobRecord := decoded do
  let referenceCount ← Get.u64
  let firstSeen ← Get.i64
  reject (referenceCount == 0 || firstSeen == 0) "invalid analytics user blob"
  Get.done
  pure { referenceCount, firstSeen }

theorem AnalyticsUserBlobRecord.unmarshal_marshalBinary :
    ReadsBack marshalBinary unmarshalAnalyticsUserBlobRecord :=
  readsBack_checked fun _ hvalid =>
    .bind .u64 <| .last .i64 <| .checkRead hvalid .done

/-! ## Queries -/

/-- The state of a query. -/
abbrev AnalyticsQueryJobState := UInt8

def analyticsQueryPending : AnalyticsQueryJobState := 1
def analyticsQueryComplete : AnalyticsQueryJobState := 3
def analyticsQueryFailed : AnalyticsQueryJobState := 4
def analyticsQueryCancelled : AnalyticsQueryJobState := 5

/-- How far a query has come. -/
structure AnalyticsQueryJobRecord where
  state : AnalyticsQueryJobState
  canonicalQuery : Bytes
  (repositoryGeneration classificationEpoch appliedCommit : UInt64)
  completedSegments : List UInt64
  rowsScanned : UInt64
  updatedAt : Int64
  (result error : Bytes)

def validAnalyticsQueryJob (record : AnalyticsQueryJobRecord) : Bool :=
  if record.state < analyticsQueryPending || record.state > analyticsQueryCancelled ||
      record.canonicalQuery.isEmpty || record.repositoryGeneration == 0 ||
      record.classificationEpoch == 0 || record.updatedAt == 0 ||
      !strictlyIncreasingOrEmpty record.completedSegments then false
  else if record.state == analyticsQueryComplete && record.result.isEmpty then false
  else if record.state == analyticsQueryFailed && record.error.isEmpty then false
  else true

def AnalyticsQueryJobRecord.marshalBinary (record : AnalyticsQueryJobRecord) :
    Result Bytes := do
  rejected (!validAnalyticsQueryJob record) "invalid analytics query job"
  encoded do
    Put.u8 record.state
    Put.bytes record.canonicalQuery
    Put.u64 record.repositoryGeneration
    Put.u64 record.classificationEpoch
    Put.u64 record.appliedCommit
    writeSegments record.completedSegments
    Put.u64 record.rowsScanned
    Put.i64 record.updatedAt
    Put.bytes record.result
    Put.string record.error

def unmarshalAnalyticsQueryJobRecord : Bytes → Result AnalyticsQueryJobRecord := decoded do
  let state ← Get.u8
  let canonicalQuery ← Get.bytes
  let repositoryGeneration ← Get.u64
  let classificationEpoch ← Get.u64
  let appliedCommit ← Get.u64
  let completedSegments ← readSegments "invalid analytics query job"
  let rowsScanned ← Get.u64
  let updatedAt ← Get.i64
  let result ← Get.bytes
  let error ← Get.string
  let record : AnalyticsQueryJobRecord :=
    { state, canonicalQuery, repositoryGeneration, classificationEpoch, appliedCommit,
      completedSegments, rowsScanned, updatedAt, result, error }
  reject (!validAnalyticsQueryJob record) "invalid analytics query job"
  Get.done
  pure record

theorem AnalyticsQueryJobRecord.unmarshal_marshalBinary :
    ReadsBack marshalBinary unmarshalAnalyticsQueryJobRecord := by
  intro record data h
  obtain ⟨⟨⟩, hvalid, hencoded⟩ := of_bind h
  have hlength := length_of_encoded hencoded <| .bind .u8 <| .bind .bytes <|
    .bind .u64 <| .bind .u64 <| .bind .u64 <|
    (appends_writeSegments record.completedSegments).bind <| .bind .u64 <|
    .bind .i64 <| .bind .bytes .string
  refine decoded_encoded hencoded ?_
  exact .bind .u8 <| .bind .bytes <| .bind .u64 <| .bind .u64 <| .bind .u64 <|
    .bind (readSegments_roundTrips (by omega) _) <| .bind .u64 <| .bind .i64 <| .bind .bytes <|
    .last .string <| .checkRead hvalid .done

/-- An entry of the query cache. -/
structure AnalyticsQueryRecord where
  payload : Bytes

def AnalyticsQueryRecord.marshalBinary (record : AnalyticsQueryRecord) : Result Bytes := do
  rejected record.payload.isEmpty "empty analytics query payload"
  encoded (Put.bytes record.payload)

def unmarshalAnalyticsQueryRecord : Bytes → Result AnalyticsQueryRecord := decoded do
  let payload ← named (malformed "empty analytics query payload") Get.bytes
  reject payload.isEmpty "empty analytics query payload"
  Get.done
  pure { payload }

theorem AnalyticsQueryRecord.unmarshal_marshalBinary :
    ReadsBack marshalBinary unmarshalAnalyticsQueryRecord :=
  readsBack_checked fun _ hvalid =>
    .last (.named .bytes) <| .checkRead hvalid .done

end Vaultic.Wire
