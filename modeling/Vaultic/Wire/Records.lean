/-
  Wire/Records.lean  —  every record type of the schema reads back what it writes.

  `RecordType` lists the record types with a `MarshalBinary`, apart from the hard-link
  references, whose reader is stricter than their writer (`Wire.Hardlinks`).  Each has its
  codec: what it accepts, how it is read, and the documented normalisation between.
-/
import Vaultic.Wire.Snapshots
import Vaultic.Wire.Verification
import Vaultic.Wire.Analytics

set_option autoImplicit false

namespace Vaultic.Wire

open Vaultic.Lib

/-- The record types of the store. -/
inductive RecordType where
  | blob | placement | backendPack | placementDelete | promotionEligibility | repackLineage
  | placementRequest | pack | packAggregate | currentPointer | analyticsFact | analyticsMetadata
  | inodeRevision | directoryRevision | pathVersion | snapshot | contentManifest
  | packHistoryEvent | packHistoryBucket | historyMarker | reverseManifest | reverseInode
  | referenceCount | garbageCollection | crawlDebt | importCheckpoint | snapshotImportCheckpoint
  | legacyImportReceipt | snapshotCommit | exportCheckpoint | exportIndexCheckpoint
  | verificationState | verificationEvent | uidExclusionPolicy | deletionCertificate
  | analyticsFactSegment | analyticsDictionary | analyticsSegmentMetadata
  | analyticsDimensionIndex | analyticsResidency | analyticsDelta | authoritativeCrawlProof
  | authoritativeSourceBinding | analyticsWatermark | analyticsManifest
  | analyticsBuildCheckpoint | analyticsAggregate | analyticsSummary | analyticsUserInode
  | analyticsUserBlob | analyticsQueryJob | analyticsQuery

/-- The records of each type and how they are stored. -/
def RecordType.stored (host : SnapshotHost) : RecordType → (Record : Type) × ValueCodec Record
  | .blob => ⟨_, .exact BlobRecord.unmarshal_marshalBinary⟩
  | .placement => ⟨_, .upTo PlacementRecord.normalized PlacementRecord.unmarshal_marshalBinary⟩
  | .backendPack => ⟨_, .exact BackendPackRecord.unmarshal_marshalBinary⟩
  | .placementDelete => ⟨_, .exact PlacementDeleteRecord.unmarshal_marshalBinary⟩
  | .promotionEligibility => ⟨_, .exact PromotionEligibilityRecord.unmarshal_marshalBinary⟩
  | .repackLineage => ⟨_, .exact RepackLineageRecord.unmarshal_marshalBinary⟩
  | .placementRequest =>
    ⟨_, { marshal := PlacementRequestRecord.marshalBinary
          unmarshal := unmarshalPlacementRequestRecord
          normalized := id, InScope := fun record => record.classes.length ≤ 1024
          unmarshal_marshal := PlacementRequestRecord.unmarshal_marshalBinary }⟩
  | .pack => ⟨_, .upTo PackRecord.normalized PackRecord.unmarshal_marshalBinary⟩
  | .packAggregate => ⟨_, .exact PackAggregate.unmarshal_marshalBinary⟩
  | .currentPointer => ⟨_, .exact CurrentPointer.unmarshal_marshalBinary⟩
  | .analyticsFact => ⟨_, .exact AnalyticsFactRecord.unmarshal_marshalBinary⟩
  | .analyticsMetadata => ⟨_, .exact AnalyticsMetadataRecord.unmarshal_marshalBinary⟩
  | .inodeRevision => ⟨_, .exact InodeRevision.unmarshal_marshalBinary⟩
  | .directoryRevision =>
    ⟨_, .upTo DirectoryRevision.normalized DirectoryRevision.unmarshal_marshalBinary⟩
  | .pathVersion => ⟨_, .exact PathVersionRecord.unmarshal_marshalBinary⟩
  | .snapshot => ⟨_, .upTo (SnapshotRecord.normalized host) SnapshotRecord.unmarshal_marshalBinary⟩
  | .contentManifest => ⟨_, .exact ContentManifest.unmarshal_marshalBinary⟩
  | .packHistoryEvent =>
    ⟨_, .upTo PackHistoryEvent.normalized PackHistoryEvent.unmarshal_marshalBinary⟩
  | .packHistoryBucket =>
    ⟨_, .upTo PackHistoryBucket.normalized PackHistoryBucket.unmarshal_marshalBinary⟩
  | .historyMarker => ⟨_, .exact HistoryMarker.unmarshal_marshalBinary⟩
  | .reverseManifest => ⟨_, .exact ReverseManifestRecord.unmarshal_marshalBinary⟩
  | .reverseInode => ⟨_, .exact ReverseInodeRecord.unmarshal_marshalBinary⟩
  | .referenceCount => ⟨_, .exact ReferenceCountRecord.unmarshal_marshalBinary⟩
  | .garbageCollection => ⟨_, .exact GarbageCollectionRecord.unmarshal_marshalBinary⟩
  | .crawlDebt => ⟨_, .exact CrawlDebtRecord.unmarshal_marshalBinary⟩
  | .importCheckpoint => ⟨_, .exact ImportCheckpointRecord.unmarshal_marshalBinary⟩
  | .snapshotImportCheckpoint => ⟨_, .exact SnapshotImportCheckpointRecord.unmarshal_marshalBinary⟩
  | .legacyImportReceipt => ⟨_, .exact LegacyImportReceiptRecord.unmarshal_marshalBinary⟩
  | .snapshotCommit => ⟨_, .exact SnapshotCommitRecord.unmarshal_marshalBinary⟩
  | .exportCheckpoint => ⟨_, .exact ExportCheckpointRecord.unmarshal_marshalBinary⟩
  | .exportIndexCheckpoint => ⟨_, .exact ExportIndexCheckpointRecord.unmarshal_marshalBinary⟩
  | .verificationState => ⟨_, .exact VerificationStateRecord.unmarshal_marshalBinary⟩
  | .verificationEvent => ⟨_, .exact VerificationEventRecord.unmarshal_marshalBinary⟩
  | .uidExclusionPolicy => ⟨_, .exact UIDExclusionPolicyRecord.unmarshal_marshalBinary⟩
  | .deletionCertificate => ⟨_, .exact DeletionCertificateRecord.unmarshal_marshalBinary⟩
  | .analyticsFactSegment => ⟨_, .exact AnalyticsFactSegmentRecord.unmarshal_marshalBinary⟩
  | .analyticsDictionary => ⟨_, .exact AnalyticsDictionaryRecord.unmarshal_marshalBinary⟩
  | .analyticsSegmentMetadata => ⟨_, .exact AnalyticsSegmentMetadataRecord.unmarshal_marshalBinary⟩
  | .analyticsDimensionIndex => ⟨_, .exact AnalyticsDimensionIndexRecord.unmarshal_marshalBinary⟩
  | .analyticsResidency => ⟨_, .exact AnalyticsResidencyRecord.unmarshal_marshalBinary⟩
  | .analyticsDelta => ⟨_, .exact AnalyticsDeltaRecord.unmarshal_marshalBinary⟩
  | .authoritativeCrawlProof => ⟨_, .exact AuthoritativeCrawlProofRecord.unmarshal_marshalBinary⟩
  | .authoritativeSourceBinding =>
    ⟨_, .exact AuthoritativeSourceBindingRecord.unmarshal_marshalBinary⟩
  | .analyticsWatermark => ⟨_, .exact AnalyticsWatermarkRecord.unmarshal_marshalBinary⟩
  | .analyticsManifest => ⟨_, .exact AnalyticsManifestRecord.unmarshal_marshalBinary⟩
  | .analyticsBuildCheckpoint => ⟨_, .exact AnalyticsBuildCheckpointRecord.unmarshal_marshalBinary⟩
  | .analyticsAggregate => ⟨_, .exact AnalyticsAggregateRecord.unmarshal_marshalBinary⟩
  | .analyticsSummary => ⟨_, .exact AnalyticsSummaryRecord.unmarshal_marshalBinary⟩
  | .analyticsUserInode => ⟨_, .exact AnalyticsUserInodeRecord.unmarshal_marshalBinary⟩
  | .analyticsUserBlob => ⟨_, .exact AnalyticsUserBlobRecord.unmarshal_marshalBinary⟩
  | .analyticsQueryJob => ⟨_, .exact AnalyticsQueryJobRecord.unmarshal_marshalBinary⟩
  | .analyticsQuery => ⟨_, .exact AnalyticsQueryRecord.unmarshal_marshalBinary⟩

/-- The records of a type. -/
abbrev RecordType.Record (host : SnapshotHost) (type : RecordType) : Type := (type.stored host).1

/-- How the records of a type are stored. -/
abbrev RecordType.codec (host : SnapshotHost) (type : RecordType) :
    ValueCodec (type.Record host) := (type.stored host).2

/-- Every record that its `MarshalBinary` accepts is read back, up to the documented
normalisation. -/
theorem unmarshal_marshal_record (host : SnapshotHost) (type : RecordType)
    (record : type.Record host) (data : Bytes) (hscope : (type.codec host).InScope record)
    (hmarshal : (type.codec host).marshal record = .ok data) :
    (type.codec host).unmarshal data = .ok ((type.codec host).normalized record) :=
  (type.codec host).unmarshal_marshal hscope hmarshal

/-- A pack that nobody has classified: no tier and no retention source. -/
def unclassifiedPack : PackRecord :=
  { type := packData, physicalSize := 0, payloadSize := 0, headerSize := 0, blobCount := 0
    physicalSizeKnown := false, creationTime := 0, creationTimeKnown := false
    lifecycle := packImported, sourceIndexIDs := [], tier := 0, storageClass := []
    minRetentionUntil := 0, retentionSource := 0, usedPayloadBytes := 0
    unusedPayloadBytes := 0, usageKnown := false, deleteAfter := 0 }

/-- It comes back with both marked unknown. -/
theorem unmarshal_unclassifiedPack :
    ∃ data, unclassifiedPack.marshalBinary = .ok data ∧
      unmarshalPackRecord data =
        .ok { unclassifiedPack with
          tier := tierUnknown, retentionSource := retentionUnknown } :=
  ⟨_, rfl,
    unmarshal_marshal_record ⟨fun _ => 0, fun _ => none⟩ .pack unclassifiedPack _ trivial rfl⟩

end Vaultic.Wire
