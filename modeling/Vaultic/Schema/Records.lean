/-
  Schema/Records.lean  —  the records of the metadata store.

  Source: internal/index/schema/records.go, records_inode.go,
  records_snapshot.go, metadata.go, history.go, phase17.go, codec.go.

  A stored value is modelled by the record its bytes decode to, field by field;
  bytes that no modelled decoder accepts are `raw`.  `marshal…` and
  `unmarshal…` keep the checks of the source's `MarshalBinary` and `Unmarshal…`
  functions: a record that fails its own check can be neither written nor
  read.  The byte layout is in `Wire`; here only its length matters, which the
  encoder bounds.  Enumeration values outside their range, which every decoder
  rejects, do not exist here.
-/
import Vaultic.Schema.Keys

set_option autoImplicit false

namespace Vaultic.Schema

/-- `ErrMalformed`, wrapped around the reason. -/
def malformed (reason : String) : String :=
  "malformed slatedb schema record: " ++ reason

/-- `math.MaxUint64` -/
def maxUint64 : Nat := 2 ^ 64 - 1

/-- The signed 64-bit integer with the residue of `n`. -/
def toInt64 (n : Int) : Int := (n + 2 ^ 63) % 2 ^ 64 - 2 ^ 63

/-- `MaxEncodedValueBytes` -/
def maxEncodedValueBytes : Nat := 15 * 1024 * 1024

/-! ## Blobs -/

/-- A copy of a blob in a pack. -/
structure BlobLocation where
  packID : ID
  (offset length uncompressedSize : Nat)
  type : BlobType
  deriving DecidableEq, Repr

/-- Where the copies of one blob identifier are stored. -/
structure BlobRecord where
  locations : List BlobLocation
  deriving DecidableEq, Repr

/-! ## Packs and placements -/

/-- A pack file in the catalog. -/
structure PackRecord where
  type : PackType
  (physicalSize payloadSize headerSize blobCount : Nat := 0)
  physicalSizeKnown : Bool := false
  creationTime : Int := 0
  creationTimeKnown : Bool := false
  lifecycle : PackLifecycle
  sourceIndexIDs : List ID := []
  tier : PackTier := .unknown
  storageClass : String := ""
  minRetentionUntil : Int := 0
  retentionSource : RetentionSource := .unknown
  (usedPayloadBytes unusedPayloadBytes : Nat := 0)
  /-- Distinguishes a pack whose reachability was never computed from one whose
  every byte is reachable. -/
  usageKnown : Bool := false
  deleteAfter : Int := 0
  deriving DecidableEq, Repr

/-- A copy of a pack on a backend. -/
structure PlacementRecord where
  state : PlacementState
  storageClass : String := ""
  placedAt : Int := 0
  placementTimeKnown : Bool := false
  bytes : Nat := 0
  minRetentionUntil : Int := 0
  retentionSource : RetentionSource := .unknown
  (deleteAfter lastVerifiedAt : Int := 0)
  deriving DecidableEq, Repr

/-- The same copy, under the backend. -/
structure BackendPackRecord where
  state : PlacementState
  bytes : Nat
  placedAt : Int
  deriving DecidableEq, Repr

/-- A copy that waits for its deletion. -/
structure PlacementDeleteRecord where
  (backend physicalSize : Nat)
  reason : String
  runID : ID
  deriving DecidableEq, Repr

/-- The run in which a pack replaced another. -/
structure RepackLineageRecord where
  runID : ID
  kind : RepackLineageKind
  deriving DecidableEq, Repr

/-- The totals of the packs of one type or tier. -/
structure PackAggregate where
  (packCount physicalSize payloadSize headerSize blobCount updateSequence : Nat := 0)
  (usedPayloadBytes unusedPayloadBytes accountedPackCount : Nat := 0)
  deriving DecidableEq, Repr

/-! ## Pack history -/

/-- What happens to packs. -/
inductive PackEventType where
  | created
  | imported
  | published
  | placed
  | placementFailed
  | promoted
  | evicted
  | usageChanged
  | repackedFrom
  | repackedInto
  | deletePending
  | deleted
  | deleteFailed
  | orphanDetected
  | tierChanged
  deriving DecidableEq, Repr

/-- What happened to a pack. -/
structure PackHistoryEvent where
  type : PackEventType
  packType : PackType
  (backend physicalSize payloadSize : Nat := 0)
  (usedDelta unusedDelta : Int := 0)
  predecessorPackIDs : List ID := []
  runID : ID := 0
  reasonCode : String := ""
  deriving DecidableEq, Repr

/-! ## Inodes, directories and paths -/

/-- How a revision holds its content. -/
inductive ContentMode where
  | none
  | inline
  | manifestRef
  deriving DecidableEq, Repr

/-- How metadata was obtained. -/
inductive Freshness where
  | unknown
  | imported
  | verified
  deriving DecidableEq, Repr

/-- The mask of fields whose value was observed. -/
abbrev KnownMask := BitVec 16

def knownMTime : KnownMask := 0x01
def knownCTime : KnownMask := 0x02
def knownSize : KnownMask := 0x04
def knownMode : KnownMask := 0x08
def knownUID : KnownMask := 0x10
def knownGID : KnownMask := 0x20
def knownParent : KnownMask := 0x40
def knownPath : KnownMask := 0x80

def knownFieldMask : KnownMask :=
  knownMTime ||| knownCTime ||| knownSize ||| knownMode ||| knownUID ||| knownGID |||
    knownParent ||| knownPath

/-- `mask & field != 0` -/
def KnownMask.has (mask field : KnownMask) : Bool := mask &&& field != 0

/-- A file at one revision. -/
structure InodeRevision where
  parentInode : Nat := 0
  hasMultipleParents : Bool := false
  (mtime ctime : Int := 0)
  (size mode uid gid : Nat := 0)
  known : KnownMask := 0
  contentMode : ContentMode := .none
  contentIDs : List ID := []
  contentManifestID : ID := 0
  contentCount : Nat := 0
  fileContentHash : ID := 0
  hashKnown : Bool := false
  sourcePath : GoString := []
  freshness : Freshness := .unknown
  deriving DecidableEq, Repr

/-- An entry of a directory. -/
structure DirectoryChild where
  name : GoString
  inode : Nat
  type : NodeType
  metadataKey : Key
  deriving DecidableEq, Repr

/-- A directory at one revision. -/
structure DirectoryRevision where
  parentInode : Nat := 0
  children : List DirectoryChild := []
  (mtime ctime : Int := 0)
  (size mode uid gid : Nat := 0)
  known : KnownMask := 0
  sourcePath : GoString := []
  freshness : Freshness := .unknown
  deriving DecidableEq, Repr

/-- Which revision is the current one. -/
structure CurrentPointer where
  revision : Nat
  recordKey : Key
  deriving DecidableEq, Repr

/-- A name of an inode in a directory. -/
structure HardlinkParentRef where
  parentInode : Nat
  name : GoString
  deriving DecidableEq, Repr

/-- The names of an inode with several links. -/
structure HardlinkRefsRecord where
  (fsid inode revision : Nat)
  parents : List HardlinkParentRef
  freshness : Freshness
  deriving DecidableEq, Repr

/-- What a version says of its path. -/
inductive PathBindingState where
  | bound
  | tombstone
  | overflow
  deriving DecidableEq, Repr

/-- `nodeType` is absent where the source holds the zero node type. -/
structure PathVersionRecord where
  state : PathBindingState
  nodeType : Option NodeType := none
  (inode revision : Nat := 0)
  path : GoString := []
  deriving DecidableEq, Repr

/-- A segment of the content of a file. -/
structure ContentManifest where
  (totalCount segment segmentCount : Nat)
  contentIDs : List ID
  deriving DecidableEq, Repr

/-! ## References, garbage collection and bookkeeping -/

/-- Whether the current content refers to a blob, or an older one. -/
inductive ReferenceState where
  | current
  | historical
  | unresolved
  deriving DecidableEq, Repr

/-- A reference to a blob from a manifest. -/
structure ReverseManifestRecord where
  segment : Nat
  state : ReferenceState
  deriving DecidableEq, Repr

/-- A reference to a blob from an inode. -/
structure ReverseInodeRecord where
  latestRevision : Nat
  state : ReferenceState
  deriving DecidableEq, Repr

/-- The references to a blob, counted. -/
structure ReferenceCountRecord where
  (totalReferences distinctInodes distinctRevisions distinctManifests : Nat := 0)
  (reachableSnapshots updateSequence : Nat := 0)
  deriving DecidableEq, Repr

/-- How far a candidate has come. -/
inductive GCState where
  | candidate
  | pendingRevalidation
  | revalidated
  | rejected
  deriving DecidableEq, Repr

/-- A candidate for collection, and since when. -/
structure GarbageCollectionRecord where
  state : GCState
  observedCommit : Nat := 0
  discoveredUnixNano : Int := 0
  revalidatedCommit : Nat := 0
  deriving DecidableEq, Repr

/-- Why a crawl has left work. -/
inductive DebtReason where
  | missingInode
  | missingDirectory
  | unknownFreshness
  | missingContent
  | unavailablePack
  deriving DecidableEq, Repr

/-- Whether the work was done since. -/
inductive DebtStatus where
  | pending
  | resolved
  | failed
  deriving DecidableEq, Repr

/-- Work that a crawl has left. -/
structure CrawlDebtRecord where
  sourceIndexOrPack : ID := 0
  sourceKnown : Bool := false
  pathOrTree : GoString := []
  reason : DebtReason
  retryCount : Nat := 0
  lastAttemptUnixNano : Int := 0
  status : DebtStatus
  errorClass : String := ""
  deriving DecidableEq, Repr

/-- A copy that a forget has scheduled for deletion. -/
structure DeletionSchedule where
  packID : ID
  backend : Nat
  deleteAfter : Int
  deriving DecidableEq, Repr

/-- The signed record of a forget. -/
structure DeletionCertificateRecord where
  uid : Nat
  executedAt : Int
  runID : ID
  purgedReferenceHashes : List ID
  pendingDeletion : List DeletionSchedule
  signingAlgorithm : String
  (publicKey signature : GoString)
  deriving DecidableEq, Repr

/-! ## Stored values -/

/-- A stored value, by the record its bytes decode to. -/
inductive Value where
  | blob (record : BlobRecord)
  | pack (record : PackRecord)
  | packAggregate (record : PackAggregate)
  | currentPointer (record : CurrentPointer)
  | inodeRevision (record : InodeRevision)
  | directoryRevision (record : DirectoryRevision)
  | contentManifest (record : ContentManifest)
  | reverseManifest (record : ReverseManifestRecord)
  | reverseInode (record : ReverseInodeRecord)
  | referenceCount (record : ReferenceCountRecord)
  | garbageCollection (record : GarbageCollectionRecord)
  | crawlDebt (record : CrawlDebtRecord)
  | hardlinkRefs (record : HardlinkRefsRecord)
  | packHistory (record : PackHistoryEvent)
  | nextEventSequence (next : Nat)
  | historyMarker (unixSeconds : Nat)
  | placement (record : PlacementRecord)
  | backendPack (record : BackendPackRecord)
  | placementDelete (record : PlacementDeleteRecord)
  | pathVersion (record : PathVersionRecord)
  | repackLineage (record : RepackLineageRecord)
  | deletionCertificate (record : DeletionCertificateRecord)
  | raw (bytes : GoString)
  deriving DecidableEq, Repr

end Vaultic.Schema
