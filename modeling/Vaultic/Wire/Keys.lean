/-
  Wire/Keys.lean  —  the key constructors of `internal/index/schema/keys.go` and
  `keys_parse.go`, and the parsed form of a key.

  A key is a textual prefix followed by fixed-width fields, in a few shapes with a
  separator between fields, and in two with a path.  A constructor returns `none` where
  the source returns nil.
-/
import Vaultic.Wire.Codec

set_option autoImplicit false

namespace Vaultic.Wire

open Vaultic.Lib
open Vaultic.Schema (ID)

/-! ## Named bytes -/

/-- Which blobs a pack holds. -/
abbrev PackType := UInt8

def packData : PackType := 1
def packUnknown : PackType := 4

def validPackType (value : PackType) : Bool := packData ≤ value && value ≤ packUnknown

/-- Where the copies of a pack are. -/
abbrev PackTier := UInt8

def tierUnknown : PackTier := 1
def tierHot : PackTier := 2
def tierCold : PackTier := 3
def tierMirrored : PackTier := 4
def tierSingle : PackTier := 5

def validPackTier (value : PackTier) : Bool := tierUnknown ≤ value && value ≤ tierSingle

/-- Which texts a dictionary numbers. -/
abbrev AnalyticsDictionaryKind := UInt8

def analyticsDictionarySVM : AnalyticsDictionaryKind := 1
def analyticsDictionaryPathGroup : AnalyticsDictionaryKind := 3

def validAnalyticsDictionaryKind (kind : AnalyticsDictionaryKind) : Bool :=
  analyticsDictionarySVM ≤ kind && kind ≤ analyticsDictionaryPathGroup

/-- What an index of facts is by. -/
abbrev AnalyticsDimension := UInt8

def analyticsDimensionUID : AnalyticsDimension := 1
def analyticsDimensionResidency : AnalyticsDimension := 13

def validAnalyticsDimension (dimension : AnalyticsDimension) : Bool :=
  analyticsDimensionUID ≤ dimension && dimension ≤ analyticsDimensionResidency

/-- The periods of growth. -/
abbrev AnalyticsGranularity := UInt8

def analyticsGranularityWeek : AnalyticsGranularity := 1
def analyticsGranularityYear : AnalyticsGranularity := 3

def validAnalyticsGranularity (granularity : AnalyticsGranularity) : Bool :=
  analyticsGranularityWeek ≤ granularity && granularity ≤ analyticsGranularityYear

/-- The windows of pack history. -/
abbrev HistoryGranularity := UInt8

def granularityHourly : HistoryGranularity := 1
def granularityDaily : HistoryGranularity := 2
def granularityMonthly : HistoryGranularity := 3

def validHistoryGranularity (value : HistoryGranularity) : Bool :=
  granularityHourly ≤ value && value ≤ granularityMonthly

/-- The types that packs are summed up by. -/
abbrev AggregateKind := UInt8

def aggregateData : AggregateKind := 1
def aggregateTree : AggregateKind := 2
def aggregateMixed : AggregateKind := 3
def aggregateUnknown : AggregateKind := 4
def aggregateAll : AggregateKind := 5

/-- What may be collected. -/
abbrev GCTarget := UInt8

def gcBlob : GCTarget := 1
def gcPack : GCTarget := 2

/-- Where a file still is. -/
abbrev AnalyticsResidency := UInt8

def analyticsLive : AnalyticsResidency := 1
def analyticsArchiveOnly : AnalyticsResidency := 2
def analyticsUnknown : AnalyticsResidency := 3
def analyticsDeleted : AnalyticsResidency := 4
def analyticsExpired : AnalyticsResidency := 5

def maxPathIndexPathBytes : Nat := 4096

/-- The kinds of keys. -/
inductive KeyKind where
  | blob | pack | packAggregate | currentInode | inodeRevision | currentDirectory
  | directoryRevision | snapshot | contentManifest | reverseManifest | reverseInode
  | referenceCount | garbageCollection | crawlDebt | importCheckpoint
  | snapshotImportCheckpoint | nextRevision | hardlinkRefs | exportCheckpoint
  | exportIndexCheckpoint | nextExportSequence | tierAggregate | packHistory
  | packHistoryBucket | nextEventSequence | historyRawFloor | historyEnabledAt
  | packPlacement | backendPack | placementDeleteQueue | snapshotCommit | pathVersion
  | placementRequest | repackLineage | promotionEligibility | analyticsFact
  | analyticsCache | analyticsMetadata | analyticsBuildCheckpoint | analyticsDictionary
  | analyticsFactSegment | analyticsSegmentMetadata | analyticsDimensionIndex
  | analyticsResidency | analyticsDelta | analyticsWatermark | analyticsManifest
  | analyticsQueryResult | analyticsQueryHeat | analyticsQueryView | analyticsQueryJob
  | growthTime | growthPath | userSummary | groupSummary | userChurn | userInode | userBlob
  | authoritativeCrawlProof | authoritativeSourceBinding | analyticsDerivedMarker
  | userBlobContribution | userStats | groupStats | uidExclusionPolicy
  | deletionCertificate | verificationState | verificationEvent | legacyImportReceipt
  deriving DecidableEq, Repr

/-- A parsed key: its kind and the fields of that kind, the others zero. -/
structure ParsedKey where
  kind : KeyKind
  (id secondID : ID := 0)
  fsid : UInt32 := 0
  (inode revision : UInt64 := 0)
  segment : UInt32 := 0
  aggregate : AggregateKind := 0
  tier : PackTier := 0
  gcTarget : GCTarget := 0
  eventTime : UInt64 := 0
  granularity : HistoryGranularity := 0
  backend : UInt64 := 0
  packType : PackType := 0
  deleteAfter : Int64 := 0
  path : Bytes := []
  (generation viewGeneration commit : UInt64 := 0)
  ordinal : UInt32 := 0
  dictionary : AnalyticsDictionaryKind := 0
  dimension : AnalyticsDimension := 0
  (value epoch : UInt64 := 0)
  (uid gid : UInt32 := 0)
  timestamp : Int64 := 0
  residency : AnalyticsResidency := 0
  deriving DecidableEq, Repr

/-! ## Shapes -/

/-- The `:` between fields. -/
def colon : Bytes := [58]

/-- A text and an identifier. -/
def idKey (text : String) (id : ID) : Bytes := ascii text ++ idBytes id

/-- A text, a file system and an inode. -/
def inodeKey (text : String) (fsid : UInt32) (inode : UInt64) : Bytes :=
  ascii text ++ (be32 fsid ++ be64 inode)

/-- The same with a revision. -/
def revisionKey (text : String) (fsid : UInt32) (inode revision : UInt64) : Bytes :=
  ascii text ++ (be32 fsid ++ (be64 inode ++ be64 revision))

/-- A text and a number that is not zero. -/
def analyticsUint64Key (text : String) (value : UInt64) : Option Bytes :=
  if value = 0 then none else some (ascii text ++ be64 value)

def analyticsUint32Key (text : String) (value : UInt32) : Bytes := ascii text ++ be32 value

def analyticsStatsKey (text : String) (id : UInt32) (residency : AnalyticsResidency) :
    Option Bytes :=
  if residency < analyticsLive || residency > analyticsExpired then none
  else some (ascii text ++ (be32 id ++ [residency]))

/-- A time as an unsigned number in the order of the times. -/
def sortableTime (timestamp : Int64) : UInt64 := timestamp.toUInt64 ^^^ ((1 : UInt64) <<< 63)

def ofSortableTime (value : UInt64) : Int64 := (value ^^^ ((1 : UInt64) <<< 63)).toInt64

@[simp] theorem ofSortableTime_sortableTime (timestamp : Int64) :
    ofSortableTime (sortableTime timestamp) = timestamp := by
  simp [ofSortableTime, sortableTime]

@[simp] theorem sortableTime_ofSortableTime (value : UInt64) :
    sortableTime (ofSortableTime value) = value := by
  simp [ofSortableTime, sortableTime]

/-! ## Constructors -/

def blobKey (id : ID) : Bytes := idKey "b:" id

def packKey (id : ID) : Bytes := idKey "p:" id

def snapshotKey (id : ID) : Bytes := idKey "s:" id

def referenceCountKey (id : ID) : Bytes := idKey "rc:" id

def snapshotCommitKey (commitSequence : UInt64) (snapshot : ID) : Bytes :=
  ascii "sc:" ++ (be64 commitSequence ++ (colon ++ idBytes snapshot))

def pathVersionKey (fsid : UInt32) (path : Bytes) (revision : UInt64) : Option Bytes :=
  let path := trimPrefix 47 path
  if path.isEmpty || path.length > maxPathIndexPathBytes || path.contains 0 then none
  else some (ascii "pv:" ++ (be32 fsid ++ (path ++ ([0] ++ be64 revision))))

/-- A lower-case hexadecimal digit. -/
def hexDigit (value : Nat) : UInt8 :=
  if value < 10 then UInt8.ofNat (48 + value) else UInt8.ofNat (87 + value)

/-- `hex.EncodeToString`. -/
def hexEncode (bytes : Bytes) : Bytes :=
  bytes.flatMap fun byte => [hexDigit (byte.toNat / 16), hexDigit (byte.toNat % 16)]

/-- The path of a path version that is stored by the hash of its path. -/
def overflowPath (sha256 : Bytes → ID) (path : Bytes) : Bytes :=
  ascii "overflow/" ++ hexEncode ((idBytes (sha256 path)).take 16)

def pathOverflowKey (sha256 : Bytes → ID) (fsid : UInt32) (path : Bytes) (revision : UInt64) :
    Option Bytes :=
  pathVersionKey fsid (overflowPath sha256 path) revision

def currentInodeKey (fsid : UInt32) (inode : UInt64) : Bytes := inodeKey "i:" fsid inode

def currentDirectoryKey (fsid : UInt32) (inode : UInt64) : Bytes := inodeKey "d:" fsid inode

def inodeRevisionKey (fsid : UInt32) (inode revision : UInt64) : Bytes :=
  revisionKey "iv:" fsid inode revision

def directoryRevisionKey (fsid : UInt32) (inode revision : UInt64) : Bytes :=
  revisionKey "dv:" fsid inode revision

def hardlinkRefsKey (fsid : UInt32) (inode revision : UInt64) : Bytes :=
  revisionKey "hr:" fsid inode revision

def contentManifestKey (id : ID) (segment : UInt32) : Bytes :=
  ascii "cm:" ++ (idBytes id ++ be32 segment)

def reverseManifestKey (blob manifest : ID) : Bytes :=
  ascii "rm:" ++ (idBytes blob ++ idBytes manifest)

def reverseInodeKey (blob : ID) (fsid : UInt32) (inode : UInt64) : Bytes :=
  ascii "ri:" ++ (idBytes blob ++ (be32 fsid ++ be64 inode))

def garbageCollectionKey (target : GCTarget) (id : ID) : Option Bytes :=
  if target = gcBlob then some (idKey "gc:b:" id)
  else if target = gcPack then some (idKey "gc:p:" id)
  else none

def crawlDebtKey (snapshot work : ID) : Bytes :=
  ascii "q:" ++ (idBytes snapshot ++ idBytes work)

def importCheckpointKey (index : ID) : Bytes := idKey "meta:import-index:" index

def snapshotImportCheckpointKey (snapshot : ID) : Bytes :=
  idKey "meta:import-snapshot:" snapshot

def legacyImportReceiptKey (session : ID) (batch : UInt64) : Bytes :=
  ascii "meta:import-receipt:" ++ (idBytes session ++ be64 batch)

def exportCheckpointKey (snapshot : ID) : Bytes := idKey "meta:export-snapshot:" snapshot

def exportIndexCheckpointKey (index : ID) : Bytes := idKey "meta:export-index:" index

/-- The names of the kinds in keys. -/
def aggregateNames : List (AggregateKind × String) :=
  [(aggregateData, "data"), (aggregateTree, "tree"), (aggregateMixed, "mixed"),
    (aggregateUnknown, "unknown"), (aggregateAll, "all")]

/-- An unnamed kind has the empty name. -/
def packAggregateKey (kind : AggregateKind) : Bytes :=
  ascii "a:pack:" ++ ascii ((aggregateNames.lookup kind).getD "")

/-- The names of the tiers in keys. -/
def tierAggregateNames : List (PackTier × String) :=
  [(tierUnknown, "unknown"), (tierHot, "hot"), (tierCold, "cold"),
    (tierMirrored, "mirrored"), (tierSingle, "single")]

def tierAggregateKey (tier : PackTier) : Option Bytes :=
  (tierAggregateNames.lookup tier).map fun name => ascii "a:tier:" ++ ascii name

def packHistoryKey (unixSeconds sequence : UInt64) (pack : ID) : Bytes :=
  ascii "ph:" ++ (be64 unixSeconds ++ (be64 sequence ++ idBytes pack))

def packHistoryBucketKey (granularity : HistoryGranularity) (bucketStart backend : UInt64)
    (packType : PackType) : Option Bytes :=
  if !validHistoryGranularity granularity then none
  else some (ascii "pb:" ++ ([granularity] ++ (be64 bucketStart ++ (be64 backend ++ [packType]))))

def packPlacementKey (pack : ID) (backend : UInt64) : Bytes :=
  ascii "pl:" ++ (idBytes pack ++ (colon ++ be64 backend))

def verificationStateKey (pack : ID) (backend : UInt64) : Bytes :=
  ascii "vr:" ++ (idBytes pack ++ be64 backend)

def verificationEventKey (unixSeconds sequence : UInt64) (pack : ID) (backend : UInt64) : Bytes :=
  ascii "ve:" ++ (be64 unixSeconds ++ (be64 sequence ++ (idBytes pack ++ be64 backend)))

def uidExclusionPolicyKey (uid : UInt32) : Bytes := ascii "u:policy:blocklist:" ++ be32 uid

def deletionCertificateKey (uid : UInt32) (unixSeconds : UInt64) (runID : ID) : Bytes :=
  ascii "dc:" ++ (be32 uid ++ (be64 unixSeconds ++ idBytes runID))

def backendPackKey (backend : UInt64) (pack : ID) : Bytes :=
  ascii "bp:" ++ (be64 backend ++ (colon ++ idBytes pack))

def placementDeleteQueueKey (deleteAfter : Int64) (pack : ID) (backend : UInt64) : Bytes :=
  ascii "dq:" ++ (be64 deleteAfter.toUInt64 ++ (colon ++ (idBytes pack ++
    (colon ++ be64 backend))))

def placementRequestKey (deadlineUnixSeconds : UInt64) (pack : ID) : Bytes :=
  ascii "rq:" ++ (be64 deadlineUnixSeconds ++ (colon ++ idBytes pack))

def repackLineageKey (source successor : ID) : Bytes :=
  ascii "rl:" ++ (idBytes source ++ (colon ++ idBytes successor))

def promotionEligibilityKey (pack : ID) : Bytes := idKey "pe:" pack

def analyticsFactKey (fsid : UInt32) (inode : UInt64) : Bytes := inodeKey "an:" fsid inode

def analyticsCacheKey (hash : ID) : Bytes := idKey "aq:" hash

def analyticsMetadataKey : Bytes := ascii "meta:analytics"

def analyticsBuildCheckpointKey : Bytes := ascii "meta:analytics-build"

def analyticsDictionaryKey (kind : AnalyticsDictionaryKind) (id : UInt32) : Option Bytes :=
  if !validAnalyticsDictionaryKind kind || id == 0 then none
  else some (ascii "ad:" ++ ([kind] ++ be32 id))

def analyticsFactSegmentKey (segment : UInt64) : Option Bytes := analyticsUint64Key "af:" segment

def analyticsSegmentMetadataKey (segment : UInt64) : Option Bytes :=
  analyticsUint64Key "am:" segment

def analyticsManifestKey (classificationEpoch : UInt64) : Option Bytes :=
  analyticsUint64Key "ap:" classificationEpoch

def analyticsDimensionIndexKey (dimension : AnalyticsDimension) (value segment : UInt64) :
    Option Bytes :=
  if !validAnalyticsDimension dimension || segment == 0 then none
  else some (ascii "ai:" ++ ([dimension] ++ (be64 value ++ be64 segment)))

def analyticsResidencyKey (fsid : UInt32) (inode generation : UInt64) : Option Bytes :=
  if generation = 0 then none else some (revisionKey "ar:" fsid inode generation)

def analyticsDerivedPrefix (generation : UInt64) (key : Bytes) : Option Bytes :=
  if generation = 0 then none
  else some (ascii "av1:" ++ (be64 generation ++ (colon ++ key)))

def analyticsDerivedGenerationMarkerKey (generation : UInt64) : Option Bytes :=
  if generation = 0 then none else analyticsDerivedPrefix generation (ascii "complete")

def analyticsDeltaKey (commit : UInt64) (ordinal : UInt32) : Option Bytes :=
  if commit = 0 then none else some (ascii "ae:" ++ (be64 commit ++ be32 ordinal))

def authoritativeCrawlProofKey (scope : ID) (endCommit : UInt64) : Option Bytes :=
  if scope = 0 ∨ endCommit = 0 then none
  else some (ascii "acp:" ++ (idBytes scope ++ be64 endCommit))

def authoritativeSourceBindingKey (scope : ID) (fsid : UInt32) (inode generation : UInt64) :
    Option Bytes :=
  if scope = 0 ∨ fsid = 0 ∨ inode = 0 ∨ generation = 0 then none
  else some (ascii "asb:" ++ (idBytes scope ++ (be32 fsid ++ (be64 inode ++ be64 generation))))

def analyticsWatermarkKey (classificationEpoch : UInt64) : Option Bytes :=
  analyticsUint64Key "aw:applied:" classificationEpoch

def analyticsQueryResultKey (hash : ID)
    (repositoryGeneration classificationEpoch appliedCommit : UInt64) : Option Bytes :=
  if repositoryGeneration = 0 ∨ classificationEpoch = 0 then none
  else some (ascii "aq:result:" ++ (idBytes hash ++ (be64 repositoryGeneration ++
    (be64 classificationEpoch ++ be64 appliedCommit))))

def analyticsQueryHeatKey (hash : ID) : Bytes := idKey "aq:heat:" hash

def analyticsQueryViewKey (view : ID) (bucket : UInt64) : Bytes :=
  ascii "aq:view:" ++ (idBytes view ++ be64 bucket)

def analyticsQueryJobKey (query : ID) : Bytes := idKey "aq:job:" query

def growthTimeKey (granularity : AnalyticsGranularity) (timestamp : Int64) (tier : PackTier) :
    Option Bytes :=
  if !validAnalyticsGranularity granularity || !validPackTier tier then none
  else some (ascii "g:time:" ++ ([granularity] ++ (be64 (sortableTime timestamp) ++ [tier])))

def userSummaryKey (uid : UInt32) : Bytes := analyticsUint32Key "u:summary:" uid

def groupSummaryKey (gid : UInt32) : Bytes := analyticsUint32Key "g:summary:" gid

def userStatsKey (uid : UInt32) (residency : AnalyticsResidency) : Option Bytes :=
  analyticsStatsKey "u:statsv1:" uid residency

def groupStatsKey (gid : UInt32) (residency : AnalyticsResidency) : Option Bytes :=
  analyticsStatsKey "g:statsv1:" gid residency

def userChurnKey (uid : UInt32) (granularity : AnalyticsGranularity) (timestamp : Int64) :
    Option Bytes :=
  if !validAnalyticsGranularity granularity then none
  else some (ascii "u:churn:" ++ (be32 uid ++ ([granularity] ++ be64 (sortableTime timestamp))))

def userInodeKey (uid fsid : UInt32) (inode : UInt64) : Bytes :=
  ascii "u:inodes:" ++ (be32 uid ++ (be32 fsid ++ be64 inode))

def userBlobKey (uid : UInt32) (blob : ID) : Bytes := ascii "u:blobs:" ++ (be32 uid ++ idBytes blob)

def userBlobContributionKey (uid : UInt32) (blob : ID) (fsid : UInt32)
    (inode generation : UInt64) (ordinal : UInt32) : Option Bytes :=
  if generation = 0 then none
  else some (ascii "u:blobv1:" ++ (be32 uid ++ (idBytes blob ++ (be32 fsid ++ (be64 inode ++
    (be64 generation ++ be32 ordinal))))))

def nextEventSequenceKey : Bytes := ascii "meta:next-event-seq"

def historyRawFloorKey : Bytes := ascii "meta:history-raw-floor"

def historyEnabledAtKey : Bytes := ascii "meta:history-enabled-at"

def nextRevisionKey : Bytes := ascii "meta:next-revision-seq"

def nextExportSequenceKey : Bytes := ascii "meta:next-export-seq"

/-! ## Paths of growth keys -/

/-- The UTF-8 encodings of the code points `unicode.IsSpace` names. -/
def spaceEncodings : List Bytes :=
  [[0x09], [0x0a], [0x0b], [0x0c], [0x0d], [0x20], [0xc2, 0x85], [0xc2, 0xa0],
    [0xe1, 0x9a, 0x80], [0xe2, 0x80, 0x80], [0xe2, 0x80, 0x81], [0xe2, 0x80, 0x82],
    [0xe2, 0x80, 0x83], [0xe2, 0x80, 0x84], [0xe2, 0x80, 0x85], [0xe2, 0x80, 0x86],
    [0xe2, 0x80, 0x87], [0xe2, 0x80, 0x88], [0xe2, 0x80, 0x89], [0xe2, 0x80, 0x8a],
    [0xe2, 0x80, 0xa8], [0xe2, 0x80, 0xa9], [0xe2, 0x80, 0xaf], [0xe2, 0x81, 0x9f],
    [0xe3, 0x80, 0x80]]

/-- Drop encodings of `words` from the front, at most `fuel` times. -/
def dropWords (words : List Bytes) : Nat → Bytes → Bytes
  | 0, bytes => bytes
  | fuel + 1, bytes =>
    match words.find? fun word => word.isPrefixOf bytes with
    | some word => dropWords words fuel (bytes.drop word.length)
    | none => bytes

/-- `strings.TrimSpace`. -/
def trimSpace (path : Bytes) : Bytes :=
  let front := dropWords spaceEncodings path.length path
  (dropWords (spaceEncodings.map List.reverse) front.length front.reverse).reverse

/-- `strings.Trim(path, "/")`. -/
def trimSlashes (path : Bytes) : Bytes :=
  ((path.dropWhile (· == 47)).reverse.dropWhile (· == 47)).reverse

def normalizeAnalyticsPath (path : Bytes) : Bytes :=
  let path := trimSpace path
  if path.isEmpty || path.contains 0 then []
  else
    let path := 47 :: trimSlashes path
    if path == [47] || (path.zip path.tail).contains (47, 47) then [] else path

def growthPathKey (path : Bytes) (granularity : AnalyticsGranularity) (timestamp : Int64) :
    Option Bytes :=
  let path := normalizeAnalyticsPath path
  if path.isEmpty || path.length > maxPathIndexPathBytes ||
      !validAnalyticsGranularity granularity then none
  else some (ascii "g:path:" ++ (be16 (UInt16.ofNat path.length) ++ (path ++ ([granularity] ++
    be64 (sortableTime timestamp)))))

end Vaultic.Wire
