/-
  Wire/KeyRoundTrip.lean  —  parsing a constructed key.

  `parseKey_run`: parsing a constructed key returns the constructor's kind and its
  arguments.  A constructed key is a concatenation, so the proofs read fields at an
  offset of a concatenation; that no earlier shape of the codec takes the key is, in
  most cases, a matter of its length.  The keys of growth paths, whose path the parser
  normalises again, are apart (`growthPathKey_parsed_iff`).
-/
import Vaultic.Wire.KeyParse

set_option autoImplicit false

namespace Vaultic.Wire

open Vaultic.Lib
open Vaultic.Schema (ID)

/-! ## Fields of a concatenation -/

theorem field_append_right {front rest : Bytes} {offset width : Nat} (h : front.length ≤ offset) :
    field (front ++ rest) offset width = field rest (offset - front.length) width := by
  simp [field, List.drop_append, List.drop_of_length_le h]

theorem field_append_left {front rest : Bytes} {width : Nat} (h : front.length = width) :
    field (front ++ rest) 0 width = front := by
  simp [field, List.take_left' h]

theorem field_self {bytes : Bytes} {width : Nat} (h : bytes.length = width) :
    field bytes 0 width = bytes := by
  simp [field, ← h]

section
variable {front rest : Bytes} {offset : Nat}

section

variable (h : front.length ≤ offset)
include h

@[simp] theorem u32At_append :
    u32At (front ++ rest) offset = u32At rest (offset - front.length) := by
  rw [u32At, field_append_right h, u32At]

@[simp] theorem u64At_append :
    u64At (front ++ rest) offset = u64At rest (offset - front.length) := by
  rw [u64At, field_append_right h, u64At]

@[simp] theorem idAt_append : idAt (front ++ rest) offset = idAt rest (offset - front.length) := by
  rw [idAt, field_append_right h, idAt]

@[simp] theorem byteAt_append :
    byteAt (front ++ rest) offset = byteAt rest (offset - front.length) := by
  rw [byteAt, byteAt, List.getD_eq_getElem?_getD, List.getD_eq_getElem?_getD,
    List.getElem?_append_right h]

end

@[simp] theorem u32At_be32_append (value : UInt32) : u32At (be32 value ++ rest) 0 = value := by
  rw [u32At, field_append_left (length_be32 value), uint32_be32]

@[simp] theorem u64At_be64_append (value : UInt64) : u64At (be64 value ++ rest) 0 = value := by
  rw [u64At, field_append_left (length_be64 value), uint64_be64]

@[simp] theorem idAt_idBytes_append (id : ID) : idAt (idBytes id ++ rest) 0 = id := by
  rw [idAt, field_append_left (length_idBytes id), idOf_idBytes]

@[simp] theorem u32At_be32 (value : UInt32) : u32At (be32 value) 0 = value := by
  rw [u32At, field_self (length_be32 value), uint32_be32]

@[simp] theorem u64At_be64 (value : UInt64) : u64At (be64 value) 0 = value := by
  rw [u64At, field_self (length_be64 value), uint64_be64]

@[simp] theorem idAt_idBytes (id : ID) : idAt (idBytes id) 0 = id := by
  rw [idAt, field_self (length_idBytes id), idOf_idBytes]

section

variable (byte : UInt8)
include byte

@[simp] theorem u32At_cons : u32At (byte :: rest) (offset + 1) = u32At rest offset :=
  rfl

@[simp] theorem u64At_cons : u64At (byte :: rest) (offset + 1) = u64At rest offset :=
  rfl

@[simp] theorem idAt_cons : idAt (byte :: rest) (offset + 1) = idAt rest offset :=
  rfl

@[simp] theorem byteAt_cons :
    byteAt (byte :: rest) (offset + 1) = byteAt rest offset := rfl

@[simp] theorem byteAt_cons_zero : byteAt (byte :: rest) 0 = byte := rfl

end

end

@[simp] theorem startsWith_ascii (text : String) (body : Bytes) :
    startsWith (ascii text ++ body) text = true := by
  simp [startsWith]

/-! ## Constructed keys are parsed -/

@[simp] theorem length_ascii (text : String) : (ascii text).length = text.toList.length :=
  List.length_map _

/-- Where a key is as long as one of an earlier shape, their prefixes differ. -/
theorem startsWith_other (body : Bytes) :
    startsWith (ascii "meta:export-snapshot:" ++ body) "meta:import-snapshot:" = false ∧
    startsWith (ascii "meta:export-index:" ++ body) "meta:import-index:" = false ∧
    startsWith (ascii "pe:" ++ body) "pv:" = false ∧
    startsWith (ascii "am:" ++ body) "af:" = false ∧
    startsWith (ascii "ap:" ++ body) "af:" = false ∧
    startsWith (ascii "ap:" ++ body) "am:" = false ∧
    startsWith (ascii "ae:" ++ body) "an:" = false :=
  ⟨rfl, rfl, rfl, rfl, rfl, rfl, rfl⟩

variable {key : Bytes}

theorem parseKey_codec {parse : Bytes → Result ParsedKey}
    (h : key.head?.bind (codecForKey parseKey) = some parse) : parseKey key = parse key := by
  rw [parseKey_eq, parseWith, h]

/-! A key that starts with `a` goes through the groups of analytics shapes. -/

variable {result : Result ParsedKey}

theorem parseKey_core (hhead : key.head? = some 97)
    (hderived : startsWith key "av1:" = false) (h : parseAnalyticsCoreKey key = some result) :
    parseKey key = result := by
  rw [parseKey_eq, parseWith, hhead]
  change parseAnalyticsKey parseKey key = _
  simp [parseAnalyticsKey, hderived, h]

theorem parseKey_query (hhead : key.head? = some 97)
    (hderived : startsWith key "av1:" = false) (hcore : parseAnalyticsCoreKey key = none)
    (h : parseAnalyticsQueryKey key = some result) : parseKey key = result := by
  rw [parseKey_eq, parseWith, hhead]
  change parseAnalyticsKey parseKey key = _
  simp [parseAnalyticsKey, hderived, hcore, h]

section
variable (id : ID) (fsid : UInt32) (revision : UInt64)

/-- The text behind `aq:` that a cache hash must not start with. -/
def reservedHash (hash : ID) : Bool :=
  ["result:", "heat:", "view:", "job:"].any (startsWith (idBytes hash))

theorem startsWith_append (text more : String) (body : Bytes) :
    startsWith (ascii text ++ body) (text ++ more) = startsWith body more := by
  rw [startsWith, startsWith, ascii, ascii, String.toList_append, List.map_append]
  induction text.toList.map (fun c => UInt8.ofNat c.toNat) with
  | nil => rfl
  | cons byte rest ih => simpa [List.isPrefixOf] using ih

theorem reservedAnalyticsQueryPrefix_cacheKey (hash : ID) :
    reservedAnalyticsQueryPrefix (analyticsCacheKey hash) = reservedHash hash := by
  have hsplit : ["aq:result:", "aq:heat:", "aq:view:", "aq:job:"] =
      ["result:", "heat:", "view:", "job:"].map ("aq:" ++ ·) := by decide
  rw [reservedAnalyticsQueryPrefix, hsplit, List.any_map, reservedHash, analyticsCacheKey, idKey]
  simp only [Function.comp_def, startsWith_append]

theorem parseKey_analyticsCacheKey (h : reservedHash id = false) :
    parseKey (analyticsCacheKey id) = .ok { kind := .analyticsCache, id } := by
  rw [← reservedAnalyticsQueryPrefix_cacheKey, analyticsCacheKey, idKey] at h
  refine parseKey_query rfl rfl ?_ ?_
  · simp [parseAnalyticsCoreKey, analyticsCacheKey, idKey, hasShape]
  · simp [parseAnalyticsQueryKey, parseAnalyticsQueryResultKey, analyticsCacheKey, idKey,
      hasShape, h]

theorem parseKey_packAggregateKey {kind : AggregateKind} (h : (aggregateNames.lookup kind).isSome) :
    parseKey (packAggregateKey kind) = .ok { kind := .packAggregate, aggregate := kind } := by
  have hall : ∀ entry ∈ aggregateNames, parseKey (packAggregateKey entry.1) =
      .ok { kind := .packAggregate, aggregate := entry.1 } := by decide +kernel
  obtain ⟨entry, hentry, hkind⟩ := List.lookup_isSome_iff.mp h
  rw [eq_of_beq hkind]
  exact hall entry hentry

theorem parseKey_tierAggregateKey {tier : PackTier} (h : tierAggregateKey tier = some key) :
    parseKey key = .ok { kind := .tierAggregate, tier } := by
  have hall : ∀ entry ∈ tierAggregateNames, (tierAggregateKey entry.1).map parseKey =
      some (.ok { kind := .tierAggregate, tier := entry.1 }) := by decide +kernel
  have hsome : (tierAggregateNames.lookup tier).isSome := by
    rw [← Option.isSome_map, ← tierAggregateKey, h]
    rfl
  obtain ⟨entry, hentry, htier⟩ := List.lookup_isSome_iff.mp hsome
  have hparse := hall entry hentry
  rw [← eq_of_beq htier, h] at hparse
  exact Option.some.inj hparse

/-! Keys without arguments. -/

/-- The keys that name one record each, with their kinds. -/
def soleKeys : List (Bytes × KeyKind) :=
  [(nextRevisionKey, .nextRevision), (nextExportSequenceKey, .nextExportSequence),
    (nextEventSequenceKey, .nextEventSequence), (historyRawFloorKey, .historyRawFloor),
    (historyEnabledAtKey, .historyEnabledAt), (analyticsMetadataKey, .analyticsMetadata),
    (analyticsBuildCheckpointKey, .analyticsBuildCheckpoint)]

theorem parseKey_soleKey {kind : KeyKind} (h : (key, kind) ∈ soleKeys) :
    parseKey key = .ok { kind } := by
  have hall : ∀ entry ∈ soleKeys, parseKey entry.1 = .ok { kind := entry.2 } := by
    decide +kernel
  exact hall (key, kind) h

/-! Keys with a path, and keys that wrap another. -/

variable {path : Bytes}

theorem findIdx?_terminator (h : 0 ∉ path) :
    (path ++ [0]).findIdx? (· == 0) = some path.length := by
  have hpath : path.findIdx? (· == 0) = none := by
    rw [List.findIdx?_eq_none_iff]
    intro byte hbyte
    exact beq_false_of_ne fun hzero => h (hzero ▸ hbyte)
  rw [List.findIdx?_append, hpath]
  simp

/-- The fields of a path-version key, read where the parser looks for them. -/
theorem parsePathVersionKey_append (hpath : path ≠ [])
    (hlength : path.length ≤ maxPathIndexPathBytes) (hzero : 0 ∉ path) (hrevision : revision ≠ 0) :
    parsePathVersionKey (ascii "pv:" ++ (be32 fsid ++ (path ++ ([0] ++ be64 revision)))) =
      .ok { kind := .pathVersion, fsid, path, revision } := by
  have hn : (ascii "pv:").length = 3 := rfl
  have hpos : 0 < path.length := List.length_pos_iff.mpr hpath
  generalize hkey : ascii "pv:" ++ (be32 fsid ++ (path ++ ([0] ++ be64 revision))) = key
  have hsize : key.length = path.length + 16 := by
    simp only [← hkey, List.length_append, hn, length_be32, length_be64, List.length_singleton]
    omega
  have hfield (width : Nat) : field key 7 width =
      field (path ++ ([0] ++ be64 revision)) 0 width := by
    rw [← hkey, field_append_right (by simp [hn]), field_append_right (by simp [hn])]
    simp [hn]
  have hwindow : field (path ++ ([0] ++ be64 revision)) 0 (path.length + 1) = path ++ [0] := by
    rw [← List.append_assoc]
    exact field_append_left (by simp)
  have hfsid : u32At key 3 = fsid := by
    simp [← hkey, hn]
  have hrest : u64At key (7 + path.length + 1) = revision := by
    rw [← hkey, u64At_append (by omega), u64At_append (by simp [hn]; omega),
      u64At_append (by simp [hn]; omega), u64At_append (by simp [hn]; omega)]
    simp only [hn, length_be32, List.length_singleton]
    rw [show 7 + path.length + 1 - 3 - 4 - path.length - 1 = 0 by omega, u64At_be64]
  unfold parsePathVersionKey
  rw [hsize, show path.length + 16 - 8 - 7 = path.length + 1 by omega, hfield, hwindow,
    findIdx?_terminator hzero]
  simp only [hfield, field_append_left, hrest, hfsid]
  rw [if_neg (by omega), if_neg (by simp [hrevision]; omega)]

theorem parseKey_pathVersionKey (h : pathVersionKey fsid path revision = some key)
    (hrevision : revision ≠ 0) :
    parseKey key =
      .ok { kind := .pathVersion, fsid, path := trimPrefix 47 path, revision } := by
  simp only [pathVersionKey] at h
  split_ifs at h with hvalid
  simp only [Bool.or_eq_true, not_or, Bool.not_eq_true, List.isEmpty_eq_false_iff,
    decide_eq_false_iff_not, not_lt, List.contains_iff_mem] at hvalid
  cases h
  have hn : (ascii "pv:").length = 3 := rfl
  generalize htail : be32 fsid ++ (trimPrefix 47 path ++ ([0] ++ be64 revision)) = tail
  have hlong : 16 < tail.length + 3 := by
    have hpos := List.length_pos_iff.mpr hvalid.1.1
    simp only [← htail, List.length_append, length_be32, length_be64, List.length_singleton]
    omega
  have hpack : startsWith (ascii "pv:" ++ tail) "p:" = false := rfl
  have hhistory : startsWith (ascii "pv:" ++ tail) "ph:" = false := rfl
  have hbucket : startsWith (ascii "pv:" ++ tail) "pb:" = false := rfl
  have hplacement : startsWith (ascii "pv:" ++ tail) "pl:" = false := rfl
  rw [parseKey_eq]
  change parsePackKey _ = _
  have hcodec : parsePackKey (ascii "pv:" ++ tail) =
      parsePathVersionKey (ascii "pv:" ++ tail) := by
    simp only [parsePackKey, hasShape, hpack, hhistory, hbucket, hplacement, Bool.and_false,
      Bool.false_and, Bool.false_eq_true, if_false, List.length_append, hn, startsWith_ascii]
    rw [if_pos ⟨by omega, trivial⟩]
  rw [hcodec, ← htail]
  exact parsePathVersionKey_append fsid revision hvalid.1.1 hvalid.1.2 hvalid.2 hrevision

/-- A key behind `av1:` and a generation is parsed as the derived key it is. -/
theorem parseKey_wrapped (generation : UInt64) (inner : Bytes) :
    parseKey (ascii "av1:" ++ (be64 generation ++ (colon ++ inner))) =
      parseAnalyticsDerivedKey parseKey
        (ascii "av1:" ++ (be64 generation ++ (colon ++ inner))) := by
  rw [parseKey_eq]
  change parseAnalyticsKey parseKey _ = _
  rw [parseAnalyticsKey, if_pos]
  simp [colon]
  omega

theorem wrapped_generation (generation : UInt64) (inner : Bytes) :
    u64At (ascii "av1:" ++ (be64 generation ++ (colon ++ inner))) 4 = generation := by
  simp

theorem wrapped_inner (generation : UInt64) (inner : Bytes) :
    (ascii "av1:" ++ (be64 generation ++ (colon ++ inner))).drop 13 = inner := by
  have hn : (ascii "av1:" ++ be64 generation ++ colon).length = 13 := by
    simp [ascii, colon]
  rw [← List.append_assoc, ← List.append_assoc, List.drop_left' hn]

variable {generation : UInt64}

theorem parseKey_analyticsDerivedKey {inner key : Bytes}
    (h : analyticsDerivedKey generation inner = some key) :
    ∃ parsed, parseKey inner = .ok parsed ∧
      parseKey key = .ok { parsed with viewGeneration := generation } := by
  unfold analyticsDerivedKey at h
  split_ifs at h with hvalid
  cases h
  obtain ⟨hgeneration, hderived⟩ := not_or.mp hvalid
  simp only [Bool.not_eq_true, Bool.not_eq_false', isAnalyticsDerivedKey] at hderived
  cases hinner : parseKey inner with
  | error text => rw [hinner] at hderived; cases hderived
  | ok parsed =>
    rw [hinner] at hderived
    obtain ⟨hview, hkind⟩ := (Bool.and_eq_true _ _).mp hderived
    have hmarker : inner ≠ ascii "complete" := by
      rintro rfl
      cases hinner
    refine ⟨parsed, rfl, ?_⟩
    rw [parseKey_wrapped, parseAnalyticsDerivedKey, wrapped_generation, wrapped_inner, hinner]
    simp [hgeneration, hmarker, eq_of_beq hview, hkind]

theorem parseKey_analyticsDerivedGenerationMarkerKey
    (h : analyticsDerivedGenerationMarkerKey generation = some key) :
    parseKey key = .ok { kind := .analyticsDerivedMarker, viewGeneration := generation } := by
  unfold analyticsDerivedGenerationMarkerKey analyticsDerivedPrefix at h
  split_ifs at h with hgeneration
  cases h
  rw [parseKey_wrapped, parseAnalyticsDerivedKey, wrapped_generation, wrapped_inner]
  simp [hgeneration]

end

/-! ## All constructors -/

/-- A call of a key constructor. -/
inductive KeyCall where
  | blobKey (id : ID)
  | packKey (id : ID)
  | snapshotKey (id : ID)
  | referenceCountKey (id : ID)
  | snapshotCommitKey (commitSequence : UInt64) (snapshot : ID)
  | pathVersionKey (fsid : UInt32) (path : Bytes) (revision : UInt64)
  | pathOverflowKey (fsid : UInt32) (path : Bytes) (revision : UInt64)
  | currentInodeKey (fsid : UInt32) (inode : UInt64)
  | currentDirectoryKey (fsid : UInt32) (inode : UInt64)
  | inodeRevisionKey (fsid : UInt32) (inode revision : UInt64)
  | directoryRevisionKey (fsid : UInt32) (inode revision : UInt64)
  | hardlinkRefsKey (fsid : UInt32) (inode revision : UInt64)
  | contentManifestKey (id : ID) (segment : UInt32)
  | reverseManifestKey (blob manifest : ID)
  | reverseInodeKey (blob : ID) (fsid : UInt32) (inode : UInt64)
  | garbageCollectionKey (target : GCTarget) (id : ID)
  | crawlDebtKey (snapshot work : ID)
  | importCheckpointKey (index : ID)
  | snapshotImportCheckpointKey (snapshot : ID)
  | legacyImportReceiptKey (session : ID) (batch : UInt64)
  | exportCheckpointKey (snapshot : ID)
  | exportIndexCheckpointKey (index : ID)
  | packAggregateKey (kind : AggregateKind)
  | tierAggregateKey (tier : PackTier)
  | packHistoryKey (unixSeconds sequence : UInt64) (pack : ID)
  | packHistoryBucketKey (granularity : HistoryGranularity) (bucketStart backend : UInt64)
      (packType : PackType)
  | packPlacementKey (pack : ID) (backend : UInt64)
  | verificationStateKey (pack : ID) (backend : UInt64)
  | verificationEventKey (unixSeconds sequence : UInt64) (pack : ID) (backend : UInt64)
  | uidExclusionPolicyKey (uid : UInt32)
  | deletionCertificateKey (uid : UInt32) (unixSeconds : UInt64) (runID : ID)
  | backendPackKey (backend : UInt64) (pack : ID)
  | placementDeleteQueueKey (deleteAfter : Int64) (pack : ID) (backend : UInt64)
  | placementRequestKey (deadlineUnixSeconds : UInt64) (pack : ID)
  | repackLineageKey (source successor : ID)
  | promotionEligibilityKey (pack : ID)
  | analyticsFactKey (fsid : UInt32) (inode : UInt64)
  | analyticsCacheKey (hash : ID)
  | analyticsMetadataKey
  | analyticsBuildCheckpointKey
  | analyticsDictionaryKey (kind : AnalyticsDictionaryKind) (id : UInt32)
  | analyticsFactSegmentKey (segment : UInt64)
  | analyticsSegmentMetadataKey (segment : UInt64)
  | analyticsManifestKey (classificationEpoch : UInt64)
  | analyticsDimensionIndexKey (dimension : AnalyticsDimension) (value segment : UInt64)
  | analyticsResidencyKey (fsid : UInt32) (inode generation : UInt64)
  | analyticsDerivedKey (generation : UInt64) (key : Bytes)
  | analyticsDerivedGenerationMarkerKey (generation : UInt64)
  | analyticsDeltaKey (commit : UInt64) (ordinal : UInt32)
  | authoritativeCrawlProofKey (scope : ID) (endCommit : UInt64)
  | authoritativeSourceBindingKey (scope : ID) (fsid : UInt32) (inode generation : UInt64)
  | analyticsWatermarkKey (classificationEpoch : UInt64)
  | analyticsQueryResultKey (hash : ID)
      (repositoryGeneration classificationEpoch appliedCommit : UInt64)
  | analyticsQueryHeatKey (hash : ID)
  | analyticsQueryViewKey (view : ID) (bucket : UInt64)
  | analyticsQueryJobKey (query : ID)
  | growthTimeKey (granularity : AnalyticsGranularity) (timestamp : Int64) (tier : PackTier)
  | growthPathKey (path : Bytes) (granularity : AnalyticsGranularity) (timestamp : Int64)
  | userSummaryKey (uid : UInt32)
  | groupSummaryKey (gid : UInt32)
  | userStatsKey (uid : UInt32) (residency : AnalyticsResidency)
  | groupStatsKey (gid : UInt32) (residency : AnalyticsResidency)
  | userChurnKey (uid : UInt32) (granularity : AnalyticsGranularity) (timestamp : Int64)
  | userInodeKey (uid fsid : UInt32) (inode : UInt64)
  | userBlobKey (uid : UInt32) (blob : ID)
  | userBlobContributionKey (uid : UInt32) (blob : ID) (fsid : UInt32)
      (inode generation : UInt64) (ordinal : UInt32)
  | nextEventSequenceKey
  | historyRawFloorKey
  | historyEnabledAtKey
  | nextRevisionKey
  | nextExportSequenceKey

/-- The key that a call returns (`none` for nil), and what parsing it should return: the kind
and the arguments. -/
def keyAndParsed (sha256 : Bytes → ID) : KeyCall → Option Bytes × ParsedKey
  | .blobKey id => (blobKey id, { kind := .blob, id })
  | .packKey id => (packKey id, { kind := .pack, id })
  | .snapshotKey id => (snapshotKey id, { kind := .snapshot, id })
  | .referenceCountKey id => (referenceCountKey id, { kind := .referenceCount, id })
  | .snapshotCommitKey commitSequence snapshot =>
    (snapshotCommitKey commitSequence snapshot,
      { kind := .snapshotCommit, revision := commitSequence, id := snapshot })
  | .pathVersionKey fsid path revision =>
    (pathVersionKey fsid path revision,
      { kind := .pathVersion, fsid, path := trimPrefix 47 path, revision })
  | .pathOverflowKey fsid path revision =>
    (pathOverflowKey sha256 fsid path revision,
      { kind := .pathVersion, fsid, path := overflowPath sha256 path, revision })
  | .currentInodeKey fsid inode =>
    (currentInodeKey fsid inode, { kind := .currentInode, fsid, inode })
  | .currentDirectoryKey fsid inode =>
    (currentDirectoryKey fsid inode, { kind := .currentDirectory, fsid, inode })
  | .inodeRevisionKey fsid inode revision =>
    (inodeRevisionKey fsid inode revision, { kind := .inodeRevision, fsid, inode, revision })
  | .directoryRevisionKey fsid inode revision =>
    (directoryRevisionKey fsid inode revision,
      { kind := .directoryRevision, fsid, inode, revision })
  | .hardlinkRefsKey fsid inode revision =>
    (hardlinkRefsKey fsid inode revision, { kind := .hardlinkRefs, fsid, inode, revision })
  | .contentManifestKey id segment =>
    (contentManifestKey id segment, { kind := .contentManifest, id, segment })
  | .reverseManifestKey blob manifest =>
    (reverseManifestKey blob manifest,
      { kind := .reverseManifest, id := blob, secondID := manifest })
  | .reverseInodeKey blob fsid inode =>
    (reverseInodeKey blob fsid inode, { kind := .reverseInode, id := blob, fsid, inode })
  | .garbageCollectionKey target id =>
    (garbageCollectionKey target id, { kind := .garbageCollection, gcTarget := target, id })
  | .crawlDebtKey snapshot work =>
    (crawlDebtKey snapshot work, { kind := .crawlDebt, id := snapshot, secondID := work })
  | .importCheckpointKey index =>
    (importCheckpointKey index, { kind := .importCheckpoint, id := index })
  | .snapshotImportCheckpointKey snapshot =>
    (snapshotImportCheckpointKey snapshot, { kind := .snapshotImportCheckpoint, id := snapshot })
  | .legacyImportReceiptKey session batch =>
    (legacyImportReceiptKey session batch,
      { kind := .legacyImportReceipt, id := session, revision := batch })
  | .exportCheckpointKey snapshot =>
    (exportCheckpointKey snapshot, { kind := .exportCheckpoint, id := snapshot })
  | .exportIndexCheckpointKey index =>
    (exportIndexCheckpointKey index, { kind := .exportIndexCheckpoint, id := index })
  | .packAggregateKey kind => (packAggregateKey kind, { kind := .packAggregate, aggregate := kind })
  | .tierAggregateKey tier => (tierAggregateKey tier, { kind := .tierAggregate, tier })
  | .packHistoryKey unixSeconds sequence pack =>
    (packHistoryKey unixSeconds sequence pack,
      { kind := .packHistory, eventTime := unixSeconds, revision := sequence, id := pack })
  | .packHistoryBucketKey granularity bucketStart backend packType =>
    (packHistoryBucketKey granularity bucketStart backend packType,
      { kind := .packHistoryBucket, granularity, eventTime := bucketStart, backend, packType })
  | .packPlacementKey pack backend =>
    (packPlacementKey pack backend, { kind := .packPlacement, id := pack, backend })
  | .verificationStateKey pack backend =>
    (verificationStateKey pack backend, { kind := .verificationState, id := pack, backend })
  | .verificationEventKey unixSeconds sequence pack backend =>
    (verificationEventKey unixSeconds sequence pack backend,
      { kind := .verificationEvent, eventTime := unixSeconds, revision := sequence, id := pack,
        backend })
  | .uidExclusionPolicyKey uid => (uidExclusionPolicyKey uid, { kind := .uidExclusionPolicy, uid })
  | .deletionCertificateKey uid unixSeconds runID =>
    (deletionCertificateKey uid unixSeconds runID,
      { kind := .deletionCertificate, uid, eventTime := unixSeconds, id := runID })
  | .backendPackKey backend pack =>
    (backendPackKey backend pack, { kind := .backendPack, backend, id := pack })
  | .placementDeleteQueueKey deleteAfter pack backend =>
    (placementDeleteQueueKey deleteAfter pack backend,
      { kind := .placementDeleteQueue, deleteAfter, id := pack, backend })
  | .placementRequestKey deadlineUnixSeconds pack =>
    (placementRequestKey deadlineUnixSeconds pack,
      { kind := .placementRequest, eventTime := deadlineUnixSeconds, id := pack })
  | .repackLineageKey source successor =>
    (repackLineageKey source successor,
      { kind := .repackLineage, id := source, secondID := successor })
  | .promotionEligibilityKey pack =>
    (promotionEligibilityKey pack, { kind := .promotionEligibility, id := pack })
  | .analyticsFactKey fsid inode =>
    (analyticsFactKey fsid inode, { kind := .analyticsFact, fsid, inode })
  | .analyticsCacheKey hash => (analyticsCacheKey hash, { kind := .analyticsCache, id := hash })
  | .analyticsMetadataKey => (analyticsMetadataKey, { kind := .analyticsMetadata })
  | .analyticsBuildCheckpointKey =>
    (analyticsBuildCheckpointKey, { kind := .analyticsBuildCheckpoint })
  | .analyticsDictionaryKey kind id =>
    (analyticsDictionaryKey kind id,
      { kind := .analyticsDictionary, dictionary := kind, ordinal := id })
  | .analyticsFactSegmentKey segment =>
    (analyticsFactSegmentKey segment, { kind := .analyticsFactSegment, generation := segment })
  | .analyticsSegmentMetadataKey segment =>
    (analyticsSegmentMetadataKey segment,
      { kind := .analyticsSegmentMetadata, generation := segment })
  | .analyticsManifestKey classificationEpoch =>
    (analyticsManifestKey classificationEpoch,
      { kind := .analyticsManifest, epoch := classificationEpoch })
  | .analyticsDimensionIndexKey dimension value segment =>
    (analyticsDimensionIndexKey dimension value segment,
      { kind := .analyticsDimensionIndex, dimension, value, generation := segment })
  | .analyticsResidencyKey fsid inode generation =>
    (analyticsResidencyKey fsid inode generation,
      { kind := .analyticsResidency, fsid, inode, generation })
  | .analyticsDerivedKey generation key =>
    (analyticsDerivedKey generation key,
      match parseKey key with
      | .ok inner => { inner with viewGeneration := generation }
      -- Not reached: the constructor only wraps a key it can parse.
      | .error _ => { kind := .analyticsDerivedMarker, viewGeneration := generation })
  | .analyticsDerivedGenerationMarkerKey generation =>
    (analyticsDerivedGenerationMarkerKey generation,
      { kind := .analyticsDerivedMarker, viewGeneration := generation })
  | .analyticsDeltaKey commit ordinal =>
    (analyticsDeltaKey commit ordinal, { kind := .analyticsDelta, commit, ordinal })
  | .authoritativeCrawlProofKey scope endCommit =>
    (authoritativeCrawlProofKey scope endCommit,
      { kind := .authoritativeCrawlProof, id := scope, commit := endCommit })
  | .authoritativeSourceBindingKey scope fsid inode generation =>
    (authoritativeSourceBindingKey scope fsid inode generation,
      { kind := .authoritativeSourceBinding, id := scope, fsid, inode, generation })
  | .analyticsWatermarkKey classificationEpoch =>
    (analyticsWatermarkKey classificationEpoch,
      { kind := .analyticsWatermark, epoch := classificationEpoch })
  | .analyticsQueryResultKey hash repositoryGeneration classificationEpoch appliedCommit =>
    (analyticsQueryResultKey hash repositoryGeneration classificationEpoch appliedCommit,
      { kind := .analyticsQueryResult, id := hash, generation := repositoryGeneration,
        epoch := classificationEpoch, commit := appliedCommit })
  | .analyticsQueryHeatKey hash =>
    (analyticsQueryHeatKey hash, { kind := .analyticsQueryHeat, id := hash })
  | .analyticsQueryViewKey view bucket =>
    (analyticsQueryViewKey view bucket,
      { kind := .analyticsQueryView, id := view, value := bucket })
  | .analyticsQueryJobKey query =>
    (analyticsQueryJobKey query, { kind := .analyticsQueryJob, id := query })
  | .growthTimeKey granularity timestamp tier =>
    (growthTimeKey granularity timestamp tier,
      { kind := .growthTime, granularity, timestamp, tier })
  | .growthPathKey path granularity timestamp =>
    (growthPathKey path granularity timestamp,
      { kind := .growthPath, path, granularity, timestamp })
  | .userSummaryKey uid => (userSummaryKey uid, { kind := .userSummary, uid })
  | .groupSummaryKey gid => (groupSummaryKey gid, { kind := .groupSummary, gid })
  | .userStatsKey uid residency =>
    (userStatsKey uid residency, { kind := .userStats, uid, residency })
  | .groupStatsKey gid residency =>
    (groupStatsKey gid residency, { kind := .groupStats, gid, residency })
  | .userChurnKey uid granularity timestamp =>
    (userChurnKey uid granularity timestamp, { kind := .userChurn, uid, granularity, timestamp })
  | .userInodeKey uid fsid inode =>
    (userInodeKey uid fsid inode, { kind := .userInode, uid, fsid, inode })
  | .userBlobKey uid blob => (userBlobKey uid blob, { kind := .userBlob, uid, id := blob })
  | .userBlobContributionKey uid blob fsid inode generation ordinal =>
    (userBlobContributionKey uid blob fsid inode generation ordinal,
      { kind := .userBlobContribution, uid, id := blob, fsid, inode, generation, ordinal })
  | .nextEventSequenceKey => (nextEventSequenceKey, { kind := .nextEventSequence })
  | .historyRawFloorKey => (historyRawFloorKey, { kind := .historyRawFloor })
  | .historyEnabledAtKey => (historyEnabledAtKey, { kind := .historyEnabledAt })
  | .nextRevisionKey => (nextRevisionKey, { kind := .nextRevision })
  | .nextExportSequenceKey => (nextExportSequenceKey, { kind := .nextExportSequence })

namespace KeyCall

def run (sha256 : Bytes → ID) (call : KeyCall) : Option Bytes := (keyAndParsed sha256 call).1

def parsed (sha256 : Bytes → ID) (call : KeyCall) : ParsedKey := (keyAndParsed sha256 call).2

/-- Path versions have a revision, history buckets a pack type, aggregates a named kind; a
cache hash does not look like another query key, and growth paths are left out. -/
def InScope : KeyCall → Prop
  | .pathVersionKey _ _ revision | .pathOverflowKey _ _ revision => revision ≠ 0
  | .packHistoryBucketKey _ _ _ packType => validPackType packType = true
  | .packAggregateKey kind => (aggregateNames.lookup kind).isSome
  | .analyticsCacheKey hash => reservedHash hash = false
  | .growthPathKey _ _ _ => False
  | _ => True

end KeyCall

section

attribute [local simp] KeyCall.parsed keyAndParsed idKey inodeKey revisionKey hasShape
  namedMalformedKey

/-- Parsing a constructed key returns the constructor's kind and its arguments. -/
theorem parseKey_run (sha256 : Bytes → ID) (call : KeyCall) {key : Bytes}
    (hscope : call.InScope) (hrun : call.run sha256 = some key) :
    parseKey key = .ok (call.parsed sha256) := by
  cases call with
  | promotionEligibilityKey | exportCheckpointKey | exportIndexCheckpointKey =>
    cases hrun
    refine (parseKey_codec rfl).trans ?_
    simp [promotionEligibilityKey, exportCheckpointKey, exportIndexCheckpointKey, parsePackKey,
      parseMetadataKey, startsWith_other]
  -- the parser checks what the constructor checked
  | growthTimeKey | groupStatsKey | userStatsKey | userChurnKey | userBlobContributionKey =>
    simp only [KeyCall.run, keyAndParsed, growthTimeKey, groupStatsKey, userStatsKey, userChurnKey,
      userBlobContributionKey, analyticsStatsKey, Option.ite_none_left_eq_some,
      Option.some.injEq] at hrun
    obtain ⟨hvalid, rfl⟩ := hrun
    refine (parseKey_codec rfl).trans ?_
    simpa [parseGrowthKey, parseUserKey, parseGrowthTimeKey, parseUserBlobContributionKey]
      using hvalid
  | packHistoryBucketKey granularity bucketStart backend packType =>
    simp only [KeyCall.run, keyAndParsed, packHistoryBucketKey, Option.ite_none_left_eq_some,
      Option.some.injEq] at hrun
    obtain ⟨hvalid, rfl⟩ := hrun
    have htype : validPackType packType = true := hscope
    refine (parseKey_codec rfl).trans ?_
    simpa [parsePackKey, parsePackHistoryBucketKey, htype] using hvalid
  | garbageCollectionKey target id =>
    have hblob : byteAt (ascii "gc:b:" ++ idBytes id) 3 = 98 := rfl
    have hpack : byteAt (ascii "gc:p:" ++ idBytes id) 3 = 112 := rfl
    simp only [KeyCall.run, keyAndParsed, garbageCollectionKey] at hrun
    split_ifs at hrun with htarget htarget <;> cases hrun
    · refine (parseKey_codec rfl).trans ?_
      simp [parseGrowthKey, hblob, htarget]
    · refine (parseKey_codec rfl).trans ?_
      simp [parseGrowthKey, hpack, htarget]
  | pathVersionKey fsid path revision => exact parseKey_pathVersionKey fsid revision hrun hscope
  | pathOverflowKey fsid path revision => exact parseKey_pathVersionKey fsid revision hrun hscope
  -- analytics keys
  | analyticsFactKey =>
    cases hrun
    refine parseKey_core rfl rfl ?_
    simp [parseAnalyticsCoreKey, analyticsFactKey]
  | analyticsDictionaryKey | analyticsFactSegmentKey | analyticsSegmentMetadataKey
  | analyticsDimensionIndexKey | analyticsResidencyKey | analyticsDeltaKey =>
    simp only [KeyCall.run, keyAndParsed, analyticsDictionaryKey, analyticsFactSegmentKey,
      analyticsSegmentMetadataKey, analyticsDimensionIndexKey, analyticsResidencyKey,
      analyticsDeltaKey, analyticsUint64Key, revisionKey, Option.ite_none_left_eq_some,
      Option.some.injEq] at hrun
    obtain ⟨hvalid, rfl⟩ := hrun
    refine parseKey_core rfl rfl ?_
    simpa [parseAnalyticsCoreKey, startsWith_other] using hvalid
  | authoritativeCrawlProofKey | authoritativeSourceBindingKey | analyticsWatermarkKey
  | analyticsManifestKey | analyticsQueryResultKey =>
    simp only [KeyCall.run, keyAndParsed, authoritativeCrawlProofKey, authoritativeSourceBindingKey,
      analyticsWatermarkKey, analyticsManifestKey, analyticsQueryResultKey, analyticsUint64Key,
      Option.ite_none_left_eq_some, Option.some.injEq] at hrun
    obtain ⟨hvalid, rfl⟩ := hrun
    refine parseKey_query rfl rfl ?_ ?_
    · simp [parseAnalyticsCoreKey, startsWith_other]
    · simpa [parseAnalyticsQueryKey, parseAnalyticsQueryResultKey] using hvalid
  | analyticsQueryHeatKey | analyticsQueryViewKey | analyticsQueryJobKey =>
    cases hrun
    refine parseKey_query rfl rfl ?_ ?_
    · simp [parseAnalyticsCoreKey, analyticsQueryHeatKey, analyticsQueryViewKey,
        analyticsQueryJobKey]
    · simp [parseAnalyticsQueryKey, parseAnalyticsQueryResultKey, analyticsQueryHeatKey,
        analyticsQueryViewKey, analyticsQueryJobKey]
  | analyticsCacheKey hash => cases hrun; exact parseKey_analyticsCacheKey hash hscope
  | analyticsDerivedKey generation inner =>
    obtain ⟨parsed, hinner, hparsed⟩ := parseKey_analyticsDerivedKey hrun
    simp only [KeyCall.parsed, keyAndParsed, hinner]
    exact hparsed
  | analyticsDerivedGenerationMarkerKey generation =>
    exact parseKey_analyticsDerivedGenerationMarkerKey hrun
  | growthPathKey path granularity timestamp => exact hscope.elim
  -- keys from a table
  | packAggregateKey kind => cases hrun; exact parseKey_packAggregateKey hscope
  | tierAggregateKey tier => exact parseKey_tierAggregateKey hrun
  | analyticsMetadataKey | analyticsBuildCheckpointKey | nextEventSequenceKey
  | historyRawFloorKey | historyEnabledAtKey | nextRevisionKey | nextExportSequenceKey =>
    cases hrun
    exact parseKey_soleKey (by simp [soleKeys])
  -- in the others every field is read where the constructor has put it
  | _ =>
    cases hrun
    refine (parseKey_codec rfl).trans ?_
    simp [blobKey, backendPackKey, contentManifestKey, currentDirectoryKey,
      directoryRevisionKey, deletionCertificateKey, placementDeleteQueueKey, groupSummaryKey,
      hardlinkRefsKey, currentInodeKey, inodeRevisionKey, importCheckpointKey,
      snapshotImportCheckpointKey, legacyImportReceiptKey, packKey, packHistoryKey,
      packPlacementKey, crawlDebtKey, referenceCountKey, reverseManifestKey, reverseInodeKey,
      placementRequestKey, repackLineageKey, snapshotKey, snapshotCommitKey,
      uidExclusionPolicyKey, userSummaryKey, userInodeKey, userBlobKey, verificationStateKey,
      verificationEventKey, analyticsUint32Key, colon, parseBlobKey, parseContentKey,
      parseDirectoryKey, parseGrowthKey, parseHardlinkKey, parseInodeKey, parseMetadataKey,
      parsePackKey, parseCrawlKey, parseReverseKey, parseSnapshotKey, parseUserKey,
      parseVerificationKey]

end

/-- The key of a path with a leading slash comes back without it. -/
theorem parseKey_run_leading_slash :
    ∃ key, (KeyCall.pathVersionKey 1 (ascii "/a") 3).run (fun _ => 0) = some key ∧
      parseKey key = .ok { kind := .pathVersion, fsid := 1, path := ascii "a", revision := 3 } :=
  ⟨_, rfl, parseKey_run (fun _ => 0) (.pathVersionKey 1 (ascii "/a") 3)
    (by decide : (3 : UInt64) ≠ 0) rfl⟩

/-- So not every argument is returned as it was given: a leading slash is dropped, an overflow
path is replaced by the name made of its hash, and the key of an unnamed aggregate kind does not
parse. -/
theorem parseKey_changes_arguments :
    (∃ key parsed, pathVersionKey 1 (ascii "/a") 3 = some key ∧ parseKey key = .ok parsed ∧
      parsed.path ≠ ascii "/a") ∧
    (∃ key parsed, pathOverflowKey (fun _ => 0) 1 (ascii "a") 3 = some key ∧
      parseKey key = .ok parsed ∧ parsed.path ≠ ascii "a") ∧
    parseKey (packAggregateKey 9) = malformedKey := by
  refine ⟨⟨_, { kind := .pathVersion, fsid := 1, path := ascii "a", revision := 3 }, rfl, ?_, ?_⟩,
    ⟨_, { kind := .pathVersion, fsid := 1, revision := 3
          path := overflowPath (fun _ => 0) (ascii "a") }, rfl, ?_, ?_⟩, ?_⟩
  all_goals decide +kernel

/-! ## Growth paths

The normal form of a path is trimmed of white space before it is trimmed of slashes, so white
space in front of a trailing slash stays; the parser, which normalises what it reads, then
takes it away. -/

theorem dropWords_suffix (words : List Bytes) (fuel : Nat) (bytes : Bytes) :
    dropWords words fuel bytes <:+ bytes := by
  induction fuel generalizing bytes with
  | zero => exact List.suffix_rfl
  | succ fuel ih =>
    unfold dropWords
    split
    · exact (ih _).trans (List.drop_suffix _ _)
    · exact List.suffix_rfl

/-- White space is cut off the end only, where a path begins with a slash. -/
theorem trimSpace_prefix (path : Bytes) : trimSpace (47 :: path) <+: 47 :: path := by
  have hfront : dropWords spaceEncodings (47 :: path).length (47 :: path) = 47 :: path := rfl
  rw [trimSpace, hfront]
  simpa using List.reverse_prefix.mpr
    (dropWords_suffix (spaceEncodings.map List.reverse) (47 :: path).length (47 :: path).reverse)

theorem trimSlashes_cons (path : Bytes) : trimSlashes (47 :: path) = trimSlashes path := rfl

theorem trimSlashes_trimSlashes (path : Bytes) :
    trimSlashes (trimSlashes path) = trimSlashes path := by
  have hshape (path : Bytes) :
      trimSlashes path = (path.dropWhile (· == 47)).rdropWhile (· == 47) := rfl
  have hfront : (trimSlashes path).dropWhile (· == 47) = trimSlashes path := by
    rw [List.dropWhile_eq_self_iff]
    intro hpos hslash
    obtain ⟨rest, hrest⟩ := List.rdropWhile_prefix (· == (47 : UInt8)) (path.dropWhile (· == 47))
    rw [← hshape] at hrest
    have hdrop : 0 < (path.dropWhile (· == 47)).length := by
      rw [← hrest, List.length_append]
      omega
    apply List.dropWhile_get_zero_not (· == (47 : UInt8)) path hdrop
    simpa [← hrest, List.getElem_append_left hpos] using hslash
  rw [hshape (trimSlashes path), hfront, hshape, List.rdropWhile_idempotent]

theorem trimSlashes_sublist (path : Bytes) : (trimSlashes path).Sublist path :=
  (List.rdropWhile_prefix _ _).sublist.trans (List.dropWhile_sublist _)

/-- A normal form that does not end in white space, and only such a one, is left alone by a
second normalisation. -/
theorem normalizeAnalyticsPath_fixed_iff {path normal : Bytes}
    (hnormal : normalizeAnalyticsPath path = normal) (hne : normal ≠ []) :
    normal = normalizeAnalyticsPath normal ↔ trimSpace normal = normal := by
  unfold normalizeAnalyticsPath at hnormal
  dsimp only at hnormal
  split_ifs at hnormal with hraw hform
  · exact absurd hnormal.symm hne
  · exact absurd hnormal.symm hne
  generalize trimSpace path = trimmed at hraw hform hnormal
  constructor
  · intro hfixed
    have hfront := trimSpace_prefix (trimSlashes trimmed)
    rw [hnormal] at hfront
    apply hfront.eq_of_length_le
    unfold normalizeAnalyticsPath at hfixed
    dsimp only at hfixed
    split_ifs at hfixed with hempty
    · exact absurd hfixed hne
    · exact absurd hfixed hne
    -- the slash in front was there before, so no byte can have been cut off the end
    cases hrest : trimSpace normal with
    | nil => simp [hrest] at hempty
    | cons byte rest =>
      rw [hrest, ← hnormal, List.cons_prefix_cons] at hfront
      rw [hrest, hfront.1, trimSlashes_cons] at hfixed
      rw [hfixed, List.length_cons, List.length_cons]
      exact Nat.succ_le_succ (trimSlashes_sublist rest).length_le
  · intro hspace
    have hzero : normal.contains 0 = false := by
      simp only [Bool.or_eq_true, not_or, List.contains_iff_mem] at hraw
      rw [← hnormal, List.contains_cons, Bool.eq_false_iff]
      intro hzero
      exact hraw.2 ((trimSlashes_sublist trimmed).subset (by simpa using hzero))
    have hslashes : 47 :: trimSlashes normal = normal := by
      rw [← hnormal, trimSlashes_cons, trimSlashes_trimSlashes]
    unfold normalizeAnalyticsPath
    dsimp only
    rw [hspace, hzero, hslashes, if_neg (by simp [hne]), ← hnormal, if_neg hform]

section
variable {normal : Bytes} (granularity : AnalyticsGranularity) (timestamp : Int64)

/-- The fields of a growth path key, read where the parser looks for them. -/
theorem parseKey_growthPath (hne : normal ≠ []) (hmax : normal.length ≤ maxPathIndexPathBytes) :
    parseKey (ascii "g:path:" ++ (be16 (UInt16.ofNat normal.length) ++
        (normal ++ ([granularity] ++ be64 (sortableTime timestamp))))) =
      if normal ≠ normalizeAnalyticsPath normal ∨ !validAnalyticsGranularity granularity then
        namedMalformedKey "invalid growth path key"
      else .ok { kind := .growthPath, path := normal, granularity, timestamp } := by
  have hn : (ascii "g:path:").length = 7 := rfl
  have hpos : 0 < normal.length := List.length_pos_iff.mpr hne
  have hcount : (UInt16.ofNat normal.length).toNat = normal.length := by
    rw [UInt16.toNat_ofNat', Nat.mod_eq_of_lt]
    exact lt_of_le_of_lt hmax (by decide)
  generalize htail : be16 (UInt16.ofNat normal.length) ++ (normal ++ ([granularity] ++
    be64 (sortableTime timestamp))) = tail
  have hsize : tail.length = normal.length + 11 := by
    simp only [← htail, List.length_append, length_be16, length_be64, List.length_singleton]
    omega
  have hparse :
      parseKey (ascii "g:path:" ++ tail) = parseGrowthPathKey (ascii "g:path:" ++ tail) := by
    have hblob : startsWith (ascii "g:path:" ++ tail) "gc:b:" = false := rfl
    have hpack : startsWith (ascii "g:path:" ++ tail) "gc:p:" = false := rfl
    have htime : startsWith (ascii "g:path:" ++ tail) "g:time:" = false := rfl
    rw [parseKey_codec rfl]
    simp only [parseGrowthKey, hasShape, hblob, hpack, htime, Bool.and_false, Bool.or_self,
      Bool.false_eq_true, if_false, List.length_append, hn, startsWith_ascii]
    rw [if_pos ⟨by omega, trivial⟩]
  have hfield : field (ascii "g:path:" ++ tail) 7 2 = be16 (UInt16.ofNat normal.length) := by
    rw [field_append_right (by rw [hn]), ← htail]
    exact field_append_left (length_be16 _)
  have hpath : field (ascii "g:path:" ++ tail) 9 normal.length = normal := by
    rw [field_append_right (by simp [hn]), ← htail, field_append_right (by simp [hn])]
    exact field_append_left rfl
  have hrest : (ascii "g:path:" ++ tail).drop (9 + normal.length) =
      granularity :: be64 (sortableTime timestamp) := by
    rw [← htail, ← List.append_assoc, ← List.append_assoc]
    exact List.drop_left' (by simp [hn]; omega)
  have hgranularity : byteAt (ascii "g:path:" ++ tail) (9 + normal.length) = granularity := by
    rw [byteAt, List.getD_eq_getElem?_getD, ← List.head?_drop, hrest]
    rfl
  have htime : u64At (ascii "g:path:" ++ tail) (10 + normal.length) = sortableTime timestamp := by
    rw [u64At, field, show 10 + normal.length = 9 + normal.length + 1 by omega, ← List.drop_drop,
      hrest]
    exact u64At_be64 _
  rw [hparse, parseGrowthPathKey]
  simp only [hfield, uint16_be16, hcount, hpath, hgranularity, htime, List.length_append, hn, hsize,
    ofSortableTime_sortableTime]
  rw [if_neg (by omega)]

/-- What a constructed growth path key is made of. -/
theorem growthPathKey_eq_some {path key : Bytes}
    (h : growthPathKey path granularity timestamp = some key) :
    normalizeAnalyticsPath path ≠ [] ∧
      (normalizeAnalyticsPath path).length ≤ maxPathIndexPathBytes ∧
      validAnalyticsGranularity granularity = true ∧
      key = ascii "g:path:" ++ (be16 (UInt16.ofNat (normalizeAnalyticsPath path).length) ++
        (normalizeAnalyticsPath path ++ ([granularity] ++ be64 (sortableTime timestamp)))) := by
  simp only [growthPathKey, Option.ite_none_left_eq_some, Bool.or_eq_true, not_or,
    List.isEmpty_iff, decide_eq_true_eq, not_lt, Bool.not_eq_true', Bool.not_eq_false] at h
  exact ⟨h.1.1.1, h.1.1.2, h.1.2, (Option.some.inj h.2).symm⟩

end

/-- Parsing a growth path key gives its arguments back, with the normal form of the path,
exactly if that does not end in white space; keys of one granularity and time are equal
exactly for paths with one normal form. -/
theorem growthPathKey_parsed_iff (path : Bytes) (granularity : AnalyticsGranularity)
    (timestamp : Int64) (key : Bytes) (h : growthPathKey path granularity timestamp = some key) :
    (parseKey key =
        .ok { kind := .growthPath, path := normalizeAnalyticsPath path, granularity, timestamp } ∧
      ∀ path' key', growthPathKey path' granularity timestamp = some key' →
        (key = key' ↔ normalizeAnalyticsPath path = normalizeAnalyticsPath path')) ↔
      trimSpace (normalizeAnalyticsPath path) = normalizeAnalyticsPath path := by
  obtain ⟨hne, hmax, hvalid, rfl⟩ := growthPathKey_eq_some granularity timestamp h
  rw [parseKey_growthPath granularity timestamp hne hmax, hvalid,
    ← normalizeAnalyticsPath_fixed_iff rfl hne]
  constructor
  · intro hparsed
    by_contra hother
    rw [if_pos (.inl hother)] at hparsed
    cases hparsed.1
  · intro hfixed
    refine ⟨by rw [if_neg (by simpa using hfixed)], ?_⟩
    intro path' key' h'
    obtain ⟨-, -, -, rfl⟩ := growthPathKey_eq_some granularity timestamp h'
    constructor
    · intro hkeys
      have htail := List.append_cancel_left hkeys
      exact List.append_cancel_right (List.append_inj_right htail (by simp))
    · intro hnormal
      rw [hnormal]

/-- The path `a` is read back as `/a`. -/
theorem growthPathKey_parsed_plain :
    ∃ key, growthPathKey (ascii "a") 1 5 = some key ∧
      parseKey key =
        .ok { kind := .growthPath, path := ascii "/a", granularity := 1, timestamp := 5 } :=
  ⟨_, rfl, ((growthPathKey_parsed_iff (ascii "a") 1 5 _ rfl).mpr (by decide)).1⟩

/-- The key of `a /`, whose normal form ends in a space, is refused by the parser. -/
theorem growthPathKey_space_refused :
    ∃ key, growthPathKey (ascii "a /") 1 5 = some key ∧ normalizeAnalyticsPath (ascii "a /") =
      ascii "/a " ∧ parseKey key = namedMalformedKey "invalid growth path key" :=
  ⟨_, rfl, by decide +kernel, by decide +kernel⟩

end Vaultic.Wire
