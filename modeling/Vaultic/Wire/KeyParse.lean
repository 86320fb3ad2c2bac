/-
  Wire/KeyParse.lean  —  `ParseKey` of `internal/index/schema/keys_parse.go` and
  `key_codecs.go`.

  The first byte of a key selects a codec; a codec tells its shapes apart by length and
  prefix.  A derived analytics key wraps the key of another shape behind `av1:` and a
  generation, so parsing it parses a shorter key; the recursion is on a bound for the
  length, and `parseKey_eq` says that the bound is not noticed.
-/
import Vaultic.Wire.Keys

set_option autoImplicit false

namespace Vaultic.Wire

open Vaultic.Lib
open Vaultic.Schema (ID)

/-! ## Reading fields at an offset -/

section

variable (key : Bytes)

/-- The bytes `key[offset : offset+width]`. -/
def field (offset width : Nat) : Bytes := (key.drop offset).take width

def byteAt (offset : Nat) : UInt8 := key.getD offset 0

def u32At (offset : Nat) : UInt32 := uint32 (field key offset 4)

def u64At (offset : Nat) : UInt64 := uint64 (field key offset 8)

def idAt (offset : Nat) : ID := idOf (field key offset 32)

/-- `string(key[:n]) == text`, for a text of `n` bytes and a key that has them. -/
def startsWith (text : String) : Bool := (ascii text).isPrefixOf key

/-- `len(key) == size && string(key[:n]) == text`. -/
def hasShape (size : Nat) (text : String) : Bool :=
  key.length == size && startsWith key text

def malformedKey {α : Type} : Result α :=
  .error (malformed "unknown or incorrectly sized key")

def namedMalformedKey {α : Type} (message : String) : Result α :=
  .error (malformed message)

/-! ## The codecs -/

def isAnalyticsDerivedKind : KeyKind → Bool
  | .analyticsResidency | .growthTime | .growthPath | .userSummary | .groupSummary | .userStats
  | .groupStats | .userChurn | .userInode | .userBlob | .userBlobContribution => true
  | _ => false

/-- The key behind the generation is parsed by `parseInner`. -/
def parseAnalyticsDerivedKey (parseInner : Bytes → Result ParsedKey) (key : Bytes) :
    Result ParsedKey :=
  let generation := u64At key 4
  if generation = 0 then namedMalformedKey "invalid analytics derived key generation"
  else if key.drop 13 = ascii "complete" then
    .ok { kind := .analyticsDerivedMarker, viewGeneration := generation }
  else
    match parseInner (key.drop 13) with
    | .error _ => namedMalformedKey "invalid analytics derived key"
    | .ok inner =>
      if inner.viewGeneration ≠ 0 ∨ !isAnalyticsDerivedKind inner.kind then
        namedMalformedKey "invalid analytics derived key"
      else .ok { inner with viewGeneration := generation }

/-- `none` where the source goes on with the next group of shapes. -/
def parseAnalyticsCoreKey : Option (Result ParsedKey) :=
  if hasShape key 15 "an:" then
    some (.ok { kind := .analyticsFact, fsid := u32At key 3, inode := u64At key 7 })
  else if hasShape key 8 "ad:" then
    some (if !validAnalyticsDictionaryKind (byteAt key 3) ∨ u32At key 4 = 0 then
      namedMalformedKey "invalid analytics dictionary key"
    else .ok { kind := .analyticsDictionary, dictionary := byteAt key 3, ordinal := u32At key 4 })
  else if hasShape key 11 "af:" then
    some (if u64At key 3 = 0 then namedMalformedKey "invalid analytics fact segment key"
    else .ok { kind := .analyticsFactSegment, generation := u64At key 3 })
  else if hasShape key 11 "am:" then
    some (if u64At key 3 = 0 then namedMalformedKey "invalid analytics segment metadata key"
    else .ok { kind := .analyticsSegmentMetadata, generation := u64At key 3 })
  else if hasShape key 20 "ai:" then
    some (if !validAnalyticsDimension (byteAt key 3) ∨ u64At key 12 = 0 then
      namedMalformedKey "invalid analytics dimension index key"
    else .ok { kind := .analyticsDimensionIndex, dimension := byteAt key 3,
               value := u64At key 4, generation := u64At key 12 })
  else if hasShape key 23 "ar:" then
    some (if u64At key 15 = 0 then namedMalformedKey "invalid analytics residency key"
    else .ok { kind := .analyticsResidency, fsid := u32At key 3, inode := u64At key 7,
               generation := u64At key 15 })
  else if hasShape key 15 "ae:" then
    some (if u64At key 3 = 0 then namedMalformedKey "invalid analytics delta key"
    else .ok { kind := .analyticsDelta, commit := u64At key 3, ordinal := u32At key 11 })
  else none

def reservedAnalyticsQueryPrefix : Bool :=
  ["aq:result:", "aq:heat:", "aq:view:", "aq:job:"].any (startsWith key)

def parseAnalyticsQueryResultKey : Option (Result ParsedKey) :=
  if hasShape key 66 "aq:result:" then
    some (if u64At key 42 = 0 ∨ u64At key 50 = 0 then
      namedMalformedKey "invalid analytics query result key"
    else .ok { kind := .analyticsQueryResult, id := idAt key 10, generation := u64At key 42,
               epoch := u64At key 50, commit := u64At key 58 })
  else if hasShape key 40 "aq:heat:" then
    some (.ok { kind := .analyticsQueryHeat, id := idAt key 8 })
  else if hasShape key 48 "aq:view:" then
    some (.ok { kind := .analyticsQueryView, id := idAt key 8, value := u64At key 40 })
  else if hasShape key 39 "aq:job:" then
    some (.ok { kind := .analyticsQueryJob, id := idAt key 7 })
  else if hasShape key 35 "aq:" && !reservedAnalyticsQueryPrefix key then
    some (.ok { kind := .analyticsCache, id := idAt key 3 })
  else none

def parseAnalyticsQueryKey : Option (Result ParsedKey) :=
  if hasShape key 44 "acp:" then
    some (if idAt key 4 = 0 ∨ u64At key 36 = 0 then
      namedMalformedKey "invalid authoritative crawl proof key"
    else .ok { kind := .authoritativeCrawlProof, id := idAt key 4, commit := u64At key 36 })
  else if hasShape key 56 "asb:" then
    some (if idAt key 4 = 0 ∨ u32At key 36 = 0 ∨ u64At key 40 = 0 ∨ u64At key 48 = 0 then
      namedMalformedKey "invalid authoritative source binding key"
    else .ok { kind := .authoritativeSourceBinding, id := idAt key 4, fsid := u32At key 36,
               inode := u64At key 40, generation := u64At key 48 })
  else if hasShape key 19 "aw:applied:" then
    some (if u64At key 11 = 0 then namedMalformedKey "invalid analytics watermark key"
    else .ok { kind := .analyticsWatermark, epoch := u64At key 11 })
  else if hasShape key 11 "ap:" then
    some (if u64At key 3 = 0 then namedMalformedKey "invalid analytics manifest key"
    else .ok { kind := .analyticsManifest, epoch := u64At key 3 })
  else parseAnalyticsQueryResultKey key

/-- The map iteration finds the one kind of this name. -/
def parseAggregate : Option AggregateKind :=
  (aggregateNames.find? fun entry => key == ascii "a:pack:" ++ ascii entry.2).map (·.1)

def parseTierAggregate : Option PackTier :=
  (tierAggregateNames.find? fun entry => key == ascii "a:tier:" ++ ascii entry.2).map (·.1)

def parseAnalyticsKey (parseInner : Bytes → Result ParsedKey) (key : Bytes) : Result ParsedKey :=
  if key.length ≥ 13 ∧ startsWith key "av1:" ∧ byteAt key 12 = 58 then
    parseAnalyticsDerivedKey parseInner key
  else
    match parseAnalyticsCoreKey key with
    | some result => result
    | none =>
      match parseAnalyticsQueryKey key with
      | some result => result
      | none =>
        match parseAggregate key with
        | some aggregate => .ok { kind := .packAggregate, aggregate }
        | none =>
          match parseTierAggregate key with
          | some tier => .ok { kind := .tierAggregate, tier }
          | none => malformedKey

def parseBlobKey : Result ParsedKey :=
  if hasShape key 34 "b:" then .ok { kind := .blob, id := idAt key 2 }
  else if hasShape key 44 "bp:" && byteAt key 11 == 58 then
    .ok { kind := .backendPack, backend := u64At key 3, id := idAt key 12 }
  else malformedKey

def parseContentKey : Result ParsedKey :=
  if !hasShape key 39 "cm:" then malformedKey
  else .ok { kind := .contentManifest, segment := u32At key 35, id := idAt key 3 }

def parseDirectoryKey : Result ParsedKey :=
  if hasShape key 14 "d:" then
    .ok { kind := .currentDirectory, fsid := u32At key 2, inode := u64At key 6 }
  else if hasShape key 23 "dv:" then
    .ok { kind := .directoryRevision, fsid := u32At key 3, inode := u64At key 7,
          revision := u64At key 15 }
  else if hasShape key 47 "dc:" then
    .ok { kind := .deletionCertificate, uid := u32At key 3, eventTime := u64At key 7,
          id := idAt key 15 }
  else if hasShape key 53 "dq:" && byteAt key 11 == 58 && byteAt key 44 == 58 then
    .ok { kind := .placementDeleteQueue, deleteAfter := (u64At key 3).toInt64,
          id := idAt key 12, backend := u64At key 45 }
  else malformedKey

def parseGrowthTimeKey : Result ParsedKey :=
  if !validAnalyticsGranularity (byteAt key 7) ∨ !validPackTier (byteAt key 16) then
    namedMalformedKey "invalid growth time key"
  else .ok { kind := .growthTime, granularity := byteAt key 7, tier := byteAt key 16,
             timestamp := ofSortableTime (u64At key 8) }

def parseGrowthPathKey : Result ParsedKey :=
  let pathLength := (uint16 (field key 7 2)).toNat
  if pathLength = 0 ∨ pathLength > maxPathIndexPathBytes ∨
      key.length ≠ 7 + 2 + pathLength + 1 + 8 then
    namedMalformedKey "invalid growth path key"
  else
    let path := field key 9 pathLength
    let granularity := byteAt key (9 + pathLength)
    if path ≠ normalizeAnalyticsPath path ∨ !validAnalyticsGranularity granularity then
      namedMalformedKey "invalid growth path key"
    else .ok { kind := .growthPath, path, granularity,
               timestamp := ofSortableTime (u64At key (10 + pathLength)) }

def parseGrowthKey : Result ParsedKey :=
  if hasShape key 37 "gc:b:" || hasShape key 37 "gc:p:" then
    .ok { kind := .garbageCollection, gcTarget := if byteAt key 3 = 112 then gcPack else gcBlob,
          id := idAt key 5 }
  else if hasShape key 17 "g:time:" then parseGrowthTimeKey key
  else if key.length ≥ 18 ∧ startsWith key "g:path:" then parseGrowthPathKey key
  else if hasShape key 14 "g:summary:" then
    .ok { kind := .groupSummary, gid := u32At key 10 }
  else if hasShape key 15 "g:statsv1:" then
    if byteAt key 14 < analyticsLive ∨ byteAt key 14 > analyticsExpired then
      namedMalformedKey "invalid analytics group stats key"
    else .ok { kind := .groupStats, gid := u32At key 10, residency := byteAt key 14 }
  else malformedKey

def parseHardlinkKey : Result ParsedKey :=
  if !hasShape key 23 "hr:" then malformedKey
  else .ok { kind := .hardlinkRefs, fsid := u32At key 3, inode := u64At key 7,
             revision := u64At key 15 }

def parseInodeKey : Result ParsedKey :=
  if hasShape key 14 "i:" then
    .ok { kind := .currentInode, fsid := u32At key 2, inode := u64At key 6 }
  else if hasShape key 23 "iv:" then
    .ok { kind := .inodeRevision, fsid := u32At key 3, inode := u64At key 7,
          revision := u64At key 15 }
  else malformedKey

def parseMetadataKey : Result ParsedKey :=
  if hasShape key 50 "meta:import-index:" then
    .ok { kind := .importCheckpoint, id := idAt key 18 }
  else if hasShape key 53 "meta:import-snapshot:" then
    .ok { kind := .snapshotImportCheckpoint, id := idAt key 21 }
  else if hasShape key 60 "meta:import-receipt:" then
    .ok { kind := .legacyImportReceipt, id := idAt key 20, revision := u64At key 52 }
  else if hasShape key 53 "meta:export-snapshot:" then
    .ok { kind := .exportCheckpoint, id := idAt key 21 }
  else if hasShape key 50 "meta:export-index:" then
    .ok { kind := .exportIndexCheckpoint, id := idAt key 18 }
  else if key = ascii "meta:next-revision-seq" then .ok { kind := .nextRevision }
  else if key = ascii "meta:next-export-seq" then .ok { kind := .nextExportSequence }
  else if key = ascii "meta:next-event-seq" then .ok { kind := .nextEventSequence }
  else if key = ascii "meta:history-raw-floor" then .ok { kind := .historyRawFloor }
  else if key = ascii "meta:history-enabled-at" then .ok { kind := .historyEnabledAt }
  else if key = ascii "meta:analytics" then .ok { kind := .analyticsMetadata }
  else if key = ascii "meta:analytics-build" then .ok { kind := .analyticsBuildCheckpoint }
  else malformedKey

def parsePackHistoryBucketKey : Result ParsedKey :=
  if !validHistoryGranularity (byteAt key 3) ∨ !validPackType (byteAt key 20) then
    namedMalformedKey "invalid history bucket key"
  else .ok { kind := .packHistoryBucket, granularity := byteAt key 3, eventTime := u64At key 4,
             backend := u64At key 12, packType := byteAt key 20 }

/-- The path ends at its first zero byte, which must stand right before the revision. -/
def parsePathVersionKey : Result ParsedKey :=
  match (field key 7 (key.length - 8 - 7)).findIdx? (· == 0) with
  | none => namedMalformedKey "invalid path-version key"
  | some index =>
    let terminator := 7 + index
    if terminator ≤ 7 ∨ terminator ≠ key.length - 9 then
      namedMalformedKey "invalid path-version key"
    else
      let path := field key 7 index
      let revision := u64At key (terminator + 1)
      if revision = 0 ∨ path.length > maxPathIndexPathBytes then
        namedMalformedKey "invalid path-version key"
      else .ok { kind := .pathVersion, fsid := u32At key 3, path, revision }

def parsePackKey : Result ParsedKey :=
  if hasShape key 34 "p:" then .ok { kind := .pack, id := idAt key 2 }
  else if hasShape key 51 "ph:" then
    .ok { kind := .packHistory, eventTime := u64At key 3, revision := u64At key 11,
          id := idAt key 19 }
  else if hasShape key 21 "pb:" then parsePackHistoryBucketKey key
  else if hasShape key 44 "pl:" && byteAt key 35 == 58 then
    .ok { kind := .packPlacement, backend := u64At key 36, id := idAt key 3 }
  else if key.length > 15 ∧ startsWith key "pv:" then parsePathVersionKey key
  else if hasShape key 35 "pe:" then
    .ok { kind := .promotionEligibility, id := idAt key 3 }
  else malformedKey

def parseCrawlKey : Result ParsedKey :=
  if !hasShape key 66 "q:" then malformedKey
  else .ok { kind := .crawlDebt, id := idAt key 2, secondID := idAt key 34 }

def parseReverseKey : Result ParsedKey :=
  if hasShape key 35 "rc:" then
    .ok { kind := .referenceCount, id := idAt key 3 }
  else if hasShape key 67 "rm:" then
    .ok { kind := .reverseManifest, id := idAt key 3, secondID := idAt key 35 }
  else if hasShape key 47 "ri:" then
    .ok { kind := .reverseInode, fsid := u32At key 35, inode := u64At key 39, id := idAt key 3 }
  else if hasShape key 44 "rq:" && byteAt key 11 == 58 then
    .ok { kind := .placementRequest, eventTime := u64At key 3, id := idAt key 12 }
  else if hasShape key 68 "rl:" && byteAt key 35 == 58 then
    .ok { kind := .repackLineage, id := idAt key 3, secondID := idAt key 36 }
  else malformedKey

def parseSnapshotKey : Result ParsedKey :=
  if hasShape key 34 "s:" then .ok { kind := .snapshot, id := idAt key 2 }
  else if hasShape key 44 "sc:" && byteAt key 11 == 58 then
    .ok { kind := .snapshotCommit, revision := u64At key 3, id := idAt key 12 }
  else malformedKey

def parseUserBlobContributionKey : Result ParsedKey :=
  if u64At key 57 = 0 then namedMalformedKey "invalid analytics user blob contribution key"
  else .ok { kind := .userBlobContribution, uid := u32At key 9, id := idAt key 13,
             fsid := u32At key 45, inode := u64At key 49, generation := u64At key 57,
             ordinal := u32At key 65 }

def parseUserKey : Result ParsedKey :=
  if hasShape key 23 "u:policy:blocklist:" then
    .ok { kind := .uidExclusionPolicy, uid := u32At key 19 }
  else if hasShape key 14 "u:summary:" then
    .ok { kind := .userSummary, uid := u32At key 10 }
  else if hasShape key 15 "u:statsv1:" then
    if byteAt key 14 < analyticsLive ∨ byteAt key 14 > analyticsExpired then
      namedMalformedKey "invalid analytics user stats key"
    else .ok { kind := .userStats, uid := u32At key 10, residency := byteAt key 14 }
  else if hasShape key 21 "u:churn:" then
    if !validAnalyticsGranularity (byteAt key 12) then namedMalformedKey "invalid user churn key"
    else .ok { kind := .userChurn, uid := u32At key 8, granularity := byteAt key 12,
               timestamp := ofSortableTime (u64At key 13) }
  else if hasShape key 25 "u:inodes:" then
    .ok { kind := .userInode, uid := u32At key 9, fsid := u32At key 13, inode := u64At key 17 }
  else if hasShape key 44 "u:blobs:" then
    .ok { kind := .userBlob, uid := u32At key 8, id := idAt key 12 }
  else if hasShape key 69 "u:blobv1:" then parseUserBlobContributionKey key
  else malformedKey

def parseVerificationKey : Result ParsedKey :=
  if hasShape key 43 "vr:" then
    .ok { kind := .verificationState, id := idAt key 3, backend := u64At key 35 }
  else if hasShape key 59 "ve:" then
    .ok { kind := .verificationEvent, eventTime := u64At key 3, revision := u64At key 11,
          id := idAt key 19, backend := u64At key 51 }
  else malformedKey

/-! ## `ParseKey` -/

/-- The codec for a first byte; `parseInner` parses the key a derived key wraps. -/
def codecForKey (parseInner : Bytes → Result ParsedKey) (first : UInt8) :
    Option (Bytes → Result ParsedKey) :=
  if first = 97 then some (parseAnalyticsKey parseInner)
  else if first = 98 then some parseBlobKey
  else if first = 99 then some parseContentKey
  else if first = 100 then some parseDirectoryKey
  else if first = 103 then some parseGrowthKey
  else if first = 104 then some parseHardlinkKey
  else if first = 105 then some parseInodeKey
  else if first = 109 then some parseMetadataKey
  else if first = 112 then some parsePackKey
  else if first = 113 then some parseCrawlKey
  else if first = 114 then some parseReverseKey
  else if first = 115 then some parseSnapshotKey
  else if first = 117 then some parseUserKey
  else if first = 118 then some parseVerificationKey
  else none

def parseWith (parseInner : Bytes → Result ParsedKey) (key : Bytes) : Result ParsedKey :=
  match key.head?.bind (codecForKey parseInner) with
  | none => malformedKey
  | some parse => parse key

def parseWithin : Nat → Bytes → Result ParsedKey
  | 0, _ => malformedKey
  | depth + 1, key => parseWith (parseWithin depth) key

def parseKey : Result ParsedKey := parseWithin key.length key

end

variable {parse parse' : Bytes → Result ParsedKey} {key : Bytes}

theorem parseAnalyticsKey_congr (h : parse (key.drop 13) = parse' (key.drop 13)) :
    parseAnalyticsKey parse key = parseAnalyticsKey parse' key := by
  simp only [parseAnalyticsKey, parseAnalyticsDerivedKey, h]

/-- A key is parsed by looking at a shorter one at most. -/
theorem parseWith_congr
    (h : ∀ inner : Bytes, inner.length < key.length → parse inner = parse' inner) :
    parseWith parse key = parseWith parse' key := by
  cases key with
  | nil => rfl
  | cons first rest =>
    by_cases hfirst : first = 97
    · subst hfirst
      refine parseAnalyticsKey_congr (h _ ?_)
      rw [List.length_drop, List.length_cons]
      omega
    · simp only [parseWith, List.head?_cons, Option.bind_some, codecForKey, if_neg hfirst]

theorem parseWithin_eq {depth : Nat} (h : key.length ≤ depth) :
    parseWithin depth key = parseKey key := by
  induction depth using Nat.strong_induction_on generalizing key with
  | _ depth ih =>
    cases depth with
    | zero =>
      rw [List.eq_nil_of_length_eq_zero (Nat.le_zero.mp h)]
      rfl
    | succ depth =>
      cases hlength : key.length with
      | zero =>
        rw [List.eq_nil_of_length_eq_zero hlength]
        rfl
      | succ length =>
        rw [parseKey, hlength]
        refine parseWith_congr fun inner hinner => ?_
        rw [ih depth (by omega) (by omega), ih length (by omega) (by omega)]

/-- The bound on the recursion is not noticed. -/
theorem parseKey_eq (key : Bytes) : parseKey key = parseWith parseKey key := by
  cases hlength : key.length with
  | zero =>
    rw [List.eq_nil_of_length_eq_zero hlength]
    rfl
  | succ length =>
    rw [parseKey, hlength]
    refine parseWith_congr fun inner hinner => parseWithin_eq ?_
    omega

def isAnalyticsDerivedKey (key : Bytes) : Bool :=
  match parseKey key with
  | .ok parsed => parsed.viewGeneration == 0 && isAnalyticsDerivedKind parsed.kind
  | .error _ => false

def analyticsDerivedKey (generation : UInt64) (key : Bytes) : Option Bytes :=
  if generation = 0 ∨ !isAnalyticsDerivedKey key then none
  else some (ascii "av1:" ++ (be64 generation ++ (colon ++ key)))

end Vaultic.Wire
