/-
  Wire/KeyCanonical.lean  —  `ParseKey` is injective on the keys it accepts.

  Every accepted key is the key that the constructor of its kind puts together from the
  parsed fields (`rebuild_of_parseKey`).  So the parsed form determines the key.  The
  proofs fold a key back: a field read at an offset, followed by what comes after it, is
  what stands at the offset.
-/
import Vaultic.Wire.KeyParse

set_option autoImplicit false

namespace Vaultic.Wire

open Vaultic.Lib
open Vaultic.Schema (ID)

/-! ## A key is the concatenation of its fields -/

variable {text : String}

section
variable {key : Bytes} {offset next : Nat}

theorem field_append_drop (key : Bytes) (offset width : Nat) :
    field key offset width ++ key.drop (offset + width) = key.drop offset := by
  rw [field, ← List.drop_drop, List.take_append_drop]

theorem length_field {width : Nat} (h : offset + width ≤ key.length) :
    (field key offset width).length = width := by
  rw [field, List.length_take, List.length_drop]
  omega

theorem be32_fold (hnext : next = offset + 4) (hle : next ≤ key.length) :
    be32 (u32At key offset) ++ key.drop next = key.drop offset := by
  subst hnext
  rw [u32At, be32_uint32 (length_field hle), field_append_drop]

theorem be64_fold (hnext : next = offset + 8) (hle : next ≤ key.length) :
    be64 (u64At key offset) ++ key.drop next = key.drop offset := by
  subst hnext
  rw [u64At, be64_uint64 (length_field hle), field_append_drop]

theorem idBytes_fold (hnext : next = offset + 32) (hle : next ≤ key.length) :
    idBytes (idAt key offset) ++ key.drop next = key.drop offset := by
  subst hnext
  rw [idAt, idBytes_idOf (length_field hle), field_append_drop]

theorem byteAt_fold (hnext : next = offset + 1) (hle : next ≤ key.length) :
    [byteAt key offset] ++ key.drop next = key.drop offset := by
  subst hnext
  have hlt : offset < key.length := by omega
  rw [byteAt, List.getD_eq_getElem?_getD, List.getElem?_eq_getElem hlt, Option.getD_some,
    List.singleton_append, ← List.drop_eq_getElem_cons hlt]

theorem colon_fold (hbyte : byteAt key (next - 1) = 58) (hpos : 0 < next)
    (hle : next ≤ key.length) : colon ++ key.drop next = key.drop (next - 1) := by
  rw [colon, ← hbyte, byteAt_fold (by omega) hle]

theorem be32_last (h : key.length = offset + 4) : be32 (u32At key offset) = key.drop offset := by
  rw [← be32_fold rfl h.ge, ← h, List.drop_length, List.append_nil]

theorem be64_last (h : key.length = offset + 8) : be64 (u64At key offset) = key.drop offset := by
  rw [← be64_fold rfl h.ge, ← h, List.drop_length, List.append_nil]

theorem idBytes_last (h : key.length = offset + 32) :
    idBytes (idAt key offset) = key.drop offset := by
  rw [← idBytes_fold rfl h.ge, ← h, List.drop_length, List.append_nil]

theorem byteAt_last (h : key.length = offset + 1) : [byteAt key offset] = key.drop offset := by
  rw [← byteAt_fold rfl h.ge, ← h, List.drop_length, List.append_nil]

theorem text_fold (h : startsWith key text = true)
    (hnext : (ascii text).length = next) : ascii text ++ key.drop next = key := by
  obtain ⟨body, rfl⟩ := List.isPrefixOf_iff_prefix.mp h
  rw [List.drop_left' hnext]

end

theorem hasShape_iff {key : Bytes} {size : Nat} :
    hasShape key size text = true ↔ key.length = size ∧ startsWith key text = true := by
  simp [hasShape]

/-! ## Rebuilding a key -/

/-- The key of the parsed fields, without a derived generation. -/
def baseKey (p : ParsedKey) : Option Bytes :=
  match p.kind with
  | .blob => blobKey p.id
  | .pack => packKey p.id
  | .packAggregate => packAggregateKey p.aggregate
  | .currentInode => currentInodeKey p.fsid p.inode
  | .inodeRevision => inodeRevisionKey p.fsid p.inode p.revision
  | .currentDirectory => currentDirectoryKey p.fsid p.inode
  | .directoryRevision => directoryRevisionKey p.fsid p.inode p.revision
  | .snapshot => snapshotKey p.id
  | .contentManifest => contentManifestKey p.id p.segment
  | .reverseManifest => reverseManifestKey p.id p.secondID
  | .reverseInode => reverseInodeKey p.id p.fsid p.inode
  | .referenceCount => referenceCountKey p.id
  | .garbageCollection => garbageCollectionKey p.gcTarget p.id
  | .crawlDebt => crawlDebtKey p.id p.secondID
  | .importCheckpoint => importCheckpointKey p.id
  | .snapshotImportCheckpoint => snapshotImportCheckpointKey p.id
  | .nextRevision => nextRevisionKey
  | .hardlinkRefs => hardlinkRefsKey p.fsid p.inode p.revision
  | .exportCheckpoint => exportCheckpointKey p.id
  | .exportIndexCheckpoint => exportIndexCheckpointKey p.id
  | .nextExportSequence => nextExportSequenceKey
  | .tierAggregate => tierAggregateKey p.tier
  | .packHistory => packHistoryKey p.eventTime p.revision p.id
  | .packHistoryBucket => packHistoryBucketKey p.granularity p.eventTime p.backend p.packType
  | .nextEventSequence => nextEventSequenceKey
  | .historyRawFloor => historyRawFloorKey
  | .historyEnabledAt => historyEnabledAtKey
  | .packPlacement => packPlacementKey p.id p.backend
  | .backendPack => backendPackKey p.backend p.id
  | .placementDeleteQueue => placementDeleteQueueKey p.deleteAfter p.id p.backend
  | .snapshotCommit => snapshotCommitKey p.revision p.id
  | .pathVersion => some (ascii "pv:" ++ (be32 p.fsid ++ (p.path ++ ([0] ++ be64 p.revision))))
  | .placementRequest => placementRequestKey p.eventTime p.id
  | .repackLineage => repackLineageKey p.id p.secondID
  | .promotionEligibility => promotionEligibilityKey p.id
  | .analyticsFact => analyticsFactKey p.fsid p.inode
  | .analyticsCache => analyticsCacheKey p.id
  | .analyticsMetadata => analyticsMetadataKey
  | .analyticsBuildCheckpoint => analyticsBuildCheckpointKey
  | .analyticsDictionary => analyticsDictionaryKey p.dictionary p.ordinal
  | .analyticsFactSegment => analyticsFactSegmentKey p.generation
  | .analyticsSegmentMetadata => analyticsSegmentMetadataKey p.generation
  | .analyticsDimensionIndex => analyticsDimensionIndexKey p.dimension p.value p.generation
  | .analyticsResidency => analyticsResidencyKey p.fsid p.inode p.generation
  | .analyticsDelta => analyticsDeltaKey p.commit p.ordinal
  | .analyticsWatermark => analyticsWatermarkKey p.epoch
  | .analyticsManifest => analyticsManifestKey p.epoch
  | .analyticsQueryResult => analyticsQueryResultKey p.id p.generation p.epoch p.commit
  | .analyticsQueryHeat => analyticsQueryHeatKey p.id
  | .analyticsQueryView => analyticsQueryViewKey p.id p.value
  | .analyticsQueryJob => analyticsQueryJobKey p.id
  | .growthTime => growthTimeKey p.granularity p.timestamp p.tier
  | .growthPath => growthPathKey p.path p.granularity p.timestamp
  | .userSummary => userSummaryKey p.uid
  | .groupSummary => groupSummaryKey p.gid
  | .userChurn => userChurnKey p.uid p.granularity p.timestamp
  | .userInode => userInodeKey p.uid p.fsid p.inode
  | .userBlob => userBlobKey p.uid p.id
  | .authoritativeCrawlProof => authoritativeCrawlProofKey p.id p.commit
  | .authoritativeSourceBinding => authoritativeSourceBindingKey p.id p.fsid p.inode p.generation
  | .analyticsDerivedMarker => analyticsDerivedGenerationMarkerKey p.viewGeneration
  | .userBlobContribution =>
    userBlobContributionKey p.uid p.id p.fsid p.inode p.generation
      p.ordinal
  | .userStats => userStatsKey p.uid p.residency
  | .groupStats => groupStatsKey p.gid p.residency
  | .uidExclusionPolicy => uidExclusionPolicyKey p.uid
  | .deletionCertificate => deletionCertificateKey p.uid p.eventTime p.id
  | .verificationState => verificationStateKey p.id p.backend
  | .verificationEvent => verificationEventKey p.eventTime p.revision p.id p.backend
  | .legacyImportReceipt => legacyImportReceiptKey p.id p.revision

/-- The key of a parsed key. -/
def rebuild (parsed : ParsedKey) : Option Bytes :=
  if parsed.viewGeneration = 0 ∨ parsed.kind = .analyticsDerivedMarker then baseKey parsed
  else (baseKey parsed).bind (analyticsDerivedPrefix parsed.viewGeneration)

/-- A key without a derived generation is put together from what was parsed. -/
structure Rebuilds (key : Bytes) (parsed : ParsedKey) : Prop where
  plain : parsed.viewGeneration = 0
  base : baseKey parsed = some key

section
variable {key : Bytes} {parsed : ParsedKey} {value : ParsedKey}

/-- A key of one shape whose fields put it together behind its text. -/
theorem rebuilds_of_shape {size : Nat}
    (hshape : hasShape key size text = true) (hplain : value.viewGeneration = 0)
    (hbase : key.length = size →
      baseKey value = some (ascii text ++ key.drop (ascii text).length)) : Rebuilds key value := by
  obtain ⟨hlength, htext⟩ := hasShape_iff.mp hshape
  exact ⟨hplain, by rw [hbase hlength, text_fold htext rfl]⟩

/-- The constructor of a guarded shape makes the check that the parser made. -/
theorem rebuilds_of_guarded {size : Nat} {bad : Prop} [Decidable bad]
    {message : String} (hshape : hasShape key size text = true)
    (h : (if bad then namedMalformedKey message else .ok value) = .ok parsed)
    (hplain : value.viewGeneration = 0) (hbase : ¬ bad → key.length = size →
      baseKey value = some (ascii text ++ key.drop (ascii text).length)) : Rebuilds key parsed := by
  obtain ⟨hvalid, h⟩ := of_guard h
  cases h
  exact rebuilds_of_shape hshape hplain (hbase hvalid)

/-- The codecs that check nothing but shapes and separators. -/
def plainCodecs : List (Bytes → Result ParsedKey) :=
  [parseBlobKey, parseContentKey, parseCrawlKey, parseDirectoryKey, parseHardlinkKey,
    parseInodeKey, parseReverseKey, parseSnapshotKey, parseVerificationKey]

variable {parse : Bytes → Result ParsedKey}

theorem rebuilds_plain (hparse : parse ∈ plainCodecs)
    (h : parse key = .ok parsed) : Rebuilds key parsed := by
  simp only [plainCodecs, List.mem_cons, List.not_mem_nil, or_false] at hparse
  rcases hparse with rfl | rfl | rfl | rfl | rfl | rfl | rfl | rfl | rfl
  all_goals
    simp only [parseBlobKey, parseContentKey, parseCrawlKey, parseDirectoryKey, parseHardlinkKey,
      parseInodeKey, parseReverseKey, parseSnapshotKey, parseVerificationKey, malformedKey] at h
    split_ifs at h
  all_goals cases h
  all_goals
    rename_i hshape
    simp only [hasShape_iff, Bool.and_eq_true, beq_iff_eq, Bool.not_eq_true,
      Bool.not_eq_false'] at hshape
    cases_type* And
    refine ⟨rfl, congrArg some ?_⟩
    simp (disch := first | omega | assumption) only [blobKey, backendPackKey, contentManifestKey,
      crawlDebtKey, currentDirectoryKey, directoryRevisionKey, deletionCertificateKey,
      placementDeleteQueueKey, hardlinkRefsKey, currentInodeKey, inodeRevisionKey,
      referenceCountKey, reverseManifestKey, reverseInodeKey, placementRequestKey,
      repackLineageKey, snapshotKey, snapshotCommitKey, verificationStateKey,
      verificationEventKey, idKey, inodeKey, revisionKey, UInt64.toUInt64_toInt64,
      be32_last, be64_last, idBytes_last, be32_fold, be64_fold, idBytes_fold, colon_fold]
    exact text_fold ‹_› rfl

theorem rebuilds_growthPath (htext : startsWith key "g:path:" = true)
    (h : parseGrowthPathKey key = .ok parsed) : Rebuilds key parsed := by
  simp only [parseGrowthPathKey] at h
  generalize hcount : uint16 (field key 7 2) = count at h
  split_ifs at h with hsize hpath
  · cases h
  · cases h
  cases h
  simp only [not_or, not_not, not_lt] at hsize hpath
  obtain ⟨hpos, hmax, hlength⟩ := hsize
  have hfield : (field key 9 count.toNat).length = count.toNat := length_field (by omega)
  have hne : field key 9 count.toNat ≠ [] := by
    rw [← List.length_pos_iff, hfield]
    omega
  refine ⟨rfl, ?_⟩
  change growthPathKey _ _ _ = _
  rw [growthPathKey, ← hpath.1, if_neg (by simp [hne, hfield, hmax, hpath.2]), hfield,
    UInt16.ofNat_toNat]
  simp (disch := omega) only [sortableTime_ofSortableTime, be64_last, byteAt_fold]
  rw [field_append_drop, ← hcount, be16_uint16 (length_field (by omega)), field_append_drop]
  exact congrArg some (text_fold htext rfl)

theorem rebuilds_garbageCollection
    (hshape : (hasShape key 37 "gc:b:" || hasShape key 37 "gc:p:") = true) :
    garbageCollectionKey (if byteAt key 3 = 112 then gcPack else gcBlob) (idAt key 5) =
      some key := by
  have hfold {text : String} (hsize : (ascii text).length = 5)
      (hshape : hasShape key 37 text = true) : idKey text (idAt key 5) = key := by
    obtain ⟨hlength, htext⟩ := hasShape_iff.mp hshape
    rw [idKey, idBytes_last (by omega)]
    exact text_fold htext hsize
  rcases (Bool.or_eq_true _ _).mp hshape with hblob | hpack
  · obtain ⟨body, rfl⟩ := List.isPrefixOf_iff_prefix.mp (hasShape_iff.mp hblob).2
    exact congrArg some (hfold rfl hblob)
  · obtain ⟨body, rfl⟩ := List.isPrefixOf_iff_prefix.mp (hasShape_iff.mp hpack).2
    exact congrArg some (hfold rfl hpack)

theorem rebuilds_growth (h : parseGrowthKey key = .ok parsed) : Rebuilds key parsed := by
  rcases ite_eq_iff.mp h with ⟨hgc, h⟩ | ⟨-, h⟩
  · cases h
    exact ⟨rfl, rebuilds_garbageCollection hgc⟩
  rcases ite_eq_iff.mp h with ⟨htime, h⟩ | ⟨-, h⟩
  · refine rebuilds_of_guarded htime h rfl fun hvalid hlength => ?_
    simp (disch := omega) only [baseKey, growthTimeKey, sortableTime_ofSortableTime, byteAt_last,
      be64_fold, byteAt_fold]
    exact if_neg (by simpa using hvalid)
  rcases ite_eq_iff.mp h with ⟨hpath, h⟩ | ⟨-, h⟩
  · exact rebuilds_growthPath hpath.2 h
  rcases ite_eq_iff.mp h with ⟨hsummary, h⟩ | ⟨-, h⟩
  · cases h
    refine rebuilds_of_shape hsummary rfl fun hlength => congrArg some ?_
    simp (disch := omega) only [groupSummaryKey, analyticsUint32Key, be32_last]
    rfl
  rcases ite_eq_iff.mp h with ⟨hstats, h⟩ | ⟨-, h⟩
  · refine rebuilds_of_guarded hstats h rfl fun hvalid hlength => ?_
    simp (disch := omega) only [baseKey, groupStatsKey, analyticsStatsKey, byteAt_last, be32_fold]
    exact if_neg (by simpa using hvalid)
  cases h

theorem rebuilds_metadata (h : parseMetadataKey key = .ok parsed) : Rebuilds key parsed := by
  unfold parseMetadataKey at h
  iterate 5
    rcases ite_eq_iff.mp h with ⟨hshape, h⟩ | ⟨-, h⟩
    · cases h
      refine rebuilds_of_shape hshape rfl fun hlength => congrArg some ?_
      simp (disch := omega) only [importCheckpointKey, snapshotImportCheckpointKey,
        legacyImportReceiptKey, exportCheckpointKey, exportIndexCheckpointKey, idKey,
        idBytes_last, be64_last, idBytes_fold]
      rfl
  iterate 7
    rcases ite_eq_iff.mp h with ⟨hkey, h⟩ | ⟨-, h⟩
    · cases h
      exact ⟨rfl, congrArg some hkey.symm⟩
  cases h

theorem rebuilds_pathVersion (htext : startsWith key "pv:" = true)
    (h : parsePathVersionKey key = .ok parsed) : Rebuilds key parsed := by
  unfold parsePathVersionKey at h
  cases hindex : (field key 7 (key.length - 8 - 7)).findIdx? (· == 0) with
  | none => rw [hindex] at h; cases h
  | some index =>
    simp only [hindex] at h
    split_ifs at h with hplace hrevision
    · cases h
    · cases h
    cases h
    simp only [not_or, not_le, not_not] at hplace
    obtain ⟨hbefore, hplace⟩ := hplace
    have hzero : byteAt key (7 + index) = 0 := by
      obtain ⟨hlt, hbyte, _⟩ := List.findIdx?_eq_some_iff_getElem.mp hindex
      have hlt' : 7 + index < key.length := by omega
      rw [byteAt, List.getD_eq_getElem?_getD, List.getElem?_eq_getElem hlt']
      simpa [field] using hbyte
    refine ⟨rfl, congrArg some ?_⟩
    change ascii "pv:" ++ (be32 (u32At key 3) ++ (field key 7 index ++ ([0] ++
      be64 (u64At key (7 + index + 1))))) = key
    rw [be64_last (by omega), ← hzero, byteAt_fold rfl (by omega), field_append_drop,
      be32_fold rfl (by omega)]
    exact text_fold htext rfl

theorem rebuilds_pack (h : parsePackKey key = .ok parsed) : Rebuilds key parsed := by
  unfold parsePackKey at h
  iterate 2
    rcases ite_eq_iff.mp h with ⟨hshape, h⟩ | ⟨-, h⟩
    · cases h
      refine rebuilds_of_shape hshape rfl fun hlength => congrArg some ?_
      simp (disch := omega) only [packKey, packHistoryKey, idKey, idBytes_last, be64_fold]
      rfl
  rcases ite_eq_iff.mp h with ⟨hbucket, h⟩ | ⟨-, h⟩
  · refine rebuilds_of_guarded hbucket h rfl fun hvalid hlength => ?_
    simp (disch := omega) only [baseKey, packHistoryBucketKey, byteAt_last, be64_fold, byteAt_fold]
    exact if_neg (not_or.mp hvalid).1
  rcases ite_eq_iff.mp h with ⟨hplacement, h⟩ | ⟨-, h⟩
  · obtain ⟨hshape, hcolon⟩ := (Bool.and_eq_true _ _).mp hplacement
    cases h
    refine rebuilds_of_shape hshape rfl fun hlength => congrArg some ?_
    have hcolon := eq_of_beq hcolon
    simp (disch := first | omega | assumption) only [packPlacementKey, be64_last, idBytes_fold,
      colon_fold]
    rfl
  rcases ite_eq_iff.mp h with ⟨hpath, h⟩ | ⟨-, h⟩
  · exact rebuilds_pathVersion hpath.2 h
  rcases ite_eq_iff.mp h with ⟨heligibility, h⟩ | ⟨-, h⟩
  · cases h
    refine rebuilds_of_shape heligibility rfl fun hlength => congrArg some ?_
    simp (disch := omega) only [promotionEligibilityKey, idKey, idBytes_last]
    rfl
  cases h

theorem rebuilds_user (h : parseUserKey key = .ok parsed) : Rebuilds key parsed := by
  unfold parseUserKey at h
  iterate 2
    rcases ite_eq_iff.mp h with ⟨hshape, h⟩ | ⟨-, h⟩
    · cases h
      refine rebuilds_of_shape hshape rfl fun hlength => congrArg some ?_
      simp (disch := omega) only [uidExclusionPolicyKey, userSummaryKey, analyticsUint32Key,
        be32_last]
      rfl
  iterate 2
    rcases ite_eq_iff.mp h with ⟨hshape, h⟩ | ⟨-, h⟩
    · refine rebuilds_of_guarded hshape h rfl fun hvalid hlength => ?_
      simp (disch := omega) only [baseKey, userStatsKey, analyticsStatsKey, userChurnKey,
        sortableTime_ofSortableTime, byteAt_last, be64_last, byteAt_fold, be32_fold]
      exact if_neg (by simpa using hvalid)
  iterate 2
    rcases ite_eq_iff.mp h with ⟨hshape, h⟩ | ⟨-, h⟩
    · cases h
      refine rebuilds_of_shape hshape rfl fun hlength => congrArg some ?_
      simp (disch := omega) only [userInodeKey, userBlobKey, be64_last, idBytes_last, be32_fold]
      rfl
  rcases ite_eq_iff.mp h with ⟨hcontribution, h⟩ | ⟨-, h⟩
  · refine rebuilds_of_guarded hcontribution h rfl fun hvalid hlength => ?_
    simp (disch := omega) only [baseKey, userBlobContributionKey, be32_last, be64_fold, be32_fold,
      idBytes_fold]
    exact if_neg hvalid
  cases h

theorem rebuilds_analyticsCore (h : parseAnalyticsCoreKey key = some (.ok parsed)) :
    Rebuilds key parsed := by
  rcases ite_eq_iff.mp h with ⟨hfact, h⟩ | ⟨-, h⟩
  · cases h
    refine rebuilds_of_shape hfact rfl fun hlength => congrArg some ?_
    simp (disch := omega) only [analyticsFactKey, inodeKey, be64_last, be32_fold]
    rfl
  iterate 6
    rcases ite_eq_iff.mp h with ⟨hshape, h⟩ | ⟨-, h⟩
    · refine rebuilds_of_guarded hshape (Option.some.inj h) rfl fun hvalid hlength => ?_
      simp (disch := omega) only [baseKey, analyticsDictionaryKey, analyticsFactSegmentKey,
        analyticsSegmentMetadataKey, analyticsUint64Key, analyticsDimensionIndexKey,
        analyticsResidencyKey, revisionKey, analyticsDeltaKey, be32_last, be64_last, byteAt_fold,
        be64_fold, be32_fold]
      exact if_neg (by simpa using hvalid)
  cases h

theorem rebuilds_analyticsQueryResult (h : parseAnalyticsQueryResultKey key = some (.ok parsed)) :
    Rebuilds key parsed := by
  rcases ite_eq_iff.mp h with ⟨hresult, h⟩ | ⟨-, h⟩
  · refine rebuilds_of_guarded hresult (Option.some.inj h) rfl fun hvalid hlength => ?_
    simp (disch := omega) only [baseKey, analyticsQueryResultKey, be64_last, be64_fold,
      idBytes_fold]
    exact if_neg hvalid
  iterate 3
    rcases ite_eq_iff.mp h with ⟨hshape, h⟩ | ⟨-, h⟩
    · cases h
      refine rebuilds_of_shape hshape rfl fun hlength => congrArg some ?_
      simp (disch := omega) only [analyticsQueryHeatKey, analyticsQueryViewKey,
        analyticsQueryJobKey, idKey, idBytes_last, be64_last, idBytes_fold]
      rfl
  rcases ite_eq_iff.mp h with ⟨hcache, h⟩ | ⟨-, h⟩
  · cases h
    refine rebuilds_of_shape ((Bool.and_eq_true _ _).mp hcache).1 rfl fun hlength =>
      congrArg some ?_
    simp (disch := omega) only [analyticsCacheKey, idKey, idBytes_last]
    rfl
  cases h

theorem rebuilds_analyticsQuery (h : parseAnalyticsQueryKey key = some (.ok parsed)) :
    Rebuilds key parsed := by
  unfold parseAnalyticsQueryKey at h
  iterate 4
    rcases ite_eq_iff.mp h with ⟨hshape, h⟩ | ⟨-, h⟩
    · refine rebuilds_of_guarded hshape (Option.some.inj h) rfl fun hvalid hlength => ?_
      simp (disch := omega) only [baseKey, authoritativeCrawlProofKey,
        authoritativeSourceBindingKey, analyticsWatermarkKey, analyticsManifestKey,
        analyticsUint64Key, be64_last, be64_fold, be32_fold, idBytes_fold]
      exact if_neg hvalid
  exact rebuilds_analyticsQueryResult h

theorem packAggregateKey_of_parseAggregate {aggregate : AggregateKind}
    (h : parseAggregate key = some aggregate) : packAggregateKey aggregate = key := by
  obtain ⟨entry, hfind, rfl⟩ := Option.map_eq_some_iff.mp h
  have hkey : key = ascii "a:pack:" ++ ascii entry.2 := by simpa using List.find?_some hfind
  have hlookup : ∀ entry ∈ aggregateNames,
      aggregateNames.lookup entry.1 = some entry.2 := by decide
  rw [packAggregateKey, hlookup entry (List.mem_of_find?_eq_some hfind), hkey]
  rfl

theorem tierAggregateKey_of_parseTierAggregate {tier : PackTier}
    (h : parseTierAggregate key = some tier) : tierAggregateKey tier = some key := by
  obtain ⟨entry, hfind, rfl⟩ := Option.map_eq_some_iff.mp h
  have hkey : key = ascii "a:tier:" ++ ascii entry.2 := by simpa using List.find?_some hfind
  have hlookup : ∀ entry ∈ tierAggregateNames,
      tierAggregateNames.lookup entry.1 = some entry.2 := by decide
  rw [tierAggregateKey, hlookup entry (List.mem_of_find?_eq_some hfind), hkey]
  rfl

/-! ## Every accepted key is rebuilt -/

theorem rebuild_of_rebuilds (h : Rebuilds key parsed) : rebuild parsed = some key := by
  rw [rebuild, if_pos (.inl h.plain), h.base]

/-- Only the marker's key holds the derived generation itself. -/
theorem baseKey_withGeneration {generation : UInt64} (h : parsed.kind ≠ .analyticsDerivedMarker) :
    baseKey { parsed with viewGeneration := generation } = baseKey parsed := by
  unfold baseKey
  generalize parsed.kind = kind at h
  cases kind with
  | analyticsDerivedMarker => exact absurd rfl h
  | _ => rfl

variable {parseInner : Bytes → Result ParsedKey}

section

variable
  (hinner : ∀ inner, parseInner (key.drop 13) = .ok inner → rebuild inner = some (key.drop 13))
include hinner

/-- The key behind the generation is rebuilt first. -/
theorem rebuild_of_parseAnalyticsDerivedKey
    (hlength : 13 ≤ key.length) (htext : startsWith key "av1:" = true)
    (hcolon : byteAt key 12 = 58) (h : parseAnalyticsDerivedKey parseInner key = .ok parsed) :
    rebuild parsed = some key := by
  have hfold : ascii "av1:" ++ (be64 (u64At key 4) ++ (colon ++ key.drop 13)) = key := by
    rw [colon_fold hcolon (by omega) hlength, be64_fold rfl (by omega)]
    exact text_fold htext rfl
  obtain ⟨hgeneration, h⟩ := of_guard h
  rcases ite_eq_iff.mp h with ⟨hmarker, h⟩ | ⟨-, h⟩
  · cases h
    rw [rebuild, if_pos (.inr rfl)]
    change analyticsDerivedGenerationMarkerKey _ = _
    rw [analyticsDerivedGenerationMarkerKey, if_neg hgeneration, analyticsDerivedPrefix,
      if_neg hgeneration, ← hmarker, hfold]
  cases hparse : parseInner (key.drop 13) with
  | error message => rw [hparse] at h; cases h
  | ok inner =>
    simp only [hparse] at h
    obtain ⟨hvalid, h⟩ := of_guard h
    cases h
    simp only [not_or, not_not, Bool.not_eq_true', Bool.not_eq_false] at hvalid
    obtain ⟨hplain, hkind⟩ := hvalid
    -- a derived kind is not the marker, so the inner key was rebuilt without a generation
    have hne : inner.kind ≠ .analyticsDerivedMarker := by
      intro heq
      rw [heq] at hkind
      cases hkind
    have hbase := hinner inner hparse
    rw [rebuild, if_pos (.inl hplain)] at hbase
    rw [rebuild, if_neg (by simp [hgeneration, hne])]
    rw [baseKey_withGeneration hne, hbase, Option.bind_some, analyticsDerivedPrefix,
      if_neg hgeneration, hfold]

theorem rebuild_of_parseAnalyticsKey
    (h : parseAnalyticsKey parseInner key = .ok parsed) : rebuild parsed = some key := by
  rcases ite_eq_iff.mp h with ⟨⟨hlength, htext, hcolon⟩, h⟩ | ⟨-, h⟩
  · exact rebuild_of_parseAnalyticsDerivedKey hinner hlength htext hcolon h
  cases hcore : parseAnalyticsCoreKey key with
  | some result =>
    simp only [hcore] at h
    exact rebuild_of_rebuilds (rebuilds_analyticsCore (h ▸ hcore))
  | none =>
    cases hquery : parseAnalyticsQueryKey key with
    | some result =>
      simp only [hcore, hquery] at h
      exact rebuild_of_rebuilds (rebuilds_analyticsQuery (h ▸ hquery))
    | none =>
      cases haggregate : parseAggregate key with
      | some aggregate =>
        simp only [hcore, hquery, haggregate] at h
        cases h
        exact congrArg some (packAggregateKey_of_parseAggregate haggregate)
      | none =>
        cases htier : parseTierAggregate key with
        | some tier =>
          simp only [hcore, hquery, haggregate, htier] at h
          cases h
          exact tierAggregateKey_of_parseTierAggregate htier
        | none =>
          simp only [hcore, hquery, haggregate, htier] at h
          cases h

/-- Each codec puts its keys back together. -/
theorem rebuild_of_codec {first : UInt8}
    (hcodec : codecForKey parseInner first = some parse) (h : parse key = .ok parsed) :
    rebuild parsed = some key := by
  rcases ite_eq_iff.mp hcodec with ⟨-, hcodec⟩ | ⟨-, hcodec⟩
  · cases hcodec
    exact rebuild_of_parseAnalyticsKey hinner h
  iterate 13
    rcases ite_eq_iff.mp hcodec with ⟨-, hcodec⟩ | ⟨-, hcodec⟩
    · cases hcodec
      apply rebuild_of_rebuilds
      first
        | with_reducible exact rebuilds_growth h
        | with_reducible exact rebuilds_metadata h
        | with_reducible exact rebuilds_pack h
        | with_reducible exact rebuilds_user h
        | exact rebuilds_plain (by simp [plainCodecs]) h
  cases hcodec

end

end

/-- The parsed form of an accepted key gives the key back.  The induction is on the length of
the key, for the key that a derived key wraps. -/
theorem rebuild_of_parseKey {key : Bytes} {parsed : ParsedKey} (h : parseKey key = .ok parsed) :
    rebuild parsed = some key := by
  induction hlength : key.length using Nat.strong_induction_on generalizing key parsed with
  | _ length ih =>
    rw [parseKey_eq, parseWith] at h
    cases key with
    | nil => cases h
    | cons first rest =>
      rw [List.head?_cons, Option.bind_some] at h
      cases hcodec : codecForKey parseKey first with
      | none => rw [hcodec] at h; cases h
      | some parse =>
        rw [hcodec] at h
        refine rebuild_of_codec (fun inner hinner => ?_) hcodec h
        refine ih _ ?_ hinner rfl
        rw [← hlength, List.length_drop, List.length_cons]
        omega

/-- Two keys that are accepted with the same parsed fields are the same key. -/
theorem parseKey_injective {first second : Bytes} {parsed : ParsedKey}
    (hfirst : parseKey first = .ok parsed) (hsecond : parseKey second = .ok parsed) :
    first = second :=
  Option.some.inj ((rebuild_of_parseKey hfirst).symm.trans (rebuild_of_parseKey hsecond))

theorem parseKey_injective_groupSummary :
    parseKey (ascii "g:summary:" ++ [0, 0, 1, 7]) = .ok { kind := .groupSummary, gid := 263 } ∧
    groupSummaryKey 263 = ascii "g:summary:" ++ [0, 0, 1, 7] := by
  have hkey : parseKey (groupSummaryKey 263) = .ok { kind := .groupSummary, gid := 263 } := by
    decide +kernel
  have hbytes : parseKey (ascii "g:summary:" ++ [0, 0, 1, 7]) =
      .ok { kind := .groupSummary, gid := 263 } := by
    decide +kernel
  exact ⟨hbytes, parseKey_injective hkey hbytes⟩

end Vaultic.Wire
