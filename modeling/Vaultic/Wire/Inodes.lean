/-
  Wire/Inodes.lean  —  the records of inode revisions and their analytics facts
  (`internal/index/schema/records_inode.go`).

  A mask says which fields of an inode were observed.  It has sixteen bits and is
  written as thirty-two; the reader refuses bits that have no meaning.
-/
import Vaultic.Wire.Hardlinks
import Vaultic.Wire.Packs

set_option autoImplicit false

namespace Vaultic.Wire

open Vaultic.Lib
open Vaultic.Schema (ID)

/-! ## The mask of observed fields -/

def knownMTime : UInt16 := 1
def knownCTime : UInt16 := 2
def knownSize : UInt16 := 4
def knownMode : UInt16 := 8
def knownUID : UInt16 := 16
def knownGID : UInt16 := 32
def knownParent : UInt16 := 64
def knownPath : UInt16 := 128

def knownFieldMask : UInt16 :=
  knownMTime ||| knownCTime ||| knownSize ||| knownMode ||| knownUID ||| knownGID |||
    knownParent ||| knownPath

/-- `known & ^knownFieldMask != 0` -/
def unknownFields (known : UInt16) : Bool := known &&& ~~~knownFieldMask != 0

/-- Read a mask with a text for a truncated or an unknown one. -/
def readKnown (text : String) : Decoder UInt16 := do
  let known ← named (malformed text) Get.u32
  reject (known &&& ~~~knownFieldMask.toUInt32 != 0) text
  pure known.toUInt16

/-- Widening a mask sets no bit above the sixteen. -/
theorem toUInt32_and_not {value mask : UInt16} (h : value &&& ~~~mask = 0) :
    value.toUInt32 &&& ~~~mask.toUInt32 = 0 := by
  rw [← UInt32.toBitVec_inj]
  ext i hi
  have hbit := congrArg (fun known : UInt16 => known.toBitVec.getLsbD i) h
  by_cases hlow : i < 16
  · simpa [hlow, hi] using hbit
  · simp [BitVec.getLsbD_of_ge _ _ (not_lt.mp hlow)]

theorem readKnown_roundTrips {known : UInt16} {text : String}
    (h : unknownFields known = false) (rest : Bytes) :
    RoundTrips rest (Put.u32 known.toUInt32) (readKnown text) known := by
  have hmask : known &&& ~~~knownFieldMask = 0 := by simpa [unknownFields] using h
  refine .last (.named .u32) <| .checkRead ?_ ?_
  · rw [rejected_eq_ok, toUInt32_and_not hmask]
    rfl
  · rw [UInt16.toUInt16_toUInt32]
    exact .pure

/-! ## Analytics facts -/

/-- Where the creation time of a fact comes from. -/
abbrev AnalyticsCreationBasis := UInt8

def analyticsCTime : AnalyticsCreationBasis := 1
def analyticsMTime : AnalyticsCreationBasis := 2
def analyticsTimeUnknown : AnalyticsCreationBasis := 3
def analyticsFirstSeen : AnalyticsCreationBasis := 5

/-- What is known of the continuity of an identity. -/
abbrev AnalyticsIdentityContinuity := UInt8

def analyticsContinuityUnknown : AnalyticsIdentityContinuity := 0
def analyticsContinuityProven : AnalyticsIdentityContinuity := 1
def analyticsContinuitySourceGeneration : AnalyticsIdentityContinuity := 2

/-- What the analytics know of a file. -/
structure AnalyticsFactRecord where
  revision : UInt64
  (uid gid : UInt32)
  known : UInt16
  createdAt : Int64
  logicalSize : UInt64
  calendarYear : Int32
  calendarMonth : UInt8
  isoYear : Int32
  (workweek sizeLog10 : UInt8)
  (sourcePath svm volume pathGroup : Bytes)
  residency : AnalyticsResidency
  creationBasis : AnalyticsCreationBasis
  identityGeneration : UInt64
  identityContinuity : AnalyticsIdentityContinuity
  deriving DecidableEq, Repr

def validAnalyticsFact (record : AnalyticsFactRecord) : Bool :=
  if record.revision == 0 || unknownFields record.known || record.residency < analyticsLive ||
      record.residency > analyticsExpired || record.creationBasis < analyticsCTime ||
      record.creationBasis > analyticsFirstSeen ||
      record.identityContinuity > analyticsContinuitySourceGeneration ||
      record.calendarMonth > 12 || record.workweek > 53 || record.sizeLog10 > 19 then false
  else if record.identityContinuity == analyticsContinuitySourceGeneration &&
      record.identityGeneration == 0 then false
  else if record.creationBasis == analyticsTimeUnknown then
    record.createdAt == 0 && record.calendarYear == 0 && record.calendarMonth == 0 &&
      record.isoYear == 0 && record.workweek == 0
  else if (record.creationBasis == analyticsCTime && record.known &&& knownCTime == 0) ||
      (record.creationBasis == analyticsMTime && record.known &&& knownMTime == 0) then false
  else
    record.createdAt != 0 && record.calendarYear != 0 && record.calendarMonth ≥ 1 &&
      record.isoYear != 0 && record.workweek ≥ 1

theorem known_of_validAnalyticsFact {record : AnalyticsFactRecord}
    (h : validAnalyticsFact record = true) : unknownFields record.known = false := by
  unfold validAnalyticsFact at h
  by_contra hknown
  rw [Bool.not_eq_false] at hknown
  rw [if_pos (by simp [hknown])] at h
  cases h

namespace AnalyticsFactRecord

def writeIdentity (record : AnalyticsFactRecord) : Encoder := do
  Put.u64 record.identityGeneration
  Put.u8 record.identityContinuity

def marshalBinary (record : AnalyticsFactRecord) : Result Bytes := do
  rejected (!validAnalyticsFact record) "invalid analytics fact"
  encoded do
    Put.u64 record.revision
    Put.u32 record.uid
    Put.u32 record.gid
    Put.u32 record.known.toUInt32
    Put.i64 record.createdAt
    Put.u64 record.logicalSize
    Put.u32 record.calendarYear.toUInt32
    Put.u8 record.calendarMonth
    Put.u32 record.isoYear.toUInt32
    Put.u8 record.workweek
    Put.u8 record.sizeLog10
    Put.string record.sourcePath
    Put.string record.svm
    Put.string record.volume
    Put.string record.pathGroup
    Put.u8 record.residency
    Put.u8 record.creationBasis
    record.writeIdentity

def readIdentity : Decoder (UInt64 × AnalyticsIdentityContinuity) := do
  let identityGeneration ← Get.u64
  let identityContinuity ← Get.u8
  pure (identityGeneration, identityContinuity)

end AnalyticsFactRecord

def unmarshalAnalyticsFactRecord : Bytes → Result AnalyticsFactRecord := decoded do
  let revision ← Get.u64
  let uid ← Get.u32
  let gid ← Get.u32
  let known ← readKnown "invalid analytics known-field mask"
  let createdAt ← Get.i64
  let logicalSize ← Get.u64
  let calendarYear ← Get.u32
  let calendarMonth ← Get.u8
  let isoYear ← Get.u32
  let workweek ← Get.u8
  let sizeLog10 ← Get.u8
  let sourcePath ← Get.string
  let svm ← Get.string
  let volume ← Get.string
  let pathGroup ← Get.string
  let residency ← Get.u8
  let creationBasis ← Get.u8
  let (identityGeneration, identityContinuity) ←
    orDefault (0, analyticsContinuityUnknown) AnalyticsFactRecord.readIdentity
  let record : AnalyticsFactRecord :=
    { revision, uid, gid, known, createdAt, logicalSize, calendarYear := calendarYear.toInt32,
      calendarMonth, isoYear := isoYear.toInt32, workweek, sizeLog10, sourcePath, svm, volume,
      pathGroup, residency, creationBasis, identityGeneration, identityContinuity }
  reject (!validAnalyticsFact record) "invalid analytics fact"
  Get.done
  pure record

theorem AnalyticsFactRecord.unmarshal_marshalBinary :
    ReadsBack marshalBinary unmarshalAnalyticsFactRecord := by
  intro record data h
  obtain ⟨⟨⟩, hvalid, hencoded⟩ := of_bind h
  have hknown := known_of_validAnalyticsFact (by simpa [rejected_eq_ok] using hvalid)
  have hidentity (rest : Bytes) : RoundTrips rest record.writeIdentity
      (orDefault (0, analyticsContinuityUnknown) readIdentity)
      (record.identityGeneration, record.identityContinuity) :=
    .orDefault (.bind .u64 .u8) (by decide) <| .bind .u64 <| .last .u8 .pure
  refine decoded_encoded hencoded ?_
  exact .bind .u64 <| .bind .u32 <| .bind .u32 <| .bind (readKnown_roundTrips hknown _) <|
    .bind .i64 <| .bind .u64 <| .bind .u32 <| .bind .u8 <| .bind .u32 <| .bind .u8 <| .bind .u8 <|
    .bind .string <| .bind .string <| .bind .string <| .bind .string <| .bind .u8 <| .bind .u8 <|
    .last (hidentity _) <| .checkRead hvalid .done

/-- The state of the analytics and their configuration. -/
structure AnalyticsMetadataRecord where
  enabled : Bool
  (generation facts : UInt64)
  builtAt : Int64
  cacheEntries : UInt64
  configJSON : Bytes

namespace AnalyticsMetadataRecord

def invalid (record : AnalyticsMetadataRecord) : Bool :=
  record.enabled && (record.generation == 0 || record.builtAt == 0)

def marshalBinary (record : AnalyticsMetadataRecord) : Result Bytes := do
  rejected record.invalid "invalid analytics metadata"
  encoded do
    Put.bool record.enabled
    Put.u64 record.generation
    Put.u64 record.facts
    Put.i64 record.builtAt
    Put.u64 record.cacheEntries
    Put.string record.configJSON

end AnalyticsMetadataRecord

def unmarshalAnalyticsMetadataRecord : Bytes → Result AnalyticsMetadataRecord := decoded do
  let enabled ← Get.bool
  let generation ← Get.u64
  let facts ← Get.u64
  let builtAt ← Get.i64
  let cacheEntries ← Get.u64
  let configJSON ← Get.string
  let record : AnalyticsMetadataRecord :=
    { enabled, generation, facts, builtAt, cacheEntries, configJSON }
  reject record.invalid "invalid analytics metadata"
  Get.done
  pure record

theorem AnalyticsMetadataRecord.unmarshal_marshalBinary :
    ReadsBack marshalBinary unmarshalAnalyticsMetadataRecord :=
  readsBack_checked fun _ hvalid =>
    .bind .bool <| .bind .u64 <| .bind .u64 <| .bind .i64 <| .bind .u64 <| .last .string <|
    .checkRead hvalid .done

/-! ## Inode revisions -/

/-- How a revision holds its content. -/
abbrev ContentMode := UInt8

def contentNone : ContentMode := 0
def contentInline : ContentMode := 1
def contentManifestRef : ContentMode := 2

def maxInlineContentIDs : UInt32 := 128

def maxContentIDs : UInt32 := 1000000

def validContentState (mode : ContentMode) (count : UInt32) (ids : List ID) (manifestID : ID) :
    Bool :=
  if mode = contentNone then count == 0 && ids.isEmpty && manifestID == 0
  else if mode = contentInline then
    count > 0 && count ≤ maxInlineContentIDs && count.toNat == ids.length && manifestID == 0
  else if mode = contentManifestRef then
    count > maxInlineContentIDs && count ≤ maxContentIDs && ids.isEmpty && manifestID != 0
  else false

/-- A file at one revision. -/
structure InodeRevision where
  parentInode : UInt64
  hasMultipleParents : Bool
  (mtime ctime : Int64)
  size : UInt64
  (mode uid gid : UInt32)
  known : UInt16
  contentMode : ContentMode
  contentIDs : List ID
  contentManifestID : ID
  contentCount : UInt32
  fileContentHash : ID
  hashKnown : Bool
  sourcePath : Bytes
  freshness : Freshness

namespace InodeRevision

def writeContent (record : InodeRevision) : Encoder :=
  if record.contentMode = contentInline then writeEach Put.id record.contentIDs
  else if record.contentMode = contentManifestRef then Put.id record.contentManifestID
  else pure ()

def marshalBinary (record : InodeRevision) : Result Bytes := do
  rejected (record.freshness > freshnessVerified || record.contentMode > contentManifestRef ||
    unknownFields record.known) "invalid inode state"
  rejected (!validContentState record.contentMode record.contentCount record.contentIDs
    record.contentManifestID) "invalid inode content state"
  encoded do
    Put.u64 record.parentInode
    Put.bool record.hasMultipleParents
    Put.i64 record.mtime
    Put.i64 record.ctime
    Put.u64 record.size
    Put.u32 record.mode
    Put.u32 record.uid
    Put.u32 record.gid
    Put.u32 record.known.toUInt32
    Put.u8 record.contentMode
    Put.u32 record.contentCount
    record.writeContent
    Put.id record.fileContentHash
    Put.bool record.hashKnown
    Put.string record.sourcePath
    Put.u8 record.freshness

/-- The content identifiers and the identifier of a manifest. -/
def readContent (size : Nat) (mode : ContentMode) (count : UInt32) : Decoder (List ID × ID) :=
  if mode = contentInline then do
    reject (count == 0 || count > maxInlineContentIDs || count.toNat * 32 > size)
      "invalid inline content count"
    let ids ← readEach Get.id count.toNat
    pure (ids, 0)
  else if mode = contentManifestRef then do
    let manifestID ← Get.id
    pure ([], manifestID)
  else do
    reject (mode != contentNone) "invalid content mode"
    pure ([], 0)

end InodeRevision

def unmarshalInodeRevision : Bytes → Result InodeRevision := decodedSized fun length => do
  let parentInode ← Get.u64
  let hasMultipleParents ← Get.bool
  let mtime ← Get.i64
  let ctime ← Get.i64
  let size ← Get.u64
  let mode ← Get.u32
  let uid ← Get.u32
  let gid ← Get.u32
  let known ← readKnown "invalid known-field mask"
  let contentMode ← Get.u8
  let contentCount ← Get.u32
  let (contentIDs, contentManifestID) ← InodeRevision.readContent length contentMode contentCount
  reject (!validContentState contentMode contentCount contentIDs contentManifestID)
    "invalid inode content state"
  let fileContentHash ← Get.id
  let hashKnown ← Get.bool
  let sourcePath ← Get.string
  let freshness ← named (malformed "invalid freshness") Get.u8
  reject (freshness > freshnessVerified) "invalid freshness"
  Get.done
  pure { parentInode, hasMultipleParents, mtime, ctime, size, mode, uid, gid, known,
         contentMode, contentIDs, contentManifestID, contentCount, fileContentHash, hashKnown,
         sourcePath, freshness }

namespace InodeRevision

theorem appends_writeContent (record : InodeRevision) :
    ∃ size, Appends record.writeContent size ∧
      (record.contentMode = contentInline → size = record.contentIDs.length * 32) := by
  unfold writeContent
  split_ifs with hinline hmanifest
  · exact ⟨_, .eachOf (fun _ => .id) record.contentIDs, fun _ => rfl⟩
  · exact ⟨_, .id, fun h => absurd h hinline⟩
  · exact ⟨_, .pure, fun h => absurd h hinline⟩

theorem readContent_roundTrips {record : InodeRevision} {length : Nat}
    (hvalid : validContentState record.contentMode record.contentCount record.contentIDs
      record.contentManifestID = true)
    (hroom : record.contentMode = contentInline → record.contentIDs.length * 32 ≤ length)
    (rest : Bytes) :
    RoundTrips rest record.writeContent
      (readContent length record.contentMode record.contentCount)
      (record.contentIDs, record.contentManifestID) := by
  unfold validContentState at hvalid
  unfold writeContent readContent
  by_cases hinline : record.contentMode = contentInline
  · rw [if_neg (by rw [hinline]; decide), if_pos hinline] at hvalid
    simp only [Bool.and_eq_true, decide_eq_true_eq, beq_iff_eq] at hvalid
    obtain ⟨⟨⟨hpos, hmax⟩, hcount⟩, hmanifest⟩ := hvalid
    rw [if_pos hinline, if_pos hinline, hmanifest]
    refine .checkRead ?_ <| .last (.counted hcount fun _ _ _ => .id) .pure
    have hne : record.contentCount ≠ 0 := UInt32.pos_iff_ne_zero.mp hpos
    have hfits := hroom hinline
    rw [rejected_eq_ok]
    simp only [Bool.or_eq_false_iff, beq_eq_false_iff_ne, decide_eq_false_iff_not, gt_iff_lt,
      UInt32.not_lt]
    exact ⟨⟨hne, hmax⟩, by omega⟩
  · by_cases hmanifest : record.contentMode = contentManifestRef
    · rw [if_neg (by rw [hmanifest]; decide), if_neg hinline, if_pos hmanifest] at hvalid
      simp only [Bool.and_eq_true, List.isEmpty_iff] at hvalid
      rw [if_neg hinline, if_pos hmanifest, if_neg hinline, if_pos hmanifest, hvalid.1.2]
      exact .last .id .pure
    · rw [if_neg hinline, if_neg hmanifest] at hvalid
      have hnone : record.contentMode = contentNone := by
        by_contra hmode
        rw [if_neg hmode] at hvalid
        cases hvalid
      rw [if_pos hnone] at hvalid
      simp only [Bool.and_eq_true, List.isEmpty_iff, beq_iff_eq] at hvalid
      rw [if_neg hinline, if_neg hmanifest, if_neg hinline, if_neg hmanifest, hvalid.1.2,
        hvalid.2]
      exact .checkRead (by rw [hnone]; rfl) .pure

theorem unmarshal_marshalBinary : ReadsBack marshalBinary unmarshalInodeRevision := by
  intro record data h
  obtain ⟨⟨⟩, hstate, h⟩ := of_bind h
  obtain ⟨⟨⟩, hcontent, hencoded⟩ := of_bind h
  have hstate := rejected_eq_ok.mp hstate
  simp only [Bool.or_eq_false_iff] at hstate
  obtain ⟨size, happends, hroom⟩ := record.appends_writeContent
  obtain ⟨hlength, -⟩ := length_of_encoded hencoded <| .bind .u64 <| .bind .bool <|
    .bind .i64 <| .bind .i64 <| .bind .u64 <| .bind .u32 <|
    .bind .u32 <| .bind .u32 <| .bind .u32 <| .bind .u8 <|
    .bind .u32 <| happends.bind <| .bind .id <| .bind .bool <|
    .bind .string .u8
  refine decodedSized_encoded hencoded ?_
  refine .bind .u64 <| .bind .bool <| .bind .i64 <|
    .bind .i64 <| .bind .u64 <| .bind .u32 <| .bind .u32 <| .bind .u32 <|
    .bind (readKnown_roundTrips hstate.2 _) <| .bind .u8 <| .bind .u32 <|
    .bind
      (readContent_roundTrips (by simpa [rejected_eq_ok] using hcontent) (fun hinline => ?_) _) <|
    .checkRead hcontent <| .bind .id <| .bind .bool <| .bind .string <| .last (.named .u8) <|
    .checkRead (rejected_eq_ok.mpr hstate.1.1) .done
  have := hroom hinline
  omega

end InodeRevision

end Vaultic.Wire
