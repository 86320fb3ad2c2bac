/-
  Wire/Verification.lean  —  the records of pack verification and of user deletion
  (`internal/index/schema/phase17.go`).

  A deletion certificate is signed over its encoding without the signature, so its reader
  encodes what it read and refuses any other form of the same record.
-/
import Vaultic.Wire.Metadata

set_option autoImplicit false

namespace Vaultic.Wire

open Vaultic.Lib
open Vaultic.Schema (ID)

/-! ## Verification states -/

/-- How much of a copy is read. -/
abbrev VerificationLevel := UInt8

def verificationHeader : VerificationLevel := 1
def verificationChecksum : VerificationLevel := 2
def verificationFull : VerificationLevel := 3

def validVerificationLevel (value : VerificationLevel) : Bool :=
  verificationHeader ≤ value && value ≤ verificationFull

/-- The outcome of a verification. -/
abbrev VerificationResult := UInt8

def verificationUnknown : VerificationResult := 0
def verificationHealthy : VerificationResult := 1
def verificationOperationalError : VerificationResult := 2
def verificationIntegrityError : VerificationResult := 3

def validVerificationResult (value : VerificationResult) : Bool :=
  value ≤ verificationIntegrityError

/-- What went wrong in a verification. -/
abbrev VerificationClassification := UInt8

def verificationNoError : VerificationClassification := 0
def verificationMissing : VerificationClassification := 1
def verificationPayloadDecrypt : VerificationClassification := 5
def verificationDecompression : VerificationClassification := 6
def verificationTransport : VerificationClassification := 8
def verificationCancelled : VerificationClassification := 9

def validVerificationClassification (value : VerificationClassification) : Bool :=
  value ≤ verificationCancelled

def isIntegrity (value : VerificationClassification) : Bool :=
  verificationMissing ≤ value && value ≤ verificationDecompression

/-- What the verifications of a copy have shown. -/
structure VerificationStateRecord where
  lastAttemptAt : Int64
  lastAttemptLevel : VerificationLevel
  (headerVerifiedAt checksumVerifiedAt fullVerifiedAt : Int64)
  result : VerificationResult
  openFindingID : ID
  findingLevel : VerificationLevel
  classification : VerificationClassification
  (firstErrorAt lastErrorAt : Int64)
  consecutiveFailures : UInt64
  lastRunID : ID

namespace VerificationStateRecord

section

variable (record : VerificationStateRecord)

def validateAttempt : Result Unit :=
  if record.lastAttemptAt = 0 then
    rejected (record.lastAttemptLevel != 0 || record.lastRunID != 0)
      "verification attempt metadata without attempt"
  else
    rejected (!validVerificationLevel record.lastAttemptLevel || record.lastRunID == 0)
      "incomplete verification attempt"

def validateFinding : Result Unit := do
  let hasFinding := record.openFindingID != 0
  rejected (hasFinding != (record.result == verificationOperationalError ||
    record.result == verificationIntegrityError)) "finding and result disagree"
  if !hasFinding then
    rejected (record.findingLevel != 0 || record.classification != verificationNoError ||
      record.firstErrorAt != 0 || record.lastErrorAt != 0 || record.consecutiveFailures != 0)
      "stale verification finding metadata"
  else
    rejected (!validVerificationLevel record.findingLevel ||
      record.classification == verificationNoError ||
      !validVerificationClassification record.classification || record.firstErrorAt == 0 ||
      record.lastErrorAt < record.firstErrorAt || record.consecutiveFailures == 0)
      "incomplete verification finding"
    rejected ((record.result == verificationIntegrityError) != isIntegrity record.classification)
      "verification finding class and result disagree"

def validate : Result Unit := do
  rejected (record.lastAttemptAt < 0 || record.headerVerifiedAt < 0 ||
    record.checksumVerifiedAt < 0 || record.fullVerifiedAt < 0 || record.firstErrorAt < 0 ||
    record.lastErrorAt < 0 || !validVerificationResult record.result)
    "invalid verification state"
  record.validateAttempt
  rejected (record.fullVerifiedAt > 0 && (record.checksumVerifiedAt < record.fullVerifiedAt ||
    record.headerVerifiedAt < record.fullVerifiedAt))
    "full verification does not imply weaker levels"
  rejected (record.checksumVerifiedAt > 0 && record.headerVerifiedAt < record.checksumVerifiedAt)
    "checksum verification does not imply header"
  record.validateFinding

def marshalBinary : Result Bytes := do
  record.validate
  encoded do
    Put.i64 record.lastAttemptAt
    Put.u8 record.lastAttemptLevel
    Put.i64 record.headerVerifiedAt
    Put.i64 record.checksumVerifiedAt
    Put.i64 record.fullVerifiedAt
    Put.u8 record.result
    Put.id record.openFindingID
    Put.u8 record.findingLevel
    Put.u8 record.classification
    Put.i64 record.firstErrorAt
    Put.i64 record.lastErrorAt
    Put.u64 record.consecutiveFailures
    Put.id record.lastRunID

end

end VerificationStateRecord

def unmarshalVerificationStateRecord : Bytes → Result VerificationStateRecord :=
  decodedChecked VerificationStateRecord.validate do
    let lastAttemptAt ← Get.i64
    let lastAttemptLevel ← Get.u8
    let headerVerifiedAt ← Get.i64
    let checksumVerifiedAt ← Get.i64
    let fullVerifiedAt ← Get.i64
    let result ← Get.u8
    let openFindingID ← Get.id
    let findingLevel ← Get.u8
    let classification ← Get.u8
    let firstErrorAt ← Get.i64
    let lastErrorAt ← Get.i64
    let consecutiveFailures ← Get.u64
    let lastRunID ← Get.id
    Get.done
    pure { lastAttemptAt, lastAttemptLevel, headerVerifiedAt, checksumVerifiedAt, fullVerifiedAt,
           result, openFindingID, findingLevel, classification, firstErrorAt, lastErrorAt,
           consecutiveFailures, lastRunID }

theorem VerificationStateRecord.unmarshal_marshalBinary :
    ReadsBack marshalBinary unmarshalVerificationStateRecord :=
  readsBack_validated fun _ =>
    .bind .i64 <| .bind .u8 <| .bind .i64 <| .bind .i64 <| .bind .i64 <| .bind .u8 <| .bind .id <|
    .bind .u8 <| .bind .u8 <| .bind .i64 <| .bind .i64 <| .bind .u64 <| .last .id .done

/-! ## Verification events -/

/-- What an event says of a finding. -/
abbrev VerificationEventType := UInt8

def verificationDetected : VerificationEventType := 1
def verificationChanged : VerificationEventType := 2
def verificationResolved : VerificationEventType := 3

def validVerificationEventType (value : VerificationEventType) : Bool :=
  verificationDetected ≤ value && value ≤ verificationResolved

/-- A finding when it was detected, changed or resolved. -/
structure VerificationEventRecord where
  type : VerificationEventType
  (findingID runID : ID)
  level : VerificationLevel
  classification : VerificationClassification
  (firstDetected lastDetected : Int64)
  occurrences : UInt64
  (expected observed resolution : Bytes)

namespace VerificationEventRecord

def validate (record : VerificationEventRecord) : Result Unit := do
  rejected (!validVerificationEventType record.type || record.findingID == 0 ||
    record.runID == 0 || !validVerificationLevel record.level ||
    !validVerificationClassification record.classification || record.firstDetected ≤ 0 ||
    record.lastDetected < record.firstDetected || record.occurrences == 0)
    "invalid verification event"
  if record.type = verificationResolved then
    rejected record.resolution.isEmpty "resolution event without reason"
  else
    rejected (record.classification == verificationNoError || !record.resolution.isEmpty)
      "invalid unresolved verification event"

def marshalBinary (record : VerificationEventRecord) : Result Bytes := do
  record.validate
  encoded do
    Put.u8 record.type
    Put.id record.findingID
    Put.id record.runID
    Put.u8 record.level
    Put.u8 record.classification
    Put.i64 record.firstDetected
    Put.i64 record.lastDetected
    Put.u64 record.occurrences
    Put.string record.expected
    Put.string record.observed
    Put.string record.resolution

end VerificationEventRecord

def unmarshalVerificationEventRecord : Bytes → Result VerificationEventRecord :=
  decodedChecked VerificationEventRecord.validate do
    let type ← Get.u8
    let findingID ← Get.id
    let runID ← Get.id
    let level ← Get.u8
    let classification ← Get.u8
    let firstDetected ← Get.i64
    let lastDetected ← Get.i64
    let occurrences ← Get.u64
    let expected ← Get.string
    let observed ← Get.string
    let resolution ← Get.string
    Get.done
    pure { type, findingID, runID, level, classification, firstDetected, lastDetected,
           occurrences, expected, observed, resolution }

theorem VerificationEventRecord.unmarshal_marshalBinary :
    ReadsBack marshalBinary unmarshalVerificationEventRecord :=
  readsBack_validated fun _ =>
    .bind .u8 <| .bind .id <| .bind .id <| .bind .u8 <| .bind .u8 <| .bind .i64 <| .bind .i64 <|
    .bind .u64 <| .bind .string <| .bind .string <| .last .string .done

/-! ## Exclusion and deletion of users -/

/-- Whether a user is excluded, and since when. -/
structure UIDExclusionPolicyRecord where
  excluded : Bool
  updatedAt : Int64
  runID : ID
  reason : Bytes

namespace UIDExclusionPolicyRecord

def validate (record : UIDExclusionPolicyRecord) : Result Unit :=
  rejected (record.updatedAt ≤ 0 || record.runID == 0) "invalid UID exclusion policy"

def marshalBinary (record : UIDExclusionPolicyRecord) : Result Bytes := do
  record.validate
  encoded do
    Put.bool record.excluded
    Put.i64 record.updatedAt
    Put.id record.runID
    Put.string record.reason

end UIDExclusionPolicyRecord

def unmarshalUIDExclusionPolicyRecord : Bytes → Result UIDExclusionPolicyRecord :=
  decodedChecked UIDExclusionPolicyRecord.validate do
    let excluded ← Get.bool
    let updatedAt ← Get.i64
    let runID ← Get.id
    let reason ← Get.string
    Get.done
    pure { excluded, updatedAt, runID, reason }

theorem UIDExclusionPolicyRecord.unmarshal_marshalBinary :
    ReadsBack marshalBinary unmarshalUIDExclusionPolicyRecord :=
  readsBack_validated fun _ =>
    .bind .bool <| .bind .i64 <| .bind .id <| .last .string .done

/-- A copy that a forget has scheduled for deletion. -/
structure DeletionSchedule where
  packID : ID
  backend : UInt64
  deleteAfter : Int64

/-- Whether `left` does not come before `right` (`compareDeletionSchedule(left, right) >= 0`). -/
def scheduleNotBefore (left right : DeletionSchedule) : Bool :=
  if left.packID ≠ right.packID then left.packID > right.packID
  else if left.backend ≠ right.backend then left.backend > right.backend
  else left.deleteAfter ≥ right.deleteAfter

/-- The signed record of a forget. -/
structure DeletionCertificateRecord where
  uid : UInt32
  executedAt : Int64
  runID : ID
  purgedReferenceHashes : List ID
  pendingDeletion : List DeletionSchedule
  (signingAlgorithm publicKey signature : Bytes)

namespace DeletionCertificateRecord

def writeHash (previous : Option ID) (id : ID) : Encoder := do
  reject (outOfOrder previous id) "deletion hashes are not uniquely sorted"
  Put.id id

def writeSchedule (previous : Option DeletionSchedule) (item : DeletionSchedule) : Encoder := do
  reject (item.packID == 0 || item.backend == 0 || item.deleteAfter < 0 ||
    previous.any fun before => scheduleNotBefore before item)
    "deletion schedules are not uniquely sorted"
  Put.id item.packID
  Put.u64 item.backend
  Put.i64 item.deleteAfter

def write (includeSignature : Bool) (record : DeletionCertificateRecord) : Encoder := do
  Put.u32 record.uid
  Put.i64 record.executedAt
  Put.id record.runID
  Put.u32 (UInt32.ofNat record.purgedReferenceHashes.length)
  writeChain writeHash none record.purgedReferenceHashes
  Put.u32 (UInt32.ofNat record.pendingDeletion.length)
  writeChain writeSchedule none record.pendingDeletion
  Put.string record.signingAlgorithm
  Put.bytes record.publicKey
  if includeSignature then Put.bytes record.signature else pure ()

def marshal (includeSignature : Bool) (record : DeletionCertificateRecord) :
    Result Bytes := do
  rejected (record.executedAt ≤ 0 || record.runID == 0 || record.signingAlgorithm.isEmpty ||
    record.publicKey.isEmpty || (includeSignature && record.signature.isEmpty))
    "invalid deletion certificate"
  rejected (record.purgedReferenceHashes.length > 2 ^ 24 ||
    record.pendingDeletion.length > 2 ^ 24) "deletion certificate is too large"
  encoded (record.write includeSignature)

def marshalBinary (record : DeletionCertificateRecord) : Result Bytes :=
  record.marshal true

def readSchedule : Decoder DeletionSchedule := do
  let packID ← Get.id
  let backend ← Get.u64
  let deleteAfter ← Get.i64
  pure { packID, backend, deleteAfter }

def read : Decoder DeletionCertificateRecord := do
  let uid ← Get.u32
  let executedAt ← Get.i64
  let runID ← Get.id
  let hashes ← Get.u32
  let purgedReferenceHashes ← readEach Get.id hashes.toNat
  let schedules ← Get.u32
  let pendingDeletion ← readEach readSchedule schedules.toNat
  let signingAlgorithm ← Get.string
  let publicKey ← Get.bytes
  let signature ← Get.bytes
  Get.done
  pure { uid, executedAt, runID, purgedReferenceHashes, pendingDeletion, signingAlgorithm,
         publicKey, signature }

end DeletionCertificateRecord

def unmarshalDeletionCertificateRecord (data : Bytes) :
    Result DeletionCertificateRecord := do
  let record ← decoded DeletionCertificateRecord.read data
  let again ← record.marshalBinary
  rejected (again != data) "non-canonical deletion certificate"
  pure record

namespace DeletionCertificateRecord

/-- The number of items fits the count. -/
theorem toNat_bounded {length : Nat} (h : length ≤ 2 ^ 24) :
    (UInt32.ofNat length).toNat = length := by
  rw [UInt32.toNat_ofNat', Nat.mod_eq_of_lt (by omega)]

theorem unmarshal_marshalBinary : ReadsBack marshalBinary unmarshalDeletionCertificateRecord := by
  intro record data h
  obtain ⟨⟨⟩, _, hmarshal⟩ := of_bind h
  obtain ⟨⟨⟩, hsize, hencoded⟩ := of_bind hmarshal
  rw [rejected_eq_ok, Bool.or_eq_false_iff, decide_eq_false_iff_not, decide_eq_false_iff_not,
    not_lt, not_lt] at hsize
  have hhash (previous : Option ID) (id : ID) (rest : Bytes) :
      RoundTrips rest (writeHash previous id) Get.id id :=
    .checkWrite fun _ => .id
  have hschedule (previous : Option DeletionSchedule) (item : DeletionSchedule) (rest : Bytes) :
      RoundTrips rest (writeSchedule previous item) readSchedule item :=
    .checkWrite fun _ => .bind .id <| .bind .u64 <| .last .i64 .pure
  have hread : decoded DeletionCertificateRecord.read data = .ok record :=
    decoded_encoded hencoded <| .bind .u32 <| .bind .i64 <|
      .bind .id <| .bind .u32 <| .bind (.countedChain (toNat_bounded hsize.1) hhash) <|
      .bind .u32 <| .bind (.countedChain (toNat_bounded hsize.2) hschedule) <|
      .bind .string <| .bind .bytes <| .last .bytes .done
  refine bind_eq_ok.mpr ⟨record, hread, bind_eq_ok.mpr ⟨data, h, bind_eq_ok.mpr ⟨(), ?_, rfl⟩⟩⟩
  rw [rejected_eq_ok, bne_self_eq_false]

end DeletionCertificateRecord

end Vaultic.Wire
