/-
  Staging/Records.lean  —  the records of an ingest journal.

  Source: internal/repository/staging/journal.go, internal/vaultic/id.go.

  A journal is a chain of segments that name uploaded packs and the facts about them,
  closed by a seal.  Extensions, completions, abandonments and rejections are
  further objects that name the seal.  Every object is encrypted under a key of its
  job; the libraries that encode and encrypt are parameters.
-/
import Vaultic.Schema.Keys
import Vaultic.Lib.Result

set_option autoImplicit false

namespace Vaultic.Staging

open Vaultic.Schema Vaultic.Lib

/-- Nanoseconds since the zero time. -/
abbrev Time := Int

abbrev Bytes := List UInt8

/-- `Format` -/
def journalFormat : Nat := 1

/-- `MaxSegmentBytes` -/
def maxSegmentBytes : Nat := 8 * 2 ^ 20

/-! ## Digests and identifiers -/

def isHexDigit (c : Char) : Bool :=
  ('0' ≤ c && c ≤ '9') || ('a' ≤ c && c ≤ 'f') || ('A' ≤ c && c ≤ 'F')

def hexValue (c : Char) : Nat :=
  if c ≤ '9' then c.toNat - '0'.toNat
  else if c ≤ 'F' then c.toNat - 'A'.toNat + 10
  else c.toNat - 'a'.toNat + 10

def validDigest (value : String) : Bool :=
  decide (value.toList.length = 64) && value.toList.all isHexDigit

/-- `ParseID` -/
def parseID (s : String) : Result ID :=
  if s.utf8ByteSize ≠ 64 then .error ("invalid length for ID: " ++ s)
  else if ¬(s.toList.all isHexDigit = true) then .error "invalid ID"
  else .ok (BitVec.ofNat 256 (s.toList.foldl (fun value c => value * 16 + hexValue c) 0))

/-! ## Records -/

inductive State where
  | uploading
  | sealedPending
  | committing
  | committed
  | rejected
  | abandoned
  | expired
  deriving DecidableEq, Repr

structure Header where
  format : Nat
  (repositoryID jobID idempotencyKey : String)
  (createdAt expiresAt : Time)
  (capsuleGeneration repositoryKeyVersion : Nat)
  (chunkerVersion compressionVersion : String)
  placementPolicyVersion : Nat
  (sourceIdentitySHA256 consistencyEvidence : String)
  basisSnapshot : String := ""
  basisMetadataGeneration : Nat := 0
  deriving DecidableEq, Repr

structure Placement where
  (backendID failureDomain : String)
  offsite : Bool
  size : Int
  sha256 : String
  deriving DecidableEq, Repr

structure Pack where
  (id type : String)
  size : Int
  (payloadSize headerSize blobCount : Nat)
  sha256 : String
  placements : List Placement
  deriving DecidableEq, Repr

structure Record where
  kind : String
  payload : Bytes
  deriving DecidableEq, Repr

structure Segment where
  header : Header
  sequence : Nat
  previousSHA256 : String := ""
  packs : List Pack := []
  records : List Record := []

structure Seal where
  header : Header
  state : State
  segmentSHA256 : List String
  (packCount protectedBytes : Nat)
  sealedAt : Time
  deriving DecidableEq, Repr

structure Completion where
  header : Header
  state : State
  (sealSHA256 metadataTransaction snapshotID : String)
  completedAt : Time
  deriving DecidableEq, Repr

structure Abandonment where
  header : Header
  state : State
  (sealSHA256 reason acknowledgement : String)
  (abandonedAt deleteAfter : Time)
  deriving DecidableEq, Repr

structure Rejection where
  header : Header
  state : State
  (sealSHA256 reason : String)
  rejectedAt : Time
  deriving DecidableEq, Repr

structure Extension where
  header : Header
  sealSHA256 : String
  generation : Nat
  previousExtensionSHA256 : String := ""
  (previousExpiresAt expiresAt extendedAt : Time)
  deriving DecidableEq, Repr

structure Job where
  header : Header
  state : State
  sealRecord : Seal
  sealSHA256 : String
  completion : Option Completion := none
  abandonment : Option Abandonment := none
  rejection : Option Rejection := none
  extension : Option Extension := none
  extensionSHA256 : String := ""
  mirrorFailures : List (String × String) := []

/-- `EffectiveExpiresAt` -/
def Job.effectiveExpiresAt (job : Job) : Time :=
  (job.extension.map (·.expiresAt)).getD job.header.expiresAt

structure Policy where
  (minCopies minDomains minOffsite : Nat)

/-! ## The libraries -/

structure EncryptedObject where
  format : Nat
  (repositoryID jobID kind : String)
  sequence : Nat
  (nonce ciphertext : Bytes)

/-- JSON, the authenticated cipher with its derived keys, and SHA-256 in hexadecimal. -/
structure Codec where
  /-- Decoding of an envelope that must have no unknown field and nothing after it. -/
  decodeEnvelope : Bytes → Option EncryptedObject
  /-- Decoding that lets unknown fields pass. -/
  unmarshalEnvelope : Bytes → Option EncryptedObject
  /-- The plaintext of an object, if it is authentic in the context that it names. -/
  decrypt : Bytes → EncryptedObject → Option Bytes
  decodeSegment : Bytes → Option Segment
  decodeSeal : Bytes → Option Seal
  decodeCompletion : Bytes → Option Completion
  decodeAbandonment : Bytes → Option Abandonment
  decodeRejection : Bytes → Option Rejection
  decodeExtension : Bytes → Option Extension
  /-- The size of the JSON text of a segment. -/
  marshaledSize : Segment → Nat
  sha256 : Bytes → String
  /-- No JSON text is empty. -/
  decodeEnvelope_nil : decodeEnvelope [] = none

/-- `openObject`, with the digest that it returns.  Of the header it reads the two
identities. -/
def openObject {α : Type} (codec : Codec) (decode : Bytes → Option α) (encoded rootKey : Bytes)
    (repositoryID jobID kind : String) (sequence : Nat) : Result (α × String) :=
  match codec.decodeEnvelope encoded with
  | none => .error "decode encrypted journal object"
  | some object =>
    if object.format ≠ journalFormat ∨ object.repositoryID ≠ repositoryID ∨
        object.jobID ≠ jobID ∨ object.kind ≠ kind ∨ object.sequence ≠ sequence then
      .error "journal object context mismatch"
    else if rootKey.length < 32 then .error "journal key material is too short"
    else
      match codec.decrypt rootKey object with
      | none => .error "authenticate journal object"
      | some plaintext =>
        match decode plaintext with
        | none => .error "decode journal payload"
        | some value => .ok (value, codec.sha256 encoded)

/-- What opens is not empty and decodes, and comes with its digest. -/
theorem openObject_inv {α : Type} {codec : Codec} {decode : Bytes → Option α}
    {encoded rootKey : Bytes} {repositoryID jobID kind : String} {sequence : Nat}
    {opened : α × String}
    (h : openObject codec decode encoded rootKey repositoryID jobID kind sequence = .ok opened) :
    encoded ≠ [] ∧ (∃ plaintext, decode plaintext = some opened.1) ∧
      opened.2 = codec.sha256 encoded := by
  unfold openObject at h
  cases henvelope : codec.decodeEnvelope encoded with
  | none => simp [henvelope] at h
  | some object =>
    simp only [henvelope] at h
    split at h
    · cases h
    split at h
    · cases h
    split at h
    · cases h
    split at h
    · cases h
    rename_i plaintext _ _ value hdecode
    cases h
    refine ⟨?_, ⟨plaintext, hdecode⟩, rfl⟩
    rintro rfl
    rw [codec.decodeEnvelope_nil] at henvelope
    cases henvelope

/-! ## Validation -/

/-- `Header.Validate` -/
def Header.validate (header : Header) (now : Time) : Result Unit :=
  if header.format ≠ journalFormat ∨ header.repositoryID = "" ∨ header.jobID = "" ∨
      header.idempotencyKey = "" ∨ header.createdAt = 0 ∨ ¬header.createdAt < header.expiresAt then
    .error "invalid ingest journal identity or lifetime"
  else if header.expiresAt < now then .error "ingest journal is expired"
  else if validDigest header.sourceIdentitySHA256 = false ∨ header.capsuleGeneration = 0 ∨
      header.repositoryKeyVersion = 0 ∨ header.placementPolicyVersion = 0 then
    .error "incomplete ingest journal cryptographic context"
  else .ok ()

/-- The placements of a pack that have been looked at. -/
structure PlacementTally where
  (seen domains : Finset String := ∅)
  offsite : Nat := 0

def tallyPlacement (pack : Pack) (tally : PlacementTally) (placement : Placement) :
    Result PlacementTally :=
  if placement.backendID = "" ∨ placement.failureDomain = "" ∨ placement.size ≠ pack.size ∨
      placement.sha256 ≠ pack.sha256 then
    .error ("pack " ++ pack.id ++ " has an invalid placement proof")
  else if placement.backendID ∈ tally.seen then
    .error ("pack " ++ pack.id ++ " repeats backend " ++ placement.backendID)
  else
    .ok
      { seen := insert placement.backendID tally.seen
        domains := insert placement.failureDomain tally.domains
        offsite := if placement.offsite then tally.offsite + 1 else tally.offsite }

def validatePack (pack : Pack) (policy : Policy) : Result Unit :=
  if pack.size ≤ 0 ∨ (pack.payloadSize + pack.headerSize) % 2 ^ 64 ≠ pack.size.toNat ∨
      pack.blobCount = 0 then
    .error "invalid staged pack size accounting"
  else if pack.id = "" ∨ pack.size ≤ 0 ∨ validDigest pack.sha256 = false then
    .error "invalid staged pack"
  else do
    let tally ← pack.placements.foldlM (tallyPlacement pack) {}
    if tally.seen.card < max 1 policy.minCopies ∨ tally.domains.card < max 1 policy.minDomains ∨
        tally.offsite < policy.minOffsite then
      .error ("pack " ++ pack.id ++ " does not satisfy staging durability")
    else .ok ()

/-- `Segment.Validate` -/
def Segment.validate (codec : Codec) (segment : Segment) (now : Time) (policy : Policy) :
    Result Unit := do
  segment.header.validate now
  if segment.sequence = 0 ∨
      (segment.sequence > 1 ∧ validDigest segment.previousSHA256 = false) then
    .error "invalid journal segment chain"
  else do
    segment.packs.forM fun pack => validatePack pack policy
    if codec.marshaledSize segment > maxSegmentBytes then
      .error "journal segment exceeds 8388608 bytes"
    else .ok ()

end Vaultic.Staging
