/-
  Schema/Codec.lean  —  the checks of the record encoders and decoders.

  Source: internal/index/schema/codec.go and the `MarshalBinary` and
  `Unmarshal…` functions of records.go, records_inode.go, records_snapshot.go,
  metadata.go, history.go and phase17.go.

  Every record type has the same shape in the source: a check of the fields,
  an encoding whose length is bounded, and a decoder that repeats the check.
  `encode` and `decode` are that shape; each record type supplies its check,
  the length of its encoding and its constructor of `Value`.
-/
import Vaultic.Schema.Records
import Vaultic.Lib.Result

set_option autoImplicit false

namespace Vaultic.Schema

open Vaultic.Lib

/-! ## Lengths -/

/-- The length of a key in bytes. -/
def Key.encodedSize : Key → Nat
  | .blob _ | .pack _ | .snapshot _ => 2 + 32
  | .packAggregate kind =>
    7 + match kind with
      | .data | .tree => 4
      | .mixed => 5
      | .unknown => 7
      | .all => 3
  | .tierAggregate tier =>
    7 + match tier with
      | .unknown => 7
      | .hot => 3
      | .cold => 4
      | .mirrored => 8
      | .single => 6
  | .currentInode _ _ | .currentDirectory _ _ => 2 + 4 + 8
  | .inodeRevision _ _ _ | .directoryRevision _ _ _ | .hardlinkRefs _ _ _ => 3 + 4 + 8 + 8
  | .contentManifest _ _ => 3 + 32 + 4
  | .reverseManifest _ _ => 3 + 64
  | .reverseInode _ _ _ => 3 + 32 + 4 + 8
  | .referenceCount _ => 3 + 32
  | .garbageCollection _ _ => 5 + 32
  | .crawlDebt _ _ => 2 + 64
  | .packHistory _ _ _ => 3 + 8 + 8 + 32
  | .nextEventSequence => 19
  | .historyEnabledAt => 23
  | .packPlacement _ _ => 3 + 32 + 1 + 8
  | .backendPack _ _ => 3 + 8 + 1 + 32
  | .placementDeleteQueue _ _ _ => 3 + 8 + 1 + 32 + 1 + 8
  | .pathVersion _ path _ => 3 + 4 + path.length + 1 + 8
  | .repackLineage _ _ => 3 + 32 + 1 + 32
  | .deletionCertificate _ _ _ => 3 + 4 + 8 + 32
  | .other bytes => bytes.length

/-- The length of a string field: a four-byte count and the bytes. -/
def stringFieldSize (s : String) : Nat := 4 + s.utf8ByteSize

def bytesFieldSize (s : GoString) : Nat := 4 + s.length

/-- The length of the encoding of a value, the version byte included. -/
def Value.encodedSize : Value → Nat
  | .blob r => 1 + 4 + 49 * r.locations.length
  | .pack r =>
    1 + 1 + 8 * 5 + 1 + 1 + 4 + 32 * r.sourceIndexIDs.length + 1 + 1 +
      stringFieldSize r.storageClass + 8 + 1 + 1 + 8 * 3
  | .packAggregate _ => 1 + 8 * 9
  | .currentPointer r => 1 + 8 + 4 + r.recordKey.encodedSize
  | .inodeRevision r =>
    1 + 8 + 1 + 8 * 3 + 4 * 4 + 1 + 4 +
      (match r.contentMode with
      | .none => 0
      | .inline => 32 * r.contentIDs.length
      | .manifestRef => 32) +
      32 + 1 + bytesFieldSize r.sourcePath + 1
  | .directoryRevision r =>
    1 + 8 + 4 +
      (r.children.map fun child =>
        bytesFieldSize child.name + 8 + 1 + 4 + child.metadataKey.encodedSize).sum +
      8 * 3 + 4 * 4 + bytesFieldSize r.sourcePath + 1
  | .contentManifest r => 1 + 4 * 4 + 32 * r.contentIDs.length
  | .reverseManifest _ => 1 + 4 + 1
  | .reverseInode _ => 1 + 8 + 1
  | .referenceCount _ => 1 + 8 * 6
  | .garbageCollection _ => 1 + 1 + 8 * 3
  | .crawlDebt r =>
    1 + 32 + 1 + bytesFieldSize r.pathOrTree + 1 + 4 + 8 + 1 + stringFieldSize r.errorClass
  | .hardlinkRefs r =>
    1 + 4 + 8 + 8 + 2 + (r.parents.map fun parent => 8 + bytesFieldSize parent.name).sum + 1
  | .packHistory r =>
    1 + 1 + 1 + 8 * 5 + 4 + 32 * r.predecessorPackIDs.length + 32 +
      stringFieldSize r.reasonCode
  | .nextEventSequence _ | .historyMarker _ => 1 + 8
  | .placement r => 1 + 1 + stringFieldSize r.storageClass + 8 + 1 + 8 + 8 + 1 + 8 + 8
  | .backendPack _ => 1 + 1 + 8 + 8
  | .placementDelete r => 1 + 8 + 8 + stringFieldSize r.reason + 32
  | .pathVersion r => 1 + 1 + 1 + 8 + 8 + bytesFieldSize r.path
  | .repackLineage _ => 1 + 32 + 1
  | .deletionCertificate r =>
    1 + 4 + 8 + 32 + 4 + 32 * r.purgedReferenceHashes.length + 4 +
      48 * r.pendingDeletion.length + stringFieldSize r.signingAlgorithm +
      bytesFieldSize r.publicKey + bytesFieldSize r.signature
  | .raw bytes => bytes.length

/-! ## The shape of every codec -/

/-- `MarshalBinary`: check the record, then bound the length of its encoding. -/
def encode {R : Type} (check : R → Option String) (wrap : R → Value) (record : R) : Result Value :=
  match check record with
  | some reason => .error (malformed reason)
  | none =>
    if (wrap record).encodedSize > maxEncodedValueBytes then
      .error (malformed "encoded value is too large")
    else .ok (wrap record)

/-- `Unmarshal…`: bound the length, recognise the layout, check the record. -/
def decode {R : Type} (view : Value → Option R) (check : R → Option String) (value : Value) :
    Result R :=
  if value.encodedSize > maxEncodedValueBytes then
    .error (malformed "unsupported or missing schema version")
  else
    match view value with
    | none => .error (malformed "truncated value")
    | some record =>
      match check record with
      | some reason => .error (malformed reason)
      | none => .ok record

theorem encode_eq_ok {R : Type} {check : R → Option String} {wrap : R → Value} {record : R}
    {value : Value} :
    encode check wrap record = .ok value ↔
      check record = none ∧ (wrap record).encodedSize ≤ maxEncodedValueBytes ∧
        value = wrap record := by
  unfold encode
  cases check record with
  | some reason => simp
  | none =>
    by_cases hsize : (wrap record).encodedSize > maxEncodedValueBytes
    · simp [hsize, Nat.not_le.mpr hsize]
    · simp [hsize, Nat.not_lt.mp hsize, eq_comm]

theorem of_encode {R α : Type} {check : R → Option String} {wrap : R → Value} {record : R}
    {next : Value → Result α} {result : α}
    (h : (encode check wrap record >>= next) = .ok result) : next (wrap record) = .ok result := by
  obtain ⟨value, hvalue, h⟩ := of_bind h
  obtain ⟨-, -, rfl⟩ := encode_eq_ok.mp hvalue
  exact h

theorem decode_eq_ok {R : Type} {view : Value → Option R} {check : R → Option String}
    {value : Value} {record : R} :
    decode view check value = .ok record ↔
      value.encodedSize ≤ maxEncodedValueBytes ∧ view value = some record ∧
        check record = none := by
  unfold decode
  by_cases hsize : value.encodedSize > maxEncodedValueBytes
  · simp [hsize, Nat.not_le.mpr hsize]
  simp only [hsize, if_false, Nat.not_lt.mp hsize, true_and]
  cases view value with
  | none => simp
  | some r =>
    constructor
    · intro h
      cases hcheck : check r with
      | some reason => simp [hcheck] at h
      | none =>
        have hr : r = record := by simpa [hcheck] using h
        exact ⟨congrArg some hr, hr ▸ hcheck⟩
    · rintro ⟨hr, hcheck⟩
      cases hr
      simp [hcheck]

/-! ## Blobs, packs and placements -/

def checkBlobRecord (record : BlobRecord) : Option String :=
  if record.locations = [] then some "blob has no locations" else none

def marshalBlobRecord : BlobRecord → Result Value := encode checkBlobRecord .blob

def unmarshalBlobRecord : Value → Result BlobRecord :=
  decode (fun | .blob r => some r | _ => none) checkBlobRecord

/-- `validatePackLifetime`: unknown facts are never presented as measured. -/
def validatePackLifetime (record : PackRecord) : Option String :=
  if record.retentionSource = .unknown ∧ record.minRetentionUntil ≠ 0 then
    some "retention deadline without a source"
  else if record.retentionSource ≠ .unknown ∧ record.creationTimeKnown = false then
    some "retention deadline without a known creation time"
  else if record.creationTimeKnown = false ∧ record.creationTime ≠ 0 then
    some "creation time without a known flag"
  else if record.usageKnown = false ∧
      (record.usedPayloadBytes ≠ 0 ∨ record.unusedPayloadBytes ≠ 0) then
    some "usage accounting without a known flag"
  else if record.usageKnown = true ∧
      (maxUint64 < record.usedPayloadBytes + record.unusedPayloadBytes ∨
        record.usedPayloadBytes + record.unusedPayloadBytes ≠ record.payloadSize) then
    some "usage accounting does not sum to the payload size"
  else none

def checkPackRecord (record : PackRecord) : Option String :=
  if (record.physicalSizeKnown = false ∧ (record.physicalSize ≠ 0 ∨ record.headerSize ≠ 0)) ∨
      (record.physicalSizeKnown = true ∧ record.physicalSize ≥ record.payloadSize ∧
        record.headerSize ≠ record.physicalSize - record.payloadSize) ∨
      (record.physicalSizeKnown = true ∧ record.physicalSize < record.payloadSize ∧
        record.headerSize ≠ 0) then
    some "invalid pack size state"
  else validatePackLifetime record

def marshalPackRecord : PackRecord → Result Value := encode checkPackRecord .pack

def unmarshalPackRecord : Value → Result PackRecord :=
  decode (fun | .pack r => some r | _ => none) checkPackRecord

def checkPlacementRecord (record : PlacementRecord) : Option String :=
  if record.placementTimeKnown = false ∧ record.placedAt ≠ 0 then
    some "placement time without a known flag"
  else if record.retentionSource = .unknown ∧ record.minRetentionUntil ≠ 0 then
    some "placement retention deadline without a source"
  else if record.deleteAfter ≠ 0 ∧ record.state ≠ .evicting ∧ record.state ≠ .evicted then
    some "placement delete deadline without evicting state"
  else none

def marshalPlacementRecord : PlacementRecord → Result Value :=
  encode checkPlacementRecord .placement

def unmarshalPlacementRecord : Value → Result PlacementRecord :=
  decode (fun | .placement r => some r | _ => none) checkPlacementRecord

def marshalBackendPackRecord : BackendPackRecord → Result Value :=
  encode (fun _ => none) .backendPack

def checkPlacementDeleteRecord (record : PlacementDeleteRecord) : Option String :=
  if record.backend = 0 then some "placement delete queue without backend" else none

def marshalPlacementDeleteRecord : PlacementDeleteRecord → Result Value :=
  encode checkPlacementDeleteRecord .placementDelete

def marshalRepackLineageRecord : RepackLineageRecord → Result Value :=
  encode (fun _ => none) .repackLineage

def unmarshalPackAggregate : Value → Result PackAggregate :=
  decode (fun | .packAggregate r => some r | _ => none) (fun _ => none)

/-- `MaxHistoryPredecessors` -/
def maxHistoryPredecessors : Nat := 1024

def checkPackHistoryEvent (record : PackHistoryEvent) : Option String :=
  if record.predecessorPackIDs.length > maxHistoryPredecessors then
    some "too many repack predecessors"
  else none

def marshalPackHistoryEvent : PackHistoryEvent → Result Value :=
  encode checkPackHistoryEvent .packHistory

/-! ## Inodes, directories, paths and content -/

/-- `MaxInlineContentIDs` -/
def maxInlineContentIDs : Nat := 128

/-- `MaxContentIDs` -/
def maxContentIDs : Nat := 1000000

/-- `MaxContentSegmentIDs` -/
def maxContentSegmentIDs : Nat := (maxEncodedValueBytes - 17) / 32

/-- `DefaultContentSegmentIDs` -/
def defaultContentSegmentIDs : Nat := 4096

def validContentState (mode : ContentMode) (count : Nat) (ids : List ID) (manifestID : ID) : Bool :=
  match mode with
  | .none => count == 0 && ids == [] && manifestID == 0
  | .inline =>
    decide (0 < count) && decide (count ≤ maxInlineContentIDs) && count == ids.length &&
      manifestID == 0
  | .manifestRef =>
    decide (maxInlineContentIDs < count) && decide (count ≤ maxContentIDs) && ids == [] &&
      manifestID != 0

def checkInodeRevision (record : InodeRevision) : Option String :=
  if record.known &&& ~~~knownFieldMask ≠ 0 then some "invalid inode state"
  else if validContentState record.contentMode record.contentCount record.contentIDs
      record.contentManifestID = false then
    some "invalid inode content state"
  else none

def marshalInodeRevision : InodeRevision → Result Value :=
  encode checkInodeRevision .inodeRevision

def unmarshalInodeRevision : Value → Result InodeRevision :=
  decode (fun | .inodeRevision r => some r | _ => none) checkInodeRevision

theorem unmarshalInodeRevision_eq_ok {value : Value} {record : InodeRevision}
    (h : unmarshalInodeRevision value = .ok record) : value = .inodeRevision record := by
  obtain ⟨-, hview, -⟩ := decode_eq_ok.mp h
  cases value <;> simp_all

/-- The metadata reference of a child names a revision of its own inode, of the
kind its node type calls for. -/
def validChildReference (child : DirectoryChild) : Bool :=
  match child.type, child.metadataKey with
  | .directory, .directoryRevision _ inode _ => inode == child.inode
  | .directory, _ => false
  | _, .inodeRevision _ inode _ => inode == child.inode
  | _, _ => false

/-- The children of a directory: named, strictly sorted by name, and each with a
reference to its own metadata. -/
def checkDirectoryChildren (reason : String) (previous : Option GoString) :
    List DirectoryChild → Option String
  | [] => none
  | child :: rest =>
    if child.name = [] ∨ previous.any (fun name => decide (child.name ≤ name)) = true then
      some reason
    else if validChildReference child = false then some "child metadata reference mismatch"
    else checkDirectoryChildren reason (some child.name) rest

def checkDirectoryRevision (reason : String) (record : DirectoryRevision) : Option String :=
  if record.known &&& ~~~knownFieldMask ≠ 0 then some "invalid directory state"
  else checkDirectoryChildren reason none record.children

/-- The encoder sorts the children by name before it checks them. -/
def sortDirectoryChildren (children : List DirectoryChild) : List DirectoryChild :=
  children.insertionSort fun left right => left.name ≤ right.name

def marshalDirectoryRevision (record : DirectoryRevision) : Result Value :=
  encode (checkDirectoryRevision "invalid directory child") .directoryRevision
    { record with children := sortDirectoryChildren record.children }

def unmarshalDirectoryRevision : Value → Result DirectoryRevision :=
  decode (fun | .directoryRevision r => some r | _ => none)
    (checkDirectoryRevision "children are not uniquely sorted")

def checkCurrentPointer (record : CurrentPointer) : Option String :=
  if record.revision = 0 then some "zero revision"
  else
    match record.recordKey with
    | .inodeRevision _ _ revision | .directoryRevision _ _ revision =>
      if revision = record.revision then none else some "current pointer target mismatch"
    | _ => some "current pointer target mismatch"

def marshalCurrentPointer : CurrentPointer → Result Value :=
  encode checkCurrentPointer .currentPointer

def unmarshalCurrentPointer : Value → Result CurrentPointer :=
  decode (fun | .currentPointer r => some r | _ => none) checkCurrentPointer

def checkPathVersionRecord (record : PathVersionRecord) : Option String :=
  if record.state = .bound then
    if record.nodeType = none ∨ record.inode = 0 ∨ record.revision = 0 then
      some "invalid bound path record"
    else if record.path ≠ [] then some "non-overflow path record carries overflow path"
    else none
  else if record.nodeType ≠ none ∨ record.inode ≠ 0 ∨ record.revision ≠ 0 then
    some "non-bound path record carries binding"
  else if record.state ≠ .overflow ∧ record.path ≠ [] then
    some "non-overflow path record carries overflow path"
  else none

def marshalPathVersionRecord : PathVersionRecord → Result Value :=
  encode checkPathVersionRecord .pathVersion

def unmarshalPathVersionRecord : Value → Result PathVersionRecord :=
  decode (fun | .pathVersion r => some r | _ => none) checkPathVersionRecord

def checkContentManifest (record : ContentManifest) : Option String :=
  if record.totalCount > maxContentIDs ∨ record.segmentCount = 0 ∨
      record.segment ≥ record.segmentCount ∨ record.contentIDs = [] ∨
      record.contentIDs.length > maxContentSegmentIDs ∨
      record.contentIDs.length > record.totalCount then
    some "invalid content segment"
  else none

def marshalContentManifest : ContentManifest → Result Value :=
  encode checkContentManifest .contentManifest

def unmarshalContentManifest : Value → Result ContentManifest :=
  decode (fun | .contentManifest r => some r | _ => none) checkContentManifest

/-! ## References and bookkeeping -/

def marshalReverseManifestRecord : ReverseManifestRecord → Result Value :=
  encode (fun _ => none) .reverseManifest

def unmarshalReverseManifestRecord : Value → Result ReverseManifestRecord :=
  decode (fun | .reverseManifest r => some r | _ => none) (fun _ => none)

def checkReverseInodeRecord (record : ReverseInodeRecord) : Option String :=
  if record.latestRevision = 0 then some "invalid reverse inode record" else none

def marshalReverseInodeRecord : ReverseInodeRecord → Result Value :=
  encode checkReverseInodeRecord .reverseInode

def marshalReferenceCountRecord : ReferenceCountRecord → Result Value :=
  encode (fun _ => none) .referenceCount

def unmarshalReferenceCountRecord : Value → Result ReferenceCountRecord :=
  decode (fun | .referenceCount r => some r | _ => none) (fun _ => none)

def marshalGarbageCollectionRecord : GarbageCollectionRecord → Result Value :=
  encode (fun _ => none) .garbageCollection

def unmarshalGarbageCollectionRecord : Value → Result GarbageCollectionRecord :=
  decode (fun | .garbageCollection r => some r | _ => none) (fun _ => none)

def marshalCrawlDebtRecord : CrawlDebtRecord → Result Value :=
  encode (fun _ => none) .crawlDebt

def unmarshalCrawlDebtRecord : Value → Result CrawlDebtRecord :=
  decode (fun | .crawlDebt r => some r | _ => none) (fun _ => none)

/-- `compareDeletionSchedule(left, right) < 0` -/
def DeletionSchedule.before (left right : DeletionSchedule) : Bool :=
  if left.packID ≠ right.packID then decide (left.packID < right.packID)
  else if left.backend ≠ right.backend then decide (left.backend < right.backend)
  else decide (left.deleteAfter < right.deleteAfter)

def checkPurgedHashes (previous : Option ID) : List ID → Option String
  | [] => none
  | id :: rest =>
    if id = 0 ∨ previous.any (fun before => decide (id ≤ before)) = true then
      some "deletion hashes are not uniquely sorted"
    else checkPurgedHashes (some id) rest

def checkSchedules (previous : Option DeletionSchedule) : List DeletionSchedule → Option String
  | [] => none
  | item :: rest =>
    if item.packID = 0 ∨ item.backend = 0 ∨ item.deleteAfter < 0 ∨
        previous.any (fun before => !before.before item) = true then
      some "deletion schedules are not uniquely sorted"
    else checkSchedules (some item) rest

/-- The checks of a deletion certificate; a certificate to be signed has no
signature yet. -/
def checkDeletionCertificate (includeSignature : Bool) (record : DeletionCertificateRecord) :
    Option String :=
  if record.executedAt ≤ 0 ∨ record.runID = 0 ∨ record.signingAlgorithm = "" ∨
      record.publicKey = [] ∨ (includeSignature = true ∧ record.signature = []) then
    some "invalid deletion certificate"
  else if record.purgedReferenceHashes.length > 2 ^ 24 ∨ record.pendingDeletion.length > 2 ^ 24 then
    some "deletion certificate is too large"
  else
    (checkPurgedHashes none record.purgedReferenceHashes).or
      (checkSchedules none record.pendingDeletion)

/-- `SigningBytes`: the encoding without the signature. -/
def deletionCertificateSigningBytes : DeletionCertificateRecord → Result Value :=
  fun record => encode (checkDeletionCertificate false) .deletionCertificate
    { record with signature := [] }

def marshalDeletionCertificate : DeletionCertificateRecord → Result Value :=
  encode (checkDeletionCertificate true) .deletionCertificate

/-- The decoder encodes the record again, which repeats the checks. -/
def unmarshalDeletionCertificate : Value → Result DeletionCertificateRecord :=
  decode (fun | .deletionCertificate r => some r | _ => none) (checkDeletionCertificate true)

end Vaultic.Schema
