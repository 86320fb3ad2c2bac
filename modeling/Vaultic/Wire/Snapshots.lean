/-
  Wire/Snapshots.lean  —  the records of directories, paths, snapshots and content lists
  (`internal/index/schema/records_snapshot.go`).

  A directory's children are written in the order of their names, whatever order they are
  given in, and a snapshot's JSON hash is filled in.  SHA-256 and the `tree` field of a
  snapshot's JSON are parameters.
-/
import Vaultic.Wire.Inodes

set_option autoImplicit false

namespace Vaultic.Wire

open Vaultic.Lib
open Vaultic.Schema (ID)

/-! ## Directory revisions -/

/-- What an entry of a directory is. -/
abbrev NodeType := UInt8

def nodeFile : NodeType := 1
def nodeDirectory : NodeType := 2
def nodeOther : NodeType := 4

def validChildMetadataKind (nodeType : NodeType) (keyKind : KeyKind) : Bool :=
  if nodeType = nodeDirectory then keyKind == .directoryRevision
  else nodeType ≥ nodeFile && nodeType ≤ nodeOther && keyKind == .inodeRevision

/-- An entry of a directory. -/
structure DirectoryChild where
  name : Bytes
  inode : UInt64
  type : NodeType
  metadataKey : Bytes

/-- A directory at one revision. -/
structure DirectoryRevision where
  parentInode : UInt64
  children : List DirectoryChild
  (mtime ctime : Int64)
  size : UInt64
  (mode uid gid : UInt32)
  known : UInt16
  sourcePath : Bytes
  freshness : Freshness

namespace DirectoryRevision

/-- `sort.Slice` by name. -/
def sortChildren (children : List DirectoryChild) : List DirectoryChild :=
  children.insertionSort fun left right => left.name ≤ right.name

section

variable (record : DirectoryRevision)

/-- The children are written in order. -/
def normalized : DirectoryRevision :=
  { record with children := sortChildren record.children }

def invalidType (nodeType : NodeType) : Bool := nodeType < nodeFile || nodeType > nodeOther

/-- The child's metadata key is not the key of this node's revisions. -/
def childMismatch (child : DirectoryChild) : Bool :=
  match parseKey child.metadataKey with
  | .error _ => true
  | .ok parsed =>
    !validChildMetadataKind child.type parsed.kind || parsed.inode != child.inode

def writeChild (previous : Option DirectoryChild) (child : DirectoryChild) : Encoder := do
  reject (child.name.isEmpty || previous.any (fun before => child.name == before.name) ||
    invalidType child.type) "invalid directory child"
  Put.string child.name
  Put.u64 child.inode
  Put.u8 child.type
  Put.bytes child.metadataKey
  reject (childMismatch child) "child metadata reference mismatch"

/-- The fields that records of earlier releases end before. -/
def writeMetadata : Encoder := do
  Put.i64 record.mtime
  Put.i64 record.ctime
  Put.u64 record.size
  Put.u32 record.mode
  Put.u32 record.uid
  Put.u32 record.gid
  Put.u32 record.known.toUInt32
  Put.string record.sourcePath
  Put.u8 record.freshness

/-- The fields of a record with sorted children. -/
def write : Encoder := do
  Put.u64 record.parentInode
  Put.u32 (UInt32.ofNat record.children.length)
  writeChain writeChild none record.children
  record.writeMetadata

def marshalBinary : Result Bytes := do
  rejected (record.freshness > freshnessVerified || unknownFields record.known)
    "invalid directory state"
  encoded record.normalized.write

def readChild (previous : Option DirectoryChild) : Decoder DirectoryChild := do
  let name ← Get.string
  reject (name.isEmpty || previous.any fun before => name ≤ before.name)
    "children are not uniquely sorted"
  let inode ← Get.u64
  let type ← named (malformed "invalid child type") Get.u8
  reject (invalidType type) "invalid child type"
  let metadataKey ← Get.bytes
  let child : DirectoryChild := { name, inode, type, metadataKey }
  reject (childMismatch child) "child metadata reference mismatch"
  pure child

/-- The fields behind the children, into a record without them. -/
def readMetadata : Decoder DirectoryRevision := do
  let mtime ← Get.i64
  let ctime ← Get.i64
  let size ← Get.u64
  let mode ← Get.u32
  let uid ← Get.u32
  let gid ← Get.u32
  let known ← readKnown "invalid directory known-field mask"
  let sourcePath ← Get.string
  let freshness ← named (malformed "invalid directory freshness") Get.u8
  reject (freshness > freshnessVerified) "invalid directory freshness"
  pure { record with mtime, ctime, size, mode, uid, gid, known, sourcePath, freshness }

end

end DirectoryRevision

def unmarshalDirectoryRevision : Bytes → Result DirectoryRevision :=
  decodedSized fun length => do
    let parentInode ← Get.u64
    let count ← named (malformed "invalid child count") Get.u32
    reject (count.toNat * 13 > length) "invalid child count"
    let children ← readChain DirectoryRevision.readChild none count.toNat
    let short : DirectoryRevision :=
      { parentInode, children, mtime := 0, ctime := 0, size := 0, mode := 0, uid := 0, gid := 0,
        known := 0, sourcePath := [], freshness := freshnessUnknown }
    let record ← orDefault short short.readMetadata
    Get.done
    pure record

namespace DirectoryRevision

theorem pairwise_sortChildren (children : List DirectoryChild) :
    (sortChildren children).Pairwise fun left right => left.name ≤ right.name := by
  have htotal : Std.Total fun left right : DirectoryChild => left.name ≤ right.name :=
    ⟨fun left right => List.le_total left.name right.name⟩
  have htrans : IsTrans DirectoryChild fun left right => left.name ≤ right.name :=
    ⟨fun _ _ _ => List.le_trans⟩
  exact List.pairwise_insertionSort _ children

/-- A child after one with a smaller or equal name: the writer refuses an equal one. -/
theorem readChild_roundTrips (previous : Option DirectoryChild) (child : DirectoryChild)
    (hsorted : ∀ before ∈ previous, before.name ≤ child.name) (rest : Bytes) :
    RoundTrips rest (writeChild previous child) (readChild previous) child := by
  refine .checkWrite fun hchild => ?_
  have hchild := rejected_eq_ok.mp hchild
  simp only [Bool.or_eq_false_iff] at hchild
  obtain ⟨⟨hname, hdistinct⟩, htype⟩ := hchild
  have horder : (previous.any fun before => decide (child.name ≤ before.name)) = false := by
    cases previous with
    | none => rfl
    | some before =>
      have hne : child.name ≠ before.name := by simpa using hdistinct
      have hafter : ¬child.name ≤ before.name := fun hle =>
        hne (List.le_antisymm hle (hsorted before rfl))
      simpa using hafter
  exact .bind .string <| .checkRead (by rw [rejected_eq_ok, hname, horder]; rfl) <| .bind .u64 <|
    .bind (.named .u8) <| .checkRead (rejected_eq_ok.mpr htype) <| .bind .bytes <|
    .checkLast fun htarget => .checkRead htarget .pure

theorem appends_writeChild (previous : Option DirectoryChild) (child : DirectoryChild) :
    Appends (writeChild previous child)
      (4 + child.name.length + (8 + (1 + (4 + child.metadataKey.length)))) :=
  .checked <| .bind .string <| .bind .u64 <| .bind .u8 <|
    Appends.bytes.bind .checkLast

theorem appends_writeMetadata (record : DirectoryRevision) :
    ∃ size, Appends record.writeMetadata size ∧ 0 < size :=
  ⟨_, .bind .i64 <| .bind .i64 <| .bind .u64 <| .bind .u32 <|
    .bind .u32 <| .bind .u32 <| .bind .u32 <| .bind .string .u8,
    by omega⟩

theorem thirteen_mul_length_le (children : List DirectoryChild) :
    children.length * 13 ≤ (children.map fun child =>
      4 + child.name.length + (8 + (1 + (4 + child.metadataKey.length)))).sum := by
  induction children with
  | nil => exact le_rfl
  | cons child children ih =>
    rw [List.map_cons, List.sum_cons, List.length_cons]
    omega

theorem appends_write (record : DirectoryRevision) :
    ∃ size, Appends record.write size ∧ record.children.length * 13 ≤ size := by
  obtain ⟨size, hmetadata, _⟩ := record.appends_writeMetadata
  have hroom := thirteen_mul_length_le record.children
  exact ⟨_, .bind .u64 <| .bind .u32 <|
    (Appends.chain appends_writeChild record.children none).bind hmetadata, by omega⟩

theorem readMetadata_roundTrips {record : DirectoryRevision}
    (hfreshness : decide (record.freshness > freshnessVerified) = false)
    (hknown : unknownFields record.known = false) (short : DirectoryRevision) (rest : Bytes) :
    RoundTrips rest record.writeMetadata (orDefault short short.readMetadata)
      { short with
        mtime := record.mtime, ctime := record.ctime, size := record.size, mode := record.mode
        uid := record.uid, gid := record.gid, known := record.known
        sourcePath := record.sourcePath, freshness := record.freshness } := by
  obtain ⟨size, happends, hpos⟩ := record.appends_writeMetadata
  refine .orDefault happends hpos ?_
  exact .bind .i64 <| .bind .i64 <| .bind .u64 <| .bind .u32 <| .bind .u32 <| .bind .u32 <|
    .bind (readKnown_roundTrips hknown _) <| .bind .string <| .last (.named .u8) <|
    .checkRead (rejected_eq_ok.mpr hfreshness) .pure

theorem unmarshal_marshalBinary {record : DirectoryRevision} {data : Bytes}
    (h : record.marshalBinary = .ok data) :
    unmarshalDirectoryRevision data = .ok record.normalized := by
  obtain ⟨⟨⟩, hstate, hencoded⟩ := of_bind h
  have hstate := rejected_eq_ok.mp hstate
  rw [Bool.or_eq_false_iff] at hstate
  obtain ⟨size, happends, hroom⟩ := record.normalized.appends_write
  obtain ⟨hlength, hmax⟩ := length_of_encoded hencoded happends
  have hcount : (UInt32.ofNat record.normalized.children.length).toNat =
      record.normalized.children.length := toNat_count (by omega)
  have hchildren (rest : Bytes) : RoundTrips rest
      (writeChain writeChild none record.normalized.children)
      (readChain readChild none (UInt32.ofNat record.normalized.children.length).toNat)
      record.normalized.children := by
    rw [hcount]
    exact .chain readChild_roundTrips (linked_of_pairwise (pairwise_sortChildren record.children))
  refine decodedSized_encoded hencoded ?_
  refine .bind .u64 <| .bind (.named .u32) <| .checkRead ?_ <|
    .bind (hchildren _) <| .last (readMetadata_roundTrips hstate.1 hstate.2 _ _) .done
  rw [rejected_eq_ok, hcount, decide_eq_false_iff_not]
  omega

end DirectoryRevision

/-! ## Path versions -/

/-- What a version says of its path. -/
abbrev PathBindingState := UInt8

def pathBound : PathBindingState := 1
def pathOverflow : PathBindingState := 3

def validPathBindingState (value : PathBindingState) : Bool :=
  pathBound ≤ value && value ≤ pathOverflow

/-- What a path names from one revision on. -/
structure PathVersionRecord where
  state : PathBindingState
  nodeType : NodeType
  (inode revision : UInt64)
  path : Bytes

namespace PathVersionRecord

def validate (record : PathVersionRecord) : Result Unit := do
  rejected (!validPathBindingState record.state) "invalid path binding state"
  if record.state = pathBound then
    rejected (record.nodeType < nodeFile || record.nodeType > nodeOther || record.inode == 0 ||
      record.revision == 0) "invalid bound path record"
  else
    rejected (record.nodeType != 0 || record.inode != 0 || record.revision != 0)
      "non-bound path record carries binding"
  rejected (record.state != pathOverflow && !record.path.isEmpty)
    "non-overflow path record carries overflow path"

def write (record : PathVersionRecord) : Encoder := do
  Put.u8 record.state
  Put.u8 record.nodeType
  Put.u64 record.inode
  Put.u64 record.revision
  Put.string record.path

def marshalBinary (record : PathVersionRecord) : Result Bytes := do
  record.validate
  encoded record.write

def read : Decoder PathVersionRecord := do
  let state ← Get.u8
  let nodeType ← Get.u8
  let inode ← Get.u64
  let revision ← Get.u64
  let path ← Get.string
  Get.done
  pure { state, nodeType, inode, revision, path }

end PathVersionRecord

/-- The reader checks by encoding again. -/
def unmarshalPathVersionRecord (data : Bytes) : Result PathVersionRecord := do
  let record ← decoded PathVersionRecord.read data
  let _ ← record.marshalBinary
  pure record

theorem PathVersionRecord.unmarshal_marshalBinary :
    ReadsBack marshalBinary unmarshalPathVersionRecord := by
  intro record data h
  obtain ⟨⟨⟩, _, hencoded⟩ := of_bind h
  have hread : decoded PathVersionRecord.read data = .ok record :=
    decoded_encoded hencoded <| .bind .u8 <| .bind .u8 <|
      .bind .u64 <| .bind .u64 <| .last .string .done
  exact bind_eq_ok.mpr ⟨record, hread, bind_eq_ok.mpr ⟨data, h, rfl⟩⟩

/-! ## Snapshots -/

/-- The value of a hexadecimal digit. -/
def hexValue (digit : UInt8) : Option UInt8 :=
  if 48 ≤ digit && digit ≤ 57 then some (digit - 48)
  else if 97 ≤ digit && digit ≤ 102 then some (digit - 87)
  else if 65 ≤ digit && digit ≤ 70 then some (digit - 55)
  else none

/-- `hex.DecodeString`. -/
def hexDecode : Bytes → Option Bytes
  | [] => some []
  | [_] => none
  | high :: low :: rest => do
    let high ← hexValue high
    let low ← hexValue low
    let bytes ← hexDecode rest
    pure ((high * 16 + low) :: bytes)

/-- What the snapshot records use of other packages: SHA-256, and the `tree` string of a
JSON object (`none` if it does not parse). -/
structure SnapshotHost where
  sha256 : Bytes → ID
  jsonTree : Bytes → Option Bytes

/-- A snapshot: its root and its original JSON. -/
structure SnapshotRecord where
  commitSequence : UInt64
  rootFSID : UInt32
  (rootInode rootRevision : UInt64)
  originalJSON : Bytes
  (jsonHash legacyTree : ID)

namespace SnapshotRecord

variable (host : SnapshotHost)

section

variable (record : SnapshotRecord)

/-- A missing hash is filled in. -/
def normalized : SnapshotRecord :=
  if record.jsonHash = 0 then { record with jsonHash := host.sha256 record.originalJSON }
  else record

def validateScope : Result Unit :=
  if record.legacyTree = 0 then
    rejected (record.commitSequence == 0 || record.rootRevision == 0) "invalid snapshot scope"
  else do
    rejected (record.commitSequence != 0 || record.rootFSID != 0 || record.rootInode != 0 ||
      record.rootRevision != 0) "legacy snapshot has normalized identity"
    match host.jsonTree record.originalJSON with
    | none => .error (malformed "invalid legacy snapshot JSON")
    | some text =>
      rejected (hexDecode text != some (idBytes record.legacyTree))
        "legacy snapshot tree mismatch"

def writeTree : Encoder :=
  if record.legacyTree = 0 then pure () else Put.id record.legacyTree

def write : Encoder := do
  Put.u64 record.commitSequence
  Put.u32 record.rootFSID
  Put.u64 record.rootInode
  Put.u64 record.rootRevision
  Put.bytes record.originalJSON
  reject (record.jsonHash != 0 && record.jsonHash != host.sha256 record.originalJSON)
    "snapshot JSON hash mismatch"
  Put.id (host.sha256 record.originalJSON)
  record.writeTree

def marshalBinary : Result Bytes := do
  record.validateScope host
  encoded (record.write host)

end

def readTree (rootRevision : UInt64) : Decoder ID :=
  if rootRevision = 0 then Get.id else pure 0

def read : Decoder SnapshotRecord := do
  let commitSequence ← Get.u64
  let rootFSID ← Get.u32
  let rootInode ← Get.u64
  let rootRevision ← Get.u64
  let originalJSON ← Get.bytes
  let jsonHash ← Get.id
  let legacyTree ← readTree rootRevision
  let record : SnapshotRecord :=
    { commitSequence, rootFSID, rootInode, rootRevision, originalJSON, jsonHash, legacyTree }
  check (record.validateScope host)
  reject (host.sha256 originalJSON != jsonHash) "invalid snapshot scope or hash"
  Get.done
  pure record

end SnapshotRecord

def unmarshalSnapshotRecord (host : SnapshotHost) (data : Bytes) : Result SnapshotRecord :=
  decoded (SnapshotRecord.read host) data

namespace SnapshotRecord

variable {host : SnapshotHost} {record : SnapshotRecord}

/-- A snapshot has a legacy tree exactly if it has no root revision. -/
theorem readTree_roundTrips (h : record.validateScope host = .ok ()) (rest : Bytes) :
    RoundTrips rest record.writeTree (readTree record.rootRevision) record.legacyTree := by
  unfold validateScope at h
  unfold writeTree readTree
  by_cases htree : record.legacyTree = 0
  · rw [if_pos htree, rejected_eq_ok, Bool.or_eq_false_iff, beq_eq_false_iff_ne,
      beq_eq_false_iff_ne] at h
    rw [if_pos htree, if_neg h.2, htree]
    exact .pure
  · rw [if_neg htree] at h
    obtain ⟨⟨⟩, hidentity, _⟩ := of_bind h
    have hroot : record.rootRevision = 0 := by
      have hidentity := rejected_eq_ok.mp hidentity
      simp only [Bool.or_eq_false_iff, bne_eq_false_iff_eq] at hidentity
      exact hidentity.2
    rw [if_neg htree, if_pos hroot]
    exact .id

theorem normalized_of_hash
    (h : (record.jsonHash != 0 && record.jsonHash != host.sha256 record.originalJSON) = false) :
    { record with jsonHash := host.sha256 record.originalJSON } = record.normalized host := by
  unfold normalized
  split_ifs with hmissing
  · rfl
  · have hpresent : (record.jsonHash != 0) = true := bne_iff_ne.mpr hmissing
    rw [hpresent, Bool.true_and, bne_eq_false_iff_eq] at h
    rw [← h]

theorem unmarshal_marshalBinary {data : Bytes} (h : record.marshalBinary host = .ok data) :
    unmarshalSnapshotRecord host data = .ok (record.normalized host) := by
  obtain ⟨⟨⟩, hscope, hencoded⟩ := of_bind h
  refine decoded_encoded hencoded ?_
  refine .bind .u64 <| .bind .u32 <| .bind .u64 <|
    .bind .u64 <| .bind .bytes <| .checkWrite fun hhash => ?_
  rw [← normalized_of_hash (rejected_eq_ok.mp hhash)]
  exact .bind .id <| .last (readTree_roundTrips hscope _) <| .checkRead hscope <|
    .checkRead (by rw [rejected_eq_ok, bne_self_eq_false]) .done

end SnapshotRecord

/-! ## Content lists -/

def maxContentSegmentIDs : Nat := (maxEncodedValueBytes - 17) / 32

/-- A segment of the content of a file. -/
structure ContentManifest where
  (totalCount segment segmentCount : UInt32)
  contentIDs : List ID

namespace ContentManifest

/-- The checks on the header fields and the number of identifiers. -/
def invalid (totalCount segment segmentCount : UInt32) (count : Nat) : Bool :=
  totalCount > maxContentIDs || segmentCount == 0 || segment ≥ segmentCount || count == 0 ||
    count > maxContentSegmentIDs || count > totalCount.toNat

def marshalBinary (record : ContentManifest) : Result Bytes := do
  rejected (invalid record.totalCount record.segment record.segmentCount
    record.contentIDs.length) "invalid content segment"
  encoded do
    Put.u32 record.totalCount
    Put.u32 record.segment
    Put.u32 record.segmentCount
    Put.u32 (UInt32.ofNat record.contentIDs.length)
    writeEach Put.id record.contentIDs

end ContentManifest

def unmarshalContentManifest : Bytes → Result ContentManifest := decodedSized fun size => do
  let totalCount ← Get.u32
  let segment ← Get.u32
  let segmentCount ← Get.u32
  let count ← named (malformed "invalid content count") Get.u32
  reject (count.toNat * 32 > size) "invalid content count"
  let contentIDs ← readEach Get.id count.toNat
  reject (ContentManifest.invalid totalCount segment segmentCount count.toNat)
    "invalid content segment"
  Get.done
  pure { totalCount, segment, segmentCount, contentIDs }

namespace ContentManifest

theorem unmarshal_marshalBinary : ReadsBack marshalBinary unmarshalContentManifest := by
  intro record data h
  obtain ⟨⟨⟩, hvalid, hencoded⟩ := of_bind h
  obtain ⟨hlength, hmax⟩ := length_of_encoded hencoded <| .bind .u32 <| .bind .u32 <|
    .bind .u32 <| .bind .u32 <| .eachOf (fun _ => .id) record.contentIDs
  have hcount : (UInt32.ofNat record.contentIDs.length).toNat = record.contentIDs.length :=
    toNat_count (by omega)
  refine decodedSized_encoded hencoded ?_
  refine .bind .u32 <| .bind .u32 <| .bind .u32 <|
    .bind (.named .u32) <| .checkRead ?_ <| .last (.counted hcount fun _ _ _ => .id) <|
    .checkRead ?_ .done
  · rw [rejected_eq_ok, hcount, decide_eq_false_iff_not]
    omega
  · rw [hcount]
    exact hvalid

end ContentManifest

end Vaultic.Wire
