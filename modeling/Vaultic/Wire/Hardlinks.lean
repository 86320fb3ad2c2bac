/-
  Wire/Hardlinks.lean  —  the `hr:` records of inodes with several names.

  `publishHardlinks` of `internal/index/reconcile/reconcile.go` sorts the links of one
  inode by their source paths and names each by its normalised snapshot path;
  `planReconciledHardlinks` of the daemon wraps them into a record and encodes it.
  The encoder checks neither the order of the names nor their lengths.  The decoder
  wants the names non-empty and strictly increasing, and wants twenty bytes of input
  for each name, while a link with a name of n bytes takes twelve and n.

  So what is written can be read back exactly when the names, in the order of the
  source paths, are increasing and not too short on the whole
  (`unmarshal_published_iff`).  Four links with names of one byte cannot.
-/
import Vaultic.Wire.Codec

set_option autoImplicit false

namespace Vaultic.Wire

open Vaultic.Lib
open Vaultic.Schema (ID)

/-- How metadata was obtained. -/
abbrev Freshness := UInt8

def freshnessUnknown : Freshness := 0


def freshnessVerified : Freshness := 2

/-! ## The record -/

/-- A name of an inode in a directory. -/
structure HardlinkParentRef where
  parentInode : UInt64
  name : Bytes
  deriving DecidableEq, Repr

/-- The names of an inode with several links. -/
structure HardlinkRefsRecord where
  fsid : UInt32
  (inode revision : UInt64)
  parents : List HardlinkParentRef
  freshness : Freshness
  deriving DecidableEq, Repr

namespace HardlinkRefsRecord

def writeParent (parent : HardlinkParentRef) : Encoder := do
  Put.u64 parent.parentInode
  Put.string parent.name

def write (record : HardlinkRefsRecord) : Encoder := do
  Put.u32 record.fsid
  Put.u64 record.inode
  Put.u64 record.revision
  Put.u16 (UInt16.ofNat record.parents.length)
  writeEach writeParent record.parents
  Put.u8 record.freshness

def marshalBinary (record : HardlinkRefsRecord) : Result Bytes := do
  rejected (record.freshness > freshnessVerified || record.parents.length < 2 ||
    record.parents.length > 65535) "invalid hardlink state"
  encoded record.write

def readParent (previous : Option HardlinkParentRef) : Decoder HardlinkParentRef := do
  let parentInode ← Get.u64
  let name ← Get.string
  reject (name.isEmpty || previous.any fun parent => name ≤ parent.name)
    "hardlink parents are not uniquely sorted"
  pure { parentInode, name }

def read (size : Nat) : Decoder HardlinkRefsRecord := do
  let fsid ← Get.u32
  let inode ← Get.u64
  let revision ← Get.u64
  let count ← named (malformed "invalid hardlink parent count") Get.u16
  reject (count < 2 || count.toNat * 20 > size) "invalid hardlink parent count"
  let parents ← readChain readParent none count.toNat
  let freshness ← named (malformed "invalid hardlink freshness") Get.u8
  reject (freshness > freshnessVerified) "invalid hardlink freshness"
  Get.done
  pure { fsid, inode, revision, parents, freshness }

end HardlinkRefsRecord

def unmarshalHardlinkRefsRecord (data : Bytes) : Result HardlinkRefsRecord :=
  decodedSized HardlinkRefsRecord.read data

/-! ## The writer -/

/-- What `validateHardlinks` compares of the file behind a link. -/
structure LinkStat where
  size : Int64
  (mode uid gid : UInt32)
  (modTime changeTime : Int)
  deriving DecidableEq, Repr

/-- A link of an inode, as `prepare` left it. -/
structure PreparedItem where
  (snapshotPath sourcePath : Bytes)
  parentInode : UInt64
  stat : LinkStat
  content : List ID

/-- `filepath.Clean` on one element of a path; the elements kept so far, the last first. -/
def cleanElement (rooted : Bool) (kept : List Bytes) (element : Bytes) : List Bytes :=
  if element = [] ∨ element = ascii "." then kept
  else if element = ascii ".." then
    match kept with
    | [] => if rooted then [] else [element]
    | top :: below => if top = ascii ".." then element :: kept else below
  else element :: kept

/-- `filepath.Clean`, with the separator `/`. -/
def clean (path : Bytes) : Bytes :=
  let rooted := path.head? == some 47
  let elements := ((path.splitOn 47).foldl (cleanElement rooted) []).reverse
  let joined := (ascii "/").intercalate elements
  if rooted then 47 :: joined else if joined = [] then ascii "." else joined

def normalizeSnapshotPath (path : Bytes) : Bytes := trimPrefix 47 (clean path)

/-- `sort.Slice` by source path. -/
def sortLinks (links : List PreparedItem) : List PreparedItem :=
  links.insertionSort fun left right => left.sourcePath ≤ right.sourcePath

def validateHardlinks : List PreparedItem → Result Unit
  | [] => .error "empty hardlink group"
  | first :: others =>
    if others.all fun item => item.stat == first.stat && item.content == first.content then
      .ok ()
    else .error "hardlink aliases have inconsistent metadata or content"

/-- What `publishHardlinks` puts into the item of one inode: whether it has several
parents, and their references. -/
def publishHardlinks (links : List PreparedItem) :
    Result (Bool × List HardlinkParentRef) := do
  let links := sortLinks links
  validateHardlinks links
  pure (links.length > 1, links.map fun link =>
    { parentInode := link.parentInode, name := normalizeSnapshotPath link.snapshotPath })

/-- The record of a publication, if it needs one. -/
def planReconciledHardlinks (fsid : UInt32) (inode revision : UInt64)
    (hasMultipleParents : Bool) (hardlinkParents : List HardlinkParentRef) :
    Option HardlinkRefsRecord :=
  if !hasMultipleParents || hardlinkParents.isEmpty then none
  else some { fsid, inode, revision, parents := hardlinkParents, freshness := freshnessVerified }

/-- `record` is what a publication of the links of one inode wraps up. -/
def Published (links : List PreparedItem) (record : HardlinkRefsRecord) : Prop :=
  ∃ published, publishHardlinks links = .ok published ∧
    planReconciledHardlinks record.fsid record.inode record.revision published.1 published.2 =
      some record

/-- The names a record gets: the normalised snapshot paths, by source path. -/
def linkNames (links : List PreparedItem) : List Bytes :=
  (sortLinks links).map fun link => normalizeSnapshotPath link.snapshotPath

/-! ## Reading back -/

variable {record : HardlinkRefsRecord}

namespace HardlinkRefsRecord

/-- What the decoder asks of a parent after another. -/
def Follows (previous : Option HardlinkParentRef) (parent : HardlinkParentRef) : Prop :=
  parent.name ≠ [] ∧ ∀ before ∈ previous, before.name < parent.name

variable {previous : Option HardlinkParentRef} {parent : HardlinkParentRef}

theorem order_rejected_iff {text : String} :
    rejected (parent.name.isEmpty || previous.any fun before => parent.name ≤ before.name) text =
      .ok () ↔ Follows previous parent := by
  cases previous <;> simp [rejected_eq_ok, Follows]

theorem readParent_roundTrips (h : Follows previous parent) (rest : Bytes) :
    RoundTrips rest (writeParent parent) (readParent previous) parent :=
  .bind .u64 <| .last .string <| .checkRead (order_rejected_iff.mpr h) .pure

theorem follows_of_readParent (previous : Option HardlinkParentRef) (bytes : Bytes)
    (parent : HardlinkParentRef) (left : Bytes)
    (h : (readParent previous).run bytes = .ok (parent, left)) : Follows previous parent := by
  obtain ⟨parentInode, _, _, h⟩ := bind_run_eq_ok h
  obtain ⟨name, _, _, h⟩ := bind_run_eq_ok h
  obtain ⟨⟨⟩, _, hcheck, h⟩ := bind_run_eq_ok h
  cases h
  exact order_rejected_iff.mp (check_run_eq_ok hcheck)

/-- What the decoder returns passed its checks. -/
theorem read_inv {size : Nat} {bytes left : Bytes}
    (h : (read size).run bytes = .ok (record, left)) :
    Linked Follows none record.parents ∧ record.parents.length * 20 ≤ size := by
  obtain ⟨fsid, _, _, h⟩ := bind_run_eq_ok h
  obtain ⟨inode, _, _, h⟩ := bind_run_eq_ok h
  obtain ⟨revision, _, _, h⟩ := bind_run_eq_ok h
  obtain ⟨count, _, _, h⟩ := bind_run_eq_ok h
  obtain ⟨⟨⟩, _, hcount, h⟩ := bind_run_eq_ok h
  obtain ⟨parents, _, hparents, h⟩ := bind_run_eq_ok h
  obtain ⟨freshness, _, _, h⟩ := bind_run_eq_ok h
  obtain ⟨⟨⟩, _, _, h⟩ := bind_run_eq_ok h
  obtain ⟨⟨⟩, _, _, h⟩ := bind_run_eq_ok h
  cases h
  obtain ⟨hlinked, hlength⟩ := linked_of_readChain follows_of_readParent hparents
  have hbound := reject_run_eq_ok hcount
  simp only [Bool.or_eq_false_iff, decide_eq_false_iff_not] at hbound
  exact ⟨hlinked, by rw [hlength]; omega⟩

theorem appends_writeParent (parent : HardlinkParentRef) :
    Appends (writeParent parent) (12 + parent.name.length) := by
  have h : Appends (writeParent parent) (8 + (4 + parent.name.length)) :=
    .bind .u64 .string
  rwa [← Nat.add_assoc] at h

theorem appends_write (record : HardlinkRefsRecord) :
    Appends record.write
      (4 + (8 + (8 + (2 + ((record.parents.map fun parent => 12 + parent.name.length).sum +
        1))))) :=
  .bind .u32 <| .bind .u64 <| .bind .u64 <| .bind .u16 <|
    (Appends.each appends_writeParent record.parents).bind .u8

section

variable {data : Bytes} {record : HardlinkRefsRecord} (h : record.marshalBinary = .ok data)
include h

theorem marshalBinary_inv :
    record.freshness ≤ freshnessVerified ∧ 2 ≤ record.parents.length ∧
      record.parents.length ≤ 65535 ∧ encoded record.write = .ok data := by
  obtain ⟨⟨⟩, hstate, h⟩ := of_bind h
  have hstate := rejected_eq_ok.mp hstate
  simp only [Bool.or_eq_false_iff, decide_eq_false_iff_not, not_lt] at hstate
  exact ⟨by simpa using hstate.1.1, hstate.1.2, hstate.2, h⟩

theorem length_of_marshalBinary :
    data.length = 24 + (record.parents.map fun parent => 12 + parent.name.length).sum := by
  obtain ⟨_, _, _, hencoded⟩ := marshalBinary_inv h
  have := (length_of_encoded hencoded record.appends_write).1
  omega

/-- The decoder takes back an encoded record exactly if its own checks pass on it. -/
theorem unmarshal_marshalBinary_iff :
    unmarshalHardlinkRefsRecord data = .ok record ↔
      Linked Follows none record.parents ∧ record.parents.length * 20 ≤ data.length := by
  constructor
  · intro hread
    obtain ⟨_, hread⟩ := decoded_inv hread
    exact read_inv hread
  · rintro ⟨hlinked, hbound⟩
    obtain ⟨hfreshness, hmin, hmax, hencoded⟩ := marshalBinary_inv h
    have hcount : (UInt16.ofNat record.parents.length).toNat = record.parents.length := by
      rw [UInt16.toNat_ofNat', Nat.mod_eq_of_lt (by omega)]
    have hparents (rest : Bytes) : RoundTrips rest (writeEach writeParent record.parents)
        (readChain readParent none (UInt16.ofNat record.parents.length).toNat)
        record.parents := by
      rw [hcount]
      exact .chain (fun _ _ hfollows => readParent_roundTrips hfollows) hlinked
    refine decodedSized_encoded hencoded ?_
    refine .bind .u32 <| .bind .u64 <| .bind .u64 <|
      .bind (.named .u16) <| .checkRead ?_ <| .bind (hparents _) <| .last (.named .u8) <|
      .checkRead ?_ .done
    · rw [rejected_eq_ok]
      simp only [UInt16.lt_iff_toNat_lt, hcount, Bool.or_eq_false_iff, decide_eq_false_iff_not]
      exact ⟨not_lt.mpr hmin, by omega⟩
    · rw [rejected_eq_ok]
      simpa using hfreshness

end

end HardlinkRefsRecord

/-! ## What publications write -/

/-- Names in this order can be read back: none empty, strictly increasing, and together
long enough for the decoder's twenty bytes a parent. -/
def Readable (names : List Bytes) : Prop :=
  (∀ name ∈ names, name ≠ []) ∧ names.Pairwise (· < ·) ∧
    8 * names.length ≤ 24 + (names.map List.length).sum

theorem published_inv {links : List PreparedItem}
    (h : Published links record) : record.parents.map (·.name) = linkNames links := by
  obtain ⟨published, hpublished, hplan⟩ := h
  obtain ⟨⟨⟩, _, hpublished⟩ := of_bind hpublished
  cases hpublished
  unfold planReconciledHardlinks at hplan
  split_ifs at hplan with hnone
  have hparents := congrArg HardlinkRefsRecord.parents (Option.some.inj hplan)
  rw [← hparents, linkNames, List.map_map]
  rfl

theorem linked_follows_iff {parents : List HardlinkParentRef}
    {previous : Option HardlinkParentRef} :
    Linked HardlinkRefsRecord.Follows previous parents ↔
      (∀ name ∈ parents.map (·.name), name ≠ []) ∧
        (previous.toList.map (·.name) ++ parents.map (·.name)).IsChain (· < ·) := by
  induction parents generalizing previous with
  | nil => cases previous <;> simp [Linked]
  | cons parent parents ih =>
    simp only [Linked, HardlinkRefsRecord.Follows, ih]
    cases previous with
    | none => simp; tauto
    | some before => simp [List.isChain_cons_cons]; tauto

theorem sum_parentSizes (parents : List HardlinkParentRef) :
    (parents.map fun parent => 12 + parent.name.length).sum =
      12 * parents.length + ((parents.map (·.name)).map List.length).sum := by
  induction parents with
  | nil => rfl
  | cons parent parents ih =>
    simp only [List.map_cons, List.sum_cons, List.length_cons, ih]
    omega

/-- An accepted record of a publication is read back exactly if the normalised snapshot
paths of the links, by source path, are readable names. -/
theorem unmarshal_published_iff {links : List PreparedItem} {record : HardlinkRefsRecord}
    {data : Bytes} (hpublished : Published links record)
    (hmarshal : record.marshalBinary = .ok data) :
    unmarshalHardlinkRefsRecord data = .ok record ↔ Readable (linkNames links) := by
  have hlength : data.length = 24 + (12 * record.parents.length +
      ((record.parents.map (·.name)).map List.length).sum) := by
    rw [HardlinkRefsRecord.length_of_marshalBinary hmarshal, sum_parentSizes]
  have hcount : (record.parents.map (·.name)).length = record.parents.length :=
    List.length_map _
  rw [HardlinkRefsRecord.unmarshal_marshalBinary_iff hmarshal, linked_follows_iff, hlength,
    ← published_inv hpublished, Readable, hcount, List.isChain_iff_pairwise]
  constructor
  · rintro ⟨⟨hne, hsorted⟩, hbound⟩
    exact ⟨hne, hsorted, by omega⟩
  · rintro ⟨hne, hsorted, hbound⟩
    exact ⟨⟨hne, hsorted⟩, by omega⟩

/-- A link of a file at the top of the tree. -/
def topLink (name : String) : PreparedItem where
  snapshotPath := ascii ("/" ++ name)
  sourcePath := ascii ("/src/" ++ name)
  parentInode := 2
  stat := { size := 1, mode := 420, uid := 0, gid := 0, modTime := 0, changeTime := 0 }
  content := []

/-- The record of such links. -/
def topRecord (names : List String) : HardlinkRefsRecord where
  fsid := 1
  inode := 7
  revision := 3
  parents := names.map fun name => { parentInode := 2, name := ascii name }
  freshness := freshnessVerified

/-- Four links with names of one byte, in order: the encoder takes the record, the decoder
does not, since it asks for eighty bytes and the value has seventy-six. -/
theorem unmarshal_four_short_links :
    Published (["a", "b", "c", "d"].map topLink) (topRecord ["a", "b", "c", "d"]) ∧
      ∃ data, (topRecord ["a", "b", "c", "d"]).marshalBinary = .ok data ∧
        unmarshalHardlinkRefsRecord data =
          .error (malformed "invalid hardlink parent count") :=
  ⟨⟨(true, (topRecord ["a", "b", "c", "d"]).parents), by decide +kernel, by decide +kernel⟩,
    _, rfl, by decide +kernel⟩

/-- Two longer names come back. -/
theorem unmarshal_published_iff_two_links :
    ∃ data, (topRecord ["alpha", "beta"]).marshalBinary = .ok data ∧
      unmarshalHardlinkRefsRecord data = .ok (topRecord ["alpha", "beta"]) := by
  have hpublished : Published (["alpha", "beta"].map topLink) (topRecord ["alpha", "beta"]) :=
    ⟨(true, (topRecord ["alpha", "beta"]).parents), by decide +kernel, by decide +kernel⟩
  refine ⟨_, rfl, (unmarshal_published_iff hpublished rfl).mpr ?_⟩
  unfold Readable
  decide +kernel

end Vaultic.Wire
