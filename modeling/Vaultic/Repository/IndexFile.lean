/-
  Repository/IndexFile.lean  —  index files and the index in memory.

  Source: internal/repository/index/index.go.

  A file lists packs with their blobs.  In memory the blobs are kept by type, each with the
  position of its pack, and `EachByPack` puts the groups of a pack together again.  Loading
  and saving a file lose and invent no entry.
-/
import Vaultic.Repository.PackFile

set_option autoImplicit false

namespace Vaultic.Repository.IndexFile

open Vaultic.Lib
open Vaultic.Schema (ID)

/-! ## Index files -/

/-- `BlobType`; a blob without a type in the JSON has the zero type. -/
inductive BlobType where
  | invalid
  | data
  | tree
  deriving DecidableEq, Repr

def BlobType.code : BlobType → Nat
  | .invalid => 0
  | .data => 1
  | .tree => 2

theorem BlobType.code_inj : Function.Injective BlobType.code := by
  intro a b h
  cases a <;> cases b <;> first | rfl | cases h

theorem BlobType.code_lt (type : BlobType) : type.code < 256 ^ 4 := by
  cases type <;> decide

def blobTypes : List BlobType := [.invalid, .data, .tree]

/-- `blobJSON`, and `pack.Blob`. -/
structure Blob where
  id : ID
  type : BlobType
  (offset length uncompressedLength : UInt32)
  deriving DecidableEq, Repr

/-- `packJSON` -/
structure PackJSON where
  id : ID
  blobs : List Blob

/-- `PackedBlob` -/
structure Entry where
  pack : ID
  blob : Blob

/-- The blob entries of an index file. -/
def entries (packs : List PackJSON) : List Entry :=
  packs.flatMap fun pack => pack.blobs.map (Entry.mk pack.id)

/-! ## The index in memory -/

/-- `indexEntry` -/
structure IndexEntry where
  id : ID
  packIndex : Nat
  (offset length uncompressedLength : UInt32)

/-- `Index`, with the entries of each type in the order they were added. -/
structure Index where
  packs : List ID := []
  byType : BlobType → List IndexEntry := fun _ => []
  final : Bool := false
  ids : List ID := []

namespace Index

def store (packIndex : Nat) (index : Index) (blob : Blob) : Index :=
  let entry : IndexEntry :=
    { id := blob.id, packIndex, offset := blob.offset, length := blob.length
      uncompressedLength := blob.uncompressedLength }
  { index with
    byType := fun type =>
      if type = blob.type then index.byType type ++ [entry] else index.byType type }

def storePack (index : Index) (id : ID) (blobs : List Blob) : Index :=
  blobs.foldl (store index.packs.length) { index with packs := index.packs ++ [id] }

def toPackedBlob (index : Index) (type : BlobType) (entry : IndexEntry) : Entry :=
  { pack := index.packs.getD entry.packIndex 0
    blob :=
      { id := entry.id, type, offset := entry.offset, length := entry.length
        uncompressedLength := entry.uncompressedLength } }

/-- `Values` -/
def values (index : Index) : List Entry :=
  blobTypes.flatMap fun type => (index.byType type).map (index.toPackedBlob type)

def numBlobs (index : Index) : Nat :=
  (blobTypes.map fun type => (index.byType type).length).sum

end Index

def addPack (index : Index) (pack : PackJSON) : Index :=
  index.storePack pack.id pack.blobs

def decodeIndex (packs : List PackJSON) (id : ID) : Index :=
  let index := packs.foldl addPack {}
  { index with ids := [id], final := true }

def indexMaxBlobs : Nat := 50000

/-- Ten minutes, in nanoseconds. -/
def indexMaxAge : Nat := 10 * 60 * 1000000000

/-- `Full`, for an index of this age. -/
def full (age : Nat) (index : Index) : Bool :=
  age ≥ indexMaxAge || index.numBlobs ≥ indexMaxBlobs

def oversized (index : Index) : Bool :=
  index.numBlobs ≥ indexMaxBlobs + PackFile.maxHeaderEntries

/-- The packs that `EachByPack` yields. -/
def eachPack (exclude : Finset ID) (index : Index) : List ID :=
  ((index.values.filter fun entry => !index.final || decide (entry.pack ∉ exclude)).map
    (·.pack)).dedup

/-- The blobs it yields with a pack. -/
def packBlobs (index : Index) (pack : ID) : List Blob :=
  (index.values.filter fun entry => entry.pack = pack).map (·.blob)

/-- Put a blob into the entry of its pack, a new one if there is none. -/
def addBlob (packs : List PackJSON) (entry : Entry) : List PackJSON :=
  if packs.any fun pack => pack.id = entry.pack then
    packs.map fun pack =>
      if pack.id = entry.pack then { pack with blobs := pack.blobs ++ [entry.blob] } else pack
  else packs ++ [{ id := entry.pack, blobs := [entry.blob] }]

def generatePackList (index : Index) : Result (List PackJSON) :=
  if index.values.any fun entry => entry.pack = 0 then .error "null pack id"
  else .ok (index.values.foldl addBlob [])

/-- `SaveIndex`; a blob without a type has no JSON. -/
def saveIndex (index : Index) : Result (List PackJSON) := do
  let packs ← generatePackList index
  if index.values.any fun entry => entry.blob.type = .invalid then .error "unknown blob type"
  else pure packs

/-! ## Entries of an index -/

variable {entry : Entry} {packs : List PackJSON}

theorem mem_entries :
    entry ∈ entries packs ↔ ∃ pack ∈ packs, pack.id = entry.pack ∧ entry.blob ∈ pack.blobs := by
  simp only [entries, List.mem_flatMap, List.mem_map]
  refine exists_congr fun pack => and_congr_right fun _ => ⟨?_, ?_⟩
  · rintro ⟨blob, hblob, rfl⟩
    exact ⟨rfl, hblob⟩
  · rintro ⟨hid, hblob⟩
    exact ⟨entry.blob, hblob, by rw [hid]⟩

variable {index : Index} {blob : Blob}

namespace Index

/-- Every entry points to a pack of the index. -/
def WellFormed (index : Index) : Prop :=
  ∀ type, ∀ entry ∈ index.byType type, entry.packIndex < index.packs.length

theorem mem_values :
    entry ∈ index.values ↔
      ∃ e ∈ index.byType entry.blob.type, index.toPackedBlob entry.blob.type e = entry := by
  simp only [values, List.mem_flatMap, List.mem_map]
  constructor
  · rintro ⟨type, -, e, he, rfl⟩
    exact ⟨e, he, rfl⟩
  · rintro ⟨e, he, hentry⟩
    refine ⟨entry.blob.type, ?_, e, he, hentry⟩
    cases entry.blob.type <;> simp [blobTypes]

theorem packs_foldl_store (packIndex : Nat) (blobs : List Blob) (index : Index) :
    (blobs.foldl (store packIndex) index).packs = index.packs := by
  induction blobs generalizing index with
  | nil => rfl
  | cons blob blobs ih => exact ih _

@[simp] theorem packs_storePack (index : Index) (id : ID) (blobs : List Blob) :
    (index.storePack id blobs).packs = index.packs ++ [id] :=
  packs_foldl_store _ _ _

variable {packIndex : Nat}

theorem mem_byType_store {type : BlobType} {e : IndexEntry} :
    e ∈ (store packIndex index blob).byType type ↔
      e ∈ index.byType type ∨
        type = blob.type ∧
          e = { id := blob.id, packIndex, offset := blob.offset, length := blob.length
                uncompressedLength := blob.uncompressedLength } := by
  simp only [store]
  split_ifs with htype
  · simp [htype]
  · simp [htype]

theorem mem_values_store :
    entry ∈ (store packIndex index blob).values ↔
      entry ∈ index.values ∨ entry = { pack := index.packs.getD packIndex 0, blob } := by
  rw [mem_values, mem_values]
  constructor
  · rintro ⟨e, he, hentry⟩
    rcases mem_byType_store.mp he with he | ⟨htype, rfl⟩
    · exact .inl ⟨e, he, hentry⟩
    · refine .inr (hentry.symm.trans ?_)
      rw [htype]
      rfl
  · rintro (⟨e, he, hentry⟩ | rfl)
    · exact ⟨e, mem_byType_store.mpr (.inl he), hentry⟩
    · exact ⟨_, mem_byType_store.mpr (.inr ⟨rfl, rfl⟩), rfl⟩

theorem mem_values_foldl_store {blobs : List Blob} :
    entry ∈ (blobs.foldl (store packIndex) index).values ↔
      entry ∈ index.values ∨
        entry.pack = index.packs.getD packIndex 0 ∧ entry.blob ∈ blobs := by
  induction blobs generalizing index with
  | nil => simp
  | cons blob blobs ih =>
    have hpacks : (store packIndex index blob).packs = index.packs := rfl
    have heq : entry = { pack := index.packs.getD packIndex 0, blob } ↔
        entry.pack = index.packs.getD packIndex 0 ∧ entry.blob = blob := by
      cases entry
      simp
    rw [List.foldl_cons, ih, mem_values_store, hpacks, heq, List.mem_cons]
    tauto

theorem WellFormed.store (h : index.WellFormed)
    (hindex : packIndex < index.packs.length) (blob : Blob) :
    (store packIndex index blob).WellFormed := by
  intro type e he
  rcases mem_byType_store.mp he with he | ⟨-, rfl⟩
  · exact h type e he
  · exact hindex

theorem WellFormed.foldl_store (blobs : List Blob) (h : index.WellFormed)
    (hindex : packIndex < index.packs.length) :
    (blobs.foldl (Index.store packIndex) index).WellFormed := by
  induction blobs generalizing index with
  | nil => exact h
  | cons blob blobs ih => exact ih (h.store hindex blob) hindex

/-- A pack added at the end leaves the entries where they were. -/
theorem WellFormed.addPack (h : index.WellFormed) (id : ID) :
    ({ index with packs := index.packs ++ [id] } : Index).WellFormed ∧
      ({ index with packs := index.packs ++ [id] } : Index).values = index.values := by
  refine ⟨fun type e he => ?_, ?_⟩
  · have hlt := h type e he
    simp only [List.length_append, List.length_singleton]
    omega
  · refine List.flatMap_congr fun type _ => List.map_congr_left fun e he => ?_
    have hlt := h type e he
    simp only [toPackedBlob, List.getD_eq_getElem?_getD, List.getElem?_append_left hlt]

theorem WellFormed.storePack (h : index.WellFormed) (id : ID)
    (blobs : List Blob) : (index.storePack id blobs).WellFormed :=
  (h.addPack id).1.foldl_store blobs (by simp)

theorem mem_values_storePack (h : index.WellFormed) {id : ID} {blobs : List Blob} :
    entry ∈ (index.storePack id blobs).values ↔
      entry ∈ index.values ∨ entry.pack = id ∧ entry.blob ∈ blobs := by
  rw [storePack, mem_values_foldl_store, (h.addPack id).2]
  simp

theorem wellFormed_empty : ({} : Index).WellFormed := fun _ _ he => by simp at he

/-- An index without packs has no entries. -/
theorem WellFormed.packs_ne_nil (h : index.WellFormed)
    (hentry : entry ∈ index.values) : index.packs ≠ [] := by
  obtain ⟨e, he, -⟩ := mem_values.mp hentry
  intro hnil
  have hlt := h _ e he
  rw [hnil] at hlt
  exact absurd hlt (Nat.not_lt_zero _)

end Index

/-- The fold over the packs of a file, from any index. -/
theorem foldl_addPack_spec (packs : List PackJSON) (h : index.WellFormed) :
    (packs.foldl addPack index).packs = index.packs ++ packs.map (·.id) ∧
      ∀ entry, entry ∈ (packs.foldl addPack index).values ↔
        entry ∈ index.values ∨ entry ∈ entries packs := by
  induction packs generalizing index with
  | nil => simp [entries]
  | cons pack packs ih =>
    obtain ⟨hpacks, hvalues⟩ := ih (h.storePack pack.id pack.blobs)
    refine ⟨?_, fun entry => ?_⟩
    · rw [List.foldl_cons, addPack, hpacks, Index.packs_storePack, List.append_assoc]
      rfl
    · rw [List.foldl_cons, addPack, hvalues, Index.mem_values_storePack h, mem_entries,
        mem_entries]
      simp only [List.mem_cons, exists_eq_or_imp, or_assoc, @eq_comm _ entry.pack]

theorem packs_decodeIndex (packs : List PackJSON) (id : ID) :
    (decodeIndex packs id).packs = packs.map (·.id) :=
  (foldl_addPack_spec packs Index.wellFormed_empty).1

/-- Loading a file loses and invents nothing. -/
theorem mem_values_decodeIndex {id : ID} :
    entry ∈ (decodeIndex packs id).values ↔ entry ∈ entries packs := by
  have hvalues := (foldl_addPack_spec packs Index.wellFormed_empty).2 entry
  have hempty : entry ∉ ({} : Index).values := by simp [Index.mem_values]
  exact hvalues.trans (or_iff_right hempty)

theorem mem_packBlobs {pack : ID} :
    blob ∈ packBlobs index pack ↔ { pack, blob } ∈ index.values := by
  simp only [packBlobs, List.mem_map, List.mem_filter, decide_eq_true_eq]
  constructor
  · rintro ⟨entry, ⟨hentry, rfl⟩, rfl⟩
    exact hentry
  · intro h
    exact ⟨_, ⟨h, rfl⟩, rfl⟩

theorem mem_eachPack {exclude : Finset ID} (hfinal : index.final = true) {pack : ID} :
    pack ∈ eachPack exclude index ↔ pack ∉ exclude ∧ ∃ blob, { pack, blob } ∈ index.values := by
  simp only [eachPack, List.mem_dedup, List.mem_map, List.mem_filter, hfinal, Bool.not_true,
    Bool.false_or, decide_eq_true_eq]
  constructor
  · rintro ⟨entry, ⟨hentry, hkeep⟩, rfl⟩
    exact ⟨hkeep, entry.blob, hentry⟩
  · rintro ⟨hkeep, blob, hentry⟩
    exact ⟨_, ⟨hentry, hkeep⟩, rfl⟩

/-! ## Saving -/

theorem mem_entries_addBlob {added entry : Entry} :
    entry ∈ entries (addBlob packs added) ↔ entry ∈ entries packs ∨ entry = added := by
  have heq : entry = added ↔ added.pack = entry.pack ∧ entry.blob = added.blob := by
    cases entry
    cases added
    simp [eq_comm]
  rw [addBlob, heq]
  split_ifs with hany
  · obtain ⟨target, htarget, hid⟩ := List.any_eq_true.mp hany
    have hid := of_decide_eq_true hid
    simp only [mem_entries, List.mem_map, exists_exists_and_eq_and]
    constructor
    · rintro ⟨pack, hpack, h⟩
      split_ifs at h with hsame
      · rcases List.mem_append.mp h.2 with hblob | hblob
        · exact .inl ⟨pack, hpack, h.1, hblob⟩
        · exact .inr ⟨hsame.symm.trans h.1, List.mem_singleton.mp hblob⟩
      · exact .inl ⟨pack, hpack, h⟩
    · rintro (⟨pack, hpack, hentry, hblob⟩ | ⟨hpack, hblob⟩)
      · refine ⟨pack, hpack, ?_⟩
        split_ifs with hsame
        · exact ⟨hentry, List.mem_append_left _ hblob⟩
        · exact ⟨hentry, hblob⟩
      · refine ⟨target, htarget, ?_⟩
        rw [if_pos hid]
        exact ⟨hid.trans hpack, by simp [hblob]⟩
  · simp [mem_entries, or_and_right, exists_or]

theorem mem_entries_foldl_addBlob {added : List Entry} :
    entry ∈ entries (added.foldl addBlob packs) ↔ entry ∈ entries packs ∨ entry ∈ added := by
  induction added generalizing packs with
  | nil => simp
  | cons first added ih =>
    rw [List.foldl_cons, ih, mem_entries_addBlob, List.mem_cons, or_assoc]

/-- A saved file has the entries of the index. -/
theorem mem_entries_saveIndex (h : saveIndex index = .ok packs) :
    entry ∈ entries packs ↔ entry ∈ index.values := by
  obtain ⟨list, hlist, h⟩ := of_bind h
  rw [generatePackList] at hlist
  split_ifs at hlist h
  cases hlist
  cases h
  rw [mem_entries_foldl_addBlob]
  simp [entries]

/-- An index whose packs have names and whose blobs have types can be saved. -/
theorem exists_saveIndex (h : ∀ entry ∈ index.values, entry.pack ≠ 0 ∧ entry.blob.type ≠ .invalid) :
    ∃ packs, saveIndex index = .ok packs := by
  have hnull : ¬ (index.values.any fun entry => entry.pack = 0) = true := by
    intro hany
    obtain ⟨entry, hentry, hzero⟩ := List.any_eq_true.mp hany
    exact (h entry hentry).1 (of_decide_eq_true hzero)
  have htype : ¬ (index.values.any fun entry => entry.blob.type = .invalid) = true := by
    intro hany
    obtain ⟨entry, hentry, hinvalid⟩ := List.any_eq_true.mp hany
    exact (h entry hentry).2 (of_decide_eq_true hinvalid)
  refine ⟨index.values.foldl addBlob [], bind_eq_ok.mpr ⟨_, ?_, if_neg htype⟩⟩
  exact if_neg hnull

end Vaultic.Repository.IndexFile
