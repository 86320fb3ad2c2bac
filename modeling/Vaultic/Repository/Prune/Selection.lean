/-
  Repository/Prune/Selection.lean  —  which occurrence of a blob a prune keeps.

  Source: internal/repository/prune.go (`packInfoFromIndex` and what it calls),
  internal/repository/pack/pack.go (`Size`).

  The index lists occurrences of blobs in packs.  A used blob may occur any number
  of times; a counter of eight bits per blob decides which occurrence counts as the
  used one.  The counter saturates, and the main lemma is that it still selects an
  occurrence of every used blob, however many there are.
-/
import Vaultic.Lib.Result
import Vaultic.Schema.Keys

set_option autoImplicit false

namespace Vaultic.Repository

open Vaultic.Lib Vaultic.Schema

/-! ## The index and what is known of a pack -/

/-- One blob of a pack, as the index lists it. -/
structure IndexedBlob where
  packID : ID
  handle : BlobHandle
  /-- The length of its ciphertext. -/
  length : Nat
  compressed : Bool := true
  deriving DecidableEq, Repr

/-- The blob types found in a pack: none yet, one, or several. -/
inductive PackContent where
  | unset
  | only (type : BlobType)
  | invalid
  deriving DecidableEq, Repr

structure PackInfo where
  (usedBlobs unusedBlobs duplicateBlobs usedSize unusedSize : Nat := 0)
  tpe : PackContent := .invalid
  uncompressed : Bool := false
  deriving DecidableEq, Repr

/-- The bytes a pack takes. -/
def PackInfo.size (info : PackInfo) : Nat := info.unusedSize + info.usedSize

structure PruneBlobStats where
  (used duplicate unused total repack repackrm remove removeTotal remain : Nat := 0)
  deriving DecidableEq, Repr

structure PruneSizeStats where
  (used duplicate unused unref uncompressed total repack repackrm remove removeTotal : Nat := 0)
  (remain remainUnused : Nat := 0)
  deriving DecidableEq, Repr

structure PrunePackStats where
  (used unused partlyUsed unref total keep repack remove removeTotal : Nat := 0)
  deriving DecidableEq, Repr

structure PruneStats where
  blobs : PruneBlobStats := {}
  size : PruneSizeStats := {}
  packs : PrunePackStats := {}

/-- `AssociatedSet[uint8]`: the handles of a set, each with a counter. -/
abbrev CountedHandles := Table BlobHandle Nat

/-! ## Counting -/

/-- The largest value of a counter. -/
def maxCount : Nat := 255

section

variable (index : List IndexedBlob) (used : CountedHandles)

/-- One blob of `countUsedBlobOccurrences`. -/
def countOccurrence (blob : IndexedBlob) : CountedHandles :=
  match used.lookup blob.handle with
  | none => used
  | some count => used.insert blob.handle (if count < maxCount then count + 1 else count)

def countUsedBlobOccurrences : CountedHandles :=
  index.foldl countOccurrence used

/-- `validateUsedBlobs`: every used blob was found. -/
def validateUsedBlobs : Bool :=
  used.entries.all fun entry => decide (entry.2 ≠ 0)

/-- `CalculateEntrySize` -/
def entrySize (compressed : Bool) : Nat := if compressed then 41 else 37

/-- The constant part of a pack header. -/
def headerSize : Nat := 36

/-- One blob of `pack.Size` with headers only. -/
def addHeaderEntry (sizes : Table ID Nat) (blob : IndexedBlob) : Table ID Nat :=
  sizes.insert blob.packID
    ((sizes.lookup blob.packID).getD headerSize + entrySize blob.compressed)

def packHeaderSizes : Table ID Nat := index.foldl addHeaderEntry ∅

/-- Every indexed pack, with the size of its header and nothing else. -/
def initialPacks : Table ID PackInfo :=
  (∅ : Table ID PackInfo).putAll ((packHeaderSizes index).entries.map fun entry =>
    (entry.1, { tpe := .unset, usedSize := entry.2 }))

/-! ## Accounting -/

/-- What the passes over the index update. -/
structure Selection where
  used : CountedHandles
  packs : Table ID PackInfo
  stats : PruneStats

def PackContent.add (content : PackContent) (type : BlobType) : PackContent :=
  match content with
  | .unset => .only type
  | .only found => if found = type then .only found else .invalid
  | .invalid => .invalid

/-- `accountIndexedBlob` -/
def accountIndexedBlob (state : Selection) (blob : IndexedBlob) : Selection :=
  let info := (state.packs.lookup blob.packID).getD {}
  let info := { info with
    tpe := info.tpe.add blob.handle.type, uncompressed := info.uncompressed || !blob.compressed }
  let size := state.stats.size
  let blobs := state.stats.blobs
  let count := (state.used.lookup blob.handle).getD 0
  if count ≥ 2 then
    { state with
      packs := state.packs.insert blob.packID { info with
        unusedSize := info.unusedSize + blob.length, unusedBlobs := info.unusedBlobs + 1
        duplicateBlobs := info.duplicateBlobs + 1 }
      stats := { state.stats with
        size := { size with duplicate := size.duplicate + blob.length }
        blobs := { blobs with duplicate := blobs.duplicate + 1 } } }
  else if count = 1 then
    { state with
      packs := state.packs.insert blob.packID { info with
        usedSize := info.usedSize + blob.length, usedBlobs := info.usedBlobs + 1 }
      stats := { state.stats with
        size := { size with used := size.used + blob.length }
        blobs := { blobs with used := blobs.used + 1 } } }
  else
    { state with
      packs := state.packs.insert blob.packID { info with
        unusedSize := info.unusedSize + blob.length, unusedBlobs := info.unusedBlobs + 1 }
      stats := { state.stats with
        size := { size with unused := size.unused + blob.length }
        blobs := { blobs with unused := blobs.unused + 1 } } }

/-- Is the blob one with several occurrences? -/
def isDuplicate (blob : IndexedBlob) : Bool :=
  decide ((used.lookup blob.handle).getD 0 ≥ 2)

/-! ## Selecting among duplicates -/

/-- The occurrence becomes the used one. -/
def useOccurrence (state : Selection) (blob : IndexedBlob) (info : PackInfo) : Selection :=
  let size := state.stats.size
  let blobs := state.stats.blobs
  { used := state.used.insert blob.handle 1
    packs := state.packs.insert blob.packID { info with
      usedSize := info.usedSize + blob.length, usedBlobs := info.usedBlobs + 1
      unusedSize := info.unusedSize - blob.length, unusedBlobs := info.unusedBlobs - 1 }
    stats := { state.stats with
      size := { size with
        used := size.used + blob.length, duplicate := size.duplicate - blob.length }
      blobs := { blobs with used := blobs.used + 1, duplicate := blobs.duplicate - 1 } } }

/-- The counter after an occurrence was passed over.  Zero stands for one occurrence
left of several. -/
def decreaseCount (count : Nat) : Nat := if count - 1 = 1 then 0 else count - 1

/-- One blob of the second pass of `packInfoFromIndex`. -/
def selectOccurrence (state : Selection) (blob : IndexedBlob) : Selection :=
  match state.used.lookup blob.handle with
  | none => state
  | some count =>
    if count = 1 then state
    else
      let info := (state.packs.lookup blob.packID).getD {}
      if info.usedBlobs > 0 ∨ info.duplicateBlobs = info.unusedBlobs ∨ count = 0 then
        useOccurrence state blob info
      else
        { state with
          used := state.used.insert blob.handle (decreaseCount count)
          packs := state.packs.insert blob.packID info }

def errIndexIncomplete : String := "index is not complete"

/-- The text of the panic that the sanity check ends in. -/
def panicBlobSelection : String := "internal error during blob selection"

/-- The state after counting and accounting. -/
def accounted : Selection :=
  index.foldl accountIndexedBlob ⟨countUsedBlobOccurrences index used, initialPacks index, {}⟩

/-- The second pass, which is made only if there are duplicates. -/
def selected : Selection :=
  if index.any (isDuplicate (countUsedBlobOccurrences index used)) then
    index.foldl selectOccurrence (accounted index used)
  else accounted index used

/-- `packInfoFromIndex` -/
def packInfoFromIndex : Result Selection :=
  if validateUsedBlobs (countUsedBlobOccurrences index used) = false then .error errIndexIncomplete
  else if (selected index used).used.entries.all fun entry => decide (entry.2 = 1) then
    .ok (selected index used)
  else .error panicBlobSelection

/-! ## What the passes do to the packs -/

/-- The pack is indexed. -/
def Indexed (pack : ID) : Prop := ∃ blob ∈ index, blob.packID = pack

end

variable {packs packs' packs'' : Table ID PackInfo} {index rest : List IndexedBlob}
  {blob : IndexedBlob} {handle : BlobHandle} {state : Selection} {used : CountedHandles}
  {count : Nat}

/-- No pack is lost and none loses used blobs. -/
def PacksGrow (packs packs' : Table ID PackInfo) : Prop :=
  ∀ pack info, packs.lookup pack = some info →
    ∃ info', packs'.lookup pack = some info' ∧ info.usedBlobs ≤ info'.usedBlobs

theorem PacksGrow.refl (packs : Table ID PackInfo) : PacksGrow packs packs :=
  fun _ info h => ⟨info, h, le_refl _⟩

theorem PacksGrow.trans (h : PacksGrow packs packs')
    (h' : PacksGrow packs' packs'') : PacksGrow packs packs'' := by
  intro pack info hinfo
  obtain ⟨info', hinfo', hle⟩ := h pack info hinfo
  obtain ⟨info'', hinfo'', hle'⟩ := h' pack info' hinfo'
  exact ⟨info'', hinfo'', hle.trans hle'⟩

theorem packsGrow_insert {pack : ID} {info : PackInfo}
    (h : ((packs.lookup pack).getD {}).usedBlobs ≤ info.usedBlobs) :
    PacksGrow packs (packs.insert pack info) := by
  intro found old hold
  rw [Table.lookup_insert_eq]
  by_cases hfound : pack = found
  · subst hfound
    rw [if_pos rfl]
    rw [hold] at h
    exact ⟨info, rfl, h⟩
  · rw [if_neg hfound]
    exact ⟨old, hold, le_refl _⟩

/-- The packs of the table are those of the index. -/
def CoversIndex (index : List IndexedBlob) (packs : Table ID PackInfo) : Prop :=
  ∀ pack, (∃ info, packs.lookup pack = some info) ↔ Indexed index pack

theorem CoversIndex.insert (h : CoversIndex index packs) (hblob : blob ∈ index) (info : PackInfo) :
    CoversIndex index (packs.insert blob.packID info) := by
  intro pack
  rw [← h, Table.lookup_insert_eq]
  by_cases hpack : blob.packID = pack
  · rw [if_pos hpack, h]
    exact ⟨fun _ => ⟨blob, hblob, hpack⟩, fun _ => ⟨info, rfl⟩⟩
  · rw [if_neg hpack]

theorem lookup_packHeaderSizes (index : List IndexedBlob) (pack : ID) :
    (∃ size, (packHeaderSizes index).lookup pack = some size) ↔ Indexed index pack := by
  have hfold : ∀ (l : List IndexedBlob) (sizes : Table ID Nat),
      (∃ size, (l.foldl addHeaderEntry sizes).lookup pack = some size) ↔
        (∃ size, sizes.lookup pack = some size) ∨ Indexed l pack := by
    intro l
    induction l with
    | nil => simp [Indexed]
    | cons blob rest ih =>
      intro sizes
      rw [List.foldl_cons, ih, addHeaderEntry, Table.lookup_insert_eq]
      by_cases hpack : blob.packID = pack <;> simp [hpack, Indexed]
  rw [packHeaderSizes, hfold]
  simp

theorem lookup_initialPacks (index : List IndexedBlob) (pack : ID) :
    (initialPacks index).lookup pack =
      ((packHeaderSizes index).lookup pack).elim ((∅ : Table ID PackInfo).lookup pack)
        fun size => some { tpe := .unset, usedSize := size } :=
  Table.lookup_putAll_entries (t := ∅) (s := packHeaderSizes index)
    (g := fun _ size => ({ tpe := .unset, usedSize := size } : PackInfo))
    Function.injective_id pack

theorem coversIndex_initialPacks (index : List IndexedBlob) :
    CoversIndex index (initialPacks index) := by
  intro pack
  rw [← lookup_packHeaderSizes, lookup_initialPacks]
  cases (packHeaderSizes index).lookup pack <;> simp

/-! ## Accounting -/

theorem accountIndexedBlob_spec (state : Selection) (blob : IndexedBlob) :
    (accountIndexedBlob state blob).used = state.used ∧
      ∃ info, (accountIndexedBlob state blob).packs = state.packs.insert blob.packID info ∧
        ((state.packs.lookup blob.packID).getD {}).usedBlobs ≤ info.usedBlobs ∧
        (state.used.lookup blob.handle = some 1 → 0 < info.usedBlobs) := by
  unfold accountIndexedBlob
  dsimp only
  split
  · rename_i hcount
    refine ⟨rfl, _, rfl, le_refl _, fun hone => ?_⟩
    simp [hone] at hcount
  · split
    · exact ⟨rfl, _, rfl, Nat.le_succ _, fun _ => Nat.succ_pos _⟩
    · rename_i hcount
      refine ⟨rfl, _, rfl, le_refl _, fun hone => ?_⟩
      simp [hone] at hcount

/-- Some occurrence of the blob lies in a pack with used blobs. -/
def Chosen (index : List IndexedBlob) (packs : Table ID PackInfo) (handle : BlobHandle) : Prop :=
  ∃ blob ∈ index, blob.handle = handle ∧
    ∃ info, packs.lookup blob.packID = some info ∧ 0 < info.usedBlobs

theorem Chosen.mono (h : Chosen index packs handle) (hgrow : PacksGrow packs packs') :
    Chosen index packs' handle := by
  obtain ⟨blob, hblob, hhandle, info, hinfo, hpos⟩ := h
  obtain ⟨info', hinfo', hle⟩ := hgrow _ _ hinfo
  exact ⟨blob, hblob, hhandle, info', hinfo', hpos.trans_le hle⟩

theorem foldl_account_used (l : List IndexedBlob) (state : Selection) :
    (l.foldl accountIndexedBlob state).used = state.used :=
  List.foldlRecOn (motive := fun after : Selection => after.used = state.used) l _ rfl
    fun _ h blob _ => (accountIndexedBlob_spec _ blob).1.trans h

theorem foldl_account_grow (l : List IndexedBlob) (state : Selection) :
    PacksGrow state.packs (l.foldl accountIndexedBlob state).packs := by
  refine List.foldlRecOn (motive := fun after : Selection => PacksGrow state.packs after.packs) l _
    (PacksGrow.refl _) fun after h blob _ => h.trans ?_
  obtain ⟨-, info, hpacks, hle, -⟩ := accountIndexedBlob_spec after blob
  rw [hpacks]
  exact packsGrow_insert hle

theorem foldl_account_covers (h : CoversIndex index state.packs) :
    CoversIndex index (index.foldl accountIndexedBlob state).packs := by
  refine List.foldlRecOn (motive := fun after : Selection => CoversIndex index after.packs)
    index _ h fun after h blob hblob => ?_
  obtain ⟨-, info, hpacks, -, -⟩ := accountIndexedBlob_spec after blob
  rw [hpacks]
  exact h.insert hblob info

/-- A blob that occurs once is counted as used in its pack. -/
theorem foldl_account_chosen {l : List IndexedBlob}
    (hblob : blob ∈ l) (hone : state.used.lookup blob.handle = some 1) :
    ∃ info, (l.foldl accountIndexedBlob state).packs.lookup blob.packID = some info ∧
      0 < info.usedBlobs := by
  induction l generalizing state with
  | nil => simp at hblob
  | cons first rest ih =>
    obtain ⟨hused, info, hpacks, -, hpos⟩ := accountIndexedBlob_spec state first
    rw [List.foldl_cons]
    rcases List.mem_cons.mp hblob with rfl | hblob
    · have hnow : (accountIndexedBlob state blob).packs.lookup blob.packID = some info := by
        rw [hpacks, AList.lookup_insert]
      obtain ⟨info', hinfo', hle⟩ := foldl_account_grow rest _ _ _ hnow
      exact ⟨info', hinfo', (hpos hone).trans_le hle⟩
    · exact ih hblob (by rw [hused]; exact hone)

/-! ## Counting -/

/-- How often the index lists a blob. -/
def occurrences (index : List IndexedBlob) (handle : BlobHandle) : Nat :=
  index.countP fun blob => decide (blob.handle = handle)

theorem occurrences_cons (blob : IndexedBlob) (rest : List IndexedBlob) (handle : BlobHandle) :
    occurrences (blob :: rest) handle =
      occurrences rest handle + if blob.handle = handle then 1 else 0 := by
  simp only [occurrences, List.countP_cons, decide_eq_true_eq]

theorem lookup_countOccurrence (used : CountedHandles) (blob : IndexedBlob) (handle : BlobHandle) :
    (countOccurrence used blob).lookup handle =
      (used.lookup handle).map fun count =>
        if blob.handle = handle ∧ count < maxCount then count + 1 else count := by
  unfold countOccurrence
  cases hblob : used.lookup blob.handle with
  | none =>
    by_cases hhandle : blob.handle = handle
    · rw [← hhandle, hblob]
      rfl
    · simp [hhandle]
  | some count =>
    dsimp only
    rw [Table.lookup_insert_eq]
    by_cases hhandle : blob.handle = handle
    · rw [if_pos hhandle, ← hhandle, hblob]
      simp
    · simp [hhandle]

/-- The counter of a used blob is the number of its occurrences, up to its largest
value. -/
theorem lookup_countUsedBlobOccurrences
    (hcount : used.lookup handle = some count) (hle : count ≤ maxCount) :
    (countUsedBlobOccurrences index used).lookup handle =
      some (min maxCount (count + occurrences index handle)) := by
  induction index generalizing used count with
  | nil =>
    rw [countUsedBlobOccurrences, List.foldl_nil, hcount]
    simp [occurrences, hle]
  | cons blob rest ih =>
    have hnext := lookup_countOccurrence used blob handle
    rw [hcount, Option.map_some] at hnext
    have hstep := ih hnext (by split <;> omega)
    unfold countUsedBlobOccurrences at hstep ⊢
    rw [List.foldl_cons, hstep, occurrences_cons]
    by_cases hhandle : blob.handle = handle <;> by_cases hlt : count < maxCount <;>
      simp [hhandle, hlt] <;> omega

theorem lookup_countUsedBlobOccurrences_none (hnone : used.lookup handle = none) :
    (countUsedBlobOccurrences index used).lookup handle = none := by
  induction index generalizing used with
  | nil => exact hnone
  | cons blob rest ih =>
    refine ih ?_
    rw [lookup_countOccurrence, hnone]
    rfl

/-! ## Selecting among duplicates -/

/-- What one step of the second pass can do. -/
theorem selectOccurrence_cases (state : Selection) (blob : IndexedBlob) :
    (selectOccurrence state blob = state ∧
        ∀ count, state.used.lookup blob.handle = some count → count = 1) ∨
      ∃ count info next, state.used.lookup blob.handle = some count ∧ count ≠ 1 ∧
        (selectOccurrence state blob).used = state.used.insert blob.handle next ∧
        (selectOccurrence state blob).packs = state.packs.insert blob.packID info ∧
        ((state.packs.lookup blob.packID).getD {}).usedBlobs ≤ info.usedBlobs ∧
        ((next = 1 ∧ 0 < info.usedBlobs) ∨ (count ≠ 0 ∧ next = decreaseCount count)) := by
  unfold selectOccurrence
  cases hlook : state.used.lookup blob.handle with
  | none => exact .inl ⟨rfl, by simp⟩
  | some count =>
    dsimp only
    by_cases hone : count = 1
    · rw [if_pos hone]
      exact .inl ⟨rfl, by simpa using hone⟩
    rw [if_neg hone]
    refine .inr ⟨count, ?_⟩
    split
    · exact ⟨_, 1, rfl, hone, rfl, rfl, Nat.le_succ _, .inl ⟨rfl, Nat.succ_pos _⟩⟩
    · rename_i hskip
      refine ⟨_, decreaseCount count, rfl, hone, rfl, rfl, le_refl _, .inr ⟨?_, rfl⟩⟩
      exact fun hzero => hskip (.inr (.inr hzero))

/-- How far the selection of a blob is, with part of the index to come: done, or
enough occurrences are left for the counter. -/
def Progress (index rest : List IndexedBlob) (state : Selection) : Prop :=
  ∀ handle count, state.used.lookup handle = some count →
    (count = 1 ∧ Chosen index state.packs handle) ∨
      (count = 0 ∧ 1 ≤ occurrences rest handle) ∨
      (2 ≤ count ∧ count ≤ occurrences rest handle)

theorem selectOccurrence_grow (state : Selection) (blob : IndexedBlob) :
    PacksGrow state.packs (selectOccurrence state blob).packs := by
  rcases selectOccurrence_cases state blob with ⟨hsame, -⟩ | ⟨_, info, _, -, -, -, hpacks, hle, -⟩
  · rw [hsame]
    exact PacksGrow.refl _
  · rw [hpacks]
    exact packsGrow_insert hle

theorem Progress.step (h : Progress index (blob :: rest) state) (hblob : blob ∈ index) :
    Progress index rest (selectOccurrence state blob) := by
  intro handle count hcount
  have hgrow := selectOccurrence_grow state blob
  rcases selectOccurrence_cases state blob with ⟨hsame, hone⟩ |
    ⟨old, info, next, hold, hne, hused, hpacks, -, hnext⟩
  · rw [hsame] at hcount ⊢
    have hbefore := h handle count hcount
    rw [occurrences_cons] at hbefore
    by_cases hhandle : blob.handle = handle
    · rw [← hhandle] at hcount
      have hdone := hone count hcount
      rcases hbefore with hchosen | ⟨hzero, -⟩ | ⟨htwo, -⟩
      · exact .inl hchosen
      · omega
      · omega
    · rw [if_neg hhandle] at hbefore
      exact hbefore
  · rw [hused, Table.lookup_insert_eq] at hcount
    by_cases hhandle : blob.handle = handle
    · rw [if_pos hhandle] at hcount
      obtain rfl := Option.some.inj hcount
      rcases hnext with ⟨rfl, hpos⟩ | ⟨hzero, rfl⟩
      · refine .inl ⟨rfl, blob, hblob, hhandle, info, ?_, hpos⟩
        rw [hpacks, AList.lookup_insert]
      -- The counter was at least two, and one occurrence fewer is left.
      rw [hhandle] at hold
      have hbefore := h handle old hold
      rw [occurrences_cons, if_pos hhandle] at hbefore
      rcases hbefore with ⟨hone, -⟩ | ⟨hzero', -⟩ | ⟨htwo, hle⟩
      · exact absurd hone hne
      · exact absurd hzero' hzero
      · unfold decreaseCount
        split <;> omega
    · rw [if_neg hhandle] at hcount
      have hbefore := h handle count hcount
      rw [occurrences_cons, if_neg hhandle] at hbefore
      rcases hbefore with ⟨hdone, hchosen⟩ | hpending
      · exact .inl ⟨hdone, hchosen.mono hgrow⟩
      · exact .inr hpending

/-- At the end of the pass every used blob has its occurrence. -/
theorem Progress.foldl (h : Progress index rest state) (hrest : rest ⊆ index) :
    Progress index [] (rest.foldl selectOccurrence state) := by
  induction rest generalizing state with
  | nil => exact h
  | cons blob rest ih =>
    exact ih (h.step (hrest (.head _))) (List.subset_of_cons_subset hrest)

theorem Progress.done (h : Progress index [] state)
    (hcount : state.used.lookup handle = some count) :
    count = 1 ∧ Chosen index state.packs handle := by
  rcases h handle count hcount with hdone | ⟨-, hocc⟩ | ⟨htwo, hocc⟩
  · exact hdone
  · simp [occurrences] at hocc
  · simp only [occurrences, List.countP_nil] at hocc
    omega

theorem foldl_select_covers (h : CoversIndex index state.packs) :
    CoversIndex index (index.foldl selectOccurrence state).packs := by
  refine List.foldlRecOn (motive := fun after : Selection => CoversIndex index after.packs)
    index _ h fun after h blob hblob => ?_
  rcases selectOccurrence_cases after blob with ⟨hsame, -⟩ | ⟨_, info, _, -, -, -, hpacks, -, -⟩
  · rw [hsame]
    exact h
  · rw [hpacks]
    exact h.insert hblob info

theorem foldl_select_handles (l : List IndexedBlob) (state : Selection) (handle : BlobHandle) :
    ((l.foldl selectOccurrence state).used.lookup handle = none) ↔
      state.used.lookup handle = none := by
  induction l generalizing state with
  | nil => rfl
  | cons blob rest ih =>
    rw [List.foldl_cons, ih]
    rcases selectOccurrence_cases state blob with ⟨hsame, -⟩ | ⟨_, _, _, hold, -, hused, -⟩
    · rw [hsame]
    rw [hused, Table.lookup_insert_eq]
    by_cases hhandle : blob.handle = handle
    · rw [if_pos hhandle, ← hhandle, hold]
      simp
    · rw [if_neg hhandle]

/-! ## The whole selection -/

/-- What the selection leaves for the rest of the plan. -/
structure Selected (index : List IndexedBlob) (used : CountedHandles) (result : Selection) :
    Prop where
  /-- The handles are those that are used. -/
  handles : ∀ handle, result.used.lookup handle = none ↔ used.lookup handle = none
  /-- Each has an occurrence in a pack with used blobs. -/
  chosen : ∀ handle, used.lookup handle ≠ none → Chosen index result.packs handle
  /-- The packs are the indexed ones. -/
  packs : CoversIndex index result.packs

theorem accounted_used : (accounted index used).used = countUsedBlobOccurrences index used :=
  foldl_account_used _ _

theorem accounted_covers : CoversIndex index (accounted index used).packs :=
  foldl_account_covers (coversIndex_initialPacks index)

theorem selected_covers : CoversIndex index (selected index used).packs := by
  unfold selected
  split
  · exact foldl_select_covers accounted_covers
  · exact accounted_covers

section

variable (hzero : ∀ handle count, used.lookup handle = some count → count = 0)
include hzero

/-- With counters that started at zero. -/
theorem counted_eq (h : (countUsedBlobOccurrences index used).lookup handle = some count) :
    used.lookup handle ≠ none ∧ count = min maxCount (occurrences index handle) := by
  cases hused : used.lookup handle with
  | none =>
    rw [lookup_countUsedBlobOccurrences_none hused] at h
    cases h
  | some start =>
    obtain rfl := hzero handle start hused
    rw [lookup_countUsedBlobOccurrences hused (Nat.zero_le _), Nat.zero_add] at h
    exact ⟨nofun, (Option.some.inj h).symm⟩

section

variable (hvalid : validateUsedBlobs (countUsedBlobOccurrences index used) = true)
include hvalid

/-- Before the second pass, with counters that found their blobs. -/
theorem accounted_progress : Progress index index (accounted index used) := by
  intro handle count hcount
  rw [accounted_used] at hcount
  have hfound : count ≠ 0 := by
    have hall := List.all_eq_true.mp hvalid ⟨handle, count⟩ (Table.mem_entries_iff.mpr hcount)
    exact of_decide_eq_true hall
  obtain ⟨-, hmin⟩ := counted_eq hzero hcount
  by_cases hone : count = 1
  · -- The only occurrence is counted as used.
    refine .inl ⟨hone, ?_⟩
    have hpos : 0 < occurrences index handle := by
      unfold maxCount at hmin
      omega
    obtain ⟨blob, hblob, hhandle⟩ := List.countP_pos_iff.mp hpos
    have hhandle := of_decide_eq_true hhandle
    refine ⟨blob, hblob, hhandle, foldl_account_chosen hblob ?_⟩
    rw [hhandle, hcount, hone]
  · exact .inr (.inr ⟨by omega, by omega⟩)

/-- Without duplicates every counter is one. -/
theorem accounted_ones
    (hnone : index.any (isDuplicate (countUsedBlobOccurrences index used)) = false) :
    Progress index [] (accounted index used) := by
  intro handle count hcount
  rcases accounted_progress hzero hvalid handle count hcount with hdone | ⟨rfl, -⟩ | ⟨htwo, hocc⟩
  · exact .inl hdone
  · rw [accounted_used] at hcount
    have hall := List.all_eq_true.mp hvalid ⟨handle, 0⟩ (Table.mem_entries_iff.mpr hcount)
    exact absurd rfl (of_decide_eq_true hall)
  · exfalso
    obtain ⟨blob, hblob, hhandle⟩ := List.countP_pos_iff.mp (Nat.zero_lt_two.trans_le
      (htwo.trans hocc))
    obtain rfl : blob.handle = handle := of_decide_eq_true hhandle
    rw [accounted_used] at hcount
    have hsingle := List.any_eq_false.mp hnone blob hblob
    simp only [isDuplicate, hcount, Option.getD_some, decide_eq_true_eq] at hsingle
    exact hsingle htwo

end

theorem accounted_handles (handle : BlobHandle) :
    (accounted index used).used.lookup handle = none ↔ used.lookup handle = none := by
  rw [accounted_used]
  constructor
  · intro hnone
    cases hused : used.lookup handle with
    | none => rfl
    | some start =>
      obtain rfl := hzero handle start hused
      rw [lookup_countUsedBlobOccurrences hused (Nat.zero_le _)] at hnone
      cases hnone
  · exact lookup_countUsedBlobOccurrences_none

/-- Both ways through the code end with every blob selected. -/
theorem selected_progress
    (hvalid : validateUsedBlobs (countUsedBlobOccurrences index used) = true) :
    Progress index [] (selected index used) := by
  unfold selected
  split
  · exact (accounted_progress hzero hvalid).foldl (List.Subset.refl _)
  · rename_i hnone
    exact accounted_ones hzero hvalid (by simpa using hnone)

theorem selected_handles (handle : BlobHandle) :
    (selected index used).used.lookup handle = none ↔ used.lookup handle = none := by
  unfold selected
  split
  · rw [foldl_select_handles, accounted_handles hzero]
  · exact accounted_handles hzero handle

/-- The sanity check at the end always passes, for any number of duplicates. -/
theorem packInfoFromIndex_of_valid
    (hvalid : validateUsedBlobs (countUsedBlobOccurrences index used) = true) :
    packInfoFromIndex index used = .ok (selected index used) := by
  unfold packInfoFromIndex
  rw [hvalid, if_neg Bool.true_eq_false.mp, if_pos]
  refine List.all_eq_true.mpr fun entry hentry => decide_eq_true ?_
  exact ((selected_progress hzero hvalid).done (Table.mem_entries_iff.mp hentry)).1

/-- The selection fails only where a used blob is missing from the index. -/
theorem packInfoFromIndex_cases :
    packInfoFromIndex index used = .error errIndexIncomplete ∨
      packInfoFromIndex index used = .ok (selected index used) ∧
        Selected index used (selected index used) := by
  cases hvalid : validateUsedBlobs (countUsedBlobOccurrences index used) with
  | false => exact .inl (if_pos hvalid)
  | true =>
    refine .inr ⟨packInfoFromIndex_of_valid hzero hvalid, selected_handles hzero, ?_,
      selected_covers⟩
    intro handle hused
    obtain ⟨count, hcount⟩ := Option.ne_none_iff_exists'.mp
      (fun hnone => hused ((selected_handles hzero handle).mp hnone))
    exact ((selected_progress hzero hvalid).done hcount).2

end

end Vaultic.Repository
