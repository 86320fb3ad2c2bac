/-
  Repository/IndexRewrite.lean  —  `MasterIndex.Rewrite`.

  Source: internal/repository/index/master_index.go, index.go.

  The rewriter takes the loaded index files in the order they arrive.  A file that is
  full, lists no excluded pack and repeats no group of blobs already taken is kept as it
  is; any other file is marked obsolete and its groups, one for each pack, are copied
  into new index files.  A group is recognised by the hash of its pack and its sorted
  blobs and is taken once.

  What the run depends on besides the files is part of an `Arrival`: the age of the
  loaded index, and the order in which the map of its packs is walked, with the age of
  the new index at each step.  The sort is any permutation, since the source sorts by
  offset with a sort that is not stable.
-/
import Vaultic.Repository.IndexFile
import Vaultic.Wire.Codec

set_option autoImplicit false

namespace Vaultic.Repository.IndexRewrite

open Vaultic.Lib
open Vaultic.Schema (ID)
open Vaultic.Wire (idBytes length_idBytes idOf_idBytes)
open Vaultic.Repository.IndexFile

/-! ## Hashes of groups -/

/-- What `PackBlobsHash` uses of other packages. -/
structure Host (Digest : Type) where
  sha256 : Bytes → Digest
  sort : List Blob → List Blob
  sort_perm : ∀ blobs, (sort blobs).Perm blobs

def blobBytes (blob : Blob) : Bytes :=
  idBytes blob.id ++ (leBytes 4 blob.type.code ++ (leBytes 4 blob.offset.toNat ++
    (leBytes 4 blob.length.toNat ++ leBytes 4 blob.uncompressedLength.toNat)))

variable {Digest : Type}

/-- What `PackBlobsHash` hashes. -/
def hashInput (host : Host Digest) (pack : ID) (blobs : List Blob) : Bytes :=
  idBytes pack ++ (host.sort blobs).flatMap blobBytes

def packBlobsHash (host : Host Digest) (pack : ID) (blobs : List Blob) : Digest :=
  host.sha256 (hashInput host pack blobs)

/-! ## Groups and their hashes -/

theorem leBytes_uint32_inj {a b : UInt32} (h : leBytes 4 a.toNat = leBytes 4 b.toNat) : a = b :=
  UInt32.toNat_inj.mp (leBytes_inj a.toNat_lt b.toNat_lt h)

theorem idBytes_inj {a b : ID} (h : idBytes a = idBytes b) : a = b := by
  rw [← idOf_idBytes a, h, idOf_idBytes]

theorem length_blobBytes (blob : Blob) : (blobBytes blob).length = 48 := by
  simp [blobBytes]

theorem blobBytes_inj : Function.Injective blobBytes := by
  intro a b h
  obtain ⟨hid, h⟩ := List.append_inj h (by simp)
  obtain ⟨htype, h⟩ := List.append_inj h (by simp)
  obtain ⟨hoffset, h⟩ := List.append_inj h (by simp)
  obtain ⟨hlength, huncompressed⟩ := List.append_inj h (by simp)
  have htype := BlobType.code_inj (leBytes_inj a.type.code_lt b.type.code_lt htype)
  cases a
  cases b
  cases idBytes_inj hid
  cases htype
  cases leBytes_uint32_inj hoffset
  cases leBytes_uint32_inj hlength
  cases leBytes_uint32_inj huncompressed
  rfl

/-- What is hashed determines the group up to the order of its blobs. -/
theorem hashInput_inj {host : Host Digest} {pack pack' : ID} {blobs blobs' : List Blob}
    (h : hashInput host pack blobs = hashInput host pack' blobs') :
    pack = pack' ∧ blobs.Perm blobs' := by
  obtain ⟨hpack, hblobs⟩ := List.append_inj h (by simp)
  have hsorted := flatMap_inj (by decide : 0 < 48) length_blobBytes blobBytes_inj hblobs
  exact ⟨idBytes_inj hpack,
    (host.sort_perm blobs).symm.trans (hsorted ▸ host.sort_perm blobs')⟩

/-- The entries of a group. -/
def group (index : Index) (pack : ID) : Set Entry :=
  {entry | entry.pack = pack ∧ entry.blob ∈ packBlobs index pack}

variable {entry : Entry} {pack : ID}

theorem mem_group {index : Index} :
    entry ∈ group index pack ↔ entry.pack = pack ∧ entry ∈ index.values := by
  refine and_congr_right fun hpack => ?_
  rw [mem_packBlobs, ← hpack]

/-- The groups of an index that are not excluded have its entries that are not. -/
theorem exists_mem_group {exclude : Finset ID} {index : Index} (hfinal : index.final = true) :
    (∃ pack ∈ eachPack exclude index, entry ∈ group index pack) ↔
      entry ∈ index.values ∧ entry.pack ∉ exclude := by
  constructor
  · rintro ⟨pack, hpack, hentry⟩
    obtain ⟨rfl, hvalue⟩ := mem_group.mp hentry
    exact ⟨hvalue, ((mem_eachPack hfinal).mp hpack).1⟩
  · rintro ⟨hvalue, hkeep⟩
    exact ⟨entry.pack, (mem_eachPack hfinal).mpr ⟨hkeep, entry.blob, hvalue⟩,
      mem_group.mpr ⟨rfl, hvalue⟩⟩

/-! ## The rewriter -/

/-- A loaded index file, with what the run depends on when it is its turn. -/
structure Arrival (exclude : Finset ID) where
  id : ID
  packs : List PackJSON
  /-- The age of the loaded index. -/
  age : Nat
  /-- The packs in the order they are copied, each with the age of the new index then. -/
  visits : List (ID × Nat)
  visits_perm : (visits.map Prod.fst).Perm (eachPack exclude (decodeIndex packs id))

def Arrival.index {exclude : Finset ID} (arrival : Arrival exclude) : Index :=
  decodeIndex arrival.packs arrival.id

/-- The groups taken so far, the new index, and the indexes sent to be saved. -/
structure Progress (Digest : Type) where
  packBlobsIDs : List Digest := []
  newIndex : Index := {}
  sent : List Index := []

structure Rewriter (Digest : Type) (exclude : Finset ID) extends Progress Digest where
  kept : List (Arrival exclude) := []
  obsolete : Finset ID

section
variable [DecidableEq Digest] (host : Host Digest)

def hashes (exclude : Finset ID) (index : Index) : List Digest :=
  (eachPack exclude index).map fun pack => packBlobsHash host pack (packBlobs index pack)

def keepCurrentIndex (exclude : Finset ID) (age : Nat) (index : Index)
    (packBlobsIDs : List Digest) : Bool :=
  if (index.packs.any fun pack => pack ∈ exclude) || !full age index || oversized index then false
  else (hashes host exclude index).all fun hash => hash ∉ packBlobsIDs

/-- One pack of `copyIndexPacks`. -/
def copyPack (index : Index) (progress : Progress Digest) (visit : ID × Nat) : Progress Digest :=
  let blobs := packBlobs index visit.1
  let hash := packBlobsHash host visit.1 blobs
  if hash ∈ progress.packBlobsIDs then progress
  else
    let newIndex := progress.newIndex.storePack visit.1 blobs
    if full visit.2 newIndex then
      { packBlobsIDs := hash :: progress.packBlobsIDs, sent := progress.sent ++ [newIndex] }
    else { progress with packBlobsIDs := hash :: progress.packBlobsIDs, newIndex }

def copyIndexPacks (index : Index) (visits : List (ID × Nat)) (progress : Progress Digest) :
    Progress Digest :=
  visits.foldl (copyPack host index) progress

variable {exclude : Finset ID}

/-- The body of the loop of `rewriteIndexes`. -/
def rewriteIndex (state : Rewriter Digest exclude) (arrival : Arrival exclude) :
    Rewriter Digest exclude :=
  let index := arrival.index
  if keepCurrentIndex host exclude arrival.age index state.packBlobsIDs then
    { state with
      packBlobsIDs := hashes host exclude index ++ state.packBlobsIDs
      kept := state.kept ++ [arrival] }
  else
    { copyIndexPacks host index arrival.visits state.toProgress with
      kept := state.kept
      obsolete := state.obsolete ∪ index.ids.toFinset }

def rewriteIndexes (extraObsolete : Finset ID) (arrivals : List (Arrival exclude)) :
    Rewriter Digest exclude :=
  arrivals.foldl (rewriteIndex host) { obsolete := extraObsolete }

/-- The files a rewrite leaves, and those it reports. -/
structure Rewritten (exclude : Finset ID) where
  kept : List (Arrival exclude)
  saved : List (List PackJSON)
  obsolete : Finset ID

/-- `Rewrite`, up to the deletion of the obsolete files; an index without packs is not
saved. -/
def rewrite (extraObsolete : Finset ID) (arrivals : List (Arrival exclude)) :
    Result (Rewritten exclude) := do
  let state := rewriteIndexes host extraObsolete arrivals
  let saved ← (((state.sent ++ [state.newIndex]).filter
    fun index => !index.packs.isEmpty).map saveIndex).mapM id
  pure { kept := state.kept, saved, obsolete := state.obsolete }

end

/-! ## One group, one file, all files -/

/-- The indexes that are saved if no other file arrives. -/
def Progress.indexes (progress : Progress Digest) : List Index :=
  progress.sent ++ [progress.newIndex]

def Progress.copied (progress : Progress Digest) : Set Entry :=
  {entry | ∃ index ∈ progress.indexes, entry ∈ index.values}

variable {host : Host Digest} {hashed : Set Bytes}

/-- `contents` are the entries taken so far, and every recorded hash is the hash of a
group among them. -/
structure Tracks (host : Host Digest) (hashed : Set Bytes) (progress : Progress Digest)
    (contents : Set Entry) : Prop where
  wellFormed : ∀ index ∈ progress.indexes, index.WellFormed
  seen : ∀ hash ∈ progress.packBlobsIDs, ∃ index pack,
    hashInput host pack (packBlobs index pack) ∈ hashed ∧
      hash = packBlobsHash host pack (packBlobs index pack) ∧ group index pack ⊆ contents

variable {progress : Progress Digest}

/-- A recorded hash says that the group has been taken. -/
theorem Tracks.group_subset {contents : Set Entry}
    (h : Tracks host hashed progress contents) (hinj : Set.InjOn host.sha256 hashed)
    {index : Index} (hinput : hashInput host pack (packBlobs index pack) ∈ hashed)
    (hseen : packBlobsHash host pack (packBlobs index pack) ∈ progress.packBlobsIDs) :
    group index pack ⊆ contents := by
  obtain ⟨index', pack', hinput', hhash, hcontents⟩ := h.seen _ hseen
  obtain ⟨rfl, hperm⟩ := hashInput_inj (hinj hinput hinput' hhash)
  exact fun entry hentry => hcontents ⟨hentry.1, hperm.subset hentry.2⟩

section
variable [DecidableEq Digest]

/-- A group that was taken changes nothing; any other is put into the new index, and an
index that is sent is followed by an empty one. -/
theorem copyPack_cases (host : Host Digest) (index : Index) (progress : Progress Digest)
    (visit : ID × Nat) :
    let hash := packBlobsHash host visit.1 (packBlobs index visit.1)
    let indexes := progress.sent ++
      [progress.newIndex.storePack visit.1 (packBlobs index visit.1)]
    let next := copyPack host index progress visit
    hash ∈ progress.packBlobsIDs ∧ next = progress ∨
      next.packBlobsIDs = hash :: progress.packBlobsIDs ∧
        (next.indexes = indexes ∨ next.indexes = indexes ++ [({} : Index)]) := by
  intro hash indexes next
  by_cases hseen : hash ∈ progress.packBlobsIDs
  · exact .inl ⟨hseen, if_pos hseen⟩
  have hnext : next = _ := if_neg hseen
  refine .inr ?_
  rw [hnext]
  split_ifs
  · exact ⟨rfl, .inr rfl⟩
  · exact ⟨rfl, .inl rfl⟩

omit [DecidableEq Digest] in
/-- The indexes after a group has been put into the new one. -/
theorem storePack_indexes (h : ∀ index ∈ progress.indexes, index.WellFormed) {blobs : List Blob}
    {indexes : List Index}
    (hindexes : indexes = progress.sent ++ [progress.newIndex.storePack pack blobs] ∨
      indexes = progress.sent ++ [progress.newIndex.storePack pack blobs] ++ [({} : Index)]) :
    (∀ index ∈ indexes, index.WellFormed) ∧
      ∀ entry, (∃ index ∈ indexes, entry ∈ index.values) ↔
        entry ∈ progress.copied ∨ entry.pack = pack ∧ entry.blob ∈ blobs := by
  have hnew : progress.newIndex.WellFormed := h _ (by simp [Progress.indexes])
  have hsent : ∀ index ∈ progress.sent, index.WellFormed :=
    fun index hindex => h _ (List.mem_append_left _ hindex)
  have hempty : ∀ entry : Entry, entry ∉ ({} : Index).values := by simp [Index.mem_values]
  have hcopied : ∀ entry : Entry, entry ∈ progress.copied ↔
      (∃ index ∈ progress.sent, entry ∈ index.values) ∨ entry ∈ progress.newIndex.values := by
    intro entry
    simp [Progress.copied, Progress.indexes, or_and_right, exists_or]
  refine ⟨fun index hindex => ?_, fun entry => ?_⟩
  · have hcase : index ∈ progress.sent ∨ index = progress.newIndex.storePack pack blobs ∨
        index = {} := by
      rcases hindexes with rfl | rfl
      · exact or_assoc.mp (.inl (by simpa using hindex))
      · simpa using hindex
    rcases hcase with hmem | rfl | rfl
    · exact hsent _ hmem
    · exact hnew.storePack _ _
    · exact Index.wellFormed_empty
  · rw [hcopied, or_assoc, ← Index.mem_values_storePack hnew]
    rcases hindexes with rfl | rfl
    · simp [or_and_right, exists_or]
    · simp [or_and_right, exists_or, hempty]

/-- One step: the group is taken, unless it was. -/
theorem copyPack_spec {kept : Set Entry} (h : Tracks host hashed progress (kept ∪ progress.copied))
    (hinj : Set.InjOn host.sha256 hashed) {index : Index} {visit : ID × Nat}
    (hinput : hashInput host visit.1 (packBlobs index visit.1) ∈ hashed) :
    let next := copyPack host index progress visit
    Tracks host hashed next (kept ∪ next.copied) ∧
      kept ∪ next.copied = kept ∪ progress.copied ∪ group index visit.1 := by
  intro next
  rcases copyPack_cases host index progress visit with ⟨hseen, hnext⟩ | ⟨hids, hindexes⟩
  · have hsame : next = progress := hnext
    rw [hsame]
    exact ⟨h, (Set.union_eq_self_of_subset_right (h.group_subset hinj hinput hseen)).symm⟩
  · obtain ⟨hformed, hmem⟩ := storePack_indexes h.wellFormed hindexes
    have hcontents : kept ∪ next.copied = kept ∪ progress.copied ∪ group index visit.1 := by
      have hcopied : next.copied = progress.copied ∪ group index visit.1 := Set.ext hmem
      rw [hcopied, Set.union_assoc]
    refine ⟨⟨hformed, fun hash hhash => ?_⟩, hcontents⟩
    rw [hcontents]
    rcases List.mem_cons.mp (hids ▸ hhash) with rfl | hold
    · exact ⟨index, visit.1, hinput, rfl, Set.subset_union_right⟩
    · obtain ⟨index', pack', hinput', hhash', hsub⟩ := h.seen _ hold
      exact ⟨index', pack', hinput', hhash', hsub.trans Set.subset_union_left⟩

/-- All packs of a file: every group is taken. -/
theorem copyIndexPacks_spec {index : Index} (visits : List (ID × Nat)) {kept : Set Entry}
    (h : Tracks host hashed progress (kept ∪ progress.copied)) (hinj : Set.InjOn host.sha256 hashed)
    (hinput : ∀ visit ∈ visits, hashInput host visit.1 (packBlobs index visit.1) ∈ hashed) :
    let next := copyIndexPacks host index visits progress
    Tracks host hashed next (kept ∪ next.copied) ∧
      ∀ entry, entry ∈ kept ∪ next.copied ↔
        entry ∈ kept ∪ progress.copied ∨ ∃ visit ∈ visits, entry ∈ group index visit.1 := by
  induction visits generalizing progress with
  | nil => exact ⟨h, fun entry => by simp [copyIndexPacks]⟩
  | cons visit visits ih =>
    obtain ⟨hstep, hcontents⟩ := copyPack_spec h hinj (hinput visit (.head _))
    obtain ⟨hrest, hmem⟩ := ih hstep fun other hother => hinput other (.tail _ hother)
    refine ⟨hrest, fun entry => (hmem entry).trans ?_⟩
    rw [hcontents, Set.mem_union _ _ (group index visit.1), or_assoc]
    simp

end

variable {exclude : Finset ID}

/-- The strings hashed while these files are rewritten. -/
def hashedInputs (host : Host Digest) (arrivals : List (Arrival exclude)) : Set Bytes :=
  {input | ∃ arrival ∈ arrivals, ∃ pack ∈ eachPack exclude arrival.index,
    input = hashInput host pack (packBlobs arrival.index pack)}

/-- The entries of the files kept so far. -/
def Rewriter.keptEntries (state : Rewriter Digest exclude) : Set Entry :=
  {entry | ∃ arrival ∈ state.kept, entry ∈ entries arrival.packs}

def Rewriter.contents (state : Rewriter Digest exclude) : Set Entry :=
  state.keptEntries ∪ state.copied

/-- The entries of these files outside the excluded packs. -/
def retained (arrivals : List (Arrival exclude)) : Set Entry :=
  {entry | ∃ arrival ∈ arrivals, entry ∈ entries arrival.packs ∧ entry.pack ∉ exclude}

variable {arrival : Arrival exclude}

theorem Arrival.mem_values : entry ∈ arrival.index.values ↔ entry ∈ entries arrival.packs :=
  mem_values_decodeIndex

/-- A file whose packs are not excluded has no entry of an excluded pack. -/
theorem Arrival.pack_notMem (h : (arrival.index.packs.any fun pack => pack ∈ exclude) = false)
    (hentry : entry ∈ entries arrival.packs) : entry.pack ∉ exclude := by
  obtain ⟨pack, hpack, hid, -⟩ := mem_entries.mp hentry
  have hmem : entry.pack ∈ arrival.index.packs := by
    rw [Arrival.index, packs_decodeIndex, ← hid]
    exact List.mem_map_of_mem hpack
  simpa using List.any_eq_false.mp h _ hmem

/-- What the rewriter has done with the files that arrived. -/
structure Rewrites (host : Host Digest) (hashed : Set Bytes) (extraObsolete : Finset ID)
    (arrivals : List (Arrival exclude)) (state : Rewriter Digest exclude) : Prop where
  tracks : Tracks host hashed state.toProgress state.contents
  contents : state.contents = retained arrivals
  kept : state.kept.Sublist arrivals
  obsolete : state.obsolete = extraObsolete ∪
    ((arrivals.map (·.id)).toFinset \ (state.kept.map (·.id)).toFinset)

theorem rewrites_nil (extraObsolete : Finset ID) :
    Rewrites host hashed extraObsolete []
      ({ obsolete := extraObsolete } : Rewriter Digest exclude) where
  tracks := by
    refine ⟨fun index hindex => ?_, fun hash hhash => by simp at hhash⟩
    rw [List.mem_singleton.mp hindex]
    exact Index.wellFormed_empty
  contents := by
    ext entry
    simp [Rewriter.contents, Rewriter.keptEntries, Progress.copied, Progress.indexes, retained,
      Index.mem_values]
  kept := List.Sublist.slnil
  obsolete := by simp

variable {arrivals : List (Arrival exclude)}

theorem mem_retained_append :
    entry ∈ retained (arrivals ++ [arrival]) ↔
      entry ∈ retained arrivals ∨ entry ∈ entries arrival.packs ∧ entry.pack ∉ exclude := by
  simp [retained, or_and_right, exists_or]

section
variable [DecidableEq Digest] {extraObsolete : Finset ID} {arrivals : List (Arrival exclude)}
  {state : Rewriter Digest exclude} {arrival : Arrival exclude}

omit [DecidableEq Digest] in
/-- A file that is kept. -/
theorem Rewrites.keep (h : Rewrites host hashed extraObsolete arrivals state)
    (hhashed : hashedInputs host [arrival] ⊆ hashed) (hfresh : arrival.id ∉ arrivals.map (·.id))
    (hpacks : (arrival.index.packs.any fun pack => pack ∈ exclude) = false) :
    Rewrites host hashed extraObsolete (arrivals ++ [arrival])
      { state with
        packBlobsIDs := hashes host exclude arrival.index ++ state.packBlobsIDs
        kept := state.kept ++ [arrival] } := by
  have hcontents : ∀ entry, entry ∈ ({ state with
        packBlobsIDs := hashes host exclude arrival.index ++ state.packBlobsIDs
        kept := state.kept ++ [arrival] } : Rewriter Digest exclude).contents ↔
      entry ∈ state.contents ∨ entry ∈ entries arrival.packs := by
    intro entry
    simp only [Rewriter.contents, Rewriter.keptEntries, Set.mem_union, Set.mem_ofPred_eq,
      List.mem_append, List.mem_singleton, or_and_right, exists_or, exists_eq_left]
    exact or_right_comm
  refine ⟨⟨h.tracks.wellFormed, fun hash hhash => ?_⟩, ?_, h.kept.append_right _, ?_⟩
  · rcases List.mem_append.mp hhash with hown | hold
    · obtain ⟨pack, hpack, rfl⟩ := List.mem_map.mp hown
      refine ⟨arrival.index, pack, hhashed ⟨arrival, .head _, pack, hpack, rfl⟩, rfl, ?_⟩
      intro entry hentry
      exact (hcontents entry).mpr (.inr (Arrival.mem_values.mp (mem_group.mp hentry).2))
    · obtain ⟨index, pack, hinput, hhash, hsub⟩ := h.tracks.seen _ hold
      exact ⟨index, pack, hinput, hhash, fun entry hentry =>
        (hcontents entry).mpr (.inl (hsub hentry))⟩
  · ext entry
    rw [hcontents, mem_retained_append, h.contents]
    exact or_congr_right ⟨fun hentry => ⟨hentry, arrival.pack_notMem hpacks hentry⟩, And.left⟩
  · rw [h.obsolete]
    refine congrArg (extraObsolete ∪ ·) (Finset.ext fun id => ?_)
    simp only [Finset.mem_sdiff, List.mem_toFinset, List.map_append, List.mem_append,
      List.map_singleton, List.mem_singleton]
    constructor
    · rintro ⟨hmem, hkept⟩
      exact ⟨.inl hmem, not_or.mpr ⟨hkept, fun heq => hfresh (heq ▸ hmem)⟩⟩
    · rintro ⟨hmem | heq, hkept⟩
      · exact ⟨hmem, fun hold => hkept (.inl hold)⟩
      · exact absurd (.inr heq) hkept

section

variable (h : Rewrites host hashed extraObsolete arrivals state)
  (hinj : Set.InjOn host.sha256 hashed) (hhashed : hashedInputs host [arrival] ⊆ hashed)
  (hfresh : arrival.id ∉ arrivals.map (·.id))
include h hinj hhashed hfresh

/-- A file that is not kept. -/
theorem Rewrites.copy : Rewrites host hashed extraObsolete (arrivals ++ [arrival])
      { copyIndexPacks host arrival.index arrival.visits state.toProgress with
        kept := state.kept
        obsolete := state.obsolete ∪ arrival.index.ids.toFinset } := by
  have hvisits : ∀ visit ∈ arrival.visits, visit.1 ∈ eachPack exclude arrival.index :=
    fun visit hvisit => arrival.visits_perm.subset (List.mem_map_of_mem hvisit)
  obtain ⟨htracks, hmem⟩ := copyIndexPacks_spec arrival.visits h.tracks hinj
    fun visit hvisit => hhashed ⟨arrival, .head _, visit.1, hvisits visit hvisit, rfl⟩
  refine ⟨htracks, ?_, h.kept.trans (List.sublist_append_left _ _), ?_⟩
  · ext entry
    have hgroups : (∃ visit ∈ arrival.visits, entry ∈ group arrival.index visit.1) ↔
        entry ∈ entries arrival.packs ∧ entry.pack ∉ exclude := by
      rw [← Arrival.mem_values, ← exists_mem_group rfl]
      constructor
      · rintro ⟨visit, hvisit, hentry⟩
        exact ⟨visit.1, hvisits visit hvisit, hentry⟩
      · rintro ⟨pack, hpack, hentry⟩
        obtain ⟨visit, hvisit, rfl⟩ := List.mem_map.mp (arrival.visits_perm.symm.subset hpack)
        exact ⟨visit, hvisit, hentry⟩
    rw [mem_retained_append, ← h.contents, ← hgroups]
    exact hmem entry
  · have hkept : arrival.id ∉ state.kept.map (·.id) :=
      fun hmem => hfresh ((h.kept.map _).subset hmem)
    have hids : arrival.index.ids.toFinset = {arrival.id} := rfl
    rw [h.obsolete, hids, Finset.union_assoc]
    refine congrArg (extraObsolete ∪ ·) (Finset.ext fun id => ?_)
    simp only [Finset.mem_union, Finset.mem_sdiff, Finset.mem_singleton, List.mem_toFinset,
      List.map_append, List.mem_append, List.map_singleton, List.mem_singleton]
    constructor
    · rintro (⟨hmem, hnot⟩ | rfl)
      · exact ⟨.inl hmem, hnot⟩
      · exact ⟨.inr rfl, hkept⟩
    · rintro ⟨hmem | rfl, hnot⟩
      · exact .inl ⟨hmem, hnot⟩
      · exact .inr rfl

theorem Rewrites.step : Rewrites host hashed extraObsolete (arrivals ++ [arrival])
    (rewriteIndex host state arrival) := by
  rw [rewriteIndex]
  split_ifs with hkeep
  · rw [keepCurrentIndex] at hkeep
    split_ifs at hkeep with hcond
    simp only [Bool.or_eq_true, not_or, Bool.not_eq_true] at hcond
    exact h.keep hhashed hfresh hcond.1.1
  · exact h.copy hinj hhashed hfresh

end

theorem Rewrites.foldl (rest : List (Arrival exclude)) {state : Rewriter Digest exclude}
    (h : Rewrites host hashed extraObsolete arrivals state)
    (hinj : Set.InjOn host.sha256 hashed) (hhashed : hashedInputs host rest ⊆ hashed)
    (hids : ((arrivals ++ rest).map (·.id)).Nodup) :
    Rewrites host hashed extraObsolete (arrivals ++ rest)
      (rest.foldl (rewriteIndex host) state) := by
  induction rest generalizing state arrivals with
  | nil => simpa using h
  | cons arrival rest ih =>
    have hsplit : arrivals ++ arrival :: rest = arrivals ++ [arrival] ++ rest := by simp
    have hfresh : arrival.id ∉ arrivals.map (·.id) := by
      rw [List.map_append, List.nodup_append] at hids
      exact fun hmem => hids.2.2 _ hmem _ (.head _) rfl
    have hstep := h.step hinj (fun input hinput => hhashed ?_) hfresh
    · rw [hsplit] at hids ⊢
      refine ih hstep (fun input hinput => hhashed ?_) hids
      obtain ⟨other, hother, hpack⟩ := hinput
      exact ⟨other, .tail _ hother, hpack⟩
    · obtain ⟨other, hother, hpack⟩ := hinput
      rw [List.mem_singleton.mp hother] at hpack
      exact ⟨arrival, .head _, hpack⟩

omit [DecidableEq Digest] in
/-- The saved files have the entries of the indexes sent. -/
theorem mem_saved {saved : List (List PackJSON)}
    (hformed : ∀ index ∈ progress.indexes, index.WellFormed)
    (h : ((progress.indexes.filter fun index => !index.packs.isEmpty).map saveIndex).mapM id =
      .ok saved) : (∃ packs ∈ saved, entry ∈ entries packs) ↔ entry ∈ progress.copied := by
  constructor
  · rintro ⟨packs, hpacks, hentry⟩
    obtain ⟨index, hindex, hsave⟩ := (mem_of_mapM_map h).mp hpacks
    exact ⟨index, List.mem_of_mem_filter hindex, (mem_entries_saveIndex hsave).mp hentry⟩
  · rintro ⟨index, hindex, hentry⟩
    have hne := (hformed index hindex).packs_ne_nil hentry
    obtain ⟨packs, hpacks, hsave⟩ := ok_of_mapM_map h
      (List.mem_filter.mpr ⟨hindex, by simpa using hne⟩)
    exact ⟨packs, hpacks, (mem_entries_saveIndex hsave).mpr hentry⟩

theorem rewrites_all (extraObsolete : Finset ID) (hids : (arrivals.map (·.id)).Nodup)
    (hinj : Set.InjOn host.sha256 (hashedInputs host arrivals)) :
    Rewrites host (hashedInputs host arrivals) extraObsolete arrivals
      (rewriteIndexes host extraObsolete arrivals) :=
  (rewrites_nil extraObsolete).foldl arrivals hinj subset_rfl hids

/-- What a rewrite keeps and saves, and what it reports. -/
theorem rewrite_spec (hids : (arrivals.map (·.id)).Nodup)
    (hinj : Set.InjOn host.sha256 (hashedInputs host arrivals)) {result : Rewritten exclude}
    (h : rewrite host extraObsolete arrivals = .ok result) :
    (∀ entry, ((∃ arrival ∈ result.kept, entry ∈ entries arrival.packs) ∨
        ∃ packs ∈ result.saved, entry ∈ entries packs) ↔ entry ∈ retained arrivals) ∧
      result.kept.Sublist arrivals ∧ result.obsolete = extraObsolete ∪
        ((arrivals.map (·.id)).toFinset \ (result.kept.map (·.id)).toFinset) := by
  have hspec := rewrites_all extraObsolete hids hinj
  obtain ⟨saved, hsaved, h⟩ := of_bind h
  cases h
  refine ⟨fun entry => ?_, hspec.kept, hspec.obsolete⟩
  rw [mem_saved hspec.tracks.wellFormed hsaved, ← hspec.contents]
  exact Iff.rfl

/-- A rewrite loses and invents nothing: the files that are kept or saved have the entries
of the loaded files outside the excluded packs, and what is reported obsolete, besides what
the caller asked for, is every loaded file that is not kept.  It returns if the entries it
has to save name their pack and their type. -/
theorem rewrite_conserves_entries (host : Host Digest) (extraObsolete : Finset ID)
    (arrivals : List (Arrival exclude)) (hids : (arrivals.map (·.id)).Nodup)
    (hinj : Set.InjOn host.sha256 (hashedInputs host arrivals)) :
    (∀ result, rewrite host extraObsolete arrivals = .ok result →
      (∀ entry, ((∃ arrival ∈ result.kept, entry ∈ entries arrival.packs) ∨
            ∃ packs ∈ result.saved, entry ∈ entries packs) ↔
          (∃ arrival ∈ arrivals, entry ∈ entries arrival.packs) ∧ entry.pack ∉ exclude) ∧
        result.kept.Sublist arrivals ∧
        result.obsolete = extraObsolete ∪
          ((arrivals.map (·.id)).toFinset \ (result.kept.map (·.id)).toFinset)) ∧
      ((∀ arrival ∈ arrivals, ∀ entry ∈ entries arrival.packs, entry.pack ∉ exclude →
          entry.pack ≠ 0 ∧ entry.blob.type ≠ .invalid) →
        ∃ result, rewrite host extraObsolete arrivals = .ok result) := by
  have hretained : ∀ entry, entry ∈ retained arrivals ↔
      (∃ arrival ∈ arrivals, entry ∈ entries arrival.packs) ∧ entry.pack ∉ exclude := by
    intro entry
    simp only [retained, Set.mem_ofPred_eq, ← and_assoc, exists_and_right]
  refine ⟨fun result h => ?_, fun hvalid => ?_⟩
  · obtain ⟨hentries, hspec⟩ := rewrite_spec hids hinj h
    exact ⟨fun entry => (hentries entry).trans (hretained entry), hspec⟩
  · have hsave : ∀ index ∈ (rewriteIndexes host extraObsolete arrivals).indexes.filter
        fun index => !index.packs.isEmpty, ∃ packs, saveIndex index = .ok packs := by
      refine fun index hindex => exists_saveIndex fun entry hentry => ?_
      have hmem : entry ∈ retained arrivals := by
        rw [← (rewrites_all _ hids hinj).contents]
        exact .inr ⟨index, List.mem_of_mem_filter hindex, hentry⟩
      obtain ⟨arrival, harrival, hown, hkeep⟩ := hmem
      exact hvalid arrival harrival entry hown hkeep
    obtain ⟨saved, hsaved⟩ := exists_mapM_map hsave
    exact ⟨_, bind_eq_ok.mpr ⟨saved, hsaved, rfl⟩⟩

end

/-- A host whose digests are the hashed strings. -/
def plainHost : Host Bytes where
  sha256 := id
  sort := List.insertionSort fun a b => a.offset ≤ b.offset
  sort_perm := List.perm_insertionSort _

def sampleBlob (id : ID) : Blob :=
  { id, type := .data, offset := 0, length := 40, uncompressedLength := 0 }

/-- Two files with one group in common, the second old enough to be kept but for pack 2, and
a third that is kept. -/
def sampleArrivals : List (Arrival {2}) :=
  [{ id := 10, packs := [⟨1, [sampleBlob 5]⟩], age := 0, visits := [(1, 0)]
     visits_perm := by decide },
   { id := 11, packs := [⟨2, [sampleBlob 6]⟩, ⟨1, [sampleBlob 5]⟩], age := indexMaxAge
     visits := [(1, 0)], visits_perm := by decide },
   { id := 12, packs := [⟨3, [sampleBlob 7]⟩], age := indexMaxAge, visits := [(3, 0)]
     visits_perm := by decide }]

theorem rewrite_sampleArrivals : ∃ result, rewrite plainHost {9} sampleArrivals = .ok result ∧
    result.kept.map (·.id) = [12] ∧ result.obsolete = {9, 10, 11} ∧
    ∀ entry, ((∃ arrival ∈ result.kept, entry ∈ entries arrival.packs) ∨
        ∃ packs ∈ result.saved, entry ∈ entries packs) ↔
      (∃ arrival ∈ sampleArrivals, entry ∈ entries arrival.packs) ∧
        entry.pack ∉ ({2} : Finset ID) := by
  have hspec := rewrite_conserves_entries plainHost {9} sampleArrivals (by decide)
    (Set.injOn_id _)
  obtain ⟨result, hresult⟩ := hspec.2 (by decide)
  have hkept : result.kept.map (·.id) = [12] := by
    obtain ⟨saved, -, h⟩ := of_bind hresult
    cases h
    show (rewriteIndexes plainHost {9} sampleArrivals).kept.map (·.id) = [12]
    decide
  refine ⟨result, hresult, hkept, ?_, (hspec.1 result hresult).1⟩
  rw [(hspec.1 result hresult).2.2, hkept]
  decide

end Vaultic.Repository.IndexRewrite
