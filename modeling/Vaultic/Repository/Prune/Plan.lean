/-
  Repository/Prune/Plan.lean  —  what a prune removes, repacks and keeps.

  Source: internal/repository/prune.go (`PlanPrune`, `decidePackAction`,
  `selectRepackPacks` and what they call).

  A plan is made from the index, the used blobs and the listing of pack files.  The
  options and the sizes decide how much is repacked; the result below holds for all
  of them.  Sizes are natural numbers: they are sums over packs of one repository.
-/
import Vaultic.Repository.Prune.Selection

set_option autoImplicit false

namespace Vaultic.Repository

open Vaultic.Lib Vaultic.Schema

/-! ## Options, candidates and plans -/

/-- The options that planning reads. -/
structure PruneOptions where
  unsafeRecovery : Bool := false
  /-- The tolerated unused bytes, from the used ones. -/
  maxUnusedBytes : Nat → Nat
  maxRepackBytes : Nat
  /-- For a positive percentage, the bytes it allows of a total. -/
  maxRepackPercent : Option (Nat → Nat) := none
  smallPackBytes : Nat := 0
  (repackCacheableOnly repackUncompressed repackAll : Bool := false)

/-- What planning reads of a repository.  The listing gives the size of each pack
file. -/
structure PruneSource where
  slateDB : Bool := false
  connections : Nat := 5
  version : Nat := 2
  packSize : Nat := 16777216
  index : List IndexedBlob
  listing : Table ID Nat

structure PackCandidate where
  id : ID
  info : PackInfo
  mustCompress : Bool
  deriving DecidableEq, Repr

structure PackActionState where
  indexPack : Table ID PackInfo
  stats : PruneStats
  (removePacksFirst removePacks : Finset ID := ∅)
  (repackCandidates repackSmallCandidates : List PackCandidate := [])

structure PrunePlan where
  (removePacksFirst repackPacks : Finset ID)
  /-- None where nothing is repacked. -/
  keepBlobs : Option CountedHandles
  (removePacks ignorePacks : Finset ID)
  stats : PruneStats

/-! ## Deciding on packs -/

def minPackSize : Nat := 4 * 1024 * 1024

section

variable (opts : PruneOptions)

/-- `calculateTargetPacksize` -/
def calculateTargetPacksize (packs : Table ID PackInfo) : Nat :=
  if opts.smallPackBytes > 0 then opts.smallPackBytes
  else
    let sizes := (packs.entries.map fun entry => entry.2.size).insertionSort (· ≤ ·)
    if sizes = [] then 0 else max minPackSize (sizes.getD (sizes.length * 3 / 100) 0) * 4 / 5

def errSizeNotMatching : String := "pack size does not match calculated size from index"

/-- Must the pack be rewritten to compress its blobs? -/
def mustCompress (version : Nat) (info : PackInfo) : Bool :=
  decide (version ≥ 2) && (decide (info.tpe = .only .tree) || opts.repackUncompressed) &&
    info.uncompressed

/-- The counters of packs by use. -/
def countPack (info : PackInfo) (stats : PruneStats) : PruneStats :=
  let packs := stats.packs
  { stats with
    packs :=
      if info.usedBlobs = 0 then { packs with unused := packs.unused + 1 }
      else if info.unusedBlobs = 0 then { packs with used := packs.used + 1 }
      else { packs with partlyUsed := packs.partlyUsed + 1 }
    size :=
      if info.uncompressed then
        { stats.size with uncompressed := stats.size.uncompressed + info.size }
      else stats.size }

def countKeep (stats : PruneStats) (kept : Nat) : PruneStats :=
  { stats with packs := { stats.packs with keep := stats.packs.keep + kept } }

def countRemove (stats : PruneStats) (info : PackInfo) : PruneStats :=
  { stats with
    blobs := { stats.blobs with remove := stats.blobs.remove + info.unusedBlobs }
    size := { stats.size with remove := stats.size.remove + info.unusedSize } }

/-- `processPack` for a pack file that is indexed. -/
def processIndexedPack (version target : Nat) (state : PackActionState) (id : ID) (packSize : Nat)
    (info : PackInfo) : PackActionState :=
  let stats := countPack info state.stats
  let candidate : PackCandidate := ⟨id, info, mustCompress opts version info⟩
  let state := { state with stats, indexPack := state.indexPack.erase id }
  if info.usedBlobs = 0 then
    { state with
      removePacks := insert id state.removePacks
      stats := countRemove stats info }
  else if opts.repackCacheableOnly = true ∧ info.tpe = .only .data then
    { state with stats := countKeep stats 1 }
  else if opts.repackAll = true then
    { state with repackCandidates := state.repackCandidates ++ [candidate] }
  else if info.unusedBlobs = 0 ∧ info.tpe ≠ .invalid ∧ candidate.mustCompress = false then
    if packSize ≥ target then { state with stats := countKeep stats 1 }
    else { state with repackSmallCandidates := state.repackSmallCandidates ++ [candidate] }
  else { state with repackCandidates := state.repackCandidates ++ [candidate] }

/-- `processPack` -/
def processPack (version target : Nat) (state : PackActionState) (file : ID × Nat) :
    Result PackActionState :=
  match state.indexPack.lookup file.1 with
  | none =>
    .ok { state with
      removePacksFirst := insert file.1 state.removePacksFirst
      stats := { state.stats with
        size := { state.stats.size with unref := state.stats.size.unref + file.2 } } }
  | some info =>
    if info.size ≠ file.2 ∧ info.usedBlobs ≠ 0 then .error errSizeNotMatching
    else .ok (processIndexedPack opts version target state file.1 file.2 info)

/-- `listPacks` -/
def listPacks (version target : Nat) (state : PackActionState) (listing : Table ID Nat) :
    Result PackActionState :=
  (listing.entries.map fun entry => (entry.1, entry.2)).foldlM (processPack opts version target)
    state

def errPacksMissing : String := "packs from index missing in repo"

/-- `resolveMissingPacks`: the packs that are not listed and not needed. -/
def resolveMissingPacks (missing : Table ID PackInfo) (stats : PruneStats) :
    Result (Finset ID × PruneStats) :=
  if missing.entries.any fun entry => decide (entry.2.usedBlobs ≠ 0) then .error errPacksMissing
  else
    .ok ((missing.entries.map (·.1)).toFinset,
      missing.entries.foldl (fun stats entry => countRemove stats entry.2) stats)

/-- `includeSmallCandidates` -/
def includeSmallCandidates (state : PackActionState) : PackActionState :=
  if state.repackSmallCandidates.length < 10 then
    { state with stats := countKeep state.stats state.repackSmallCandidates.length }
  else
    { state with repackCandidates := state.repackCandidates ++ state.repackSmallCandidates }

/-- The order of `sortRepackCandidates`: packs with trees and short packs first, then
by the share of unused bytes. -/
def repackBefore (target : Nat) (left right : PackInfo) : Bool :=
  if left.tpe ≠ .only .data ∧ right.tpe = .only .data then true
  else if right.tpe ≠ .only .data ∧ left.tpe = .only .data then false
  else if left.size < target ∧ right.size ≥ target then true
  else if right.size < target ∧ left.size ≥ target then false
  else decide (left.unusedSize * right.usedSize > right.unusedSize * left.usedSize)

/-- `sortRepackCandidates`.  The sort of the source is not stable: candidates that
compare equal may come in any order, here they keep theirs. -/
def sortRepackCandidates (candidates : List PackCandidate) (target : Nat) : List PackCandidate :=
  candidates.insertionSort fun left right => repackBefore target right.info left.info = false

/-- The counters of a pack that is repacked. -/
def countRepack (stats : PruneStats) (info : PackInfo) : PruneStats :=
  let blobs := stats.blobs
  let size := stats.size
  { stats with
    blobs := { blobs with
      repack := blobs.repack + info.unusedBlobs + info.usedBlobs
      repackrm := blobs.repackrm + info.unusedBlobs }
    size := { size with
      repack := size.repack + info.size, repackrm := size.repackrm + info.unusedSize
      uncompressed := if info.uncompressed then size.uncompressed - info.size
        else size.uncompressed } }

/-- One candidate of `selectRepackPacks`. -/
def selectRepackPack (target maxUnused : Nat) (state : Finset ID × PruneStats)
    (candidate : PackCandidate) : Finset ID × PruneStats :=
  let size := state.2.size
  let remainingUnused := size.duplicate + size.unused - size.remove - size.repackrm
  if size.repack + candidate.info.size ≥ opts.maxRepackBytes then (state.1, countKeep state.2 1)
  else if candidate.info.tpe ≠ .only .data ∨ candidate.mustCompress = true then
    (insert candidate.id state.1, countRepack state.2 candidate.info)
  else if remainingUnused < maxUnused ∧ candidate.info.size ≥ target then
    (state.1, countKeep state.2 1)
  else (insert candidate.id state.1, countRepack state.2 candidate.info)

/-- `selectRepackPacks` -/
def selectRepackPacks (target : Nat) (candidates : List PackCandidate) (stats : PruneStats) :
    Finset ID × PruneStats :=
  candidates.foldl (selectRepackPack opts target (opts.maxUnusedBytes stats.size.used)) (∅, stats)

/-- What `decidePackAction` decides. -/
structure PackActions where
  (removePacksFirst removePacks repackPacks ignorePacks : Finset ID)
  stats : PruneStats

/-- `decidePackAction` -/
def decidePackAction (source : PruneSource) (packs : Table ID PackInfo) (stats : PruneStats) :
    Result PackActions := do
  let target := calculateTargetPacksize opts packs
  let listed ← listPacks opts source.version target ⟨packs, stats, ∅, ∅, [], []⟩ source.listing
  let (ignorePacks, stats) ← resolveMissingPacks listed.indexPack listed.stats
  let state := includeSmallCandidates { listed with stats }
  let candidates := sortRepackCandidates state.repackCandidates target
  let (repackPacks, stats) := selectRepackPacks opts target candidates state.stats
  .ok
    { removePacksFirst := state.removePacksFirst, removePacks := state.removePacks
      repackPacks, ignorePacks
      stats := { stats with
        packs := { stats.packs with
          unref := state.removePacksFirst.card, repack := repackPacks.card
          remove := state.removePacks.card }
        size := if source.version < 2 then { stats.size with uncompressed := 0 } else stats.size } }

/-! ## The plan -/

/-- The totals at the end of `PlanPrune`. -/
def totals (stats : PruneStats) : PruneStats :=
  let blobs := stats.blobs
  let size := stats.size
  let packs := stats.packs
  let blobTotal := blobs.used + blobs.unused + blobs.duplicate
  let sizeTotal := size.used + size.duplicate + size.unused + size.unref
  { blobs := { blobs with
      total := blobTotal, removeTotal := blobs.remove + blobs.repackrm
      remain := blobTotal - (blobs.remove + blobs.repackrm) }
    size := { size with
      total := sizeTotal, removeTotal := size.remove + size.repackrm + size.unref
      remain := sizeTotal - (size.remove + size.repackrm + size.unref)
      remainUnused := size.duplicate + size.unused - size.remove - size.repackrm }
    packs := { packs with
      total := packs.used + packs.partlyUsed + packs.unused + packs.unref
      removeTotal := packs.unref + packs.remove } }

/-- Blobs in packs that stay need not be copied.  A pack that is neither removed nor
repacked counts as one that stays, listed or not. -/
def dropKept (index : List IndexedBlob) (actions : PackActions) (keep : CountedHandles) :
    CountedHandles :=
  index.foldl (fun keep blob =>
    if blob.packID ∈ actions.removePacks ∨ blob.packID ∈ actions.repackPacks then keep
    else keep.erase blob.handle) keep

/-- The set of used handles, each with counter zero. -/
def usedHandles (handles : List BlobHandle) : CountedHandles :=
  (∅ : CountedHandles).putAll (handles.map fun handle => (handle, 0))

/-- The checks that `PlanPrune` makes first. -/
def checkPruneOptions (source : PruneSource) : Result Unit :=
  if source.slateDB then
    .error
      "prune is disabled for SlateDB-authoritative repositories; use 'vaultic index gc' instead"
  else if source.connections < 2 then
    .error "prune requires a backend connection limit of at least two"
  else if source.version < 2 ∧ opts.repackUncompressed = true then
    .error "compression requires at least repository format version 2"
  else if opts.smallPackBytes > source.packSize then
    .error "repack-smaller-than exceeds repository packsize"
  else .ok ()

/-- The options that bound repacking, as they are resolved. -/
def resolveOptions (stats : PruneStats) : PruneOptions :=
  let opts := if opts.unsafeRecovery then { opts with maxRepackBytes := 0 } else opts
  match opts.maxRepackPercent with
  | none => opts
  | some share =>
    if stats.size.total > 0 then
      { opts with maxRepackBytes := min opts.maxRepackBytes (share stats.size.total) }
    else opts

/-- `PlanPrune`, from the blobs that the snapshots use. -/
def planPrune (source : PruneSource) (used : List BlobHandle) : Result PrunePlan := do
  checkPruneOptions opts source
  let selection ← packInfoFromIndex source.index (usedHandles used)
  let opts := resolveOptions opts selection.stats
  let actions ← decidePackAction opts source selection.packs selection.stats
  .ok
    { removePacksFirst := actions.removePacksFirst, repackPacks := actions.repackPacks
      keepBlobs := if actions.repackPacks = ∅ then none
        else some (dropKept source.index actions selection.used)
      removePacks := actions.removePacks, ignorePacks := actions.ignorePacks
      stats := totals actions.stats }

end

/-! ## Listing the packs -/

/-- What the listing of distinct files does to the state. -/
structure PacksListed (state state' : PackActionState) (listed : ID → Prop)
    [DecidablePred listed] : Prop where
  indexPack : ∀ id, state'.indexPack.lookup id =
    if listed id then none else state.indexPack.lookup id
  removePacksFirst : ∀ id, id ∈ state'.removePacksFirst ↔
    id ∈ state.removePacksFirst ∨ (listed id ∧ state.indexPack.lookup id = none)
  removePacks : ∀ id, id ∈ state'.removePacks ↔ id ∈ state.removePacks ∨
    (listed id ∧ ∃ info, state.indexPack.lookup id = some info ∧ info.usedBlobs = 0)
  candidates : ∀ candidate ∈ state'.repackCandidates ++ state'.repackSmallCandidates,
    candidate ∈ state.repackCandidates ++ state.repackSmallCandidates ∨
      (listed candidate.id ∧ state.indexPack.lookup candidate.id = some candidate.info ∧
        candidate.info.usedBlobs ≠ 0)

variable {opts opts' : PruneOptions} {version target target' : Nat}
  {state state' other : PackActionState} {file : ID × Nat} {files : List (ID × Nat)} {pack : ID}
  {info : PackInfo} {source : PruneSource} {packs : Table ID PackInfo} {stats : PruneStats}
  {actions : PackActions}

theorem processIndexedPack_spec {id : ID} {packSize : Nat}
    (hinfo : state.indexPack.lookup id = some info) :
    PacksListed state (processIndexedPack opts version target state id packSize info)
      (id = ·) := by
  have herase : ∀ found, (state.indexPack.erase id).lookup found =
      if id = found then none else state.indexPack.lookup found := Table.lookup_erase_eq _ _
  -- All branches but the first leave the sets alone and add at most one candidate.
  have hfirst : ∀ found, found ∈ state.removePacksFirst ↔ found ∈ state.removePacksFirst ∨
      (id = found ∧ state.indexPack.lookup found = none) := by
    refine fun found => ⟨.inl, fun h => h.elim (·) ?_⟩
    rintro ⟨rfl, hnone⟩
    rw [hinfo] at hnone
    cases hnone
  have hkeep : info.usedBlobs ≠ 0 → ∀ found, found ∈ state.removePacks ↔
      found ∈ state.removePacks ∨ (id = found ∧
        ∃ info, state.indexPack.lookup found = some info ∧ info.usedBlobs = 0) := by
    refine fun hused found => ⟨.inl, fun h => h.elim (·) ?_⟩
    rintro ⟨rfl, other, hother, hzero⟩
    cases hinfo.symm.trans hother
    exact absurd hzero hused
  unfold processIndexedPack
  dsimp only
  split
  · rename_i hzero
    refine ⟨herase, hfirst, fun found => ?_, fun candidate hmem => .inl hmem⟩
    rw [Finset.mem_insert, or_comm]
    refine or_congr_right ⟨?_, fun h => h.1.symm⟩
    rintro rfl
    exact ⟨rfl, info, hinfo, hzero⟩
  · rename_i hused
    have hnew : ∀ candidate : PackCandidate,
        candidate = ⟨id, info, mustCompress opts version info⟩ →
          id = candidate.id ∧ state.indexPack.lookup candidate.id = some candidate.info ∧
            candidate.info.usedBlobs ≠ 0 := by
      rintro candidate rfl
      exact ⟨rfl, hinfo, hused⟩
    repeat' split
    all_goals
      refine ⟨herase, hfirst, hkeep hused, fun candidate hmem => ?_⟩
      have := hnew candidate
      simp only [List.mem_append, List.mem_singleton] at hmem ⊢
      tauto

theorem processPack_spec
    (h : processPack opts version target state file = .ok state') :
    PacksListed state state' (file.1 = ·) := by
  unfold processPack at h
  split at h
  · rename_i hnone
    cases h
    refine ⟨fun id => ?_, fun id => ?_, fun id => ?_, fun candidate hmem => .inl hmem⟩
    · by_cases hid : file.1 = id
      · rw [if_pos hid, ← hid, hnone]
      · rw [if_neg hid]
    · rw [Finset.mem_insert, or_comm]
      refine or_congr_right ⟨?_, fun h => h.1.symm⟩
      rintro rfl
      exact ⟨rfl, hnone⟩
    · refine ⟨.inl, fun h => h.elim (·) ?_⟩
      rintro ⟨rfl, info, hinfo, -⟩
      rw [hnone] at hinfo
      cases hinfo
  · rename_i info hinfo
    split at h
    · cases h
    · cases h
      exact processIndexedPack_spec hinfo

theorem foldlM_processPack_spec (hnodup : (files.map (·.1)).Nodup)
    (h : files.foldlM (processPack opts version target) state = .ok state') :
    PacksListed state state' (· ∈ files.map (·.1)) := by
  induction files generalizing state with
  | nil =>
    cases h
    refine ⟨?_, ?_, ?_, fun candidate hmem => .inl hmem⟩ <;> simp
  | cons file rest ih =>
    obtain ⟨next, hnext, h⟩ := of_bind h
    obtain ⟨hfresh, hnodup⟩ := List.nodup_cons.mp hnodup
    have hstep := processPack_spec hnext
    have hrest := ih hnodup h
    -- The first file is not listed again, so the rest sees what was there before.
    have hsame : ∀ id, id ∈ rest.map (·.1) →
        next.indexPack.lookup id = state.indexPack.lookup id := by
      intro id hid
      rw [hstep.indexPack, if_neg]
      rintro rfl
      exact hfresh hid
    refine ⟨fun id => ?_, fun id => ?_, fun id => ?_, fun candidate hmem => ?_⟩
    · rw [hrest.indexPack, hstep.indexPack]
      simp only [List.map_cons, List.mem_cons]
      by_cases hid : id ∈ rest.map (·.1)
      · simp [hid]
      · by_cases hfile : file.1 = id
        · simp [hfile]
        · simp [hid, hfile, Ne.symm hfile]
    · rw [hrest.removePacksFirst, hstep.removePacksFirst, List.map_cons, List.mem_cons, or_assoc,
        or_and_right]
      refine or_congr_right (or_congr ?_ (and_congr_right fun hid => by rw [hsame id hid]))
      rw [eq_comm]
    · rw [hrest.removePacks, hstep.removePacks, List.map_cons, List.mem_cons, or_assoc,
        or_and_right]
      refine or_congr_right (or_congr ?_ (and_congr_right fun hid => by rw [hsame id hid]))
      rw [eq_comm]
    · rw [List.map_cons, List.mem_cons]
      rcases hrest.candidates candidate hmem with hmem | ⟨hid, hlook, hused⟩
      · rcases hstep.candidates candidate hmem with hmem | ⟨hid, hlook, hused⟩
        · exact .inl hmem
        · exact .inr ⟨.inl hid.symm, hlook, hused⟩
      · rw [hsame _ hid] at hlook
        exact .inr ⟨.inr hid, hlook, hused⟩

/-! ## Deciding -/

/-- The pack file is in the listing. -/
def InListing (source : PruneSource) (pack : ID) : Prop :=
  ∃ size, source.listing.lookup pack = some size

theorem mem_listing_files :
    pack ∈ (source.listing.entries.map fun entry => (entry.1, entry.2)).map (·.1) ↔
      InListing source pack := by
  simp only [List.map_map, List.mem_map, Function.comp_apply, InListing]
  constructor
  · rintro ⟨entry, hentry, rfl⟩
    exact ⟨entry.2, Table.mem_entries_iff.mp hentry⟩
  · rintro ⟨size, hsize⟩
    exact ⟨⟨pack, size⟩, Table.mem_entries_iff.mpr hsize, rfl⟩

theorem nodup_listing_files (source : PruneSource) :
    ((source.listing.entries.map fun entry => (entry.1, entry.2)).map (·.1)).Nodup := by
  rw [List.map_map]
  exact source.listing.nodupKeys

theorem selectRepackPack_subset {maxUnused : Nat}
    {candidates : List PackCandidate} {state : Finset ID × PruneStats}
    (h : pack ∈ (candidates.foldl (selectRepackPack opts target maxUnused) state).1) :
    pack ∈ state.1 ∨ ∃ candidate ∈ candidates, candidate.id = pack := by
  induction candidates generalizing state with
  | nil => exact .inl h
  | cons first rest ih =>
    rcases ih h with h | ⟨candidate, hcandidate, hid⟩
    · have hstep : pack ∈ insert first.id state.1 := by
        unfold selectRepackPack at h
        dsimp only at h
        split at h
        · exact Finset.mem_insert_of_mem h
        split at h
        · exact h
        split at h
        · exact Finset.mem_insert_of_mem h
        · exact h
      rcases Finset.mem_insert.mp hstep with rfl | h
      · exact .inr ⟨first, .head _, rfl⟩
      · exact .inl h
    · exact .inr ⟨candidate, .tail _ hcandidate, hid⟩

/-- What is decided about the packs, by what the selection knows of them. -/
structure ActionsDecided (source : PruneSource) (packs : Table ID PackInfo)
    (actions : PackActions) : Prop where
  /-- A pack with used blobs is listed. -/
  needed : ∀ pack info, packs.lookup pack = some info → info.usedBlobs ≠ 0 →
    InListing source pack
  removePacksFirst : ∀ pack, pack ∈ actions.removePacksFirst → packs.lookup pack = none
  removePacks : ∀ pack, pack ∈ actions.removePacks ↔
    InListing source pack ∧ ∃ info, packs.lookup pack = some info ∧ info.usedBlobs = 0
  repackPacks : ∀ pack, pack ∈ actions.repackPacks →
    InListing source pack ∧ ∃ info, packs.lookup pack = some info
  ignorePacks : ∀ pack, pack ∈ actions.ignorePacks →
    ¬InListing source pack ∧ ∃ info, packs.lookup pack = some info

variable {result : Finset ID × PruneStats} {missing : Table ID PackInfo}

section

variable (h : resolveMissingPacks missing stats = .ok result)
include h

theorem resolveMissingPacks_eq_ok (hinfo : missing.lookup pack = some info) :
    info.usedBlobs = 0 := by
  have hnone := (of_guard h).1
  rw [Bool.not_eq_true, List.any_eq_false] at hnone
  simpa using hnone ⟨pack, info⟩ (Table.mem_entries_iff.mpr hinfo)

theorem mem_resolveMissingPacks (hpack : pack ∈ result.1) :
    ∃ info, missing.lookup pack = some info := by
  replace h := (of_guard h).2
  cases h
  simp only [List.mem_toFinset, List.mem_map] at hpack
  obtain ⟨entry, hentry, rfl⟩ := hpack
  exact ⟨entry.2, Table.mem_entries_iff.mp hentry⟩

end

theorem mem_includeSmallCandidates {candidate : PackCandidate}
    (h : candidate ∈ (includeSmallCandidates state).repackCandidates) :
    candidate ∈ state.repackCandidates ++ state.repackSmallCandidates := by
  unfold includeSmallCandidates at h
  split at h
  · exact List.mem_append_left _ h
  · exact h

theorem includeSmallCandidates_sets (state : PackActionState) :
    (includeSmallCandidates state).removePacksFirst = state.removePacksFirst ∧
      (includeSmallCandidates state).removePacks = state.removePacks := by
  unfold includeSmallCandidates
  split <;> exact ⟨rfl, rfl⟩

theorem decidePackAction_spec (h : decidePackAction opts source packs stats = .ok actions) :
    ActionsDecided source packs actions := by
  obtain ⟨listed, hlisted, h⟩ := of_bind h
  obtain ⟨⟨ignorePacks, resolved⟩, hresolved, h⟩ := of_bind h
  cases h
  have hspec := foldlM_processPack_spec (nodup_listing_files source) hlisted
  obtain ⟨hfirst, hremove⟩ := includeSmallCandidates_sets { listed with stats := resolved }
  refine ⟨?_, ?_, ?_, ?_, ?_⟩
  · intro pack info hinfo hused
    by_contra hmissing
    have hlook : listed.indexPack.lookup pack = some info := by
      rw [hspec.indexPack, if_neg (mem_listing_files.not.mpr hmissing)]
      exact hinfo
    exact hused (resolveMissingPacks_eq_ok hresolved hlook)
  · intro pack hpack
    dsimp only at hpack
    rw [hfirst] at hpack
    rcases (hspec.removePacksFirst pack).mp hpack with hpack | ⟨-, hnone⟩
    · simp at hpack
    · exact hnone
  · intro pack
    dsimp only
    rw [hremove, hspec.removePacks pack, mem_listing_files]
    simp
  · intro pack hpack
    rcases selectRepackPack_subset hpack with hpack | ⟨candidate, hcandidate, rfl⟩
    · simp at hpack
    have hmem := mem_includeSmallCandidates ((List.perm_insertionSort _ _).mem_iff.mp hcandidate)
    rcases hspec.candidates candidate hmem with hmem | ⟨hid, hlook, -⟩
    · simp at hmem
    · exact ⟨mem_listing_files.mp hid, candidate.info, hlook⟩
  · intro pack hpack
    obtain ⟨info, hinfo⟩ := mem_resolveMissingPacks hresolved hpack
    rw [hspec.indexPack] at hinfo
    split at hinfo
    · cases hinfo
    · rename_i hmissing
      exact ⟨mem_listing_files.not.mp hmissing, info, hinfo⟩

/-! ## Plans that cover what is used -/

theorem lookup_usedHandles (handles : List BlobHandle) (handle : BlobHandle) :
    (usedHandles handles).lookup handle = if handle ∈ handles then some 0 else none := by
  unfold usedHandles
  by_cases hmem : handle ∈ handles
  · rw [if_pos hmem]
    refine Table.lookup_putAll_of_mem (List.mem_map.mpr ⟨handle, hmem, rfl⟩) fun value hvalue => ?_
    obtain ⟨_, -, heq⟩ := List.mem_map.mp hvalue
    exact (Prod.mk.inj heq).2.symm
  · rw [if_neg hmem, Table.lookup_putAll_of_forall_ne]
    · simp
    · intro put hput heq
      obtain ⟨found, hfound, rfl⟩ := List.mem_map.mp hput
      exact hmem (heq ▸ hfound)

theorem usedHandles_zero (handles : List BlobHandle) (handle : BlobHandle) (count : Nat)
    (h : (usedHandles handles).lookup handle = some count) : count = 0 := by
  rw [lookup_usedHandles] at h
  split at h
  · exact (Option.some.inj h).symm
  · cases h

/-- However often a blob occurs, the selection does not panic. -/
theorem packInfoFromIndex_no_panic (index : List IndexedBlob) (handles : List BlobHandle) :
    packInfoFromIndex index (usedHandles handles) ≠ .error panicBlobSelection := by
  rcases @packInfoFromIndex_cases index _ (usedHandles_zero handles) with h | ⟨h, -⟩ <;>
    simp [h, errIndexIncomplete, panicBlobSelection]

theorem lookup_dropKept (index : List IndexedBlob) (actions : PackActions) (keep : CountedHandles)
    (handle : BlobHandle) :
    (dropKept index actions keep).lookup handle = none ↔ keep.lookup handle = none ∨
      ∃ blob ∈ index, blob.handle = handle ∧ blob.packID ∉ actions.removePacks ∧
        blob.packID ∉ actions.repackPacks := by
  unfold dropKept
  induction index generalizing keep with
  | nil => simp
  | cons blob rest ih =>
    rw [List.foldl_cons, ih]
    by_cases hgoes : blob.packID ∈ actions.removePacks ∨ blob.packID ∈ actions.repackPacks
    · have hno : ¬(blob.handle = handle ∧ blob.packID ∉ actions.removePacks ∧
          blob.packID ∉ actions.repackPacks) := fun h => hgoes.elim h.2.1 h.2.2
      rw [if_pos hgoes, List.exists_mem_cons_iff, or_iff_right hno]
    · obtain ⟨hremove, hrepack⟩ := not_or.mp hgoes
      rw [if_neg hgoes, Table.lookup_erase_eq, List.exists_mem_cons_iff]
      by_cases hhandle : blob.handle = handle <;> simp [hhandle, hremove, hrepack]

/-- Some listed pack with the blob stays. -/
def Keeps (source : PruneSource) (plan : PrunePlan) (handle : BlobHandle) : Prop :=
  ∃ blob ∈ source.index, blob.handle = handle ∧ InListing source blob.packID ∧
    blob.packID ∉ plan.removePacks ∧ blob.packID ∉ plan.removePacksFirst ∧
    blob.packID ∉ plan.repackPacks

/-- The blob is to be copied out of a pack that is repacked. -/
def Copies (source : PruneSource) (plan : PrunePlan) (handle : BlobHandle) : Prop :=
  (∃ keep, plan.keepBlobs = some keep ∧ keep.lookup handle ≠ none) ∧
    ∃ blob ∈ source.index, blob.handle = handle ∧ blob.packID ∈ plan.repackPacks

def CoversUsed (source : PruneSource) (used : List BlobHandle) (plan : PrunePlan) : Prop :=
  ∀ handle ∈ used, Keeps source plan handle ∨ Copies source plan handle

/-- A used blob that is also indexed in a pack that is not listed stays in a listed one. -/
def MissingKept (source : PruneSource) (used : List BlobHandle) (plan : PrunePlan) : Prop :=
  ∀ blob ∈ source.index, blob.handle ∈ used → ¬InListing source blob.packID →
    Keeps source plan blob.handle

/-- No used blob is indexed in a pack that is not listed. -/
def UsedListed (source : PruneSource) (used : List BlobHandle) : Prop :=
  ∀ blob ∈ source.index, blob.handle ∈ used → InListing source blob.packID

theorem UsedListed.missingKept {used : List BlobHandle} (h : UsedListed source used)
    (plan : PrunePlan) : MissingKept source used plan :=
  fun blob hblob hused hmissing => absurd (h blob hblob hused) hmissing

section

variable {plan : PrunePlan} {used : List BlobHandle} (h : planPrune opts source used = .ok plan)
include h

/-- The parts of a plan. -/
theorem planPrune_inv :
    checkPruneOptions opts source = .ok () ∧
    packInfoFromIndex source.index (usedHandles used) =
      .ok (selected source.index (usedHandles used)) ∧
    Selected source.index (usedHandles used) (selected source.index (usedHandles used)) ∧
    ∃ actions,
      decidePackAction (resolveOptions opts (selected source.index (usedHandles used)).stats)
        source (selected source.index (usedHandles used)).packs
        (selected source.index (usedHandles used)).stats = .ok actions ∧
      plan.removePacksFirst = actions.removePacksFirst ∧
      plan.repackPacks = actions.repackPacks ∧ plan.removePacks = actions.removePacks ∧
      plan.ignorePacks = actions.ignorePacks ∧
      plan.keepBlobs = if actions.repackPacks = ∅ then none
        else some (dropKept source.index actions
          (selected source.index (usedHandles used)).used) := by
  obtain ⟨_, hcheck, h⟩ := of_bind h
  obtain ⟨selection, hselection, h⟩ := of_bind h
  obtain ⟨actions, hactions, h⟩ := of_bind h
  rcases @packInfoFromIndex_cases source.index _ (usedHandles_zero used) with herror |
    ⟨hok, hspec⟩
  · rw [herror] at hselection
    cases hselection
  · obtain rfl := Except.ok.inj (hok.symm.trans hselection)
    cases h
    exact ⟨hcheck, hok, hspec, actions, hactions, rfl, rfl, rfl, rfl, rfl⟩

/-- The packs that a plan drops are indexed, and none of those to ignore is listed. -/
theorem planPrune_drops :
    (pack ∈ plan.removePacks ∨ pack ∈ plan.repackPacks ∨ pack ∈ plan.ignorePacks →
        Indexed source.index pack) ∧
      (pack ∈ plan.ignorePacks → ¬InListing source pack) := by
  obtain ⟨-, -, hselected, actions, hactions, -, hrepack, hremove, hignore, -⟩ := planPrune_inv h
  have hspec := decidePackAction_spec hactions
  rw [hremove, hrepack, hignore]
  constructor
  · rintro (hpack | hpack | hpack)
    · obtain ⟨-, info, hinfo, -⟩ := (hspec.removePacks pack).mp hpack
      exact (hselected.packs pack).mp ⟨info, hinfo⟩
    · exact (hselected.packs pack).mp (hspec.repackPacks pack hpack).2
    · exact (hselected.packs pack).mp (hspec.ignorePacks pack hpack).2
  · exact fun hpack => (hspec.ignorePacks pack hpack).1

/-- A plan covers the used blobs exactly if it keeps those of missing packs elsewhere: it copies
none of them. -/
theorem planPrune_coversUsed_iff : CoversUsed source used plan ↔ MissingKept source used plan := by
  obtain ⟨-, -, hselected, actions, hactions, hfirst, hrepack, hremove, -, hkeep⟩ :=
    planPrune_inv h
  have hspec := decidePackAction_spec hactions
  constructor
  · intro hcovers blob hblob hused hmissing
    refine (hcovers blob.handle hused).resolve_right ?_
    rintro ⟨⟨keep, hsome, hkept⟩, -⟩
    rw [hkeep] at hsome
    split at hsome
    · cases hsome
    cases hsome
    refine hkept ((lookup_dropKept _ _ _ _).mpr (.inr ⟨blob, hblob, rfl, ?_, ?_⟩))
    · exact fun hmem => hmissing ((hspec.removePacks _).mp hmem).1
    · exact fun hmem => hmissing (hspec.repackPacks _ hmem).1
  intro hmissing handle hhandle
  by_cases hlisted : ∀ other ∈ source.index, other.handle = handle → InListing source other.packID
  case neg =>
    push Not at hlisted
    obtain ⟨other, hother, rfl, hgone⟩ := hlisted
    exact .inl (hmissing other hother hhandle hgone)
  have hused : (usedHandles used).lookup handle ≠ none := by
    rw [lookup_usedHandles, if_pos hhandle]
    simp
  obtain ⟨blob, hblob, rfl, info, hinfo, hpos⟩ := hselected.chosen handle hused
  -- An indexed pack is not among those removed first.
  have hnotFirst : ∀ other ∈ source.index, other.packID ∉ actions.removePacksFirst := by
    intro other hother hmem
    obtain ⟨known, hknown⟩ := (hselected.packs other.packID).mpr ⟨other, hother, rfl⟩
    rw [hspec.removePacksFirst _ hmem] at hknown
    cases hknown
  have hnotRemoved : blob.packID ∉ actions.removePacks := by
    intro hmem
    obtain ⟨-, known, hknown, hzero⟩ := (hspec.removePacks _).mp hmem
    cases hinfo.symm.trans hknown
    omega
  by_cases hrepacked : blob.packID ∈ actions.repackPacks
  · have hne : actions.repackPacks ≠ ∅ := Finset.ne_empty_of_mem hrepacked
    rw [if_neg hne] at hkeep
    by_cases hkept : (dropKept source.index actions
        (selected source.index (usedHandles used)).used).lookup blob.handle = none
    · -- Dropped from the blobs to copy: another occurrence is in a pack that stays.
      rcases (lookup_dropKept _ _ _ _).mp hkept with hnone | ⟨other, hother, hsame, hstays⟩
      · exact absurd ((hselected.handles _).mp hnone) hused
      · refine .inl ⟨other, hother, hsame, hlisted other hother hsame, ?_⟩
        rw [hremove, hfirst, hrepack]
        exact ⟨hstays.1, hnotFirst other hother, hstays.2⟩
    · refine .inr ⟨⟨_, hkeep, hkept⟩, blob, hblob, rfl, ?_⟩
      rw [hrepack]
      exact hrepacked
  · refine .inl ⟨blob, hblob, rfl, hlisted blob hblob rfl, ?_⟩
    rw [hremove, hfirst, hrepack]
    exact ⟨hnotRemoved, hnotFirst blob hblob, hrepacked⟩

end

/-! ## Repacking everything -/

/-- Options that repack every pack with used blobs, up to a number of bytes. -/
def repackEverything (maxRepackBytes : Nat) : PruneOptions :=
  { maxUnusedBytes := fun _ => 0, maxRepackBytes, repackAll := true }

/-- Whether the listing succeeds depends on the packs and not on the options. -/
theorem processPack_transfer (h : processPack opts version target state file = .ok state')
    (hsame : other.indexPack = state.indexPack) :
    ∃ other', processPack opts' version target' other file = .ok other' ∧
      other'.indexPack = state'.indexPack := by
  have herase : ∀ (opts : PruneOptions) (target : Nat) (state : PackActionState) (info : PackInfo),
      (processIndexedPack opts version target state file.1 file.2 info).indexPack =
        state.indexPack.erase file.1 := by
    intro opts target state info
    unfold processIndexedPack
    dsimp only
    repeat' split
    all_goals rfl
  unfold processPack at h ⊢
  rw [hsame]
  cases hinfo : state.indexPack.lookup file.1 with
  | none =>
    simp only [hinfo] at h
    cases h
    exact ⟨_, rfl, rfl⟩
  | some info =>
    simp only [hinfo] at h
    split at h
    · cases h
    · rename_i hsize
      cases h
      exact ⟨_, if_neg hsize, by rw [herase, herase, hsame]⟩

theorem foldlM_processPack_transfer
    (h : files.foldlM (processPack opts version target) state = .ok state')
    (hsame : other.indexPack = state.indexPack) :
    ∃ other', files.foldlM (processPack opts' version target') other = .ok other' ∧
      other'.indexPack = state'.indexPack := by
  induction files generalizing state other with
  | nil =>
    cases h
    exact ⟨other, rfl, hsame⟩
  | cons file rest ih =>
    obtain ⟨next, hnext, h⟩ := of_bind h
    obtain ⟨otherNext, hotherNext, hsame⟩ := processPack_transfer hnext hsame
    obtain ⟨other', hother', hend⟩ := ih h hsame
    exact ⟨other', bind_eq_ok.mpr ⟨otherNext, hotherNext, hother'⟩, hend⟩

theorem decidePackAction_transfer
    (h : decidePackAction opts source packs stats = .ok actions) :
    ∃ listed resolved,
      listPacks opts' source.version (calculateTargetPacksize opts' packs)
        ⟨packs, stats, ∅, ∅, [], []⟩ source.listing = .ok listed ∧
      resolveMissingPacks listed.indexPack listed.stats = .ok resolved := by
  obtain ⟨listed, hlisted, h⟩ := of_bind h
  obtain ⟨resolved, hresolved, -⟩ := of_bind h
  obtain ⟨other, hother, hsame⟩ := @foldlM_processPack_transfer opts opts' source.version _
    (calculateTargetPacksize opts' packs) _ _ ⟨packs, stats, ∅, ∅, [], []⟩ _ hlisted rfl
  exact ⟨other, _, hother, if_neg (hsame ▸ (of_guard hresolved).1)⟩

/-- A listed pack with used blobs becomes a candidate. -/
theorem foldlM_processPack_candidate {bytes : Nat} (hnodup : (files.map (·.1)).Nodup)
    (h : files.foldlM (processPack (repackEverything bytes) version target) state = .ok state') :
    (∀ candidate ∈ state.repackCandidates, candidate ∈ state'.repackCandidates) ∧
      ∀ id ∈ files.map (·.1), ∀ info, state.indexPack.lookup id = some info →
        info.usedBlobs ≠ 0 → ∃ candidate ∈ state'.repackCandidates, candidate.id = id := by
  induction files generalizing state with
  | nil =>
    cases h
    exact ⟨fun _ h => h, by simp⟩
  | cons file rest ih =>
    obtain ⟨next, hnext, h⟩ := of_bind h
    obtain ⟨hfresh, hnodup⟩ := List.nodup_cons.mp hnodup
    obtain ⟨hgrows, hrest⟩ := ih hnodup h
    have hspec := processPack_spec hnext
    -- With everything to be repacked, a used pack is appended to the candidates.
    have hstep : (∀ candidate ∈ state.repackCandidates, candidate ∈ next.repackCandidates) ∧
        ∀ info, state.indexPack.lookup file.1 = some info → info.usedBlobs ≠ 0 →
          ∃ candidate ∈ next.repackCandidates, candidate.id = file.1 := by
      unfold processPack at hnext
      split at hnext
      · rename_i hnone
        cases hnext
        refine ⟨fun _ h => h, fun info hinfo => ?_⟩
        rw [hnone] at hinfo
        cases hinfo
      · rename_i info hinfo
        split at hnext
        · cases hnext
        cases hnext
        unfold processIndexedPack
        by_cases hzero : info.usedBlobs = 0
        · refine ⟨fun _ h => by simpa [hzero] using h, fun other hother hused => ?_⟩
          cases hinfo.symm.trans hother
          exact absurd hzero hused
        · simp only [hzero, repackEverything, Bool.false_eq_true, false_and, if_false,
            if_true, List.mem_append, List.mem_singleton]
          exact ⟨fun _ h => .inl h, fun _ _ _ => ⟨_, .inr rfl, rfl⟩⟩
    refine ⟨fun candidate hmem => hgrows _ (hstep.1 _ hmem), fun id hid info hinfo hused => ?_⟩
    rcases List.mem_cons.mp hid with rfl | hid
    · obtain ⟨candidate, hmem, heq⟩ := hstep.2 info hinfo hused
      exact ⟨candidate, hgrows _ hmem, heq⟩
    refine hrest id hid info ?_ hused
    rw [hspec.indexPack, if_neg]
    · exact hinfo
    · rintro rfl
      exact hfresh hid

/-- Within the limit every candidate is repacked. -/
theorem foldl_selectRepackPack_all {bytes : Nat} {candidates : List PackCandidate}
    {state : Finset ID × PruneStats}
    (hbytes : state.2.size.repack + (candidates.map (·.info.size)).sum < bytes) :
    let result := candidates.foldl (selectRepackPack (repackEverything bytes) target 0) state
    state.1 ⊆ result.1 ∧ ∀ candidate ∈ candidates, candidate.id ∈ result.1 := by
  induction candidates generalizing state with
  | nil => exact ⟨Finset.Subset.refl _, by simp⟩
  | cons first rest ih =>
    rw [List.map_cons, List.sum_cons] at hbytes
    have hfirst : selectRepackPack (repackEverything bytes) target 0 state first =
        (insert first.id state.1, countRepack state.2 first.info) := by
      have hlimit : ¬state.2.size.repack + first.info.size ≥
          (repackEverything bytes).maxRepackBytes := by
        simp only [repackEverything]
        omega
      unfold selectRepackPack
      rw [if_neg hlimit]
      simp
    have hnext : (countRepack state.2 first.info).size.repack +
        (rest.map (·.info.size)).sum < bytes := by
      simp only [countRepack]
      omega
    obtain ⟨hgrows, hall⟩ := @ih (insert first.id state.1, countRepack state.2 first.info) hnext
    dsimp only
    rw [List.foldl_cons, hfirst]
    refine ⟨fun _ h => hgrows (Finset.mem_insert_of_mem h), fun candidate hcandidate => ?_⟩
    rcases List.mem_cons.mp hcandidate with rfl | hcandidate
    · exact hgrows (Finset.mem_insert_self _ _)
    · exact hall candidate hcandidate

/-- Where a plan exists, another one leaves no listed pack as it is. -/
theorem exists_planPrune_everything {used : List BlobHandle} {plan : PrunePlan}
    (h : planPrune opts source used = .ok plan) :
    ∃ bytes everything, planPrune (repackEverything bytes) source used = .ok everything ∧
      ∀ blob ∈ source.index, InListing source blob.packID →
        blob.packID ∈ everything.removePacks ∨ blob.packID ∈ everything.repackPacks := by
  obtain ⟨hcheck, hselect, hselected, actions, hactions, -⟩ := planPrune_inv h
  obtain ⟨listed, resolved, hlisted, hresolved⟩ :=
    @decidePackAction_transfer _ (repackEverything 0) _ _ _ _ hactions
  let target := calculateTargetPacksize (repackEverything 0)
    (selected source.index (usedHandles used)).packs
  let state := includeSmallCandidates { listed with stats := resolved.2 }
  let candidates := sortRepackCandidates state.repackCandidates target
  let bytes := state.stats.size.repack + (candidates.map (·.info.size)).sum + 1
  -- The number of bytes plays no part before the selection.
  have hdecide : ∃ everything, decidePackAction (repackEverything bytes) source
      (selected source.index (usedHandles used)).packs
      (selected source.index (usedHandles used)).stats = .ok everything ∧
        everything.repackPacks =
          (selectRepackPacks (repackEverything bytes) target candidates state.stats).1 :=
    ⟨_, bind_eq_ok.mpr ⟨listed, hlisted, bind_eq_ok.mpr ⟨resolved, hresolved, rfl⟩⟩, rfl⟩
  obtain ⟨everything, heverything, hrepack⟩ := hdecide
  have hspec := decidePackAction_spec heverything
  have hcheck' : checkPruneOptions (repackEverything bytes) source = .ok () := by
    obtain ⟨hmode, hcheck⟩ := of_guard hcheck
    obtain ⟨hconnections, -⟩ := of_guard hcheck
    simp [checkPruneOptions, hmode, hconnections, repackEverything]
  refine ⟨bytes, _, bind_eq_ok.mpr ⟨(), hcheck', bind_eq_ok.mpr ⟨_, hselect,
    bind_eq_ok.mpr ⟨everything, heverything, rfl⟩⟩⟩, fun blob hblob hlistedPack => ?_⟩
  obtain ⟨info, hinfo⟩ := (hselected.packs blob.packID).mpr ⟨blob, hblob, rfl⟩
  by_cases hzero : info.usedBlobs = 0
  · exact .inl ((hspec.removePacks _).mpr ⟨hlistedPack, info, hinfo, hzero⟩)
  obtain ⟨-, hcandidate⟩ := foldlM_processPack_candidate (nodup_listing_files source) hlisted
  obtain ⟨candidate, hmem, heq⟩ :=
    hcandidate blob.packID (mem_listing_files.mpr hlistedPack) info hinfo hzero
  have hincluded : candidate ∈ state.repackCandidates := by
    simp only [state, includeSmallCandidates]
    split
    · exact hmem
    · exact List.mem_append_left _ hmem
  obtain ⟨-, hall⟩ := @foldl_selectRepackPack_all target bytes candidates (∅, state.stats)
    (Nat.lt_succ_self _)
  refine .inr ?_
  dsimp only
  rw [hrepack, ← heq]
  exact hall candidate ((List.perm_insertionSort _ _).mem_iff.mpr hincluded)

/-- A call covers every used blob exactly if it keeps those of missing packs elsewhere; all calls
do, whatever the options, exactly if no used blob is indexed in a pack that is missing from the
listing. -/
theorem planPrune_covers_iff (source : PruneSource) (used : List BlobHandle)
    (hplan : ∃ opts plan, planPrune opts source used = .ok plan) :
    (∀ opts plan, planPrune opts source used = .ok plan →
      (CoversUsed source used plan ↔ MissingKept source used plan)) ∧
    ((∀ opts plan, planPrune opts source used = .ok plan → CoversUsed source used plan) ↔
      UsedListed source used) := by
  refine ⟨fun opts plan hok => planPrune_coversUsed_iff hok, fun hcovers blob hblob hused => ?_,
    fun hlisted opts plan hok => (planPrune_coversUsed_iff hok).mpr (hlisted.missingKept plan)⟩
  by_contra hmissing
  obtain ⟨opts, plan, hok⟩ := hplan
  obtain ⟨bytes, everything, heverything, hgone⟩ := exists_planPrune_everything hok
  have hkept := (planPrune_coversUsed_iff heverything).mp (hcovers _ everything heverything)
  obtain ⟨other, hother, -, hlisted, hnotRemoved, -, hnotRepacked⟩ :=
    hkept blob hblob hused hmissing
  exact (hgone other hother hlisted).elim hnotRemoved hnotRepacked

/-- Options like the defaults of the command: five percent of unused space, no limit
on what is repacked. -/
def defaultPruneOptions : PruneOptions :=
  { maxUnusedBytes := fun used => used * 5 / 95, maxRepackBytes := 2 ^ 64 - 1 }

/-- Pack 20 is indexed with the data blobs 1 and 4 but missing; pack 10 is there, with
the data blobs 1, 2 and 3. -/
def missingPackSource : PruneSource :=
  { index :=
      [⟨20, ⟨1, .data⟩, 10, true⟩, ⟨20, ⟨4, .data⟩, 10, true⟩, ⟨10, ⟨1, .data⟩, 10, true⟩,
        ⟨10, ⟨2, .data⟩, 20, true⟩, ⟨10, ⟨3, .data⟩, 30, true⟩]
    listing := (∅ : Table ID Nat).insert 10 219 }

/-- Blobs 1 and 2 are used.  Pack 10 is repacked, but blob 1 is not copied, since pack
20 is taken for one that stays. -/
theorem planPrune_drops_blob_of_missing_pack :
    ∃ plan, planPrune defaultPruneOptions missingPackSource [⟨1, .data⟩, ⟨2, .data⟩] = .ok plan ∧
      ¬CoversUsed missingPackSource [⟨1, .data⟩, ⟨2, .data⟩] plan := by
  have hrun : okAnd (planPrune defaultPruneOptions missingPackSource [⟨1, .data⟩, ⟨2, .data⟩])
      (fun plan => decide (plan.repackPacks = {10}) && plan.keepBlobs.all fun keep =>
        decide (keep.lookup ⟨1, .data⟩ = none)) = true := by
    decide +kernel
  obtain ⟨plan, hok, hplan⟩ := okAnd_eq_true.mp hrun
  obtain ⟨hrepack, hkeep⟩ := Bool.and_eq_true_iff.mp hplan
  refine ⟨plan, hok, fun hcovers => ?_⟩
  rcases hcovers ⟨1, .data⟩ List.mem_cons_self with
    ⟨blob, hblob, hhandle, ⟨size, hsize⟩, -, -, hstays⟩ | ⟨⟨keep, hsome, hkept⟩, -⟩
  · have hpack : blob.packID = 10 := by
      by_contra hne
      rw [missingPackSource, AList.lookup_insert_ne hne] at hsize
      simp at hsize
    rw [of_decide_eq_true hrepack, hpack] at hstays
    exact hstays (Finset.mem_singleton_self _)
  · rw [hsome] at hkeep
    exact hkept (of_decide_eq_true hkeep)

/-- The same repository with pack 20 present. -/
def completeSource : PruneSource :=
  { missingPackSource with listing := missingPackSource.listing.insert 20 138 }

theorem planPrune_covers_iff_sample :
    (∃ opts plan, planPrune opts completeSource [⟨1, .data⟩, ⟨2, .data⟩] = .ok plan) ∧
      (∀ opts plan, planPrune opts completeSource [⟨1, .data⟩, ⟨2, .data⟩] = .ok plan →
        (CoversUsed completeSource [⟨1, .data⟩, ⟨2, .data⟩] plan ↔
          MissingKept completeSource [⟨1, .data⟩, ⟨2, .data⟩] plan)) ∧
      ((∀ opts plan, planPrune opts completeSource [⟨1, .data⟩, ⟨2, .data⟩] = .ok plan →
          CoversUsed completeSource [⟨1, .data⟩, ⟨2, .data⟩] plan) ↔
        UsedListed completeSource [⟨1, .data⟩, ⟨2, .data⟩]) := by
  have hrun : okAnd (planPrune defaultPruneOptions completeSource [⟨1, .data⟩, ⟨2, .data⟩])
      (fun _ => true) = true := by
    decide +kernel
  obtain ⟨plan, hok, -⟩ := okAnd_eq_true.mp hrun
  exact ⟨⟨_, plan, hok⟩, planPrune_covers_iff _ _ ⟨_, plan, hok⟩⟩

end Vaultic.Repository
