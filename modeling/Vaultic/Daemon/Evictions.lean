/-
  Daemon/Evictions.lean  —  evicting placements and what the daemon does to them.

  Source: internal/index/daemon/schema_store_import.go.

  Marking a pack delete-pending makes its live and pending placements evicting, each with
  the time after which it may be deleted (`evicting_of_marked`).  No operation of the daemon
  changes an evicting placement of a pack, except a publication of the same pack and the
  completion of its deletion.
-/
import Vaultic.Daemon.Usage

set_option autoImplicit false

namespace Vaultic.Daemon

open Vaultic.Lib Vaultic.Schema

/-- The pack has an evicting placement on the backend, to be kept until the deadline. -/
def EvictingAt (store : SchemaStore) (pack : ID) (backend : Nat) (deadline : Int) : Prop :=
  ∃ placement, store.lookup (.packPlacement pack backend) = some (.placement placement) ∧
    placement.state = .evicting ∧ placement.deleteAfter = deadline

/-- Every evicting placement of the pack is left as it is. -/
def KeepsEvicting (pack : ID) (store store' : SchemaStore) : Prop :=
  ∀ backend deadline, EvictingAt store pack backend deadline →
    EvictingAt store' pack backend deadline

theorem KeepsEvicting.refl (pack : ID) (store : SchemaStore) : KeepsEvicting pack store store :=
  fun _ _ h => h

variable {pack : ID}

theorem KeepsEvicting.trans {a b c : SchemaStore} (hab : KeepsEvicting pack a b)
    (hbc : KeepsEvicting pack b c) : KeepsEvicting pack a c :=
  fun backend deadline h => hbc backend deadline (hab backend deadline h)

variable {store store' : SchemaStore}

theorem KeepsEvicting.of_lookup (h : ∀ backend, store'.lookup (.packPlacement pack backend) =
      store.lookup (.packPlacement pack backend)) : KeepsEvicting pack store store' := by
  intro backend deadline hevicting
  obtain ⟨placement, hlookup, hrest⟩ := hevicting
  exact ⟨placement, (h backend).trans hlookup, hrest⟩

/-! ## Batches -/

/-- The key is not that of a placement of the pack. -/
def AvoidsPlacements (pack : ID) (key : Key) : Prop := ∀ backend, key ≠ .packPlacement pack backend

theorem avoidsPlacements_of_bookkeeping {key : Key} (h : isCatalogKey key = false) (pack : ID) :
    AvoidsPlacements pack key := by
  intro backend heq
  rw [heq] at h
  cases h

variable {store : SchemaStore} {puts : List Mutation}

theorem keepsEvicting_batch {deletes : List Key} (hputs : ∀ put ∈ puts, AvoidsPlacements pack put.1)
    (hdeletes : ∀ key ∈ deletes, AvoidsPlacements pack key) :
    KeepsEvicting pack store ((store.putAll puts).deleteAll deletes) := by
  apply KeepsEvicting.of_lookup
  intro backend
  have hkept : (.packPlacement pack backend : Key) ∉ deletes :=
    fun hmem => hdeletes _ hmem backend rfl
  rw [Table.lookup_deleteAll, if_neg hkept]
  exact Table.lookup_putAll_of_forall_ne fun put hput => hputs put hput backend

theorem Bookkeeping.keepsEvicting (h : Bookkeeping puts) :
    KeepsEvicting pack store (store.putAll puts) :=
  .of_lookup fun _ => Table.lookup_putAll_of_forall_ne (h.ne rfl)

/-! ## Operations on packs -/

variable {limits : Limits} {now : Int}

/-- A publication of another pack keeps the evicting placements. -/
theorem keepsEvicting_publishPack {published : PublishedPack}
    (hother : published.packID ≠ pack) (h : publishPack limits now store published = .ok store') :
    KeepsEvicting pack store store' := by
  obtain ⟨blobs, old, record, placements, side, -, -, -, hplacements, hside, rfl⟩ :=
    publishPack_inv h
  apply KeepsEvicting.of_lookup
  intro backend
  rw [hside.lookup rfl]
  apply Table.lookup_putAll_of_forall_ne
  refine List.forall_mem_append.mpr ⟨List.forall_mem_map.mpr fun _ _ => nofun, ?_⟩
  refine List.forall_mem_cons.mpr ⟨nofun, fun put hput heq => ?_⟩
  obtain ⟨owner, hkey | hkey⟩ := placementMutations_keys hplacements hput
  · exact hother (Key.packPlacement.inj (hkey.symm.trans heq)).1
  · cases hkey.symm.trans heq

/-! ## Deletion -/

variable {backends : List Nat} {backend : Nat} {placement : PlacementRecord}

/-- The placements after a pack was marked: those of the pack that the scan has found are
evicted, all others stay. -/
theorem lookup_placement_marked {marked : ID}
    (hpending : lifecycleOf store marked ≠ some .deletePending)
    (h : markPackDeletePendingOnce now store marked backends = .ok store')
    (hstored : store.lookup (.packPlacement pack backend) = some (.placement placement)) :
    store'.lookup (.packPlacement pack backend) =
      if pack = marked ∧ backend ∈ backends then
        some (.placement ((evictPlacement now placement).getD placement))
      else some (.placement placement) := by
  obtain ⟨record, hrecord, ⟨hlifecycle, -⟩ | ⟨-, evictions, side, hevictions, hside, rfl⟩⟩ :=
    markPackDeletePendingOnce_inv h
  · exact absurd (hlifecycle ▸ lifecycleOf_of_lookup hrecord) hpending
  rw [hside.lookup rfl, Table.putAll_cons]
  -- The only puts under the key are those of its own eviction.
  have hputs : ∀ put ∈ evictions.flatten, put.1 = .packPlacement pack backend →
      pack = marked ∧ backend ∈ backends ∧ ∃ evicted,
        evictPlacement now placement = some evicted ∧ put.2 = .placement evicted := by
    intro put hput hkey
    obtain ⟨owner, howner, found, evicted, hfound, hevicted, hput⟩ := mem_evictions hevictions hput
    simp only [evictedPuts, placedPuts, List.cons_append, List.nil_append, List.mem_cons,
      List.not_mem_nil, or_false] at hput
    rcases hput with rfl | rfl | rfl
    · obtain ⟨rfl, rfl⟩ := Key.packPlacement.inj hkey
      rw [hstored] at hfound
      cases hfound
      exact ⟨rfl, howner, evicted, hevicted, rfl⟩
    · cases hkey
    · cases hkey
  rcases Table.lookup_putAll_or (AList.insert _ _ store) evictions.flatten _ with
    ⟨value, hmem, hlook⟩ | ⟨hne, hlook⟩ <;> rw [hlook]
  · obtain ⟨hpack, hbackend, evicted, hevicted, rfl⟩ := hputs _ hmem rfl
    rw [if_pos ⟨hpack, hbackend⟩, hevicted]
    rfl
  rw [AList.lookup_insert_ne (by simp), hstored]
  split_ifs with hscanned
  · obtain ⟨rfl, hbackend⟩ := hscanned
    cases hevict : evictPlacement now placement with
    | none => rfl
    | some evicted =>
      obtain ⟨group, hgroup, hrun⟩ := ok_of_mapM_map hevictions hbackend
      have hmem : (.packPlacement pack backend, .placement evicted) ∈ group := by
        obtain ⟨-, hstays⟩ | ⟨found, evicted', hfound, hevicted, rfl⟩ := planEviction_spec hrun
        · rw [hstays placement hstored] at hevict
          cases hevict
        rw [hstored] at hfound
        cases hfound
        rw [hevict] at hevicted
        cases hevicted
        exact .head _
      exact absurd rfl (hne _ (List.mem_flatten.mpr ⟨group, hgroup, hmem⟩))
  · rfl

/-- Marking a pack, this one or another, keeps the placements that are evicting already. -/
theorem keepsEvicting_markPackDeletePending {marked : ID}
    (h : markPackDeletePendingOnce now store marked backends = .ok store') :
    KeepsEvicting pack store store' := by
  by_cases hpending : lifecycleOf store marked = some .deletePending
  · obtain ⟨record, hrecord, ⟨-, rfl⟩ | ⟨hpublished, -⟩⟩ := markPackDeletePendingOnce_inv h
    · exact .refl pack store'
    · rw [lifecycleOf_of_lookup hrecord, hpublished] at hpending
      cases hpending
  · intro backend deadline hevicting
    obtain ⟨placement, hstored, hstate, hdeadline⟩ := hevicting
    have hmarked := lookup_placement_marked hpending h hstored
    have hstays : evictPlacement now placement = none := by simp [evictPlacement, hstate]
    rw [hstays, Option.getD_none, ite_self] at hmarked
    exact ⟨placement, hmarked, hstate, hdeadline⟩

/-- The deadline of a live or pending placement once its pack is marked: it is not before the
time of the marking, nor before the end of a known retention. -/
theorem evicting_of_marked (hpending : lifecycleOf store pack ≠ some .deletePending)
    (h : markPackDeletePending now store pack = .ok store')
    (hstored : store.lookup (.packPlacement pack backend) = some (.placement placement))
    (hstate : placement.state = .live ∨ placement.state = .pending) :
    ∃ deadline, EvictingAt store' pack backend deadline ∧ now ≤ deadline ∧
      (placement.retentionSource ≠ .unknown → placement.minRetentionUntil ≤ deadline) := by
  have hmarked := (lookup_placement_marked hpending h hstored).trans
    (if_pos ⟨rfl, Table.mem_scan.mpr ⟨_, _, hstored, if_pos rfl⟩⟩)
  have hactive : ¬(placement.state ≠ .live ∧ placement.state ≠ .pending) := by
    intro hneither
    rcases hstate with hlive | hlive
    · exact hneither.1 hlive
    · exact hneither.2 hlive
  unfold evictPlacement at hmarked
  rw [if_neg hactive] at hmarked
  refine ⟨_, ⟨_, hmarked, rfl, rfl⟩, ?_, ?_⟩
  · dsimp only [Option.getD_some]
    split_ifs with hretained
    · omega
    · exact le_rfl
  · intro hknown
    dsimp only [Option.getD_some]
    split_ifs with hretained
    · exact le_rfl
    · by_contra hlater
      exact hretained ⟨hknown, by omega⟩

/-- Completing the deletion of another pack keeps the evicting placements. -/
theorem keepsEvicting_markPackDeleted {deleted pack : ID}
    {members : List ID} (hother : deleted ≠ pack)
    (h : markPackDeletedOnce limits now store deleted members backends = .ok store') :
    KeepsEvicting pack store store' := by
  obtain ⟨-, placements, stripped, side, stale, hplacements, hstripped, hside, hstale, rfl⟩ :=
    markPackDeletedOnce_inv h
  refine keepsEvicting_batch (List.forall_mem_append.mpr ⟨?_, ?_⟩)
    (List.forall_mem_cons.mpr ⟨nofun, List.forall_mem_append.mpr ⟨?_,
      List.forall_mem_append.mpr ⟨?_, ?_⟩⟩⟩)
  · intro put hput backend
    obtain ⟨blob, -, result, -, -, hkey⟩ := mem_strippedPuts hstripped hput
    simp [hkey]
  · exact fun put hput => avoidsPlacements_of_bookkeeping (hside put hput) pack
  · intro key hkey backend
    obtain ⟨group, hgroup, hkey⟩ := List.mem_flatten.mp hkey
    obtain ⟨owner, -, hrun⟩ := (mem_of_mapM_map hplacements).mp hgroup
    obtain rfl | rfl | ⟨deadline, rfl⟩ := placementDeletes_keys hrun hkey <;> simp [hother]
  · intro key hkey backend
    obtain ⟨blob, -, result, -, -, rfl⟩ := mem_strippedDeletes hstripped hkey
    simp
  · exact fun key hkey => avoidsPlacements_of_bookkeeping (hstale key hkey) pack

end Vaultic.Daemon
