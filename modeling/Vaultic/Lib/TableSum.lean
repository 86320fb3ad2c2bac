/-
  Lib/TableSum.lean  —  totals over the entries of a table.

  A weight assigns each entry of a table an element of a commutative monoid; the sum of a
  table adds them up.  The rules here say how a sum moves when entries are put, replaced and
  erased.  They are stated as balances, new total plus what was replaced against old total
  plus what was written, so that no subtraction is needed.
-/
import Vaultic.Lib.Result

set_option autoImplicit false

namespace Vaultic.Lib.Table

variable {κ ν M : Type} [AddCommMonoid M]

/-- The weight of all entries together. -/
def sum (t : Table κ ν) (w : κ → ν → M) : M :=
  (t.entries.map fun e => w e.1 e.2).sum

@[simp] theorem sum_empty (w : κ → ν → M) : (∅ : Table κ ν).sum w = 0 := rfl

variable [DecidableEq κ]

/-- The weight of what a table has under a key. -/
def weightAt (t : Table κ ν) (w : κ → ν → M) (k : κ) : M :=
  (t.lookup k).elim 0 (w k)

variable {t : Table κ ν} {w : κ → ν → M}

theorem weightAt_of_lookup {k : κ} {v : ν} (h : t.lookup k = some v) : t.weightAt w k = w k v := by
  rw [weightAt, h]
  rfl

theorem weightAt_of_lookup_none {k : κ} (h : t.lookup k = none) : t.weightAt w k = 0 := by
  rw [weightAt, h]
  rfl

/-! ## One entry -/

theorem entries_erase (t : Table κ ν) (k : κ) :
    AList.entries (t.erase k) = t.entries.kerase k := rfl

theorem sum_erase (t : Table κ ν) (w : κ → ν → M) (k : κ) :
    Table.sum (t.erase k) w + t.weightAt w k = t.sum w := by
  cases hlook : t.lookup k with
  | none =>
    have hkeys : k ∉ t.entries.keys := AList.lookup_eq_none.mp hlook
    rw [weightAt_of_lookup_none hlook, add_zero, sum, sum, entries_erase,
      List.kerase_of_notMem_keys hkeys]
  | some v =>
    have hkeys : k ∈ t.entries.keys := AList.lookup_isSome.mp (by rw [hlook]; rfl)
    obtain ⟨v', front, back, -, hentries, herase⟩ := List.exists_of_kerase hkeys
    have hv : v' = v := by
      have hmem : ⟨k, v'⟩ ∈ t.entries := by
        rw [hentries]
        simp
      exact List.NodupKeys.eq_of_mk_mem t.nodupKeys hmem (mem_entries_iff.mpr hlook)
    rw [weightAt_of_lookup hlook, ← hv, sum, sum, entries_erase, herase, hentries]
    simp only [List.map_append, List.map_cons, List.sum_append, List.sum_cons]
    rw [add_assoc, add_comm _ (w k v')]

theorem sum_insert (t : Table κ ν) (w : κ → ν → M) (k : κ) (v : ν) :
    Table.sum (t.insert k v) w + t.weightAt w k = t.sum w + w k v := by
  have hentries : Table.sum (t.insert k v) w = w k v + Table.sum (t.erase k) w := by
    simp [sum, AList.entries_insert, entries_erase]
  rw [hentries, add_assoc, sum_erase, add_comm]

/-- A new entry adds its weight. -/
theorem sum_insert_fresh {k : κ} {v : ν} (h : t.lookup k = none) :
    Table.sum (t.insert k v) w = t.sum w + w k v := by
  rw [← sum_insert, weightAt_of_lookup_none h, add_zero]

/-! ## What a sum depends on -/

omit [DecidableEq κ] in
/-- Entries without weight can be left out. -/
theorem sum_eq_filter (t : Table κ ν) {counted : κ → Bool}
    (hw : ∀ k v, counted k = false → w k v = 0) :
    t.sum w = ((t.entries.filter fun e => counted e.1).map fun e => w e.1 e.2).sum := by
  unfold sum
  induction t.entries with
  | nil => rfl
  | cons e rest ih =>
    cases hcounted : counted e.1 with
    | true => simp [hcounted, ih]
    | false => simp [hcounted, ih, hw e.1 e.2 hcounted]

/-- Tables that agree on the keys that carry weight have the same sum. -/
theorem sum_congr {t t' : Table κ ν} {counted : κ → Bool}
    (hw : ∀ k v, counted k = false → w k v = 0)
    (h : ∀ k, counted k = true → t.lookup k = t'.lookup k) : t.sum w = t'.sum w := by
  rw [sum_eq_filter t hw, sum_eq_filter t' hw]
  refine ((List.perm_ext_iff_of_nodup ?_ ?_).mpr ?_).map _ |>.sum_eq
  · exact t.nodupKeys.nodup.filter _
  · exact t'.nodupKeys.nodup.filter _
  rintro ⟨k, v⟩
  simp only [List.mem_filter, mem_entries_iff]
  refine and_congr_left fun hcounted => ?_
  rw [h k hcounted]

theorem sum_eq_zero (h : ∀ k v, t.lookup k = some v → w k v = 0) : t.sum w = 0 := by
  refine List.sum_eq_zero fun weight hweight => ?_
  obtain ⟨⟨k, v⟩, hmem, rfl⟩ := List.mem_map.mp hweight
  exact h k v (mem_entries_iff.mp hmem)

/-- A sum over any set of keys that has all of the table. -/
theorem sum_eq_finset_sum (t : Table κ ν) (w : κ → ν → M) {keys : Finset κ}
    (h : ∀ k ∉ keys, t.lookup k = none) : t.sum w = ∑ k ∈ keys, t.weightAt w k := by
  have hsubset : t.keys.toFinset ⊆ keys := by
    intro k hk
    by_contra hout
    exact AList.lookup_eq_none.mp (h k hout) (List.mem_toFinset.mp hk)
  have hentries : (t.entries.map fun e => w e.1 e.2) = t.keys.map (t.weightAt w) := by
    rw [AList.keys, List.keys, List.map_map]
    refine List.map_congr_left fun e he => ?_
    exact (weightAt_of_lookup (mem_entries_iff.mp he)).symm
  rw [sum, hentries, ← List.sum_toFinset _ (AList.keys_nodup t)]
  refine Finset.sum_subset hsubset fun k _ hout => weightAt_of_lookup_none ?_
  exact AList.lookup_eq_none.mpr fun hk => hout (List.mem_toFinset.mpr hk)

/-- Tables have the same sum when each key weighs the same. -/
theorem sum_of_weightAt {μ : Type} {t' : Table κ μ} {w' : κ → μ → M}
    (h : ∀ k, t.weightAt w k = t'.weightAt w' k) : t.sum w = t'.sum w' := by
  have hout : ∀ k ∉ t.keys.toFinset ∪ t'.keys.toFinset, t.lookup k = none ∧ t'.lookup k = none := by
    intro k hk
    rw [Finset.mem_union, List.mem_toFinset, List.mem_toFinset, not_or] at hk
    exact ⟨AList.lookup_eq_none.mpr hk.1, AList.lookup_eq_none.mpr hk.2⟩
  rw [sum_eq_finset_sum t w fun k hk => (hout k hk).1,
    sum_eq_finset_sum t' w' fun k hk => (hout k hk).2]
  exact Finset.sum_congr rfl fun k _ => h k

omit [DecidableEq κ] in
/-- A sum over what a scan that decodes its entries has collected. -/
theorem sum_of_collectBy {ε α β : Type} {select : κ → Option α} {decode : ν → Except ε β}
    {bs : List (α × β)} (h : t.collectBy select decode = .ok bs) {g : α → β → M}
    (hnone : ∀ k v, select k = none → w k v = 0)
    (hsome : ∀ k v a b, select k = some a → decode v = .ok b → w k v = g a b) :
    t.sum w = (bs.map fun p => g p.1 p.2).sum := by
  rw [collectBy, collect_eq_ok] at h
  unfold sum
  unfold scan at h
  beta_reduce at h
  generalize t.entries = entries at h ⊢
  induction entries generalizing bs with
  | nil =>
    rw [List.filterMap_nil, eq_comm, List.map_eq_nil_iff] at h
    rw [h]
    rfl
  | cons e rest ih =>
    rw [List.map_cons, List.sum_cons]
    cases hselect : select e.1 with
    | none =>
      rw [List.filterMap_cons_none (by rw [hselect, Option.map_none])] at h
      rw [hnone e.1 e.2 hselect, zero_add, ih h]
    | some a =>
      rw [List.filterMap_cons_some (by rw [hselect, Option.map_some])] at h
      obtain ⟨p, ps, rfl, hp, hps⟩ := List.map_eq_cons_iff.mp h.symm
      cases hdecode : decode e.2 with
      | error text =>
        rw [hdecode] at hp
        cases hp
      | ok b =>
        rw [hdecode] at hp
        obtain rfl : p = (a, b) := Except.ok.inj hp
        rw [List.map_cons, List.sum_cons, hsome e.1 e.2 a b hselect hdecode, ih hps.symm]

/-- What a key weighs is part of the sum. -/
theorem weightAt_le_sum (t : Table κ ν) (w : κ → ν → Nat) (k : κ) : t.weightAt w k ≤ t.sum w :=
  Nat.le.intro ((add_comm _ _).trans (sum_erase t w k))

end Vaultic.Lib.Table
