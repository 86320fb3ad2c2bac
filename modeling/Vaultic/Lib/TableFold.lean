/-
  Lib/TableFold.lean  —  accumulating a list into a table, and the scan of a log.

  A fold that updates one entry for each item holds, under every key, the fold of the items
  with that key (`lookup_accumulate`).  A scan of a table that is used as a log follows the
  puts under new keys and the deletes, up to the order of the entries.
-/
import Vaultic.Lib.TableSum

set_option autoImplicit false

namespace Vaultic.Lib.Table

variable {κ ν β : Type} [DecidableEq κ]

/-! ## Accumulating by key -/

/-- Each item updates what is under its key; `start` stands in for a missing value. -/
def accumulate (key : β → κ) (update : ν → β → ν) (start : ν) (t : Table κ ν)
    (items : List β) : Table κ ν :=
  items.foldl (fun t item => t.insert (key item) (update ((t.lookup (key item)).getD start) item)) t

theorem foldl_some (update : ν → β → ν) (start : ν) (items : List β) (value : Option ν) :
    items.foldl (fun value item => some (update (value.getD start) item)) value =
      if items = [] then value else some (items.foldl update (value.getD start)) := by
  induction items generalizing value with
  | nil => rfl
  | cons item rest ih =>
    rw [List.foldl_cons, ih, if_neg (List.cons_ne_nil item rest), List.foldl_cons]
    cases rest with
    | nil => rfl
    | cons next more => rw [if_neg (List.cons_ne_nil next more), Option.getD_some]

theorem lookup_accumulate (key : β → κ) (update : ν → β → ν) (start : ν) (t : Table κ ν)
    (items : List β) (k : κ) :
    (accumulate key update start t items).lookup k =
      if items.filter (fun item => key item = k) = [] then t.lookup k
      else some ((items.filter fun item => key item = k).foldl update
        ((t.lookup k).getD start)) := by
  rw [← foldl_some]
  induction items generalizing t with
  | nil => rfl
  | cons item rest ih =>
    unfold accumulate at ih ⊢
    rw [List.foldl_cons, ih, lookup_insert_eq]
    by_cases hkey : key item = k
    · rw [if_pos hkey, List.filter_cons_of_pos (by simpa using hkey), List.foldl_cons, hkey]
    · rw [if_neg hkey, List.filter_cons_of_neg (by simpa using hkey)]

/-! ## Scans of a log -/

theorem scan_insert_of_lookup_none {t : Table κ ν} {select : κ → ν → Option β} {k : κ} {v : ν}
    (hnew : t.lookup k = none) :
    Table.scan (t.insert k v) select = (select k v).toList ++ t.scan select := by
  have hkeys : k ∉ t.entries.keys := AList.lookup_eq_none.mp hnew
  unfold scan
  rw [AList.entries_insert, List.kerase_of_notMem_keys hkeys, List.filterMap_cons]
  cases select k v <;> rfl

/-- A batch of puts under new keys adds what the scan selects of it. -/
theorem scan_putAll_perm {t : Table κ ν} (select : κ → ν → Option β) {puts : List (κ × ν)}
    (hnodup : (puts.map Prod.fst).Nodup) (hnew : ∀ p ∈ puts, t.lookup p.1 = none) :
    ((t.putAll puts).scan select).Perm
      (t.scan select ++ puts.filterMap fun p => select p.1 p.2) := by
  induction puts generalizing t with
  | nil => simp
  | cons p rest ih =>
    rw [List.map_cons, List.nodup_cons] at hnodup
    have hrest : ∀ q ∈ rest, AList.lookup q.1 (t.insert p.1 p.2) = none := by
      intro q hq
      have hne : p.1 ≠ q.1 := fun heq => hnodup.1 (heq ▸ List.mem_map_of_mem hq)
      rw [lookup_insert_eq, if_neg hne]
      exact hnew q (.tail _ hq)
    rw [putAll_cons]
    refine (ih hnodup.2 hrest).trans ?_
    rw [scan_insert_of_lookup_none (hnew p (.head _)), List.filterMap_cons]
    cases select p.1 p.2 with
    | none => exact .refl _
    | some b => exact List.perm_middle.symm

theorem scan_erase (t : Table κ ν) (select : κ → ν → Option β) (k : κ) :
    Table.scan (t.erase k) select =
      t.scan fun key value => if key = k then none else select key value := by
  have hentries : ∀ entries : List (Sigma fun _ : κ => ν), entries.NodupKeys →
      (entries.kerase k).filterMap (fun e => select e.1 e.2) =
        entries.filterMap fun e => if e.1 = k then none else select e.1 e.2 := by
    intro entries hnodup
    induction entries with
    | nil => rfl
    | cons entry rest ih =>
      rw [List.nodupKeys_cons] at hnodup
      by_cases hkey : k = entry.1
      · have hkept : rest.filterMap (fun e => if e.1 = k then none else select e.1 e.2) =
            rest.filterMap fun e => select e.1 e.2 := by
          refine List.filterMap_congr ?_
          intro e he
          have hne : e.1 ≠ k := fun heq =>
            hnodup.1 (hkey ▸ heq ▸ List.mem_keys_of_mem he)
          rw [if_neg hne]
        rw [List.kerase_cons_eq hkey, List.filterMap_cons, if_pos hkey.symm, hkept]
      · rw [List.kerase_cons_ne hkey, List.filterMap_cons, List.filterMap_cons,
          if_neg (Ne.symm hkey), ih hnodup.2]
  exact hentries t.entries t.nodupKeys

theorem scan_deleteAll (t : Table κ ν) (select : κ → ν → Option β) (keys : List κ) :
    (t.deleteAll keys).scan select =
      t.scan fun key value => if key ∈ keys then none else select key value := by
  induction keys generalizing t with
  | nil => simp
  | cons k rest ih =>
    rw [deleteAll_cons, ih, scan_erase]
    congr 1
    funext key value
    by_cases hkey : key = k <;> simp [hkey]

end Vaultic.Lib.Table
