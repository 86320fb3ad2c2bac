/-
  Lib/Table.lean  —  finite keyed tables and batched writes.

  A table is Mathlib's association list without repeated keys, at one value
  type for every key.  This module adds what a keyed store needs on top of it:
  scans that select and decode entries, batches of puts and deletes, and the
  number of stored keys that satisfy a predicate.

  Nothing here depends on what the keys or the values are.
-/
import Mathlib

set_option autoImplicit false

namespace Vaultic.Lib

/-- A finite map from `κ` to `ν`. -/
abbrev Table (κ ν : Type) : Type := AList (fun _ : κ => ν)

namespace Table

variable {κ ν β : Type} [DecidableEq κ]

/-! ## Scans -/

/-- Every entry that `select` accepts, in the order of the table. -/
def scan (t : Table κ ν) (select : κ → ν → Option β) : List β :=
  t.entries.filterMap fun e => select e.1 e.2

theorem mem_entries_iff {t : Table κ ν} {k : κ} {v : ν} :
    (⟨k, v⟩ : Sigma fun _ : κ => ν) ∈ t.entries ↔ t.lookup k = some v :=
  (AList.mem_lookup_iff (a := k) (b := v) (s := t)).symm

/-- A scan returns exactly what `select` makes of the stored pairs. -/
theorem mem_scan {t : Table κ ν} {select : κ → ν → Option β} {b : β} :
    b ∈ t.scan select ↔ ∃ k v, t.lookup k = some v ∧ select k v = some b := by
  unfold scan
  rw [List.mem_filterMap]
  constructor
  · rintro ⟨⟨k, v⟩, hmem, hsel⟩
    exact ⟨k, v, mem_entries_iff.mp hmem, hsel⟩
  · rintro ⟨k, v, hlook, hsel⟩
    exact ⟨⟨k, v⟩, mem_entries_iff.mpr hlook, hsel⟩

/-! ## Batched writes -/

/-- A scan for the keys of one shape finds those that are stored. -/
theorem mem_scan_keys {t : Table κ ν} {select : κ → Option β} {shape : β → κ}
    (h : ∀ k b, select k = some b ↔ k = shape b) {b : β} :
    b ∈ t.scan (fun k _ => select k) ↔ (t.lookup (shape b)).isSome := by
  rw [mem_scan, Option.isSome_iff_exists]
  constructor
  · rintro ⟨k, v, hlook, hselect⟩
    exact ⟨v, (h k b).mp hselect ▸ hlook⟩
  · rintro ⟨v, hlook⟩
    exact ⟨shape b, v, hlook, (h _ b).mpr rfl⟩

/-- The puts of a batch, applied in order: a later put of a key wins. -/
def putAll (t : Table κ ν) (puts : List (κ × ν)) : Table κ ν :=
  puts.foldl (fun acc p => acc.insert p.1 p.2) t

/-- The deletes of a batch; deleting an absent key changes nothing. -/
def deleteAll (t : Table κ ν) (keys : List κ) : Table κ ν :=
  keys.foldl (fun acc k => acc.erase k) t

/-- What a batch finally puts under a key, if it puts anything there. -/
def lastPut (puts : List (κ × ν)) (k : κ) : Option ν :=
  match puts with
  | [] => none
  | p :: rest => (lastPut rest k).orElse fun _ => if p.1 = k then some p.2 else none

section

variable (t : Table κ ν)
include t

@[simp] theorem putAll_nil : t.putAll [] = t := rfl

@[simp] theorem putAll_cons (p : κ × ν) (rest : List (κ × ν)) :
    t.putAll (p :: rest) = Table.putAll (t.insert p.1 p.2) rest := rfl

theorem putAll_append (left right : List (κ × ν)) :
    t.putAll (left ++ right) = (t.putAll left).putAll right := by
  unfold putAll
  rw [List.foldl_append]

@[simp] theorem deleteAll_nil : t.deleteAll [] = t := rfl

@[simp] theorem deleteAll_cons (k : κ) (rest : List κ) :
    t.deleteAll (k :: rest) = Table.deleteAll (t.erase k) rest := rfl

theorem lookup_insert_eq (a k : κ) (v : ν) :
    (t.insert a v).lookup k = if a = k then some v else t.lookup k := by
  by_cases h : a = k
  · subst h
    rw [if_pos rfl]
    exact AList.lookup_insert t
  · rw [if_neg h]
    exact AList.lookup_insert_ne (Ne.symm h)

theorem lookup_erase_eq (a k : κ) : (t.erase a).lookup k = if a = k then none else t.lookup k := by
  by_cases h : a = k
  · subst h
    rw [if_pos rfl]
    exact AList.lookup_erase a t
  · rw [if_neg h]
    exact AList.lookup_erase_ne (Ne.symm h)

theorem lookup_putAll (puts : List (κ × ν)) (k : κ) :
    (t.putAll puts).lookup k = (lastPut puts k).orElse fun _ => t.lookup k := by
  induction puts generalizing t with
  | nil => rfl
  | cons p rest ih =>
    rw [putAll_cons, ih, lookup_insert_eq]
    simp only [lastPut]
    cases lastPut rest k with
    | some v => rfl
    | none =>
      by_cases h : p.1 = k <;> simp [h]

theorem lookup_deleteAll (keys : List κ) (k : κ) :
    (t.deleteAll keys).lookup k = if k ∈ keys then none else t.lookup k := by
  induction keys generalizing t with
  | nil => simp
  | cons a rest ih =>
    rw [deleteAll_cons, ih, lookup_erase_eq]
    by_cases hrest : k ∈ rest
    · simp [hrest]
    · by_cases h : a = k
      · simp [h]
      · simp [hrest, h, Ne.symm h]

end

variable {t : Table κ ν} {puts : List (κ × ν)} {a k : κ} {v : ν}

theorem mem_iff_lookup : k ∈ t ↔ ∃ v, t.lookup k = some v := by
  rw [← AList.lookup_isSome, Option.isSome_iff_exists]

theorem lookup_insert_cases {w : ν} (h : (t.insert a v).lookup k = some w) :
    a = k ∧ v = w ∨ a ≠ k ∧ t.lookup k = some w := by
  rw [lookup_insert_eq] at h
  split at h
  · exact .inl ⟨‹_›, Option.some.inj h⟩
  · exact .inr ⟨‹_›, h⟩

theorem isSome_lookup_insert (h : (t.lookup k).isSome) : ((t.insert a v).lookup k).isSome := by
  rw [lookup_insert_eq]
  split
  · rfl
  · exact h

theorem lookup_of_erase (h : (t.erase a).lookup k = some v) : t.lookup k = some v := by
  rw [lookup_erase_eq] at h
  split at h
  · cases h
  · exact h

theorem lastPut_eq_none : lastPut puts k = none ↔ ∀ p ∈ puts, p.1 ≠ k := by
  induction puts with
  | nil => simp [lastPut]
  | cons p rest ih =>
    rw [List.forall_mem_cons, ← ih]
    simp only [lastPut]
    cases lastPut rest k with
    | some v => simp
    | none => by_cases h : p.1 = k <;> simp [h]

theorem mem_of_lastPut_eq_some (h : lastPut puts k = some v) : (k, v) ∈ puts := by
  induction puts with
  | nil => simp [lastPut] at h
  | cons p rest ih =>
    simp only [lastPut] at h
    cases hrest : lastPut rest k with
    | some w =>
      rw [hrest] at h
      have hwv : w = v := by simpa using h
      exact .tail _ (ih (by rw [hrest, hwv]))
    | none =>
      rw [hrest] at h
      by_cases hk : p.1 = k
      · have hv : p.2 = v := by simpa [hk] using h
        rw [← hk, ← hv]
        exact .head _
      · simp [hk] at h

/-- A key that a batch of puts does not name keeps its value. -/
theorem lookup_putAll_of_forall_ne (h : ∀ p ∈ puts, p.1 ≠ k) :
    (t.putAll puts).lookup k = t.lookup k := by
  rw [lookup_putAll, lastPut_eq_none.mpr h]
  rfl

/-- Under a key stands what a batch of puts has put there or, if it puts nothing there, what
stood there before. -/
theorem lookup_putAll_or (t : Table κ ν) (puts : List (κ × ν)) (k : κ) :
    (∃ v, (k, v) ∈ puts ∧ (t.putAll puts).lookup k = some v) ∨
      (∀ p ∈ puts, p.1 ≠ k) ∧ (t.putAll puts).lookup k = t.lookup k := by
  rw [lookup_putAll]
  cases hlast : lastPut puts k with
  | some v => exact .inl ⟨v, mem_of_lastPut_eq_some hlast, rfl⟩
  | none => exact .inr ⟨lastPut_eq_none.mp hlast, rfl⟩

/-- What is stored after a batch of puts was put by it or was there before. -/
theorem lookup_putAll_cases (h : (t.putAll puts).lookup k = some v) :
    (k, v) ∈ puts ∨ ((∀ p ∈ puts, p.1 ≠ k) ∧ t.lookup k = some v) := by
  rcases lookup_putAll_or t puts k with ⟨w, hmem, hlook⟩ | ⟨hne, hlook⟩
  · cases hlook.symm.trans h
    exact .inl hmem
  · exact .inr ⟨hne, hlook.symm.trans h⟩

/-- A key that a batch puts is stored. -/
theorem isSome_lookup_putAll (h : (k, v) ∈ puts) : ((t.putAll puts).lookup k).isSome := by
  rcases lookup_putAll_or t puts k with ⟨v, -, hlook⟩ | ⟨hne, -⟩
  · rw [hlook]
    rfl
  · exact absurd rfl (hne _ h)

/-- When all puts of a key agree, the batch stores that value. -/
theorem lookup_putAll_of_mem (hmem : (k, v) ∈ puts) (hagree : ∀ w, (k, w) ∈ puts → w = v) :
    (t.putAll puts).lookup k = some v := by
  rcases lookup_putAll_or t puts k with ⟨w, hput, hlook⟩ | ⟨hne, -⟩
  · rw [hlook, hagree w hput]
  · exact absurd rfl (hne (k, v) hmem)

/-- Writing the image of another table: under the image of a key stands what was
made of its value, and all else is as before. -/
theorem lookup_putAll_entries {α γ : Type} [DecidableEq α] {s : Table α γ}
    {f : α → κ} {g : α → γ → ν} (hf : Function.Injective f) (k : α) :
    (t.putAll (s.entries.map fun e => (f e.1, g e.1 e.2))).lookup (f k) =
      (s.lookup k).elim (t.lookup (f k)) fun c => some (g k c) := by
  cases hlook : s.lookup k with
  | some c =>
    refine lookup_putAll_of_mem ?_ ?_
    · exact List.mem_map.mpr ⟨⟨k, c⟩, mem_entries_iff.mpr hlook, rfl⟩
    intro w hw
    obtain ⟨⟨k', c'⟩, hmem, heq⟩ := List.mem_map.mp hw
    obtain ⟨hkey, hval⟩ := Prod.mk.inj heq
    have hkk : k' = k := hf hkey
    subst hkk
    rw [mem_entries_iff, hlook] at hmem
    rw [← hval, Option.some.inj hmem]
  | none =>
    refine lookup_putAll_of_forall_ne ?_
    intro p hp hkey
    obtain ⟨⟨k', c'⟩, hmem, rfl⟩ := List.mem_map.mp hp
    have hkk : k' = k := hf hkey
    subst hkk
    rw [mem_entries_iff, hlook] at hmem
    cases hmem

/-- The table without the keys that a test selects. -/
def discard (t : Table κ ν) (drop : κ → Bool) : Table κ ν :=
  ⟨t.entries.filter fun e => !drop e.1, t.nodupKeys.sublist List.filter_sublist⟩

theorem lookup_discard (t : Table κ ν) (drop : κ → Bool) (k : κ) :
    (t.discard drop).lookup k = if drop k = true then none else t.lookup k := by
  refine Option.ext fun v => ?_
  have hmem : (t.discard drop).lookup k = some v ↔ drop k = false ∧ t.lookup k = some v := by
    rw [← mem_entries_iff, ← mem_entries_iff]
    simp [discard, and_comm]
  rw [hmem]
  cases drop k <;> simp

/-- The table with every value replaced. -/
def mapValues {ω : Type} (t : Table κ ν) (f : κ → ν → ω) : Table κ ω :=
  ⟨t.entries.map fun e => ⟨e.1, f e.1 e.2⟩, by
    have hkeys := t.nodupKeys
    unfold List.NodupKeys List.keys at hkeys ⊢
    rwa [List.map_map]⟩

theorem lookup_mapValues {ω : Type} (t : Table κ ν) (f : κ → ν → ω) (k : κ) :
    (t.mapValues f).lookup k = (t.lookup k).map (f k) := by
  refine Option.ext fun w => ?_
  rw [← mem_entries_iff, Option.map_eq_some_iff]
  simp only [mapValues, List.mem_map, Sigma.mk.injEq, heq_eq_eq]
  constructor
  · rintro ⟨⟨k', v⟩, hmem, rfl, rfl⟩
    exact ⟨v, mem_entries_iff.mp hmem, rfl⟩
  · rintro ⟨v, hlook, rfl⟩
    exact ⟨⟨k, v⟩, mem_entries_iff.mpr hlook, rfl, rfl⟩

end Table

end Vaultic.Lib
