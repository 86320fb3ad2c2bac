/-
  Lib/Planning.lean  —  planning puts item by item into one table of pending puts.

  A planner turns the pending puts and an item into further puts.  When every item reads
  and writes only keys it owns, the items do not disturb each other: what is pending under
  the keys of an item is what its own planner made of the table as it was at the start.
-/
import Vaultic.Lib.Result

set_option autoImplicit false

namespace Vaultic.Lib

variable {κ ν ι ε : Type} [DecidableEq κ]

/-- Run a planner over items, each seeing the puts of those before it. -/
def planEach (plan : Table κ ν → ι → Except ε (List (κ × ν))) :
    List ι → Table κ ν → Except ε (Table κ ν)
  | [], pending => .ok pending
  | item :: rest, pending => do
      let puts ← plan pending item
      planEach plan rest (pending.putAll puts)

/-- The planner keeps to the keys that `owner` gives to its item. -/
structure Local (owner : κ → Option ι) (plan : Table κ ν → ι → Except ε (List (κ × ν))) : Prop where
  writes : ∀ {pending item puts}, plan pending item = .ok puts →
    ∀ put ∈ puts, owner put.1 = some item
  reads : ∀ {pending pending' item},
    (∀ key, owner key = some item → pending.lookup key = pending'.lookup key) →
      plan pending item = plan pending' item

variable {owner : κ → Option ι} {plan : Table κ ν → ι → Except ε (List (κ × ν))}

section

variable (hlocal : Local owner plan)
include hlocal

/-- The puts of one item leave the keys of the others. -/
theorem Local.lookup_other {pending : Table κ ν} {item : ι}
    {puts : List (κ × ν)} (h : plan pending item = .ok puts) {key : κ}
    (hkey : owner key ≠ some item) : (pending.putAll puts).lookup key = pending.lookup key := by
  refine Table.lookup_putAll_of_forall_ne fun put hput heq => hkey ?_
  rw [← heq]
  exact hlocal.writes h put hput

section

variable {items : List ι} {pending pending' : Table κ ν}
  (h : planEach plan items pending = .ok pending')
include h

/-- Keys without an owner among the items stay as they are. -/
theorem Local.planEach_other {key : κ}
    (hkey : ∀ item ∈ items, owner key ≠ some item) : pending'.lookup key = pending.lookup key := by
  induction items generalizing pending with
  | nil =>
    cases h
    rfl
  | cons item rest ih =>
    obtain ⟨puts, hputs, hrest⟩ := of_bind h
    rw [ih hrest fun other hother => hkey other (List.mem_cons_of_mem item hother)]
    exact hlocal.lookup_other hputs (hkey item (.head _))

theorem Local.planEach_unowned {key : κ}
    (hkey : owner key = none) : pending'.lookup key = pending.lookup key := by
  refine hlocal.planEach_other h fun item _ howner => ?_
  rw [hkey] at howner
  cases howner

/-- What is pending under the keys of an item, its own planner put there. -/
theorem Local.planEach_owned (hnodup : items.Nodup) {item : ι} (hitem : item ∈ items) :
    ∃ puts, plan pending item = .ok puts ∧
      ∀ key, owner key = some item → pending'.lookup key = (pending.putAll puts).lookup key := by
  induction items generalizing pending with
  | nil => cases hitem
  | cons first rest ih =>
    obtain ⟨hfirst, hnodup⟩ := List.nodup_cons.mp hnodup
    obtain ⟨puts, hputs, hrest⟩ := of_bind h
    rcases List.mem_cons.mp hitem with rfl | hitem
    · refine ⟨puts, hputs, fun key hkey => hlocal.planEach_other hrest ?_⟩
      intro other hother hother'
      rw [hkey] at hother'
      exact hfirst (Option.some.inj hother' ▸ hother)
    · -- The first item owns other keys, so the planner of this one does not see its puts.
      obtain ⟨own, hown, hlookup⟩ := ih hrest hnodup hitem
      have hother : ∀ key, owner key = some item →
          (pending.putAll puts).lookup key = pending.lookup key := by
        intro key hkey
        refine hlocal.lookup_other hputs fun hkey' => hfirst ?_
        rw [hkey] at hkey'
        exact Option.some.inj hkey' ▸ hitem
      refine ⟨own, hlocal.reads hother ▸ hown, fun key hkey => ?_⟩
      rw [hlookup key hkey, Table.lookup_putAll, hother key hkey, ← Table.lookup_putAll]

end

end

end Vaultic.Lib
