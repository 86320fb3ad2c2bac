/-
  Lib/Coverage.lean  —  items held by containers, some of which are doomed.

  A holding says which container holds which item and which containers are going
  to be removed.  It covers a set of items when each of them is held by a container
  that stays.  Coverage is what makes removals safe: a doomed container is never
  the only one that holds a covered item.
-/
import Mathlib

set_option autoImplicit false

namespace Vaultic.Lib

/-- Which container holds which item, and which containers are doomed. -/
structure Holding (ι κ : Type) where
  holds : ι → κ → Prop
  doomed : κ → Prop

namespace Holding

variable {ι κ : Type} {s t : Holding ι κ} {live : Set ι} {k : κ}

/-- Every live item is held by a container that stays. -/
def Covers (s : Holding ι κ) (live : Set ι) : Prop :=
  ∀ i ∈ live, ∃ k, s.holds i k ∧ ¬s.doomed k

/-- Some container other than `k` holds the item. -/
def HeldElsewhere (s : Holding ι κ) (i : ι) (k : κ) : Prop :=
  ∃ other, other ≠ k ∧ s.holds i other

section

variable (h : s.Covers live)
include h

theorem Covers.mono {live' : Set ι} (hsub : live' ⊆ live) : s.Covers live' :=
  fun i hi => h i (hsub hi)

/-- Coverage survives a change that keeps every container that stays, with what it
holds. -/
theorem Covers.of_kept
    (hkept : ∀ i ∈ live, ∀ k, s.holds i k → ¬s.doomed k → t.holds i k ∧ ¬t.doomed k) :
    t.Covers live := by
  intro i hi
  obtain ⟨k, hholds, hstays⟩ := h i hi
  exact ⟨k, hkept i hi k hholds hstays⟩

/-- Dooming one container keeps coverage when another one that stays holds each of
its live items. -/
theorem Covers.doom (hholds : ∀ i k, s.holds i k → t.holds i k)
    (hdoomed : ∀ other, other ≠ k → ¬s.doomed other → ¬t.doomed other)
    (helse : ∀ i ∈ live, s.holds i k → ∃ other, other ≠ k ∧ s.holds i other ∧ ¬s.doomed other) :
    t.Covers live := by
  intro i hi
  obtain ⟨found, hfound, hstays⟩ := h i hi
  by_cases heq : found = k
  · subst heq
    obtain ⟨other, hne, hother, hotherStays⟩ := helse i hi hfound
    exact ⟨other, hholds i other hother, hdoomed other hne hotherStays⟩
  · exact ⟨found, hholds i found hfound, hdoomed found heq hstays⟩

/-- A doomed container is never the only one that holds a covered item. -/
theorem Covers.heldElsewhere (hdoomed : s.doomed k) {i : ι} (hi : i ∈ live) :
    s.HeldElsewhere i k := by
  obtain ⟨other, hholds, hstays⟩ := h i hi
  refine ⟨other, ?_, hholds⟩
  rintro rfl
  exact hstays hdoomed

end

end Holding

end Vaultic.Lib
