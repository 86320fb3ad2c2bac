/-
  Lib/Run.lean  —  runs of a state machine.

  A run is a fold of the step function over the actions.  An invariant of every step is
  an invariant of every run; an invariant of the steps that meet a condition is one of
  the runs whose steps all meet it, each in the state it starts from.
-/
import Mathlib

set_option autoImplicit false

namespace Vaultic.Lib

variable {σ α : Type} {step : σ → α → σ} {meets : σ → α → Prop}

/-- Each step of the run meets the condition in the state it starts from. -/
def Along (step : σ → α → σ) (meets : σ → α → Prop) : σ → List α → Prop
  | _, [] => True
  | state, action :: rest => meets state action ∧ Along step meets (step state action) rest

instance decidableAlong [∀ state action, Decidable (meets state action)] :
    (state : σ) → (actions : List α) → Decidable (Along step meets state actions)
  | _, [] => .isTrue trivial
  | state, action :: rest =>
    have := decidableAlong (step state action) rest
    inferInstanceAs (Decidable (meets state action ∧ _))

variable {other : σ → α → Prop} {actions : List α} {state : σ}

theorem Along.imp (himp : ∀ state action, meets state action → other state action)
    (h : Along step meets state actions) : Along step other state actions := by
  induction actions generalizing state with
  | nil => trivial
  | cons action rest ih => exact ⟨himp state action h.1, ih h.2⟩

/-- A condition on the actions alone, whatever the states. -/
theorem Along.of_forall_mem (h : ∀ action ∈ actions, ∀ state, meets state action) (state : σ) :
    Along step meets state actions := by
  induction actions generalizing state with
  | nil => trivial
  | cons action rest ih =>
    refine ⟨h action (.head _) state, ih ?_ _⟩
    exact fun other hother => h other (List.mem_cons_of_mem action hother)

theorem run_invariant (holds : σ → Prop)
    (hstep : ∀ state action, holds state → holds (step state action)) (actions : List α)
    (h : holds state) : holds (actions.foldl step state) := by
  induction actions generalizing state with
  | nil => exact h
  | cons action rest ih => exact ih (hstep state action h)

theorem Along.invariant (holds : σ → Prop)
    (hstep : ∀ state action, meets state action → holds state → holds (step state action))
    (halong : Along step meets state actions) (h : holds state) :
    holds (actions.foldl step state) := by
  induction actions generalizing state with
  | nil => exact h
  | cons action rest ih => exact ih halong.2 (hstep state action halong.1 h)

/-- Steps that meet the condition keep the invariant, and under the invariant they also have
another property: then every step of the run has it. -/
theorem Along.of_invariant (holds : σ → Prop)
    (hstep : ∀ state action, meets state action → holds state →
      other state action ∧ holds (step state action)) (halong : Along step meets state actions)
    (h : holds state) : Along step other state actions := by
  induction actions generalizing state with
  | nil => trivial
  | cons action rest ih =>
    obtain ⟨hother, hnext⟩ := hstep state action halong.1 h
    exact ⟨hother, ih halong.2 hnext⟩

end Vaultic.Lib
