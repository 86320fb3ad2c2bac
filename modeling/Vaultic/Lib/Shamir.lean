/-
  Lib/Shamir.lean  —  Shamir's secret sharing over a field.

  A secret is the constant term of a polynomial whose other coefficients are random, and the
  shares are its values at points other than zero.  As many shares as the polynomial has
  coefficients determine it (`interpolateAtZero_shares`); for fewer, there is a translation of
  the coefficients that turns one secret into any other and keeps the shares
  (`exists_translation`).
-/
import Mathlib

set_option autoImplicit false

namespace Vaultic.Lib.Shamir

open Polynomial

variable {F : Type} [Field F] {k : Nat}

/-- The polynomial of a secret. -/
noncomputable def poly (secret : F) (coefficients : Fin k → F) : F[X] :=
  C secret + ∑ j : Fin k, C (coefficients j) * X ^ (j.val + 1)

theorem degree_poly_lt (secret : F) (coefficients : Fin k → F) :
    (poly secret coefficients).degree < (k + 1 : Nat) := by
  apply lt_of_le_of_lt (degree_add_le _ _)
  apply max_lt
  · exact lt_of_le_of_lt degree_C_le (by exact_mod_cast Nat.succ_pos k)
  apply lt_of_le_of_lt (degree_sum_le _ _)
  apply (Finset.sup_lt_iff (WithBot.bot_lt_coe _)).mpr
  intro j _
  apply lt_of_le_of_lt (degree_C_mul_X_pow_le _ _)
  exact_mod_cast Nat.succ_lt_succ j.isLt

/-- The value at a point is linear in the secret and the coefficients. -/
theorem eval_poly_add_smul (secret secret' factor x : F) (coefficients direction : Fin k → F) :
    (poly (secret + factor * secret') (coefficients + factor • direction)).eval x =
      (poly secret coefficients).eval x + factor * (poly secret' direction).eval x := by
  simp only [poly, eval_add, eval_C, eval_finsetSum, eval_mul, eval_pow, eval_X, Pi.add_apply,
    Pi.smul_apply, smul_eq_mul, mul_add, Finset.mul_sum, add_mul, Finset.sum_add_distrib,
    mul_assoc]
  ring

/-! ## Recovering -/

/-- The value at zero of the polynomial through the shares. -/
noncomputable def interpolateAtZero (shares : List (F × F)) : F :=
  (Lagrange.interpolate Finset.univ (fun i : Fin shares.length => (shares.get i).1)
    (fun i => (shares.get i).2)).eval 0

theorem interpolateAtZero_shares (secret : F) (coefficients : Fin k → F) {points : List F}
    (hnodup : points.Nodup) (hlength : points.length = k + 1) :
    interpolateAtZero (points.map fun x => (x, (poly secret coefficients).eval x)) = secret := by
  rw [interpolateAtZero, ← Lagrange.eq_interpolate_of_eval_eq (f := poly secret coefficients)]
  · simp [poly, eval_finsetSum]
  · intro i _ j _ heq
    have hpoint : points.get (i.cast (List.length_map _)) =
        points.get (j.cast (List.length_map _)) := by
      simpa using heq
    exact Fin.cast_injective _ (hnodup.injective_get hpoint)
  · rw [Finset.card_univ, Fintype.card_fin, List.length_map, hlength]
    exact degree_poly_lt secret coefficients
  · intro i _
    simp

/-! ## Hiding -/

/-- A polynomial that is one at zero and vanishes at the given points. -/
theorem exists_vanishing {points : Finset F} (hzero : 0 ∉ points) (hcard : points.card ≤ k) :
    ∃ direction : Fin k → F, ∀ x ∈ points, (poly 1 direction).eval x = 0 := by
  let product : F[X] := ∏ x ∈ points, (1 - C x⁻¹ * X)
  have hdegree : product.natDegree < k + 1 := by
    apply Nat.lt_succ_of_le
    calc product.natDegree
        ≤ ∑ x ∈ points, (1 - C x⁻¹ * X : F[X]).natDegree := natDegree_prod_le _ _
      _ ≤ ∑ _x ∈ points, 1 := by
          apply Finset.sum_le_sum
          intro x _
          compute_degree
      _ ≤ k := by simpa using hcard
  have hone : product.coeff 0 = 1 := by
    rw [coeff_zero_eq_eval_zero, eval_prod]
    simp
  have hpoly : poly 1 (fun j : Fin k => product.coeff (j.val + 1)) = product := by
    conv_rhs => rw [product.as_sum_range' (k + 1) hdegree, Finset.sum_range_succ', hone]
    rw [poly, Fin.sum_univ_eq_sum_range (fun j => C (product.coeff (j + 1)) * X ^ (j + 1)),
      add_comm]
    simp only [C_mul_X_pow_eq_monomial, monomial_zero_left]
  refine ⟨fun j => product.coeff (j.val + 1), fun x hx => ?_⟩
  have hx0 : x ≠ 0 := fun h => hzero (h ▸ hx)
  rw [hpoly, eval_prod]
  apply Finset.prod_eq_zero hx
  simp [inv_mul_cancel₀ hx0]

/-- Fewer shares than coefficients fit every secret. -/
theorem exists_translation {points : Finset F} (hzero : 0 ∉ points) (hcard : points.card ≤ k)
    (secret secret' : F) :
    ∃ bijection : (Fin k → F) ≃ (Fin k → F), ∀ coefficients, ∀ x ∈ points,
      (poly secret coefficients).eval x = (poly secret' (bijection coefficients)).eval x := by
  obtain ⟨direction, hdirection⟩ := exists_vanishing hzero hcard
  refine ⟨Equiv.addRight ((secret' - secret) • direction), fun coefficients x hx => ?_⟩
  have hlinear := eval_poly_add_smul secret 1 (secret' - secret) x coefficients direction
  rw [hdirection x hx, mul_zero, add_zero, mul_one, add_sub_cancel] at hlinear
  exact hlinear.symm

end Vaultic.Lib.Shamir
