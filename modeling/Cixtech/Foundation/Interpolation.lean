import Mathlib.LinearAlgebra.Lagrange

/-! Interpolation at zero from a list of points, with the weight of a point made of the other
points in the order of the list.
-/

namespace Cixtech.Foundation.Interpolation

open Polynomial

variable {F : Type} [Field F] [DecidableEq F]

/-- The weight at zero of the value at a point. -/
def weight (points : List F) (x : F) : F :=
  ((points.filter (· ≠ x)).map fun y => -y).prod
    * (((points.filter (· ≠ x)).map fun y => x - y).prod)⁻¹

/-- The product over the points but one is over the points of the finite set but it. -/
theorem prod_filter_ne {points : List F} (distinct : points.Nodup) (x : F) (g : F → F)
    : ((points.filter (· ≠ x)).map g).prod = ∏ y ∈ points.toFinset.erase x, g y := by
  have others : (points.filter (· ≠ x)).toFinset = points.toFinset.erase x := by
    ext y
    simp [and_comm]
  rw [← others, List.prod_toFinset g (distinct.filter _)]

/-- The weight is the Lagrange basis at zero. -/
theorem weight_eq {points : List F} (distinct : points.Nodup) (x : F)
    : weight points x = (Lagrange.basis points.toFinset id x).eval 0 := by
  rw [weight, prod_filter_ne distinct, prod_filter_ne distinct, ← Finset.prod_inv_distrib,
    ← Finset.prod_mul_distrib, Lagrange.basis, eval_prod]
  refine Finset.prod_congr rfl fun y _ => ?_
  simp [Lagrange.basisDivisor, mul_comm]

/-- The other points differ from a point, so that its denominator is not zero. -/
theorem denominator_ne_zero (points : List F) (x : F)
    : ((points.filter (· ≠ x)).map fun y => x - y).prod ≠ 0 := by
  intro zero
  obtain ⟨y, member, same⟩ := List.mem_map.mp (List.prod_eq_zero_iff.mp zero)
  have apart : y ≠ x := by simpa using (List.mem_filter.mp member).2
  exact apart (sub_eq_zero.mp same).symm

/-- A polynomial of a degree below the count of the points is determined at zero by its values
at them.
-/
theorem sum_weight {points : List F} (distinct : points.Nodup) {f : F[X]}
    (degree : f.degree < points.length)
    : (points.map fun x => f.eval x * weight points x).sum = f.eval 0 := by
  have count : points.toFinset.card = points.length := List.toFinset_card_of_nodup distinct
  have interpolated : f = Lagrange.interpolate points.toFinset id fun x => f.eval x :=
    Lagrange.eq_interpolate (Set.injOn_id _) (by rwa [count])
  conv_rhs => rw [interpolated]
  rw [Lagrange.interpolate_apply, eval_finsetSum, ← List.sum_toFinset _ distinct]
  refine Finset.sum_congr rfl fun x _ => ?_
  rw [eval_mul, eval_C, weight_eq distinct]

-----------------------------------------------------------------------------
-- Polynomials that hide a value at zero

/-- It is one at zero, and vanishes at the points. -/
noncomputable def mask (points : List F) : F[X] := (points.map fun x => 1 - C x⁻¹ * X).prod

omit [DecidableEq F] in
theorem eval_zero_mask (points : List F) : (mask points).eval 0 = 1 := by
  rw [mask, eval_list_prod, List.map_map]
  exact List.prod_eq_one fun value member => by
    obtain ⟨x, -, rfl⟩ := List.mem_map.mp member
    simp

omit [DecidableEq F] in
theorem eval_mask {points : List F} {x : F} (member : x ∈ points) (nonzero : x ≠ 0)
    : (mask points).eval x = 0 := by
  rw [mask, eval_list_prod, List.map_map]
  exact List.prod_eq_zero (List.mem_map.mpr ⟨x, member, by simp [nonzero]⟩)

omit [DecidableEq F] in
theorem degree_mask (points : List F) : (mask points).degree ≤ points.length := by
  induction points with
  | nil => simp [mask]
  | cons x points ih =>
      have factor : (1 - C x⁻¹ * X : F[X]).degree ≤ 1 := by
        refine (degree_sub_le _ _).trans (max_le ?_ ?_)
        · exact degree_one_le.trans zero_le_one
        · exact degree_C_mul_X_le x⁻¹
      have product : mask (x :: points) = (1 - C x⁻¹ * X) * mask points := by
        simp [mask]
      rw [product, List.length_cons, Nat.cast_add, Nat.cast_one, add_comm]
      exact (degree_mul_le _ _).trans (add_le_add factor ih)

end Cixtech.Foundation.Interpolation
