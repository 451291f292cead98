import Mathlib.Algebra.Order.BigOperators.Group.List

/-! Choosing from values that are listed largest first: the first few of them sum to at least
as much as any others of the same number, so that a sum is reached by the fewest of them when
they are taken from the front.
-/

namespace Cixtech.Foundation.LargestFirst

universe u

variable {M : Type u} [AddCommMonoid M] [LinearOrder M] [IsOrderedAddMonoid M]

/-- Values chosen in order sum to at most as many from the front, by induction on the list: a
first chosen value is at most the front one, and the others are chosen from behind it.
-/
theorem sum_le_sum_take_of_sublist {values chosen : List M}
    (sorted : values.Pairwise fun left right => right ≤ left) (part : chosen.Sublist values)
    : chosen.sum ≤ (values.take chosen.length).sum := by
  induction values generalizing chosen with
  | nil =>
      obtain rfl := List.sublist_nil.mp part
      simp
  | cons largest rest ih =>
      obtain ⟨dominates, restSorted⟩ := List.pairwise_cons.mp sorted
      cases chosen with
      | nil => simp
      | cons first others =>
          have bounded : first ≤ largest := by
            rcases List.mem_cons.mp (part.subset List.mem_cons_self) with rfl | behind
            · exact le_rfl
            · exact dominates first behind
          have later : others.sum ≤ (rest.take others.length).sum :=
            ih restSorted (by simpa using part.tail)
          simpa using add_le_add bounded later

/-- The same, whatever the order of the choice. -/
theorem sum_le_sum_take {values chosen : List M}
    (sorted : values.Pairwise fun left right => right ≤ left) (part : chosen.Subperm values)
    : chosen.sum ≤ (values.take chosen.length).sum := by
  obtain ⟨ordered, same, sublist⟩ := part
  rw [← same.sum_eq, ← same.length_eq]
  exact sum_le_sum_take_of_sublist sorted sublist

/-- Where no fewer values from the front than a number reach a target, no choice of fewer
values does.
-/
theorem le_length_of_reaches {values chosen : List M} {target : M} {number : Nat}
    (sorted : values.Pairwise fun left right => right ≤ left)
    (short : ∀ fewer < number, (values.take fewer).sum < target)
    (part : chosen.Subperm values) (reaches : target ≤ chosen.sum)
    : number ≤ chosen.length := by
  by_contra fewer
  have bounded := sum_le_sum_take sorted part
  have below := short chosen.length (Nat.lt_of_not_le fewer)
  exact absurd (reaches.trans bounded) (not_le_of_gt below)

end Cixtech.Foundation.LargestFirst
