import Mathlib.Data.List.Basic

/-! Lists joined by a delimiter. What stands before the first delimiter and what stands behind the
last one are determined by the joined list, whatever the parts on the other side contain.
-/

namespace Cixtech.Foundation.Delimiters

universe u

variable {α : Type u} {delimiter : α}

/-- Parts without the delimiter in front of it are equal where the joined lists are, by induction
on one of them.
-/
theorem first_inj {front other : List α} {rest later : List α} (plain : delimiter ∉ front)
    (otherPlain : delimiter ∉ other)
    (same : front ++ delimiter :: rest = other ++ delimiter :: later)
    : front = other ∧ rest = later := by
  induction front generalizing other with
  | nil =>
      cases other with
      | nil => exact ⟨rfl, (List.cons.inj same).2⟩
      | cons head tail =>
          have here := (List.cons.inj same).1
          exact absurd (here ▸ List.mem_cons_self) otherPlain
  | cons head tail ih =>
      cases other with
      | nil =>
          have here := (List.cons.inj same).1
          exact absurd (here ▸ List.mem_cons_self) plain
      | cons first others =>
          obtain ⟨rfl, tails⟩ := List.cons.inj same
          obtain ⟨rfl, rests⟩ :=
            ih (fun member => plain (List.mem_cons_of_mem _ member))
              (fun member => otherPlain (List.mem_cons_of_mem _ member)) tails
          exact ⟨rfl, rests⟩

/-- Parts without the delimiter behind it are equal where the joined lists are. -/
theorem last_inj {front other : List α} {rest later : List α} (plain : delimiter ∉ rest)
    (laterPlain : delimiter ∉ later)
    (same : front ++ delimiter :: rest = other ++ delimiter :: later)
    : front = other ∧ rest = later := by
  have reversed : rest.reverse ++ delimiter :: front.reverse
      = later.reverse ++ delimiter :: other.reverse := by
    simpa using congrArg List.reverse same
  obtain ⟨rests, fronts⟩ := first_inj (by simpa using plain) (by simpa using laterPlain) reversed
  exact ⟨List.reverse_inj.mp fronts, List.reverse_inj.mp rests⟩

end Cixtech.Foundation.Delimiters
