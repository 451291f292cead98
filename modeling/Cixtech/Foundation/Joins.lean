import Cixtech.Foundation.Table

/-! The left outer join of two tables. Where the right one has distinct keys, each row of the
left one comes with the row that its key selects, or with none.
-/

namespace Cixtech.Foundation.Table

universe u v w

variable {α : Type u} {β : Type v} {κ : Type w}

/-- `SELECT … FROM left LEFT JOIN right ON …`. -/
def leftJoin (on : α → β → Bool) (left : List α) (right : List β) : List (α × Option β) :=
  left.flatMap fun row =>
    let matched := right.filter (on row)
    if matched.isEmpty then [(row, none)] else matched.map fun other => (row, some other)

variable [DecidableEq κ] {key : β → κ}

/-- With distinct keys, the rows of a key are the one that it selects. -/
theorem filter_key_eq {rows : List β} (distinct : (rows.map key).Nodup) (k : κ)
    : rows.filter (fun row => key row = k) = (lookup key rows k).toList := by
  cases found : lookup key rows k with
  | none =>
      simp only [lookup, List.find?_eq_none, decide_eq_true_eq] at found
      simpa using found
  | some row =>
      obtain rfl : key row = k := lookup_key found
      exact filter_key_of_mem distinct (lookup_mem found)

/-- A join on a key of the right table pairs each left row with what its key selects there. -/
theorem leftJoin_key {left : List α} {right : List β} (foreign : α → κ)
    (distinct : (right.map key).Nodup)
    : leftJoin (fun row other => key other = foreign row) left right
      = left.map fun row => (row, lookup key right (foreign row)) := by
  have one : ∀ row : α,
      (let matched := right.filter fun other => key other = foreign row
       if matched.isEmpty then [(row, none)] else matched.map fun other => (row, some other))
      = [(row, lookup key right (foreign row))] := by
    intro row
    rw [filter_key_eq distinct]
    cases lookup key right (foreign row) <;> rfl
  simp only [leftJoin, one]
  exact List.map_eq_flatMap.symm

end Cixtech.Foundation.Table
