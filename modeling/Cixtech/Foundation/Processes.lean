import Mathlib.Algebra.BigOperators.Group.List.Basic
import Mathlib.Algebra.Ring.Int.Defs
import Mathlib.Data.List.Basic

/-! A list of processes of which one acts at a time. What the others hold is untouched, so
an exclusive holding survives a step when the acting process takes only what nobody holds.
-/

namespace Cixtech.Foundation.Processes

universe u v

variable {τ : Type u} {κ : Type v}

/-- The process at an index, which was `old`, is replaced by `new`. -/
structure Acts (before after : List τ) (index : Nat) (old new : τ) : Prop where
  found : before[index]? = some old
  replaced : after = before.set index new

namespace Acts

variable {before after : List τ} {index : Nat} {old new : τ}

theorem get_self (acts : Acts before after index old new) : after[index]? = some new := by
  obtain ⟨inRange, -⟩ := List.getElem?_eq_some_iff.mp acts.found
  rw [acts.replaced, List.getElem?_set_self inRange]

theorem get_other (acts : Acts before after index old new) {other : Nat}
    (apart : other ≠ index)
    : after[other]? = before[other]? := by
  rw [acts.replaced, List.getElem?_set_ne (Ne.symm apart)]

/-- A process found after the step is the acting one or was there before. -/
theorem get_cases (acts : Acts before after index old new) {other : Nat} {process : τ}
    (there : after[other]? = some process)
    : (other = index ∧ process = new) ∨ (other ≠ index ∧ before[other]? = some process) := by
  by_cases same : other = index
  · subst same
    rw [acts.get_self] at there
    exact .inl ⟨rfl, (Option.some.inj there).symm⟩
  · rw [acts.get_other same] at there
    exact .inr ⟨same, there⟩

theorem mem_cases (acts : Acts before after index old new) {process : τ}
    (member : process ∈ after)
    : process = new ∨ process ∈ before := by
  rw [acts.replaced] at member
  exact (List.mem_or_eq_of_mem_set member).symm

theorem mem_old (acts : Acts before after index old new) : old ∈ before :=
  List.mem_of_getElem? acts.found

end Acts

/-- A process found after an arrival is the new one or was there before. -/
theorem get_append_cases {before : List τ} {new process : τ} {index : Nat}
    (there : (before ++ [new])[index]? = some process)
    : (index = before.length ∧ process = new) ∨ before[index]? = some process := by
  rcases Nat.lt_trichotomy index before.length with inside | last | beyond
  · rw [List.getElem?_append_left inside] at there
    exact .inr there
  · subst last
    simp only [List.getElem?_append_right (Nat.le_refl _), Nat.sub_self,
      List.getElem?_cons_zero, Option.some.injEq] at there
    exact .inl ⟨rfl, there.symm⟩
  · rw [List.getElem?_eq_none (by simp; omega)] at there
    cases there

/-- No two processes hold the same thing. -/
def Exclusive (holds : τ → Option κ) (processes : List τ) : Prop :=
  ∀ ⦃i j : Nat⦄ ⦃a b : τ⦄ ⦃k : κ⦄, processes[i]? = some a → processes[j]? = some b
    → holds a = some k → holds b = some k → i = j

namespace Exclusive

variable {holds : τ → Option κ} {before after : List τ}

theorem nil : Exclusive holds ([] : List τ) := by
  intro i j a b k there
  simp at there

/-- Taking only what the acting process held already, or what nobody held. -/
theorem acts {index : Nat} {old new : τ} (exclusive : Exclusive holds before)
    (acting : Acts before after index old new)
    (took : ∀ k, holds new = some k
      → holds old = some k ∨ ∀ other ∈ before, holds other ≠ some k)
    : Exclusive holds after := by
  -- What the acting process holds after the step collides with nobody else.
  have alone : ∀ {j : Nat} {b : τ} {k : κ}, j ≠ index → before[j]? = some b
      → holds new = some k → holds b = some k → False := by
    intro j b k apart there mine theirs
    rcases took k mine with kept | free
    · exact apart (exclusive there acting.found theirs kept)
    · exact free b (List.mem_of_getElem? there) theirs
  intro i j a b k atI atJ holdsA holdsB
  rcases acting.get_cases atI with ⟨rfl, rfl⟩ | ⟨apartI, thereI⟩
  · rcases acting.get_cases atJ with ⟨rfl, -⟩ | ⟨apartJ, thereJ⟩
    · rfl
    · exact (alone apartJ thereJ holdsA holdsB).elim
  · rcases acting.get_cases atJ with ⟨rfl, rfl⟩ | ⟨apartJ, thereJ⟩
    · exact (alone apartI thereI holdsB holdsA).elim
    · exact exclusive thereI thereJ holdsA holdsB

/-- An arrival that holds nothing. -/
theorem append {new : τ} (exclusive : Exclusive holds before) (empty : holds new = none)
    : Exclusive holds (before ++ [new]) := by
  intro i j a b k atI atJ holdsA holdsB
  rcases get_append_cases atI with ⟨-, rfl⟩ | thereI
  · rw [empty] at holdsA
    cases holdsA
  · rcases get_append_cases atJ with ⟨-, rfl⟩ | thereJ
    · rw [empty] at holdsB
      cases holdsB
    · exact exclusive thereI thereJ holdsA holdsB

end Exclusive

-----------------------------------------------------------------------------
-- What the processes hold together

/-- The sum of what each process holds. -/
def holdings (amount : τ → Int) (processes : List τ) : Int := (processes.map amount).sum

@[simp]
theorem holdings_nil (amount : τ → Int) : holdings amount [] = 0 := rfl

@[simp]
theorem holdings_append (amount : τ → Int) (before : List τ) (new : τ)
    : holdings amount (before ++ [new]) = holdings amount before + amount new := by
  simp [holdings]

/-- An acting process changes the sum by what its own holding changed. -/
theorem Acts.holdings {before after : List τ} {index : Nat} {old new : τ}
    (acts : Acts before after index old new) (amount : τ → Int)
    : Processes.holdings amount after
      = Processes.holdings amount before - amount old + amount new := by
  obtain ⟨found, rfl⟩ := acts
  induction before generalizing index with
  | nil => cases found
  | cons process rest ih =>
      cases index with
      | zero =>
          obtain rfl : process = old := Option.some.inj found
          simp only [Processes.holdings, List.set_cons_zero, List.map_cons, List.sum_cons]
          omega
      | succ index =>
          have later := ih found
          simp only [Processes.holdings, List.set_cons_succ, List.map_cons, List.sum_cons]
            at later ⊢
          omega

/-- Holdings that are never negative have a sum that is not. -/
theorem holdings_nonneg {amount : τ → Int} {processes : List τ}
    (each : ∀ process ∈ processes, 0 ≤ amount process)
    : 0 ≤ holdings amount processes := by
  induction processes with
  | nil => exact Int.le_refl 0
  | cons process rest ih =>
      have first := each process List.mem_cons_self
      have others := ih fun other member => each other (List.mem_cons_of_mem _ member)
      simp only [holdings, List.map_cons, List.sum_cons] at others ⊢
      omega

/-- Among holdings that are never negative, one is at most the sum. -/
theorem le_holdings {amount : τ → Int} {processes : List τ} {process : τ}
    (each : ∀ process ∈ processes, 0 ≤ amount process) (member : process ∈ processes)
    : amount process ≤ holdings amount processes := by
  induction processes with
  | nil => cases member
  | cons first rest ih =>
      have nonneg : ∀ other ∈ rest, 0 ≤ amount other :=
        fun other there => each other (List.mem_cons_of_mem _ there)
      have others : 0 ≤ holdings amount rest := holdings_nonneg nonneg
      have firstNonneg := each first List.mem_cons_self
      simp only [holdings, List.map_cons, List.sum_cons] at ih others ⊢
      rcases List.mem_cons.mp member with rfl | later
      · omega
      · have := ih nonneg later
        omega

theorem holdings_eq_zero {amount : τ → Int} {processes : List τ}
    (none : ∀ process ∈ processes, amount process = 0)
    : holdings amount processes = 0 := by
  induction processes with
  | nil => rfl
  | cons first rest ih =>
      have firstNone := none first List.mem_cons_self
      have others := ih fun other there => none other (List.mem_cons_of_mem _ there)
      simp only [holdings, List.map_cons, List.sum_cons] at others ⊢
      omega

end Cixtech.Foundation.Processes
