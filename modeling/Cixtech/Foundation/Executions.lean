import Mathlib.Logic.Basic

/-! Guarded executions of a machine that takes labelled steps. A guard restricts the steps
that a run may take; an invariant is carried along such runs by one rule.
-/

namespace Cixtech.Foundation

universe u v

variable {σ : Type u} {α : Type v}

/-- `Reaches step guard start state`: some run from `start` ends in `state`, every step of
it is enabled, and every step satisfies `guard` in the state it leaves.
-/
inductive Reaches (step : σ → α → Option σ) (guard : σ → α → Prop) (start : σ) : σ → Prop
  | refl : Reaches step guard start start
  | tail {state action next} (before : Reaches step guard start state)
    (allowed : guard state action) (taken : step state action = some next)
    : Reaches step guard start next

/-- Run the actions in order, refusing a step that is disabled or breaks the guard. -/
def exec (step : σ → α → Option σ) (guard : σ → α → Prop)
    [∀ state action, Decidable (guard state action)] (start : σ)
    : List α → Option σ
  | [] => some start
  | action :: rest =>
      if guard start action then
        (step start action).bind fun next => exec step guard next rest
      else none

namespace Reaches

variable {step : σ → α → Option σ} {guard : σ → α → Prop} {start state : σ}

/-- A property that holds at the start and survives every guarded step holds in every
state reached, by induction on the run.
-/
theorem invariant {Inv : σ → Prop} (reached : Reaches step guard start state)
    (initial : Inv start)
    (preserved
      : ∀ {state action next},
          Inv state → guard state action → step state action = some next → Inv next)
    : Inv state := by
  induction reached with
  | refl => exact initial
  | tail _ allowed taken ih => exact preserved ih allowed taken

/-- The preservation step may use any fact already known of the states reached. -/
theorem invariant_with {Known Inv : σ → Prop} (reached : Reaches step guard start state)
    (known : ∀ {state}, Reaches step guard start state → Known state)
    (initial : Inv start)
    (preserved
      : ∀ {state action next},
          Known state → Inv state → guard state action → step state action = some next
          → Inv next)
    : Inv state := by
  induction reached with
  | refl => exact initial
  | tail before allowed taken ih => exact preserved (known before) ih allowed taken

/-- Runs compose, by induction on the second one. -/
theorem trans {final : σ} (first : Reaches step guard start state)
    (second : Reaches step guard state final)
    : Reaches step guard start final := by
  induction second with
  | refl => exact first
  | tail _ allowed taken ih => exact .tail ih allowed taken

/-- An executed action list witnesses reachability, by induction on the list. -/
theorem of_exec [∀ state action, Decidable (guard state action)] {actions : List α}
    (executed : exec step guard start actions = some state)
    : Reaches step guard start state := by
  induction actions generalizing start with
  | nil => exact Option.some.inj executed ▸ .refl
  | cons action rest ih =>
      rw [exec] at executed
      split at executed
      case isTrue allowed =>
        obtain ⟨next, taken, remaining⟩ := Option.bind_eq_some_iff.mp executed
        exact (Reaches.refl.tail allowed taken).trans (ih remaining)
      case isFalse => cases executed

/-- An action list that executes to a state with a property witnesses a reachable one. -/
theorem exists_of_exec [∀ state action, Decidable (guard state action)] (actions : List α)
    {P : σ → Prop} [DecidablePred P]
    (executed : (exec step guard start actions).any (fun state => decide (P state)) = true)
    : ∃ state, Reaches step guard start state ∧ P state := by
  obtain ⟨state, ends, here⟩ := (Option.any_eq_true _ _).mp executed
  exact ⟨state, of_exec ends, of_decide_eq_true here⟩

end Reaches

end Cixtech.Foundation
