import Mathlib.Data.List.Basic

/-! Machines that answer every input, and when two of them answer alike. A relation between
the states that every step keeps, with equal answers, makes the answers equal along every
list of inputs.
-/

namespace Cixtech.Foundation.Transducer

universe u v w x

variable {σ : Type u} {τ : Type v} {ι : Type w} {ο : Type x}

/-- The state that a list of inputs leads to. -/
def after (step : σ → ι → σ × ο) (state : σ) (inputs : List ι) : σ :=
  inputs.foldl (fun state input => (step state input).1) state

/-- The answers to a list of inputs, in order. -/
def answers (step : σ → ι → σ × ο) : σ → List ι → List ο
  | _, [] => []
  | state, input :: rest => (step state input).2 :: answers step (step state input).1 rest

theorem answers_append (step : σ → ι → σ × ο) (state : σ) (first rest : List ι)
    : answers step state (first ++ rest)
      = answers step state first ++ answers step (after step state first) rest := by
  induction first generalizing state with
  | nil => rfl
  | cons input first ih =>
      rw [List.cons_append, answers, ih]
      rfl

theorem length_answers (step : σ → ι → σ × ο) (state : σ) (inputs : List ι)
    : (answers step state inputs).length = inputs.length := by
  induction inputs generalizing state with
  | nil => rfl
  | cons input rest ih => rw [answers, List.length_cons, ih, List.length_cons]

/-- An input that leaves the state changes no answer but its own. -/
theorem erase_idle {step : σ → ι → σ × ο} {state : σ} {first : List ι} {input : ι}
    (idle : (step (after step state first) input).1 = after step state first) (rest : List ι)
    : (answers step state (first ++ input :: rest)).eraseIdx first.length
      = answers step state (first ++ rest) := by
  have own : (answers step state first).length = first.length := length_answers ..
  rw [answers_append, answers, idle, List.eraseIdx_append_of_length_le (by omega), own,
    Nat.sub_self, List.eraseIdx_cons_zero, ← answers_append]

/-- Related states answer alike, and stay related. -/
structure Simulates (left : σ → ι → σ × ο) (right : τ → ι → τ × ο) (allowed : ι → Prop)
    (related : σ → τ → Prop)
    : Prop where
  answers : ∀ {state other input}, related state other → allowed input
    → (left state input).2 = (right other input).2
  keeps : ∀ {state other input}, related state other → allowed input
    → related (left state input).1 (right other input).1

/-- By induction on the inputs. -/
theorem Simulates.answers_eq {left : σ → ι → σ × ο} {right : τ → ι → τ × ο}
    {allowed : ι → Prop} {related : σ → τ → Prop}
    (simulates : Simulates left right allowed related) {state : σ} {other : τ}
    (start : related state other) {inputs : List ι} (each : ∀ input ∈ inputs, allowed input)
    : Transducer.answers left state inputs = Transducer.answers right other inputs := by
  induction inputs generalizing state other with
  | nil => rfl
  | cons input rest ih =>
      have first := each input List.mem_cons_self
      rw [Transducer.answers, Transducer.answers, simulates.answers start first,
        ih (simulates.keeps start first) fun later member =>
          each later (List.mem_cons_of_mem _ member)]

end Cixtech.Foundation.Transducer
