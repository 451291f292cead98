import Cixtech.Payout.ConcurrentPayouts

/-! Calls of one intent made one at a time, each of which may throw or die at any await. A
retry gathers and sends from scratch, so what keeps the sum within the amount is that no
retry reaches the lock once a leg has left.
-/

namespace Cixtech.Payout

open Cixtech.Common Cixtech.Foundation Cixtech.Foundation.Processes Cixtech.Ledger

/-- A task inside `payout()` under the key. -/
def Task.paysUnder (key : String) : Task → Bool
  | .paying _ stage => stage.params.idempotencyKey = key
  | _ => false

/-- At most one call is inside `payout()` under the key. -/
def System.OneAtATime (key : String) (system : System) : Prop :=
  ∀ i < system.tasks.length, ∀ j < system.tasks.length,
    system.tasks[i]?.any (Task.paysUnder key) → system.tasks[j]?.any (Task.paysUnder key)
      → i = j

/-- A lock of the intent is appended only while none of its legs has been sent. -/
def System.LocksUnsent (key : String) (system : System) (event : Event) : Prop :=
  ∀ p ∈ system.locking event, p.idempotencyKey = key → system.store.transferred key = 0

/-- Calls under the key repeat the terms of the intent and are made one at a time. -/
def System.Sequential (d : Deployment) (key : String) (terms : Terms) (system : System)
    (event : Event)
    : Prop :=
  event.repeats d key terms = true ∧ system.OneAtATime key

instance (key : String) (system : System) : Decidable (system.OneAtATime key) :=
  inferInstanceAs (Decidable (∀ i < _, ∀ j < _, _ → _ → i = j))

instance (key : String) (system : System) (event : Event)
    : Decidable (system.LocksUnsent key event) :=
  inferInstanceAs (Decidable (∀ p ∈ system.locking event, _))

instance (d : Deployment) (key : String) (terms : Terms) (system : System) (event : Event)
    : Decidable (system.Sequential d key terms event) :=
  inferInstanceAs (Decidable (_ ∧ _))

theorem Task.paysUnder_of_spendsUnder {key : String} {task : Task}
    (spends : task.spendsUnder key = some ())
    : task.paysUnder key = true := by
  obtain ⟨lease, has, under⟩ := Task.spendsUnder_iff.mp spends
  have begun := (Task.about_of_lease (d := plainDeployment) has).2
  cases task with
  | paying caller stage =>
      have own := Task.key_of_begun begun
      simpa [Task.paysUnder] using own.trans under
  | _ => cases has

theorem System.OneAtATime.alone {key : String} {system : System}
    (one : system.OneAtATime key)
    : Exclusive (Task.spendsUnder key) system.tasks := by
  intro i j a b held atI atJ spendsA spendsB
  obtain ⟨insideI, -⟩ := List.getElem?_eq_some_iff.mp atI
  obtain ⟨insideJ, -⟩ := List.getElem?_eq_some_iff.mp atJ
  refine one i insideI j insideJ ?_ ?_
  · rw [atI]
    exact Task.paysUnder_of_spendsUnder spendsA
  · rw [atJ]
    exact Task.paysUnder_of_spendsUnder spendsB

/-- What a run of one-at-a-time calls keeps. -/
structure PaidInTurn (d : Deployment) (key : String) (terms : Terms) (system : System)
    : Prop where
  journaled : Journaled d key terms system
  paid : Paid key terms.amountBaseUnits system

theorem PaidInTurn.step {d : Deployment} {key : String} {terms : Terms}
    {system next : System} {event : Event} (inTurn : PaidInTurn d key terms system)
    (sequential : system.Sequential d key terms event) (unlocked : system.LocksUnsent key event)
    (taken : system.step d event = some next)
    : PaidInTurn d key terms next := by
  obtain ⟨repeats, one⟩ := sequential
  have agreed := inTurn.journaled.agreed
  exact ⟨inTurn.journaled.step repeats taken, inTurn.paid.step one.alone agreed unlocked taken⟩

/-- One-at-a-time calls of one intent send at most its amount, in every run, with any
failures, in which no retry appends its lock after a leg was sent.
-/
theorem sequential_payouts_within_amount (d : Deployment) (key : String) (terms : Terms)
    (store : Store) (system : System) (unsent : store.effects = [])
    (recorded : ∀ row ∈ store.journal, row.idempotencyKey = key → row.terms = terms)
    (notNegative : 0 ≤ terms.amountBaseUnits)
    (reached : Reaches (System.step d)
      (fun state event => state.Sequential d key terms event ∧ state.LocksUnsent key event)
      { store, tasks := [] } system)
    : system.store.transferred key ≤ terms.amountBaseUnits := by
  have inTurn : PaidInTurn d key terms system := by
    refine reached.invariant ?_ fun inTurn allowed taken =>
      inTurn.step allowed.1 allowed.2 taken
    exact ⟨.initial recorded, .initial notNegative unsent⟩
  exact inTurn.paid.bounded

/-- The first call sends its only leg and fails to journal it as broadcast; the retry finds
the intent `broadcasting`, gathers again and sends the amount a second time.
-/
theorem sequential_payouts_send_twice
    : ∃ system,
        Reaches (System.step plainDeployment)
          (fun state event =>
            state.Sequential plainDeployment "k" samplePayout.terms event)
          { store := emptyStore, tasks := [] } system
        ∧ samplePayout.terms.amountBaseUnits < system.store.transferred "k" :=
  Reaches.exists_of_exec
    ([.post sampleDeposit, .call (.payout samplePayout)]
      ++ completes 0 9 (sampleReply "a" [100]) ++ [.reject 0 (.plain "connection lost")]
      ++ completes 0 1 (sampleReply "a" []) ++ [.call (.payout samplePayout)]
      ++ completes 1 9 (sampleReply "b" [100]))
    (by decide +kernel)

/-- A call that dies before its lock leaves its retry to pay the whole amount. -/
theorem sequential_payouts_within_amount_retried
    : ∃ system,
        Reaches (System.step plainDeployment)
          (fun state event =>
            state.Sequential plainDeployment "k" samplePayout.terms event
              ∧ state.LocksUnsent "k" event)
          { store := emptyStore, tasks := [] } system
        ∧ system.store.transferred "k" = 100
        ∧ system.store.transferred "k" ≤ samplePayout.terms.amountBaseUnits := by
  have retried : ∃ system,
      Reaches (System.step plainDeployment)
        (fun state event =>
          state.Sequential plainDeployment "k" samplePayout.terms event
            ∧ state.LocksUnsent "k" event)
        { store := emptyStore, tasks := [] } system
      ∧ system.store.transferred "k" = 100 :=
    Reaches.exists_of_exec
      ([.post sampleDeposit, .call (.payout samplePayout)]
        ++ completes 0 4 (sampleReply "a" [100]) ++ [.crash 0, .tick 120001]
        ++ [.call (.payout samplePayout)] ++ completes 1 13 (sampleReply "b" [100]))
      (by decide +kernel)
  obtain ⟨system, reached, sent⟩ := retried
  refine ⟨system, reached, sent, ?_⟩
  exact sequential_payouts_within_amount plainDeployment "k" samplePayout.terms emptyStore system
    rfl (by simp [emptyStore]) (by decide) reached

end Cixtech.Payout
