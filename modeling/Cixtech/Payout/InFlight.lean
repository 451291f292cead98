import Cixtech.Payout.Moves

/-! Payments in flight. A call opens a payment when its lock is applied and closes it when
the payment is journaled as broadcast; in between, what it has sent grows leg by leg.
-/

namespace Cixtech.Payout

open Cixtech.Attribution Cixtech.Common Cixtech.Ledger

/-- What the transfer legs under a key have handed to the broadcaster. -/
def Effect.transfer (key : String) : Effect → Int
  | .sent owner request => if owner = key then request.amountBaseUnits else 0
  | _ => 0

/-- The sum of what was sent under a key. -/
def Store.transferred (store : Store) (key : String) : Int :=
  (store.effects.map (Effect.transfer key)).sum

/-- What has been sent by a payment that passed the lock and is not journaled as broadcast. -/
def Spending.sent {amount : Int} : Spending amount → Option Int
  | .prepare payment => some payment.sentTotal
  | .send payment => some payment.sentTotal
  | .markBroadcast payment => some payment.sentTotal
  | _ => none

/-- The parameters of the payment that a call has in flight, with what it has sent. -/
def Stage.inFlight : Stage → Option (PayoutParams × Int)
  | .leased lease step => step.sent.map fun sum => (lease.p, sum)
  | _ => none

def Progress.inFlight : Progress → Option (PayoutParams × Int)
  | .awaiting stage => stage.inFlight
  | .finished _ => none

def Task.inFlight : Task → Option (PayoutParams × Int)
  | .paying _ stage => stage.inFlight
  | _ => none

section Spending

variable (d : Deployment) {amount : Int} (payment : Payment amount)

theorem sent_enterLeg
    : (PayoutService.enterLeg d payment).sent = some payment.sentTotal
      ∨ ∃ err, PayoutService.enterLeg d payment = .release (.error err) := by
  unfold PayoutService.enterLeg
  split
  · exact .inl rfl
  · split
    · exact .inl rfl
    · split
      · exact .inl rfl
      · exact .inr ⟨_, rfl⟩

@[simp]
theorem sent_enterSweep (treasuryAddress : String) (index : Nat) (legs : List GatheredLeg)
    : (PayoutService.enterSweep d payment treasuryAddress index legs).sent = none := by
  rcases PayoutService.enterSweep_cases d payment treasuryAddress index legs with
    ⟨outcome, same⟩ | ⟨sweep, same | same⟩
  all_goals
    rw [same]
    rfl

@[simp]
theorem sent_nextSweep (sweep : Sweep)
    : (PayoutService.nextSweep d payment sweep).sent = none :=
  sent_enterSweep d payment _ _ _

@[simp]
theorem sent_startSweep (chain : String)
    : (PayoutService.startSweep d payment chain).sent = none := by
  rcases PayoutService.startSweep_cases d payment chain with
    ⟨outcome, same⟩ | ⟨treasuryAddress, same⟩
  all_goals
    rw [same]
    rfl

end Spending

/-- How a move changes what was sent under the keys and the payment in flight. -/
inductive SentStep (store after : Store) (atLock : Option PayoutParams)
    (before next : Option (PayoutParams × Int))
    : Prop
  | quiet (same : ∀ key, after.transferred key = store.transferred key)
      (kept : next = none ∨ next = before)
  | locked {p} (here : atLock = some p)
      (same : ∀ key, after.transferred key = store.transferred key)
      (fresh : next = none ∨ next = some (p, 0))
  | sent {p sum leg} (was : before = some (p, sum)) (positive : 0 < leg)
      (bounded : sum + leg ≤ p.amountBaseUnits)
      (more : ∀ key, after.transferred key
        = store.transferred key + if p.idempotencyKey = key then leg else 0)
      (grown : next = none ∨ next = some (p, sum + leg))

/-- An effect that is no transfer leg leaves the sums alone. -/
theorem transferred_append {store after : Store} {effect : Effect}
    (logged : after.effects = store.effects ++ [effect]) (key : String)
    : after.transferred key = store.transferred key + effect.transfer key := by
  simp [Store.transferred, logged]

/-- A call that holds the lease sends only in its `send` stage and opens a payment only at
its lock.
-/
theorem spend_sent {d : Deployment} {store after : Store} {reply : Reply} {lease : Lease}
    {step : Spending lease.p.amountBaseUnits} {progress : Progress}
    (taken : PayoutService.spend d store reply lease step = some (after, progress))
    : SentStep store after (Stage.leased lease step).atLock (Stage.leased lease step).inFlight
        progress.inFlight := by
  cases step with
  | gather =>
      simp only [PayoutService.spend] at taken
      split at taken <;> cases taken <;> exact .quiet (fun _ => rfl) (.inl rfl)
  | setFrom plan => cases taken; exact .quiet (fun _ => rfl) (.inl rfl)
  | readBalance plan =>
      simp only [PayoutService.spend] at taken
      split at taken <;> cases taken <;> exact .quiet (fun _ => rfl) (.inl rfl)
  | appendLock plan =>
      simp only [PayoutService.spend] at taken
      split at taken <;> cases taken
      · exact .quiet (fun key => (transferred_append rfl key).trans (Int.add_zero _)) (.inl rfl)
      · refine .locked rfl (fun key => (transferred_append rfl key).trans (Int.add_zero _)) ?_
        rcases sent_enterLeg d (Payment.ofPlan plan) with sent | ⟨err, left⟩
        · exact .inr (by simp [Progress.inFlight, Stage.inFlight, sent, Payment.sentTotal_ofPlan])
        · exact .inl (by simp [Progress.inFlight, Stage.inFlight, left, Spending.sent])
  | prepare payment => cases taken; exact .quiet (fun _ => rfl) (.inr rfl)
  | send payment =>
      simp only [PayoutService.spend] at taken
      split at taken
      · cases taken
      case h_2 leg next step =>
        cases taken
        obtain ⟨sum, positive, -⟩ := Payment.sendNext_spec step
        refine .sent rfl positive (sum ▸ next.sentTotal_le)
          (fun key => (transferred_append rfl key).trans rfl) ?_
        rcases sent_enterLeg d next with sent | ⟨err, left⟩
        · exact .inr (by simp [Progress.inFlight, Stage.inFlight, sent, sum])
        · exact .inl (by simp [Progress.inFlight, Stage.inFlight, left, Spending.sent])
  | markBroadcast payment => cases taken; exact .quiet (fun _ => rfl) (.inl rfl)
  | settle payment =>
      simp only [PayoutService.spend] at taken
      split at taken <;> cases taken <;>
        exact .quiet (fun key => (transferred_append rfl key).trans (Int.add_zero _)) (.inl rfl)
  | markSettled payment =>
      cases taken
      exact .quiet (fun _ => rfl) (.inl (by simp [Progress.inFlight, Stage.inFlight]))
  | planSweep payment treasuryAddress =>
      simp only [PayoutService.spend] at taken
      split at taken <;> cases taken
      · exact .quiet (fun _ => rfl) (.inl rfl)
      · exact .quiet (fun _ => rfl) (.inl (by simp [Progress.inFlight, Stage.inFlight]))
  | sweepPrepare payment sweep => cases taken; exact .quiet (fun _ => rfl) (.inl rfl)
  | sweepSend payment sweep =>
      simp only [PayoutService.spend] at taken
      split at taken <;> cases taken
      exact .quiet (fun key => (transferred_append rfl key).trans (Int.add_zero _)) (.inl rfl)
  | sweepPost payment sweep =>
      simp only [PayoutService.spend] at taken
      split at taken
      · cases taken
      · split at taken <;> cases taken <;>
          exact .quiet (fun _ => rfl)
            (.inl (by simp [Progress.inFlight, Stage.inFlight]))
  | release outcome => cases taken; exact .quiet (fun _ => rfl) (.inl rfl)

/-- A call that has not taken the lease has no payment and sends nothing. -/
theorem advance_sent {d : Deployment} {store after : Store} {reply : Reply} {stage : Stage}
    {progress : Progress}
    (taken : PayoutService.advance d store reply stage = some (after, progress))
    : SentStep store after stage.atLock stage.inFlight progress.inFlight := by
  cases stage with
  | leased lease step => exact spend_sent taken
  | begin_ p now =>
      simp only [PayoutService.advance] at taken
      split at taken <;> cases taken
      exact .quiet (fun _ => rfl) (.inl rfl)
  | load p now =>
      simp only [PayoutService.advance] at taken
      split at taken <;> cases taken
      · exact .quiet (fun _ => rfl) (.inl rfl)
      case h_2 intent found =>
        refine .quiet (fun _ => rfl) (.inl ?_)
        rcases PayoutService.branch_cases p now intent with ⟨_, same⟩ | ⟨_, _, same⟩ | same <;>
          rw [same] <;> rfl
  | resumeSettle p txId fromAddress =>
      simp only [PayoutService.advance] at taken
      split at taken <;> cases taken <;>
        exact .quiet (fun key => (transferred_append rfl key).trans (Int.add_zero _)) (.inl rfl)
  | resumeMark p txId fromAddress => cases taken; exact .quiet (fun _ => rfl) (.inl rfl)
  | check p now requestedAt =>
      simp only [PayoutService.advance] at taken
      split at taken <;> cases taken <;>
        exact .quiet (fun key => (transferred_append rfl key).trans (Int.add_zero _)) (.inl rfl)
  | acquire p now asked =>
      simp only [PayoutService.advance] at taken
      split at taken <;> cases taken <;> exact .quiet (fun _ => rfl) (.inl rfl)

/-- What the caller makes of a finished payout has no payment in flight. -/
theorem inFlight_ofProgress (d : Deployment) (caller : Caller) (progress : Progress)
    : (Task.ofProgress d caller progress).inFlight = progress.inFlight := by
  cases progress with
  | awaiting stage => rfl
  | finished outcome =>
      rw [Task.ofProgress]
      rcases Task.resumeCaller_cases d outcome caller with
        ⟨-, answer, same⟩ | ⟨tenant, key, -, ⟨result, same⟩ | ⟨err, same⟩⟩
      all_goals
        rw [same]
        rfl

/-- A completed await sends at most the next leg of the payment in flight. -/
theorem Task.advance_sent {d : Deployment} {store after : Store} {reply : Reply}
    {task next : Task} (taken : task.advance d store reply = some (after, next))
    : SentStep store after task.atLock task.inFlight next.inFlight := by
  rcases Task.advance_cases taken with ⟨caller, stage, progress, rfl, done, rfl⟩ | ⟨-, route⟩
  · rw [inFlight_ofProgress]
    exact Payout.advance_sent done
  · cases route with
    | starts => exact .quiet (fun _ => rfl) (.inl rfl)
    | idle none =>
        cases next with
        | paying caller stage => exact absurd rfl (none caller stage)
        | _ => exact .quiet (fun _ => rfl) (.inl rfl)

/-- Nothing is in flight in a task whose await has thrown. -/
theorem Task.throwAt_inFlight {d : Deployment} {err : AppError} {task next : Task}
    (thrown : task.throwAt d err = some next)
    : next.inFlight = none := by
  cases task with
  | paying caller stage =>
      cases thrown
      rw [inFlight_ofProgress]
      cases stage with
      | leased lease step =>
          cases step with
          | sweepPrepare payment sweep =>
              simp [PayoutService.throwAt, Progress.inFlight, Stage.inFlight]
          | sweepSend payment sweep =>
              simp [PayoutService.throwAt, Progress.inFlight, Stage.inFlight]
          | sweepPost payment sweep =>
              simp [PayoutService.throwAt, Progress.inFlight, Stage.inFlight]
          | _ => rfl
      | _ => rfl
  | finished response => cases thrown
  | crashed => cases thrown
  | _ => cases thrown; rfl

theorem SentStep.dropped {store after : Store} {atLock : Option PayoutParams}
    {before next : Option (PayoutParams × Int)}
    (step : SentStep store after atLock before next)
    : SentStep store after atLock before none := by
  cases step with
  | quiet same kept => exact .quiet same (.inl rfl)
  | locked here same fresh => exact .locked here same (.inl rfl)
  | sent was positive bounded more grown => exact .sent was positive bounded more (.inl rfl)

/-- Any move sends at most the next leg of the payment in flight, and opens a payment only
where its event performs a lock.
-/
theorem Task.Moves.sent {d : Deployment} {system : System} {after : Store} {task next : Task}
    {index : Nat} {event : Event} (found : system.tasks[index]? = some task)
    (moves : task.Moves d system.store index event after next)
    : SentStep system.store after (system.locking event) task.inFlight next.inFlight := by
  cases moves with
  | resumed done => simpa [System.locking, found] using Task.advance_sent done
  | rejected thrown => exact .quiet (fun _ => rfl) (.inl (Task.throwAt_inFlight thrown))
  | lost done thrown =>
      rw [Task.throwAt_inFlight thrown]
      simpa [System.locking, found] using (Task.advance_sent done).dropped
  | crashed => exact .quiet (fun _ => rfl) (.inl rfl)

end Cixtech.Payout
