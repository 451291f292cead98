import Cixtech.Payout.Intents

/-! What the calls post. A call checks its lock against the balance, appends it, and settles
once it was locked; what it is funded by in between says which entry it may append next. One
inversion of the service tells every way in which a step changes the ledger.
-/

namespace Cixtech.Payout

open Cixtech.Attribution Cixtech.Common Cixtech.Foundation Cixtech.Ledger

/-- How far a call is with the money of its payout: the balance was found to cover it, or
its lock was appended.
-/
inductive Phase
  | checked
  | locked
  deriving DecidableEq, Repr

def Spending.phase {amount : Int} : Spending amount → Option Phase
  | .appendLock _ => some .checked
  | .prepare _ => some .locked
  | .send _ => some .locked
  | .markBroadcast _ => some .locked
  | .settle _ => some .locked
  | _ => none

/-- The payout that a stage has money for, up to its settlement. -/
def Stage.funding : Stage → Option (PayoutParams × Phase)
  | .leased lease step => step.phase.map fun phase => (lease.p, phase)
  | .resumeSettle p _ _ => some (p, .locked)
  | _ => none

def Progress.funding : Progress → Option (PayoutParams × Phase)
  | .awaiting stage => stage.funding
  | .finished _ => none

def Task.funding : Task → Option (PayoutParams × Phase)
  | .paying _ stage => stage.funding
  | _ => none

/-- The payout whose amount a stage is about to compare with the balance. -/
def Stage.checking : Stage → Option PayoutParams
  | .leased lease (.readBalance _) => some lease.p
  | _ => none

def Task.checking : Task → Option PayoutParams
  | .paying _ stage => stage.checking
  | _ => none

/-- What a step does to the ledger and to the payout that its call has money for. -/
inductive FundingStep (d : Deployment) (store after : Store) (checking : Option PayoutParams)
    (before next : Option (PayoutParams × Phase))
    : Prop
  | quiet (same : after.ledger = store.ledger)
      (kept : next = none ∨ next = before ∧ before.map Prod.snd ≠ some .checked)
  | checked {p} (was : checking = some p) (same : after.ledger = store.ledger)
      (covered : p.amountBaseUnits
        ≤ -store.ledger.balance (merchantAvailable p.tenant p.merchant)
            (d.casing.toUpperCase p.asset))
      (positive : 0 < p.amountBaseUnits)
      (kept : next = none ∨ next = some (p, .checked))
  | locked {p entry applied} (was : before = some (p, .checked))
      (built : payoutLocked (PayoutService.lockInput d p) = .ok entry)
      (appended : store.ledger.append entry = .ok (after.ledger, applied))
      (kept : next = none ∨ next = some (p, .locked))
  | settled {p entry applied} (was : before = some (p, .locked))
      (built : payoutSettled (PayoutService.settleInput d p) = .ok entry)
      (appended : store.ledger.append entry = .ok (after.ledger, applied))
      (kept : next = none)
  | swept {p sweep leg entry applied}
      (built : feeSwept (PayoutService.feeSweptInput d p sweep leg) = .ok entry)
      (appended : store.ledger.append entry = .ok (after.ledger, applied))
      (kept : next = none)
  | resumed {p intent} (same : after.ledger = store.ledger)
      (loaded : PayoutJournal.load store.journal p.idempotencyKey = some intent)
      (sent : intent.txId.isSome)
      (kept : next = none ∨ next = some (p, .locked))

section Phases

variable (d : Deployment) {amount : Int} (payment : Payment amount)

/-- The loop over the legs goes on with a locked payout or leaves it. -/
theorem phase_enterLeg
    : (PayoutService.enterLeg d payment).phase = none
      ∨ (PayoutService.enterLeg d payment).phase = some .locked := by
  unfold PayoutService.enterLeg
  split
  · exact .inr rfl
  · split
    · exact .inr rfl
    · split
      · exact .inr rfl
      · exact .inl rfl

/-- The fee legs have nothing to do with the money of the payout. -/
theorem phase_enterSweep (treasuryAddress : String) (index : Nat) (legs : List GatheredLeg)
    : (PayoutService.enterSweep d payment treasuryAddress index legs).phase = none := by
  rcases PayoutService.enterSweep_cases d payment treasuryAddress index legs with
    ⟨outcome, same⟩ | ⟨sweep, same | same⟩
  all_goals
    rw [same]
    rfl

theorem phase_startSweep (chain : String)
    : (PayoutService.startSweep d payment chain).phase = none := by
  rcases PayoutService.startSweep_cases d payment chain with
    ⟨outcome, same⟩ | ⟨treasuryAddress, same⟩
  all_goals
    rw [same]
    rfl

end Phases

theorem locked_unchecked (p : PayoutParams)
    : (some (p, Phase.locked)).map Prod.snd ≠ some .checked := by
  simp

/-- What follows a builder follows it on its entry. -/
private theorem ok_of_bind {β : Type} {built : Except AppError JournalEntry}
    {next : JournalEntry → Except AppError β} {result : β}
    (done : (built >>= next) = .ok result)
    : ∃ entry, built = .ok entry ∧ next entry = .ok result := by
  cases built with
  | error err => cases done
  | ok entry => exact ⟨entry, rfl, done⟩

/-- What passes the comparison is covered by the balance and positive. -/
theorem covered_of_lockEntry {input : PayoutLockedInput} {available : Int} {entry : JournalEntry}
    (passed : LedgerService.lockEntry input available = .ok entry)
    : input.amount ≤ available ∧ 0 < input.amount := by
  unfold LedgerService.lockEntry at passed
  split at passed
  · cases passed
  · rename_i covered
    refine ⟨Int.not_lt.mp covered, ?_⟩
    have built : (payoutLocked input >>= fun entry => do assertBalanced entry; return entry)
        = .ok entry :=
      passed
    exact (ok_of_movement_bind built).1

variable {d : Deployment} {store after : Store} {reply : Reply}

/-- A call that holds the lease appends its lock, its settlement or a fee leg. -/
theorem spend_funding {lease : Lease} {step : Spending lease.p.amountBaseUnits}
    {progress : Progress}
    (taken : PayoutService.spend d store reply lease step = some (after, progress))
    : FundingStep d store after (Stage.leased lease step).checking
        (Stage.leased lease step).funding progress.funding := by
  cases step with
  | gather =>
      simp only [PayoutService.spend] at taken
      split at taken <;> cases taken <;> exact .quiet rfl (.inl rfl)
  | setFrom plan => cases taken; exact .quiet rfl (.inl rfl)
  | readBalance plan =>
      simp only [PayoutService.spend] at taken
      split at taken <;> cases taken
      · exact .quiet rfl (.inl rfl)
      case h_2 entry passed =>
        rw [show LedgerService.availableBalance store.ledger
            (PayoutService.lockInput d lease.p).merchantAvailable
            (PayoutService.lockInput d lease.p).asset
          = .ok (-store.ledger.balance (merchantAvailable lease.p.tenant lease.p.merchant)
              (d.casing.toUpperCase lease.p.asset))
          from LedgerService.availableBalance_merchantAvailable ..] at passed
        obtain ⟨covered, positive⟩ := covered_of_lockEntry passed
        exact .checked rfl rfl covered positive (.inr rfl)
  | appendLock plan =>
      simp only [PayoutService.spend] at taken
      split at taken <;> cases taken
      · exact .quiet rfl (.inl rfl)
      case h_2 applied done =>
        obtain ⟨entry, built, appended⟩ := ok_of_bind done
        refine .locked rfl built appended ?_
        rcases phase_enterLeg d (Payment.ofPlan plan) with left | locked
        · exact .inl (by simp [Progress.funding, Stage.funding, left])
        · exact .inr (by simp [Progress.funding, Stage.funding, locked])
  | prepare payment => cases taken; exact .quiet rfl (.inr ⟨rfl, locked_unchecked _⟩)
  | send payment =>
      simp only [PayoutService.spend] at taken
      split at taken <;> cases taken
      case h_2 leg next step =>
        rcases phase_enterLeg d next with left | locked
        · exact .quiet rfl (.inl (by simp [Progress.funding, Stage.funding, left]))
        · exact .quiet rfl
            (.inr ⟨by rw [Progress.funding, Stage.funding, locked]; rfl, locked_unchecked _⟩)
  | markBroadcast payment => cases taken; exact .quiet rfl (.inr ⟨rfl, locked_unchecked _⟩)
  | settle payment =>
      simp only [PayoutService.spend] at taken
      split at taken <;> cases taken
      · exact .quiet rfl (.inl rfl)
      case h_2 applied done =>
        obtain ⟨entry, built, posted⟩ := ok_of_bind done
        exact .settled rfl built (LedgerService.append_of_post posted) rfl
  | markSettled payment =>
      cases taken
      exact .quiet rfl (.inl (by simp [Progress.funding, Stage.funding, phase_startSweep]))
  | planSweep payment treasuryAddress =>
      simp only [PayoutService.spend] at taken
      split at taken <;> cases taken
      · exact .quiet rfl (.inl rfl)
      · exact .quiet rfl (.inl (by simp [Progress.funding, Stage.funding, phase_enterSweep]))
  | sweepPrepare payment sweep => cases taken; exact .quiet rfl (.inl rfl)
  | sweepSend payment sweep =>
      simp only [PayoutService.spend] at taken
      split at taken <;> cases taken
      exact .quiet rfl (.inl rfl)
  | sweepPost payment sweep =>
      have onward : (Progress.awaiting (.leased lease
          (PayoutService.nextSweep d payment sweep))).funding = none := by
        simp [Progress.funding, Stage.funding, PayoutService.nextSweep, phase_enterSweep]
      simp only [PayoutService.spend] at taken
      split at taken
      · cases taken
      · split at taken <;> cases taken
        · exact .quiet rfl (.inl onward)
        case h_2 applied done =>
          obtain ⟨entry, built, posted⟩ := ok_of_bind done
          exact .swept built (LedgerService.append_of_post posted) onward
  | release outcome => cases taken; exact .quiet rfl (.inl rfl)

/-- A call without the lease settles a payout that was broadcast, or posts nothing. -/
theorem advance_funding {stage : Stage} {progress : Progress}
    (taken : PayoutService.advance d store reply stage = some (after, progress))
    : FundingStep d store after stage.checking stage.funding progress.funding := by
  cases stage with
  | leased lease step => exact spend_funding taken
  | begin_ p now =>
      simp only [PayoutService.advance] at taken
      split at taken <;> cases taken
      exact .quiet rfl (.inl rfl)
  | load p now =>
      simp only [PayoutService.advance] at taken
      split at taken <;> cases taken
      · exact .quiet rfl (.inl rfl)
      case h_2 intent found =>
        unfold PayoutService.branch
        split
        · exact .quiet rfl (.inl rfl)
        · rename_i sent _
          refine .resumed rfl found ?_ (.inr rfl)
          cases txId : intent.txId with
          | none => simp [txId, PayoutService.truthy] at sent
          | some text => rfl
        · exact .quiet rfl (.inl rfl)
  | resumeSettle p txId fromAddress =>
      simp only [PayoutService.advance] at taken
      split at taken <;> cases taken
      · exact .quiet rfl (.inl rfl)
      case h_2 applied done =>
        obtain ⟨entry, built, posted⟩ := ok_of_bind done
        exact .settled rfl built (LedgerService.append_of_post posted) rfl
  | resumeMark p txId fromAddress => cases taken; exact .quiet rfl (.inl rfl)
  | check p now requestedAt =>
      simp only [PayoutService.advance] at taken
      split at taken <;> cases taken <;> exact .quiet rfl (.inl rfl)
  | acquire p now asked =>
      simp only [PayoutService.advance] at taken
      split at taken <;> cases taken <;> exact .quiet rfl (.inl rfl)

theorem funding_ofProgress (d : Deployment) (caller : Caller) (progress : Progress)
    : (Task.ofProgress d caller progress).funding = progress.funding := by
  cases progress with
  | awaiting stage => rfl
  | finished outcome =>
      rw [Task.ofProgress]
      rcases Task.resumeCaller_cases d outcome caller with
        ⟨-, answer, same⟩ | ⟨tenant, key, -, ⟨result, same⟩ | ⟨err, same⟩⟩
      all_goals
        rw [same]
        rfl

/-- Outside of a payout a task leaves the ledger alone and has no money. -/
theorem Task.advance_funding {task next : Task}
    (taken : task.advance d store reply = some (after, next))
    : FundingStep d store after task.checking task.funding next.funding := by
  rcases Task.advance_cases taken with ⟨caller, stage, progress, rfl, done, rfl⟩ | ⟨-, route⟩
  · rw [funding_ofProgress]
    exact Payout.advance_funding done
  · cases route with
    | starts => exact .quiet rfl (.inl rfl)
    | idle none =>
        cases next with
        | paying caller stage => exact absurd rfl (none caller stage)
        | _ => exact .quiet rfl (.inl rfl)

/-- A thrown await leaves a task without money. -/
theorem Task.throwAt_funding {err : AppError} {task next : Task}
    (thrown : task.throwAt d err = some next)
    : next.funding = none := by
  cases task with
  | paying caller stage =>
      cases thrown
      rw [funding_ofProgress]
      cases stage with
      | leased lease step =>
          have onward : ∀ (payment : Payment lease.p.amountBaseUnits) sweep,
              (Progress.awaiting (.leased lease
                (PayoutService.nextSweep d payment sweep))).funding = none := by
            intro payment sweep
            simp [Progress.funding, Stage.funding, PayoutService.nextSweep, phase_enterSweep]
          cases step with
          | sweepPrepare payment sweep => exact onward payment sweep
          | sweepSend payment sweep => exact onward payment sweep
          | sweepPost payment sweep => exact onward payment sweep
          | _ => rfl
      | _ => rfl
  | finished response => cases thrown
  | crashed => cases thrown
  | _ => cases thrown; rfl

/-- A step whose task is thrown out of it has done the same to the ledger. -/
theorem FundingStep.dropped {checking : Option PayoutParams}
    {before next : Option (PayoutParams × Phase)}
    (step : FundingStep d store after checking before next)
    : FundingStep d store after checking before none := by
  cases step with
  | quiet same _ => exact .quiet same (.inl rfl)
  | checked was same covered positive _ => exact .quiet same (.inl rfl)
  | locked was built appended _ => exact .locked was built appended (.inl rfl)
  | settled was built appended _ => exact .settled was built appended rfl
  | swept built appended _ => exact .swept built appended rfl
  | resumed same _ _ _ => exact .quiet same (.inl rfl)

theorem Task.Moves.funding {task next : Task} {index : Nat} {event : Event}
    (moves : task.Moves d store index event after next)
    : FundingStep d store after task.checking task.funding next.funding := by
  cases moves with
  | resumed done => exact Task.advance_funding done
  | rejected thrown => exact .quiet rfl (.inl (Task.throwAt_funding thrown))
  | lost done thrown =>
      rw [Task.throwAt_funding thrown]
      exact (Task.advance_funding done).dropped
  | crashed => exact .quiet rfl (.inl rfl)

-----------------------------------------------------------------------------
-- Who writes a transaction id

/-- A row with a transaction id had it before, or gets it from a call whose payout is locked.
-/
def KeepsUnsent (store after : Store) (funding : Option (PayoutParams × Phase)) : Prop :=
  ∀ row ∈ after.journal, row.txId.isSome
    → (∃ old ∈ store.journal, old.idempotencyKey = row.idempotencyKey ∧ old.txId.isSome)
      ∨ ∃ p, funding = some (p, .locked) ∧ p.idempotencyKey = row.idempotencyKey

theorem KeepsUnsent.same {funding : Option (PayoutParams × Phase)}
    (same : after.journal = store.journal)
    : KeepsUnsent store after funding :=
  fun row member sent => .inl ⟨row, same ▸ member, rfl, sent⟩

/-- An update that leaves keys and transaction ids alone. -/
theorem KeepsUnsent.update {funding : Option (PayoutParams × Phase)} {key : String}
    {change : PayoutIntent → PayoutIntent}
    (updated
      : after.journal = Table.update PayoutIntent.idempotencyKey store.journal key change)
    (keys : ∀ row, (change row).idempotencyKey = row.idempotencyKey)
    (txIds : ∀ row, (change row).txId = row.txId)
    : KeepsUnsent store after funding := by
  intro row member sent
  rw [updated] at member
  obtain ⟨old, before, rfl⟩ := List.mem_map.mp member
  refine .inl ⟨old, before, ?_, ?_⟩
  · split
    · exact (keys old).symm
    · rfl
  · split at sent
    · rwa [txIds] at sent
    · exact sent

/-- Only marking an intent as broadcast writes its id. -/
theorem spend_keepsUnsent {lease : Lease} {step : Spending lease.p.amountBaseUnits}
    {progress : Progress}
    (taken : PayoutService.spend d store reply lease step = some (after, progress))
    : KeepsUnsent store after (Stage.leased lease step).funding := by
  cases step with
  | setFrom plan => cases taken; exact .update rfl (fun _ => rfl) fun _ => rfl
  | markSettled payment => cases taken; exact .update rfl (fun _ => rfl) fun _ => rfl
  | markBroadcast payment =>
      cases taken
      intro row member sent
      obtain ⟨old, before, rfl⟩ := List.mem_map.mp member
      by_cases own : old.idempotencyKey = lease.p.idempotencyKey
      · rw [if_pos own]
        exact .inr ⟨lease.p, rfl, own.symm⟩
      · rw [if_neg own] at sent ⊢
        exact .inl ⟨old, before, rfl, sent⟩
  | prepare payment => cases taken; exact .same rfl
  | sweepPrepare payment sweep => cases taken; exact .same rfl
  | release outcome => cases taken; exact .same rfl
  | sweepPost payment sweep =>
      simp only [PayoutService.spend] at taken
      split at taken
      · cases taken
      · split at taken <;> cases taken <;> exact .same rfl
  | _ =>
      simp only [PayoutService.spend] at taken
      split at taken <;> cases taken <;> exact .same rfl

theorem advance_keepsUnsent {stage : Stage} {progress : Progress}
    (taken : PayoutService.advance d store reply stage = some (after, progress))
    : KeepsUnsent store after stage.funding := by
  cases stage with
  | leased lease step => exact spend_keepsUnsent taken
  | begin_ p now =>
      simp only [PayoutService.advance] at taken
      split at taken <;> cases taken
      intro row member sent
      unfold PayoutJournal.begin_ Table.insertIgnore at member
      split at member
      · exact .inl ⟨row, member, rfl, sent⟩
      · rcases List.mem_append.mp member with before | inserted
        · exact .inl ⟨row, before, rfl, sent⟩
        · rw [List.mem_singleton.mp inserted] at sent
          cases sent
  | resumeMark p txId fromAddress =>
      cases taken
      exact .update rfl (fun _ => rfl) fun _ => rfl
  | _ =>
      simp only [PayoutService.advance] at taken
      split at taken <;> cases taken <;> exact .same rfl

theorem Task.advance_keepsUnsent {task next : Task}
    (taken : task.advance d store reply = some (after, next))
    : KeepsUnsent store after task.funding := by
  rcases Task.advance_cases taken with ⟨caller, stage, progress, rfl, done, -⟩ | ⟨-, route⟩
  · exact Payout.advance_keepsUnsent done
  · cases route <;> exact .same rfl

theorem Task.Moves.keepsUnsent {task next : Task} {index : Nat} {event : Event}
    (moves : task.Moves d store index event after next)
    : KeepsUnsent store after task.funding := by
  cases moves with
  | resumed done => exact Task.advance_keepsUnsent done
  | rejected thrown => exact .same rfl
  | lost done thrown => exact Task.advance_keepsUnsent done
  | crashed => exact .same rfl

end Cixtech.Payout
