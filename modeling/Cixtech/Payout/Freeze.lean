import Cixtech.Payout.ConcurrentPayouts

/-! What the kill switch stops. A call that the policy has not passed when the switch is engaged
moves nothing from then on, and one that it has passed sends at most what it still had to.
-/

namespace Cixtech.Payout

open Cixtech.Attribution Cixtech.Common Cixtech.Foundation Cixtech.Foundation.Processes

/-- What an event answers to the await that it ends. -/
def Event.reply : Event → Option Reply
  | .resume _ reply => some reply
  | .lose _ reply _ => some reply
  | _ => none

/-- Whatever is answered, the kill switch is engaged. -/
def Halted (_ : System) (event : Event) : Prop :=
  ∀ reply, event.reply = some reply → reply.answers.killSwitchEngaged = true

instance (system : System) (event : Event) : Decidable (Halted system event) :=
  match event with
  | .resume _ reply => decidable_of_iff (reply.answers.killSwitchEngaged = true)
      ⟨fun engaged _ same => Option.some.inj same ▸ engaged, fun halted => halted _ rfl⟩
  | .lose _ reply _ => decidable_of_iff (reply.answers.killSwitchEngaged = true)
      ⟨fun engaged _ same => Option.some.inj same ▸ engaged, fun halted => halted _ rfl⟩
  | .tick _ | .call _ | .post _ | .reject .. | .crash _ => .isTrue fun _ none => nomatch none

-----------------------------------------------------------------------------
-- What a call still has to send

/-- The parameters of a call that the policy has passed. -/
def Stage.admitted : Stage → Option PayoutParams
  | .acquire p _ _ => some p
  | .leased lease _ => some lease.p
  | _ => none

def Progress.admitted : Progress → Option PayoutParams
  | .awaiting stage => stage.admitted
  | .finished _ => none

def Task.admitted : Task → Option PayoutParams
  | .paying _ stage => stage.admitted
  | _ => none

/-- What the legs still take, as far as the call goes on. -/
def Spending.unsent {amount : Int} : Spending amount → Int
  | .gather | .setFrom _ | .readBalance _ | .appendLock _ => amount.toNat
  | .prepare payment | .send payment => amount - payment.sentTotal
  | _ => 0

/-- What a call still sends under a key, once the policy has passed it. -/
def Stage.unsent (key : String) : Stage → Int
  | .acquire p _ _ => if p.idempotencyKey = key then p.amountBaseUnits.toNat else 0
  | .leased lease step => if lease.p.idempotencyKey = key then step.unsent else 0
  | _ => 0

def Progress.unsent (key : String) : Progress → Int
  | .awaiting stage => stage.unsent key
  | .finished _ => 0

def Task.unsent (key : String) : Task → Int
  | .paying _ stage => stage.unsent key
  | _ => 0

def System.unsent (system : System) (key : String) : Int := holdings (Task.unsent key) system.tasks

/-- Whether an effect has moved funds for a call with the key, by a leg or by a fee leg. -/
def Effect.moves (key : String) : Effect → Bool
  | .sent owner _ => owner = key
  | .feeSent owner _ => owner = key
  | _ => false

/-- What has moved funds under a key. -/
def Store.moved (store : Store) (key : String) : List Effect :=
  store.effects.filter (Effect.moves key)

theorem Spending.unsent_nonneg {amount : Int} (step : Spending amount) : 0 ≤ step.unsent := by
  cases step with
  | prepare payment => exact Int.sub_nonneg_of_le payment.sentTotal_le
  | send payment => exact Int.sub_nonneg_of_le payment.sentTotal_le
  | _ => simp [Spending.unsent]

theorem Stage.unsent_nonneg (key : String) (stage : Stage) : 0 ≤ stage.unsent key := by
  cases stage with
  | acquire p now asked =>
      simp only [Stage.unsent]
      split <;> simp
  | leased lease step =>
      simp only [Stage.unsent]
      split
      · exact step.unsent_nonneg
      · exact Int.le_refl 0
  | _ => exact Int.le_refl 0

theorem Task.unsent_nonneg (key : String) (task : Task) : 0 ≤ task.unsent key := by
  cases task with
  | paying caller stage => exact stage.unsent_nonneg key
  | _ => exact Int.le_refl 0

section Legs

variable (d : Deployment) {amount : Int} (payment : Payment amount)

/-- The loop over the legs goes on with what is left of them, or ends. -/
theorem unsent_enterLeg
    : (PayoutService.enterLeg d payment).unsent ≤ amount - payment.sentTotal := by
  have left : 0 ≤ amount - payment.sentTotal := Int.sub_nonneg_of_le payment.sentTotal_le
  unfold PayoutService.enterLeg
  split
  · exact left
  · split
    · exact Int.le_refl _
    · split
      · exact Int.le_refl _
      · exact left

theorem unsent_enterSweep (treasuryAddress : String) (index : Nat) (legs : List GatheredLeg)
    : (PayoutService.enterSweep d payment treasuryAddress index legs).unsent = 0 := by
  rcases PayoutService.enterSweep_cases d payment treasuryAddress index legs with
    ⟨outcome, same⟩ | ⟨sweep, same | same⟩
  all_goals
    rw [same]
    rfl

theorem unsent_startSweep (chain : String)
    : (PayoutService.startSweep d payment chain).unsent = 0 := by
  rcases PayoutService.startSweep_cases d payment chain with
    ⟨outcome, same⟩ | ⟨treasuryAddress, same⟩
  all_goals
    rw [same]
    rfl

end Legs

-----------------------------------------------------------------------------
-- One step of a call

/-- What a step of a call sends is taken from what it still had to, and no call goes past the
policy.
-/
structure HaltedStep (key : String) (store after : Store) (unsent next : Int)
    (admitted nextAdmitted : Option PayoutParams)
    : Prop where
  kept : ∀ p, nextAdmitted = some p → admitted = some p
  spends : after.transferred key + next ≤ store.transferred key + unsent
  quiet
    : (∀ p, admitted = some p → p.idempotencyKey ≠ key) → after.moved key = store.moved key

/-- A step to a call that the policy has not passed keeps what the policy has passed. -/
theorem none_admitted {admitted : Option PayoutParams}
    : ∀ p, (none : Option PayoutParams) = some p → admitted = some p :=
  fun _ none => nomatch none

/-- A step without effects. -/
theorem HaltedStep.still {key : String} {store after : Store} {unsent next : Int}
    {admitted nextAdmitted : Option PayoutParams} (same : after.effects = store.effects)
    (kept : ∀ p, nextAdmitted = some p → admitted = some p) (less : next ≤ unsent)
    : HaltedStep key store after unsent next admitted nextAdmitted where
  kept := kept
  spends := by simpa [Store.transferred, same] using less
  quiet _ := by simp [Store.moved, same]

/-- A step that is logged and moves nothing. -/
theorem HaltedStep.logged {key : String} {store after : Store} {unsent next : Int}
    {admitted nextAdmitted : Option PayoutParams} {effect : Effect}
    (grown : after.effects = store.effects ++ [effect]) (free : effect.transfer key = 0)
    (unmoved : effect.moves key = false)
    (kept : ∀ p, nextAdmitted = some p → admitted = some p) (less : next ≤ unsent)
    : HaltedStep key store after unsent next admitted nextAdmitted where
  kept := kept
  spends := by simpa [transferred_append grown, free] using less
  quiet _ := by simp [Store.moved, grown, unmoved]

section Steps

variable {d : Deployment} {store after : Store} {reply : Reply} (key : String)

/-- A call that holds the lease sends what it still had to, by cases on what it awaits. -/
theorem spend_halted {lease : Lease} {step : Spending lease.p.amountBaseUnits} {progress : Progress}
    (taken : PayoutService.spend d store reply lease step = some (after, progress))
    : HaltedStep key store after ((Stage.leased lease step).unsent key) (progress.unsent key)
        (Stage.leased lease step).admitted progress.admitted := by
  have kept : ∀ p, progress.admitted = some p → (Stage.leased lease step).admitted = some p := by
    intro p there
    rcases (spend_frame taken).stays with ⟨next, rfl⟩ | ⟨outcome, rfl⟩
    · exact there
    · cases there
  have nonneg := (Stage.leased lease step).unsent_nonneg key
  have less {next : Spending lease.p.amountBaseUnits} (fewer : next.unsent ≤ step.unsent)
      : (Stage.leased lease next).unsent key ≤ (Stage.leased lease step).unsent key := by
    simp only [Stage.unsent]
    split
    · exact fewer
    · exact Int.le_refl 0
  cases step with
  | gather =>
      simp only [PayoutService.spend] at taken
      split at taken <;> cases taken
      · exact .still rfl kept (less (Int.natCast_nonneg _))
      · exact .still rfl kept (less (Int.le_refl _))
  | setFrom plan =>
      cases taken
      exact .still rfl kept (less (Int.le_refl _))
  | readBalance plan =>
      simp only [PayoutService.spend] at taken
      split at taken <;> cases taken
      · exact .still rfl kept (less (Int.natCast_nonneg _))
      · exact .still rfl kept (less (Int.le_refl _))
  | appendLock plan =>
      simp only [PayoutService.spend] at taken
      split at taken <;> cases taken
      · exact .logged rfl rfl rfl kept (less (Int.natCast_nonneg _))
      · refine .logged rfl rfl rfl kept (less ?_)
        have legs := unsent_enterLeg d (Payment.ofPlan plan)
        rw [Payment.sentTotal_ofPlan, Int.sub_zero] at legs
        exact legs.trans (Int.self_le_toNat _)
  | prepare payment =>
      cases taken
      exact .still rfl kept (less (Int.le_refl _))
  | send payment =>
      simp only [PayoutService.spend] at taken
      split at taken
      · cases taken
      · next leg next sends =>
        cases taken
        obtain ⟨sum, -, -⟩ := Payment.sendNext_spec sends
        refine ⟨kept, ?_, fun other => ?_⟩
        · have legs := unsent_enterLeg d next
          rw [transferred_append rfl key]
          simp only [Progress.unsent, Stage.unsent, Effect.transfer]
          split
          · have sent : (PayoutService.legRequest d lease payment leg).amountBaseUnits
                = leg.amountBaseUnits := rfl
            have before : (Spending.send payment).unsent
                = lease.p.amountBaseUnits - payment.sentTotal := rfl
            omega
          · omega
        · have apart := other lease.p rfl
          simp [Store.moved, Effect.moves, apart]
  | markBroadcast payment =>
      cases taken
      exact .still rfl kept (less (Int.le_refl _))
  | settle payment =>
      simp only [PayoutService.spend] at taken
      split at taken <;> cases taken <;> exact .logged rfl rfl rfl kept (less (Int.le_refl _))
  | markSettled payment =>
      cases taken
      exact .still rfl kept (less (Int.le_of_eq (unsent_startSweep d payment _)))
  | planSweep payment treasuryAddress =>
      simp only [PayoutService.spend] at taken
      split at taken <;> cases taken
      · exact .still rfl kept (less (Int.le_refl _))
      · exact .still rfl kept (less (Int.le_of_eq (unsent_enterSweep d payment _ _ _)))
  | sweepPrepare payment sweep =>
      cases taken
      exact .still rfl kept (less (Int.le_refl _))
  | sweepSend payment sweep =>
      simp only [PayoutService.spend] at taken
      split at taken
      · cases taken
      · cases taken
        refine ⟨kept, ?_, fun other => ?_⟩
        · rw [transferred_append rfl key]
          exact Int.add_le_add (Int.le_of_eq (Int.add_zero _)) (less (Int.le_refl _))
        · have apart := other lease.p rfl
          simp [Store.moved, Effect.moves, apart]
  | sweepPost payment sweep =>
      simp only [PayoutService.spend] at taken
      split at taken
      · cases taken
      · split at taken <;> cases taken <;>
          exact .still rfl kept (less (Int.le_of_eq (unsent_enterSweep d payment _ _ _)))
  | release outcome =>
      cases taken
      exact .still rfl kept nonneg

/-- Where the kill switch is engaged, the policy refuses. -/
theorem refused_of_engaged (engaged : reply.answers.killSwitchEngaged = true)
    (log : List PayoutLogRow) (ctx : PayoutContext) (now : Int)
    : ∃ err,
        PolicyEngine.refusal ctx (PolicyEngine.evaluate d.policy reply.answers log ctx now).1
          = some err := by
  have halted : PolicyEngine.gates d.policy reply.answers ctx now
      = some (.deny "Payouts are halted (kill-switch engaged)") := by
    rw [PolicyEngine.gates, if_pos engaged]
  rw [PolicyEngine.evaluate, halted]
  exact ⟨_, rfl⟩

/-- A call sends what it still had to, and none passes the policy. -/
theorem advance_halted (engaged : reply.answers.killSwitchEngaged = true) {stage : Stage}
    {progress : Progress}
    (taken : PayoutService.advance d store reply stage = some (after, progress))
    : HaltedStep key store after (stage.unsent key) (progress.unsent key) stage.admitted
        progress.admitted := by
  cases stage with
  | leased lease step => exact spend_halted key taken
  | begin_ p now =>
      simp only [PayoutService.advance] at taken
      split at taken <;> cases taken
      exact .still rfl none_admitted (Int.le_refl _)
  | load p now =>
      simp only [PayoutService.advance] at taken
      split at taken <;> cases taken
      · exact .still rfl none_admitted (Int.le_refl _)
      · next intent found =>
        rcases PayoutService.branch_cases p now intent with ⟨_, same⟩ | ⟨_, _, same⟩ | same <;>
          rw [same] <;> exact .still rfl none_admitted (Int.le_refl _)
  | resumeSettle p txId fromAddress =>
      simp only [PayoutService.advance] at taken
      split at taken <;> cases taken <;>
        exact .logged rfl rfl rfl none_admitted (Int.le_refl _)
  | resumeMark p txId fromAddress =>
      cases taken
      exact .still rfl none_admitted (Int.le_refl _)
  | check p now requestedAt =>
      obtain ⟨err, refused⟩ :=
        refused_of_engaged (d := d) engaged store.payoutLog (PayoutService.context p requestedAt)
          now
      simp only [PayoutService.advance, refused] at taken
      cases taken
      exact .logged rfl rfl rfl none_admitted (Int.le_refl _)
  | acquire p now asked =>
      simp only [PayoutService.advance] at taken
      split at taken <;> cases taken
      · exact .still rfl (fun _ same => same) (Int.le_refl _)
      · exact .still rfl none_admitted
          ((Stage.acquire p now asked).unsent_nonneg key)

end Steps

-----------------------------------------------------------------------------
-- One move of a task

theorem unsent_ofProgress (key : String) (d : Deployment) (caller : Caller) (progress : Progress)
    : (Task.ofProgress d caller progress).unsent key = progress.unsent key := by
  cases progress with
  | awaiting stage => rfl
  | finished outcome =>
      rw [Task.ofProgress]
      rcases Task.resumeCaller_cases d outcome caller with
        ⟨-, answer, same⟩ | ⟨tenant, name, -, ⟨result, same⟩ | ⟨err, same⟩⟩
      all_goals
        rw [same]
        rfl

theorem admitted_ofProgress (d : Deployment) (caller : Caller) (progress : Progress)
    : (Task.ofProgress d caller progress).admitted = progress.admitted := by
  cases progress with
  | awaiting stage => rfl
  | finished outcome =>
      rw [Task.ofProgress]
      rcases Task.resumeCaller_cases d outcome caller with
        ⟨-, answer, same⟩ | ⟨tenant, name, -, ⟨result, same⟩ | ⟨err, same⟩⟩
      all_goals
        rw [same]
        rfl

/-- What has thrown has nothing more to send, and has passed the policy only if it had before. -/
theorem Task.throwAt_halted (key : String) {d : Deployment} {err : AppError} {task next : Task}
    (thrown : task.throwAt d err = some next)
    : next.unsent key = 0 ∧ ∀ p, next.admitted = some p → task.admitted = some p := by
  cases task with
  | paying caller stage =>
      cases thrown
      rw [unsent_ofProgress, admitted_ofProgress]
      cases stage with
      | leased lease step =>
          have none {next : Spending lease.p.amountBaseUnits} (nothing : next.unsent = 0)
              : (Stage.leased lease next).unsent key = 0 := by
            rw [Stage.unsent, nothing, ite_self]
          cases step with
          | planSweep payment treasuryAddress => exact ⟨none rfl, fun _ same => same⟩
          | sweepPrepare payment sweep =>
              exact ⟨none (unsent_enterSweep d payment _ _ _), fun _ same => same⟩
          | sweepSend payment sweep =>
              exact ⟨none (unsent_enterSweep d payment _ _ _), fun _ same => same⟩
          | sweepPost payment sweep =>
              exact ⟨none (unsent_enterSweep d payment _ _ _), fun _ same => same⟩
          | release outcome => exact ⟨rfl, none_admitted⟩
          | _ => exact ⟨none rfl, fun _ same => same⟩
      | _ => exact ⟨rfl, none_admitted⟩
  | finished response => cases thrown
  | crashed => cases thrown
  | _ =>
      cases thrown
      exact ⟨rfl, none_admitted⟩

/-- A completed await sends what the call still had to. -/
theorem Task.advance_halted (key : String) {d : Deployment} {store after : Store} {reply : Reply}
    (engaged : reply.answers.killSwitchEngaged = true) {task next : Task}
    (taken : task.advance d store reply = some (after, next))
    : HaltedStep key store after (task.unsent key) (next.unsent key) task.admitted
        next.admitted := by
  rcases Task.advance_cases taken with ⟨caller, stage, progress, rfl, done, rfl⟩ | ⟨other, route⟩
  · rw [unsent_ofProgress, admitted_ofProgress]
    exact Payout.advance_halted key engaged done
  · have nonneg := task.unsent_nonneg key
    cases route with
    | starts => exact .still rfl none_admitted nonneg
    | idle none =>
        cases next with
        | paying caller stage => exact absurd rfl (none caller stage)
        | _ => exact .still rfl none_admitted nonneg

/-- Any move sends what the call still had to, whether it completes, throws or is given up. -/
theorem Task.Moves.halted (key : String) {d : Deployment} {system : System} {after : Store}
    {task next : Task} {index : Nat} {event : Event} (halted : Halted system event)
    (moves : task.Moves d system.store index event after next)
    : HaltedStep key system.store after (task.unsent key) (next.unsent key) task.admitted
        next.admitted := by
  have nonneg := task.unsent_nonneg key
  cases moves with
  | resumed done => exact Task.advance_halted key (halted _ rfl) done
  | rejected thrown =>
      obtain ⟨nothing, kept⟩ := Task.throwAt_halted key thrown
      exact .still rfl kept (nothing ▸ nonneg)
  | @lost reply err _ other _ done thrown =>
      obtain ⟨nothing, kept⟩ := Task.throwAt_halted key thrown
      obtain ⟨-, spends, quiet⟩ := Task.advance_halted key (halted _ rfl) done
      have otherNonneg := other.unsent_nonneg key
      exact ⟨kept, by omega, quiet⟩
  | crashed => exact .still rfl none_admitted nonneg

-----------------------------------------------------------------------------
-- Runs

/-- How far a run has come since it was halted. -/
structure Since (frozen : System) (key : String) (system : System) : Prop where
  spends
    : system.store.transferred key + system.unsent key
      ≤ frozen.store.transferred key + frozen.unsent key
  quiet
    : (∀ task ∈ frozen.tasks, ∀ p, task.admitted = some p → p.idempotencyKey ≠ key)
      → (∀ task ∈ system.tasks, ∀ p, task.admitted = some p → p.idempotencyKey ≠ key)
        ∧ system.store.moved key = frozen.store.moved key

theorem Since.step {frozen system next : System} {key : String} {d : Deployment} {event : Event}
    (since : Since frozen key system) (halted : Halted system event)
    (taken : system.step d event = some next)
    : Since frozen key next := by
  rcases System.step_cases taken with
    ⟨elapsed, -, store, tasks⟩ | ⟨request, -, store, tasks⟩ | ⟨ledger, store, tasks⟩
    | ⟨index, old, new, acts, moves⟩
  · exact ⟨by simpa only [System.unsent, Store.transferred, store, tasks] using since.spends,
      by simpa only [Store.moved, store, tasks] using since.quiet⟩
  · have waits (now : Int) : (Task.ofRequest now request).unsent key = 0
        ∧ (Task.ofRequest now request).admitted = none := by
      cases request <;> exact ⟨rfl, rfl⟩
    obtain ⟨nothing, unadmitted⟩ := waits system.store.clock
    refine ⟨?_, fun free => ?_⟩
    · simpa only [System.unsent, Store.transferred, store, tasks, holdings_append, nothing,
        Int.add_zero] using since.spends
    · obtain ⟨others, moved⟩ := since.quiet free
      refine ⟨fun task member p there => ?_, by simpa only [Store.moved, store] using moved⟩
      rw [tasks] at member
      rcases List.mem_append.mp member with old | new
      · exact others task old p there
      · rw [List.mem_singleton.mp new, unadmitted] at there
        cases there
  · exact ⟨by simpa only [System.unsent, Store.transferred, store, tasks] using since.spends,
      by simpa only [Store.moved, store, tasks] using since.quiet⟩
  · obtain ⟨kept, spends, quiet⟩ := moves.halted key halted
    refine ⟨?_, fun free => ?_⟩
    · have before := since.spends
      have sum := acts.holdings (Task.unsent key)
      simp only [System.unsent] at before ⊢
      omega
    · obtain ⟨others, moved⟩ := since.quiet free
      refine ⟨fun task member p there => ?_,
        (quiet fun p there => others old acts.mem_old p there).trans moved⟩
      rcases acts.mem_cases member with rfl | earlier
      · exact others old acts.mem_old p (kept p there)
      · exact others task earlier p there

/-- From the state in which the kill switch is engaged on, whatever calls arrive and however their
awaits interleave, throw or are lost: the legs sent under a key add up to at most what the calls
that the policy had passed by then still had to send, and under a key that none of them carries
neither a leg nor a fee leg is sent. By induction on the run.
-/
theorem freeze_bounds_payouts (d : Deployment) (frozen system : System) (key : String)
    (reached : Reaches (System.step d) Halted frozen system)
    : system.store.transferred key ≤ frozen.store.transferred key + frozen.unsent key
      ∧ ((∀ task ∈ frozen.tasks, ∀ p, task.admitted = some p → p.idempotencyKey ≠ key)
        → system.store.moved key = frozen.store.moved key) := by
  have since : Since frozen key system :=
    reached.invariant ⟨Int.le_refl _, fun free => ⟨free, rfl⟩⟩
      fun since halted taken => since.step halted taken
  have left : 0 ≤ system.unsent key := holdings_nonneg fun task _ => task.unsent_nonneg key
  have spends := since.spends
  exact ⟨by omega, fun free => (since.quiet free).2⟩

/-- One call has passed the policy, and another one has not. -/
def sampleFrozen : System :=
  (exec (System.step plainDeployment) (fun _ _ => True) { store := emptyStore, tasks := [] }
    ([ .post sampleDeposit, .call (.payout samplePayout),
        .call (.payout { samplePayout with idempotencyKey := "late" }) ]
      ++ completes 0 3 (sampleReply "a" [100]) ++ completes 1 2 (sampleReply "b" [100]))).getD
    { store := emptyStore, tasks := [] }

/-- The same answers, with the kill switch engaged. -/
def sampleHalted : Reply :=
  let reply := sampleReply "c" [100]
  { reply with answers := { reply.answers with killSwitchEngaged := true } }

theorem freeze_bounds_payouts_sample
    : ∃ system,
        Reaches (System.step plainDeployment) Halted sampleFrozen system
        ∧ system.store.transferred "k" = 100
        ∧ system.store.transferred "k"
          ≤ sampleFrozen.store.transferred "k" + sampleFrozen.unsent "k"
        ∧ system.store.moved "late" = sampleFrozen.store.moved "late" := by
  have free : ∀ task ∈ sampleFrozen.tasks,
      task.admitted.map (·.idempotencyKey) ≠ some "late" := by
    decide +kernel
  obtain ⟨system, reached, sent⟩ : ∃ system,
      Reaches (System.step plainDeployment) Halted sampleFrozen system
      ∧ system.store.transferred "k" = 100 :=
    Reaches.exists_of_exec (completes 0 9 sampleHalted ++ completes 1 1 sampleHalted)
      (by decide +kernel)
  refine ⟨system, reached, sent,
    (freeze_bounds_payouts plainDeployment sampleFrozen system "k" reached).1,
    (freeze_bounds_payouts plainDeployment sampleFrozen system "late" reached).2 ?_⟩
  intro task member p admitted own
  exact free task member (by rw [admitted, ← own]; rfl)

end Cixtech.Payout
