import Cixtech.Payout.ConcurrentPayouts
import Cixtech.Payout.VelocityWindows

/-! The velocity window is charged by the policy check, ahead of every step of a payout that
can still fail. Its log says nothing of intents, so that each record is kept beside the intent
it was charged for, to see how often a payout that is tried again is charged.
-/

namespace Cixtech.Payout

open Cixtech.Common Cixtech.Foundation Cixtech.Ledger
open Cixtech.Foundation.Processes

/-- A payout that a policy check lets through: its intent and the call of the limiter. -/
structure Charging where
  intentKey : String
  velocity : VelocityConfig
  call : AdmitCall

namespace Charging

/-- Whether a row has left the window by the clock of the call, which prunes it then. -/
def outlives (charging : Charging) (row : PayoutLogRow) : Bool :=
  SqlVelocityLimiter.sameWindow charging.call.ctx row
  && row.at_ < charging.call.now - charging.velocity.windowMs

/-- The log with the row of the call and without the rows that it outlives. -/
def record (charging : Charging) (log : List PayoutLogRow) : List PayoutLogRow :=
  (log ++ [charging.call.row]).filter fun row => !charging.outlives row

end Charging

/-- What completing an await charges: only the policy check does, when every gate before the
window passes and the window has room.
-/
def Stage.charging (d : Deployment) (store : Store) (reply : Reply) : Stage → Option Charging
  | .check p now requestedAt =>
      let ctx := PayoutService.context p requestedAt
      d.policy.velocity.bind fun velocity =>
        if (PolicyEngine.gates d.policy reply.answers ctx now).isNone
            ∧ SqlVelocityLimiter.spentSince store.payoutLog ctx (now - velocity.windowMs)
                + p.amountBaseUnits
              ≤ velocity.maxTotalBaseUnits then
          some { intentKey := p.idempotencyKey, velocity, call := { ctx, now } }
        else none
  | _ => none

def Task.charging (d : Deployment) (store : Store) (reply : Reply) : Task → Option Charging
  | .paying _ stage => stage.charging d store reply
  | _ => none

/-- What an event charges, if it charges anything. -/
def System.charging (d : Deployment) (system : System) : Event → Option Charging
  | .resume index reply => system.tasks[index]?.bind (Task.charging d system.store reply)
  | .lose index reply _ => system.tasks[index]?.bind (Task.charging d system.store reply)
  | _ => none

/-- The log after what is charged. -/
def logAfter (charging : Option Charging) (log : List PayoutLogRow) : List PayoutLogRow :=
  charging.elim log fun charging => charging.record log

-----------------------------------------------------------------------------
-- What the steps of a payout do to the log

section Steps

variable {d : Deployment} {store after : Store} {reply : Reply}

/-- A policy check leaves the log that its charge makes. -/
theorem evaluate_log (p : PayoutParams) (now requestedAt : Int)
    : (PolicyEngine.evaluate d.policy reply.answers store.payoutLog
          (PayoutService.context p requestedAt) now).2
      = logAfter ((Stage.check p now requestedAt).charging d store reply) store.payoutLog := by
  unfold PolicyEngine.evaluate Stage.charging
  cases asked : PolicyEngine.gates d.policy reply.answers (PayoutService.context p requestedAt) now
    with
  | some decision => cases d.policy.velocity <;> simp [logAfter, asked]
  | none =>
      cases d.policy.velocity with
      | none => rfl
      | some velocity =>
          have amount : (PayoutService.context p requestedAt).amountBaseUnits
              = p.amountBaseUnits := rfl
          simp only [SqlVelocityLimiter.admitPayout, asked, Option.bind_some, Option.isNone_none,
            true_and, amount]
          by_cases above : SqlVelocityLimiter.spentSince store.payoutLog
              (PayoutService.context p requestedAt) (now - velocity.windowMs) + p.amountBaseUnits
              > velocity.maxTotalBaseUnits
          · rw [if_pos above, if_neg (Int.not_le.mpr above)]
            rfl
          · rw [if_neg above, if_pos (Int.not_lt.mp above)]
            rfl

/-- A charge is for the window that is configured. -/
theorem System.charging_velocity {system : System} {event : Event} {charging : Charging}
    (charges : system.charging d event = some charging)
    : d.policy.velocity = some charging.velocity := by
  have task : ∀ {store reply} {task : Task}, task.charging d store reply = some charging
      → d.policy.velocity = some charging.velocity := by
    intro store reply task own
    cases task with
    | paying caller stage =>
        cases stage with
        | check p now requestedAt =>
            obtain ⟨velocity, configured, passes⟩ := Option.bind_eq_some_iff.mp own
            split at passes <;> cases passes
            exact configured
        | _ => cases own
    | _ => cases own
  cases event with
  | resume index reply =>
      obtain ⟨found, -, own⟩ := Option.bind_eq_some_iff.mp charges
      exact task own
  | lose index reply err =>
      obtain ⟨found, -, own⟩ := Option.bind_eq_some_iff.mp charges
      exact task own
  | _ => cases charges

theorem advance_payoutLog {stage : Stage} {progress : Progress}
    (taken : PayoutService.advance d store reply stage = some (after, progress))
    : after.payoutLog = logAfter (stage.charging d store reply) store.payoutLog := by
  cases stage with
  | leased lease step => exact (spend_frame taken).payoutLog
  | resumeMark p txId fromAddress => cases taken; rfl
  | check p now requestedAt =>
      rw [← evaluate_log]
      simp only [PayoutService.advance] at taken
      split at taken <;> cases taken <;> rfl
  | _ =>
      simp only [PayoutService.advance] at taken
      split at taken <;> cases taken <;> rfl

theorem Task.advance_payoutLog {task next : Task}
    (taken : task.advance d store reply = some (after, next))
    : after.payoutLog = logAfter (task.charging d store reply) store.payoutLog := by
  rcases Task.advance_cases taken with
    ⟨caller, stage, progress, rfl, done, -⟩ | ⟨outside, route⟩
  · exact Payout.advance_payoutLog done
  · have uncharged : task.charging d store reply = none := by
      cases task with
      | paying caller stage => exact absurd rfl (outside caller stage)
      | _ => rfl
    rw [uncharged]
    cases route <;> rfl

/-- Every event leaves the log that its charge makes. -/
theorem System.step_payoutLog {system next : System} {event : Event}
    (taken : system.step d event = some next)
    : next.store.payoutLog
      = logAfter (system.charging d event) system.store.payoutLog := by
  rcases System.acts_of_step taken with
    ⟨elapsed, rfl⟩ | ⟨request, rfl⟩ | ⟨entry, rfl⟩ | ⟨index, old, new, acts, moves⟩
  · cases taken
    rfl
  · cases taken
    rfl
  · simp only [System.step] at taken
    split at taken <;> cases taken
    rfl
  · generalize next.store = after at moves ⊢
    cases moves with
    | resumed done => simpa [System.charging, acts.found] using Task.advance_payoutLog done
    | rejected thrown => rfl
    | lost done thrown => simpa [System.charging, acts.found] using Task.advance_payoutLog done
    | crashed => rfl

end Steps

-----------------------------------------------------------------------------
-- The records beside their intents

structure Charge where
  intentKey : String
  row : PayoutLogRow
  deriving DecidableEq

/-- The record that is charged for an intent. -/
def Charging.own (charging : Charging) : Charge :=
  { intentKey := charging.intentKey, row := charging.call.row }

/-- The charges with the one that is made and without those whose rows it prunes. -/
def Charging.charge (charging : Charging) (charges : List Charge) : List Charge :=
  (charges ++ [charging.own]).filter fun charge => !charging.outlives charge.row

/-- The calls, with every record of the log beside the intent that it was charged for. -/
structure ChargedSystem where
  system : System
  charges : List Charge

namespace ChargedSystem

/-- An event with what it charges. -/
def step (d : Deployment) (charged : ChargedSystem) (event : Event) : Option ChargedSystem :=
  (charged.system.step d event).map fun system =>
    { system
      charges :=
        (charged.system.charging d event).elim charged.charges fun charging =>
          charging.charge charged.charges }

/-- The records of an intent in the log. -/
def recordsOf (charged : ChargedSystem) (intentKey : String) : List Charge :=
  charged.charges.filter fun charge => charge.intentKey = intentKey

/-- The charges are those of the log, with at most one for an intent. -/
structure Single (charged : ChargedSystem) : Prop where
  logged : charged.charges.map Charge.row = charged.system.store.payoutLog
  once : ∀ intentKey, (charged.recordsOf intentKey).length ≤ 1

/-- A policy check that lets a payout through does so when the records of the same intent, from
earlier attempts, have all left its window.
-/
def ChargesAnew (d : Deployment) (charged : ChargedSystem) (event : Event) : Prop :=
  ∀ charging, charged.system.charging d event = some charging
    → ∀ charge ∈ charged.recordsOf charging.intentKey, charging.outlives charge.row = true

instance (d : Deployment) (charged : ChargedSystem) (event : Event)
    : Decidable (ChargesAnew d charged event) :=
  decidable_of_iff
    ((charged.system.charging d event).all (fun charging =>
      (charged.recordsOf charging.intentKey).all fun charge => charging.outlives charge.row) = true)
    (by simp [ChargesAnew, Option.all_eq_true])

section Records

variable {d : Deployment} {charged next : ChargedSystem} {event : Event}

/-- The charges stay those of the log. -/
theorem step_logged (taken : charged.step d event = some next)
    (logged : charged.charges.map Charge.row = charged.system.store.payoutLog)
    : next.charges.map Charge.row = next.system.store.payoutLog := by
  obtain ⟨system, moved, rfl⟩ := Option.map_eq_some_iff.mp taken
  rw [System.step_payoutLog moved, ← logged]
  cases charged.system.charging d event with
  | none => rfl
  | some charging =>
      have rows : (charged.charges ++ [charging.own]).map Charge.row
          = charged.charges.map Charge.row ++ [charging.call.row] := by
        simp [Charging.own]
      simp only [Option.elim_some, logAfter, Charging.record, Charging.charge, ← rows,
        List.filter_map]
      rfl

/-- The records of an intent after a charge: those that are not pruned, and the new one when it
is for that intent and stays.
-/
theorem length_charge (charging : Charging) (charges : List Charge) (intentKey : String)
    : ((charging.charge charges).filter fun charge => charge.intentKey = intentKey).length
      = ((charges.filter fun charge => charge.intentKey = intentKey).filter fun charge =>
            !charging.outlives charge.row).length
        + if charging.intentKey = intentKey ∧ charging.outlives charging.call.row = false then 1
          else 0 := by
  rw [Charging.charge, List.filter_filter, List.filter_append, List.length_append,
    List.filter_filter]
  congr 1
  · simp only [Bool.and_comm]
  · by_cases own : charging.intentKey = intentKey
    · cases kept : charging.outlives charging.call.row <;> simp [Charging.own, own, kept]
    · simp [Charging.own, own]

/-- A charge when no record of its intent is left keeps to one record for each intent. -/
theorem step_single (single : charged.Single) (anew : ChargesAnew d charged event)
    (taken : charged.step d event = some next)
    : next.Single := by
  refine ⟨step_logged taken single.logged, fun intentKey => ?_⟩
  obtain ⟨system, -, rfl⟩ := Option.map_eq_some_iff.mp taken
  cases charges : charged.system.charging d event with
  | none => exact single.once intentKey
  | some charging =>
      have before := single.once intentKey
      simp only [recordsOf, Option.elim_some] at before ⊢
      rw [length_charge]
      have kept := List.length_filter_le (fun charge : Charge => !charging.outlives charge.row)
        (charged.charges.filter fun charge => charge.intentKey = intentKey)
      split
      case isTrue own =>
        have pruned : (charged.charges.filter fun charge => charge.intentKey = intentKey).filter
            (fun charge => !charging.outlives charge.row) = [] := by
          rw [List.filter_eq_nil_iff]
          intro charge member
          have left := anew charging charges charge (by rw [own.1]; exact member)
          simp [left]
        rw [pruned]
        exact Nat.le_refl 1
      case isFalse => omega

/-- A charge while a record of its intent is left makes it two, as its own record stays. -/
theorem anew_of_step_single (window : ∀ velocity, d.policy.velocity = some velocity
      → 0 ≤ velocity.windowMs)
    (taken : charged.step d event = some next) (single : next.Single)
    : ChargesAnew d charged event := by
  intro charging charges
  have after := single.once charging.intentKey
  obtain ⟨system, -, rfl⟩ := Option.map_eq_some_iff.mp taken
  simp only [recordsOf, charges, Option.elim_some, length_charge] at after
  have configured := System.charging_velocity charges
  have stays : charging.outlives charging.call.row = false := by
    have fresh : ¬ charging.call.row.at_ < charging.call.now - charging.velocity.windowMs := by
      have wide := window _ configured
      change ¬ charging.call.now < _
      omega
    simp [Charging.outlives, fresh]
  rw [if_pos ⟨True.intro, stays⟩] at after
  have pruned : (charged.charges.filter fun charge => charge.intentKey = charging.intentKey).filter
      (fun charge => !charging.outlives charge.row) = [] :=
    List.length_eq_zero_iff.mp (by omega)
  intro charge member
  simpa using List.filter_eq_nil_iff.mp pruned charge member

end Records

/-- Through any interleaving of calls, arrivals, failures and crashes in which no policy check
lets a payout through that a record of the same intent in its window stands for already, the
log holds at most one record of each intent. A check that does let such a payout through
leaves two of them.
-/
theorem single_iff_charges_anew (d : Deployment)
    : (∀ start charged : ChargedSystem, start.Single
        → Reaches (step d) (ChargesAnew d) start charged → charged.Single)
      ∧ ∀ (charged : ChargedSystem) (event : Event) (next : ChargedSystem), charged.Single
        → charged.step d event = some next
        → (∀ velocity, d.policy.velocity = some velocity → 0 ≤ velocity.windowMs)
        → (next.Single ↔ ChargesAnew d charged event) := by
  constructor
  · intro start charged single reached
    exact reached.invariant single step_single
  · intro charged event next single taken window
    exact ⟨anew_of_step_single window taken, fun anew => step_single single anew taken⟩

/-- The deployment with a window that has room for several payouts. -/
def windowedDeployment : Deployment :=
  { plainDeployment with
      policy :=
        { plainDeployment.policy with
            velocity := some { windowMs := 86400000, maxTotalBaseUnits := 1000 } } }

def uncharged : ChargedSystem :=
  { system := { store := emptyStore, tasks := [] }, charges := [] }

/-- A payout is let through and fails for want of pool funds; tried again, it is charged
again.
-/
theorem failed_payout_charged_twice
    : ∃ charged,
        Reaches (step windowedDeployment) (fun _ _ => True) uncharged charged
        ∧ charged.system.store.journal.map (·.idempotencyKey) = ["k"]
        ∧ charged.system.store.payoutLog.length = 2
        ∧ (charged.recordsOf "k").length = 2 :=
  Reaches.exists_of_exec
    ([.call (.payout samplePayout)] ++ completes 0 6 (sampleReply "a" [10])
      ++ [.call (.payout samplePayout)] ++ completes 1 3 (sampleReply "b" [10]))
    (by decide +kernel)

/-- A payout that was settled is not charged again. -/
theorem single_iff_charges_anew_replayed
    : ∃ charged : ChargedSystem,
        Reaches (step windowedDeployment) (ChargesAnew windowedDeployment) uncharged charged
        ∧ charged.system.tasks.length = 2
        ∧ (charged.recordsOf "k").length = 1
        ∧ charged.Single := by
  have executed : ∃ charged : ChargedSystem,
      Reaches (step windowedDeployment) (ChargesAnew windowedDeployment) uncharged charged
      ∧ charged.system.tasks.length = 2
        ∧ (charged.recordsOf "k").length = 1 :=
    Reaches.exists_of_exec
      ([.post sampleDeposit, .call (.payout samplePayout)]
        ++ completes 0 13 (sampleReply "a" [100])
        ++ [.call (.payout samplePayout)] ++ completes 1 2 (sampleReply "b" [100]))
      (by decide +kernel)
  obtain ⟨charged, reached, calls, one⟩ := executed
  have start : uncharged.Single := ⟨rfl, fun _ => Nat.zero_le 1⟩
  exact ⟨charged, reached, calls, one,
    (single_iff_charges_anew windowedDeployment).1 uncharged charged start reached⟩

end ChargedSystem

end Cixtech.Payout
