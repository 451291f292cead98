import Cixtech.Foundation.Executions
import Cixtech.Foundation.Processes
import Cixtech.Webhooks.Outbox

/-! Runs of the webhook dispatcher side by side, await by await, with the cancellations and the
replays of an administrator in between. A run keeps its batch in memory however long it takes,
so that it may complete a delivery that was completed or cancelled since it claimed it.
-/

namespace Cixtech.Webhooks

open Cixtech.Foundation

structure WebhookEndpoint where
  url : String
  secret : String
  deriving DecidableEq, Repr

/-- Where a run is: about to await, with what it holds in its variables. -/
inductive DispatchPhase
  | claiming
  /-- About to look the endpoint of the first delivery up. -/
  | between (batch : List DueDelivery)
  | posting (delivery : DueDelivery) (endpoint : WebhookEndpoint) (rest : List DueDelivery)
  | marking (delivery : DueDelivery) (rest : List DueDelivery)
  | failing (delivery : DueDelivery) (nextAttempt : Int) (error : String) (dead : Bool)
    (rest : List DueDelivery)
  | finished
  deriving DecidableEq, Repr

/-- The deliveries that a run has claimed and not completed. -/
def DispatchPhase.batch : DispatchPhase → List DueDelivery
  | .between batch => batch
  | .posting delivery _ rest => delivery :: rest
  | .marking delivery rest => delivery :: rest
  | .failing delivery _ _ _ rest => delivery :: rest
  | .claiming => []
  | .finished => []

/-- A call of `dispatchDue`, with the clock that it read and its counters. -/
structure DispatchRun where
  now : Int
  limit : Nat
  phase : DispatchPhase
  delivered : Nat
  failed : Nat
  deriving DecidableEq, Repr

/-- Whether a run has claimed a delivery and not completed it. -/
def DispatchRun.holds (run : DispatchRun) (id : String) : Bool :=
  run.phase.batch.any fun delivery => delivery.id = id

/-- Go to the next delivery, or return. -/
def DispatchRun.toNext (run : DispatchRun) (rest : List DueDelivery) : DispatchRun :=
  { run with phase := if rest.isEmpty then .finished else .between rest }

/-- `catch (err)`: an attempt that is not the last one is put off. -/
def DispatchRun.caught (run : DispatchRun) (delivery : DueDelivery) (error : String)
    (rest : List DueDelivery)
    : DispatchRun :=
  let attempts := delivery.attempts + 1
  { run with
      phase :=
        .failing delivery (backoffAt run.now attempts) error (decide (maxAttempts ≤ attempts)) rest }

/-- The table of deliveries and the runs. -/
structure Dispatching where
  rows : List DeliveryRow
  runs : List DispatchRun
  deriving DecidableEq, Repr

inductive DispatchEvent
  | enqueue (id tenantId body : String) (now : Int)
  | dispatchDue (now : Int) (limit : Nat)
  /-- A run claims what is due, past what others have locked. -/
  | claim (run : Nat) (locked : List String)
  /-- A run looks up the endpoint of a tenant, which may be missing. -/
  | endpoint (run : Nat) (answer : Option WebhookEndpoint)
  /-- The endpoint answers, with whether the status is a success. -/
  | post (run : Nat) (ok : Bool) (status : Nat)
  /-- A run completes a delivery, by marking it or by recording a failure. -/
  | complete (run : Nat)
  /-- What a run awaits rejects. A statement may have been applied all the same. -/
  | reject (run : Nat) (error : String) (applied : Bool)
  | kill (id : String)
  | replay (id : String) (now : Int)

namespace Dispatching

/-- `leaseMs`. -/
def leaseMs : Int := 60000

/-- The table once the completing statement of a phase is applied. -/
def completed (rows : List DeliveryRow) : DispatchPhase → List DeliveryRow
  | .marking delivery _ => WebhookOutbox.markDelivered rows delivery.id
  | .failing delivery nextAttempt error dead _ =>
      WebhookOutbox.recordFailure rows delivery.id (delivery.attempts + 1) nextAttempt error dead
  | _ => rows

/-- One await of a run, none where it is not at it. -/
def advance (rows : List DeliveryRow) (run : DispatchRun)
    : DispatchEvent → Option (List DeliveryRow × DispatchRun)
  | .claim _ locked =>
      match run.phase with
      | .claiming =>
          let (later, batch) := WebhookOutbox.claimDue rows locked run.now run.limit leaseMs
          some (later, run.toNext batch)
      | _ => none
  | .endpoint _ answer =>
      match run.phase, answer with
      | .between (delivery :: rest), none =>
          some (rows,
            { run with phase := .failing delivery run.now "no webhook endpoint" true rest })
      | .between (delivery :: rest), some endpoint =>
          some (rows, { run with phase := .posting delivery endpoint rest })
      | _, _ => none
  | .post _ ok status =>
      match run.phase with
      | .posting delivery _ rest =>
          if ok then some (rows, { run with phase := .marking delivery rest })
          else some (rows, run.caught delivery s!"Error: endpoint returned {status}" rest)
      | _ => none
  | .complete _ =>
      match run.phase with
      | .marking _ rest =>
          some (completed rows run.phase,
            { run with delivered := run.delivered + 1 }.toNext rest)
      | .failing _ _ _ _ rest =>
          some (completed rows run.phase, { run with failed := run.failed + 1 }.toNext rest)
      | _ => none
  | .reject _ error applied =>
      match run.phase with
      | .posting delivery _ rest => some (rows, run.caught delivery error rest)
      | .marking delivery rest =>
          some (if applied then completed rows run.phase else rows, run.caught delivery error rest)
      | .failing _ _ _ _ _ =>
          some (if applied then completed rows run.phase else rows,
            { run with phase := .finished })
      | .between _ => some (rows, { run with phase := .finished })
      | .claiming =>
          some
            ( if applied then (WebhookOutbox.claimDue rows [] run.now run.limit leaseMs).1 else rows,
              { run with phase := .finished })
      | .finished => none
  | _ => none

end Dispatching

/-- Whether an event applies the statement that a run awaits. -/
def DispatchEvent.applies : DispatchEvent → Bool
  | .claim .. | .complete _ => true
  | .reject _ _ applied => applied
  | _ => false

/-- Whether an event is the replay of a delivery. -/
def DispatchEvent.replays (id : String) : DispatchEvent → Bool
  | .replay other _ => other = id
  | _ => false

/-- The run that an event is about. -/
def DispatchEvent.run : DispatchEvent → Option Nat
  | .claim run _ | .endpoint run _ | .post run _ _ | .complete run | .reject run _ _ => some run
  | _ => none

namespace Dispatching

def initial (rows : List DeliveryRow) : Dispatching := { rows, runs := [] }

def step (system : Dispatching) (event : DispatchEvent) : Option Dispatching :=
  match event with
  | .enqueue id tenantId body now =>
      some { system with rows := WebhookOutbox.enqueue system.rows id tenantId body now }
  | .dispatchDue now limit =>
      some
        { system with
            runs := system.runs ++ [{ now, limit, phase := .claiming, delivered := 0, failed := 0 }] }
  | .kill id => some { system with rows := AdminWebhooks.kill system.rows id }
  | .replay id now => some { system with rows := AdminWebhooks.replay system.rows id now }
  | _ =>
      event.run.bind fun index =>
        (system.runs[index]?).bind fun run =>
          (advance system.rows run event).map fun (rows, next) =>
            { rows, runs := system.runs.set index next }

/-- Whether the run at a position has claimed a delivery and not completed it. -/
def holds (system : Dispatching) (index : Nat) (id : String) : Bool :=
  (system.runs[index]?).any (·.holds id)

/-- The delivery that an await of a run posts. -/
def posted (system : Dispatching) (event : DispatchEvent) : Option String :=
  match event with
  | .post index _ _ | .reject index _ _ =>
      (system.runs[index]?).bind fun run =>
        match run.phase with
        | .posting delivery _ _ => some delivery.id
        | _ => none
  | _ => none

-----------------------------------------------------------------------------
-- What one await does

/-- What a run makes of the table: nothing, a claim of its own, or the completion of its
delivery.
-/
inductive RunEffect (rows : List DeliveryRow) (run : DispatchRun) (applies : Bool)
    : List DeliveryRow → Prop
  | none : RunEffect rows run applies rows
  | claims (locked : List String)
      : RunEffect rows run applies
          (WebhookOutbox.claimDue rows locked run.now run.limit leaseMs).1
  | completes (applied : applies = true) : RunEffect rows run applies (completed rows run.phase)

theorem batch_toNext (run : DispatchRun) (rest : List DueDelivery)
    : (run.toNext rest).phase.batch = rest := by
  unfold DispatchRun.toNext
  cases rest <;> rfl

theorem advance_effect {rows later : List DeliveryRow} {run next : DispatchRun}
    {event : DispatchEvent} (taken : advance rows run event = some (later, next))
    : RunEffect rows run event.applies later := by
  cases event with
  | claim index locked =>
      simp only [advance] at taken
      split at taken
      · cases taken
        exact .claims locked
      · cases taken
  | endpoint index answer =>
      simp only [advance] at taken
      split at taken <;> cases taken <;> exact .none
  | post index ok status =>
      simp only [advance] at taken
      split at taken
      · split at taken <;> cases taken <;> exact .none
      · cases taken
  | complete index =>
      simp only [advance] at taken
      split at taken <;> cases taken <;> exact .completes rfl
  | reject index error applied =>
      simp only [advance] at taken
      split at taken <;> cases taken
      · exact .none
      · split
        case isTrue applied => exact .completes applied
        case isFalse => exact .none
      · split
        case isTrue applied => exact .completes applied
        case isFalse => exact .none
      · exact .none
      · split
        · exact .claims []
        · exact .none
  | _ => cases taken

/-- A statement that completes a delivery is applied by the await that says so. -/
theorem advance_completes {rows later : List DeliveryRow} {run next : DispatchRun}
    {event : DispatchEvent} (taken : advance rows run event = some (later, next))
    (applies : event.applies = true) {delivery : DueDelivery} {nextAttempt : Int}
    {error : String} {dead : Bool} {rest : List DueDelivery}
    (failing : run.phase = .failing delivery nextAttempt error dead rest)
    : later = completed rows run.phase := by
  cases event with
  | claim index locked => simp [advance, failing] at taken
  | complete index =>
      simp only [advance, failing, Option.some.injEq, Prod.mk.injEq] at taken
      rw [failing]
      exact taken.1.symm
  | reject index error applied =>
      simp only [DispatchEvent.applies] at applies
      simp only [advance, failing, applies, if_true, Option.some.injEq, Prod.mk.injEq] at taken
      rw [failing]
      exact taken.1.symm
  | _ => cases applies

/-- A run holds less and less of its batch, once it has claimed it. -/
theorem advance_batch {rows later : List DeliveryRow} {run next : DispatchRun}
    {event : DispatchEvent} (taken : advance rows run event = some (later, next))
    : next.phase.batch.Sublist run.phase.batch
      ∨ ∃ index locked,
          event = .claim index locked
          ∧ next.phase.batch
            = (WebhookOutbox.claimDue rows locked run.now run.limit leaseMs).2 := by
  cases event with
  | claim index locked =>
      simp only [advance] at taken
      split at taken
      · cases taken
        exact .inr ⟨index, locked, rfl, batch_toNext ..⟩
      · cases taken
  | endpoint index answer =>
      simp only [advance] at taken
      split at taken
      case h_1 delivery rest atPhase =>
        cases taken
        exact .inl (by simp [DispatchPhase.batch, atPhase])
      case h_2 delivery rest endpoint atPhase =>
        cases taken
        exact .inl (by simp [DispatchPhase.batch, atPhase])
      case h_3 => cases taken
  | post index ok status =>
      simp only [advance] at taken
      split at taken
      case h_1 atPhase =>
        split at taken <;> cases taken <;>
          exact .inl (by simp [DispatchPhase.batch, DispatchRun.caught, atPhase])
      case h_2 => cases taken
  | complete index =>
      simp only [advance] at taken
      split at taken
      case h_1 atPhase =>
        cases taken
        exact .inl (by rw [batch_toNext]; simp [DispatchPhase.batch, atPhase])
      case h_2 atPhase =>
        cases taken
        exact .inl (by rw [batch_toNext]; simp [DispatchPhase.batch, atPhase])
      case h_3 => cases taken
  | reject index error applied =>
      simp only [advance] at taken
      split at taken
      case h_6 => cases taken
      all_goals
        rename_i atPhase
        cases taken
        exact .inl (by simp [DispatchPhase.batch, DispatchRun.caught, atPhase])
  | _ => cases taken

/-- What an event does: it changes the table or starts a run, or it is an await of a run. -/
theorem step_cases {system next : Dispatching} {event : DispatchEvent}
    (taken : system.step event = some next)
    : (∃ id tenantId body now,
        event = .enqueue id tenantId body now
          ∧ next = { system with rows := WebhookOutbox.enqueue system.rows id tenantId body now })
      ∨ (∃ run, run.phase = .claiming ∧ next = { system with runs := system.runs ++ [run] }
          ∧ event = .dispatchDue run.now run.limit)
      ∨ (∃ id, event = .kill id
          ∧ next = { system with rows := AdminWebhooks.kill system.rows id })
      ∨ (∃ id now, event = .replay id now
          ∧ next = { system with rows := AdminWebhooks.replay system.rows id now })
      ∨ ∃ index run after,
          event.run = some index ∧ advance system.rows run event = some (next.rows, after)
          ∧ Processes.Acts system.runs next.runs index run after := by
  have awaits : (event.run.bind fun index =>
        (system.runs[index]?).bind fun run =>
          (advance system.rows run event).map fun (rows, after) =>
            ({ rows, runs := system.runs.set index after } : Dispatching)) = some next
      → ∃ index run after,
          event.run = some index ∧ advance system.rows run event = some (next.rows, after)
          ∧ Processes.Acts system.runs next.runs index run after := by
    intro bound
    obtain ⟨index, own, rest⟩ := Option.bind_eq_some_iff.mp bound
    obtain ⟨run, found, made⟩ := Option.bind_eq_some_iff.mp rest
    obtain ⟨⟨rows, after⟩, advanced, rfl⟩ := Option.map_eq_some_iff.mp made
    exact ⟨index, run, after, own, advanced, ⟨found, rfl⟩⟩
  cases event with
  | enqueue id tenantId body now =>
      exact .inl ⟨id, tenantId, body, now, rfl, (Option.some.inj taken).symm⟩
  | dispatchDue now limit => exact .inr (.inl ⟨_, rfl, (Option.some.inj taken).symm, rfl⟩)
  | kill id => exact .inr (.inr (.inl ⟨id, rfl, (Option.some.inj taken).symm⟩))
  | replay id now => exact .inr (.inr (.inr (.inl ⟨id, now, rfl, (Option.some.inj taken).symm⟩)))
  | _ => exact .inr (.inr (.inr (.inr (awaits taken))))

end Dispatching

end Cixtech.Webhooks
