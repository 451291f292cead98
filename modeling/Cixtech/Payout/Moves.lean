import Cixtech.Foundation.Processes
import Cixtech.Payout.System

/-! Events read as moves. Every event lets time pass, lets a call arrive, posts to the ledger
or moves one task, and a move is a completed await, a thrown one, one that took effect and
threw, or a crash. The invariants of whole runs reason about moves only.
-/

namespace Cixtech.Payout

open Cixtech.Foundation.Processes

/-- What an event can make of the task it is about and of the store. -/
inductive Task.Moves (d : Deployment) (store : Store) (task : Task) (index : Nat)
    : Event → Store → Task → Prop
  | resumed {reply after next} (done : task.advance d store reply = some (after, next))
    : Task.Moves d store task index (.resume index reply) after next
  | rejected {err next} (thrown : task.throwAt d err = some next)
    : Task.Moves d store task index (.reject index err) store next
  | lost {reply err after other next} (done : task.advance d store reply = some (after, other))
    (thrown : task.throwAt d err = some next)
    : Task.Moves d store task index (.lose index reply err) after next
  | crashed : Task.Moves d store task index (.crash index) store .crashed

/-- An event that is no tick, no arrival and no posting is the move of one task. -/
theorem System.acts_of_step {d : Deployment} {system next : System} {event : Event}
    (taken : system.step d event = some next)
    : (∃ elapsed, event = .tick elapsed)
      ∨ (∃ request, event = .call request)
      ∨ (∃ entry, event = .post entry)
      ∨ ∃ index old new, Acts system.tasks next.tasks index old new
          ∧ old.Moves d system.store index event next.store new := by
  cases event with
  | tick elapsed => exact .inl ⟨elapsed, rfl⟩
  | call request => exact .inr (.inl ⟨request, rfl⟩)
  | post entry => exact .inr (.inr (.inl ⟨entry, rfl⟩))
  | resume index reply =>
      simp only [System.step, bind, Option.bind_eq_some_iff, pure, Option.some.injEq] at taken
      obtain ⟨old, found, ⟨store, new⟩, done, rfl⟩ := taken
      exact .inr (.inr (.inr ⟨index, old, new, ⟨found, rfl⟩, .resumed done⟩))
  | reject index err =>
      simp only [System.step, bind, Option.bind_eq_some_iff, pure, Option.some.injEq] at taken
      obtain ⟨old, found, new, thrown, rfl⟩ := taken
      exact .inr (.inr (.inr ⟨index, old, new, ⟨found, rfl⟩, .rejected thrown⟩))
  | lose index reply err =>
      simp only [System.step, bind, Option.bind_eq_some_iff, pure, Option.some.injEq] at taken
      obtain ⟨old, found, ⟨store, other⟩, done, new, thrown, rfl⟩ := taken
      exact .inr (.inr (.inr ⟨index, old, new, ⟨found, rfl⟩, .lost done thrown⟩))
  | crash index =>
      simp only [System.step] at taken
      split at taken
      case isTrue inRange =>
        cases taken
        have found : system.tasks[index]? = some system.tasks[index] :=
          List.getElem?_eq_getElem inRange
        exact .inr (.inr (.inr ⟨index, _, _, ⟨found, rfl⟩, .crashed⟩))
      case isFalse => cases taken

/-- Every event is a tick, an arrival, a posting or the move of one task. -/
theorem System.step_cases {d : Deployment} {system next : System} {event : Event}
    (taken : system.step d event = some next)
    : (∃ elapsed, event = .tick elapsed
        ∧ next.store = { system.store with clock := system.store.clock + (elapsed : Nat) }
        ∧ next.tasks = system.tasks)
      ∨ (∃ request, event = .call request ∧ next.store = system.store
          ∧ next.tasks = system.tasks ++ [Task.ofRequest system.store.clock request])
      ∨ (∃ ledger, next.store = { system.store with ledger } ∧ next.tasks = system.tasks)
      ∨ ∃ index old new, Acts system.tasks next.tasks index old new
          ∧ old.Moves d system.store index event next.store new := by
  rcases System.acts_of_step taken with ⟨elapsed, rfl⟩ | ⟨request, rfl⟩ | ⟨entry, rfl⟩ | acts
  · cases taken
    exact .inl ⟨elapsed, rfl, rfl, rfl⟩
  · cases taken
    exact .inr (.inl ⟨request, rfl, rfl, rfl⟩)
  · simp only [System.step] at taken
    split at taken
    · cases taken
    case h_2 ledger applied _ =>
      cases taken
      exact .inr (.inr (.inl ⟨ledger, rfl, rfl⟩))
  · exact .inr (.inr (.inr acts))

/-- What a task does outside of a payout: it writes to the idempotency records and the approvals
only, and it starts a payout or runs none.
-/
inductive RouteStep (store : Store) : Store → Task → Prop
  | starts {idempotency approvals caller p now}
    : RouteStep store { store with idempotency, approvals } (Task.startPayout caller p now)
  | idle {idempotency approvals next} (none : ∀ caller stage, next ≠ .paying caller stage)
    : RouteStep store { store with idempotency, approvals } next

/-- A completed await is a step of a payout or one of a route around it. -/
theorem Task.advance_cases {d : Deployment} {store after : Store} {reply : Reply}
    {task next : Task} (taken : task.advance d store reply = some (after, next))
    : (∃ caller stage progress,
        task = .paying caller stage
        ∧ PayoutService.advance d store reply stage = some (after, progress)
        ∧ next = Task.ofProgress d caller progress)
      ∨ (∀ caller stage, task ≠ .paying caller stage) ∧ RouteStep store after next := by
  cases task with
  | paying caller stage =>
      simp only [Task.advance, Option.map_eq_some_iff, Prod.mk.injEq] at taken
      obtain ⟨⟨store', progress⟩, done, rfl, rfl⟩ := taken
      exact .inl ⟨caller, stage, progress, rfl, done, rfl⟩
  | claimKey request =>
      simp only [Task.advance] at taken
      generalize IdempotencyStore.claim store.idempotency request.tenant.text request.key
        = claimed at taken
      obtain ⟨rows, reserved⟩ := claimed
      refine .inr ⟨fun _ _ => nofun, ?_⟩
      cases reserved with
      | true => cases taken; exact .starts
      | false => cases taken; exact .idle fun _ _ => nofun
  | loadRecord request =>
      simp only [Task.advance] at taken
      split at taken <;> cases taken <;> exact .inr ⟨fun _ _ => nofun, .idle fun _ _ => nofun⟩
  | loadIntent request =>
      simp only [Task.advance] at taken
      split at taken <;> cases taken
      · exact .inr ⟨fun _ _ => nofun, .idle fun _ _ => nofun⟩
      · refine .inr ⟨fun _ _ => nofun, .idle fun caller stage => ?_⟩
        split <;> exact nofun
  | recordApproval request intent =>
      simp only [Task.advance] at taken
      split at taken <;> cases taken <;> exact .inr ⟨fun _ _ => nofun, .idle fun _ _ => nofun⟩
  | listApprovals intent => cases taken; exact .inr ⟨fun _ _ => nofun, .starts⟩
  | finished response => cases taken
  | crashed => cases taken
  | _ => cases taken; exact .inr ⟨fun _ _ => nofun, .idle fun _ _ => nofun⟩

/-- What a step of a call that holds the lease leaves alone, and where it leaves the call. -/
structure SpendFrame (store after : Store) (lease : Lease) (progress : Progress) : Prop where
  approvals : after.approvals = store.approvals
  payoutLog : after.payoutLog = store.payoutLog
  stays
    : (∃ next, progress = .awaiting (.leased lease next))
      ∨ ∃ outcome, progress = .finished outcome

/-- A call that holds the lease writes to the journal, the ledger and the leases only, and holds
it until it is done.
-/
theorem spend_frame {d : Deployment} {store after : Store} {reply : Reply} {lease : Lease}
    {step : Spending lease.p.amountBaseUnits} {progress : Progress}
    (taken : PayoutService.spend d store reply lease step = some (after, progress))
    : SpendFrame store after lease progress := by
  cases step with
  | release outcome => cases taken; exact ⟨rfl, rfl, .inr ⟨_, rfl⟩⟩
  | setFrom plan => cases taken; exact ⟨rfl, rfl, .inl ⟨_, rfl⟩⟩
  | prepare payment => cases taken; exact ⟨rfl, rfl, .inl ⟨_, rfl⟩⟩
  | markBroadcast payment => cases taken; exact ⟨rfl, rfl, .inl ⟨_, rfl⟩⟩
  | markSettled payment => cases taken; exact ⟨rfl, rfl, .inl ⟨_, rfl⟩⟩
  | sweepPrepare payment sweep => cases taken; exact ⟨rfl, rfl, .inl ⟨_, rfl⟩⟩
  | sweepPost payment sweep =>
      simp only [PayoutService.spend] at taken
      split at taken
      · cases taken
      · split at taken <;> cases taken <;> exact ⟨rfl, rfl, .inl ⟨_, rfl⟩⟩
  | _ =>
      simp only [PayoutService.spend] at taken
      split at taken <;> cases taken <;> exact ⟨rfl, rfl, .inl ⟨_, rfl⟩⟩

/-- The parameters of a call that is about to append its lock. -/
def Stage.atLock : Stage → Option PayoutParams
  | .leased lease (.appendLock _) => some lease.p
  | _ => none

def Task.atLock : Task → Option PayoutParams
  | .paying _ stage => stage.atLock
  | _ => none

/-- The parameters of the lock that an event performs, if it performs one. -/
def System.locking (system : System) (event : Event) : Option PayoutParams :=
  match event with
  | .resume index _ => system.tasks[index]?.bind Task.atLock
  | .lose index _ _ => system.tasks[index]?.bind Task.atLock
  | _ => none

end Cixtech.Payout
