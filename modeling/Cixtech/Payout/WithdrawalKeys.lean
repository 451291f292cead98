import Cixtech.Payout.ConcurrentPayouts

/-! The idempotency record of the withdrawal route. A handler owns the record of its key from the
claim that found it free until it completes or releases it, and a completed record answers every
later request. Nothing is assumed of `payout()`, which may return or throw at any time.
-/

namespace Cixtech.Payout

open Cixtech.Common Cixtech.Foundation Cixtech.Foundation.Processes

-----------------------------------------------------------------------------
-- The route around an arbitrary payout

/-- What happens to the handlers: what happens to the system, a payout that ends in any way, and
a change of the store outside of the idempotency records.
-/
inductive RouteEvent
  | system (event : Event)
  | payout (index : Nat) (outcome : Except AppError PayoutResult)
  | elsewhere (store : Store)

namespace System

/-- The system after such an event, none where the event cannot happen. -/
def routeStep (d : Deployment) (system : System) : RouteEvent → Option System
  | .system event => system.step d event
  | .payout index outcome =>
      match system.tasks[index]? with
      | some (.paying caller _) =>
          some
            { system with tasks := system.tasks.set index (Task.resumeCaller d outcome caller) }
      | _ => none
  | .elsewhere store =>
      some { system with store := { store with idempotency := system.store.idempotency } }

/-- Whether the completion of a key, where it takes effect, also returns. -/
def completionReturns (system : System) : RouteEvent → Bool
  | .system (.lose index _ _) =>
      match system.tasks[index]? with
      | some (.complete _ _ _) => false
      | _ => true
  | _ => true

end System

/-- The record that a handler has claimed and neither completed nor released. -/
def Task.owned : Task → Option (String × String)
  | .paying (.withdrawal tenant key) _ => some (tenant.text, key)
  | .complete tenant key _ => some (tenant.text, key)
  | .releaseKey tenant key _ => some (tenant.text, key)
  | _ => none

/-- The record that the next statement of a task is about. -/
def Task.record : Task → Option (String × String)
  | .claimKey request => some (request.tenant.text, request.key)
  | .loadRecord request => some (request.tenant.text, request.key)
  | .complete tenant key _ => some (tenant.text, key)
  | .releaseKey tenant key _ => some (tenant.text, key)
  | _ => none

/-- What a handler stores and answers when its payout has returned. -/
def StoredBody.ofResult (result : PayoutResult) : StoredBody :=
  { status := 200, txId := result.txId, fromAddress := result.fromAddress }

-----------------------------------------------------------------------------
-- The statements on the records

namespace IdempotencyStore

variable {rows : List IdempotencyRow} {tenantId key : String}

theorem claim_of_none (free : find rows tenantId key = none)
    : claim rows tenantId key = (rows ++ [{ tenantId, key, response := none }], true) := by
  simp [claim, free]

theorem claim_of_some {row : IdempotencyRow} (taken : find rows tenantId key = some row)
    : claim rows tenantId key = (rows, false) := by
  simp [claim, taken]

/-- What a record says: nothing where there is none, and no reply while it is in progress. -/
def answer (rows : List IdempotencyRow) (record : String × String)
    : Option (Option StoredBody) :=
  (find rows record.1 record.2).map IdempotencyRow.response

theorem answer_claim (free : answer rows (tenantId, key) = none) (record : String × String)
    : answer (claim rows tenantId key).1 record
      = if record = (tenantId, key) then some none else answer rows record := by
  have absent : find rows tenantId key = none := Option.map_eq_none_iff.mp free
  have appended : find (rows ++ [{ tenantId, key, response := none }]) record.1 record.2
      = (find rows record.1 record.2).or
        (if (tenantId, key) = record then some { tenantId, key, response := none }
          else none) := by
    rw [find, Table.lookup_append, Table.lookup_singleton]
    rfl
  rw [claim_of_none absent, answer, appended, answer]
  by_cases own : record = (tenantId, key)
  · simp [own, absent]
  · simp [own, Ne.symm own]

theorem answer_complete (rows : List IdempotencyRow) (tenantId key : String) (body : StoredBody)
    (record : String × String)
    : answer (complete rows tenantId key body) record
      = if record = (tenantId, key) then (answer rows record).map fun _ => some body
        else answer rows record := by
  have updated : find (complete rows tenantId key body) record.1 record.2
      = if record = (tenantId, key) then
          (find rows record.1 record.2).map fun row => { row with response := some body }
        else find rows record.1 record.2 :=
    Table.lookup_update rows record (tenantId, key) _ fun _ => rfl
  rw [answer, updated, answer]
  split
  · rw [Option.map_map, Option.map_map]
    rfl
  · rfl

/-- A release reaches no other record. -/
theorem answer_release (rows : List IdempotencyRow) (tenantId key : String)
    {record : String × String} (apart : record ≠ (tenantId, key))
    : answer (release rows tenantId key) record = answer rows record := by
  refine congrArg (Option.map _) (Table.lookup_delete_of_kept fun row _ same => ?_)
  refine Bool.eq_false_iff.mpr fun gone => apart ?_
  simp only [Bool.and_eq_true, beq_iff_eq] at gone
  exact same.symm.trans (Prod.ext gone.1 gone.2)

end IdempotencyStore

/-- No step of a payout touches the records. -/
theorem spend_idempotency {d : Deployment} {store after : Store} {reply : Reply} {lease : Lease}
    {step : Spending lease.p.amountBaseUnits} {progress : Progress}
    (taken : PayoutService.spend d store reply lease step = some (after, progress))
    : after.idempotency = store.idempotency := by
  cases step with
  | release outcome => cases taken; rfl
  | setFrom plan => cases taken; rfl
  | prepare payment => cases taken; rfl
  | markBroadcast payment => cases taken; rfl
  | markSettled payment => cases taken; rfl
  | sweepPrepare payment sweep => cases taken; rfl
  | sweepPost payment sweep =>
      simp only [PayoutService.spend] at taken
      split at taken
      · cases taken
      · split at taken <;> cases taken <;> rfl
  | _ =>
      simp only [PayoutService.spend] at taken
      split at taken <;> cases taken <;> rfl

theorem advance_idempotency {d : Deployment} {store after : Store} {reply : Reply} {stage : Stage}
    {progress : Progress}
    (taken : PayoutService.advance d store reply stage = some (after, progress))
    : after.idempotency = store.idempotency := by
  cases stage with
  | leased lease step => exact spend_idempotency taken
  | resumeMark p txId fromAddress => cases taken; rfl
  | _ =>
      simp only [PayoutService.advance] at taken
      split at taken <;> cases taken <;> rfl

-----------------------------------------------------------------------------
-- What a step does to the records and to the handler that takes it

inductive Task.KeyMove (rows : List IdempotencyRow) : Task → List IdempotencyRow → Task → Prop
  | claims {request stage}
    (free : IdempotencyStore.answer rows (request.tenant.text, request.key) = none)
    : Task.KeyMove rows (.claimKey request)
        (IdempotencyStore.claim rows request.tenant.text request.key).1
        (.paying (.withdrawal request.tenant request.key) stage)
  /-- The claim took effect and was reported as failed. -/
  | strands {request err}
    (free : IdempotencyStore.answer rows (request.tenant.text, request.key) = none)
    : Task.KeyMove rows (.claimKey request)
        (IdempotencyStore.claim rows request.tenant.text request.key).1 (.finished (.failed err))
  | completes {tenant key result}
    : Task.KeyMove rows (.complete tenant key result)
        (IdempotencyStore.complete rows tenant.text key (.ofResult result))
        (.finished (.stored (.ofResult result)))
  | releases {tenant key err next} (leaves : next.owned = none)
    : Task.KeyMove rows (.releaseKey tenant key err)
        (IdempotencyStore.release rows tenant.text key) next
  | keeps {task next} (holds : next.owned = none ∨ next.owned = task.owned)
    : Task.KeyMove rows task rows next

namespace Task

theorem owned_resumeCaller (d : Deployment) (outcome : Except AppError PayoutResult)
    (caller : Caller) (stage : Stage)
    : (resumeCaller d outcome caller).owned = (Task.paying caller stage).owned := by
  rcases resumeCaller_cases d outcome caller with
    ⟨other, answer, same⟩ | ⟨tenant, key, rfl, ⟨result, same⟩ | ⟨err, same⟩⟩
  · rw [same]
    cases caller with
    | withdrawal tenant key => exact absurd rfl (other tenant key)
    | _ => rfl
  all_goals
    rw [same]
    rfl

theorem owned_ofProgress (d : Deployment) (caller : Caller) (stage : Stage) (progress : Progress)
    : (ofProgress d caller progress).owned = (Task.paying caller stage).owned := by
  cases progress with
  | awaiting next => cases caller <;> rfl
  | finished outcome => exact owned_resumeCaller d outcome caller stage

/-- What an await of a handler does when it completes. -/
theorem advance_keyMove {d : Deployment} {store after : Store} {reply : Reply}
    {task next : Task} (taken : task.advance d store reply = some (after, next))
    : Task.KeyMove store.idempotency task after.idempotency next := by
  cases task with
  | claimKey request =>
      simp only [advance] at taken
      cases found : IdempotencyStore.find store.idempotency request.tenant.text request.key with
      | none =>
          have claimed := IdempotencyStore.claim_of_none found
          have rows := congrArg Prod.fst claimed
          rw [claimed] at taken
          cases taken
          exact rows ▸ .claims (by simp [IdempotencyStore.answer, found])
      | some row =>
          rw [IdempotencyStore.claim_of_some found] at taken
          cases taken
          exact .keeps (.inl rfl)
  | loadRecord request =>
      simp only [advance] at taken
      split at taken <;> cases taken <;> exact .keeps (.inl rfl)
  | complete tenant key result => cases taken; exact .completes
  | releaseKey tenant key err => cases taken; exact .releases rfl
  | findIntent tenant key err => cases taken; exact .keeps (.inl rfl)
  | loadIntent request =>
      simp only [advance] at taken
      split at taken <;> cases taken
      · exact .keeps (.inl rfl)
      · refine .keeps (.inl ?_)
        split <;> rfl
  | listSettled intent => cases taken; exact .keeps (.inl rfl)
  | recordApproval request intent =>
      simp only [advance] at taken
      split at taken <;> cases taken <;> exact .keeps (.inl rfl)
  | listApprovals intent => cases taken; exact .keeps (.inl rfl)
  | paying caller stage =>
      simp only [advance, Option.map_eq_some_iff, Prod.mk.injEq] at taken
      obtain ⟨⟨store', progress⟩, done, rfl, rfl⟩ := taken
      rw [advance_idempotency done]
      exact .keeps (.inr (owned_ofProgress d caller stage progress))
  | finished response => cases taken
  | crashed => cases taken

/-- A handler that goes on after a failed await owns what it owned, or nothing. -/
theorem owned_throwAt {d : Deployment} {err : AppError} {task next : Task}
    (thrown : task.throwAt d err = some next)
    : next.owned = none ∨ next.owned = task.owned := by
  cases task with
  | complete tenant key result => cases thrown; exact .inr rfl
  | paying caller stage =>
      cases thrown
      exact .inr (owned_ofProgress d caller stage _)
  | finished response => cases thrown
  | crashed => cases thrown
  | _ => cases thrown; exact .inl rfl

/-- The same of an await that takes effect and is reported as failed, unless it is the
completion of a key.
-/
theorem lose_keyMove {d : Deployment} {store after : Store} {reply : Reply} {err : AppError}
    {task other next : Task} (taken : task.advance d store reply = some (after, other))
    (thrown : task.throwAt d err = some next)
    (returns : ∀ tenant key result, task ≠ .complete tenant key result)
    : Task.KeyMove store.idempotency task after.idempotency next := by
  have holds := owned_throwAt thrown
  have moves := advance_keyMove taken
  generalize after.idempotency = rows at moves ⊢
  cases moves with
  | claims free => cases thrown; exact .strands free
  | strands free => cases thrown; exact .strands free
  | completes => exact absurd rfl (returns _ _ _)
  | releases leaves => cases thrown; exact .releases rfl
  | keeps => exact .keeps holds

end Task

-----------------------------------------------------------------------------
-- Who owns which record

/-- No record has two owners, and every owner's record is there and in progress. -/
structure KeysOwned (rows : List IdempotencyRow) (tasks : List Task) : Prop where
  exclusive : Exclusive Task.owned tasks
  inProgress
    : ∀ {index : Nat} {task record}, tasks[index]? = some task → task.owned = some record
      → IdempotencyStore.answer rows record = some none

namespace Task.KeyMove

variable {rows later : List IdempotencyRow} {old new : Task} {record : String × String}

/-- A move leaves every record alone that it is not about. -/
theorem frame (move : Task.KeyMove rows old later new) (foreign : old.record ≠ some record)
    : IdempotencyStore.answer later record = IdempotencyStore.answer rows record := by
  cases move with
  | claims free =>
      rw [IdempotencyStore.answer_claim free, if_neg fun same => foreign (congrArg some same.symm)]
  | strands free =>
      rw [IdempotencyStore.answer_claim free, if_neg fun same => foreign (congrArg some same.symm)]
  | completes =>
      rw [IdempotencyStore.answer_complete, if_neg fun same => foreign (congrArg some same.symm)]
  | releases leaves =>
      exact IdempotencyStore.answer_release _ _ _ fun same => foreign (congrArg some same.symm)
  | keeps holds => rfl

/-- A record that is there is changed by its owner only. -/
theorem untouched (move : Task.KeyMove rows old later new)
    (there : IdempotencyStore.answer rows record ≠ none) (foreign : old.owned ≠ some record)
    : IdempotencyStore.answer later record = IdempotencyStore.answer rows record := by
  cases move with
  | claims free =>
      rw [IdempotencyStore.answer_claim free, if_neg]
      rintro rfl
      exact there free
  | strands free =>
      rw [IdempotencyStore.answer_claim free, if_neg]
      rintro rfl
      exact there free
  | completes =>
      rw [IdempotencyStore.answer_complete, if_neg fun same => foreign (congrArg some same.symm)]
  | releases leaves =>
      exact IdempotencyStore.answer_release _ _ _ fun same => foreign (congrArg some same.symm)
  | keeps holds => rfl

/-- What a handler owns after a move it has owned before, or has just claimed. -/
theorem took (move : Task.KeyMove rows old later new) (holds : new.owned = some record)
    : (old.owned = some record
        ∧ IdempotencyStore.answer later record = IdempotencyStore.answer rows record)
      ∨ (IdempotencyStore.answer rows record = none
        ∧ IdempotencyStore.answer later record = some none) := by
  cases move with
  | claims free =>
      cases holds
      exact .inr ⟨free, by rw [IdempotencyStore.answer_claim free, if_pos rfl]⟩
  | strands free => cases holds
  | completes => cases holds
  | releases leaves =>
      rw [leaves] at holds
      cases holds
  | keeps kept =>
      rcases kept with none | same
      · rw [none] at holds
        cases holds
      · exact .inl ⟨same ▸ holds, rfl⟩

end Task.KeyMove

namespace KeysOwned

variable {rows later : List IdempotencyRow} {before after : List Task} {index : Nat}
  {old new : Task}

theorem append (owned : KeysOwned rows before) (idle : new.owned = none)
    : KeysOwned rows (before ++ [new]) := by
  refine ⟨owned.exclusive.append idle, fun there holds => ?_⟩
  rcases get_append_cases there with ⟨-, rfl⟩ | earlier
  · rw [idle] at holds
    cases holds
  · exact owned.inProgress earlier holds

/-- A handler that claims what nobody owns, or gives up what it owned, keeps it so. -/
theorem moves (owned : KeysOwned rows before) (acts : Acts before after index old new)
    (move : Task.KeyMove rows old later new)
    : KeysOwned later after := by
  constructor
  · refine owned.exclusive.acts acts fun record holds => ?_
    rcases move.took holds with ⟨own, -⟩ | ⟨free, -⟩
    · exact .inl own
    · refine .inr fun other member held => ?_
      obtain ⟨i, there⟩ := List.mem_iff_getElem?.mp member
      rw [owned.inProgress there held] at free
      cases free
  · intro i task record there holds
    rcases acts.get_cases there with ⟨rfl, rfl⟩ | ⟨apart, earlier⟩
    · rcases move.took holds with ⟨own, kept⟩ | ⟨-, claimed⟩
      · rw [kept, owned.inProgress acts.found own]
      · exact claimed
    · have held := owned.inProgress earlier holds
      have foreign : old.owned ≠ some record := fun own =>
        apart (owned.exclusive earlier acts.found holds own)
      rw [move.untouched (held ▸ nofun) foreign, held]

end KeysOwned

/-- Every event changes no record and no handler, brings a task that owns nothing, or moves one
handler.
-/
theorem System.routeStep_cases {d : Deployment} {system next : System} {event : RouteEvent}
    (taken : system.routeStep d event = some next) (returns : system.completionReturns event = true)
    : (next.store.idempotency = system.store.idempotency
        ∧ (next.tasks = system.tasks
          ∨ ∃ task, task.owned = none ∧ next.tasks = system.tasks ++ [task]))
      ∨ ∃ index old new, Acts system.tasks next.tasks index old new
          ∧ Task.KeyMove system.store.idempotency old next.store.idempotency new := by
  cases event with
  | elsewhere store => cases taken; exact .inl ⟨rfl, .inl rfl⟩
  | payout index outcome =>
      simp only [routeStep] at taken
      split at taken
      case h_1 caller stage found =>
        cases taken
        exact .inr ⟨index, _, _, ⟨found, rfl⟩,
          .keeps (.inr (Task.owned_resumeCaller d outcome caller stage))⟩
      case h_2 => cases taken
  | system event =>
      rcases System.step_cases taken with
        ⟨elapsed, -, store, tasks⟩ | ⟨request, -, store, tasks⟩ | ⟨ledger, store, tasks⟩
          | ⟨index, old, new, acts, move⟩
      · exact .inl ⟨by rw [store], .inl tasks⟩
      · exact .inl ⟨by rw [store], .inr ⟨_, by cases request <;> rfl, tasks⟩⟩
      · exact .inl ⟨by rw [store], .inl tasks⟩
      · refine .inr ⟨index, old, new, acts, ?_⟩
        generalize next.store = store at move
        cases move with
        | resumed done => exact Task.advance_keyMove done
        | rejected thrown => exact .keeps (Task.owned_throwAt thrown)
        | lost done thrown =>
            refine Task.lose_keyMove done thrown fun tenant key result same => ?_
            rw [same] at acts
            simp [completionReturns, acts.found] at returns
        | crashed => exact .keeps (.inl rfl)

-----------------------------------------------------------------------------
-- Every run of the handlers

namespace System

/-- The handlers that the system runs to, with every completion that takes effect returning. -/
abbrev Runs (d : Deployment) : System → System → Prop :=
  Reaches (fun system event => system.routeStep d event)
    fun system event => system.completionReturns event = true

def Owners (system : System) : Prop := KeysOwned system.store.idempotency system.tasks

/-- What the system has stored for a record. -/
def Replies (record : String × String) (body : StoredBody) (system : System) : Prop :=
  IdempotencyStore.answer system.store.idempotency record = some (some body)

theorem Owners.routeStep {d : Deployment} {system next : System} {event : RouteEvent}
    (owned : system.Owners) (returns : system.completionReturns event = true)
    (taken : system.routeStep d event = some next)
    : next.Owners := by
  unfold Owners
  rcases routeStep_cases taken returns with
    ⟨rows, same | ⟨task, idle, arrived⟩⟩ | ⟨index, old, new, acts, move⟩
  · rw [rows, same]
    exact owned
  · rw [rows, arrived]
    exact KeysOwned.append owned idle
  · exact KeysOwned.moves owned acts move

theorem Owners.of_runs {d : Deployment} {start system : System} (owned : start.Owners)
    (runs : Runs d start system)
    : system.Owners :=
  runs.invariant owned Owners.routeStep

/-- A stored reply stays, whatever the handlers do. -/
theorem Replies.of_runs {d : Deployment} {start system : System} {record : String × String}
    {body : StoredBody} (stored : Replies record body start) (owned : start.Owners)
    (runs : Runs d start system)
    : Replies record body system := by
  refine runs.invariant_with owned.of_runs stored ?_
  intro system event next owners answered returns taken
  unfold Replies at answered ⊢
  rcases routeStep_cases taken returns with ⟨rows, -⟩ | ⟨index, old, new, acts, move⟩
  · rw [rows]
    exact answered
  · have foreign : old.owned ≠ some record := by
      intro own
      have progress := owners.inProgress acts.found own
      rw [answered] at progress
      cases progress
    rw [move.untouched (answered ▸ nofun) foreign]
    exact answered

end System

/-- The claim of a record that is there takes nothing, and the request goes on to load it. -/
theorem Task.claimKey_of_answer {d : Deployment} {store : Store} {reply : Reply}
    {request : WithdrawalRequest} {response : Option StoredBody}
    (there
      : IdempotencyStore.answer store.idempotency (request.tenant.text, request.key)
        = some response)
    : (Task.claimKey request).advance d store reply = some (store, .loadRecord request) := by
  obtain ⟨row, found, -⟩ := Option.map_eq_some_iff.mp there
  simp only [Task.advance, IdempotencyStore.claim_of_some found]
  rfl

/-- What a request does after its claim. -/
theorem Task.claimKey_next (d : Deployment) (store : Store) (reply : Reply)
    (request : WithdrawalRequest)
    : ((Task.claimKey request).advance d store reply).map Prod.snd
      = some
        (if IdempotencyStore.answer store.idempotency (request.tenant.text, request.key)
            = none then
          startPayout (.withdrawal request.tenant request.key) (request.params d) store.clock
        else .loadRecord request) := by
  cases there : IdempotencyStore.answer store.idempotency (request.tenant.text, request.key) with
  | none =>
      have absent := Option.map_eq_none_iff.mp there
      simp [Task.advance, IdempotencyStore.claim_of_none absent]
  | some response => simp [Task.claimKey_of_answer there]

/-- What a load answers. -/
theorem Task.loadRecord_eq (d : Deployment) (store : Store) (reply : Reply)
    (request : WithdrawalRequest)
    : (Task.loadRecord request).advance d store reply
      = some
        (store,
          .finished
            ((IdempotencyStore.answer store.idempotency
                (request.tenant.text, request.key)).join.elim .inProgress .stored)) := by
  simp only [Task.advance, IdempotencyStore.answer]
  cases IdempotencyStore.find store.idempotency request.tenant.text request.key with
  | none => rfl
  | some row => cases response : row.response <;> simp [response]

/-- A handler that completes its key answers with what it stores. -/
theorem System.completes_replies {d : Deployment} {system : System} {index : Nat} {tenant : Uuid}
    {key : String} {result : PayoutResult} (owners : system.Owners)
    (there : system.tasks[index]? = some (.complete tenant key result)) (reply : Reply)
    : ∃ completed,
        system.routeStep d (.system (.resume index reply)) = some completed
        ∧ completed.tasks[index]? = some (.finished (.stored (.ofResult result)))
        ∧ Replies (tenant.text, key) (.ofResult result) completed := by
  have progress := owners.inProgress there rfl
  refine ⟨
    { store :=
        { system.store with
            idempotency :=
              IdempotencyStore.complete system.store.idempotency tenant.text key
                (.ofResult result) }
      tasks := system.tasks.set index (.finished (.stored (.ofResult result))) }, ?_, ?_, ?_⟩
  · simp [routeStep, step, there, Task.advance, StoredBody.ofResult]
  · exact Acts.get_self ⟨there, rfl⟩
  · simp [Replies, IdempotencyStore.answer_complete, progress]

/-- In every run of the handlers a key has at most one owner. While it has one, every other
request is turned away; once an owner has completed it, nobody owns it any more and every
request is answered with what was stored. A record is changed only by a handler of its own
tenant and key, and decides alone what a request for it comes to.
-/
theorem withdrawal_keys_exclusive (d : Deployment) (store : Store) {system : System}
    (runs : System.Runs d { store, tasks := [] } system) (tenant : Uuid) (key : String)
    : Exclusive Task.owned system.tasks
      ∧ (∀ owner ∈ system.tasks, owner.owned = some (tenant.text, key)
          → ∀ request reply, request.tenant = tenant → request.key = key
          → (Task.claimKey request).advance d system.store reply
              = some (system.store, .loadRecord request)
            ∧ (Task.loadRecord request).advance d system.store reply
              = some (system.store, .finished .inProgress))
      ∧ (∀ index result reply, system.tasks[index]? = some (.complete tenant key result)
          → ∃ completed,
              system.routeStep d (.system (.resume index reply)) = some completed
              ∧ completed.tasks[index]? = some (.finished (.stored (.ofResult result)))
              ∧ ∀ later, System.Runs d completed later
                → (∀ task ∈ later.tasks, task.owned ≠ some (tenant.text, key))
                  ∧ ∀ request reply, request.tenant = tenant → request.key = key
                  → (Task.claimKey request).advance d later.store reply
                      = some (later.store, .loadRecord request)
                    ∧ (Task.loadRecord request).advance d later.store reply
                      = some (later.store, .finished (.stored (.ofResult result))))
      ∧ (∀ event next, system.completionReturns event = true
          → system.routeStep d event = some next
          → IdempotencyStore.answer next.store.idempotency (tenant.text, key)
              ≠ IdempotencyStore.answer system.store.idempotency (tenant.text, key)
          → ∃ index old new, Acts system.tasks next.tasks index old new
            ∧ old.record = some (tenant.text, key))
      ∧ ∀ other request reply, request.tenant = tenant → request.key = key
        → other.clock = system.store.clock
        → IdempotencyStore.answer other.idempotency (tenant.text, key)
            = IdempotencyStore.answer system.store.idempotency (tenant.text, key)
        → ((Task.claimKey request).advance d other reply).map Prod.snd
            = ((Task.claimKey request).advance d system.store reply).map Prod.snd
          ∧ ((Task.loadRecord request).advance d other reply).map Prod.snd
            = ((Task.loadRecord request).advance d system.store reply).map Prod.snd := by
  have owners : system.Owners :=
    System.Owners.of_runs ⟨Exclusive.nil, fun there => by simp at there⟩ runs
  refine ⟨owners.exclusive, ?_, ?_, ?_, ?_⟩
  · rintro owner member holds request reply rfl rfl
    obtain ⟨index, there⟩ := List.mem_iff_getElem?.mp member
    have progress := owners.inProgress there holds
    exact ⟨Task.claimKey_of_answer progress, by rw [Task.loadRecord_eq, progress]; rfl⟩
  · intro index result reply there
    obtain ⟨completed, taken, ended, stored⟩ := System.completes_replies owners there reply
    refine ⟨completed, taken, ended, fun later continues => ?_⟩
    have ownedLater := (owners.routeStep rfl taken).of_runs continues
    have answers := stored.of_runs (owners.routeStep rfl taken) continues
    refine ⟨fun task member holds => ?_, ?_⟩
    · obtain ⟨i, found⟩ := List.mem_iff_getElem?.mp member
      rw [System.Replies, ownedLater.inProgress found holds] at answers
      cases answers
    · rintro request reply rfl rfl
      exact ⟨Task.claimKey_of_answer answers, by rw [Task.loadRecord_eq, answers]; rfl⟩
  · intro event next returns taken changed
    rcases System.routeStep_cases taken returns with
      ⟨rows, -⟩ | ⟨index, old, new, acts, move⟩
    · exact absurd (by rw [rows]) changed
    · refine ⟨index, old, new, acts, ?_⟩
      by_contra foreign
      exact changed (move.frame foreign)
  · rintro other request reply rfl rfl sameClock same
    rw [Task.claimKey_next, Task.claimKey_next, Task.loadRecord_eq, Task.loadRecord_eq, same,
      sameClock]
    exact ⟨rfl, rfl⟩

def sampleRequest : WithdrawalRequest :=
  { tenant := sampleTenant, keyId := "key", merchant := sampleMerchant, chain := "TRON"
    asset := "USDT", amount := 100, destination := "dest", key := "k" }

def sampleResult : PayoutResult := { txId := "tx", fromAddress := "pool", legs := none }

/-- A payout throws and its key is released; the next request claims the key and pays. -/
def sampleEvents : List RouteEvent :=
  [ .system (.call (.withdraw sampleRequest)),
    .system (.resume 0 (sampleReply "a" [])),
    .payout 0 (.error ApprovalStore.noApprover),
    .system (.resume 0 (sampleReply "a" [])),
    .system (.call (.withdraw sampleRequest)),
    .system (.resume 1 (sampleReply "a" [])),
    .payout 1 (.ok sampleResult) ]

/-- After the second of these handlers has completed the key, nobody ever owns it again. -/
theorem withdrawal_keys_exclusive_sample
    : ∃ system completed,
        System.Runs plainDeployment { store := emptyStore, tasks := [] } system
        ∧ system.routeStep plainDeployment (.system (.resume 1 (sampleReply "a" [])))
          = some completed
        ∧ ∀ later, System.Runs plainDeployment completed later
          → ∀ task ∈ later.tasks, task.owned ≠ some ("aa", "k") := by
  have executed : exec (fun system event => System.routeStep plainDeployment system event)
      (fun system event => system.completionReturns event = true)
      { store := emptyStore, tasks := [] } sampleEvents = some _ :=
    rfl
  have runs := Reaches.of_exec executed
  obtain ⟨completed, taken, -, settled⟩ :=
    (withdrawal_keys_exclusive plainDeployment emptyStore runs sampleTenant "k").2.2.1 1
      sampleResult (sampleReply "a" []) rfl
  exact ⟨_, completed, runs, taken, fun later continues => (settled later continues).1⟩

end Cixtech.Payout
