import Cixtech.Payout.Transfers

/-! What a task has to do with the journal: the key and the terms it carries, the rows it
writes, and the moments at which its row is known to be there.
-/

namespace Cixtech.Payout

open Cixtech.Common Cixtech.Foundation.Processes

def PayoutParams.terms (p : PayoutParams) : Terms :=
  { tenant := p.tenant, merchant := p.merchant, chain := p.chain, asset := p.asset
    amountBaseUnits := p.amountBaseUnits, destination := p.destination }

def Stage.params : Stage → PayoutParams
  | .begin_ p _ => p
  | .load p _ => p
  | .resumeSettle p _ _ => p
  | .resumeMark p _ _ => p
  | .check p _ _ => p
  | .acquire p _ _ => p
  | .leased lease _ => lease.p

/-- The key and the terms of the payout that a task runs or is going to run. -/
def Task.about (d : Deployment) : Task → Option (String × Terms)
  | .claimKey request => some ((request.params d).idempotencyKey, (request.params d).terms)
  | .recordApproval _ intent => some (intent.idempotencyKey, intent.terms)
  | .listApprovals intent => some (intent.idempotencyKey, intent.terms)
  | .paying _ stage => some (stage.params.idempotencyKey, stage.params.terms)
  | _ => none

/-- The parameters that a task is about to begin an intent with. -/
def Task.beginning : Task → Option PayoutParams
  | .paying _ (.begin_ p _) => some p
  | _ => none

/-- The key of a payout whose intent was begun. -/
def Task.begun : Task → Option String
  | .paying _ (.begin_ _ _) => none
  | .paying _ stage => some stage.params.idempotencyKey
  | _ => none

/-- Whether a task is on its way out of a payout with an error. -/
def Task.failing : Task → Bool
  | .paying _ (.leased _ (.release (.error _))) => true
  | _ => false

-----------------------------------------------------------------------------
-- One stage of the payout

/-- What one step of a payout has to do with the journal. -/
structure JournalStep (store after : Store) (id : String) (stage : Stage) (progress : Progress)
    : Prop where
  step : PayoutJournal.Step store.journal id store.clock
    ((Task.paying .direct stage).beginning.map PayoutService.newIntent) after.journal
  params : ∀ next, progress = .awaiting next → next.params = stage.params
  begun : ∀ next, progress = .awaiting next
    → (PayoutJournal.load store.journal stage.params.idempotencyKey).isSome
        ∨ (Task.paying .direct stage).beginning.isSome
    → (PayoutJournal.load after.journal stage.params.idempotencyKey).isSome

/-- Evolution of the rows keeps a row that is there. -/
theorem PayoutJournal.Step.isSome {rows later : List PayoutIntent} {id : String}
    {createdAt : Int} {intent : Option NewIntent}
    (step : PayoutJournal.Step rows id createdAt intent later) {key : String}
    (there : (PayoutJournal.load rows key).isSome)
    : (PayoutJournal.load later key).isSome := by
  obtain ⟨row, found⟩ := Option.isSome_iff_exists.mp there
  obtain ⟨next, kept, -⟩ := step.load found
  simp [kept]

/-- A payout that holds the lease inserts nothing. -/
theorem spend_journal {d : Deployment} {store after : Store} {reply : Reply} {lease : Lease}
    {step : Spending lease.p.amountBaseUnits} {progress : Progress}
    (taken : PayoutService.spend d store reply lease step = some (after, progress))
    (id : String) (intent : Option NewIntent)
    : PayoutJournal.Step store.journal id store.clock intent after.journal
      ∧ ∀ next, progress = .awaiting next → next.params = lease.p := by
  cases step with
  | setFrom plan =>
      cases taken
      exact ⟨.updated _ (PayoutIntent.evolves_sentFrom _), by rintro _ ⟨⟩; rfl⟩
  | markBroadcast payment =>
      cases taken
      exact ⟨.updated _ (PayoutIntent.evolves_broadcastAs _), by rintro _ ⟨⟩; rfl⟩
  | markSettled payment =>
      cases taken
      exact ⟨.updated _ PayoutIntent.evolves_settle, by rintro _ ⟨⟩; rfl⟩
  | release outcome => cases taken; exact ⟨.same, by rintro _ ⟨⟩⟩
  | prepare payment => cases taken; exact ⟨.same, by rintro _ ⟨⟩; rfl⟩
  | sweepPrepare payment sweep => cases taken; exact ⟨.same, by rintro _ ⟨⟩; rfl⟩
  | sweepPost payment sweep =>
      simp only [PayoutService.spend] at taken
      split at taken
      · cases taken
      · split at taken <;> cases taken <;> exact ⟨.same, by rintro _ ⟨⟩; rfl⟩
  | _ =>
      simp only [PayoutService.spend] at taken
      split at taken <;> cases taken <;> exact ⟨.same, by rintro _ ⟨⟩; rfl⟩

/-- Only `begin` inserts, and what it inserts carries the parameters of the call. -/
theorem advance_journal {d : Deployment} {store after : Store} {reply : Reply} {stage : Stage}
    {progress : Progress}
    (taken : PayoutService.advance d store reply stage = some (after, progress))
    : JournalStep store after reply.freshId stage progress := by
  -- A statement that is no `begin` keeps the row of the key where there is one.
  have kept : PayoutJournal.Step store.journal reply.freshId store.clock none after.journal
      → (Task.paying .direct stage).beginning = none
      → (∀ next, progress = .awaiting next → next.params = stage.params)
      → JournalStep store after reply.freshId stage progress := by
    intro step noBegin params
    refine ⟨by rw [noBegin]; exact step, params, fun next _ there => ?_⟩
    rcases there with there | beginning
    · exact step.isSome there
    · simp [noBegin] at beginning
  cases stage with
  | leased lease step =>
      obtain ⟨moved, params⟩ := spend_journal taken reply.freshId none
      exact kept moved rfl params
  | begin_ p now =>
      simp only [PayoutService.advance] at taken
      split at taken <;> cases taken
      refine ⟨.begun rfl, by rintro _ ⟨⟩; rfl, fun next _ _ => ?_⟩
      have loaded := PayoutJournal.load_begin store.journal reply.freshId store.clock
        (PayoutService.newIntent p)
      exact Option.isSome_iff_exists.mpr ⟨_, loaded⟩
  | load p now =>
      simp only [PayoutService.advance] at taken
      split at taken <;> cases taken
      · exact kept .same rfl (by rintro _ ⟨⟩)
      case h_2 intent found =>
        refine kept .same rfl ?_
        rcases PayoutService.branch_cases p now intent with ⟨_, same⟩ | ⟨_, _, same⟩ | same <;>
          rw [same] <;> rintro _ ⟨⟩ <;> rfl
  | resumeSettle p txId fromAddress =>
      simp only [PayoutService.advance] at taken
      split at taken <;> cases taken
      · exact kept .same rfl (by rintro _ ⟨⟩)
      · exact kept .same rfl (by rintro _ ⟨⟩; rfl)
  | resumeMark p txId fromAddress =>
      cases taken
      exact kept (.updated _ PayoutIntent.evolves_settle) rfl (by rintro _ ⟨⟩)
  | check p now requestedAt =>
      simp only [PayoutService.advance] at taken
      split at taken <;> cases taken
      · exact kept .same rfl (by rintro _ ⟨⟩)
      · exact kept .same rfl (by rintro _ ⟨⟩; rfl)
  | acquire p now asked =>
      simp only [PayoutService.advance] at taken
      split at taken <;> cases taken
      · exact kept .same rfl (by rintro _ ⟨⟩; rfl)
      · exact kept .same rfl (by rintro _ ⟨⟩)

-----------------------------------------------------------------------------
-- One move of a task

/-- What a move has to do with the journal: the statement it makes, the payout its task is
about afterwards, and the row of a payout that was begun.
-/
structure JournalMove (d : Deployment) (store after : Store) (task next : Task) : Prop where
  step : ∃ id, PayoutJournal.Step store.journal id store.clock
    (task.beginning.map PayoutService.newIntent) after.journal
  about : next.about d = none ∨ next.about d = task.about d
    ∨ ∃ row ∈ store.journal, next.about d = some (row.idempotencyKey, row.terms)
  begun : ∀ key, next.begun = some key
    → task.begun = some key ∨ (PayoutJournal.load after.journal key).isSome

/-- A caller that has its outcome runs no payout any more. -/
theorem resumeCaller_idle (d : Deployment) (outcome : Except AppError PayoutResult)
    (caller : Caller)
    : (Task.resumeCaller d outcome caller).about d = none
      ∧ (Task.resumeCaller d outcome caller).begun = none := by
  rcases Task.resumeCaller_cases d outcome caller with
    ⟨-, answer, same⟩ | ⟨tenant, key, -, ⟨result, same⟩ | ⟨err, same⟩⟩
  all_goals
    rw [same]
    exact ⟨rfl, rfl⟩

theorem Task.begun_eq {caller : Caller} {stage : Stage}
    (notBeginning : (Task.paying caller stage).beginning = none)
    : (Task.paying caller stage).begun = some stage.params.idempotencyKey := by
  cases stage with
  | begin_ p now => cases notBeginning
  | _ => rfl

theorem Task.key_of_begun {caller : Caller} {stage : Stage} {key : String}
    (begun : (Task.paying caller stage).begun = some key)
    : stage.params.idempotencyKey = key := by
  cases stage with
  | begin_ p now => cases begun
  | _ => exact Option.some.inj begun

/-- A completed await of a payout keeps its parameters and its row. -/
private theorem paying_journal {d : Deployment} {store after : Store} {caller : Caller}
    {stage : Stage} {progress : Progress} {id : String}
    (step : JournalStep store after id stage progress)
    : JournalMove d store after (.paying caller stage) (Task.ofProgress d caller progress) := by
  have sameBeginning : (Task.paying .direct stage).beginning
      = (Task.paying caller stage).beginning := by
    cases stage <;> rfl
  refine ⟨⟨id, sameBeginning ▸ step.step⟩, ?_, ?_⟩
  · cases progress with
    | awaiting next =>
        refine .inr (.inl ?_)
        simp only [Task.ofProgress, Task.about, step.params next rfl]
    | finished outcome => exact .inl (resumeCaller_idle d outcome caller).1
  · intro key begun
    cases progress with
    | finished outcome =>
        have idle := (resumeCaller_idle d outcome caller).2
        simp only [Task.ofProgress, idle] at begun
        cases begun
    | awaiting next =>
        have own := Task.key_of_begun begun
        rw [step.params next rfl] at own
        cases starts : (Task.paying caller stage).beginning with
        | none => exact .inl (own ▸ Task.begun_eq starts)
        | some p =>
            refine .inr (own ▸ step.begun next rfl (.inr ?_))
            simp [sameBeginning, starts]

/-- A completed await of a task that runs no payout leaves the journal alone. -/
theorem Task.advance_journal {d : Deployment} {store after : Store} {reply : Reply}
    {task next : Task} (taken : task.advance d store reply = some (after, next))
    : JournalMove d store after task next := by
  cases task with
  | paying caller stage =>
      simp only [Task.advance, Option.map_eq_some_iff, Prod.mk.injEq] at taken
      obtain ⟨⟨store', progress⟩, done, rfl, rfl⟩ := taken
      exact paying_journal (Payout.advance_journal done)
  | claimKey request =>
      simp only [Task.advance] at taken
      generalize claim : IdempotencyStore.claim store.idempotency request.tenant.text request.key
        = claimed at taken
      obtain ⟨rows, reserved⟩ := claimed
      cases reserved with
      | true =>
          cases taken
          exact ⟨⟨reply.freshId, .same⟩, .inr (.inl rfl), by rintro _ ⟨⟩⟩
      | false =>
          cases taken
          exact ⟨⟨reply.freshId, .same⟩, .inl rfl, by rintro _ ⟨⟩⟩
  | loadRecord request =>
      simp only [Task.advance] at taken
      split at taken <;> cases taken <;>
        exact ⟨⟨reply.freshId, .same⟩, .inl rfl, by rintro _ ⟨⟩⟩
  | complete tenant key result =>
      cases taken
      exact ⟨⟨reply.freshId, .same⟩, .inl rfl, by rintro _ ⟨⟩⟩
  | releaseKey tenant key err =>
      cases taken
      exact ⟨⟨reply.freshId, .same⟩, .inl rfl, by rintro _ ⟨⟩⟩
  | findIntent tenant key err =>
      cases taken
      exact ⟨⟨reply.freshId, .same⟩, .inl rfl, by rintro _ ⟨⟩⟩
  | loadIntent request =>
      simp only [Task.advance] at taken
      split at taken <;> cases taken
      · exact ⟨⟨reply.freshId, .same⟩, .inl rfl, by rintro _ ⟨⟩⟩
      case h_2 intent found =>
        refine ⟨⟨reply.freshId, .same⟩, ?_, ?_⟩
        · split
          · exact .inl rfl
          · exact .inr (.inr ⟨intent, List.mem_of_find?_eq_some found, rfl⟩)
        · intro key begun
          split at begun <;> cases begun
  | listSettled intent =>
      cases taken
      exact ⟨⟨reply.freshId, .same⟩, .inl rfl, by rintro _ ⟨⟩⟩
  | recordApproval request intent =>
      simp only [Task.advance] at taken
      split at taken <;> cases taken
      · exact ⟨⟨reply.freshId, .same⟩, .inl rfl, by rintro _ ⟨⟩⟩
      · exact ⟨⟨reply.freshId, .same⟩, .inr (.inl rfl), by rintro _ ⟨⟩⟩
  | listApprovals intent =>
      cases taken
      exact ⟨⟨reply.freshId, .same⟩, .inr (.inl rfl), by rintro _ ⟨⟩⟩
  | finished response => cases taken
  | crashed => cases taken

/-- A thrown await leaves the task about its payout or about none. -/
theorem Task.throwAt_about {d : Deployment} {err : AppError} {task next : Task}
    (thrown : task.throwAt d err = some next)
    : (next.about d = none ∨ next.about d = task.about d)
      ∧ (next.begun = none ∨ next.begun = task.begun) := by
  cases task with
  | paying caller stage =>
      cases thrown
      cases stage with
      | leased lease step =>
          cases step with
          | release outcome =>
              have idle := resumeCaller_idle d (.error err) caller
              exact ⟨.inl idle.1, .inl idle.2⟩
          | _ => exact ⟨.inr rfl, .inr rfl⟩
      | _ =>
          have idle := resumeCaller_idle d (.error err) caller
          exact ⟨.inl idle.1, .inl idle.2⟩
  | finished response => cases thrown
  | crashed => cases thrown
  | _ => cases thrown; exact ⟨.inl rfl, .inl rfl⟩

theorem Task.Moves.journal {d : Deployment} {store after : Store} {task next : Task}
    {index : Nat} {event : Event} (moves : task.Moves d store index event after next)
    : JournalMove d store after task next := by
  have thrownBegun : ∀ {rows : List PayoutIntent},
      (next.begun = none ∨ next.begun = task.begun) → ∀ key, next.begun = some key
      → task.begun = some key ∨ (PayoutJournal.load rows key).isSome := by
    rintro rows (idle | same) key begun
    · simp [idle] at begun
    · exact .inl (same ▸ begun)
  cases moves with
  | resumed done => exact Task.advance_journal done
  | rejected thrown =>
      obtain ⟨about, begun⟩ := Task.throwAt_about thrown
      exact ⟨⟨"", .same⟩, about.imp_right .inl, thrownBegun begun⟩
  | lost done thrown =>
      obtain ⟨about, begun⟩ := Task.throwAt_about thrown
      exact ⟨(Task.advance_journal done).step, about.imp_right .inl, thrownBegun begun⟩
  | crashed => exact ⟨⟨"", .same⟩, .inl rfl, by rintro _ ⟨⟩⟩

/-- A payment lands without an error only where it is journaled as broadcast. -/
theorem Task.advance_lands {d : Deployment} {store after : Store} {reply : Reply}
    {task next : Task} {p : PayoutParams} {sum : Int}
    (taken : task.advance d store reply = some (after, next))
    (flying : task.inFlight = some (p, sum)) (landed : next.inFlight = none)
    (succeeds : next.failing = false)
    : ∃ txId, after.journal = PayoutJournal.markBroadcast store.journal p.idempotencyKey txId := by
  cases task with
  | paying caller stage =>
      cases stage with
      | leased lease step =>
          simp only [Task.advance, Option.map_eq_some_iff, Prod.mk.injEq] at taken
          obtain ⟨⟨store', progress⟩, done, rfl, rfl⟩ := taken
          simp only [PayoutService.advance] at done
          obtain ⟨value, flies, same⟩ := Option.map_eq_some_iff.mp flying
          obtain rfl : lease.p = p := congrArg Prod.fst same
          cases step with
          | prepare payment => cases done; cases landed
          | send payment =>
              simp only [PayoutService.spend] at done
              split at done
              · cases done
              case h_2 leg rest step =>
                cases done
                rcases sent_enterLeg d rest with sent | ⟨err, left⟩
                · simp [Task.ofProgress, Task.inFlight, Stage.inFlight, sent] at landed
                · simp [Task.ofProgress, Task.failing, left] at succeeds
          | markBroadcast payment =>
              cases done
              exact ⟨_, rfl⟩
          | _ => cases flies
      | _ => cases flying
  | _ => cases flying

end Cixtech.Payout
