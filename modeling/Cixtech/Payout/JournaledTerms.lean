import Cixtech.Payout.ConcurrentPayouts

/-! What a payout does is done with the parameters of the call, and the journal keeps the
terms of the first call. The two agree as long as a call that finds a row for its key repeats
the terms of the row.
-/

namespace Cixtech.Payout

open Cixtech.Attribution Cixtech.Common Cixtech.Foundation Cixtech.Foundation.Processes
  Cixtech.Ledger

-----------------------------------------------------------------------------
-- What a call does is done with its own parameters

def Effect.key : Effect → String
  | .policyEvaluated key _ => key
  | .locked key _ => key
  | .sent key _ => key
  | .settled key _ => key
  | .feeSent key _ => key

/-- The instant that a call is about to apply as its time-lock anchor. -/
def Stage.anchoredAt : Stage → Option Int
  | .check _ _ requestedAt => some requestedAt
  | _ => none

/-- A payout that has read the row of its key. -/
def Stage.hasRead : Stage → Bool
  | .begin_ _ _ => false
  | .load _ _ => false
  | _ => true

/-- An effect of a call with these parameters. -/
inductive Effect.Uses (d : Deployment) (p : PayoutParams) (anchor : Option Int) : Effect → Prop
  | policyEvaluated {requestedAt} (here : anchor = some requestedAt)
    : Uses d p anchor
        (.policyEvaluated p.idempotencyKey (PayoutService.context p requestedAt))
  | locked : Uses d p anchor (.locked p.idempotencyKey (PayoutService.lockInput d p))
  | sent {lease : Lease} {payment next : Payment lease.p.amountBaseUnits} {leg txId}
      (own : lease.p = p) (here : payment.sendNext txId = some (leg, next))
    : Uses d p anchor
        (.sent p.idempotencyKey (PayoutService.legRequest d lease payment leg))
  | settled : Uses d p anchor (.settled p.idempotencyKey (PayoutService.settleInput d p))
  | feeSent {sweep leg}
    : Uses d p anchor (.feeSent p.idempotencyKey (PayoutService.feeRequest p sweep leg))

/-- A step has no effect, or one with the parameters of its call, which has read its row. -/
def UsesOwn (d : Deployment) (stage : Stage) (before after : List Effect) : Prop :=
  after = before
    ∨ ∃ effect, after = before ++ [effect] ∧ effect.Uses d stage.params stage.anchoredAt
        ∧ stage.hasRead = true

theorem spend_uses {d : Deployment} {store after : Store} {reply : Reply} {lease : Lease}
    {step : Spending lease.p.amountBaseUnits} {progress : Progress}
    (taken : PayoutService.spend d store reply lease step = some (after, progress))
    : UsesOwn d (.leased lease step) store.effects after.effects := by
  cases step with
  | setFrom plan => cases taken; exact .inl rfl
  | markBroadcast payment => cases taken; exact .inl rfl
  | markSettled payment => cases taken; exact .inl rfl
  | prepare payment => cases taken; exact .inl rfl
  | sweepPrepare payment sweep => cases taken; exact .inl rfl
  | release outcome => cases taken; exact .inl rfl
  | gather =>
      simp only [PayoutService.spend] at taken
      split at taken <;> cases taken <;> exact .inl rfl
  | readBalance plan =>
      simp only [PayoutService.spend] at taken
      split at taken <;> cases taken <;> exact .inl rfl
  | planSweep payment treasuryAddress =>
      simp only [PayoutService.spend] at taken
      split at taken <;> cases taken <;> exact .inl rfl
  | appendLock plan =>
      simp only [PayoutService.spend] at taken
      split at taken <;> cases taken <;> exact .inr ⟨_, rfl, .locked, rfl⟩
  | send payment =>
      simp only [PayoutService.spend] at taken
      split at taken
      · cases taken
      case h_2 leg next here =>
        cases taken
        exact .inr ⟨_, rfl, .sent rfl here, rfl⟩
  | settle payment =>
      simp only [PayoutService.spend] at taken
      split at taken <;> cases taken <;> exact .inr ⟨_, rfl, .settled, rfl⟩
  | sweepSend payment sweep =>
      simp only [PayoutService.spend] at taken
      split at taken <;> cases taken
      exact .inr ⟨_, rfl, .feeSent, rfl⟩
  | sweepPost payment sweep =>
      simp only [PayoutService.spend] at taken
      split at taken
      · cases taken
      · split at taken <;> cases taken <;> exact .inl rfl

theorem advance_uses {d : Deployment} {store after : Store} {reply : Reply} {stage : Stage}
    {progress : Progress}
    (taken : PayoutService.advance d store reply stage = some (after, progress))
    : UsesOwn d stage store.effects after.effects := by
  cases stage with
  | leased lease step => exact spend_uses taken
  | begin_ p now =>
      simp only [PayoutService.advance] at taken
      split at taken <;> cases taken
      exact .inl rfl
  | load p now =>
      simp only [PayoutService.advance] at taken
      split at taken <;> cases taken <;> exact .inl rfl
  | resumeSettle p txId fromAddress =>
      simp only [PayoutService.advance] at taken
      split at taken <;> cases taken <;> exact .inr ⟨_, rfl, .settled, rfl⟩
  | resumeMark p txId fromAddress => cases taken; exact .inl rfl
  | check p now requestedAt =>
      simp only [PayoutService.advance] at taken
      split at taken <;> cases taken <;> exact .inr ⟨_, rfl, .policyEvaluated rfl, rfl⟩
  | acquire p now asked =>
      simp only [PayoutService.advance] at taken
      split at taken <;> cases taken <;> exact .inl rfl

/-- A move has no effect, or one of the payout that its task runs. -/
theorem Task.Moves.uses {d : Deployment} {store after : Store} {task next : Task}
    {index : Nat} {event : Event} (moves : task.Moves d store index event after next)
    : after.effects = store.effects
      ∨ ∃ caller stage, task = .paying caller stage
          ∧ UsesOwn d stage store.effects after.effects := by
  have ofAdvance : ∀ {reply other}, task.advance d store reply = some (after, other)
      → after.effects = store.effects
        ∨ ∃ caller stage, task = .paying caller stage
            ∧ UsesOwn d stage store.effects after.effects := by
    intro reply other done
    rcases Task.advance_cases done with ⟨caller, stage, progress, rfl, took, -⟩ | ⟨-, route⟩
    · exact .inr ⟨caller, stage, rfl, advance_uses took⟩
    · cases route <;> exact .inl rfl
  cases moves with
  | resumed done => exact ofAdvance done
  | rejected thrown => exact .inl rfl
  | lost done thrown => exact ofAdvance done
  | crashed => exact .inl rfl

-----------------------------------------------------------------------------
-- What a call knows of its row

/-- The parameters of a call that is about to read the row of its key and brings its own
terms.
-/
def Task.reading : Task → Option PayoutParams
  | .paying (.approval _) _ => none
  | .paying _ (.load p _) => some p
  | _ => none

/-- A task whose terms are its own and that has not come to read a row. -/
def Task.unread : Task → Bool
  | .claimKey _ => true
  | .paying (.approval _) _ => false
  | .paying _ (.begin_ _ _) => true
  | _ => false

/-- The key and the terms of a task that has read its intent. -/
def Task.known : Task → Option (String × Terms)
  | .recordApproval _ intent => some (intent.idempotencyKey, intent.terms)
  | .listApprovals intent => some (intent.idempotencyKey, intent.terms)
  | .paying (.approval _) stage => some (stage.params.idempotencyKey, stage.params.terms)
  | .paying _ (.begin_ _ _) => none
  | .paying _ (.load _ _) => none
  | .paying _ stage => some (stage.params.idempotencyKey, stage.params.terms)
  | _ => none

/-- The key of a task with the time-lock anchor it is about to apply. -/
def Task.anchor : Task → Option (String × Int)
  | .paying _ stage => stage.anchoredAt.map fun at_ => (stage.params.idempotencyKey, at_)
  | _ => none

/-- The row of a key carries these terms. -/
def PayoutJournal.Holds (rows : List PayoutIntent) (key : String) (terms : Terms) : Prop :=
  ∃ row, PayoutJournal.load rows key = some row ∧ row.terms = terms

/-- The row of a key was created at this instant. -/
def PayoutJournal.CreatedAt (rows : List PayoutIntent) (key : String) (at_ : Int) : Prop :=
  ∃ row, PayoutJournal.load rows key = some row ∧ row.createdAt = at_

section Rows

variable {rows later : List PayoutIntent} {id : String} {createdAt : Int}
  {intent : Option NewIntent} {key : String}

theorem PayoutJournal.Step.holds (step : PayoutJournal.Step rows id createdAt intent later)
    {terms : Terms} (held : PayoutJournal.Holds rows key terms)
    : PayoutJournal.Holds later key terms := by
  obtain ⟨row, found, same⟩ := held
  obtain ⟨next, kept, evolves⟩ := step.load found
  exact ⟨next, kept, evolves.terms.trans same⟩

theorem PayoutJournal.Step.keepsCreatedAt
    (step : PayoutJournal.Step rows id createdAt intent later) {at_ : Int}
    (held : PayoutJournal.CreatedAt rows key at_)
    : PayoutJournal.CreatedAt later key at_ := by
  obtain ⟨row, found, same⟩ := held
  obtain ⟨next, kept, evolves⟩ := step.load found
  exact ⟨next, kept, evolves.createdAt.trans same⟩

/-- A row of the table is the row of its key. -/
theorem PayoutJournal.holds_of_mem
    (distinct : (rows.map PayoutIntent.idempotencyKey).Nodup) {row : PayoutIntent}
    (member : row ∈ rows)
    : PayoutJournal.Holds rows row.idempotencyKey row.terms :=
  ⟨row, Table.lookup_of_mem distinct member, rfl⟩

end Rows

/-- A task is about what it knows or what it is reading, or has not come to read. -/
theorem Task.known_of_about {d : Deployment} {task : Task} {key : String} {terms : Terms}
    (about : task.about d = some (key, terms))
    : task.known = some (key, terms)
      ∨ (∃ p, task.reading = some p ∧ p.idempotencyKey = key ∧ p.terms = terms)
      ∨ task.unread = true := by
  -- A payout that brings its own terms is read at its second stage.
  have ofStage : ∀ {caller stage}, (∀ approvals, caller ≠ .approval approvals)
      → (Task.paying caller stage).about d = some (key, terms)
      → (Task.paying caller stage).known = some (key, terms)
        ∨ (∃ p, (Task.paying caller stage).reading = some p ∧ p.idempotencyKey = key
            ∧ p.terms = terms)
        ∨ (Task.paying caller stage).unread = true := by
    intro caller stage own about
    cases caller with
    | approval approvals => exact (own approvals rfl).elim
    | _ =>
        cases stage with
        | begin_ p now => exact .inr (.inr rfl)
        | load p now =>
            obtain ⟨under, same⟩ := Prod.mk.inj (Option.some.inj about)
            exact .inr (.inl ⟨p, rfl, under, same⟩)
        | _ => exact .inl about
  cases task with
  | claimKey request => exact .inr (.inr rfl)
  | recordApproval request intent => exact .inl about
  | listApprovals intent => exact .inl about
  | paying caller stage =>
      cases caller with
      | approval approvals => exact .inl about
      | direct => exact ofStage (by simp) about
      | withdrawal tenant name => exact ofStage (by simp) about
  | _ => cases about

theorem Task.about_of_known {d : Deployment} {task : Task} {key : String} {terms : Terms}
    (known : task.known = some (key, terms))
    : task.about d = some (key, terms) := by
  cases task with
  | recordApproval request intent => exact known
  | listApprovals intent => exact known
  | paying caller stage =>
      cases caller with
      | approval approvals => exact known
      | _ =>
          cases stage with
          | begin_ p now => cases known
          | load p now => cases known
          | _ => exact known
  | _ => cases known

theorem Task.known_of_hasRead (caller : Caller) {stage : Stage} (read : stage.hasRead = true)
    : (Task.paying caller stage).known
      = some (stage.params.idempotencyKey, stage.params.terms) := by
  cases stage with
  | begin_ p now => cases read
  | load p now => cases read
  | _ => cases caller <;> rfl

/-- What the caller makes of a finished payout knows no intent. -/
theorem Task.known_resumeCaller (d : Deployment) (outcome : Except AppError PayoutResult)
    (caller : Caller)
    : (Task.resumeCaller d outcome caller).known = none := by
  have idle := (resumeCaller_idle d outcome caller).1
  cases seen : (Task.resumeCaller d outcome caller).known with
  | none => rfl
  | some pair => simp [Task.about_of_known (d := d) seen] at idle

/-- A task that has not come to read a row knows none after its next move. -/
theorem Task.known_of_unread {d : Deployment} {store after : Store} {task next : Task}
    {index : Nat} {event : Event} (unread : task.unread = true)
    (moves : task.Moves d store index event after next)
    : next.known = none := by
  cases task with
  | claimKey request =>
      cases moves with
      | resumed done =>
          simp only [Task.advance] at done
          generalize IdempotencyStore.claim store.idempotency request.tenant.text request.key
            = claimed at done
          obtain ⟨rows, reserved⟩ := claimed
          cases reserved <;> cases done <;> rfl
      | rejected thrown => cases thrown; rfl
      | lost done thrown => cases thrown; rfl
      | crashed => rfl
  | paying caller stage =>
      cases stage with
      | begin_ p now =>
          cases moves with
          | resumed done =>
              simp only [Task.advance, PayoutService.advance, Option.map_eq_some_iff,
                Prod.mk.injEq] at done
              obtain ⟨⟨store', progress⟩, done, -, rfl⟩ := done
              split at done <;> cases done
              cases caller with
              | approval approvals => cases unread
              | _ => rfl
          | rejected thrown => cases thrown; exact Task.known_resumeCaller d _ caller
          | lost done thrown => cases thrown; exact Task.known_resumeCaller d _ caller
          | crashed => rfl
      | _ => cases caller <;> cases unread
  | _ => cases unread

/-- A row that answers a payout on its own. -/
def PayoutIntent.answers (row : PayoutIntent) : Bool :=
  row.status = .settled && (PayoutService.truthy row.txId).isSome

/-- A row that answers lets no payout go on. -/
theorem PayoutIntent.branch_of_answers {row : PayoutIntent} (answers : row.answers = true)
    (p : PayoutParams) (now : Int)
    : ∃ outcome, PayoutService.branch p now row = .finished outcome := by
  simp only [PayoutIntent.answers, Bool.and_eq_true, decide_eq_true_eq] at answers
  obtain ⟨settled, sent⟩ := answers
  obtain ⟨txId, same⟩ := Option.isSome_iff_exists.mp sent
  unfold PayoutService.branch
  rw [settled, same]
  exact ⟨_, rfl⟩

/-- The call that an event takes to the row of its key. -/
def System.reading (system : System) (event : Event) : Option PayoutParams :=
  match event with
  | .resume index _ => system.tasks[index]?.bind Task.reading
  | .lose index _ _ => system.tasks[index]?.bind Task.reading
  | _ => none

/-- A call that reads a row which does not answer it carries the terms of the row. -/
def System.RepeatsRow (system : System) (event : Event) : Prop :=
  ∀ p ∈ system.reading event,
    ∀ row ∈ PayoutJournal.load system.store.journal p.idempotencyKey,
      row.answers = true ∨ row.terms = p.terms

instance (system : System) (event : Event) : Decidable (system.RepeatsRow event) :=
  inferInstanceAs (Decidable (∀ p ∈ system.reading event,
    ∀ row ∈ PayoutJournal.load system.store.journal p.idempotencyKey,
      row.answers = true ∨ row.terms = p.terms))

/-- A call that reads a row and goes on carries the terms of the row. -/
theorem Task.holds_of_reading {d : Deployment} {system : System} {after : Store}
    {task next : Task} {p : PayoutParams} {index : Nat} {event : Event}
    (found : system.tasks[index]? = some task)
    (moves : task.Moves d system.store index event after next) (reading : task.reading = some p)
    (repeats : system.RepeatsRow event) (known : next.known ≠ none)
    : PayoutJournal.Holds after.journal p.idempotencyKey p.terms := by
  obtain ⟨caller, now, rfl⟩ : ∃ caller now, task = .paying caller (.load p now) := by
    cases task with
    | paying caller stage =>
        cases stage with
        | load q now =>
            cases caller with
            | approval approvals => cases reading
            | _ => cases reading; exact ⟨_, now, rfl⟩
        | _ => cases caller <;> cases reading
    | _ => cases reading
  cases moves with
  | @resumed reply after next done =>
      have reads : system.reading (.resume index reply) = some p := by
        simp [System.reading, found, reading]
      simp only [Task.advance, PayoutService.advance, Option.map_eq_some_iff,
        Prod.mk.injEq] at done
      obtain ⟨⟨store', progress⟩, done, rfl, rfl⟩ := done
      split at done
      · cases done
        exact (known (Task.known_resumeCaller d _ caller)).elim
      case h_2 row held =>
        obtain ⟨rfl, branched⟩ := Prod.mk.inj (Option.some.inj done)
        rcases repeats p reads row held with answers | same
        · obtain ⟨outcome, finished⟩ := PayoutIntent.branch_of_answers answers p now
          rw [← branched, finished] at known
          exact (known (Task.known_resumeCaller d _ caller)).elim
        · exact ⟨row, held, same⟩
  | rejected thrown =>
      cases thrown
      exact (known (Task.known_resumeCaller d _ caller)).elim
  | lost done thrown =>
      cases thrown
      exact (known (Task.known_resumeCaller d _ caller)).elim
  | crashed => exact (known rfl).elim

/-- The anchor of a policy check is the creation time of the row that was just read. -/
theorem advance_anchor {d : Deployment} {store after : Store} {reply : Reply}
    {stage next : Stage} {at_ : Int}
    (taken : PayoutService.advance d store reply stage = some (after, .awaiting next))
    (anchored : next.anchoredAt = some at_)
    : PayoutJournal.CreatedAt after.journal next.params.idempotencyKey at_ := by
  cases stage with
  | leased lease step =>
      rcases (spend_frame taken).stays with ⟨held, same⟩ | ⟨outcome, same⟩
      · obtain rfl := Progress.awaiting.inj same
        cases anchored
      · cases same
  | load p now =>
      simp only [PayoutService.advance] at taken
      split at taken
      · cases taken
      case h_2 intent found =>
        obtain ⟨rfl, branched⟩ := Prod.mk.inj (Option.some.inj taken)
        rcases PayoutService.branch_cases p now intent with ⟨_, same⟩ | ⟨_, _, same⟩ | same
        · rw [same] at branched
          cases branched
        · rw [same] at branched
          obtain rfl := Progress.awaiting.inj branched
          cases anchored
        · rw [same] at branched
          obtain rfl := Progress.awaiting.inj branched
          exact ⟨intent, found, Option.some.inj anchored⟩
  | begin_ p now =>
      simp only [PayoutService.advance] at taken
      split at taken <;> cases taken
      cases anchored
  | resumeSettle p txId fromAddress =>
      simp only [PayoutService.advance] at taken
      split at taken <;> cases taken
      cases anchored
  | resumeMark p txId fromAddress => cases taken
  | check p now requestedAt =>
      simp only [PayoutService.advance] at taken
      split at taken <;> cases taken
      cases anchored
  | acquire p now asked =>
      simp only [PayoutService.advance] at taken
      split at taken <;> cases taken
      cases anchored

theorem Task.anchor_of_idle {d : Deployment} {task : Task} (idle : task.about d = none)
    : task.anchor = none := by
  cases task with
  | paying caller stage => cases idle
  | _ => rfl

/-- A thrown await leads to no policy check. -/
theorem Task.throwAt_anchor {d : Deployment} {err : AppError} {task next : Task}
    (thrown : task.throwAt d err = some next)
    : next.anchor = none := by
  cases task with
  | paying caller stage =>
      cases thrown
      cases stage with
      | leased lease step =>
          cases step with
          | release outcome => exact Task.anchor_of_idle (resumeCaller_idle d _ caller).1
          | _ => rfl
      | _ => exact Task.anchor_of_idle (resumeCaller_idle d _ caller).1
  | finished response => cases thrown
  | crashed => cases thrown
  | _ => cases thrown; rfl

/-- A task that goes on to the policy check has just read its row. -/
theorem Task.Moves.createdAt {d : Deployment} {store after : Store} {task next : Task}
    {key : String} {at_ : Int} {index : Nat} {event : Event}
    (moves : task.Moves d store index event after next)
    (anchor : next.anchor = some (key, at_))
    : PayoutJournal.CreatedAt after.journal key at_ := by
  cases moves with
  | rejected thrown => simp [Task.throwAt_anchor thrown] at anchor
  | lost done thrown => simp [Task.throwAt_anchor thrown] at anchor
  | crashed => cases anchor
  | resumed done =>
      rcases Task.advance_cases done with ⟨caller, stage, progress, rfl, took, rfl⟩ | ⟨-, route⟩
      · cases progress with
        | finished outcome =>
            have idle := Task.anchor_of_idle (resumeCaller_idle d outcome caller).1
            simp only [Task.ofProgress, idle] at anchor
            cases anchor
        | awaiting stage =>
            obtain ⟨value, anchored, same⟩ := Option.map_eq_some_iff.mp anchor
            obtain ⟨rfl, rfl⟩ := Prod.mk.inj same
            exact advance_anchor took anchored
      · cases route with
        | starts => cases anchor
        | idle none =>
            cases next with
            | paying caller stage => exact absurd rfl (none caller stage)
            | _ => cases anchor

-----------------------------------------------------------------------------
-- What the journal vouches for

/-- A transfer of one leg of a payment of this amount. -/
def PayoutRequest.IsLegOf (amount : Int) (request : PayoutRequest) : Prop :=
  ∃ (payment next : Payment amount) (leg : GatheredLeg) (txId : String),
    payment.sendNext txId = some (leg, next)
      ∧ request.fromAddress = leg.address ∧ request.amountBaseUnits = leg.amountBaseUnits

/-- The effect uses these terms and no other time-lock anchor. -/
def Effect.Conforms (d : Deployment) (terms : Terms) (createdAt : Int) : Effect → Prop
  | .policyEvaluated _ ctx =>
      ctx.merchant = terms.merchant ∧ ctx.chain = terms.chain ∧ ctx.asset = terms.asset
        ∧ ctx.amountBaseUnits = terms.amountBaseUnits ∧ ctx.destination = terms.destination
        ∧ ctx.requestedAt = some createdAt
  | .locked _ input =>
      input.asset = d.casing.toUpperCase terms.asset ∧ input.amount = terms.amountBaseUnits
        ∧ input.merchantAvailable = merchantAvailable terms.tenant terms.merchant
        ∧ input.merchantPendingWithdrawal
          = merchantPendingWithdrawal terms.tenant terms.merchant
  | .sent _ request =>
      request.chain = terms.chain ∧ request.asset = terms.asset
        ∧ request.toAddress = terms.destination ∧ request.IsLegOf terms.amountBaseUnits
  | .settled _ input =>
      input.asset = d.casing.toUpperCase terms.asset ∧ input.amount = terms.amountBaseUnits
        ∧ input.merchantPendingWithdrawal
          = merchantPendingWithdrawal terms.tenant terms.merchant
        ∧ input.poolAddr = poolAddr terms.chain terms.merchant
  | .feeSent _ request => request.chain = terms.chain ∧ request.asset = terms.asset

/-- What a call does with its own parameters conforms to its own terms. -/
theorem Effect.Uses.conforms {d : Deployment} {p : PayoutParams} {anchor : Option Int}
    {effect : Effect} (uses : effect.Uses d p anchor) {createdAt : Int}
    (anchored : ∀ at_, anchor = some at_ → createdAt = at_)
    : effect.Conforms d p.terms createdAt := by
  cases uses with
  | policyEvaluated here => exact ⟨rfl, rfl, rfl, rfl, rfl, by rw [anchored _ here]; rfl⟩
  | locked => exact ⟨rfl, rfl, rfl, rfl⟩
  | @sent lease payment next leg txId own here =>
      subst own
      exact ⟨rfl, rfl, rfl, payment, next, leg, txId, here, rfl, rfl⟩
  | settled => exact ⟨rfl, rfl, rfl, rfl⟩
  | feeSent => exact ⟨rfl, rfl⟩

theorem Effect.Uses.key {d : Deployment} {p : PayoutParams} {anchor : Option Int}
    {effect : Effect} (uses : effect.Uses d p anchor)
    : effect.key = p.idempotencyKey := by
  cases uses <;> rfl

/-- The journal has one row for each key, and the tasks and the effects agree with it. -/
structure Vouched (d : Deployment) (system : System) : Prop where
  distinct : (system.store.journal.map PayoutIntent.idempotencyKey).Nodup
  known : ∀ task ∈ system.tasks, ∀ key terms, task.known = some (key, terms)
    → PayoutJournal.Holds system.store.journal key terms
  anchored : ∀ task ∈ system.tasks, ∀ key at_, task.anchor = some (key, at_)
    → PayoutJournal.CreatedAt system.store.journal key at_
  effects : ∀ effect ∈ system.store.effects, ∃ row,
    PayoutJournal.load system.store.journal effect.key = some row
      ∧ effect.Conforms d row.terms row.createdAt

theorem Vouched.initial {d : Deployment} {store : Store} (unsent : store.effects = [])
    (distinct : (store.journal.map PayoutIntent.idempotencyKey).Nodup)
    : Vouched d { store, tasks := [] } where
  distinct := distinct
  known := by simp
  anchored := by simp
  effects := by simp [unsent]

theorem Task.known_ofRequest (now : Int) (request : Request)
    : (Task.ofRequest now request).known = none ∧ (Task.ofRequest now request).anchor = none := by
  cases request <;> exact ⟨rfl, rfl⟩

section Step

variable {d : Deployment} {system next : System} {event : Event} {index : Nat}
  {old new : Task}

/-- A task keeps knowing the row of its key. -/
private theorem Vouched.knows (vouched : Vouched d system)
    (repeats : system.RepeatsRow event)
    (acting : Acts system.tasks next.tasks index old new)
    (moves : old.Moves d system.store index event next.store new)
    {key : String} {terms : Terms} (known : new.known = some (key, terms))
    : PayoutJournal.Holds next.store.journal key terms := by
  have move := moves.journal
  obtain ⟨id, step⟩ := move.step
  have about := Task.about_of_known (d := d) known
  rcases move.about with idle | same | ⟨row, member, same⟩
  · simp [idle] at about
  · rcases Task.known_of_about (same ▸ about) with knew | ⟨p, reading, rfl, rfl⟩ | unread
    · exact step.holds (vouched.known old acting.mem_old key terms knew)
    · exact Task.holds_of_reading acting.found moves reading repeats (by simp [known])
    · simp [Task.known_of_unread unread moves] at known
  · obtain ⟨rfl, rfl⟩ := Prod.mk.inj (Option.some.inj (same.symm.trans about))
    exact step.holds (PayoutJournal.holds_of_mem vouched.distinct member)

/-- An effect of a move conforms to the row of its key. -/
private theorem Vouched.vouches (vouched : Vouched d system)
    (acting : Acts system.tasks next.tasks index old new)
    (moves : old.Moves d system.store index event next.store new)
    {effect : Effect} (member : effect ∈ next.store.effects)
    : ∃ row, PayoutJournal.load system.store.journal effect.key = some row
        ∧ effect.Conforms d row.terms row.createdAt := by
  rcases moves.uses with same | ⟨caller, stage, rfl, same | ⟨own, logged, uses, read⟩⟩
  · exact vouched.effects effect (same ▸ member)
  · exact vouched.effects effect (same ▸ member)
  · rw [logged] at member
    rcases List.mem_append.mp member with earlier | fresh
    · exact vouched.effects effect earlier
    · obtain rfl := List.mem_singleton.mp fresh
      have known := Task.known_of_hasRead caller read
      obtain ⟨row, found, same⟩ := vouched.known _ acting.mem_old _ _ known
      refine ⟨row, uses.key ▸ found, same ▸ uses.conforms ?_⟩
      intro at_ anchored
      obtain ⟨dated, foundToo, created⟩ := vouched.anchored _ acting.mem_old
        stage.params.idempotencyKey at_ (by simp [Task.anchor, anchored])
      obtain rfl : dated = row := Option.some.inj (foundToo.symm.trans found)
      exact created

/-- One event keeps what the journal vouches for, where a call that finds a row for its key
repeats the terms of the row.
-/
theorem Vouched.step (vouched : Vouched d system) (repeats : system.RepeatsRow event)
    (taken : system.step d event = some next)
    : Vouched d next := by
  rcases System.step_cases taken with ⟨elapsed, -, store, tasks⟩ | ⟨request, -, store, tasks⟩
    | ⟨ledger, store, tasks⟩ | ⟨index, old, new, acting, moves⟩
  · constructor <;> rw [store]
    · exact vouched.distinct
    · exact tasks ▸ vouched.known
    · exact tasks ▸ vouched.anchored
    · exact vouched.effects
  · obtain ⟨knowsNone, noAnchor⟩ := Task.known_ofRequest system.store.clock request
    constructor <;> rw [store]
    · exact vouched.distinct
    · rw [tasks]
      intro task member key terms known
      rcases List.mem_append.mp member with before | arrived
      · exact vouched.known task before key terms known
      · rw [List.mem_singleton.mp arrived, knowsNone] at known
        cases known
    · rw [tasks]
      intro task member key at_ anchor
      rcases List.mem_append.mp member with before | arrived
      · exact vouched.anchored task before key at_ anchor
      · rw [List.mem_singleton.mp arrived, noAnchor] at anchor
        cases anchor
    · exact vouched.effects
  · constructor <;> rw [store]
    · exact vouched.distinct
    · exact tasks ▸ vouched.known
    · exact tasks ▸ vouched.anchored
    · exact vouched.effects
  · obtain ⟨id, step⟩ := moves.journal.step
    refine ⟨step.distinct vouched.distinct, ?_, ?_, ?_⟩
    · intro task member key terms known
      rcases acting.mem_cases member with rfl | before
      · exact vouched.knows repeats acting moves known
      · exact step.holds (vouched.known task before key terms known)
    · intro task member key at_ anchor
      rcases acting.mem_cases member with rfl | before
      · exact moves.createdAt anchor
      · exact step.keepsCreatedAt (vouched.anchored task before key at_ anchor)
    · intro effect member
      obtain ⟨row, found, conforms⟩ := vouched.vouches acting moves member
      obtain ⟨later, kept, evolves⟩ := step.load found
      exact ⟨later, kept, evolves.terms ▸ evolves.createdAt ▸ conforms⟩

end Step

/-- Every policy evaluation, lock, transfer and settlement under a key uses the terms and the
creation time of the journaled row, in every run where a call that reads a row which does not
answer it carries the terms of the row. An approval always does.
-/
theorem payouts_use_journaled_terms (d : Deployment) (store : Store) (system : System)
    (unsent : store.effects = [])
    (distinct : (store.journal.map PayoutIntent.idempotencyKey).Nodup)
    (reached : Reaches (System.step d) System.RepeatsRow { store, tasks := [] } system)
    : ∀ effect ∈ system.store.effects, ∃ row,
        PayoutJournal.load system.store.journal effect.key = some row
          ∧ effect.Conforms d row.terms row.createdAt := by
  have vouched : Vouched d system := by
    refine reached.invariant ?_ fun vouched repeats taken => vouched.step repeats taken
    exact .initial unsent distinct
  exact vouched.effects

-----------------------------------------------------------------------------
-- A key that is used again with other terms

/-- A call that arrives through one of the routes. -/
def Event.routed : Event → Bool
  | .call (.payout _) => false
  | _ => true

/-- The plain deployment with a time-lock on payouts over ten units. -/
def timeLockedDeployment : Deployment :=
  { plainDeployment with
      policy :=
        { plainDeployment.policy with
            allowlist := ["dest", "other"]
            timeLock := some { thresholdBaseUnits := 10, delayMs := 1000 } } }

def sampleWithdrawal (amount : Int) (destination : String) : WithdrawalRequest :=
  { tenant := sampleTenant, keyId := "key", merchant := sampleMerchant, chain := "tron"
    asset := "USDT", amount, destination, key := "w" }

/-- A credit of 200 to the merchant of the sample withdrawals. -/
def withdrawalDeposit : JournalEntry :=
  { sampleDeposit with
      postings :=
        [ ⟨poolAddr "TRON" "bb", "USDT", 200, .debit⟩,
          ⟨merchantAvailable "aa" "bb", "USDT", 200, .credit⟩ ] }

/-- Whether a transfer goes anywhere but to the destination of the row. -/
def Effect.misdirects (row : PayoutIntent) : Effect → Bool
  | .sent _ request => request.toAddress ≠ row.destination
  | _ => false

/-- A withdrawal of 100 to `dest` is journaled and held by the time-lock, and its idempotency
key is released. After the delay the key is used for 150 to `other`, which is sent at once.
-/
theorem payouts_use_other_terms
    : ∃ system,
        Reaches (System.step timeLockedDeployment) (fun _ event => event.routed = true)
          { store := emptyStore, tasks := [] } system
        ∧ ¬ ∀ effect ∈ system.store.effects, ∃ row,
            PayoutJournal.load system.store.journal effect.key = some row
              ∧ effect.Conforms timeLockedDeployment row.terms row.createdAt := by
  have misdirected : ∃ system,
      Reaches (System.step timeLockedDeployment) (fun _ event => event.routed = true)
        { store := emptyStore, tasks := [] } system
      ∧ ∃ effect ∈ system.store.effects,
          (PayoutJournal.load system.store.journal effect.key).any
            (fun row => effect.misdirects row) = true :=
    Reaches.exists_of_exec
      ([.post withdrawalDeposit, .call (.withdraw (sampleWithdrawal 100 "dest"))]
        ++ completes 0 6 (sampleReply "a" [])
        ++ [.tick 1000, .call (.withdraw (sampleWithdrawal 150 "other"))]
        ++ completes 1 10 (sampleReply "b" [150]))
      (by decide +kernel)
  obtain ⟨system, reached, effect, member, elsewhere⟩ := misdirected
  refine ⟨system, reached, fun all => ?_⟩
  obtain ⟨row, found, conforms⟩ := all effect member
  rw [found] at elsewhere
  cases effect with
  | sent key request =>
      have same : request.toAddress = row.destination := conforms.2.2.1
      simp [Effect.misdirects, same] at elsewhere
  | _ => cases elsewhere

/-- A withdrawal that is held and asked for again with the same terms is paid with them. -/
theorem payouts_use_journaled_terms_repeated
    : ∃ system,
        Reaches (System.step timeLockedDeployment) System.RepeatsRow
          { store := emptyStore, tasks := [] } system
        ∧ system.store.effects.length = 5
        ∧ ∀ effect ∈ system.store.effects, ∃ row,
            PayoutJournal.load system.store.journal effect.key = some row
              ∧ effect.Conforms timeLockedDeployment row.terms row.createdAt := by
  have repeated : ∃ system,
      Reaches (System.step timeLockedDeployment) System.RepeatsRow
        { store := emptyStore, tasks := [] } system
      ∧ system.store.effects.length = 5 :=
    Reaches.exists_of_exec
      ([.post withdrawalDeposit, .call (.withdraw (sampleWithdrawal 100 "dest"))]
        ++ completes 0 6 (sampleReply "a" [])
        ++ [.tick 1000, .call (.withdraw (sampleWithdrawal 100 "dest"))]
        ++ completes 1 13 (sampleReply "b" [150]))
      (by decide +kernel)
  obtain ⟨system, reached, count⟩ := repeated
  refine ⟨system, reached, count, ?_⟩
  exact payouts_use_journaled_terms timeLockedDeployment emptyStore system rfl
    (by simp [emptyStore]) reached

end Cixtech.Payout
