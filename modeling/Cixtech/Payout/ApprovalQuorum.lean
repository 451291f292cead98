import Cixtech.Payout.JournaledTerms

/-! The approval quorum. A payout over the threshold passes the policy only with approvers
that its call carries; only an approval call carries any, read from the rows that approval
calls wrote, and it carries the terms of the row they approved.
-/

namespace Cixtech.Payout

open Cixtech.Common Cixtech.Foundation Cixtech.Foundation.Processes

/-- A system with the calls that have arrived. -/
structure Observed where
  system : System
  calls : List Request

namespace Observed

def step (d : Deployment) (observed : Observed) (event : Event) : Option Observed :=
  (observed.system.step d event).map fun system =>
    { system
      calls :=
        match event with
        | .call request => observed.calls ++ [request]
        | _ => observed.calls }

end Observed

/-- Someone who is not the requester of the row called `approve()` for it. -/
def Approves (calls : List Request) (row : PayoutIntent) (approver : String) : Prop :=
  approver ≠ ""
  ∧ row.requestedBy ≠ some approver
  ∧ ∃ request : ApprovalRequest,
      Request.approve request ∈ calls
      ∧ request.approver = approver
      ∧ request.withdrawalId = row.id
      ∧ request.tenant.text = row.tenant

/-- An approval stands while the row evolves and more calls arrive. -/
theorem Approves.mono {calls more : List Request} {row later : PayoutIntent} {approver : String}
    (approves : Approves calls row approver) (evolves : row.Evolves later)
    (grown : ∀ request ∈ calls, request ∈ more)
    : Approves more later approver := by
  obtain ⟨named, other, request, called, own, id, tenant⟩ := approves
  have sameTenant : later.tenant = row.tenant := congrArg Terms.tenant evolves.terms
  exact ⟨named, evolves.requestedBy ▸ other, request, grown _ called, own,
    id.trans evolves.id.symm, tenant.trans sameTenant.symm⟩

/-- The row under the key is a later state of an intent that was read. -/
def PayoutJournal.Knows (rows : List PayoutIntent) (intent : PayoutIntent) : Prop :=
  ∃ row, PayoutJournal.load rows intent.idempotencyKey = some row ∧ intent.Evolves row

/-- Whoever the parameters name as an approver approved the row of their key, which has their
terms.
-/
def PayoutParams.Witnessed (rows : List PayoutIntent) (calls : List Request) (p : PayoutParams)
    : Prop :=
  ∀ approver ∈ p.approvals.getD [], ∃ row,
    PayoutJournal.load rows p.idempotencyKey = some row
    ∧ row.terms = p.terms
    ∧ Approves calls row approver

/-- Over the threshold the parameters name enough approvers. -/
def PayoutParams.HasQuorum (d : Deployment) (p : PayoutParams) : Prop :=
  ∀ policy, d.policy.approval = some policy
    → policy.thresholdBaseUnits < p.amountBaseUnits
    → policy.required ≤ (PolicyEngine.approvers (PayoutService.context p 0)).length

/-- A stage behind the policy. -/
def Stage.cleared : Stage → Bool
  | .acquire _ _ _ => true
  | .leased _ _ => true
  | _ => false

/-- What a task carries of approvals is witnessed by the calls. -/
def Task.Witnessed (d : Deployment) (rows : List PayoutIntent) (calls : List Request)
    : Task → Prop
  | .loadIntent request => Request.approve request ∈ calls
  | .recordApproval request intent =>
      Request.approve request ∈ calls
      ∧ request.withdrawalId = intent.id
      ∧ request.tenant.text = intent.tenant
      ∧ PayoutJournal.Knows rows intent
  | .listApprovals intent => PayoutJournal.Knows rows intent
  | .paying _ stage =>
      stage.params.Witnessed rows calls ∧ (stage.cleared = true → stage.params.HasQuorum d)
  | _ => True

section Mono

variable {d : Deployment} {rows later : List PayoutIntent} {calls more : List Request}

/-- Rows that stay under their keys and only evolve. -/
def PayoutJournal.Extends (rows later : List PayoutIntent) : Prop :=
  ∀ key row, PayoutJournal.load rows key = some row
    → ∃ next, PayoutJournal.load later key = some next ∧ row.Evolves next

theorem PayoutIntent.Evolves.trans {row later last : PayoutIntent}
    (first : row.Evolves later) (second : later.Evolves last)
    : row.Evolves last :=
  ⟨second.id.trans first.id, second.key.trans first.key, second.terms.trans first.terms,
    second.requestedBy.trans first.requestedBy, second.createdAt.trans first.createdAt,
    fun sent => second.txId (first.txId sent)⟩

theorem PayoutJournal.Knows.mono {intent : PayoutIntent} (knows : PayoutJournal.Knows rows intent)
    (extended : PayoutJournal.Extends rows later)
    : PayoutJournal.Knows later intent := by
  obtain ⟨row, found, evolves⟩ := knows
  obtain ⟨next, there, onward⟩ := extended _ row found
  exact ⟨next, there, evolves.trans onward⟩

theorem PayoutParams.Witnessed.mono {p : PayoutParams} (witnessed : p.Witnessed rows calls)
    (extended : PayoutJournal.Extends rows later)
    (grown : ∀ request ∈ calls, request ∈ more)
    : p.Witnessed later more := by
  intro approver named
  obtain ⟨row, found, terms, approves⟩ := witnessed approver named
  obtain ⟨next, there, evolves⟩ := extended _ row found
  exact ⟨next, there, evolves.terms.trans terms, approves.mono evolves grown⟩

theorem Task.Witnessed.mono {task : Task} (witnessed : task.Witnessed d rows calls)
    (extended : PayoutJournal.Extends rows later)
    (grown : ∀ request ∈ calls, request ∈ more)
    : task.Witnessed d later more := by
  cases task with
  | loadIntent request => exact grown _ witnessed
  | recordApproval request intent =>
      obtain ⟨called, id, tenant, knows⟩ := witnessed
      exact ⟨grown _ called, id, tenant, knows.mono extended⟩
  | listApprovals intent => exact PayoutJournal.Knows.mono witnessed extended
  | paying caller stage => exact ⟨witnessed.1.mono extended grown, witnessed.2⟩
  | _ => trivial

end Mono

-----------------------------------------------------------------------------
-- The policy and the stages behind it

/-- What the policy does not refuse has its approvers. -/
theorem hasQuorum_of_allowed {d : Deployment} {answers : PolicyAnswers}
    {log : List PayoutLogRow} {p : PayoutParams} {requestedAt now : Int}
    (allowed : PolicyEngine.refusal (PayoutService.context p requestedAt)
        (PolicyEngine.evaluate d.policy answers log (PayoutService.context p requestedAt) now).1
      = none)
    : p.HasQuorum d := by
  intro policy configured exceeds
  by_contra short
  have few : (PolicyEngine.approvers (PayoutService.context p requestedAt)).length
      < policy.required :=
    Nat.lt_of_not_le short
  have above : (PayoutService.context p requestedAt).amountBaseUnits > policy.thresholdBaseUnits :=
    exceeds
  unfold PolicyEngine.evaluate at allowed
  cases decision : PolicyEngine.gates d.policy answers (PayoutService.context p requestedAt) now with
  | some refused =>
      simp only [decision] at allowed
      cases refused with
      | allow =>
          simp only [PolicyEngine.gates, configured, Option.bind_some, above, few, and_self,
            if_true, Option.some_or] at decision
          repeat' (split at decision; · cases decision)
          cases decision
      | _ => cases allowed
  | none =>
      simp only [PolicyEngine.gates, configured, Option.bind_some, above, few, and_self,
        if_true, Option.some_or] at decision
      repeat' (split at decision; · cases decision)
      cases decision

variable {d : Deployment} {store after : Store} {reply : Reply}

/-- A call that gets behind the policy has its approvers. -/
theorem advance_cleared {stage next : Stage}
    (taken : PayoutService.advance d store reply stage = some (after, .awaiting next))
    (cleared : next.cleared = true)
    : stage.cleared = true ∨ stage.params.HasQuorum d := by
  cases stage with
  | acquire p now asked => exact .inl rfl
  | leased lease step => exact .inl rfl
  | check p now requestedAt =>
      simp only [PayoutService.advance] at taken
      split at taken
      · cases taken
      case h_2 allowed => exact .inr (hasQuorum_of_allowed allowed)
  | begin_ p now =>
      simp only [PayoutService.advance] at taken
      split at taken <;> cases taken
      cases cleared
  | load p now =>
      simp only [PayoutService.advance] at taken
      split at taken
      · cases taken
      case h_2 intent found =>
        rcases PayoutService.branch_cases p now intent with ⟨_, same⟩ | ⟨_, _, same⟩ | same <;>
          rw [same] at taken <;> cases taken <;> cases cleared
  | resumeSettle p txId fromAddress =>
      simp only [PayoutService.advance] at taken
      split at taken <;> cases taken
      cases cleared
  | resumeMark p txId fromAddress => cases taken

theorem advance_approvals {stage : Stage} {progress : Progress}
    (taken : PayoutService.advance d store reply stage = some (after, progress))
    : after.approvals = store.approvals := by
  cases stage with
  | leased lease step => exact (spend_frame taken).approvals
  | resumeMark p txId fromAddress => cases taken; rfl
  | _ =>
      simp only [PayoutService.advance] at taken
      split at taken <;> cases taken <;> rfl

-----------------------------------------------------------------------------
-- The tasks

/-- Every recorded approval was called for. -/
def ApprovalsWitnessed (rows : List PayoutIntent) (approvals : List ApprovalRow)
    (calls : List Request) : Prop :=
  ∀ approval ∈ approvals, ∃ row,
    PayoutJournal.load rows approval.intentKey = some row
    ∧ Approves calls row approval.approver

theorem ApprovalsWitnessed.mono {rows later : List PayoutIntent} {approvals : List ApprovalRow}
    {calls more : List Request} (witnessed : ApprovalsWitnessed rows approvals calls)
    (extended : PayoutJournal.Extends rows later)
    (grown : ∀ request ∈ calls, request ∈ more)
    : ApprovalsWitnessed later approvals more := by
  intro approval member
  obtain ⟨row, found, approves⟩ := witnessed approval member
  obtain ⟨next, there, evolves⟩ := extended _ row found
  exact ⟨next, there, approves.mono evolves grown⟩

theorem PayoutJournal.Extends.refl (rows : List PayoutIntent) : PayoutJournal.Extends rows rows :=
  fun _ row found => ⟨row, found, .refl row⟩

theorem mem_approversFor {rows : List ApprovalRow} {intentKey approver : String}
    (listed : approver ∈ ApprovalStore.approversFor rows intentKey)
    : ∃ approval ∈ rows, approval.intentKey = intentKey ∧ approval.approver = approver := by
  obtain ⟨approval, member, own⟩ := List.mem_map.mp listed
  obtain ⟨inRows, under⟩ := List.mem_filter.mp ((List.mem_insertionSort _).mp member)
  exact ⟨approval, inRows, of_decide_eq_true under, own⟩

/-- What a caller does with an outcome carries no approvals. -/
theorem witnessed_resumeCaller (rows : List PayoutIntent) (calls : List Request)
    (outcome : Except AppError PayoutResult) (caller : Caller)
    : (Task.resumeCaller d outcome caller).Witnessed d rows calls := by
  rcases Task.resumeCaller_cases d outcome caller with
    ⟨-, answer, same⟩ | ⟨tenant, key, -, ⟨result, same⟩ | ⟨err, same⟩⟩
  all_goals
    rw [same]
    trivial

/-- An approval that the store takes is by someone named who is not the requester. -/
theorem approve_eq_ok {rows approvals : List ApprovalRow} {tenant intentKey approver : String}
    {requestedBy : Option String} {at_ : Int}
    (taken : ApprovalStore.approve rows tenant intentKey approver requestedBy at_ = .ok approvals)
    : approver ≠ ""
      ∧ requestedBy ≠ some approver
      ∧ ∀ approval ∈ approvals, approval ∈ rows
          ∨ approval = { intentKey, approver, tenant, at_ } := by
  unfold ApprovalStore.approve at taken
  split at taken
  · cases taken
  case isFalse named =>
    split at taken
    · cases taken
    case isFalse other =>
      obtain rfl := Except.ok.inj taken
      refine ⟨named, ?_, ?_⟩
      · rintro rfl
        exact other (by rw [PayoutService.truthy, if_neg named])
      · intro approval member
        unfold Table.insertIgnore at member
        split at member
        · exact .inl member
        · exact (List.mem_append.mp member).imp_right List.mem_singleton.mp

/-- A completed await keeps the approvals and the tasks witnessed. -/
theorem Task.advance_witnessed {task next : Task} {calls : List Request}
    (distinct : (store.journal.map PayoutIntent.idempotencyKey).Nodup)
    (approvals : ApprovalsWitnessed store.journal store.approvals calls)
    (witnessed : task.Witnessed d store.journal calls)
    (taken : task.advance d store reply = some (after, next))
    : ApprovalsWitnessed after.journal after.approvals calls
      ∧ next.Witnessed d after.journal calls := by
  cases task with
  | paying caller stage =>
      obtain ⟨id, moved⟩ := (Task.advance_journal taken).step
      have extended : PayoutJournal.Extends store.journal after.journal :=
        fun _ _ found => moved.load found
      simp only [Task.advance, Option.map_eq_some_iff, Prod.mk.injEq] at taken
      obtain ⟨⟨store', progress⟩, done, rfl, rfl⟩ := taken
      refine ⟨?_, ?_⟩
      · rw [advance_approvals done]
        exact approvals.mono extended fun _ called => called
      · cases progress with
        | finished outcome => exact witnessed_resumeCaller _ _ outcome caller
        | awaiting onward =>
            have params := (Payout.advance_journal done).params onward rfl
            refine ⟨params ▸ witnessed.1.mono extended fun _ called => called, ?_⟩
            intro cleared
            rw [params]
            exact (advance_cleared done cleared).elim witnessed.2 fun quorum => quorum
  | claimKey request =>
      simp only [Task.advance] at taken
      generalize IdempotencyStore.claim store.idempotency request.tenant.text request.key
        = claimed at taken
      obtain ⟨rows, reserved⟩ := claimed
      cases reserved with
      | false => cases taken; exact ⟨approvals, trivial⟩
      | true =>
          cases taken
          exact ⟨approvals, fun approver named => (List.not_mem_nil named).elim,
            fun cleared => absurd cleared Bool.false_ne_true⟩
  | loadRecord request =>
      simp only [Task.advance] at taken
      split at taken <;> cases taken <;> exact ⟨approvals, trivial⟩
  | complete tenant key result => cases taken; exact ⟨approvals, trivial⟩
  | releaseKey tenant key err => cases taken; exact ⟨approvals, trivial⟩
  | findIntent tenant key err => cases taken; exact ⟨approvals, trivial⟩
  | loadIntent request =>
      simp only [Task.advance] at taken
      split at taken <;> cases taken
      · exact ⟨approvals, trivial⟩
      case h_2 intent found =>
        refine ⟨approvals, ?_⟩
        split
        · trivial
        · have member := List.mem_of_find?_eq_some found
          have matched := List.find?_some found
          simp only [decide_eq_true_eq] at matched
          exact ⟨witnessed, matched.1.symm, matched.2.symm, intent,
            Table.lookup_of_mem distinct member, .refl intent⟩
  | listSettled intent => cases taken; exact ⟨approvals, trivial⟩
  | recordApproval request intent =>
      obtain ⟨called, own, tenant, knows⟩ := witnessed
      simp only [Task.advance] at taken
      split at taken <;> cases taken
      · exact ⟨approvals, trivial⟩
      case h_2 recorded taken =>
        obtain ⟨named, other, grown⟩ := approve_eq_ok taken
        refine ⟨?_, knows⟩
        intro approval member
        rcases grown approval member with before | rfl
        · exact approvals approval before
        · obtain ⟨row, found, evolves⟩ := knows
          have approves : Approves calls intent request.approver :=
            ⟨named, other, request, called, rfl, own, tenant⟩
          exact ⟨row, found, approves.mono evolves fun _ called => called⟩
  | listApprovals intent =>
      cases taken
      refine ⟨approvals, ?_, fun cleared => absurd cleared Bool.false_ne_true⟩
      intro approver named
      obtain ⟨approval, member, under, rfl⟩ := mem_approversFor named
      obtain ⟨row, found, approves⟩ := approvals approval member
      obtain ⟨known, there, evolves⟩ := witnessed
      obtain rfl : row = known := Option.some.inj ((under ▸ found).symm.trans there)
      exact ⟨row, there, evolves.terms, approves⟩
  | finished response => cases taken
  | crashed => cases taken

/-- A thrown await leaves a task with the approvals it had, or with none. -/
theorem Task.throwAt_witnessed {rows : List PayoutIntent} {calls : List Request}
    {err : AppError} {task next : Task} (witnessed : task.Witnessed d rows calls)
    (thrown : task.throwAt d err = some next)
    : next.Witnessed d rows calls := by
  cases task with
  | paying caller stage =>
      cases thrown
      cases stage with
      | leased lease step =>
          cases step with
          | release outcome => exact witnessed_resumeCaller _ _ _ caller
          | _ => exact witnessed
      | _ => exact witnessed_resumeCaller _ _ _ caller
  | finished response => cases thrown
  | crashed => cases thrown
  | _ => cases thrown; trivial

/-- The journal has one row for each key, and approvals and tasks are witnessed. -/
structure Quorate (d : Deployment) (observed : Observed) : Prop where
  distinct : (observed.system.store.journal.map PayoutIntent.idempotencyKey).Nodup
  approvals : ApprovalsWitnessed observed.system.store.journal observed.system.store.approvals
    observed.calls
  tasks : ∀ task ∈ observed.system.tasks,
    task.Witnessed d observed.system.store.journal observed.calls

theorem Quorate.initial {store : Store} (none : store.approvals = [])
    (distinct : (store.journal.map PayoutIntent.idempotencyKey).Nodup)
    : Quorate d { system := { store, tasks := [] }, calls := [] } :=
  ⟨distinct, by simp [ApprovalsWitnessed, none], by simp⟩

/-- Every event but a direct payout keeps them witnessed. -/
theorem Quorate.step {observed next : Observed} {event : Event} (quorate : Quorate d observed)
    (routed : event.routed = true) (taken : observed.step d event = some next)
    : Quorate d next := by
  obtain ⟨system, moved, rfl⟩ := Option.map_eq_some_iff.mp taken
  -- A move of one task, from what it does to the approvals and to the task.
  have acted : ∀ {index : Nat} {old new : Task},
      Acts observed.system.tasks system.tasks index old new
      → old.Moves d observed.system.store index event system.store new
      → ApprovalsWitnessed system.store.journal system.store.approvals observed.calls
          ∧ new.Witnessed d system.store.journal observed.calls
      → Quorate d { system, calls := observed.calls } := by
    rintro index old new acting moves ⟨approvals, own⟩
    obtain ⟨id, step⟩ := moves.journal.step
    refine ⟨step.distinct quorate.distinct, approvals, ?_⟩
    intro task member
    rcases acting.mem_cases member with rfl | before
    · exact own
    · exact (quorate.tasks task before).mono (fun _ _ found => step.load found)
        fun _ called => called
  cases event with
  | tick elapsed =>
      cases moved
      exact ⟨quorate.distinct, quorate.approvals, quorate.tasks⟩
  | post entry =>
      simp only [System.step] at moved
      split at moved <;> cases moved
      exact ⟨quorate.distinct, quorate.approvals, quorate.tasks⟩
  | call request =>
      cases moved
      have grown : ∀ earlier ∈ observed.calls, earlier ∈ observed.calls ++ [request] :=
        fun _ called => List.mem_append_left _ called
      refine ⟨quorate.distinct, quorate.approvals.mono (.refl _) grown, ?_⟩
      intro task member
      rcases List.mem_append.mp member with before | arrived
      · exact (quorate.tasks task before).mono (.refl _) grown
      · rw [List.mem_singleton.mp arrived]
        cases request with
        | payout p => cases routed
        | withdraw request => trivial
        | approve request => exact List.mem_append_right _ List.mem_cons_self
  | resume index reply =>
      simp only [System.step, bind, Option.bind_eq_some_iff, pure, Option.some.injEq] at moved
      obtain ⟨old, found, ⟨store, new⟩, done, rfl⟩ := moved
      have member : old ∈ observed.system.tasks := List.mem_of_getElem? found
      exact acted ⟨found, rfl⟩ (.resumed done)
        (Task.advance_witnessed quorate.distinct quorate.approvals (quorate.tasks old member) done)
  | reject index err =>
      simp only [System.step, bind, Option.bind_eq_some_iff, pure, Option.some.injEq] at moved
      obtain ⟨old, found, new, thrown, rfl⟩ := moved
      have member : old ∈ observed.system.tasks := List.mem_of_getElem? found
      exact acted ⟨found, rfl⟩ (.rejected thrown)
        ⟨quorate.approvals, Task.throwAt_witnessed (quorate.tasks old member) thrown⟩
  | lose index reply err =>
      simp only [System.step, bind, Option.bind_eq_some_iff, pure, Option.some.injEq] at moved
      obtain ⟨old, found, ⟨store, other⟩, done, new, thrown, rfl⟩ := moved
      have member : old ∈ observed.system.tasks := List.mem_of_getElem? found
      have witnessed := quorate.tasks old member
      obtain ⟨id, step⟩ := (Task.advance_journal done).step
      refine acted ⟨found, rfl⟩ (.lost done thrown)
        ⟨(Task.advance_witnessed quorate.distinct quorate.approvals witnessed done).1, ?_⟩
      exact (Task.throwAt_witnessed witnessed thrown).mono (fun _ _ found => step.load found)
        fun _ called => called
  | crash index =>
      simp only [System.step] at moved
      split at moved
      case isTrue inRange =>
        cases moved
        exact acted ⟨List.getElem?_eq_getElem inRange, rfl⟩ .crashed ⟨quorate.approvals, trivial⟩
      case isFalse => cases moved

-----------------------------------------------------------------------------
-- The transfers

/-- The first leg to send is a leg of its payment. -/
theorem Payment.isLegOf_of_head {amount : Int} (payment : Payment amount)
    {leg : Attribution.GatheredLeg} {request : PayoutRequest}
    (first : payment.todo.head? = some leg) (source : request.fromAddress = leg.address)
    (sum : request.amountBaseUnits = leg.amountBaseUnits)
    : request.IsLegOf amount := by
  cases sent : payment.sendNext "" with
  | none =>
      unfold Payment.sendNext at sent
      split at sent
      case h_1 empty => simp [empty] at first
      case h_2 => cases sent
  | some pair =>
      obtain ⟨next, rest⟩ := pair
      obtain ⟨-, -, shape⟩ := Payment.sendNext_spec sent
      obtain rfl : next = leg := by simpa [shape] using first
      exact ⟨payment, rest, next, "", sent, source, sum⟩

/-- The leg that a call is about to hand to the broadcaster. -/
def Stage.sending (d : Deployment) : Stage → Option PayoutRequest
  | .leased lease (.send payment) =>
      payment.todo.head?.map fun leg => PayoutService.legRequest d lease payment leg
  | _ => none

def Task.sending (d : Deployment) : Task → Option PayoutRequest
  | .paying _ stage => stage.sending d
  | _ => none

/-- In every run of withdrawal requests and approvals, a call over the approval threshold that
holds the lease, as every call does that hands a transfer to the broadcaster, has enough
distinct approvers. Each of them has a name, is not the requester that the intent's row
records and called `approve()` for the tenant and id of that row, whose terms are those of
the call; and a leg that is about to be sent is what the row says.
-/
theorem transfers_have_quorum (d : Deployment) (policy : ApprovalPolicy)
    (configured : d.policy.approval = some policy) (store : Store)
    (unapproved : store.approvals = [])
    (distinct : (store.journal.map PayoutIntent.idempotencyKey).Nodup)
    (observed : Observed)
    (reached : Reaches (Observed.step d) (fun _ event => event.routed = true)
      { system := { store, tasks := [] }, calls := [] } observed)
    : ∀ task ∈ observed.system.tasks, ∀ lease,
        task.lease = some lease
        → policy.thresholdBaseUnits < lease.p.amountBaseUnits
        → ∃ approvers : List String,
            approvers.Nodup
            ∧ policy.required ≤ approvers.length
            ∧ ∀ approver ∈ approvers, ∃ row,
                PayoutJournal.load observed.system.store.journal lease.p.idempotencyKey
                  = some row
                ∧ Approves observed.calls row approver
                ∧ row.terms = lease.p.terms
                ∧ ∀ request, task.sending d = some request
                  → request.chain = row.chain ∧ request.asset = row.asset
                    ∧ request.toAddress = row.destination
                    ∧ request.IsLegOf row.amountBaseUnits := by
  have quorate : Quorate d observed :=
    reached.invariant (Quorate.initial unapproved distinct)
      fun quorate routed taken => quorate.step routed taken
  intro task member lease holds exceeds
  cases task with
  | paying caller stage =>
      cases stage with
      | leased held step =>
          obtain rfl : held = lease := Option.some.inj holds
          obtain ⟨witnessed, quorum⟩ := quorate.tasks _ member
          refine ⟨PolicyEngine.approvers (PayoutService.context held.p 0),
            List.nodup_dedup _, quorum rfl policy configured exceeds, ?_⟩
          intro approver counted
          have named : approver ∈ held.p.approvals.getD [] :=
            (List.mem_filter.mp (List.mem_dedup.mp counted)).1
          obtain ⟨row, found, terms, approves⟩ := witnessed approver named
          refine ⟨row, found, approves, terms, ?_⟩
          intro request sending
          have own : held.p.terms = row.terms := terms.symm
          simp only [PayoutParams.terms, PayoutIntent.terms, Terms.mk.injEq] at own
          obtain ⟨-, -, chain, asset, amount, destination⟩ := own
          cases step with
          | send payment =>
              obtain ⟨leg, first, rfl⟩ := Option.map_eq_some_iff.mp sending
              refine ⟨chain, asset, destination, ?_⟩
              rw [← amount]
              exact payment.isLegOf_of_head first rfl rfl
          | _ => cases sending
      | _ => cases holds
  | _ => cases holds

-----------------------------------------------------------------------------
-- A withdrawal that two others approve

/-- The plain deployment with two approvals on payouts over ten units. -/
def quorumDeployment : Deployment :=
  { plainDeployment with
      approvalsRequired := 2
      policy :=
        { plainDeployment.policy with
            approval := some { thresholdBaseUnits := 10, required := 2 } } }

/-- An approval of the sample withdrawal, whose row got the id `a`. -/
def sampleApproval (approver : String) : Request :=
  .approve { tenant := sampleTenant, withdrawalId := "a", approver }

/-- A withdrawal of 100 is held, approved by `bob`, approved by `bob` once more and then by
`carol`, which takes it to its transfer.
-/
theorem transfers_have_quorum_of_two
    : ∃ (observed : Observed) (task : Task) (request : PayoutRequest) (approvers : List String),
        task ∈ observed.system.tasks
        ∧ task.sending quorumDeployment = some request
        ∧ approvers.Nodup ∧ 2 ≤ approvers.length := by
  have approved : ∃ observed,
      Reaches (Observed.step quorumDeployment) (fun _ event => event.routed = true)
        { system := { store := emptyStore, tasks := [] }, calls := [] } observed
      ∧ (observed.system.tasks.any fun task =>
          (task.sending quorumDeployment).isSome
          && task.lease.any fun lease => 10 < lease.p.amountBaseUnits)
        = true :=
    Reaches.exists_of_exec
      ([.post withdrawalDeposit, .call (.withdraw (sampleWithdrawal 100 "dest"))]
        ++ completes 0 6 (sampleReply "a" [])
        ++ [.call (sampleApproval "bob")] ++ completes 1 6 (sampleReply "b" [])
        ++ [.call (sampleApproval "bob")] ++ completes 2 6 (sampleReply "c" [])
        ++ [.call (sampleApproval "carol")] ++ completes 3 11 (sampleReply "d" [100]))
      (by decide +kernel)
  obtain ⟨observed, reached, sends⟩ := approved
  obtain ⟨task, member, sends⟩ := List.any_eq_true.mp sends
  obtain ⟨sending, leased⟩ := Bool.and_eq_true_iff.mp sends
  obtain ⟨request, sending⟩ := Option.isSome_iff_exists.mp sending
  obtain ⟨lease, holds, exceeds⟩ := (Option.any_eq_true _ _).mp leased
  obtain ⟨approvers, distinct, enough, -⟩ :=
    transfers_have_quorum quorumDeployment { thresholdBaseUnits := 10, required := 2 } rfl
      emptyStore rfl (by decide) observed reached task member lease holds (of_decide_eq_true exceeds)
  exact ⟨observed, task, request, approvers, member, sending, distinct, enough⟩

end Cixtech.Payout
