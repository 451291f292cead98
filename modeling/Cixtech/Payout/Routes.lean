import Cixtech.Payout.Service

/-! The three ways into the payout service: a direct `payout()` call, the withdrawal route
with its idempotency record around it, and the approval route. A task is one such call,
resumed once for each await like the service itself.
-/

namespace Cixtech.Payout

open Cixtech.Common Cixtech.Foundation

/-- A withdrawal request after its credentials, account, chain and destination are checked. -/
structure WithdrawalRequest where
  tenant : Uuid
  /-- The credential that asks, which becomes the requester of the payout. -/
  keyId : String
  merchant : Uuid
  chain : String
  asset : String
  amount : Int
  destination : String
  /-- The value of the `idempotency-key` header. -/
  key : String
  deriving DecidableEq

structure ApprovalRequest where
  tenant : Uuid
  withdrawalId : String
  approver : String
  deriving DecidableEq

/-- Who awaits a running `payout()`. -/
inductive Caller
  | direct
  | withdrawal (tenant : Uuid) (key : String)
  | approval (approvals : List String)
  deriving DecidableEq

/-- The body of a 202 reply of the withdrawal route. -/
structure HeldBody where
  withdrawalId : String
  status : String
  approvalsNeeded : Option Int
  approvalsHave : Option Int
  until_ : Option String
  deriving DecidableEq, Repr

/-- What a task ends with. -/
inductive Response
  | returned (outcome : Except AppError PayoutResult)
  | stored (body : StoredBody)
  | inProgress
  | held (body : HeldBody)
  | approved (txId fromAddress : String) (approvals : List String)
  | pending (needed : Nat) (approvals : List String)
  | failed (err : AppError)

inductive Task
  -- The withdrawal route around the payout.
  | claimKey (request : WithdrawalRequest)
  | loadRecord (request : WithdrawalRequest)
  | complete (tenant : Uuid) (key : String) (result : PayoutResult)
  | releaseKey (tenant : Uuid) (key : String) (err : AppError)
  | findIntent (tenant : Uuid) (key : String) (err : AppError)
  -- `approve()` before the payout.
  | loadIntent (request : ApprovalRequest)
  | listSettled (intent : PayoutIntent)
  | recordApproval (request : ApprovalRequest) (intent : PayoutIntent)
  | listApprovals (intent : PayoutIntent)
  -- The payout itself, and what is left of a task.
  | paying (caller : Caller) (stage : Stage)
  | finished (response : Response)
  | crashed

/-- A call that arrives. -/
inductive Request
  | payout (p : PayoutParams)
  | withdraw (request : WithdrawalRequest)
  | approve (request : ApprovalRequest)
  deriving DecidableEq

namespace IdempotencyStore

def find (rows : List IdempotencyRow) (tenantId key : String) : Option IdempotencyRow :=
  Table.lookup (fun row => (row.tenantId, row.key)) rows (tenantId, key)

/-- `INSERT … ON CONFLICT DO NOTHING RETURNING key`: whether the key was free. -/
def claim (rows : List IdempotencyRow) (tenantId key : String) : List IdempotencyRow × Bool :=
  match find rows tenantId key with
  | some _ => (rows, false)
  | none => (rows ++ [{ tenantId, key, response := none }], true)

def complete (rows : List IdempotencyRow) (tenantId key : String) (body : StoredBody)
    : List IdempotencyRow :=
  Table.update (fun row => (row.tenantId, row.key)) rows (tenantId, key) fun row =>
    { row with response := some body }

def release (rows : List IdempotencyRow) (tenantId key : String) : List IdempotencyRow :=
  Table.delete rows fun row => row.tenantId == tenantId && row.key == key

end IdempotencyStore

namespace ApprovalStore

def noApprover : AppError :=
  { code := .policySelfApproval, message := "An approval needs an identifiable approver"
    context := [] }

def selfApproval (intentKey : String) : AppError :=
  { code := .policySelfApproval
    message := "The requester of a payout can never approve it (separation of duties)"
    context := [("intentKey", .text intentKey)] }

/-- Record an approval once for each intent and approver. -/
def approve (rows : List ApprovalRow) (tenant intentKey approver : String)
    (requestedBy : Option String) (at_ : Int)
    : Except AppError (List ApprovalRow) :=
  if approver = "" then .error noApprover
  else if PayoutService.truthy requestedBy = some approver then .error (selfApproval intentKey)
  else
    .ok
      (Table.insertIgnore (fun row => (row.intentKey, row.approver)) rows
        { intentKey, approver, tenant, at_ })

/-- The approvers of an intent in the order of their approvals. -/
def approversFor (rows : List ApprovalRow) (intentKey : String) : List String :=
  ((rows.filter fun row => row.intentKey = intentKey).insertionSort
    fun left right => left.at_ ≤ right.at_).map (·.approver)

end ApprovalStore

namespace WithdrawalRequest

/-- `${tenant.id}:${key}`. -/
def payoutKey (tenant : Uuid) (key : String) : String := tenant.text ++ ":" ++ key

/-- The parameters that the route hands to `payout()`. -/
def params (d : Deployment) (request : WithdrawalRequest) : PayoutParams :=
  { tenant := request.tenant.text, merchant := request.merchant.text
    chain := d.casing.toUpperCase request.chain, asset := request.asset
    amountBaseUnits := request.amount, destination := request.destination
    idempotencyKey := payoutKey request.tenant request.key
    requester := some request.keyId, approvals := none }

/-- The 202 reply to a payout that the policy holds. -/
def heldBody (intent : PayoutIntent) (err : AppError) : HeldBody :=
  let number (field : String) : Option Int :=
    (err.contextValue field).bind fun
      | .number value => some value
      | .text _ => none
  let text (field : String) : Option String :=
    (err.contextValue field).bind fun
      | .number _ => none
      | .text value => some value
  { withdrawalId := intent.id
    status := if err.code = .policyTimeLocked then "TIME_LOCKED" else "PENDING_APPROVAL"
    approvalsNeeded := number "needed", approvalsHave := number "have"
    until_ := text "until" }

/-- `HELD_CODES`. -/
def heldCodes : List ErrorCode := [.policyApprovalRequired, .policyTimeLocked]

end WithdrawalRequest

def withdrawalNotFound (withdrawalId : String) : AppError :=
  { code := .withdrawalNotFound, message := s!"No withdrawal {withdrawalId}"
    context := [("withdrawalId", .text withdrawalId)] }

namespace Task

/-- The parameters that `approve()` hands to `payout()`: those of the journaled intent. -/
def approvalParams (intent : PayoutIntent) (approvals : List String) : PayoutParams :=
  { tenant := intent.tenant, merchant := intent.merchant, chain := intent.chain
    asset := intent.asset, amountBaseUnits := intent.amountBaseUnits
    destination := intent.destination, idempotencyKey := intent.idempotencyKey
    requester := PayoutService.truthy intent.requestedBy, approvals := some approvals }

/-- Begin `payout()` at an instant. -/
def startPayout (caller : Caller) (p : PayoutParams) (now : Int) : Task :=
  .paying caller (.begin_ p now)

/-- What the caller of `payout()` does with its outcome. -/
def resumeCaller (d : Deployment) (outcome : Except AppError PayoutResult) : Caller → Task
  | .direct => .finished (.returned outcome)
  | .withdrawal tenant key =>
      match outcome with
      | .ok result => .complete tenant key result
      | .error err => .releaseKey tenant key err
  | .approval approvals =>
      match outcome with
      | .ok result => .finished (.approved result.txId result.fromAddress approvals)
      | .error err =>
          if err.code = .policyApprovalRequired then
            .finished (.pending d.approvalsRequired approvals)
          else .finished (.failed err)

/-- A call of `payout()` after a step of it. -/
def ofProgress (d : Deployment) (caller : Caller) : Progress → Task
  | .awaiting stage => .paying caller stage
  | .finished outcome => resumeCaller d outcome caller

/-- The task of a call that arrives at an instant. -/
def ofRequest (now : Int) : Request → Task
  | .payout p => startPayout .direct p now
  | .withdraw request => .claimKey request
  | .approve request => .loadIntent request

/-- Perform what a task awaits and run on to its next await. -/
def advance (d : Deployment) (store : Store) (reply : Reply) : Task → Option (Store × Task)
  | .claimKey request =>
      let (idempotency, reserved) :=
        IdempotencyStore.claim store.idempotency request.tenant.text request.key
      let next :=
        if reserved then
          startPayout (.withdrawal request.tenant request.key) (request.params d) store.clock
        else .loadRecord request
      some ({ store with idempotency }, next)
  | .loadRecord request =>
      match (IdempotencyStore.find store.idempotency request.tenant.text request.key).bind
          (·.response) with
      | none => some (store, .finished .inProgress)
      | some body => some (store, .finished (.stored body))
  | .complete tenant key result =>
      let body : StoredBody :=
        { status := 200, txId := result.txId, fromAddress := result.fromAddress }
      some
        ( { store with
              idempotency := IdempotencyStore.complete store.idempotency tenant.text key body },
          .finished (.stored body))
  | .releaseKey tenant key err =>
      some
        ( { store with
              idempotency := IdempotencyStore.release store.idempotency tenant.text key },
          .findIntent tenant key err)
  | .findIntent tenant key err =>
      let held :=
        PayoutJournal.load store.journal (WithdrawalRequest.payoutKey tenant key)
      let response :=
        match held with
        | some intent =>
            if WithdrawalRequest.heldCodes.contains err.code then
              .held (WithdrawalRequest.heldBody intent err)
            else .failed err
        | none => .failed err
      some (store, .finished response)
  | .loadIntent request =>
      match PayoutJournal.loadById store.journal request.tenant.text request.withdrawalId with
      | none => some (store, .finished (.failed (withdrawalNotFound request.withdrawalId)))
      | some intent =>
          let next :=
            if intent.status = .settled then .listSettled intent
            else .recordApproval request intent
          some (store, next)
  | .listSettled intent =>
      let approvals := ApprovalStore.approversFor store.approvals intent.idempotencyKey
      some
        (store,
          .finished (.approved (intent.txId.getD "") (intent.fromAddress.getD "") approvals))
  | .recordApproval request intent =>
      match ApprovalStore.approve store.approvals request.tenant.text intent.idempotencyKey
          request.approver intent.requestedBy store.clock with
      | .error err => some (store, .finished (.failed err))
      | .ok approvals => some ({ store with approvals }, .listApprovals intent)
  | .listApprovals intent =>
      let approvals := ApprovalStore.approversFor store.approvals intent.idempotencyKey
      some
        (store, startPayout (.approval approvals) (approvalParams intent approvals) store.clock)
  | .paying caller stage =>
      (PayoutService.advance d store reply stage).map fun (store, progress) =>
        (store, ofProgress d caller progress)
  | .finished _ => none
  | .crashed => none

/-- Where a task goes when what it awaits throws. The `try` of the withdrawal route covers
the payout and the completion of the key.
-/
def throwAt (d : Deployment) (err : AppError) : Task → Option Task
  | .complete tenant key _ => some (.releaseKey tenant key err)
  | .paying caller stage => some (ofProgress d caller (PayoutService.throwAt d err stage))
  | .finished _ => none
  | .crashed => none
  | _ => some (.finished (.failed err))

/-- A caller answers the outcome of its payout, or writes to the record that it has claimed. -/
theorem resumeCaller_cases (d : Deployment) (outcome : Except AppError PayoutResult)
    (caller : Caller)
    : ((∀ tenant key, caller ≠ .withdrawal tenant key)
        ∧ ∃ answer, resumeCaller d outcome caller = .finished answer)
      ∨ ∃ tenant key,
        caller = .withdrawal tenant key
        ∧ ((∃ result, resumeCaller d outcome caller = .complete tenant key result)
          ∨ ∃ err, resumeCaller d outcome caller = .releaseKey tenant key err) := by
  cases caller with
  | direct => exact .inl ⟨nofun, _, rfl⟩
  | withdrawal tenant key =>
      refine .inr ⟨tenant, key, rfl, ?_⟩
      cases outcome with
      | ok result => exact .inl ⟨result, rfl⟩
      | error err => exact .inr ⟨err, rfl⟩
  | approval approvals =>
      refine .inl ⟨nofun, ?_⟩
      cases outcome with
      | ok result => exact ⟨_, rfl⟩
      | error err =>
          simp only [resumeCaller]
          split <;> exact ⟨_, rfl⟩

end Task

end Cixtech.Payout
