import Cixtech.Attribution.GatherLease
import Cixtech.Payout.Authorization
import Cixtech.Payout.Journal
import Cixtech.Payout.Policy
import Cixtech.Treasury.FeeSweepPlanner
import Mathlib.Algebra.Order.BigOperators.Group.List

/-! The payout service as a procedure that is resumed once for each await. A stage is the
statement or call it is waiting for, together with the local variables that the rest of the
function reads; one step performs it and runs on to the next await.
-/

namespace Cixtech.Payout

open Cixtech.Attribution Cixtech.Common Cixtech.Foundation Cixtech.Ledger Cixtech.Treasury

structure PayoutParams where
  tenant : String
  merchant : String
  chain : String
  asset : String
  amountBaseUnits : Int
  destination : String
  idempotencyKey : String
  requester : Option String
  approvals : Option (List String)
  deriving DecidableEq, Repr

structure PayoutLeg where
  address : String
  txId : String
  amountBaseUnits : Int
  deriving DecidableEq, Repr

structure PayoutRequest where
  chain : String
  asset : String
  amountBaseUnits : Int
  fromAddress : String
  fromDerivationIndex : Nat
  toAddress : String
  idempotencyKey : String
  authorization : Option AuthorizationToken
  deriving DecidableEq, Repr

structure PayoutResult where
  txId : String
  fromAddress : String
  /-- Present in the result only for a payout of several legs. -/
  legs : Option (List PayoutLeg)
  deriving DecidableEq, Repr

structure FeeSweepOptions where
  dustThresholdBaseUnits : Int
  treasuryAddressFor : String → Option String

/-- What the service is constructed with. The journal, the approval store and the gather
lease are always there, as the engine wires them.
-/
structure Deployment where
  casing : Casing
  policy : PolicyConfig
  leaseTtlMs : Int
  approvalsRequired : Nat
  authorizer : Option AuthorizationSigner
  authTtlMs : Int
  /-- The strategies with a registered implementation, when a registry is configured. -/
  gatherStrategies : Option (List GatherStrategyKind)
  feeSweep : Option FeeSweepOptions

/-- A deployment without optional gates, fee sweep or gather strategies. -/
def plainDeployment : Deployment :=
  { casing := asciiCasing
    policy :=
      { maxPerPayoutBaseUnits := 1000, allowlist := ["dest"], approval := none
        timeLock := none, velocity := none }
    leaseTtlMs := 120000, approvalsRequired := 0, authorizer := none, authTtlMs := 60000
    gatherStrategies := none, feeSweep := none }

/-- What the service did under an idempotency key, in order. No code reads this record. -/
inductive Effect
  | policyEvaluated (key : String) (ctx : PayoutContext)
  | locked (key : String) (input : PayoutLockedInput)
  | sent (key : String) (request : PayoutRequest)
  | settled (key : String) (input : PayoutSettledInput)
  | feeSent (key : String) (request : PayoutRequest)
  deriving DecidableEq, Repr

/-- A row of `payout_approval`. -/
structure ApprovalRow where
  intentKey : String
  approver : String
  tenant : String
  at_ : Int
  deriving DecidableEq, Repr

/-- The reply that a handler stores under an idempotency key. -/
structure StoredBody where
  status : Nat
  txId : String
  fromAddress : String
  deriving DecidableEq, Repr

/-- A row of `idempotency_key`. -/
structure IdempotencyRow where
  tenantId : String
  key : String
  response : Option StoredBody
  deriving DecidableEq, Repr

/-- Everything that the calls share. -/
structure Store where
  journal : List PayoutIntent
  leases : List LeaseRow
  ledger : SqlLedger
  payoutLog : List PayoutLogRow
  approvals : List ApprovalRow
  idempotency : List IdempotencyRow
  clock : Int
  effects : List Effect

/-- What the world outside answers to one awaited call; each call reads its own part. -/
structure Reply where
  freshId : String
  answers : PolicyAnswers
  balances : List AddressBalance
  txId : String
  deriving DecidableEq, Repr

-----------------------------------------------------------------------------
-- The legs of a payment

/-- The legs already sent and those still to send, which together make the amount. -/
structure Payment (amount : Int) where
  sent : List PayoutLeg
  todo : List GatheredLeg
  whole : (sent.map (·.amountBaseUnits)).sum + total todo = amount
  positive : ∀ leg ∈ todo, 0 < leg.amountBaseUnits

namespace Payment

variable {amount : Int}

/-- A gathered payment of which nothing is sent. -/
def ofPlan (plan : GatherPlan amount) : Payment amount where
  sent := []
  todo := plan.legs
  whole := by simpa using plan.whole
  positive := plan.positive

def sentTotal (payment : Payment amount) : Int := (payment.sent.map (·.amountBaseUnits)).sum

/-- The leg to send next and the payment after it is sent. -/
def sendNext (payment : Payment amount) (txId : String)
    : Option (GatheredLeg × Payment amount) :=
  match shape : payment.todo with
  | [] => none
  | leg :: rest =>
      some
        (leg,
          { sent := payment.sent ++ [⟨leg.address, txId, leg.amountBaseUnits⟩]
            todo := rest
            whole := by
              have whole := payment.whole
              rw [shape, total_cons] at whole
              simp only [List.map_append, List.map_cons, List.map_nil, List.sum_append,
                List.sum_cons, List.sum_nil]
              omega
            positive := fun other member =>
              payment.positive other (shape ▸ List.mem_cons_of_mem _ member) })

/-- How many legs were gathered. -/
def count (payment : Payment amount) : Nat := payment.sent.length + payment.todo.length

/-- `legs.length === 1 ? key : key:i`. -/
def legKey (payment : Payment amount) (key : String) : String :=
  if payment.count = 1 then key else key ++ ":" ++ toString payment.sent.length

def primaryTxId (payment : Payment amount) : String :=
  (payment.sent.head?.map (·.txId)).getD ""

/-- `legs[0]?.address ?? ""`, wherever the first leg is by now. -/
def primaryFrom (payment : Payment amount) : String :=
  ((payment.sent.map (·.address) ++ payment.todo.map (·.address)).head?).getD ""

def result (payment : Payment amount) : PayoutResult :=
  { txId := payment.primaryTxId, fromAddress := payment.primaryFrom
    legs := if payment.sent.length > 1 then some payment.sent else none }

/-- What the legs take from each address, summed by address. -/
def reserved (payment : Payment amount) : List (String × Int) :=
  Accumulator.tally PayoutLeg.address PayoutLeg.amountBaseUnits [] payment.sent

theorem sentTotal_ofPlan (plan : GatherPlan amount) : (ofPlan plan).sentTotal = 0 := rfl

/-- What is sent and what is left make the amount, and nothing left is negative. -/
theorem sentTotal_le (payment : Payment amount) : payment.sentTotal ≤ amount := by
  have left : 0 ≤ total payment.todo :=
    List.sum_nonneg fun value member => by
      obtain ⟨leg, inTodo, rfl⟩ := List.mem_map.mp member
      exact Int.le_of_lt (payment.positive leg inTodo)
  have whole := payment.whole
  simp only [sentTotal]
  omega

/-- Sending a leg adds its amount to what is sent. -/
theorem sendNext_spec {payment next : Payment amount} {txId : String} {leg : GatheredLeg}
    (step : payment.sendNext txId = some (leg, next))
    : next.sentTotal = payment.sentTotal + leg.amountBaseUnits
      ∧ 0 < leg.amountBaseUnits
      ∧ payment.todo = leg :: next.todo := by
  unfold sendNext at step
  split at step
  case h_1 => cases step
  case h_2 first rest shape =>
    simp only [Option.some.injEq, Prod.mk.injEq] at step
    obtain ⟨rfl, rfl⟩ := step
    refine ⟨?_, payment.positive _ (shape ▸ List.mem_cons_self), shape⟩
    simp [sentTotal]

end Payment

-----------------------------------------------------------------------------
-- The stages of payout()

/-- The fee legs still to sweep after the payout, from the leg with the given index on. -/
structure Sweep where
  treasuryAddress : String
  index : Nat
  todo : List GatheredLeg
  deriving DecidableEq, Repr

/-- What is awaited while the lease is held. -/
inductive Spending (amount : Int)
  | gather
  | setFrom (plan : GatherPlan amount)
  | readBalance (plan : GatherPlan amount)
  | appendLock (plan : GatherPlan amount)
  | prepare (payment : Payment amount)
  | send (payment : Payment amount)
  | markBroadcast (payment : Payment amount)
  | settle (payment : Payment amount)
  | markSettled (payment : Payment amount)
  | planSweep (payment : Payment amount) (treasuryAddress : String)
  | sweepPrepare (payment : Payment amount) (sweep : Sweep)
  | sweepSend (payment : Payment amount) (sweep : Sweep)
  | sweepPost (payment : Payment amount) (sweep : Sweep)
  | release (outcome : Except AppError PayoutResult)

/-- A call that holds the gather lease: its parameters, the instant it began at and the
expiry that its lease row was written with.
-/
structure Lease where
  p : PayoutParams
  now : Int
  expiresAt : Int

inductive Stage
  | begin_ (p : PayoutParams) (now : Int)
  | load (p : PayoutParams) (now : Int)
  | resumeSettle (p : PayoutParams) (txId fromAddress : String)
  | resumeMark (p : PayoutParams) (txId fromAddress : String)
  | check (p : PayoutParams) (now requestedAt : Int)
  | acquire (p : PayoutParams) (now asked : Int)
  | leased (lease : Lease) (step : Spending lease.p.amountBaseUnits)

/-- Where a call is after a step: at its next await, or returned or thrown. -/
inductive Progress
  | awaiting (stage : Stage)
  | finished (outcome : Except AppError PayoutResult)

namespace PayoutService

/-- A string that a JavaScript condition takes as true. -/
def truthy : Option String → Option String
  | some text => if text = "" then none else some text
  | none => none

def newIntent (p : PayoutParams) : NewIntent :=
  { idempotencyKey := p.idempotencyKey, requestedBy := p.requester, tenant := p.tenant
    merchant := p.merchant, chain := p.chain, asset := p.asset
    amountBaseUnits := p.amountBaseUnits, destination := p.destination }

def context (p : PayoutParams) (requestedAt : Int) : PayoutContext :=
  { tenant := p.tenant, merchant := p.merchant, chain := p.chain, asset := p.asset
    amountBaseUnits := p.amountBaseUnits, destination := p.destination
    requester := p.requester, approvals := p.approvals, requestedAt := some requestedAt }

def lockInput (d : Deployment) (p : PayoutParams) : PayoutLockedInput :=
  { id := p.idempotencyKey ++ ":lock", idempotencyKey := p.idempotencyKey ++ ":lock"
    asset := d.casing.toUpperCase p.asset, amount := p.amountBaseUnits
    merchantAvailable := merchantAvailable p.tenant p.merchant
    merchantPendingWithdrawal := merchantPendingWithdrawal p.tenant p.merchant }

def settleInput (d : Deployment) (p : PayoutParams) : PayoutSettledInput :=
  { id := "settle:" ++ p.idempotencyKey, idempotencyKey := "settle:" ++ p.idempotencyKey
    asset := d.casing.toUpperCase p.asset, amount := p.amountBaseUnits
    merchantPendingWithdrawal := merchantPendingWithdrawal p.tenant p.merchant
    poolAddr := poolAddr p.chain p.merchant, networkFee := none }

def leaseKey (d : Deployment) (p : PayoutParams) : String :=
  GatherLease.key d.casing p.tenant p.merchant p.chain

def gatherBusy (p : PayoutParams) : AppError :=
  { code := .gatherBusy
    message :=
      s!"Another operation is already spending {p.merchant}'s {p.chain} pool addresses. " ++
        "Retry shortly."
    context := [] }

def unknownGatherStrategy (kinds : List GatherStrategyKind) (kind : GatherStrategyKind)
    : AppError :=
  { code := .gatherStrategyUnknown
    message :=
      s!"No implementation registered for gather strategy {kind.toText}; " ++
        "addresses minted under it cannot be drained"
    context :=
      [ ("kind", .text kind.toText),
        ("registered", .text (String.intercalate "," (kinds.map (·.toText)))) ] }

/-- The transfer of one leg, with the authorization minted for it. -/
def legRequest (d : Deployment) (lease : Lease) (payment : Payment lease.p.amountBaseUnits)
    (leg : GatheredLeg)
    : PayoutRequest :=
  let p := lease.p
  let legKey := payment.legKey p.idempotencyKey
  { chain := p.chain, asset := p.asset, amountBaseUnits := leg.amountBaseUnits
    fromAddress := leg.address, fromDerivationIndex := leg.derivationIndex
    toAddress := p.destination, idempotencyKey := legKey
    authorization := d.authorizer.map fun signer =>
      signer.mint
        { intentId := legKey, chain := p.chain, asset := p.asset
          amount := toString leg.amountBaseUnits, destination := p.destination
          fromAddress := leg.address }
        p.tenant p.merchant (p.approvals.getD []) lease.now d.authTtlMs }

/-- The key of the inline fee leg with the given index. -/
def feeLegKey (p : PayoutParams) (index : Nat) : String :=
  p.idempotencyKey ++ ":fee:" ++ toString index

/-- The transfer of one fee leg, which carries no authorization. -/
def feeRequest (p : PayoutParams) (sweep : Sweep) (leg : GatheredLeg) : PayoutRequest :=
  { chain := p.chain, asset := p.asset, amountBaseUnits := leg.amountBaseUnits
    fromAddress := leg.address, fromDerivationIndex := leg.derivationIndex
    toAddress := sweep.treasuryAddress, idempotencyKey := feeLegKey p sweep.index
    authorization := none }

def feeSweptInput (d : Deployment) (p : PayoutParams) (sweep : Sweep) (leg : GatheredLeg)
    : FeeSweptInput :=
  { id := feeLegKey p sweep.index, idempotencyKey := feeLegKey p sweep.index
    asset := d.casing.toUpperCase p.asset, amount := leg.amountBaseUnits
    poolAddr := poolAddr p.chain p.merchant, treasury := treasury p.chain
    networkFee := none }

/-- The top of the loop over the legs: prepare the address, send, or go on to the journal
when no leg is left. An address without a registered strategy makes the call throw.
-/
def enterLeg (d : Deployment) {amount : Int} (payment : Payment amount) : Spending amount :=
  match payment.todo with
  | [] => .markBroadcast payment
  | leg :: _ =>
      match d.gatherStrategies with
      | none => .send payment
      | some kinds =>
          if kinds.contains leg.gatherStrategy then .prepare payment
          else .release (.error (unknownGatherStrategy kinds leg.gatherStrategy))

/-- The top of the loop over the fee legs, whose errors are all swallowed: a leg without a
registered strategy is passed over.
-/
def enterSweep (d : Deployment) {amount : Int} (payment : Payment amount)
    (treasuryAddress : String)
    : Nat → List GatheredLeg → Spending amount
  | _, [] => .release (.ok payment.result)
  | index, leg :: rest =>
      match d.gatherStrategies with
      | none => .sweepSend payment { treasuryAddress, index, todo := leg :: rest }
      | some kinds =>
          if kinds.contains leg.gatherStrategy then
            .sweepPrepare payment { treasuryAddress, index, todo := leg :: rest }
          else enterSweep d payment treasuryAddress (index + 1) rest

/-- The fee leg after the current one. -/
def nextSweep (d : Deployment) {amount : Int} (payment : Payment amount) (sweep : Sweep)
    : Spending amount :=
  enterSweep d payment sweep.treasuryAddress (sweep.index + 1) sweep.todo.tail

/-- The early returns of `sweepFee`, before the planner is asked. -/
def startSweep (d : Deployment) {amount : Int} (payment : Payment amount) (chain : String)
    : Spending amount :=
  match d.feeSweep.bind fun options => options.treasuryAddressFor chain with
  | none => .release (.ok payment.result)
  | some treasuryAddress =>
      if treasuryAddress = "" then .release (.ok payment.result)
      else .planSweep payment treasuryAddress

/-- One step of a call that holds the lease. -/
def spend (d : Deployment) (store : Store) (reply : Reply) (lease : Lease)
    (step : Spending lease.p.amountBaseUnits)
    : Option (Store × Progress) :=
  let p := lease.p
  let goto (next : Spending lease.p.amountBaseUnits) : Progress :=
    .awaiting (.leased lease next)
  match step with
  | .gather =>
      match PoolGatherer.gather p.tenant p.merchant p.chain p.asset p.amountBaseUnits
          reply.balances with
      | .error err => some (store, goto (.release (.error err)))
      | .ok plan => some (store, goto (.setFrom plan))
  | .setFrom plan =>
      let primaryFrom := (plan.legs.head?.map (·.address)).getD ""
      some
        ( { store with
              journal := PayoutJournal.setFrom store.journal p.idempotencyKey primaryFrom },
          goto (.readBalance plan))
  | .readBalance plan =>
      let input := lockInput d p
      match LedgerService.availableBalance store.ledger input.merchantAvailable input.asset
          >>= LedgerService.lockEntry input with
      | .error err => some (store, goto (.release (.error err)))
      | .ok _ => some (store, goto (.appendLock plan))
  | .appendLock plan =>
      let input := lockInput d p
      let effects := store.effects ++ [.locked p.idempotencyKey input]
      match payoutLocked input >>= store.ledger.append with
      | .error err => some ({ store with effects }, goto (.release (.error err)))
      | .ok (ledger, _) =>
          some ({ store with ledger, effects }, goto (enterLeg d (Payment.ofPlan plan)))
  | .prepare payment => some (store, goto (.send payment))
  | .send payment =>
      match payment.sendNext reply.txId with
      | none => none
      | some (leg, next) =>
          let effects := store.effects ++ [.sent p.idempotencyKey (legRequest d lease payment leg)]
          some ({ store with effects }, goto (enterLeg d next))
  | .markBroadcast payment =>
      some
        ( { store with
              journal :=
                PayoutJournal.markBroadcast store.journal p.idempotencyKey
                  payment.primaryTxId },
          goto (.settle payment))
  | .settle payment =>
      let effects := store.effects ++ [.settled p.idempotencyKey (settleInput d p)]
      match payoutSettled (settleInput d p) >>= LedgerService.post store.ledger with
      | .error err => some ({ store with effects }, goto (.release (.error err)))
      | .ok (ledger, _) => some ({ store with ledger, effects }, goto (.markSettled payment))
  | .markSettled payment =>
      some
        ( { store with
              journal := PayoutJournal.markSettled store.journal p.idempotencyKey },
          goto (startSweep d payment p.chain))
  | .planSweep payment treasuryAddress =>
      let dust := (d.feeSweep.map (·.dustThresholdBaseUnits)).getD 0
      match FeeSweepPlanner.plan store.ledger dust p.tenant p.merchant p.chain p.asset
          payment.reserved reply.balances with
      | .error _ => some (store, goto (.release (.ok payment.result)))
      | .ok plan => some (store, goto (enterSweep d payment treasuryAddress 0 plan.legs))
  | .sweepPrepare payment sweep => some (store, goto (.sweepSend payment sweep))
  | .sweepSend payment sweep =>
      match sweep.todo with
      | [] => none
      | leg :: _ =>
          let effects := store.effects ++ [.feeSent p.idempotencyKey (feeRequest p sweep leg)]
          some ({ store with effects }, goto (.sweepPost payment sweep))
  | .sweepPost payment sweep =>
      match sweep.todo with
      | [] => none
      | leg :: _ =>
          match feeSwept (feeSweptInput d p sweep leg) >>= LedgerService.post store.ledger with
          | .error _ => some (store, goto (nextSweep d payment sweep))
          | .ok (ledger, _) => some ({ store with ledger }, goto (nextSweep d payment sweep))
  | .release outcome =>
      some
        ( { store with
              leases := GatherLease.release store.leases (leaseKey d p) p.idempotencyKey },
          .finished outcome)

/-- The branches on the journaled status, after the row is loaded. -/
def branch (p : PayoutParams) (now : Int) (intent : PayoutIntent) : Progress :=
  match intent.status, truthy intent.txId, truthy intent.fromAddress with
  | .settled, some txId, _ =>
      .finished (.ok { txId, fromAddress := intent.fromAddress.getD "", legs := none })
  | .broadcast, some txId, some fromAddress => .awaiting (.resumeSettle p txId fromAddress)
  | _, _, _ => .awaiting (.check p now intent.createdAt)

/-- The loop over the fee legs stops at one that it sends or prepares, or leaves, by induction on
the legs.
-/
theorem enterSweep_cases (d : Deployment) {amount : Int} (payment : Payment amount)
    (treasuryAddress : String) (index : Nat) (legs : List GatheredLeg)
    : (∃ outcome, enterSweep d payment treasuryAddress index legs = .release outcome)
      ∨ ∃ sweep, enterSweep d payment treasuryAddress index legs = .sweepSend payment sweep
        ∨ enterSweep d payment treasuryAddress index legs = .sweepPrepare payment sweep := by
  induction legs generalizing index with
  | nil => exact .inl ⟨_, rfl⟩
  | cons leg rest ih =>
      unfold enterSweep
      split
      · exact .inr ⟨_, .inl rfl⟩
      · split
        · exact .inr ⟨_, .inr rfl⟩
        · exact ih (index + 1)

/-- The fee is swept after a plan, or not at all. -/
theorem startSweep_cases (d : Deployment) {amount : Int} (payment : Payment amount)
    (chain : String)
    : (∃ outcome, startSweep d payment chain = .release outcome)
      ∨ ∃ treasuryAddress, startSweep d payment chain = .planSweep payment treasuryAddress := by
  unfold startSweep
  split
  · exact .inl ⟨_, rfl⟩
  · split
    · exact .inl ⟨_, rfl⟩
    · exact .inr ⟨_, rfl⟩

/-- A loaded intent is answered, resumed or taken to the policy. -/
theorem branch_cases (p : PayoutParams) (now : Int) (intent : PayoutIntent)
    : (∃ outcome, branch p now intent = .finished outcome)
      ∨ (∃ txId fromAddress,
          branch p now intent = .awaiting (.resumeSettle p txId fromAddress))
      ∨ branch p now intent = .awaiting (.check p now intent.createdAt) := by
  unfold branch
  split
  · exact .inl ⟨_, rfl⟩
  · exact .inr (.inl ⟨_, _, rfl⟩)
  · exact .inr (.inr rfl)

/-- One step of `payout()`. -/
def advance (d : Deployment) (store : Store) (reply : Reply)
    : Stage → Option (Store × Progress)
  | .begin_ p now =>
      if store.journal.any fun row => row.id = reply.freshId then none
      else
        some
          ( { store with
                journal :=
                  PayoutJournal.begin_ store.journal reply.freshId store.clock (newIntent p) },
            .awaiting (.load p now))
  | .load p now =>
      match PayoutJournal.load store.journal p.idempotencyKey with
      | none =>
          some
            (store,
              .finished
                (.error
                  (.plain s!"payout_intent {p.idempotencyKey} vanished after insert")))
      | some intent => some (store, branch p now intent)
  | .resumeSettle p txId fromAddress =>
      let effects := store.effects ++ [.settled p.idempotencyKey (settleInput d p)]
      match payoutSettled (settleInput d p) >>= LedgerService.post store.ledger with
      | .error err => some ({ store with effects }, .finished (.error err))
      | .ok (ledger, _) =>
          some ({ store with ledger, effects }, .awaiting (.resumeMark p txId fromAddress))
  | .resumeMark p txId fromAddress =>
      some
        ( { store with
              journal := PayoutJournal.markSettled store.journal p.idempotencyKey },
          .finished (.ok { txId, fromAddress, legs := none }))
  | .check p now requestedAt =>
      let ctx := context p requestedAt
      let effects := store.effects ++ [.policyEvaluated p.idempotencyKey ctx]
      let (decision, payoutLog) :=
        PolicyEngine.evaluate d.policy reply.answers store.payoutLog ctx now
      match PolicyEngine.refusal ctx decision with
      | some err => some ({ store with payoutLog, effects }, .finished (.error err))
      | none =>
          some ({ store with payoutLog, effects }, .awaiting (.acquire p now store.clock))
  | .acquire p now asked =>
      let expiresAt := asked + d.leaseTtlMs
      let (leases, got) :=
        GatherLease.acquire store.leases (leaseKey d p) p.idempotencyKey asked expiresAt
      if got then some ({ store with leases }, .awaiting (.leased { p, now, expiresAt } .gather))
      else some ({ store with leases }, .finished (.error (gatherBusy p)))
  | .leased lease step => spend d store reply lease step

/-- Where a call goes when what it awaits throws: the lease is released on the way out, and
the errors of the fee sweep are swallowed.
-/
def throwAt (d : Deployment) (err : AppError) : Stage → Progress
  | .leased lease step =>
      match step with
      | .planSweep payment _ => .awaiting (.leased lease (.release (.ok payment.result)))
      | .sweepPrepare payment sweep => .awaiting (.leased lease (nextSweep d payment sweep))
      | .sweepSend payment sweep => .awaiting (.leased lease (nextSweep d payment sweep))
      | .sweepPost payment sweep => .awaiting (.leased lease (nextSweep d payment sweep))
      | .release _ => .finished (.error err)
      | _ => .awaiting (.leased lease (.release (.error err)))
  | _ => .finished (.error err)

end PayoutService

end Cixtech.Payout
