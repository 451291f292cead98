import Cixtech.Payout.ConcurrentPayouts
import Cixtech.Treasury.BroadcasterGasFunder
import Cixtech.Treasury.FeeSweeps

/-! The engine with a policy key: payouts and fee sweeps over one store, and gas top-ups, all
of them behind gates that require a token. Every transfer that is handed to a gate is on
record, whether it passes or not.
-/

namespace Cixtech.Treasury

open Cixtech.Attribution Cixtech.Common Cixtech.Foundation Cixtech.Ledger Cixtech.Payout

/-- How the engine is wired when it is given a policy key. The gas funder has a signer and a
gate of its own over the same key.
-/
structure GatedEngine where
  deployment : Deployment
  sweeps : FeeSweepConfig
  gas : BroadcasterGasFunderConfig
  signer : AuthorizationSigner
  gasSigner : AuthorizationSigner
  payoutsSigned : deployment.authorizer = some signer
  sweepsSigned : sweeps.authorizer = some signer
  gasSigned : gas.authorizer = some gasSigner

/-- The code that hands a transfer over. -/
inductive Issuer
  /-- The loop over the legs of a `payout()` that began at the given instant. -/
  | payoutLeg (began : Int)
  /-- The loop over the fee legs at the end of a `payout()`. -/
  | inlineFeeLeg
  | sweptLeg
  | gasTopUp
  deriving DecidableEq, Repr

/-- A transfer that is handed to the broadcaster at an instant. -/
structure Handed where
  issuer : Issuer
  at_ : Int
  request : PayoutRequest
  deriving DecidableEq

structure EngineState where
  payouts : System
  /-- The sweeps that were started, none where one has ended. -/
  sweeps : List (Option (SweepVars × SweepStage))
  handed : List Handed

inductive EngineEvent
  | payout (event : Event)
  | startSweep (asset : String)
  | resumeSweep (index : Nat) (reply : SweepReply)
  | rejectSweep (index : Nat) (err : AppError)
  | loseSweep (index : Nat) (reply : SweepReply) (err : AppError)
  | crashSweep (index : Nat)
  /-- A top-up of an address that holds the given native balance. -/
  | fund (input : FundInput) (held : Int)

namespace EngineEvent

/-- The call that an event resumes, and the sweep. -/
def resumes : EngineEvent → Option Nat × Option Nat
  | .payout (.resume index _) => (some index, none)
  | .payout (.reject index _) => (some index, none)
  | .payout (.lose index _ _) => (some index, none)
  | .resumeSweep index _ => (none, some index)
  | .rejectSweep index _ => (none, some index)
  | .loseSweep index _ _ => (none, some index)
  | _ => (none, none)

/-- Whether what is awaited takes effect. -/
def completes : EngineEvent → Bool
  | .payout (.resume _ _) => true
  | .payout (.lose _ _ _) => true
  | .resumeSweep _ _ => true
  | .loseSweep _ _ _ => true
  | _ => false

end EngineEvent

/-- What a sweep sees of the engine's tables. -/
def sweepStore (store : Store) : SweepStore :=
  { ledger := store.ledger, leases := store.leases, clock := store.clock, sends := [] }

namespace GatedEngine

/-- The gate that the transfers of an issuer go through. -/
def gate (engine : GatedEngine) : Issuer → AuthorizingBroadcaster
  | .gasTopUp => { authorizer := engine.gasSigner, mode := .require }
  | _ => { authorizer := engine.signer, mode := .require }

/-- The transfer that a call hands over at its stage. -/
def handedByCall (engine : GatedEngine) (now : Int) : Task → Option Handed
  | .paying _ (.leased lease (.send payment)) =>
      payment.todo.head?.map fun leg =>
        { issuer := .payoutLeg lease.now, at_ := now
          request := PayoutService.legRequest engine.deployment lease payment leg }
  | .paying _ (.leased lease (.sweepSend _ sweep)) =>
      sweep.todo.head?.map fun leg =>
        { issuer := .inlineFeeLeg, at_ := now
          request := PayoutService.feeRequest lease.p sweep leg }
  | _ => none

/-- The transfer that a fee sweep hands over at its stage. -/
def handedBySweep (engine : GatedEngine) (now : Int)
    : Option (SweepVars × SweepStage) → Option Handed
  | some (vars, .send cursor) =>
      some
        { issuer := .sweptLeg, at_ := now
          request := FeeSweepService.sweepRequest engine.sweeps vars.asset cursor now }
  | _ => none

/-- The transfer that is handed over as of an event. -/
def hands (engine : GatedEngine) (state : EngineState) (event : EngineEvent) : Option Handed :=
  let now := state.payouts.store.clock
  match event with
  | .fund input held =>
      match BroadcasterGasFunder.fund engine.gas input held now with
      | .ok (some request) => some { issuer := .gasTopUp, at_ := now, request }
      | _ => none
  | _ =>
      match event.resumes with
      | (some index, _) => state.payouts.tasks[index]?.bind (engine.handedByCall now)
      | (none, some index) => state.sweeps[index]?.bind (engine.handedBySweep now)
      | (none, none) => none

def passes (engine : GatedEngine) (handed : Handed) : Bool :=
  (engine.gate handed.issuer).forwards handed.at_ handed.request

/-- The tables after a sweep performed what it awaits, and its next stage. -/
def advanceSweep (engine : GatedEngine) (state : EngineState) (index : Nat)
    (reply : SweepReply)
    : Option (Store × Option (SweepVars × SweepStage)) := do
  let (vars, stage) ← (← state.sweeps[index]?)
  let store := state.payouts.store
  let (after, progress) :=
    FeeSweepService.advance engine.sweeps (sweepStore store) reply vars stage
  return ({ store with ledger := after.ledger, leases := after.leases }, progress.running)

/-- The next stage of a sweep after what it awaits threw. -/
def throwSweep (engine : GatedEngine) (state : EngineState) (index : Nat) (err : AppError)
    : Option (Option (SweepVars × SweepStage)) := do
  let (vars, stage) ← (← state.sweeps[index]?)
  return (FeeSweepService.throwAt engine.sweeps state.payouts.store.clock err vars stage).running

/-- The state after an event, the record of transfers aside. -/
def run (engine : GatedEngine) (state : EngineState) : EngineEvent → Option EngineState
  | .payout event =>
      (state.payouts.step engine.deployment event).map fun payouts => { state with payouts }
  | .startSweep asset =>
      some
        { state with
            sweeps :=
              state.sweeps ++ [(FeeSweepService.enter engine.sweeps asset).running] }
  | .resumeSweep index reply => do
      let (store, next) ← engine.advanceSweep state index reply
      return { state with payouts.store := store, sweeps := state.sweeps.set index next }
  | .rejectSweep index err => do
      let next ← engine.throwSweep state index err
      return { state with sweeps := state.sweeps.set index next }
  | .loseSweep index reply err => do
      let (store, _) ← engine.advanceSweep state index reply
      let next ← engine.throwSweep state index err
      return { state with payouts.store := store, sweeps := state.sweeps.set index next }
  | .crashSweep index => some { state with sweeps := state.sweeps.set index none }
  | .fund _ _ => some state

/-- One event. A transfer that its gate refuses does not take effect: it can only throw. -/
def step (engine : GatedEngine) (state : EngineState) (event : EngineEvent)
    : Option EngineState :=
  let handed := engine.hands state event
  if event.completes && !handed.all engine.passes then none
  else
    (engine.run state event).map fun next =>
      { next with handed := state.handed ++ handed.toList }

end GatedEngine

-----------------------------------------------------------------------------
-- What is handed over

/-- When the gate of an issuer lets its transfers through. -/
def Handed.Timely (engine : GatedEngine) (handed : Handed) : Prop :=
  match handed.issuer with
  | .payoutLeg began => handed.at_ ≤ began + engine.deployment.authTtlMs
  | .inlineFeeLeg => False
  | .sweptLeg => True
  | .gasTopUp => True

instance (engine : GatedEngine) (handed : Handed) : Decidable (handed.Timely engine) := by
  unfold Handed.Timely
  split <;> infer_instance

/-- The transfer is authorized as itself, and its gate forwards it. -/
def Handed.Cleared (engine : GatedEngine) (handed : Handed) : Prop :=
  handed.request.Authorized (engine.gate handed.issuer).authorizer
  ∧ engine.passes handed = true

/-- A transfer of the engine: the request of one of its four call sites. -/
inductive Issued (engine : GatedEngine) : Handed → Prop
  | payoutLeg (now : Int) (lease : Lease) (payment : Payment lease.p.amountBaseUnits)
      (leg : GatheredLeg)
    : Issued engine
        ⟨.payoutLeg lease.now, now,
          PayoutService.legRequest engine.deployment lease payment leg⟩
  | inlineFeeLeg (now : Int) (p : PayoutParams) (sweep : Sweep) (leg : GatheredLeg)
    : Issued engine ⟨.inlineFeeLeg, now, PayoutService.feeRequest p sweep leg⟩
  | sweptLeg (now : Int) (asset : String) (cursor : LegCursor)
    : Issued engine
        ⟨.sweptLeg, now, FeeSweepService.sweepRequest engine.sweeps asset cursor now⟩
  | gasTopUp (now : Int) (input : FundInput) (treasury : GasTreasury) (amount : Int)
    : Issued engine
        ⟨.gasTopUp, now,
          BroadcasterGasFunder.fundRequest engine.gas input treasury amount now⟩

/-- A minted request is cleared until its token expires. -/
theorem Handed.cleared_minted {engine : GatedEngine} {handed : Handed} {tenant merchant : String}
    {approvals : List String} {minted ttlMs : Int}
    (token
      : handed.request.authorization
        = some
          ((engine.gate handed.issuer).authorizer.mint
            (handed.request.identity handed.request.idempotencyKey) tenant merchant approvals
            minted ttlMs))
    : handed.Cleared engine ↔ handed.at_ ≤ minted + ttlMs := by
  have passes := AuthorizingBroadcaster.forwards_minted token handed.at_
  exact ⟨fun cleared => passes.mp cleared.2,
    fun timely => ⟨PayoutRequest.authorized_minted token, passes.mpr timely⟩⟩

/-- A token of the engine's own, minted as it is handed over, has not expired. -/
theorem Handed.cleared_internal {engine : GatedEngine} {handed : Handed} {purpose : String}
    (token
      : handed.request.authorization
        = some
          (mintInternalAuthorization (engine.gate handed.issuer).authorizer
            (handed.request.identity handed.request.idempotencyKey) purpose handed.at_))
    : handed.Cleared engine := by
  apply (Handed.cleared_minted token).mpr
  unfold FeeSweepService.internalAuthTtlMs
  omega

/-- An inline fee leg carries no token, and is refused at every instant. -/
theorem Issued.inline_refused (engine : GatedEngine) (now : Int) (p : PayoutParams)
    (sweep : Sweep) (leg : GatheredLeg)
    : (engine.gate .inlineFeeLeg).forwards now (PayoutService.feeRequest p sweep leg) = false :=
  AuthorizingBroadcaster.not_forwards_of_no_authorization rfl rfl now

/-- Each call site authorizes its transfers, save the inline fee legs. -/
theorem Issued.cleared_iff {engine : GatedEngine} {handed : Handed}
    (issued : Issued engine handed)
    : handed.Cleared engine ↔ handed.Timely engine := by
  cases issued with
  | payoutLeg now lease payment leg =>
      exact Handed.cleared_minted
        (PayoutService.legRequest_authorization engine.payoutsSigned lease payment leg)
  | inlineFeeLeg now p sweep leg =>
      have refused := Issued.inline_refused engine now p sweep leg
      refine iff_of_false (fun cleared => ?_) id
      have passes := cleared.2
      unfold GatedEngine.passes at passes
      rw [refused] at passes
      cases passes
  | sweptLeg now asset cursor =>
      refine iff_of_true ?_ trivial
      apply Handed.cleared_internal
      exact FeeSweepService.sweepRequest_authorization engine.sweepsSigned asset cursor now
  | gasTopUp now input treasury amount =>
      refine iff_of_true ?_ trivial
      apply Handed.cleared_internal
      exact BroadcasterGasFunder.fundRequest_authorization engine.gasSigned input treasury
        amount now

-----------------------------------------------------------------------------
-- The record of a run

namespace GatedEngine

variable {engine : GatedEngine} {state next : EngineState} {event : EngineEvent}
  {handed : Handed}

/-- A call hands over a leg of its payout or a fee leg. -/
theorem issued_of_handedByCall {now : Int} {task : Task}
    (hands : engine.handedByCall now task = some handed)
    : Issued engine handed := by
  unfold handedByCall at hands
  split at hands
  case h_1 caller lease payment =>
    obtain ⟨leg, -, rfl⟩ := Option.map_eq_some_iff.mp hands
    exact .payoutLeg now lease payment leg
  case h_2 caller lease payment sweep =>
    obtain ⟨leg, -, rfl⟩ := Option.map_eq_some_iff.mp hands
    exact .inlineFeeLeg now lease.p sweep leg
  case h_3 => cases hands

/-- A sweep hands over the leg under its cursor. -/
theorem issued_of_handedBySweep {now : Int} {running : Option (SweepVars × SweepStage)}
    (hands : engine.handedBySweep now running = some handed)
    : Issued engine handed := by
  unfold handedBySweep at hands
  split at hands
  case h_1 vars cursor =>
    cases hands
    exact .sweptLeg now vars.asset cursor
  case h_2 => cases hands

/-- Whatever an event hands over comes from one of the four call sites. -/
theorem issued_of_hands (hands : engine.hands state event = some handed)
    : Issued engine handed := by
  unfold GatedEngine.hands at hands
  split at hands
  case h_1 input held =>
    dsimp only at hands
    split at hands
    case h_1 request funds =>
      cases hands
      obtain ⟨treasury, amount, rfl⟩ := BroadcasterGasFunder.fund_eq_some funds
      exact .gasTopUp _ input treasury amount
    case h_2 => cases hands
  case h_2 =>
    split at hands
    case h_1 =>
      obtain ⟨task, -, byCall⟩ := Option.bind_eq_some_iff.mp hands
      exact issued_of_handedByCall byCall
    case h_2 =>
      obtain ⟨running, -, bySweep⟩ := Option.bind_eq_some_iff.mp hands
      exact issued_of_handedBySweep bySweep
    case h_3 => cases hands

/-- A step adds what it hands over to the record. -/
theorem step_handed (taken : engine.step state event = some next)
    : next.handed = state.handed ++ (engine.hands state event).toList
      ∧ (event.completes = true → (engine.hands state event).all engine.passes = true)
      ∧ ∃ ran, engine.run state event = some ran ∧ next.payouts = ran.payouts := by
  unfold step at taken
  dsimp only at taken
  split at taken
  case isTrue => cases taken
  case isFalse gated =>
    obtain ⟨ran, ranTo, rfl⟩ := Option.map_eq_some_iff.mp taken
    refine ⟨rfl, fun completes => ?_, ran, ranTo, rfl⟩
    simpa [completes] using gated

/-- Everything on record comes from one of the call sites. -/
def Records (engine : GatedEngine) (state : EngineState) : Prop :=
  ∀ handed ∈ state.handed, Issued engine handed

theorem Records.step (records : engine.Records state)
    (taken : engine.step state event = some next)
    : engine.Records next := by
  obtain ⟨record, -, -⟩ := step_handed taken
  intro handed recorded
  rw [record, List.mem_append, Option.mem_toList] at recorded
  rcases recorded with before | now
  · exact records handed before
  · exact issued_of_hands now

end GatedEngine

/-- In every run of an engine with a policy key, every transfer that is handed to the
broadcaster is authorized as itself and forwarded by the gate, exactly where it is no inline
fee leg and, for a payout leg, its call began at most the lifetime of a token ago.
-/
theorem engine_transfers_cleared_iff {engine : GatedEngine} {start state : EngineState}
    (fresh : start.handed = [])
    (reached : Reaches engine.step (fun _ _ => True) start state)
    : ∀ handed ∈ state.handed, handed.Cleared engine ↔ handed.Timely engine := by
  have records : engine.Records state :=
    reached.invariant (by simp [GatedEngine.Records, fresh])
      fun records _ taken => records.step taken
  intro handed recorded
  exact (records handed recorded).cleared_iff

-----------------------------------------------------------------------------
-- One payout and the fee leg at its end

/-- A signer with the digests that SHA-256 and, under the key `policy-key`, HMAC-SHA-256 give
for the one leg of the sample payout.
-/
def sampleSigner : AuthorizationSigner :=
  { policyVersion := "v1"
    sha256Hex := fun _ => "4b63a82241b85c3942830cbd5c233c2cc801bb6ecd28100a7cc38daa703e4e5b"
    hmac := fun _ => "a6d9180e9ec81026f736c21b3bc8ff9aefe59d819b6e942368bc5c2112051d78" }

def sampleEngine : GatedEngine :=
  { deployment :=
      { plainDeployment with
          authorizer := some sampleSigner
          feeSweep :=
            some { dustThresholdBaseUnits := 0, treasuryAddressFor := fun _ => some "fees" } }
    sweeps :=
      { casing := asciiCasing, treasuryAddressFor := fun _ => some "fees"
        gatherStrategies := none, authorizer := some sampleSigner, leaseTtlMs := none
        hasKillSwitch := false, dustThresholdBaseUnits := 0 }
    gas :=
      { nativeAssetOf := fun _ => "TRX", treasuryOf := fun _ => none, topUpMultiple := none
        authorizer := some sampleSigner }
    signer := sampleSigner
    gasSigner := sampleSigner
    payoutsSigned := rfl
    sweepsSigned := rfl
    gasSigned := rfl }

/-- A deposit of 110 of which the merchant is owed 100. -/
def depositWithFee : JournalEntry :=
  { id := "deposit", idempotencyKey := "deposit", kind := "deposit.finalized"
    postings :=
      [ ⟨poolAddr "TRON" "m", "USDT", 110, .debit⟩,
        ⟨merchantAvailable "t" "m", "USDT", 100, .credit⟩,
        ⟨feeRevenue "t", "USDT", 10, .credit⟩ ] }

/-- A payout of what the merchant is owed up to its fee leg, and the throw of the gate. -/
def sweepingPayout : List EngineEvent :=
  [ .payout (.post depositWithFee), .payout (.call (.payout samplePayout)) ]
  ++ List.replicate 13 (.payout (.resume 0 (sampleReply "a" [110])))
  ++ [.payout (.reject 0 AuthorizingBroadcaster.unauthorized)]

/-- The state before anything is posted or called. -/
def idleEngine : EngineState :=
  { payouts := { store := emptyStore, tasks := [] }, sweeps := [], handed := [] }

/-- The fee leg of the payout carries no token. Its gate refuses it whenever it comes, and the
payout returns without it.
-/
theorem inline_fee_leg_refused
    : ∃ state,
        Reaches sampleEngine.step (fun _ _ => True) idleEngine state
        ∧ ∃ handed ∈ state.handed,
            handed.request.authorization = none
            ∧ ∀ now, (sampleEngine.gate handed.issuer).forwards now handed.request = false := by
  have run
      : ∃ state,
          Reaches sampleEngine.step (fun _ _ => True) idleEngine state
          ∧ ∃ handed ∈ state.handed, handed.request.authorization = none :=
    Reaches.exists_of_exec sweepingPayout (by decide +kernel)
  obtain ⟨state, reached, handed, recorded, noToken⟩ := run
  have required : (sampleEngine.gate handed.issuer).mode = .require := by
    cases handed.issuer <;> rfl
  exact ⟨state, reached, handed, recorded, noToken,
    AuthorizingBroadcaster.not_forwards_of_no_authorization required noToken⟩

/-- Of the two transfers of the payout the gate forwards the first. -/
theorem engine_transfers_cleared_in_payout
    : ∃ state,
        Reaches sampleEngine.step (fun _ _ => True) idleEngine state
        ∧ state.handed.map (·.issuer) = [.payoutLeg 0, .inlineFeeLeg]
        ∧ ∀ handed ∈ state.handed,
            handed.Cleared sampleEngine ↔ handed.Timely sampleEngine := by
  have run
      : ∃ state,
          Reaches sampleEngine.step (fun _ _ => True) idleEngine state
          ∧ state.handed.map (·.issuer) = [.payoutLeg 0, .inlineFeeLeg] :=
    Reaches.exists_of_exec sweepingPayout (by decide +kernel)
  obtain ⟨state, reached, record⟩ := run
  exact ⟨state, reached, record, engine_transfers_cleared_iff rfl reached⟩

end Cixtech.Treasury
