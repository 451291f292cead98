import Cixtech.Ingest.DepositIngestor
import Cixtech.Payout.Service

/-! The console's fee sweep as a procedure that is resumed once for each await. It goes over
the pool groups, holds the gather lease of one group at a time, and sends and posts the legs
of the group's plan one after another; a leg that throws is noted and passed over.
-/

namespace Cixtech.Treasury

open Cixtech.Attribution Cixtech.Common Cixtech.Foundation Cixtech.Ledger Cixtech.Payout

/-- A row of `poolAddress.groups`. -/
structure PoolGroup where
  tenant : Uuid
  merchant : Uuid
  chain : String
  deriving DecidableEq

structure SweepSkip where
  merchant : String
  chain : String
  reason : String
  deriving DecidableEq, Repr

structure FeeSweepResult where
  sweptCount : Nat
  totalSweptAmount : String
  asset : String
  skipped : List SweepSkip
  deriving DecidableEq, Repr

/-- What the service is constructed with. Without a lease it spends unguarded, and without a
kill-switch it is never halted.
-/
structure FeeSweepConfig where
  casing : Casing
  treasuryAddressFor : String → Option String
  gatherStrategies : Option (List GatherStrategyKind)
  authorizer : Option AuthorizationSigner
  leaseTtlMs : Option Int
  hasKillSwitch : Bool
  dustThresholdBaseUnits : Int

/-- What the world outside answers to one awaited call. -/
structure SweepReply where
  halted : Bool
  groups : List PoolGroup
  balances : List AddressBalance

/-- A leg that was handed to the broadcaster: whose pool it empties, the asset it was asked
for in, and the request. No code reads this record.
-/
structure SweepSend where
  group : PoolGroup
  asset : String
  leg : GatheredLeg
  request : PayoutRequest
  deriving DecidableEq

/-- A leg of a plan with what is left to do after it. -/
structure LegCursor where
  group : PoolGroup
  treasuryAddress : String
  leg : GatheredLeg
  later : List GatheredLeg
  rest : List PoolGroup

inductive SweepStage
  | killSwitch
  | groups
  | acquire (group : PoolGroup) (treasuryAddress : String) (rest : List PoolGroup) (asked : Int)
  | plan (group : PoolGroup) (treasuryAddress : String) (rest : List PoolGroup)
  | prepare (cursor : LegCursor)
  | send (cursor : LegCursor)
  | post (cursor : LegCursor)
  | release (group : PoolGroup) (rest : List PoolGroup) (failure : Option AppError)

/-- The variables of a running `sweep()`. -/
structure SweepVars where
  asset : String
  skipped : List SweepSkip
  sweptCount : Nat
  total : Int

/-- Where a sweep is after a step: at its next await, or returned or thrown. -/
inductive SweepProgress
  | awaiting (vars : SweepVars) (stage : SweepStage)
  | finished (outcome : Except AppError FeeSweepResult)

/-- The tables and the record that a sweep works on. -/
structure SweepStore where
  ledger : SqlLedger
  leases : List LeaseRow
  clock : Int
  sends : List SweepSend

namespace SweepVars

def start (asset : String) : SweepVars := { asset, skipped := [], sweptCount := 0, total := 0 }

/-- `skipped.push({ merchant, chain, reason })`. -/
def skip (vars : SweepVars) (group : PoolGroup) (reason : String) : SweepVars :=
  { vars with
      skipped :=
        vars.skipped ++ [{ merchant := group.merchant.text, chain := group.chain, reason }] }

def counted (vars : SweepVars) (amount : Int) : SweepVars :=
  { vars with sweptCount := vars.sweptCount + 1, total := vars.total + amount }

def result (vars : SweepVars) : FeeSweepResult :=
  { sweptCount := vars.sweptCount, totalSweptAmount := toString vars.total
    asset := vars.asset, skipped := vars.skipped }

end SweepVars

namespace FeeSweepService

def haltedError : AppError :=
  { code := .sweepHalted
    message := "Kill-switch is engaged — refusing to move funds. Resume payouts first."
    context := [] }

/-- `console-sweep:${asset}`. -/
def holder (asset : String) : String := "console-sweep:" ++ asset

def leaseKey (config : FeeSweepConfig) (group : PoolGroup) : String :=
  GatherLease.key config.casing group.tenant.text group.merchant.text group.chain

/-- `fee-sweep:${chain}:${address}:${asset}:${amount}`. -/
def legKey (group : PoolGroup) (asset : String) (leg : GatheredLeg) : String :=
  "fee-sweep:" ++ group.chain ++ ":" ++ leg.address ++ ":" ++ asset ++ ":"
    ++ toString leg.amountBaseUnits

def internalAuthTtlMs : Int := 300000

def sweepRequest (config : FeeSweepConfig) (asset : String) (cursor : LegCursor) (now : Int)
    : PayoutRequest :=
  let legKey := legKey cursor.group asset cursor.leg
  { chain := cursor.group.chain, asset, amountBaseUnits := cursor.leg.amountBaseUnits
    fromAddress := cursor.leg.address, fromDerivationIndex := cursor.leg.derivationIndex
    toAddress := cursor.treasuryAddress, idempotencyKey := legKey
    authorization := config.authorizer.map fun signer =>
      signer.mint
        { intentId := legKey, chain := cursor.group.chain, asset
          amount := toString cursor.leg.amountBaseUnits, destination := cursor.treasuryAddress
          fromAddress := cursor.leg.address }
        "engine" "fee-sweep" [] now internalAuthTtlMs }

/-- The input of the posting that follows a sent leg. -/
def sweptInput (casing : Casing) (group : PoolGroup) (asset : String) (leg : GatheredLeg)
    : FeeSweptInput :=
  { id := legKey group asset leg, idempotencyKey := legKey group asset leg
    asset := casing.toUpperCase asset, amount := leg.amountBaseUnits
    poolAddr := poolAddr group.chain group.merchant.text, treasury := treasury group.chain
    networkFee := none }

def noTreasury : String := "no treasury address configured"

def leaseHeld : String := "a payout is spending these addresses right now"

def belowDust : String := "claim is below the dust threshold — not worth the gas"

def notHeld : String := "claim is not held on this chain"

/-- The top of the loop over the groups: a group without a treasury address is passed over,
and the sweep returns when no group is left.
-/
def enterGroups (config : FeeSweepConfig) (clock : Int)
    : SweepVars → List PoolGroup → SweepProgress
  | vars, [] => .finished (.ok vars.result)
  | vars, group :: rest =>
      match PayoutService.truthy (config.treasuryAddressFor group.chain) with
      | none => enterGroups config clock (vars.skip group noTreasury) rest
      | some treasuryAddress =>
          match config.leaseTtlMs with
          | some _ => .awaiting vars (.acquire group treasuryAddress rest clock)
          | none => .awaiting vars (.plan group treasuryAddress rest)

/-- The `finally` of a group: its lease is released where there is one. -/
def leaveGroup (config : FeeSweepConfig) (clock : Int) (vars : SweepVars) (group : PoolGroup)
    (rest : List PoolGroup) (failure : Option AppError)
    : SweepProgress :=
  match config.leaseTtlMs, failure with
  | some _, _ => .awaiting vars (.release group rest failure)
  | none, some err => .finished (.error err)
  | none, none => enterGroups config clock vars rest

/-- The top of the loop over the legs: a leg without a registered strategy is passed over. -/
def enterLegs (config : FeeSweepConfig) (clock : Int) (group : PoolGroup)
    (treasuryAddress : String) (rest : List PoolGroup)
    : SweepVars → List GatheredLeg → SweepProgress
  | vars, [] => leaveGroup config clock vars group rest none
  | vars, leg :: later =>
      let cursor : LegCursor := { group, treasuryAddress, leg, later, rest }
      match config.gatherStrategies with
      | none => .awaiting vars (.send cursor)
      | some kinds =>
          if kinds.contains leg.gatherStrategy then .awaiting vars (.prepare cursor)
          else
            let err := PayoutService.unknownGatherStrategy kinds leg.gatherStrategy
            enterLegs config clock group treasuryAddress rest (vars.skip group err.message) later

def nextLeg (config : FeeSweepConfig) (clock : Int) (vars : SweepVars) (cursor : LegCursor)
    : SweepProgress :=
  enterLegs config clock cursor.group cursor.treasuryAddress cursor.rest vars cursor.later

/-- Begin `sweep()`. -/
def enter (config : FeeSweepConfig) (asset : String) : SweepProgress :=
  .awaiting (.start asset) (if config.hasKillSwitch then .killSwitch else .groups)

/-- Perform what a sweep awaits and run on to its next await. -/
def advance (config : FeeSweepConfig) (store : SweepStore) (reply : SweepReply)
    (vars : SweepVars)
    : SweepStage → SweepStore × SweepProgress
  | .killSwitch =>
      if reply.halted then (store, .finished (.error haltedError))
      else (store, .awaiting vars .groups)
  | .groups => (store, enterGroups config store.clock vars reply.groups)
  | .acquire group treasuryAddress rest asked =>
      let (leases, got) :=
        GatherLease.acquire store.leases (leaseKey config group) (holder vars.asset) asked
          (asked + config.leaseTtlMs.getD 0)
      if got then ({ store with leases }, .awaiting vars (.plan group treasuryAddress rest))
      else (store, enterGroups config store.clock (vars.skip group leaseHeld) rest)
  | .plan group treasuryAddress rest =>
      match FeeSweepPlanner.plan store.ledger config.dustThresholdBaseUnits group.tenant.text
          group.merchant.text group.chain vars.asset [] reply.balances with
      | .error err => (store, leaveGroup config store.clock vars group rest (some err))
      | .ok plan =>
          if plan.claimBaseUnits ≤ 0 then
            (store, leaveGroup config store.clock vars group rest none)
          else if plan.legs = [] then
            let reason := if plan.skippedDust > 0 then belowDust else notHeld
            (store, leaveGroup config store.clock (vars.skip group reason) group rest none)
          else
            (store, enterLegs config store.clock group treasuryAddress rest vars plan.legs)
  | .prepare cursor => (store, .awaiting vars (.send cursor))
  | .send cursor =>
      let sent : SweepSend :=
        { group := cursor.group, asset := vars.asset, leg := cursor.leg
          request := sweepRequest config vars.asset cursor store.clock }
      ({ store with sends := store.sends ++ [sent] }, .awaiting vars (.post cursor))
  | .post cursor =>
      match feeSwept (sweptInput config.casing cursor.group vars.asset cursor.leg)
          >>= LedgerService.post store.ledger with
      | .error err =>
          (store, nextLeg config store.clock (vars.skip cursor.group err.message) cursor)
      | .ok (ledger, _) =>
          ({ store with ledger },
            nextLeg config store.clock (vars.counted cursor.leg.amountBaseUnits) cursor)
  | .release group rest failure =>
      let leases :=
        GatherLease.release store.leases (leaseKey config group) (holder vars.asset)
      let next :=
        match failure with
        | some err => .finished (.error err)
        | none => enterGroups config store.clock vars rest
      ({ store with leases }, next)

/-- Where a sweep goes when what it awaits throws: a leg is noted and passed over, the lease
is released on the way out, and everything else ends the sweep.
-/
def throwAt (config : FeeSweepConfig) (clock : Int) (err : AppError) (vars : SweepVars)
    : SweepStage → SweepProgress
  | .plan group _ rest => leaveGroup config clock vars group rest (some err)
  | .prepare cursor => nextLeg config clock (vars.skip cursor.group err.message) cursor
  | .send cursor => nextLeg config clock (vars.skip cursor.group err.message) cursor
  | .post cursor => nextLeg config clock (vars.skip cursor.group err.message) cursor
  | _ => .finished (.error err)

end FeeSweepService

end Cixtech.Treasury
