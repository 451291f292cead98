import Cixtech.Common.AppError
import Cixtech.Common.Instant
import Mathlib.Algebra.Ring.Int.Defs
import Mathlib.Data.List.Dedup

/-! The policy engine. The kill-switch, the stored allow-list, the sanctions screen and the
solvency oracle are other components, asked one after another; what they answer is an input
here. The velocity window is a table of its own and is read, compared and written in one
transaction.
-/

namespace Cixtech.Payout

open Cixtech.Common

structure PayoutContext where
  tenant : String
  merchant : String
  chain : String
  asset : String
  amountBaseUnits : Int
  destination : String
  requester : Option String
  approvals : Option (List String)
  requestedAt : Option Int
  deriving DecidableEq, Repr

structure ApprovalPolicy where
  thresholdBaseUnits : Int
  required : Nat
  deriving DecidableEq, Repr

structure TimeLockPolicy where
  thresholdBaseUnits : Int
  delayMs : Int
  deriving DecidableEq, Repr

structure VelocityConfig where
  windowMs : Int
  maxTotalBaseUnits : Int
  deriving DecidableEq, Repr

structure PolicyConfig where
  maxPerPayoutBaseUnits : Int
  allowlist : List String
  approval : Option ApprovalPolicy
  timeLock : Option TimeLockPolicy
  velocity : Option VelocityConfig
  deriving DecidableEq, Repr

/-- What the components behind the optional gates answer. A gate that is not configured
answers as one that never refuses, and a missing allow-list store allows nothing.
-/
structure PolicyAnswers where
  killSwitchEngaged : Bool
  storeAllows : Bool
  sanctioned : Bool
  solvent : Bool
  deriving DecidableEq, Repr

inductive PolicyDecision
  | allow
  | deny (reason : String)
  | requireApproval (needed : Nat) (have_ : Nat)
  | hold (reason : String)
  | delay (until_ : Int)
  deriving DecidableEq, Repr

/-- A row of `policy_payout_log`. -/
structure PayoutLogRow where
  tenant : String
  merchant : String
  asset : String
  amountBaseUnits : Int
  at_ : Int
  deriving DecidableEq, Repr

namespace SqlVelocityLimiter

/-- The rows of one tenant, merchant and asset. -/
def sameWindow (ctx : PayoutContext) (row : PayoutLogRow) : Bool :=
  row.tenant == ctx.tenant && row.merchant == ctx.merchant && row.asset == ctx.asset

/-- `spentSince`. -/
def spentSince (log : List PayoutLogRow) (ctx : PayoutContext) (since : Int) : Int :=
  ((log.filter fun row => sameWindow ctx row && since ≤ row.at_).map
    (·.amountBaseUnits)).sum

/-- Admit a payout into the rolling window, recording it and pruning what left the window,
or refuse it and leave the log as it was.
-/
def admitPayout (config : VelocityConfig) (log : List PayoutLogRow) (ctx : PayoutContext)
    (now : Int)
    : Option (List PayoutLogRow) :=
  let cutoff := now - config.windowMs
  if spentSince log ctx cutoff + ctx.amountBaseUnits > config.maxTotalBaseUnits then none
  else
    let row : PayoutLogRow :=
      { tenant := ctx.tenant, merchant := ctx.merchant, asset := ctx.asset
        amountBaseUnits := ctx.amountBaseUnits, at_ := now }
    some ((log ++ [row]).filter fun row => !(sameWindow ctx row && row.at_ < cutoff))

end SqlVelocityLimiter

namespace PolicyEngine

/-- The distinct approvers that are not empty and not the requester. -/
def approvers (ctx : PayoutContext) : List String :=
  ((ctx.approvals.getD []).filter fun approver =>
    approver != "" && some approver != ctx.requester).dedup

/-- The gates up to the velocity window, in the order they are asked; `none` when all of
them pass.
-/
def gates (config : PolicyConfig) (answers : PolicyAnswers) (ctx : PayoutContext) (now : Int)
    : Option PolicyDecision :=
  if answers.killSwitchEngaged then
    some (.deny "Payouts are halted (kill-switch engaged)")
  else if ctx.amountBaseUnits ≤ 0 then some (.deny "Payout amount must be positive")
  else if ctx.amountBaseUnits > config.maxPerPayoutBaseUnits then
    some (.deny "Payout exceeds the per-payout limit")
  else if !config.allowlist.contains ctx.destination && !answers.storeAllows then
    some (.deny "Destination is not allow-listed or still in cool-down")
  else if answers.sanctioned then some (.hold "Destination is sanctions-screened")
  else if !answers.solvent then
    some (.deny "Refused: solvency invariant not satisfied for asset")
  else
    let approval := config.approval.bind fun policy =>
      if ctx.amountBaseUnits > policy.thresholdBaseUnits
          ∧ (approvers ctx).length < policy.required then
        some (PolicyDecision.requireApproval policy.required (approvers ctx).length)
      else none
    let timeLock := config.timeLock.bind fun policy =>
      -- No clock is before an invalid date, so a lock that ends at one lets the payout pass.
      (dateOf (ctx.requestedAt.getD now + policy.delayMs)).bind fun until_ =>
        if ctx.amountBaseUnits > policy.thresholdBaseUnits ∧ now < until_ then
          some (PolicyDecision.delay until_)
        else none
    approval.or timeLock

/-- Decide a payout and charge the velocity window of one that every gate passes. -/
def evaluate (config : PolicyConfig) (answers : PolicyAnswers) (log : List PayoutLogRow)
    (ctx : PayoutContext) (now : Int)
    : PolicyDecision × List PayoutLogRow :=
  match gates config answers ctx now with
  | some decision => (decision, log)
  | none =>
      match config.velocity with
      | none => (.allow, log)
      | some velocity =>
          match SqlVelocityLimiter.admitPayout velocity log ctx now with
          | none => (.deny "Payout exceeds the rolling velocity limit", log)
          | some charged => (.allow, charged)

/-- The error that `check` throws for a decision, none for a payout that is allowed. -/
def refusal (ctx : PayoutContext) : PolicyDecision → Option AppError
  | .allow => none
  | .requireApproval needed have_ =>
      some
        { code := .policyApprovalRequired
          message := s!"Payout requires {needed} distinct approvals (have {have_})"
          context := [("needed", .number needed), ("have", .number have_)] }
  | .hold reason =>
      some
        { code := .policyComplianceHold, message := reason
          context := [("destination", .text ctx.destination)] }
  | .delay until_ =>
      some
        { code := .policyTimeLocked
          message := s!"Payout is time-locked until {toISOString until_}"
          context := [("until", .text (toISOString until_))] }
  | .deny reason =>
      some
        { code := .policyDenied, message := reason
          context :=
            [ ("merchant", .text ctx.merchant), ("destination", .text ctx.destination),
              ("requested", .text (toString ctx.amountBaseUnits)) ] }

end PolicyEngine

end Cixtech.Payout
