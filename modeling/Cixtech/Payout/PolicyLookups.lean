import Cixtech.Foundation.Table
import Cixtech.Ledger.Solvency
import Cixtech.Payout.Policy

/-! The components that the policy engine asks, as the server constructs it: the stored
allow-list with its cool-down, the sanctions list, the solvency of the ledger's totals and the
velocity log. Each looks a request up under the texts it was written with.
-/

namespace Cixtech.Payout

open Cixtech.Common Cixtech.Foundation Cixtech.Ledger

/-- A row of `payout_allowlist`. -/
structure AllowlistRow where
  tenant : String
  merchant : String
  chain : String
  address : String
  usableAt : Int
  addedAt : Int
  deriving DecidableEq, Repr

/-- The primary key of the table. -/
def AllowlistRow.key (row : AllowlistRow) : String × String × String × String :=
  (row.tenant, row.merchant, row.chain, row.address)

namespace SqlAllowlist

/-- `SELECT usable_at … WHERE tenant = … AND merchant = … AND chain = … AND address = …`. -/
def usableAt (rows : List AllowlistRow) (tenant merchant chain address : String) : Option Int :=
  (Table.lookup AllowlistRow.key rows (tenant, merchant, chain, address)).map (·.usableAt)

/-- Add an address, or leave the row of one that is listed with its cool-down; the instant from
which the address is usable is returned.
-/
def add (rows : List AllowlistRow) (tenant merchant chain address : String) (cooldownMs now : Int)
    : List AllowlistRow × Int :=
  let fresh := now + max 0 cooldownMs
  let later :=
    Table.insertIgnore AllowlistRow.key rows
      { tenant, merchant, chain, address, usableAt := fresh, addedAt := now }
  (later, (usableAt later tenant merchant chain address).getD fresh)

/-- Remove an address, and say whether it was listed. -/
def remove (rows : List AllowlistRow) (tenant merchant chain address : String)
    : List AllowlistRow × Bool :=
  let gone (row : AllowlistRow) : Bool := row.key == (tenant, merchant, chain, address)
  (Table.delete rows gone, rows.any gone)

/-- Whether the destination of a payout is listed and past its cool-down. -/
def usable (rows : List AllowlistRow) (ctx : PayoutContext) (now : Int) : Bool :=
  match usableAt rows ctx.tenant ctx.merchant ctx.chain ctx.destination with
  | none => false
  | some usableAt => usableAt ≤ now

end SqlAllowlist

/-- What the components of the policy engine hold. A component that is not configured is none.
-/
structure PolicyComponents where
  killSwitchEngaged : Bool
  allowlistStore : Option (List AllowlistRow)
  /-- The set of a `DenylistSanctionsScreener`. -/
  sanctions : Option (List String)
  /-- The totals that the solvency oracle reads from the ledger store. -/
  totals : Option TotalsByType
  payoutLog : List PayoutLogRow

namespace PolicyEngine

/-- `LedgerService.isSolvent(asset)`. -/
def isSolventFor (totals : TotalsByType) (asset : String) : Bool :=
  (solvencyDrift totals [asset]).isEmpty

/-- What the components answer to a payout. -/
def answers (components : PolicyComponents) (ctx : PayoutContext) (now : Int) : PolicyAnswers :=
  { killSwitchEngaged := components.killSwitchEngaged
    storeAllows := components.allowlistStore.any fun rows => SqlAllowlist.usable rows ctx now
    sanctioned := components.sanctions.any fun blocked => blocked.contains ctx.destination
    solvent := components.totals.all fun totals => isSolventFor totals ctx.asset }

/-- The decision on a payout. -/
def decide (config : PolicyConfig) (components : PolicyComponents) (ctx : PayoutContext)
    (now : Int)
    : PolicyDecision :=
  (evaluate config (answers components ctx now) components.payoutLog ctx now).1

end PolicyEngine

/-- Limits that let one base unit through to the destinations given. -/
def narrowLimits (allowlist : List String) (velocity : Option VelocityConfig) : PolicyConfig :=
  { maxPerPayoutBaseUnits := 100, allowlist, approval := none, timeLock := none, velocity }

/-- Components that refuse nothing. -/
def openComponents (payoutLog : List PayoutLogRow) : PolicyComponents :=
  { killSwitchEngaged := false, allowlistStore := none, sanctions := none, totals := none
    payoutLog }

/-- A payout of an asset to a destination. -/
def payoutOf (asset : String) (amount : Int) (destination : String) : PayoutContext :=
  { tenant := "t", merchant := "m", chain := "POLYGON", asset, amountBaseUnits := amount
    destination, requester := none, approvals := none, requestedAt := none }

end Cixtech.Payout
