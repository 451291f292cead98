import Cixtech.Payout.AuthorizingBroadcaster
import Cixtech.Treasury.FeeSweepService

/-! Native gas for an address that is about to send a token. The engine authorizes its own
transfers, here and in the fee sweep, with tokens that name a purpose for a merchant.
-/

namespace Cixtech.Treasury

open Cixtech.Common Cixtech.Payout

def internalTenant : String := "engine"

/-- A token for a transfer that no merchant asked for. -/
def mintInternalAuthorization (authorizer : AuthorizationSigner) (t : TransferIdentity)
    (purpose : String) (now : Int)
    : AuthorizationToken :=
  authorizer.mint t internalTenant purpose [] now FeeSweepService.internalAuthTtlMs

structure GasTreasury where
  address : String
  derivationIndex : Nat

structure BroadcasterGasFunderConfig where
  nativeAssetOf : String → String
  treasuryOf : String → Option GasTreasury
  topUpMultiple : Option Int
  authorizer : Option AuthorizationSigner

structure FundInput where
  chain : String
  address : String
  minNativeBaseUnits : Int
  idempotencyKey : String
  deriving DecidableEq, Repr

namespace BroadcasterGasFunder

def noTreasury (input : FundInput) : AppError :=
  .plain
    s!"No gas treasury configured for {input.chain}; cannot fund {input.address} to send a token transfer"

/-- The top-up of an address from the treasury of its chain, with its authorization. -/
def fundRequest (config : BroadcasterGasFunderConfig) (input : FundInput)
    (treasury : GasTreasury) (amount now : Int)
    : PayoutRequest :=
  let native := config.nativeAssetOf input.chain
  { chain := input.chain, asset := native, amountBaseUnits := amount
    fromAddress := treasury.address, fromDerivationIndex := treasury.derivationIndex
    toAddress := input.address, idempotencyKey := input.idempotencyKey
    authorization := config.authorizer.map fun authorizer =>
      mintInternalAuthorization authorizer
        { intentId := input.idempotencyKey, chain := input.chain, asset := native
          amount := toString amount, destination := input.address
          fromAddress := treasury.address }
        "gas-top-up" now }

/-- `fund()` once the native balance of the address is known: what it hands to the
broadcaster, none where the address holds enough.
-/
def fund (config : BroadcasterGasFunderConfig) (input : FundInput) (held now : Int)
    : Except AppError (Option PayoutRequest) :=
  if input.minNativeBaseUnits ≤ held then .ok none
  else
    match config.treasuryOf input.chain with
    | none => .error (noTreasury input)
    | some treasury =>
        let target := input.minNativeBaseUnits * config.topUpMultiple.getD 1
        .ok (some (fundRequest config input treasury (target - held) now))

/-- What is handed over is a top-up. -/
theorem fund_eq_some {config : BroadcasterGasFunderConfig} {input : FundInput}
    {held now : Int} {req : PayoutRequest}
    (funds : fund config input held now = .ok (some req))
    : ∃ treasury amount, req = fundRequest config input treasury amount now := by
  unfold fund at funds
  split at funds
  case isTrue => cases funds
  case isFalse =>
    split at funds
    case h_1 => cases funds
    case h_2 treasury _ => cases funds; exact ⟨treasury, _, rfl⟩

/-- A top-up carries the token minted for it. -/
theorem fundRequest_authorization {config : BroadcasterGasFunderConfig}
    {authorizer : AuthorizationSigner} (signed : config.authorizer = some authorizer)
    (input : FundInput) (treasury : GasTreasury) (amount now : Int)
    : let req := fundRequest config input treasury amount now
      req.authorization
      = some
        (mintInternalAuthorization authorizer (req.identity req.idempotencyKey) "gas-top-up"
          now) := by
  simp [fundRequest, signed, PayoutRequest.identity]

end BroadcasterGasFunder

/-- So does a leg of the console's fee sweep. -/
theorem FeeSweepService.sweepRequest_authorization {config : FeeSweepConfig}
    {authorizer : AuthorizationSigner} (signed : config.authorizer = some authorizer)
    (asset : String) (cursor : LegCursor) (now : Int)
    : let req := sweepRequest config asset cursor now
      req.authorization
      = some
        (mintInternalAuthorization authorizer (req.identity req.idempotencyKey) "fee-sweep"
          now) := by
  simp [sweepRequest, signed, PayoutRequest.identity, mintInternalAuthorization, internalTenant]

end Cixtech.Treasury

namespace Cixtech.Payout

/-- A leg of a payout carries the token minted for it as of the instant its call began. -/
theorem PayoutService.legRequest_authorization {d : Deployment}
    {authorizer : AuthorizationSigner} (signed : d.authorizer = some authorizer)
    (lease : Lease) (payment : Payment lease.p.amountBaseUnits)
    (leg : Attribution.GatheredLeg)
    : let req := legRequest d lease payment leg
      req.authorization
      = some
        (authorizer.mint (req.identity req.idempotencyKey) lease.p.tenant lease.p.merchant
          (lease.p.approvals.getD []) lease.now d.authTtlMs) := by
  simp [legRequest, signed, PayoutRequest.identity]

end Cixtech.Payout
