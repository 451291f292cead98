import Cixtech.Payout.Service

/-! The gate in front of the chain broadcaster. A transfer passes it with a token that the
policy signed for this very transfer.
-/

namespace Cixtech.Payout

open Cixtech.Common

inductive GateMode
  | require
  | optional
  deriving DecidableEq, Repr

structure AuthorizingBroadcaster where
  authorizer : AuthorizationSigner
  mode : GateMode

/-- What a commitment to a request as a transfer of an intent covers. -/
def PayoutRequest.identity (req : PayoutRequest) (intentId : String) : TransferIdentity :=
  { intentId, chain := req.chain, asset := req.asset, amount := toString req.amountBaseUnits
    destination := req.toAddress, fromAddress := req.fromAddress }

/-- The request carries a token of the signer whose commitment covers exactly its intent,
chain, asset, amount, destination and source.
-/
def PayoutRequest.Authorized (signer : AuthorizationSigner) (req : PayoutRequest) : Prop :=
  ∃ token,
    req.authorization = some token
    ∧ token.signature = signer.hmac token.claims
    ∧ token.claims.intentId = req.idempotencyKey
    ∧ token.claims.sighash = signer.transferCommitment (req.identity req.idempotencyKey)

namespace AuthorizingBroadcaster

def unauthorized : AppError :=
  AuthorizationSigner.invalid "Refusing to broadcast a payout without authorization" []

/-- The request that the inner broadcaster is given, unless the gate throws. -/
def send (gate : AuthorizingBroadcaster) (now : Int) (req : PayoutRequest)
    : Except AppError PayoutRequest :=
  match req.authorization with
  | none =>
      match gate.mode with
      | .require => .error unauthorized
      | .optional => .ok req
  | some token => do
      let expectedSighash :=
        gate.authorizer.transferCommitment (req.identity token.claims.intentId)
      let _ ← gate.authorizer.verify token (some expectedSighash) now
      return req

/-- Whether the gate lets a request through. -/
def forwards (gate : AuthorizingBroadcaster) (now : Int) (req : PayoutRequest) : Bool :=
  (gate.send now req).toBool

/-- A gate that requires a token refuses a request without one, whenever it comes. -/
theorem not_forwards_of_no_authorization {gate : AuthorizingBroadcaster} {req : PayoutRequest}
    (required : gate.mode = .require) (bare : req.authorization = none) (now : Int)
    : gate.forwards now req = false := by
  simp [forwards, send, bare, required, Except.toBool]

/-- A request with the token minted for it passes until the token expires. -/
theorem forwards_minted {gate : AuthorizingBroadcaster} {req : PayoutRequest}
    {tenant merchant : String} {approvals : List String} {minted ttlMs : Int}
    (token
      : req.authorization
        = some
          (gate.authorizer.mint (req.identity req.idempotencyKey) tenant merchant approvals
            minted ttlMs))
    (now : Int)
    : gate.forwards now req = true ↔ now ≤ minted + ttlMs := by
  have verified :=
    gate.authorizer.verify_mint (req.identity req.idempotencyKey) tenant merchant approvals
      minted ttlMs now
  have sent
      : gate.send now req
        = (do
            let _ ←
              gate.authorizer.verify
                (gate.authorizer.mint (req.identity req.idempotencyKey) tenant merchant
                  approvals minted ttlMs)
                (some (gate.authorizer.transferCommitment (req.identity req.idempotencyKey)))
                now
            return req) := by
    unfold send
    rw [token]
    rfl
  unfold forwards
  rw [sent, verified]
  split
  case isTrue late => simp [Except.toBool, bind, Except.bind]; omega
  case isFalse early => simp [Except.toBool, bind, Except.bind, pure, Except.pure]; omega

end AuthorizingBroadcaster

/-- A request with the token minted for it is authorized. -/
theorem PayoutRequest.authorized_minted {signer : AuthorizationSigner} {req : PayoutRequest}
    {tenant merchant : String} {approvals : List String} {minted ttlMs : Int}
    (token
      : req.authorization
        = some
          (signer.mint (req.identity req.idempotencyKey) tenant merchant approvals minted
            ttlMs))
    : req.Authorized signer :=
  ⟨_, token, rfl, rfl, rfl⟩

end Cixtech.Payout
