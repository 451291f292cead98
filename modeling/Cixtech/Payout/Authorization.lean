import Cixtech.Common.AppError

/-! Signed authorizations of single transfers. The two hash functions are parameters: a
token binds what it commits to as far as they do.
-/

namespace Cixtech.Payout

open Cixtech.Common

structure AuthorizationClaims where
  intentId : String
  tenant : String
  merchant : String
  chain : String
  asset : String
  amount : String
  destination : String
  sighash : String
  policyVersion : String
  approvals : List String
  decidedAt : Int
  expiresAt : Int
  deriving DecidableEq, Repr

structure AuthorizationToken where
  claims : AuthorizationClaims
  signature : String
  deriving DecidableEq, Repr

structure TransferIdentity where
  intentId : String
  chain : String
  asset : String
  amount : String
  destination : String
  fromAddress : String
  deriving DecidableEq, Repr

/-- The signer's configuration: the policy version it stamps, SHA-256 in hex, and the keyed
hash of a token's claims.
-/
structure AuthorizationSigner where
  policyVersion : String
  sha256Hex : String → String
  hmac : AuthorizationClaims → String

namespace AuthorizationSigner

/-- The text of a transfer that its commitment hashes, joined with NUL characters. -/
def commitmentText (t : TransferIdentity) : String :=
  String.intercalate "\x00"
    [t.intentId, t.chain, t.asset, t.amount, t.destination, t.fromAddress]

def transferCommitment (signer : AuthorizationSigner) (t : TransferIdentity) : String :=
  signer.sha256Hex (commitmentText t)

/-- Mint a token for one transfer of an intent. -/
def mint (signer : AuthorizationSigner) (t : TransferIdentity) (tenant merchant : String)
    (approvals : List String) (now ttlMs : Int)
    : AuthorizationToken :=
  let claims : AuthorizationClaims :=
    { intentId := t.intentId, tenant, merchant, chain := t.chain, asset := t.asset
      amount := t.amount, destination := t.destination
      sighash := signer.transferCommitment t
      policyVersion := signer.policyVersion, approvals
      decidedAt := now, expiresAt := now + ttlMs }
  { claims, signature := signer.hmac claims }

/-- The value of a hexadecimal digit. -/
def hexDigit (digit : Char) : Option Nat :=
  if '0' ≤ digit ∧ digit ≤ '9' then some (digit.toNat - 48)
  else if 'a' ≤ digit ∧ digit ≤ 'f' then some (digit.toNat - 87)
  else if 'A' ≤ digit ∧ digit ≤ 'F' then some (digit.toNat - 55)
  else none

/-- `Buffer.from(text, "hex")`: the bytes in front of the first pair that is not one. -/
def hexBytes : List Char → List Nat
  | high :: low :: rest =>
      match hexDigit high, hexDigit low with
      | some sixteens, some ones => (16 * sixteens + ones) :: hexBytes rest
      | _, _ => []
  | _ => []

def invalid (message : String) (context : List (String × ContextValue)) : AppError :=
  { code := .invalidAuthorization, message, context }

def badSignature : AppError := invalid "Authorization signature is invalid" []

def expired : AppError := invalid "Authorization token has expired" []

def unbound (claims : AuthorizationClaims) : AppError :=
  invalid "Authorization sighash does not bind the transaction being signed"
    [("authorized", .text claims.sighash)]

/-- The claims of a token that this signer minted, that has not expired and that binds the
transaction expected, if one is.
-/
def verify (signer : AuthorizationSigner) (token : AuthorizationToken)
    (expectedSighash : Option String) (now : Int)
    : Except AppError AuthorizationClaims :=
  if hexBytes (signer.hmac token.claims).toList ≠ hexBytes token.signature.toList then
    .error badSignature
  else if token.claims.expiresAt < now then .error expired
  else if expectedSighash.all (· == token.claims.sighash) then .ok token.claims
  else .error (unbound token.claims)

/-- A token minted for a transfer is good for it until it expires. -/
theorem verify_mint (signer : AuthorizationSigner) (t : TransferIdentity)
    (tenant merchant : String) (approvals : List String) (now ttlMs later : Int)
    : signer.verify (signer.mint t tenant merchant approvals now ttlMs)
          (some (signer.transferCommitment t)) later
      = if now + ttlMs < later then .error expired
        else .ok (signer.mint t tenant merchant approvals now ttlMs).claims := by
  simp [verify, mint]

/-- A token is good for no other commitment. -/
theorem verify_eq_ok {signer : AuthorizationSigner} {token : AuthorizationToken}
    {expected : String} {now : Int} {claims : AuthorizationClaims}
    (verified : signer.verify token (some expected) now = .ok claims)
    : token.claims.sighash = expected ∧ now ≤ token.claims.expiresAt := by
  unfold verify at verified
  split at verified
  case isTrue => cases verified
  case isFalse =>
    split at verified
    case isTrue => cases verified
    case isFalse alive =>
      split at verified
      case isTrue binds =>
        have same : expected = token.claims.sighash := by simpa using binds
        exact ⟨same.symm, by omega⟩
      case isFalse => cases verified

end AuthorizationSigner

end Cixtech.Payout
