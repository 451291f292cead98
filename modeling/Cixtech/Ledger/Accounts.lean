import Cixtech.Common.AppError
import Cixtech.Common.Text

/-! The account keys that the services build and the type that a key's prefix gives it. A
key is a prefix, a colon and the owner's identifiers, so the text before the first colon
decides the type.
-/

namespace Cixtech.Ledger

open Cixtech.Common

inductive AccountType
  | liability
  | asset
  | revenue
  | expense
  deriving DecidableEq, Repr

/-- The side on which an account of the type grows, with debits positive. -/
def normalSide : AccountType → Int → Int
  | .liability, signedNet => -signedNet
  | .asset, signedNet => signedNet
  | .revenue, signedNet => -signedNet
  | .expense, signedNet => signedNet

/-- The type that a key prefix stands for. -/
def typeOfPrefix (leading : String) : Except AppError AccountType :=
  if startsWith leading "merchant_" || leading == "compliance_suspense" then .ok .liability
  else if startsWith leading "pool_addr" || ["treasury", "cold", "gas_float"].contains leading
  then .ok .asset
  else if endsWith leading "_revenue" then .ok .revenue
  else if endsWith leading "_expense" then .ok .expense
  else .error (.plain s!"Unknown account key prefix: {leading}")

/-- The type of an account, from the text before its key's first colon. -/
def accountTypeOf (key : String) : Except AppError AccountType := typeOfPrefix (beforeColon key)

/-- A signed net balance read on the account's normal side. -/
def normalBalance (key : String) (signedNetDebitPositive : Int) : Except AppError Int := do
  return normalSide (← accountTypeOf key) signedNetDebitPositive

/-- The template that every key is written with: `${leading}:${owner}`. It is irreducible so
that no proof about a ledger computes with the characters of a key.
-/
@[irreducible]
def accountKey (leading owner : String) : String := leading ++ ":" ++ owner

/-- `merchant_available:${tenant}:${merchant}`. -/
def merchantAvailable (tenant merchant : String) : String :=
  accountKey "merchant_available" (accountKey tenant merchant)

/-- `merchant_pending_withdrawal:${tenant}:${merchant}`. -/
def merchantPendingWithdrawal (tenant merchant : String) : String :=
  accountKey "merchant_pending_withdrawal" (accountKey tenant merchant)

/-- `pool_addr:${chain}:${merchant}`. -/
def poolAddr (chain merchant : String) : String :=
  accountKey "pool_addr" (accountKey chain merchant)

/-- `compliance_suspense:${tenant}`. -/
def complianceSuspense (tenant : String) : String := accountKey "compliance_suspense" tenant

/-- `treasury:${chain}`. -/
def treasury (chain : String) : String := accountKey "treasury" chain

/-- `egofi_fee_revenue:${tenant}`. -/
def feeRevenue (tenant : String) : String := accountKey "egofi_fee_revenue" tenant

-----------------------------------------------------------------------------
-- The type of each key

@[simp]
theorem accountKey_toList (leading owner : String)
    : (accountKey leading owner).toList = leading.toList ++ ':' :: owner.toList := by
  simp [accountKey]

/-- A key has the type of its prefix. -/
theorem accountTypeOf_accountKey (leading owner : String) (plain : ':' ∉ leading.toList)
    : accountTypeOf (accountKey leading owner) = typeOfPrefix leading := by
  rw [accountTypeOf, beforeColon_eq (accountKey_toList leading owner) plain]

@[simp]
theorem accountTypeOf_merchantAvailable (tenant merchant : String)
    : accountTypeOf (merchantAvailable tenant merchant) = .ok .liability := by
  exact accountTypeOf_accountKey _ _ (by decide)

@[simp]
theorem accountTypeOf_merchantPendingWithdrawal (tenant merchant : String)
    : accountTypeOf (merchantPendingWithdrawal tenant merchant) = .ok .liability := by
  exact accountTypeOf_accountKey _ _ (by decide)

@[simp]
theorem accountTypeOf_poolAddr (chain merchant : String)
    : accountTypeOf (poolAddr chain merchant) = .ok .asset := by
  exact accountTypeOf_accountKey _ _ (by decide)

@[simp]
theorem accountTypeOf_complianceSuspense (tenant : String)
    : accountTypeOf (complianceSuspense tenant) = .ok .liability := by
  exact accountTypeOf_accountKey _ _ (by decide)

@[simp]
theorem accountTypeOf_feeRevenue (tenant : String)
    : accountTypeOf (feeRevenue tenant) = .ok .revenue := by
  exact accountTypeOf_accountKey _ _ (by decide)

@[simp]
theorem accountTypeOf_treasury (chain : String)
    : accountTypeOf (treasury chain) = .ok .asset := by
  exact accountTypeOf_accountKey _ _ (by decide)

/-- The pool accounts of a chain tell its merchants apart. -/
theorem poolAddr_inj {chain merchant other : String}
    : poolAddr chain merchant = poolAddr chain other ↔ merchant = other := by
  refine ⟨fun same => ?_, fun same => same ▸ rfl⟩
  have letters := congrArg String.toList same
  simpa [poolAddr, accountKey_toList, String.toList_inj] using letters

/-- A pool account is told by its first letter from what a deposit is credited to. -/
theorem poolAddr_ne (chain merchant : String)
    : (∀ tenant owner, merchantAvailable tenant owner ≠ poolAddr chain merchant)
      ∧ (∀ tenant, complianceSuspense tenant ≠ poolAddr chain merchant)
      ∧ ∀ tenant, feeRevenue tenant ≠ poolAddr chain merchant := by
  refine ⟨?_, ?_, ?_⟩
  all_goals
    intros
    intro same
    have letters := congrArg String.toList same
    simp [merchantAvailable, complianceSuspense, feeRevenue, poolAddr, accountKey_toList]
      at letters

/-- The two accounts of a merchant and those of the engine are told by their first letters. -/
theorem merchantAvailable_ne (tenant merchant : String)
    : (∀ other owner, merchantPendingWithdrawal other owner ≠ merchantAvailable tenant merchant)
      ∧ (∀ chain owner, poolAddr chain owner ≠ merchantAvailable tenant merchant)
      ∧ ∀ chain, treasury chain ≠ merchantAvailable tenant merchant := by
  refine ⟨?_, ?_, ?_⟩
  all_goals
    intros
    intro same
    have letters := congrArg String.toList same
    simp [merchantAvailable, merchantPendingWithdrawal, poolAddr, treasury, accountKey_toList]
      at letters

theorem merchantPendingWithdrawal_ne (tenant merchant : String)
    : (∀ other owner, merchantAvailable other owner ≠ merchantPendingWithdrawal tenant merchant)
      ∧ (∀ chain owner, poolAddr chain owner ≠ merchantPendingWithdrawal tenant merchant)
      ∧ ∀ chain, treasury chain ≠ merchantPendingWithdrawal tenant merchant := by
  refine ⟨?_, ?_, ?_⟩
  all_goals
    intros
    intro same
    have letters := congrArg String.toList same
    simp [merchantAvailable, merchantPendingWithdrawal, poolAddr, treasury, accountKey_toList]
      at letters

end Cixtech.Ledger
