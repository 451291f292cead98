import Cixtech.Common.AppError
import Mathlib.Algebra.Ring.Int.Defs
import Mathlib.Data.List.Sort

/-! Gathering a payout's amount from a merchant's pool addresses: the funded addresses are
taken largest first until the amount is reached. A plan carries the fact that its legs sum
to the amount, so nothing after the gatherer has to establish it again.
-/

namespace Cixtech.Attribution

open Cixtech.Common

inductive GatherStrategyKind
  | eoaFundTransfer
  | forwarder
  | eip7702
  deriving DecidableEq, Repr

def GatherStrategyKind.toText : GatherStrategyKind → String
  | .eoaFundTransfer => "EOA_FUND_TRANSFER"
  | .forwarder => "FORWARDER"
  | .eip7702 => "EIP7702"

structure GatheredSource where
  address : String
  derivationIndex : Nat
  gatherStrategy : GatherStrategyKind
  deriving DecidableEq, Repr

structure GatheredLeg extends GatheredSource where
  amountBaseUnits : Int
  deriving DecidableEq, Repr

/-- A pool address with the balance the chain reports for it. -/
structure AddressBalance extends GatheredSource where
  balance : Int
  deriving DecidableEq, Repr

def total (legs : List GatheredLeg) : Int := (legs.map (·.amountBaseUnits)).sum

@[simp]
theorem total_nil : total [] = 0 := rfl

@[simp]
theorem total_cons (leg : GatheredLeg) (rest : List GatheredLeg)
    : total (leg :: rest) = leg.amountBaseUnits + total rest := rfl

theorem total_nonneg {legs : List GatheredLeg}
    (positive : ∀ leg ∈ legs, 0 < leg.amountBaseUnits)
    : 0 ≤ total legs := by
  induction legs with
  | nil => exact Int.le_refl 0
  | cons leg rest ih =>
      have first := positive leg List.mem_cons_self
      have later := ih fun other member => positive other (List.mem_cons_of_mem _ member)
      rw [total_cons]
      omega

/-- Legs that sum to the amount asked for, each of them positive. -/
structure GatherPlan (amount : Int) where
  legs : List GatheredLeg
  whole : total legs = amount
  positive : ∀ leg ∈ legs, 0 < leg.amountBaseUnits

namespace PoolGatherer

/-- The loop over the funded addresses: the legs and what remains to be found. -/
def takeLegs : List AddressBalance → Int → List GatheredLeg × Int
  | [], remaining => ([], remaining)
  | funded :: rest, remaining =>
      if remaining ≤ 0 then ([], remaining)
      else
        let take := if funded.balance < remaining then funded.balance else remaining
        let later := takeLegs rest (remaining - take)
        ({ funded.toGatheredSource with amountBaseUnits := take } :: later.1, later.2)

/-- The legs and the remainder account for the amount, by induction on the addresses. -/
theorem takeLegs_spec {funded : List AddressBalance} (amount : Int)
    (held : ∀ source ∈ funded, 0 < source.balance)
    : total (takeLegs funded amount).1 + (takeLegs funded amount).2 = amount
      ∧ (∀ leg ∈ (takeLegs funded amount).1, 0 < leg.amountBaseUnits)
      ∧ (0 ≤ amount → 0 ≤ (takeLegs funded amount).2) := by
  induction funded generalizing amount with
  | nil => simp [takeLegs]
  | cons source rest ih =>
      have sourceHeld : 0 < source.balance := held source List.mem_cons_self
      have restHeld : ∀ other ∈ rest, 0 < other.balance := fun other member =>
        held other (List.mem_cons_of_mem _ member)
      unfold takeLegs
      split
      case isTrue done => simp
      case isFalse wanted =>
        obtain ⟨sum, positive, notNegative⟩ :=
          ih (amount - if source.balance < amount then source.balance else amount) restHeld
        refine ⟨?_, ?_, fun _ => notNegative (by split <;> omega)⟩
        · simp only [total_cons]
          omega
        · intro leg member
          rcases List.mem_cons.mp member with rfl | later
          · simp only
            split <;> omega
          · exact positive leg later

def gatherNotPositive (tenant merchant chain asset : String) (amount : Int) : AppError :=
  { code := .poolInsufficientFunds
    message := s!"Gather amount must be positive, got {amount}"
    context :=
      [ ("tenant", .text tenant), ("merchant", .text merchant), ("chain", .text chain),
        ("asset", .text asset) ] }

def gatherShort (tenant merchant chain asset : String) (amount held : Int) : AppError :=
  { code := .poolInsufficientFunds
    message := s!"Merchant {merchant} holds {held} {asset} on {chain}, needs {amount}"
    context :=
      [ ("tenant", .text tenant), ("merchant", .text merchant), ("chain", .text chain),
        ("asset", .text asset), ("have", .text (toString held)),
        ("need", .text (toString amount)) ] }

/-- The addresses with a positive balance, the largest first and otherwise in the order of
their derivation.
-/
def fundedLargestFirst (balances : List AddressBalance) : List AddressBalance :=
  (balances.filter fun source => 0 < source.balance).insertionSort
    fun left right => right.balance ≤ left.balance

theorem fundedLargestFirst_held {balances : List AddressBalance} {source : AddressBalance}
    (member : source ∈ fundedLargestFirst balances)
    : 0 < source.balance := by
  have kept := (List.perm_insertionSort _ _).mem_iff.mp member
  simpa using (List.mem_filter.mp kept).2

/-- Gather an amount from the merchant's addresses, whose balances the chain was asked for
one after another.
-/
def gather (tenant merchant chain asset : String) (amount : Int)
    (balances : List AddressBalance)
    : Except AppError (GatherPlan amount) :=
  if empty : amount ≤ 0 then .error (gatherNotPositive tenant merchant chain asset amount)
  else
    let funded := fundedLargestFirst balances
    if short : 0 < (takeLegs funded amount).2 then
      .error (gatherShort tenant merchant chain asset amount (funded.map (·.balance)).sum)
    else
      have spec := takeLegs_spec amount fun _ member =>
        fundedLargestFirst_held member
      .ok
        { legs := (takeLegs funded amount).1
          whole := by
            have sum : total (takeLegs funded amount).1 + (takeLegs funded amount).2
                = amount := spec.1
            have rest : 0 ≤ (takeLegs funded amount).2 := spec.2.2 (by omega)
            omega
          positive := spec.2.1 }

end PoolGatherer

end Cixtech.Attribution
