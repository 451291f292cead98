import Cixtech.Ledger.PostingFlows
import Mathlib.Algebra.BigOperators.Group.List.Basic

/-! What the seven builders hand out for any input: a balanced entry of positive amounts, or
the refusal of an amount or a rate. The fee of a finalized deposit is rounded down, so that
the parts of a deposit are never charged more than the whole.
-/

namespace Cixtech.Ledger

open Cixtech.Common

/-- A builder with its input. -/
inductive FlowInput
  | depositDetected (input : DepositDetectedInput)
  | depositFinalized (input : DepositFinalizedInput)
  | depositQuarantined (input : DepositQuarantinedInput)
  | depositReleased (input : DepositReleasedInput)
  | payoutLocked (input : PayoutLockedInput)
  | payoutSettled (input : PayoutSettledInput)
  | feeSwept (input : FeeSweptInput)
  deriving DecidableEq, Repr

def FlowInput.build : FlowInput → Except AppError JournalEntry
  | .depositDetected input => Ledger.depositDetected input
  | .depositFinalized input => Ledger.depositFinalized input
  | .depositQuarantined input => Ledger.depositQuarantined input
  | .depositReleased input => Ledger.depositReleased input
  | .payoutLocked input => Ledger.payoutLocked input
  | .payoutSettled input => Ledger.payoutSettled input
  | .feeSwept input => Ledger.feeSwept input

/-- A builder threw `InvalidPostingError`, or returned what the balance check accepts. -/
def InvalidOrBalanced (built : Except AppError JournalEntry) : Prop :=
  (∃ message, built = .error (invalidPosting message))
  ∨ ∃ entry, built = .ok entry ∧ Balanced entry.postings

theorem invalidOrBalanced_movement (what kind id idempotencyKey asset : String) (amount : Int)
    (debited credited : String) (networkFee : Option NetworkFeeLeg)
    : InvalidOrBalanced
        (movement what kind id idempotencyKey asset amount debited credited networkFee) := by
  rw [movement_eq]
  split
  case isTrue => exact .inl ⟨_, rfl⟩
  case isFalse positive =>
    exact .inr ⟨_, rfl, balanced_movementEntry (Int.not_le.mp positive)⟩

/-- The split refuses with an invalid posting, whatever it refuses. -/
theorem splitFee_error {amount : Int} {rate : JsNumber} {err : AppError}
    (refused : splitFee amount rate = .error err)
    : ∃ message, err = invalidPosting message := by
  unfold splitFee at refused
  split at refused
  · exact ⟨_, (Except.error.inj refused).symm⟩
  · split at refused
    · exact ⟨_, (Except.error.inj refused).symm⟩
    · split at refused
      · exact ⟨_, (Except.error.inj refused).symm⟩
      · cases refused

theorem invalidOrBalanced_finalized (input : DepositFinalizedInput)
    : InvalidOrBalanced (depositFinalized input) := by
  cases done : splitFee input.amount input.feeBasisPoints with
  | error err =>
      obtain ⟨message, rfl⟩ := splitFee_error done
      exact .inl ⟨message, depositFinalized_of_error done⟩
  | ok split =>
      exact .inr ⟨_, depositFinalized_of_split done, balanced_finalizedEntry done⟩

theorem invalidOrBalanced_released (input : DepositReleasedInput)
    : InvalidOrBalanced (depositReleased input) := by
  unfold depositReleased
  split
  case isTrue => exact .inl ⟨_, rfl⟩
  case isFalse positive =>
    split
    case isTrue => exact .inl ⟨_, rfl⟩
    case isFalse notNegative =>
      have balanced : Balanced (releasedEntry input).postings :=
        balanced_releasedEntry (Int.not_le.mp positive) (Int.not_lt.mp notNegative)
      exact .inr ⟨_, checked_of_balanced balanced, balanced⟩

/-- By the cases of the builders: five are movements, two keep their own body. -/
theorem FlowInput.invalidOrBalanced (flow : FlowInput) : InvalidOrBalanced flow.build := by
  cases flow with
  | depositFinalized input => exact invalidOrBalanced_finalized input
  | depositReleased input => exact invalidOrBalanced_released input
  | depositDetected input => exact invalidOrBalanced_movement ..
  | depositQuarantined input => exact invalidOrBalanced_movement ..
  | payoutLocked input => exact invalidOrBalanced_movement ..
  | payoutSettled input => exact invalidOrBalanced_movement ..
  | feeSwept input => exact invalidOrBalanced_movement ..

-----------------------------------------------------------------------------
-- The fee of a deposit and of its parts

/-- `(amount * BigInt(feeBasisPoints)) / BPS_DENOMINATOR`. -/
def feeOf (bps amount : Int) : Int := amount * bps / bpsDenominator

/-- A rate that the split accepts. -/
def validRate (bps : Int) : Prop := 0 ≤ bps ∧ bps < 10000

theorem splitFee_of_valid {amount bps : Int} (positive : 1 ≤ amount) (valid : validRate bps)
    : splitFee amount (.integer bps)
      = .ok { fee := feeOf bps amount, net := amount - feeOf bps amount } :=
  splitFee_eq_ok_iff.mpr ⟨by omega, bps, rfl, valid.1, valid.2, rfl⟩

/-- Rounding two parts down loses at most one against rounding their sum down. -/
theorem feeOf_add (bps first second : Int)
    : feeOf bps first + feeOf bps second ≤ feeOf bps (first + second)
      ∧ feeOf bps (first + second) ≤ feeOf bps first + feeOf bps second + 1 := by
  have whole : (first + second) * bps = first * bps + second * bps := Int.add_mul ..
  simp only [feeOf, bpsDenominator, whole]
  omega

/-- The fees of any parts are at most the fee of the whole, by induction on the parts. -/
theorem sum_feeOf_le (bps : Int) (parts : List Int)
    : (parts.map (feeOf bps)).sum ≤ feeOf bps parts.sum := by
  induction parts with
  | nil => simp [feeOf, bpsDenominator]
  | cons part rest ih =>
      have two := (feeOf_add bps part rest.sum).1
      simp only [List.map_cons, List.sum_cons]
      omega

/-- What a finalized deposit credits: the net to the merchant and the fee, if there is one,
to the revenue.
-/
def creditsOf (input : DepositFinalizedInput) (net fee : Int) : List Posting :=
  [{ account := input.merchantAvailable, asset := input.asset, amount := net
     direction := .credit }]
  ++ if fee > 0 then
      [{ account := input.feeRevenue, asset := input.asset, amount := fee
         direction := .credit }]
    else []

/-- A deposit of at least one base unit at a valid rate is always built. -/
theorem depositFinalized_of_valid {input : DepositFinalizedInput} {bps : Int}
    (rate : input.feeBasisPoints = .integer bps) (positive : 1 ≤ input.amount)
    (valid : validRate bps)
    : ∃ entry net fee,
        depositFinalized input = .ok entry
        ∧ entry.postings.filter (fun posting => posting.direction = .credit)
          = creditsOf input net fee
        ∧ fee = input.amount * bps / 10000
        ∧ 0 ≤ fee
        ∧ net + fee = input.amount
        ∧ 1 ≤ net := by
  have done : splitFee input.amount input.feeBasisPoints
      = .ok { fee := feeOf bps input.amount, net := input.amount - feeOf bps input.amount } := by
    rw [rate]
    exact splitFee_of_valid positive valid
  obtain ⟨notNegative, netPositive, -⟩ := splitFee_bounds done
  refine ⟨_, input.amount - feeOf bps input.amount, feeOf bps input.amount,
    depositFinalized_of_split done, ?_, rfl, notNegative, by omega, netPositive⟩
  by_cases charged : feeOf bps input.amount > 0 <;>
    simp [finalizedEntry, creditsOf, charged]

/-- Every builder throws `InvalidPostingError` or returns an entry of positive amounts that
the balance check accepts. A finalized deposit of at least one base unit at a rate in
[0, 10000) is always built: it credits the net and the fee, which make up the amount, the net
is at least one and the fee is rounded down. Parts of a deposit are never charged more than
the whole, and two parts at most one base unit less.
-/
theorem posting_flows_balanced
    : (∀ flow : FlowInput,
        (∃ message, flow.build = .error (invalidPosting message))
        ∨ ∃ entry,
            flow.build = .ok entry
            ∧ (∀ posting ∈ entry.postings, 0 < posting.amount)
            ∧ assertBalanced entry = .ok ())
      ∧ (∀ (input : DepositFinalizedInput) (bps : Int),
          input.feeBasisPoints = .integer bps → 1 ≤ input.amount → 0 ≤ bps → bps < 10000
          → ∃ entry net fee,
              depositFinalized input = .ok entry
              ∧ entry.postings.filter (fun posting => posting.direction = .credit)
                = creditsOf input net fee
              ∧ fee = input.amount * bps / 10000
              ∧ 0 ≤ fee
              ∧ net + fee = input.amount
              ∧ 1 ≤ net)
      ∧ ∀ bps : Int, 0 ≤ bps → bps < 10000
          → (∀ amount, 1 ≤ amount
              → splitFee amount (.integer bps)
                = .ok { fee := feeOf bps amount, net := amount - feeOf bps amount })
            ∧ (∀ first second, 1 ≤ first → 1 ≤ second
                → feeOf bps first + feeOf bps second ≤ feeOf bps (first + second)
                  ∧ feeOf bps (first + second) ≤ feeOf bps first + feeOf bps second + 1)
            ∧ ∀ parts : List Int, (∀ part ∈ parts, 1 ≤ part)
                → (parts.map (feeOf bps)).sum ≤ feeOf bps parts.sum := by
  refine ⟨?_, ?_, ?_⟩
  · intro flow
    refine flow.invalidOrBalanced.imp_right ?_
    rintro ⟨entry, built, balanced⟩
    exact ⟨entry, built, balanced.positive, assertBalanced_of_balanced balanced⟩
  · intro input bps rate positive low high
    exact depositFinalized_of_valid rate positive ⟨low, high⟩
  · intro bps low high
    refine ⟨fun amount positive => splitFee_of_valid positive ⟨low, high⟩, ?_, ?_⟩
    · intro first second _ _
      exact feeOf_add bps first second
    · intro parts _
      exact sum_feeOf_le bps parts

end Cixtech.Ledger
