import Cixtech.Common.Json
import Cixtech.Ledger.Entry
import Mathlib.Tactic.Linarith

/-! The builders of journal entries. Most of them move one positive amount from the account
they credit to the account they debit, so they share one definition; the deposit builders
that split a fee keep their own. What every builder returns is balanced.
-/

namespace Cixtech.Ledger

open Cixtech.Common

def invalidPosting (message : String) : AppError :=
  { code := .ledgerInvalidPosting, message, context := [] }

def bpsDenominator : Int := 10000

structure FeeSplit where
  fee : Int
  net : Int
  deriving DecidableEq, Repr

/-- Split the platform fee off a deposit, rounding the fee down. -/
def splitFee (amount : Int) (feeBasisPoints : JsNumber) : Except AppError FeeSplit :=
  if amount ≤ 0 then
    .error (invalidPosting s!"Deposit amount must be positive, got {amount}")
  else
    match feeBasisPoints with
    | .nonInteger text =>
        .error (invalidPosting s!"feeBasisPoints must be an integer in [0, 10000), got {text}")
    | .integer rate =>
        if rate < 0 ∨ rate ≥ 10000 then
          .error
            (invalidPosting s!"feeBasisPoints must be an integer in [0, 10000), got {rate}")
        else
          let fee := amount * rate / bpsDenominator
          .ok { fee, net := amount - fee }

structure DepositFinalizedInput where
  id : String
  idempotencyKey : String
  asset : String
  amount : Int
  feeBasisPoints : JsNumber
  poolAddr : String
  merchantAvailable : String
  feeRevenue : String
  deriving DecidableEq, Repr

structure PayoutLockedInput where
  id : String
  idempotencyKey : String
  asset : String
  amount : Int
  merchantAvailable : String
  merchantPendingWithdrawal : String
  deriving DecidableEq, Repr

structure NetworkFeeLeg where
  asset : String
  amount : Int
  gasFloat : String
  expense : String
  deriving DecidableEq, Repr

structure PayoutSettledInput where
  id : String
  idempotencyKey : String
  asset : String
  amount : Int
  merchantPendingWithdrawal : String
  poolAddr : String
  networkFee : Option NetworkFeeLeg
  deriving DecidableEq, Repr

structure FeeSweptInput where
  id : String
  idempotencyKey : String
  asset : String
  amount : Int
  poolAddr : String
  treasury : String
  networkFee : Option NetworkFeeLeg
  deriving DecidableEq, Repr

structure DepositQuarantinedInput where
  id : String
  idempotencyKey : String
  asset : String
  amount : Int
  poolAddr : String
  complianceSuspense : String
  deriving DecidableEq, Repr

structure DepositDetectedInput where
  id : String
  idempotencyKey : String
  asset : String
  amount : Int
  poolAddrUnconfirmed : String
  merchantPending : String
  deriving DecidableEq, Repr

structure DepositReleasedInput where
  id : String
  idempotencyKey : String
  asset : String
  amount : Int
  fee : Int
  complianceSuspense : String
  merchantAvailable : String
  feeRevenue : String
  deriving DecidableEq, Repr

/-- Check an entry that a builder assembled and hand it out. -/
def checked (entry : JournalEntry) : Except AppError JournalEntry := do
  assertBalanced entry
  return entry

/-- The two postings of a network fee, none for an absent or empty fee. -/
def networkFeePostings : Option NetworkFeeLeg → List Posting
  | none => []
  | some fee =>
      if fee.amount ≤ 0 then []
      else
        [ { account := fee.expense, asset := fee.asset, amount := fee.amount
            direction := .debit },
          { account := fee.gasFloat, asset := fee.asset, amount := fee.amount
            direction := .credit } ]

/-- Refuse an amount that is not positive, naming it as `what`; otherwise debit one account,
credit the other and append the network fee.
-/
def movement (what kind id idempotencyKey asset : String) (amount : Int)
    (debited credited : String) (networkFee : Option NetworkFeeLeg)
    : Except AppError JournalEntry :=
  if amount ≤ 0 then
    .error (invalidPosting s!"{what} amount must be positive, got {amount}")
  else
    checked
      { id, idempotencyKey, kind
        postings :=
          [ { account := debited, asset, amount, direction := .debit },
            { account := credited, asset, amount, direction := .credit } ]
          ++ networkFeePostings networkFee }

def payoutLocked (input : PayoutLockedInput) : Except AppError JournalEntry :=
  movement "Payout" "payout.locked" input.id input.idempotencyKey input.asset input.amount
    input.merchantAvailable input.merchantPendingWithdrawal none

def payoutSettled (input : PayoutSettledInput) : Except AppError JournalEntry :=
  movement "Payout" "payout.settled" input.id input.idempotencyKey input.asset input.amount
    input.merchantPendingWithdrawal input.poolAddr input.networkFee

def feeSwept (input : FeeSweptInput) : Except AppError JournalEntry :=
  movement "Fee sweep" "fee.swept" input.id input.idempotencyKey input.asset input.amount
    input.treasury input.poolAddr input.networkFee

def depositQuarantined (input : DepositQuarantinedInput) : Except AppError JournalEntry :=
  movement "Deposit" "deposit.quarantined" input.id input.idempotencyKey input.asset
    input.amount input.poolAddr input.complianceSuspense none

def depositDetected (input : DepositDetectedInput) : Except AppError JournalEntry :=
  movement "Deposit" "deposit.detected" input.id input.idempotencyKey input.asset
    input.amount input.poolAddrUnconfirmed input.merchantPending none

/-- The entry of a release once its amounts are checked. -/
def releasedEntry (input : DepositReleasedInput) : JournalEntry :=
  { id := input.id
    idempotencyKey := input.idempotencyKey
    kind := "deposit.released"
    postings :=
      [ { account := input.complianceSuspense, asset := input.asset
          amount := input.amount + input.fee, direction := .debit },
        { account := input.merchantAvailable, asset := input.asset, amount := input.amount
          direction := .credit } ]
      ++ if input.fee > 0 then
          [ { account := input.feeRevenue, asset := input.asset, amount := input.fee
              direction := .credit } ]
        else [] }

def depositReleased (input : DepositReleasedInput) : Except AppError JournalEntry :=
  if input.amount ≤ 0 then
    .error (invalidPosting s!"Release amount must be positive, got {input.amount}")
  else if input.fee < 0 then
    .error (invalidPosting s!"Release fee must be non-negative, got {input.fee}")
  else checked (releasedEntry input)

/-- The entry of a finalized deposit once its fee is split off. -/
def finalizedEntry (input : DepositFinalizedInput) (split : FeeSplit) : JournalEntry :=
  { id := input.id
    idempotencyKey := input.idempotencyKey
    kind := "deposit.finalized"
    postings :=
      [ { account := input.poolAddr, asset := input.asset, amount := input.amount
          direction := .debit },
        { account := input.merchantAvailable, asset := input.asset, amount := split.net
          direction := .credit } ]
      ++ if split.fee > 0 then
          [ { account := input.feeRevenue, asset := input.asset, amount := split.fee
              direction := .credit } ]
        else [] }

def depositFinalized (input : DepositFinalizedInput) : Except AppError JournalEntry := do
  let split ← splitFee input.amount input.feeBasisPoints
  checked (finalizedEntry input split)

-----------------------------------------------------------------------------
-- What the builders return

/-- A network fee nets to zero in every asset. -/
theorem netWhere_networkFeePostings (fee : Option NetworkFeeLeg) (asset : String)
    : netWhere (fun posting => decide (posting.asset = asset)) (networkFeePostings fee)
      = 0 := by
  cases fee with
  | none => rfl
  | some fee =>
      by_cases spent : fee.amount ≤ 0
      · simp [networkFeePostings, spent]
      · by_cases same : fee.asset = asset <;> simp [networkFeePostings, spent, same]

theorem positive_networkFeePostings {fee : Option NetworkFeeLeg} {posting : Posting}
    (member : posting ∈ networkFeePostings fee)
    : 0 < posting.amount := by
  cases fee with
  | none => cases member
  | some fee =>
      by_cases spent : fee.amount ≤ 0
      · simp [networkFeePostings, spent] at member
      · simp only [networkFeePostings, if_neg spent, List.mem_cons, List.not_mem_nil,
          or_false] at member
        rcases member with rfl | rfl <;> exact Int.not_le.mp spent

theorem checked_of_balanced {entry : JournalEntry} (balanced : Balanced entry.postings)
    : checked entry = .ok entry := by
  simp [checked, assertBalanced_of_balanced balanced, bind, Except.bind, pure, Except.pure]

/-- What passes the check is handed out unchanged. -/
theorem checked_eq_ok {entry result : JournalEntry} (built : checked entry = .ok result)
    : result = entry ∧ assertBalanced entry = .ok () := by
  unfold checked at built
  cases outcome : assertBalanced entry with
  | error err => simp [outcome, bind, Except.bind] at built
  | ok value =>
      simp only [outcome, bind, Except.bind, pure, Except.pure, Except.ok.injEq] at built
      exact ⟨built.symm, rfl⟩

/-- The entry of a movement, before the amount is looked at. -/
def movementEntry (kind id idempotencyKey asset : String) (amount : Int)
    (debited credited : String) (networkFee : Option NetworkFeeLeg)
    : JournalEntry :=
  { id, idempotencyKey, kind
    postings :=
      [ { account := debited, asset, amount, direction := .debit },
        { account := credited, asset, amount, direction := .credit } ]
      ++ networkFeePostings networkFee }

theorem balanced_movementEntry {kind id idempotencyKey asset : String} {amount : Int}
    {debited credited : String} {networkFee : Option NetworkFeeLeg} (positive : 0 < amount)
    : Balanced
        (movementEntry kind id idempotencyKey asset amount debited credited
          networkFee).postings where
  nonempty := by simp [movementEntry]
  positive := by
    intro posting member
    simp only [movementEntry, List.mem_append, List.mem_cons, List.not_mem_nil, or_false]
      at member
    rcases member with (rfl | rfl) | paid
    · exact positive
    · exact positive
    · exact positive_networkFeePostings paid
  zero := by
    intro other
    by_cases same : asset = other <;>
      simp [movementEntry, netWhere_networkFeePostings, same]

/-- A movement succeeds exactly on positive amounts, with the entry it describes. -/
theorem movement_eq (what kind id idempotencyKey asset : String) (amount : Int)
    (debited credited : String) (networkFee : Option NetworkFeeLeg)
    : movement what kind id idempotencyKey asset amount debited credited networkFee
      = if amount ≤ 0 then
          .error (invalidPosting s!"{what} amount must be positive, got {amount}")
        else
          .ok (movementEntry kind id idempotencyKey asset amount debited credited
            networkFee) := by
  unfold movement
  split
  case isTrue => rfl
  case isFalse positive =>
    exact checked_of_balanced (balanced_movementEntry (Int.not_le.mp positive))

/-- What follows a movement follows it on a positive amount, with its entry. -/
theorem ok_of_movement_bind {β : Type} {what kind id idempotencyKey asset : String}
    {amount : Int} {debited credited : String} {networkFee : Option NetworkFeeLeg}
    {next : JournalEntry → Except AppError β} {result : β}
    (done : (movement what kind id idempotencyKey asset amount debited credited networkFee
        >>= next) = .ok result)
    : 0 < amount
      ∧ next (movementEntry kind id idempotencyKey asset amount debited credited networkFee)
        = .ok result := by
  rw [movement_eq] at done
  split at done
  · cases done
  case isFalse positive => exact ⟨Int.not_le.mp positive, done⟩

/-- What a movement builds is its entry, of a positive amount. -/
theorem movement_eq_ok {what kind id idempotencyKey asset : String} {amount : Int}
    {debited credited : String} {networkFee : Option NetworkFeeLeg} {entry : JournalEntry}
    (built : movement what kind id idempotencyKey asset amount debited credited networkFee
      = .ok entry)
    : 0 < amount
      ∧ entry = movementEntry kind id idempotencyKey asset amount debited credited networkFee := by
  rw [movement_eq] at built
  split at built
  · cases built
  case isFalse positive => exact ⟨Int.not_le.mp positive, (Except.ok.inj built).symm⟩

/-- The split succeeds exactly on a positive amount and a rate from 0 up to 10000. -/
theorem splitFee_eq_ok_iff {amount : Int} {rate : JsNumber} {split : FeeSplit}
    : splitFee amount rate = .ok split
      ↔ 0 < amount
        ∧ ∃ bps, rate = .integer bps ∧ 0 ≤ bps ∧ bps < 10000
            ∧ split = ⟨amount * bps / 10000, amount - amount * bps / 10000⟩ := by
  unfold splitFee
  split
  case isTrue notPositive => simp; omega
  case isFalse positive =>
    cases rate with
    | nonInteger text => simp
    | integer bps =>
        simp only [JsNumber.integer.injEq, exists_eq_left']
        split
        case isTrue outside => simp; omega
        case isFalse inside =>
          simp only [Except.ok.injEq, bpsDenominator]
          constructor
          · rintro rfl
            exact ⟨by omega, by omega, by omega, rfl⟩
          · rintro ⟨-, -, -, rfl⟩
            rfl

/-- The fee is below the amount and not negative. -/
theorem splitFee_bounds {amount : Int} {rate : JsNumber} {split : FeeSplit}
    (done : splitFee amount rate = .ok split)
    : 0 ≤ split.fee ∧ 0 < split.net ∧ split.fee + split.net = amount := by
  obtain ⟨positive, bps, -, low, high, rfl⟩ := splitFee_eq_ok_iff.mp done
  have bounded : amount * bps < amount * 10000 := by nlinarith
  have notNegative : 0 ≤ amount * bps := by nlinarith
  simp only
  omega

theorem balanced_finalizedEntry {input : DepositFinalizedInput} {split : FeeSplit}
    (done : splitFee input.amount input.feeBasisPoints = .ok split)
    : Balanced (finalizedEntry input split).postings := by
  obtain ⟨fee, net, whole⟩ := splitFee_bounds done
  refine ⟨by simp [finalizedEntry], ?_, ?_⟩
  · intro posting member
    by_cases charged : split.fee > 0
    · simp only [finalizedEntry, if_pos charged, List.mem_append, List.mem_cons,
        List.not_mem_nil, or_false] at member
      rcases member with (rfl | rfl) | rfl <;> simp only <;> omega
    · simp only [finalizedEntry, if_neg charged, List.append_nil, List.mem_cons,
        List.not_mem_nil, or_false] at member
      rcases member with rfl | rfl <;> simp only <;> omega
  · intro other
    by_cases charged : split.fee > 0 <;> by_cases same : input.asset = other <;>
      simp [finalizedEntry, charged, same] <;> omega

/-- A finalized deposit is built exactly when the fee splits. -/
theorem depositFinalized_of_split {input : DepositFinalizedInput} {split : FeeSplit}
    (done : splitFee input.amount input.feeBasisPoints = .ok split)
    : depositFinalized input = .ok (finalizedEntry input split) := by
  simp only [depositFinalized, done, bind, Except.bind]
  exact checked_of_balanced (balanced_finalizedEntry done)

theorem depositFinalized_of_error {input : DepositFinalizedInput} {err : AppError}
    (failed : splitFee input.amount input.feeBasisPoints = .error err)
    : depositFinalized input = .error err := by
  simp only [depositFinalized, failed, bind, Except.bind]

theorem balanced_releasedEntry {input : DepositReleasedInput} (positive : 0 < input.amount)
    (notNegative : 0 ≤ input.fee)
    : Balanced (releasedEntry input).postings := by
  refine ⟨by simp [releasedEntry], ?_, ?_⟩
  · intro posting member
    by_cases charged : input.fee > 0
    · simp only [releasedEntry, if_pos charged, List.mem_append, List.mem_cons,
        List.not_mem_nil, or_false] at member
      rcases member with (rfl | rfl) | rfl <;> simp only <;> omega
    · simp only [releasedEntry, if_neg charged, List.append_nil, List.mem_cons,
        List.not_mem_nil, or_false] at member
      rcases member with rfl | rfl <;> simp only <;> omega
  · intro other
    by_cases charged : input.fee > 0 <;> by_cases same : input.asset = other <;>
      simp [releasedEntry, charged, same] <;> omega

/-- A release is built exactly on a positive amount and a fee that is not negative. -/
theorem depositReleased_eq_ok {input : DepositReleasedInput} {entry : JournalEntry}
    (built : depositReleased input = .ok entry)
    : 0 < input.amount ∧ 0 ≤ input.fee ∧ entry = releasedEntry input := by
  unfold depositReleased at built
  split at built
  · cases built
  · split at built
    · cases built
    · rename_i positive notNegative
      exact ⟨Int.not_le.mp positive, Int.not_lt.mp notNegative, (checked_eq_ok built).1⟩

end Cixtech.Ledger
