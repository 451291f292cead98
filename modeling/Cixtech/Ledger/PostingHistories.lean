import Cixtech.Ledger.Conservation
import Mathlib.Algebra.Order.BigOperators.Group.List

/-! Solvency over histories of the posting flows. Both stores keep a journal in which a key
is taken once; of all the flows only a finalized deposit and a release touch the revenue, and
a reversal takes back what one of them credited. What the assets exceed the liabilities by
is therefore the fees that stand, on either store.
-/

namespace Cixtech.Ledger

open Cixtech.Common Cixtech.Foundation

universe u

-----------------------------------------------------------------------------
-- What both stores keep

/-- A state of the store holds a journal: an append whose id is its key adds the entry unless
the key is taken, an id reads its entry, and the totals are those of the postings.
-/
structure KeepsJournal {σ : Type u} (store : LedgerStore σ)
    (Holds : σ → List JournalEntry → Prop) : Prop where
  append {ledger : σ} {journal : List JournalEntry} {entry : JournalEntry}
    (holds : Holds ledger journal) (own : entry.id = entry.idempotencyKey)
    : (store.append ledger entry).1 = .ok (decide (entry.id ∉ journal.map JournalEntry.id))
      ∧ Holds (store.append ledger entry).2 (Table.insertIgnore JournalEntry.id journal entry)
  entryPostings {ledger : σ} {journal : List JournalEntry} (holds : Holds ledger journal)
    (id : String)
    : store.entryPostings ledger id
      = ((Table.lookup JournalEntry.id journal id).map JournalEntry.postings).getD []
  totals {ledger : σ} {journal : List JournalEntry} (holds : Holds ledger journal)
    (known : KnownAccounts (journal.flatMap JournalEntry.postings))
    : ∃ totals,
        store.totalsByType ledger = .ok totals
        ∧ ∀ type asset,
            totals.sumForAsset type asset
            = normalSide type (typeNet type asset (journal.flatMap JournalEntry.postings))

namespace MemoryLedger

structure Holds (ledger : MemoryLedger) (journal : List JournalEntry) : Prop where
  seen : ∀ key, key ∈ ledger.seenKeys ↔ key ∈ journal.map JournalEntry.id
  postings : ledger.postings = journal.flatMap JournalEntry.postings
  entries : ∀ id, ledger.entryPostings id
    = ((Table.lookup JournalEntry.id journal id).map JournalEntry.postings).getD []

theorem keepsJournal : KeepsJournal memoryStore Holds where
  append := by
    intro ledger journal entry holds own
    have taken : ledger.seenKeys.contains entry.idempotencyKey = true
        ↔ entry.id ∈ journal.map JournalEntry.id := by
      rw [List.contains_iff_mem, holds.seen, own]
    rw [Table.insertIgnore_eq]
    by_cases here : entry.id ∈ journal.map JournalEntry.id
    · have same : memoryStore.append ledger entry = (.ok false, ledger) :=
        if_pos (taken.mpr here)
      rw [same, if_pos here]
      exact ⟨by simp only [here, not_true_eq_false, decide_false], holds⟩
    · have stored : memoryStore.append ledger entry
          = (.ok true,
              { seenKeys := entry.idempotencyKey :: ledger.seenKeys
                postings := ledger.postings ++ entry.postings
                byEntry := (entry.id, entry.postings) :: ledger.byEntry }) :=
        if_neg (taken.not.mpr here)
      rw [stored, if_neg here]
      refine ⟨by simp only [here, not_false_eq_true, decide_true], ?_, ?_, ?_⟩
      · intro key
        simp [holds.seen, own, or_comm, eq_comm]
      · simp [holds.postings]
      · intro id
        rw [Table.lookup_append, Table.lookup_singleton]
        by_cases mine : entry.id = id
        · have absent : Table.lookup JournalEntry.id journal id = none := by
            simp only [Table.lookup, List.find?_eq_none, decide_eq_true_eq]
            intro old member same
            exact here (List.mem_map.mpr ⟨old, member, same.trans mine.symm⟩)
          rw [absent]
          simp [entryPostings, Table.lookup, mine]
        · have before := holds.entries id
          simpa [entryPostings, Table.lookup, mine] using before
  entryPostings := fun holds => holds.entries
  totals := by
    intro ledger journal holds known
    rw [← holds.postings] at known ⊢
    have rows : ∀ row ∈ ledger.postings.map Posting.row, knownAccount row.1.1 = true := by
      intro row member
      obtain ⟨posting, inPostings, rfl⟩ := List.mem_map.mp member
      exact known posting inPostings
    obtain ⟨totals, done, sums⟩ := TotalsByType.ofRows_spec rows
    exact ⟨totals, done, fun type asset => by rw [sums, sumWhere_rows]; rfl⟩

theorem holds_empty : Holds .empty [] :=
  ⟨by simp [empty], rfl, by simp [entryPostings, empty]⟩

end MemoryLedger

namespace SqlLedger

structure Holds (ledger : SqlLedger) (journal : List JournalEntry) : Prop where
  journal : ledger.journal = journal
  keyed : ledger.Keyed
  distinct : (ledger.journal.map JournalEntry.id).Nodup

theorem keepsJournal : KeepsJournal sqlStore Holds where
  append := by
    intro ledger journal entry holds own
    obtain ⟨rfl, keyed, distinct⟩ := holds
    obtain ⟨next, appended, grown, nextKeyed⟩ := keyed.append own
    have ran : sqlStore.append ledger entry
        = (.ok (!ledger.hasKey entry.idempotencyKey), next) := by
      simp only [sqlStore, appended]
    have taken : ledger.hasKey entry.idempotencyKey = true
        ↔ entry.id ∈ ledger.journal.map JournalEntry.id := by
      simp only [hasKey, List.any_eq_true, decide_eq_true_eq, List.mem_map]
      exact exists_congr fun old => and_congr_right fun member => by
        rw [← keyed old member, own]
    rw [ran]
    refine ⟨?_, grown.symm ▸ rfl, nextKeyed, ?_⟩
    · by_cases here : entry.id ∈ ledger.journal.map JournalEntry.id
      · simp only [taken.mpr here, Bool.not_true, here, not_true_eq_false, decide_false]
      · simp only [Bool.eq_false_iff.mpr (taken.not.mpr here), Bool.not_false, here,
          not_false_eq_true, decide_true]
    · rw [grown]
      exact Table.nodup_insertIgnore entry distinct
  entryPostings := by
    rintro ledger journal ⟨rfl, -, distinct⟩ id
    cases found : Table.lookup JournalEntry.id ledger.journal id with
    | some entry =>
        obtain rfl := Table.lookup_key found
        exact entryPostings_of_mem distinct (Table.lookup_mem found)
    | none =>
        have none : ledger.journal.filter (fun entry => entry.id = id) = [] := by
          simpa [Table.lookup, List.find?_eq_none] using found
        simp [sqlStore, entryPostings, none]
  totals := by
    rintro ledger journal ⟨rfl, -, -⟩ known
    have rows : ∀ row ∈ ledger.netByAccountAsset, knownAccount row.1.1 = true := by
      intro row member
      rcases Accumulator.mem_keys_tally (List.mem_map_of_mem member) with old | ⟨posting, here, same⟩
      · cases old
      · exact same ▸ known posting here
    obtain ⟨totals, done, sums⟩ := TotalsByType.ofRows_spec rows
    refine ⟨totals, done, ?_⟩
    intro type asset
    rw [sums, netByAccountAsset, Accumulator.sumWhere_tally, Accumulator.sumWhere_nil,
      Int.zero_add]
    rfl

theorem holds_empty : Holds .empty [] :=
  ⟨rfl, keyed_empty, List.nodup_nil⟩

end SqlLedger

-----------------------------------------------------------------------------
-- The flows

/-- The flows that the engine posts. A payout is locked by the service, with its check of
the balance, or by posting the flow; an entry is reversed under the id of its own key.
-/
inductive Flow
  | detected (input : DepositDetectedInput)
  | finalized (input : DepositFinalizedInput)
  | quarantined (input : DepositQuarantinedInput)
  | released (input : DepositReleasedInput)
  | locked (input : PayoutLockedInput)
  | lockedByService (input : PayoutLockedInput)
  | settled (input : PayoutSettledInput)
  | swept (input : FeeSweptInput)
  | reversed (ref : String)
  deriving DecidableEq, Repr

namespace Flow

/-- The id that the entry of a flow is stored under. -/
def id : Flow → String
  | .detected input => input.id
  | .finalized input => input.id
  | .quarantined input => input.id
  | .released input => input.id
  | .locked input => input.id
  | .lockedByService input => input.id
  | .settled input => input.id
  | .swept input => input.id
  | .reversed ref => "reverse:" ++ ref

def isDeposit : Flow → Bool
  | .detected _ => true
  | .finalized _ => true
  | .quarantined _ => true
  | .released _ => true
  | _ => false

/-- The fee that a flow credits to the revenue in an asset. -/
def feeIn (asset : String) : Flow → Int
  | .finalized input =>
      if input.asset = asset then
        ((splitFee input.amount input.feeBasisPoints).toOption.map FeeSplit.fee).getD 0
      else 0
  | .released input => if input.asset = asset then input.fee else 0
  | _ => 0

/-- The flow's id is its key, its accounts are of the types that the engine's keys have, and
it has no network fee.
-/
def proper : Flow → Bool
  | .detected input =>
      input.id = input.idempotencyKey
      && hasType .asset input.poolAddrUnconfirmed && hasType .liability input.merchantPending
  | .finalized input =>
      input.id = input.idempotencyKey
      && hasType .asset input.poolAddr && hasType .liability input.merchantAvailable
      && hasType .revenue input.feeRevenue
  | .quarantined input =>
      input.id = input.idempotencyKey
      && hasType .asset input.poolAddr && hasType .liability input.complianceSuspense
  | .released input =>
      input.id = input.idempotencyKey
      && hasType .liability input.complianceSuspense
      && hasType .liability input.merchantAvailable && hasType .revenue input.feeRevenue
  | .locked input =>
      input.id = input.idempotencyKey
      && hasType .liability input.merchantAvailable
      && hasType .liability input.merchantPendingWithdrawal
  | .lockedByService input =>
      input.id = input.idempotencyKey
      && hasType .liability input.merchantAvailable
      && hasType .liability input.merchantPendingWithdrawal
  | .settled input =>
      input.id = input.idempotencyKey
      && hasType .liability input.merchantPendingWithdrawal && hasType .asset input.poolAddr
      && input.networkFee.isNone
  | .swept input =>
      input.id = input.idempotencyKey
      && hasType .asset input.treasury && hasType .asset input.poolAddr
      && input.networkFee.isNone
  | .reversed _ => true

variable {σ : Type u} (store : LedgerStore σ)

/-- Post what a builder returned. -/
def postBuilt (ledger : σ) : Except AppError JournalEntry → Outcome σ
  | .error err => (.error err, ledger)
  | .ok entry => store.post ledger entry

def run (ledger : σ) : Flow → Outcome σ
  | .detected input => postBuilt store ledger (depositDetected input)
  | .finalized input => postBuilt store ledger (depositFinalized input)
  | .quarantined input => postBuilt store ledger (depositQuarantined input)
  | .released input => postBuilt store ledger (depositReleased input)
  | .locked input => postBuilt store ledger (payoutLocked input)
  | .lockedByService input => store.lockPayout ledger input
  | .settled input => postBuilt store ledger (payoutSettled input)
  | .swept input => postBuilt store ledger (feeSwept input)
  | .reversed ref => store.reverseByRef ledger ref ("reverse:" ++ ref) ("reverse:" ++ ref)

end Flow

/-- A ledger with the flows whose entries were applied to it. -/
structure FlowHistory (σ : Type u) where
  ledger : σ
  applied : List Flow

namespace FlowHistory

variable {σ : Type u}

def step (store : LedgerStore σ) (history : FlowHistory σ) (flow : Flow)
    : Option (FlowHistory σ) :=
  let outcome := flow.run store history.ledger
  some
    { ledger := outcome.2
      applied :=
        if outcome.1.toOption = some true then history.applied ++ [flow] else history.applied }

/-- What the engine may do next: any proper flow, and a reversal of a deposit entry. -/
def offers (history : FlowHistory σ) (flow : Flow) : Bool :=
  flow.proper
  && match flow with
    | .reversed ref => history.applied.any fun earlier => earlier.isDeposit && earlier.id = ref
    | _ => true

/-- The fees that stand: of every applied flow that was not reversed. -/
def standingFees (asset : String) (applied : List Flow) : Int :=
  (applied.map fun flow =>
    if .reversed flow.id ∈ applied then 0 else flow.feeIn asset).sum

end FlowHistory

-----------------------------------------------------------------------------
-- What the entry of a flow does to the totals

theorem accountTypeOf_of_hasType {type : AccountType} {account : String}
    (typed : hasType type account = true)
    : accountTypeOf account = .ok type := by
  cases read : accountTypeOf account with
  | error err => simp [hasType, read, Except.toOption] at typed
  | ok own =>
      rw [hasType_of_eq read, decide_eq_true_eq] at typed
      rw [typed]

theorem known_of_type {type : AccountType} {account : String}
    (typed : accountTypeOf account = .ok type)
    : knownAccount account = true := by
  simp [knownAccount, typed, Except.toOption]

/-- Balanced postings on known accounts that credit the revenue with a fee and spend nothing.
-/
structure Accrues (fee : String → Int) (postings : List Posting) : Prop where
  balanced : Balanced postings
  known : KnownAccounts postings
  revenue : ∀ asset, typeNet .revenue asset postings = -fee asset
  expense : ∀ asset, typeNet .expense asset postings = 0

/-- A reversal takes the fee back. -/
theorem Accrues.flipped {fee : String → Int} {postings : List Posting}
    (accrues : Accrues fee postings)
    : Accrues (fun asset => -fee asset) (postings.map Posting.flipped) where
  balanced := accrues.balanced.flipped
  known := accrues.known.flipped
  revenue asset := by rw [typeNet_flipped, accrues.revenue]
  expense asset := by rw [typeNet_flipped, accrues.expense, Int.neg_zero]

/-- A type that is neither revenue nor expense. -/
def AccountType.isHeld : AccountType → Bool
  | .asset => true
  | .liability => true
  | _ => false

theorem AccountType.apart_of_isHeld {type : AccountType} (held : type.isHeld = true)
    : type ≠ .revenue ∧ type ≠ .expense := by
  cases type with
  | asset => simp
  | liability => simp
  | revenue => cases held
  | expense => cases held

theorem accrues_movement {kind id idempotencyKey asset debited credited : String}
    {amount : Int} {source target : AccountType} (positive : 0 < amount)
    (debitedType : accountTypeOf debited = .ok source) (fromHeld : source.isHeld = true)
    (creditedType : accountTypeOf credited = .ok target) (toHeld : target.isHeld = true)
    : Accrues (fun _ => 0)
        (movementEntry kind id idempotencyKey asset amount debited credited none).postings where
  balanced := balanced_movementEntry positive
  known := by
    simp [movementEntry, networkFeePostings, KnownAccounts, known_of_type debitedType,
      known_of_type creditedType]
  revenue := by
    intro other
    cases source <;> cases target <;>
      simp_all [movementEntry, networkFeePostings, typeNet, hasType_of_eq debitedType,
        hasType_of_eq creditedType, AccountType.isHeld]
  expense := by
    intro other
    cases source <;> cases target <;>
      simp_all [movementEntry, networkFeePostings, typeNet, hasType_of_eq debitedType,
        hasType_of_eq creditedType, AccountType.isHeld]

/-- A whole amount on one held account, its net on another and the fee on the revenue. -/
theorem accrues_split {asset debited credited revenue : String} {amount net fee : Int}
    {source target : AccountType}
    (balanced : Balanced
      ([ { account := debited, asset, amount, direction := .debit },
          { account := credited, asset, amount := net, direction := .credit } ]
        ++ if fee > 0 then
            [ { account := revenue, asset, amount := fee, direction := .credit } ]
          else []))
    (notNegative : 0 ≤ fee)
    (debitedType : accountTypeOf debited = .ok source) (fromHeld : source.isHeld = true)
    (creditedType : accountTypeOf credited = .ok target) (toHeld : target.isHeld = true)
    (revenueType : accountTypeOf revenue = .ok .revenue)
    : Accrues (fun other => if asset = other then fee else 0)
        ([ { account := debited, asset, amount, direction := .debit },
            { account := credited, asset, amount := net, direction := .credit } ]
          ++ if fee > 0 then
              [ { account := revenue, asset, amount := fee, direction := .credit } ]
            else []) where
  balanced := balanced
  known := by
    refine KnownAccounts.append ?_ ?_
    · simp [KnownAccounts, known_of_type debitedType, known_of_type creditedType]
    · split <;> simp [KnownAccounts, known_of_type revenueType]
  revenue := by
    intro other
    obtain ⟨fromRevenue, -⟩ := AccountType.apart_of_isHeld fromHeld
    obtain ⟨toRevenue, -⟩ := AccountType.apart_of_isHeld toHeld
    have charged : fee > 0 ∨ fee = 0 := by omega
    rcases charged with charged | rfl <;> by_cases same : asset = other <;>
      simp_all [typeNet, hasType_of_eq debitedType, hasType_of_eq creditedType,
        hasType_of_eq revenueType]
  expense := by
    intro other
    obtain ⟨-, fromExpense⟩ := AccountType.apart_of_isHeld fromHeld
    obtain ⟨-, toExpense⟩ := AccountType.apart_of_isHeld toHeld
    have charged : fee > 0 ∨ fee = 0 := by omega
    rcases charged with charged | rfl <;> by_cases same : asset = other <;>
      simp_all [typeNet, hasType_of_eq debitedType, hasType_of_eq creditedType,
        hasType_of_eq revenueType]

namespace Flow

variable {σ : Type u} {store : LedgerStore σ}

theorem feeIn_finalized {input : DepositFinalizedInput} {split : FeeSplit}
    (done : splitFee input.amount input.feeBasisPoints = .ok split) (asset : String)
    : Flow.feeIn asset (.finalized input) = if input.asset = asset then split.fee else 0 := by
  simp [feeIn, done, Except.toOption]

/-- What the entry of an unreversed flow is, with what it does to the totals. -/
structure Built (flow : Flow) (entry : JournalEntry) : Prop where
  id : entry.id = flow.id
  own : entry.id = entry.idempotencyKey
  accrues : Accrues (fun asset => flow.feeIn asset) entry.postings
  fees : ∀ asset, 0 ≤ flow.feeIn asset

/-- An entry that a builder returned and that is balanced is appended. -/
theorem postBuilt_of_balanced {ledger : σ} {entry : JournalEntry}
    (balanced : Balanced entry.postings)
    : postBuilt store ledger (.ok entry) = store.append ledger entry := by
  simp [postBuilt, LedgerStore.post, assertBalanced_of_balanced balanced]

/-- A flow that moves one amount between held accounts throws or appends its movement. -/
theorem postBuilt_movement {flow : Flow} {ledger : σ}
    {what kind id idempotencyKey asset debited credited : String} {amount : Int}
    {source target : AccountType}
    (same : id = flow.id) (own : id = idempotencyKey) (free : ∀ asset, flow.feeIn asset = 0)
    (debitedType : accountTypeOf debited = .ok source) (fromHeld : source.isHeld = true)
    (creditedType : accountTypeOf credited = .ok target) (toHeld : target.isHeld = true)
    : let outcome := postBuilt store ledger
        (movement what kind id idempotencyKey asset amount debited credited none)
      (∃ err, outcome = (.error err, ledger))
      ∨ ∃ entry, Built flow entry ∧ outcome = store.append ledger entry := by
  rw [movement_eq]
  by_cases refused : amount ≤ 0
  · rw [if_pos refused]
    exact .inl ⟨_, rfl⟩
  · rw [if_neg refused]
    have positive : 0 < amount := Int.not_le.mp refused
    refine .inr ⟨_, ⟨same, own, ?_, fun asset => (free asset).symm.le⟩,
      postBuilt_of_balanced (balanced_movementEntry positive)⟩
    have nothing : (fun asset => flow.feeIn asset) = fun _ => 0 := funext free
    rw [nothing]
    exact accrues_movement positive debitedType fromHeld creditedType toHeld

/-- A proper flow that is no reversal throws or appends its entry. -/
theorem run_cases {flow : Flow} {ledger : σ} (proper : flow.proper = true)
    (forward : ∀ ref, flow ≠ .reversed ref)
    : (∃ err, flow.run store ledger = (.error err, ledger))
      ∨ ∃ entry, Built flow entry ∧ flow.run store ledger = store.append ledger entry := by
  cases flow with
  | detected input =>
      simp only [Flow.proper, Bool.and_eq_true, decide_eq_true_eq] at proper
      exact postBuilt_movement rfl proper.1.1 (fun _ => rfl)
        (accountTypeOf_of_hasType proper.1.2) rfl (accountTypeOf_of_hasType proper.2) rfl
  | quarantined input =>
      simp only [Flow.proper, Bool.and_eq_true, decide_eq_true_eq] at proper
      exact postBuilt_movement rfl proper.1.1 (fun _ => rfl)
        (accountTypeOf_of_hasType proper.1.2) rfl (accountTypeOf_of_hasType proper.2) rfl
  | locked input =>
      simp only [Flow.proper, Bool.and_eq_true, decide_eq_true_eq] at proper
      exact postBuilt_movement rfl proper.1.1 (fun _ => rfl)
        (accountTypeOf_of_hasType proper.1.2) rfl (accountTypeOf_of_hasType proper.2) rfl
  | lockedByService input =>
      simp only [Flow.proper, Bool.and_eq_true, decide_eq_true_eq] at proper
      have locking : (∃ err, postBuilt store ledger (payoutLocked input) = (.error err, ledger))
          ∨ ∃ entry, Built (.lockedByService input) entry
            ∧ postBuilt store ledger (payoutLocked input) = store.append ledger entry :=
        postBuilt_movement rfl proper.1.1 (fun _ => rfl)
          (accountTypeOf_of_hasType proper.1.2) rfl (accountTypeOf_of_hasType proper.2) rfl
      cases read : store.availableBalance ledger input.merchantAvailable input.asset with
      | error err => exact .inl ⟨err, by simp only [run, LedgerStore.lockPayout, read]⟩
      | ok available =>
          by_cases short : input.amount > available
          · exact .inl ⟨LedgerService.insufficientFunds input available, by
              simp only [run, LedgerStore.lockPayout, read, if_pos short]⟩
          · have onward : Flow.run store ledger (.lockedByService input)
                = postBuilt store ledger (payoutLocked input) := by
              simp only [run, LedgerStore.lockPayout, read, if_neg short]
              cases payoutLocked input <;> rfl
            rw [onward]
            exact locking
  | settled input =>
      simp only [Flow.proper, Bool.and_eq_true, decide_eq_true_eq, Option.isNone_iff_eq_none]
        at proper
      rw [run, payoutSettled, proper.2]
      exact postBuilt_movement rfl proper.1.1.1 (fun _ => rfl)
        (accountTypeOf_of_hasType proper.1.1.2) rfl (accountTypeOf_of_hasType proper.1.2) rfl
  | swept input =>
      simp only [Flow.proper, Bool.and_eq_true, decide_eq_true_eq, Option.isNone_iff_eq_none]
        at proper
      rw [run, feeSwept, proper.2]
      exact postBuilt_movement rfl proper.1.1.1 (fun _ => rfl)
        (accountTypeOf_of_hasType proper.1.1.2) rfl (accountTypeOf_of_hasType proper.1.2) rfl
  | finalized input =>
      simp only [Flow.proper, Bool.and_eq_true, decide_eq_true_eq] at proper
      obtain ⟨⟨⟨own, pool⟩, available⟩, revenue⟩ := proper
      cases split : splitFee input.amount input.feeBasisPoints with
      | error err =>
          exact .inl ⟨err, by simp only [run, depositFinalized_of_error split, postBuilt]⟩
      | ok parts =>
          obtain ⟨notNegative, -, -⟩ := splitFee_bounds split
          have balanced := balanced_finalizedEntry split
          have fee := feeIn_finalized split
          refine .inr ⟨finalizedEntry input parts, ⟨rfl, own, ?_, ?_⟩, ?_⟩
          · rw [funext fee]
            exact accrues_split balanced notNegative (accountTypeOf_of_hasType pool) rfl
              (accountTypeOf_of_hasType available) rfl (accountTypeOf_of_hasType revenue)
          · intro asset
            rw [fee]
            split <;> omega
          · rw [run, depositFinalized_of_split split, postBuilt_of_balanced balanced]
  | released input =>
      simp only [Flow.proper, Bool.and_eq_true, decide_eq_true_eq] at proper
      obtain ⟨⟨⟨own, suspense⟩, available⟩, revenue⟩ := proper
      cases built : depositReleased input with
      | error err => exact .inl ⟨err, by simp only [run, built, postBuilt]⟩
      | ok entry =>
          obtain ⟨positive, notNegative, rfl⟩ := depositReleased_eq_ok built
          have balanced := balanced_releasedEntry positive notNegative
          refine .inr ⟨releasedEntry input, ⟨rfl, own, ?_, ?_⟩, ?_⟩
          · exact accrues_split balanced notNegative (accountTypeOf_of_hasType suspense) rfl
              (accountTypeOf_of_hasType available) rfl (accountTypeOf_of_hasType revenue)
          · intro asset
            simp only [feeIn]
            split <;> omega
          · rw [run, built, postBuilt_of_balanced balanced]
  | reversed ref => exact absurd rfl (forward ref)

end Flow

-----------------------------------------------------------------------------
-- Histories

namespace FlowHistory

variable {σ : Type u}

/-- Leaving one more flow out of a sum over flows with distinct ids takes its value away. -/
private theorem sum_without {flows : List Flow} {target : Flow} {left : Flow → Prop}
    [DecidablePred left] (value : Flow → Int) (distinct : (flows.map Flow.id).Nodup)
    (member : target ∈ flows) (counted : ¬ left target)
    : (flows.map fun flow => if left flow ∨ flow.id = target.id then 0 else value flow).sum
      = (flows.map fun flow => if left flow then 0 else value flow).sum - value target := by
  have changed := Table.sum_change
    (f := fun flow => if left flow then 0 else value flow)
    (g := fun flow => if left flow ∨ flow.id = target.id then 0 else value flow)
    distinct member fun flow _ apart => by simp [apart]
  simpa [counted] using changed

/-- A flow that was not reversed before it was applied adds its fee. -/
theorem standingFees_forward {applied : List Flow} {flow : Flow} (asset : String)
    (forward : ∀ ref, flow ≠ .reversed ref) (unreversed : .reversed flow.id ∉ applied)
    : standingFees asset (applied ++ [flow]) = standingFees asset applied + flow.feeIn asset := by
  have same : ∀ ref, Flow.reversed ref ∈ applied ++ [flow] ↔ Flow.reversed ref ∈ applied := by
    intro ref
    simp only [List.mem_append, List.mem_singleton, or_iff_left_iff_imp]
    exact fun hit => absurd hit.symm (forward ref)
  simp only [standingFees, same, List.map_append, List.sum_append, List.map_singleton,
    List.sum_singleton, if_neg unreversed]

/-- A first reversal takes the fee of its flow away. -/
theorem standingFees_reversed {applied : List Flow} {flow : Flow} (asset : String)
    (distinct : (applied.map Flow.id).Nodup) (member : flow ∈ applied)
    (unreversed : .reversed flow.id ∉ applied)
    : standingFees asset (applied ++ [.reversed flow.id])
      = standingFees asset applied - flow.feeIn asset := by
  have after : ∀ ref, Flow.reversed ref ∈ applied ++ [.reversed flow.id]
      ↔ Flow.reversed ref ∈ applied ∨ ref = flow.id := by
    intro ref
    simp only [List.mem_append, List.mem_singleton, Flow.reversed.injEq]
  have nothing : Flow.feeIn asset (.reversed flow.id) = 0 := rfl
  simp only [standingFees, after, List.map_append, List.sum_append, List.map_singleton,
    List.sum_singleton, nothing, ite_self, Int.add_zero]
  exact sum_without (fun flow => flow.feeIn asset) distinct member unreversed

/-- The applied flows are the entries of the journal; what a flow built is under its id, only
flows that were applied are reversed, and the journal credits the revenue with the fees that
stand.
-/
structure Recorded (applied : List Flow) (journal : List JournalEntry) : Prop where
  ids : journal.map JournalEntry.id = applied.map Flow.id
  distinct : (journal.map JournalEntry.id).Nodup
  built : ∀ flow ∈ applied, (∀ ref, flow ≠ .reversed ref)
    → ∃ entry ∈ journal, flow.Built entry
  reversals : ∀ ref, .reversed ref ∈ applied → ref ∈ journal.map JournalEntry.id
  level : Level (journal.flatMap JournalEntry.postings)
  revenue : ∀ asset,
    typeNet .revenue asset (journal.flatMap JournalEntry.postings) = -standingFees asset applied
  expense : ∀ asset, typeNet .expense asset (journal.flatMap JournalEntry.postings) = 0

theorem recorded_nil : Recorded [] [] where
  ids := rfl
  distinct := List.nodup_nil
  built := by simp
  reversals := by simp
  level := ⟨by simp [KnownAccounts], fun _ => rfl⟩
  revenue _ := rfl
  expense _ := rfl

/-- One more entry under a free id, with what it does to the standing fees. -/
theorem Recorded.append {applied : List Flow} {journal : List JournalEntry} {flow : Flow}
    {entry : JournalEntry} {fee : String → Int} (recorded : Recorded applied journal)
    (same : entry.id = flow.id) (free : entry.id ∉ journal.map JournalEntry.id)
    (accrues : Accrues fee entry.postings)
    (builds : (∀ ref, flow ≠ .reversed ref) → flow.Built entry)
    (reverses : ∀ ref, flow = .reversed ref → ref ∈ journal.map JournalEntry.id)
    (standing : ∀ asset,
      standingFees asset (applied ++ [flow]) = standingFees asset applied + fee asset)
    : Recorded (applied ++ [flow]) (journal ++ [entry]) where
  ids := by simp [recorded.ids, same]
  distinct := by
    rw [List.map_append, List.map_singleton]
    refine List.Nodup.append recorded.distinct (List.nodup_singleton _) ?_
    intro id inJournal single
    exact free (List.mem_singleton.mp single ▸ inJournal)
  built := by
    intro other member forward
    rcases List.mem_append.mp member with before | last
    · obtain ⟨old, inJournal, known⟩ := recorded.built other before forward
      exact ⟨old, List.mem_append_left _ inJournal, known⟩
    · obtain rfl := List.mem_singleton.mp last
      exact ⟨entry, by simp, builds forward⟩
  reversals := by
    intro ref member
    rw [List.map_append]
    refine List.mem_append_left _ ?_
    rcases List.mem_append.mp member with before | last
    · exact recorded.reversals ref before
    · exact reverses ref (List.mem_singleton.mp last).symm
  level := by
    refine ⟨?_, ?_⟩
    · rw [List.flatMap_append]
      exact recorded.level.known.append (by simpa using accrues.known)
    · intro asset
      rw [List.flatMap_append, netWhere_append, recorded.level.zero]
      simpa using accrues.balanced.zero asset
  revenue := by
    intro asset
    rw [List.flatMap_append, typeNet_append, recorded.revenue, standing]
    have own := accrues.revenue asset
    simp only [List.flatMap_cons, List.flatMap_nil, List.append_nil, own]
    omega
  expense := by
    intro asset
    rw [List.flatMap_append, typeNet_append, recorded.expense]
    simpa using accrues.expense asset

/-- The fees that stand are fees of flows that were built, none of them negative. -/
theorem Recorded.standing_nonneg {applied : List Flow} {journal : List JournalEntry}
    (recorded : Recorded applied journal) (asset : String)
    : 0 ≤ standingFees asset applied := by
  refine List.sum_nonneg ?_
  intro value member
  obtain ⟨flow, inApplied, rfl⟩ := List.mem_map.mp member
  split
  · exact le_refl 0
  · cases flow with
    | reversed ref => exact le_refl 0
    | _ =>
        obtain ⟨entry, -, built⟩ := recorded.built _ inApplied (by simp)
        exact built.fees asset

/-- The ledger holds the journal of the applied flows. -/
def Accounted (Holds : σ → List JournalEntry → Prop) (history : FlowHistory σ) : Prop :=
  ∃ journal, Holds history.ledger journal ∧ Recorded history.applied journal

/-- What a flow that is appended does to the history. -/
theorem step_append {store : LedgerStore σ} {Holds : σ → List JournalEntry → Prop}
    (keeps : KeepsJournal store Holds) {history next : FlowHistory σ} {flow : Flow}
    {journal : List JournalEntry} {entry : JournalEntry}
    (holds : Holds history.ledger journal) (recorded : Recorded history.applied journal)
    (own : entry.id = entry.idempotencyKey)
    (ran : flow.run store history.ledger = store.append history.ledger entry)
    (grown : entry.id ∉ journal.map JournalEntry.id
      → Recorded (history.applied ++ [flow]) (journal ++ [entry]))
    (taken : history.step store flow = some next)
    : Accounted Holds next := by
  obtain rfl := Option.some.inj taken
  obtain ⟨answer, after⟩ := keeps.append holds own
  rw [Table.insertIgnore_eq] at after
  simp only [Accounted, ran, answer, Except.toOption]
  by_cases here : entry.id ∈ journal.map JournalEntry.id
  · rw [if_pos here] at after
    exact ⟨journal, after, by simpa [here] using recorded⟩
  · rw [if_neg here] at after
    exact ⟨_, after, by simpa [here] using grown here⟩

/-- A call that throws leaves the history as it was. -/
theorem step_thrown {store : LedgerStore σ} {history next : FlowHistory σ} {flow : Flow}
    {err : AppError} (ran : flow.run store history.ledger = (.error err, history.ledger))
    (taken : history.step store flow = some next)
    : next = history := by
  obtain rfl := Option.some.inj taken
  simp [ran, Except.toOption]

/-- Reversing an applied deposit appends the flipped postings of its entry. -/
theorem run_reversed {store : LedgerStore σ} {Holds : σ → List JournalEntry → Prop}
    (keeps : KeepsJournal store Holds) {ledger : σ} {journal : List JournalEntry}
    {entry : JournalEntry} (holds : Holds ledger journal)
    (distinct : (journal.map JournalEntry.id).Nodup) (member : entry ∈ journal)
    (balanced : Balanced entry.postings)
    : Flow.run store ledger (.reversed entry.id)
      = store.append ledger
          (LedgerStore.reversal ("reverse:" ++ entry.id) ("reverse:" ++ entry.id)
            entry.postings) := by
  have original : store.entryPostings ledger entry.id = entry.postings := by
    rw [keeps.entryPostings holds, Table.lookup_of_mem distinct member]
    rfl
  have stored : entry.postings.isEmpty = false := by simpa using balanced.nonempty
  have passes : assertBalanced
      (LedgerStore.reversal ("reverse:" ++ entry.id) ("reverse:" ++ entry.id) entry.postings)
      = .ok () :=
    assertBalanced_of_balanced balanced.flipped
  simp only [Flow.run, LedgerStore.reverseByRef, original, stored, Bool.false_eq_true, if_false,
    LedgerStore.post, passes]

/-- Every flow on offer keeps the ledger to the applied flows. -/
theorem Accounted.step {store : LedgerStore σ} {Holds : σ → List JournalEntry → Prop}
    (keeps : KeepsJournal store Holds) {history next : FlowHistory σ} {flow : Flow}
    (accounted : Accounted Holds history) (offered : history.offers flow = true)
    (taken : history.step store flow = some next)
    : Accounted Holds next := by
  obtain ⟨journal, holds, recorded⟩ := accounted
  obtain ⟨proper, offered⟩ := Bool.and_eq_true_iff.mp offered
  -- A reversal reads what the ledger holds under the id, every other flow only its input.
  by_cases forward : ∀ ref, flow ≠ .reversed ref
  · have outcome
        : (∃ err, flow.run store history.ledger = (.error err, history.ledger))
          ∨ ∃ entry, Flow.Built flow entry
              ∧ flow.run store history.ledger = store.append history.ledger entry :=
      Flow.run_cases proper forward
    rcases outcome with ⟨err, thrown⟩ | ⟨entry, built, ran⟩
    · rw [step_thrown thrown taken]
      exact ⟨journal, holds, recorded⟩
    · refine step_append keeps holds recorded built.own ran ?_ taken
      intro free
      refine recorded.append built.id free built.accrues (fun _ => built)
        (fun ref same => absurd same (forward ref)) ?_
      exact fun asset => standingFees_forward asset forward fun reversed =>
        free (built.id ▸ recorded.reversals _ reversed)
  · obtain ⟨ref, rfl⟩ := not_forall_not.mp forward
    obtain ⟨earlier, inApplied, isRef⟩ := List.any_eq_true.mp offered
    simp only [Bool.and_eq_true, decide_eq_true_eq] at isRef
    obtain ⟨isDeposit, rfl⟩ := isRef
    have unturned : ∀ ref, earlier ≠ .reversed ref := by
      rintro other rfl
      cases isDeposit
    obtain ⟨entry, inJournal, built⟩ := recorded.built earlier inApplied unturned
    have ran := run_reversed keeps holds recorded.distinct inJournal built.accrues.balanced
    rw [built.id] at ran
    refine step_append keeps holds recorded rfl ran ?_ taken
    intro free
    have first : Flow.reversed earlier.id ∉ history.applied := by
      intro again
      rw [recorded.ids] at free
      exact free (List.mem_map_of_mem again)
    refine recorded.append rfl free built.accrues.flipped (fun none => absurd rfl (none _)) ?_ ?_
    · rintro ref same
      rw [← Flow.reversed.inj same, ← built.id]
      exact List.mem_map_of_mem inJournal
    · intro asset
      rw [standingFees_reversed asset (recorded.ids ▸ recorded.distinct) inApplied first]
      rfl

/-- In every history on the store that starts from the ledger, the assets exceed the
liabilities by the fees that stand, which is the revenue and never negative, so that no asset
drifts.
-/
def StaysSolvent (store : LedgerStore σ) (start : σ) : Prop :=
  ∀ history : FlowHistory σ,
    Reaches (FlowHistory.step store) (fun history flow => history.offers flow = true)
      { ledger := start, applied := [] } history
    → (∃ totals,
        store.totalsByType history.ledger = .ok totals
        ∧ ∀ asset,
            totals.sumForAsset .asset asset - totals.sumForAsset .liability asset
              = standingFees asset history.applied
            ∧ totals.sumForAsset .revenue asset = standingFees asset history.applied
            ∧ 0 ≤ standingFees asset history.applied)
      ∧ ∀ assets, store.checkSolvency history.ledger assets = .ok []

/-- A store that keeps a journal stays solvent from an empty one. -/
theorem staysSolvent_of_keeps {store : LedgerStore σ} {Holds : σ → List JournalEntry → Prop}
    (keeps : KeepsJournal store Holds) {start : σ} (empty : Holds start [])
    : StaysSolvent store start := by
  intro history reached
  obtain ⟨journal, holds, recorded⟩ : Accounted Holds history :=
    reached.invariant ⟨[], empty, recorded_nil⟩
      fun accounted offered taken => accounted.step keeps offered taken
  obtain ⟨totals, done, sums⟩ := keeps.totals holds recorded.level.known
  have surplus : ∀ asset,
      totals.sumForAsset .asset asset - totals.sumForAsset .liability asset
        = standingFees asset history.applied
      ∧ totals.sumForAsset .revenue asset = standingFees asset history.applied
      ∧ 0 ≤ standingFees asset history.applied := by
    intro asset
    have whole := typeNet_sum recorded.level.known asset
    rw [recorded.level.zero, recorded.revenue, recorded.expense] at whole
    have nonneg := recorded.standing_nonneg asset
    simp only [sums, recorded.revenue, normalSide]
    omega
  refine ⟨⟨totals, done, surplus⟩, ?_⟩
  intro assets
  have none : solvencyDrift totals assets = [] := by
    simp only [solvencyDrift, List.filter_eq_nil_iff, List.mem_map]
    rintro solvency ⟨asset, -, rfl⟩
    obtain ⟨exceeds, -, nonneg⟩ := surplus asset
    have covers : totals.sumForAsset .liability asset ≤ totals.sumForAsset .asset asset := by
      omega
    simpa [assetSolvency, isSolvent] using covers
  simp [LedgerStore.checkSolvency, done, none, bind, Except.bind, pure, Except.pure]

end FlowHistory

/-- From an empty ledger, in memory or in the database, whatever flows are posted, repeated
and reversed: per asset the assets exceed the liabilities by the fees of the finalized and
released deposits that were not reversed, which is never negative, and the check reports no
drift.
-/
theorem posting_flows_stay_solvent
    : FlowHistory.StaysSolvent memoryStore MemoryLedger.empty
      ∧ FlowHistory.StaysSolvent sqlStore SqlLedger.empty :=
  ⟨FlowHistory.staysSolvent_of_keeps MemoryLedger.keepsJournal MemoryLedger.holds_empty,
    FlowHistory.staysSolvent_of_keeps SqlLedger.keepsJournal SqlLedger.holds_empty⟩

/-- A deposit with a fee of 5 that is reversed twice and a quarantine that is released with a
fee of 2, each delivered twice: the fee of the release stands.
-/
theorem posting_flows_stay_solvent_reversed
    : ∃ history : FlowHistory SqlLedger,
        history.applied.length = 4
        ∧ FlowHistory.standingFees "USDT" history.applied = 2
        ∧ sqlStore.checkSolvency history.ledger ["USDT"] = .ok [] := by
  let deposit : Flow :=
    .finalized
      { id := "d", idempotencyKey := "d", asset := "USDT", amount := 1000
        feeBasisPoints := .integer 50, poolAddr := "pool_addr:c:m"
        merchantAvailable := "merchant_available:t:m", feeRevenue := "egofi_fee_revenue:t" }
  let quarantine : Flow :=
    .quarantined
      { id := "q", idempotencyKey := "q", asset := "USDT", amount := 102
        poolAddr := "pool_addr:c:m", complianceSuspense := "compliance_suspense:t" }
  let release : Flow :=
    .released
      { id := "q:release", idempotencyKey := "q:release", asset := "USDT", amount := 100
        fee := 2, complianceSuspense := "compliance_suspense:t"
        merchantAvailable := "merchant_available:t:m", feeRevenue := "egofi_fee_revenue:t" }
  have executed : ∃ history : FlowHistory SqlLedger,
      Reaches (FlowHistory.step sqlStore) (fun history flow => history.offers flow = true)
        { ledger := SqlLedger.empty, applied := [] } history
      ∧ history.applied.length = 4
      ∧ FlowHistory.standingFees "USDT" history.applied = 2 :=
    Reaches.exists_of_exec
      [deposit, deposit, quarantine, .reversed "d", release, .reversed "d", release]
      (by decide +kernel)
  obtain ⟨history, reached, length, standing⟩ := executed
  exact ⟨history, length, standing, (posting_flows_stay_solvent.2 history reached).2 ["USDT"]⟩

end Cixtech.Ledger
