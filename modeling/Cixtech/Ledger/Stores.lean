import Cixtech.Ledger.Service
import Cixtech.Ledger.Solvency

/-! The port that the ledger service is written against, its two implementations and the
service over either of them. A call returns what it answers or throws beside the state it
leaves, so that what a throw leaves behind is part of the model.
-/

namespace Cixtech.Ledger

open Cixtech.Common Cixtech.Foundation

universe u

/-- What a call that may write answers or throws, with the state after it. -/
abbrev Outcome (σ : Type u) := Except AppError Bool × σ

structure LedgerStore (σ : Type u) where
  append : σ → JournalEntry → Outcome σ
  entryPostings : σ → String → List Posting
  balance : σ → String → String → Int
  totalsByType : σ → Except AppError TotalsByType

namespace LedgerStore

variable {σ : Type u} (store : LedgerStore σ)

def post (ledger : σ) (entry : JournalEntry) : Outcome σ :=
  match assertBalanced entry with
  | .error err => (.error err, ledger)
  | .ok () => store.append ledger entry

def getBalance (ledger : σ) (account asset : String) : Int := store.balance ledger account asset

def availableBalance (ledger : σ) (account asset : String) : Except AppError Int :=
  normalBalance account (store.balance ledger account asset)

def lockPayout (ledger : σ) (input : PayoutLockedInput) : Outcome σ :=
  match store.availableBalance ledger input.merchantAvailable input.asset with
  | .error err => (.error err, ledger)
  | .ok available =>
      if input.amount > available then
        (.error (LedgerService.insufficientFunds input available), ledger)
      else
        match payoutLocked input with
        | .error err => (.error err, ledger)
        | .ok entry => store.post ledger entry

/-- The entry that reverses the postings of another. -/
def reversal (newId newKey : String) (original : List Posting) : JournalEntry :=
  { id := newId, idempotencyKey := newKey, kind := "reverse"
    postings := original.map Posting.flipped }

def reverseByRef (ledger : σ) (originalId newId newKey : String) : Outcome σ :=
  let original := store.entryPostings ledger originalId
  if original.isEmpty then (.error (LedgerService.unknownEntry originalId), ledger)
  else store.post ledger (reversal newId newKey original)

def checkSolvency (ledger : σ) (assets : List String) : Except AppError (List AssetSolvency) := do
  return solvencyDrift (← store.totalsByType ledger) assets

def isSolvent (ledger : σ) (asset : String) : Except AppError Bool := do
  return (← store.checkSolvency ledger [asset]).isEmpty

end LedgerStore

-----------------------------------------------------------------------------
-- The store in memory

/-- `byEntry` is a map in which a later entry replaces the postings of an earlier one with
its id: the latest is kept in front.
-/
structure MemoryLedger where
  seenKeys : List String
  postings : List Posting
  byEntry : List (String × List Posting)
  deriving DecidableEq, Repr

namespace MemoryLedger

def empty : MemoryLedger := { seenKeys := [], postings := [], byEntry := [] }

def append (ledger : MemoryLedger) (entry : JournalEntry) : Outcome MemoryLedger :=
  if ledger.seenKeys.contains entry.idempotencyKey then (.ok false, ledger)
  else
    (.ok true,
      { seenKeys := entry.idempotencyKey :: ledger.seenKeys
        postings := ledger.postings ++ entry.postings
        byEntry := (entry.id, entry.postings) :: ledger.byEntry })

def entryPostings (ledger : MemoryLedger) (entryId : String) : List Posting :=
  ((Table.lookup Prod.fst ledger.byEntry entryId).map Prod.snd).getD []

def balance (ledger : MemoryLedger) (account asset : String) : Int :=
  ledger.postings.foldl
    (fun net posting =>
      if posting.account = account ∧ posting.asset = asset then net + posting.signed else net)
    0

def totalsByType (ledger : MemoryLedger) : Except AppError TotalsByType :=
  TotalsByType.ofRows (ledger.postings.map Posting.row)

/-- The running sum is the net of the account, by induction on the postings. -/
theorem balance_eq_net (ledger : MemoryLedger) (account asset : String)
    : ledger.balance account asset = SqlLedger.netOn account asset ledger.postings := by
  have running : ∀ (postings : List Posting) (net : Int),
      postings.foldl
        (fun net posting =>
          if posting.account = account ∧ posting.asset = asset then net + posting.signed
          else net)
        net
      = net + SqlLedger.netOn account asset postings := by
    intro postings
    induction postings with
    | nil => simp [SqlLedger.netOn]
    | cons posting rest ih =>
        intro net
        rw [List.foldl_cons, ih]
        simp only [SqlLedger.netOn, netWhere_cons, Prod.mk.injEq, decide_eq_true_eq]
        split <;> omega
  rw [balance, running, Int.zero_add]

end MemoryLedger

def memoryStore : LedgerStore MemoryLedger where
  append := MemoryLedger.append
  entryPostings := MemoryLedger.entryPostings
  balance := MemoryLedger.balance
  totalsByType := MemoryLedger.totalsByType

-----------------------------------------------------------------------------
-- The relational store

/-- `netByAccountAsset`: the signed sum of the postings of each account and asset. -/
def SqlLedger.netByAccountAsset (ledger : SqlLedger) : List NetRow :=
  Accumulator.tally (fun posting => (posting.account, posting.asset)) Posting.signed []
    ledger.postings

def SqlLedger.totalsByType (ledger : SqlLedger) : Except AppError TotalsByType :=
  TotalsByType.ofRows ledger.netByAccountAsset

/-- An append runs in a transaction, so that one that throws is rolled back. -/
def sqlStore : LedgerStore SqlLedger where
  append ledger entry :=
    match ledger.append entry with
    | .error err => (.error err, ledger)
    | .ok (next, applied) => (.ok applied, next)
  entryPostings := SqlLedger.entryPostings
  balance := SqlLedger.balance
  totalsByType := SqlLedger.totalsByType

/-- Over the relational store the service posts as the one that the payouts run on. -/
theorem sqlStore_post (ledger : SqlLedger) (entry : JournalEntry)
    : sqlStore.post ledger entry
      = match LedgerService.post ledger entry with
        | .error err => (.error err, ledger)
        | .ok (next, applied) => (.ok applied, next) := by
  cases outcome : assertBalanced entry with
  | error err => simp [LedgerStore.post, LedgerService.post, outcome, bind, Except.bind]
  | ok value => simp [LedgerStore.post, LedgerService.post, outcome, sqlStore, bind, Except.bind]

/-- And it locks payouts as that one. -/
theorem sqlStore_lockPayout (ledger : SqlLedger) (input : PayoutLockedInput)
    : sqlStore.lockPayout ledger input
      = match LedgerService.lockPayout ledger input with
        | .error err => (.error err, ledger)
        | .ok (next, applied) => (.ok applied, next) := by
  have read : sqlStore.availableBalance ledger input.merchantAvailable input.asset
      = LedgerService.availableBalance ledger input.merchantAvailable input.asset := rfl
  unfold LedgerStore.lockPayout LedgerService.lockPayout LedgerService.lockEntry
  rw [read]
  cases LedgerService.availableBalance ledger input.merchantAvailable input.asset with
  | error err => rfl
  | ok available =>
      by_cases short : input.amount > available
      · simp [short, bind, Except.bind, throw, throwThe, MonadExceptOf.throw]
      · simp only [short, if_false, bind, Except.bind, pure, Except.pure]
        cases payoutLocked input with
        | error err => rfl
        | ok entry =>
            simp only [sqlStore_post, LedgerService.post, bind, Except.bind]
            cases assertBalanced entry <;> rfl

end Cixtech.Ledger
