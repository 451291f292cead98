import Cixtech.Ledger.SqlStore

/-! The ledger service over the relational store: posting checks the balance of an entry
first, and locking a payout compares it with the merchant's available balance. The lock is
two statements with an await between them, so its two halves are separate functions.
-/

namespace Cixtech.Ledger

open Cixtech.Common

namespace LedgerService

def post (ledger : SqlLedger) (entry : JournalEntry) : Except AppError (SqlLedger × Bool) := do
  assertBalanced entry
  ledger.append entry

def availableBalance (ledger : SqlLedger) (account asset : String) : Except AppError Int :=
  normalBalance account (ledger.balance account asset)

def insufficientFunds (input : PayoutLockedInput) (available : Int) : AppError :=
  { code := .ledgerInsufficientFunds
    message :=
      s!"Payout of {input.amount} exceeds available {available} for {input.merchantAvailable}"
    context :=
      [ ("account", .text input.merchantAvailable),
        ("asset", .text input.asset),
        ("requested", .text (toString input.amount)),
        ("available", .text (toString available)) ] }

/-- The part of `lockPayout` after the balance is read and before the entry is appended. -/
def lockEntry (input : PayoutLockedInput) (available : Int) : Except AppError JournalEntry := do
  if input.amount > available then throw (insufficientFunds input available)
  let entry ← payoutLocked input
  assertBalanced entry
  return entry

/-- `lockPayout` when nothing runs between its statements. -/
def lockPayout (ledger : SqlLedger) (input : PayoutLockedInput)
    : Except AppError (SqlLedger × Bool) := do
  let available ← availableBalance ledger input.merchantAvailable input.asset
  let entry ← lockEntry input available
  ledger.append entry

def unknownEntry (originalId : String) : AppError :=
  { code := .ledgerUnknownEntry
    message := s!"Cannot reverse unknown journal entry {originalId}"
    context := [("originalId", .text originalId)] }

/-- Post the flipped postings of an earlier entry under a new id. -/
def reverseByRef (ledger : SqlLedger) (originalId newId newKey : String)
    : Except AppError (SqlLedger × Bool) :=
  let original := ledger.entryPostings originalId
  if original.isEmpty then .error (unknownEntry originalId)
  else
    post ledger
      { id := newId, idempotencyKey := newKey, kind := "reverse"
        postings := original.map Posting.flipped }

/-- The available balance of a merchant is its net credit. -/
@[simp]
theorem availableBalance_merchantAvailable (ledger : SqlLedger) (tenant merchant asset : String)
    : availableBalance ledger (merchantAvailable tenant merchant) asset
      = .ok (-ledger.balance (merchantAvailable tenant merchant) asset) := by
  simp [availableBalance, normalBalance, normalSide, bind, Except.bind, pure,
    Except.pure]

/-- A balanced entry is posted exactly as the store appends it. -/
theorem post_of_balanced {ledger : SqlLedger} {entry : JournalEntry}
    (balanced : Balanced entry.postings)
    : post ledger entry = ledger.append entry := by
  simp [post, assertBalanced_of_balanced balanced, bind, Except.bind]

/-- What is posted is what the store appends. -/
theorem append_of_post {ledger : SqlLedger} {entry : JournalEntry} {result : SqlLedger × Bool}
    (posted : post ledger entry = .ok result)
    : ledger.append entry = .ok result := by
  unfold post at posted
  cases checks : assertBalanced entry with
  | error err => simp [checks, bind, Except.bind] at posted
  | ok value => simpa [checks, bind, Except.bind] using posted

end LedgerService

end Cixtech.Ledger
