import Cixtech.Foundation.Executions
import Cixtech.Ledger.Stores

/-! Conservation on the store in memory. Whatever entries are offered to the service, only
balanced ones arrive, so the signed balances of an asset always sum to zero and the totals
by type keep assets and expenses level with liabilities and revenue.
-/

namespace Cixtech.Ledger

open Cixtech.Common Cixtech.Foundation

universe u

inductive LedgerCall
  | post (entry : JournalEntry)
  | lockPayout (input : PayoutLockedInput)
  | reverseByRef (originalId newId newKey : String)
  deriving DecidableEq, Repr

namespace LedgerCall

variable {σ : Type u} (store : LedgerStore σ)

def run (ledger : σ) : LedgerCall → Outcome σ
  | .post entry => store.post ledger entry
  | .lockPayout input => store.lockPayout ledger input
  | .reverseByRef originalId newId newKey => store.reverseByRef ledger originalId newId newKey

/-- The ledger after a call, whether it answered or threw. -/
def step (ledger : σ) (call : LedgerCall) : Option σ := some (call.run store ledger).2

/-- Every account that the call names has a known prefix. -/
def accountsKnown : LedgerCall → Bool
  | .post entry => entry.postings.all fun posting => knownAccount posting.account
  | .lockPayout input =>
      knownAccount input.merchantAvailable && knownAccount input.merchantPendingWithdrawal
  | .reverseByRef _ _ _ => true

/-- A call leaves the ledger alone or posts one entry: the given one, the lock of a payout
or the reversal of stored postings.
-/
inductive Posts (ledger : σ) : LedgerCall → JournalEntry → Prop
  | post (entry : JournalEntry) : Posts ledger (.post entry) entry
  | lockPayout {input : PayoutLockedInput} {entry : JournalEntry}
    (built : payoutLocked input = .ok entry)
    : Posts ledger (.lockPayout input) entry
  | reverseByRef (originalId newId newKey : String)
    (known : store.entryPostings ledger originalId ≠ [])
    : Posts ledger (.reverseByRef originalId newId newKey)
        (LedgerStore.reversal newId newKey (store.entryPostings ledger originalId))

theorem run_cases (ledger : σ) (call : LedgerCall)
    : (∃ err, call.run store ledger = (.error err, ledger))
      ∨ ∃ entry,
          Posts store ledger call entry
          ∧ Balanced entry.postings
          ∧ call.run store ledger = store.append ledger entry := by
  have posting : ∀ entry, (∃ err, store.post ledger entry = (.error err, ledger))
      ∨ Balanced entry.postings ∧ store.post ledger entry = store.append ledger entry := by
    intro entry
    cases outcome : assertBalanced entry with
    | error err => exact .inl ⟨err, by simp [LedgerStore.post, outcome]⟩
    | ok value =>
        exact .inr ⟨assertBalanced_iff.mp outcome, by simp [LedgerStore.post, outcome]⟩
  cases call with
  | post entry =>
      exact (posting entry).imp_right fun passed => ⟨entry, .post entry, passed.1, passed.2⟩
  | lockPayout input =>
      cases read : store.availableBalance ledger input.merchantAvailable input.asset with
      | error err => exact .inl ⟨err, by simp [run, LedgerStore.lockPayout, read]⟩
      | ok available =>
          by_cases short : input.amount > available
          · exact .inl ⟨LedgerService.insufficientFunds input available, by
              simp only [run, LedgerStore.lockPayout, read, if_pos short]⟩
          · cases built : payoutLocked input with
            | error err =>
                exact .inl ⟨err, by
                  simp only [run, LedgerStore.lockPayout, read, if_neg short, built]⟩
            | ok entry =>
                have onward : LedgerCall.run store ledger (.lockPayout input)
                    = store.post ledger entry := by
                  simp only [run, LedgerStore.lockPayout, read, if_neg short, built]
                rw [onward]
                exact (posting entry).imp_right fun passed =>
                  ⟨entry, .lockPayout built, passed.1, passed.2⟩
  | reverseByRef originalId newId newKey =>
      cases empty : (store.entryPostings ledger originalId).isEmpty with
      | true =>
          exact .inl ⟨LedgerService.unknownEntry originalId, by
            simp only [run, LedgerStore.reverseByRef, empty, if_true]⟩
      | false =>
          have stored : store.entryPostings ledger originalId ≠ [] := by simpa using empty
          have onward : LedgerCall.run store ledger (.reverseByRef originalId newId newKey)
              = store.post ledger
                  (LedgerStore.reversal newId newKey
                    (store.entryPostings ledger originalId)) := by
            simp [run, LedgerStore.reverseByRef, empty]
          rw [onward]
          exact (posting _).imp_right fun passed =>
            ⟨_, .reverseByRef originalId newId newKey stored, passed.1, passed.2⟩

end LedgerCall

-----------------------------------------------------------------------------
-- The ledgers that calls reach

/-- Postings whose accounts are all known. -/
def KnownAccounts (postings : List Posting) : Prop :=
  ∀ posting ∈ postings, knownAccount posting.account = true

theorem KnownAccounts.append {left right : List Posting} (first : KnownAccounts left)
    (second : KnownAccounts right)
    : KnownAccounts (left ++ right) :=
  List.forall_mem_append.mpr ⟨first, second⟩

theorem KnownAccounts.flipped {postings : List Posting} (known : KnownAccounts postings)
    : KnownAccounts (postings.map Posting.flipped) := by
  intro posting member
  obtain ⟨original, inPostings, rfl⟩ := List.mem_map.mp member
  exact known original inPostings

theorem knownAccounts_locked {input : PayoutLockedInput} {entry : JournalEntry}
    (known : LedgerCall.accountsKnown (.lockPayout input) = true)
    (built : payoutLocked input = .ok entry)
    : KnownAccounts entry.postings := by
  rw [LedgerCall.accountsKnown, Bool.and_eq_true] at known
  rw [payoutLocked, movement_eq] at built
  split at built
  · cases built
  · obtain rfl := Except.ok.inj built
    intro posting member
    simp only [movementEntry, networkFeePostings, List.append_nil, List.mem_cons,
      List.not_mem_nil, or_false] at member
    rcases member with rfl | rfl
    · exact known.1
    · exact known.2

/-- Postings whose accounts are known and whose assets all net to zero. -/
structure Level (postings : List Posting) : Prop where
  known : KnownAccounts postings
  zero : ∀ asset, netWhere (fun posting => decide (posting.asset = asset)) postings = 0

/-- The postings, together and for each entry, are level. -/
structure Conserved (ledger : MemoryLedger) : Prop where
  level : Level ledger.postings
  entries : ∀ entryId, Level (ledger.entryPostings entryId)

theorem conserved_empty : Conserved .empty := by
  have none : Level [] := ⟨by simp [KnownAccounts], fun _ => rfl⟩
  exact ⟨none, fun _ => none⟩

/-- A balanced entry on known accounts keeps the ledger level. -/
theorem Conserved.append {ledger : MemoryLedger} {entry : JournalEntry}
    (conserved : Conserved ledger) (balanced : Balanced entry.postings)
    (known : KnownAccounts entry.postings)
    : Conserved (ledger.append entry).2 := by
  unfold MemoryLedger.append
  split
  · exact conserved
  · refine ⟨⟨conserved.level.known.append known, ?_⟩, ?_⟩
    · intro asset
      rw [netWhere_append, conserved.level.zero, balanced.zero]
      rfl
    · intro entryId
      by_cases own : entry.id = entryId
      · have stored : MemoryLedger.entryPostings
            { seenKeys := entry.idempotencyKey :: ledger.seenKeys
              postings := ledger.postings ++ entry.postings
              byEntry := (entry.id, entry.postings) :: ledger.byEntry } entryId
            = entry.postings := by
          simp [MemoryLedger.entryPostings, Table.lookup, own]
        rw [stored]
        exact ⟨known, balanced.zero⟩
      · have earlier : MemoryLedger.entryPostings
            { seenKeys := entry.idempotencyKey :: ledger.seenKeys
              postings := ledger.postings ++ entry.postings
              byEntry := (entry.id, entry.postings) :: ledger.byEntry } entryId
            = ledger.entryPostings entryId := by
          simp [MemoryLedger.entryPostings, Table.lookup, own]
        rw [earlier]
        exact conserved.entries entryId

/-- Every call on known accounts keeps the ledger level. -/
theorem Conserved.step {ledger next : MemoryLedger} {call : LedgerCall}
    (conserved : Conserved ledger) (known : call.accountsKnown = true)
    (taken : call.step memoryStore ledger = some next)
    : Conserved next := by
  obtain rfl := Option.some.inj taken
  rcases call.run_cases memoryStore ledger with ⟨err, failed⟩ | ⟨entry, posts, balanced, same⟩
  · rw [failed]
    exact conserved
  · rw [same]
    refine conserved.append balanced ?_
    cases posts with
    | post => simpa [LedgerCall.accountsKnown, KnownAccounts] using known
    | lockPayout built => exact knownAccounts_locked known built
    | reverseByRef originalId => exact (conserved.entries originalId).known.flipped

/-- On a level ledger the totals exist, and assets with expenses make up liabilities with
revenue.
-/
theorem Conserved.totals {ledger : MemoryLedger} (conserved : Conserved ledger)
    : ∃ totals,
        ledger.totalsByType = .ok totals
        ∧ ∀ asset,
            totals.sumForAsset .asset asset + totals.sumForAsset .expense asset
            = totals.sumForAsset .liability asset + totals.sumForAsset .revenue asset := by
  have known : ∀ row ∈ ledger.postings.map Posting.row, knownAccount row.1.1 = true := by
    intro row member
    obtain ⟨posting, inPostings, rfl⟩ := List.mem_map.mp member
    exact conserved.level.known posting inPostings
  obtain ⟨totals, done, sums⟩ := TotalsByType.ofRows_spec known
  refine ⟨totals, done, ?_⟩
  intro asset
  have whole := typeNet_sum conserved.level.known asset
  have zero := conserved.level.zero asset
  simp only [sums, sumWhere_rows, normalSide]
  simp only [typeNet] at whole
  omega

/-- A call that does not report an applied entry leaves the ledger as it was. -/
theorem LedgerCall.run_unapplied {ledger : MemoryLedger} {call : LedgerCall}
    (unapplied : (call.run memoryStore ledger).1 ≠ .ok true)
    : (call.run memoryStore ledger).2 = ledger := by
  rcases call.run_cases memoryStore ledger with ⟨err, failed⟩ | ⟨entry, -, -, same⟩
  · rw [failed]
  · rw [same] at unapplied ⊢
    simp only [memoryStore, MemoryLedger.append] at unapplied ⊢
    split
    · rfl
    · rename_i fresh
      exact absurd (by rw [if_neg fresh]) unapplied

/-- An entry is accepted exactly when it balances. -/
theorem post_accepted_iff (ledger : MemoryLedger) (entry : JournalEntry)
    : (∃ applied, (memoryStore.post ledger entry).1 = .ok applied) ↔ Balanced entry.postings := by
  rw [← assertBalanced_iff, LedgerStore.post]
  cases assertBalanced entry with
  | error err => simp
  | ok value =>
      simp only [iff_true]
      simp only [memoryStore, MemoryLedger.append]
      split
      · exact ⟨false, rfl⟩
      · exact ⟨true, rfl⟩

/-- After any sequence of calls on known accounts, whatever the entries: the signed balances
of an asset sum to zero over any accounts that cover the postings; the totals by type keep
assets and expenses level with liabilities and revenue, and an asset drifts exactly when its
expenses exceed its revenue; an entry is accepted exactly when it has postings, all of them
positive, and its debits meet its credits in each asset; and a call that throws or answers
that nothing was applied changes nothing.
-/
theorem memory_ledger_conserved {ledger : MemoryLedger}
    (reached : Reaches (fun ledger call => LedgerCall.step memoryStore ledger call)
      (fun _ call => call.accountsKnown = true) MemoryLedger.empty ledger)
    : (∀ (asset : String) (accounts : Finset String),
        (∀ posting ∈ ledger.postings, posting.account ∈ accounts)
        → ∑ account ∈ accounts, memoryStore.getBalance ledger account asset = 0)
      ∧ (∃ totals,
          memoryStore.totalsByType ledger = .ok totals
          ∧ (∀ asset,
              totals.sumForAsset .asset asset + totals.sumForAsset .expense asset
              = totals.sumForAsset .liability asset + totals.sumForAsset .revenue asset)
          ∧ ∀ assets, ∃ drift,
              memoryStore.checkSolvency ledger assets = .ok drift
              ∧ ∀ asset ∈ assets,
                  asset ∈ drift.map AssetSolvency.asset
                  ↔ totals.sumForAsset .revenue asset < totals.sumForAsset .expense asset)
      ∧ (∀ entry : JournalEntry,
          (∃ applied, (memoryStore.post ledger entry).1 = .ok applied)
          ↔ entry.postings ≠ []
            ∧ (∀ posting ∈ entry.postings, 0 < posting.amount)
            ∧ ∀ asset,
                sideTotal .debit asset entry.postings = sideTotal .credit asset entry.postings)
      ∧ ∀ call : LedgerCall,
          (call.run memoryStore ledger).1 ≠ .ok true → (call.run memoryStore ledger).2 = ledger := by
  have conserved : Conserved ledger :=
    reached.invariant conserved_empty fun conserved known taken => conserved.step known taken
  refine ⟨?_, ?_, ?_, fun call => LedgerCall.run_unapplied⟩
  · intro asset accounts covered
    have nets : ∀ account ∈ accounts, memoryStore.getBalance ledger account asset
        = SqlLedger.netOn account asset ledger.postings :=
      fun account _ => ledger.balance_eq_net account asset
    rw [Finset.sum_congr rfl nets, sum_accounts_eq covered, conserved.level.zero]
  · obtain ⟨totals, done, level⟩ := conserved.totals
    refine ⟨totals, done, level, ?_⟩
    intro assets
    refine ⟨solvencyDrift totals assets, ?_, ?_⟩
    · have read : memoryStore.totalsByType ledger = .ok totals := done
      simp [LedgerStore.checkSolvency, read, bind, Except.bind, pure, Except.pure]
    · intro asset asked
      have sides := level asset
      rw [mem_solvencyDrift asked]
      omega
  · intro entry
    rw [post_accepted_iff]
    constructor
    · intro balanced
      refine ⟨balanced.nonempty, balanced.positive, ?_⟩
      intro asset
      have zero := balanced.zero asset
      rw [netWhere_asset_eq] at zero
      omega
    · rintro ⟨nonempty, positive, sides⟩
      refine ⟨nonempty, positive, ?_⟩
      intro asset
      rw [netWhere_asset_eq, sides asset]
      omega

/-- A deposit with a network fee on top, a lock that exceeds it, a lock that fits and a
reversal: the fee is an expense without revenue and drifts.
-/
theorem memory_ledger_conserved_expense
    : ∃ ledger,
        ledger.seenKeys.length = 3
        ∧ (∀ accounts : Finset String,
            (∀ posting ∈ ledger.postings, posting.account ∈ accounts)
            → ∑ account ∈ accounts, memoryStore.getBalance ledger account "USDT" = 0)
        ∧ memoryStore.isSolvent ledger "TRX" = .ok false := by
  let deposit : JournalEntry :=
    { id := "d", idempotencyKey := "d", kind := "deposit"
      postings :=
        [ ⟨"pool_addr:c:m", "USDT", 100, .debit⟩, ⟨"merchant_available:t:m", "USDT", 100, .credit⟩,
          ⟨"network_fee_expense:c", "TRX", 3, .debit⟩, ⟨"gas_float:c", "TRX", 3, .credit⟩ ] }
  let lock (key : String) (amount : Int) : LedgerCall :=
    .lockPayout
      { id := key, idempotencyKey := key, asset := "USDT", amount
        merchantAvailable := "merchant_available:t:m"
        merchantPendingWithdrawal := "merchant_pending_withdrawal:t:m" }
  have executed : ∃ ledger,
      Reaches (fun ledger call => LedgerCall.step memoryStore ledger call)
        (fun _ call => call.accountsKnown = true) MemoryLedger.empty ledger
      ∧ ledger.seenKeys.length = 3 ∧ memoryStore.isSolvent ledger "TRX" = .ok false :=
    Reaches.exists_of_exec
      [.post deposit, lock "a" 101, lock "b" 60, .reverseByRef "b" "r" "r"] (by decide +kernel)
  obtain ⟨ledger, reached, applied, drifts⟩ := executed
  exact ⟨ledger, applied, (memory_ledger_conserved reached).1 "USDT", drifts⟩

end Cixtech.Ledger
