import Cixtech.Payout.ConcurrentPayouts
import Cixtech.Payout.LedgerMoves

/-! The money between the lock and the settlement of a payout. Lock and settlement are entries
of one ledger under keys derived from the key of the intent, posted by whichever calls get
there first. The pending balance of a merchant is what the intents have locked and not
settled.
-/

namespace Cixtech.Payout

open Cixtech.Common Cixtech.Foundation Cixtech.Foundation.Processes Cixtech.Ledger

def lockKey (key : String) : String := key ++ ":lock"

def settleKey (key : String) : String := "settle:" ++ key

/-- The entry that locks the amount of an intent. -/
def lockOf (d : Deployment) (key : String) (terms : Terms) : JournalEntry :=
  movementEntry "payout.locked" (lockKey key) (lockKey key) (d.casing.toUpperCase terms.asset)
    terms.amountBaseUnits (merchantAvailable terms.tenant terms.merchant)
    (merchantPendingWithdrawal terms.tenant terms.merchant) none

/-- The entry that settles it. -/
def settlementOf (d : Deployment) (key : String) (terms : Terms) : JournalEntry :=
  movementEntry "payout.settled" (settleKey key) (settleKey key)
    (d.casing.toUpperCase terms.asset) terms.amountBaseUnits
    (merchantPendingWithdrawal terms.tenant terms.merchant)
    (poolAddr terms.chain terms.merchant) none

namespace PayoutIntent

def isLocked (d : Deployment) (ledger : SqlLedger) (row : PayoutIntent) : Bool :=
  ledger.journal.contains (lockOf d row.idempotencyKey row.terms)

def isSettled (d : Deployment) (ledger : SqlLedger) (row : PayoutIntent) : Bool :=
  ledger.journal.contains (settlementOf d row.idempotencyKey row.terms)

/-- What an intent has locked and not settled of a merchant's money in an asset. -/
def pending (d : Deployment) (ledger : SqlLedger) (tenant merchant asset : String)
    (row : PayoutIntent)
    : Int :=
  if row.isLocked d ledger && !row.isSettled d ledger
      && decide (merchantPendingWithdrawal row.tenant row.merchant
          = merchantPendingWithdrawal tenant merchant)
      && decide (d.casing.toUpperCase row.asset = asset) then row.amountBaseUnits
  else 0

end PayoutIntent

/-- The sum over the intents. -/
def PayoutJournal.pendingTotal (d : Deployment) (ledger : SqlLedger)
    (tenant merchant asset : String) (rows : List PayoutIntent)
    : Int :=
  (rows.map (PayoutIntent.pending d ledger tenant merchant asset)).sum

/-- A key whose lock is not taken for a settlement, `settle:x` being no key of an intent. -/
def ordinaryKey (key : String) : Bool := beforeColon key ≠ "settle"

/-- The routes put the id of the tenant in front, so their keys are ordinary. -/
theorem ordinaryKey_payoutKey (tenant : Uuid) (key : String)
    : ordinaryKey (WithdrawalRequest.payoutKey tenant key) = true := by
  have front : beforeColon (WithdrawalRequest.payoutKey tenant key) = tenant.text := by
    have shape : (WithdrawalRequest.payoutKey tenant key).toList
        = tenant.text.toList ++ ':' :: key.toList := by
      simp [WithdrawalRequest.payoutKey]
    exact beforeColon_eq shape tenant.no_colon
  simp only [ordinaryKey, front, ne_eq, decide_not, Bool.not_eq_eq_eq_not, Bool.not_true,
    decide_eq_false_iff_not]
  intro same
  have letter := tenant.alphabet 's' (by simp [same])
  revert letter
  decide

-----------------------------------------------------------------------------
-- Keys that do not meet

theorem lockKey_inj {key other : String} : lockKey key = lockKey other ↔ key = other := by
  refine ⟨fun same => ?_, congrArg _⟩
  have letters := congrArg String.toList same
  simp only [lockKey, String.toList_append, List.append_cancel_right_eq] at letters
  exact String.toList_inj.mp letters

theorem settleKey_inj {key other : String} : settleKey key = settleKey other ↔ key = other := by
  refine ⟨fun same => ?_, congrArg _⟩
  have letters := congrArg String.toList same
  simp only [settleKey, String.toList_append, List.append_cancel_left_eq] at letters
  exact String.toList_inj.mp letters

/-- No settlement is posted under the lock key of an ordinary key. -/
theorem settleKey_ne_lockKey {key other : String} (ordinary : ordinaryKey key = true)
    : settleKey other ≠ lockKey key := by
  intro same
  have shape : (settleKey other).toList = "settle".toList ++ ':' :: other.toList := by
    simp [settleKey]
  have front : beforeColon (settleKey other) = "settle" := beforeColon_eq shape (by decide)
  have back : beforeColon (lockKey key) = beforeColon key := by
    have split : lockKey key = key ++ ":" ++ "lock" := by
      rw [lockKey, String.append_assoc]
      rfl
    rw [split, beforeColon_append_colon]
  have fronts := (front.symm.trans (congrArg beforeColon same)).trans back
  simp [ordinaryKey, ← fronts] at ordinary

/-- A fee leg is posted under a key that ends with a digit. -/
theorem feeLegKey_ne_lockKey (p : PayoutParams) (index : Nat) (key : String)
    : PayoutService.feeLegKey p index ≠ lockKey key := by
  intro same
  obtain ⟨digit, last, isDigit⟩ := getLast?_toString index
  have ends := congrArg (fun text => text.toList.getLast?) same
  simp only [PayoutService.feeLegKey, lockKey, String.toList_append, List.getLast?_append, last,
    Option.some_or] at ends
  have letter : digit = 'k' := Option.some.inj (ends.trans (by rfl))
  subst letter
  revert isDigit
  decide

theorem endsWith_lockKey (key : String) : endsWith (lockKey key) ":lock" = true := by
  simp [endsWith, lockKey, List.isSuffixOf_iff_suffix]

-----------------------------------------------------------------------------
-- The books

/-- What the journal and the ledger say of the intents, whose terms are those of their keys:
an entry under the lock key of an intent is its lock, only what was locked was broadcast or
settled, and the pending balances are what is locked and not settled.
-/
structure Books (d : Deployment) (terms : String → Terms) (rows : List PayoutIntent)
    (ledger : SqlLedger)
    : Prop where
  materialised : ledger.Materialised
  once : (ledger.journal.map JournalEntry.idempotencyKey).Nodup
  distinct : (rows.map PayoutIntent.idempotencyKey).Nodup
  agreed : ∀ row ∈ rows, row.terms = terms row.idempotencyKey
  ordinary : ∀ row ∈ rows, ordinaryKey row.idempotencyKey = true
  locks : ∀ entry ∈ ledger.journal, ∀ key, ordinaryKey key = true
    → entry.idempotencyKey = lockKey key
    → entry = lockOf d key (terms key)
      ∧ 0 < (terms key).amountBaseUnits
      ∧ ∃ row ∈ rows, row.idempotencyKey = key
  lockKeys : ∀ entry ∈ ledger.journal, entry.kind = "payout.locked"
    → ∃ key, ordinaryKey key = true ∧ entry.idempotencyKey = lockKey key
  settlements : ∀ entry ∈ ledger.journal, entry.kind = "payout.settled"
    → ∃ row ∈ rows,
        entry = settlementOf d row.idempotencyKey (terms row.idempotencyKey)
        ∧ lockOf d row.idempotencyKey (terms row.idempotencyKey) ∈ ledger.journal
  sent : ∀ row ∈ rows, row.txId.isSome
    → lockOf d row.idempotencyKey (terms row.idempotencyKey) ∈ ledger.journal
  balance : ∀ tenant merchant asset,
    -ledger.balance (merchantPendingWithdrawal tenant merchant) asset
      = PayoutJournal.pendingTotal d ledger tenant merchant asset rows

theorem Books.empty (d : Deployment) (terms : String → Terms)
    : Books d terms [] SqlLedger.empty where
  materialised := SqlLedger.materialised_empty
  once := List.nodup_nil
  distinct := List.nodup_nil
  agreed := by simp
  ordinary := by simp
  locks := by simp [SqlLedger.empty]
  lockKeys := by simp [SqlLedger.empty]
  settlements := by simp [SqlLedger.empty]
  sent := by simp
  balance _ _ _ := rfl

section Append

variable {d : Deployment} {terms : String → Terms} {rows : List PayoutIntent}
  {ledger after : SqlLedger} {entry : JournalEntry} {applied : Bool}

/-- An entry of another intent, or of no intent, leaves what an intent has pending. -/
theorem pending_append {row : PayoutIntent} (stored : after.journal = ledger.journal ++ [entry])
    (noLock : lockOf d row.idempotencyKey row.terms ≠ entry)
    (noSettlement : settlementOf d row.idempotencyKey row.terms ≠ entry)
    (tenant merchant asset : String)
    : row.pending d after tenant merchant asset = row.pending d ledger tenant merchant asset := by
  simp [PayoutIntent.pending, PayoutIntent.isLocked, PayoutIntent.isSettled, stored, noLock,
    noSettlement]

/-- A fresh key keeps the keys of the ledger distinct. -/
theorem once_append (once : (ledger.journal.map JournalEntry.idempotencyKey).Nodup)
    (stored : after.journal = ledger.journal ++ [entry])
    (fresh : ∀ old ∈ ledger.journal, old.idempotencyKey ≠ entry.idempotencyKey)
    : (after.journal.map JournalEntry.idempotencyKey).Nodup := by
  rw [stored, List.map_append, List.map_singleton]
  refine once.append (List.nodup_singleton _) ?_
  intro key member same
  obtain ⟨old, inJournal, rfl⟩ := List.mem_map.mp member
  exact fresh old inJournal (List.mem_singleton.mp same)

theorem lockOf_ne_settlementOf (key other : String) (left right : Terms)
    : lockOf d key left ≠ settlementOf d other right := by
  intro same
  have kinds := congrArg JournalEntry.kind same
  simp [lockOf, settlementOf, movementEntry] at kinds

/-- An entry that is stored keeps the books in order where it keeps them itself. -/
theorem Books.append (books : Books d terms rows ledger)
    (appended : ledger.append entry = .ok (after, true))
    (apart : SqlLedger.TellsApart entry.postings)
    (locks : ∀ key, ordinaryKey key = true → entry.idempotencyKey = lockKey key
      → entry = lockOf d key (terms key)
        ∧ 0 < (terms key).amountBaseUnits
        ∧ ∃ row ∈ rows, row.idempotencyKey = key)
    (lockKeys : entry.kind = "payout.locked"
      → ∃ key, ordinaryKey key = true ∧ entry.idempotencyKey = lockKey key)
    (settlements : entry.kind = "payout.settled"
      → ∃ row ∈ rows,
          entry = settlementOf d row.idempotencyKey (terms row.idempotencyKey)
          ∧ lockOf d row.idempotencyKey (terms row.idempotencyKey) ∈ ledger.journal)
    (balance : ∀ tenant merchant asset,
      -after.balance (merchantPendingWithdrawal tenant merchant) asset
        = PayoutJournal.pendingTotal d after tenant merchant asset rows)
    : Books d terms rows after := by
  rcases SqlLedger.append_ok_cases appended with ⟨ignored, -⟩ | ⟨-, stored, fresh⟩
  · cases ignored
  have among : ∀ other ∈ after.journal, other ∈ ledger.journal ∨ other = entry := by
    intro other member
    rw [stored] at member
    exact (List.mem_append.mp member).imp id List.mem_singleton.mp
  have kept : ∀ other ∈ ledger.journal, other ∈ after.journal := fun other member =>
    stored ▸ List.mem_append_left _ member
  refine
    { materialised := books.materialised.append apart appended
      once := once_append books.once stored fresh
      distinct := books.distinct, agreed := books.agreed, ordinary := books.ordinary
      locks := ?_, lockKeys := ?_, settlements := ?_, sent := ?_, balance }
  · intro other member key ordinary under
    rcases among other member with before | rfl
    · exact books.locks other before key ordinary under
    · exact locks key ordinary under
  · intro other member kind
    rcases among other member with before | rfl
    · exact books.lockKeys other before kind
    · exact lockKeys kind
  · intro other member kind
    rcases among other member with before | rfl
    · obtain ⟨row, inRows, same, locked⟩ := books.settlements other before kind
      exact ⟨row, inRows, same, kept _ locked⟩
    · obtain ⟨row, inRows, same, locked⟩ := settlements kind
      exact ⟨row, inRows, same, kept _ locked⟩
  · exact fun row inRows sent => kept _ (books.sent row inRows sent)

/-- What is no lock, no settlement and not on a pending account leaves the books in order. -/
theorem Books.post (books : Books d terms rows ledger)
    (appended : ledger.append entry = .ok (after, applied))
    (apart : SqlLedger.TellsApart entry.postings)
    (noLock : entry.kind ≠ "payout.locked") (noSettlement : entry.kind ≠ "payout.settled")
    (elsewhere : ∀ key, entry.idempotencyKey ≠ lockKey key)
    (untouched : ∀ tenant merchant asset,
      SqlLedger.netOn (merchantPendingWithdrawal tenant merchant) asset entry.postings = 0)
    : Books d terms rows after := by
  rcases SqlLedger.append_ok_cases appended with ⟨-, rfl, -⟩ | ⟨rfl, stored, fresh⟩
  · exact books
  refine books.append appended apart (fun key _ under => absurd under (elsewhere key))
    (fun kind => absurd kind noLock) (fun kind => absurd kind noSettlement) ?_
  intro tenant merchant asset
  have same : rows.map (PayoutIntent.pending d after tenant merchant asset)
      = rows.map (PayoutIntent.pending d ledger tenant merchant asset) := by
    refine List.map_congr_left fun row _ => pending_append stored ?_ ?_ tenant merchant asset
    · exact fun same => noLock (same ▸ rfl)
    · exact fun same => noSettlement (same ▸ rfl)
  have moved := books.materialised.balance_append apart appended
    (merchantPendingWithdrawal tenant merchant) asset
  have before := books.balance tenant merchant asset
  rw [PayoutJournal.pendingTotal, same, moved, untouched]
  rw [PayoutJournal.pendingTotal] at before
  simp only [if_true, Int.add_zero]
  exact before

/-- What an intent moves on a pending account: its amount, on the account of its merchant. -/
def PayoutIntent.weight (d : Deployment) (tenant merchant asset : String) (row : PayoutIntent)
    : Int :=
  if merchantPendingWithdrawal row.tenant row.merchant = merchantPendingWithdrawal tenant merchant
    ∧ d.casing.toUpperCase row.asset = asset then row.amountBaseUnits
  else 0

theorem PayoutIntent.pending_eq (row : PayoutIntent) (tenant merchant asset : String)
    : row.pending d ledger tenant merchant asset
      = if row.isLocked d ledger && !row.isSettled d ledger then
          row.weight d tenant merchant asset
        else 0 := by
  unfold PayoutIntent.pending PayoutIntent.weight
  cases row.isLocked d ledger <;> cases row.isSettled d ledger <;> simp

theorem netOn_lockOf (row : PayoutIntent) (tenant merchant asset : String)
    : SqlLedger.netOn (merchantPendingWithdrawal tenant merchant) asset
        (lockOf d row.idempotencyKey row.terms).postings
      = -row.weight d tenant merchant asset := by
  have elsewhere := (merchantPendingWithdrawal_ne tenant merchant).1 row.tenant row.merchant
  rw [lockOf, SqlLedger.netOn_movementEntry, PayoutIntent.weight]
  by_cases sameAsset : d.casing.toUpperCase row.asset = asset <;>
    by_cases sameAccount : merchantPendingWithdrawal row.tenant row.merchant
      = merchantPendingWithdrawal tenant merchant <;>
    simp [PayoutIntent.terms, sameAsset, sameAccount, elsewhere]

theorem netOn_settlementOf (row : PayoutIntent) (tenant merchant asset : String)
    : SqlLedger.netOn (merchantPendingWithdrawal tenant merchant) asset
        (settlementOf d row.idempotencyKey row.terms).postings
      = row.weight d tenant merchant asset := by
  have elsewhere := (merchantPendingWithdrawal_ne tenant merchant).2.1 row.chain row.merchant
  rw [settlementOf, SqlLedger.netOn_movementEntry, PayoutIntent.weight]
  by_cases sameAsset : d.casing.toUpperCase row.asset = asset <;>
    by_cases sameAccount : merchantPendingWithdrawal row.tenant row.merchant
      = merchantPendingWithdrawal tenant merchant <;>
    simp [PayoutIntent.terms, sameAsset, sameAccount, elsewhere]

/-- A stored entry of one intent changes the pending balances by what it posts on them, where
it changes what this intent has pending by as much.
-/
theorem Books.balance_append (books : Books d terms rows ledger) {row : PayoutIntent}
    (inRows : row ∈ rows) (appended : ledger.append entry = .ok (after, true))
    (apart : SqlLedger.TellsApart entry.postings)
    (own : ∀ other : PayoutIntent, other.idempotencyKey ≠ row.idempotencyKey
      → lockOf d other.idempotencyKey other.terms ≠ entry
        ∧ settlementOf d other.idempotencyKey other.terms ≠ entry)
    {tenant merchant asset : String}
    (moved : row.pending d after tenant merchant asset
      = row.pending d ledger tenant merchant asset
        - SqlLedger.netOn (merchantPendingWithdrawal tenant merchant) asset entry.postings)
    : -after.balance (merchantPendingWithdrawal tenant merchant) asset
      = PayoutJournal.pendingTotal d after tenant merchant asset rows := by
  have stored := (SqlLedger.append_applied appended).1
  have changed := Table.sum_change
    (f := PayoutIntent.pending d ledger tenant merchant asset)
    (g := PayoutIntent.pending d after tenant merchant asset) books.distinct inRows
    fun other _ different =>
      pending_append stored (own other different).1 (own other different).2 tenant merchant asset
  have posted := books.materialised.balance_append apart appended
    (merchantPendingWithdrawal tenant merchant) asset
  have level := books.balance tenant merchant asset
  rw [PayoutJournal.pendingTotal] at level ⊢
  rw [changed, posted, moved, ← level]
  simp only [if_true]
  omega

/-- The lock of an intent adds its amount to what is pending, or is there already. -/
theorem Books.lock (books : Books d terms rows ledger) {row : PayoutIntent}
    (inRows : row ∈ rows) (positive : 0 < (terms row.idempotencyKey).amountBaseUnits)
    (appended : ledger.append (lockOf d row.idempotencyKey (terms row.idempotencyKey))
      = .ok (after, applied))
    : Books d terms rows after
      ∧ lockOf d row.idempotencyKey (terms row.idempotencyKey) ∈ after.journal := by
  have ordinary := books.ordinary row inRows
  have apart : SqlLedger.TellsApart
      (lockOf d row.idempotencyKey (terms row.idempotencyKey)).postings :=
    SqlLedger.tellsApart_movementEntry _ _ _ _ _ _ _
  rcases SqlLedger.append_ok_cases appended with ⟨-, rfl, old, member, same⟩
    | ⟨rfl, stored, fresh⟩
  · obtain ⟨rfl, -, -⟩ := books.locks old member row.idempotencyKey ordinary same
    exact ⟨books, member⟩
  refine ⟨?_, by rw [stored]; simp⟩
  refine books.append appended apart ?_ (fun _ => ⟨_, ordinary, rfl⟩) ?_ ?_
  · intro key _ under
    obtain rfl := lockKey_inj.mp under
    exact ⟨rfl, positive, row, inRows, rfl⟩
  · intro kind
    simp [lockOf, movementEntry] at kind
  · intro tenant merchant asset
    have unlocked : lockOf d row.idempotencyKey (terms row.idempotencyKey) ∉ ledger.journal :=
      fun member => fresh _ member rfl
    have unsettled : settlementOf d row.idempotencyKey (terms row.idempotencyKey)
        ∉ ledger.journal := by
      intro member
      obtain ⟨settled, there, same, locked⟩ := books.settlements _ member rfl
      have key := settleKey_inj.mp (congrArg JournalEntry.idempotencyKey same)
      exact unlocked (key ▸ locked)
    have other : settlementOf d row.idempotencyKey (terms row.idempotencyKey)
        ≠ lockOf d row.idempotencyKey (terms row.idempotencyKey) :=
      (lockOf_ne_settlementOf _ _ _ _).symm
    refine books.balance_append inRows appended apart (fun other different => ⟨?_, ?_⟩) ?_
    · exact fun same => different (lockKey_inj.mp (congrArg JournalEntry.idempotencyKey same))
    · exact fun same => lockOf_ne_settlementOf _ _ _ _ same.symm
    · rw [← books.agreed row inRows] at *
      rw [netOn_lockOf, PayoutIntent.pending_eq, PayoutIntent.pending_eq]
      simp [PayoutIntent.isLocked, PayoutIntent.isSettled, stored, unlocked, unsettled, other]

/-- The settlement of a locked intent takes its amount from what is pending, or was posted. -/
theorem Books.settle (books : Books d terms rows ledger) {row : PayoutIntent}
    (inRows : row ∈ rows)
    (locked : lockOf d row.idempotencyKey (terms row.idempotencyKey) ∈ ledger.journal)
    (appended : ledger.append (settlementOf d row.idempotencyKey (terms row.idempotencyKey))
      = .ok (after, applied))
    : Books d terms rows after := by
  have apart : SqlLedger.TellsApart
      (settlementOf d row.idempotencyKey (terms row.idempotencyKey)).postings :=
    SqlLedger.tellsApart_movementEntry _ _ _ _ _ _ _
  rcases SqlLedger.append_ok_cases appended with ⟨-, rfl, -⟩ | ⟨rfl, stored, fresh⟩
  · exact books
  refine books.append appended apart
    (fun key ordinary under => absurd under (settleKey_ne_lockKey ordinary)) ?_
    (fun _ => ⟨row, inRows, rfl, locked⟩) ?_
  · intro kind
    simp [settlementOf, movementEntry] at kind
  · intro tenant merchant asset
    have unsettled : settlementOf d row.idempotencyKey (terms row.idempotencyKey)
        ∉ ledger.journal :=
      fun member => fresh _ member rfl
    refine books.balance_append inRows appended apart (fun other different => ⟨?_, ?_⟩) ?_
    · exact fun same => lockOf_ne_settlementOf _ _ _ _ same
    · exact fun same => different (settleKey_inj.mp (congrArg JournalEntry.idempotencyKey same))
    · rw [← books.agreed row inRows] at *
      rw [netOn_settlementOf, PayoutIntent.pending_eq, PayoutIntent.pending_eq]
      simp [PayoutIntent.isLocked, PayoutIntent.isSettled, stored, locked, unsettled]

end Append

-----------------------------------------------------------------------------
-- The statements of the journal

section Journal

variable {d : Deployment} {terms : String → Terms} {rows later : List PayoutIntent}
  {ledger : SqlLedger}

/-- What is pending depends on the key and the terms of an intent. -/
theorem PayoutIntent.Evolves.pending {row next : PayoutIntent} (evolves : row.Evolves next)
    (tenant merchant asset : String)
    : next.pending d ledger tenant merchant asset
      = row.pending d ledger tenant merchant asset := by
  have same := evolves.terms
  simp only [PayoutIntent.terms, Terms.mk.injEq] at same
  obtain ⟨sameTenant, sameMerchant, -, sameAsset, sameAmount, -⟩ := same
  simp [PayoutIntent.pending, PayoutIntent.isLocked, PayoutIntent.isSettled, evolves.key,
    evolves.terms, sameTenant, sameMerchant, sameAsset, sameAmount]

/-- A row that was there is there after a statement, under its key. -/
theorem PayoutJournal.Step.mem {id : String} {createdAt : Int} {intent : Option NewIntent}
    (step : PayoutJournal.Step rows id createdAt intent later)
    (distinct : (rows.map PayoutIntent.idempotencyKey).Nodup) {row : PayoutIntent}
    (inRows : row ∈ rows)
    : ∃ next ∈ later, next.idempotencyKey = row.idempotencyKey := by
  obtain ⟨next, found, evolves⟩ := step.load (Table.lookup_of_mem distinct inRows)
  exact ⟨next, Table.lookup_mem found, evolves.key⟩

/-- No statement changes what is pending: a new intent is not locked. -/
theorem Books.pendingTotal (books : Books d terms rows ledger) {id : String} {createdAt : Int}
    {intent : Option NewIntent} (step : PayoutJournal.Step rows id createdAt intent later)
    (agreed : ∀ row ∈ later, row.terms = terms row.idempotencyKey)
    (ordinary : ∀ row ∈ later, ordinaryKey row.idempotencyKey = true)
    (tenant merchant asset : String)
    : PayoutJournal.pendingTotal d ledger tenant merchant asset later
      = PayoutJournal.pendingTotal d ledger tenant merchant asset rows := by
  cases step with
  | same => rfl
  | @begun fresh inserts =>
      rw [PayoutJournal.begin_, Table.insertIgnore_eq] at agreed ordinary ⊢
      split
      case isTrue => rfl
      case isFalse unused =>
        rw [if_neg unused] at agreed ordinary
        have member : PayoutJournal.newRow id createdAt fresh
            ∈ rows ++ [PayoutJournal.newRow id createdAt fresh] := by
          simp
        have unlocked : (PayoutJournal.newRow id createdAt fresh).isLocked d ledger = false := by
          rw [PayoutIntent.isLocked, agreed _ member]
          by_contra locked
          obtain ⟨-, -, row, inRows, same⟩ := books.locks _
            (List.contains_iff_mem.mp (Bool.not_eq_false _ ▸ locked)) _ (ordinary _ member) rfl
          exact unused (List.mem_map.mpr ⟨row, inRows, same⟩)
        simp [PayoutJournal.pendingTotal, PayoutIntent.pending, unlocked]
  | @updated change key evolves =>
      rw [PayoutJournal.pendingTotal, PayoutJournal.pendingTotal, Table.update, List.map_map]
      congr 1
      refine List.map_congr_left fun row _ => ?_
      by_cases hit : row.idempotencyKey = key
      · simpa [hit] using (evolves row).pending tenant merchant asset
      · simp [hit]

/-- A statement that writes transaction ids for locked intents only keeps the books. -/
theorem Books.statement (books : Books d terms rows ledger) {id : String} {createdAt : Int}
    {intent : Option NewIntent} (step : PayoutJournal.Step rows id createdAt intent later)
    (agreed : ∀ row ∈ later, row.terms = terms row.idempotencyKey)
    (ordinary : ∀ row ∈ later, ordinaryKey row.idempotencyKey = true)
    (sent : ∀ row ∈ later, row.txId.isSome
      → lockOf d row.idempotencyKey (terms row.idempotencyKey) ∈ ledger.journal)
    : Books d terms later ledger where
  materialised := books.materialised
  once := books.once
  distinct := step.distinct books.distinct
  agreed := agreed
  ordinary := ordinary
  locks := by
    intro entry member key ordinary under
    obtain ⟨same, positive, row, inRows, own⟩ := books.locks entry member key ordinary under
    obtain ⟨next, inLater, kept⟩ := step.mem books.distinct inRows
    exact ⟨same, positive, next, inLater, kept.trans own⟩
  lockKeys := books.lockKeys
  settlements := by
    intro entry member kind
    obtain ⟨row, inRows, same, locked⟩ := books.settlements entry member kind
    obtain ⟨next, inLater, kept⟩ := step.mem books.distinct inRows
    exact ⟨next, inLater, kept ▸ same, kept ▸ locked⟩
  sent := sent
  balance := by
    intro tenant merchant asset
    rw [books.pendingTotal step agreed ordinary]
    exact books.balance tenant merchant asset

end Journal

-----------------------------------------------------------------------------
-- One step of a call

section Funding

variable {d : Deployment} {terms : String → Terms} {store after : Store}

/-- An append loses no entry. -/
theorem mem_of_append {ledger next : SqlLedger} {entry : JournalEntry} {applied : Bool}
    (appended : ledger.append entry = .ok (next, applied)) {old : JournalEntry}
    (member : old ∈ ledger.journal)
    : old ∈ next.journal := by
  rcases SqlLedger.append_ok_cases appended with ⟨-, rfl, -⟩ | ⟨-, stored, -⟩
  · exact member
  · rw [stored]
    exact List.mem_append_left _ member

/-- Whatever a step posts, the books stay in order, no entry is lost, and a call with a locked
payout has its lock in the ledger.
-/
theorem FundingStep.books {checking : Option PayoutParams}
    {before next : Option (PayoutParams × Phase)}
    (step : FundingStep d store after checking before next)
    (books : Books d terms store.journal store.ledger)
    (begun : ∀ p phase, before = some (p, phase)
      → p.terms = terms p.idempotencyKey
        ∧ ∃ row ∈ store.journal, row.idempotencyKey = p.idempotencyKey)
    (held : ∀ p, before = some (p, .locked)
      → lockOf d p.idempotencyKey (terms p.idempotencyKey) ∈ store.ledger.journal)
    : Books d terms store.journal after.ledger
      ∧ (∀ entry ∈ store.ledger.journal, entry ∈ after.ledger.journal)
      ∧ ∀ p, next = some (p, .locked)
        → lockOf d p.idempotencyKey (terms p.idempotencyKey) ∈ after.ledger.journal := by
  cases step with
  | quiet same kept =>
      rw [same]
      refine ⟨books, fun _ member => member, fun p locked => ?_⟩
      rcases kept with none | ⟨kept, -⟩
      · simp [none] at locked
      · exact held p (kept ▸ locked)
  | @checked q was same covered positive kept =>
      rw [same]
      refine ⟨books, fun _ member => member, fun p locked => ?_⟩
      rcases kept with none | checked
      · simp [none] at locked
      · simp [checked] at locked
  | @locked p entry applied was built appended kept =>
      obtain ⟨positive, rfl⟩ := movement_eq_ok built
      obtain ⟨own, row, inRows, same⟩ := begun p .checked was
      have positive : 0 < p.terms.amountBaseUnits := positive
      have appended
          : store.ledger.append (lockOf d p.idempotencyKey p.terms)
            = .ok (after.ledger, applied) :=
        appended
      rw [own, ← same] at positive appended
      obtain ⟨books, there⟩ := books.lock inRows positive appended
      refine ⟨books, fun _ => mem_of_append appended, fun q locked => ?_⟩
      rcases kept with none | kept
      · simp [none] at locked
      · cases kept.symm.trans locked
        exact same ▸ there
  | @settled p entry applied was built appended kept =>
      obtain ⟨-, rfl⟩ := movement_eq_ok built
      obtain ⟨own, row, inRows, same⟩ := begun p .locked was
      have locked := held p was
      have appended
          : store.ledger.append (settlementOf d p.idempotencyKey p.terms)
            = .ok (after.ledger, applied) :=
        appended
      rw [own, ← same] at appended
      rw [← same] at locked
      refine ⟨books.settle inRows locked appended, fun _ => mem_of_append appended, ?_⟩
      simp [kept]
  | @swept p sweep leg entry applied built appended kept =>
      obtain ⟨-, rfl⟩ := movement_eq_ok built
      refine ⟨books.post appended (SqlLedger.tellsApart_movementEntry _ _ _ _ _ _ _) ?_ ?_ ?_ ?_,
        fun _ => mem_of_append appended, by simp [kept]⟩
      · simp [movementEntry]
      · simp [movementEntry]
      · exact fun key => feeLegKey_ne_lockKey p sweep.index key
      · intro tenant merchant asset
        obtain ⟨-, pool, treasuries⟩ := merchantPendingWithdrawal_ne tenant merchant
        have credited := pool p.chain p.merchant
        have debited := treasuries p.chain
        refine (SqlLedger.netOn_movementEntry ..).trans ?_
        simp [PayoutService.feeSweptInput, credited, debited]
  | @resumed q intent same loaded sent kept =>
      rw [same]
      refine ⟨books, fun _ member => member, fun p locked => ?_⟩
      rcases kept with none | kept
      · simp [none] at locked
      · cases kept.symm.trans locked
        have own : intent.idempotencyKey = q.idempotencyKey := Table.lookup_key loaded
        exact own ▸ books.sent intent (Table.lookup_mem loaded) sent

end Funding

-----------------------------------------------------------------------------
-- A whole run

/-- What other flows post: an entry that is neither lock nor settlement, is not named like a lock
and leaves the pending accounts alone.
-/
def JournalEntry.isForeign (entry : JournalEntry) : Bool :=
  entry.storable
  && entry.kind ≠ "payout.locked" && entry.kind ≠ "payout.settled"
  && !endsWith entry.idempotencyKey ":lock"
  && entry.postings.all fun posting =>
      beforeColon posting.account ≠ "merchant_pending_withdrawal"

/-- Calls that share a key carry the terms of the key. -/
def Event.sharesTerms (d : Deployment) (terms : String → Terms) : Event → Bool
  | .call (.payout p) => p.terms = terms p.idempotencyKey
  | .call (.withdraw request) =>
      (request.params d).terms = terms (request.params d).idempotencyKey
  | .post entry => JournalEntry.isForeign entry
  | _ => true

/-- A direct call has an ordinary key, as the routes have. -/
def Event.isOrdinary : Event → Bool
  | .call (.payout p) => ordinaryKey p.idempotencyKey
  | _ => true

def Event.keepsTerms (d : Deployment) (terms : String → Terms) (event : Event) : Bool :=
  event.sharesTerms d terms && event.isOrdinary

theorem Event.repeats_of_keepsTerms {d : Deployment} {terms : String → Terms} {event : Event}
    (keeps : event.keepsTerms d terms = true) (key : String)
    : event.repeats d key (terms key) = true := by
  cases event with
  | call request =>
      cases request with
      | payout p =>
          obtain ⟨same, -⟩ : p.terms = terms p.idempotencyKey ∧ _ := by
            simpa [Event.keepsTerms, Event.sharesTerms] using keeps
          by_cases own : p.idempotencyKey = key
          · simp [Event.repeats, own, same]
          · simp [Event.repeats, own]
      | withdraw request =>
          obtain ⟨same, -⟩
              : (request.params d).terms = terms (request.params d).idempotencyKey ∧ _ := by
            simpa [Event.keepsTerms, Event.sharesTerms] using keeps
          by_cases own : (request.params d).idempotencyKey = key
          · simp [Event.repeats, own, same]
          · simp [Event.repeats, own]
      | approve request => rfl
  | _ => rfl

/-- A call that arrives is about an ordinary key. -/
theorem Task.ordinary_ofRequest {d : Deployment} {terms : String → Terms} {request : Request}
    {now : Int} (keeps : (Event.call request).keepsTerms d terms = true) {key : String}
    {known : Terms} (about : (Task.ofRequest now request).about d = some (key, known))
    : ordinaryKey key = true := by
  cases request with
  | payout p =>
      obtain ⟨rfl, -⟩ : p.idempotencyKey = key ∧ p.terms = known := by
        simpa [Task.ofRequest, Task.startPayout, Task.about, Stage.params] using about
      exact (Bool.and_eq_true_iff.mp keeps).2
  | withdraw request =>
      obtain ⟨rfl, -⟩ : (request.params d).idempotencyKey = key
          ∧ (request.params d).terms = known := by
        simpa [Task.ofRequest, Task.about] using about
      exact ordinaryKey_payoutKey request.tenant request.key
  | approve request => simp [Task.ofRequest, Task.about] at about

/-- A call with money is about its payout and has begun it. -/
theorem Task.about_of_funding {d : Deployment} {task : Task} {p : PayoutParams} {phase : Phase}
    (funding : task.funding = some (p, phase))
    : task.about d = some (p.idempotencyKey, p.terms) ∧ task.begun = some p.idempotencyKey := by
  cases task with
  | paying caller stage =>
      cases stage with
      | leased lease step =>
          have mapped : step.phase.map (fun phase => (lease.p, phase)) = some (p, phase) := funding
          obtain ⟨own, -, same⟩ := Option.map_eq_some_iff.mp mapped
          cases same
          exact ⟨rfl, rfl⟩
      | resumeSettle q txId fromAddress =>
          cases funding
          exact ⟨rfl, rfl⟩
      | _ => cases funding
  | _ => cases funding

/-- The journal knows one set of terms for each key, the keys are ordinary, the books are in
order, and a call with a locked payout has its lock in the ledger.
-/
structure Accounted (d : Deployment) (terms : String → Terms) (system : System) : Prop where
  journaled : ∀ key, Journaled d key (terms key) system
  ordinary : ∀ task ∈ system.tasks, ∀ key known, task.about d = some (key, known)
    → ordinaryKey key = true
  books : Books d terms system.store.journal system.store.ledger
  funded : ∀ task ∈ system.tasks, ∀ p, task.funding = some (p, .locked)
    → lockOf d p.idempotencyKey (terms p.idempotencyKey) ∈ system.store.ledger.journal

section Step

variable {d : Deployment} {terms : String → Terms} {system next : System} {event : Event}

/-- A call with money has the terms of its key, and its row. -/
theorem Accounted.begun (accounted : Accounted d terms system) {task : Task}
    (member : task ∈ system.tasks) {p : PayoutParams} {phase : Phase}
    (funding : task.funding = some (p, phase))
    : p.terms = terms p.idempotencyKey
      ∧ ∃ row ∈ system.store.journal, row.idempotencyKey = p.idempotencyKey := by
  obtain ⟨about, begun⟩ := Task.about_of_funding (d := d) funding
  have journaled := accounted.journaled p.idempotencyKey
  obtain ⟨row, found⟩ := Option.isSome_iff_exists.mp (journaled.begun task member begun)
  exact ⟨journaled.calls task member _ about, row, Table.lookup_mem found, Table.lookup_key found⟩

/-- One move keeps the account, whatever it performs or fails to perform. -/
theorem Accounted.move (accounted : Accounted d terms system) {index : Nat} {old new : Task}
    (journaled : ∀ key, Journaled d key (terms key) next)
    (acting : Acts system.tasks next.tasks index old new)
    (moves : old.Moves d system.store index event next.store new)
    : Accounted d terms next := by
  have move := moves.journal
  obtain ⟨id, statement⟩ := move.step
  obtain ⟨books, kept, locked⟩ := moves.funding.books accounted.books
    (fun p phase => accounted.begun acting.mem_old)
    (accounted.funded old acting.mem_old)
  have agreed : ∀ row ∈ next.store.journal, row.terms = terms row.idempotencyKey :=
    fun row member => (journaled row.idempotencyKey).rows row member rfl
  have ordinary : ∀ row ∈ next.store.journal, ordinaryKey row.idempotencyKey = true := by
    intro row member
    rcases statement.origin member with ⟨earlier, before, evolves⟩ | ⟨fresh, inserts, rfl⟩
    · exact evolves.key ▸ accounted.books.ordinary earlier before
    · obtain ⟨p, beginning, rfl⟩ := Option.map_eq_some_iff.mp inserts
      exact accounted.ordinary old acting.mem_old _ _ (Task.about_of_beginning (d := d) beginning)
  refine ⟨journaled, ?_, books.statement statement agreed ordinary ?_, ?_⟩
  · intro task member key known about
    rcases acting.mem_cases member with rfl | before
    · rcases move.about with idle | same | ⟨row, inJournal, same⟩
      · simp [idle] at about
      · exact accounted.ordinary old acting.mem_old key known (same ▸ about)
      · obtain ⟨rfl, rfl⟩ : row.idempotencyKey = key ∧ row.terms = known := by
          simpa [same] using about
        exact accounted.books.ordinary row inJournal
    · exact accounted.ordinary task before key known about
  · intro row member sent
    rcases moves.keepsUnsent row member sent with ⟨earlier, before, same, sent⟩
      | ⟨p, funding, same⟩
    · exact same ▸ kept _ (accounted.books.sent earlier before sent)
    · exact same ▸ kept _ (accounted.funded old acting.mem_old p funding)
  · intro task member p funding
    rcases acting.mem_cases member with rfl | before
    · exact locked p funding
    · exact kept _ (accounted.funded task before p funding)

/-- What another flow posts leaves the account in order. -/
theorem Accounted.post (accounted : Accounted d terms system) {entry : JournalEntry}
    (foreign : JournalEntry.isForeign entry = true)
    (journaled : ∀ key, Journaled d key (terms key) next)
    (taken : system.step d (.post entry) = some next)
    : Accounted d terms next := by
  simp only [JournalEntry.isForeign, Bool.and_eq_true, decide_eq_true_eq, Bool.not_eq_true',
    List.all_eq_true] at foreign
  obtain ⟨⟨⟨⟨storable, noLock⟩, noSettlement⟩, named⟩, elsewhere⟩ := foreign
  simp only [System.step] at taken
  split at taken
  · cases taken
  case h_2 ledger applied posted =>
    cases taken
    have appended := LedgerService.append_of_post posted
    refine ⟨journaled, accounted.ordinary, ?_,
      fun task member p funding => mem_of_append appended (accounted.funded task member p funding)⟩
    refine accounted.books.post appended (SqlLedger.tellsApart_of_storable storable) noLock
      noSettlement ?_ ?_
    · intro key same
      rw [same, endsWith_lockKey] at named
      cases named
    · intro tenant merchant asset
      have front : beforeColon (merchantPendingWithdrawal tenant merchant)
          = "merchant_pending_withdrawal" :=
        beforeColon_eq (accountKey_toList ..) (by decide)
      apply List.sum_eq_zero
      intro value member
      obtain ⟨posting, inPostings, rfl⟩ := List.mem_map.mp member
      have other : posting.account ≠ merchantPendingWithdrawal tenant merchant :=
        fun same => elsewhere posting inPostings (same ▸ front)
      simp [other]

/-- Every event that keeps the terms of the keys keeps the account. -/
theorem Accounted.step (accounted : Accounted d terms system)
    (keeps : event.keepsTerms d terms = true) (taken : system.step d event = some next)
    : Accounted d terms next := by
  obtain ⟨shares, -⟩ := Bool.and_eq_true_iff.mp keeps
  have journaled : ∀ key, Journaled d key (terms key) next := fun key =>
    (accounted.journaled key).step (Event.repeats_of_keepsTerms keeps key) taken
  rcases System.acts_of_step taken with ⟨elapsed, rfl⟩ | ⟨request, rfl⟩ | ⟨entry, rfl⟩
    | ⟨index, old, new, acting, moves⟩
  · cases taken
    exact ⟨journaled, accounted.ordinary, accounted.books, accounted.funded⟩
  · cases taken
    refine ⟨journaled, ?_, accounted.books, ?_⟩
    · intro task member key known about
      rcases List.mem_append.mp member with before | arrived
      · exact accounted.ordinary task before key known about
      · rw [List.mem_singleton.mp arrived] at about
        exact Task.ordinary_ofRequest keeps about
    · intro task member p funding
      rcases List.mem_append.mp member with before | arrived
      · exact accounted.funded task before p funding
      · rw [List.mem_singleton.mp arrived] at funding
        cases request <;> cases funding
  · exact accounted.post shares journaled taken
  · exact accounted.move journaled acting moves

/-- A locked intent was locked with a positive amount, so nothing pending is negative. -/
theorem Books.pendingTotal_nonneg {rows : List PayoutIntent} {ledger : SqlLedger}
    (books : Books d terms rows ledger) (tenant merchant asset : String)
    : 0 ≤ PayoutJournal.pendingTotal d ledger tenant merchant asset rows := by
  apply List.sum_nonneg
  intro value member
  obtain ⟨row, inRows, rfl⟩ := List.mem_map.mp member
  rw [PayoutIntent.pending_eq]
  split
  case isTrue isPending =>
    obtain ⟨locked, -⟩ := Bool.and_eq_true_iff.mp isPending
    have lock := List.contains_iff_mem.mp locked
    rw [books.agreed row inRows] at lock
    obtain ⟨-, positive, -⟩ := books.locks _ lock _ (books.ordinary row inRows) rfl
    rw [← books.agreed row inRows] at positive
    have positive : 0 < row.amountBaseUnits := positive
    unfold PayoutIntent.weight
    split <;> omega
  case isFalse => exact Int.le_refl 0

end Step

/-- In every run of payouts, withdrawals and approvals whose calls under one key share its
terms, the pending balance of every merchant is the sum of what the intents have locked and
not settled, and never negative. No intent is locked or settled twice, a settled intent was
locked, and every lock and settlement of the ledger is that of an intent.
-/
theorem pending_is_locked_not_settled {d : Deployment} {terms : String → Terms} {store : Store}
    {system : System} (unused : store.journal = []) (empty : store.ledger = .empty)
    (reached : Reaches (System.step d) (fun _ event => event.keepsTerms d terms = true)
      { store, tasks := [] } system)
    : let ledger := system.store.ledger
      (∀ tenant merchant asset,
        LedgerService.availableBalance ledger (merchantPendingWithdrawal tenant merchant) asset
          = .ok
              (PayoutJournal.pendingTotal d ledger tenant merchant asset system.store.journal)
        ∧ 0 ≤ PayoutJournal.pendingTotal d ledger tenant merchant asset system.store.journal)
      ∧ (∀ row ∈ system.store.journal,
          (ledger.journal.map (·.idempotencyKey)).count (lockKey row.idempotencyKey) ≤ 1
          ∧ (ledger.journal.map (·.idempotencyKey)).count (settleKey row.idempotencyKey) ≤ 1
          ∧ (row.isSettled d ledger = true → row.isLocked d ledger = true))
      ∧ ∀ entry ∈ ledger.journal,
          (entry.kind = "payout.locked"
            → ∃ row ∈ system.store.journal, entry = lockOf d row.idempotencyKey row.terms)
          ∧ (entry.kind = "payout.settled"
            → ∃ row ∈ system.store.journal,
                entry = settlementOf d row.idempotencyKey row.terms) := by
  have accounted : Accounted d terms system := by
    refine reached.invariant ?_ fun accounted keeps taken => accounted.step keeps taken
    refine ⟨fun key => Journaled.initial (by simp [unused]), by simp, ?_, by simp⟩
    simpa [unused, empty] using Books.empty d terms
  have books := accounted.books
  refine ⟨fun tenant merchant asset => ⟨?_, books.pendingTotal_nonneg tenant merchant asset⟩,
    fun row inRows => ⟨List.nodup_iff_count_le_one.mp books.once _,
      List.nodup_iff_count_le_one.mp books.once _, fun settled => ?_⟩,
    fun entry member => ⟨fun kind => ?_, fun kind => ?_⟩⟩
  · rw [← books.balance tenant merchant asset]
    simp [LedgerService.availableBalance, normalBalance, normalSide, bind, Except.bind, pure,
      Except.pure]
  · obtain ⟨other, -, same, locked⟩ :=
      books.settlements _ (List.contains_iff_mem.mp settled) rfl
    have key := settleKey_inj.mp (congrArg JournalEntry.idempotencyKey same)
    rw [PayoutIntent.isLocked, books.agreed row inRows, key]
    exact List.contains_iff_mem.mpr locked
  · obtain ⟨key, ordinary, under⟩ := books.lockKeys entry member kind
    obtain ⟨rfl, -, row, inRows, rfl⟩ := books.locks entry member key ordinary under
    exact ⟨row, inRows, by rw [books.agreed row inRows]⟩
  · obtain ⟨row, inRows, rfl, -⟩ := books.settlements entry member kind
    exact ⟨row, inRows, by rw [books.agreed row inRows]⟩

/-- A payout under `x:lock` settles under the key that locks the payout `settle:x`, whose amount
is then settled without having been locked.
-/
theorem pending_goes_negative
    : ∃ system,
        Reaches (System.step plainDeployment)
          (fun _ event => event.sharesTerms plainDeployment (fun _ => samplePayout.terms) = true)
          { store := emptyStore, tasks := [] } system
        ∧ LedgerService.availableBalance system.store.ledger
            (merchantPendingWithdrawal "t" "m") "USDT"
          = .ok (-100)
        ∧ PayoutJournal.pendingTotal plainDeployment system.store.ledger "t" "m" "USDT"
            system.store.journal
          = 0 :=
  Reaches.exists_of_exec
    ([.post sampleDeposit, .call (.payout { samplePayout with idempotencyKey := "x:lock" })]
      ++ completes 0 13 (sampleReply "a" [100])
      ++ [.call (.payout { samplePayout with idempotencyKey := "settle:x" })]
      ++ completes 1 13 (sampleReply "b" [100]))
    (by decide +kernel)

/-- A payout whose only send failed has its amount pending. -/
theorem pending_is_locked_not_settled_sample
    : ∃ system,
        Reaches (System.step plainDeployment)
          (fun _ event => event.keepsTerms plainDeployment (fun _ => samplePayout.terms) = true)
          { store := emptyStore, tasks := [] } system
        ∧ system.store.ledger.balance (merchantPendingWithdrawal "t" "m") "USDT" = -100
        ∧ LedgerService.availableBalance system.store.ledger
            (merchantPendingWithdrawal "t" "m") "USDT"
          = .ok
              (PayoutJournal.pendingTotal plainDeployment system.store.ledger "t" "m" "USDT"
                system.store.journal) := by
  have run
      : ∃ system,
          Reaches (System.step plainDeployment)
            (fun _ event => event.keepsTerms plainDeployment (fun _ => samplePayout.terms) = true)
            { store := emptyStore, tasks := [] } system
          ∧ system.store.ledger.balance (merchantPendingWithdrawal "t" "m") "USDT" = -100 :=
    Reaches.exists_of_exec
      ([.post sampleDeposit, .call (.payout samplePayout)]
        ++ completes 0 8 (sampleReply "a" [200])
        ++ [.reject 0 (.plain "connection lost")])
      (by decide +kernel)
  obtain ⟨system, reached, pending⟩ := run
  exact ⟨system, reached, pending,
    ((pending_is_locked_not_settled rfl rfl reached).1 "t" "m" "USDT").1⟩

end Cixtech.Payout
