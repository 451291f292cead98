import Cixtech.Ingest.DepositIngestor

/-! One deposit over a history of confirmations and reorganisations. Its credit and its
reversal are each posted at most once, so the ledger follows the history up to the first
reorganisation of the credit and stays there.
-/

namespace Cixtech.Ingest

open Cixtech.Attribution Cixtech.Common Cixtech.Foundation Cixtech.Ledger

/-- What the chain says of a deposit. -/
inductive ChainEvent
  | confirmed
  | reorged
  deriving DecidableEq, Repr

namespace DepositIngestor

/-- Deliver an event at an instant. A call that throws leaves the tables. -/
def deliver (config : IngestorConfig) (deposit : ChainDeposit) (store : IngestStore)
    : ChainEvent × Int → IngestStore
  | (.confirmed, now) =>
      match ingestConfirmed config now store deposit with
      | .error _ => store
      | .ok (after, _) => after
  | (.reorged, _) =>
      match reverseCredit store.ledger deposit with
      | .error _ => store
      | .ok (ledger, _) => { store with ledger }

def deliverAll (config : IngestorConfig) (deposit : ChainDeposit) (store : IngestStore)
    (events : List (ChainEvent × Int))
    : IngestStore :=
  events.foldl (deliver config deposit) store

end DepositIngestor

-----------------------------------------------------------------------------
-- How far a history gets

/-- What the ledger has of a deposit. -/
inductive Standing
  | unseen
  | credited
  | reversed
  deriving DecidableEq, Repr

/-- How an event moves it. A reversed deposit stays reversed. -/
def Standing.next : Standing → ChainEvent → Standing
  | .unseen, .confirmed => .credited
  | .unseen, .reorged => .unseen
  | .credited, .confirmed => .credited
  | .credited, .reorged => .reversed
  | .reversed, _ => .reversed

/-- The entries that the ledger has of a deposit. -/
def Standing.entries (credit reversal : JournalEntry) : Standing → List JournalEntry
  | .unseen => []
  | .credited => [credit]
  | .reversed => [credit, reversal]

theorem standing_reversed (events : List ChainEvent)
    : events.foldl Standing.next .reversed = .reversed := by
  induction events with
  | nil => rfl
  | cons event rest ih => exact ih

/-- A credited deposit stays credited until the first reorganisation. -/
theorem standing_credited (events : List ChainEvent)
    : events.foldl Standing.next .credited
      = if .reorged ∈ events then .reversed else .credited := by
  induction events with
  | nil => rfl
  | cons event rest ih =>
      cases event with
      | confirmed => simpa [Standing.next] using ih
      | reorged => simpa [Standing.next] using standing_reversed rest

/-- A history ends reversed where a reorganisation follows a confirmation, and credited where
there is a confirmation and none follows; by induction on the history.
-/
theorem standing_unseen (events : List ChainEvent)
    : (events.foldl Standing.next .unseen = .reversed
        ↔ [ChainEvent.confirmed, .reorged].Sublist events)
      ∧ (events.foldl Standing.next .unseen = .credited
        ↔ ChainEvent.confirmed ∈ events
          ∧ ¬ [ChainEvent.confirmed, .reorged].Sublist events) := by
  induction events with
  | nil => simp
  | cons event rest ih =>
      cases event with
      | confirmed =>
          have follows : [ChainEvent.confirmed, .reorged].Sublist (.confirmed :: rest)
              ↔ ChainEvent.reorged ∈ rest := by
            rw [List.cons_sublist_cons, List.singleton_sublist]
          simp only [List.foldl_cons, Standing.next, standing_credited, follows,
            List.mem_cons_self, true_and]
          split <;> simp_all
      | reorged =>
          have skips : [ChainEvent.confirmed, .reorged].Sublist (.reorged :: rest)
              ↔ [ChainEvent.confirmed, .reorged].Sublist rest := by
            simp [List.sublist_cons_iff]
          simpa [Standing.next, skips] using ih

-----------------------------------------------------------------------------
-- The ledger along a history

/-- The entry that a reorganisation of a credit is answered with. -/
def reversalOf (deposit : ChainDeposit) (credit : JournalEntry) : JournalEntry :=
  { id := "reverse:" ++ deposit.ref, idempotencyKey := "reverse:" ++ deposit.ref
    kind := "reverse", postings := credit.postings.map Posting.flipped }

/-- Tables that have of a deposit what its standing says, and are otherwise as they were. -/
structure Follows (config : IngestorConfig) (deposit : ChainDeposit) (credit : JournalEntry)
    (before : IngestStore) (standing : Standing) (after : IngestStore)
    : Prop where
  journal : after.ledger.journal
    = before.ledger.journal ++ standing.entries credit (reversalOf deposit credit)
  keyed : after.ledger.Keyed
  materialised : after.ledger.Materialised
  owners : DepositIngestor.SameOwners before.pool after.pool

section History

variable {config : IngestorConfig} {deposit : ChainDeposit} {credit : JournalEntry}
  {before after : IngestStore} {standing : Standing}

/-- An id that no entry has is appended; by the same token one that an entry has is not. -/
theorem insertIgnore_entries (journal : List JournalEntry) (standing : Standing)
    {credit reversal entry : JournalEntry} (fresh : ∀ old ∈ journal, old.id ≠ entry.id)
    : Table.insertIgnore JournalEntry.id (journal ++ standing.entries credit reversal) entry
      = if entry.id ∈ (standing.entries credit reversal).map JournalEntry.id then
          journal ++ standing.entries credit reversal
        else journal ++ standing.entries credit reversal ++ [entry] := by
  have absent : entry.id ∉ journal.map JournalEntry.id := by
    intro member
    obtain ⟨old, inJournal, same⟩ := List.mem_map.mp member
    exact fresh old inJournal same
  rw [Table.insertIgnore_eq, List.map_append]
  simp only [List.mem_append, absent, false_or]

theorem reverse_ne (ref : String) : "reverse:" ++ ref ≠ ref := by
  intro same
  have lengths := congrArg String.length same
  rw [String.length_append] at lengths
  have added : "reverse:".length = 8 := by decide
  omega

/-- A confirmation credits a deposit that is new and is ignored otherwise. -/
theorem Follows.confirmed (follows : Follows config deposit credit before standing after)
    (built : DepositIngestor.entryFor config before.pool deposit = some credit)
    (new : ∀ old ∈ before.ledger.journal, old.id ≠ deposit.ref) (now : Int)
    : Follows config deposit credit before (standing.next .confirmed)
        (DepositIngestor.deliver config deposit after (.confirmed, now)) := by
  have here : DepositIngestor.entryFor config after.pool deposit = some credit := by
    rw [follows.owners.entryFor_eq, built]
  obtain ⟨id, -⟩ := DepositIngestor.entryFor_ref built
  obtain ⟨owner, -, made⟩ := Option.bind_eq_some_iff.mp built
  split at made
  · cases made
  case h_2 blocked _ =>
    obtain ⟨store, _, -, done, appended, journal, keyed, owners⟩ :=
      DepositIngestor.ingestConfirmed_of_entryFor now follows.keyed here
    have delivered : DepositIngestor.deliver config deposit after (.confirmed, now) = store := by
      simp only [DepositIngestor.deliver, done]
    rw [delivered]
    have apart := SqlLedger.tellsApart_of_asset (DepositIngestor.entryOf_single made)
    refine ⟨?_, keyed, follows.materialised.append apart appended, ?_⟩
    · rw [journal, follows.journal, insertIgnore_entries _ _ (id ▸ new)]
      cases standing with
      | unseen => simp [Standing.entries, Standing.next]
      | credited => simp [Standing.entries, Standing.next]
      | reversed => simp [Standing.entries, Standing.next]
    · intro chain address
      rw [owners, follows.owners]

/-- The postings stored under the reference are those of the credit, once it is there. -/
theorem Follows.entryPostings (follows : Follows config deposit credit before standing after)
    (id : credit.id = deposit.ref) (new : ∀ old ∈ before.ledger.journal, old.id ≠ deposit.ref)
    : after.ledger.entryPostings deposit.ref
      = if standing = .unseen then [] else credit.postings := by
  have others : before.ledger.journal.filter (fun entry => entry.id = deposit.ref) = [] := by
    rw [List.filter_eq_nil_iff]
    intro entry member same
    exact new entry member (of_decide_eq_true same)
  have apart := reverse_ne deposit.ref
  rw [SqlLedger.entryPostings, follows.journal, List.filter_append, others]
  cases standing <;> simp [Standing.entries, id, reversalOf, apart]

/-- A reorganisation reverses a credited deposit and is ignored otherwise. -/
theorem Follows.reorged (follows : Follows config deposit credit before standing after)
    (built : DepositIngestor.entryFor config before.pool deposit = some credit)
    (new : ∀ old ∈ before.ledger.journal,
      old.id ≠ deposit.ref ∧ old.id ≠ "reverse:" ++ deposit.ref)
    (now : Int)
    : Follows config deposit credit before (standing.next .reorged)
        (DepositIngestor.deliver config deposit after (.reorged, now)) := by
  obtain ⟨id, -⟩ := DepositIngestor.entryFor_ref built
  obtain ⟨owner, -, made⟩ := Option.bind_eq_some_iff.mp built
  split at made
  · cases made
  case h_2 blocked _ =>
    have stored := follows.entryPostings id fun old member => (new old member).1
    by_cases unseen : standing = .unseen
    · subst unseen
      have ignored : DepositIngestor.reverseCredit after.ledger deposit
          = .ok (after.ledger, .notFound) := by
        simp [DepositIngestor.reverseCredit, LedgerService.reverseByRef, stored,
          LedgerService.unknownEntry]
      simp only [DepositIngestor.deliver, ignored]
      exact follows
    · rw [if_neg unseen] at stored
      have balanced := DepositIngestor.entryOf_balanced made
      let reversal := reversalOf deposit credit
      have own : reversal.id = reversal.idempotencyKey := rfl
      obtain ⟨next, appended, journal, keyed⟩ := follows.keyed.append own
      have done : DepositIngestor.reverseCredit after.ledger deposit
          = .ok (next, .reversed) := by
        have posted : LedgerService.post after.ledger reversal
            = .ok (next, !after.ledger.hasKey reversal.idempotencyKey) :=
          (LedgerService.post_of_balanced balanced.flipped).trans appended
        have found : credit.postings.isEmpty = false := by
          simpa using balanced.nonempty
        have reversed : LedgerService.reverseByRef after.ledger deposit.ref
            ("reverse:" ++ deposit.ref) ("reverse:" ++ deposit.ref)
            = .ok (next, !after.ledger.hasKey reversal.idempotencyKey) := by
          simp only [LedgerService.reverseByRef, stored, found, Bool.false_eq_true, if_false]
          exact posted
        simp only [DepositIngestor.reverseCredit, reversed]
      have single : ∀ posting ∈ reversal.postings,
          posting.asset = config.casing.toUpperCase deposit.asset := by
        intro posting member
        obtain ⟨original, inCredit, rfl⟩ := List.mem_map.mp member
        exact DepositIngestor.entryOf_single made original inCredit
      have apart := SqlLedger.tellsApart_of_asset single
      simp only [DepositIngestor.deliver, done]
      refine ⟨?_, keyed, follows.materialised.append apart appended, follows.owners⟩
      rw [journal, follows.journal,
        insertIgnore_entries _ _ fun old member => (new old member).2]
      have differs : reversal.id ≠ credit.id := id ▸ reverse_ne deposit.ref
      cases standing with
      | unseen => exact absurd rfl unseen
      | credited => simp [Standing.entries, Standing.next, differs, reversal]
      | reversed => simp [Standing.entries, Standing.next, reversal]

/-- The tables follow the whole history, by induction on it. -/
theorem Follows.all (follows : Follows config deposit credit before standing after)
    (built : DepositIngestor.entryFor config before.pool deposit = some credit)
    (new : ∀ old ∈ before.ledger.journal,
      old.id ≠ deposit.ref ∧ old.id ≠ "reverse:" ++ deposit.ref)
    (events : List (ChainEvent × Int))
    : Follows config deposit credit before ((events.map Prod.fst).foldl Standing.next standing)
        (DepositIngestor.deliverAll config deposit after events) := by
  induction events generalizing standing after with
  | nil => exact follows
  | cons event rest ih =>
      obtain ⟨kind, now⟩ := event
      refine ih ?_
      cases kind with
      | confirmed => exact follows.confirmed built (fun old member => (new old member).1) now
      | reorged => exact follows.reorged built new now

/-- What a history has added to a balance: the credit while it stands, nothing before it or
after its reversal.
-/
theorem Follows.balance (follows : Follows config deposit credit before standing after)
    (materialised : before.ledger.Materialised) (account asset : String)
    : after.ledger.balance account asset - before.ledger.balance account asset
      = if standing = .credited then SqlLedger.netOn account asset credit.postings else 0 := by
  have later : after.ledger.balance account asset
      = SqlLedger.netOn account asset after.ledger.postings :=
    SqlLedger.balance_eq_net follows.materialised account asset
  have earlier : before.ledger.balance account asset
      = SqlLedger.netOn account asset before.ledger.postings :=
    SqlLedger.balance_eq_net materialised account asset
  rw [later, earlier, SqlLedger.postings, follows.journal]
  cases standing <;> simp [Standing.entries, reversalOf, SqlLedger.postings]

/-- A credit moves the balance of the pool account of its owner. -/
theorem credit_moves (built : DepositIngestor.entryFor config before.pool deposit = some credit)
    : ∃ account asset, SqlLedger.netOn account asset credit.postings ≠ 0 := by
  obtain ⟨owner, -, made⟩ := Option.bind_eq_some_iff.mp built
  split at made
  · cases made
  case h_2 blocked _ =>
    obtain ⟨moved, positive⟩ := DepositIngestor.entryOf_pool made
    exact ⟨_, _, by rw [moved]; omega⟩

/-- The effect of a history on every balance is one credit or nothing, as its last event
says, exactly when it does not end with the confirmation of a deposit that was credited and
reorganised out before: such a deposit is not credited again.
-/
theorem deposit_follows_history (config : IngestorConfig) (store : IngestStore)
    (deposit : ChainDeposit) (credit : JournalEntry) (events : List (ChainEvent × Int))
    (keyed : store.ledger.Keyed) (materialised : store.ledger.Materialised)
    (new : ∀ old ∈ store.ledger.journal,
      old.id ≠ deposit.ref ∧ old.id ≠ "reverse:" ++ deposit.ref)
    (built : DepositIngestor.entryFor config store.pool deposit = some credit)
    : let after := DepositIngestor.deliverAll config deposit store events
      let kinds := events.map Prod.fst
      (∀ account asset,
          after.ledger.balance account asset - store.ledger.balance account asset
          = if kinds.getLast? = some .confirmed then
              SqlLedger.netOn account asset credit.postings
            else 0)
        ↔ ¬ (kinds.getLast? = some .confirmed
            ∧ [ChainEvent.confirmed, .reorged].Sublist kinds) := by
  intro after kinds
  have start : Follows config deposit credit store .unseen store :=
    ⟨by simp [Standing.entries], keyed, materialised, fun _ _ => rfl⟩
  have ends := start.all built new events
  obtain ⟨reversed, credited⟩ := standing_unseen kinds
  have effect := ends.balance materialised
  obtain ⟨account, asset, moves⟩ := credit_moves built
  by_cases last : kinds.getLast? = some .confirmed
  · have seen : ChainEvent.confirmed ∈ kinds := List.mem_of_getLast? last
    simp only [last, if_true, true_and]
    constructor
    · intro agrees reorged
      have gone := reversed.mpr reorged
      have same := (effect account asset).symm.trans (agrees account asset)
      rw [if_neg (by rw [gone]; decide)] at same
      exact moves same.symm
    · intro kept account asset
      rw [effect account asset, if_pos (credited.mpr ⟨seen, kept⟩)]
  · simp only [last, if_false, false_and, not_false_eq_true, iff_true]
    intro account asset
    rw [effect account asset]
    refine if_neg ?_
    intro standing
    -- A credited history has a confirmation that no reorganisation follows: its last event.
    obtain ⟨seen, kept⟩ := credited.mp standing
    have nonempty : kinds ≠ [] := List.ne_nil_of_mem seen
    have split := List.dropLast_append_getLast nonempty
    cases final : kinds.getLast nonempty with
    | confirmed => exact last (by rw [List.getLast?_eq_some_getLast nonempty, final])
    | reorged =>
        rw [final] at split
        have earlier : ChainEvent.confirmed ∈ kinds.dropLast := by
          rw [← split] at seen
          simpa using seen
        refine kept ?_
        rw [← split]
        exact (List.singleton_sublist.mpr earlier).append (List.Sublist.refl [ChainEvent.reorged])

end History

-----------------------------------------------------------------------------
-- A deposit that is mined twice

/-- The merchant's only address, reserved for a payment. -/
def samplePool : List PoolAddressRow :=
  [ { tenant := sampleTenant, merchant := sampleMerchant, chain := "TRON", derivationIndex := 0
      address := "TPool", state := .reserved, cooldownUntil := none
      gatherStrategy := .eoaFundTransfer } ]

/-- An ingestor without a screener or a lifecycle that takes half a percent. -/
def sampleIngestor : IngestorConfig :=
  { casing := asciiCasing, feePolicy := fun _ _ => .integer 50, screener := none
    cooldownMs := none }

def sampleStore : IngestStore := { pool := samplePool, ledger := .empty }

def sampleTransfer : ChainDeposit :=
  { chain := "TRON", txId := "aa", index := 0, to_ := "TPool", from_ := "TSender", asset := "USDT"
    tokenContract := none, amountBaseUnits := 1000, blockNumber := none }

/-- A deposit that is confirmed, reorganised out and confirmed again is not credited again. -/
theorem remined_deposit_uncredited
    : ¬ ∀ (config : IngestorConfig) (store : IngestStore) (deposit : ChainDeposit)
          (credit : JournalEntry) (events : List (ChainEvent × Int)) (account asset : String),
        DepositIngestor.entryFor config store.pool deposit = some credit
        → store.ledger = .empty
        → (DepositIngestor.deliverAll config deposit store events).ledger.balance account asset
          = if (events.map Prod.fst).getLast? = some .confirmed then
              SqlLedger.netOn account asset credit.postings
            else 0 := by
  intro follows
  have remined := follows sampleIngestor sampleStore sampleTransfer _
    [(.confirmed, 0), (.reorged, 1), (.confirmed, 2)] (poolAddr "TRON" "bb") "USDT" rfl rfl
  revert remined
  decide +kernel

/-- A deposit that is delivered twice and reorganised out has no effect. -/
theorem deposit_follows_history_reversed
    : ∃ credit,
        DepositIngestor.entryFor sampleIngestor samplePool sampleTransfer = some credit
        ∧ ∀ account asset,
          (DepositIngestor.deliverAll sampleIngestor sampleTransfer sampleStore
              [(.confirmed, 0), (.confirmed, 1), (.reorged, 2)]).ledger.balance account asset
            - SqlLedger.empty.balance account asset
          = 0 := by
  refine ⟨_, rfl, ?_⟩
  exact (deposit_follows_history sampleIngestor sampleStore sampleTransfer _
    [(.confirmed, 0), (.confirmed, 1), (.reorged, 2)] SqlLedger.keyed_empty
    SqlLedger.materialised_empty (by simp [sampleStore, SqlLedger.empty]) rfl).mpr (by decide)

end Cixtech.Ingest
