import Cixtech.Ingest.RejectedDeposits
import Cixtech.Tron.TokenContracts
import Mathlib.Data.List.Dedup

/-! Polls of TRON addresses that see the same transfers again and again. A transfer is
recorded under its transaction, whatever else the transaction moved, so it is credited once
where it is the only one of its transaction and a poll reaches it.
-/

namespace Cixtech.Tron

open Cixtech.Attribution Cixtech.Common Cixtech.Foundation Cixtech.Ingest Cixtech.Ledger

/-- A poll of one address: when, which, and what the node answers. -/
structure TronPoll where
  now : Int
  addr : PoolAddressRow
  node : TronNode

/-- `{ fetchInbound: (_chain, address) => tron.confirmedInboundTrc20(address) }`. -/
def depositSource (casing : Casing) (node : TronNode) : DepositSource :=
  { fetchInbound := fun _ _ => TronAdapter.confirmedInboundTrc20 casing node, reorged := none }

/-- What a poll leaves behind, whether it ends with an error or not. -/
def pollTron (config : IngestorConfig) (state : PollState) (poll : TronPoll) : PollState :=
  (DepositWatcher.pollAddress config poll.now "TRON" (depositSource config.casing poll.node)
    poll.addr state).1

def pollAllTron (config : IngestorConfig) (state : PollState) (polls : List TronPoll)
    : PollState :=
  polls.foldl (pollTron config) state

/-- The confirmed deposits that a poll fetches, none where a request of it fails. -/
def TronPoll.deposits (casing : Casing) (poll : TronPoll) : List ChainDeposit :=
  match TronAdapter.confirmedInboundTrc20 casing poll.node with
  | .ok deposits => deposits
  | .error _ => []

/-- The transfer that a deposit reports, wherever a poll found it. -/
def transferOf (deposit : ChainDeposit) : ChainDeposit := { deposit with blockNumber := none }

/-- The distinct positive transfers to attributed addresses that polls confirm. -/
def transfersOf (config : IngestorConfig) (pool : List PoolAddressRow) (polls : List TronPoll)
    : List ChainDeposit :=
  ((polls.flatMap (TronPoll.deposits config.casing)).map transferOf |>.filter fun transfer =>
    0 < transfer.amountBaseUnits
      && (DepositIngestor.ownerOf config pool transfer).isSome).dedup

/-- Whether a transfer belongs on the pool account of the merchant in the asset. -/
def belongsTo (config : IngestorConfig) (pool : List PoolAddressRow) (merchant asset : String)
    (transfer : ChainDeposit)
    : Bool :=
  (DepositIngestor.ownerOf config pool transfer).any fun owner =>
    owner.merchant.text = merchant ∧ config.casing.toUpperCase transfer.asset = asset

/-- Each of the transfers is in the ledger once, under a reference of its own, and the pool
accounts hold their sum.
-/
structure CreditedOnce (config : IngestorConfig) (pool : List PoolAddressRow)
    (transfers : List ChainDeposit) (before after : SqlLedger)
    : Prop where
  apart : ∀ transfer ∈ transfers, ∀ other ∈ transfers, transfer.ref = other.ref → transfer = other
  once : ∀ transfer ∈ transfers, ∃ entry,
    after.journal.filter (fun entry => entry.id = transfer.ref) = [entry]
    ∧ ∀ merchant asset,
      SqlLedger.netOn (poolAddr "TRON" merchant) asset entry.postings
        = if belongsTo config pool merchant asset transfer then transfer.amountBaseUnits else 0
  total : ∀ merchant asset,
    SqlLedger.netOn (poolAddr "TRON" merchant) asset after.postings
      = SqlLedger.netOn (poolAddr "TRON" merchant) asset before.postings
        + ((transfers.filter (belongsTo config pool merchant asset)).map
            ChainDeposit.amountBaseUnits).sum

section Polls

variable {config : IngestorConfig} {pool : List PoolAddressRow}

/-- The deposits of a poll up to the first that is rejected. -/
abbrev TronPoll.reached (config : IngestorConfig) (pool : List PoolAddressRow) (poll : TronPoll)
    : List ChainDeposit :=
  DepositWatcher.reached config pool (poll.deposits config.casing)

/-- One poll ingests its deposits up to the first that is rejected. -/
theorem pollTron_ingested (config : IngestorConfig) (state : PollState) (poll : TronPoll)
    (keyed : state.store.ledger.Keyed)
    : DepositWatcher.Ingested config (poll.deposits config.casing) state.store
        (pollTron config state poll).store := by
  unfold pollTron DepositWatcher.pollAddress TronPoll.deposits
  cases fetched : TronAdapter.confirmedInboundTrc20 config.casing poll.node with
  | error err =>
      simp only [depositSource, fetched]
      exact ⟨rfl, keyed, fun _ _ => rfl⟩
  | ok deposits =>
      have spec := (DepositWatcher.ingestDeposits_spec config poll.now "TRON" poll.addr state
        deposits keyed).1
      simp only [depositSource, fetched]
      cases round : DepositWatcher.ingestDeposits config poll.now "TRON" poll.addr state
          deposits with
      | mk after failure =>
          rw [round] at spec
          cases failure with
          | none => exact spec
          | some err => exact spec

/-- What the polls of a history reach, poll after poll, is inserted behind the journal, by
induction on the history.
-/
theorem pollAllTron_journal (config : IngestorConfig) (state : PollState)
    (polls : List TronPoll) (keyed : state.store.ledger.Keyed)
    : (pollAllTron config state polls).store.ledger.journal
      = Table.insertAll JournalEntry.id state.store.ledger.journal
          ((polls.flatMap (TronPoll.reached config state.store.pool)).filterMap
            (DepositIngestor.entryFor config state.store.pool)) := by
  induction polls generalizing state with
  | nil => rfl
  | cons poll rest ih =>
      have done := pollTron_ingested config state poll keyed
      have later := ih (pollTron config state poll) done.keyed
      have same : TronPoll.reached config (pollTron config state poll).store.pool
          = TronPoll.reached config state.store.pool := by
        funext poll
        rw [TronPoll.reached, TronPoll.reached, DepositWatcher.reached, DepositWatcher.reached,
          done.owners.rejected_eq]
      rw [done.journal, done.owners.entryFor_eq, same] at later
      rw [List.flatMap_cons, List.filterMap_append, Table.insertAll_append]
      exact later

/-- The entry of a deposit, which the deposits that are rejected or belong to nobody do not
have.
-/
def postedAs (config : IngestorConfig) (pool : List PoolAddressRow) (deposit : ChainDeposit)
    : JournalEntry :=
  (DepositIngestor.entryFor config pool deposit).getD
    { id := deposit.ref, idempotencyKey := deposit.ref, kind := "", postings := [] }

@[simp]
theorem postedAs_id (deposit : ChainDeposit)
    : (postedAs config pool deposit).id = deposit.ref := by
  unfold postedAs
  cases built : DepositIngestor.entryFor config pool deposit with
  | none => rfl
  | some entry => exact (DepositIngestor.entryFor_ref built).1

/-- The entry of a transfer moves its amount to the pool account that it belongs on. -/
theorem netOn_postedAs {deposit : ChainDeposit} (onTron : deposit.chain = "TRON")
    (owned : (DepositIngestor.ownerOf config pool deposit).isSome)
    (kept : DepositIngestor.rejected config pool deposit = false) (merchant asset : String)
    : SqlLedger.netOn (poolAddr "TRON" merchant) asset (postedAs config pool deposit).postings
      = if belongsTo config pool merchant asset deposit then deposit.amountBaseUnits else 0 := by
  obtain ⟨entry, built⟩ := Option.isSome_iff_exists.mp
    (DepositIngestor.entryFor_isSome_of_owned owned kept)
  obtain ⟨owner, owns, made⟩ := Option.bind_eq_some_iff.mp built
  have posted : postedAs config pool deposit = entry := by simp [postedAs, built]
  split at made
  · cases made
  · rw [posted, ← onTron, DepositIngestor.entryOf_netOn made]
    simp [belongsTo, owns]

/-- The entries of deposits that are reached are those of the attributed ones among them, by
induction on the deposits.
-/
theorem filterMap_entryFor {deposits : List ChainDeposit}
    (kept : ∀ deposit ∈ deposits, DepositIngestor.rejected config pool deposit = false)
    : deposits.filterMap (DepositIngestor.entryFor config pool)
      = (deposits.filter fun deposit => (DepositIngestor.ownerOf config pool deposit).isSome).map
          (postedAs config pool) := by
  induction deposits with
  | nil => rfl
  | cons deposit rest ih =>
      have tail := ih fun other member => kept other (List.mem_cons_of_mem _ member)
      cases owned : (DepositIngestor.ownerOf config pool deposit).isSome with
      | false =>
          have nobody : DepositIngestor.ownerOf config pool deposit = none := by
            simpa using owned
          simp [DepositIngestor.entryFor, nobody, tail]
      | true =>
          obtain ⟨entry, built⟩ := Option.isSome_iff_exists.mp
            (DepositIngestor.entryFor_isSome_of_owned owned (kept deposit List.mem_cons_self))
          have posted : postedAs config pool deposit = entry := by simp [postedAs, built]
          simp [built, owned, tail, posted]

/-- The attributed deposits that the polls reach, the first of each reference. -/
def recorded (config : IngestorConfig) (pool : List PoolAddressRow) (polls : List TronPoll)
    : List ChainDeposit :=
  Table.insertAll ChainDeposit.ref []
    ((polls.flatMap (TronPoll.reached config pool)).filter fun deposit =>
      (DepositIngestor.ownerOf config pool deposit).isSome)

theorem mem_reachedAll {polls : List TronPoll} {deposit : ChainDeposit}
    (member : deposit ∈ polls.flatMap (TronPoll.reached config pool))
    : deposit ∈ polls.flatMap (TronPoll.deposits config.casing)
      ∧ DepositIngestor.rejected config pool deposit = false := by
  obtain ⟨poll, inPolls, inReached⟩ := List.mem_flatMap.mp member
  refine ⟨List.mem_flatMap.mpr ⟨poll, inPolls, ?_⟩,
    DepositWatcher.not_rejected_of_reached inReached⟩
  exact (List.takeWhile_sublist _).subset inReached

/-- What a history leaves behind, where none of its references was in the ledger. -/
theorem pollAllTron_recorded {state : PollState} {polls : List TronPoll}
    (keyed : state.store.ledger.Keyed)
    (new : ∀ deposit ∈ polls.flatMap (TronPoll.deposits config.casing),
      deposit.ref ∉ state.store.ledger.journal.map JournalEntry.id)
    : (pollAllTron config state polls).store.ledger.journal
      = state.store.ledger.journal
        ++ (recorded config state.store.pool polls).map (postedAs config state.store.pool) := by
  have kept : ∀ deposit ∈ polls.flatMap (TronPoll.reached config state.store.pool),
      DepositIngestor.rejected config state.store.pool deposit = false :=
    fun deposit member => (mem_reachedAll member).2
  let attributed :=
    (polls.flatMap (TronPoll.reached config state.store.pool)).filter fun deposit =>
      (DepositIngestor.ownerOf config state.store.pool deposit).isSome
  have images : Table.insertAll JournalEntry.id []
        (attributed.map (postedAs config state.store.pool))
      = (recorded config state.store.pool polls).map (postedAs config state.store.pool) := by
    rw [← List.map_nil, Table.insertAll_map]
    simp only [postedAs_id]
    rfl
  rw [pollAllTron_journal config state polls keyed, filterMap_entryFor kept,
    Table.insertAll_of_new, images]
  · intro entry member
    obtain ⟨deposit, inFiltered, rfl⟩ := List.mem_map.mp member
    rw [postedAs_id]
    exact new deposit (mem_reachedAll (List.mem_filter.mp inFiltered).1).1

theorem mem_transfersOf {polls : List TronPoll} {transfer : ChainDeposit}
    : transfer ∈ transfersOf config pool polls
      ↔ (∃ deposit ∈ polls.flatMap (TronPoll.deposits config.casing),
          transferOf deposit = transfer)
        ∧ 0 < transfer.amountBaseUnits
        ∧ (DepositIngestor.ownerOf config pool transfer).isSome := by
  simp only [transfersOf, List.mem_dedup, List.mem_filter, List.mem_map, Bool.and_eq_true,
    decide_eq_true_eq]

/-- Every deposit of a poll is on TRON and has index 0. -/
theorem onTron_of_mem {polls : List TronPoll} {deposit : ChainDeposit} {casing : Casing}
    (member : deposit ∈ polls.flatMap (TronPoll.deposits casing))
    : deposit.chain = "TRON" ∧ deposit.index = 0 := by
  obtain ⟨poll, -, fetched⟩ := List.mem_flatMap.mp member
  unfold TronPoll.deposits at fetched
  split at fetched
  case h_1 deposits done => exact TronAdapter.confirmedInboundTrc20_spec done deposit fetched
  case h_2 => cases fetched

theorem onTron_of_mem_transfersOf {polls : List TronPoll} {transfer : ChainDeposit}
    (member : transfer ∈ transfersOf config pool polls)
    : transfer.chain = "TRON" ∧ transfer.index = 0 := by
  obtain ⟨⟨deposit, arrived, rfl⟩, -, -⟩ := mem_transfersOf.mp member
  have facts : deposit.chain = "TRON" ∧ deposit.index = 0 := onTron_of_mem arrived
  exact facts

/-- The reference of a transfer tells its transaction and nothing else. -/
theorem ref_eq_iff {transfer other : ChainDeposit}
    (onTron : transfer.chain = "TRON" ∧ transfer.index = 0)
    (otherOnTron : other.chain = "TRON" ∧ other.index = 0)
    : transfer.ref = other.ref ↔ transfer.txId = other.txId := by
  rw [ChainDeposit.ref, ChainDeposit.ref, onTron.1, onTron.2, otherOnTron.1, otherOnTron.2]
  refine ⟨fun same => ?_, fun same => by rw [same]⟩
  have letters := congrArg String.toList same
  simpa [String.toList_inj] using letters

theorem mem_recorded {polls : List TronPoll} {deposit : ChainDeposit}
    (member : deposit ∈ recorded config pool polls)
    : deposit ∈ polls.flatMap (TronPoll.reached config pool)
      ∧ (DepositIngestor.ownerOf config pool deposit).isSome := by
  rcases Table.mem_insertAll.mp member with old | ⟨-, earlier, later, split, -⟩
  · cases old
  · have listed : deposit ∈ (polls.flatMap (TronPoll.reached config pool)).filter fun deposit =>
        (DepositIngestor.ownerOf config pool deposit).isSome := by
      rw [split]
      simp
    exact List.mem_filter.mp listed

/-- An attributed deposit that is reached has its reference recorded. -/
theorem ref_recorded {polls : List TronPoll} {deposit : ChainDeposit}
    (inReached : deposit ∈ polls.flatMap (TronPoll.reached config pool))
    (owned : (DepositIngestor.ownerOf config pool deposit).isSome)
    : ∃ first ∈ recorded config pool polls, first.ref = deposit.ref := by
  have listed : deposit ∈ (polls.flatMap (TronPoll.reached config pool)).filter fun deposit =>
      (DepositIngestor.ownerOf config pool deposit).isSome :=
    List.mem_filter.mpr ⟨inReached, owned⟩
  have keys : deposit.ref ∈ (recorded config pool polls).map ChainDeposit.ref :=
    Table.mem_keys_insertAll.mpr (.inr (List.mem_map_of_mem listed))
  exact List.mem_map.mp keys

/-- What is recorded are transfers that the polls confirm. -/
theorem transferOf_mem {polls : List TronPoll} {deposit : ChainDeposit}
    (inReached : deposit ∈ polls.flatMap (TronPoll.reached config pool))
    (owned : (DepositIngestor.ownerOf config pool deposit).isSome)
    : transferOf deposit ∈ transfersOf config pool polls := by
  obtain ⟨arrived, kept⟩ := mem_reachedAll inReached
  obtain ⟨entry, built⟩ := Option.isSome_iff_exists.mp
    (DepositIngestor.entryFor_isSome_of_owned owned kept)
  obtain ⟨owner, -, made⟩ := Option.bind_eq_some_iff.mp built
  split at made
  · cases made
  · exact mem_transfersOf.mpr
      ⟨⟨deposit, arrived, rfl⟩, DepositIngestor.entryOf_positive made, owned⟩

/-- Where each transfer is alone in its transaction and reached, what is recorded are the
transfers.
-/
theorem recorded_perm {polls : List TronPoll}
    (alone : ∀ transfer ∈ transfersOf config pool polls,
      ∀ other ∈ transfersOf config pool polls, transfer.txId = other.txId → transfer = other)
    (reaches : ∀ transfer ∈ transfersOf config pool polls,
      ∃ poll ∈ polls, ∃ deposit ∈ poll.reached config pool, transferOf deposit = transfer)
    : ((recorded config pool polls).map transferOf).Perm (transfersOf config pool polls) := by
  have distinct : ((recorded config pool polls).map ChainDeposit.ref).Nodup :=
    Table.nodup_insertAll _ List.nodup_nil
  have apart : ((recorded config pool polls).map transferOf).Nodup := by
    refine List.Nodup.of_map ChainDeposit.ref ?_
    rw [List.map_map]
    exact distinct
  refine (List.perm_ext_iff_of_nodup apart (List.nodup_dedup _)).mpr fun transfer => ?_
  constructor
  · intro member
    obtain ⟨deposit, inRecorded, rfl⟩ := List.mem_map.mp member
    obtain ⟨inReached, owned⟩ := mem_recorded inRecorded
    exact transferOf_mem inReached owned
  · intro member
    obtain ⟨poll, inPolls, deposit, inReached, rfl⟩ := reaches transfer member
    have owned := (mem_transfersOf.mp member).2.2
    obtain ⟨first, inRecorded, same⟩ :=
      ref_recorded (List.mem_flatMap.mpr ⟨poll, inPolls, inReached⟩) owned
    obtain ⟨firstReached, firstOwned⟩ := mem_recorded inRecorded
    have known := transferOf_mem firstReached firstOwned
    have twin : transferOf first = transferOf deposit := by
      refine alone _ known _ member ?_
      exact (ref_eq_iff (onTron_of_mem_transfersOf known)
        (onTron_of_mem_transfersOf member)).mp same
    exact List.mem_map.mpr ⟨first, inRecorded, twin⟩

/-- The sum of what belongs on an account is the sum over what belongs on it. -/
theorem sum_belonging (merchant asset : String) (transfers : List ChainDeposit)
    : (transfers.map fun transfer =>
        if belongsTo config pool merchant asset transfer then transfer.amountBaseUnits
        else 0).sum
      = ((transfers.filter (belongsTo config pool merchant asset)).map
          ChainDeposit.amountBaseUnits).sum := by
  induction transfers with
  | nil => rfl
  | cons transfer rest ih =>
      cases belongs : belongsTo config pool merchant asset transfer <;> simp [belongs, ih]

variable {state : PollState} {polls : List TronPoll}

/-- Transfers that are credited once are each alone in their transaction and reached. -/
theorem CreditedOnce.reached (keyed : state.store.ledger.Keyed)
    (new : ∀ deposit ∈ polls.flatMap (TronPoll.deposits config.casing),
      deposit.ref ∉ state.store.ledger.journal.map JournalEntry.id)
    (credited : CreditedOnce config state.store.pool
      (transfersOf config state.store.pool polls) state.store.ledger
      (pollAllTron config state polls).store.ledger)
    : ∀ transfer ∈ transfersOf config state.store.pool polls,
        ∃ poll ∈ polls, ∃ deposit ∈ poll.reached config state.store.pool,
          transferOf deposit = transfer := by
  intro transfer member
  obtain ⟨entry, filtered, -⟩ := credited.once transfer member
  have found : entry ∈ (pollAllTron config state polls).store.ledger.journal
      ∧ entry.id = transfer.ref := by
    have inFilter : entry ∈ [entry] := List.mem_singleton_self entry
    rw [← filtered] at inFilter
    simpa using List.mem_filter.mp inFilter
  rw [pollAllTron_recorded keyed new] at found
  rcases List.mem_append.mp found.1 with old | recent
  · obtain ⟨⟨deposit, arrived, rfl⟩, -, -⟩ := mem_transfersOf.mp member
    have taken : deposit.ref ∈ state.store.ledger.journal.map JournalEntry.id :=
      List.mem_map.mpr ⟨entry, old, found.2⟩
    exact absurd taken (new deposit arrived)
  · obtain ⟨deposit, inRecorded, rfl⟩ := List.mem_map.mp recent
    obtain ⟨inReached, owned⟩ := mem_recorded inRecorded
    obtain ⟨poll, inPolls, reached⟩ := List.mem_flatMap.mp inReached
    have same : deposit.ref = transfer.ref := by simpa using found.2
    exact ⟨poll, inPolls, deposit, reached,
      credited.apart _ (transferOf_mem inReached owned) transfer member same⟩

/-- Transfers that are each alone in their transaction and reached are credited once. -/
theorem creditedOnce_of_reached (keyed : state.store.ledger.Keyed)
    (new : ∀ deposit ∈ polls.flatMap (TronPoll.deposits config.casing),
      deposit.ref ∉ state.store.ledger.journal.map JournalEntry.id)
    (alone : ∀ transfer ∈ transfersOf config state.store.pool polls,
      ∀ other ∈ transfersOf config state.store.pool polls,
        transfer.txId = other.txId → transfer = other)
    (reaches : ∀ transfer ∈ transfersOf config state.store.pool polls,
      ∃ poll ∈ polls, ∃ deposit ∈ poll.reached config state.store.pool,
        transferOf deposit = transfer)
    : CreditedOnce config state.store.pool (transfersOf config state.store.pool polls)
        state.store.ledger (pollAllTron config state polls).store.ledger := by
  have journal := pollAllTron_recorded keyed new
  have perm := recorded_perm alone reaches
  have net : ∀ deposit ∈ recorded config state.store.pool polls, ∀ merchant asset,
      SqlLedger.netOn (poolAddr "TRON" merchant) asset
          (postedAs config state.store.pool deposit).postings
        = if belongsTo config state.store.pool merchant asset (transferOf deposit) then
            (transferOf deposit).amountBaseUnits
          else 0 := by
    intro deposit inRecorded merchant asset
    obtain ⟨inReached, owned⟩ := mem_recorded inRecorded
    obtain ⟨arrived, kept⟩ := mem_reachedAll inReached
    exact netOn_postedAs (onTron_of_mem arrived).1 owned kept merchant asset
  refine ⟨?_, ?_, ?_⟩
  · intro transfer member other otherMember same
    refine alone transfer member other otherMember ?_
    exact (ref_eq_iff (onTron_of_mem_transfersOf member)
      (onTron_of_mem_transfersOf otherMember)).mp same
  · intro transfer member
    obtain ⟨deposit, inRecorded, rfl⟩ := List.mem_map.mp (perm.mem_iff.mpr member)
    have ids : ((recorded config state.store.pool polls).map
          (postedAs config state.store.pool)).map JournalEntry.id
        = (recorded config state.store.pool polls).map ChainDeposit.ref := by
      simp [Function.comp_def]
    have distinct : (((recorded config state.store.pool polls).map
        (postedAs config state.store.pool)).map JournalEntry.id).Nodup := by
      rw [ids]
      exact Table.nodup_insertAll _ List.nodup_nil
    have only := Table.filter_key_of_mem distinct (List.mem_map_of_mem inRecorded)
    rw [postedAs_id] at only
    have absent : state.store.ledger.journal.filter (fun entry => entry.id = deposit.ref) = [] := by
      obtain ⟨inReached, -⟩ := mem_recorded inRecorded
      simpa using new deposit (mem_reachedAll inReached).1
    refine ⟨postedAs config state.store.pool deposit, ?_, net deposit inRecorded⟩
    rw [journal, List.filter_append]
    exact absent.symm ▸ only
  · intro merchant asset
    have moved : ((recorded config state.store.pool polls).map
            (postedAs config state.store.pool)).map
          (fun entry => SqlLedger.netOn (poolAddr "TRON" merchant) asset entry.postings)
        = ((recorded config state.store.pool polls).map transferOf).map fun transfer =>
            if belongsTo config state.store.pool merchant asset transfer then
              transfer.amountBaseUnits
            else 0 := by
      rw [List.map_map, List.map_map]
      exact List.map_congr_left fun deposit member => net deposit member merchant asset
    rw [SqlLedger.postings, journal, List.flatMap_append, SqlLedger.netOn_append,
      SqlLedger.netOn_flatMap _ _ (List.map _ _), moved, (perm.map _).sum_eq, sum_belonging]
    rfl

/-- However often polls see them, each distinct positive transfer to an attributed address is
credited once and the pool accounts hold the sum, exactly where no two of them share a
transaction and each is reached by a poll before a deposit that is rejected.
-/
theorem transfers_credited_once (config : IngestorConfig) (state : PollState)
    (polls : List TronPoll) (keyed : state.store.ledger.Keyed)
    (new : ∀ deposit ∈ polls.flatMap (TronPoll.deposits config.casing),
      deposit.ref ∉ state.store.ledger.journal.map JournalEntry.id)
    : let transfers := transfersOf config state.store.pool polls
      CreditedOnce config state.store.pool transfers state.store.ledger
          (pollAllTron config state polls).store.ledger
        ↔ (∀ transfer ∈ transfers, ∀ other ∈ transfers,
            transfer.txId = other.txId → transfer = other)
          ∧ ∀ transfer ∈ transfers,
            ∃ poll ∈ polls, ∃ deposit ∈ poll.reached config state.store.pool,
              transferOf deposit = transfer := by
  intro transfers
  constructor
  · intro credited
    refine ⟨?_, credited.reached keyed new⟩
    intro transfer member other otherMember same
    refine credited.apart transfer member other otherMember ?_
    exact (ref_eq_iff (onTron_of_mem_transfersOf member)
      (onTron_of_mem_transfersOf otherMember)).mpr same
  · rintro ⟨alone, reaches⟩
    exact creditedOnce_of_reached keyed new alone reaches

end Polls

-----------------------------------------------------------------------------
-- A payer that pays twice in one transaction

/-- A row of a USDT transfer to the merchant's address. -/
def usdtRow (txId value : String) : Json :=
  .object
    [ ("transaction_id", .text txId), ("from", .text "TSender"), ("to", .text "TPool"),
      ("type", .text "Transfer"), ("value", .text value),
      ( "token_info",
        .object
          [ ("symbol", .text "USDT"), ("address", .text "TUsdt"),
            ("decimals", .number (.integer 6)) ] ) ]

/-- A poll of the merchant's address that finds the rows, all of them confirmed. -/
def pollOf (rows : List Json) : List TronPoll :=
  samplePool.map fun addr =>
    { now := 0, addr, node := TronAdapter.solidNode (.object [("data", .array rows)]) }

def sampleState : PollState := { store := sampleStore, outbox := [], credited := 0, reversed := 0 }

/-- Of two payments in one transaction the second is lost. -/
theorem second_transfer_of_transaction_lost
    : ¬ ∀ (config : IngestorConfig) (state : PollState) (polls : List TronPoll),
        state.store.ledger.Keyed
        → (∀ deposit ∈ polls.flatMap (TronPoll.deposits config.casing),
            deposit.ref ∉ state.store.ledger.journal.map JournalEntry.id)
        → CreditedOnce config state.store.pool (transfersOf config state.store.pool polls)
            state.store.ledger (pollAllTron config state polls).store.ledger := by
  intro credited
  have held := (credited sampleIngestor sampleState
    (pollOf [usdtRow "aa" "1000", usdtRow "aa" "500"]) SqlLedger.keyed_empty
    (by simp [sampleState, sampleStore, SqlLedger.empty])).total "bb" "USDT"
  revert held
  decide +kernel

/-- Two payments in two transactions are credited once each, though both polls see them. -/
theorem transfers_credited_once_apart
    : let polls :=
        pollOf [usdtRow "aa" "1000", usdtRow "bb" "500"]
        ++ pollOf [usdtRow "bb" "500", usdtRow "aa" "1000"]
      CreditedOnce sampleIngestor samplePool (transfersOf sampleIngestor samplePool polls) .empty
        (pollAllTron sampleIngestor sampleState polls).store.ledger := by
  intro polls
  refine (transfers_credited_once sampleIngestor sampleState polls SqlLedger.keyed_empty
    (by simp [sampleState, sampleStore, SqlLedger.empty])).mpr ⟨?_, ?_⟩
  · decide +kernel
  · decide +kernel

end Cixtech.Tron
