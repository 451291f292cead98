import Cixtech.Ingest.ReorgHistory
import Cixtech.Ingest.DepositWatcher

/-! What a poll leaves of the deposits that its source returns. One rejected ingestion ends
the whole poll, so a deposit is recorded exactly where its reference was in the ledger or
stands, in the order of the poll, before the first deposit that is rejected.
-/

namespace Cixtech.Ingest

open Cixtech.Attribution Cixtech.Common Cixtech.Foundation Cixtech.Ledger

/-- A source that answers with lists of deposits. No source of the engine reports what a
reorganisation took back.
-/
def DepositSource.returning (inbound : String → String → List ChainDeposit) : DepositSource :=
  { fetchInbound := fun chain address => .ok (inbound chain address), reorged := none }

namespace DepositIngestor

/-- A deposit with an owner that is not rejected has an entry. -/
theorem entryFor_isSome_of_owned {config : IngestorConfig} {pool : List PoolAddressRow}
    {deposit : ChainDeposit} (owned : (ownerOf config pool deposit).isSome)
    (kept : rejected config pool deposit = false)
    : (entryFor config pool deposit).isSome := by
  cases built : entryFor config pool deposit with
  | none => simp [rejected, owned, built] at kept
  | some => rfl

theorem owned_of_entryFor {config : IngestorConfig} {pool : List PoolAddressRow}
    {deposit : ChainDeposit} {entry : JournalEntry}
    (built : entryFor config pool deposit = some entry)
    : (ownerOf config pool deposit).isSome := by
  obtain ⟨owner, owns, -⟩ := Option.bind_eq_some_iff.mp built
  rw [owns]
  rfl

end DepositIngestor

namespace DepositWatcher

theorem not_rejected_of_reached {config : IngestorConfig} {pool : List PoolAddressRow}
    {deposits : List ChainDeposit} {deposit : ChainDeposit}
    (member : deposit ∈ reached config pool deposits)
    : DepositIngestor.rejected config pool deposit = false := by
  simpa using List.mem_takeWhile_imp member

/-- A deposit is reached where neither it nor one before it is rejected, by induction on the
list.
-/
theorem mem_reached {config : IngestorConfig} {pool : List PoolAddressRow}
    {deposits : List ChainDeposit} {deposit : ChainDeposit}
    : deposit ∈ reached config pool deposits
      ↔ ∃ earlier later,
          deposits = earlier ++ deposit :: later
          ∧ ∀ passed ∈ earlier ++ [deposit],
              DepositIngestor.rejected config pool passed = false := by
  induction deposits with
  | nil => simp [reached]
  | cons head rest ih =>
      cases rejects : DepositIngestor.rejected config pool head with
      | true =>
          simp only [reached, rejects, Bool.not_true, Bool.false_eq_true, not_false_eq_true,
            List.takeWhile_cons_of_neg, List.not_mem_nil, false_iff]
          rintro ⟨earlier, later, split, passed⟩
          have kept : DepositIngestor.rejected config pool head = false := by
            cases earlier with
            | nil => exact passed head (by simp [(List.cons.inj split).1])
            | cons first others => exact passed head (by simp [(List.cons.inj split).1])
          rw [rejects] at kept
          cases kept
      | false =>
          have unfolded : reached config pool (head :: rest) = head :: reached config pool rest := by
            simp [reached, rejects]
          rw [unfolded, List.mem_cons, ih]
          constructor
          · rintro (rfl | ⟨earlier, later, rfl, passed⟩)
            · exact ⟨[], rest, rfl, by simpa using rejects⟩
            · refine ⟨head :: earlier, later, rfl, ?_⟩
              intro other member
              rcases List.mem_cons.mp member with rfl | before
              · exact rejects
              · exact passed other before
          · rintro ⟨earlier, later, split, passed⟩
            cases earlier with
            | nil => exact .inl (List.cons.inj split).1.symm
            | cons first before =>
                refine .inr ⟨before, later, (List.cons.inj split).2, fun other member => ?_⟩
                exact passed other (List.mem_cons_of_mem _ member)

/-- A list without a rejection is passed whole, and what follows it is reached as it is on
its own.
-/
theorem reached_append {config : IngestorConfig} {pool : List PoolAddressRow}
    {first later : List ChainDeposit}
    (passed : ∀ deposit ∈ first, DepositIngestor.rejected config pool deposit = false)
    : reached config pool (first ++ later) = first ++ reached config pool later :=
  List.takeWhile_append_of_pos fun deposit member => by simp [passed deposit member]

/-- What follows a rejection is never reached, by induction on the list it is in. -/
theorem reached_append_of_rejected {config : IngestorConfig} {pool : List PoolAddressRow}
    {first : List ChainDeposit} (later : List ChainDeposit)
    (stopped : ¬ ∀ deposit ∈ first, DepositIngestor.rejected config pool deposit = false)
    : reached config pool (first ++ later) = reached config pool first := by
  induction first with
  | nil => simp at stopped
  | cons deposit rest ih =>
      cases rejects : DepositIngestor.rejected config pool deposit with
      | true => simp [reached, rejects]
      | false =>
          have further : ¬ ∀ deposit ∈ rest,
              DepositIngestor.rejected config pool deposit = false := by
            simpa [rejects] using stopped
          have tail := ih further
          simp only [reached] at tail
          simp [reached, rejects, tail]

/-- Two lists ingested one after the other are their concatenation ingested. -/
theorem Ingested.trans {config : IngestorConfig} {first later : List ChainDeposit}
    {before middle after : IngestStore} (done : Ingested config first before middle)
    (passed : ∀ deposit ∈ first, DepositIngestor.rejected config before.pool deposit = false)
    (further : Ingested config later middle after)
    : Ingested config (first ++ later) before after where
  journal := by
    have whole : reached config before.pool first = first :=
      List.takeWhile_eq_self_iff.mpr fun deposit member => by simp [passed deposit member]
    have same : reached config middle.pool later = reached config before.pool later := by
      rw [reached, reached, done.owners.rejected_eq]
    rw [further.journal, done.journal, reached_append passed, List.filterMap_append,
      Table.insertAll_append, whole, same, done.owners.entryFor_eq]
  keyed := further.keyed
  owners chain address := (further.owners chain address).trans (done.owners chain address)

/-- The references in the ledger after a list of deposits are those before and those of the
attributed deposits that were reached.
-/
theorem Ingested.mem_refs {config : IngestorConfig} {deposits : List ChainDeposit}
    {before after : IngestStore} (done : Ingested config deposits before after) (ref : String)
    : ref ∈ after.ledger.journal.map JournalEntry.id
      ↔ ref ∈ before.ledger.journal.map JournalEntry.id
        ∨ ∃ deposit ∈ reached config before.pool deposits,
            (DepositIngestor.ownerOf config before.pool deposit).isSome
            ∧ deposit.ref = ref := by
  rw [done.journal, Table.mem_keys_insertAll]
  refine or_congr_right ?_
  constructor
  · intro posted
    obtain ⟨entry, member, rfl⟩ := List.mem_map.mp posted
    obtain ⟨deposit, inReached, built⟩ := List.mem_filterMap.mp member
    exact ⟨deposit, inReached, DepositIngestor.owned_of_entryFor built,
      (DepositIngestor.entryFor_ref built).1.symm⟩
  · rintro ⟨deposit, inReached, owned, rfl⟩
    obtain ⟨entry, built⟩ := Option.isSome_iff_exists.mp
      (DepositIngestor.entryFor_isSome_of_owned owned (not_rejected_of_reached inReached))
    refine List.mem_map.mpr ⟨entry, List.mem_filterMap.mpr ⟨deposit, inReached, built⟩, ?_⟩
    exact (DepositIngestor.entryFor_ref built).1

section Poll

variable (config : IngestorConfig) (now : Int) (chain : String)
  (inbound : String → String → List ChainDeposit)

/-- The deposits of a poll, address after address. -/
def polled (watched : List PoolAddressRow) : List ChainDeposit :=
  watched.flatMap fun addr => inbound chain addr.address

/-- A poll ingests its deposits as one list, by induction on the addresses. -/
theorem pollAddresses_spec (state : PollState) (watched : List PoolAddressRow)
    (keyed : state.store.ledger.Keyed)
    : let (after, failure) :=
        pollAddresses config now chain (.returning inbound) state watched
      Ingested config (polled chain inbound watched) state.store after.store
        ∧ (failure = none
          ↔ ∀ deposit ∈ polled chain inbound watched,
              DepositIngestor.rejected config state.store.pool deposit = false) := by
  induction watched generalizing state with
  | nil => exact ⟨⟨rfl, keyed, fun _ _ => rfl⟩, by simp [polled]⟩
  | cons addr rest ih =>
      obtain ⟨done, complete⟩ :=
        ingestDeposits_spec config now chain addr state (inbound chain addr.address) keyed
      have parts : polled chain inbound (addr :: rest)
          = inbound chain addr.address ++ polled chain inbound rest := rfl
      rw [parts]
      simp only [pollAddresses, pollAddress, DepositSource.returning]
      cases round : ingestDeposits config now chain addr state (inbound chain addr.address) with
      | mk next failure =>
          rw [round] at done complete
          cases failure with
          | some err =>
              have stopped : ¬ ∀ deposit ∈ inbound chain addr.address,
                  DepositIngestor.rejected config state.store.pool deposit = false := by
                intro passed
                cases complete.mpr passed
              refine ⟨⟨?_, done.keyed, done.owners⟩, ?_⟩
              · rw [reached_append_of_rejected _ stopped]
                exact done.journal
              · constructor
                · intro impossible
                  cases impossible
                · intro passed
                  exact absurd (fun deposit member =>
                    passed deposit (List.mem_append_left _ member)) stopped
          | none =>
              have passed := complete.mp rfl
              obtain ⟨further, finished⟩ := ih next done.keyed
              refine ⟨done.trans passed further, ?_⟩
              rw [done.owners.rejected_eq] at finished
              refine finished.trans ?_
              simp only [List.mem_append]
              constructor
              · rintro later deposit (here | there)
                · exact passed deposit here
                · exact later deposit there
              · intro all deposit member
                exact all deposit (.inr member)

/-- The tables after a poll are those that the ingestion of its deposits leaves. -/
theorem pollOnce_ingested (store : IngestStore) (outbox : List WebhookEvent)
    (keyed : store.ledger.Keyed)
    : Ingested config
        (polled chain inbound (PoolManager.activeAddresses store.pool chain)) store
        (pollOnce config now chain (.returning inbound) store outbox).1.store := by
  have spec := pollAddresses_spec config now chain inbound
    { store, outbox, credited := 0, reversed := 0 }
    (PoolManager.activeAddresses store.pool chain) keyed
  unfold pollOnce
  dsimp only
  cases round : pollAddresses config now chain (.returning inbound)
      { store, outbox, credited := 0, reversed := 0 }
      (PoolManager.activeAddresses store.pool chain) with
  | mk after failure =>
      rw [round] at spec
      cases failure with
      | none => exact spec.1
      | some err => exact spec.1

/-- After a poll every positive deposit to an attributed address is recorded under its
reference, exactly where each had its reference in the ledger or has it on a deposit that
comes before the first one rejected.
-/
theorem polled_deposits_recorded (store : IngestStore) (outbox : List WebhookEvent)
    (keyed : store.ledger.Keyed)
    : let deposits := polled chain inbound (PoolManager.activeAddresses store.pool chain)
      let after := (pollOnce config now chain (.returning inbound) store outbox).1.store
      (∀ deposit ∈ deposits,
          0 < deposit.amountBaseUnits
          → (DepositIngestor.ownerOf config store.pool deposit).isSome
          → deposit.ref ∈ after.ledger.journal.map JournalEntry.id)
        ↔ ∀ deposit ∈ deposits,
            0 < deposit.amountBaseUnits
            → (DepositIngestor.ownerOf config store.pool deposit).isSome
            → deposit.ref ∈ store.ledger.journal.map JournalEntry.id
              ∨ ∃ earlier other later,
                  deposits = earlier ++ other :: later
                  ∧ (∀ passed ∈ earlier ++ [other],
                      DepositIngestor.rejected config store.pool passed = false)
                  ∧ (DepositIngestor.ownerOf config store.pool other).isSome
                  ∧ other.ref = deposit.ref := by
  intro deposits after
  have done : Ingested config deposits store after :=
    pollOnce_ingested config now chain inbound store outbox keyed
  refine forall_congr' fun deposit => forall_congr' fun _ => forall_congr' fun _ =>
    forall_congr' fun _ => ?_
  rw [done.mem_refs]
  refine or_congr_right ?_
  constructor
  · rintro ⟨other, inReached, owned, same⟩
    obtain ⟨earlier, later, split, passed⟩ := mem_reached.mp inReached
    exact ⟨earlier, other, later, split, passed, owned, same⟩
  · rintro ⟨earlier, other, later, split, passed, owned, same⟩
    exact ⟨other, mem_reached.mpr ⟨earlier, later, split, passed⟩, owned, same⟩

end Poll

-----------------------------------------------------------------------------
-- A transfer of nothing in front of a payment

/-- What the merchant's address received: anyone can send it nothing. -/
def sampleTransferOfNothing : ChainDeposit :=
  { sampleTransfer with txId := "00", from_ := "TStranger", amountBaseUnits := 0 }

/-- A transfer of nothing keeps the payment after it out of the ledger. -/
theorem transfer_of_nothing_blocks_poll
    : ¬ ∀ (config : IngestorConfig) (now : Int) (chain : String)
          (inbound : String → String → List ChainDeposit) (store : IngestStore)
          (outbox : List WebhookEvent),
        store.ledger.Keyed
        → ∀ deposit ∈ polled chain inbound (PoolManager.activeAddresses store.pool chain),
            0 < deposit.amountBaseUnits
            → (DepositIngestor.ownerOf config store.pool deposit).isSome
            → deposit.ref
              ∈ (pollOnce config now chain (.returning inbound) store outbox).1.store.ledger.journal.map
                  JournalEntry.id := by
  intro records
  have posted := records sampleIngestor 0 "TRON"
    (fun _ _ => [sampleTransferOfNothing, sampleTransfer]) sampleStore [] SqlLedger.keyed_empty
    sampleTransfer (by decide) (by decide) (by decide)
  revert posted
  decide +kernel

/-- A payment in front of the transfer of nothing is recorded. -/
theorem polled_deposits_recorded_in_front
    : sampleTransfer.ref
      ∈ (pollOnce sampleIngestor 0 "TRON"
          (.returning fun _ _ => [sampleTransfer, sampleTransferOfNothing])
          sampleStore []).1.store.ledger.journal.map
          JournalEntry.id := by
  refine (polled_deposits_recorded sampleIngestor 0 "TRON"
    (fun _ _ => [sampleTransfer, sampleTransferOfNothing]) sampleStore []
    SqlLedger.keyed_empty).mpr ?_ sampleTransfer (by decide) (by decide) (by decide)
  intro deposit member positive _
  have payment : deposit = sampleTransfer := by
    rcases List.mem_cons.mp member with first | second
    · exact first
    · rw [List.mem_singleton.mp second] at positive
      cases positive
  subst payment
  exact .inr ⟨[], sampleTransfer, [sampleTransferOfNothing], rfl, by decide, by decide, rfl⟩

end DepositWatcher

end Cixtech.Ingest
