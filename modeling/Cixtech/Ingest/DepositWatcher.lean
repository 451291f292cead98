import Cixtech.Ingest.DepositIngestor

/-! The deposit watcher. A poll goes over the active addresses of a chain, ingests what the
source returns for each, and takes back what the source reports as gone. Nothing in it
catches an error, so the first one ends the poll where it is.
-/

namespace Cixtech.Ingest

open Cixtech.Attribution Cixtech.Common Cixtech.Foundation Cixtech.Ledger

/-- Where deposits come from. A source need not report reorganisations. -/
structure DepositSource where
  fetchInbound : String → String → Except AppError (List ChainDeposit)
  reorged : Option (String → String → Except AppError (List ChainDeposit))

/-- A queued webhook, without its id and its time. -/
structure WebhookEvent where
  tenant : String
  event : String
  account : String
  chain : String
  address : String
  txId : String
  asset : String
  amount : String
  deriving DecidableEq, Repr

/-- The tables that a poll works on and the counters that it returns. -/
structure PollState where
  store : IngestStore
  outbox : List WebhookEvent
  credited : Nat
  reversed : Nat

structure PollResult where
  credited : Nat
  reversed : Nat
  deriving DecidableEq, Repr

namespace PollState

/-- `this.outbox.enqueue(addr.tenant, event, …)`. -/
def enqueue (state : PollState) (chain : String) (addr : PoolAddressRow) (event : String)
    (deposit : ChainDeposit)
    : PollState :=
  { state with
      outbox :=
        state.outbox
        ++ [ { tenant := addr.tenant.text, event, account := addr.merchant.text, chain
               address := addr.address, txId := deposit.txId, asset := deposit.asset
               amount := toString deposit.amountBaseUnits } ] }

/-- What follows an ingestion. -/
def noted (state : PollState) (chain : String) (addr : PoolAddressRow) (deposit : ChainDeposit)
    : IngestStatus → PollState
  | .credited =>
      { state with credited := state.credited + 1 }.enqueue chain addr "deposit.confirmed" deposit
  | .quarantined => state.enqueue chain addr "compliance.hold" deposit
  | .duplicate => state
  | .unmatched => state

def result (state : PollState) : PollResult :=
  { credited := state.credited, reversed := state.reversed }

end PollState

namespace DepositWatcher

section Poll

variable (config : IngestorConfig) (now : Int) (chain : String)

/-- `for (const deposit of deposits)`. What was done before an error stays done. -/
def ingestDeposits (addr : PoolAddressRow)
    : PollState → List ChainDeposit → PollState × Option AppError
  | state, [] => (state, none)
  | state, deposit :: rest =>
      match DepositIngestor.ingestConfirmed config now state.store deposit with
      | .error err => (state, some err)
      | .ok (store, res) =>
          ingestDeposits addr ({ state with store }.noted chain addr deposit res.status) rest

/-- `for (const gone of …)`. -/
def reverseDeposits (addr : PoolAddressRow)
    : PollState → List ChainDeposit → PollState × Option AppError
  | state, [] => (state, none)
  | state, gone :: rest =>
      match DepositIngestor.reverseCredit state.store.ledger gone with
      | .error err => (state, some err)
      | .ok (ledger, status) =>
          let state := { state with store.ledger := ledger }
          match status with
          | .notFound => reverseDeposits addr state rest
          | .reversed =>
              reverseDeposits addr
                ({ state with reversed := state.reversed + 1 }.enqueue chain addr
                  "deposit.reorged" gone)
                rest

/-- One round of the loop over the addresses. -/
def pollAddress (source : DepositSource) (addr : PoolAddressRow) (state : PollState)
    : PollState × Option AppError :=
  match source.fetchInbound chain addr.address with
  | .error err => (state, some err)
  | .ok deposits =>
      match ingestDeposits config now chain addr state deposits with
      | (state, some err) => (state, some err)
      | (state, none) =>
          match source.reorged with
          | none => (state, none)
          | some reorged =>
              match reorged chain addr.address with
              | .error err => (state, some err)
              | .ok gone => reverseDeposits chain addr state gone

/-- `for (const addr of watched)`. -/
def pollAddresses (source : DepositSource)
    : PollState → List PoolAddressRow → PollState × Option AppError
  | state, [] => (state, none)
  | state, addr :: rest =>
      match pollAddress config now chain source addr state with
      | (state, some err) => (state, some err)
      | (state, none) => pollAddresses source state rest

/-- The tables after a poll of the chain, with its result or its error. -/
def pollOnce (source : DepositSource) (store : IngestStore) (outbox : List WebhookEvent)
    : PollState × Except AppError PollResult :=
  let watched := PoolManager.activeAddresses store.pool chain
  match pollAddresses config now chain source { store, outbox, credited := 0, reversed := 0 }
      watched with
  | (state, some err) => (state, .error err)
  | (state, none) => (state, .ok state.result)

end Poll

/-- The part of a list of deposits that comes before the first whose ingestion throws. -/
def reached (config : IngestorConfig) (pool : List PoolAddressRow) (deposits : List ChainDeposit)
    : List ChainDeposit :=
  deposits.takeWhile fun deposit => !DepositIngestor.rejected config pool deposit

/-- What ingesting a list of deposits leaves behind: the entries of those that were reached,
behind the journal as it was, each under an id that was free.
-/
structure Ingested (config : IngestorConfig) (deposits : List ChainDeposit)
    (before after : IngestStore)
    : Prop where
  journal : after.ledger.journal
    = Table.insertAll JournalEntry.id before.ledger.journal
        ((reached config before.pool deposits).filterMap
          (DepositIngestor.entryFor config before.pool))
  keyed : after.ledger.Keyed
  owners : DepositIngestor.SameOwners before.pool after.pool

theorem noted_store (state : PollState) (chain : String) (addr : PoolAddressRow)
    (deposit : ChainDeposit) (status : IngestStatus)
    : (state.noted chain addr deposit status).store = state.store := by
  cases status <;> rfl

/-- A list of deposits is ingested up to the first that is rejected, and the loop throws
exactly where there is one; by induction on the list.
-/
theorem ingestDeposits_spec (config : IngestorConfig) (now : Int) (chain : String)
    (addr : PoolAddressRow) (state : PollState) (deposits : List ChainDeposit)
    (keyed : state.store.ledger.Keyed)
    : let (after, failure) := ingestDeposits config now chain addr state deposits
      Ingested config deposits state.store after.store
        ∧ (failure = none
          ↔ ∀ deposit ∈ deposits,
              DepositIngestor.rejected config state.store.pool deposit = false) := by
  induction deposits generalizing state with
  | nil => exact ⟨⟨rfl, keyed, fun _ _ => rfl⟩, by simp⟩
  | cons deposit rest ih =>
      cases rejects : DepositIngestor.rejected config state.store.pool deposit with
      | true =>
          obtain ⟨err, thrown⟩ := DepositIngestor.ingestConfirmed_of_rejected now rejects
          have stops : ingestDeposits config now chain addr state (deposit :: rest)
              = (state, some err) := by
            rw [ingestDeposits, thrown]
          rw [stops]
          refine ⟨⟨?_, keyed, fun _ _ => rfl⟩, ?_⟩
          · rw [reached, List.takeWhile_cons_of_neg (by simp [rejects])]
            rfl
          · simp [rejects]
      | false =>
          obtain ⟨store, status, goes, journal, later, owners⟩ :
              ∃ store status,
                DepositIngestor.ingestConfirmed config now state.store deposit
                  = .ok (store, { status, ref := deposit.ref })
                ∧ store.ledger.journal
                  = Table.insertAll JournalEntry.id state.store.ledger.journal
                      ([deposit].filterMap (DepositIngestor.entryFor config state.store.pool))
                ∧ store.ledger.Keyed
                ∧ DepositIngestor.SameOwners state.store.pool store.pool := by
            cases built : DepositIngestor.entryFor config state.store.pool deposit with
            | some entry =>
                obtain ⟨store, blocked, -, done, -, journal, later, owners⟩ :=
                  DepositIngestor.ingestConfirmed_of_entryFor now keyed built
                exact ⟨store, _, done, by simpa [built] using journal, later, owners⟩
            | none =>
                have nobody : DepositIngestor.ownerOf config state.store.pool deposit
                    = none := by
                  simpa [DepositIngestor.rejected, built] using rejects
                exact ⟨_, _, DepositIngestor.ingestConfirmed_of_unmatched now nobody,
                  by simp [built], keyed, fun _ _ => rfl⟩
          let next := { state with store }.noted chain addr deposit status
          have same : next.store = store := noted_store ..
          obtain ⟨ingested, failure⟩ := ih next (same ▸ later)
          have continues : ingestDeposits config now chain addr state (deposit :: rest)
              = ingestDeposits config now chain addr next rest := by
            rw [ingestDeposits, goes]
          rw [same] at ingested failure
          rw [continues]
          refine ⟨⟨?_, ingested.keyed, ?_⟩, ?_⟩
          · have whole : (reached config state.store.pool (deposit :: rest)).filterMap
                (DepositIngestor.entryFor config state.store.pool)
                = [deposit].filterMap (DepositIngestor.entryFor config state.store.pool)
                  ++ (reached config state.store.pool rest).filterMap
                    (DepositIngestor.entryFor config state.store.pool) := by
              rw [← List.filterMap_append, reached, reached,
                List.takeWhile_cons_of_pos (by simp [rejects])]
              rfl
            rw [ingested.journal, journal, whole, Table.insertAll_append, reached, reached,
              owners.rejected_eq, owners.entryFor_eq]
          · intro chain address
            rw [ingested.owners, owners]
          · rw [failure, owners.rejected_eq]
            simp [rejects]

end DepositWatcher

end Cixtech.Ingest
