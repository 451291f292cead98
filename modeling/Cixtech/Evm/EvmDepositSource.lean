import Cixtech.Evm.EvmAdapter
import Cixtech.Foundation.Executions
import Cixtech.Ingest.RejectedDeposits

/-! The watcher of an EVM chain, await by await. The source of an EVM chain keeps a cursor for
each address: it reads the cursor, scans the blocks from there up to the last safe one, writes
the cursor behind them, and only then hands over the deposits that are to be ingested.
-/

namespace Cixtech.Evm

open Cixtech.Attribution Cixtech.Common Cixtech.Foundation Cixtech.Ingest Cixtech.Ledger

/-- Where the poll of the chain is: between two awaits, with what it holds in its variables. -/
inductive PollPhase
  | idle
  /-- Between two addresses. -/
  | between (rest : List PoolAddressRow)
  /-- The cursor was read and is null. -/
  | unscanned (addr : PoolAddressRow) (rest : List PoolAddressRow)
  /-- The first block to scan is known. -/
  | scanning (addr : PoolAddressRow) (cursor : Nat) (rest : List PoolAddressRow)
  /-- The last block to scan is known as well. -/
  | fetching (addr : PoolAddressRow) (cursor safe : Nat) (rest : List PoolAddressRow)
  | writing (addr : PoolAddressRow) (cursor safe : Nat) (deposits : List ChainDeposit)
    (rest : List PoolAddressRow)
  /-- In the loop over the deposits that the source returned. -/
  | ingesting (addr : PoolAddressRow) (deposits : List ChainDeposit)
    (rest : List PoolAddressRow)

/-- The deposits that the source has returned and the loop has not come to. -/
def PollPhase.pending : PollPhase → List ChainDeposit
  | .ingesting _ deposits _ => deposits
  | _ => []

/-- The tables and the poll in progress. A row of `deposit_cursor` is the block of an address;
beside it stands the block that the address was first scanned from.
-/
structure EvmWatcher where
  store : IngestStore
  cursors : String → Option Nat
  firstScanned : String → Option Nat
  phase : PollPhase

inductive EvmEvent
  /-- `this.pool.activeAddresses(chain)`. -/
  | poll
  /-- `this.cursors.get(chain, address)` for the next address, or the end of the poll. -/
  | readCursor
  /-- `this.rpc.blockNumber()`, for the first scan of an address or the end of a scan. -/
  | head (block : Nat)
  /-- `this.rpc.getLogs(…)`, and what is made of the logs. -/
  | logs
  /-- `this.cursors.set(chain, address, scannedTo + 1n)`. -/
  | writeCursor
  /-- `this.ingestor.ingestConfirmed(deposit)` for the next deposit, or the end of the loop. -/
  | ingest (now : Int)
  /-- An await rejects, or the process ends. -/
  | interrupt
  /-- What other flows do to the pool, a release for instance. -/
  | pool (rows : List PoolAddressRow)
  /-- What other flows post. -/
  | post (entry : JournalEntry)

namespace EvmWatcher

def initial (store : IngestStore) : EvmWatcher :=
  { store, cursors := fun _ => none, firstScanned := fun _ => none, phase := .idle }

/-- `this.cursors.set`, noting the first block of an address that had no row. -/
def setCursor (state : EvmWatcher) (address : String) (cursor next : Nat) : EvmWatcher :=
  { state with
      cursors := fun other => if other = address then some next else state.cursors other
      firstScanned :=
        fun other =>
          if other = address then
            if (state.cursors address).isSome then state.firstScanned address else some cursor
          else state.firstScanned other }

section Machine

variable (codec : EvmCodec) (config : EvmAdapterConfig) (ingestor : IngestorConfig)
  (logsOf : Nat → List EvmLog)

/-- One await, none where the poll is not at it. -/
def step (state : EvmWatcher) : EvmEvent → Option EvmWatcher
  | .poll =>
      match state.phase with
      | .idle =>
          some
            { state with
                phase := .between (PoolManager.activeAddresses state.store.pool config.chain) }
      | _ => none
  | .readCursor =>
      match state.phase with
      | .between [] => some { state with phase := .idle }
      | .between (addr :: rest) =>
          match state.cursors addr.address with
          | none => some { state with phase := .unscanned addr rest }
          | some cursor => some { state with phase := .scanning addr cursor rest }
      | _ => none
  | .head block =>
      match state.phase with
      | .unscanned addr rest =>
          let lookback := config.initialLookbackBlocks
          let cursor := if block > lookback then block - lookback else 0
          some { state with phase := .scanning addr cursor rest }
      | .scanning addr cursor rest =>
          -- `safe` is negative on a chain that is shorter than the confirmations.
          if block < cursor + config.confirmations then
            some { state with phase := .ingesting addr [] rest }
          else
            some { state with phase := .fetching addr cursor (block - config.confirmations) rest }
      | _ => none
  | .logs =>
      match state.phase with
      | .fetching addr cursor safe rest =>
          match EvmAdapter.parseDeposits codec config
              (EvmAdapter.getLogs codec logsOf addr.address cursor safe) with
          | .error _ => some { state with phase := .idle }
          | .ok deposits => some { state with phase := .writing addr cursor safe deposits rest }
      | _ => none
  | .writeCursor =>
      match state.phase with
      | .writing addr cursor safe deposits rest =>
          some
            { state.setCursor addr.address cursor (safe + 1) with
                phase := .ingesting addr deposits rest }
      | _ => none
  | .ingest now =>
      match state.phase with
      | .ingesting _ [] rest => some { state with phase := .between rest }
      | .ingesting addr (deposit :: deposits) rest =>
          match DepositIngestor.ingestConfirmed ingestor now state.store deposit with
          | .error _ => some { state with phase := .idle }
          | .ok (store, _) => some { state with store, phase := .ingesting addr deposits rest }
      | _ => none
  | .interrupt => some { state with phase := .idle }
  | .pool rows => some { state with store.pool := rows }
  | .post entry =>
      if entry.id = entry.idempotencyKey then
        match state.store.ledger.append entry with
        | .error _ => none
        | .ok (ledger, _) => some { state with store.ledger := ledger }
      else none

/-- Whether a deposit moves nothing or has its reference in the ledger. -/
def recorded (state : EvmWatcher) (deposit : ChainDeposit) : Bool :=
  deposit.amountBaseUnits ≤ 0 || deposit.ref ∈ state.store.ledger.journal.map JournalEntry.id

/-- The deposits to an address that a cursor is behind: those of the configured tokens in the
blocks from the first that was scanned up to the cursor.
-/
def Passed (state : EvmWatcher) (address : String) (deposit : ChainDeposit) : Prop :=
  ∃ first cursor block log,
    state.firstScanned address = some first
    ∧ state.cursors address = some cursor
    ∧ first ≤ block
    ∧ block < cursor
    ∧ log ∈ logsOf block
    ∧ EvmAdapter.isTransferTo codec address log = true
    ∧ EvmAdapter.parseLog codec config log = .ok (some deposit)

/-- No cursor is behind a deposit that is not recorded. -/
def CursorSafe (state : EvmWatcher) : Prop :=
  ∀ address deposit, Passed codec config logsOf state address deposit → state.recorded deposit

/-- The same but for the deposits that the loop in progress still has to ingest. -/
def CursorCovered (state : EvmWatcher) : Prop :=
  ∀ address deposit,
    Passed codec config logsOf state address deposit
    → state.recorded deposit ∨ deposit ∈ state.phase.pending

/-- An event finds nothing new when it writes a cursor: every deposit of the scan is recorded
already.
-/
def findsNothing (state : EvmWatcher) : EvmEvent → Bool
  | .writeCursor =>
      match state.phase with
      | .writing _ _ _ deposits _ => deposits.all state.recorded
      | _ => true
  | _ => true

/-- An event gives no deposit up: what ends the loop over the deposits finds the rest of them
recorded, and the address of a deposit that is ingested still has its owner.
-/
def losesNothing (state : EvmWatcher) : EvmEvent → Bool
  | .interrupt => state.phase.pending.all state.recorded
  | .ingest _ =>
      match state.phase with
      | .ingesting _ (deposit :: deposits) _ =>
          if DepositIngestor.rejected ingestor state.store.pool deposit then
            (deposit :: deposits).all state.recorded
          else
            (DepositIngestor.ownerOf ingestor state.store.pool deposit).isSome
              || state.recorded deposit
      | _ => true
  | _ => true

end Machine

-----------------------------------------------------------------------------
-- What the poll knows at each await

/-- What the variables of a fetch say about the row of its address and the blocks scanned. -/
def Agrees (codec : EvmCodec) (config : EvmAdapterConfig) (logsOf : Nat → List EvmLog)
    (cursors : String → Option Nat)
    : PollPhase → Prop
  | .unscanned addr _ => cursors addr.address = none
  | .scanning addr cursor _ => ∀ stored, cursors addr.address = some stored → stored = cursor
  | .fetching addr cursor safe _ =>
      (∀ stored, cursors addr.address = some stored → stored = cursor) ∧ cursor ≤ safe
  | .writing addr cursor safe deposits _ =>
      (∀ stored, cursors addr.address = some stored → stored = cursor)
      ∧ cursor ≤ safe
      ∧ EvmAdapter.parseDeposits codec config
          (EvmAdapter.getLogs codec logsOf addr.address cursor safe)
        = .ok deposits
  | _ => True

/-- The rows of the cursors and the poll in progress fit together. -/
structure Scans (codec : EvmCodec) (config : EvmAdapterConfig) (logsOf : Nat → List EvmLog)
    (state : EvmWatcher)
    : Prop where
  keyed : state.store.ledger.Keyed
  ordered : ∀ address cursor, state.cursors address = some cursor
    → ∃ first, state.firstScanned address = some first ∧ first ≤ cursor
  unseen : ∀ address, state.cursors address = none → state.firstScanned address = none
  agrees : Agrees codec config logsOf state.cursors state.phase

section Steps

variable {codec : EvmCodec} {config : EvmAdapterConfig} {ingestor : IngestorConfig}
  {logsOf : Nat → List EvmLog} {state next : EvmWatcher} {event : EvmEvent}

theorem scans_initial {store : IngestStore} (keyed : store.ledger.Keyed)
    : Scans codec config logsOf (initial store) where
  keyed := keyed
  ordered := by simp [initial]
  unseen := by simp [initial]
  agrees := trivial

/-- The references in the ledger and their keys, after an ingestion that did not throw. -/
theorem ingestConfirmed_refs {store after : IngestStore} {deposit : ChainDeposit} {now : Int}
    {result : IngestResult} (keyed : store.ledger.Keyed)
    (done : DepositIngestor.ingestConfirmed ingestor now store deposit = .ok (after, result))
    : after.ledger.Keyed
      ∧ (∀ ref ∈ store.ledger.journal.map JournalEntry.id,
          ref ∈ after.ledger.journal.map JournalEntry.id)
      ∧ ((DepositIngestor.ownerOf ingestor store.pool deposit).isSome
        → deposit.ref ∈ after.ledger.journal.map JournalEntry.id) := by
  cases rejects : DepositIngestor.rejected ingestor store.pool deposit with
  | true =>
      obtain ⟨err, thrown⟩ := DepositIngestor.ingestConfirmed_of_rejected now rejects
      cases thrown.symm.trans done
  | false =>
      cases owns : DepositIngestor.ownerOf ingestor store.pool deposit with
      | none =>
          have unmatched := DepositIngestor.ingestConfirmed_of_unmatched now owns
          obtain ⟨rfl, -⟩ := Prod.mk.inj (Except.ok.inj (unmatched.symm.trans done))
          exact ⟨keyed, fun _ member => member, by simp⟩
      | some owner =>
          obtain ⟨entry, built⟩ := Option.isSome_iff_exists.mp
            (DepositIngestor.entryFor_isSome_of_owned (by simp [owns]) rejects)
          obtain ⟨stored, blocked, -, goes, -, journal, later, -⟩ :=
            DepositIngestor.ingestConfirmed_of_entryFor now keyed built
          obtain ⟨rfl, -⟩ := Prod.mk.inj (Except.ok.inj (goes.symm.trans done))
          have ids : ∀ ref, ref ∈ stored.ledger.journal.map JournalEntry.id
              ↔ ref ∈ store.ledger.journal.map JournalEntry.id ∨ ref = entry.id := by
            intro ref
            have inserted : ref ∈ (Table.insertAll JournalEntry.id store.ledger.journal
                  [entry]).map JournalEntry.id
                ↔ ref ∈ store.ledger.journal.map JournalEntry.id
                  ∨ ref ∈ [entry].map JournalEntry.id :=
              Table.mem_keys_insertAll
            simpa [journal, Table.insertAll] using inserted
          refine ⟨later, fun ref member => (ids ref).mpr (.inl member), fun _ => ?_⟩
          exact (ids deposit.ref).mpr (.inr (DepositIngestor.entryFor_ref built).1.symm)

/-- Nothing but the write of a cursor touches the cursors. -/
theorem cursors_of_step (taken : step codec config ingestor logsOf state event = some next)
    (reads : event ≠ .writeCursor)
    : next.cursors = state.cursors ∧ next.firstScanned = state.firstScanned := by
  cases event with
  | writeCursor => exact absurd rfl reads
  | _ =>
      simp only [step] at taken
      repeat' split at taken
      all_goals cases taken <;> exact ⟨rfl, rfl⟩

/-- Every await but the write of a cursor leaves the poll knowing what it should. -/
theorem agrees_of_step (agrees : Agrees codec config logsOf state.cursors state.phase)
    (taken : step codec config ingestor logsOf state event = some next)
    (reads : event ≠ .writeCursor)
    : Agrees codec config logsOf state.cursors next.phase := by
  cases event with
  | writeCursor => exact absurd rfl reads
  | poll =>
      simp only [step] at taken
      split at taken <;> cases taken
      trivial
  | readCursor =>
      simp only [step] at taken
      split at taken
      · cases taken
        trivial
      · split at taken
        case h_1 missing =>
          cases taken
          exact missing
        case h_2 cursor found =>
          cases taken
          intro stored again
          exact Option.some.inj (again.symm.trans found)
      · cases taken
  | head block =>
      simp only [step] at taken
      split at taken
      case h_1 addr rest phase =>
        cases taken
        rw [phase] at agrees
        intro stored found
        rw [show state.cursors addr.address = none from agrees] at found
        cases found
      case h_2 addr cursor rest phase =>
        rw [phase] at agrees
        split at taken
        · cases taken
          trivial
        case isFalse safe =>
          cases taken
          exact ⟨agrees, by omega⟩
      · cases taken
  | logs =>
      simp only [step] at taken
      split at taken
      case h_1 addr cursor safe rest phase =>
        rw [phase] at agrees
        split at taken
        · cases taken
          trivial
        case h_2 deposits parsed =>
          cases taken
          exact ⟨agrees.1, agrees.2, parsed⟩
      · cases taken
  | ingest now =>
      simp only [step] at taken
      split at taken
      · cases taken
        trivial
      · split at taken <;> cases taken <;> trivial
      · cases taken
  | interrupt =>
      cases taken
      trivial
  | pool rows =>
      cases taken
      exact agrees
  | post entry =>
      simp only [step] at taken
      split at taken
      · split at taken
        · cases taken
        · cases taken
          exact agrees
      · cases taken

/-- No step takes a reference from the ledger. -/
theorem ledger_of_step (keyed : state.store.ledger.Keyed)
    (taken : step codec config ingestor logsOf state event = some next)
    : next.store.ledger.Keyed
      ∧ ∀ ref ∈ state.store.ledger.journal.map JournalEntry.id,
          ref ∈ next.store.ledger.journal.map JournalEntry.id := by
  have same : next.store.ledger = state.store.ledger
      → next.store.ledger.Keyed
        ∧ ∀ ref ∈ state.store.ledger.journal.map JournalEntry.id,
            ref ∈ next.store.ledger.journal.map JournalEntry.id := by
    intro stays
    rw [stays]
    exact ⟨keyed, fun _ member => member⟩
  cases event with
  | ingest now =>
      simp only [step] at taken
      split at taken
      · cases taken
        exact same rfl
      · split at taken
        · cases taken
          exact same rfl
        case h_2 done =>
          cases taken
          obtain ⟨later, grows, -⟩ := ingestConfirmed_refs keyed done
          exact ⟨later, grows⟩
      · cases taken
  | post entry =>
      simp only [step] at taken
      split at taken
      case isFalse => cases taken
      case isTrue own =>
        split at taken
        · cases taken
        case h_2 ledger _ appended =>
          cases taken
          obtain ⟨stored, again, journal, later⟩ := keyed.append own
          obtain ⟨rfl, -⟩ := Prod.mk.inj (Except.ok.inj (again.symm.trans appended))
          refine ⟨later, fun ref member => ?_⟩
          simp only [journal]
          rw [Table.insertIgnore_eq]
          split
          · exact member
          · rw [List.map_append]
            exact List.mem_append_left _ member
  | _ =>
      simp only [step] at taken
      repeat' split at taken
      all_goals cases taken <;> exact same rfl

/-- What is recorded stays recorded. -/
theorem recorded_of_step (keyed : state.store.ledger.Keyed)
    (taken : step codec config ingestor logsOf state event = some next) {deposit : ChainDeposit}
    (known : state.recorded deposit = true)
    : next.recorded deposit = true := by
  obtain ⟨-, grows⟩ := ledger_of_step keyed taken
  simp only [recorded, Bool.or_eq_true, decide_eq_true_eq] at known ⊢
  exact known.imp_right (grows deposit.ref)

/-- Every step keeps the cursors and the poll fitting together. -/
theorem Scans.step (scans : Scans codec config logsOf state)
    (taken : EvmWatcher.step codec config ingestor logsOf state event = some next)
    : Scans codec config logsOf next := by
  obtain ⟨later, -⟩ := ledger_of_step scans.keyed taken
  have agrees := scans.agrees
  by_cases writes : event = .writeCursor
  · subst writes
    cases phase : state.phase with
    | writing addr cursor safe deposits rest =>
        simp only [EvmWatcher.step, phase, Option.some.injEq] at taken
        subst taken
        rw [phase] at agrees
        obtain ⟨stored, range, -⟩ := agrees
        refine ⟨later, ?_, ?_, trivial⟩
        · intro address found
          simp only [setCursor]
          by_cases here : address = addr.address
          · subst here
            simp only [if_true]
            rintro ⟨⟩
            cases before : state.cursors addr.address with
            | none => exact ⟨cursor, rfl, by omega⟩
            | some old =>
                obtain ⟨first, started, below⟩ := scans.ordered _ _ before
                have same := stored old before
                exact ⟨first, started, by omega⟩
          · simp only [if_neg here]
            exact scans.ordered address found
        · intro address missing
          simp only [setCursor] at missing ⊢
          by_cases here : address = addr.address
          · simp [here] at missing
          · simp only [if_neg here] at missing ⊢
            exact scans.unseen address missing
    | _ => simp [EvmWatcher.step, phase] at taken
  · obtain ⟨cursors, firstScanned⟩ := cursors_of_step taken writes
    refine ⟨later, ?_, ?_, ?_⟩
    · rw [cursors, firstScanned]
      exact scans.ordered
    · rw [cursors, firstScanned]
      exact scans.unseen
    · rw [cursors]
      exact agrees_of_step agrees taken writes

-----------------------------------------------------------------------------
-- Deposits that a cursor is behind

/-- Steps that leave the cursors alone leave the same deposits behind them. -/
theorem passed_congr (cursors : next.cursors = state.cursors)
    (firstScanned : next.firstScanned = state.firstScanned) {address : String}
    {deposit : ChainDeposit} (passed : Passed codec config logsOf next address deposit)
    : Passed codec config logsOf state address deposit := by
  unfold Passed at passed ⊢
  rwa [cursors, firstScanned] at passed

/-- The write of a cursor puts the deposits of the scan behind it and no other. -/
theorem passed_of_write {addr : PoolAddressRow} {cursor safe : Nat}
    {deposits : List ChainDeposit} {rest : List PoolAddressRow}
    (scans : Scans codec config logsOf state)
    (phase : state.phase = .writing addr cursor safe deposits rest)
    (written : next.cursors = (state.setCursor addr.address cursor (safe + 1)).cursors)
    (noted : next.firstScanned = (state.setCursor addr.address cursor (safe + 1)).firstScanned)
    (address : String) (deposit : ChainDeposit)
    : Passed codec config logsOf next address deposit
      ↔ Passed codec config logsOf state address deposit
        ∨ address = addr.address ∧ deposit ∈ deposits := by
  have agrees := scans.agrees
  rw [phase] at agrees
  obtain ⟨stored, range, parsed⟩ := agrees
  unfold Passed
  rw [written, noted]
  simp only [setCursor]
  by_cases here : address = addr.address
  · subst here
    simp only [if_true, true_and]
    constructor
    · rintro ⟨first, _, block, log, started, ⟨⟩, low, high, inBlock, transfer, read⟩
      by_cases old : block < cursor
      · cases before : state.cursors addr.address with
        | none =>
            rw [before] at started
            obtain rfl := Option.some.inj started
            omega
        | some row =>
            rw [before] at started
            refine .inl ⟨first, row, block, log, started, rfl, low, ?_, inBlock, transfer, read⟩
            have same := stored row before
            omega
      · refine .inr ((EvmAdapter.mem_parseDeposits parsed deposit).mpr ⟨log, ?_, read⟩)
        exact EvmAdapter.mem_getLogs.mpr ⟨⟨block, by omega, by omega, inBlock⟩, transfer⟩
    · rintro (⟨first, row, block, log, started, found, low, high, inBlock, transfer, read⟩ | scanned)
      · have same := stored row found
        refine ⟨first, safe + 1, block, log, ?_, rfl, low, by omega, inBlock, transfer, read⟩
        simpa [found] using started
      · obtain ⟨log, listed, read⟩ := (EvmAdapter.mem_parseDeposits parsed deposit).mp scanned
        obtain ⟨⟨block, low, high, inBlock⟩, transfer⟩ := EvmAdapter.mem_getLogs.mp listed
        cases before : state.cursors addr.address with
        | none =>
            exact ⟨cursor, safe + 1, block, log, rfl, rfl, low, by omega, inBlock, transfer, read⟩
        | some row =>
            obtain ⟨first, started, below⟩ := scans.ordered _ _ before
            have same := stored row before
            refine ⟨first, safe + 1, block, log, ?_, rfl, by omega, by omega, inBlock, transfer,
              read⟩
            simpa using started
  · simp [here]

/-- The write of a cursor puts what was fetched behind it, and no other step puts anything there. -/
theorem passed_of_step (scans : Scans codec config logsOf state)
    (taken : step codec config ingestor logsOf state event = some next)
    : (event ≠ .writeCursor
        ∧ ∀ address deposit,
          Passed codec config logsOf next address deposit
          → Passed codec config logsOf state address deposit)
      ∨ event = .writeCursor
        ∧ ∃ addr cursor block deposits rest,
          state.phase = .writing addr cursor block deposits rest
          ∧ next
            = { state.setCursor addr.address cursor (block + 1) with
                  phase := .ingesting addr deposits rest }
          ∧ ∀ address deposit,
            Passed codec config logsOf next address deposit
            ↔ Passed codec config logsOf state address deposit
              ∨ address = addr.address ∧ deposit ∈ deposits := by
  by_cases writes : event = .writeCursor
  · subst writes
    cases phase : state.phase with
    | writing addr cursor block deposits rest =>
        simp only [step, phase, Option.some.injEq] at taken
        subst taken
        exact .inr ⟨rfl, addr, cursor, block, deposits, rest, rfl, rfl,
          passed_of_write scans phase rfl rfl⟩
    | _ => simp [step, phase] at taken
  · obtain ⟨cursors, firstScanned⟩ := cursors_of_step taken writes
    exact .inl ⟨writes, fun address deposit => passed_congr cursors firstScanned⟩

/-- A step from a state in which the cursors are safe keeps them safe exactly where it finds
nothing new to write a cursor behind.
-/
theorem cursorSafe_step_iff (scans : Scans codec config logsOf state)
    (safe : CursorSafe codec config logsOf state)
    (taken : step codec config ingestor logsOf state event = some next)
    : CursorSafe codec config logsOf next ↔ state.findsNothing event = true := by
  have kept : ∀ deposit, state.recorded deposit = true → next.recorded deposit = true :=
    fun _ known => recorded_of_step scans.keyed taken known
  rcases passed_of_step scans taken with ⟨other, passed⟩
    | ⟨rfl, addr, cursor, block, deposits, rest, phase, rfl, passed⟩
  · have still : CursorSafe codec config logsOf next := fun address deposit behind =>
      kept deposit (safe address deposit (passed address deposit behind))
    have silent : state.findsNothing event = true := by
      cases event with
      | writeCursor => exact absurd rfl other
      | _ => rfl
    simp [still, silent]
  · simp only [findsNothing, phase, List.all_eq_true]
    constructor
    · intro behind deposit member
      exact behind addr.address deposit ((passed addr.address deposit).mpr (.inr ⟨rfl, member⟩))
    · intro nothing address deposit behind
      rcases (passed address deposit).mp behind with before | ⟨-, member⟩
      · exact safe address deposit before
      · exact nothing deposit member

/-- An ingestion that throws was given a deposit that is rejected. -/
theorem rejected_of_thrown {store : IngestStore} {deposit : ChainDeposit} {now : Int}
    {err : AppError} (keyed : store.ledger.Keyed)
    (thrown : DepositIngestor.ingestConfirmed ingestor now store deposit = .error err)
    : DepositIngestor.rejected ingestor store.pool deposit = true := by
  by_contra goes
  have kept : DepositIngestor.rejected ingestor store.pool deposit = false := by simpa using goes
  cases owns : DepositIngestor.ownerOf ingestor store.pool deposit with
  | none =>
      cases (DepositIngestor.ingestConfirmed_of_unmatched now owns).symm.trans thrown
  | some owner =>
      obtain ⟨entry, built⟩ := Option.isSome_iff_exists.mp
        (DepositIngestor.entryFor_isSome_of_owned (by simp [owns]) kept)
      obtain ⟨after, blocked, -, done, -⟩ :=
        DepositIngestor.ingestConfirmed_of_entryFor now keyed built
      cases done.symm.trans thrown

/-- An await outside the loop over the deposits leaves what is pending as it is. -/
theorem pending_of_step (taken : step codec config ingestor logsOf state event = some next)
    (outside : event ≠ .writeCursor ∧ event ≠ .interrupt ∧ ∀ now, event ≠ .ingest now)
    : state.phase.pending = [] ∨ next.phase = state.phase := by
  cases event with
  | writeCursor => exact absurd rfl outside.1
  | interrupt => exact absurd rfl outside.2.1
  | ingest now => exact absurd rfl (outside.2.2 now)
  | pool rows =>
      cases taken
      exact .inr rfl
  | post entry =>
      simp only [step] at taken
      repeat' split at taken
      all_goals cases taken <;> exact .inr rfl
  | _ =>
      refine .inl ?_
      cases phase : state.phase with
      | ingesting addr deposits rest => simp [step, phase] at taken
      | _ => rfl

/-- A step that loses nothing leaves every deposit behind a cursor recorded or pending. -/
theorem cursorCovered_step (scans : Scans codec config logsOf state)
    (covered : CursorCovered codec config logsOf state)
    (careful : state.losesNothing ingestor event = true)
    (taken : step codec config ingestor logsOf state event = some next)
    : CursorCovered codec config logsOf next := by
  have kept : ∀ deposit, state.recorded deposit = true → next.recorded deposit = true :=
    fun _ known => recorded_of_step scans.keyed taken known
  rcases passed_of_step scans taken with ⟨other, passed⟩
    | ⟨rfl, addr, cursor, block, deposits, rest, phase, rfl, passed⟩
  · intro address deposit behind
    rcases covered address deposit (passed address deposit behind) with known | pending
    · exact .inl (kept deposit known)
    · cases event with
      | writeCursor => exact absurd rfl other
      | interrupt =>
          exact .inl (kept deposit (List.all_eq_true.mp careful deposit pending))
      | ingest now =>
          cases phase : state.phase with
          | ingesting addr deposits rest =>
              rw [phase] at pending
              cases deposits with
              | nil => cases pending
              | cons head later =>
                  simp only [step, phase] at taken
                  simp only [losesNothing, phase] at careful
                  split at taken
                  case h_1 err thrown =>
                    rw [rejected_of_thrown scans.keyed thrown, if_pos rfl] at careful
                    exact .inl (kept deposit (List.all_eq_true.mp careful deposit pending))
                  case h_2 store result done =>
                    cases taken
                    rcases List.mem_cons.mp pending with rfl | waiting
                    · refine .inl ?_
                      cases rejects : DepositIngestor.rejected ingestor state.store.pool deposit with
                      | true =>
                          obtain ⟨err, thrown⟩ :=
                            DepositIngestor.ingestConfirmed_of_rejected now rejects
                          cases thrown.symm.trans done
                      | false =>
                          rw [rejects, if_neg Bool.false_ne_true, Bool.or_eq_true] at careful
                          rcases careful with owned | known
                          · have posted := (ingestConfirmed_refs scans.keyed done).2.2 owned
                            simp only [recorded, Bool.or_eq_true, decide_eq_true_eq]
                            exact .inr posted
                          · exact kept deposit known
                    · exact .inr waiting
          | _ =>
              rw [phase] at pending
              cases pending
      | _ =>
          rcases pending_of_step taken ⟨by simp, by simp, by simp⟩ with none | same
          · rw [none] at pending
            cases pending
          · exact .inr (same ▸ pending)
  · intro address deposit behind
    rcases (passed address deposit).mp behind with before | ⟨-, member⟩
    · rcases covered address deposit before with known | pending
      · exact .inl (kept deposit known)
      · rw [phase] at pending
        cases pending
    · exact .inr member

end Steps

/-- The awaits of a run fit together, whatever the run is allowed to do. -/
theorem scans_reached {codec : EvmCodec} {config : EvmAdapterConfig} {ingestor : IngestorConfig}
    {logsOf : Nat → List EvmLog} {store : IngestStore} {state : EvmWatcher}
    {guard : EvmWatcher → EvmEvent → Prop} (keyed : store.ledger.Keyed)
    (reached : Reaches (step codec config ingestor logsOf) guard (initial store) state)
    : Scans codec config logsOf state :=
  reached.invariant (scans_initial keyed) fun scans _ taken => scans.step taken

/-- A cursor is never behind a deposit that is not recorded in the runs whose writes of a
cursor find nothing new, and in no others: a step from a state that is safe leads to one
exactly where it finds nothing new. In a run that gives up no deposit that its source returned,
a deposit behind a cursor is recorded or still to be ingested by the loop in progress.
-/
theorem cursor_behind_recorded (codec : EvmCodec) (config : EvmAdapterConfig)
    (ingestor : IngestorConfig) (logsOf : Nat → List EvmLog) (store : IngestStore)
    (keyed : store.ledger.Keyed)
    : (∀ state,
        Reaches (step codec config ingestor logsOf)
          (fun state event => state.findsNothing event = true) (initial store) state
        → CursorSafe codec config logsOf state)
      ∧ (∀ state event next,
          Reaches (step codec config ingestor logsOf) (fun _ _ => True) (initial store) state
          → CursorSafe codec config logsOf state
          → step codec config ingestor logsOf state event = some next
          → (CursorSafe codec config logsOf next ↔ state.findsNothing event = true))
      ∧ ∀ state,
          Reaches (step codec config ingestor logsOf)
            (fun state event => state.losesNothing ingestor event = true) (initial store) state
          → CursorCovered codec config logsOf state := by
  have nowhere : ∀ address deposit,
      ¬ Passed codec config logsOf (initial store) address deposit := by
    rintro address deposit ⟨first, cursor, block, log, started, -⟩
    cases started
  refine ⟨?_, ?_, ?_⟩
  · intro state reached
    refine reached.invariant_with (fun run => scans_reached keyed run)
      (fun address deposit passed => absurd passed (nowhere address deposit)) ?_
    intro state event next scans safe nothing taken
    exact (cursorSafe_step_iff scans safe taken).mpr nothing
  · intro state event next reached safe taken
    exact cursorSafe_step_iff (scans_reached keyed reached) safe taken
  · intro state reached
    refine reached.invariant_with (fun run => scans_reached keyed run)
      (fun address deposit passed => absurd passed (nowhere address deposit)) ?_
    intro state event next scans covered careful taken
    exact cursorCovered_step scans covered careful taken

-----------------------------------------------------------------------------
-- A worker that stops behind the write of a cursor

/-- The value of a hexadecimal text behind its prefix. -/
def hexValue (text : String) : Nat :=
  (EvmAdapter.withoutHexPrefix text).toList.foldl
    (fun value digit =>
      16 * value
        + if digit.isDigit then digit.toNat - '0'.toNat else digit.toNat - 'a'.toNat + 10)
    0

/-- What the codec does on small letters and on addresses without letters. -/
def sampleCodec : EvmCodec :=
  { toLowerCase := fun text => String.ofList (text.toList.map Char.toLower)
    bigInt := fun hex => .ok (hexValue hex), number := id, toChecksumAddress := .ok
    transferEventTopic := "0xddf252ad1be2c89b69c2b068fc378daa952ba7f163c4a11628f55a4df523b3ef" }

def sampleAddress : String := "0x1111111111111111111111111111111111111111"

def sampleContract : String := "0x2222222222222222222222222222222222222222"

def sampleChain : EvmAdapterConfig :=
  { chain := "BASE", confirmations := 2, tokenContracts := [("USDC", sampleContract)]
    initialLookbackBlocks := 5000 }

/-- A transfer of 1000 to the merchant's address. -/
def sampleLog : EvmLog :=
  { address := sampleContract
    topics :=
      [ sampleCodec.transferEventTopic,
        "0x0000000000000000000000003333333333333333333333333333333333333333",
        "0x0000000000000000000000001111111111111111111111111111111111111111" ]
    data := "0x3e8", blockNumber := "0x5", transactionHash := "0xaa", logIndex := "0x0" }

def sampleLogs (block : Nat) : List EvmLog := if block = 5 then [sampleLog] else []

def sampleEvmStore : IngestStore :=
  { pool :=
      [ { tenant := sampleTenant, merchant := sampleMerchant, chain := "BASE"
          derivationIndex := 0, address := sampleAddress, state := .reserved
          cooldownUntil := none, gatherStrategy := .eoaFundTransfer } ]
    ledger := .empty }

/-- What the source makes of the transfer. -/
def sampleDeposit : ChainDeposit :=
  { chain := "BASE", txId := "0xaa", index := 0, to_ := sampleAddress
    from_ := "0x3333333333333333333333333333333333333333", asset := "USDC"
    tokenContract := some sampleContract, amountBaseUnits := 1000, blockNumber := some 5 }

/-- The awaits of a poll up to the write of the cursor. -/
def sampleScan : List EvmEvent := [.poll, .readCursor, .head 10, .head 10, .logs, .writeCursor]

/-- A worker that stops behind the write of a cursor leaves a payment behind it. -/
theorem payment_behind_cursor_lost
    : ¬ ∀ (codec : EvmCodec) (config : EvmAdapterConfig) (ingestor : IngestorConfig)
          (logsOf : Nat → List EvmLog) (store : IngestStore) (state : EvmWatcher),
        store.ledger.Keyed
        → Reaches (step codec config ingestor logsOf) (fun _ _ => True) (initial store) state
        → CursorSafe codec config logsOf state := by
  intro safe
  have run : ∃ state,
      Reaches (step sampleCodec sampleChain sampleIngestor sampleLogs) (fun _ _ => True)
          (initial sampleEvmStore) state
        ∧ state.firstScanned sampleAddress = some 0
        ∧ state.cursors sampleAddress = some 9
        ∧ state.phase.pending = []
        ∧ state.store.ledger.journal = [] :=
    Reaches.exists_of_exec (sampleScan ++ [.interrupt]) (by decide +kernel)
  obtain ⟨state, reached, started, cursor, -, journal⟩ := run
  have read : EvmAdapter.parseLog sampleCodec sampleChain sampleLog
      = .ok (some sampleDeposit) := by
    rfl
  have known := safe sampleCodec sampleChain sampleIngestor sampleLogs sampleEvmStore state
    SqlLedger.keyed_empty reached sampleAddress sampleDeposit
    ⟨0, 9, 5, sampleLog, started, cursor, by decide, by decide, by simp [sampleLogs],
      by decide +kernel, read⟩
  simp [recorded, journal, sampleDeposit] at known

/-- A poll that is not interrupted has the payment recorded when it is done. -/
theorem cursor_behind_recorded_uninterrupted
    : ∃ state,
        Reaches (step sampleCodec sampleChain sampleIngestor sampleLogs)
            (fun state event => state.losesNothing sampleIngestor event = true)
            (initial sampleEvmStore) state
          ∧ (state.cursors sampleAddress = some 9 ∧ state.phase.pending = [])
          ∧ CursorCovered sampleCodec sampleChain sampleLogs state := by
  have run : ∃ state,
      Reaches (step sampleCodec sampleChain sampleIngestor sampleLogs)
          (fun state event => state.losesNothing sampleIngestor event = true)
          (initial sampleEvmStore) state
        ∧ (state.cursors sampleAddress = some 9 ∧ state.phase.pending = []) :=
    Reaches.exists_of_exec (sampleScan ++ [.ingest 0, .ingest 0, .readCursor])
      (by decide +kernel)
  obtain ⟨state, reached, done⟩ := run
  exact ⟨state, reached, done,
    (cursor_behind_recorded sampleCodec sampleChain sampleIngestor sampleLogs sampleEvmStore
      SqlLedger.keyed_empty).2.2 state reached⟩

end EvmWatcher

end Cixtech.Evm
