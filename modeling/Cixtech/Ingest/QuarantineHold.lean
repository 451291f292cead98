import Cixtech.Attribution.PoolRuns
import Cixtech.Ingest.DepositIngestor

/-! The address of a quarantined deposit. It is held by marking it as in use, which works for a
reserved address and fails, unnoticed, for one that is already cooling: that one is freed at the
end of its cool-down and given to another invoice.
-/

namespace Cixtech.Ingest

open Cixtech.Attribution Cixtech.Common Cixtech.Foundation Cixtech.Ledger

namespace DepositIngestor

/-- What the lifecycle makes of one row, where addresses are distinct. -/
def advanceRow (config : IngestorConfig) (now : Int) (blocked : Bool) (deposit : ChainDeposit)
    (row : PoolAddressRow)
    : PoolAddressRow :=
  match config.cooldownMs with
  | none => row
  | some cooldownMs =>
      if row.at_ = (deposit.chain, deposit.to_) ∧ row.state = .reserved then
        if blocked then { row with state := .inUse }
        else { row with state := .cooling, cooldownUntil := some (now + cooldownMs) }
      else row

/-- The row of an address moved along an action from one state. -/
def movedRow (at_ : String × String) (action : PoolAction) (before : PoolState)
    (cooldownUntil : Option Int) (row : PoolAddressRow)
    : PoolAddressRow :=
  if row.at_ = at_ ∧ row.state = before then row.entering action.transition.2 cooldownUntil
  else row

theorem movedRow_at (at_ : String × String) (action : PoolAction) (before : PoolState)
    (cooldownUntil : Option Int) (row : PoolAddressRow)
    : (movedRow at_ action before cooldownUntil row).at_ = row.at_ := by
  unfold movedRow
  split <;> rfl

/-- An action that leaves one state moves the row of its address, or fails where it is in no such
state.
-/
theorem apply_eq_map {pool : List PoolAddressRow} (distinct : (pool.map (·.at_)).Nodup)
    (chain address : String) (action : PoolAction) {before : PoolState}
    (leaves : action.transition.1 = [before]) (cooldownUntil : Option Int)
    : (∃ row ∈ pool, row.at_ = (chain, address) ∧ row.state = before
        ∧ PoolManager.apply pool chain address action cooldownUntil
          = .ok (pool.map (movedRow (chain, address) action before cooldownUntil)))
      ∨ (∀ row ∈ pool, ¬ (row.at_ = (chain, address) ∧ row.state = before))
        ∧ ∃ err, PoolManager.apply pool chain address action cooldownUntil = .error err := by
  unfold PoolManager.apply
  cases found : PoolManager.findByAddress pool chain address with
  | none =>
      refine .inr ⟨fun row member own => ?_, _, rfl⟩
      have missed := List.find?_eq_none.mp found row member
      exact missed (by simpa using own.1)
  | some row =>
      have member := Table.lookup_mem found
      have own := Table.lookup_key found
      by_cases here : row.state = before
      · refine .inl ⟨row, member, own, here, ?_⟩
        simp only [nextPoolState, leaves, here, List.contains_cons, BEq.rfl, Bool.true_or, if_true,
          Table.update]
        refine congrArg Except.ok (List.map_congr_left fun other inPool => ?_)
        by_cases same : other.at_ = (chain, address)
        · have at_ := List.inj_on_of_nodup_map distinct inPool member (same.trans own.symm)
          simp [movedRow, at_, here]
        · simp [movedRow, same]
      · refine .inr ⟨fun other inPool both => ?_, invalidTransition row.state action, ?_⟩
        · have at_ := List.inj_on_of_nodup_map distinct inPool member (both.1.trans own.symm)
          exact here (at_ ▸ both.2)
        · have refused : ¬ ([before].contains row.state = true) := by
            simpa using here
          simp only [nextPoolState, leaves, if_neg refused]
          rfl

/-- What the lifecycle makes of the pool, row by row. -/
theorem advanceAddress_eq_map {pool : List PoolAddressRow} (distinct : (pool.map (·.at_)).Nodup)
    (config : IngestorConfig) (now : Int) (blocked : Bool) (deposit : ChainDeposit)
    : advanceAddress config now blocked deposit pool
      = pool.map (advanceRow config now blocked deposit) := by
  let at_ := (deposit.chain, deposit.to_)
  unfold advanceAddress
  cases lifecycle : config.cooldownMs with
  | none =>
      refine (List.map_id' pool).symm.trans (List.map_congr_left fun row _ => ?_)
      simp [advanceRow, lifecycle]
  | some cooldownMs =>
      rcases apply_eq_map distinct deposit.chain deposit.to_ .detect rfl none with
        ⟨row, member, own, reserved, marked⟩ | ⟨nobody, err, failed⟩
      · simp only [PoolManager.markInUse, marked]
        cases blocked with
        | true =>
            refine List.map_congr_left fun other _ => ?_
            simp only [advanceRow, lifecycle, if_true, movedRow]
            split <;> rfl
        | false =>
            -- The row just marked is in use, so that the second move finds it.
            let afterMark := movedRow at_ .detect .reserved none
            have inUse : afterMark row = row.entering .inUse none := if_pos ⟨own, reserved⟩
            have stillDistinct : ((pool.map afterMark).map (·.at_)).Nodup := by
              have same : (pool.map afterMark).map (·.at_) = pool.map (·.at_) := by
                rw [List.map_map]
                exact List.map_congr_left fun other _ => movedRow_at ..
              rwa [same]
            rcases apply_eq_map stillDistinct deposit.chain deposit.to_ .cool rfl
                (some (now + cooldownMs)) with ⟨_, -, -, -, cooled⟩ | ⟨nobody, -⟩
            · have moved : PoolManager.cool (pool.map afterMark) deposit.chain deposit.to_
                    (now + cooldownMs)
                  = .ok (pool.map (advanceRow config now false deposit)) := by
                rw [PoolManager.cool, cooled, List.map_map]
                refine congrArg Except.ok (List.map_congr_left fun other inPool => ?_)
                by_cases here : other.at_ = at_
                · rw [List.inj_on_of_nodup_map distinct inPool member (here.trans own.symm)]
                  have entered : (row.entering .inUse none).at_ = at_ := own
                  simp only [Function.comp_apply, inUse, advanceRow, lifecycle]
                  rw [movedRow, if_pos ⟨entered, rfl⟩, if_pos ⟨own, reserved⟩]
                  rfl
                · have missed : afterMark other = other := if_neg fun both => here both.1
                  simp only [Function.comp_apply, missed, advanceRow, lifecycle]
                  rw [movedRow, if_neg fun both => here both.1, if_neg fun both => here both.1]
              simp only [Bool.false_eq_true, if_false]
              rw [moved]
            · refine absurd ⟨?_, ?_⟩ (nobody (afterMark row) (List.mem_map_of_mem member))
              · rw [movedRow_at, own]
              · rw [inUse]
                rfl
      · simp only [PoolManager.markInUse, failed]
        refine (List.map_id' pool).symm.trans (List.map_congr_left fun row inPool => ?_)
        simp [advanceRow, lifecycle, nobody row inPool]

/-- What an ingestion that does not throw did: nothing to the pool, or it applied a new entry of a
positive amount and moved the address, of which the owner was found.
-/
theorem ingestConfirmed_cases {config : IngestorConfig} {now : Int} {store after : IngestStore}
    {deposit : ChainDeposit} {result : IngestResult}
    (done : ingestConfirmed config now store deposit = .ok (after, result))
    : (after.pool = store.pool ∧ result.status ≠ .quarantined)
      ∨ ∃ blocked,
          screened config deposit = .ok blocked
          ∧ 0 < deposit.amountBaseUnits
          ∧ store.ledger.hasKey deposit.ref = false
          ∧ (PoolManager.resolve store.pool deposit.chain deposit.to_).isSome
          ∧ after.pool = advanceAddress config now blocked deposit store.pool
          ∧ (result.status = .quarantined ↔ blocked = true) := by
  rcases ingestConfirmed_ok done with
    ⟨rfl, rfl⟩ | ⟨owner, blocked, entry, applied, owns, screens, built, appended, moved, rfl⟩
  · exact .inl ⟨rfl, by simp⟩
  · have owned : (PoolManager.resolve store.pool deposit.chain deposit.to_).isSome := by
      have some : (ownerOf config store.pool deposit).isSome := by simp [owns]
      simpa [ownerOf] using some
    cases applied with
    | false => exact .inl ⟨moved, by simp⟩
    | true =>
        have unused := (SqlLedger.append_applied appended).2.2
        rw [(entryOf_ref built).2] at unused
        exact .inr ⟨blocked, screens, entryOf_positive built, unused, owned, moved, by
          cases blocked <;> simp⟩

end DepositIngestor

-----------------------------------------------------------------------------
-- Deposits, releases and assignments in turn

/-- The address of a quarantined deposit with the invoice that it was assigned to. -/
structure HeldAddress where
  at_ : String × String
  invoiceId : Option String
  deriving DecidableEq

/-- The tables, and the addresses that have received a quarantined deposit. -/
structure HoldHistory where
  rows : List PoolRow
  ledger : SqlLedger
  held : List HeldAddress

inductive HoldEvent
  | ingestConfirmed (deposit : ChainDeposit) (now : Int)
  | releaseCooled (now : Int)
  | assign (request : AssignRequest) (around : Surroundings)

/-- The rows with what their views were changed to. -/
def withViews (rows : List PoolRow) (pool : List PoolAddressRow) : List PoolRow :=
  List.zipWith (fun row view => { row with toPoolAddressRow := view }) rows pool

/-- The address of a deposit, as it is held. -/
def heldBy (rows : List PoolRow) (deposit : ChainDeposit) : List HeldAddress :=
  (SqlPoolStore.findByAddress rows deposit.chain deposit.to_).toList.map fun row =>
    { at_ := row.at_, invoiceId := row.invoiceId }

namespace HoldHistory

def initial (rows : List PoolRow) (ledger : SqlLedger) : HoldHistory := { rows, ledger, held := [] }

/-- One call, which changes nothing where it throws. -/
def step (config : IngestorConfig) (engine : PoolEngine) (history : HoldHistory)
    : HoldEvent → Option HoldHistory
  | .ingestConfirmed deposit now =>
      match DepositIngestor.ingestConfirmed config now
          { pool := views history.rows, ledger := history.ledger } deposit with
      | .error _ => some history
      | .ok (after, result) =>
          some
            { rows := withViews history.rows after.pool, ledger := after.ledger
              held :=
                if result.status = .quarantined then
                  history.held ++ heldBy history.rows deposit
                else history.held }
  | .releaseCooled now =>
      some { history with rows := (SqlPoolStore.releaseCooled history.rows now).1 }
  | .assign request around =>
      match PoolManager.assign engine history.rows around request with
      | .error _ => some history
      | .ok (rows, _) => some { history with rows }

/-- Whether a call is a blocked deposit, of a positive amount and a new reference, to an address
that is cooling.
-/
def blockedWhileCooling (config : IngestorConfig) (history : HoldHistory) : HoldEvent → Bool
  | .ingestConfirmed deposit _ =>
      decide (DepositIngestor.screened config deposit = .ok true)
        && decide (0 < deposit.amountBaseUnits) && !history.ledger.hasKey deposit.ref
        && history.rows.any fun row =>
            row.at_ = (deposit.chain, deposit.to_) && row.state = .cooling
  | _ => false

/-- An address that is held: in use, or reserved for good where no lifecycle moves it. -/
def Holds (config : IngestorConfig) (rows : List PoolRow) (held : HeldAddress) : Prop :=
  ∃ row ∈ rows, row.at_ = held.at_ ∧ row.invoiceId = held.invoiceId
    ∧ (row.state = .inUse ∨ row.state = .reserved ∧ config.cooldownMs = none)

/-- What runs without a blocked deposit to a cooling address keep. -/
structure KeepsHeld (config : IngestorConfig) (engine : PoolEngine) (history : HoldHistory)
    : Prop where
  table : PoolTable engine.addressAt history.rows
  holds : ∀ held ∈ history.held, Holds config history.rows held

variable {config : IngestorConfig} {engine : PoolEngine} {history next : HoldHistory}

/-- An ingestion rewrites each row on its own. -/
theorem withViews_advanceAddress {rows : List PoolRow} (table : PoolTable engine.addressAt rows)
    (now : Int) (blocked : Bool) (deposit : ChainDeposit)
    : withViews rows (DepositIngestor.advanceAddress config now blocked deposit (views rows))
      = rows.map fun row =>
          { row with
              toPoolAddressRow :=
                DepositIngestor.advanceRow config now blocked deposit row.toPoolAddressRow } := by
  have distinct : ((views rows).map (·.at_)).Nodup := by
    have same : (views rows).map (·.at_) = rows.map (·.at_) := by
      rw [views, List.map_map]
      rfl
    rw [same]
    exact table.addresses
  rw [DepositIngestor.advanceAddress_eq_map distinct, withViews, views, List.map_map,
    List.zipWith_map_right, List.zipWith_self]
  rfl

theorem withViews_views (rows : List PoolRow) : withViews rows (views rows) = rows := by
  rw [withViews, views, List.zipWith_map_right, List.zipWith_self]
  exact List.map_id' rows

/-- A row as an ingestion leaves it. -/
def advancedRow (config : IngestorConfig) (now : Int) (blocked : Bool) (deposit : ChainDeposit)
    (row : PoolRow)
    : PoolRow :=
  { row with
      toPoolAddressRow :=
        DepositIngestor.advanceRow config now blocked deposit row.toPoolAddressRow }

theorem advancedRow_keeps (config : IngestorConfig) (now : Int) (blocked : Bool)
    (deposit : ChainDeposit) (row : PoolRow)
    : (advancedRow config now blocked deposit row).minted = row.minted
      ∧ (advancedRow config now blocked deposit row).id = row.id
      ∧ (advancedRow config now blocked deposit row).invoiceId = row.invoiceId := by
  refine ⟨?_, rfl, rfl⟩
  unfold advancedRow DepositIngestor.advanceRow
  split
  · rfl
  · split
    · split <;> rfl
    · rfl

/-- An ingestion moves reserved rows only. -/
theorem advancedRow_eq {row : PoolRow} (now : Int) (blocked : Bool) (deposit : ChainDeposit)
    (unmoved : row.state = .reserved → config.cooldownMs = none)
    : advancedRow config now blocked deposit row = row := by
  unfold advancedRow DepositIngestor.advanceRow
  split
  · rfl
  case h_2 cooldownMs lifecycle =>
    have other : ¬ (row.at_ = (deposit.chain, deposit.to_) ∧ row.state = .reserved) := by
      rintro ⟨-, reserved⟩
      simp [unmoved reserved] at lifecycle
    rw [if_neg other]

theorem advancedRow_settled {row : PoolRow} (settled : row.Settled) (now : Int) (blocked : Bool)
    (deposit : ChainDeposit)
    : (advancedRow config now blocked deposit row).Settled := by
  by_cases reserved : row.state = .reserved
  · have invoiced : row.invoiceId ≠ none := by simpa [reserved] using settled.available
    have uncooled : row.cooldownUntil = none := by simpa [reserved] using settled.cooling
    unfold advancedRow DepositIngestor.advanceRow
    split
    · exact settled
    · split
      · split
        · exact ⟨by simp [invoiced], by simp [uncooled]⟩
        · exact ⟨by simp [invoiced], by simp⟩
      · exact settled
  · rw [advancedRow_eq now blocked deposit fun same => absurd same reserved]
    exact settled

theorem advancedRow_taken {row : PoolRow} (taken : row.state ≠ .available) (now : Int)
    (blocked : Bool) (deposit : ChainDeposit)
    : (advancedRow config now blocked deposit row).state ≠ .available := by
  unfold advancedRow DepositIngestor.advanceRow
  split
  · exact taken
  · split
    · split <;> simp
    · exact taken

/-- A blocked deposit holds an address that is neither available nor cooling. -/
theorem advancedRow_held {row : PoolRow} {deposit : ChainDeposit}
    (own : row.at_ = (deposit.chain, deposit.to_)) (busy : row.state ≠ .available)
    (warm : row.state ≠ .cooling) (now : Int)
    : (advancedRow config now true deposit row).state = .inUse
      ∨ (advancedRow config now true deposit row).state = .reserved
        ∧ config.cooldownMs = none := by
  cases state : row.state with
  | available => exact absurd state busy
  | cooling => exact absurd state warm
  | inUse =>
      rw [advancedRow_eq now true deposit fun reserved => by simp [state] at reserved]
      exact .inl state
  | reserved =>
      unfold advancedRow DepositIngestor.advanceRow
      split
      case h_1 lifecycle => exact .inr ⟨state, lifecycle⟩
      case h_2 =>
        rw [if_pos ⟨own, state⟩]
        exact .inl rfl

/-- An ingestion is a rewriting of rows, and frees none. -/
theorem advanced_effect (rows : List PoolRow) (now : Int) (blocked : Bool)
    (deposit : ChainDeposit)
    : StatementEffect engine.addressAt (fun _ => false) rows
        (rows.map (advancedRow config now blocked deposit)) := by
  refine .rewrites _ (fun row => ?_) (fun row _ settled => ?_) fun row _ taken _ => ?_
  · have keeps := advancedRow_keeps config now blocked deposit row
    exact ⟨keeps.1, keeps.2.1⟩
  · exact advancedRow_settled settled now blocked deposit
  · exact ⟨advancedRow_taken taken now blocked deposit, rfl⟩

/-- An assignment leaves the rows that are taken, and its effect is that of one statement. -/
theorem assign_keeps {rows later : List PoolRow} (table : PoolTable engine.addressAt rows)
    {around : Surroundings} {request : AssignRequest} {address : String}
    (assigned : PoolManager.assign engine rows around request = .ok (later, address))
    : StatementEffect engine.addressAt (fun _ => false) rows later
      ∧ ∀ row ∈ rows, row.state ≠ .available → row ∈ later := by
  have claim := SqlPoolStore.claimAvailable_effect table (fun _ => false) around.locked
    request.tenant request.merchant request.chain request.invoiceId
  have kept := SqlPoolStore.claimAvailable_keeps table around.locked request.tenant
    request.merchant request.chain request.invoiceId
  rcases PoolManager.assign_cases assigned with ⟨row, claimed, -⟩
    | ⟨before, gatherStrategy, minted, row, unclaimed, -, derived, stored, -⟩
  · rw [claimed] at claim kept
    exact ⟨claim, kept.1⟩
  · rw [unclaimed] at kept
    obtain rfl : before = rows := kept.2 rfl
    obtain ⟨effect, same⟩ := SqlPoolStore.insertReserved_effect derived stored fun _ => false
    obtain ⟨rfl, -⟩ := Prod.mk.inj same
    exact ⟨effect, fun row member _ => List.mem_append_left _ member⟩

/-- A step keeps what is held where no blocked deposit meets a cooling address. -/
theorem KeepsHeld.step {event : HoldEvent} (keeps : KeepsHeld config engine history)
    (safe : history.blockedWhileCooling config event = false)
    (taken : history.step config engine event = some next)
    : KeepsHeld config engine next := by
  obtain ⟨table, holds⟩ := keeps
  cases event with
  | releaseCooled now =>
      cases taken
      refine ⟨table.effect (SqlPoolStore.releaseCooled_effect now), fun held member => ?_⟩
      obtain ⟨row, inRows, ofAddress, invoice, state⟩ := holds held member
      have warm : row.cooled now = false := by
        rcases state with inUse | ⟨reserved, -⟩ <;> simp [PoolRow.cooled, *]
      refine ⟨row, List.mem_map.mpr ⟨row, inRows, ?_⟩, ofAddress, invoice, state⟩
      rw [warm]
      rfl
  | assign request around =>
      simp only [HoldHistory.step] at taken
      split at taken
      · cases taken
        exact ⟨table, holds⟩
      case h_2 later address assigned =>
        cases taken
        obtain ⟨effect, kept⟩ := assign_keeps table assigned
        refine ⟨table.effect effect, fun held member => ?_⟩
        obtain ⟨row, inRows, ofAddress, invoice, state⟩ := holds held member
        have busy : row.state ≠ .available := by
          rcases state with inUse | ⟨reserved, -⟩ <;> simp [*]
        exact ⟨row, kept row inRows busy, ofAddress, invoice, state⟩
  | ingestConfirmed deposit now =>
      simp only [HoldHistory.step] at taken
      split at taken
      · cases taken
        exact ⟨table, holds⟩
      case h_2 after result done =>
        cases taken
        rcases DepositIngestor.ingestConfirmed_cases done with ⟨same, other⟩
          | ⟨blocked, screens, positive, unused, owned, moved, quarantined⟩
        · simp only [same, withViews_views, if_neg other]
          exact ⟨table, holds⟩
        · have rewritten : withViews history.rows after.pool
              = history.rows.map (advancedRow config now blocked deposit) := by
            rw [moved]
            exact withViews_advanceAddress table now blocked deposit
          simp only [rewritten]
          refine ⟨table.effect (advanced_effect history.rows now blocked deposit), ?_⟩
          intro held member
          have before : held ∈ history.held
              ∨ blocked = true ∧ held ∈ heldBy history.rows deposit := by
            split at member
            case isTrue put =>
              rcases List.mem_append.mp member with old | new
              · exact .inl old
              · exact .inr ⟨quarantined.mp put, new⟩
            case isFalse => exact .inl member
          rcases before with old | ⟨rfl, new⟩
          · obtain ⟨row, inRows, ofAddress, invoice, state⟩ := holds held old
            have unmoved : advancedRow config now blocked deposit row = row := by
              refine advancedRow_eq now blocked deposit fun reserved => ?_
              rcases state with inUse | ⟨-, lifecycle⟩
              · rw [reserved] at inUse
                cases inUse
              · exact lifecycle
            exact ⟨row, List.mem_map.mpr ⟨row, inRows, unmoved⟩, ofAddress, invoice, state⟩
          · -- The guard says that the address is not cooling, and its owner that it is taken.
            obtain ⟨row, found, rfl⟩ := List.mem_map.mp new
            have lookedUp : SqlPoolStore.findByAddress history.rows deposit.chain deposit.to_
                = some row := by
              simpa using found
            obtain ⟨inRows, ofChain, ofAddress⟩ := SqlPoolStore.findByAddress_found lookedUp
            have own : row.at_ = (deposit.chain, deposit.to_) := by
              rw [PoolAddressRow.at_, ofChain, ofAddress]
            have busy : row.state ≠ .available := by
              intro free
              simp [PoolManager.resolve, findByAddress_views, lookedUp, free] at owned
            have warm : row.state ≠ .cooling := by
              intro cooling
              simp only [blockedWhileCooling, screens, positive, unused, decide_true,
                Bool.not_false, Bool.true_and, List.any_eq_false] at safe
              exact safe row inRows (by simp [own, cooling])
            obtain ⟨minted, -, invoice⟩ := advancedRow_keeps config now true deposit row
            exact ⟨_, List.mem_map_of_mem inRows, PoolTable.at_of_minted minted, invoice,
              advancedRow_held own busy warm now⟩

/-- An address that has received a quarantined deposit is never available again, nor assigned to
another invoice, in the runs in which no blocked deposit comes to an address that is cooling.
-/
theorem quarantined_address_held {rows : List PoolRow} {ledger : SqlLedger}
    (table : PoolTable engine.addressAt rows)
    (reached
      : Reaches (step config engine)
          (fun history event => history.blockedWhileCooling config event = false)
          (initial rows ledger) history)
    : ∀ held ∈ history.held,
        (∃ row ∈ history.rows, row.at_ = held.at_)
        ∧ ∀ row ∈ history.rows, row.at_ = held.at_
          → row.state ≠ .available ∧ row.invoiceId = held.invoiceId := by
  have start : KeepsHeld config engine (initial rows ledger) :=
    ⟨table, fun held member => by cases member⟩
  have keeps : KeepsHeld config engine history :=
    reached.invariant start fun keeps safe taken => keeps.step safe taken
  intro held member
  obtain ⟨row, inRows, ofAddress, invoice, state⟩ := keeps.holds held member
  refine ⟨⟨row, inRows, ofAddress⟩, fun other inTable same => ?_⟩
  rw [keeps.table.row_of_address inTable inRows (same.trans ofAddress.symm)]
  refine ⟨?_, invoice⟩
  rcases state with inUse | ⟨reserved, -⟩ <;> simp [*]

end HoldHistory

/-- An ingestor that screens one transaction out. -/
def screeningIngestor : IngestorConfig :=
  { casing := asciiCasing, feePolicy := fun _ _ => .integer 0
    screener := some fun deposit => .ok (deposit.txId == "bad"), cooldownMs := some 10 }

/-- A payment to the first address of the sample engine. -/
def paymentTo (txId : String) : ChainDeposit :=
  { chain := "TRON", txId, index := 0, to_ := "", from_ := "TSender", asset := "USDT"
    tokenContract := none, amountBaseUnits := 1000, blockNumber := none }

/-- The address of a blocked deposit that came after a clear one is given to another invoice. -/
theorem quarantined_address_reassigned
    : ∃ history,
        Reaches (HoldHistory.step screeningIngestor sampleEngine) (fun _ _ => True)
          (HoldHistory.initial [] .empty) history
        ∧ ∃ held ∈ history.held, ∃ row ∈ history.rows,
            row.at_ = held.at_ ∧ held.invoiceId = some "i" ∧ row.invoiceId = some "j" :=
  Reaches.exists_of_exec
    [ .assign (sampleRequest sampleMerchant "i") (unlocked "first"),
      .ingestConfirmed (paymentTo "good") 0, .ingestConfirmed (paymentTo "bad") 1,
      .releaseCooled 20, .assign (sampleRequest sampleMerchant "j") (unlocked "second") ]
    (by decide +kernel)

/-- The address of a blocked deposit that came first is kept from another invoice. -/
theorem quarantined_address_held_first
    : ∃ history,
        Reaches (HoldHistory.step screeningIngestor sampleEngine)
          (fun history event => history.blockedWhileCooling screeningIngestor event = false)
          (HoldHistory.initial [] .empty) history
        ∧ (∃ held ∈ history.held, held.at_ = ("TRON", "") ∧ held.invoiceId = some "i")
        ∧ ∀ held ∈ history.held, ∀ row ∈ history.rows, row.at_ = held.at_
          → row.state ≠ .available ∧ row.invoiceId = held.invoiceId := by
  have run : ∃ history,
      Reaches (HoldHistory.step screeningIngestor sampleEngine)
        (fun history event => history.blockedWhileCooling screeningIngestor event = false)
        (HoldHistory.initial [] .empty) history
      ∧ ∃ held ∈ history.held, held.at_ = ("TRON", "") ∧ held.invoiceId = some "i" :=
    Reaches.exists_of_exec
      [ .assign (sampleRequest sampleMerchant "i") (unlocked "first"),
        .ingestConfirmed (paymentTo "bad") 0, .ingestConfirmed (paymentTo "good") 1,
        .releaseCooled 20, .assign (sampleRequest sampleMerchant "j") (unlocked "second") ]
      (by decide +kernel)
  obtain ⟨history, reached, holds⟩ := run
  exact ⟨history, reached, holds, fun held member =>
    (HoldHistory.quarantined_address_held PoolTable.empty reached held member).2⟩

end Cixtech.Ingest
