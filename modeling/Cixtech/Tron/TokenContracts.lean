import Cixtech.Ingest.ReorgHistory
import Cixtech.Tron.TronAdapter

/-! Which tokens the deposits of TRON are credited as. A row names its own symbol, and
nothing between the response and the ledger compares its contract with the one that is
configured for that symbol.
-/

namespace Cixtech.Ingest.DepositIngestor

open Cixtech.Common Cixtech.Ledger

/-- A credited deposit has an entry, and the entry is the last of the journal. -/
theorem credited_entry {config : IngestorConfig} {now : Int} {store after : IngestStore}
    {deposit : ChainDeposit} {ref : String}
    (credited : ingestConfirmed config now store deposit
      = .ok (after, { status := .credited, ref }))
    : ∃ owner entry,
        ownerOf config store.pool deposit = some owner
        ∧ entryOf config.casing owner false deposit = some entry
        ∧ after.ledger.journal = store.ledger.journal ++ [entry] := by
  rcases ingestConfirmed_ok credited with
    ⟨-, same⟩ | ⟨owner, blocked, entry, applied, owns, -, built, appended, -, same⟩
  · cases same
  · have status := (IngestResult.mk.inj same).1
    cases applied with
    | false => cases status
    | true =>
        cases blocked with
        | true => cases status
        | false => exact ⟨owner, entry, owns, built, (SqlLedger.append_applied appended).1⟩

end Cixtech.Ingest.DepositIngestor

namespace Cixtech.Tron

open Cixtech.Attribution Cixtech.Common Cixtech.Ingest Cixtech.Ledger

/-- The contract that is configured for each symbol. -/
abbrev TokenContracts := String → Option String

/-- Every deposit of a response, confirmed by whatever the node answers and credited by
whatever ingestor and tables, is credited under assets whose configured contract is the one
it came from.
-/
def CreditsConfigured (casing : Casing) (tokenContracts : TokenContracts) (raw : Json) : Prop :=
  ∀ (node : TronNode) (config : IngestorConfig) (now : Int) (store after : IngestStore)
      (deposits : List ChainDeposit) (deposit : ChainDeposit) (ref : String)
      (entries : List JournalEntry),
    node.response = .ok raw
    → config.casing = casing
    → TronAdapter.confirmedInboundTrc20 casing node = .ok deposits
    → deposit ∈ deposits
    → DepositIngestor.ingestConfirmed config now store deposit
      = .ok (after, { status := .credited, ref })
    → after.ledger.journal = store.ledger.journal ++ entries
    → ∀ entry ∈ entries, ∀ posting ∈ entry.postings,
        tokenContracts posting.asset = deposit.tokenContract

/-- The rows of a response that move anything name the contract configured for the symbol
they name.
-/
def NamesConfigured (casing : Casing) (tokenContracts : TokenContracts) (raw : Json) : Prop :=
  ∀ rows,
    raw.required "data" (Json.arrayOf Trc20Tx.parse) = some rows
    → ∀ tx ∈ rows,
        tx.type_ = "Transfer"
        → 0 < tx.amount
        → tokenContracts (casing.toUpperCase tx.tokenInfo.symbol) = some tx.tokenInfo.address

namespace TronAdapter

/-- A node that has every transaction of a response in a solidified block. -/
def solidNode (raw : Json) : TronNode :=
  { response := .ok raw, solidified := .ok (some 1), transactionBlock := fun _ _ => .ok (some 1)
    rejection := { code := .ledgerUnknownEntry, message := "", context := [] } }

theorem confirmed_solidNode (raw : Json) (position : Nat) (deposits : List ChainDeposit)
    : confirmed (solidNode raw) 1 position deposits
      = .ok (deposits.map fun deposit => { deposit with blockNumber := some 1 }) := by
  induction deposits generalizing position with
  | nil => rfl
  | cons deposit rest ih =>
      have tail := ih (position + 1)
      simp only [confirmed, solidNode] at tail ⊢
      simp [tail, bind, Except.bind, pure, Except.pure]

/-- The deposits that a fetch confirms come from transfer rows of the response. -/
theorem mem_confirmedInboundTrc20 {casing : Casing} {node : TronNode} {raw : Json}
    {deposits : List ChainDeposit} {deposit : ChainDeposit}
    (responds : node.response = .ok raw)
    (done : confirmedInboundTrc20 casing node = .ok deposits) (member : deposit ∈ deposits)
    : ∃ rows tx block,
        raw.required "data" (Json.arrayOf Trc20Tx.parse) = some rows
        ∧ tx ∈ rows
        ∧ tx.type_ = "Transfer"
        ∧ deposit
          = { chain := "TRON", txId := tx.transactionId, index := 0, to_ := tx.to_
              from_ := tx.from_, asset := casing.toUpperCase tx.tokenInfo.symbol
              tokenContract := some tx.tokenInfo.address, amountBaseUnits := tx.amount
              blockNumber := block } := by
  unfold confirmedInboundTrc20 fetchInboundTrc20 at done
  cases parsed : parseTrc20Response casing raw with
  | none =>
      simp only [responds, parsed, bind, Except.bind, throw, throwThe,
        MonadExceptOf.throw] at done
      cases done
  | some found =>
      simp only [responds, parsed, bind, Except.bind, pure, Except.pure] at done
      split at done
      · obtain rfl := Except.ok.inj done
        cases member
      · cases solid : node.solidified with
        | error err =>
            rw [solid] at done
            cases done
        | ok solidified =>
            rw [solid] at done
            obtain ⟨original, inFound, block, rfl⟩ := mem_confirmed done deposit member
            unfold parseTrc20Response at parsed
            obtain ⟨rows, read, filtered⟩ := Option.bind_eq_some_iff.mp parsed
            obtain rfl := Option.some.inj filtered
            obtain ⟨tx, inRows, built⟩ := List.mem_filterMap.mp inFound
            unfold toDeposit at built
            split at built
            · cases built
            case isFalse transfer =>
              obtain rfl := Option.some.inj built
              exact ⟨rows, tx, some block, read, inRows, not_not.mp transfer, rfl⟩

/-- Every transfer row of a response is confirmed by a node that has its transaction. -/
theorem confirmedInboundTrc20_solidNode {casing : Casing} {raw : Json} {rows : List Trc20Tx}
    {tx : Trc20Tx} {deposit : ChainDeposit}
    (read : raw.required "data" (Json.arrayOf Trc20Tx.parse) = some rows) (member : tx ∈ rows)
    (built : toDeposit casing tx = some deposit)
    : ∃ deposits,
        confirmedInboundTrc20 casing (solidNode raw) = .ok deposits
        ∧ { deposit with blockNumber := some 1 } ∈ deposits := by
  have parsed : parseTrc20Response casing raw = some (rows.filterMap (toDeposit casing)) := by
    simp [parseTrc20Response, read]
  have listed : deposit ∈ rows.filterMap (toDeposit casing) :=
    List.mem_filterMap.mpr ⟨tx, member, built⟩
  refine ⟨(rows.filterMap (toDeposit casing)).map
    fun deposit => { deposit with blockNumber := some 1 }, ?_, ?_⟩
  · have response : (solidNode raw).response = .ok raw := rfl
    have solidified : (solidNode raw).solidified = .ok (some 1) := rfl
    unfold confirmedInboundTrc20 fetchInboundTrc20
    simp only [response, parsed, bind, Except.bind, pure, Except.pure, solidified,
      List.ne_nil_of_mem listed, if_false, Option.getD_some]
    exact confirmed_solidNode raw 0 _
  · exact List.mem_map_of_mem listed

end TronAdapter

/-- The only address of a merchant, which received a transfer. -/
def receivingPool (address : String) : List PoolAddressRow :=
  [ { tenant := sampleTenant, merchant := sampleMerchant, chain := "TRON", derivationIndex := 0
      address, state := .reserved, cooldownUntil := none
      gatherStrategy := .eoaFundTransfer } ]

/-- An ingestor without a screener, a lifecycle or a fee. -/
def plainIngestor (casing : Casing) : IngestorConfig :=
  { casing, feePolicy := fun _ _ => .integer 0, screener := none, cooldownMs := none }

/-- The plain ingestor credits a positive transfer to the address that received it. -/
theorem plainIngestor_credits (casing : Casing) (deposit : ChainDeposit)
    (onTron : deposit.chain = "TRON") (positive : 0 < deposit.amountBaseUnits)
    : ∃ after,
        DepositIngestor.ingestConfirmed (plainIngestor casing) 0
            { pool := receivingPool deposit.to_, ledger := .empty } deposit
          = .ok (after, { status := .credited, ref := deposit.ref }) := by
  let owner : AttributionEntry :=
    { tenant := sampleTenant, merchant := sampleMerchant, feeBasisPoints := .integer 0 }
  have owns : DepositIngestor.ownerOf (plainIngestor casing) (receivingPool deposit.to_) deposit
      = some owner := by
    simp [DepositIngestor.ownerOf, PoolManager.resolve, PoolManager.findByAddress,
      Foundation.Table.lookup, receivingPool, PoolAddressRow.at_, onTron, plainIngestor, owner]
  have divides : splitFee deposit.amountBaseUnits owner.feeBasisPoints
      = .ok { fee := 0, net := deposit.amountBaseUnits } := by
    rw [splitFee_eq_ok_iff]
    exact ⟨positive, 0, rfl, by omega, by omega, by simp⟩
  have built : DepositIngestor.entryFor (plainIngestor casing) (receivingPool deposit.to_) deposit
      = some
          (finalizedEntry (DepositIngestor.creditInput casing owner deposit)
            { fee := 0, net := deposit.amountBaseUnits }) := by
    rw [DepositIngestor.entryFor, owns]
    simp [DepositIngestor.screened, DepositIngestor.entryOf, plainIngestor, divides]
  let store : IngestStore := { pool := receivingPool deposit.to_, ledger := .empty }
  have fresh : store.ledger.Keyed := SqlLedger.keyed_empty
  obtain ⟨after, blocked, screens, done, -⟩ :=
    DepositIngestor.ingestConfirmed_of_entryFor 0 fresh built
  cases screens
  exact ⟨after, done⟩

/-- The deposits of a response are credited under assets whose configured contract they came
from, exactly where its rows name the contract configured for the symbol they name.
-/
theorem creditsConfigured_iff (casing : Casing) (tokenContracts : TokenContracts) (raw : Json)
    : CreditsConfigured casing tokenContracts raw
      ↔ NamesConfigured casing tokenContracts raw := by
  constructor
  · intro credits rows read tx member transfer positive
    have built : ∃ deposit, toDeposit casing tx = some deposit
        ∧ deposit.chain = "TRON"
        ∧ deposit.asset = casing.toUpperCase tx.tokenInfo.symbol
        ∧ deposit.tokenContract = some tx.tokenInfo.address
        ∧ deposit.amountBaseUnits = tx.amount := by
      simp [toDeposit, transfer]
    obtain ⟨deposit, built, onTron, asset, contract, amount⟩ := built
    obtain ⟨deposits, fetched, listed⟩ :=
      TronAdapter.confirmedInboundTrc20_solidNode read member built
    have moves : 0 < deposit.amountBaseUnits := by omega
    obtain ⟨after, credited⟩ := plainIngestor_credits casing
      { deposit with blockNumber := some 1 } onTron moves
    obtain ⟨owner, entry, -, made, journal⟩ := DepositIngestor.credited_entry credited
    obtain ⟨posting, inEntry⟩ : ∃ posting, posting ∈ entry.postings :=
      List.exists_mem_of_ne_nil _ (DepositIngestor.entryOf_balanced made).nonempty
    have sent := credits (TronAdapter.solidNode raw) (plainIngestor casing) 0 _ after deposits _ _
      [entry] rfl rfl fetched listed credited journal entry (by simp) posting inEntry
    rw [DepositIngestor.entryOf_single made posting inEntry] at sent
    simp only [plainIngestor, asset, casing.toUpperCase_idem, contract] at sent
    exact sent
  · intro named node config now store after deposits deposit ref entries responds sameCasing
      fetched member credited journal entry inEntries posting inEntry
    obtain ⟨rows, tx, block, read, inRows, transfer, rfl⟩ :=
      TronAdapter.mem_confirmedInboundTrc20 responds fetched member
    obtain ⟨owner, made, -, built, appended⟩ := DepositIngestor.credited_entry credited
    obtain rfl : entries = [made] := List.append_cancel_left (journal.symm.trans appended)
    obtain rfl := List.mem_singleton.mp inEntries
    have positive : (0 : Int) < tx.amount := (DepositIngestor.entryOf_pool built).2
    rw [DepositIngestor.entryOf_single built posting inEntry, sameCasing,
      casing.toUpperCase_idem]
    exact named rows read tx inRows transfer (by omega)

-----------------------------------------------------------------------------
-- A token that calls itself USDT

/-- The response for an address that was sent a token of the sender's own making. -/
def counterfeitResponse : Json :=
  .object
    [ ( "data",
        .array
          [ .object
              [ ("transaction_id", .text "aa"), ("from", .text "TSender"), ("to", .text "TPool"),
                ("type", .text "Transfer"), ("value", .text "1000"),
                ( "token_info",
                  .object
                    [ ("symbol", .text "usdt"), ("address", .text "TCounterfeit"),
                      ("decimals", .number (.integer 6)) ] ) ] ] ) ]

/-- The counterfeit is credited as USDT. -/
theorem counterfeit_credited
    : ¬ ∀ (casing : Casing) (tokenContracts : TokenContracts) (raw : Json),
        CreditsConfigured casing tokenContracts raw := by
  intro credits
  let counterfeit : ChainDeposit :=
    { chain := "TRON", txId := "aa", index := 0, to_ := "TPool", from_ := "TSender"
      asset := "USDT", tokenContract := some "TCounterfeit", amountBaseUnits := 1000
      blockNumber := some 1 }
  have fetched : TronAdapter.confirmedInboundTrc20 asciiCasing
      (TronAdapter.solidNode counterfeitResponse) = .ok [counterfeit] := by
    rfl
  obtain ⟨after, credited⟩ := plainIngestor_credits asciiCasing counterfeit rfl (by decide)
  obtain ⟨owner, entry, -, made, journal⟩ := DepositIngestor.credited_entry credited
  obtain ⟨posting, inEntry⟩ : ∃ posting, posting ∈ entry.postings :=
    List.exists_mem_of_ne_nil _ (DepositIngestor.entryOf_balanced made).nonempty
  have sent := credits asciiCasing (fun symbol => if symbol = "USDT" then some "TUsdt" else none)
    counterfeitResponse (TronAdapter.solidNode counterfeitResponse) (plainIngestor asciiCasing)
    0 _ after [counterfeit] counterfeit _ [entry] rfl rfl fetched (by simp) credited journal entry
    (by simp) posting inEntry
  rw [DepositIngestor.entryOf_single made posting inEntry] at sent
  revert sent
  decide +kernel

end Cixtech.Tron
