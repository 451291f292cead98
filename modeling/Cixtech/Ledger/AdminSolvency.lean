import Cixtech.Foundation.DefaultMap
import Cixtech.Ledger.Conservation
import Cixtech.Ledger.RepeatedAppends
import Mathlib.Data.List.Sort

/-! The solvency that the console shows. It adds up the balance rows by asset, each read on
the normal side of its account, where the ledger service folds the postings by type; both
come to the same totals as long as the balances are the sums of the postings.
-/

namespace Cixtech.Ledger

open Cixtech.Common Cixtech.Foundation

/-- What `AdminService.solvency` answers for one asset. -/
structure AssetPosition where
  asset : String
  assets : String
  liabilities : String
  solvent : Bool
  deriving DecidableEq, Repr

namespace AdminService

/-- `{ assets, liabilities }`. -/
structure Slot where
  assets : Int
  liabilities : Int
  deriving DecidableEq, Repr

def Slot.zero : Slot := { assets := 0, liabilities := 0 }

/-- What a row of an account of the type adds to the slot of its asset. -/
def Slot.add (slot : Slot) (magnitude : Int) : AccountType → Slot
  | .asset => { slot with assets := slot.assets + magnitude }
  | .liability => { slot with liabilities := slot.liabilities + magnitude }
  | .revenue => slot
  | .expense => slot

/-- One turn of the loop over the balance rows. -/
def addRow (byAsset : List (String × Slot)) (row : NetRow)
    : Except AppError (List (String × Slot)) := do
  let type ← accountTypeOf row.1.1
  let magnitude ← normalBalance row.1.1 row.2
  return DefaultMap.modify Slot.zero byAsset row.1.2 fun slot => slot.add magnitude type

def position (entry : String × Slot) : AssetPosition :=
  { asset := entry.1, assets := toString entry.2.assets
    liabilities := toString entry.2.liabilities
    solvent := entry.2.assets ≥ entry.2.liabilities }

/-- The rows of `adminBalances.all` added up by asset, in the order of the assets. -/
def solvency (localeCompare : String → String → Int) (rows : List NetRow)
    : Except AppError (List AssetPosition) := do
  let byAsset ← rows.foldlM addRow []
  return (byAsset.map position).insertionSort fun left right =>
    localeCompare left.asset right.asset ≤ 0

/-- What the rows of the accounts of a type hold in an asset, signed. -/
def heldBy (type : AccountType) (asset : String) (rows : List NetRow) : Int :=
  Accumulator.sumWhere (fun key => hasType type key.1 && decide (key.2 = asset)) rows

/-- Over rows of known accounts the loop succeeds, with a slot for each asset that has a row
and in it the sums of the two types, by induction on the rows.
-/
theorem foldlM_addRow {rows : List NetRow} (known : ∀ row ∈ rows, knownAccount row.1.1 = true)
    {start : List (String × Slot)} (distinct : (start.map Prod.fst).Nodup)
    : ∃ byAsset : List (String × Slot),
        rows.foldlM addRow start = .ok byAsset
        ∧ (byAsset.map Prod.fst).Nodup
        ∧ (∀ asset, asset ∈ byAsset.map Prod.fst
            ↔ asset ∈ start.map Prod.fst ∨ ∃ row ∈ rows, row.1.2 = asset)
        ∧ ∀ asset,
            (DefaultMap.get Slot.zero byAsset asset).assets
              = (DefaultMap.get Slot.zero start asset).assets + heldBy .asset asset rows
            ∧ (DefaultMap.get Slot.zero byAsset asset).liabilities
              = (DefaultMap.get Slot.zero start asset).liabilities
                - heldBy .liability asset rows := by
  induction rows generalizing start with
  | nil => exact ⟨start, rfl, distinct, by simp, by simp [heldBy]⟩
  | cons row rest ih =>
      obtain ⟨⟨account, own⟩, amount⟩ := row
      obtain ⟨kind, typed⟩ := exists_type_of_known (known _ List.mem_cons_self)
      have opened : ∀ key (change : Slot → Slot),
          ((DefaultMap.modify Slot.zero start key change).map Prod.fst).Nodup :=
        fun key change => DefaultMap.nodup_modify key change distinct
      obtain ⟨byAsset, done, apart, keys, sums⟩ :=
        ih (fun other member => known other (List.mem_cons_of_mem _ member))
          (opened own (fun slot => slot.add (normalSide kind amount) kind))
      refine ⟨byAsset, ?_, apart, ?_, ?_⟩
      · have turn : addRow start ((account, own), amount)
            = .ok (DefaultMap.modify Slot.zero start own fun slot =>
                slot.add (normalSide kind amount) kind) := by
          simp only [addRow, normalBalance, typed, bind, Except.bind, pure, Except.pure]
        simpa only [List.foldlM_cons, turn, bind, Except.bind] using done
      · intro asset
        rw [keys, DefaultMap.mem_keys_modify]
        simp only [List.mem_cons, exists_eq_or_imp, or_assoc, eq_comm]
      · intro asset
        obtain ⟨assets, liabilities⟩ := sums asset
        rw [assets, liabilities, DefaultMap.get_modify]
        simp only [heldBy, Accumulator.sumWhere_cons, hasType_of_eq typed]
        by_cases same : asset = own
        · subst same
          cases kind <;> simp [Slot.add, normalSide] <;> omega
        · have missed : ¬ own = asset := Ne.symm same
          simp [same, missed]

end AdminService

/-- The balance rows that the postings amount to: one for each account and asset. -/
def MemoryLedger.nets (ledger : MemoryLedger) : List NetRow :=
  Accumulator.tally (fun posting : Posting => (posting.account, posting.asset)) Posting.signed
    [] ledger.postings

theorem MemoryLedger.nodup_nets (ledger : MemoryLedger) : (ledger.nets.map Prod.fst).Nodup :=
  Accumulator.nodup_tally _ _ ledger.postings List.nodup_nil

/-- The row of an account and asset holds the balance there. -/
theorem MemoryLedger.valueAt_nets (ledger : MemoryLedger) (account asset : String)
    : Accumulator.valueAt ledger.nets (account, asset) = ledger.balance account asset := by
  rw [nets, Accumulator.valueAt_tally, balance_eq_net, SqlLedger.netOn, netWhere]
  simp only [decide_eq_true_eq]

/-- The totals of the postings, by what the rows of the balance table hold. -/
theorem sumForAsset_eq_heldBy {balances : List NetRow} {ledger : MemoryLedger}
    (primaryKey : (balances.map Prod.fst).Nodup)
    (materialised : ∀ account asset,
      Accumulator.valueAt balances (account, asset) = ledger.balance account asset)
    (known : KnownAccounts ledger.postings)
    : ∃ totals,
        ledger.totalsByType = .ok totals
        ∧ ∀ type asset,
            totals.sumForAsset type asset
            = normalSide type (AdminService.heldBy type asset balances) := by
  have rows : ∀ row ∈ ledger.postings.map Posting.row, knownAccount row.1.1 = true := by
    intro row member
    obtain ⟨posting, inPostings, rfl⟩ := List.mem_map.mp member
    exact known posting inPostings
  obtain ⟨totals, done, sums⟩ := TotalsByType.ofRows_spec rows
  refine ⟨totals, done, fun type asset => ?_⟩
  have same : ∀ key, Accumulator.valueAt balances key = Accumulator.valueAt ledger.nets key := by
    rintro ⟨account, asset⟩
    rw [materialised, ledger.valueAt_nets]
  rw [sums, sumWhere_rows, AdminService.heldBy,
    Accumulator.sumWhere_congr _ primaryKey ledger.nodup_nets same, MemoryLedger.nets,
    Accumulator.sumWhere_tally]
  simp [netWhere]

/-- The two parts of the console's answer in an asset are the totals of the ledger service. -/
theorem AdminService.solvency_eq {balances : List NetRow} (localeCompare : String → String → Int)
    (known : ∀ row ∈ balances, knownAccount row.1.1 = true)
    : ∃ positions,
        AdminService.solvency localeCompare balances = .ok positions
        ∧ (positions.map AssetPosition.asset).Nodup
        ∧ (∀ asset, asset ∈ positions.map AssetPosition.asset
            ↔ ∃ row ∈ balances, row.1.2 = asset)
        ∧ ∀ shown ∈ positions,
            shown
            = AdminService.position
                (shown.asset,
                  { assets := AdminService.heldBy .asset shown.asset balances
                    liabilities := -AdminService.heldBy .liability shown.asset balances }) := by
  have none : (([] : List (String × Slot)).map Prod.fst).Nodup := List.nodup_nil
  obtain ⟨byAsset, done, distinct, keys, sums⟩ := AdminService.foldlM_addRow known none
  have sorted := List.perm_insertionSort
    (fun left right : AssetPosition => localeCompare left.asset right.asset ≤ 0)
    (byAsset.map AdminService.position)
  have assets : (byAsset.map AdminService.position).map AssetPosition.asset
      = byAsset.map Prod.fst := by
    rw [List.map_map]
    rfl
  refine ⟨_, by simp [AdminService.solvency, done, bind, Except.bind, pure, Except.pure]; rfl,
    ?_, ?_, ?_⟩
  · rw [(sorted.map AssetPosition.asset).nodup_iff, assets]
    exact distinct
  · intro asset
    rw [(sorted.map AssetPosition.asset).mem_iff, assets, keys]
    simp
  · intro shown member
    obtain ⟨entry, stored, rfl⟩ := List.mem_map.mp (sorted.mem_iff.mp member)
    obtain ⟨asset, slot⟩ := entry
    have held : DefaultMap.get AdminService.Slot.zero byAsset asset = slot :=
      DefaultMap.get_of_mem distinct stored
    have empty : DefaultMap.get AdminService.Slot.zero [] asset = AdminService.Slot.zero := rfl
    obtain ⟨first, second⟩ := sums asset
    rw [held, empty] at first second
    have whole : slot
        = { assets := AdminService.heldBy .asset asset balances
            liabilities := -AdminService.heldBy .liability asset balances } := by
      obtain ⟨a, l⟩ := slot
      simp only [AdminService.Slot.zero, Int.zero_add, Int.zero_sub] at first second
      rw [first, second]
    rw [whole]
    rfl

/-- An asset that no row is in has no total on either side. -/
theorem AdminService.heldBy_of_absent {balances : List NetRow} {asset : String}
    (absent : ¬ ∃ row ∈ balances, row.1.2 = asset) (type : AccountType)
    : AdminService.heldBy type asset balances = 0 := by
  have none : ∀ row ∈ balances,
      (if hasType type row.1.1 && decide (row.1.2 = asset) then row.2 else 0) = 0 := by
    intro row member
    have other : row.1.2 ≠ asset := fun same => absent ⟨row, member, same⟩
    simp [other]
  exact List.sum_eq_zero fun value member => by
    obtain ⟨row, inRows, rfl⟩ := List.mem_map.mp member
    exact none row inRows

/-- Over known accounts whose materialised balances are the signed sums of the postings, the
console and the ledger service agree on every asset: they have the same totals of assets and
of liabilities, the console shows an asset as solvent exactly where `checkSolvency` does not
list it, and an asset that it does not show has no totals and is not listed.
-/
theorem admin_solvency_agrees (localeCompare : String → String → Int) {balances : List NetRow}
    {ledger : MemoryLedger} (primaryKey : (balances.map Prod.fst).Nodup)
    (materialised : ∀ account asset,
      Accumulator.valueAt balances (account, asset) = memoryStore.balance ledger account asset)
    (knownRows : ∀ row ∈ balances, knownAccount row.1.1 = true)
    (knownPostings : KnownAccounts ledger.postings)
    : ∃ positions totals,
        AdminService.solvency localeCompare balances = .ok positions
        ∧ memoryStore.totalsByType ledger = .ok totals
        ∧ (positions.map AssetPosition.asset).Nodup
        ∧ (∀ shown ∈ positions,
            shown.assets = toString (totals.sumForAsset .asset shown.asset)
            ∧ shown.liabilities = toString (totals.sumForAsset .liability shown.asset))
        ∧ (∀ asset ∉ positions.map AssetPosition.asset,
            totals.sumForAsset .asset asset = 0 ∧ totals.sumForAsset .liability asset = 0)
        ∧ ∀ asked : List String, ∃ drift,
            memoryStore.checkSolvency ledger asked = .ok drift
            ∧ (∀ shown ∈ positions, shown.asset ∈ asked
                → (shown.solvent = true ↔ shown.asset ∉ drift.map AssetSolvency.asset))
            ∧ ∀ asset ∈ asked, asset ∉ positions.map AssetPosition.asset
                → asset ∉ drift.map AssetSolvency.asset := by
  obtain ⟨totals, done, sums⟩ := sumForAsset_eq_heldBy primaryKey materialised knownPostings
  obtain ⟨positions, shows, distinct, assets, shownAs⟩ :=
    AdminService.solvency_eq localeCompare knownRows
  have absent : ∀ asset ∉ positions.map AssetPosition.asset,
      totals.sumForAsset .asset asset = 0 ∧ totals.sumForAsset .liability asset = 0 := by
    intro asset missing
    have none := AdminService.heldBy_of_absent (mt (assets asset).mpr missing)
    simp [sums, none, normalSide]
  refine ⟨positions, totals, shows, done, distinct, ?_, absent, fun asked => ?_⟩
  · intro shown member
    rw [sums, sums, shownAs shown member]
    exact ⟨rfl, rfl⟩
  · have read : memoryStore.totalsByType ledger = .ok totals := done
    refine ⟨solvencyDrift totals asked, ?_, ?_, ?_⟩
    · simp [LedgerStore.checkSolvency, read, bind, Except.bind, pure, Except.pure]
    · intro shown member inAsked
      rw [mem_solvencyDrift inAsked, sums, sums, shownAs shown member]
      simp [AdminService.position, normalSide]
    · intro asset inAsked missing
      obtain ⟨first, second⟩ := absent asset missing
      rw [mem_solvencyDrift inAsked, first, second]
      decide

/-- A deposit that was locked in full, and a pool that is short in another asset. -/
theorem admin_solvency_agrees_locked
    : ∃ ledger : MemoryLedger,
        ledger.balance "merchant_available:t:m" "USDT" = 0
        ∧ ledger.balance "pool_addr:c:m" "TRX" = -2
        ∧ ∃ positions drift,
            AdminService.solvency (fun _ _ => 0) ledger.nets = .ok positions
            ∧ memoryStore.checkSolvency ledger ["USDT", "TRX"] = .ok drift
            ∧ ∀ shown ∈ positions, shown.asset ∈ ["USDT", "TRX"]
                → (shown.solvent = true ↔ shown.asset ∉ drift.map AssetSolvency.asset) := by
  let ledger : MemoryLedger :=
    { seenKeys := [], byEntry := []
      postings :=
        [ ⟨"pool_addr:c:m", "USDT", 5, .debit⟩, ⟨"merchant_available:t:m", "USDT", 5, .credit⟩,
          ⟨"merchant_available:t:m", "USDT", 5, .debit⟩,
          ⟨"merchant_pending_withdrawal:t:m", "USDT", 5, .credit⟩,
          ⟨"gas_expense:c", "TRX", 2, .debit⟩, ⟨"pool_addr:c:m", "TRX", 2, .credit⟩ ] }
  have emptied : ledger.balance "merchant_available:t:m" "USDT" = 0 := by decide +kernel
  have short : ledger.balance "pool_addr:c:m" "TRX" = -2 := by decide +kernel
  have materialised : ∀ account asset, Accumulator.valueAt ledger.nets (account, asset)
      = memoryStore.balance ledger account asset := ledger.valueAt_nets
  have knownRows : ∀ row ∈ ledger.nets, knownAccount row.1.1 = true := by decide +kernel
  have knownPostings : KnownAccounts ledger.postings := by
    unfold KnownAccounts
    decide +kernel
  obtain ⟨positions, totals, shows, -, -, -, -, checked⟩ :=
    admin_solvency_agrees (fun _ _ => 0) ledger.nodup_nets materialised knownRows knownPostings
  obtain ⟨drift, answered, agrees, -⟩ := checked ["USDT", "TRX"]
  exact ⟨ledger, emptied, short, positions, drift, shows, answered, agrees⟩

end Cixtech.Ledger
