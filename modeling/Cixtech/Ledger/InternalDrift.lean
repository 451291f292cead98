import Cixtech.Foundation.Joins
import Cixtech.Foundation.Tallies
import Cixtech.Ledger.Stores

/-! The internal reconciler: the materialised balances against the sums of the postings, for
any contents of the two tables. The query starts from the balance rows, so that postings
without one are compared with nothing.
-/

namespace Cixtech.Ledger

open Cixtech.Common Cixtech.Foundation

/-- The tables `balance`, with its primary key, and `posting`. -/
structure LedgerTables where
  balances : List ((String × String) × Int)
  postings : List Posting
  primaryKey : (balances.map Prod.fst).Nodup

structure DriftRow where
  account : String
  asset : String
  materialized : Int
  fromHistory : Int
  deriving DecidableEq, Repr

namespace LedgerTables

/-- `SELECT account, asset, SUM(…) AS net FROM posting GROUP BY account, asset`. -/
def netByAccountAsset (tables : LedgerTables) : List NetRow :=
  Accumulator.tally (fun posting => (posting.account, posting.asset)) Posting.signed []
    tables.postings

/-- `balance.driftAgainstPostings`. -/
def driftAgainstPostings (tables : LedgerTables) : List DriftRow :=
  ((Table.leftJoin (fun balance net => net.1 = balance.1) tables.balances
      tables.netByAccountAsset).map fun joined =>
    { account := joined.1.1.1, asset := joined.1.1.2, materialized := joined.1.2
      fromHistory := (joined.2.map Prod.snd).getD 0 }).filter
    fun row => row.materialized ≠ row.fromHistory

/-- `SqlLedgerStore.reconcileInternal`. -/
def reconcileInternal (tables : LedgerTables) : List DriftRow := tables.driftAgainstPostings

/-- The materialised balance of a pair, zero where it has no row. -/
def materialized (tables : LedgerTables) (account asset : String) : Int :=
  Accumulator.valueAt tables.balances (account, asset)

/-- The signed sum of the postings of a pair, zero where it has none. -/
def fromHistory (tables : LedgerTables) (account asset : String) : Int :=
  SqlLedger.netOn account asset tables.postings

/-- Exactly the pairs whose balance is not the sum of their postings are reported, with the
two numbers.
-/
def ReportsDrift (tables : LedgerTables) : Prop :=
  ∀ row : DriftRow,
    row ∈ tables.reconcileInternal
    ↔ row.materialized = tables.materialized row.account row.asset
      ∧ row.fromHistory = tables.fromHistory row.account row.asset
      ∧ row.materialized ≠ row.fromHistory

/-- The group of a pair holds the sum of its postings. -/
theorem lookup_net (tables : LedgerTables) (account asset : String)
    : ((Table.lookup Prod.fst tables.netByAccountAsset (account, asset)).map Prod.snd).getD 0
      = tables.fromHistory account asset := by
  have held : ((Table.lookup Prod.fst tables.netByAccountAsset (account, asset)).map
        Prod.snd).getD 0
      = Accumulator.valueAt tables.netByAccountAsset (account, asset) := rfl
  rw [held, netByAccountAsset, Accumulator.valueAt_tally, fromHistory, SqlLedger.netOn, netWhere]
  simp only [decide_eq_true_eq]

/-- The query reports the drifting pairs among those that have a balance row. -/
theorem mem_reconcileInternal (tables : LedgerTables) (row : DriftRow)
    : row ∈ tables.reconcileInternal
      ↔ (row.account, row.asset) ∈ tables.balances.map Prod.fst
        ∧ row.materialized = tables.materialized row.account row.asset
        ∧ row.fromHistory = tables.fromHistory row.account row.asset
        ∧ row.materialized ≠ row.fromHistory := by
  have groups : (tables.netByAccountAsset.map Prod.fst).Nodup :=
    Accumulator.nodup_tally _ _ tables.postings List.nodup_nil
  simp only [reconcileInternal, driftAgainstPostings, Table.leftJoin_key Prod.fst groups,
    List.map_map, List.mem_filter, List.mem_map, Function.comp_apply, decide_eq_true_eq]
  constructor
  · rintro ⟨⟨⟨⟨account, asset⟩, amount⟩, stored, rfl⟩, drifts⟩
    have held : tables.materialized account asset = amount :=
      Accumulator.valueAt_of_mem tables.primaryKey stored
    exact ⟨⟨_, stored, rfl⟩, held.symm, tables.lookup_net account asset, drifts⟩
  · obtain ⟨account, asset, materialized, fromHistory⟩ := row
    rintro ⟨⟨⟨owner, amount⟩, stored, same⟩, own, summed, drifts⟩
    obtain rfl : owner = (account, asset) := same
    have held : tables.materialized account asset = amount :=
      Accumulator.valueAt_of_mem tables.primaryKey stored
    refine ⟨⟨_, stored, ?_⟩, drifts⟩
    simp only [DriftRow.mk.injEq, true_and]
    exact ⟨held.symm.trans own.symm, (tables.lookup_net account asset).trans summed.symm⟩

theorem materialized_of_absent {tables : LedgerTables} {account asset : String}
    (absent : (account, asset) ∉ tables.balances.map Prod.fst)
    : tables.materialized account asset = 0 :=
  Accumulator.valueAt_of_absent absent

/-- The drift is reported in full exactly where the postings of every pair without a balance
row net to zero.
-/
theorem drift_reported_iff (tables : LedgerTables)
    : tables.ReportsDrift
      ↔ ∀ account asset, (account, asset) ∉ tables.balances.map Prod.fst
          → tables.fromHistory account asset = 0 := by
  constructor
  · intro reports account asset absent
    by_contra drifts
    have reported := (reports
        { account, asset, materialized := 0, fromHistory := tables.fromHistory account asset }).mpr
      ⟨(materialized_of_absent absent).symm, rfl, Ne.symm drifts⟩
    exact absent ((tables.mem_reconcileInternal _).mp reported).1
  · intro covered row
    rw [mem_reconcileInternal]
    refine ⟨And.right, fun numbers => ⟨?_, numbers⟩⟩
    by_contra absent
    obtain ⟨materialized, fromHistory, drifts⟩ := numbers
    rw [materialized_of_absent absent] at materialized
    rw [covered _ _ absent] at fromHistory
    exact drifts (materialized.trans fromHistory.symm)

/-- A transfer whose balance rows are gone drifts on both sides, and nothing is reported. -/
theorem missing_balances_unreported
    : ∃ tables : LedgerTables,
        tables.postings
          = [⟨"cold:a", "USDT", 5, .debit⟩, ⟨"merchant_available:t:m", "USDT", 5, .credit⟩]
        ∧ tables.fromHistory "cold:a" "USDT" ≠ tables.materialized "cold:a" "USDT"
        ∧ tables.reconcileInternal = []
        ∧ ¬ tables.ReportsDrift := by
  let tables : LedgerTables :=
    { balances := []
      postings :=
        [⟨"cold:a", "USDT", 5, .debit⟩, ⟨"merchant_available:t:m", "USDT", 5, .credit⟩]
      primaryKey := List.nodup_nil }
  have drifts : tables.fromHistory "cold:a" "USDT" = 5 := by decide +kernel
  have held : tables.materialized "cold:a" "USDT" = 0 := rfl
  have reported : tables.reconcileInternal = [] := rfl
  refine ⟨tables, rfl, by rw [drifts, held]; decide, reported, ?_⟩
  intro reports
  have missing := (reports
    { account := "cold:a", asset := "USDT", materialized := 0, fromHistory := 5 }).mpr
    ⟨rfl, drifts.symm, by decide⟩
  rw [reported] at missing
  cases missing

-----------------------------------------------------------------------------
-- The tables that appends write

/-- The tables of a ledger whose balances are the sums of its postings. -/
def ofLedger (ledger : SqlLedger) (agree : ledger.Materialised) : LedgerTables where
  balances := ledger.balances
  postings := ledger.postings
  primaryKey := agree.1

/-- On such a ledger the reconciler is clean, and misses nothing. -/
theorem reconcileInternal_ofLedger (ledger : SqlLedger) (agree : ledger.Materialised)
    : (ofLedger ledger agree).reconcileInternal = []
      ∧ (ofLedger ledger agree).ReportsDrift := by
  have same : ∀ account asset,
      (ofLedger ledger agree).materialized account asset
      = (ofLedger ledger agree).fromHistory account asset :=
    fun account asset => SqlLedger.balance_eq_net agree account asset
  constructor
  · refine List.eq_nil_iff_forall_not_mem.mpr fun row reported => ?_
    obtain ⟨-, held, summed, drifts⟩ := (mem_reconcileInternal _ row).mp reported
    exact drifts (held.trans ((same _ _).trans summed.symm))
  · refine (drift_reported_iff _).mpr fun account asset absent => ?_
    rw [← same, materialized_of_absent absent]

end LedgerTables

end Cixtech.Ledger
