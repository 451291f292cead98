import Cixtech.Ledger.SqlStore
import Mathlib.Algebra.BigOperators.Group.Finset.Piecewise

/-! Totals by account type and the drift they show. The totals are one fold over netted
rows; for each type and asset they are the sum of the movements on the accounts of the
type, read on the side on which the type grows.
-/

namespace Cixtech.Ledger

open Cixtech.Common Cixtech.Foundation

/-- `Map<AccountType, Map<string, bigint>>`, kept under the two keys together. -/
abbrev TotalsByType := List ((AccountType × String) × Int)

/-- One signed movement of an account in an asset. -/
abbrev NetRow := (String × String) × Int

namespace TotalsByType

/-- `totals.get(type)?.get(asset) ?? 0`. -/
def sumForAsset (totals : TotalsByType) (type : AccountType) (asset : String) : Int :=
  Accumulator.valueAt totals (type, asset)

/-- Add up the rows under the types of their accounts, refusing an account without a type.
-/
def ofRows (rows : List NetRow) : Except AppError TotalsByType :=
  rows.foldlM
    (fun totals row => do
      let type ← accountTypeOf row.1.1
      return Accumulator.add totals (type, row.1.2) (normalSide type row.2))
    []

end TotalsByType

structure AssetSolvency where
  asset : String
  assets : Int
  liabilities : Int
  deriving DecidableEq, Repr

def assetSolvency (totals : TotalsByType) (asset : String) : AssetSolvency :=
  { asset
    assets := totals.sumForAsset .asset asset
    liabilities := totals.sumForAsset .liability asset }

def isSolvent (solvency : AssetSolvency) : Bool := solvency.assets ≥ solvency.liabilities

def solvencyDrift (totals : TotalsByType) (assets : List String) : List AssetSolvency :=
  (assets.map (assetSolvency totals)).filter fun solvency => !isSolvent solvency

-----------------------------------------------------------------------------
-- The totals of postings

/-- Whether a prefix gives the account a type. -/
def knownAccount (account : String) : Bool := (accountTypeOf account).toOption.isSome

/-- Whether an account is of the type. -/
def hasType (type : AccountType) (account : String) : Bool :=
  (accountTypeOf account).toOption = some type

/-- The signed movements of the accounts of a type in an asset. -/
def typeNet (type : AccountType) (asset : String) (postings : List Posting) : Int :=
  netWhere (fun posting => hasType type posting.account && decide (posting.asset = asset))
    postings

@[simp]
theorem typeNet_append (type : AccountType) (asset : String) (left right : List Posting)
    : typeNet type asset (left ++ right) = typeNet type asset left + typeNet type asset right :=
  netWhere_append _ left right

@[simp]
theorem typeNet_flipped (type : AccountType) (asset : String) (postings : List Posting)
    : typeNet type asset (postings.map Posting.flipped) = -typeNet type asset postings :=
  netWhere_flipped (fun _ => rfl) postings

/-- The row that a posting stands for. -/
def Posting.row (posting : Posting) : NetRow :=
  ((posting.account, posting.asset), posting.signed)

theorem sumWhere_rows (select : String × String → Bool) (postings : List Posting)
    : Accumulator.sumWhere select (postings.map Posting.row)
      = netWhere (fun posting => select (posting.account, posting.asset)) postings := by
  induction postings with
  | nil => rfl
  | cons posting rest ih =>
      rw [List.map_cons, Accumulator.sumWhere_cons, netWhere_cons, ih]
      rfl

theorem hasType_of_eq {account : String} {own : AccountType}
    (typed : accountTypeOf account = .ok own) (type : AccountType)
    : hasType type account = decide (own = type) := by
  simp [hasType, typed, Except.toOption]

theorem exists_type_of_known {account : String} (known : knownAccount account = true)
    : ∃ own, accountTypeOf account = .ok own := by
  cases typed : accountTypeOf account with
  | error err => simp [knownAccount, typed, Except.toOption] at known
  | ok own => exact ⟨own, rfl⟩

/-- Over rows of known accounts the fold succeeds, keeps the keys apart and adds to each
type and asset what the selected rows hold, by induction on the rows.
-/
private theorem foldlM_rows {rows : List NetRow} {totals : TotalsByType}
    (known : ∀ row ∈ rows, knownAccount row.1.1 = true)
    (distinct : (totals.map Prod.fst).Nodup)
    : ∃ result : TotalsByType,
        rows.foldlM
          (fun totals row => do
            let type ← accountTypeOf row.1.1
            return Accumulator.add totals (type, row.1.2) (normalSide type row.2))
          totals
        = .ok result
        ∧ (result.map Prod.fst).Nodup
        ∧ ∀ type asset,
            Accumulator.sumWhere (fun key => decide (key = (type, asset))) result
            = Accumulator.sumWhere (fun key => decide (key = (type, asset))) totals
              + normalSide type
                  (Accumulator.sumWhere
                    (fun key => hasType type key.1 && decide (key.2 = asset)) rows) := by
  induction rows generalizing totals with
  | nil =>
      refine ⟨totals, rfl, distinct, ?_⟩
      intro type asset
      cases type <;> simp [normalSide]
  | cons row rest ih =>
      obtain ⟨⟨account, own⟩, amount⟩ := row
      obtain ⟨kind, typed⟩ := exists_type_of_known (known _ List.mem_cons_self)
      obtain ⟨result, done, apart, sums⟩ :=
        ih (fun row member => known row (List.mem_cons_of_mem _ member))
          (Accumulator.nodup_add (kind, own) (normalSide kind amount) distinct)
      refine ⟨result, ?_, apart, ?_⟩
      · simpa only [List.foldlM_cons, typed, bind, Except.bind, pure, Except.pure] using done
      · intro type asset
        rw [sums, Accumulator.sumWhere_add, Accumulator.sumWhere_cons, hasType_of_eq typed]
        by_cases sameType : kind = type <;> by_cases sameAsset : own = asset <;>
          cases type <;> simp_all [normalSide] <;> omega

/-- The totals of rows of known accounts. -/
theorem TotalsByType.ofRows_spec {rows : List NetRow}
    (known : ∀ row ∈ rows, knownAccount row.1.1 = true)
    : ∃ totals,
        TotalsByType.ofRows rows = .ok totals
        ∧ ∀ type asset,
            totals.sumForAsset type asset
            = normalSide type
                (Accumulator.sumWhere
                  (fun key => hasType type key.1 && decide (key.2 = asset)) rows) := by
  have none : (([] : TotalsByType).map Prod.fst).Nodup := List.nodup_nil
  obtain ⟨totals, done, apart, sums⟩ := foldlM_rows known none
  refine ⟨totals, done, ?_⟩
  intro type asset
  rw [TotalsByType.sumForAsset, Accumulator.valueAt_eq_sumWhere _ apart, sums]
  simp

/-- Known accounts are of one of the four types, so the four nets make up the whole. -/
theorem typeNet_sum {postings : List Posting}
    (known : ∀ posting ∈ postings, knownAccount posting.account = true) (asset : String)
    : typeNet .asset asset postings + typeNet .expense asset postings
        + typeNet .liability asset postings + typeNet .revenue asset postings
      = netWhere (fun posting => decide (posting.asset = asset)) postings := by
  induction postings with
  | nil => rfl
  | cons posting rest ih =>
      have others := ih fun other member => known other (List.mem_cons_of_mem _ member)
      obtain ⟨own, typed⟩ := exists_type_of_known (known posting List.mem_cons_self)
      simp only [typeNet, netWhere_cons, hasType_of_eq typed] at others ⊢
      by_cases same : posting.asset = asset <;> cases own <;> simp [same] <;> omega

/-- The nets of accounts that cover the postings make up the net of the asset. -/
theorem sum_accounts_eq {postings : List Posting} {accounts : Finset String}
    (covered : ∀ posting ∈ postings, posting.account ∈ accounts) (asset : String)
    : ∑ account ∈ accounts, SqlLedger.netOn account asset postings
      = netWhere (fun posting => decide (posting.asset = asset)) postings := by
  induction postings with
  | nil => simp [SqlLedger.netOn]
  | cons posting rest ih =>
      have others := ih fun other member => covered other (List.mem_cons_of_mem _ member)
      have own := covered posting List.mem_cons_self
      have head : ∑ account ∈ accounts,
            (if (posting.account, posting.asset) = (account, asset) then posting.signed else 0)
          = if posting.asset = asset then posting.signed else 0 := by
        by_cases same : posting.asset = asset <;> simp [same, own]
      simp only [SqlLedger.netOn, netWhere_cons, Finset.sum_add_distrib, decide_eq_true_eq]
        at others ⊢
      rw [head, others]

-----------------------------------------------------------------------------
-- The drift of totals

/-- An asset drifts exactly when its liabilities exceed its assets. -/
theorem mem_solvencyDrift {totals : TotalsByType} {assets : List String} {asset : String}
    (asked : asset ∈ assets)
    : asset ∈ (solvencyDrift totals assets).map AssetSolvency.asset
      ↔ totals.sumForAsset .asset asset < totals.sumForAsset .liability asset := by
  simp only [solvencyDrift, List.mem_map, List.mem_filter]
  constructor
  · rintro ⟨solvency, ⟨⟨own, -, rfl⟩, short⟩, rfl⟩
    simpa [isSolvent, assetSolvency] using short
  · intro short
    exact ⟨assetSolvency totals asset, ⟨⟨asset, asked, rfl⟩,
      by simpa [isSolvent, assetSolvency] using short⟩, rfl⟩

end Cixtech.Ledger
