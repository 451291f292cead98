import Cixtech.Attribution.PoolGatherer
import Cixtech.Foundation.SqlLike
import Cixtech.Ledger.Service

/-! Sizing a fee sweep. The claim is what the merchant's pool accounts hold beyond what the
merchant is owed, read from the balance rows that two `LIKE` patterns select; the plan
covers it from the merchant's addresses in derivation order.
-/

namespace Cixtech.Treasury

open Cixtech.Attribution Cixtech.Common Cixtech.Foundation Cixtech.Ledger

/-- `'pool_addr:%:' || merchant`. -/
def poolPattern (merchant : String) : List Char := "pool_addr:%:".toList ++ merchant.toList

/-- `'merchant\_%:' || tenant || ':' || merchant`. -/
def liabilityPattern (tenant merchant : String) : List Char :=
  "merchant\\_%:".toList ++ tenant.toList ++ ':' :: merchant.toList

/-- The `WHERE` clause of `sweepBalances.forClaim`. -/
def forClaim (tenant merchant asset : String) (owner : String × String) : Bool :=
  owner.2 == asset
  && (SqlLike.like owner.1.toList (poolPattern merchant)
      || SqlLike.like owner.1.toList (liabilityPattern tenant merchant))

structure FeeSweepPlan where
  tenant : String
  merchant : String
  chain : String
  asset : String
  claimBaseUnits : Int
  legs : List GatheredLeg
  totalBaseUnits : Int
  skippedDust : Nat
  deriving DecidableEq, Repr

namespace FeeSweepPlanner

/-- Add one balance row to the pool assets or to the liabilities. -/
def addRow (sums : Int × Int) (row : (String × String) × Int) : Except AppError (Int × Int) := do
  let magnitude ← normalBalance row.1.1 row.2
  return if startsWith row.1.1 "pool_addr:" then (sums.1 + magnitude, sums.2)
    else (sums.1, sums.2 + magnitude)

/-- What the merchant's pool accounts hold in the asset beyond the merchant's liabilities. -/
def claim (ledger : SqlLedger) (tenant merchant asset : String) : Except AppError Int := do
  let rows := ledger.balances.filter fun row => forClaim tenant merchant asset row.1
  let (poolAssets, liabilities) ← rows.foldlM addRow (0, 0)
  let surplus := poolAssets - liabilities
  return if surplus > 0 then surplus else 0

/-- `reserved.get(address) ?? 0n`. -/
def reservedFor (reserved : List (String × Int)) (address : String) : Int :=
  Accumulator.valueAt reserved address

/-- The loop over the addresses: the legs and how many addresses were left as dust. -/
def takeLegs (dust : Int) (reserved : List (String × Int))
    : List AddressBalance → Int → List GatheredLeg × Nat
  | [], _ => ([], 0)
  | source :: rest, remaining =>
      if remaining ≤ 0 then ([], 0)
      else
        let free := source.balance - reservedFor reserved source.address
        if free ≤ 0 then takeLegs dust reserved rest remaining
        else
          let take := if free < remaining then free else remaining
          if take < dust then
            let later := takeLegs dust reserved rest remaining
            (later.1, later.2 + 1)
          else
            let later := takeLegs dust reserved rest (remaining - take)
            ({ source.toGatheredSource with amountBaseUnits := take } :: later.1, later.2)

/-- Plan a sweep of the claim from the addresses, whose balances the chain was asked for one
after another.
-/
def plan (ledger : SqlLedger) (dust : Int) (tenant merchant chain asset : String)
    (reserved : List (String × Int)) (addresses : List AddressBalance)
    : Except AppError FeeSweepPlan := do
  let claimBaseUnits ← claim ledger tenant merchant asset
  let empty : FeeSweepPlan :=
    { tenant, merchant, chain, asset, claimBaseUnits, legs := [], totalBaseUnits := 0
      skippedDust := 0 }
  if claimBaseUnits ≤ 0 then return empty
  let (legs, skippedDust) := takeLegs dust reserved addresses claimBaseUnits
  return { empty with legs, totalBaseUnits := total legs, skippedDust }

/-- The legs of a plan are positive and cover at most what remains of the claim, by
induction on the addresses.
-/
theorem takeLegs_spec (dust : Int) (reserved : List (String × Int))
    (addresses : List AddressBalance) (remaining : Int)
    : (∀ leg ∈ (takeLegs dust reserved addresses remaining).1, 0 < leg.amountBaseUnits)
      ∧ (0 ≤ remaining → total (takeLegs dust reserved addresses remaining).1 ≤ remaining) := by
  induction addresses generalizing remaining with
  | nil => simp [takeLegs]
  | cons source rest ih =>
      unfold takeLegs
      split
      case isTrue => simp
      case isFalse wanted =>
        dsimp only
        split
        case isTrue => exact ih remaining
        case isFalse free =>
          have bounds : 0 < (if source.balance - reservedFor reserved source.address < remaining
                then source.balance - reservedFor reserved source.address else remaining)
              ∧ (if source.balance - reservedFor reserved source.address < remaining
                then source.balance - reservedFor reserved source.address else remaining)
                ≤ remaining := by
            split <;> omega
          generalize (if source.balance - reservedFor reserved source.address < remaining
            then source.balance - reservedFor reserved source.address else remaining) = take
            at bounds ⊢
          split
          case isTrue => exact ih remaining
          case isFalse kept =>
            obtain ⟨positive, bounded⟩ := ih (remaining - take)
            refine ⟨?_, fun _ => ?_⟩
            · intro leg member
              rcases List.mem_cons.mp member with rfl | later
              · exact bounds.1
              · exact positive leg later
            · have rest := bounded (by omega)
              simp only [total_cons]
              omega

/-- The legs of a plan for a claim are positive and cover at most the claim. -/
theorem plan_spec {ledger : SqlLedger} {dust : Int} {tenant merchant chain asset : String}
    {reserved : List (String × Int)} {addresses : List AddressBalance} {result : FeeSweepPlan}
    (done : plan ledger dust tenant merchant chain asset reserved addresses = .ok result)
    (wanted : 0 < result.claimBaseUnits)
    : claim ledger tenant merchant asset = .ok result.claimBaseUnits
      ∧ (∀ leg ∈ result.legs, 0 < leg.amountBaseUnits)
      ∧ total result.legs ≤ result.claimBaseUnits := by
  unfold plan at done
  cases claims : claim ledger tenant merchant asset with
  | error err =>
      rw [claims] at done
      cases done
  | ok claimBaseUnits =>
      simp only [claims, bind, Except.bind, pure, Except.pure] at done
      split at done
      case isTrue none =>
        obtain rfl := Except.ok.inj done
        exact absurd wanted (Int.not_lt.mpr none)
      case isFalse positive =>
        obtain rfl := Except.ok.inj done
        obtain ⟨legs, bounded⟩ := takeLegs_spec dust reserved addresses claimBaseUnits
        exact ⟨rfl, legs, bounded (by omega)⟩

end FeeSweepPlanner

end Cixtech.Treasury
