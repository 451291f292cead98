import Cixtech.Common.Text
import Cixtech.Payout.PolicyLookups
import Cixtech.Payout.VelocityWindows

/-! Spellings of an asset. The ledger posts a payout under its asset in upper case, and the
policy engine reads and charges its window, and asks for solvency, under the asset as the
request spells it.
-/

namespace Cixtech.Payout

open Cixtech.Common Cixtech.Foundation

/-- What a merchant was admitted in an asset of the ledger between two instants. -/
def spentInLedgerAsset (casing : Casing) (rows : List PayoutLogRow) (tenant merchant asset : String)
    (first last : Int)
    : Int :=
  ((rows.filter fun row =>
      (row.tenant == tenant && row.merchant == merchant
        && casing.toUpperCase row.asset == asset)
      && (first ≤ row.at_ && row.at_ ≤ last)).map (·.amountBaseUnits)).sum

/-- Over rows in upper case the asset of the ledger is the asset of the window. -/
theorem spentInLedgerAsset_of_upper {casing : Casing} {rows : List PayoutLogRow}
    (upper : ∀ row ∈ rows, casing.toUpperCase row.asset = row.asset) (ctx : PayoutContext)
    (first last : Int)
    : spentInLedgerAsset casing rows ctx.tenant ctx.merchant ctx.asset first last
      = SqlVelocityLimiter.spentBetween rows ctx first last := by
  unfold spentInLedgerAsset SqlVelocityLimiter.spentBetween
  congr 2
  refine List.filter_congr fun row member => ?_
  rw [upper row member]
  rfl

/-- All that was admitted is spelled in upper case. -/
def InUpperCase (casing : Casing) (history : VelocityHistory) : Prop :=
  ∀ row ∈ history.admitted, casing.toUpperCase row.asset = row.asset

/-- Histories of calls in upper case admit rows in upper case. -/
theorem upper_reached {casing : Casing} {config : VelocityConfig}
    {guard : VelocityHistory → AdmitCall → Prop} {history : VelocityHistory}
    (reached
      : Reaches (SqlVelocityLimiter.step config) guard SqlVelocityLimiter.emptyHistory history)
    (calls : ∀ history call, guard history call
      → casing.toUpperCase call.ctx.asset = call.ctx.asset)
    : InUpperCase casing history := by
  have empty : InUpperCase casing SqlVelocityLimiter.emptyHistory := by
    simp [InUpperCase, SqlVelocityLimiter.emptyHistory]
  refine reached.invariant empty ?_
  intro before call next upper allowed taken row member
  rcases SqlVelocityLimiter.step_cases taken with rfl | ⟨-, admitted, -⟩
  · exact upper row member
  · rw [admitted] at member
    rcases List.mem_append.mp member with old | new
    · exact upper row old
    · exact List.mem_singleton.mp new ▸ calls before call allowed

/-- A window that is full under one spelling admits under another. -/
theorem decisions_differ {asset other : String} (apart : asset ≠ other)
    : ∃ config components, PolicyEngine.decide config components (payoutOf asset 100 "dest") 0
        ≠ PolicyEngine.decide config components (payoutOf other 100 "dest") 0 := by
  let full : PayoutLogRow :=
    { tenant := "t", merchant := "m", asset := other, amountBaseUnits := 100, at_ := 0 }
  refine ⟨narrowLimits ["dest"] (some { windowMs := 10, maxTotalBaseUnits := 100 }),
    openComponents [full], ?_⟩
  have unseen : ¬ other = asset := Ne.symm apart
  simp [PolicyEngine.decide, PolicyEngine.evaluate, PolicyEngine.gates, PolicyEngine.answers,
    narrowLimits, openComponents, payoutOf, SqlVelocityLimiter.admitPayout,
    SqlVelocityLimiter.spentSince, SqlVelocityLimiter.sameWindow, full, unseen]

/-- The decision on a payout is that on its asset in upper case, whatever the configuration and
the components, exactly where the asset is spelled in upper case. Payouts that are all spelled
so, and keep to the bound of the window, never exceed the maximum in an asset of the ledger.
-/
theorem decided_as_upper_iff (casing : Casing)
    : (∀ asset : String,
        (∀ (config : PolicyConfig) (components : PolicyComponents) (ctx : PayoutContext)
            (now : Int),
          ctx.asset = asset
          → PolicyEngine.decide config components ctx now
            = PolicyEngine.decide config components
                { ctx with asset := casing.toUpperCase asset } now)
        ↔ asset = casing.toUpperCase asset)
      ∧ ∀ (config : VelocityConfig) (history : VelocityHistory),
          0 ≤ config.maxTotalBaseUnits
          → Reaches (SqlVelocityLimiter.step config)
              (fun history call =>
                SqlVelocityLimiter.KeepsBound config history call
                ∧ casing.toUpperCase call.ctx.asset = call.ctx.asset)
              SqlVelocityLimiter.emptyHistory history
          → ∀ tenant merchant asset instant,
              spentInLedgerAsset casing history.admitted tenant merchant asset
                  (instant - config.windowMs) instant
                ≤ config.maxTotalBaseUnits := by
  refine ⟨fun asset => ⟨fun agree => ?_, fun upper config components ctx now own => ?_⟩, ?_⟩
  · by_contra apart
    obtain ⟨config, components, differ⟩ := decisions_differ apart
    exact differ (agree config components (payoutOf asset 100 "dest") 0 rfl)
  · rw [← upper, ← own]
  · intro config history maximum reached tenant merchant asset instant
    have bounded := SqlVelocityLimiter.bounded_reached maximum reached fun _ _ keeps => keeps.1
    have upper := upper_reached reached fun _ _ keeps => keeps.2
    let ctx : PayoutContext := { payoutOf asset 0 "" with tenant, merchant }
    have whole := spentInLedgerAsset_of_upper upper ctx (instant - config.windowMs) instant
    have within := bounded.bounded ctx instant
    exact whole ▸ within

/-- A window of 100 in `USDT` is full, a payout in `usdt` is allowed all the same, and together
they are 200 in one asset of the ledger.
-/
theorem lower_case_allowed
    : PolicyEngine.decide
            (narrowLimits ["dest"] (some { windowMs := 10, maxTotalBaseUnits := 100 }))
            (openComponents [{ tenant := "t", merchant := "m", asset := "USDT"
                               amountBaseUnits := 100, at_ := 0 }])
            (payoutOf "usdt" 100 "dest") 0
          = .allow
      ∧ PolicyEngine.decide
            (narrowLimits ["dest"] (some { windowMs := 10, maxTotalBaseUnits := 100 }))
            (openComponents [{ tenant := "t", merchant := "m", asset := "USDT"
                               amountBaseUnits := 100, at_ := 0 }])
            (payoutOf (asciiCasing.toUpperCase "usdt") 100 "dest") 0
          = .deny "Payout exceeds the rolling velocity limit"
      ∧ ∃ history,
          Reaches (SqlVelocityLimiter.step { windowMs := 10, maxTotalBaseUnits := 100 })
            (SqlVelocityLimiter.KeepsBound { windowMs := 10, maxTotalBaseUnits := 100 })
            SqlVelocityLimiter.emptyHistory history
          ∧ spentInLedgerAsset asciiCasing history.admitted "t" "m" "USDT" (-10) 0 = 200 := by
  refine ⟨by decide, by decide, ?_⟩
  exact Reaches.exists_of_exec
    [ { ctx := payoutOf "USDT" 100 "dest", now := 0 },
      { ctx := payoutOf "usdt" 100 "dest", now := 0 } ]
    (by decide)

end Cixtech.Payout
