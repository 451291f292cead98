import Cixtech.Attribution.FewestAddresses
import Cixtech.Treasury.FeeSweepPlanner

/-! How far a fee sweep covers its claim. The loop has three reasons to take nothing from an
address: the claim is met, the address is spoken for, or its share is dust. What each of them
costs is read off the plan alone.
-/

namespace Cixtech.Treasury

open Cixtech.Attribution Cixtech.Common Cixtech.Foundation Cixtech.Ledger

namespace FeeSweepPlanner

/-- Plan a sweep from the pool of a merchant, whose balances the chain reports. -/
def planPool (ledger : SqlLedger) (dust : Int) (rows : List PoolRow) (tenant merchant : Uuid)
    (chain asset : String) (reserved : List (String × Int)) (balanceOf : String → Int)
    : Except AppError FeeSweepPlan :=
  plan ledger dust tenant.text merchant.text chain asset reserved
    ((SqlPoolStore.addressesForMerchant rows tenant merchant chain).map (·.holding balanceOf))

/-- What is free of the balance of an address. -/
def free (reserved : List (String × Int)) (source : AddressBalance) : Int :=
  source.balance - reservedFor reserved source.address

/-- What the legs of the addresses before another leave to it of a claim. -/
def leftAfter (claimed : Int) (legs : List GatheredLeg) (earlier : List String) : Int :=
  claimed - total (legs.filter fun leg => earlier.contains leg.address)

/-- Whether the share of an address with free funds, the less of them and of what is left of
the claim, is below the threshold. An address that nothing is left to has no share.
-/
def dusty (dust freeFunds left : Int) : Bool :=
  0 < freeFunds && 0 < left && min freeFunds left < dust

/-- How many of the addresses have a share that is dust, beside the legs taken. -/
def dustyCount (dust : Int) (reserved : List (String × Int)) (claimed : Int)
    (legs : List GatheredLeg) (sources : List AddressBalance)
    : Nat :=
  (List.range sources.length).countP fun position =>
    sources[position]?.any fun source =>
      dusty dust (free reserved source)
        (leftAfter claimed legs ((sources.take position).map (·.address)))

section Loop

variable {dust : Int} {reserved : List (String × Int)}

/-- One turn of the loop, with the share as a minimum. -/
theorem takeLegs_turn (source : AddressBalance) (rest : List AddressBalance) (remaining : Int)
    : takeLegs dust reserved (source :: rest) remaining
      = if remaining ≤ 0 then ([], 0)
        else if free reserved source ≤ 0 then takeLegs dust reserved rest remaining
        else
          let later := takeLegs dust reserved rest
          let share := min (free reserved source) remaining
          if share < dust then ((later remaining).1, (later remaining).2 + 1)
          else
            ({ source.toGatheredSource with amountBaseUnits := share }
              :: (later (remaining - share)).1,
              (later (remaining - share)).2) := by
  have meaning : source.balance - reservedFor reserved source.address = free reserved source := rfl
  have share : (if free reserved source < remaining then free reserved source else remaining)
      = min (free reserved source) remaining := by
    split <;> omega
  conv_lhs => unfold takeLegs
  simp only [meaning, share]

/-- What the loop does at an address: it stops, passes it, leaves it as dust or takes its
share.
-/
theorem takeLegs_cons (source : AddressBalance) (rest : List AddressBalance) (remaining : Int)
    : (remaining ≤ 0 ∧ takeLegs dust reserved (source :: rest) remaining = ([], 0))
      ∨ (0 < remaining ∧ free reserved source ≤ 0
        ∧ takeLegs dust reserved (source :: rest) remaining
          = takeLegs dust reserved rest remaining)
      ∨ (0 < remaining ∧ 0 < free reserved source ∧ min (free reserved source) remaining < dust
        ∧ takeLegs dust reserved (source :: rest) remaining
          = ((takeLegs dust reserved rest remaining).1,
              (takeLegs dust reserved rest remaining).2 + 1))
      ∨ (0 < remaining ∧ 0 < free reserved source ∧ dust ≤ min (free reserved source) remaining
        ∧ takeLegs dust reserved (source :: rest) remaining
          = ({ source.toGatheredSource with
                amountBaseUnits := min (free reserved source) remaining }
              :: (takeLegs dust reserved rest
                  (remaining - min (free reserved source) remaining)).1,
            (takeLegs dust reserved rest
              (remaining - min (free reserved source) remaining)).2)) := by
  simp only [takeLegs_turn]
  by_cases met : remaining ≤ 0
  · exact .inl ⟨met, if_pos met⟩
  rw [if_neg met]
  have wanted : 0 < remaining := Int.not_le.mp met
  by_cases spoken : free reserved source ≤ 0
  · exact .inr (.inl ⟨wanted, spoken, if_pos spoken⟩)
  rw [if_neg spoken]
  have funded : 0 < free reserved source := Int.not_le.mp spoken
  by_cases small : min (free reserved source) remaining < dust
  · exact .inr (.inr (.inl ⟨wanted, funded, small, if_pos small⟩))
  · exact .inr (.inr (.inr ⟨wanted, funded, Int.not_lt.mp small, if_neg small⟩))

/-- The legs are for addresses of the list, in its order. -/
theorem takeLegs_sublist (sources : List AddressBalance) (remaining : Int)
    : ((takeLegs dust reserved sources remaining).1.map (·.toGatheredSource)).Sublist
        (sources.map (·.toGatheredSource)) := by
  induction sources generalizing remaining with
  | nil => exact List.Sublist.refl _
  | cons source rest ih =>
      rcases takeLegs_cons source rest remaining with
        ⟨-, same⟩ | ⟨-, -, same⟩ | ⟨-, -, -, same⟩ | ⟨-, -, -, same⟩
      · rw [same]
        exact List.nil_sublist _
      · rw [same]
        exact (ih _).cons _
      · rw [same]
        exact (ih _).cons _
      · rw [same]
        exact (ih _).cons_cons _

/-- Each leg takes at least the threshold, and at most what is free at its address. -/
theorem takeLegs_bounded {sources : List AddressBalance} {remaining : Int} {leg : GatheredLeg}
    (member : leg ∈ (takeLegs dust reserved sources remaining).1)
    : ∃ source ∈ sources,
        leg.toGatheredSource = source.toGatheredSource
        ∧ 0 < leg.amountBaseUnits ∧ dust ≤ leg.amountBaseUnits
        ∧ leg.amountBaseUnits ≤ free reserved source := by
  induction sources generalizing remaining with
  | nil => cases member
  | cons source rest ih =>
      have behind : ∀ {left}, leg ∈ (takeLegs dust reserved rest left).1
          → ∃ other ∈ source :: rest,
              leg.toGatheredSource = other.toGatheredSource
              ∧ 0 < leg.amountBaseUnits ∧ dust ≤ leg.amountBaseUnits
              ∧ leg.amountBaseUnits ≤ free reserved other := by
        intro left later
        obtain ⟨other, inRest, facts⟩ := ih later
        exact ⟨other, List.mem_cons_of_mem _ inRest, facts⟩
      rcases takeLegs_cons source rest remaining with
        ⟨-, same⟩ | ⟨-, -, same⟩ | ⟨-, -, -, same⟩ | ⟨wanted, funded, enough, same⟩
      · rw [same] at member
        cases member
      · rw [same] at member
        exact behind member
      · rw [same] at member
        exact behind member
      · rw [same] at member
        rcases List.mem_cons.mp member with rfl | later
        · exact ⟨source, List.mem_cons_self, rfl, lt_min funded wanted, enough, min_le_left _ _⟩
        · exact behind later

/-- When no address is left as dust, the legs cover the claim or all that is free. -/
theorem takeLegs_total {sources : List AddressBalance} {remaining : Int}
    (wanted : 0 ≤ remaining) (none : (takeLegs dust reserved sources remaining).2 = 0)
    : total (takeLegs dust reserved sources remaining).1
      = min remaining ((sources.map fun source => max 0 (free reserved source)).sum) := by
  induction sources generalizing remaining with
  | nil => simp [takeLegs, wanted]
  | cons source rest ih =>
      have notNegative : 0 ≤ (rest.map fun source => max 0 (free reserved source)).sum :=
        List.sum_nonneg (by simp)
      rw [List.map_cons, List.sum_cons]
      rcases takeLegs_cons source rest remaining with
        ⟨met, same⟩ | ⟨-, spoken, same⟩ | ⟨-, -, -, same⟩ | ⟨-, funded, -, same⟩
      · rw [same, total_nil]
        omega
      · rw [same] at none ⊢
        rw [ih wanted none]
        omega
      · rw [same] at none
        cases none
      · rw [same] at none ⊢
        rw [total_cons, ih (by omega) none]
        dsimp only
        omega

/-- At the front of the list nothing is taken before, and the front address counts for the
others only by the leg it may have.
-/
theorem dustyCount_cons {claimed left : Int} {legs more : List GatheredLeg}
    {source : AddressBalance} {rest : List AddressBalance}
    (same : ∀ earlier,
      leftAfter claimed legs (source.address :: earlier) = leftAfter left more earlier)
    : dustyCount dust reserved claimed legs (source :: rest)
      = (if dusty dust (free reserved source) claimed then 1 else 0)
        + dustyCount dust reserved left more rest := by
  have front : leftAfter claimed legs [] = claimed := by simp [leftAfter]
  simp only [dustyCount, List.length_cons, List.range_succ_eq_map, List.countP_cons,
    List.countP_map, List.take_zero, List.map_nil, List.getElem?_cons_zero, Option.any_some,
    front]
  rw [Nat.add_comm]
  congr 1
  refine List.countP_congr fun position _ => ?_
  simp [same]

theorem leftAfter_cons_of_absent {claimed : Int} {legs : List GatheredLeg} {address : String}
    (absent : address ∉ legs.map (·.address)) (earlier : List String)
    : leftAfter claimed legs (address :: earlier) = leftAfter claimed legs earlier := by
  have others : ∀ leg ∈ legs, leg.address ≠ address := fun leg member same =>
    absent (List.mem_map.mpr ⟨leg, member, same⟩)
  rw [leftAfter, leftAfter, List.filter_congr]
  intro leg member
  simp [others leg member]

theorem leftAfter_cons_of_taken {claimed : Int} {leg : GatheredLeg} {legs : List GatheredLeg}
    (absent : leg.address ∉ legs.map (·.address)) (earlier : List String)
    : leftAfter claimed (leg :: legs) (leg.address :: earlier)
      = leftAfter (claimed - leg.amountBaseUnits) legs earlier := by
  have later : leftAfter claimed legs (leg.address :: earlier) = leftAfter claimed legs earlier :=
    leftAfter_cons_of_absent absent earlier
  simp only [leftAfter, List.filter_cons, List.contains_cons, beq_self_eq_true, Bool.true_or,
    if_true, total_cons] at later ⊢
  omega

/-- Nothing is dust when the claim is met. -/
theorem dustyCount_of_met {claimed : Int} (met : claimed ≤ 0) (sources : List AddressBalance)
    : dustyCount dust reserved claimed [] sources = 0 := by
  rw [dustyCount, List.countP_eq_zero]
  intro position _
  simp [dusty, leftAfter, Int.not_lt.mpr met]

/-- The addresses left as dust are those whose share is dust, by induction on the list: with
distinct addresses the legs behind an address are none of its own.
-/
theorem takeLegs_skipped {sources : List AddressBalance}
    (distinct : (sources.map (·.address)).Nodup) (remaining : Int)
    : (takeLegs dust reserved sources remaining).2
      = dustyCount dust reserved remaining (takeLegs dust reserved sources remaining).1
          sources := by
  induction sources generalizing remaining with
  | nil => rfl
  | cons source rest ih =>
      obtain ⟨apart, restDistinct⟩ := List.nodup_cons.mp distinct
      have absent : ∀ left,
          source.address ∉ (takeLegs dust reserved rest left).1.map (·.address) := by
        intro left member
        obtain ⟨leg, inLegs, same⟩ := List.mem_map.mp member
        obtain ⟨other, inRest, own, -⟩ := takeLegs_bounded inLegs
        have address : leg.address = other.address := congrArg (·.address) own
        exact apart (List.mem_map.mpr ⟨other, inRest, address.symm.trans same⟩)
      rcases takeLegs_cons source rest remaining with
        ⟨met, same⟩ | ⟨wanted, spoken, same⟩ | ⟨wanted, funded, small, same⟩
        | ⟨wanted, funded, enough, same⟩
      · rw [same, dustyCount_of_met met]
      · rw [same, dustyCount_cons (leftAfter_cons_of_absent (absent remaining)),
          ← ih restDistinct]
        simp [dusty, Int.not_lt.mpr spoken]
      · rw [same, dustyCount_cons (leftAfter_cons_of_absent (absent remaining)),
          ← ih restDistinct]
        simp [dusty, wanted, funded, small, Nat.add_comm]
      · rw [same, dustyCount_cons (leftAfter_cons_of_taken (absent _)), ← ih restDistinct]
        simp [dusty, Int.not_lt.mpr enough]

end Loop

/-- A plan that is made consists of the claim and the legs of the loop. -/
theorem plan_of_claim {ledger : SqlLedger} {tenant merchant asset : String} {claimed : Int}
    (claims : claim ledger tenant merchant asset = .ok claimed) (dust : Int) (chain : String)
    (reserved : List (String × Int)) (sources : List AddressBalance)
    : plan ledger dust tenant merchant chain asset reserved sources
      = .ok
        { tenant, merchant, chain, asset, claimBaseUnits := claimed
          legs := (takeLegs dust reserved sources claimed).1
          totalBaseUnits := total (takeLegs dust reserved sources claimed).1
          skippedDust := (takeLegs dust reserved sources claimed).2 } := by
  simp only [plan, claims, bind, Except.bind, pure, Except.pure]
  split
  case isTrue none =>
    have met : takeLegs dust reserved sources claimed = ([], 0) := by
      cases sources with
      | nil => rfl
      | cons source rest => rw [takeLegs_turn, if_pos none]
    simp [met]
  case isFalse => rfl

/-- A claim is never negative. -/
theorem claim_nonneg {ledger : SqlLedger} {tenant merchant asset : String} {claimed : Int}
    (claims : claim ledger tenant merchant asset = .ok claimed)
    : 0 ≤ claimed := by
  simp only [claim, bind, Except.bind, pure, Except.pure] at claims
  split at claims
  case h_1 => cases claims
  case h_2 =>
    obtain rfl := Except.ok.inj claims
    split <;> omega

/-- Over the distinct addresses of a merchant, a plan for a claim takes from distinct
addresses in the order of their derivation, from each at least the threshold and at most what
its balance has beyond what is reserved. The total is the sum of the legs and at most the
claim; unless an address was left as dust it is the claim or all that is free; and the count
of those left as dust is of the addresses with free funds whose share is below the threshold.
-/
theorem planPool_coverage {ledger : SqlLedger} {tenant merchant : Uuid} {asset : String}
    {claimed : Int} (claims : claim ledger tenant.text merchant.text asset = .ok claimed)
    {rows : List PoolRow} {chain : String}
    (distinct
      : ((SqlPoolStore.addressesForMerchant rows tenant merchant chain).map
          (·.address)).Nodup)
    (dust : Int) (reserved : List (String × Int)) (balanceOf : String → Int)
    : ∃ result,
        planPool ledger dust rows tenant merchant chain asset reserved balanceOf = .ok result
        ∧ result.claimBaseUnits = claimed
        ∧ (result.legs.map (·.address)).Nodup
        ∧ (result.legs.map (·.toGatheredSource)).Sublist
            ((SqlPoolStore.addressesForMerchant rows tenant merchant chain).map (·.source))
        ∧ (result.legs.map (·.derivationIndex)).Pairwise (· ≤ ·)
        ∧ (∀ leg ∈ result.legs,
            0 < leg.amountBaseUnits ∧ dust ≤ leg.amountBaseUnits
            ∧ leg.amountBaseUnits ≤ balanceOf leg.address - reservedFor reserved leg.address)
        ∧ result.totalBaseUnits = total result.legs
        ∧ result.totalBaseUnits ≤ claimed
        ∧ (result.skippedDust = 0
            → result.totalBaseUnits
              = min claimed
                  ((SqlPoolStore.addressesForMerchant rows tenant merchant chain).map fun row =>
                    max 0 (balanceOf row.address - reservedFor reserved row.address)).sum)
        ∧ result.skippedDust
          = dustyCount dust reserved claimed result.legs
              ((SqlPoolStore.addressesForMerchant rows tenant merchant chain).map
                (·.holding balanceOf)) := by
  let pool := SqlPoolStore.addressesForMerchant rows tenant merchant chain
  let sources := pool.map (·.holding balanceOf)
  have order : ((takeLegs dust reserved sources claimed).1.map (·.toGatheredSource)).Sublist
      (pool.map (·.source)) := by
    have same : sources.map (·.toGatheredSource) = pool.map (·.source) := by
      rw [List.map_map]
      rfl
    rw [← same]
    exact takeLegs_sublist sources claimed
  have addresses : sources.map (·.address) = pool.map (·.address) := by
    rw [List.map_map]
    rfl
  refine ⟨_, plan_of_claim claims dust chain reserved sources, rfl, ?_, order, ?_, ?_, rfl,
    (takeLegs_spec dust reserved sources claimed).2 (claim_nonneg claims), ?_,
    takeLegs_skipped (addresses ▸ distinct) claimed⟩
  · have part := order.map (·.address)
    rw [List.map_map, List.map_map] at part
    exact distinct.sublist part
  · have part := order.map (·.derivationIndex)
    rw [List.map_map, List.map_map] at part
    exact (List.pairwise_map.mpr
      (SqlPoolStore.addressesForMerchant_sorted rows tenant merchant chain)).sublist part
  · intro leg member
    obtain ⟨source, inSources, same, positive, enough, bounded⟩ := takeLegs_bounded member
    obtain ⟨row, -, rfl⟩ := List.mem_map.mp inSources
    have address : leg.address = row.address := congrArg (·.address) same
    rw [address]
    exact ⟨positive, enough, bounded⟩
  · intro none
    have covered := takeLegs_total (claim_nonneg claims) none
    rw [covered, List.map_map]
    rfl

/-- A claim of 50 with a threshold of 10: the first address pays 45 of it, the second holds
less than the threshold and the third would pay less.
-/
theorem planPool_coverage_dusty
    : ∃ (ledger : SqlLedger) (rows : List PoolRow) (balanceOf : String → Int)
        (result : FeeSweepPlan),
        planPool ledger 10 rows sampleTenant sampleMerchant "TRON" "USDT" [] balanceOf = .ok result
        ∧ result.totalBaseUnits ≤ 50
        ∧ result.skippedDust = 2 := by
  let ledger : SqlLedger :=
    { SqlLedger.empty with balances := [(("pool_addr:TRON:bb", "USDT"), 50)] }
  let rows :=
    [PoolGatherer.sampleRow 0 "a", PoolGatherer.sampleRow 1 "b", PoolGatherer.sampleRow 2 "c"]
  let balanceOf (address : String) : Int :=
    if address = "a" then 45 else if address = "b" then 3 else 100
  have claims : claim ledger sampleTenant.text sampleMerchant.text "USDT" = .ok 50 := by
    decide +kernel
  let pool := SqlPoolStore.addressesForMerchant rows sampleTenant sampleMerchant "TRON"
  have listed : pool = rows := by decide +kernel
  have distinct : (pool.map (·.address)).Nodup := by
    rw [listed]
    decide
  obtain ⟨result, planned, -, -, -, -, -, -, bounded, -, skipped⟩ :=
    planPool_coverage claims distinct 10 [] balanceOf
  refine ⟨ledger, rows, balanceOf, result, planned, bounded, ?_⟩
  have legs : result.legs = (takeLegs 10 [] (pool.map (·.holding balanceOf)) 50).1 := by
    have made := planned.symm.trans (plan_of_claim claims 10 "TRON" [] _)
    exact congrArg FeeSweepPlan.legs (Except.ok.inj made)
  have counted : ∀ sources : List PoolRow, sources = rows
      → dustyCount 10 [] 50
          (takeLegs 10 [] (sources.map (·.holding balanceOf)) 50).1
          (sources.map (·.holding balanceOf))
        = 2 := by
    rintro _ rfl
    decide +kernel
  rw [skipped, legs]
  exact counted pool listed

end FeeSweepPlanner

end Cixtech.Treasury
