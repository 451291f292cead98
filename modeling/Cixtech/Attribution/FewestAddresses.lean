import Cixtech.Attribution.PoolGatherer
import Cixtech.Attribution.PoolStore
import Cixtech.Foundation.LargestFirst
import Mathlib.Algebra.BigOperators.Group.Finset.Basic
import Mathlib.Algebra.Order.Group.Int

/-! What a gather plan is made of. The loop takes the funded addresses whole, largest first,
until the last leg completes the amount, so that it needs as few of them as any choice does.
-/

namespace Cixtech.Attribution

open Cixtech.Common Cixtech.Foundation

/-- The columns of an address that a leg is built from. -/
def PoolRow.source (row : PoolRow) : GatheredSource :=
  { address := row.address, derivationIndex := row.derivationIndex
    gatherStrategy := row.gatherStrategy }

/-- An address with the balance that the chain reports for it. -/
def PoolRow.holding (balanceOf : String → Int) (row : PoolRow) : AddressBalance :=
  { row.source with balance := balanceOf row.address }

/-- The addresses of a merchant on a chain, in the order of their derivation. -/
def SqlPoolStore.addressesForMerchant (rows : List PoolRow) (tenant merchant : Uuid)
    (chain : String)
    : List PoolRow :=
  (rows.filter fun row => row.tenant = tenant && row.merchant = merchant && row.chain = chain)
    |>.insertionSort fun left right => left.derivationIndex ≤ right.derivationIndex

theorem SqlPoolStore.mem_addressesForMerchant {rows : List PoolRow} {tenant merchant : Uuid}
    {chain : String} {row : PoolRow}
    : row ∈ addressesForMerchant rows tenant merchant chain
      ↔ row ∈ rows ∧ row.tenant = tenant ∧ row.merchant = merchant ∧ row.chain = chain := by
  simp [addressesForMerchant, and_assoc]

theorem SqlPoolStore.addressesForMerchant_sorted (rows : List PoolRow) (tenant merchant : Uuid)
    (chain : String)
    : (addressesForMerchant rows tenant merchant chain).Pairwise fun left right =>
        left.derivationIndex ≤ right.derivationIndex := by
  let before := fun left right : PoolRow => left.derivationIndex ≤ right.derivationIndex
  have total : Std.Total before := ⟨fun left right => Nat.le_total _ _⟩
  have trans : IsTrans PoolRow before := ⟨fun _ _ _ first second => first.trans second⟩
  exact List.pairwise_insertionSort before _

/-- The table holds no address of a merchant on a chain twice. -/
theorem PoolTable.merchantAddresses {derive : String → Nat → Except AppError String}
    {rows : List PoolRow} (table : PoolTable derive rows) (tenant merchant : Uuid)
    (chain : String)
    : ((SqlPoolStore.addressesForMerchant rows tenant merchant chain).map (·.address)).Nodup := by
  let own := SqlPoolStore.addressesForMerchant rows tenant merchant chain
  have columns : (own.map (·.at_)).Nodup := by
    have sorted : (own.map (·.at_)).Perm _ := (List.perm_insertionSort _ _).map _
    exact sorted.nodup_iff.mpr (table.addresses.sublist (List.filter_sublist.map _))
  have same : own.map (·.at_) = (own.map (·.address)).map (chain, ·) := by
    rw [List.map_map]
    refine List.map_congr_left fun row member => ?_
    have ours := (SqlPoolStore.mem_addressesForMerchant.mp member).2.2.2
    simp [PoolAddressRow.at_, ours]
  exact (same ▸ columns).of_map

namespace PoolGatherer

/-- Gather an amount from the pool of a merchant, whose balances the chain reports. -/
def gatherPool (rows : List PoolRow) (tenant merchant : Uuid) (chain asset : String)
    (amount : Int) (balanceOf : String → Int)
    : Except AppError (GatherPlan amount) :=
  gather tenant.text merchant.text chain asset amount
    ((SqlPoolStore.addressesForMerchant rows tenant merchant chain).map (·.holding balanceOf))

-----------------------------------------------------------------------------
-- The loop over the funded addresses

/-- The legs are for the first of the addresses, by induction on them. -/
theorem takeLegs_front (funded : List AddressBalance) (amount : Int)
    : (takeLegs funded amount).1.map (·.toGatheredSource)
        <+: funded.map (·.toGatheredSource) := by
  induction funded generalizing amount with
  | nil => exact List.prefix_rfl
  | cons source rest ih =>
      unfold takeLegs
      split
      case isTrue => exact List.nil_prefix
      case isFalse => simpa using ih _

/-- Each leg takes from its address at most what the address holds. -/
theorem takeLegs_bounded {funded : List AddressBalance} {amount : Int} {leg : GatheredLeg}
    (member : leg ∈ (takeLegs funded amount).1)
    : ∃ source ∈ funded,
        leg.toGatheredSource = source.toGatheredSource ∧ leg.amountBaseUnits ≤ source.balance := by
  induction funded generalizing amount with
  | nil => cases member
  | cons source rest ih =>
      unfold takeLegs at member
      split at member
      case isTrue => cases member
      case isFalse =>
        rcases List.mem_cons.mp member with rfl | later
        · refine ⟨source, List.mem_cons_self, rfl, ?_⟩
          dsimp only
          split <;> omega
        · obtain ⟨other, inRest, same, bounded⟩ := ih later
          exact ⟨other, List.mem_cons_of_mem _ inRest, same, bounded⟩

/-- What the addresses lack of the amount is what remains after the loop. -/
theorem takeLegs_remainder {funded : List AddressBalance} {amount : Int} (wanted : 0 ≤ amount)
    (held : ∀ source ∈ funded, 0 < source.balance)
    : (takeLegs funded amount).2 = max 0 (amount - (funded.map (·.balance)).sum) := by
  induction funded generalizing amount with
  | nil => simp [takeLegs, wanted]
  | cons source rest ih =>
      have restHeld : ∀ other ∈ rest, 0 < other.balance := fun other member =>
        held other (List.mem_cons_of_mem _ member)
      have positive := held source List.mem_cons_self
      have notNegative : 0 ≤ (rest.map (·.balance)).sum :=
        List.sum_nonneg (by simpa using fun other member => (restHeld other member).le)
      unfold takeLegs
      simp only [List.map_cons, List.sum_cons]
      split
      case isTrue done => omega
      case isFalse =>
        dsimp only
        split
        case isTrue whole =>
          rw [ih (by omega) restHeld]
          omega
        case isFalse last =>
          rw [ih (by omega) restHeld]
          omega

/-- Fewer of the addresses than there are legs do not hold the amount: all but the last leg
take what their addresses hold.
-/
theorem takeLegs_short {funded : List AddressBalance} {amount : Int} {fewer : Nat}
    (few : fewer < (takeLegs funded amount).1.length)
    : ((funded.map (·.balance)).take fewer).sum < amount := by
  induction funded generalizing amount fewer with
  | nil => cases few
  | cons source rest ih =>
      unfold takeLegs at few
      split at few
      case isTrue => cases few
      case isFalse wanted =>
        dsimp only at few
        cases fewer with
        | zero => simpa using wanted
        | succ before =>
            have later := ih (Nat.lt_of_succ_lt_succ few)
            simp only [List.map_cons, List.take_succ_cons, List.sum_cons]
            split at later
            case isTrue whole => omega
            case isFalse last =>
              have done : takeLegs rest (amount - amount) = ([], amount - amount) := by
                cases rest <;> simp [takeLegs]
              rw [if_neg last, done] at few
              exact absurd (Nat.lt_of_succ_lt_succ few) (Nat.not_lt_zero _)

-----------------------------------------------------------------------------
-- The plan

/-- A gather fails on an amount that is not positive and on one that the loop cannot complete. -/
theorem gather_fails_iff {tenant merchant chain asset : String} {amount : Int}
    {balances : List AddressBalance}
    : (∃ err, gather tenant merchant chain asset amount balances = .error err)
      ↔ amount ≤ 0 ∨ 0 < (takeLegs (fundedLargestFirst balances) amount).2 := by
  unfold gather
  split
  case isTrue none => simp [none]
  case isFalse wanted =>
    dsimp only
    split
    case isTrue short => simp [short]
    case isFalse complete => simp [wanted, complete]

/-- The plan consists of the legs of the loop. -/
theorem gather_legs {tenant merchant chain asset : String} {amount : Int}
    {balances : List AddressBalance} {plan : GatherPlan amount}
    (done : gather tenant merchant chain asset amount balances = .ok plan)
    : plan.legs = (takeLegs (fundedLargestFirst balances) amount).1 := by
  unfold gather at done
  split at done
  case isTrue => cases done
  case isFalse =>
    dsimp only at done
    split at done
    case isTrue => cases done
    case isFalse =>
      obtain rfl := Except.ok.inj done
      rfl

/-- The funded addresses are listed by descending balance. -/
theorem fundedLargestFirst_sorted (balances : List AddressBalance)
    : ((fundedLargestFirst balances).map (·.balance)).Pairwise
        fun left right => right ≤ left := by
  let largerFirst := fun left right : AddressBalance => right.balance ≤ left.balance
  have total : Std.Total largerFirst := ⟨fun left right => le_total _ _⟩
  have trans : IsTrans AddressBalance largerFirst := ⟨fun _ _ _ first second => second.trans first⟩
  exact List.pairwise_map.mpr (List.pairwise_insertionSort largerFirst _)

/-- Addresses without a balance add nothing. -/
theorem sum_fundedLargestFirst {balances : List AddressBalance}
    (notNegative : ∀ source ∈ balances, 0 ≤ source.balance)
    : ((fundedLargestFirst balances).map (·.balance)).sum
      = (balances.map (·.balance)).sum := by
  have sorted := (List.perm_insertionSort
    (fun left right : AddressBalance => right.balance ≤ left.balance)
    (balances.filter fun source => 0 < source.balance)).map (·.balance)
  rw [fundedLargestFirst, sorted.sum_eq]
  clear sorted
  induction balances with
  | nil => rfl
  | cons source rest ih =>
      have first := notNegative source List.mem_cons_self
      have later := ih fun other member => notNegative other (List.mem_cons_of_mem _ member)
      by_cases funded : 0 < source.balance
      · simp [funded, later]
      · simp [funded, later]
        omega

section Pool

variable {pool : List PoolRow} {balanceOf : String → Int}

/-- The funded addresses of a pool are the addresses in it that hold something. -/
theorem mem_fundedLargestFirst {source : AddressBalance}
    : source ∈ fundedLargestFirst (pool.map (·.holding balanceOf))
      ↔ ∃ row ∈ pool, source = row.holding balanceOf ∧ 0 < balanceOf row.address := by
  simp only [fundedLargestFirst, List.mem_insertionSort, List.mem_filter, List.mem_map,
    decide_eq_true_eq]
  constructor
  · rintro ⟨⟨row, member, rfl⟩, positive⟩
    exact ⟨row, member, rfl, positive⟩
  · rintro ⟨row, member, rfl, positive⟩
    exact ⟨⟨row, member, rfl⟩, positive⟩

/-- Each of them holds what the chain reports for its address. -/
theorem balances_fundedLargestFirst
    : (fundedLargestFirst (pool.map (·.holding balanceOf))).map (·.balance)
      = ((fundedLargestFirst (pool.map (·.holding balanceOf))).map (·.address)).map
          balanceOf := by
  rw [List.map_map]
  refine List.map_congr_left fun source member => ?_
  obtain ⟨row, -, rfl, -⟩ := mem_fundedLargestFirst.mp member
  rfl

theorem nodup_fundedLargestFirst (distinct : (pool.map (·.address)).Nodup)
    : ((fundedLargestFirst (pool.map (·.holding balanceOf))).map (·.address)).Nodup := by
  have sorted := (List.perm_insertionSort
    (fun left right : AddressBalance => right.balance ≤ left.balance)
    ((pool.map (·.holding balanceOf)).filter fun source => 0 < source.balance)).map (·.address)
  have addresses : (pool.map (·.holding balanceOf)).map (·.address) = pool.map (·.address) := by
    rw [List.map_map]
    rfl
  refine sorted.nodup_iff.mpr (List.Nodup.sublist (List.filter_sublist.map _) ?_)
  rw [addresses]
  exact distinct

/-- No choice of fewer addresses than there are legs holds the amount: what is chosen without
a balance can be dropped, and the rest holds at most as much as the largest do.
-/
theorem takeLegs_fewest (notNegative : ∀ row ∈ pool, 0 ≤ balanceOf row.address) {amount : Int}
    {chosen : Finset String} (part : ∀ address ∈ chosen, address ∈ pool.map (·.address))
    (covers : amount ≤ ∑ address ∈ chosen, balanceOf address)
    : (takeLegs (fundedLargestFirst (pool.map (·.holding balanceOf))) amount).1.length
      ≤ chosen.card := by
  let funded := fundedLargestFirst (pool.map (·.holding balanceOf))
  let holders := chosen.filter fun address => 0 < balanceOf address
  have dropped : ∑ address ∈ holders, balanceOf address
      = ∑ address ∈ chosen, balanceOf address := by
    refine Finset.sum_filter_of_ne fun address member holds => ?_
    obtain ⟨row, inPool, rfl⟩ := List.mem_map.mp (part address member)
    exact lt_of_le_of_ne (notNegative row inPool) (Ne.symm holds)
  have listed : holders.toList.Subperm (funded.map (·.address)) := by
    refine List.subperm_of_subset holders.nodup_toList fun address member => ?_
    obtain ⟨inChosen, positive⟩ := Finset.mem_filter.mp (Finset.mem_toList.mp member)
    obtain ⟨row, inPool, rfl⟩ := List.mem_map.mp (part address inChosen)
    exact List.mem_map.mpr
      ⟨row.holding balanceOf, mem_fundedLargestFirst.mpr ⟨row, inPool, rfl, positive⟩, rfl⟩
  have chosenValues : (holders.toList.map balanceOf).Subperm (funded.map (·.balance)) := by
    obtain ⟨ordered, same, sublist⟩ := listed
    rw [balances_fundedLargestFirst]
    exact ⟨ordered.map balanceOf, same.map balanceOf, sublist.map balanceOf⟩
  have reaches : amount ≤ (holders.toList.map balanceOf).sum := by
    rw [Finset.sum_map_toList, dropped]
    exact covers
  have fewest := LargestFirst.le_length_of_reaches (fundedLargestFirst_sorted _)
    (fun _ few => takeLegs_short few) chosenValues reaches
  rw [List.length_map, Finset.length_toList] at fewest
  exact fewest.trans (Finset.card_filter_le _ _)

end Pool

/-- Over the distinct addresses of a merchant, whose balances are not negative, a gather fails
exactly on an amount that is not positive or that the addresses do not hold together. A plan
takes from distinct addresses of the merchant, under the index and the strategy recorded for
each, a positive amount that the address holds; the legs sum to the amount, and no set of
fewer addresses holds it.
-/
theorem gatherPool_fewest {rows : List PoolRow} {tenant merchant : Uuid} {chain : String}
    (asset : String) (amount : Int) {balanceOf : String → Int}
    (distinct
      : ((SqlPoolStore.addressesForMerchant rows tenant merchant chain).map
          (·.address)).Nodup)
    (notNegative
      : ∀ row ∈ SqlPoolStore.addressesForMerchant rows tenant merchant chain,
          0 ≤ balanceOf row.address)
    : ((∃ err, gatherPool rows tenant merchant chain asset amount balanceOf = .error err)
        ↔ amount ≤ 0
          ∨ ((SqlPoolStore.addressesForMerchant rows tenant merchant chain).map
              fun row => balanceOf row.address).sum < amount)
      ∧ ∀ plan, gatherPool rows tenant merchant chain asset amount balanceOf = .ok plan
          → (plan.legs.map (·.address)).Nodup
            ∧ (∀ leg ∈ plan.legs, ∃ row ∈ rows,
                row.tenant = tenant ∧ row.merchant = merchant ∧ row.chain = chain
                ∧ leg.toGatheredSource = row.source
                ∧ 0 < leg.amountBaseUnits ∧ leg.amountBaseUnits ≤ balanceOf row.address)
            ∧ total plan.legs = amount
            ∧ ∀ chosen : Finset String,
                (∀ address ∈ chosen,
                  address ∈ (SqlPoolStore.addressesForMerchant rows tenant merchant chain).map
                    (·.address))
                → amount ≤ ∑ address ∈ chosen, balanceOf address
                → plan.legs.length ≤ chosen.card := by
  let pool := SqlPoolStore.addressesForMerchant rows tenant merchant chain
  let funded := fundedLargestFirst (pool.map (·.holding balanceOf))
  have held : (funded.map (·.balance)).sum = (pool.map fun row => balanceOf row.address).sum := by
    have reported : ∀ source ∈ pool.map (·.holding balanceOf), 0 ≤ source.balance := by
      intro source member
      obtain ⟨row, inPool, rfl⟩ := List.mem_map.mp member
      exact notNegative row inPool
    rw [sum_fundedLargestFirst reported, List.map_map]
    rfl
  constructor
  · rw [gatherPool, gather_fails_iff]
    by_cases none : amount ≤ 0
    · simp [none]
    · have remainder : (takeLegs funded amount).2 = max 0 (amount - (funded.map (·.balance)).sum) :=
        takeLegs_remainder (by omega) fun _ member => fundedLargestFirst_held member
      rw [held] at remainder
      rw [or_iff_right none, or_iff_right none]
      change 0 < (takeLegs funded amount).2
        ↔ (pool.map fun row => balanceOf row.address).sum < amount
      rw [remainder, lt_max_iff]
      omega
  · intro plan done
    have legs : plan.legs = (takeLegs funded amount).1 := gather_legs done
    refine ⟨?_, ?_, plan.whole, ?_⟩
    · rw [legs]
      have first := ((takeLegs_front funded amount).map (·.address)).sublist
      rw [List.map_map, List.map_map] at first
      exact (nodup_fundedLargestFirst distinct).sublist first
    · intro leg member
      obtain ⟨source, inFunded, same, bounded⟩ := takeLegs_bounded (legs ▸ member)
      obtain ⟨row, inPool, rfl, -⟩ := mem_fundedLargestFirst.mp inFunded
      obtain ⟨inRows, ofTenant, ofMerchant, onChain⟩ :=
        SqlPoolStore.mem_addressesForMerchant.mp inPool
      exact ⟨row, inRows, ofTenant, ofMerchant, onChain, same, plan.positive leg member, bounded⟩
    · intro chosen part covers
      rw [legs]
      exact takeLegs_fewest notNegative part covers

/-- An address of the sample merchant. -/
def sampleRow (index : Nat) (address : String) : PoolRow :=
  { tenant := sampleTenant, merchant := sampleMerchant, chain := "TRON", derivationIndex := index
    address, state := .available, cooldownUntil := none, gatherStrategy := .eoaFundTransfer
    id := address, invoiceId := none }

/-- Two addresses, neither of which holds 100 alone. -/
theorem gatherPool_fewest_two
    : ∃ (rows : List PoolRow) (balanceOf : String → Int) (plan : GatherPlan 100),
        gatherPool rows sampleTenant sampleMerchant "TRON" "USDT" 100 balanceOf = .ok plan
        ∧ plan.legs.map (·.amountBaseUnits) = [80, 20]
        ∧ ∀ chosen : Finset String, chosen ⊆ {"a", "b"}
          → 100 ≤ ∑ address ∈ chosen, balanceOf address → 2 ≤ chosen.card := by
  let rows := [sampleRow 0 "a", sampleRow 1 "b"]
  let balanceOf (address : String) : Int := if address = "a" then 30 else 80
  let pool := SqlPoolStore.addressesForMerchant rows sampleTenant sampleMerchant "TRON"
  have listed : pool = rows := by decide +kernel
  have distinct : (pool.map (·.address)).Nodup := by
    rw [listed]
    decide
  have notNegative : ∀ row ∈ pool, 0 ≤ balanceOf row.address := by
    rw [listed]
    decide
  obtain ⟨fails, planned⟩ := gatherPool_fewest "USDT" 100 distinct notNegative
  have enough : ¬ ∃ err, gatherPool rows sampleTenant sampleMerchant "TRON" "USDT" 100 balanceOf
      = .error err := by
    rw [fails]
    change ¬ (_ ∨ (pool.map fun row => balanceOf row.address).sum < 100)
    rw [listed]
    decide
  cases done : gatherPool rows sampleTenant sampleMerchant "TRON" "USDT" 100 balanceOf with
  | error err => exact absurd ⟨err, done⟩ enough
  | ok plan =>
      have legs : plan.legs
          = (takeLegs (fundedLargestFirst (pool.map (·.holding balanceOf))) 100).1 :=
        gather_legs done
      have amounts : plan.legs.map (·.amountBaseUnits) = [80, 20] := by
        rw [legs, listed]
        decide +kernel
      obtain ⟨-, -, -, fewest⟩ := planned plan done
      refine ⟨rows, balanceOf, plan, done, amounts, fun chosen part covers => ?_⟩
      have two : plan.legs.length = 2 := by simpa using congrArg List.length amounts
      rw [← two]
      refine fewest chosen (fun address member => ?_) covers
      change address ∈ pool.map (·.address)
      rw [listed]
      simpa [rows, sampleRow] using part member

end PoolGatherer

end Cixtech.Attribution
