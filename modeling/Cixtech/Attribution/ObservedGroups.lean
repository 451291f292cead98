import Cixtech.Attribution.BalanceCache
import Cixtech.Common.Instant
import Cixtech.Foundation.DefaultMap
import Cixtech.Foundation.Joins
import Cixtech.Foundation.SqlLike
import Cixtech.Ledger.Solvency
import Mathlib.Data.List.Dedup

/-! The console's view of the pool addresses. An address counts as observed in an asset where the
cache has a row for it, and a failed read inserts one as a successful read does, so a group may
be shown as fully observed before anything was read of it.
-/

namespace Cixtech.Attribution

open Cixtech.Common Cixtech.Foundation Cixtech.Ledger

-----------------------------------------------------------------------------
-- The queries

structure PoolAddressFilter where
  chain : Option String := none
  tenant : Option String := none
  merchant : Option String := none
  state : Option String := none
  fundedOnly : Bool := false
  asset : Option String := none
  limit : Option Int := none
  offset : Option Int := none
  deriving DecidableEq, Repr

/-- A row of `adminPool.groupTotals`. -/
structure GroupTotals where
  chain : String
  merchant : Uuid
  onchain : Int
  addresses : Nat
  observed : Nat
  oldest : Option Int
  deriving DecidableEq

namespace AdminPool

/-- Each address with the cached balance that it has in the asset. -/
def joinBalances (addresses : List PoolAddressRow) (cache : List BalanceRow) (asset : String)
    : List (PoolAddressRow × Option BalanceRow) :=
  Table.leftJoin (fun row balance => balance.toBalanceTarget = row.target asset) addresses cache

/-- `$if(Boolean(wanted), …)`: a column is compared only with a text that is not empty, as it is
written in the table.
-/
def agrees (written : String → String) (wanted : Option String) (column : String) : Bool :=
  wanted.all fun text => text.isEmpty || column = written text

/-- The conditions that the filter adds. -/
def wanted (casing : Casing) (filter : PoolAddressFilter)
    (pair : PoolAddressRow × Option BalanceRow)
    : Bool :=
  agrees casing.toUpperCase filter.chain pair.1.chain
  && agrees id filter.tenant pair.1.tenant.text
  && agrees id filter.merchant pair.1.merchant.text
  && agrees casing.toUpperCase filter.state pair.1.state.toText
  && (!filter.fundedOnly || 0 < (pair.2.map BalanceRow.balanceBaseUnits).getD 0)

/-- `ORDER BY p.chain, p.tenant, p.merchant, p.derivation_index`. -/
def notAfter (left right : PoolAddressRow) : Bool :=
  left.chain < right.chain
  || (left.chain = right.chain
      && (left.tenant.text < right.tenant.text
        || (left.tenant.text = right.tenant.text
            && (left.merchant.text < right.merchant.text
              || (left.merchant.text = right.merchant.text
                  && left.derivationIndex ≤ right.derivationIndex)))))

/-- One page of the addresses, and how many there are. -/
def addressesWithBalance (casing : Casing) (addresses : List PoolAddressRow)
    (cache : List BalanceRow) (asset : String) (filter : PoolAddressFilter) (limit offset : Nat)
    : List (PoolAddressRow × Option BalanceRow) × Nat :=
  let found := (joinBalances addresses cache asset).filter (wanted casing filter)
  let ordered := found.insertionSort fun left right => notAfter left.1 right.1 = true
  ((ordered.drop offset).take limit, found.length)

/-- `GROUP BY p.chain, p.merchant`. The aggregates skip what the join left null. -/
def groupTotals (addresses : List PoolAddressRow) (cache : List BalanceRow) (asset : String)
    : List GroupTotals :=
  let joined := joinBalances addresses cache asset
  (joined.map fun pair => (pair.1.chain, pair.1.merchant)).dedup.map fun group =>
    let rows := joined.filter fun pair => (pair.1.chain, pair.1.merchant) = group
    let balances := rows.filterMap Prod.snd
    { chain := group.1
      merchant := group.2
      onchain := (balances.map BalanceRow.balanceBaseUnits).sum
      addresses := rows.length
      observed := balances.length
      oldest := (balances.map BalanceRow.observedAt).min? }

/-- `adminBalances.poolAddrForAsset`. -/
def poolAddrForAsset (balances : List NetRow) (asset : String) : List NetRow :=
  balances.filter fun row =>
    SqlLike.like row.1.1.toList "pool_addr:%".toList && row.1.2 = asset

end AdminPool

-----------------------------------------------------------------------------
-- The service

structure PoolAddressView where
  address : String
  tenant : String
  merchant : String
  chain : String
  derivationIndex : Nat
  state : String
  gatherStrategy : String
  cooldownUntil : Option String
  balanceBaseUnits : Option String
  observedAt : Option String
  lastError : Option String
  groupDriftBaseUnits : String
  deriving DecidableEq, Repr

structure PoolGroupView where
  chain : String
  merchant : String
  ledgerBaseUnits : String
  onChainBaseUnits : String
  driftBaseUnits : String
  addresses : Nat
  fullyObserved : Bool
  oldestObservation : Option String
  deriving DecidableEq, Repr

structure PoolAddressesView where
  asset : String
  total : Nat
  limit : Nat
  offset : Nat
  addresses : List PoolAddressView
  groups : List PoolGroupView
  deriving DecidableEq, Repr

namespace AdminService

/-- What a numeric query parameter that is a whole number is clamped to. -/
def clampLimit (limit : Option Int) : Nat := (min (max (limit.getD 100) 1) 500).toNat

/-- `${chain}:${merchant}`. -/
def groupKey (chain merchant : String) : String := chain ++ ":" ++ merchant

/-- `account.replace(/^pool_addr:/, "")`. -/
def withoutPoolAddr (account : String) : String :=
  if startsWith account "pool_addr:" then String.ofList (account.toList.drop 10) else account

/-- What the books hold of each group. -/
def ledgerByGroup (rows : List NetRow) : Except AppError (List (String × Int)) :=
  rows.foldlM
    (fun entries row => do
      let held ← normalBalance row.1.1 row.2
      return DefaultMap.modify 0 entries (withoutPoolAddr row.1.1) fun _ => held)
    []

def groupView (ledgerByGroup : List (String × Int)) (totals : GroupTotals) : PoolGroupView :=
  let ledger := DefaultMap.get 0 ledgerByGroup (groupKey totals.chain totals.merchant.text)
  { chain := totals.chain
    merchant := totals.merchant.text
    ledgerBaseUnits := toString ledger
    onChainBaseUnits := toString totals.onchain
    driftBaseUnits := toString (totals.onchain - ledger)
    addresses := totals.addresses
    fullyObserved := totals.observed = totals.addresses
    oldestObservation := totals.oldest.map toISOString }

/-- The drift of a group, of which the last one with the key counts. -/
def driftOf (groups : List PoolGroupView) (chain merchant : String) : String :=
  let found :=
    groups.reverse.find? fun group =>
      groupKey group.chain group.merchant = groupKey chain merchant
  (found.map PoolGroupView.driftBaseUnits).getD "0"

def addressView (groups : List PoolGroupView) (pair : PoolAddressRow × Option BalanceRow)
    : PoolAddressView :=
  { address := pair.1.address
    tenant := pair.1.tenant.text
    merchant := pair.1.merchant.text
    chain := pair.1.chain
    derivationIndex := pair.1.derivationIndex
    state := pair.1.state.toText
    gatherStrategy := pair.1.gatherStrategy.toText
    cooldownUntil := pair.1.cooldownUntil.map toISOString
    balanceBaseUnits := pair.2.map fun balance => toString balance.balanceBaseUnits
    observedAt := pair.2.map fun balance => toISOString balance.observedAt
    lastError := pair.2.bind BalanceRow.lastError
    groupDriftBaseUnits := driftOf groups pair.1.chain pair.1.merchant.text }

/-- The tables as one statement of the service finds them. -/
structure PoolTables where
  addresses : List PoolAddressRow
  cache : List BalanceRow

/-- The page is read from the tables at one moment, the groups from what they hold at a later
one.
-/
def poolAddresses (casing : Casing) (filter : PoolAddressFilter) (atPage atGroups : PoolTables)
    (balances : List NetRow)
    : Except AppError PoolAddressesView := do
  let asset := casing.toUpperCase (filter.asset.getD "USDT")
  let limit := clampLimit filter.limit
  let offset := (filter.offset.getD 0).toNat
  let (rows, total) :=
    AdminPool.addressesWithBalance casing atPage.addresses atPage.cache asset filter limit offset
  let ledgerByGroup ← ledgerByGroup (AdminPool.poolAddrForAsset balances asset)
  let groups :=
    (AdminPool.groupTotals atGroups.addresses atGroups.cache asset).map (groupView ledgerByGroup)
  return {
    asset, limit, offset, groups
    total := if rows.isEmpty then 0 else total
    addresses := rows.map (addressView groups)
  }

end AdminService

-----------------------------------------------------------------------------
-- What counts as observed

namespace AdminPool

/-- The addresses that `COUNT(b.observed_at)` counts. -/
def countedObserved (addresses : List PoolAddressRow) (cache : List BalanceRow) (asset : String)
    : List PoolAddressRow :=
  ((joinBalances addresses cache asset).filter fun pair => pair.2.isSome).map Prod.fst

variable {addresses : List PoolAddressRow} {cache : List BalanceRow} {asset : String}

/-- The join pairs an address with the cache's row of its target. -/
theorem joinBalances_eq (primaryKey : (cache.map BalanceRow.toBalanceTarget).Nodup)
    : joinBalances addresses cache asset
      = addresses.map fun row => (row, PoolBalanceCache.find cache (row.target asset)) :=
  Table.leftJoin_key (fun row : PoolAddressRow => row.target asset) primaryKey

theorem mem_countedObserved (primaryKey : (cache.map BalanceRow.toBalanceTarget).Nodup)
    {address : PoolAddressRow}
    : address ∈ countedObserved addresses cache asset
      ↔ address ∈ addresses
        ∧ (PoolBalanceCache.find cache (address.target asset)).isSome = true := by
  simp only [countedObserved, joinBalances_eq primaryKey, List.mem_map, List.mem_filter]
  constructor
  · rintro ⟨_, ⟨⟨row, member, rfl⟩, there⟩, rfl⟩
    exact ⟨member, there⟩
  · rintro ⟨member, there⟩
    exact ⟨_, ⟨⟨address, member, rfl⟩, there⟩, rfl⟩

/-- A group of which as many addresses are counted as it has is one of counted addresses. -/
theorem counted_of_observed {totals : GroupTotals}
    (member : totals ∈ groupTotals addresses cache asset)
    (all : totals.observed = totals.addresses) {pair : PoolAddressRow × Option BalanceRow}
    (joined : pair ∈ joinBalances addresses cache asset) (chain : pair.1.chain = totals.chain)
    (merchant : pair.1.merchant = totals.merchant)
    : pair.2.isSome = true := by
  obtain ⟨group, -, rfl⟩ := List.mem_map.mp member
  refine List.filterMap_length_eq_length.mp all pair (List.mem_filter.mpr ⟨joined, ?_⟩)
  simp only [decide_eq_true_eq]
  exact Prod.ext chain merchant

end AdminPool

namespace AdminService

variable {casing : Casing} {filter : PoolAddressFilter} {atPage atGroups : PoolTables}
  {balances : List NetRow} {view : PoolAddressesView}

/-- The groups that the service shows are those of the query, in the asset that it names. -/
theorem group_of_view
    (shown : poolAddresses casing filter atPage atGroups balances = .ok view)
    {group : PoolGroupView} (member : group ∈ view.groups)
    : ∃ totals ∈ AdminPool.groupTotals atGroups.addresses atGroups.cache view.asset,
        group.chain = totals.chain
        ∧ group.merchant = totals.merchant.text
        ∧ (group.fullyObserved = true ↔ totals.observed = totals.addresses) := by
  unfold poolAddresses at shown
  simp only [bind, Except.bind] at shown
  split at shown
  case h_1 => cases shown
  case h_2 entries _ =>
    cases shown
    obtain ⟨totals, there, rfl⟩ := List.mem_map.mp member
    exact ⟨totals, there, rfl, rfl, decide_eq_true_iff⟩

/-- A group is shown as fully observed only if each of its addresses is counted. -/
theorem counted_of_fullyObserved
    (primaryKey : (atGroups.cache.map BalanceRow.toBalanceTarget).Nodup)
    (shown : poolAddresses casing filter atPage atGroups balances = .ok view)
    {group : PoolGroupView} (member : group ∈ view.groups) (full : group.fullyObserved = true)
    {address : PoolAddressRow} (inPool : address ∈ atGroups.addresses)
    (chain : address.chain = group.chain) (merchant : address.merchant.text = group.merchant)
    : address ∈ AdminPool.countedObserved atGroups.addresses atGroups.cache view.asset := by
  obtain ⟨totals, there, sameChain, sameMerchant, counts⟩ := group_of_view shown member
  refine (AdminPool.mem_countedObserved primaryKey).mpr ⟨inPool, ?_⟩
  have joined : (address, PoolBalanceCache.find atGroups.cache (address.target view.asset))
      ∈ AdminPool.joinBalances atGroups.addresses atGroups.cache view.asset := by
    rw [AdminPool.joinBalances_eq primaryKey]
    exact List.mem_map_of_mem inPool
  refine AdminPool.counted_of_observed there (counts.mp full) joined (chain.trans sameChain) ?_
  exact Uuid.ext (merchant.trans sameMerchant)

end AdminService

-----------------------------------------------------------------------------
-- What is counted was read

namespace CacheSystem

variable {system next : CacheSystem} {event : CacheEvent}

/-- What a statement of the console finds. -/
def tables (system : CacheSystem) : AdminService.PoolTables :=
  { addresses := system.addresses, cache := system.cache }

/-- Whether only addresses that were read are counted as observed, whatever the pool holds. -/
def CountsReads (system : CacheSystem) : Prop :=
  ∀ addresses asset, ∀ address ∈ AdminPool.countedObserved addresses system.cache asset,
    address.target asset ∈ system.successes

/-- The pool's address at a target. -/
def addressAt (target : BalanceTarget) : PoolAddressRow :=
  { tenant := sampleTenant, merchant := sampleMerchant, chain := target.chain
    derivationIndex := 0, address := target.address, state := .available, cooldownUntil := none
    gatherStrategy := .eoaFundTransfer }

/-- What is counted was read exactly where every row is of a target that was read. -/
theorem countsReads_iff (consistent : Consistent system) : CountsReads system ↔ Seen system := by
  constructor
  · intro counts target there
    have own : (addressAt target).target target.asset = target := rfl
    have counted : addressAt target
        ∈ AdminPool.countedObserved [addressAt target] system.cache target.asset :=
      (AdminPool.mem_countedObserved consistent.primaryKey).mpr
        ⟨List.mem_singleton_self _, by rwa [own]⟩
    exact own ▸ counts _ _ _ counted
  · intro seen addresses asset address counted
    exact seen _ ((AdminPool.mem_countedObserved consistent.primaryKey).mp counted).2

end CacheSystem

/-- In every run of a refresh its workers read each target once and account for all of them,
and they come to an end. A failed read leaves what was recorded of a balance. Where no failure
takes effect before the first successful read of its target, whatever is counted as observed
was read, and a group is shown as fully observed only if all of its addresses were; the first
failure that does take effect before is counted.
-/
theorem refresh_accounts_for_reads (casing : Casing)
    : (∀ targets concurrency source {refresh},
        Reaches Refresh.step (fun _ _ => True) (Refresh.begin targets concurrency source) refresh
        → (∀ summary, refresh.summary = some summary
            → refresh.shared.taken = targets
              ∧ summary.observed + summary.failed = targets.length)
          ∧ (refresh.summary = none → ∃ turn after, refresh.step turn = some after)
          ∧ 0 ≤ refresh.work
          ∧ ∀ turn after, refresh.step turn = some after → after.work = refresh.work - 1)
      ∧ (∀ {system next : CacheSystem} {event}, system.step event = some next
          → ∀ {target row}, PoolBalanceCache.find system.cache target = some row
          → system.recordsBalance event ≠ some target
          → ∃ lastError, PoolBalanceCache.find next.cache target = some { row with lastError })
      ∧ (∀ {system},
          Reaches CacheSystem.step (fun system event => system.failsSeen event = true)
            CacheSystem.start system
          → system.CountsReads
            ∧ (∀ filter atPage balances view,
                AdminService.poolAddresses casing filter atPage system.tables balances = .ok view
                → ∀ group ∈ view.groups, group.fullyObserved = true
                → ∀ address ∈ system.addresses, address.chain = group.chain
                → address.merchant.text = group.merchant
                → address.target view.asset ∈ system.successes)
            ∧ ∀ event next, system.step event = some next
                → (next.CountsReads ↔ system.failsSeen event = true)) := by
  refine ⟨?_, CacheSystem.observation_kept, ?_⟩
  · intro targets concurrency source refresh reached
    obtain ⟨items, accounted⟩ := Refresh.accounted_of_reaches reached
    refine ⟨fun summary returned => ?_, Refresh.exists_step, accounted.work_nonneg, ?_⟩
    · rw [← items]
      exact accounted.summary returned
    · intro turn after taken
      obtain ⟨task, busy, advanced⟩ := Refresh.step_cases taken
      exact Refresh.work_advanced busy advanced
  · intro system reached
    have consistent := CacheSystem.consistent_of_reaches reached
    have seen := CacheSystem.seen_of_reaches reached
    have counts := (CacheSystem.countsReads_iff consistent).mpr seen
    refine ⟨counts, ?_, fun event next taken => ?_⟩
    · intro filter atPage balances view shown group member full address inPool chain merchant
      exact counts _ _ _
        (AdminService.counted_of_fullyObserved consistent.primaryKey shown member full inPool chain
          merchant)
    · rw [CacheSystem.countsReads_iff (consistent.step taken)]
      exact ⟨fun after => CacheSystem.failsSeen_of_seen after taken,
        fun allowed => seen.step consistent allowed taken⟩

def sampleTarget : BalanceTarget := { chain := "TRON", address := "TA", asset := "USDT" }

def sampleRow : BalanceRow :=
  { sampleTarget with
      balanceBaseUnits := 7, observedAt := 100, source := "worker", lastError := none }

/-- A row that was recorded, and a refresh whose read of it has failed. -/
def failingAgain : CacheSystem :=
  { addresses := [CacheSystem.addressAt sampleTarget]
    cache := [sampleRow]
    refreshes :=
      [(Refresh.begin [sampleTarget] none none).move 0 (RefreshTask.start sampleTarget)
        (.recordingFailure "timeout" 200)]
    successes := [sampleTarget] }

theorem refresh_accounts_for_reads_sample
    : (∃ refresh : Refresh,
        refresh.summary = some { observed := 1, failed := 1 }
        ∧ refresh.shared.taken = [sampleTarget, { sampleTarget with address := "TB" }])
      ∧ (∃ next lastError,
        failingAgain.step (.worker 0 0 .write) = some next
        ∧ PoolBalanceCache.find next.cache sampleTarget = some { sampleRow with lastError })
      ∧ ∃ system : CacheSystem, ∃ view,
        AdminService.poolAddresses asciiCasing {} { addresses := [], cache := [] } system.tables []
          = .ok view
        ∧ view.groups.map PoolGroupView.fullyObserved = [true]
        ∧ ∀ address ∈ system.addresses, address.target view.asset ∈ system.successes := by
  refine ⟨?_, ?_, ?_⟩
  · have runs : ∃ refresh,
        Reaches Refresh.step (fun _ _ => True)
          (Refresh.begin [sampleTarget, { sampleTarget with address := "TB" }] none none) refresh
        ∧ refresh.summary = some { observed := 1, failed := 1 } :=
      Reaches.exists_of_exec
        [(0, .answer 7 100), (1, .fail "timeout" 100), (1, .write), (0, .write), (1, .resume),
          (0, .resume)]
        (by decide)
    obtain ⟨refresh, reached, returned⟩ := runs
    exact ⟨refresh, returned,
      (((refresh_accounts_for_reads asciiCasing).1 _ none none reached).1 _ returned).1⟩
  · have step : failingAgain.step (.worker 0 0 .write) = some _ := rfl
    obtain ⟨lastError, kept⟩ :=
      (refresh_accounts_for_reads asciiCasing).2.1 step
        (show PoolBalanceCache.find failingAgain.cache sampleTarget = some sampleRow from rfl)
        (by decide)
    exact ⟨_, lastError, step, kept⟩
  · have runs : ∃ system,
        Reaches CacheSystem.step (fun system event => system.failsSeen event = true)
          CacheSystem.start system
        ∧ system.addresses = [CacheSystem.addressAt sampleTarget]
        ∧ (AdminService.poolAddresses asciiCasing {} { addresses := [], cache := [] }
            system.tables []).toOption.map PoolAddressesView.groups
          = some
              [{ chain := "TRON", merchant := "bb", ledgerBaseUnits := "0"
                 onChainBaseUnits := "7", driftBaseUnits := "7", addresses := 1
                 fullyObserved := true, oldestObservation := some "1970-01-01T00:00:00.100Z" }] :=
      Reaches.exists_of_exec
        [.setAddresses [CacheSystem.addressAt sampleTarget], .refresh [sampleTarget] none none,
          .worker 0 0 (.answer 7 100), .worker 0 0 .write, .worker 0 0 .resume]
        (by decide)
    obtain ⟨system, reached, pool, shown⟩ := runs
    cases answered : AdminService.poolAddresses asciiCasing {} { addresses := [], cache := [] }
        system.tables [] with
    | error err =>
        rw [answered] at shown
        cases shown
    | ok view =>
        rw [answered] at shown
        have groups : view.groups = [_] := Option.some.inj shown
        have full := ((refresh_accounts_for_reads asciiCasing).2.2 reached).2.1 {}
          { addresses := [], cache := [] } [] view answered _
          (groups ▸ List.mem_singleton_self _) rfl
        refine ⟨system, view, answered, by rw [groups]; rfl, fun address member => ?_⟩
        obtain rfl : address = CacheSystem.addressAt sampleTarget := by simpa [pool] using member
        exact full _ member rfl rfl

/-- One address, one refresh, a read that fails: the group is shown as fully observed, and nothing
was ever read.
-/
theorem failed_read_counted
    : ∃ system,
        Reaches CacheSystem.step (fun _ _ => True) CacheSystem.start system
        ∧ system.successes = []
        ∧ (AdminService.poolAddresses asciiCasing {} { addresses := [], cache := [] }
              system.tables []).toOption.map
            (fun view => view.groups.map fun group => (group.addresses, group.fullyObserved))
          = some [(1, true)] :=
  Reaches.exists_of_exec
    [.setAddresses [CacheSystem.addressAt sampleTarget], .refresh [sampleTarget] none none,
      .worker 0 0 (.fail "timeout" 100), .worker 0 0 .write, .worker 0 0 .resume]
    (by decide)

end Cixtech.Attribution
