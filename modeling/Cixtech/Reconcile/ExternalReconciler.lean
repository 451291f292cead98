import Cixtech.Attribution.PoolManager
import Cixtech.ChainConfig.Tokens
import Cixtech.Ledger.Service
import Mathlib.Data.List.Dedup

/-! The external reconciler, which compares the ledger's pool accounts with what an
independent source reports of their addresses, and the worker's wiring of it: the groups that
the pool table enumerates and the assets that it is constructed with.
-/

namespace Cixtech.Reconcile

open Cixtech.Attribution Cixtech.ChainConfig Cixtech.Common Cixtech.Ledger

-----------------------------------------------------------------------------
-- The groups of pool addresses

/-- The columns that a group query selects. -/
structure GroupRow where
  tenant : Uuid
  merchant : Uuid
  chain : String
  deriving DecidableEq

structure PoolGroup extends GroupRow where
  addresses : List String
  deriving DecidableEq

def groupOf (row : PoolAddressRow) : GroupRow :=
  { tenant := row.tenant, merchant := row.merchant, chain := row.chain }

/-- `ORDER BY chain, tenant, merchant`. -/
def GroupRow.before (left right : GroupRow) : Bool :=
  left.chain < right.chain
  || (left.chain = right.chain
      && (left.tenant.text < right.tenant.text
        || (left.tenant.text = right.tenant.text && left.merchant.text ≤ right.merchant.text)))

/-- `SELECT DISTINCT … WHERE state != 'AVAILABLE'`. -/
def activeGroups (rows : List PoolAddressRow) : List GroupRow :=
  ((rows.filter fun row => row.state ≠ .available).map groupOf).dedup.insertionSort
    fun left right => left.before right = true

def addressesInGroup (rows : List PoolAddressRow) (group : GroupRow) : List String :=
  (rows.filter fun row => groupOf row = group).map (·.address)

/-- `SqlPoolGroupEnumerator.poolGroups`. -/
def poolGroups (rows : List PoolAddressRow) : List PoolGroup :=
  (activeGroups rows).map fun group =>
    { group with addresses := addressesInGroup rows group }

-----------------------------------------------------------------------------
-- The reconciler

structure ExternalDriftRow where
  tenant : String
  merchant : String
  chain : String
  asset : String
  ledger : Int
  onChain : Int
  deriving DecidableEq, Repr

structure ExternalReconResult where
  drift : List ExternalDriftRow
  tripped : Bool
  deriving DecidableEq, Repr

/-- What the reconciler is constructed with. The source reports the balance of an address on
a chain in an asset.
-/
structure ExternalReconciler where
  casing : Casing
  ledger : SqlLedger
  enumerator : List PoolGroup
  independent : String → String → String → Int
  assets : List String
  breaker : Bool

namespace ExternalReconciler

variable (reconciler : ExternalReconciler)

def ledgerBal (group : PoolGroup) (asset : String) : Int :=
  reconciler.ledger.balance (poolAddr group.chain group.merchant.text)
    (reconciler.casing.toUpperCase asset)

def onChain (group : PoolGroup) (asset : String) : Int :=
  (group.addresses.map fun address => reconciler.independent group.chain address asset).sum

/-- The row of a group and an asset, where the balances differ. -/
def compare (group : PoolGroup) (asset : String) : Option ExternalDriftRow :=
  if reconciler.ledgerBal group asset ≠ reconciler.onChain group asset then
    some
      { tenant := group.tenant.text, merchant := group.merchant.text, chain := group.chain, asset
        ledger := reconciler.ledgerBal group asset, onChain := reconciler.onChain group asset }
  else none

def drift : List ExternalDriftRow :=
  reconciler.enumerator.flatMap fun group => reconciler.assets.filterMap (reconciler.compare group)

/-- The reason that the breaker is tripped with. -/
def reason (drift : List ExternalDriftRow) : String :=
  "External reconciliation drift: "
  ++ String.intercalate "; "
      (drift.map fun row =>
        s!"{row.chain}/{row.merchant}/{row.asset}: ledger {row.ledger} vs chain {row.onChain}")

/-- The result of a run, with the reason that reaches the breaker. -/
def run : ExternalReconResult × Option String :=
  if reconciler.drift.length > 0 ∧ reconciler.breaker = true then
    ({ drift := reconciler.drift, tripped := true }, some (reason reconciler.drift))
  else ({ drift := reconciler.drift, tripped := false }, none)

end ExternalReconciler

/-- `Object.keys` of an array: its indices, written in decimal. -/
def objectKeys {α : Type} (items : List α) : List String :=
  (List.range items.length).map toString

/-- The reconciler as the worker constructs it, with the kill switch for its breaker. -/
def workerReconciler (casing : Casing) (ledger : SqlLedger) (rows : List PoolAddressRow)
    (independent : String → String → String → Int)
    : Except AppError ExternalReconciler := do
  let registry ← assetRegistry
  return {
    casing, ledger, independent
    enumerator := poolGroups rows
    assets := objectKeys registry
    breaker := true
  }

-----------------------------------------------------------------------------
-- What a run finds

theorem mem_poolGroups {rows : List PoolAddressRow} {group : PoolGroup}
    : group ∈ poolGroups rows
      ↔ ∃ row ∈ rows,
          row.state ≠ .available
          ∧ group = { groupOf row with addresses := addressesInGroup rows (groupOf row) } := by
  simp only [poolGroups, activeGroups, List.mem_map, List.mem_insertionSort, List.mem_dedup,
    List.mem_filter, decide_eq_true_eq]
  constructor
  · rintro ⟨_, ⟨row, ⟨member, active⟩, rfl⟩, rfl⟩
    exact ⟨row, member, active, rfl⟩
  · rintro ⟨row, member, active, rfl⟩
    exact ⟨_, ⟨row, ⟨member, active⟩, rfl⟩, rfl⟩

/-- A run finds drift exactly where a group and an asset of its own differ. -/
theorem ExternalReconciler.drift_ne_nil_iff (reconciler : ExternalReconciler)
    : reconciler.drift ≠ []
      ↔ ∃ group ∈ reconciler.enumerator, ∃ asset ∈ reconciler.assets,
          reconciler.ledgerBal group asset ≠ reconciler.onChain group asset := by
  constructor
  · intro found
    obtain ⟨row, member⟩ := List.exists_mem_of_ne_nil _ found
    simp only [drift, List.mem_flatMap, List.mem_filterMap, compare] at member
    obtain ⟨group, inGroups, asset, inAssets, compared⟩ := member
    split at compared
    case isTrue differ => exact ⟨group, inGroups, asset, inAssets, differ⟩
    case isFalse => cases compared
  · rintro ⟨group, inGroups, asset, inAssets, differ⟩
    have compared : reconciler.compare group asset ≠ none := by
      rw [compare, if_pos differ]
      exact Option.some_ne_none _
    obtain ⟨row, found⟩ := Option.ne_none_iff_exists'.mp compared
    exact List.ne_nil_of_mem
      (List.mem_flatMap.mpr ⟨group, inGroups, List.mem_filterMap.mpr ⟨asset, inAssets, found⟩⟩)

/-- With a breaker, drift and a trip come together. -/
theorem ExternalReconciler.run_tripped_iff {reconciler : ExternalReconciler}
    (breaker : reconciler.breaker = true)
    : reconciler.run.1.drift = reconciler.drift
      ∧ (reconciler.run.1.tripped = true ↔ reconciler.drift ≠ [])
      ∧ (reconciler.run.2 = none ↔ reconciler.drift = []) := by
  unfold run
  by_cases found : reconciler.drift = []
  · simp [found]
  · simp [found, breaker, List.length_pos_iff]

-----------------------------------------------------------------------------
-- What the worker's reconciler compares

section Worker

variable (casing : Casing) (ledger : SqlLedger) (rows : List PoolAddressRow)
  (independent : String → String → String → Int)

/-- The ledger balance of a group's pool account in an asset differs from what all addresses
of the group hold, in whatever state they are.
-/
def Differs (group : GroupRow) (asset : String) : Prop :=
  ledger.balance (poolAddr group.chain group.merchant.text) (casing.toUpperCase asset)
  ≠ ((addressesInGroup rows group).map fun address => independent group.chain address asset).sum

/-- Some group that owns an address differs in an asset of the registry. -/
def RegistryDiffers (registry : List AssetInfo) : Prop :=
  ∃ row ∈ rows, ∃ asset ∈ registry,
    Differs casing ledger rows independent (groupOf row) asset.symbol

/-- Some group with an address in play differs in an asset named by an index of the registry.
-/
def IndexDiffers (registry : List AssetInfo) : Prop :=
  ∃ row ∈ rows,
    row.state ≠ .available
    ∧ ∃ index < registry.length,
        Differs casing ledger rows independent (groupOf row) (toString index)

/-- The run reports drift and trips the breaker whenever a group differs in an asset of the
registry, and reports no drift when all agree.
-/
def Detects (registry : List AssetInfo) (result : ExternalReconResult) : Prop :=
  (RegistryDiffers casing ledger rows independent registry
    → result.drift ≠ [] ∧ result.tripped = true)
  ∧ (¬ RegistryDiffers casing ledger rows independent registry → result.drift = [])

variable {casing ledger rows independent}

/-- The worker's reconciler compares the indices of the registry. -/
theorem workerReconciler_drift {registry : List AssetInfo} {reconciler : ExternalReconciler}
    (known : assetRegistry = .ok registry)
    (wired : workerReconciler casing ledger rows independent = .ok reconciler)
    : reconciler.breaker = true
      ∧ (reconciler.drift ≠ [] ↔ IndexDiffers casing ledger rows independent registry) := by
  simp only [workerReconciler, known, bind, Except.bind, pure, Except.pure, Except.ok.injEq]
    at wired
  subst wired
  refine ⟨rfl, ?_⟩
  rw [ExternalReconciler.drift_ne_nil_iff]
  simp only [objectKeys, List.mem_map, List.mem_range]
  constructor
  · rintro ⟨group, inGroups, asset, ⟨index, inRegistry, rfl⟩, differ⟩
    obtain ⟨row, member, active, rfl⟩ := mem_poolGroups.mp inGroups
    exact ⟨row, member, active, index, inRegistry, differ⟩
  · rintro ⟨row, member, active, index, inRegistry, differ⟩
    exact ⟨_, mem_poolGroups.mpr ⟨row, member, active, rfl⟩, _, ⟨index, inRegistry, rfl⟩, differ⟩

/-- The worker's reconciler does its work exactly where a group that differs in an asset of
the registry comes with a group in play that differs in an asset named by an index of the
registry, and the other way round. Where nothing is held in assets of such names, that is
exactly where nothing differs.
-/
theorem worker_reconciler_detects_iff {registry : List AssetInfo}
    {reconciler : ExternalReconciler} (known : assetRegistry = .ok registry)
    (wired : workerReconciler casing ledger rows independent = .ok reconciler)
    : (Detects casing ledger rows independent registry reconciler.run.1
        ↔ (RegistryDiffers casing ledger rows independent registry
          ↔ IndexDiffers casing ledger rows independent registry))
      ∧ ((∀ index < registry.length,
            (∀ chain merchant,
              ledger.balance (poolAddr chain merchant) (casing.toUpperCase (toString index)) = 0)
            ∧ ∀ chain address, independent chain address (toString index) = 0)
          → (Detects casing ledger rows independent registry reconciler.run.1
            ↔ ¬ RegistryDiffers casing ledger rows independent registry)) := by
  obtain ⟨breaker, drifts⟩ := workerReconciler_drift known wired
  obtain ⟨same, tripped, -⟩ := ExternalReconciler.run_tripped_iff breaker
  have exact_ : Detects casing ledger rows independent registry reconciler.run.1
      ↔ (RegistryDiffers casing ledger rows independent registry
        ↔ IndexDiffers casing ledger rows independent registry) := by
    rw [Detects, tripped, same, and_self, ← drifts]
    constructor
    · rintro ⟨detects, silent⟩
      exact ⟨detects, fun found => by_contra fun agrees => found (silent agrees)⟩
    · rintro ⟨detects, sound⟩
      exact ⟨detects, fun agrees => by_contra fun found => agrees (sound found)⟩
  refine ⟨exact_, ?_⟩
  intro nothing
  have silent : ¬ IndexDiffers casing ledger rows independent registry := by
    rintro ⟨row, -, -, index, inRegistry, differ⟩
    obtain ⟨noLedger, noChain⟩ := nothing index inRegistry
    refine differ ?_
    rw [noLedger, List.map_congr_left fun address _ => noChain _ address]
    simp
  rw [exact_]
  exact ⟨fun same => fun differs => silent (same.mp differs),
    fun agrees => ⟨fun differs => absurd differs agrees, fun found => absurd found silent⟩⟩

end Worker

-----------------------------------------------------------------------------
-- A deposit that is not on the chain

/-- One address of the sample merchant, with an invoice. -/
def sampleRow : PoolAddressRow :=
  { tenant := sampleTenant, merchant := sampleMerchant, chain := "TRON", derivationIndex := 0
    address := "T1", state := .inUse, cooldownUntil := none
    gatherStrategy := .eoaFundTransfer }

/-- A ledger that credits the address with 1000. -/
def sampleLedger : SqlLedger :=
  { journal := []
    balances := [((poolAddr "TRON" sampleMerchant.text, "USDT"), 1000)] }

/-- The address is empty, and the run of the worker's reconciler finds nothing. -/
theorem worker_reconciler_misses
    : RegistryDiffers asciiCasing sampleLedger [sampleRow] (fun _ _ _ => 0)
        ((assetRegistry.toOption).getD [])
      ∧ (workerReconciler asciiCasing sampleLedger [sampleRow] (fun _ _ _ => 0)).toOption.map
          ExternalReconciler.run
        = some ({ drift := [], tripped := false }, none) := by
  refine ⟨⟨sampleRow, by simp, ⟨"USDT", 6,
    ["ARBITRUM", "AVALANCHE", "BASE", "BSC", "ETHEREUM", "OPTIMISM", "POLYGON", "TRON"], false⟩,
    by decide +kernel, ?_⟩, by decide +kernel⟩
  unfold Differs
  decide +kernel

/-- Where the address holds what the ledger says, the run rightly finds nothing. -/
theorem worker_reconciler_detects_agreement
    : ∃ registry reconciler,
        workerReconciler asciiCasing sampleLedger [sampleRow]
          (fun _ _ asset => if asset = "USDT" then 1000 else 0)
        = .ok reconciler
        ∧ Detects asciiCasing sampleLedger [sampleRow]
            (fun _ _ asset => if asset = "USDT" then 1000 else 0) registry
            reconciler.run.1 := by
  obtain ⟨registry, known⟩ : ∃ registry, assetRegistry = .ok registry := by
    have there := assetRegistry_symbols
    cases known : assetRegistry with
    | error err => simp [known, Except.toOption] at there
    | ok registry => exact ⟨registry, rfl⟩
  have symbols : registry.map AssetInfo.symbol
      = ["AVAX", "BNB", "ETH", "POL", "TRX", "USDC", "USDT"] := by
    simpa [known, Except.toOption] using assetRegistry_symbols
  have wired : workerReconciler asciiCasing sampleLedger [sampleRow]
      (fun _ _ asset => if asset = "USDT" then 1000 else 0)
      = .ok
          { casing := asciiCasing, ledger := sampleLedger
            independent := fun _ _ asset => if asset = "USDT" then 1000 else 0
            enumerator := poolGroups [sampleRow], assets := objectKeys registry
            breaker := true } := by
    simp [workerReconciler, known, bind, Except.bind, pure, Except.pure]
  refine ⟨registry, _, wired, ?_⟩
  refine (worker_reconciler_detects_iff known wired).1.mpr (iff_of_false ?_ ?_)
  · rintro ⟨row, member, asset, inRegistry, differ⟩
    obtain rfl := List.mem_singleton.mp member
    have named : asset.symbol ∈ registry.map AssetInfo.symbol := List.mem_map_of_mem inRegistry
    rw [symbols] at named
    have agrees : ∀ symbol ∈ ["AVAX", "BNB", "ETH", "POL", "TRX", "USDC", "USDT"],
        sampleLedger.balance (poolAddr "TRON" sampleMerchant.text)
            (asciiCasing.toUpperCase symbol)
          = ((addressesInGroup [sampleRow] (groupOf sampleRow)).map fun _ =>
              if symbol = "USDT" then (1000 : Int) else 0).sum := by
      decide +kernel
    exact differ (agrees asset.symbol named)
  · rintro ⟨row, member, -, index, inRegistry, differ⟩
    obtain rfl := List.mem_singleton.mp member
    have seven : registry.length = 7 := by
      simpa using congrArg List.length symbols
    have agrees : ∀ index < 7,
        sampleLedger.balance (poolAddr "TRON" sampleMerchant.text)
            (asciiCasing.toUpperCase (toString index))
          = ((addressesInGroup [sampleRow] (groupOf sampleRow)).map fun _ =>
              if toString index = "USDT" then (1000 : Int) else 0).sum := by
      decide +kernel
    exact differ (agrees index (seven ▸ inRegistry))

end Cixtech.Reconcile
