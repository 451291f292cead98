import Cixtech.Attribution.PoolManager
import Mathlib.Data.List.MinMax

/-! The statements of the pool store over the whole rows of `pool_address`, each of which is
atomic, and what each of them does to the rows: it mints a row behind the others, or rewrites
columns that no address is told by.
-/

namespace Cixtech.Attribution

open Cixtech.Common Cixtech.Foundation

/-- A row of `pool_address` with its primary key and the invoice it is reserved for. -/
structure PoolRow extends PoolAddressRow where
  id : String
  invoiceId : Option String
  deriving DecidableEq

/-- What is written once, when an address is minted. -/
structure MintedColumns where
  tenant : Uuid
  merchant : Uuid
  chain : String
  derivationIndex : Nat
  address : String
  gatherStrategy : GatherStrategyKind
  deriving DecidableEq

def PoolRow.minted (row : PoolRow) : MintedColumns :=
  { tenant := row.tenant, merchant := row.merchant, chain := row.chain
    derivationIndex := row.derivationIndex, address := row.address
    gatherStrategy := row.gatherStrategy }

/-- The columns of `UNIQUE (tenant, merchant, chain, derivation_index)`. -/
def PoolRow.slot (row : PoolRow) : Uuid × Uuid × String × Nat :=
  (row.tenant, row.merchant, row.chain, row.derivationIndex)

/-- The columns that an action sets beside the state, none where it leaves them. -/
structure StateChange where
  invoiceId : Option (Option String)
  cooldownUntil : Option (Option Int)
  deriving DecidableEq

def StateChange.nothing : StateChange := { invoiceId := none, cooldownUntil := none }

def PoolRow.moved (state : PoolState) (change : StateChange) (row : PoolRow) : PoolRow :=
  { row with
      state
      invoiceId := change.invoiceId.getD row.invoiceId
      cooldownUntil := change.cooldownUntil.getD row.cooldownUntil }

/-- A row that is reserved for an invoice. -/
def PoolRow.reservedFor (invoiceId : String) (row : PoolRow) : PoolRow :=
  { row with state := .reserved, invoiceId := some invoiceId }

/-- A row whose cool-down is over by an instant. -/
def PoolRow.cooled (now : Int) (row : PoolRow) : Bool :=
  row.state = .cooling && row.cooldownUntil.any (· ≤ now)

def PoolRow.freed (row : PoolRow) : PoolRow :=
  { row with state := .available, invoiceId := none, cooldownUntil := none }

/-- What an address is asked for. -/
structure AssignRequest where
  tenant : Uuid
  merchant : Uuid
  chain : String
  invoiceId : String
  deriving DecidableEq

/-- The columns of an address to be minted. -/
structure NewPoolAddress extends AssignRequest where
  derivationIndex : Nat
  address : String
  gatherStrategy : GatherStrategyKind
  deriving DecidableEq

/-- The row that is inserted, with the key generated for it. -/
def NewPoolAddress.row (new : NewPoolAddress) (id : String) : PoolRow :=
  { tenant := new.tenant, merchant := new.merchant, chain := new.chain
    derivationIndex := new.derivationIndex, address := new.address, state := .reserved
    cooldownUntil := none, gatherStrategy := new.gatherStrategy, id
    invoiceId := some new.invoiceId }

namespace SqlPoolStore

/-- Whether a row is free for a merchant and not locked by another transaction. -/
def claimable (locked : List String) (tenant merchant : Uuid) (chain : String) (row : PoolRow)
    : Bool :=
  row.tenant = tenant && row.merchant = merchant && row.chain = chain && row.state = .available
    && !locked.contains row.id

/-- Reserve the free row of the lowest index, skipping locked rows. -/
def claimAvailable (rows : List PoolRow) (locked : List String) (tenant merchant : Uuid)
    (chain invoiceId : String)
    : List PoolRow × Option PoolRow :=
  match (rows.filter (claimable locked tenant merchant chain)).argmin (·.derivationIndex) with
  | none => (rows, none)
  | some row =>
      (Table.update (·.id) rows row.id (·.reservedFor invoiceId),
        some (row.reservedFor invoiceId))

/-- `COALESCE(MAX(derivation_index) + 1, 0)` over the rows of a chain. -/
def nextIndex (rows : List PoolRow) (chain : String) : Nat :=
  ((rows.filter fun row => row.chain = chain).map (·.derivationIndex + 1)).foldr max 0

/-- Insert an address, unless a constraint of the table forbids it. -/
def insertReserved (rows : List PoolRow) (new : NewPoolAddress) (id : String)
    : Except AppError (List PoolRow × PoolRow) :=
  let row := new.row id
  if rows.any fun other => other.id = id || other.at_ = row.at_ || other.slot = row.slot then
    .error (.plain "duplicate key value violates unique constraint")
  else .ok (rows ++ [row], row)

def findByAddress (rows : List PoolRow) (chain address : String) : Option PoolRow :=
  Table.lookup (·.at_) rows (chain, address)

/-- Whether the conditional update of an address selects a row. -/
def selects (chain address : String) (before : PoolState) (row : PoolRow) : Bool :=
  row.chain = chain && row.address = address && row.state = before

/-- Move an address from one state to another, if it is in the first one. -/
def setState (rows : List PoolRow) (chain address : String) (before state : PoolState)
    (change : StateChange)
    : List PoolRow × Option PoolRow :=
  (rows.map fun row => if selects chain address before row then row.moved state change else row,
    (rows.find? (selects chain address before)).map (·.moved state change))

/-- Free every address whose cool-down is over, and say how many there were. -/
def releaseCooled (rows : List PoolRow) (now : Int) : List PoolRow × Nat :=
  (rows.map fun row => if row.cooled now then row.freed else row,
    (rows.filter (·.cooled now)).length)

end SqlPoolStore

-----------------------------------------------------------------------------
-- What the statements leave

/-- The state of a row says whether it has an invoice and whether it is cooling. -/
structure PoolRow.Settled (row : PoolRow) : Prop where
  available : row.state = .available ↔ row.invoiceId = none
  cooling : row.state = .cooling ↔ row.cooldownUntil.isSome

/-- What holds of the rows at all times, for the addresses that the engine derives. -/
structure PoolTable (derive : String → Nat → Except AppError String) (rows : List PoolRow) : Prop
  where
  ids : (rows.map (·.id)).Nodup
  addresses : (rows.map (·.at_)).Nodup
  derived : ∀ row ∈ rows, derive row.chain row.derivationIndex = .ok row.address
  settled : ∀ row ∈ rows, row.Settled

/-- What one statement makes of the rows, of which it frees some. -/
inductive StatementEffect (derive : String → Nat → Except AppError String)
    (frees : PoolRow → Bool) (rows : List PoolRow)
    : List PoolRow → Prop
  /-- It rewrites rows but for what tells the addresses, and gives away none that is taken. -/
  | rewrites (change : PoolRow → PoolRow)
      (keeps : ∀ row, (change row).minted = row.minted ∧ (change row).id = row.id)
      (settled : ∀ row ∈ rows, row.Settled → (change row).Settled)
      (holds
        : ∀ row ∈ rows, row.state ≠ .available → frees row = false
          → (change row).state ≠ .available ∧ (change row).invoiceId = row.invoiceId)
      : StatementEffect derive frees rows (rows.map change)
  /-- It mints an address that is new to the table. -/
  | mints (row : PoolRow) (fresh : row.id ∉ rows.map (·.id)) (new : row.at_ ∉ rows.map (·.at_))
      (derived : derive row.chain row.derivationIndex = .ok row.address) (settled : row.Settled)
      : StatementEffect derive frees rows (rows ++ [row])

namespace PoolTable

variable {derive : String → Nat → Except AppError String} {rows later : List PoolRow}

theorem empty : PoolTable derive [] := by
  constructor <;> simp

theorem row_of_id (table : PoolTable derive rows) {row other : PoolRow} (member : row ∈ rows)
    (inRows : other ∈ rows) (same : row.id = other.id)
    : row = other :=
  List.inj_on_of_nodup_map table.ids member inRows same

theorem row_of_address (table : PoolTable derive rows) {row other : PoolRow} (member : row ∈ rows)
    (inRows : other ∈ rows) (same : row.at_ = other.at_)
    : row = other :=
  List.inj_on_of_nodup_map table.addresses member inRows same

theorem at_of_minted {row other : PoolRow} (same : row.minted = other.minted)
    : row.at_ = other.at_ := by
  have chain := congrArg MintedColumns.chain same
  have address := congrArg MintedColumns.address same
  exact Prod.ext chain address

/-- No two rows of a chain share their address or their index: the address follows from the
index.
-/
theorem row_unique (table : PoolTable derive rows) {first second : Nat} {row other : PoolRow}
    (atFirst : rows[first]? = some row) (atSecond : rows[second]? = some other)
    (chain : row.chain = other.chain)
    (shared : row.address = other.address ∨ row.derivationIndex = other.derivationIndex)
    : first = second := by
  have address : row.address = other.address := by
    rcases shared with same | index
    · exact same
    · have ofRow := table.derived row (List.mem_of_getElem? atFirst)
      have ofOther := table.derived other (List.mem_of_getElem? atSecond)
      rw [chain, index] at ofRow
      exact Except.ok.inj (ofRow.symm.trans ofOther)
  have inFirst : (rows.map (·.at_))[first]? = some row.at_ := by simp [atFirst]
  have inSecond : (rows.map (·.at_))[second]? = some row.at_ := by
    simp [atSecond, PoolAddressRow.at_, chain, address]
  obtain ⟨inRange, -⟩ := List.getElem?_eq_some_iff.mp inFirst
  exact (List.getElem?_inj inRange table.addresses).mp (inFirst.trans inSecond.symm)

/-- Every statement keeps the table. -/
theorem effect {frees : PoolRow → Bool} (table : PoolTable derive rows)
    (effect : StatementEffect derive frees rows later)
    : PoolTable derive later := by
  cases effect with
  | rewrites change keeps settled holds =>
      have ids : (rows.map change).map (·.id) = rows.map (·.id) := by
        rw [List.map_map]
        exact List.map_congr_left fun row _ => (keeps row).2
      have addresses : (rows.map change).map (·.at_) = rows.map (·.at_) := by
        rw [List.map_map]
        exact List.map_congr_left fun row _ => at_of_minted (keeps row).1
      refine ⟨ids ▸ table.ids, addresses ▸ table.addresses, ?_, ?_⟩
      · rintro _ changed
        obtain ⟨row, member, rfl⟩ := List.mem_map.mp changed
        have same := (keeps row).1
        have chain := congrArg MintedColumns.chain same
        have index := congrArg MintedColumns.derivationIndex same
        have address := congrArg MintedColumns.address same
        simp only [PoolRow.minted] at chain index address
        rw [chain, index, address]
        exact table.derived row member
      · rintro _ changed
        obtain ⟨row, member, rfl⟩ := List.mem_map.mp changed
        exact settled row member (table.settled row member)
  | mints row fresh new derived settled =>
      refine ⟨?_, ?_, ?_, ?_⟩
      · rw [List.map_append]
        exact table.ids.append (by simp) (by simpa using fresh)
      · rw [List.map_append]
        exact table.addresses.append (by simp) (by simpa using new)
      · intro other member
        rcases List.mem_append.mp member with old | last
        · exact table.derived other old
        · exact List.mem_singleton.mp last ▸ derived
      · intro other member
        rcases List.mem_append.mp member with old | last
        · exact table.settled other old
        · exact List.mem_singleton.mp last ▸ settled

end PoolTable

namespace StatementEffect

variable {derive : String → Nat → Except AppError String} {rows later : List PoolRow}
  {frees : PoolRow → Bool}

theorem refl : StatementEffect derive frees rows rows := by
  have whole : StatementEffect derive frees rows (rows.map id) :=
    .rewrites id (fun row => ⟨rfl, rfl⟩) (fun row _ settled => settled)
      fun row _ taken _ => ⟨taken, rfl⟩
  rwa [List.map_id] at whole

/-- What was minted stays as it was, in front of what is minted. -/
theorem minted_extends (effect : StatementEffect derive frees rows later)
    : rows.map PoolRow.minted <+: later.map PoolRow.minted := by
  cases effect with
  | rewrites change keeps settled holds =>
      have same : (rows.map change).map PoolRow.minted = rows.map PoolRow.minted := by
        rw [List.map_map]
        exact List.map_congr_left fun row _ => (keeps row).1
      exact same.symm ▸ List.prefix_refl (rows.map PoolRow.minted)
  | mints row fresh new derived settled =>
      rw [List.map_append]
      exact List.prefix_append _ _

/-- A taken address that is not freed stays with its invoice. -/
theorem held (effect : StatementEffect derive frees rows later) {index : Nat} {row : PoolRow}
    (there : rows[index]? = some row) (taken : row.state ≠ .available)
    (kept : frees row = false)
    : ∃ after, later[index]? = some after ∧ after.at_ = row.at_
        ∧ after.state ≠ .available ∧ after.invoiceId = row.invoiceId := by
  cases effect with
  | rewrites change keeps settled holds =>
      have stays := holds row (List.mem_of_getElem? there) taken kept
      exact ⟨change row, by simp [there], PoolTable.at_of_minted (keeps row).1, stays⟩
  | mints other fresh new derived settled =>
      obtain ⟨inRange, -⟩ := List.getElem?_eq_some_iff.mp there
      exact ⟨row, by rw [List.getElem?_append_left inRange, there], rfl, taken, rfl⟩

end StatementEffect

namespace SqlPoolStore

variable {derive : String → Nat → Except AppError String} {rows : List PoolRow}

theorem findByAddress_found {chain address : String} {row : PoolRow}
    (found : findByAddress rows chain address = some row)
    : row ∈ rows ∧ row.chain = chain ∧ row.address = address := by
  have own : row.at_ = (chain, address) := by
    simpa [findByAddress, Table.lookup] using List.find?_some found
  exact ⟨Table.lookup_mem found, Prod.mk.inj own⟩

theorem claimAvailable_chosen {locked : List String} {tenant merchant : Uuid} {chain : String}
    {row : PoolRow}
    (chosen
      : row ∈ (rows.filter (claimable locked tenant merchant chain)).argmin (·.derivationIndex))
    : row ∈ rows ∧ row.state = .available ∧ row.tenant = tenant ∧ row.merchant = merchant
      ∧ row.chain = chain := by
  obtain ⟨member, free⟩ := List.mem_filter.mp (List.argmin_mem chosen)
  simp only [claimable, Bool.and_eq_true, decide_eq_true_eq] at free
  obtain ⟨⟨⟨⟨ofTenant, ofMerchant⟩, ofChain⟩, available⟩, -⟩ := free
  exact ⟨member, available, ofTenant, ofMerchant, ofChain⟩

/-- A claim rewrites the one row it takes, which was available. -/
theorem claimAvailable_effect (table : PoolTable derive rows) (frees : PoolRow → Bool)
    (locked : List String) (tenant merchant : Uuid) (chain invoiceId : String)
    : StatementEffect derive frees rows
        (claimAvailable rows locked tenant merchant chain invoiceId).1 := by
  unfold claimAvailable
  split
  case h_1 => exact .refl
  case h_2 claimed chosen =>
    obtain ⟨member, available, -⟩ := claimAvailable_chosen chosen
    have only : ∀ row ∈ rows, row.id = claimed.id → row = claimed :=
      fun row inRows same => table.row_of_id inRows member same
    refine .rewrites _ (fun row => ?_) (fun row inRows settled => ?_)
        fun row inRows taken _ => ?_
    · split <;> exact ⟨rfl, rfl⟩
    · split
      case isTrue same =>
        have free : row.state = .available := only row inRows same ▸ available
        have cool : row.cooldownUntil = none := by
          simpa [free] using settled.cooling
        exact ⟨by simp [PoolRow.reservedFor], by simp [PoolRow.reservedFor, cool]⟩
      case isFalse => exact settled
    · have other : ¬ row.id = claimed.id := fun same => taken (only row inRows same ▸ available)
      rw [if_neg other]
      exact ⟨taken, rfl⟩

/-- A claim leaves the rows that are taken, and all of them where it finds none to take. -/
theorem claimAvailable_keeps (table : PoolTable derive rows) (locked : List String)
    (tenant merchant : Uuid) (chain invoiceId : String)
    : (∀ row ∈ rows, row.state ≠ .available
        → row ∈ (claimAvailable rows locked tenant merchant chain invoiceId).1)
      ∧ ((claimAvailable rows locked tenant merchant chain invoiceId).2 = none
        → (claimAvailable rows locked tenant merchant chain invoiceId).1 = rows) := by
  unfold claimAvailable
  split
  case h_1 => exact ⟨fun _ member _ => member, fun _ => rfl⟩
  case h_2 claimed chosen =>
    obtain ⟨member, available, -⟩ := claimAvailable_chosen chosen
    refine ⟨fun row inRows taken => ?_, fun none => by cases none⟩
    have other : ¬ row.id = claimed.id := fun same =>
      taken (table.row_of_id inRows member same ▸ available)
    exact List.mem_map.mpr ⟨row, inRows, if_neg other⟩

/-- The row that a claim returns is in the table. -/
theorem claimAvailable_returns {locked : List String} {tenant merchant : Uuid}
    {chain invoiceId : String} {row : PoolRow}
    (claimed
      : (claimAvailable rows locked tenant merchant chain invoiceId).2 = some row)
    : row ∈ (claimAvailable rows locked tenant merchant chain invoiceId).1
      ∧ row.state = .reserved ∧ row.invoiceId = some invoiceId
      ∧ row.tenant = tenant ∧ row.merchant = merchant ∧ row.chain = chain := by
  unfold claimAvailable at claimed ⊢
  split at claimed
  case h_1 => cases claimed
  case h_2 chosen taken =>
    obtain ⟨member, -, owner⟩ := claimAvailable_chosen taken
    cases claimed
    simp only
    refine ⟨List.mem_map.mpr ⟨chosen, member, if_pos rfl⟩, rfl, rfl, owner⟩

/-- An insertion that the constraints allow mints an address. -/
theorem insertReserved_effect {new : NewPoolAddress} {id : String}
    {inserted : List PoolRow × PoolRow}
    (derived : derive new.chain new.derivationIndex = .ok new.address)
    (done : insertReserved rows new id = .ok inserted) (frees : PoolRow → Bool)
    : StatementEffect derive frees rows inserted.1
      ∧ inserted = (rows ++ [new.row id], new.row id) := by
  unfold insertReserved at done
  dsimp only at done
  split at done
  case isTrue => cases done
  case isFalse free =>
    cases done
    simp only [List.any_eq_true, Bool.or_eq_true, decide_eq_true_eq, not_exists, not_and, not_or]
      at free
    refine ⟨.mints _ ?_ ?_ derived ⟨?_, ?_⟩, rfl⟩
    · intro taken
      obtain ⟨other, member, same⟩ := List.mem_map.mp taken
      exact (free other member).1.1 same
    · intro taken
      obtain ⟨other, member, same⟩ := List.mem_map.mp taken
      exact (free other member).1.2 same
    · simp [NewPoolAddress.row]
    · simp [NewPoolAddress.row]

/-- A release of what has cooled frees just that. -/
theorem releaseCooled_effect (now : Int)
    : StatementEffect derive (·.cooled now) rows (releaseCooled rows now).1 := by
  refine .rewrites _ (fun row => ?_) (fun row _ settled => ?_) fun row _ taken kept => ?_
  · split <;> exact ⟨rfl, rfl⟩
  · split
    case isTrue => exact ⟨by simp [PoolRow.freed], by simp [PoolRow.freed]⟩
    case isFalse => exact settled
  · rw [if_neg (by simp [kept])]
    exact ⟨taken, rfl⟩

/-- A conditional update that leaves its rows settled frees at most the rows it selects. -/
theorem setState_effect {before state : PoolState} {change : StateChange} (chain address : String)
    (settled
      : ∀ row : PoolRow, row.state = before → row.Settled → (row.moved state change).Settled)
    {frees : PoolRow → Bool}
    (holds
      : ∀ row, selects chain address before row = true → row.state ≠ .available
        → frees row = false → state ≠ .available ∧ change.invoiceId = none)
    : StatementEffect derive frees rows (setState rows chain address before state change).1 := by
  refine .rewrites _ (fun row => ?_) (fun row _ settledRow => ?_) fun row _ taken kept => ?_
  · split <;> exact ⟨rfl, rfl⟩
  · split
    case isTrue selected =>
      simp only [selects, Bool.and_eq_true, decide_eq_true_eq] at selected
      exact settled row selected.2 settledRow
    case isFalse => exact settledRow
  · split
    case isTrue selected =>
      obtain ⟨stays, same⟩ := holds row selected taken kept
      exact ⟨stays, by simp [PoolRow.moved, same]⟩
    case isFalse => exact ⟨taken, rfl⟩

end SqlPoolStore

end Cixtech.Attribution
