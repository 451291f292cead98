import Cixtech.Attribution.PoolCalls

/-! What holds of the pool addresses over all runs of concurrent calls. A call that no other
statement comes between does what the pool manager does as a whole.
-/

namespace Cixtech.Attribution

open Cixtech.Common Cixtech.Foundation

/-- The columns that deposits read. -/
def views (rows : List PoolRow) : List PoolAddressRow := rows.map (·.toPoolAddressRow)

theorem findByAddress_views (rows : List PoolRow) (chain address : String)
    : PoolManager.findByAddress (views rows) chain address
      = (SqlPoolStore.findByAddress rows chain address).map (·.toPoolAddressRow) := by
  rw [PoolManager.findByAddress, SqlPoolStore.findByAddress, Table.lookup, Table.lookup, views,
    List.find?_map]
  rfl

/-- The end of the cool-down that a move sets. -/
def PoolMove.cooldownUntil : PoolMove → Option Int
  | .cool cooldownUntil => some cooldownUntil
  | _ => none

/-- The conditional update of the state just read changes the row of the address. -/
theorem views_setState {rows : List PoolRow} (distinct : (rows.map (·.at_)).Nodup)
    {chain address : String} {row : PoolRow}
    (found : SqlPoolStore.findByAddress rows chain address = some row) {move : PoolMove}
    (kept : move ≠ .release) (state : PoolState)
    : views (SqlPoolStore.setState rows chain address row.state state move.change).1
      = Table.update PoolAddressRow.at_ (views rows) (chain, address)
          (PoolAddressRow.entering state move.cooldownUntil) := by
  obtain ⟨member, ofChain, ofAddress⟩ := SqlPoolStore.findByAddress_found found
  simp only [SqlPoolStore.setState, Table.update, views, List.map_map]
  refine List.map_congr_left fun other inRows => ?_
  by_cases here : other.at_ = (chain, address)
  · have same : other = row := by
      have ofOther := Table.lookup_of_mem distinct inRows
      rw [here] at ofOther
      exact Option.some.inj (ofOther.symm.trans found)
    have selected : SqlPoolStore.selects chain address row.state row = true := by
      simp [SqlPoolStore.selects, ofChain, ofAddress]
    have own : row.at_ = (chain, address) := same ▸ here
    simp only [Function.comp_apply, same, selected, own, if_true]
    cases move with
    | markInUse => rfl
    | cool cooldownUntil => rfl
    | release => exact absurd rfl kept
  · have missed : SqlPoolStore.selects chain address row.state other = false := by
      rw [Bool.eq_false_iff]
      intro selected
      simp only [SqlPoolStore.selects, Bool.and_eq_true, decide_eq_true_eq] at selected
      exact here (Prod.ext selected.1.1 selected.1.2)
    simp only [Function.comp_apply, missed, here, Bool.false_eq_true, if_false]

/-- The first statement of a move reads the state and asks whether the move is allowed. -/
theorem advance_finding (engine : PoolEngine) {rows : List PoolRow} {chain address : String}
    {move : PoolMove} {row : PoolRow} {state : PoolState}
    (found : SqlPoolStore.findByAddress rows chain address = some row)
    (allowed : nextPoolState row.state move.action = .ok state) (around : Surroundings)
    : advance engine rows around (.finding chain address move)
      = some (rows, .moving { chain, address, move, before := row.state, state, allowed }) := by
  simp only [advance, found]
  split
  case h_1 err refused =>
    rw [allowed] at refused
    cases refused
  case h_2 other same =>
    rw [allowed] at same
    cases same
    rfl

/-- A move that no other statement comes between is the move of the pool manager. -/
theorem advance_alone {engine : PoolEngine} {rows : List PoolRow}
    (table : PoolTable engine.addressAt rows) (chain address : String) {move : PoolMove}
    (kept : move ≠ .release) (around : Surroundings)
    : (∀ later,
        PoolManager.apply (views rows) chain address move.action move.cooldownUntil = .ok later
        → ∃ allowed after row,
            advance engine rows around (.finding chain address move) = some (rows, .moving allowed)
            ∧ advance engine rows around (.moving allowed) = some (after, .moved row)
            ∧ views after = later)
      ∧ ∀ err,
        PoolManager.apply (views rows) chain address move.action move.cooldownUntil = .error err
        → advance engine rows around (.finding chain address move)
          = some (rows, .failed err) := by
  have viewed := findByAddress_views rows chain address
  cases found : SqlPoolStore.findByAddress rows chain address with
  | none =>
      simp only [found, Option.map_none] at viewed
      simp only [PoolManager.apply, viewed, advance, found]
      refine ⟨fun later same => ?_, fun err same => ?_⟩
      · cases same
      · cases same
        rfl
  | some row =>
      simp only [found, Option.map_some] at viewed
      cases allowed : nextPoolState row.state move.action with
      | error refused =>
          simp only [PoolManager.apply, viewed, allowed, advance, found]
          refine ⟨fun later same => ?_, fun err same => ?_⟩
          · cases same
          · cases same
            split
            case h_1 other again =>
              rw [allowed] at again
              cases again
              rfl
            case h_2 state again =>
              rw [allowed] at again
              cases again
      | ok state =>
          have first := advance_finding engine found allowed around
          simp only [PoolManager.apply, viewed, allowed]
          refine ⟨fun later same => ?_, fun err same => ?_⟩
          case refine_2 => cases same
          cases same
          have updated : (SqlPoolStore.setState rows chain address row.state state
              move.change).2.isSome := by
            obtain ⟨member, ofChain, ofAddress⟩ := SqlPoolStore.findByAddress_found found
            simp only [SqlPoolStore.setState, Option.isSome_map, List.find?_isSome]
            exact ⟨row, member, by simp [SqlPoolStore.selects, ofChain, ofAddress]⟩
          obtain ⟨after, moved⟩ := Option.isSome_iff_exists.mp updated
          refine ⟨_, _, after, first, ?_, views_setState table.addresses found kept state⟩
          simp only [advance]
          rw [moved]

/-- Assign an address with nothing in between: claim a free one, or mint the next. -/
def PoolManager.assign (engine : PoolEngine) (rows : List PoolRow) (around : Surroundings)
    (request : AssignRequest)
    : Except AppError (List PoolRow × String) :=
  match SqlPoolStore.claimAvailable rows around.locked request.tenant request.merchant
      request.chain request.invoiceId with
  | (later, some row) => .ok (later, row.address)
  | (later, none) => do
      let derivationIndex := SqlPoolStore.nextIndex later request.chain
      let gatherStrategy ← engine.resolveStrategy around.strategy
      let address ← engine.addressAt request.chain derivationIndex
      let (after, row) ←
        SqlPoolStore.insertReserved later { request with derivationIndex, address, gatherStrategy }
          around.id
      return (after, row.address)

/-- What an assignment that does not fail did: it claimed a free address or minted one. -/
theorem PoolManager.assign_cases {engine : PoolEngine} {rows later : List PoolRow}
    {around : Surroundings} {request : AssignRequest} {address : String}
    (assigned : PoolManager.assign engine rows around request = .ok (later, address))
    : (∃ row,
        SqlPoolStore.claimAvailable rows around.locked request.tenant request.merchant
            request.chain request.invoiceId = (later, some row)
          ∧ address = row.address)
      ∨ ∃ before gatherStrategy minted row,
          SqlPoolStore.claimAvailable rows around.locked request.tenant request.merchant
              request.chain request.invoiceId = (before, none)
          ∧ engine.resolveStrategy around.strategy = .ok gatherStrategy
          ∧ engine.addressAt request.chain (SqlPoolStore.nextIndex before request.chain)
            = .ok minted
          ∧ SqlPoolStore.insertReserved before
                { request with
                    derivationIndex := SqlPoolStore.nextIndex before request.chain
                    address := minted, gatherStrategy }
                around.id
            = .ok (later, row)
          ∧ address = row.address := by
  unfold PoolManager.assign at assigned
  split at assigned
  case h_1 claimed row done =>
    cases assigned
    exact .inl ⟨row, done, rfl⟩
  case h_2 before none =>
    simp only [bind, Except.bind, pure, Except.pure] at assigned
    split at assigned
    · cases assigned
    case h_2 gatherStrategy resolved =>
      split at assigned
      · cases assigned
      case h_2 minted derived =>
        split at assigned
        · cases assigned
        case h_2 inserted stored =>
          cases assigned
          exact .inr ⟨before, gatherStrategy, minted, inserted.2, none, resolved, derived, stored,
            rfl⟩

/-- A call on its own issues its next statement. -/
theorem step_alone {engine : PoolEngine} {rows later : List PoolRow} {around : Surroundings}
    {call next : PoolCall engine} (advanced : advance engine rows around call = some (later, next))
    : PoolSystem.step { rows, calls := [call] } (.proceed 0 around)
      = some { rows := later, calls := [next] } := by
  simp [PoolSystem.step, advanced]

/-- A call that no other statement comes between assigns as the pool manager does. -/
theorem assign_alone {engine : PoolEngine} {rows later : List PoolRow} {around : Surroundings}
    {request : AssignRequest} {address : String}
    (assigned : PoolManager.assign engine rows around request = .ok (later, address))
    : Reaches PoolSystem.step (fun _ _ => True)
        ({ rows, calls := [.claiming request] } : PoolSystem engine)
        { rows := later, calls := [.assigned request address] } := by
  rcases PoolManager.assign_cases assigned with ⟨row, claimed, rfl⟩
    | ⟨before, gatherStrategy, minted, row, unclaimed, resolved, derived, stored, rfl⟩
  · have taken : advance engine rows around (.claiming request)
        = some (later, .assigned request row.address) := by
      simp only [advance, claimed]
    exact .tail .refl trivial (step_alone taken)
  · have first : advance engine rows around (.claiming request)
        = some (before, .numbering request) := by
      simp only [advance, unclaimed]
    have second : advance engine before around (.numbering request)
        = some (before, .minting request (SqlPoolStore.nextIndex before request.chain)) :=
      rfl
    let new : DerivedAddress engine :=
      { request with
          derivationIndex := SqlPoolStore.nextIndex before request.chain
          address := minted, gatherStrategy, derived }
    have third : advance engine before around
          (.minting request (SqlPoolStore.nextIndex before request.chain))
        = some (before, .inserting new) := by
      simp only [advance, resolved]
      split
      case h_1 err refused =>
        rw [derived] at refused
        cases refused
      case h_2 other same =>
        rw [derived] at same
        cases same
        rfl
    have fourth : advance engine before around (.inserting new)
        = some (later, .assigned request row.address) := by
      simp only [advance, new, stored]
    exact Reaches.refl.tail trivial (step_alone first)
      |>.tail trivial (step_alone second) |>.tail trivial (step_alone third)
      |>.tail trivial (step_alone fourth)

/-- The database table holds what it says of every address at all times, whatever calls run side
by side.
-/
theorem pool_consistent {engine : PoolEngine} {system : PoolSystem engine}
    (reached : Reaches PoolSystem.step (fun _ _ => True) (PoolSystem.initial engine) system)
    : (∀ row ∈ system.rows,
        (row.state = .available ↔ row.invoiceId = none)
        ∧ (row.state = .cooling ↔ row.cooldownUntil.isSome))
      ∧ (∀ (first second : Nat) (row other : PoolRow),
          system.rows[first]? = some row → system.rows[second]? = some other
          → row.chain = other.chain
          → row.address = other.address ∨ row.derivationIndex = other.derivationIndex
          → first = second)
      ∧ (∀ (event : PoolEvent) (next : PoolSystem engine) (index : Nat) (request : AssignRequest)
          (address : String),
          system.step event = some next → next.Assigned index request address
          → ¬ system.Assigned index request address
          → ∃ (position : Nat) (row : PoolRow),
              next.rows[position]? = some row
              ∧ row.at_ = (request.chain, address) ∧ row.state = .reserved
              ∧ row.invoiceId = some request.invoiceId
              ∧ row.tenant = request.tenant ∧ row.merchant = request.merchant
              ∧ (∀ other ∈ next.rows, other.at_ = (request.chain, address) → other = row)
              ∧ ∀ later,
                  Reaches PoolSystem.step (PoolSystem.Keeps (request.chain, address)) next later
                  → later.HeldFor position (request.chain, address) request.invoiceId)
      ∧ ∀ later,
          Reaches PoolSystem.step (fun _ _ => True) system later
          → system.rows.map PoolRow.minted <+: later.rows.map PoolRow.minted := by
  have inOrder : system.InOrder := PoolSystem.table_reached PoolSystem.inOrder_initial reached
  have table : PoolTable engine.addressAt system.rows := inOrder
  refine ⟨fun row member => ?_, fun first second row other atFirst atSecond => ?_, ?_, ?_⟩
  · have settled := table.settled row member
    exact ⟨settled.available, settled.cooling⟩
  · exact table.row_unique atFirst atSecond
  · intro event next index request address taken given before
    obtain ⟨position, row, there, ofAddress, reserved, invoice, tenant, merchant, only⟩ :=
      PoolSystem.assigned_held inOrder taken given before
    have held : next.HeldFor position (request.chain, address) request.invoiceId :=
      ⟨row, there, ofAddress, by simp [reserved], invoice⟩
    have after := table.effect (PoolSystem.step_effect inOrder taken)
    exact ⟨position, row, there, ofAddress, reserved, invoice, tenant, merchant, only,
      fun later run => PoolSystem.held_reached after held run⟩
  · exact fun later run => PoolSystem.extends_reached inOrder run

/-- An engine whose addresses are as long as their index. -/
def sampleEngine : PoolEngine where
  derive _ _ derivationIndex := .ok (String.ofList (List.replicate derivationIndex 'a'))
  engineXpub := "xpub"
  activeStrategy := false

/-- An address asked for on one chain. -/
def sampleRequest (merchant : Uuid) (invoiceId : String) : AssignRequest :=
  { tenant := sampleTenant, merchant, chain := "TRON", invoiceId }

/-- Nothing is locked. -/
def unlocked (id : String) : Surroundings :=
  { locked := [], strategy := .ok .eoaFundTransfer, id }

/-- Two calls that read the same index and are about to insert the same address. -/
def racing : PoolSystem sampleEngine where
  rows := []
  calls :=
    [ .inserting
        { sampleRequest sampleMerchant "i" with
            derivationIndex := 0, address := "", gatherStrategy := .eoaFundTransfer, derived := rfl },
      .inserting
        { sampleRequest sampleTenant "j" with
            derivationIndex := 0, address := "", gatherStrategy := .eoaFundTransfer, derived := rfl } ]

/-- The call that inserts first has the address, and the other is refused. -/
theorem pool_consistent_racing
    : ∃ next : PoolSystem sampleEngine,
        racing.step (.proceed 0 (unlocked "first")) = some next
        ∧ (∃ (position : Nat) (row : PoolRow),
            next.rows[position]? = some row ∧ row.at_ = ("TRON", "") ∧ row.state = .reserved
            ∧ row.invoiceId = some "i")
        ∧ (next.step (.proceed 1 (unlocked "second"))).map (·.rows) = some next.rows := by
  have executed : exec PoolSystem.step (fun _ _ => True) (PoolSystem.initial sampleEngine)
        [ .assign (sampleRequest sampleMerchant "i"), .assign (sampleRequest sampleTenant "j"),
          .proceed 0 (unlocked ""), .proceed 1 (unlocked ""), .proceed 0 (unlocked ""),
          .proceed 1 (unlocked ""), .proceed 0 (unlocked ""), .proceed 1 (unlocked "") ]
      = some racing :=
    rfl
  have given := (pool_consistent (.of_exec executed)).2.2.1
  obtain ⟨position, row, there, ofAddress, reserved, invoice, -⟩ :=
    given (.proceed 0 (unlocked "first")) _ 0 (sampleRequest sampleMerchant "i") "" rfl rfl
      (by simp [PoolSystem.Assigned, racing])
  exact ⟨_, rfl, ⟨position, row, there, ofAddress, reserved, invoice⟩, rfl⟩

end Cixtech.Attribution
