import Cixtech.Attribution.PoolStore
import Cixtech.Foundation.Executions
import Cixtech.Foundation.Processes

/-! Calls of the pool manager side by side, one statement of the store at a time. What a call
read may have changed when it writes; the conditional update, the row lock of a claim and the
constraints of the table are all that stands between them.
-/

namespace Cixtech.Attribution

open Cixtech.Common Cixtech.Foundation

/-- What the calls of one deployment have in common: the addresses of a chain are derived from
the one extended key of the engine.
-/
structure PoolEngine where
  derive : String → String → Nat → Except AppError String
  engineXpub : String
  /-- Whether the active strategy of a tenant is looked up. -/
  activeStrategy : Bool

def PoolEngine.addressAt (engine : PoolEngine) (chain : String) (derivationIndex : Nat)
    : Except AppError String :=
  engine.derive chain engine.engineXpub derivationIndex

/-- The strategy to mint under, of which the lookup may fail. -/
def PoolEngine.resolveStrategy (engine : PoolEngine)
    (lookup : Except AppError GatherStrategyKind)
    : Except AppError GatherStrategyKind :=
  if engine.activeStrategy then lookup else .ok .eoaFundTransfer

/-- The three operations that go through `apply`. -/
inductive PoolMove
  | markInUse
  | cool (cooldownUntil : Int)
  | release
  deriving DecidableEq

def PoolMove.action : PoolMove → PoolAction
  | .markInUse => .detect
  | .cool _ => .cool
  | .release => .release

def PoolMove.change : PoolMove → StateChange
  | .markInUse => .nothing
  | .cool cooldownUntil => { invoiceId := none, cooldownUntil := some (some cooldownUntil) }
  | .release => { invoiceId := some none, cooldownUntil := some none }

/-- An address to insert, which was derived from its index. -/
structure DerivedAddress (engine : PoolEngine) extends NewPoolAddress where
  derived : engine.addressAt chain derivationIndex = .ok address

/-- A move that the state just read allows. -/
structure AllowedMove where
  chain : String
  address : String
  move : PoolMove
  /-- The state that was read. -/
  before : PoolState
  state : PoolState
  allowed : nextPoolState before move.action = .ok state

/-- A call, by the statement it is about to issue. -/
inductive PoolCall (engine : PoolEngine)
  | claiming (request : AssignRequest)
  | numbering (request : AssignRequest)
  | minting (request : AssignRequest) (derivationIndex : Nat)
  | inserting (new : DerivedAddress engine)
  | assigned (request : AssignRequest) (address : String)
  | finding (chain address : String) (move : PoolMove)
  | moving (allowed : AllowedMove)
  | moved (row : PoolRow)
  | releasing (now : Int)
  | released (count : Nat)
  | failed (err : AppError)

def PoolCall.done {engine : PoolEngine} : PoolCall engine → Bool
  | .assigned .. | .moved .. | .released .. | .failed .. => true
  | _ => false

/-- What a statement meets: the rows that others have locked, the strategy that is looked up
and the key that is generated.
-/
structure Surroundings where
  locked : List String
  strategy : Except AppError GatherStrategyKind
  id : String

def concurrentModification (chain address : String) (action : PoolAction) : AppError :=
  { code := .poolConcurrentModification
    message :=
      s!"Pool address {address} changed state concurrently during {action.toText}"
    context :=
      [("chain", .text chain), ("address", .text address), ("action", .text action.toText)] }

/-- The next statement of a call, none where the call is done. -/
def advance (engine : PoolEngine) (rows : List PoolRow) (around : Surroundings)
    : PoolCall engine → Option (List PoolRow × PoolCall engine)
  | .claiming request =>
      let (later, claimed) :=
        SqlPoolStore.claimAvailable rows around.locked request.tenant request.merchant
          request.chain request.invoiceId
      match claimed with
      | some row => some (later, .assigned request row.address)
      | none => some (later, .numbering request)
  | .numbering request =>
      some (rows, .minting request (SqlPoolStore.nextIndex rows request.chain))
  | .minting request derivationIndex =>
      match engine.resolveStrategy around.strategy with
      | .error err => some (rows, .failed err)
      | .ok gatherStrategy =>
          match derived : engine.addressAt request.chain derivationIndex with
          | .error err => some (rows, .failed err)
          | .ok address =>
              some (rows,
                .inserting { request with derivationIndex, address, gatherStrategy, derived })
  | .inserting new =>
      match SqlPoolStore.insertReserved rows new.toNewPoolAddress around.id with
      | .error err => some (rows, .failed err)
      | .ok (later, row) => some (later, .assigned new.toAssignRequest row.address)
  | .finding chain address move =>
      match SqlPoolStore.findByAddress rows chain address with
      | none => some (rows, .failed (PoolManager.addressNotFound chain address))
      | some row =>
          match allowed : nextPoolState row.state move.action with
          | .error err => some (rows, .failed err)
          | .ok state =>
              some (rows, .moving { chain, address, move, before := row.state, state, allowed })
  | .moving allowed =>
      let (later, updated) :=
        SqlPoolStore.setState rows allowed.chain allowed.address allowed.before allowed.state
          allowed.move.change
      match updated with
      | some row => some (later, .moved row)
      | none =>
          some (later, .failed
            (concurrentModification allowed.chain allowed.address allowed.move.action))
  | .releasing now =>
      let (later, count) := SqlPoolStore.releaseCooled rows now
      some (later, .released count)
  | _ => none

/-- Whether the next statement of a call frees a row. -/
def PoolCall.frees {engine : PoolEngine} (row : PoolRow) : PoolCall engine → Bool
  | .moving allowed =>
      decide (allowed.move = .release)
        && SqlPoolStore.selects allowed.chain allowed.address allowed.before row
  | .releasing now => row.cooled now
  | _ => false

/-- The table and the calls that were made, done or under way. -/
structure PoolSystem (engine : PoolEngine) where
  rows : List PoolRow
  calls : List (PoolCall engine)

inductive PoolEvent
  | assign (request : AssignRequest)
  | apply (chain address : String) (move : PoolMove)
  | releaseCooled (now : Int)
  /-- The call at a position issues its next statement. -/
  | proceed (call : Nat) (around : Surroundings)
  /-- What the call at a position awaits fails, or its process ends. -/
  | abandon (call : Nat) (err : AppError)

namespace PoolSystem

variable {engine : PoolEngine}

def initial (engine : PoolEngine) : PoolSystem engine := { rows := [], calls := [] }

def arriving (system : PoolSystem engine) (call : PoolCall engine) : PoolSystem engine :=
  { system with calls := system.calls ++ [call] }

def step (system : PoolSystem engine) : PoolEvent → Option (PoolSystem engine)
  | .assign request => some (system.arriving (.claiming request))
  | .apply chain address move => some (system.arriving (.finding chain address move))
  | .releaseCooled now => some (system.arriving (.releasing now))
  | .proceed index around =>
      match system.calls[index]? with
      | none => none
      | some call =>
          match advance engine system.rows around call with
          | none => none
          | some (rows, next) => some { rows, calls := system.calls.set index next }
  | .abandon index err =>
      match system.calls[index]? with
      | none => none
      | some call =>
          if call.done then none
          else some { system with calls := system.calls.set index (.failed err) }

/-- Whether an event frees a row. -/
def frees (system : PoolSystem engine) (event : PoolEvent) (row : PoolRow) : Bool :=
  match event with
  | .proceed index _ => (system.calls[index]?).any (·.frees row)
  | _ => false

end PoolSystem

-----------------------------------------------------------------------------
-- What one statement of a call does

theorem nextPoolState_ok {before state : PoolState} {action : PoolAction}
    (allowed : nextPoolState before action = .ok state)
    : before ∈ action.transition.1 ∧ state = action.transition.2 := by
  unfold nextPoolState at allowed
  split at allowed
  case isTrue contained =>
    cases allowed
    exact ⟨by simpa using contained, rfl⟩
  case isFalse => cases allowed

/-- A move that is allowed leaves a settled row settled. -/
theorem AllowedMove.settled (allowed : AllowedMove) (row : PoolRow)
    (here : row.state = allowed.before) (settled : row.Settled)
    : (row.moved allowed.state allowed.move.change).Settled := by
  obtain ⟨leaves, enters⟩ := nextPoolState_ok allowed.allowed
  obtain ⟨available, cooling⟩ := settled
  rw [← here] at leaves
  rw [enters]
  cases move : allowed.move with
  | markInUse =>
      rw [move] at leaves
      have reserved : row.state = .reserved := List.mem_singleton.mp leaves
      have uncooled : row.cooldownUntil = none := by simpa [reserved] using cooling
      have invoiced : row.invoiceId ≠ none := by simpa [reserved] using available
      exact ⟨by simp [PoolRow.moved, PoolMove.change, StateChange.nothing, PoolMove.action,
          PoolAction.transition, invoiced],
        by simp [PoolRow.moved, PoolMove.change, StateChange.nothing, PoolMove.action,
          PoolAction.transition, uncooled]⟩
  | cool cooldownUntil =>
      rw [move] at leaves
      have inUse : row.state = .inUse := List.mem_singleton.mp leaves
      have invoiced : row.invoiceId ≠ none := by simpa [inUse] using available
      exact ⟨by simp [PoolRow.moved, PoolMove.change, PoolMove.action, PoolAction.transition,
          invoiced],
        by simp [PoolRow.moved, PoolMove.change, PoolMove.action, PoolAction.transition]⟩
  | release =>
      exact ⟨by simp [PoolRow.moved, PoolMove.change, PoolMove.action, PoolAction.transition],
        by simp [PoolRow.moved, PoolMove.change, PoolMove.action, PoolAction.transition]⟩

/-- A move other than a release keeps an address taken, and its invoice. -/
theorem AllowedMove.holds (allowed : AllowedMove) (kept : allowed.move ≠ .release)
    : allowed.state ≠ .available ∧ allowed.move.change.invoiceId = none := by
  rw [(nextPoolState_ok allowed.allowed).2]
  cases move : allowed.move with
  | markInUse => exact ⟨by decide, rfl⟩
  | cool cooldownUntil => exact ⟨by simp [PoolMove.action, PoolAction.transition], rfl⟩
  | release => exact absurd move kept

/-- What the next statement of a call does to the rows. -/
theorem advance_effect {engine : PoolEngine} {rows later : List PoolRow} {around : Surroundings}
    {call next : PoolCall engine} (table : PoolTable engine.addressAt rows)
    (taken : advance engine rows around call = some (later, next))
    : StatementEffect engine.addressAt (fun row => call.frees row) rows later := by
  cases call with
  | claiming request =>
      have effect := SqlPoolStore.claimAvailable_effect table
        (fun row => (PoolCall.claiming request : PoolCall engine).frees row) around.locked
        request.tenant request.merchant request.chain request.invoiceId
      simp only [advance] at taken
      split at taken <;> (cases taken; exact effect)
  | numbering request =>
      cases taken
      exact .refl
  | minting request derivationIndex =>
      simp only [advance] at taken
      split at taken
      · cases taken
        exact .refl
      · split at taken <;> (cases taken; exact .refl)
  | inserting new =>
      simp only [advance] at taken
      split at taken
      case h_1 =>
        cases taken
        exact .refl
      case h_2 inserted row done =>
        cases taken
        exact (SqlPoolStore.insertReserved_effect new.derived done _).1
  | finding chain address move =>
      simp only [advance] at taken
      split at taken
      · cases taken
        exact .refl
      · split at taken <;> (cases taken; exact .refl)
  | moving allowed =>
      have effect : StatementEffect engine.addressAt
          (fun row => (PoolCall.moving allowed : PoolCall engine).frees row) rows
          (SqlPoolStore.setState rows allowed.chain allowed.address allowed.before allowed.state
            allowed.move.change).1 := by
        refine SqlPoolStore.setState_effect allowed.chain allowed.address allowed.settled ?_
        intro row selected _ kept
        refine allowed.holds fun release => ?_
        simp [PoolCall.frees, release, selected] at kept
      simp only [advance] at taken
      split at taken <;> (cases taken; exact effect)
  | releasing now =>
      cases taken
      exact SqlPoolStore.releaseCooled_effect now
  | _ => cases taken

/-- An address that a call was just given is reserved for its invoice. -/
theorem advance_assigned {engine : PoolEngine} {rows later : List PoolRow}
    {around : Surroundings} {call : PoolCall engine} {request : AssignRequest} {address : String}
    (taken : advance engine rows around call = some (later, .assigned request address))
    : ∃ row ∈ later, row.at_ = (request.chain, address) ∧ row.state = .reserved
        ∧ row.invoiceId = some request.invoiceId
        ∧ row.tenant = request.tenant ∧ row.merchant = request.merchant := by
  cases call with
  | claiming asked =>
      simp only [advance] at taken
      split at taken
      case h_1 row claimed =>
        cases taken
        obtain ⟨member, state, invoice, tenant, merchant, chain⟩ :=
          SqlPoolStore.claimAvailable_returns claimed
        exact ⟨row, member, by simp [PoolAddressRow.at_, chain], state, invoice, tenant, merchant⟩
      case h_2 => cases taken
  | inserting new =>
      simp only [advance] at taken
      split at taken
      case h_1 => cases taken
      case h_2 inserted row done =>
        cases taken
        obtain ⟨-, same⟩ := SqlPoolStore.insertReserved_effect new.derived done fun _ => false
        obtain ⟨rfl, rfl⟩ := Prod.mk.inj same
        exact ⟨_, List.mem_append_right _ List.mem_cons_self, rfl, rfl, rfl, rfl, rfl⟩
  | minting asked derivationIndex =>
      simp only [advance] at taken
      split at taken
      · cases taken
      · split at taken <;> cases taken
  | finding chain address move =>
      simp only [advance] at taken
      split at taken
      · cases taken
      · split at taken <;> cases taken
  | moving allowed =>
      simp only [advance] at taken
      split at taken <;> cases taken
  | _ => cases taken

-----------------------------------------------------------------------------
-- Whole runs

namespace PoolSystem

variable {engine : PoolEngine} {system next : PoolSystem engine} {event : PoolEvent}

/-- The call at a position has been given an address. -/
def Assigned (system : PoolSystem engine) (index : Nat) (request : AssignRequest)
    (address : String)
    : Prop :=
  system.calls[index]? = some (.assigned request address)

/-- An event leaves the rows, or one call issues its next statement. -/
theorem step_cases (taken : system.step event = some next)
    : (next.rows = system.rows
        ∧ ∀ index request address, next.Assigned index request address
          → system.Assigned index request address)
      ∨ ∃ index around call result,
          event = .proceed index around ∧ system.calls[index]? = some call
          ∧ advance engine system.rows around call = some (next.rows, result)
          ∧ next.calls = system.calls.set index result := by
  have arrives : ∀ call : PoolCall engine, (∀ request address, call ≠ .assigned request address)
      → system.arriving call = next
      → next.rows = system.rows
        ∧ ∀ index request address, next.Assigned index request address
          → system.Assigned index request address := by
    rintro call pending rfl
    refine ⟨rfl, fun index request address there => ?_⟩
    rcases Processes.get_append_cases there with ⟨-, same⟩ | before
    · exact absurd same.symm (pending request address)
    · exact before
  cases event with
  | assign request =>
      exact .inl (arrives _ (fun _ _ same => by cases same) (Option.some.inj taken))
  | apply chain address move =>
      exact .inl (arrives _ (fun _ _ same => by cases same) (Option.some.inj taken))
  | releaseCooled now =>
      exact .inl (arrives _ (fun _ _ same => by cases same) (Option.some.inj taken))
  | proceed index around =>
      simp only [step] at taken
      split at taken
      case h_1 => cases taken
      case h_2 call found =>
        split at taken
        case h_1 => cases taken
        case h_2 rows result advanced =>
          cases taken
          exact .inr ⟨index, around, call, result, rfl, found, advanced, rfl⟩
  | abandon index err =>
      simp only [step] at taken
      split at taken
      case h_1 => cases taken
      case h_2 call found =>
        split at taken
        case isTrue => cases taken
        case isFalse =>
          cases taken
          refine .inl ⟨rfl, fun other request address there => ?_⟩
          have acts : Processes.Acts system.calls (system.calls.set index (.failed err)) index
              call (.failed err) :=
            ⟨found, rfl⟩
          rcases acts.get_cases there with ⟨-, same⟩ | ⟨-, before⟩
          · cases same
          · exact before

/-- The table of a system is in order. -/
def InOrder (system : PoolSystem engine) : Prop := PoolTable engine.addressAt system.rows

theorem inOrder_initial : (initial engine).InOrder := PoolTable.empty

/-- What an event does to the rows. -/
theorem step_effect (table : system.InOrder)
    (taken : system.step event = some next)
    : StatementEffect engine.addressAt (system.frees event) system.rows next.rows := by
  rcases step_cases taken with ⟨same, -⟩ | ⟨index, around, call, result, rfl, found, advanced, -⟩
  · rw [same]
    exact .refl
  · have own : system.frees (.proceed index around) = fun row => call.frees row := by
      funext row
      simp [frees, found]
    rw [own]
    exact advance_effect table advanced

/-- The table is in order in every state reached. -/
theorem table_reached {guard : PoolSystem engine → PoolEvent → Prop}
    {start : PoolSystem engine} (table : start.InOrder)
    (reached : Reaches step guard start system)
    : system.InOrder :=
  reached.invariant table fun table _ taken =>
    PoolTable.effect table (step_effect table taken)

/-- What one system has minted stands in front of what a later one has. -/
def Extends (start system : PoolSystem engine) : Prop :=
  start.rows.map PoolRow.minted <+: system.rows.map PoolRow.minted

/-- What was minted stays as it was. -/
theorem extends_reached {guard : PoolSystem engine → PoolEvent → Prop}
    {start : PoolSystem engine} (table : start.InOrder)
    (reached : Reaches step guard start system)
    : start.Extends system := by
  refine reached.invariant_with (fun run => table_reached table run) (List.prefix_refl _) ?_
  intro state action after table before _ taken
  exact List.IsPrefix.trans before (step_effect table taken).minted_extends

/-- The row at a position is that of an address, taken for an invoice. -/
def HeldFor (position : Nat) (at_ : String × String) (invoiceId : String)
    (system : PoolSystem engine)
    : Prop :=
  ∃ row, system.rows[position]? = some row ∧ row.at_ = at_ ∧ row.state ≠ .available
    ∧ row.invoiceId = some invoiceId

/-- No row of an address is freed. -/
def Keeps (at_ : String × String) (system : PoolSystem engine) (event : PoolEvent) : Prop :=
  ∀ row ∈ system.rows, row.at_ = at_ → system.frees event row = false

/-- An address stays with its invoice until it is freed. -/
theorem held_reached {start : PoolSystem engine} {position : Nat} {at_ : String × String}
    {invoiceId : String} (table : start.InOrder) (held : start.HeldFor position at_ invoiceId)
    (reached : Reaches step (Keeps at_) start system)
    : system.HeldFor position at_ invoiceId := by
  refine reached.invariant_with (fun run => table_reached table run) held ?_
  rintro state action after table ⟨row, there, ofAddress, taken, invoice⟩ kept stepped
  have spared := kept row (List.mem_of_getElem? there) ofAddress
  obtain ⟨later, thereAfter, same, stays, unchanged⟩ :=
    (step_effect table stepped).held there taken spared
  exact ⟨later, thereAfter, same.trans ofAddress, stays, unchanged.trans invoice⟩

/-- An address that an event gives to a call is reserved for its invoice, in its only row. -/
theorem assigned_held (table : system.InOrder)
    (taken : system.step event = some next) {index : Nat} {request : AssignRequest}
    {address : String} (given : next.Assigned index request address)
    (before : ¬ system.Assigned index request address)
    : ∃ (position : Nat) (row : PoolRow), next.rows[position]? = some row
        ∧ row.at_ = (request.chain, address) ∧ row.state = .reserved
        ∧ row.invoiceId = some request.invoiceId
        ∧ row.tenant = request.tenant ∧ row.merchant = request.merchant
        ∧ ∀ other ∈ next.rows, other.at_ = (request.chain, address) → other = row := by
  rcases step_cases taken with ⟨-, old⟩ | ⟨acting, around, call, result, rfl, found, advanced, set⟩
  · exact absurd (old index request address given) before
  · have acts : Processes.Acts system.calls next.calls acting call result := ⟨found, set⟩
    rcases acts.get_cases given with ⟨-, rfl⟩ | ⟨-, old⟩
    · obtain ⟨row, member, ofAddress, reserved⟩ := advance_assigned advanced
      obtain ⟨position, there⟩ := List.mem_iff_getElem?.mp member
      have later : PoolTable engine.addressAt next.rows :=
        PoolTable.effect table (step_effect table taken)
      refine ⟨position, row, there, ofAddress, reserved.1, reserved.2.1, reserved.2.2.1,
        reserved.2.2.2, fun other inRows same => ?_⟩
      exact later.row_of_address inRows member (same.trans ofAddress.symm)
    · exact absurd old before

end PoolSystem

end Cixtech.Attribution
