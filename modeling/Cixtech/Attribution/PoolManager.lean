import Cixtech.Attribution.PoolGatherer
import Cixtech.Common.Text
import Cixtech.Foundation.Table

/-! The pool addresses and their states. A deposit is attributed through the row of its
address unless the address is available, and nothing that a deposit sets off makes an
address available again.
-/

namespace Cixtech.Attribution

open Cixtech.Common Cixtech.Foundation

inductive PoolState
  | available
  | reserved
  | inUse
  | cooling
  deriving DecidableEq, Repr

def PoolState.toText : PoolState → String
  | .available => "AVAILABLE"
  | .reserved => "RESERVED"
  | .inUse => "IN_USE"
  | .cooling => "COOLING"

inductive PoolAction
  | reserve
  | detect
  | cool
  | release
  deriving DecidableEq, Repr

def PoolAction.toText : PoolAction → String
  | .reserve => "reserve"
  | .detect => "detect"
  | .cool => "cool"
  | .release => "release"

/-- `TRANSITIONS`: the states an action may leave and the state it leads to. -/
def PoolAction.transition : PoolAction → List PoolState × PoolState
  | .reserve => ([.available], .reserved)
  | .detect => ([.reserved], .inUse)
  | .cool => ([.inUse], .cooling)
  | .release => ([.cooling, .reserved], .available)

def invalidTransition (current : PoolState) (action : PoolAction) : AppError :=
  let expected := String.intercalate " | " (action.transition.1.map PoolState.toText)
  { code := .poolInvalidTransition
    message :=
      s!"Cannot {action.toText} a pool address in state {current.toText} (expected {expected})"
    context := [("current", .text current.toText), ("action", .text action.toText)] }

def nextPoolState (current : PoolState) (action : PoolAction) : Except AppError PoolState :=
  if action.transition.1.contains current then .ok action.transition.2
  else .error (invalidTransition current action)

/-- A row of `pool_address`. The invoice it is reserved for is read by no modelled code. -/
structure PoolAddressRow where
  tenant : Uuid
  merchant : Uuid
  chain : String
  derivationIndex : Nat
  address : String
  state : PoolState
  cooldownUntil : Option Int
  gatherStrategy : GatherStrategyKind
  deriving DecidableEq

/-- The columns that identify an address. -/
def PoolAddressRow.at_ (row : PoolAddressRow) : String × String := (row.chain, row.address)

/-- `SET state`, with the end of the cool-down where one is given. -/
def PoolAddressRow.entering (state : PoolState) (cooldownUntil : Option Int)
    (row : PoolAddressRow)
    : PoolAddressRow :=
  { row with state, cooldownUntil := cooldownUntil.or row.cooldownUntil }

namespace PoolManager

def findByAddress (rows : List PoolAddressRow) (chain address : String)
    : Option PoolAddressRow :=
  Table.lookup PoolAddressRow.at_ rows (chain, address)

/-- The addresses in play on a chain. -/
def activeAddresses (rows : List PoolAddressRow) (chain : String) : List PoolAddressRow :=
  rows.filter fun row => row.chain = chain ∧ row.state ≠ .available

/-- The owner of an address, unless the address is available. -/
def resolve (rows : List PoolAddressRow) (chain address : String) : Option (Uuid × Uuid) :=
  match findByAddress rows chain address with
  | none => none
  | some row => if row.state = .available then none else some (row.tenant, row.merchant)

def addressNotFound (chain address : String) : AppError :=
  { code := .poolAddressNotFound, message := s!"No pool address {address} on {chain}"
    context := [("chain", .text chain), ("address", .text address)] }

/-- Move an address along an action. The conditional update finds the state just read. -/
def apply (rows : List PoolAddressRow) (chain address : String) (action : PoolAction)
    (cooldownUntil : Option Int)
    : Except AppError (List PoolAddressRow) :=
  match findByAddress rows chain address with
  | none => .error (addressNotFound chain address)
  | some row => do
      let state ← nextPoolState row.state action
      return Table.update PoolAddressRow.at_ rows (chain, address)
        (PoolAddressRow.entering state cooldownUntil)

def markInUse (rows : List PoolAddressRow) (chain address : String)
    : Except AppError (List PoolAddressRow) :=
  apply rows chain address .detect none

def cool (rows : List PoolAddressRow) (chain address : String) (cooldownUntil : Int)
    : Except AppError (List PoolAddressRow) :=
  apply rows chain address .cool (some cooldownUntil)

/-- An action that does not release leaves every address with the owner it had. -/
theorem resolve_apply {rows later : List PoolAddressRow} {chain address : String}
    {action : PoolAction} {cooldownUntil : Option Int}
    (keeps : action.transition.2 ≠ .available)
    (applied : apply rows chain address action cooldownUntil = .ok later)
    (reserves : PoolState.available ∉ action.transition.1) (otherChain otherAddress : String)
    : resolve later otherChain otherAddress = resolve rows otherChain otherAddress := by
  unfold apply at applied
  cases found : findByAddress rows chain address with
  | none => simp [found] at applied
  | some row =>
      simp only [found, nextPoolState] at applied
      split at applied
      case isFalse => cases applied
      case isTrue allowed =>
        cases applied
        have taken : row.state ≠ .available := by
          rintro free
          exact reserves (free ▸ by simpa using allowed)
        have looked := Table.lookup_update rows (otherChain, otherAddress) (chain, address)
          (PoolAddressRow.entering action.transition.2 cooldownUntil)
          fun old => show (old.entering _ _).at_ = old.at_ from rfl
        simp only [resolve, findByAddress] at found ⊢
        rw [looked]
        by_cases same : (otherChain, otherAddress) = (chain, address)
        · obtain ⟨rfl, rfl⟩ := Prod.mk.inj same
          simp [found, taken, keeps, PoolAddressRow.entering]
        · rw [if_neg same]

end PoolManager

end Cixtech.Attribution
