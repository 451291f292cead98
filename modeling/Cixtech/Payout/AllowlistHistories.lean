import Cixtech.Payout.PolicyLookups

/-! The stored allow-list over whole histories of adds and removes. An address that is listed
keeps the cool-down of the add that listed it, whatever is added later, until it is removed.
-/

namespace Cixtech.Payout

open Cixtech.Common Cixtech.Foundation

/-- The arguments of a call of `add`, with the clock that it reads. -/
structure AllowlistAdd where
  tenant : String
  merchant : String
  chain : String
  address : String
  cooldownMs : Int
  now : Int
  deriving DecidableEq, Repr

namespace AllowlistAdd

def key (new : AllowlistAdd) : String × String × String × String :=
  (new.tenant, new.merchant, new.chain, new.address)

/-- The instant from which an address is usable that the call lists. -/
def usableAt (new : AllowlistAdd) : Int := new.now + max 0 new.cooldownMs

def row (new : AllowlistAdd) : AllowlistRow :=
  { tenant := new.tenant, merchant := new.merchant, chain := new.chain, address := new.address
    usableAt := new.usableAt, addedAt := new.now }

end AllowlistAdd

inductive AllowlistCall
  | add (new : AllowlistAdd)
  | remove (tenant merchant chain address : String)
  deriving DecidableEq, Repr

namespace AllowlistCall

def key : AllowlistCall → String × String × String × String
  | .add new => new.key
  | .remove tenant merchant chain address => (tenant, merchant, chain, address)

def added : AllowlistCall → Option AllowlistAdd
  | .add new => some new
  | .remove _ _ _ _ => none

/-- The rows that a call leaves. -/
def run (rows : List AllowlistRow) : AllowlistCall → List AllowlistRow
  | .add new =>
      (SqlAllowlist.add rows new.tenant new.merchant new.chain new.address new.cooldownMs
        new.now).1
  | .remove tenant merchant chain address =>
      (SqlAllowlist.remove rows tenant merchant chain address).1

/-- The rows after a history of calls, from an empty table. -/
def rowsAfter (calls : List AllowlistCall) : List AllowlistRow := calls.foldl run []

@[simp]
theorem rowsAfter_append (calls : List AllowlistCall) (call : AllowlistCall)
    : rowsAfter (calls ++ [call]) = call.run (rowsAfter calls) := by
  simp [rowsAfter]

-----------------------------------------------------------------------------
-- The add that lists an address

/-- The adds of a key since it was last removed, or ever. -/
def addsSinceRemoval (key : String × String × String × String) (calls : List AllowlistCall)
    : List AllowlistAdd :=
  let own := calls.filter fun call => call.key = key
  (own.reverse.takeWhile fun call => call.added.isSome).reverse.filterMap added

def firstAdd (key : String × String × String × String) (calls : List AllowlistCall)
    : Option AllowlistAdd :=
  (addsSinceRemoval key calls).head?

section Steps

variable {key : String × String × String × String} (calls : List AllowlistCall)

theorem firstAdd_other {call : AllowlistCall} (other : call.key ≠ key)
    : firstAdd key (calls ++ [call]) = firstAdd key calls := by
  simp [firstAdd, addsSinceRemoval, other]

theorem firstAdd_add {new : AllowlistAdd} (own : new.key = key)
    : firstAdd key (calls ++ [.add new]) = (firstAdd key calls).or (some new) := by
  have mine : (AllowlistCall.add new).key = key := own
  simp [firstAdd, addsSinceRemoval, mine, added, List.head?_append]

theorem firstAdd_remove {tenant merchant chain address : String}
    : firstAdd (tenant, merchant, chain, address)
        (calls ++ [.remove tenant merchant chain address])
      = none := by
  have mine : (AllowlistCall.remove tenant merchant chain address).key
      = (tenant, merchant, chain, address) := rfl
  simp [firstAdd, addsSinceRemoval, mine, added]

end Steps

-----------------------------------------------------------------------------
-- What a call does to the row of a key

section Rows

variable (rows : List AllowlistRow)

theorem run_add (new : AllowlistAdd)
    : (AllowlistCall.add new).run rows = Table.insertIgnore AllowlistRow.key rows new.row := rfl

theorem lookup_run_other {call : AllowlistCall} {key : String × String × String × String}
    (other : call.key ≠ key)
    : Table.lookup AllowlistRow.key (call.run rows) key
      = Table.lookup AllowlistRow.key rows key := by
  cases call with
  | add new =>
      have apart : new.row.key ≠ key := other
      rw [run_add, Table.lookup_insertIgnore, if_neg apart, Option.or_none]
  | remove tenant merchant chain address =>
      refine Table.lookup_delete_of_kept fun row _ same => ?_
      have kept : row.key ≠ (tenant, merchant, chain, address) := fun gone =>
        other (gone.symm.trans same)
      simpa using kept

theorem lookup_run_remove (tenant merchant chain address : String)
    : Table.lookup AllowlistRow.key ((remove tenant merchant chain address).run rows)
        (tenant, merchant, chain, address)
      = none := by
  simp [Table.lookup, run, SqlAllowlist.remove, Table.delete]

end Rows

/-- After any history the row of a key is the one of the add that listed it, by induction on
the calls from the last one.
-/
theorem lookup_rowsAfter (calls : List AllowlistCall) (key : String × String × String × String)
    : Table.lookup AllowlistRow.key (rowsAfter calls) key
      = (firstAdd key calls).map AllowlistAdd.row := by
  induction calls using List.reverseRecOn with
  | nil => rfl
  | append_singleton earlier call ih =>
      rw [rowsAfter_append]
      by_cases own : call.key = key
      · cases call with
        | add new =>
            rw [run_add, Table.lookup_insertIgnore, ih, firstAdd_add earlier own,
              if_pos (show new.row.key = key from own)]
            cases firstAdd key earlier <;> rfl
        | remove tenant merchant chain address =>
            subst own
            rw [key, lookup_run_remove, firstAdd_remove]
            rfl
      · rw [lookup_run_other _ own, ih, firstAdd_other earlier own]

/-- Whether a destination is usable, by the add that listed it. -/
theorem usable_rowsAfter (calls : List AllowlistCall) (ctx : PayoutContext) (t : Int)
    : SqlAllowlist.usable (rowsAfter calls) ctx t = true
      ↔ ∃ first,
          firstAdd (ctx.tenant, ctx.merchant, ctx.chain, ctx.destination) calls = some first
          ∧ first.now + max 0 first.cooldownMs ≤ t := by
  rw [SqlAllowlist.usable, SqlAllowlist.usableAt, lookup_rowsAfter]
  cases firstAdd (ctx.tenant, ctx.merchant, ctx.chain, ctx.destination) calls with
  | none => simp
  | some first => simp [AllowlistAdd.row, AllowlistAdd.usableAt]

/-- A key has a row exactly where it was added since it was last removed. -/
theorem listed_rowsAfter (calls : List AllowlistCall) (key : String × String × String × String)
    : key ∈ (rowsAfter calls).map AllowlistRow.key ↔ (firstAdd key calls).isSome = true := by
  have found : (Table.lookup AllowlistRow.key (rowsAfter calls) key).isSome = true
      ↔ key ∈ (rowsAfter calls).map AllowlistRow.key := by
    simp [Table.lookup, List.find?_isSome]
  rw [← found, lookup_rowsAfter, Option.isSome_map]

/-- Adding an address that is listed changes no row, and answers with its old cool-down. -/
theorem add_of_listed {calls : List AllowlistCall} {new first : AllowlistAdd}
    (listed : firstAdd new.key calls = some first)
    : SqlAllowlist.add (rowsAfter calls) new.tenant new.merchant new.chain new.address
        new.cooldownMs new.now
      = (rowsAfter calls, first.usableAt) := by
  have stored : Table.lookup AllowlistRow.key (rowsAfter calls) new.key = some first.row := by
    rw [lookup_rowsAfter, listed]
    rfl
  have same : Table.insertIgnore AllowlistRow.key (rowsAfter calls) new.row = rowsAfter calls := by
    rw [Table.insertIgnore, if_pos]
    exact Option.isSome_of_eq_some stored
  refine Prod.ext same ?_
  change ((Table.lookup AllowlistRow.key
    (Table.insertIgnore AllowlistRow.key (rowsAfter calls) new.row) new.key).map
      (·.usableAt)).getD _ = _
  rw [same, stored]
  rfl

end AllowlistCall

end Cixtech.Payout
