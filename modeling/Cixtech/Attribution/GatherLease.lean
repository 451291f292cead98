import Cixtech.Common.Text
import Cixtech.Foundation.Table

/-! The lease that keeps two operations from spending one merchant's addresses on one chain
at once. A row is taken over only when it has expired, and a release deletes the row only
for its holder.
-/

namespace Cixtech.Attribution

open Cixtech.Common Cixtech.Foundation

/-- A row of `pool_gather_lease`; `acquired_at` is written and never read. -/
structure LeaseRow where
  key : String
  holder : String
  expiresAt : Int
  deriving DecidableEq, Repr

/-- `DO UPDATE SET holder, expires_at`. -/
def LeaseRow.takenBy (holder : String) (expires : Int) (row : LeaseRow) : LeaseRow :=
  { row with holder, expiresAt := expires }

namespace GatherLease

def defaultTtlMs : Int := 120000

def key (casing : Casing) (tenant merchant chain : String) : String :=
  tenant ++ ":" ++ merchant ++ ":" ++ casing.toUpperCase chain

/-- `SELECT … WHERE key = …` on the lease table. -/
def find (leases : List LeaseRow) (leaseKey : String) : Option LeaseRow :=
  Table.lookup LeaseRow.key leases leaseKey

/-- The upsert of `acquire`: insert, or take over an expired row, and say whether a row came
back.
-/
def acquire (leases : List LeaseRow) (leaseKey holder : String) (now expires : Int)
    : List LeaseRow × Bool :=
  match find leases leaseKey with
  | none => (leases ++ [{ key := leaseKey, holder, expiresAt := expires }], true)
  | some incumbent =>
      if incumbent.expiresAt < now then
        (Table.update LeaseRow.key leases leaseKey (LeaseRow.takenBy holder expires), true)
      else (leases, false)

/-- `DELETE … WHERE key = … AND holder = …`. -/
def release (leases : List LeaseRow) (leaseKey holder : String) : List LeaseRow :=
  Table.delete leases fun row => row.key == leaseKey && row.holder == holder

/-- An acquired key is held by its new holder until the new expiry. -/
theorem find_acquire {leases : List LeaseRow} {leaseKey holder : String} {now expires : Int}
    (got : (acquire leases leaseKey holder now expires).2 = true)
    : find (acquire leases leaseKey holder now expires).1 leaseKey
      = some { key := leaseKey, holder, expiresAt := expires } := by
  unfold acquire at got ⊢
  cases held : find leases leaseKey with
  | none =>
      simp only [find, Table.lookup_append, Table.lookup_singleton] at held ⊢
      simp [held]
  | some incumbent =>
      rw [held] at got
      dsimp only at got ⊢
      split at got
      case isFalse => cases got
      case isTrue expired =>
        have same : incumbent.key = leaseKey := Table.lookup_key held
        rw [if_pos expired]
        simp only [find] at held ⊢
        rw [Table.lookup_update _ _ _ (LeaseRow.takenBy holder expires) fun _ => rfl,
          if_pos rfl, held]
        simp [LeaseRow.takenBy, same]

/-- Acquiring a key leaves the rows of the other keys alone. -/
theorem find_acquire_of_ne (leases : List LeaseRow) (holder : String) (now expires : Int)
    {leaseKey other : String} (apart : other ≠ leaseKey)
    : find (acquire leases leaseKey holder now expires).1 other = find leases other := by
  unfold acquire
  cases held : find leases leaseKey with
  | none => simp [find, Table.lookup_append, Table.lookup_singleton, apart.symm]
  | some incumbent =>
      dsimp only
      split
      case isFalse => rfl
      case isTrue =>
        simp only [find]
        rw [Table.lookup_update _ _ _ (LeaseRow.takenBy holder expires) fun _ => rfl,
          if_neg apart]

/-- A key whose row has not expired is not acquired. -/
theorem acquire_of_live {leases : List LeaseRow} {leaseKey holder : String}
    {now expires : Int} {row : LeaseRow} (held : find leases leaseKey = some row)
    (live : now ≤ row.expiresAt)
    : acquire leases leaseKey holder now expires = (leases, false) := by
  simp [acquire, held, Int.not_lt.mpr live]

/-- A refused acquisition leaves the table as it was. -/
theorem acquire_refused {leases : List LeaseRow} {leaseKey holder : String}
    {now expires : Int} (refused : (acquire leases leaseKey holder now expires).2 = false)
    : (acquire leases leaseKey holder now expires).1 = leases := by
  unfold acquire at refused ⊢
  split
  case h_1 absent => simp [absent] at refused
  case h_2 incumbent held =>
    rw [held] at refused
    dsimp only at refused ⊢
    split at refused
    case isTrue => cases refused
    case isFalse live => rw [if_neg live]

/-- A release under one key leaves the rows of the other keys alone. -/
theorem find_release_of_ne {leases : List LeaseRow} {leaseKey other holder : String}
    (apart : other ≠ leaseKey)
    : find (release leases leaseKey holder) other = find leases other := by
  refine Table.lookup_delete_of_kept fun row _ wanted => ?_
  simp [wanted, apart]

/-- A release by anyone but the holder leaves the row. -/
theorem find_release_of_holder {leases : List LeaseRow} {leaseKey holder : String}
    {row : LeaseRow} (held : find leases leaseKey = some row) (other : row.holder ≠ holder)
    : find (release leases leaseKey holder) leaseKey = some row :=
  Table.lookup_delete_of_spared held (by simp [other])

end GatherLease

end Cixtech.Attribution
