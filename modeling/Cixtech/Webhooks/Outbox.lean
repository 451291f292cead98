import Cixtech.Foundation.Table
import Mathlib.Data.List.Sort

/-! The outbox of webhooks: deliveries that are claimed for a while, a batch at a time, and
completed one by one. The completing statements name a delivery by its id alone.
-/

namespace Cixtech.Webhooks

open Cixtech.Foundation

inductive DeliveryStatus
  | pending
  | delivered
  | dead
  deriving DecidableEq, Repr

/-- A row of `webhook_delivery`. -/
structure DeliveryRow where
  id : String
  tenantId : String
  body : String
  status : DeliveryStatus
  attempts : Nat
  nextAttempt : Int
  lastError : Option String
  deriving DecidableEq, Repr

/-- A delivery as it was claimed. -/
structure DueDelivery where
  id : String
  tenantId : String
  body : String
  attempts : Nat
  deriving DecidableEq, Repr

def DeliveryRow.claimed (row : DeliveryRow) : DueDelivery :=
  { id := row.id, tenantId := row.tenantId, body := row.body, attempts := row.attempts }

/-- `MAX_ATTEMPTS`. -/
def maxAttempts : Nat := 8

/-- `backoffAt`: five seconds, doubled with each attempt, an hour at most. -/
def backoffAt (now : Int) (attempts : Nat) : Int := now + min (5000 * 2 ^ (attempts - 1)) 3600000

namespace WebhookOutbox

/-- Queue a delivery under a generated id, which the primary key makes a new one. -/
def enqueue (rows : List DeliveryRow) (id tenantId body : String) (now : Int)
    : List DeliveryRow :=
  Table.insertIgnore DeliveryRow.id rows
    { id, tenantId, body, status := .pending, attempts := 0, nextAttempt := now, lastError := none }

/-- Whether a delivery is due and not locked by another transaction. -/
def due (locked : List String) (now : Int) (row : DeliveryRow) : Bool :=
  row.status = .pending && row.nextAttempt ≤ now && !locked.contains row.id

/-- `SELECT … ORDER BY next_attempt LIMIT … FOR UPDATE SKIP LOCKED`. -/
def selectDue (rows : List DeliveryRow) (locked : List String) (now : Int) (limit : Nat)
    : List DeliveryRow :=
  ((rows.filter (due locked now)).insertionSort
    fun first second => first.nextAttempt ≤ second.nextAttempt).take limit

/-- Claim what is due, and put off what is claimed until the end of the claim. -/
def claimDue (rows : List DeliveryRow) (locked : List String) (now : Int) (limit : Nat)
    (leaseMs : Int)
    : List DeliveryRow × List DueDelivery :=
  let claimed := selectDue rows locked now limit
  let extended (row : DeliveryRow) : DeliveryRow :=
    if claimed.any fun other => other.id = row.id then { row with nextAttempt := now + leaseMs }
    else row
  (rows.map extended, claimed.map DeliveryRow.claimed)

def markDelivered (rows : List DeliveryRow) (id : String) : List DeliveryRow :=
  Table.update DeliveryRow.id rows id fun row => { row with status := .delivered }

/-- Record a failed attempt, of which the first five hundred characters of the error are kept. -/
def recordFailure (rows : List DeliveryRow) (id : String) (attempts : Nat) (nextAttempt : Int)
    (error : String) (dead : Bool)
    : List DeliveryRow :=
  Table.update DeliveryRow.id rows id fun row =>
    { row with
        attempts, nextAttempt, lastError := some (String.ofList (error.toList.take 500))
        status := if dead then .dead else .pending }

end WebhookOutbox

namespace AdminWebhooks

def kill (rows : List DeliveryRow) (id : String) : List DeliveryRow :=
  Table.update DeliveryRow.id rows id fun row => { row with status := .dead }

def replay (rows : List DeliveryRow) (id : String) (now : Int) : List DeliveryRow :=
  Table.update DeliveryRow.id rows id fun row =>
    { row with status := .pending, attempts := 0, nextAttempt := now, lastError := none }

end AdminWebhooks

-----------------------------------------------------------------------------
-- What the statements do to a delivery

/-- A delivery that is delivered or dead. -/
structure Terminal (rows : List DeliveryRow) (id : String) : Prop where
  stored : ∃ row ∈ rows, row.id = id
  ended : ∀ row ∈ rows, row.id = id → row.status ≠ .pending

/-- A delivery that is still to be made. -/
def Pending (rows : List DeliveryRow) (id : String) : Prop :=
  ∀ row ∈ rows, row.id = id → row.status = .pending

theorem Terminal.not_pending {rows : List DeliveryRow} {id : String} (terminal : Terminal rows id)
    : ¬ Pending rows id := by
  intro pending
  obtain ⟨row, member, own⟩ := terminal.stored
  exact terminal.ended row member own (pending row member own)

/-- A statement that rewrites rows, keeping ids, keeps a terminal delivery where it leaves its
rows out of the pending ones.
-/
theorem Terminal.map {rows : List DeliveryRow} {id : String} (terminal : Terminal rows id)
    {change : DeliveryRow → DeliveryRow} (ids : ∀ row, (change row).id = row.id)
    (ended : ∀ row ∈ rows, row.id = id → row.status ≠ .pending
      → (change row).status ≠ .pending)
    : Terminal (rows.map change) id := by
  obtain ⟨row, member, own⟩ := terminal.stored
  refine ⟨⟨change row, List.mem_map_of_mem member, (ids row).trans own⟩, ?_⟩
  intro changed inRows same
  obtain ⟨before, stored, rfl⟩ := List.mem_map.mp inRows
  have ofBefore := (ids before).symm.trans same
  exact ended before stored ofBefore (terminal.ended before stored ofBefore)

theorem Pending.map {rows : List DeliveryRow} {id : String} (pending : Pending rows id)
    {change : DeliveryRow → DeliveryRow} (ids : ∀ row, (change row).id = row.id)
    (stays : ∀ row ∈ rows, row.id = id → row.status = .pending
      → (change row).status = .pending)
    : Pending (rows.map change) id := by
  intro changed inRows same
  obtain ⟨before, stored, rfl⟩ := List.mem_map.mp inRows
  have ofBefore := (ids before).symm.trans same
  exact stays before stored ofBefore (pending before stored ofBefore)

namespace WebhookOutbox

variable {rows : List DeliveryRow} {id : String}

theorem mem_selectDue {locked : List String} {now : Int} {limit : Nat} {row : DeliveryRow}
    (selected : row ∈ selectDue rows locked now limit)
    : row ∈ rows ∧ row.status = .pending := by
  have member := (List.mem_insertionSort _).mp (List.mem_of_mem_take selected)
  obtain ⟨stored, isDue⟩ := List.mem_filter.mp member
  simp only [due, Bool.and_eq_true, decide_eq_true_eq] at isDue
  exact ⟨stored, isDue.1.1⟩

/-- What is claimed is pending, if its id is stored once. -/
theorem claimDue_pending {locked : List String} {now : Int} {limit : Nat} {leaseMs : Int}
    {delivery : DueDelivery}
    (claimed : delivery ∈ (claimDue rows locked now limit leaseMs).2)
    : ∃ row ∈ rows, row.id = delivery.id ∧ row.status = .pending := by
  obtain ⟨row, selected, rfl⟩ := List.mem_map.mp claimed
  obtain ⟨stored, pending⟩ := mem_selectDue selected
  exact ⟨row, stored, rfl, pending⟩

/-- A batch holds each delivery once. -/
theorem claimDue_nodup (distinct : (rows.map (·.id)).Nodup) (locked : List String) (now : Int)
    (limit : Nat) (leaseMs : Int)
    : ((claimDue rows locked now limit leaseMs).2.map (·.id)).Nodup := by
  have sorted := List.perm_insertionSort
    (fun first second : DeliveryRow => first.nextAttempt ≤ second.nextAttempt)
    (rows.filter (due locked now))
  have dueDistinct : ((rows.filter (due locked now)).map (·.id)).Nodup :=
    distinct.sublist (List.filter_sublist.map _)
  have sortedDistinct := (sorted.map DeliveryRow.id).nodup_iff.mpr dueDistinct
  have taken := sortedDistinct.sublist ((List.take_sublist limit _).map DeliveryRow.id)
  simpa [claimDue, selectDue, List.map_map, Function.comp_def, DeliveryRow.claimed] using taken

end WebhookOutbox

end Cixtech.Webhooks
