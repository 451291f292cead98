import Cixtech.Foundation.Table

/-! The durable journal of payout intents: one row for each idempotency key, inserted once
and never deleted. The statements after the insert write the source address, the transaction
id and the status, and nothing else.
-/

namespace Cixtech.Payout

open Cixtech.Foundation

inductive PayoutIntentStatus
  | locked
  | broadcasting
  | broadcast
  | settled
  | failed
  deriving DecidableEq, Repr

structure PayoutIntent where
  id : String
  idempotencyKey : String
  tenant : String
  merchant : String
  chain : String
  asset : String
  amountBaseUnits : Int
  destination : String
  fromAddress : Option String
  txId : Option String
  status : PayoutIntentStatus
  requestedBy : Option String
  createdAt : Int
  deriving DecidableEq, Repr

/-- What a payout is about: whose money goes where. -/
structure Terms where
  tenant : String
  merchant : String
  chain : String
  asset : String
  amountBaseUnits : Int
  destination : String
  deriving DecidableEq, Repr

def PayoutIntent.terms (row : PayoutIntent) : Terms :=
  { tenant := row.tenant, merchant := row.merchant, chain := row.chain, asset := row.asset
    amountBaseUnits := row.amountBaseUnits, destination := row.destination }

structure NewIntent where
  idempotencyKey : String
  requestedBy : Option String
  tenant : String
  merchant : String
  chain : String
  asset : String
  amountBaseUnits : Int
  destination : String
  deriving DecidableEq, Repr

namespace PayoutIntent

/-- `SET from_address, status = 'broadcasting'`. -/
def sentFrom (fromAddress : String) (row : PayoutIntent) : PayoutIntent :=
  { row with fromAddress := some fromAddress, status := .broadcasting }

/-- `SET tx_id, status = 'broadcast'`. -/
def broadcastAs (txId : String) (row : PayoutIntent) : PayoutIntent :=
  { row with txId := some txId, status := .broadcast }

/-- `SET status = 'settled'`. -/
def settle (row : PayoutIntent) : PayoutIntent := { row with status := .settled }

/-- What the statements after the insert leave as it was: everything the insert wrote, and a
transaction id once there is one.
-/
structure Evolves (row later : PayoutIntent) : Prop where
  id : later.id = row.id
  key : later.idempotencyKey = row.idempotencyKey
  terms : later.terms = row.terms
  requestedBy : later.requestedBy = row.requestedBy
  createdAt : later.createdAt = row.createdAt
  txId : row.txId.isSome → later.txId.isSome

theorem Evolves.refl (row : PayoutIntent) : Evolves row row :=
  ⟨rfl, rfl, rfl, rfl, rfl, fun sent => sent⟩

theorem evolves_sentFrom (fromAddress : String) (row : PayoutIntent)
    : Evolves row (row.sentFrom fromAddress) :=
  ⟨rfl, rfl, rfl, rfl, rfl, fun sent => sent⟩

theorem evolves_broadcastAs (txId : String) (row : PayoutIntent)
    : Evolves row (row.broadcastAs txId) :=
  ⟨rfl, rfl, rfl, rfl, rfl, fun _ => rfl⟩

theorem evolves_settle (row : PayoutIntent) : Evolves row row.settle :=
  ⟨rfl, rfl, rfl, rfl, rfl, fun sent => sent⟩

end PayoutIntent

namespace PayoutJournal

/-- The row that `begin` inserts, with the column defaults of the table. -/
def newRow (id : String) (createdAt : Int) (intent : NewIntent) : PayoutIntent :=
  { id, idempotencyKey := intent.idempotencyKey, tenant := intent.tenant
    merchant := intent.merchant, chain := intent.chain, asset := intent.asset
    amountBaseUnits := intent.amountBaseUnits, destination := intent.destination
    fromAddress := none, txId := none, status := .locked
    requestedBy := intent.requestedBy, createdAt }

/-- The insert of `begin`, which leaves an existing row of the key alone. -/
def begin_ (rows : List PayoutIntent) (id : String) (createdAt : Int) (intent : NewIntent)
    : List PayoutIntent :=
  Table.insertIgnore PayoutIntent.idempotencyKey rows (newRow id createdAt intent)

def load (rows : List PayoutIntent) (key : String) : Option PayoutIntent :=
  Table.lookup PayoutIntent.idempotencyKey rows key

def loadById (rows : List PayoutIntent) (tenant id : String) : Option PayoutIntent :=
  rows.find? fun row => row.id = id ∧ row.tenant = tenant

def setFrom (rows : List PayoutIntent) (key fromAddress : String) : List PayoutIntent :=
  Table.update PayoutIntent.idempotencyKey rows key (PayoutIntent.sentFrom fromAddress)

def markBroadcast (rows : List PayoutIntent) (key txId : String) : List PayoutIntent :=
  Table.update PayoutIntent.idempotencyKey rows key (PayoutIntent.broadcastAs txId)

def markSettled (rows : List PayoutIntent) (key : String) : List PayoutIntent :=
  Table.update PayoutIntent.idempotencyKey rows key PayoutIntent.settle

-----------------------------------------------------------------------------
-- What the statements leave behind

/-- How one statement changes the table: it inserts a new intent under a free key, changes
one row along its evolution, or does nothing.
-/
inductive Step (rows : List PayoutIntent) (id : String) (createdAt : Int)
    (intent : Option NewIntent)
    : List PayoutIntent → Prop
  | same : Step rows id createdAt intent rows
  | begun {fresh} (inserts : intent = some fresh)
    : Step rows id createdAt intent (begin_ rows id createdAt fresh)
  | updated {change} (key : String) (evolves : ∀ row, PayoutIntent.Evolves row (change row))
    : Step rows id createdAt intent (Table.update PayoutIntent.idempotencyKey rows key change)

section Step

variable {rows later : List PayoutIntent} {id : String} {createdAt : Int}
  {intent : Option NewIntent}

/-- A row under a key stays there and only evolves. -/
theorem Step.load (step : Step rows id createdAt intent later) {key : String}
    {row : PayoutIntent} (found : load rows key = some row)
    : ∃ next, load later key = some next ∧ row.Evolves next := by
  cases step with
  | same => exact ⟨row, found, .refl row⟩
  | begun inserts => exact ⟨row, Table.lookup_insertIgnore_of_some found, .refl row⟩
  | @updated change target evolves =>
      have looked := Table.lookup_update rows key target change fun row => (evolves row).key
      by_cases hit : key = target
      · rw [if_pos hit] at looked
        refine ⟨change row, ?_, evolves row⟩
        simp only [PayoutJournal.load] at found ⊢
        rw [looked, found]
        rfl
      · rw [if_neg hit] at looked
        exact ⟨row, looked.trans found, .refl row⟩

/-- Every row is an evolution of an earlier one or the newly inserted one. -/
theorem Step.origin (step : Step rows id createdAt intent later) {next : PayoutIntent}
    (member : next ∈ later)
    : (∃ row ∈ rows, row.Evolves next)
      ∨ ∃ fresh, intent = some fresh ∧ next = newRow id createdAt fresh := by
  cases step with
  | same => exact .inl ⟨next, member, .refl next⟩
  | @begun fresh inserts =>
      unfold begin_ Table.insertIgnore at member
      split at member
      · exact .inl ⟨next, member, .refl next⟩
      · rcases List.mem_append.mp member with before | inserted
        · exact .inl ⟨next, before, .refl next⟩
        · exact .inr ⟨fresh, inserts, List.mem_singleton.mp inserted⟩
  | @updated change target evolves =>
      obtain ⟨row, before, rfl⟩ := List.mem_map.mp member
      refine .inl ⟨row, before, ?_⟩
      split
      · exact evolves row
      · exact .refl row

theorem Step.distinct (step : Step rows id createdAt intent later)
    (distinct : (rows.map PayoutIntent.idempotencyKey).Nodup)
    : (later.map PayoutIntent.idempotencyKey).Nodup := by
  cases step with
  | same => exact distinct
  | begun inserts => exact Table.nodup_insertIgnore _ distinct
  | updated target evolves =>
      exact Table.nodup_update _ _ (fun row => (evolves row).key) distinct

end Step

/-- After `begin` the key has a row: the old one, or the new one where there was none. -/
theorem load_begin (rows : List PayoutIntent) (id : String) (createdAt : Int)
    (intent : NewIntent)
    : load (begin_ rows id createdAt intent) intent.idempotencyKey
      = some ((load rows intent.idempotencyKey).getD (newRow id createdAt intent)) := by
  simp only [load, begin_, Table.lookup_insertIgnore]
  cases Table.lookup PayoutIntent.idempotencyKey rows intent.idempotencyKey with
  | none => simp [newRow]
  | some row => rfl

/-- Marking an intent as broadcast writes the id into its row. -/
theorem load_markBroadcast (rows : List PayoutIntent) (key txId : String)
    : load (markBroadcast rows key txId) key
      = (load rows key).map (PayoutIntent.broadcastAs txId) := by
  have looked := Table.lookup_update rows key key (PayoutIntent.broadcastAs txId)
    fun row => (PayoutIntent.evolves_broadcastAs txId row).key
  simpa [load, markBroadcast] using looked

end PayoutJournal

end Cixtech.Payout
