import Cixtech.Foundation.Transactions
import Mathlib.Data.Multiset.Filter

/-! The row-level security of the tables that carry a tenant. A connection that is bound to a tenant
sees the rows of that tenant and the rows that all tenants share; one that is bound to none sees
every row.
-/

namespace Cixtech.Tenancy

open Cixtech.Foundation.Transactions

structure TenantTable where
  table : String
  column : String
  sharedWhenEmpty : Bool := false
  deriving DecidableEq, Repr

def TENANT_TABLES : List TenantTable :=
  [ { table := "account", column := "tenant_id" },
    { table := "api_key", column := "tenant_id" },
    { table := "idempotency_key", column := "tenant_id" },
    { table := "webhook_endpoint", column := "tenant_id" },
    { table := "webhook_delivery", column := "tenant_id" },
    { table := "pool_address", column := "tenant" },
    { table := "policy_payout_log", column := "tenant" },
    { table := "payout_allowlist", column := "tenant" },
    { table := "payout_intent", column := "tenant" },
    { table := "payout_approval", column := "tenant" },
    { table := "agent_rule", column := "tenant_id" },
    { table := "ai_anomaly_log", column := "tenant_id" },
    { table := "principal", column := "tenant_id" },
    { table := "gather_config", column := "tenant", sharedWhenEmpty := true } ]

/-- A row of any table, with its value in the tenant column if the table has one. -/
structure Row (α : Type) where
  table : String
  tenant : Option String
  columns : α
  deriving DecidableEq, Repr

/-- The rows of all tables, and the connection's `cixtech.tenant`. -/
structure Database (α : Type) where
  rows : Multiset (Row α)
  setting : Option String

/-- A statement of the engine. Only the one that binds a tenant sets `cixtech.tenant`. -/
inductive Statement (τ : Type)
  | setConfig (tenant : String)
  | text (statement : τ)
  deriving DecidableEq, Repr

variable {α τ β ε : Type}

-----------------------------------------------------------------------------
-- Policies

def tenantTable (table : String) : Option TenantTable :=
  TENANT_TABLES.find? fun guarded => guarded.table = table

/-- The expression of a table's policy. A comparison with no value is not true. -/
def isolation (guarded : TenantTable) (setting : Option String) (row : Row α) : Bool :=
  match setting with
  | none => true
  | some tenant =>
      tenant = "" || row.tenant = some tenant
        || (guarded.sharedWhenEmpty && row.tenant = some "")

/-- The rows that a connection sees, and may leave behind. A table without a policy is open. -/
def policy (setting : Option String) (row : Row α) : Bool :=
  match tenantTable row.table with
  | none => true
  | some guarded => isolation guarded setting row

/-- The row belongs to one tenant, and to the operator if that is none. -/
def ofTenant (tenant : Option String) (row : Row α) : Bool :=
  (tenantTable row.table).any fun guarded =>
    row.tenant = tenant && !(guarded.sharedWhenEmpty && row.tenant = some "")

/-- The row is one that every tenant sees. -/
def common (row : Row α) : Bool :=
  (tenantTable row.table).all fun guarded => guarded.sharedWhenEmpty && row.tenant = some ""

/-- A connection that is bound to no tenant. The setting is empty behind the first transaction that
bound one.
-/
def Unbound (setting : Option String) : Prop := setting = none ∨ setting = some ""

/-- No policy stands in the way of a connection that is bound to no tenant. -/
theorem policy_of_unbound {setting : Option String} (unbound : Unbound setting) (row : Row α)
    : policy setting row = true := by
  unfold policy
  rcases unbound with rfl | rfl <;> cases tenantTable row.table <;> simp [isolation]

/-- A connection that is bound to a tenant does not see what belongs to another. -/
theorem policy_of_other {tenant : String} {other : Option String} {row : Row α}
    (named : tenant ≠ "") (apart : other ≠ some tenant) (owned : ofTenant other row = true)
    : policy (some tenant) row = false := by
  unfold ofTenant at owned
  unfold policy
  cases protects : tenantTable row.table with
  | none => simp [protects] at owned
  | some guarded =>
      simp only [protects, Option.any_some, Bool.and_eq_true, decide_eq_true_eq,
        Bool.not_eq_true'] at owned
      obtain ⟨rfl, unshared⟩ := owned
      simp [isolation, named, apart, unshared]

/-- A tenant sees what belongs to it, and what every tenant sees. -/
theorem policy_eq_or {tenant : String} (named : tenant ≠ "") (row : Row α)
    : policy (some tenant) row = (ofTenant (some tenant) row || common row) := by
  unfold policy ofTenant common
  cases tenantTable row.table with
  | none => rfl
  | some guarded =>
      by_cases own : row.tenant = some tenant
      · simp [isolation, own, named]
      · simp [isolation, own, named]

theorem not_common {tenant : Option String} {row : Row α} (owned : ofTenant tenant row = true)
    : common row = false := by
  unfold ofTenant at owned
  unfold common
  cases protects : tenantTable row.table with
  | none => simp [protects] at owned
  | some guarded =>
      simp only [protects, Option.any_some, Bool.and_eq_true, Bool.not_eq_true'] at owned
      simpa using owned.2

-----------------------------------------------------------------------------
-- Statements

/-- The rows that the connection sees. -/
def Database.view (db : Database α) : Multiset (Row α) :=
  db.rows.filter fun row => policy db.setting row

def Database.hidden (db : Database α) : Multiset (Row α) :=
  db.rows.filter fun row => ¬ policy db.setting row

/-- What a database makes of the engine's statements. -/
structure Tables (α τ β ε : Type) where
  /-- A statement over the rows that it sees. What the rows it does not see have it refused for,
  such as a key that they hold, is a fate of the command. -/
  exec : τ → Multiset (Row α) → Except ε (β × Multiset (Row α))
  violation : ε
  aborted : ε
  noSavepoint : ε
  gone : ε
  empty : β

variable (tables : Tables α τ β ε)

/-- A statement runs over what the policies let it see, and leaves nothing that it would not. -/
def Tables.run (statement : Statement τ) (db : Database α) : Except ε (β × Database α) :=
  match statement with
  | .setConfig tenant => .ok (tables.empty, { db with setting := some tenant })
  | .text statement =>
      match tables.exec statement db.view with
      | .error err => .error err
      | .ok (answer, written) =>
          if ∀ row ∈ written, policy db.setting row then
            .ok (answer, { db with rows := written + db.hidden })
          else .error tables.violation

/-- `cixtech.tenant` behind a transaction: what it was, and empty if only the transaction had it. -/
def settingAfter (begun last : Option String) : Option String :=
  if last = begun then begun else some (begun.getD "")

/-- The database as the connections of the engine have it. -/
def Tables.server : Server (Database α) (Statement τ) β ε where
  run := tables.run
  ended kept begun last :=
    { rows := if kept then last.rows else begun.rows
      setting := settingAfter begun.setting last.setting }
  aborted := tables.aborted
  noSavepoint := tables.noSavepoint
  gone := tables.gone
  empty := tables.empty

theorem settingAfter_unbound {begun : Option String} (unbound : Unbound begun)
    (last : Option String)
    : Unbound (settingAfter begun last) := by
  unfold settingAfter
  split
  · exact unbound
  · right
    rcases unbound with rfl | rfl <;> rfl

/-- A connection that is bound to no tenant sees every row. -/
theorem Database.view_of_unbound {db : Database α} (unbound : Unbound db.setting)
    : db.view = db.rows :=
  Multiset.filter_eq_self.mpr fun row _ => policy_of_unbound unbound row

/-- Behind a statement the connection sees what it has written, and no row that it did not see. -/
theorem Database.view_of_written {db : Database α} {written : Multiset (Row α)}
    (allowed : ∀ row ∈ written, policy db.setting row)
    : Database.view { db with rows := written + db.hidden } = written := by
  have own : written.filter (fun row => policy db.setting row) = written :=
    Multiset.filter_eq_self.mpr allowed
  have none : db.hidden.filter (fun row => policy db.setting row) = 0 :=
    Multiset.filter_eq_nil.mpr fun row member => (Multiset.mem_filter.mp member).2
  simp [Database.view, Multiset.filter_add, own, none]

/-- What a statement of a bound connection leaves: it is bound as before, and sees what it has
written, next to the rows that it did not see.
-/
theorem Tables.run_text {db after : Database α} {statement : τ} {answer : β}
    (ran : tables.run (.text statement) db = .ok (answer, after))
    : after.setting = db.setting ∧ after.rows = after.view + db.hidden
      ∧ ∀ row ∈ after.view, policy db.setting row := by
  unfold run at ran
  cases executed : tables.exec statement db.view with
  | error err => simp [executed] at ran
  | ok answered =>
      obtain ⟨answers, written⟩ := answered
      simp only [executed] at ran
      split at ran
      · next allowed =>
        obtain ⟨rfl, rfl⟩ := Prod.mk.inj (Except.ok.inj ran)
        rw [Database.view_of_written allowed]
        exact ⟨rfl, rfl, allowed⟩
      · cases ran

/-- A statement of a connection that is bound to a tenant leaves the rows of another as they are. -/
theorem Tables.run_text_other {db after : Database α} {statement : τ} {answer : β}
    {tenant : String} {other : Option String} (bound : db.setting = some tenant)
    (named : tenant ≠ "") (apart : other ≠ some tenant)
    (ran : tables.run (.text statement) db = .ok (answer, after))
    : after.rows.filter (fun row => ofTenant other row)
      = db.rows.filter fun row => ofTenant other row := by
  obtain ⟨-, left, allowed⟩ := tables.run_text ran
  have unseen : ∀ row : Row α, ofTenant other row = true → ¬ policy db.setting row := by
    intro row owned
    simp [bound, policy_of_other named apart owned]
  have written : after.view.filter (fun row => ofTenant other row) = 0 :=
    Multiset.filter_eq_nil.mpr fun row member owned => unseen row owned (allowed row member)
  rw [left, Multiset.filter_add, written, Multiset.zero_add, Database.hidden,
    Multiset.filter_filter]
  exact Multiset.filter_congr fun row _ => ⟨And.left, fun owned => ⟨owned, unseen row owned⟩⟩

end Cixtech.Tenancy
