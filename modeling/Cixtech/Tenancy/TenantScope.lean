import Cixtech.Postgres.Client
import Cixtech.Tenancy.RowSecurity
import Mathlib.Logic.Function.Basic

/-! The client that a request works through. What a request with a tenant asks runs in a
transaction that is bound to its tenant; connections are shared by the requests of all tenants.
-/

namespace Cixtech.Tenancy

open Cixtech.Foundation.Transactions Cixtech.Postgres

variable {α τ β ε : Type}

/-- The code of a scoped transaction: the tenant is bound first. -/
def bind (tenantId : String) (fn : Code (Statement τ) β ε) : Code (Statement τ) β ε :=
  .query (.setConfig tenantId) fun bound =>
    match bound with
    | .ok _ => fn
    | .error err => .done (.error err)

section Client

variable (tables : Tables α τ β ε) (tenantId : Option String)

/-- `tenantScopedSql.query` -/
def scopedQuery (text : τ) (client : Connection (Database α) String ε)
    : Except ε β × Connection (Database α) String ε :=
  match tenantId with
  | none => query tables.server (.text text) client
  | some tenantId =>
      transaction tables.server (bind tenantId (.query (.text text) .done)) client

/-- `tenantScopedSql.transaction`. The code goes on with the client that knows no tenant. -/
def scopedTransaction (fn : Code τ β ε) (client : Connection (Database α) String ε)
    : Except ε β × Connection (Database α) String ε :=
  match tenantId with
  | none => transaction tables.server (fn.map .text) client
  | some tenantId => transaction tables.server (bind tenantId (fn.map .text)) client

end Client

-----------------------------------------------------------------------------
-- Requests over a pool of connections

/-- The database behind the connections, and each one's `cixtech.tenant`. -/
structure Pool (α : Type) where
  rows : Multiset (Row α)
  settings : Nat → Option String

/-- A connection that the pool hands out, and what becomes of its commands. -/
structure Link (ε : Type) where
  connection : Nat
  fates : List (Fate ε)

/-- The tenant that `runAsTenant` runs the request as, and what the request has still to do. -/
structure Request (τ β ε : Type) where
  tenantId : Option String
  code : Code τ β ε

structure Engine (α τ β ε : Type) where
  pool : Pool α
  requests : Nat → Request τ β ε

namespace Pool

def client (pool : Pool α) (link : Link ε) : Connection (Database α) String ε :=
  idle { rows := pool.rows, setting := pool.settings link.connection } link.fates

/-- The connection goes back to the pool, which opens a new one for one that is lost. -/
def release (pool : Pool α) (link : Link ε) (client : Connection (Database α) String ε)
    : Pool α where
  rows := client.session.data.rows
  settings :=
    Function.update pool.settings link.connection
      (if client.lost then none else client.session.data.setting)

end Pool

/-- What a request asks next is answered. -/
def Request.serve (tables : Tables α τ β ε) (request : Request τ β ε) (pool : Pool α)
    (link : Link ε)
    : Request τ β ε × Pool α :=
  match request.code with
  | .done _ => (request, pool)
  | .query text next =>
      let (answer, client) := scopedQuery tables request.tenantId text (pool.client link)
      ({ request with code := next answer }, pool.release link client)
  | .transaction fn next =>
      let (answer, client) := scopedTransaction tables request.tenantId fn (pool.client link)
      ({ request with code := next answer }, pool.release link client)

/-- It is a request's turn, on a connection that is free. -/
structure Turn (ε : Type) where
  request : Nat
  link : Link ε

namespace Engine

/-- The requests come to an engine whose connections are all new. -/
def start (rows : Multiset (Row α)) (requests : Nat → Request τ β ε) : Engine α τ β ε where
  pool := { rows, settings := fun _ => none }
  requests

def step (tables : Tables α τ β ε) (engine : Engine α τ β ε) (turn : Turn ε)
    : Engine α τ β ε :=
  let (request, pool) := (engine.requests turn.request).serve tables engine.pool turn.link
  { pool, requests := Function.update engine.requests turn.request request }

def run (tables : Tables α τ β ε) (engine : Engine α τ β ε) (turns : List (Turn ε))
    : Engine α τ β ε :=
  turns.foldl (step tables) engine

end Engine

-----------------------------------------------------------------------------
-- Connections go back to the pool bound to no tenant
-----------------------------------------------------------------------------

def Pool.Unbound (pool : Pool α) : Prop :=
  ∀ connection, Tenancy.Unbound (pool.settings connection)

variable {tables : Tables α τ β ε}

/-- A property of the data that a statement keeps, if it runs, is kept where it is sent. -/
theorem query_keeps {P : Database α → Prop} {db : Database α} {fates : List (Fate ε)}
    {statement : Statement τ} (here : P db)
    (kept : ∀ answer after, tables.run statement db = .ok (answer, after) → P after)
    : P (query tables.server statement (idle db fates)).2.session.data := by
  have alike
      : (idle db fates : Connection (Database α) String ε).Alike (fun a b => a = b ∧ P b)
          (idle db fates) :=
    ⟨⟨rfl, here⟩, ⟨rfl, rfl⟩, rfl, rfl⟩
  have answered
      : SameAnswer (fun a b => a = b ∧ P b) (tables.server.run statement db)
          (tables.server.run statement db) := by
    show SameAnswer _ (tables.run statement db) (tables.run statement db)
    cases ran : tables.run statement db with
    | error err => exact .error err
    | ok answered => exact .ok ⟨rfl, kept answered.1 answered.2 ran⟩
  exact (alike.statement answered).2.data.2

theorem query_unbound {db : Database α} (unbound : Unbound db.setting) (fates : List (Fate ε))
    (text : τ)
    : Unbound (query tables.server (.text text) (idle db fates)).2.session.data.setting := by
  refine query_keeps (P := fun db => Unbound db.setting) unbound fun answer after ran => ?_
  rw [(tables.run_text ran).1]
  exact unbound

/-- Whatever a transaction does and comes to, what it bound is over with it. -/
theorem transaction_unbound {db : Database α} (unbound : Unbound db.setting)
    (fates : List (Fate ε)) (fn : Code (Statement τ) β ε)
    : Unbound (transaction tables.server fn (idle db fates)).2.session.data.setting := by
  have outcome := transaction_outcome tables.server fn db fates
  have ended {kept : Bool} {last : Database α}
      (left
        : (transaction tables.server fn (idle db fates)).2.session.data
          = tables.server.ended kept db last)
      : Unbound (transaction tables.server fn (idle db fates)).2.session.data.setting := by
    rw [left]
    exact settingAfter_unbound unbound last.setting
  cases out : (transaction tables.server fn (idle db fates)).1 with
  | ok value => exact ended (outcome.returned value out).2
  | error err =>
      rcases outcome.threw err out with untouched | ⟨last, undone⟩ | ⟨-, -, -, all⟩
      · rw [untouched]
        exact unbound
      · exact ended undone
      · exact ended all

theorem scopedQuery_unbound {db : Database α} (unbound : Unbound db.setting)
    (tenantId : Option String) (text : τ) (fates : List (Fate ε))
    : Unbound (scopedQuery tables tenantId text (idle db fates)).2.session.data.setting := by
  cases tenantId with
  | none => exact query_unbound unbound fates text
  | some tenantId =>
      exact transaction_unbound unbound fates (bind tenantId (.query (.text text) .done))

theorem scopedTransaction_unbound {db : Database α} (unbound : Unbound db.setting)
    (tenantId : Option String) (fn : Code τ β ε) (fates : List (Fate ε))
    : Unbound (scopedTransaction tables tenantId fn (idle db fates)).2.session.data.setting := by
  cases tenantId with
  | none => exact transaction_unbound unbound fates (fn.map .text)
  | some tenantId => exact transaction_unbound unbound fates (bind tenantId (fn.map .text))

theorem Pool.Unbound.release {pool : Pool α} (unbound : pool.Unbound) (link : Link ε)
    {client : Connection (Database α) String ε}
    (left : Tenancy.Unbound client.session.data.setting)
    : (pool.release link client).Unbound := by
  intro connection
  by_cases own : connection = link.connection
  · subst own
    simp only [Pool.release, Function.update_self]
    split
    · exact .inl rfl
    · exact left
  · simpa only [Pool.release, Function.update_of_ne own] using unbound connection

theorem Request.serve_unbound (request : Request τ β ε) {pool : Pool α}
    (unbound : pool.Unbound) (link : Link ε)
    : (request.serve tables pool link).2.Unbound := by
  have here := unbound link.connection
  obtain ⟨tenantId, code⟩ := request
  cases code with
  | done out => exact unbound
  | query text next =>
      exact unbound.release link (scopedQuery_unbound here tenantId text link.fates)
  | transaction fn next =>
      exact unbound.release link (scopedTransaction_unbound here tenantId fn link.fates)

theorem Engine.run_unbound {engine : Engine α τ β ε} (unbound : engine.pool.Unbound)
    (turns : List (Turn ε))
    : (engine.run tables turns).pool.Unbound := by
  induction turns generalizing engine with
  | nil => exact unbound
  | cons turn turns ih =>
      exact ih ((engine.requests turn.request).serve_unbound unbound turn.link)

/-- Whatever requests of whatever tenants come in whatever order, and whatever becomes of their
commands, each connection goes back to the pool bound to no tenant: a request that has none then
sees every row. By induction on the turns.
-/
theorem connections_return_unbound (tables : Tables α τ β ε) (rows : Multiset (Row α))
    (requests : Nat → Request τ β ε) (turns : List (Turn ε)) (link : Link ε)
    : let pool := ((Engine.start rows requests).run tables turns).pool
      Unbound (pool.settings link.connection)
        ∧ (pool.client link).session.data.view = pool.rows := by
  have unbound : ((Engine.start rows requests).run tables turns).pool.Unbound :=
    Engine.run_unbound (fun _ => .inl rfl) turns
  exact ⟨unbound link.connection, Database.view_of_unbound (unbound link.connection)⟩

-----------------------------------------------------------------------------
-- What a request with a tenant makes of rows that are alike

/-- Two databases that are bound to one tenant, and whose rows are related. -/
structure Bound (tenantId : String) (Q : Multiset (Row α) → Multiset (Row α) → Prop)
    (left right : Database α)
    : Prop where
  bound : left.setting = some tenantId
  boundToo : right.setting = some tenantId
  rows : Q left.rows right.rows

structure Pool.Alike (Q : Multiset (Row α) → Multiset (Row α) → Prop) (left right : Pool α)
    : Prop where
  rows : Q left.rows right.rows
  unbound : left.Unbound
  unboundToo : right.Unbound

section Alike

variable {tenantId : String} {Q : Multiset (Row α) → Multiset (Row α) → Prop}
  (runs
    : ∀ statement a b, Bound tenantId Q a b
      → SameAnswer (Bound tenantId Q) (tables.run (.text statement) a)
        (tables.run (.text statement) b))

include runs

/-- Code behind its binding runs alike over related rows, whatever the databases were bound to. -/
theorem bind_alike (fn : Code τ β ε) {left right : Scope (Database α) ε}
    (alike : left.Alike (fun a b => Q a.rows b.rows) right)
    : (atomic tables.server (bind tenantId (fn.map .text)) left).1
        = (atomic tables.server (bind tenantId (fn.map .text)) right).1
      ∧ (atomic tables.server (bind tenantId (fn.map .text)) left).2.Alike
        (fun a b => Q a.rows b.rows)
        (atomic tables.server (bind tenantId (fn.map .text)) right).2 := by
  have binds
      : SameAnswer (fun a b : Database α => Q a.rows b.rows)
          (tables.server.run (.setConfig tenantId) left.data)
          (tables.server.run (.setConfig tenantId) right.data) :=
    .ok alike.data
  obtain ⟨answer, after⟩ := alike.statement binds
  rcases sent : left.statement tables.server (.setConfig tenantId) with ⟨answered, behind⟩
  rcases sentToo : right.statement tables.server (.setConfig tenantId) with ⟨_, behindToo⟩
  rw [sent, sentToo] at answer after
  obtain rfl := answer
  simp only [bind, atomic, sent, sentToo]
  cases answered with
  | error err => exact ⟨rfl, after⟩
  | ok rows =>
      -- Both are bound now.
      have left := (Scope.statement_ok sent).2
      have right := (Scope.statement_ok sentToo).2
      have bound : Bound tenantId Q behind.data behindToo.data :=
        { bound := by rw [← (Prod.mk.inj (Except.ok.inj left)).2]
          boundToo := by rw [← (Prod.mk.inj (Except.ok.inj right)).2]
          rows := after.data }
      have inside : behind.Alike (Bound tenantId Q) behindToo :=
        ⟨bound, after.failed, after.lost, after.fates⟩
      have answered
          : ∀ text, (∃ statement, .text statement = text) → ∀ a b, Bound tenantId Q a b
            → SameAnswer (Bound tenantId Q) (tables.server.run text a)
              (tables.server.run text b) := by
        rintro _ ⟨statement, rfl⟩ a b bound
        exact runs statement a b bound
      obtain ⟨same, ran⟩ := atomic_alike answered (fn.map_sends Statement.text) inside
      exact ⟨same, ran.mono fun a b bound => bound.rows⟩

variable (tables) in
/-- A request with a tenant is answered alike over related rows, and leaves related rows. -/
theorem Request.serve_alike (code : Code τ β ε) {left right : Pool α}
    (alike : left.Alike Q right) (link : Link ε)
    : (serve tables { tenantId := tenantId, code } left link).1
        = (serve tables { tenantId := tenantId, code } right link).1
      ∧ (serve tables { tenantId := tenantId, code } left link).2.Alike Q
        (serve tables { tenantId := tenantId, code } right link).2 := by
  have transacted (fn : Code τ β ε)
      : (scopedTransaction tables tenantId fn (left.client link)).1
          = (scopedTransaction tables tenantId fn (right.client link)).1
        ∧ (scopedTransaction tables tenantId fn (left.client link)).2.Alike
          (fun a b => Q a.rows b.rows)
          (scopedTransaction tables tenantId fn (right.client link)).2 := by
    refine transaction_alike alike.rows alike.rows ?_
      (bind_alike runs fn ⟨alike.rows, rfl, rfl, rfl⟩)
    rintro (_ | _) last otherLast related
    · exact alike.rows
    · exact related
  have released {client clientToo : Connection (Database α) String ε}
      (same : client.Alike (fun a b => Q a.rows b.rows) clientToo)
      (leaves : Tenancy.Unbound client.session.data.setting)
      (leavesToo : Tenancy.Unbound clientToo.session.data.setting)
      : (left.release link client).Alike Q (right.release link clientToo) :=
    ⟨same.data, alike.unbound.release link leaves, alike.unboundToo.release link leavesToo⟩
  have here := alike.unbound link.connection
  have hereToo := alike.unboundToo link.connection
  cases code with
  | done out => exact ⟨rfl, alike⟩
  | query text next =>
      obtain ⟨answer, after⟩ := transacted (.query text .done)
      refine ⟨?_, released after (scopedQuery_unbound here tenantId text link.fates)
        (scopedQuery_unbound hereToo tenantId text link.fates)⟩
      exact congrArg (fun answer => Request.mk (some tenantId) (next answer)) answer
  | transaction fn next =>
      obtain ⟨answer, after⟩ := transacted fn
      refine ⟨?_, released after (scopedTransaction_unbound here tenantId fn link.fates)
        (scopedTransaction_unbound hereToo tenantId fn link.fates)⟩
      exact congrArg (fun answer => Request.mk (some tenantId) (next answer)) answer

end Alike

-----------------------------------------------------------------------------
-- A request changes no row of another tenant
-----------------------------------------------------------------------------

/-- The rows that belong to a tenant. -/
def rowsOf (tenant : Option String) (rows : Multiset (Row α)) : Multiset (Row α) :=
  rows.filter fun row => ofTenant tenant row

/-- A bound connection runs a statement on one database as it does, and leaves others' rows. -/
theorem run_text_keeps {tenantId : String} {other : Option String} (named : tenantId ≠ "")
    (apart : other ≠ some tenantId) (kept : Multiset (Row α)) (statement : τ)
    (a b : Database α)
    (bound : Bound tenantId (fun left right => left = right ∧ rowsOf other right = kept) a b)
    : SameAnswer (Bound tenantId fun left right => left = right ∧ rowsOf other right = kept)
        (tables.run (.text statement) a) (tables.run (.text statement) b) := by
  obtain ⟨rows, setting⟩ := a
  obtain ⟨_, _⟩ := b
  obtain ⟨rfl, rfl, rfl, keeps⟩ := bound
  cases ran : tables.run (.text statement) { rows, setting := some tenantId } with
  | error err => exact .error err
  | ok answered =>
      have stays := (tables.run_text ran).1
      have left := tables.run_text_other rfl named apart ran
      exact .ok ⟨stays, stays, rfl, left.trans keeps⟩

variable (tables) in
theorem Request.serve_keeps {tenantId : String} {other : Option String} (named : tenantId ≠ "")
    (apart : other ≠ some tenantId) (code : Code τ β ε) {pool : Pool α}
    (unbound : pool.Unbound) (link : Link ε)
    : rowsOf other (serve tables { tenantId := tenantId, code } pool link).2.rows
      = rowsOf other pool.rows :=
  (Request.serve_alike tables (run_text_keeps named apart (rowsOf other pool.rows)) code
    ⟨⟨rfl, rfl⟩, unbound, unbound⟩ link).2.rows.2

/-- A request keeps its tenant, whoever's turn it is. -/
theorem Engine.step_tenantId (engine : Engine α τ β ε) (turn : Turn ε) (id : Nat)
    : ((engine.step tables turn).requests id).tenantId = (engine.requests id).tenantId := by
  by_cases own : id = turn.request
  · subst own
    simp only [Engine.step, Function.update_self, Request.serve]
    cases (engine.requests turn.request).code <;> rfl
  · simp only [Engine.step, Function.update_of_ne own]

theorem Engine.run_tenantId (engine : Engine α τ β ε) (turns : List (Turn ε)) (id : Nat)
    : ((engine.run tables turns).requests id).tenantId = (engine.requests id).tenantId := by
  induction turns generalizing engine with
  | nil => rfl
  | cons turn turns ih => exact (ih (engine.step tables turn)).trans (engine.step_tenantId turn id)

theorem Engine.run_keeps {other : Option String} {engine : Engine α τ β ε}
    (unbound : engine.pool.Unbound) (turns : List (Turn ε))
    (foreign
      : ∀ turn ∈ turns, ∃ tenantId, (engine.requests turn.request).tenantId = some tenantId
        ∧ tenantId ≠ "" ∧ other ≠ some tenantId)
    : rowsOf other (engine.run tables turns).pool.rows = rowsOf other engine.pool.rows := by
  induction turns generalizing engine with
  | nil => rfl
  | cons turn turns ih =>
      obtain ⟨tenantId, its, named, apart⟩ := foreign turn List.mem_cons_self
      have kept
          : rowsOf other (engine.step tables turn).pool.rows
            = rowsOf other engine.pool.rows := by
        have served :=
          Request.serve_keeps tables named apart
            (engine.requests turn.request).code unbound turn.link
        rwa [← its] at served
      refine (ih ((engine.requests turn.request).serve_unbound unbound turn.link) ?_).trans kept
      intro later member
      rw [Engine.step_tenantId]
      exact foreign later (List.mem_cons_of_mem _ member)

/-- Whatever requests of other tenants do, in whatever order, transactions and connections, the rows
of a tenant in the guarded tables stay as they are, and so do those whose tenant is `NULL`, which
are the operator's there. By induction on the turns: between two of them no connection is bound, and
in each the connection is bound to the tenant of its request.
-/
theorem other_tenants_rows_unchanged (tables : Tables α τ β ε) (rows : Multiset (Row α))
    (requests : Nat → Request τ β ε) (turns : List (Turn ε)) (other : Option String)
    (foreign
      : ∀ turn ∈ turns, ∃ tenantId, (requests turn.request).tenantId = some tenantId
        ∧ tenantId ≠ "" ∧ other ≠ some tenantId)
    : rowsOf other ((Engine.start rows requests).run tables turns).pool.rows
      = rowsOf other rows :=
  Engine.run_keeps (fun _ => .inl rfl) turns foreign

/-- Tables whose only statement deletes the accounts that it sees. -/
def erasing : Tables Unit Unit Unit String where
  exec _ seen := .ok ((), seen.filter fun row => row.table ≠ "account")
  violation := "new row violates row-level security policy"
  aborted := "current transaction is aborted"
  noSavepoint := "savepoint does not exist"
  gone := "Connection terminated unexpectedly"
  empty := ()

/-- An account of each of two tenants, and a chain's gather setting of the operator's. -/
def accounts : Multiset (Row Unit) :=
  { { table := "account", tenant := "acme", columns := () },
    { table := "account", tenant := "globex", columns := () },
    { table := "gather_config", tenant := "", columns := () } }

/-- Two requests that delete what they can. -/
def erasers (id : Nat) : Request Unit Unit String where
  tenantId := if id = 0 then "acme" else "globex"
  code := .query () .done

theorem other_tenants_rows_unchanged_erasing
    : rowsOf (some "globex")
        ((Engine.start accounts erasers).run erasing [{ request := 0, link := ⟨0, []⟩ }]).pool.rows
      = rowsOf (some "globex") accounts :=
  other_tenants_rows_unchanged erasing accounts erasers [{ request := 0, link := ⟨0, []⟩ }]
    (some "globex")
    (by
      intro turn member
      rw [List.mem_singleton.mp member]
      exact ⟨"acme", rfl, by decide, by decide⟩)

-----------------------------------------------------------------------------
-- A request is answered out of what its tenant sees
-----------------------------------------------------------------------------

/-- The rows that a connection sees that is bound to the tenant. -/
def seenBy (tenantId : String) (rows : Multiset (Row α)) : Multiset (Row α) :=
  rows.filter fun row => policy (some tenantId) row

def commonRows (rows : Multiset (Row α)) : Multiset (Row α) := rows.filter fun row => common row

theorem seenBy_eq_add {tenantId : String} (named : tenantId ≠ "") (rows : Multiset (Row α))
    : seenBy tenantId rows = rowsOf tenantId rows + commonRows rows := by
  have none
      : rows.filter (fun row => ofTenant tenantId row = true ∧ common row = true) = 0 :=
    Multiset.filter_eq_nil.mpr fun row _ both => by simp [not_common both.1] at both
  rw [rowsOf, commonRows, Multiset.filter_add_filter, none, Multiset.add_zero]
  exact Multiset.filter_congr fun row _ => by simp [policy_eq_or named]

theorem run_text_seen {tenantId : String} (statement : τ) (a b : Database α)
    (bound
      : Bound tenantId (fun left right => seenBy tenantId left = seenBy tenantId right) a b)
    : SameAnswer
        (Bound tenantId fun left right => seenBy tenantId left = seenBy tenantId right)
        (tables.run (.text statement) a) (tables.run (.text statement) b) := by
  obtain ⟨rows, setting⟩ := a
  obtain ⟨otherRows, _⟩ := b
  obtain ⟨rfl, rfl, same⟩ := bound
  have views
      : Database.view { rows, setting := some tenantId }
        = Database.view { rows := otherRows, setting := some tenantId } :=
    same
  simp only [Tables.run, views]
  cases tables.exec statement (Database.view { rows := otherRows, setting := some tenantId }) with
  | error err => exact .error err
  | ok answered =>
      obtain ⟨answer, written⟩ := answered
      by_cases allowed : ∀ row ∈ written, policy (some tenantId) row
      · simp only [if_pos allowed]
        have left :=
          @Database.view_of_written _ { rows, setting := some tenantId } _ allowed
        have right :=
          @Database.view_of_written _ { rows := otherRows, setting := some tenantId } _ allowed
        exact .ok ⟨rfl, rfl, left.trans right.symm⟩
      · simp only [if_neg allowed]
        exact .error _

/-- What a turn leaves as it is, for the tenant, if it is not the tenant's own: the rows that every
tenant sees where it is another tenant's, and where it is the operator's all that the tenant sees.
-/
def Engine.Leaves (tables : Tables α τ β ε) (tenantId : String) (engine : Engine α τ β ε)
    (turn : Turn ε)
    : Prop :=
  let after := (engine.step tables turn).pool.rows
  match (engine.requests turn.request).tenantId with
  | some other =>
      if other = tenantId then True
      else if other = "" then seenBy tenantId after = seenBy tenantId engine.pool.rows
      else commonRows after = commonRows engine.pool.rows
  | none => seenBy tenantId after = seenBy tenantId engine.pool.rows

/-- No turn of another's touches what the tenant sees, other than rows of other tenants. -/
def Engine.Quiet (tables : Tables α τ β ε) (tenantId : String)
    : Engine α τ β ε → List (Turn ε) → Prop
  | _, [] => True
  | engine, turn :: turns =>
      engine.Leaves tables tenantId turn ∧ (engine.step tables turn).Quiet tables tenantId turns

theorem Engine.Leaves.seen {tenantId : String} (named : tenantId ≠ "")
    {engine : Engine α τ β ε} (unbound : engine.pool.Unbound) {turn : Turn ε}
    (leaves : engine.Leaves tables tenantId turn)
    (foreign : (engine.requests turn.request).tenantId ≠ some tenantId)
    : seenBy tenantId (engine.step tables turn).pool.rows
      = seenBy tenantId engine.pool.rows := by
  unfold Leaves at leaves
  cases its : (engine.requests turn.request).tenantId with
  | none => simpa only [its] using leaves
  | some other =>
      have apart : other ≠ tenantId := fun same => foreign (its.trans (congrArg some same))
      simp only [its, if_neg apart] at leaves
      split at leaves
      · exact leaves
      · next othersName =>
        have others : some tenantId ≠ some other :=
          fun same => apart (Option.some.inj same).symm
        have kept :=
          Request.serve_keeps tables othersName others
            (engine.requests turn.request).code unbound turn.link
        rw [← its] at kept
        rw [seenBy_eq_add named, seenBy_eq_add named, leaves]
        exact congrArg (· + commonRows engine.pool.rows) kept

/-- Two engines are one in what a tenant has of them. -/
structure Engine.Alike (tenantId : String) (left right : Engine α τ β ε) : Prop where
  pool : left.pool.Alike (fun a b => seenBy tenantId a = seenBy tenantId b) right.pool
  own : ∀ id, (left.requests id).tenantId = some tenantId → left.requests id = right.requests id
  tenants : ∀ id, (left.requests id).tenantId = (right.requests id).tenantId

variable (tables) in
/-- The tenant's own turn is the same on both sides. -/
theorem Engine.Alike.step {tenantId : String} {left right : Engine α τ β ε}
    (alike : left.Alike tenantId right) {turn : Turn ε}
    (own : (left.requests turn.request).tenantId = some tenantId)
    : (left.step tables turn).Alike tenantId (right.step tables turn) := by
  have same := alike.own turn.request own
  have served :=
    Request.serve_alike tables run_text_seen (left.requests turn.request).code
      alike.pool turn.link
  rw [← own] at served
  obtain ⟨request, pool⟩ := served
  constructor
  · simp only [Engine.step, ← same]
    exact pool
  · intro id _
    by_cases its : id = turn.request
    · subst its
      simp only [Engine.step, Function.update_self, ← same]
      exact request
    · simp only [Engine.step, Function.update_of_ne its]
      exact alike.own id (by rwa [step_tenantId] at *)
  · intro id
    rw [step_tenantId, step_tenantId]
    exact alike.tenants id

/-- Another's turn, on one side only, is not noticed. -/
theorem Engine.Alike.skip {tenantId : String} (named : tenantId ≠ "")
    {left right : Engine α τ β ε} (alike : left.Alike tenantId right) {turn : Turn ε}
    (leaves : left.Leaves tables tenantId turn)
    (foreign : (left.requests turn.request).tenantId ≠ some tenantId)
    : (left.step tables turn).Alike tenantId right := by
  have seen := leaves.seen named alike.pool.unbound foreign
  constructor
  · exact
      ⟨seen.trans alike.pool.rows,
        (left.requests turn.request).serve_unbound alike.pool.unbound turn.link,
        alike.pool.unboundToo⟩
  · intro id own
    rw [step_tenantId] at own
    have others : id ≠ turn.request := fun same => foreign (same ▸ own)
    simpa only [Engine.step, Function.update_of_ne others] using alike.own id own
  · intro id
    rw [step_tenantId]
    exact alike.tenants id

variable (tables) in
theorem Engine.run_alike {tenantId : String} (named : tenantId ≠ "")
    {left right : Engine α τ β ε} (alike : left.Alike tenantId right) (turns : List (Turn ε))
    (quiet : left.Quiet tables tenantId turns)
    : (left.run tables turns).Alike tenantId
        (right.run tables
          (turns.filter fun turn => (left.requests turn.request).tenantId = some tenantId)) := by
  induction turns generalizing left right with
  | nil => exact alike
  | cons turn turns ih =>
      obtain ⟨leaves, quiet⟩ := quiet
      by_cases own : (left.requests turn.request).tenantId = some tenantId
      · have rest := ih (alike.step tables own) quiet
        simp only [step_tenantId] at rest
        simpa only [Engine.run, List.filter_cons, own, decide_true, if_true,
          List.foldl_cons] using rest
      · have rest := ih (alike.skip named leaves own) quiet
        simp only [step_tenantId] at rest
        simpa only [Engine.run, List.filter_cons, own, decide_false, Bool.false_eq_true, if_false,
          List.foldl_cons] using rest

/-- A tenant's requests are answered, and its view is left, as if no other request had ever come, as
long as the others leave the rows that are not any tenant's own. By induction on the turns: a turn
of the tenant does the same with and without the others, and another's turn leaves its view.
-/
theorem requests_answered_apart (tables : Tables α τ β ε) (rows : Multiset (Row α))
    (requests : Nat → Request τ β ε) (turns : List (Turn ε)) (tenantId : String)
    (named : tenantId ≠ "")
    (quiet : (Engine.start rows requests).Quiet tables tenantId turns)
    : let whole := (Engine.start rows requests).run tables turns
      let alone :=
        (Engine.start rows requests).run tables
          (turns.filter fun turn => (requests turn.request).tenantId = some tenantId)
      (∀ id, (requests id).tenantId = some tenantId → whole.requests id = alone.requests id)
        ∧ seenBy tenantId whole.pool.rows = seenBy tenantId alone.pool.rows := by
  have unbound : (Engine.start rows requests).pool.Unbound := fun _ => .inl rfl
  have alike : (Engine.start rows requests).Alike tenantId (Engine.start rows requests) :=
    ⟨⟨rfl, unbound, unbound⟩, fun _ _ => rfl, fun _ => rfl⟩
  have ran := Engine.run_alike tables named alike turns quiet
  exact ⟨fun id own => ran.own id (by rwa [Engine.run_tenantId]), ran.pool.rows⟩

theorem requests_answered_apart_erasing
    : seenBy "globex"
        ((Engine.start accounts erasers).run erasing
          [{ request := 0, link := ⟨0, []⟩ }, { request := 1, link := ⟨0, []⟩ }]).pool.rows
      = seenBy "globex"
        ((Engine.start accounts erasers).run erasing
          [{ request := 1, link := ⟨0, []⟩ }]).pool.rows :=
  (requests_answered_apart erasing accounts erasers
    [{ request := 0, link := ⟨0, []⟩ }, { request := 1, link := ⟨0, []⟩ }] "globex" (by decide)
    ⟨show commonRows _ = commonRows _ by decide, trivial, trivial⟩).2

end Cixtech.Tenancy
