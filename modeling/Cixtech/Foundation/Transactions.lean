import Mathlib.Data.List.Basic

/-! Nested blocks over one connection to a database. The server knows one transaction with a stack
of named savepoints; code that opens a block inside a block means that the inner one is kept whole
or undone whole, whatever the network does.
-/

namespace Cixtech.Foundation.Transactions

universe u v

/-- What becomes of a command that is sent. -/
inductive Fate (ε : Type u)
  | served
  /-- The server refuses it for a reason that lies outside what the connection sees. -/
  | refused (err : ε)
  /-- The connection is lost, before or after the server carried the command out. -/
  | lost (applied : Bool)
  deriving DecidableEq, Repr

/-- The fate of the next command, and those of the later ones. Behind the last one all is well. -/
def nextFate {ε : Type u} : List (Fate ε) → Fate ε × List (Fate ε)
  | [] => (.served, [])
  | fate :: later => (fate, later)

/-- A database server as a connection meets it. -/
structure Server (σ τ β ε : Type) where
  /-- What a statement does to the data that the connection sees. -/
  run : τ → σ → Except ε (β × σ)
  /-- What an ended transaction leaves, of the data it began with and the data it got to. -/
  ended : (kept : Bool) → (begun last : σ) → σ
  /-- The answer to a command in a transaction that has failed. -/
  aborted : ε
  noSavepoint : ε
  gone : ε
  /-- The answer to a command that has nothing to answer. -/
  empty : β

inductive Command (τ ν : Type)
  | begin
  | commit
  | rollback
  | savepoint (name : ν)
  | release (name : ν)
  | rollbackTo (name : ν)
  | statement (text : τ)
  deriving DecidableEq, Repr

/-- An open transaction, with its savepoints, the latest first. -/
structure Block (σ ν : Type) where
  begun : σ
  savepoints : List (ν × σ)
  failed : Bool
  deriving DecidableEq, Repr

structure Session (σ ν : Type) where
  data : σ
  block : Option (Block σ ν)
  deriving DecidableEq, Repr

structure Connection (σ ν ε : Type) where
  session : Session σ ν
  lost : Bool
  fates : List (Fate ε)
  deriving DecidableEq, Repr

/-- Code over a client, as far as it goes by what the client answers. -/
inductive Code (τ β ε : Type)
  | done (out : Except ε β)
  | query (text : τ) (next : Except ε β → Code τ β ε)
  | transaction (body : Code τ β ε) (next : Except ε β → Code τ β ε)

variable {σ τ β ε ν : Type}

-----------------------------------------------------------------------------
-- The server

/-- The latest savepoint of a name, with those set before it. -/
def savepointsFrom [DecidableEq ν] (name : ν) (savepoints : List (ν × σ)) : List (ν × σ) :=
  savepoints.dropWhile fun savepoint => savepoint.1 ≠ name

namespace Session

variable (server : Server σ τ β ε)

/-- The open transaction, if any, fails. -/
def fail (session : Session σ ν) : Session σ ν :=
  { session with block := session.block.map fun block => { block with failed := true } }

/-- The server ends an open transaction on its own, and keeps nothing of it. -/
def drop (session : Session σ ν) : Session σ ν :=
  match session.block with
  | none => session
  | some block => { data := server.ended false block.begun session.data, block := none }

/-- What the server does with a command. A statement outside a transaction is one of its own. -/
def serve [DecidableEq ν] (session : Session σ ν)
    : Command τ ν → Except ε β × Session σ ν
  | .begin =>
      match session.block with
      | none =>
          let block := { begun := session.data, savepoints := [], failed := false }
          (.ok server.empty, { session with block := some block })
      | some _ => (.ok server.empty, session)
  | .commit =>
      match session.block with
      | none => (.ok server.empty, session)
      | some block =>
          -- The commit of a failed transaction is answered well, and keeps nothing.
          if block.failed then (.ok server.empty, session.drop server)
          else
            (.ok server.empty,
              { data := server.ended true block.begun session.data, block := none })
  | .rollback => (.ok server.empty, session.drop server)
  | .savepoint name =>
      match session.block with
      | none => (.error server.noSavepoint, session)
      | some block =>
          if block.failed then (.error server.aborted, session)
          else
            let savepoints := (name, session.data) :: block.savepoints
            (.ok server.empty, { session with block := some { block with savepoints } })
  | .release name =>
      match session.block with
      | none => (.error server.noSavepoint, session)
      | some block =>
          if block.failed then (.error server.aborted, session)
          else
            match savepointsFrom name block.savepoints with
            | [] => (.error server.noSavepoint, session.fail)
            | _ :: savepoints =>
                (.ok server.empty, { session with block := some { block with savepoints } })
  | .rollbackTo name =>
      match session.block with
      | none => (.error server.noSavepoint, session)
      | some block =>
          match savepointsFrom name block.savepoints with
          | [] => (.error server.noSavepoint, session.fail)
          | (found, data) :: savepoints =>
              -- The savepoint itself stays.
              ( .ok server.empty,
                { data
                  block :=
                    some
                      { block with savepoints := (found, data) :: savepoints, failed := false } })
  | .statement text =>
      if session.block.any Block.failed then (.error server.aborted, session)
      else
        match server.run text session.data with
        | .ok (answer, data) => (.ok answer, { session with data })
        | .error err => (.error err, session.fail)

/-- A command that is refused. Undoing is never refused. -/
def refuse [DecidableEq ν] (session : Session σ ν) (err : ε)
    : Command τ ν → Except ε β × Session σ ν
  | .commit => (.error err, session.drop server)
  | .rollback => session.serve server .rollback
  | .rollbackTo name => session.serve server (.rollbackTo name)
  | _ => (.error err, session.fail)

end Session

namespace Connection

/-- A command is sent and answered. -/
def send [DecidableEq ν] (server : Server σ τ β ε) (conn : Connection σ ν ε)
    (command : Command τ ν)
    : Except ε β × Connection σ ν ε :=
  if conn.lost then (.error server.gone, conn)
  else
    let (fate, fates) := nextFate conn.fates
    match fate with
    | .served =>
        let (answer, session) := conn.session.serve server command
        (answer, { conn with session, fates })
    | .refused err =>
        let (answer, session) := conn.session.refuse server err command
        (answer, { conn with session, fates })
    | .lost applied =>
        let session := if applied then (conn.session.serve server command).2 else conn.session
        (.error server.gone, { session := session.drop server, lost := true, fates })

end Connection

-----------------------------------------------------------------------------
-- Blocks that are kept or undone whole

/-- What code inside a transaction works on: no savepoints, only the data and how things stand. -/
structure Scope (σ ε : Type) where
  data : σ
  failed : Bool
  lost : Bool
  fates : List (Fate ε)
  deriving DecidableEq, Repr

namespace Scope

variable (server : Server σ τ β ε)

def statement (scope : Scope σ ε) (text : τ) : Except ε β × Scope σ ε :=
  let ran : Except ε β × σ × Bool :=
    if scope.failed then (.error server.aborted, scope.data, true)
    else
      match server.run text scope.data with
      | .ok (answer, data) => (.ok answer, data, false)
      | .error err => (.error err, scope.data, true)
  if scope.lost then (.error server.gone, scope)
  else
    let (fate, fates) := nextFate scope.fates
    match fate with
    | .served => (ran.1, { scope with data := ran.2.1, failed := ran.2.2, fates })
    | .refused err => (.error err, { scope with failed := true, fates })
    | .lost applied =>
        ( .error server.gone,
          { scope with
              data := if applied then ran.2.1 else scope.data
              lost := true
              fates })

/-- A block is opened or closed: there is nothing to do, but it may not come to it. -/
def mark (scope : Scope σ ε) : Except ε Unit × Scope σ ε :=
  if scope.lost then (.error server.gone, scope)
  else
    let (fate, fates) := nextFate scope.fates
    match fate with
    | .served =>
        (if scope.failed then .error server.aborted else .ok (), { scope with fates })
    | .refused err => (.error err, { scope with failed := true, fates })
    | .lost _ => (.error server.gone, { scope with lost := true, fates })

/-- The data are again what they were, and a failure is forgotten. -/
def undo (scope : Scope σ ε) (data : σ) : Except ε Unit × Scope σ ε :=
  if scope.lost then (.error server.gone, scope)
  else
    let (fate, fates) := nextFate scope.fates
    match fate with
    | .served => (.ok (), { scope with data, failed := false, fates })
    | .refused _ => (.ok (), { scope with data, failed := false, fates })
    | .lost applied =>
        ( .error server.gone,
          { scope with data := if applied then data else scope.data, lost := true, fates })

/-- A block that threw, or was not closed, is undone, and throws on. -/
def abandon (scope : Scope σ ε) (data : σ) (err : ε) : Except ε β × Scope σ ε :=
  let (undone, after) := scope.undo server data
  match undone with
  | .ok _ => (.error err, after)
  | .error lost => (.error lost, after)

/-- A block ends, with what it began with at hand. -/
def close (scope : Scope σ ε) (data : σ) (out : Except ε β) : Except ε β × Scope σ ε :=
  match out with
  | .error err => scope.abandon server data err
  | .ok value =>
      let (closed, after) := scope.mark server
      match closed with
      | .ok _ => (.ok value, after)
      | .error err => after.abandon server data err

end Scope

/-- The transaction ends with a commit, which keeps nothing of one that has failed. -/
def Scope.commit (server : Server σ τ β ε) (begun : σ) (scope : Scope σ ε)
    : Except ε β × Connection σ ν ε :=
  let undone := server.ended false begun scope.data
  let ended := if scope.failed then undone else server.ended true begun scope.data
  let idle (data : σ) : Session σ ν := { data, block := none }
  if scope.lost then
    (.error server.gone, { session := idle undone, lost := true, fates := scope.fates })
  else
    let (fate, fates) := nextFate scope.fates
    match fate with
    | .served => (.ok server.empty, { session := idle ended, lost := false, fates })
    | .refused err => (.error err, { session := idle undone, lost := false, fates })
    | .lost applied =>
        ( .error server.gone,
          { session := idle (if applied then ended else undone), lost := true, fates })

/-- Code inside a transaction, each block of it kept whole or undone whole. -/
def atomic (server : Server σ τ β ε) : Code τ β ε → Scope σ ε → Except ε β × Scope σ ε
  | .done out, scope => (out, scope)
  | .query text next, scope =>
      let (answer, after) := scope.statement server text
      atomic server (next answer) after
  | .transaction body next, scope =>
      let (opened, inside) := scope.mark server
      match opened with
      | .error err => atomic server (next (.error err)) inside
      | .ok _ =>
          let (out, ran) := atomic server body inside
          let (answer, after) := ran.close server inside.data out
          atomic server (next answer) after

-----------------------------------------------------------------------------
-- Savepoints carry blocks
-----------------------------------------------------------------------------

/-- The connection inside its transaction, with its savepoints, as a scope has it. -/
def Scope.on (server : Server σ τ β ε) (begun : σ) (savepoints : List (ν × σ))
    (scope : Scope σ ε)
    : Connection σ ν ε where
  session :=
    if scope.lost then { data := server.ended false begun scope.data, block := none }
    else { data := scope.data, block := some { begun, savepoints, failed := scope.failed } }
  lost := scope.lost
  fates := scope.fates

/-- A savepoint is found behind those of other names. -/
theorem savepointsFrom_append [DecidableEq ν] {name : ν} {later : List (ν × σ)}
    (others : ∀ savepoint ∈ later, savepoint.1 ≠ name) (data : σ) (under : List (ν × σ))
    : savepointsFrom name (later ++ (name, data) :: under) = (name, data) :: under := by
  induction later with
  | nil => simp [savepointsFrom]
  | cons head rest ih =>
      have apart : head.1 ≠ name := others head List.mem_cons_self
      have found := ih fun savepoint member => others savepoint (List.mem_cons_of_mem _ member)
      simpa [savepointsFrom, List.dropWhile_cons, apart] using found

section Sending

variable [DecidableEq ν] (server : Server σ τ β ε) (begun : σ) (savepoints : List (ν × σ))
  (scope : Scope σ ε)

/-- A statement is answered, and changes the data, as if there were no savepoints. -/
theorem send_statement (text : τ)
    : (scope.on server begun savepoints).send server (.statement text)
      = ((scope.statement server text).1,
          (scope.statement server text).2.on server begun savepoints) := by
  obtain ⟨data, failed, lost, fates⟩ := scope
  cases lost with
  | true => rfl
  | false =>
      rcases next : nextFate fates with ⟨fate, later⟩
      cases failed with
      | true =>
          cases fate with
          | served => simp [Connection.send, Scope.on, Scope.statement, Session.serve, next]
          | refused err =>
              simp [Connection.send, Scope.on, Scope.statement, Session.refuse, Session.fail, next]
          | lost applied =>
              simp [Connection.send, Scope.on, Scope.statement, Session.serve, Session.drop, next]
      | false =>
          cases ran : server.run text data with
          | ok answered =>
              cases fate with
              | served =>
                  simp [Connection.send, Scope.on, Scope.statement, Session.serve, next, ran]
              | refused err =>
                  simp [Connection.send, Scope.on, Scope.statement, Session.refuse, Session.fail,
                    next]
              | lost applied =>
                  cases applied <;>
                    simp [Connection.send, Scope.on, Scope.statement, Session.serve, Session.drop,
                      next, ran]
          | error err =>
              cases fate with
              | served =>
                  simp [Connection.send, Scope.on, Scope.statement, Session.serve, Session.fail,
                    next, ran]
              | refused err =>
                  simp [Connection.send, Scope.on, Scope.statement, Session.refuse, Session.fail,
                    next]
              | lost applied =>
                  cases applied <;>
                    simp [Connection.send, Scope.on, Scope.statement, Session.serve, Session.drop,
                      Session.fail, next, ran]

/-- A savepoint is set where the block opens, and then holds what the data were. -/
theorem send_savepoint (name : ν)
    : (scope.on server begun savepoints).send server (.savepoint name)
      = match scope.mark server with
        | (.ok _, inside) =>
            (.ok server.empty, inside.on server begun ((name, inside.data) :: savepoints))
        | (.error err, after) => (.error err, after.on server begun savepoints) := by
  obtain ⟨data, failed, lost, fates⟩ := scope
  cases lost with
  | true => rfl
  | false =>
      rcases next : nextFate fates with ⟨fate, later⟩
      cases fate with
      | served =>
          cases failed <;>
            simp [Connection.send, Scope.on, Scope.mark, Session.serve, next]
      | refused err =>
          simp [Connection.send, Scope.on, Scope.mark, Session.refuse, Session.fail, next]
      | lost applied =>
          cases applied <;> cases failed <;>
            simp [Connection.send, Scope.on, Scope.mark, Session.serve, Session.drop, next]

variable {server begun savepoints scope}

/-- A released savepoint is gone, with those set behind it. -/
theorem send_release {name : ν} {held : ν × σ} {under : List (ν × σ)}
    (found : savepointsFrom name savepoints = held :: under)
    : (scope.on server begun savepoints).send server (.release name)
      = match scope.mark server with
        | (.ok _, after) => (.ok server.empty, after.on server begun under)
        | (.error err, after) => (.error err, after.on server begun savepoints) := by
  obtain ⟨data, failed, lost, fates⟩ := scope
  cases lost with
  | true => rfl
  | false =>
      rcases next : nextFate fates with ⟨fate, later⟩
      cases fate with
      | served =>
          cases failed <;>
            simp [Connection.send, Scope.on, Scope.mark, Session.serve, next, found]
      | refused err =>
          simp [Connection.send, Scope.on, Scope.mark, Session.refuse, Session.fail, next]
      | lost applied =>
          cases applied <;> cases failed <;>
            simp [Connection.send, Scope.on, Scope.mark, Session.serve, Session.drop, next, found]

/-- Going back to a savepoint restores its data. It stays, and those set behind it are gone. -/
theorem send_rollbackTo {name : ν} {held : ν × σ} {under : List (ν × σ)}
    (found : savepointsFrom name savepoints = held :: under)
    : (scope.on server begun savepoints).send server (.rollbackTo name)
      = match scope.undo server held.2 with
        | (.ok _, after) => (.ok server.empty, after.on server begun (held :: under))
        | (.error err, after) => (.error err, after.on server begun savepoints) := by
  obtain ⟨data, failed, lost, fates⟩ := scope
  cases lost with
  | true => rfl
  | false =>
      rcases next : nextFate fates with ⟨fate, later⟩
      cases fate with
      | served =>
          simp [Connection.send, Scope.on, Scope.undo, Session.serve, next, found]
      | refused err =>
          simp [Connection.send, Scope.on, Scope.undo, Session.refuse, Session.serve, next, found]
      | lost applied =>
          cases applied <;>
            simp [Connection.send, Scope.on, Scope.undo, Session.serve, Session.drop, next, found]

variable (server begun savepoints scope)

theorem send_commit
    : (scope.on server begun savepoints).send server .commit = scope.commit server begun := by
  obtain ⟨data, failed, lost, fates⟩ := scope
  cases lost with
  | true => rfl
  | false =>
      rcases next : nextFate fates with ⟨fate, later⟩
      cases fate with
      | served =>
          cases failed <;>
            simp [Connection.send, Scope.on, Scope.commit, Session.serve, Session.drop, next]
      | refused err =>
          simp [Connection.send, Scope.on, Scope.commit, Session.refuse, Session.drop, next]
      | lost applied =>
          cases applied <;> cases failed <;>
            simp [Connection.send, Scope.on, Scope.commit, Session.serve, Session.drop, next]

/-- A transaction that is rolled back keeps nothing, whether the command gets through or not. -/
theorem session_send_rollback
    : ((scope.on server begun savepoints).send server .rollback).2.session
      = { data := server.ended false begun scope.data, block := none } := by
  obtain ⟨data, failed, lost, fates⟩ := scope
  cases lost with
  | true => rfl
  | false =>
      rcases next : nextFate fates with ⟨fate, later⟩
      cases fate with
      | served => simp [Connection.send, Scope.on, Session.serve, Session.drop, next]
      | refused err =>
          simp [Connection.send, Scope.on, Session.refuse, Session.serve, Session.drop, next]
      | lost applied =>
          cases applied <;>
            simp [Connection.send, Scope.on, Session.serve, Session.drop, next]

end Sending

/-- Nothing is sent over a lost connection. -/
theorem send_of_lost [DecidableEq ν] (server : Server σ τ β ε) {conn : Connection σ ν ε}
    (lost : conn.lost = true) (command : Command τ ν)
    : conn.send server command = (.error server.gone, conn) := by
  simp [Connection.send, lost]

/-- Outside a transaction there is nothing to roll back. -/
theorem session_rollback_of_idle [DecidableEq ν] (server : Server σ τ β ε)
    {conn : Connection σ ν ε} (idle : conn.session.block = none)
    : (conn.send server .rollback).2.session = conn.session := by
  obtain ⟨⟨data, block⟩, lost, fates⟩ := conn
  obtain rfl : block = none := idle
  cases lost with
  | true => rfl
  | false =>
      rcases next : nextFate fates with ⟨fate, later⟩
      cases fate with
      | served => simp [Connection.send, Session.serve, Session.drop, next]
      | refused err =>
          simp [Connection.send, Session.refuse, Session.serve, Session.drop, next]
      | lost applied =>
          cases applied <;> simp [Connection.send, Session.serve, Session.drop, next]

/-- What a commit comes to: the transaction is over. An answer says that it is committed, unless
it had failed, and an error that nothing is kept, unless the connection was lost.
-/
theorem commit_cases (server : Server σ τ β ε) (begun : σ) (scope : Scope σ ε)
    {committed : Except ε β} {after : Connection σ ν ε}
    (ends : scope.commit server begun = (committed, after))
    : after.session.block = none
      ∧ (∀ answer, committed = .ok answer
        → after.session.data = server.ended (!scope.failed) begun scope.data)
      ∧ ∀ err, committed = .error err
        → after.session.data = server.ended false begun scope.data
          ∨ after.lost = true ∧ scope.failed = false
            ∧ after.session.data = server.ended true begun scope.data := by
  obtain ⟨data, failed, lost, fates⟩ := scope
  rcases next : nextFate fates with ⟨fate, later⟩
  cases lost with
  | true =>
      obtain ⟨rfl, rfl⟩ := Prod.mk.inj ends
      exact ⟨rfl, nofun, fun _ _ => .inl rfl⟩
  | false =>
      simp only [Scope.commit, next, Bool.false_eq_true, if_false] at ends
      cases fate with
      | served =>
          obtain ⟨rfl, rfl⟩ := Prod.mk.inj ends
          refine ⟨rfl, fun _ _ => ?_, nofun⟩
          cases failed <;> rfl
      | refused err =>
          obtain ⟨rfl, rfl⟩ := Prod.mk.inj ends
          exact ⟨rfl, nofun, fun _ _ => .inl rfl⟩
      | lost applied =>
          obtain ⟨rfl, rfl⟩ := Prod.mk.inj ends
          refine ⟨rfl, nofun, fun _ _ => ?_⟩
          cases applied with
          | false => exact .inl rfl
          | true =>
              cases failed with
              | true => exact .inl rfl
              | false => exact .inr ⟨rfl, rfl, rfl⟩

-----------------------------------------------------------------------------
-- What every run keeps

/-- Two answers are one, and the data behind them are related. -/
inductive SameAnswer (R : σ → σ → Prop) : Except ε (β × σ) → Except ε (β × σ) → Prop
  | ok {answer : β} {left right : σ} (related : R left right)
    : SameAnswer R (.ok (answer, left)) (.ok (answer, right))
  | error (err : ε) : SameAnswer R (.error err) (.error err)

/-- Two scopes are one up to their data, which are related. -/
structure Scope.Alike (R : σ → σ → Prop) (left right : Scope σ ε) : Prop where
  data : R left.data right.data
  failed : left.failed = right.failed
  lost : left.lost = right.lost
  fates : left.fates = right.fates

section Related

variable {server : Server σ τ β ε} {R : σ → σ → Prop} {left right : Scope σ ε}

theorem Scope.Alike.mono {S : σ → σ → Prop} (alike : left.Alike R right)
    (weaker : ∀ a b, R a b → S a b)
    : left.Alike S right :=
  ⟨weaker _ _ alike.data, alike.failed, alike.lost, alike.fates⟩

theorem Scope.Alike.statement (alike : left.Alike R right) {text : τ}
    (ran : SameAnswer R (server.run text left.data) (server.run text right.data))
    : (left.statement server text).1 = (right.statement server text).1
      ∧ (left.statement server text).2.Alike R (right.statement server text).2 := by
  obtain ⟨data, failed, lost, fates⟩ := left
  obtain ⟨other, _, _, _⟩ := right
  obtain ⟨related, sameFailed, sameLost, sameFates⟩ := alike
  cases sameFailed
  cases sameLost
  cases sameFates
  simp only [Scope.statement] at ran ⊢
  generalize server.run text data = answered, server.run text other = otherAnswered at ran
  rcases next : nextFate fates with ⟨fate, later⟩
  cases lost with
  | true => exact ⟨rfl, related, rfl, rfl, rfl⟩
  | false =>
      cases fate with
      | refused err => exact ⟨rfl, related, rfl, rfl, rfl⟩
      | served =>
          cases failed with
          | true => exact ⟨rfl, related, rfl, rfl, rfl⟩
          | false =>
              cases ran with
              | ok changed => exact ⟨rfl, changed, rfl, rfl, rfl⟩
              | error err => exact ⟨rfl, related, rfl, rfl, rfl⟩
      | lost applied =>
          cases applied with
          | false => exact ⟨rfl, related, rfl, rfl, rfl⟩
          | true =>
              cases failed with
              | true => exact ⟨rfl, related, rfl, rfl, rfl⟩
              | false =>
                  cases ran with
                  | ok changed => exact ⟨rfl, changed, rfl, rfl, rfl⟩
                  | error err => exact ⟨rfl, related, rfl, rfl, rfl⟩

theorem Scope.Alike.mark (server : Server σ τ β ε) (alike : left.Alike R right)
    : (left.mark server).1 = (right.mark server).1
      ∧ (left.mark server).2.Alike R (right.mark server).2 := by
  obtain ⟨data, failed, lost, fates⟩ := left
  obtain ⟨other, _, _, _⟩ := right
  obtain ⟨related, sameFailed, sameLost, sameFates⟩ := alike
  cases sameFailed
  cases sameLost
  cases sameFates
  simp only [Scope.mark]
  rcases nextFate fates with ⟨fate, later⟩
  cases lost with
  | true => exact ⟨rfl, related, rfl, rfl, rfl⟩
  | false => cases fate <;> exact ⟨rfl, related, rfl, rfl, rfl⟩

theorem Scope.Alike.abandon (alike : left.Alike R right) {data other : σ}
    (related : R data other) (err : ε)
    : (left.abandon (β := β) server data err).1 = (right.abandon server other err).1
      ∧ (left.abandon (β := β) server data err).2.Alike R
        (right.abandon (β := β) server other err).2 := by
  obtain ⟨last, failed, lost, fates⟩ := left
  obtain ⟨otherLast, _, _, _⟩ := right
  obtain ⟨relatedLast, sameFailed, sameLost, sameFates⟩ := alike
  cases sameFailed
  cases sameLost
  cases sameFates
  simp only [Scope.abandon, Scope.undo]
  rcases nextFate fates with ⟨fate, later⟩
  cases lost with
  | true => exact ⟨rfl, relatedLast, rfl, rfl, rfl⟩
  | false =>
      cases fate with
      | served => exact ⟨rfl, related, rfl, rfl, rfl⟩
      | refused _ => exact ⟨rfl, related, rfl, rfl, rfl⟩
      | lost applied =>
          cases applied with
          | true => exact ⟨rfl, related, rfl, rfl, rfl⟩
          | false => exact ⟨rfl, relatedLast, rfl, rfl, rfl⟩

theorem Scope.Alike.close (server : Server σ τ β ε) (alike : left.Alike R right)
    {data other : σ} (related : R data other) (out : Except ε β)
    : (left.close server data out).1 = (right.close server other out).1
      ∧ (left.close server data out).2.Alike R (right.close server other out).2 := by
  cases out with
  | error err => exact alike.abandon related err
  | ok value =>
      obtain ⟨answer, after⟩ := alike.mark server
      simp only [Scope.close, answer]
      cases (right.mark server).1 with
      | ok _ => exact ⟨rfl, after⟩
      | error err => exact after.abandon related err

/-- Every statement that the code may send is among those chosen. -/
def Code.Sends (chosen : τ → Prop) : Code τ β ε → Prop
  | .done _ => True
  | .query text next => chosen text ∧ ∀ answer, (next answer).Sends chosen
  | .transaction body next => body.Sends chosen ∧ ∀ answer, (next answer).Sends chosen

/-- The same code over other texts. -/
def Code.map {τ' : Type} (f : τ → τ') : Code τ β ε → Code τ' β ε
  | .done out => .done out
  | .query text next => .query (f text) fun answer => (next answer).map f
  | .transaction body next => .transaction (body.map f) fun answer => (next answer).map f

theorem Code.map_sends {τ' : Type} (f : τ → τ') (code : Code τ β ε)
    : (code.map f).Sends fun text => ∃ original, f original = text := by
  induction code with
  | done out => trivial
  | query text next ih => exact ⟨⟨text, rfl⟩, ih⟩
  | transaction body next ihBody ihNext => exact ⟨ihBody, ihNext⟩

/-- Code runs alike on related data, by induction on the code. -/
theorem atomic_alike {chosen : τ → Prop}
    (runs
      : ∀ text, chosen text → ∀ a b, R a b
        → SameAnswer R (server.run text a) (server.run text b))
    {code : Code τ β ε} (sends : code.Sends chosen) {left right : Scope σ ε}
    (alike : left.Alike R right)
    : (atomic server code left).1 = (atomic server code right).1
      ∧ (atomic server code left).2.Alike R (atomic server code right).2 := by
  induction code generalizing left right with
  | done out => exact ⟨rfl, alike⟩
  | query text next ih =>
      obtain ⟨answer, after⟩ := alike.statement (runs text sends.1 _ _ alike.data)
      simp only [atomic, answer]
      exact ih _ (sends.2 _) after
  | transaction body next ihBody ihNext =>
      obtain ⟨opened, inside⟩ := alike.mark server
      simp only [atomic, opened]
      cases (right.mark server).1 with
      | error err => exact ihNext _ (sends.2 _) inside
      | ok _ =>
          obtain ⟨out, ran⟩ := ihBody sends.1 inside
          obtain ⟨answer, after⟩ :=
            ran.close server inside.data (atomic server body (right.mark server).2).1
          simp only [out, answer]
          exact ihNext _ (sends.2 _) after

end Related

-----------------------------------------------------------------------------
-- Connections that behave alike

/-- Two connections are one up to their data, which are related. Nothing is open on either. -/
structure Connection.Alike (R : σ → σ → Prop) (left right : Connection σ ν ε) : Prop where
  data : R left.session.data right.session.data
  idle : left.session.block = none ∧ right.session.block = none
  lost : left.lost = right.lost
  fates : left.fates = right.fates

section RelatedConnections

variable [DecidableEq ν] {server : Server σ τ β ε} {R S : σ → σ → Prop}

/-- Outside a transaction a rollback is of no effect on either side. -/
theorem Connection.Alike.rollback {left right : Connection σ ν ε} (alike : left.Alike R right)
    : (left.send server .rollback).2.Alike R (right.send server .rollback).2 := by
  obtain ⟨⟨data, block⟩, lost, fates⟩ := left
  obtain ⟨⟨other, _⟩, _, _⟩ := right
  obtain ⟨related, ⟨rfl, rfl⟩, rfl, rfl⟩ := alike
  cases lost with
  | true => exact ⟨related, ⟨rfl, rfl⟩, rfl, rfl⟩
  | false =>
      simp only [Connection.send]
      rcases nextFate fates with ⟨fate, later⟩
      cases fate with
      | served => exact ⟨related, ⟨rfl, rfl⟩, rfl, rfl⟩
      | refused err => exact ⟨related, ⟨rfl, rfl⟩, rfl, rfl⟩
      | lost applied => cases applied <;> exact ⟨related, ⟨rfl, rfl⟩, rfl, rfl⟩

/-- A statement of its own is answered alike. -/
theorem Connection.Alike.statement {left right : Connection σ ν ε} (alike : left.Alike R right)
    {text : τ}
    (ran
      : SameAnswer R (server.run text left.session.data) (server.run text right.session.data))
    : (left.send server (.statement text)).1 = (right.send server (.statement text)).1
      ∧ (left.send server (.statement text)).2.Alike R
        (right.send server (.statement text)).2 := by
  obtain ⟨⟨data, block⟩, lost, fates⟩ := left
  obtain ⟨⟨other, _⟩, _, _⟩ := right
  obtain ⟨related, ⟨rfl, rfl⟩, rfl, rfl⟩ := alike
  simp only [Connection.send, Session.serve] at ran ⊢
  generalize server.run text data = answered, server.run text other = otherAnswered at ran
  cases lost with
  | true => exact ⟨rfl, related, ⟨rfl, rfl⟩, rfl, rfl⟩
  | false =>
      rcases nextFate fates with ⟨fate, later⟩
      cases fate with
      | refused err => exact ⟨rfl, related, ⟨rfl, rfl⟩, rfl, rfl⟩
      | served =>
          cases ran with
          | ok changed => exact ⟨rfl, changed, ⟨rfl, rfl⟩, rfl, rfl⟩
          | error err => exact ⟨rfl, related, ⟨rfl, rfl⟩, rfl, rfl⟩
      | lost applied =>
          cases applied with
          | false => exact ⟨rfl, related, ⟨rfl, rfl⟩, rfl, rfl⟩
          | true =>
              cases ran with
              | ok changed => exact ⟨rfl, changed, ⟨rfl, rfl⟩, rfl, rfl⟩
              | error err => exact ⟨rfl, related, ⟨rfl, rfl⟩, rfl, rfl⟩

variable {left right : Scope σ ε} {begun otherBegun : σ}
  (ended
    : ∀ kept last other, R last other
      → S (server.ended kept begun last) (server.ended kept otherBegun other))

include ended

/-- A transaction that is rolled back leaves related data, over whatever savepoints. -/
theorem Scope.Alike.rollback (alike : left.Alike R right) (savepoints others : List (ν × σ))
    : ((left.on server begun savepoints).send server .rollback).2.Alike S
        ((right.on server otherBegun others).send server .rollback).2 := by
  obtain ⟨data, failed, lost, fates⟩ := left
  obtain ⟨other, _, _, _⟩ := right
  obtain ⟨related, sameFailed, sameLost, sameFates⟩ := alike
  cases sameFailed
  cases sameLost
  cases sameFates
  have undone := ended false _ _ related
  cases lost with
  | true => exact ⟨undone, ⟨rfl, rfl⟩, rfl, rfl⟩
  | false =>
      simp only [Connection.send, Scope.on]
      rcases nextFate fates with ⟨fate, later⟩
      cases fate with
      | served => exact ⟨undone, ⟨rfl, rfl⟩, rfl, rfl⟩
      | refused err => exact ⟨undone, ⟨rfl, rfl⟩, rfl, rfl⟩
      | lost applied => cases applied <;> exact ⟨undone, ⟨rfl, rfl⟩, rfl, rfl⟩

omit [DecidableEq ν] in
/-- A transaction ends alike. -/
theorem Scope.Alike.commit (alike : left.Alike R right)
    : (left.commit (ν := ν) server begun).1 = (right.commit (ν := ν) server otherBegun).1
      ∧ (left.commit (ν := ν) server begun).2.Alike S
        (right.commit (ν := ν) server otherBegun).2 := by
  obtain ⟨data, failed, lost, fates⟩ := left
  obtain ⟨other, _, _, _⟩ := right
  obtain ⟨related, sameFailed, sameLost, sameFates⟩ := alike
  cases sameFailed
  cases sameLost
  cases sameFates
  have undone := ended false _ _ related
  have either
      : S (if failed then server.ended false begun data else server.ended true begun data)
          (if failed then server.ended false otherBegun other
            else server.ended true otherBegun other) := by
    cases failed with
    | true => exact undone
    | false => exact ended true _ _ related
  simp only [Scope.commit]
  cases lost with
  | true => exact ⟨rfl, undone, ⟨rfl, rfl⟩, rfl, rfl⟩
  | false =>
      rcases nextFate fates with ⟨fate, later⟩
      cases fate with
      | served => exact ⟨rfl, either, ⟨rfl, rfl⟩, rfl, rfl⟩
      | refused err => exact ⟨rfl, undone, ⟨rfl, rfl⟩, rfl, rfl⟩
      | lost applied =>
          cases applied with
          | true => exact ⟨rfl, either, ⟨rfl, rfl⟩, rfl, rfl⟩
          | false => exact ⟨rfl, undone, ⟨rfl, rfl⟩, rfl, rfl⟩

end RelatedConnections

-----------------------------------------------------------------------------
-- Code that passes every failure on

/-- The code throws where what it awaits throws. -/
def Code.PassesOn : Code τ β ε → Prop
  | .done _ => True
  | .query _ next =>
      (∀ answer, (next (.ok answer)).PassesOn)
        ∧ ∀ err, ∃ thrown, next (.error err) = .done (.error thrown)
  | .transaction _ next =>
      (∀ answer, (next (.ok answer)).PassesOn)
        ∧ ∀ err, ∃ thrown, next (.error err) = .done (.error thrown)

section PassingOn

variable {server : Server σ τ β ε}

/-- A statement that is answered has run, and has not failed the transaction. -/
theorem Scope.statement_ok {scope after : Scope σ ε} {text : τ} {answer : β}
    (answered : scope.statement server text = (.ok answer, after))
    : after.failed = false ∧ server.run text scope.data = .ok (answer, after.data) := by
  obtain ⟨data, failed, lost, fates⟩ := scope
  rcases next : nextFate fates with ⟨fate, later⟩
  simp only [Scope.statement, next] at answered
  cases lost with
  | true => cases answered
  | false =>
      cases fate with
      | refused err => cases answered
      | lost applied => cases answered
      | served =>
          cases failed with
          | true => cases answered
          | false =>
              cases ran : server.run text data with
              | error err => simp [ran] at answered
              | ok pair =>
                  simp only [ran, Bool.false_eq_true, if_false] at answered
                  obtain ⟨same, rfl⟩ := Prod.mk.inj answered
                  obtain rfl : pair.1 = answer := Except.ok.inj same
                  exact ⟨rfl, rfl⟩

/-- A block is opened or closed only in a transaction that has not failed. -/
theorem Scope.mark_ok {scope after : Scope σ ε} (marked : scope.mark server = (.ok (), after))
    : after.failed = false := by
  obtain ⟨data, failed, lost, fates⟩ := scope
  rcases next : nextFate fates with ⟨fate, later⟩
  simp only [Scope.mark, next] at marked
  cases lost with
  | true => cases marked
  | false =>
      cases fate with
      | refused err => cases marked
      | lost applied => cases marked
      | served =>
          cases failed with
          | true => cases marked
          | false => exact (Prod.mk.inj marked).2 ▸ rfl

theorem Scope.close_ok {scope after : Scope σ ε} {data : σ} {out : Except ε β} {value : β}
    (closed : scope.close server data out = (.ok value, after))
    : after.failed = false := by
  have abandoned (scope : Scope σ ε) (err : ε)
      : (scope.abandon (β := β) server data err).1 ≠ .ok value := by
    unfold Scope.abandon
    rcases scope.undo server data with ⟨_ | _, _⟩ <;> simp
  cases out with
  | error err => exact absurd (congrArg Prod.fst closed) (abandoned scope err)
  | ok result =>
      rcases marked : scope.mark server with ⟨answer, behind⟩
      simp only [Scope.close, marked] at closed
      cases answer with
      | ok _ => exact (Prod.mk.inj closed).2 ▸ Scope.mark_ok marked
      | error err => exact absurd (congrArg Prod.fst closed) (abandoned behind err)

/-- Code that passes failures on does not return from a transaction that has failed, by induction
on the code.
-/
theorem Code.PassesOn.not_failed {code : Code τ β ε} (passesOn : code.PassesOn)
    {scope : Scope σ ε} (sound : scope.failed = false) {value : β}
    (returned : (atomic server code scope).1 = .ok value)
    : (atomic server code scope).2.failed = false := by
  induction code generalizing scope with
  | done out => exact sound
  | query text next ih =>
      rcases answered : scope.statement server text with ⟨answer, after⟩
      simp only [atomic, answered] at returned ⊢
      cases answer with
      | ok rows => exact ih _ (passesOn.1 rows) (Scope.statement_ok answered).1 returned
      | error err =>
          obtain ⟨thrown, throws⟩ := passesOn.2 err
          rw [throws] at returned
          cases returned
  | transaction body next _ ih =>
      rcases opened : scope.mark server with ⟨answer, inside⟩
      simp only [atomic, opened] at returned ⊢
      cases answer with
      | error err =>
          obtain ⟨thrown, throws⟩ := passesOn.2 err
          simp only [throws, atomic] at returned
          cases returned
      | ok _ =>
          rcases closed : Scope.close server (atomic server body inside).2 inside.data
            (atomic server body inside).1 with ⟨answer, after⟩
          simp only [closed] at returned ⊢
          cases answer with
          | ok rows => exact ih _ (passesOn.1 rows) (Scope.close_ok closed) returned
          | error err =>
              obtain ⟨thrown, throws⟩ := passesOn.2 err
              rw [throws] at returned
              cases returned

end PassingOn

end Cixtech.Foundation.Transactions
