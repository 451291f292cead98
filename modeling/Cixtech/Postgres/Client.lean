import Cixtech.Common.Text
import Cixtech.Foundation.Transactions

/-! The client that the engine has of its database. A transaction inside a transaction is a
savepoint that is named by its depth, and the outermost one is a transaction of the server.
-/

namespace Cixtech.Postgres

open Cixtech.Common Cixtech.Foundation.Transactions

variable {σ τ β ε : Type} (server : Server σ τ β ε)

/-- The savepoint of a transaction at a depth. -/
def savepoint (depth : Nat) : String := "cixtech_sp_" ++ toString depth

/-- The `catch` of a nested transaction, which throws on. -/
def rollbackTo (depth : Nat) (client : Connection σ String ε) (err : ε)
    : Except ε β × Connection σ String ε :=
  let (undone, after) := client.send server (.rollbackTo (savepoint depth))
  match undone with
  | .ok _ => (.error err, after)
  | .error lost => (.error lost, after)

/-- The end of a nested transaction. -/
def release (depth : Nat) (client : Connection σ String ε) (out : Except ε β)
    : Except ε β × Connection σ String ε :=
  match out with
  | .error err => rollbackTo server depth client err
  | .ok value =>
      let (released, after) := client.send server (.release (savepoint depth))
      match released with
      | .ok _ => (.ok value, after)
      | .error err => rollbackTo server depth after err

/-- `onClient`: code over a client inside a transaction. -/
def onClient (depth : Nat)
    : Code τ β ε → Connection σ String ε → Except ε β × Connection σ String ε
  | .done out, client => (out, client)
  | .query text next, client =>
      let (answer, after) := client.send server (.statement text)
      onClient depth (next answer) after
  | .transaction fn next, client =>
      let (set, inside) := client.send server (.savepoint (savepoint depth))
      match set with
      | .error err => onClient depth (next (.error err)) inside
      | .ok _ =>
          let (out, ran) := onClient (depth + 1) fn inside
          let (answer, after) := release server depth ran out
          onClient depth (next answer) after

/-- The `catch` of a transaction. What comes of the rollback is not looked at. -/
def rollback (client : Connection σ String ε) (err : ε) : Except ε β × Connection σ String ε :=
  (.error err, (client.send server .rollback).2)

/-- `pgClient.transaction`, on the connection that the pool hands out. -/
def transaction (fn : Code τ β ε) (client : Connection σ String ε)
    : Except ε β × Connection σ String ε :=
  let (begun, inside) := client.send server .begin
  match begun with
  | .error err => rollback server inside err
  | .ok _ =>
      let (out, ran) := onClient server 0 fn inside
      match out with
      | .error err => rollback server ran err
      | .ok value =>
          let (committed, after) := ran.send server .commit
          match committed with
          | .ok _ => (.ok value, after)
          | .error err => rollback server after err

/-- `pgClient.query`, on the connection that the pool hands out. -/
def query (text : τ) (client : Connection σ String ε) : Except ε β × Connection σ String ε :=
  client.send server (.statement text)

-----------------------------------------------------------------------------
-- Nested transactions are kept whole or undone whole

theorem savepoint_inj {depth other : Nat} (same : savepoint depth = savepoint other)
    : depth = other :=
  toString_nat_inj (String.append_right_inj _ |>.mp same)

/-- The savepoints are those of a depth and of the depths under it. -/
def SetFrom (depth : Nat) (savepoints : List (String × σ)) : Prop :=
  ∀ set ∈ savepoints, ∃ level, depth ≤ level ∧ set.1 = savepoint level

theorem SetFrom.apart {depth : Nat} {savepoints : List (String × σ)}
    (later : SetFrom (depth + 1) savepoints)
    : ∀ set ∈ savepoints, set.1 ≠ savepoint depth := by
  intro set member same
  obtain ⟨level, under, named⟩ := later set member
  have := savepoint_inj (named.symm.trans same)
  omega

theorem SetFrom.append {depth : Nat} {front savepoints : List (String × σ)}
    (first : SetFrom depth front) (others : SetFrom depth savepoints)
    : SetFrom depth (front ++ savepoints) := by
  intro set member
  rcases List.mem_append.mp member with here | there
  · exact first set here
  · exact others set there

theorem SetFrom.weaken {depth : Nat} {savepoints : List (String × σ)}
    (later : SetFrom (depth + 1) savepoints)
    : SetFrom depth savepoints := by
  intro set member
  obtain ⟨level, under, named⟩ := later set member
  exact ⟨level, Nat.le_of_succ_le under, named⟩

theorem setFrom_savepoint (depth : Nat) (data : σ) : SetFrom depth [(savepoint depth, data)] := by
  intro set member
  exact ⟨depth, Nat.le_refl depth, by rw [List.mem_singleton.mp member]⟩

section Blocks

variable {server} {depth : Nat} {later : List (String × σ)}

/-- Going back to the savepoint of a block undoes the block. The savepoint may stay behind. -/
theorem rollbackTo_on (set : SetFrom (depth + 1) later) (begun data : σ)
    (under : List (String × σ)) (scope : Scope σ ε) (err : ε)
    : ∃ behind : List (String × σ),
        rollbackTo (β := β) server depth
            (scope.on server begun (later ++ (savepoint depth, data) :: under)) err
          = ((scope.abandon server data err).1,
              (scope.abandon (β := β) server data err).2.on server begun (behind ++ under))
        ∧ SetFrom depth behind := by
  have own := setFrom_savepoint depth data
  unfold rollbackTo Scope.abandon
  rw [send_rollbackTo (savepointsFrom_append set.apart data under)]
  rcases scope.undo server data with ⟨undone, after⟩
  cases undone with
  | ok _ => exact ⟨_, rfl, own⟩
  | error err =>
      refine ⟨later ++ [(savepoint depth, data)], ?_, set.weaken.append own⟩
      simp only [List.append_assoc, List.singleton_append]

/-- The end of a nested transaction is the end of a block. -/
theorem release_on (set : SetFrom (depth + 1) later) (begun data : σ)
    (under : List (String × σ)) (scope : Scope σ ε) (out : Except ε β)
    : ∃ behind : List (String × σ),
        release server depth
            (scope.on server begun (later ++ (savepoint depth, data) :: under)) out
          = ((scope.close server data out).1,
              (scope.close server data out).2.on server begun (behind ++ under))
        ∧ SetFrom depth behind := by
  cases out with
  | error err => exact rollbackTo_on set begun data under scope err
  | ok value =>
      unfold release Scope.close
      simp only [send_release (savepointsFrom_append set.apart data under)]
      rcases scope.mark server with ⟨closed, after⟩
      cases closed with
      | ok _ => exact ⟨[], rfl, fun set member => absurd member List.not_mem_nil⟩
      | error err => exact rollbackTo_on set begun data under after err

end Blocks

/-- Inside a transaction, code is answered and leaves the data as if each transaction in it were
kept whole or undone whole. By induction on the code: the savepoints that a block leaves behind
are of its depth or under it, so a later block still finds its own.
-/
theorem onClient_on (code : Code τ β ε) (depth : Nat) (begun : σ) (under : List (String × σ))
    (scope : Scope σ ε)
    : ∃ behind : List (String × σ),
        onClient server depth code (scope.on server begun under)
          = ((atomic server code scope).1,
              (atomic server code scope).2.on server begun (behind ++ under))
        ∧ SetFrom depth behind := by
  induction code generalizing depth under scope with
  | done out => exact ⟨[], rfl, fun set member => absurd member List.not_mem_nil⟩
  | query text next ih =>
      simp only [onClient, atomic, send_statement]
      exact ih _ depth under _
  | transaction fn next ihFn ihNext =>
      simp only [onClient, atomic, send_savepoint]
      rcases scope.mark server with ⟨opened, inside⟩
      cases opened with
      | error err => exact ihNext _ depth under inside
      | ok _ =>
          -- The block runs over its savepoint, and leaves savepoints on top of it.
          obtain ⟨later, ran, deeper⟩ :=
            ihFn (depth + 1) ((savepoint depth, inside.data) :: under) inside
          obtain ⟨behind, closed, set⟩ :=
            release_on deeper begun inside.data under (atomic server fn inside).2
              (atomic server fn inside).1
          obtain ⟨further, finished, setLater⟩ :=
            ihNext ((atomic server fn inside).2.close server inside.data
              (atomic server fn inside).1).1 depth (behind ++ under) _
          refine ⟨further ++ behind, ?_, setLater.append set⟩
          simp only [ran]
          rw [closed, List.append_assoc]
          exact finished

/-- A transaction of the server inside a transaction, at any depth and over whatever savepoints
stand: code is answered, and leaves the data, as if each transaction in it were kept whole or undone
whole. The savepoints that stood stay under those it leaves behind.
-/
theorem nested_transactions_whole (code : Code τ β ε) (depth : Nat) (begun : σ)
    (under : List (String × σ)) (scope : Scope σ ε)
    : ∃ behind : List (String × σ),
        onClient server depth code (scope.on server begun under)
          = ((atomic server code scope).1,
              (atomic server code scope).2.on server begun (behind ++ under)) := by
  obtain ⟨behind, ran, -⟩ := onClient_on server code depth begun under scope
  exact ⟨behind, ran⟩

-----------------------------------------------------------------------------
-- A transaction keeps everything or nothing

/-- The idle connection with what is to come of its commands. -/
def idle (data : σ) (fates : List (Fate ε)) : Connection σ String ε where
  session := { data, block := none }
  lost := false
  fates

/-- The scope that a transaction begins with, behind its `BEGIN`. -/
def begun (data : σ) (fates : List (Fate ε)) : Scope σ ε where
  data
  failed := false
  lost := false
  fates := (nextFate fates).2

/-- What a transaction may leave of the data where it throws: nothing was begun, or nothing kept,
or all is kept and the connection was lost over the commit.
-/
def Undone (data : σ) (ran : Except ε β × Scope σ ε) (after : Connection σ String ε) : Prop :=
  after.session.data = data
  ∨ (∃ last, after.session.data = server.ended false data last)
  ∨ after.lost = true ∧ ran.1.isOk = true ∧ ran.2.failed = false
    ∧ after.session.data = server.ended true data ran.2.data

/-- What a transaction comes to. -/
structure Outcome (data : σ) (ran : Except ε β × Scope σ ε) (out : Except ε β)
    (after : Connection σ String ε)
    : Prop where
  idle : after.session.block = none
  returned
    : ∀ value, out = .ok value
      → ran.1 = .ok value
        ∧ after.session.data = server.ended (!ran.2.failed) data ran.2.data
  threw : ∀ err, out = .error err → Undone server data ran after

/-- `BEGIN` is answered where its fate is to be served, and else nothing is open. -/
theorem send_begin (data : σ) (fates : List (Fate ε))
    : (nextFate fates).1 = .served
        ∧ (idle data fates).send server .begin
          = (.ok server.empty, (begun data fates).on server data [])
      ∨ ∃ err, ((idle data fates).send server .begin).1 = .error err
        ∧ ((idle data fates).send server .begin).2.session.block = none
        ∧ (((idle data fates).send server .begin).2.session.data = data
          ∨ ((idle data fates).send server .begin).2.session.data
            = server.ended false data data) := by
  rcases next : nextFate fates with ⟨fate, later⟩
  cases fate with
  | served =>
      left
      simp [Connection.send, idle, begun, Session.serve, Scope.on, next]
  | refused err =>
      right
      exact ⟨err, by simp [Connection.send, idle, Session.refuse, Session.fail, next]⟩
  | lost applied =>
      right
      refine ⟨server.gone, ?_⟩
      cases applied <;>
        simp [Connection.send, idle, Session.serve, Session.drop, next]

/-- Once a transaction is open it comes to what its code and its commit come to. -/
theorem transaction_outcome (fn : Code τ β ε) (data : σ) (fates : List (Fate ε))
    : Outcome server data (atomic server fn (begun data fates))
        (transaction server fn (idle data fates)).1
        (transaction server fn (idle data fates)).2 := by
  rcases send_begin server data fates with ⟨-, sent⟩ | ⟨err, sent, none, left⟩
  · obtain ⟨behind, ran, -⟩ := onClient_on server fn 0 data [] (begun data fates)
    simp only [transaction, sent, ran, List.append_nil]
    rcases atomic server fn (begun data fates) with ⟨out, scope⟩
    cases out with
    | error err =>
        have undone := session_send_rollback server data behind scope
        exact
          { idle := by simp [rollback, undone]
            returned := by intro value same; cases same
            threw := fun _ _ => .inr (.inl ⟨scope.data, by simp [rollback, undone]⟩) }
    | ok value =>
        simp only [send_commit]
        rcases ends : scope.commit (ν := String) server data with ⟨committed, after⟩
        obtain ⟨quiet, kept, lost⟩ := commit_cases server data scope ends
        cases committed with
        | ok answer =>
            exact
              { idle := quiet
                returned := fun other same => ⟨same, kept answer rfl⟩
                threw := nofun }
        | error err =>
            have left := session_rollback_of_idle server quiet
            refine
              { idle := by simp only [rollback, left, quiet]
                returned := nofun
                threw := fun _ _ => ?_ }
            rcases lost err rfl with undone | ⟨gone, live, all⟩
            · exact .inr (.inl ⟨scope.data, by simp only [rollback, left, undone]⟩)
            · refine .inr (.inr ⟨?_, rfl, live, by simp only [rollback, left, all]⟩)
              simp only [rollback, send_of_lost server gone, gone]
  · have after := session_rollback_of_idle server none
    simp only [transaction, sent]
    refine
      { idle := by simp only [rollback, after, none]
        returned := nofun
        threw := fun _ _ => ?_ }
    rcases left with untouched | undone
    · exact .inl (by simp only [rollback, after, untouched])
    · exact .inr (.inl ⟨data, by simp only [rollback, after, undone]⟩)

/-- A transaction returns the connection with nothing open on it, and keeps everything or nothing of
what its code did. Where it throws, nothing is kept unless the connection was lost over the commit.
Where it returns, everything is kept unless the code swallowed the failure of a statement, which no
code does that passes failures on.
-/
theorem transaction_all_or_nothing (fn : Code τ β ε) (data : σ) (fates : List (Fate ε))
    : Outcome server data (atomic server fn (begun data fates))
        (transaction server fn (idle data fates)).1
        (transaction server fn (idle data fates)).2
      ∧ (fn.PassesOn
        → ∀ value, (transaction server fn (idle data fates)).1 = .ok value
          → (transaction server fn (idle data fates)).2.session.data
            = server.ended true data (atomic server fn (begun data fates)).2.data) := by
  have outcome := transaction_outcome server fn data fates
  refine ⟨outcome, fun passesOn value returns => ?_⟩
  obtain ⟨returned, left⟩ := outcome.returned value returns
  rw [left, passesOn.not_failed rfl returned]
  rfl

-----------------------------------------------------------------------------
-- Transactions over data that are alike

section Alike

variable {server} {R S : σ → σ → Prop} {data other : σ}

/-- `BEGIN` is answered alike. -/
theorem send_begin_alike (related : S data other)
    (dropped : S (server.ended false data data) (server.ended false other other))
    (fates : List (Fate ε))
    : (nextFate fates).1 = .served
      ∨ ∃ err, ((idle data fates).send server .begin).1 = .error err
        ∧ ((idle other fates).send server .begin).1 = .error err
        ∧ ((idle data fates).send server .begin).2.Alike S
          ((idle other fates).send server .begin).2 := by
  rcases next : nextFate fates with ⟨fate, later⟩
  cases fate with
  | served => exact .inl rfl
  | refused err =>
      right
      simp only [Connection.send, idle, Session.refuse, Session.fail, next]
      exact ⟨err, rfl, rfl, related, ⟨rfl, rfl⟩, rfl, rfl⟩
  | lost applied =>
      right
      simp only [Connection.send, idle, Session.serve, Session.drop, next]
      refine ⟨server.gone, rfl, rfl, ?_, ?_, rfl, rfl⟩
      · cases applied with
        | true => exact dropped
        | false => exact related
      · cases applied <;> exact ⟨rfl, rfl⟩

/-- Where the code of a transaction runs alike, and what an ended transaction leaves is alike, the
transaction is answered alike and leaves data that are alike.
-/
theorem transaction_alike {fn : Code τ β ε} {fates : List (Fate ε)} (related : S data other)
    (starts : R data other)
    (ended
      : ∀ kept last otherLast, R last otherLast
        → S (server.ended kept data last) (server.ended kept other otherLast))
    (ran
      : (atomic server fn (begun data fates)).1 = (atomic server fn (begun other fates)).1
        ∧ (atomic server fn (begun data fates)).2.Alike R
          (atomic server fn (begun other fates)).2)
    : (transaction server fn (idle data fates)).1 = (transaction server fn (idle other fates)).1
      ∧ (transaction server fn (idle data fates)).2.Alike S
        (transaction server fn (idle other fates)).2 := by
  rcases send_begin_alike related (ended false _ _ starts) fates with
    served | ⟨err, refused, refusedToo, alike⟩
  · have sent (data : σ)
        : (idle data fates).send server .begin
          = (.ok server.empty, (begun data fates).on server data []) := by
      rcases next : nextFate fates with ⟨fate, later⟩
      obtain rfl : fate = .served := by simpa [next] using served
      simp [Connection.send, idle, begun, Session.serve, Scope.on, next]
    obtain ⟨behind, left, -⟩ := onClient_on server fn 0 data [] (begun data fates)
    obtain ⟨behindToo, right, -⟩ := onClient_on server fn 0 other [] (begun other fates)
    obtain ⟨same, alike⟩ := ran
    simp only [transaction, sent, left, right, List.append_nil, same]
    cases (atomic server fn (begun other fates)).1 with
    | error err => exact ⟨rfl, alike.rollback ended behind behindToo⟩
    | ok value =>
        obtain ⟨committed, settled⟩ := alike.commit (ν := String) ended
        simp only [send_commit, committed]
        cases ((atomic server fn (begun other fates)).2.commit (ν := String) server other).1 with
        | ok _ => exact ⟨rfl, settled⟩
        | error err => exact ⟨rfl, settled.rollback⟩
  · simp only [transaction, refused, refusedToo]
    exact ⟨rfl, alike.rollback⟩

end Alike

end Cixtech.Postgres
