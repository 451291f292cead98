import Cixtech.Auth.Credentials
import Cixtech.Foundation.Table

/-! The sessions of signed-in principals. A session ends at the earlier of two expiries, of which
every resolution slides one up to the other, or by a revocation, which nothing undoes.
-/

namespace Cixtech.Auth

open Cixtech.Common Cixtech.Foundation

/-- The two fields of `SessionConfig` that sessions read. -/
structure SessionConfig where
  absoluteMs : Int
  idleMs : Int
  deriving DecidableEq, Repr

/-- `DEFAULT_SESSION_CONFIG`. -/
def defaultSessionConfig : SessionConfig where
  absoluteMs := 12 * 60 * 60000
  idleMs := 30 * 60000

-----------------------------------------------------------------------------
-- The tables

/-- A row of `auth_session`. -/
structure SessionRow where
  id : String
  principalId : String
  tokenHash : String
  csrfToken : String
  createdAt : Int
  lastSeenAt : Int
  idleExpiresAt : Int
  expiresAt : Int
  revokedAt : Option Int
  revokedReason : Option String
  ip : Option String
  userAgent : Option String
  deriving DecidableEq, Repr

/-- The rows agree on the columns that nothing updates. -/
structure SessionRow.Same (row other : SessionRow) : Prop where
  id : row.id = other.id
  principalId : row.principalId = other.principalId
  tokenHash : row.tokenHash = other.tokenHash
  csrfToken : row.csrfToken = other.csrfToken
  createdAt : row.createdAt = other.createdAt
  expiresAt : row.expiresAt = other.expiresAt
  ip : row.ip = other.ip
  userAgent : row.userAgent = other.userAgent

theorem SessionRow.Same.refl (row : SessionRow) : row.Same row :=
  ⟨rfl, rfl, rfl, rfl, rfl, rfl, rfl, rfl⟩

theorem SessionRow.Same.trans {first second third : SessionRow} (here : first.Same second)
    (there : second.Same third)
    : first.Same third :=
  ⟨here.id.trans there.id, here.principalId.trans there.principalId,
    here.tokenHash.trans there.tokenHash, here.csrfToken.trans there.csrfToken,
    here.createdAt.trans there.createdAt, here.expiresAt.trans there.expiresAt,
    here.ip.trans there.ip, here.userAgent.trans there.userAgent⟩

/-- The tables `principal` and `auth_session`, under the constraints of their schema. -/
structure SessionTables where
  principals : List PrincipalRow
  sessions : List SessionRow
  principalKey : (principals.map fun row => row.id).Nodup
  sessionKey : (sessions.map SessionRow.id).Nodup
  tokenHashKey : (sessions.map SessionRow.tokenHash).Nodup
  principalReference : ∀ row ∈ sessions, row.principalId ∈ principals.map fun row => row.id

namespace SessionTables

def principal? (tables : SessionTables) (id : String) : Option PrincipalRow :=
  Table.lookup (fun row : PrincipalRow => row.id) tables.principals id

/-- Whether the principal's account is active. -/
def isActive (tables : SessionTables) (principalId : String) : Bool :=
  (tables.principal? principalId).any fun row => row.status = .active

/-- `UPDATE auth_session`, of columns under no constraint. -/
def updateSessions (tables : SessionTables) (change : SessionRow → SessionRow)
    (same : ∀ row, (change row).Same row)
    : SessionTables where
  principals := tables.principals
  sessions := tables.sessions.map change
  principalKey := tables.principalKey
  sessionKey := by
    have kept : (tables.sessions.map change).map SessionRow.id
        = tables.sessions.map SessionRow.id := by
      simp [Function.comp_def, fun row => (same row).id]
    exact kept ▸ tables.sessionKey
  tokenHashKey := by
    have kept : (tables.sessions.map change).map SessionRow.tokenHash
        = tables.sessions.map SessionRow.tokenHash := by
      simp [Function.comp_def, fun row => (same row).tokenHash]
    exact kept ▸ tables.tokenHashKey
  principalReference := by
    intro row member
    obtain ⟨old, before, rfl⟩ := List.mem_map.mp member
    exact (same old).principalId ▸ tables.principalReference old before

/-- `authSession.insert`, which a taken id or hash or an unknown principal makes fail. -/
def insert (tables : SessionTables) (row : SessionRow) : Option SessionTables :=
  if accepted : row.id ∉ tables.sessions.map SessionRow.id
      ∧ row.tokenHash ∉ tables.sessions.map SessionRow.tokenHash
      ∧ row.principalId ∈ tables.principals.map (fun row => row.id) then
    some
      { principals := tables.principals
        sessions := tables.sessions ++ [row]
        principalKey := tables.principalKey
        sessionKey := by
          rw [List.map_append]
          exact tables.sessionKey.append (by simp) (by simpa using accepted.1)
        tokenHashKey := by
          rw [List.map_append]
          exact tables.tokenHashKey.append (by simp) (by simpa using accepted.2.1)
        principalReference := by
          intro other member
          rcases List.mem_append.mp member with old | new
          · exact tables.principalReference other old
          · exact List.mem_singleton.mp new ▸ accepted.2.2 }
  else none

/-- `authSession.resolveByTokenHash`: the rows of the join that its conditions leave. -/
def resolveByTokenHash (tables : SessionTables) (tokenHash : String) (now : Int)
    : List (SessionRow × PrincipalRow) :=
  (tables.sessions.filterMap fun row =>
      (tables.principal? row.principalId).map fun principal => (row, principal)).filter
    fun (row, principal) =>
      row.tokenHash = tokenHash && row.revokedAt.isNone && now < row.expiresAt
        && now < row.idleExpiresAt && principal.status = .active

/-- A row is used now, and must be used again by then. -/
def slideRow (id : String) (lastSeenAt idleExpiresAt : Int) (row : SessionRow) : SessionRow :=
  if row.id = id then { row with lastSeenAt, idleExpiresAt } else row

theorem slideRow_same (id : String) (lastSeenAt idleExpiresAt : Int) (row : SessionRow)
    : (slideRow id lastSeenAt idleExpiresAt row).Same row := by
  unfold slideRow
  split <;> exact ⟨rfl, rfl, rfl, rfl, rfl, rfl, rfl, rfl⟩

/-- `authSession.slide`. -/
def slide (tables : SessionTables) (id : String) (lastSeenAt idleExpiresAt : Int)
    : SessionTables :=
  tables.updateSessions (slideRow id lastSeenAt idleExpiresAt)
    (slideRow_same id lastSeenAt idleExpiresAt)

/-- A row that a revocation chooses is revoked unless it was before. -/
def revokeRow (chosen : SessionRow → Bool) (reason : String) (now : Int) (row : SessionRow)
    : SessionRow :=
  if chosen row && row.revokedAt.isNone then
    { row with revokedAt := some now, revokedReason := some reason }
  else row

theorem revokeRow_same (chosen : SessionRow → Bool) (reason : String) (now : Int)
    (row : SessionRow)
    : (revokeRow chosen reason now row).Same row := by
  unfold revokeRow
  split <;> exact ⟨rfl, rfl, rfl, rfl, rfl, rfl, rfl, rfl⟩

/-- The chosen rows that are not revoked are revoked now, and their ids returned. -/
def revokeWhere (tables : SessionTables) (chosen : SessionRow → Bool) (reason : String)
    (now : Int)
    : SessionTables × List String :=
  ( tables.updateSessions (revokeRow chosen reason now) (revokeRow_same chosen reason now),
    (tables.sessions.filter fun row => chosen row && row.revokedAt.isNone).map SessionRow.id)

/-- `authSession.revoke`. -/
def revoke (tables : SessionTables) (id reason : String) (now : Int)
    : SessionTables × List String :=
  tables.revokeWhere (fun row => row.id = id) reason now

/-- `authSession.revokeAllFor`. -/
def revokeAllFor (tables : SessionTables) (principalId reason : String) (now : Int)
    : SessionTables × List String :=
  tables.revokeWhere (fun row => row.principalId = principalId) reason now

/-- `principalQ.setStatus`. -/
def updateStatus (tables : SessionTables) (id : String) (status : PrincipalStatus)
    : SessionTables where
  principals :=
    Table.update (fun row : PrincipalRow => row.id) tables.principals id fun row =>
      { row with status }
  sessions := tables.sessions
  principalKey := Table.nodup_update id _ (fun _ => rfl) tables.principalKey
  sessionKey := tables.sessionKey
  tokenHashKey := tables.tokenHashKey
  principalReference := by
    intro row member
    have known := tables.principalReference row member
    simp only [List.mem_map, Table.update, exists_exists_and_eq_and] at known ⊢
    obtain ⟨principal, there, owner⟩ := known
    refine ⟨principal, there, ?_⟩
    split <;> exact owner

end SessionTables

-----------------------------------------------------------------------------
-- The calls

structure Session where
  id : String
  principalId : String
  createdAt : Int
  lastSeenAt : Int
  expiresAt : Int
  idleExpiresAt : Int
  ip : Option String
  userAgent : Option String
  deriving DecidableEq, Repr

/-- What `createSession` is given, draws at random, and takes from the database's clock. -/
structure NewSession where
  principalId : String
  ip : Option String
  userAgent : Option String
  now : Int
  id : String
  token : String
  csrfToken : String
  databaseNow : Int
  deriving DecidableEq, Repr

/-- What `createSession` returns. -/
structure CreatedSession where
  token : String
  csrfToken : String
  session : Session
  deriving DecidableEq, Repr

/-- What `resolveSession` returns. -/
structure ResolvedSession where
  principal : Principal
  session : Session
  csrfToken : String
  deriving DecidableEq, Repr

def utf16Units (c : Char) : Nat := if c.toNat < 0x10000 then 1 else 2

/-- `text.slice(0, count)`, which counts UTF-16 units. Half of a pair is stored as U+FFFD. -/
def sliceUnits (count : Nat) : List Char → List Char
  | [] => []
  | c :: rest =>
      if utf16Units c ≤ count then c :: sliceUnits (count - utf16Units c) rest
      else if count = 0 then []
      else ['\uFFFD']

/-- `(userAgent ?? "").slice(0, 300) || null`. -/
def storedUserAgent (userAgent : Option String) : Option String :=
  match sliceUnits 300 (userAgent.getD "").toList with
  | [] => none
  | stored => some (String.ofList stored)

inductive SessionCall
  | createSession (input : NewSession)
  | resolveSession (token : String) (now : Int)
  | revokeSession (id reason : String) (now : Int)
  | revokeAllSessions (principalId reason : String) (now : Int)
  | setStatus (id : String) (status : PrincipalStatus) (now : Int)
  deriving DecidableEq, Repr

inductive SessionAnswer
  /-- Nothing is returned where the insert failed and the call threw. -/
  | created (session : Option CreatedSession)
  | resolved (session : Option ResolvedSession)
  | revoked (any : Bool)
  | revokedAll (count : Nat)
  | statusSet
  deriving DecidableEq, Repr

namespace SessionTables

section Store

variable (config : SessionConfig) (hashToken : String → String)

/-- The row that `createSession` inserts. -/
def createdRow (input : NewSession) : SessionRow where
  id := input.id
  principalId := input.principalId
  tokenHash := hashToken input.token
  csrfToken := input.csrfToken
  createdAt := input.databaseNow
  lastSeenAt := input.databaseNow
  idleExpiresAt := input.now + config.idleMs
  expiresAt := input.now + config.absoluteMs
  revokedAt := none
  revokedReason := none
  ip := input.ip
  userAgent := storedUserAgent input.userAgent

/-- `AuthStore.createSession`. -/
def createSession (tables : SessionTables) (input : NewSession)
    : SessionTables × Option CreatedSession :=
  match tables.insert (createdRow config hashToken input) with
  | none => (tables, none)
  | some inserted =>
      ( inserted,
        some
          { token := input.token
            csrfToken := input.csrfToken
            session :=
              { id := input.id
                principalId := input.principalId
                createdAt := input.now
                lastSeenAt := input.now
                expiresAt := input.now + config.absoluteMs
                idleExpiresAt := input.now + config.idleMs
                ip := input.ip
                userAgent := input.userAgent } })

/-- `AuthStore.resolveSession`. -/
def resolveSession (tables : SessionTables) (token : String) (now : Int)
    : SessionTables × Option ResolvedSession :=
  match tables.resolveByTokenHash (hashToken token) now with
  | [] => (tables, none)
  | (row, principal) :: _ =>
      let idleExpiresAt := now + config.idleMs
      let capped := min idleExpiresAt row.expiresAt
      ( tables.slide row.id now capped,
        some
          { csrfToken := row.csrfToken
            principal := principal.toPrincipal
            session :=
              { id := row.id
                principalId := row.principalId
                createdAt := row.createdAt
                lastSeenAt := now
                expiresAt := row.expiresAt
                idleExpiresAt := capped
                ip := row.ip
                userAgent := row.userAgent } })

/-- `AuthStore.revokeSession`. -/
def revokeSession (tables : SessionTables) (id reason : String) (now : Int)
    : SessionTables × Bool :=
  let (updated, revoked) := tables.revoke id reason now
  (updated, 0 < revoked.length)

/-- `AuthStore.revokeAllSessions`. -/
def revokeAllSessions (tables : SessionTables) (principalId reason : String) (now : Int)
    : SessionTables × Nat :=
  let (updated, revoked) := tables.revokeAllFor principalId reason now
  (updated, revoked.length)

/-- `AuthStore.setStatus`. -/
def setStatus (tables : SessionTables) (id : String) (status : PrincipalStatus) (now : Int)
    : SessionTables :=
  let updated := tables.updateStatus id status
  if status = .disabled then (updated.revokeAllSessions id "account disabled" now).1
  else updated

/-- One call, awaited to its end. -/
def perform (tables : SessionTables) : SessionCall → SessionTables × SessionAnswer
  | .createSession input =>
      let (after, created) := tables.createSession config hashToken input
      (after, .created created)
  | .resolveSession token now =>
      let (after, resolved) := tables.resolveSession config hashToken token now
      (after, .resolved resolved)
  | .revokeSession id reason now =>
      let (after, revoked) := tables.revokeSession id reason now
      (after, .revoked revoked)
  | .revokeAllSessions principalId reason now =>
      let (after, count) := tables.revokeAllSessions principalId reason now
      (after, .revokedAll count)
  | .setStatus id status now => (tables.setStatus id status now, .statusSet)

/-- The tables after a run of calls. -/
def run (tables : SessionTables) : List SessionCall → SessionTables
  | [] => tables
  | call :: rest => run (tables.perform config hashToken call).1 rest

/-- The calls of a run, each with its answer. -/
def history (tables : SessionTables) : List SessionCall → List (SessionCall × SessionAnswer)
  | [] => []
  | call :: rest =>
      let (after, answer) := tables.perform config hashToken call
      (call, answer) :: history after rest

end Store

end SessionTables

-----------------------------------------------------------------------------
-- What a session is worth after a run

/-- Whether a call ends every use of the session. -/
def SessionCall.revokes (id principalId : String) : SessionCall → Bool
  | .revokeSession other _ _ => other = id
  | .revokeAllSessions owner _ _ => owner = principalId
  | .setStatus owner status _ => owner = principalId && status = .disabled
  | _ => false

/-- The clock of a call that resolved the session. -/
def resolvedAt (id : String) : SessionCall × SessionAnswer → Option Int
  | (.resolveSession _ now, .resolved (some resolved)) =>
      if resolved.session.id = id then some now else none
  | _ => none

/-- The clock of the last call that resolved the session, or of its creation. -/
def lastSeen (id : String) (createdAt : Int) (history : List (SessionCall × SessionAnswer))
    : Int :=
  (history.filterMap (resolvedAt id)).getLastD createdAt

/-- The principal whose sessions a call is about. -/
def SessionTables.concerned (hashToken : String → String) (tables : SessionTables)
    : SessionCall → Option String
  | .createSession input => some input.principalId
  | .resolveSession token _ =>
      (Table.lookup SessionRow.tokenHash tables.sessions (hashToken token)).map
        SessionRow.principalId
  | .revokeSession id _ _ =>
      (Table.lookup SessionRow.id tables.sessions id).map SessionRow.principalId
  | .revokeAllSessions principalId _ _ => some principalId
  | .setStatus id _ _ => some id

/-- The row of a session says whether it was revoked, and by when it must be used again. -/
structure SessionRow.Follows (config : SessionConfig) (row : SessionRow) (revoked : Bool)
    (lastSeen : Int)
    : Prop where
  revoked : row.revokedAt.isSome = revoked
  idle : min row.idleExpiresAt row.expiresAt = min (lastSeen + config.idleMs) row.expiresAt

namespace SessionTables

variable {config : SessionConfig} {hashToken : String → String} {tables : SessionTables}

theorem principal?_id {id : String} {principal : PrincipalRow}
    (known : tables.principal? id = some principal)
    : principal.id = id := by
  have selected := Table.lookup_key known
  exact selected

theorem principal?_updateStatus {id other : String} (apart : id ≠ other)
    (status : PrincipalStatus)
    : (tables.updateStatus other status).principal? id = tables.principal? id := by
  unfold principal?
  exact (Table.lookup_update tables.principals id other (fun row => { row with status })
    fun _ => rfl).trans (if_neg apart)

theorem eq_of_id {row other : SessionRow} (member : row ∈ tables.sessions)
    (there : other ∈ tables.sessions) (same : row.id = other.id)
    : row = other :=
  List.inj_on_of_nodup_map tables.sessionKey member there same

theorem eq_of_tokenHash {row other : SessionRow} (member : row ∈ tables.sessions)
    (there : other ∈ tables.sessions) (same : row.tokenHash = other.tokenHash)
    : row = other :=
  List.inj_on_of_nodup_map tables.tokenHashKey member there same

theorem mem_updateSessions {change : SessionRow → SessionRow}
    (same : ∀ row, (change row).Same row) {row : SessionRow} (member : row ∈ tables.sessions)
    : change row ∈ (tables.updateSessions change same).sessions :=
  List.mem_map_of_mem member

theorem insert_rows {row : SessionRow} {inserted : SessionTables}
    (accepted : tables.insert row = some inserted)
    : inserted.sessions = tables.sessions ++ [row] ∧ inserted.principals = tables.principals := by
  unfold insert at accepted
  split at accepted
  · cases accepted
    exact ⟨rfl, rfl⟩
  · cases accepted

theorem mem_resolveByTokenHash {tokenHash : String} {now : Int} {row : SessionRow}
    {principal : PrincipalRow}
    : (row, principal) ∈ tables.resolveByTokenHash tokenHash now
      ↔ row ∈ tables.sessions
        ∧ tables.principal? row.principalId = some principal
        ∧ row.tokenHash = tokenHash
        ∧ row.revokedAt = none
        ∧ now < row.expiresAt
        ∧ now < row.idleExpiresAt
        ∧ principal.status = .active := by
  simp only [resolveByTokenHash, List.mem_filter, List.mem_filterMap, Option.map_eq_some_iff,
    Prod.mk.injEq, Bool.and_eq_true, decide_eq_true_eq, Option.isNone_iff_eq_none]
  constructor
  · rintro ⟨⟨_, member, _, found, rfl, rfl⟩, conditions⟩
    obtain ⟨⟨⟨⟨hash, unrevoked⟩, alive⟩, fresh⟩, active⟩ := conditions
    exact ⟨member, found, hash, unrevoked, alive, fresh, active⟩
  · rintro ⟨member, found, hash, unrevoked, alive, fresh, active⟩
    exact ⟨⟨row, member, principal, found, rfl, rfl⟩,
      ⟨⟨⟨hash, unrevoked⟩, alive⟩, fresh⟩, active⟩

/-- A resolution finds no row, or slides the one that its conditions leave. -/
theorem resolveSession_cases (config : SessionConfig) (hashToken : String → String)
    (tables : SessionTables) (token : String) (now : Int)
    : (tables.resolveSession config hashToken token now = (tables, none)
        ∧ ∀ row principal, (row, principal) ∉ tables.resolveByTokenHash (hashToken token) now)
      ∨ ∃ row principal resolved,
        (row, principal) ∈ tables.resolveByTokenHash (hashToken token) now
        ∧ tables.resolveSession config hashToken token now
          = (tables.slide row.id now (min (now + config.idleMs) row.expiresAt), some resolved)
        ∧ resolved.principal = principal.toPrincipal
        ∧ resolved.csrfToken = row.csrfToken
        ∧ resolved.session.id = row.id
        ∧ resolved.session.principalId = row.principalId
        ∧ resolved.session.expiresAt = row.expiresAt
        ∧ resolved.session.idleExpiresAt = min (now + config.idleMs) row.expiresAt := by
  unfold resolveSession
  cases found : tables.resolveByTokenHash (hashToken token) now with
  | nil => exact .inl ⟨rfl, fun row principal => List.not_mem_nil⟩
  | cons joined rest =>
      exact .inr ⟨joined.1, joined.2, _, List.mem_cons_self, rfl, rfl, rfl, rfl, rfl, rfl, rfl⟩

/-- A revocation leaves the row with its expiries, and revokes it where it is chosen. -/
theorem follows_revokeRow (chosen : SessionRow → Bool) {reason : String} {now : Int}
    {row : SessionRow} {revoked : Bool} {seen : Int} (follows : row.Follows config revoked seen)
    : (revokeRow chosen reason now row).Follows config (revoked || chosen row) seen := by
  have before := follows.revoked
  unfold revokeRow
  split
  case isTrue hit =>
    obtain ⟨taken, -⟩ := Bool.and_eq_true_iff.mp hit
    exact ⟨by simp [taken], follows.idle⟩
  case isFalse missed =>
    refine ⟨?_, follows.idle⟩
    cases taken : chosen row with
    | false => simpa using before
    | true =>
        simp only [taken, Bool.true_and, Option.isNone_iff_eq_none, ← Option.isSome_iff_ne_none,
          ← ne_eq] at missed
        simp [missed]

/-- What one call leaves of a row: its columns, with the revocation and the use recorded. -/
theorem perform_follows (hashToken : String → String) {row : SessionRow} {revoked : Bool}
    {seen : Int} (member : row ∈ tables.sessions) (follows : row.Follows config revoked seen)
    (call : SessionCall)
    : ∃ next ∈ (tables.perform config hashToken call).1.sessions,
        next.Same row
        ∧ next.Follows config (revoked || call.revokes row.id row.principalId)
          ((resolvedAt row.id (call, (tables.perform config hashToken call).2)).getD seen) := by
  cases call with
  | createSession input =>
      refine ⟨row, ?_, .refl row, by simpa [SessionCall.revokes, resolvedAt] using follows⟩
      simp only [perform, createSession]
      split
      · exact member
      case h_2 inserted accepted =>
        rw [(insert_rows accepted).1]
        exact List.mem_append_left _ member
  | resolveSession token now =>
      simp only [perform]
      rcases resolveSession_cases config hashToken tables token now with
        ⟨missed, -⟩ | ⟨found, principal, resolved, there, took, -, -, ofRow, -⟩
      · rw [missed]
        exact ⟨row, member, .refl row, by simpa [SessionCall.revokes, resolvedAt] using follows⟩
      · rw [took]
        obtain ⟨inTable, -⟩ := mem_resolveByTokenHash.mp there
        refine ⟨_, mem_updateSessions (slideRow_same _ _ _) member, slideRow_same _ _ _ _, ?_⟩
        unfold slideRow
        by_cases own : row.id = found.id
        · obtain rfl := eq_of_id member inTable own
          simp only [resolvedAt, ofRow, if_true, Option.getD_some, SessionCall.revokes,
            Bool.or_false]
          exact ⟨follows.revoked, by simp⟩
        · rw [if_neg own]
          have foreign : ¬ resolved.session.id = row.id := by
            rw [ofRow]
            exact Ne.symm own
          simpa [resolvedAt, foreign, SessionCall.revokes] using follows
  | revokeSession id reason now =>
      refine ⟨_, mem_updateSessions (revokeRow_same _ _ _) member, revokeRow_same _ _ _ _, ?_⟩
      simpa [SessionCall.revokes, resolvedAt, eq_comm]
        using follows_revokeRow (fun row => row.id = id) follows
  | revokeAllSessions principalId reason now =>
      refine ⟨_, mem_updateSessions (revokeRow_same _ _ _) member, revokeRow_same _ _ _ _, ?_⟩
      simpa [SessionCall.revokes, resolvedAt, eq_comm]
        using follows_revokeRow (fun row => row.principalId = principalId) follows
  | setStatus id status now =>
      simp only [perform, setStatus]
      split
      case isTrue disabled =>
        have kept : row ∈ (tables.updateStatus id status).sessions := member
        refine ⟨_, mem_updateSessions (revokeRow_same _ _ _) kept, revokeRow_same _ _ _ _, ?_⟩
        simpa [SessionCall.revokes, resolvedAt, disabled, eq_comm]
          using follows_revokeRow (fun row => row.principalId = id) follows
      case isFalse enabled =>
        exact ⟨row, member, .refl row,
          by simpa [SessionCall.revokes, resolvedAt, enabled] using follows⟩

/-- What a run of calls leaves of a row, by induction on the calls. -/
theorem run_follows {row : SessionRow} {revoked : Bool} {seen : Int}
    (member : row ∈ tables.sessions) (follows : row.Follows config revoked seen)
    (calls : List SessionCall)
    : ∃ last ∈ (tables.run config hashToken calls).sessions,
        last.Same row
        ∧ last.Follows config
          (revoked || calls.any fun call => call.revokes row.id row.principalId)
          (lastSeen row.id seen (tables.history config hashToken calls)) := by
  induction calls generalizing tables row revoked seen with
  | nil => exact ⟨row, member, .refl row, by simpa [lastSeen, history] using follows⟩
  | cons call rest ih =>
      obtain ⟨next, there, same, stepped⟩ := perform_follows hashToken member follows call
      obtain ⟨last, found, kept, followed⟩ := ih there stepped
      refine ⟨last, found, kept.trans same, ?_⟩
      rw [same.id, same.principalId, Bool.or_assoc, ← List.any_cons] at followed
      have seenLast : lastSeen row.id seen (tables.history config hashToken (call :: rest))
          = lastSeen row.id
            ((resolvedAt row.id (call, (tables.perform config hashToken call).2)).getD seen)
            ((tables.perform config hashToken call).1.history config hashToken rest) := by
        simp only [lastSeen, history, List.filterMap_cons]
        cases resolvedAt row.id (call, (tables.perform config hashToken call).2) with
        | none => rfl
        | some clock => exact List.getLastD_cons
      rwa [seenLast]

/-- When a token resolves, by what its row says. -/
theorem resolveSession_isSome_iff {row : SessionRow} {revoked : Bool} {seen : Int}
    (member : row ∈ tables.sessions) (follows : row.Follows config revoked seen) {token : String}
    (ofToken : row.tokenHash = hashToken token) (now : Int)
    : (tables.resolveSession config hashToken token now).2.isSome = true
      ↔ revoked = false
        ∧ tables.isActive row.principalId = true
        ∧ now < row.expiresAt
        ∧ now < seen + config.idleMs := by
  have expiries := follows.idle
  have revocation := follows.revoked
  constructor
  · intro resolves
    rcases resolveSession_cases config hashToken tables token now with
      ⟨missed, -⟩ | ⟨found, principal, resolved, there, took, -⟩
    · rw [missed] at resolves
      cases resolves
    · obtain ⟨inTable, owner, hash, unrevoked, alive, fresh, active⟩ :=
        mem_resolveByTokenHash.mp there
      obtain rfl := eq_of_tokenHash member inTable (ofToken.trans hash.symm)
      refine ⟨by simpa [unrevoked] using revocation.symm, by simp [isActive, owner, active],
        alive, by omega⟩
  · rintro ⟨unrevoked, active, alive, fresh⟩
    obtain ⟨principal, owner, enabled⟩ := (Option.any_eq_true _ _).mp active
    have none : row.revokedAt = none := by
      rw [unrevoked] at revocation
      simpa using revocation
    have joined : (row, principal) ∈ tables.resolveByTokenHash (hashToken token) now :=
      mem_resolveByTokenHash.mpr
        ⟨member, owner, ofToken, none, alive, by omega, by simpa using enabled⟩
    rcases resolveSession_cases config hashToken tables token now with
      ⟨-, missed⟩ | ⟨_, _, resolved, -, took, -⟩
    · exact absurd joined (missed row principal)
    · rw [took]
      rfl

/-- What a resolution of a session's token answers. -/
theorem resolveSession_of_some {row : SessionRow} (member : row ∈ tables.sessions)
    {token : String} (ofToken : row.tokenHash = hashToken token) {now : Int}
    {resolved : ResolvedSession}
    (resolves : (tables.resolveSession config hashToken token now).2 = some resolved)
    : resolved.session.id = row.id
      ∧ resolved.session.principalId = row.principalId
      ∧ resolved.principal.id = row.principalId
      ∧ resolved.csrfToken = row.csrfToken
      ∧ resolved.session.expiresAt = row.expiresAt
      ∧ resolved.session.idleExpiresAt ≤ row.expiresAt := by
  rcases resolveSession_cases config hashToken tables token now with
    ⟨missed, -⟩ | ⟨found, principal, answer, there, took, of, csrf, id, owner, ends, idle⟩
  · rw [missed] at resolves
    cases resolves
  · rw [took] at resolves
    obtain rfl := Option.some.inj resolves
    obtain ⟨inTable, known, hash, -⟩ := mem_resolveByTokenHash.mp there
    obtain rfl := eq_of_tokenHash member inTable (ofToken.trans hash.symm)
    refine ⟨id, owner, ?_, csrf, ends, idle ▸ Int.min_le_right _ _⟩
    rw [of]
    exact principal?_id known

-----------------------------------------------------------------------------
-- Other principals

/-- The sessions of a principal. -/
def sessionsOf (tables : SessionTables) (principalId : String) : List SessionRow :=
  tables.sessions.filter fun row => row.principalId = principalId

/-- An update that leaves the principal's rows alone leaves its sessions. -/
theorem sessionsOf_updateSessions {change : SessionRow → SessionRow}
    (same : ∀ row, (change row).Same row) {principalId : String}
    (spared : ∀ row ∈ tables.sessions, row.principalId = principalId → change row = row)
    : (tables.updateSessions change same).sessionsOf principalId
      = tables.sessionsOf principalId := by
  simp only [sessionsOf, updateSessions, List.filter_map, Function.comp_def,
    fun row => (same row).principalId]
  refine (List.map_congr_left fun row member => ?_).trans (List.map_id _)
  obtain ⟨inTable, own⟩ := List.mem_filter.mp member
  exact spared row inTable (of_decide_eq_true own)

/-- A revocation that chooses no row of the principal leaves its sessions. -/
theorem sessionsOf_revokeWhere {chosen : SessionRow → Bool} {principalId : String}
    (spared
      : ∀ row ∈ tables.sessions, row.principalId = principalId → chosen row = false)
    (reason : String) (now : Int)
    : (tables.revokeWhere chosen reason now).1.sessionsOf principalId
      = tables.sessionsOf principalId := by
  refine sessionsOf_updateSessions (revokeRow_same _ _ _) fun row member own => ?_
  simp [revokeRow, spared row member own]

/-- A call changes nothing of a principal that it is not about. -/
theorem perform_frame (config : SessionConfig) (hashToken : String → String)
    (tables : SessionTables) (call : SessionCall) {principalId : String}
    (foreign : tables.concerned hashToken call ≠ some principalId)
    : (tables.perform config hashToken call).1.sessionsOf principalId
        = tables.sessionsOf principalId
      ∧ (tables.perform config hashToken call).1.principal? principalId
        = tables.principal? principalId := by
  cases call with
  | createSession input =>
      simp only [perform, createSession]
      split
      · exact ⟨rfl, rfl⟩
      case h_2 inserted accepted =>
        obtain ⟨sessions, principals⟩ := insert_rows accepted
        have apart : ¬ input.principalId = principalId := by simpa [concerned] using foreign
        simp [sessionsOf, principal?, sessions, principals, createdRow, apart]
  | resolveSession token now =>
      simp only [perform]
      rcases resolveSession_cases config hashToken tables token now with
        ⟨missed, -⟩ | ⟨found, principal, resolved, there, took, -⟩
      · rw [missed]
        exact ⟨rfl, rfl⟩
      · rw [took]
        obtain ⟨inTable, -, hash, -⟩ := mem_resolveByTokenHash.mp there
        have selected := Table.lookup_of_mem tables.tokenHashKey inTable
        rw [hash] at selected
        have apart : found.principalId ≠ principalId := by
          simpa [concerned, selected] using foreign
        refine ⟨sessionsOf_updateSessions (slideRow_same _ _ _) fun row member own => ?_, rfl⟩
        have missed : ¬ row.id = found.id := by
          intro same
          exact apart (eq_of_id member inTable same ▸ own)
        simp [slideRow, missed]
  | revokeSession id reason now =>
      refine ⟨sessionsOf_revokeWhere (fun row member own => ?_) reason now, rfl⟩
      refine decide_eq_false fun same => foreign ?_
      have selected := Table.lookup_of_mem tables.sessionKey member
      rw [same] at selected
      simp [concerned, selected, own]
  | revokeAllSessions owner reason now =>
      have apart : ¬ owner = principalId := by simpa [concerned] using foreign
      refine ⟨sessionsOf_revokeWhere (fun row member own => ?_) reason now, rfl⟩
      simp [own, Ne.symm apart]
  | setStatus id status now =>
      have apart : ¬ id = principalId := by simpa [concerned] using foreign
      have spared : (tables.updateStatus id status).principal? principalId
          = tables.principal? principalId :=
        principal?_updateStatus (Ne.symm apart) status
      simp only [perform, setStatus]
      split
      · refine ⟨sessionsOf_revokeWhere (fun row member own => ?_) _ now, spared⟩
        simp [own, Ne.symm apart]
      · exact ⟨rfl, spared⟩

-----------------------------------------------------------------------------
-- Every run

/-- A session that `createSession` returned has a row that says so. -/
theorem createSession_row {input : NewSession} {created : CreatedSession}
    (issued : (tables.createSession config hashToken input).2 = some created)
    : created.session.id = input.id
      ∧ created.token = input.token
      ∧ created.csrfToken = input.csrfToken
      ∧ createdRow config hashToken input
        ∈ (tables.createSession config hashToken input).1.sessions := by
  unfold createSession at issued ⊢
  cases accepted : tables.insert (createdRow config hashToken input) with
  | none =>
      rw [accepted] at issued
      cases issued
  | some inserted =>
      rw [accepted] at issued
      obtain rfl := Option.some.inj issued
      refine ⟨rfl, rfl, rfl, ?_⟩
      rw [(insert_rows accepted).1]
      exact List.mem_append_right _ (List.mem_singleton.mpr rfl)

/-- A run composes of its parts, by induction on the first. -/
theorem run_append (first second : List SessionCall)
    : tables.run config hashToken (first ++ second)
      = (tables.run config hashToken first).run config hashToken second := by
  induction first generalizing tables with
  | nil => rfl
  | cons call rest ih => exact ih

/-- A session's token resolves to it exactly while nothing has revoked it, its principal is
active, and both its own age and the time since it was last resolved are within bounds. So
its age ends it whatever was resolved, a revocation ends it for good, and no call reaches a
principal that it is not about.
-/
theorem session_resolves_iff (config : SessionConfig) (hashToken : String → String)
    (tables : SessionTables) (input : NewSession) (created : CreatedSession)
    (issued : (tables.createSession config hashToken input).2 = some created)
    (calls : List SessionCall)
    : let start := (tables.createSession config hashToken input).1
      let later := start.run config hashToken calls
      let answers := start.history config hashToken calls
      (∀ now,
          (later.resolveSession config hashToken created.token now).2.isSome = true
            ↔ (∀ call ∈ calls, call.revokes created.session.id input.principalId = false)
              ∧ later.isActive input.principalId = true
              ∧ now < input.now + config.absoluteMs
              ∧ now < lastSeen created.session.id input.now answers + config.idleMs)
        ∧ (∀ now resolved,
            (later.resolveSession config hashToken created.token now).2 = some resolved
            → resolved.session.id = created.session.id
              ∧ resolved.session.principalId = input.principalId
              ∧ resolved.principal.id = input.principalId
              ∧ resolved.csrfToken = created.csrfToken
              ∧ resolved.session.expiresAt = input.now + config.absoluteMs
              ∧ resolved.session.idleExpiresAt ≤ input.now + config.absoluteMs)
        ∧ (∀ now, input.now + config.absoluteMs ≤ now
            → (later.resolveSession config hashToken created.token now).2 = none)
        ∧ (∀ call more now, call.revokes created.session.id input.principalId = true
            → ((later.run config hashToken (call :: more)).resolveSession config hashToken
                created.token now).2 = none)
        ∧ ∀ call principalId, later.concerned hashToken call ≠ some principalId
          → (later.perform config hashToken call).1.sessionsOf principalId
              = later.sessionsOf principalId
            ∧ (later.perform config hashToken call).1.principal? principalId
              = later.principal? principalId := by
  intro start later answers
  obtain ⟨sameId, sameToken, sameCsrf, inserted⟩ := createSession_row issued
  rw [sameId, sameToken, sameCsrf]
  have fresh : (createdRow config hashToken input).Follows config false input.now :=
    ⟨rfl, rfl⟩
  -- Every run from the insert on ends with the row that the calls have left of it.
  have resolves : ∀ more now,
      ((start.run config hashToken more).resolveSession config hashToken input.token now).2.isSome
          = true
        ↔ (∀ call ∈ more, call.revokes input.id input.principalId = false)
          ∧ (start.run config hashToken more).isActive input.principalId = true
          ∧ now < input.now + config.absoluteMs
          ∧ now < lastSeen input.id input.now (start.history config hashToken more)
            + config.idleMs := by
    intro more now
    obtain ⟨last, there, same, follows⟩ := run_follows inserted fresh more
    have live := resolveSession_isSome_iff there follows same.tokenHash now
    rw [same.principalId, same.expiresAt] at live
    rw [live, Bool.false_or, List.any_eq_false]
    simp [createdRow, start]
  refine ⟨resolves calls, ?_, ?_, ?_,
    fun call principalId => perform_frame config hashToken later call⟩
  · intro now resolved answered
    obtain ⟨last, there, same, -⟩ := run_follows inserted fresh calls
    have answer := resolveSession_of_some there same.tokenHash answered
    rwa [same.id, same.principalId, same.csrfToken, same.expiresAt] at answer
  · intro now expired
    refine Option.not_isSome_iff_eq_none.mp fun resolved => ?_
    have alive := ((resolves calls now).mp resolved).2.2.1
    omega
  · intro call more now revokes
    refine Option.not_isSome_iff_eq_none.mp fun resolved => ?_
    rw [← run_append] at resolved
    have unrevoked := ((resolves (calls ++ call :: more) now).mp resolved).1 call (by simp)
    rw [revokes] at unrevoked
    cases unrevoked

/-- A minute, of which ten seconds idle. -/
def sampleConfig : SessionConfig where
  absoluteMs := 60000
  idleMs := 10000

def sampleSignIn : NewSession where
  principalId := "p"
  ip := none
  userAgent := some "Firefox"
  now := 0
  id := "s"
  token := "t"
  csrfToken := "c"
  databaseNow := 0

def sampleTables : SessionTables where
  principals :=
    [ { id := "p"
        kind := .tenantUser
        tenantId := some "aa"
        email := "a@b.c"
        role := "member"
        status := .active
        mustChangePassword := false
        totpConfirmed := false
        passwordHash := ""
        failedLogins := 0
        lockedUntil := none }]
  sessions := []
  principalKey := by simp
  sessionKey := by simp
  tokenHashKey := by simp
  principalReference := by simp

def sampleCreated : CreatedSession where
  token := "t"
  csrfToken := "c"
  session :=
    { id := "s"
      principalId := "p"
      createdAt := 0
      lastSeenAt := 0
      expiresAt := 60000
      idleExpiresAt := 10000
      ip := none
      userAgent := some "Firefox" }

/-- A session that is used at nine seconds still resolves at eighteen. -/
theorem session_resolves_iff_sample
    : let start := (sampleTables.createSession sampleConfig id sampleSignIn).1
      let later := start.run sampleConfig id [.resolveSession "t" 9000]
      (later.resolveSession sampleConfig id "t" 18000).2.isSome = true :=
  ((session_resolves_iff sampleConfig id sampleTables sampleSignIn sampleCreated (by decide)
      [.resolveSession "t" 9000]).1 18000).mpr (by decide)

end SessionTables

end Cixtech.Auth
