import Cixtech.Auth.AuthRoutes

/-! What a request must know before it signs somebody in, and what the answers it was given tell of
that: the accounts, challenges and second factors behind them are kept by every command.
-/

namespace Cixtech.Auth.AuthRoutes

open Cixtech.Admin Cixtech.Foundation AuthStore Handlers

abbrev Trace : Type := List (Entry Command Command.Answer)

-----------------------------------------------------------------------------
-- What has been done

/-- A request has had the command carried out, and was answered so. -/
def Did (trace : Trace) (self : Nat) (command : Command) (answer : command.Answer) : Prop :=
  ({ handler := self, command, answer } : Entry Command Command.Answer) ∈ trace

theorem Did.later {trace later : Trace} {self : Nat} {command : Command}
    {answer : command.Answer} (did : Did trace self command answer) (behind : trace <:+ later)
    : Did later self command answer :=
  behind.subset did

/-- The request that a handler was called with, up to who sent it. -/
def Received (trace : Trace) (self : Nat) (route : Route) : Prop :=
  ∃ request, Did trace self (.receive request) () ∧ request.route = route

theorem Received.later {trace later : Trace} {self : Nat} {route : Route}
    (received : Received trace self route) (behind : trace <:+ later)
    : Received later self route := by
  obtain ⟨request, did, its⟩ := received
  exact ⟨request, did.later behind, its⟩

/-- An active account was found for the address, and the password checked against its hash. -/
structure PasswordRight (config : AuthConfig) (trace : Trace) (handler : Nat)
    (kind : PrincipalKind) (email password : String) (tenantId : Option String)
    (row : PrincipalRow)
    : Prop where
  read : Did trace handler (.byEmail kind email tenantId) (some row)
  active : row.status = .active
  checked : Did trace handler (.verifyPassword password row.passwordHash) true
  right : verifyPassword config.hashing password row.passwordHash = true

/-- A sign-in gives the address and the password of the account, which was active. -/
def PasswordAccepted (config : AuthConfig) (trace : Trace) (self : Nat) (row : PrincipalRow)
    : Prop :=
  ∃ body, Received trace self (.login body)
    ∧ PasswordRight config trace self body.principalKind (body.email.getD "")
      (body.password.getD "") body.tenantScope row

theorem PasswordAccepted.later {config : AuthConfig} {trace later : Trace} {self : Nat}
    {row : PrincipalRow} (accepted : PasswordAccepted config trace self row)
    (behind : trace <:+ later)
    : PasswordAccepted config later self row := by
  obtain ⟨body, received, given⟩ := accepted
  exact ⟨body, received.later behind, given.read.later behind, given.active,
    given.checked.later behind, given.right⟩

/-- The request gives the code. -/
def Gave (trace : Trace) (self : Nat) (code : String) : Prop :=
  ∃ route, Received trace self route ∧ route.code? = some code

theorem Gave.later {trace later : Trace} {self : Nat} {code : String}
    (gave : Gave trace self code) (behind : trace <:+ later)
    : Gave later self code := by
  obtain ⟨route, received, its⟩ := gave
  exact ⟨route, received.later behind, its⟩

/-- The code was checked against the secret at the request's clock, and is of the step. -/
def CodeRight (config : AuthConfig) (trace : Trace) (self : Nat) (secret code : String)
    (lastStep : Option Int) (step : Int)
    : Prop :=
  ∃ now, Did trace self .now now
    ∧ Did trace self (.verifyTotp secret code now lastStep) (some step)
    ∧ verifyTotp config.crypto secret code now lastStep = some step

theorem CodeRight.later {config : AuthConfig} {trace later : Trace} {self : Nat}
    {secret code : String} {lastStep : Option Int} {step : Int}
    (right : CodeRight config trace self secret code lastStep step) (behind : trace <:+ later)
    : CodeRight config later self secret code lastStep step := by
  obtain ⟨now, clock, checked, holds⟩ := right
  exact ⟨now, clock.later behind, checked.later behind, holds⟩

/-- The hash that a recovery code is stored under. -/
def recoveryHash (config : AuthConfig) (code : String) : String :=
  config.crypto.hashToken (config.crypto.toLowerCase (trim code))

/-- The request has had the code accepted: as one that a stored secret gives, or as a recovery
code.
-/
inductive CodeAccepted (config : AuthConfig) (genuine issued : String → Prop) (trace : Trace)
    (self : Nat) (principalId code : String)
    : Prop
  | code {totp : TotpRow} {step : Int}
    (read : Did trace self (.confirmedSecret principalId) (some totp))
    (secret : genuine totp.secret)
    (right : CodeRight config trace self totp.secret code totp.lastStep step)
    (kept : Did trace self (.advanceStep principalId step) ())
  | recovery (known : issued (recoveryHash config code))
    (spent : Did trace self (.spend principalId (recoveryHash config code)) true)
  /-- The code by which an enrolment is confirmed. -/
  | enrolment {secret : String} {step : Int} {codeHashes : List String}
    (read : Did trace self (.pendingSecret principalId) (some secret)) (its : genuine secret)
    (right : CodeRight config trace self secret code none step)
    (kept : Did trace self (.confirm principalId step codeHashes) ())

theorem CodeAccepted.later {config : AuthConfig} {genuine issued : String → Prop}
    {trace later : Trace} {self : Nat} {principalId code : String}
    (accepted : CodeAccepted config genuine issued trace self principalId code)
    (behind : trace <:+ later)
    : CodeAccepted config genuine issued later self principalId code := by
  cases accepted with
  | code read secret right kept =>
      exact .code (read.later behind) secret (right.later behind) (kept.later behind)
  | recovery known spent => exact .recovery known (spent.later behind)
  | enrolment read its right kept =>
      exact .enrolment (read.later behind) its (right.later behind) (kept.later behind)

/-- A challenge was set by a request that got the password of its account right. -/
def Opened (config : AuthConfig) (trace : Trace) (challenge : String) (pending : Challenge)
    : Prop :=
  ∃ opener row opened, PasswordAccepted config trace opener row
    ∧ row.id = pending.principalId ∧ pending.expires = opened + CHALLENGE_MS
    ∧ Did trace opener .now opened ∧ Did trace opener (.setChallenge challenge pending) ()

theorem Opened.later {config : AuthConfig} {trace later : Trace} {challenge : String}
    {pending : Challenge} (opened : Opened config trace challenge pending)
    (behind : trace <:+ later)
    : Opened config later challenge pending := by
  obtain ⟨opener, row, at_, accepted, its, expires, clock, set⟩ := opened
  exact ⟨opener, row, at_, accepted.later behind, its, expires, clock.later behind,
    set.later behind⟩

/-- The request names a challenge of the account that had not expired by its clock, set by then by a
request with the right password, and the code that it gives has been accepted.
-/
inductive FactorPassed (config : AuthConfig) (trace : Trace) (self : Nat) (principalId : String)
    : Prop
  | mfa {body : MfaBody} {code challenge : String} {now : Int} {pending : Challenge}
    {earlier : Trace} (received : Received trace self (.mfa body)) (gives : body.code = some code)
    (names : body.challenge = some challenge)
    (accepted : CodeAccepted config (fun _ => True) (fun _ => True) trace self principalId code)
    (clock : Did trace self .now now)
    (found
      : { handler := self, command := .findChallenge now (some challenge),
          answer := some pending } :: earlier <:+ trace)
    (his : pending.principalId = principalId) (live : now ≤ pending.expires)
    (opened : Opened config earlier challenge pending)

theorem FactorPassed.later {config : AuthConfig} {trace later : Trace} {self : Nat}
    {principalId : String} (passed : FactorPassed config trace self principalId)
    (behind : trace <:+ later)
    : FactorPassed config later self principalId := by
  obtain ⟨received, gives, names, accepted, clock, found, his, live, opened⟩ := passed
  exact .mfa (received.later behind) gives names (accepted.later behind) (clock.later behind)
    (found.trans behind) his live opened

/-- Somebody got the password of the account right, and had a code of it accepted if its role as it
was read asks for one.
-/
def Rooted (config : AuthConfig) (trace : Trace) (principalId : String) : Prop :=
  (∃ self row, PasswordAccepted config trace self row ∧ row.id = principalId
      ∧ requiresTotp row.role = false)
    ∨ ∃ self, FactorPassed config trace self principalId

theorem Rooted.later {config : AuthConfig} {trace later : Trace} {principalId : String}
    (rooted : Rooted config trace principalId) (behind : trace <:+ later)
    : Rooted config later principalId := by
  rcases rooted with ⟨self, row, accepted, its, role⟩ | ⟨self, passed⟩
  · exact .inl ⟨self, row, accepted.later behind, its, role⟩
  · exact .inr ⟨self, passed.later behind⟩

-----------------------------------------------------------------------------
-- Accounts whose second factor is confirmed from the start

/-- The account has a confirmed secret, and a role that asks for a second factor. -/
structure Enrolled (start : AuthData) (principalId secret : String) : Prop where
  role
    : ∃ row, start.tables.principal? principalId = some row ∧ requiresTotp row.role = true
  confirmed
    : ∃ totp, (start.factors principalId).confirmedSecret = some totp ∧ totp.secret = secret

/-- A recovery code that the account has from the start. -/
def Issued (start : AuthData) (principalId codeHash : String) : Prop :=
  ∃ row ∈ (start.factors principalId).recovery, row.codeHash = codeHash

/-- Some request has had the code that it gives accepted, and that code goes back to the start. -/
def OriginalAccepted (config : AuthConfig) (start : AuthData) (trace : Trace)
    (principalId secret : String)
    : Prop :=
  ∃ self code, Gave trace self code
    ∧ CodeAccepted config (· = secret) (Issued start principalId) trace self principalId code

theorem OriginalAccepted.later {config : AuthConfig} {start : AuthData} {trace later : Trace}
    {principalId secret : String}
    (accepted : OriginalAccepted config start trace principalId secret)
    (behind : trace <:+ later)
    : OriginalAccepted config start later principalId secret := by
  obtain ⟨self, code, gave, its⟩ := accepted
  exact ⟨self, code, gave.later behind, its.later behind⟩

/-- The second factor of an enrolled account stands as at the start, or one of its codes has been
accepted since.
-/
def Guarded (config : AuthConfig) (start : AuthData) (trace : Trace) (principalId : String)
    (stands : String → Prop)
    : Prop :=
  ∀ secret, Enrolled start principalId secret
    → OriginalAccepted config start trace principalId secret ∨ stands secret

/-- A code that goes back to the start has been accepted of the account, if it is enrolled. -/
abbrev Unlocked (config : AuthConfig) (start : AuthData) (trace : Trace) (principalId : String)
    : Prop :=
  Guarded config start trace principalId fun _ => False

theorem Guarded.later {config : AuthConfig} {start : AuthData} {trace later : Trace}
    {principalId : String} {stands : String → Prop}
    (guarded : Guarded config start trace principalId stands) (behind : trace <:+ later)
    : Guarded config start later principalId stands := by
  intro secret enrolled
  exact (guarded secret enrolled).imp_left (·.later behind)

-----------------------------------------------------------------------------
-- What requests rest on

section Contract

variable (config : AuthConfig) (start : AuthData)

/-- What must be known before a command that opens something. -/
def may (trace : Trace) (self : Nat) : Command → Prop
  | .insertSession row =>
      Rooted config trace row.principalId ∧ Unlocked config start trace row.principalId
  | .setChallenge _ pending =>
      ∃ row opened, PasswordAccepted config trace self row ∧ row.id = pending.principalId
        ∧ pending.expires = opened + CHALLENGE_MS ∧ Did trace self .now opened
  | .upsertPending principalId _ => Unlocked config start trace principalId
  | .confirm principalId step _ =>
      ∃ secret code, Gave trace self code
        ∧ Did trace self (.pendingSecret principalId) (some secret)
        ∧ CodeRight config trace self secret code none step
        ∧ Guarded config start trace principalId (secret = ·)
  | _ => True

/-- What an answer tells beside having been given. -/
def tells (trace : Trace) (self : Nat) : (command : Command) → command.Answer → Prop
  | .byEmail .., found =>
      ∀ row, found = some row
        → Guarded config start trace row.id fun _ =>
          row.totpConfirmed = true ∧ requiresTotp row.role = true
  | .verifyPassword password stored, good => good = verifyPassword config.hashing password stored
  | .verifyTotp secret code now lastStep, step =>
      step = verifyTotp config.crypto secret code now lastStep
  | .confirmedSecret principalId, found =>
      ∀ totp, found = some totp
        → Guarded config start trace principalId (totp.secret = ·)
  | .pendingSecret principalId, found =>
      ∀ secret, found = some secret → Guarded config start trace principalId (secret = ·)
  | .spend principalId codeHash, spent =>
      spent = true
        → Guarded config start trace principalId fun _ => Issued start principalId codeHash
  | .resolveByTokenHash .., found =>
      ∀ row principal, found = some (row, principal)
        → principal.id = row.principalId ∧ Rooted config trace row.principalId
          ∧ Unlocked config start trace row.principalId
  | .findChallenge now challenge, found =>
      ∀ pending, found = some pending
        → ∃ id earlier, challenge = some id
          ∧ { handler := self, command := .findChallenge now (some id), answer := some pending }
              :: earlier <:+ trace
          ∧ now ≤ pending.expires ∧ Opened config earlier id pending
  | .byId id, found => ∀ row, found = some row → row.id = id
  | _, _ => True

/-- What holds of the data by what has been done. -/
structure Kept (world : World Command Command.Answer AuthData) : Prop where
  sessions
    : ∀ row ∈ world.data.tables.sessions, Rooted config world.trace row.principalId
      ∧ Unlocked config start world.trace row.principalId
  challenges
    : ∀ challenge pending, world.data.challenges challenge = some pending
      → Opened config world.trace challenge pending
  read
    : ∀ self kind email tenantId row, Did world.trace self (.byEmail kind email tenantId) (some row)
      → ∃ now, world.data.tables.principal? row.id = some now ∧ now.role = row.role
  accounts : Keeps start.tables world.data.tables
  factors
    : ∀ principalId, Guarded config start world.trace principalId fun secret =>
      (∃ totp, (world.data.factors principalId).totp = some totp ∧ totp.secret = secret
        ∧ totp.confirmed = true)
      ∧ ∀ row ∈ (world.data.factors principalId).recovery, Issued start principalId row.codeHash

end Contract

-----------------------------------------------------------------------------
-- What commands do to the data

section Effects

variable {config : AuthConfig} {command : Command} {input : Input} {data after : AuthData}
  {answer : command.Answer}
  (ran : perform config command input data = .ok (answer, after))

include ran

theorem perform_sessions {row : SessionRow} (member : row ∈ after.tables.sessions)
    : (∃ old ∈ data.tables.sessions, row.principalId = old.principalId)
      ∨ ∃ new, command = .insertSession new ∧ row.principalId = new.principalId := by
  have updated {change : SessionRow → SessionRow} (same : ∀ row, (change row).Same row)
      (becomes : after.tables = data.tables.updateSessions change same)
      : ∃ old ∈ data.tables.sessions, row.principalId = old.principalId := by
    rw [becomes, SessionTables.updateSessions] at member
    obtain ⟨old, there, rfl⟩ := List.mem_map.mp member
    exact ⟨old, there, (same old).principalId⟩
  cases command with
  | insertSession new =>
      simp only [perform] at ran
      split at ran
      · cases ran
      · next tables inserted =>
        cases ran
        simp only [SessionTables.insert] at inserted
        split at inserted
        · cases inserted
          rcases List.mem_append.mp member with old | added
          · exact .inl ⟨row, old, rfl⟩
          · rw [List.mem_singleton.mp added]
            exact .inr ⟨new, rfl, rfl⟩
        · cases inserted
  | slide id lastSeenAt idleExpiresAt =>
      cases ran
      exact .inl (updated (SessionTables.slideRow_same id lastSeenAt idleExpiresAt) rfl)
  | revoke id reason now =>
      cases ran
      exact .inl (updated (SessionTables.revokeRow_same _ reason now) rfl)
  | revokeAllFor principalId reason now =>
      cases ran
      exact .inl (updated (SessionTables.revokeRow_same _ reason now) rfl)
  | insertPrincipal new =>
      simp only [perform] at ran
      split at ran
      · cases ran
      · next tables inserted =>
        cases ran
        simp only [SessionTables.insertPrincipal] at inserted
        split at inserted
        · cases inserted
          exact .inl ⟨row, member, rfl⟩
        · cases inserted
  | confirm principalId step codeHashes =>
      simp only [perform] at ran
      split at ran
      · cases ran
      · cases ran
        exact .inl ⟨row, member, rfl⟩
  | _ =>
      cases ran
      exact .inl ⟨row, member, rfl⟩

theorem perform_challenges {challenge : String} {pending : Challenge}
    (found : after.challenges challenge = some pending)
    : data.challenges challenge = some pending ∨ command = .setChallenge challenge pending := by
  cases command with
  | setChallenge id new =>
      cases ran
      by_cases same : challenge = id
      · subst same
        simp only [Function.update_self, Option.some.injEq] at found
        exact .inr (by rw [found])
      · simp only [Function.update_of_ne same] at found
        exact .inl found
  | deleteChallenge id =>
      cases ran
      by_cases same : challenge = id
      · subst same
        simp at found
      · simp only [Function.update_of_ne same] at found
        exact .inl found
  | sweepChallenges now =>
      cases ran
      exact .inl (Option.filter_eq_some_iff.mp found).1
  | findChallenge now id =>
      cases ran
      exact .inl (Option.filter_eq_some_iff.mp found).1
  | insertPrincipal new =>
      simp only [perform] at ran
      split at ran <;> cases ran
      exact .inl found
  | insertSession new =>
      simp only [perform] at ran
      split at ran <;> cases ran
      exact .inl found
  | confirm principalId step codeHashes =>
      simp only [perform] at ran
      split at ran <;> cases ran
      exact .inl found
  | _ =>
      cases ran
      exact .inl found

theorem perform_accounts : Keeps data.tables after.tables := by
  cases command with
  | insertPrincipal row =>
      simp only [perform] at ran
      split at ran
      · cases ran
      · next tables inserted =>
        cases ran
        exact .insert (insertPrincipal_principals inserted)
  | insertSession new =>
      simp only [perform] at ran
      split at ran
      · cases ran
      · next tables inserted =>
        cases ran
        simp only [SessionTables.insert] at inserted
        split at inserted <;> cases inserted
        exact .of_principals rfl
  | setStatus id status =>
      cases ran
      exact .update rfl fun _ => ⟨rfl, rfl, rfl, rfl, rfl⟩
  | setPassword id hash mustChange =>
      cases ran
      exact .update rfl fun _ => ⟨rfl, rfl, rfl, rfl, rfl⟩
  | rehashPassword id hash =>
      cases ran
      exact .update rfl fun _ => ⟨rfl, rfl, rfl, rfl, rfl⟩
  | recordFailure id failedLogins lockedUntil =>
      cases ran
      exact .update rfl fun _ => ⟨rfl, rfl, rfl, rfl, rfl⟩
  | clearFailures id =>
      cases ran
      exact .update rfl fun _ => ⟨rfl, rfl, rfl, rfl, rfl⟩
  | confirm principalId step codeHashes =>
      simp only [perform] at ran
      split at ran <;> cases ran
      exact .of_principals rfl
  | _ =>
      cases ran
      exact .of_principals rfl

/-- Nothing but an enrolment changes a secret, takes back its confirmation or issues codes. -/
theorem perform_factors {principalId secret : String}
    (begins : ∀ new, command ≠ .upsertPending principalId new)
    (confirms : ∀ step codeHashes, command ≠ .confirm principalId step codeHashes)
    {known : String → Prop}
    (stands
      : (∃ totp, (data.factors principalId).totp = some totp ∧ totp.secret = secret
          ∧ totp.confirmed = true)
        ∧ ∀ row ∈ (data.factors principalId).recovery, known row.codeHash)
    : (∃ totp, (after.factors principalId).totp = some totp ∧ totp.secret = secret
        ∧ totp.confirmed = true)
      ∧ ∀ row ∈ (after.factors principalId).recovery, known row.codeHash := by
  have apart {other : String} {rows : FactorRows} (others : principalId ≠ other)
      (becomes : after.factors = Function.update data.factors other rows)
      : after.factors principalId = data.factors principalId := by
    rw [becomes, Function.update_of_ne others]
  cases command with
  | upsertPending other new =>
      cases ran
      have others : principalId ≠ other := fun same => begins new (same ▸ rfl)
      rwa [apart others rfl]
  | confirm other step codeHashes =>
      simp only [perform] at ran
      split at ran <;> cases ran
      have others : principalId ≠ other := fun same => confirms step codeHashes (same ▸ rfl)
      rwa [apart others rfl]
  | advanceStep other step =>
      cases ran
      by_cases same : principalId = other
      · subst same
        obtain ⟨⟨totp, there, its, confirmed⟩, codes⟩ := stands
        refine ⟨⟨{ totp with lastStep := some step }, ?_, its, confirmed⟩, ?_⟩
        · simp [AuthData.updateFactors, FactorRows.advanceStep, there]
        · simpa [AuthData.updateFactors, FactorRows.advanceStep] using codes
      · rwa [apart same rfl]
  | spend other codeHash =>
      obtain rfl : data.updateFactors other ((data.factors other).spend codeHash).1 = after :=
        (Prod.mk.inj (Except.ok.inj ran)).2
      by_cases same : principalId = other
      · subst same
        simp only [AuthData.updateFactors, Function.update_self, FactorRows.spend]
        split
        · refine ⟨stands.1, fun row member => ?_⟩
          obtain ⟨old, there, rfl⟩ := List.mem_map.mp member
          have before := stands.2 old there
          split <;> exact before
        · exact stands
      · rwa [apart same rfl]
  | insertPrincipal row =>
      simp only [perform] at ran
      split at ran <;> cases ran
      exact stands
  | insertSession row =>
      simp only [perform] at ran
      split at ran <;> cases ran
      exact stands
  | _ =>
      cases ran
      exact stands

end Effects

-----------------------------------------------------------------------------
-- What answers tell

theorem principal?_of_mem {tables : SessionTables} {row : PrincipalRow}
    (member : row ∈ tables.principals)
    : tables.principal? row.id = some row :=
  Table.lookup_of_mem tables.principalKey member

theorem byEmail_found {lower : String → String} {data : AuthData} {kind : PrincipalKind}
    {email : String} {tenantId : Option String} {first : Nat} {row : PrincipalRow}
    (found : data.byEmail lower kind email tenantId first = some row)
    : ∃ stored, data.tables.principal? row.id = some stored ∧ row = data.joined stored := by
  obtain ⟨stored, there, rfl⟩ := Option.map_eq_some_iff.mp found
  have member := List.mem_of_getElem? there
  exact ⟨stored, principal?_of_mem (List.mem_filter.mp member).1, rfl⟩

theorem resolveByTokenHash_found {tables : SessionTables} {tokenHash : String} {now : Int}
    {row : SessionRow} {principal : PrincipalRow}
    (found : (tables.resolveByTokenHash tokenHash now).head? = some (row, principal))
    : row ∈ tables.sessions ∧ principal.id = row.principalId := by
  have member := (List.mem_filter.mp (List.mem_of_mem_head? found)).1
  obtain ⟨stored, there, paired⟩ := List.mem_filterMap.mp member
  obtain ⟨owner, his, same⟩ := Option.map_eq_some_iff.mp paired
  cases same
  exact ⟨there, SessionTables.principal?_id his⟩

section Keeps

variable {config : AuthConfig} {start : AuthData}
  {world : World Command Command.Answer AuthData} (kept : Kept config start world)

include kept

/-- An account that is enrolled from the start is read as confirmed, until one of its codes has been
accepted.
-/
theorem Kept.reads_confirmed {id : String} {stored : PrincipalRow}
    (found : world.data.tables.principal? id = some stored)
    : Guarded config start world.trace id fun _ =>
      (world.data.joined stored).totpConfirmed = true ∧ requiresTotp stored.role = true := by
  intro secret enrolled
  obtain ⟨row, was, required⟩ := enrolled.role
  obtain ⟨now, there, same⟩ := kept.accounts _ row was
  obtain rfl : now = stored := Option.some.inj (there.symm.trans found)
  refine (kept.factors id secret enrolled).imp_right fun stands => ⟨?_, same.role ▸ required⟩
  obtain ⟨totp, has, -, confirmed⟩ := stands.1
  simp [AuthData.joined, FactorRows.confirmedSecret, SessionTables.principal?_id found, has,
    confirmed]

variable {self : Nat} {command : Command} {input : Input} {answer : command.Answer}
  {data : AuthData} (ran : perform config command input world.data = .ok (answer, data))

include ran

theorem Kept.tells
    : tells config start ({ handler := self, command, answer } :: world.trace) self command
        answer := by
  have behind : world.trace <:+ { handler := self, command, answer } :: world.trace :=
    List.suffix_cons _ _
  cases command with
  | byEmail kind email tenantId =>
      cases ran
      intro row found
      obtain ⟨stored, there, rfl⟩ := byEmail_found found
      exact (kept.reads_confirmed there).later behind
  | byId id =>
      cases ran
      intro row found
      obtain ⟨stored, there, rfl⟩ := Option.map_eq_some_iff.mp found
      show stored.id = id
      exact SessionTables.principal?_id there
  | verifyPassword password stored =>
      cases ran
      rfl
  | verifyTotp secret code now lastStep =>
      cases ran
      rfl
  | confirmedSecret principalId =>
      cases ran
      intro totp found secret enrolled
      refine ((kept.factors principalId).later behind secret enrolled).imp_right fun stands => ?_
      obtain ⟨other, has, its, -⟩ := stands.1
      have read := (Option.filter_eq_some_iff.mp found).1
      rw [has] at read
      cases read
      exact its
  | pendingSecret principalId =>
      cases ran
      intro read found secret enrolled
      refine ((kept.factors principalId).later behind secret enrolled).imp_right fun stands => ?_
      obtain ⟨other, has, its, -⟩ := stands.1
      simp only [FactorRows.pendingSecret, has, Option.map_some] at found
      exact (Option.some.inj found).symm.trans its
  | spend principalId codeHash =>
      have spends : ((world.data.factors principalId).spend codeHash).2 = answer :=
        (Prod.mk.inj (Except.ok.inj ran)).1
      intro spent secret enrolled
      refine ((kept.factors principalId).later behind secret enrolled).imp_right fun stands => ?_
      subst spent
      simp only [FactorRows.spend] at spends
      split at spends
      · next there =>
        obtain ⟨row, member, hit⟩ := List.any_eq_true.mp there
        simp only [Bool.and_eq_true, decide_eq_true_eq] at hit
        exact hit.1 ▸ stands.2 row member
      · cases spends
  | resolveByTokenHash tokenHash now =>
      cases ran
      intro row principal found
      obtain ⟨⟨first, owner⟩, there, same⟩ := Option.map_eq_some_iff.mp found
      cases same
      obtain ⟨member, his⟩ := resolveByTokenHash_found there
      obtain ⟨rooted, unlocked⟩ := kept.sessions _ member
      exact ⟨his, rooted.later behind, unlocked.later behind⟩
  | findChallenge now challenge =>
      cases ran
      intro pending found
      obtain ⟨id, named, live⟩ := Option.bind_eq_some_iff.mp found
      obtain ⟨held, unexpired⟩ := Option.filter_eq_some_iff.mp live
      have given : challenge = some id := (Option.filter_eq_some_iff.mp named).1
      subst given
      refine ⟨id, world.trace, rfl, ?_, of_decide_eq_true unexpired,
        kept.challenges id pending held⟩
      exact found ▸ List.suffix_rfl
  | _ => trivial

theorem Kept.step (allowed : may config start world.trace self command)
    : Kept config start
        { data, trace := { handler := self, command, answer } :: world.trace } := by
  have behind : world.trace <:+ { handler := self, command, answer } :: world.trace :=
    List.suffix_cons _ _
  have accounts := perform_accounts ran
  constructor
  · intro row member
    rcases perform_sessions ran member with ⟨old, there, same⟩ | ⟨new, rfl, same⟩
    · obtain ⟨rooted, unlocked⟩ := kept.sessions old there
      rw [same]
      exact ⟨rooted.later behind, unlocked.later behind⟩
    · rw [same]
      exact ⟨allowed.1.later behind, allowed.2.later behind⟩
  · intro challenge pending found
    rcases perform_challenges ran found with old | rfl
    · exact (kept.challenges challenge pending old).later behind
    · obtain ⟨row, opened, accepted, its, expires, clock⟩ := allowed
      exact ⟨self, row, opened, accepted.later behind, its, expires, clock.later behind,
        List.mem_cons_self⟩
  · intro other kind email tenantId row did
    rcases List.mem_cons.mp did with now | before
    · obtain ⟨rfl, rfl, same⟩ := Entry.mk.inj now
      cases same
      have found := (Prod.mk.inj (Except.ok.inj ran))
      obtain ⟨stored, there, rfl⟩ := byEmail_found found.1
      exact ⟨stored, found.2 ▸ there, rfl⟩
    · obtain ⟨now, there, role⟩ := kept.read other kind email tenantId row before
      obtain ⟨later, found, same⟩ := accounts _ now there
      exact ⟨later, found, same.role.trans role⟩
  · intro id row was
    obtain ⟨now, there, same⟩ := kept.accounts id row was
    obtain ⟨later, found, sameToo⟩ := accounts id now there
    exact ⟨later, found, same.trans sameToo⟩
  · intro principalId secret enrolled
    rcases kept.factors principalId secret enrolled with accepted | stands
    · exact .inl (accepted.later behind)
    · by_cases begins : ∃ new, command = .upsertPending principalId new
      · obtain ⟨new, rfl⟩ := begins
        exact .inl ((allowed secret enrolled).elim (·.later behind) False.elim)
      · by_cases confirms : ∃ step codeHashes, command = .confirm principalId step codeHashes
        · obtain ⟨step, codeHashes, rfl⟩ := confirms
          obtain ⟨read, code, gave, did, right, genuine⟩ := allowed
          rcases genuine secret enrolled with accepted | its
          · exact .inl (accepted.later behind)
          · exact .inl
              ⟨self, code, gave.later behind,
                .enrolment (did.later behind) its (right.later behind) List.mem_cons_self⟩
        · exact .inr
            (perform_factors ran (fun new same => begins ⟨new, same⟩)
              (fun step codeHashes same => confirms ⟨step, codeHashes, same⟩) stands)

end Keeps

end Cixtech.Auth.AuthRoutes
