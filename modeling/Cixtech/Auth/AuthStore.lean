import Cixtech.Auth.AuthRequests
import Cixtech.Foundation.Handlers

/-! The store of accounts, second factors and sessions, one statement at a time. What runs between
two statements of a method of the store is another request's.
-/

namespace Cixtech.Auth

open Cixtech.Common Cixtech.Foundation Handlers

/-- What a request throws. The code of an error that is none of ours is empty. -/
structure Thrown where
  code : String
  message : String
  deriving DecidableEq

/-- A row of `auth_attempt`. -/
structure AttemptRow where
  email : Option String
  principalId : Option String
  kind : String
  outcome : String
  ip : Option String
  userAgent : Option String
  detail : Option String
  deriving DecidableEq

/-- A sign-in that waits for its second factor. -/
structure Challenge where
  principalId : String
  expires : Int
  deriving DecidableEq

/-- The tables of the store, beside the challenges that the process holds. -/
structure AuthData where
  tables : SessionTables
  factors : String → FactorRows
  attempts : List AttemptRow
  challenges : String → Option Challenge

/-- What is drawn at random. -/
structure Drawn where
  id : String
  token : String
  csrfToken : String
  secret : String
  codes : List String
  challenge : String
  hash : String
  deriving DecidableEq

/-- What a command takes from outside. -/
structure Input where
  /-- `Date.now()` -/
  now : Int
  /-- `now()` of the database. -/
  databaseNow : Int
  /-- Which of several rows comes first. -/
  first : Nat
  drawn : Drawn
  deriving DecidableEq

/-- The libraries and settings that the store is built with. -/
structure AuthConfig where
  crypto : Crypto
  hashing : Hashing
  /-- `lower` of the database. -/
  lower : String → String
  login : LoginConfig
  session : SessionConfig

-----------------------------------------------------------------------------
-- Statements

inductive Command
  /-- `principalQ` -/
  | byEmail (kind : PrincipalKind) (email : String) (tenantId : Option String)
  | byId (id : String)
  | insertPrincipal (row : PrincipalRow)
  | setStatus (id : String) (status : PrincipalStatus)
  | setPassword (id hash : String) (mustChange : Bool)
  | rehashPassword (id hash : String)
  | recordFailure (id : String) (failedLogins : Nat) (lockedUntil : Option Int)
  | clearFailures (id : String)
  | touchLastLogin (id : String)
  /-- `principalTotp` -/
  | confirmedSecret (principalId : String)
  | pendingSecret (principalId : String)
  | upsertPending (principalId secret : String)
  | advanceStep (principalId : String) (step : Int)
  /-- The transaction of `confirmTotp`. -/
  | confirm (principalId : String) (step : Int) (codeHashes : List String)
  /-- `recoveryCode.spend` -/
  | spend (principalId codeHash : String)
  /-- `authSession` -/
  | insertSession (row : SessionRow)
  | resolveByTokenHash (tokenHash : String) (now : Int)
  | slide (id : String) (lastSeenAt idleExpiresAt : Int)
  | revoke (id reason : String) (now : Int)
  | revokeAllFor (principalId reason : String) (now : Int)
  | liveFor (principalId : String) (now : Int)
  /-- `authAttempt.insert` -/
  | insertAttempt (row : AttemptRow)
  /-- The password functions, which run on threads of their own. -/
  | verifyPassword (password stored : String)
  | hashPassword (password : String)
  /-- What awaits nothing: first of all, to be called with a request. -/
  | receive (request : AuthRoutes.AuthRequest)
  | verifyTotp (secret code : String) (now : Int) (lastStep : Option Int)
  | now
  | draw
  | sweepChallenges (now : Int)
  /-- The challenges are swept before one is looked up. -/
  | findChallenge (now : Int) (challenge : Option String)
  | setChallenge (challenge : String) (pending : Challenge)
  | deleteChallenge (challenge : String)

namespace Command

def Answer : Command → Type
  | .byEmail .. | .byId _ => Option PrincipalRow
  | .confirmedSecret _ => Option TotpRow
  | .pendingSecret _ => Option String
  | .spend .. | .verifyPassword .. => Bool
  | .resolveByTokenHash .. => Option (SessionRow × PrincipalRow)
  | .revoke .. | .revokeAllFor .. => List String
  | .liveFor .. => List SessionRow
  | .hashPassword _ => String
  | .verifyTotp .. => Option Int
  | .now => Int
  | .draw => Drawn
  | .findChallenge .. => Option Challenge
  | _ => Unit

/-- Whether a handler pauses for the command. -/
def awaits : Command → Bool
  | .receive _ | .verifyTotp .. | .now | .draw | .sweepChallenges _ | .findChallenge ..
  | .setChallenge .. | .deleteChallenge _ => false
  | _ => true

end Command

namespace AuthData

/-- `withTotp`: a principal is read with whether its second factor is confirmed. -/
def joined (data : AuthData) (row : PrincipalRow) : PrincipalRow :=
  { row with totpConfirmed := (data.factors row.id).confirmedSecret.isSome }

/-- `principalQ.byEmail`. The order of the rows is the database's. -/
def byEmail (lower : String → String) (data : AuthData) (kind : PrincipalKind) (email : String)
    (tenantId : Option String) (first : Nat)
    : Option PrincipalRow :=
  let found :=
    data.tables.principals.filter fun row =>
      row.kind = kind && lower row.email = lower email
        && tenantId.all fun tenantId => row.tenantId = some tenantId
  found[first % found.length]?.map data.joined

def updateFactors (data : AuthData) (principalId : String) (rows : FactorRows) : AuthData :=
  { data with factors := Function.update data.factors principalId rows }

def withTables (data : AuthData) (tables : SessionTables) : AuthData := { data with tables }

/-- `sweepChallenges` -/
def swept (data : AuthData) (now : Int) : AuthData :=
  { data with challenges := fun id => (data.challenges id).filter (now ≤ ·.expires) }

end AuthData

/-- `principalTotp.upsertPending` -/
def FactorRows.upsertPending (rows : FactorRows) (secret : String) : FactorRows :=
  { rows with totp := some { secret, confirmed := false, lastStep := none } }

def duplicateKey : Thrown where
  code := ""
  message := "duplicate key value violates unique constraint"

/-- What a command does, and what it is answered. -/
def perform (config : AuthConfig)
    : (command : Command) → Input → AuthData → Except Thrown (command.Answer × AuthData)
  | .byEmail kind email tenantId, input, data =>
      .ok (data.byEmail config.lower kind email tenantId input.first, data)
  | .byId id, _, data => .ok ((data.tables.principal? id).map data.joined, data)
  | .insertPrincipal row, _, data =>
      match data.tables.insertPrincipal config.lower row with
      | none => .error duplicateKey
      | some tables => .ok ((), data.withTables tables)
  | .setStatus id status, _, data => .ok ((), data.withTables (data.tables.updateStatus id status))
  | .setPassword id hash mustChange, _, data =>
      .ok
        ((), data.withTables
          (data.tables.updatePrincipal id (fun row => row.setPassword hash mustChange)
            fun _ => rfl))
  | .rehashPassword id hash, _, data =>
      .ok
        ((), data.withTables
          (data.tables.updatePrincipal id (fun row => row.rehashPassword hash) fun _ => rfl))
  | .recordFailure id failedLogins lockedUntil, _, data =>
      .ok
        ((), data.withTables
          (data.tables.updatePrincipal id (fun row => row.recordFailure failedLogins lockedUntil)
            fun _ => rfl))
  | .clearFailures id, _, data =>
      .ok
        ((), data.withTables
          (data.tables.updatePrincipal id PrincipalRow.clearFailures fun _ => rfl))
  | .touchLastLogin _, _, data => .ok ((), data)
  | .confirmedSecret principalId, _, data => .ok ((data.factors principalId).confirmedSecret, data)
  | .pendingSecret principalId, _, data => .ok ((data.factors principalId).pendingSecret, data)
  | .upsertPending principalId secret, _, data =>
      .ok
        ((), data.updateFactors principalId ((data.factors principalId).upsertPending secret))
  | .advanceStep principalId step, _, data =>
      .ok ((), data.updateFactors principalId ((data.factors principalId).advanceStep step))
  | .confirm principalId step codeHashes, _, data =>
      match (data.factors principalId).confirm step codeHashes with
      | none => .error duplicateKey
      | some rows => .ok ((), data.updateFactors principalId rows)
  | .spend principalId codeHash, _, data =>
      let (rows, spent) := (data.factors principalId).spend codeHash
      .ok (spent, data.updateFactors principalId rows)
  | .insertSession row, input, data =>
      match
        data.tables.insert
          { row with createdAt := input.databaseNow, lastSeenAt := input.databaseNow }
      with
      | none => .error duplicateKey
      | some tables => .ok ((), data.withTables tables)
  | .resolveByTokenHash tokenHash now, _, data =>
      .ok
        ((data.tables.resolveByTokenHash tokenHash now).head?.map fun (row, principal) =>
            (row, data.joined principal),
          data)
  | .slide id lastSeenAt idleExpiresAt, _, data =>
      .ok ((), data.withTables (data.tables.slide id lastSeenAt idleExpiresAt))
  | .revoke id reason now, _, data =>
      let (tables, revoked) := data.tables.revoke id reason now
      .ok (revoked, data.withTables tables)
  | .revokeAllFor principalId reason now, _, data =>
      let (tables, revoked) := data.tables.revokeAllFor principalId reason now
      .ok (revoked, data.withTables tables)
  | .liveFor principalId now, _, data =>
      let live :=
        data.tables.sessions.filter fun row =>
          row.principalId = principalId && row.revokedAt.isNone && now < row.expiresAt
            && now < row.idleExpiresAt
      .ok (live.mergeSort fun a b => b.lastSeenAt ≤ a.lastSeenAt, data)
  | .insertAttempt row, _, data => .ok ((), { data with attempts := data.attempts ++ [row] })
  | .verifyPassword password stored, _, data =>
      .ok (Auth.verifyPassword config.hashing password stored, data)
  | .hashPassword _, input, data => .ok (input.drawn.hash, data)
  | .receive _, _, data => .ok ((), data)
  | .verifyTotp secret code now lastStep, _, data =>
      .ok (Auth.verifyTotp config.crypto secret code now lastStep, data)
  | .now, input, data => .ok (input.now, data)
  | .draw, input, data => .ok (input.drawn, data)
  | .sweepChallenges now, _, data => .ok ((), data.swept now)
  | .findChallenge now challenge, _, data =>
      .ok
        ((challenge.filter (· ≠ "")).bind (data.swept now).challenges, data.swept now)
  | .setChallenge challenge pending, _, data =>
      .ok ((), { data with challenges := Function.update data.challenges challenge (some pending) })
  | .deleteChallenge challenge, _, data =>
      .ok ((), { data with challenges := Function.update data.challenges challenge none })

def authMachine (config : AuthConfig) : Machine Command Command.Answer Thrown Input AuthData where
  perform := perform config
  awaits := Command.awaits

-----------------------------------------------------------------------------
-- `AuthStore`

/-- What a request does, up to what it returns. -/
abbrev AuthHandler (α : Type) : Type := Handler Command Command.Answer Thrown α

def send (command : Command) : AuthHandler command.Answer := Handler.ask command

namespace AuthStore

open Handler

/-- `new AuthError(message)` -/
def authFailed (message : String) : Thrown where
  code := "AUTH_FAILED"
  message

def accountLockedError : Thrown where
  code := "ACCOUNT_LOCKED"
  message := "Too many failed attempts. Try again later or use a recovery code."

variable (config : AuthConfig)

def loadByEmail (kind : PrincipalKind) (email : String) (tenantId : Option String)
    : AuthHandler (Option PrincipalRow) :=
  send (.byEmail kind email tenantId)

def loadById (id : String) : AuthHandler (Option Principal) := do
  let row : Option PrincipalRow ← send (.byId id)
  pure (row.map PrincipalRow.toPrincipal)

/-- The password that nobody has, so that an unknown address takes as long as a known one. -/
def decoy : String :=
  "scrypt$65536$8$1$" ++ String.ofList (List.replicate 22 'A') ++ "$"
    ++ String.ofList (List.replicate 43 'A')

def hashAnew (row : PrincipalRow) (password : String) : AuthHandler Unit := do
  let hash : String ← send (.hashPassword password)
  send (.rehashPassword row.id hash)

/-- The stored hash is made anew where it is weaker than new ones. -/
def rehash (row : PrincipalRow) (password : String) : AuthHandler Unit :=
  if needsRehash config.hashing row.passwordHash then hashAnew row password else pure ()

def badCredentials : Thrown := authFailed "Email or password is incorrect"

/-- A right password takes the failures back. -/
def recordRight (row : PrincipalRow) (password : String) : AuthHandler (Outcome × Principal) := do
  send (.clearFailures row.id)
  rehash config row password
  pure (outcomeOf row.toPrincipal, row.toPrincipal)

/-- A wrong one is counted from what was read of the row. -/
def recordWrong (row : PrincipalRow) (now : Int) : AuthHandler (Outcome × Principal) := do
  send
    (.recordFailure row.id (SignIns.failures row) (SignIns.lockUntil config.login row now))
  throws badCredentials

/-- What the check of a password comes to. -/
def recordChecked (row : PrincipalRow) (password : String) (now : Int) (good : Bool)
    : AuthHandler (Outcome × Principal) :=
  if good then recordRight config row password else recordWrong config row now

def checkPassword (row : PrincipalRow) (password : String) (now : Int)
    : AuthHandler (Outcome × Principal) := do
  let good : Bool ← send (.verifyPassword password row.passwordHash)
  recordChecked config row password now good

def checkDecoy (password : String) : AuthHandler (Outcome × Principal) := do
  let _ : Bool ← send (.verifyPassword password decoy)
  throws badCredentials

/-- What was found under the address is checked. -/
def checkFound (password : String) (now : Int)
    : Option PrincipalRow → AuthHandler (Outcome × Principal)
  | none => checkDecoy password
  | some row =>
      if row.lockedAt now then throws accountLockedError
      else if row.status ≠ .active then throws (authFailed "This account is disabled")
      else checkPassword config row password now

/-- `verifyCredentials`, from the clock that it has read. -/
def verifyCredentialsAt (kind : PrincipalKind) (email password : String)
    (tenantId : Option String) (now : Int)
    : AuthHandler (Outcome × Principal) := do
  let found ← loadByEmail kind email tenantId
  checkFound config password now found

def verifyCredentials (kind : PrincipalKind) (email password : String) (tenantId : Option String)
    : AuthHandler (Outcome × Principal) := do
  let now : Int ← send .now
  verifyCredentialsAt config kind email password tenantId now

def consumeRecoveryCode (principalId code : String) : AuthHandler Bool :=
  send
    (.spend principalId (config.crypto.hashToken (config.crypto.toLowerCase (trim code))))

def acceptStep (principalId : String) (step : Int) : AuthHandler Bool := do
  send (.advanceStep principalId step)
  pure true

/-- A code is of a step, or else may be a recovery code. -/
def acceptOrSpend (principalId code : String) : Option Int → AuthHandler Bool
  | none => consumeRecoveryCode config principalId code
  | some step => acceptStep principalId step

/-- `verifySecondFactor`, from the clock that it has read. -/
def verifySecondFactorAt (principalId code : String) (now : Int) : AuthHandler Bool := do
  let found : Option TotpRow ← send (.confirmedSecret principalId)
  match found with
  | none => consumeRecoveryCode config principalId code
  | some totp => do
      let accepted : Option Int ← send (.verifyTotp totp.secret code now totp.lastStep)
      acceptOrSpend config principalId code accepted

def verifySecondFactor (principalId code : String) : AuthHandler Bool := do
  let now : Int ← send .now
  verifySecondFactorAt config principalId code now

def beginTotpEnrolment (principalId : String) : AuthHandler String := do
  let drawn : Drawn ← send .draw
  send (.upsertPending principalId drawn.secret)
  pure drawn.secret

def storeCodes (principalId : String) (step : Int) (codes : List String)
    : AuthHandler (List String) := do
  send (.confirm principalId step (codes.map config.crypto.hashToken))
  pure codes

/-- A right code confirms the enrolment. -/
def enrolBy (principalId : String) : Option Int → AuthHandler (List String)
  | none => throws (authFailed "That code is not correct")
  | some step => do
      let drawn : Drawn ← send .draw
      storeCodes config principalId step drawn.codes

/-- `confirmTotp`, from the clock that it has read. -/
def confirmTotpAt (principalId code : String) (now : Int) : AuthHandler (List String) := do
  let found : Option String ← send (.pendingSecret principalId)
  let secret := found.getD ""
  if secret = "" then throws (authFailed "Start enrolment first")
  else do
    let accepted : Option Int ← send (.verifyTotp secret code now none)
    enrolBy config principalId accepted

def confirmTotp (principalId code : String) : AuthHandler (List String) := do
  let now : Int ← send .now
  confirmTotpAt config principalId code now

def createSession (principalId : String) (client : Client) : AuthHandler CreatedSession := do
  let now : Int ← send .now
  let drawn : Drawn ← send .draw
  let created : NewSession :=
    { principalId
      ip := client.ip
      userAgent := client.userAgent
      now
      id := drawn.id
      token := drawn.token
      csrfToken := drawn.csrfToken
      -- The database has the last word on when the row was made.
      databaseNow := now }
  send (.insertSession (SessionTables.createdRow config.session config.crypto.hashToken created))
  send (.touchLastLogin principalId)
  pure
    { token := drawn.token
      csrfToken := drawn.csrfToken
      session :=
        { id := drawn.id
          principalId
          createdAt := now
          lastSeenAt := now
          expiresAt := now + config.session.absoluteMs
          idleExpiresAt := now + config.session.idleMs
          ip := client.ip
          userAgent := client.userAgent } }

def resolveSession (token : String) : AuthHandler (Option ResolvedSession) := do
  let now : Int ← send .now
  let found : Option (SessionRow × PrincipalRow) ←
    send (.resolveByTokenHash (config.crypto.hashToken token) now)
  match found with
  | none => pure none
  | some (row, principal) => do
      let capped := min (now + config.session.idleMs) row.expiresAt
      send (.slide row.id now capped)
      pure
        (some
          { csrfToken := row.csrfToken
            principal := principal.toPrincipal
            session :=
              { id := row.id
                principalId := row.principalId
                createdAt := row.createdAt
                lastSeenAt := now
                expiresAt := row.expiresAt
                idleExpiresAt := capped
                ip := row.ip
                userAgent := row.userAgent } })

def revokeSession (id reason : String) : AuthHandler Bool := do
  let now : Int ← send .now
  let revoked : List String ← send (.revoke id reason now)
  pure (0 < revoked.length)

def revokeAllSessions (principalId reason : String) : AuthHandler Nat := do
  let now : Int ← send .now
  let revoked : List String ← send (.revokeAllFor principalId reason now)
  pure revoked.length

def listSessions (principalId : String) : AuthHandler (List SessionRow) := do
  let now : Int ← send .now
  send (.liveFor principalId now)

def setPassword (id password : String) (mustChange : Bool) : AuthHandler Unit := do
  let hash : String ← send (.hashPassword password)
  send (.setPassword id hash mustChange)

def setStatus (id : String) (status : PrincipalStatus) : AuthHandler Unit := do
  send (.setStatus id status)
  if status = .disabled then do
    let _ ← revokeAllSessions id "account disabled"
    pure ()
  else pure ()

/-- `recordAttempt`, with what the browser calls itself cut to its length. -/
def recordAttempt (row : AttemptRow) : AuthHandler Unit :=
  send (.insertAttempt { row with userAgent := storedUserAgent row.userAgent })

end AuthStore

end Cixtech.Auth
