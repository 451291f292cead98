import Cixtech.Auth.Passwords
import Cixtech.Auth.SecondFactor

/-! Sign-in with a password. Attempts on one principal run side by side, await by await: the
failures are counted from the row that an attempt read before its slow password check.
-/

namespace Cixtech.Auth

open Cixtech.Common Cixtech.Foundation

inductive PrincipalKind
  | operator
  | tenantUser
  deriving DecidableEq, Repr

inductive PrincipalStatus
  | active
  | disabled
  deriving DecidableEq, Repr

/-- The two fields of `SessionConfig` that sign-in reads. -/
structure LoginConfig where
  maxFailedLogins : Nat
  lockoutMs : Nat
  deriving DecidableEq, Repr

/-- `DEFAULT_SESSION_CONFIG`. -/
def defaultLoginConfig : LoginConfig where
  maxFailedLogins := 5
  lockoutMs := 15 * 60000

structure Principal where
  id : String
  kind : PrincipalKind
  tenantId : Option String
  email : String
  role : String
  status : PrincipalStatus
  mustChangePassword : Bool
  totpConfirmed : Bool
  deriving DecidableEq, Repr

structure PrincipalRow extends Principal where
  passwordHash : String
  failedLogins : Nat
  lockedUntil : Option Int
  deriving DecidableEq, Repr

namespace PrincipalRow

/-- `principalQ.recordFailure`. -/
def recordFailure (row : PrincipalRow) (failedLogins : Nat) (lockedUntil : Option Int)
    : PrincipalRow :=
  { row with failedLogins, lockedUntil }

/-- `principalQ.clearFailures`. -/
def clearFailures (row : PrincipalRow) : PrincipalRow :=
  { row with failedLogins := 0, lockedUntil := none }

/-- `principalQ.rehashPassword`. -/
def rehashPassword (row : PrincipalRow) (passwordHash : String) : PrincipalRow :=
  { row with passwordHash }

/-- `principalQ.setPassword`. -/
def setPassword (row : PrincipalRow) (passwordHash : String) (mustChangePassword : Bool)
    : PrincipalRow :=
  { row with passwordHash, mustChangePassword, failedLogins := 0, lockedUntil := none }

/-- Whether the row is locked at a clock. -/
def lockedAt (row : PrincipalRow) (now : Int) : Bool := row.lockedUntil.any (now < ·)

end PrincipalRow

/-- `requiresTotp`. -/
def requiresTotp (role : String) : Bool := ["owner", "operator", "admin", "member"].contains role

inductive Outcome
  | ok
  | mfaRequired
  | mfaEnrolmentRequired
  deriving DecidableEq, Repr

def outcomeOf (principal : Principal) : Outcome :=
  if requiresTotp principal.role then
    if principal.totpConfirmed then .mfaRequired else .mfaEnrolmentRequired
  else .ok

/-- What `verifyCredentials` is given. -/
structure Credentials where
  kind : PrincipalKind
  email : String
  password : String
  tenantId : Option String
  now : Int
  deriving DecidableEq, Repr

/-- Where a call of `verifyCredentials` is, with the row that it read. -/
inductive CredentialPhase
  | loading
  /-- No row was found; the password is checked against a dummy. -/
  | unknown
  | checking (row : PrincipalRow)
  | recording (row : PrincipalRow)
  | clearing (row : PrincipalRow)
  | rehashing (row : PrincipalRow)
  | returned (outcome : Outcome) (principal : Principal)
  | threw (err : AppError)
  deriving DecidableEq, Repr

/-- The row that a call has read and checks the password of, or has checked and not written. -/
def CredentialPhase.pending : CredentialPhase → Option PrincipalRow
  | .checking row => some row
  | .recording row => some row
  | .clearing row => some row
  | _ => none

structure CredentialCall where
  input : Credentials
  phase : CredentialPhase
  deriving DecidableEq, Repr

def CredentialCall.to (call : CredentialCall) (phase : CredentialPhase) : CredentialCall :=
  { call with phase }

/-- The row of the principal, with what the attempts on it came to. -/
structure Account where
  row : PrincipalRow
  /-- The clocks of the wrong attempts recorded since the last success or reset, the latest
  first.
  -/
  wrongs : List Int
  /-- The password checks begun since the last success or reset. -/
  checks : Nat
  deriving DecidableEq, Repr

/-- `new AccountLockedError(message)`. -/
def accountLocked : AppError where
  code := .accountLocked
  message := "Too many failed attempts. Try again later or use a recovery code."
  context := []

structure SignIns where
  account : Account
  calls : List CredentialCall
  deriving DecidableEq, Repr

inductive CredentialEvent
  | verifyCredentials (input : Credentials)
  /-- What a call awaits is answered; a new hash of the password is the event's. -/
  | await (call : Nat) (hash : String)
  /-- What a call awaits rejects. The statement may have been applied all the same. -/
  | reject (call : Nat) (hash : String) (applied : Bool)
  /-- The password is set anew. -/
  | setPassword (hash : String) (mustChange : Bool)
  | setStatus (status : PrincipalStatus)

/-- The call that an event is about. -/
def CredentialEvent.call : CredentialEvent → Option Nat
  | .await call _ | .reject call _ _ => some call
  | _ => none

namespace SignIns

section Calls

-- The database lowers e-mail addresses to compare them.
variable (hashing : Hashing) (lower : String → String) (config : LoginConfig)

/-- `principalQ.byEmail`. -/
def finds (input : Credentials) (row : PrincipalRow) : Bool :=
  row.kind = input.kind && lower row.email = lower input.email
    && input.tenantId.all fun tenantId => row.tenantId = some tenantId

/-- `failures`. -/
def failures (read : PrincipalRow) : Nat := read.failedLogins + 1

/-- The lock that is recorded with a failure. -/
def lockUntil (read : PrincipalRow) (now : Int) : Option Int :=
  if config.maxFailedLogins ≤ failures read then some (now + config.lockoutMs) else none

/-- Whether a call that reads the row now goes on to check its password. -/
def admitted (input : Credentials) (row : PrincipalRow) : Bool :=
  finds lower input row && !row.lockedAt input.now && row.status = .active

/-- The next await of a call, none of one that has ended. -/
def await (account : Account) (call : CredentialCall) (hash : String)
    : Option (Account × CredentialCall) :=
  match call.phase with
  | .loading =>
      if finds lower call.input account.row then
        if account.row.lockedAt call.input.now then some (account, call.to (.threw accountLocked))
        else if account.row.status ≠ .active then
          some (account, call.to (.threw (authError "This account is disabled")))
        else
          some ({ account with checks := account.checks + 1 }, call.to (.checking account.row))
      else some (account, call.to .unknown)
  | .unknown => some (account, call.to (.threw (authError "Email or password is incorrect")))
  | .checking read =>
      if verifyPassword hashing call.input.password read.passwordHash then
        some (account, call.to (.clearing read))
      else some (account, call.to (.recording read))
  | .recording read =>
      let now := call.input.now
      some
        ( { account with
              row := account.row.recordFailure (failures read) (lockUntil config read now)
              wrongs := now :: account.wrongs },
          call.to (.threw (authError "Email or password is incorrect")))
  | .clearing read =>
      some
        ( { row := account.row.clearFailures, wrongs := [], checks := 0 },
          call.to
            (if needsRehash hashing read.passwordHash then .rehashing read
              else .returned (outcomeOf read.toPrincipal) read.toPrincipal))
  | .rehashing read =>
      some
        ( { account with row := account.row.rehashPassword hash },
          call.to (.returned (outcomeOf read.toPrincipal) read.toPrincipal))
  | .returned .. | .threw _ => none

/-- One event of a call. A rejected read or check has nothing to apply. -/
def advance (account : Account) (call : CredentialCall)
    : CredentialEvent → Option (Account × CredentialCall)
  | .await _ hash => await hashing lower config account call hash
  | .reject _ hash applied =>
      (await hashing lower config account call hash).map fun answered =>
        (if applied && call.phase ≠ .loading then answered.1 else account,
          call.to (.threw (.plain "connection lost")))
  | _ => none

end Calls

def initial (row : PrincipalRow) : SignIns where
  account := { row, wrongs := [], checks := 0 }
  calls := []

def step (hashing : Hashing) (lower : String → String) (config : LoginConfig) (system : SignIns)
    (event : CredentialEvent)
    : Option SignIns :=
  match event with
  | .verifyCredentials input =>
      some { system with calls := system.calls ++ [{ input, phase := .loading }] }
  | .setPassword hash mustChange =>
      some
        { system with
            account :=
              { row := system.account.row.setPassword hash mustChange, wrongs := [], checks := 0 } }
  | .setStatus status =>
      some
        { system with
            account := { system.account with row := { system.account.row with status } } }
  | _ =>
      event.call.bind fun index =>
        (system.calls[index]?).bind fun call =>
          (advance hashing lower config system.account call event).map fun (account, next) =>
            { account, calls := system.calls.set index next }

end SignIns

end Cixtech.Auth
