import Cixtech.Admin.RouteAccess
import Cixtech.Auth.PrincipalTables
import Cixtech.Auth.Totp
import Cixtech.Foundation.Executions
import Cixtech.Foundation.Processes
import Mathlib.Algebra.Ring.Nat

/-! The control plane: requests of operators, or of who holds the shared token while there are none,
that change accounts. Requests run side by side, await by await, next to sign-ins.
-/

namespace Cixtech.Admin

open Cixtech.Auth Cixtech.Foundation

-----------------------------------------------------------------------------
-- Requests

/-- The body that an account is created from. -/
structure NewAccount where
  email : Option String
  password : Option String
  role : Option String
  deriving DecidableEq

/-- The random id, and the hash of the password. -/
structure Drawn where
  id : String
  hash : String
  deriving DecidableEq

/-- What a request asks for. What changes no account is told apart by its route only. -/
inductive Action
  | createOperator (body : NewAccount) (drawn : Drawn)
  | setOperatorStatus (id : String) (status : PrincipalStatus)
  | revokeOperatorSessions (id : String)
  | createTenantUser (tenantId : String) (body : NewAccount) (drawn : Drawn)
  | resetPassword (tenantId userId hash : String)
  | revokeUserSessions (tenantId userId : String)
  | setUserStatus (tenantId userId : String) (status : PrincipalStatus)
  | rotateKeys (tenantId : String)
  | elsewhere (method : String) (pattern : Option String)
    (audited : Option (String × Option String))
  deriving DecidableEq

structure Request where
  action : Action
  /-- The value of the cookie `cx_session`. -/
  cookie : Option String
  /-- The header `x-csrf-token`. -/
  csrf : Option String
  /-- What follows `Bearer ` in the header `authorization`. -/
  bearer : Option String
  now : Int
  deriving DecidableEq

/-- A statement that a mutation runs. -/
inductive Write
  | createPrincipal (kind : PrincipalKind) (tenantId : Option String) (email role : String)
    (drawn : Drawn)
  | setStatus (id : String) (status : PrincipalStatus)
  | setPassword (id hash : String)
  | revokeAllSessions (id reason : String)
  | elsewhere
  deriving DecidableEq

namespace Action

def method : Action → String
  | .elsewhere method _ _ => method
  | _ => "POST"

/-- The route that the request has met. -/
def pattern : Action → Option String
  | .createOperator .. => some "/admin/api/operators"
  | .setOperatorStatus _ .disabled => some "/admin/api/operators/:id/disable"
  | .setOperatorStatus _ .active => some "/admin/api/operators/:id/enable"
  | .revokeOperatorSessions _ => some "/admin/api/operators/:id/revoke-sessions"
  | .createTenantUser .. => some "/admin/api/tenants/:id/users"
  | .resetPassword .. => some "/admin/api/tenants/:id/users/:userId/reset-password"
  | .revokeUserSessions .. => some "/admin/api/tenants/:id/users/:userId/revoke-sessions"
  | .setUserStatus _ _ .disabled => some "/admin/api/tenants/:id/users/:userId/disable"
  | .setUserStatus _ _ .active => some "/admin/api/tenants/:id/users/:userId/enable"
  | .rotateKeys _ => some "/admin/api/tenants/:id/keys/rotate"
  | .elsewhere _ pattern _ => pattern

def access (action : Action) : Option RouteAccess :=
  accessForRoute action.method action.pattern

/-- The name and the target that the audit has of a mutation. -/
def audited : Action → Option (String × Option String)
  | .createOperator body _ => some ("operator.create", body.email)
  | .setOperatorStatus id .disabled => some ("operator.disable", some id)
  | .setOperatorStatus id .active => some ("operator.enable", some id)
  | .revokeOperatorSessions id => some ("operator.revoke_sessions", some id)
  | .createTenantUser tenantId _ _ => some ("tenant_user.create", some tenantId)
  | .resetPassword _ userId _ => some ("tenant_user.reset_password", some userId)
  | .revokeUserSessions _ userId => some ("tenant_user.revoke_sessions", some userId)
  | .setUserStatus _ userId .disabled => some ("tenant_user.disable", some userId)
  | .setUserStatus _ userId .active => some ("tenant_user.enable", some userId)
  | .rotateKeys tenantId => some ("tenant.rotate_keys", some tenantId)
  | .elsewhere _ _ audited => audited

/-- The name and the target of the record that a route adds behind that of its mutation. -/
def reported : Action → Option (String × Option String)
  | .rotateKeys tenantId => some ("tenant.keys_revoked", some tenantId)
  | _ => none

/-- A field that is missing or empty. -/
def missing (field : Option String) : Bool := field.all (· = "")

/-- What is wrong with the body, if anything. Only an operator's password must have a length. -/
def badRequest : Action → Option String
  | .createOperator body _ =>
      if missing body.email || missing body.password || missing body.role then
        some "email, password and role are required"
      else if ((body.password.getD "").toList.map utf16Units).sum < 12 then
        some "Password must be at least 12 characters"
      else none
  | .createTenantUser _ body _ =>
      if missing body.email || missing body.password || missing body.role then
        some "email, password and role are required"
      else none
  | _ => none

/-- The tenant and the user that `tenantUserOf` looks at. -/
def tenantUser : Action → Option (String × String)
  | .resetPassword tenantId userId _ => some (tenantId, userId)
  | .revokeUserSessions tenantId userId => some (tenantId, userId)
  | .setUserStatus tenantId userId _ => some (tenantId, userId)
  | _ => none

/-- `setStatus`: who is disabled is signed out as well. -/
def statusWrites (id : String) (status : PrincipalStatus) : List Write :=
  match status with
  | .active => [.setStatus id .active]
  | .disabled => [.setStatus id .disabled, .revokeAllSessions id "account disabled"]

def writes : Action → List Write
  | .createOperator body drawn =>
      [.createPrincipal .operator none (body.email.getD "") (body.role.getD "") drawn]
  | .setOperatorStatus id status => statusWrites id status
  | .revokeOperatorSessions id => [.revokeAllSessions id "revoked by an administrator"]
  | .createTenantUser tenantId body drawn =>
      [.createPrincipal .tenantUser (some tenantId) (body.email.getD "") (body.role.getD "") drawn]
  | .resetPassword _ userId hash =>
      [ .setPassword userId hash,
        .revokeAllSessions userId "password reset by an administrator" ]
  | .revokeUserSessions _ userId => [.revokeAllSessions userId "revoked by an administrator"]
  | .setUserStatus _ userId status => statusWrites userId status
  | .rotateKeys _ => [.elsewhere]
  | .elsewhere .. => [.elsewhere]

/-- The action may touch the account of an operator. -/
def ManagesOperators : Action → Prop
  | .createOperator .. | .setOperatorStatus .. => True
  | _ => False

end Action

/-- `/^[^@\s]+@[^@\s]+\.[^@\s]+$/` -/
def validEmail (email : String) : Bool :=
  let user := email.toList.takeWhile (· ≠ '@')
  let domain := (email.toList.dropWhile (· ≠ '@')).drop 1
  !user.isEmpty && !domain.contains '@' && (domain.drop 1).dropLast.contains '.'
    && !email.toList.any isWhitespace

/-- The row that `createPrincipal` inserts. -/
def newPrincipal (kind : PrincipalKind) (tenantId : Option String) (email role : String)
    (drawn : Drawn)
    : PrincipalRow where
  id := drawn.id
  kind
  tenantId
  email := trim email
  role
  status := .active
  mustChangePassword := true
  totpConfirmed := false
  passwordHash := drawn.hash
  failedLogins := 0
  lockedUntil := none

/-- A character in `JSON.stringify(text)`. -/
def escaped (c : Char) : String :=
  if c = '"' then "\\\""
  else if c = '\\' then "\\\\"
  else if c = '\n' then "\\n"
  else if c = '\r' then "\\r"
  else if c = '\t' then "\\t"
  else if c.toNat = 8 then "\\b"
  else if c.toNat = 12 then "\\f"
  else if c.toNat < 32 then
    "\\u00" ++ String.ofList [Nat.digitChar (c.toNat / 16), Nat.digitChar (c.toNat % 16)]
  else String.ofList [c]

/-- `JSON.stringify(text)` -/
def stringify (text : String) : String := "\"" ++ String.join (text.toList.map escaped) ++ "\""

/-- The refusal of `parseRole`. -/
def unknownRole (kind : PrincipalKind) (role : String) : String :=
  let valid := match kind with
    | .operator => OPERATOR_ROLES
    | .tenantUser => TENANT_ROLES
  "Unknown " ++ kindText kind ++ " role " ++ stringify role ++ ". Valid roles are "
    ++ ", ".intercalate valid ++ "."

/-- A write is carried out, or refused with a message. -/
def Write.perform (lower : String → String) (now : Int) (tables : SessionTables)
    : Write → Except String SessionTables
  | .createPrincipal kind tenantId email role drawn =>
      if !validRole kind role then .error (unknownRole kind role)
      else if !validEmail (trim email) then
        .error (stringify (trim email) ++ " is not a valid email address")
      else
        match tables.insertPrincipal lower (newPrincipal kind tenantId email role drawn) with
        | none => .error ("An account already exists for " ++ trim email)
        | some inserted => .ok inserted
  | .setStatus id status => .ok (tables.updateStatus id status)
  | .setPassword id hash =>
      .ok (tables.updatePrincipal id (fun row => row.setPassword hash true) fun _ => rfl)
  | .revokeAllSessions id reason => .ok (tables.revokeAllSessions id reason now).1
  | .elsewhere => .ok tables

-----------------------------------------------------------------------------
-- The gate

structure PlaneConfig where
  session : SessionConfig
  hashToken : String → String
  lower : String → String
  /-- The shared token. -/
  token : Option String

/-- Who a request was let in as. -/
inductive Actor
  | operator (principal : Principal)
  | sharedToken
  deriving DecidableEq

/-- `actorOf` -/
def actorOf : Option Actor → String
  | some (.operator principal) => principal.email
  | some .sharedToken => "static-admin-token"
  | none => "static-admin-token"

/-- What the gate comes to. The shared token waits for the count of the operators. -/
inductive Gate
  | passes (actor : Option Actor)
  | counts
  | refuses (message : String)
  deriving DecidableEq

def SAFE_METHODS : List String := ["GET", "HEAD", "OPTIONS"]

def csrfRefusal : String :=
  "Missing or invalid CSRF token. "
    ++ "Send the value from GET /auth/session in the x-csrf-token header."

/-- `resolveAuth` -/
def resolveAuth (config : PlaneConfig) (tables : SessionTables) (request : Request)
    : SessionTables × Except String (Option Principal) :=
  match request.cookie with
  | none => (tables, .ok none)
  | some token =>
      if token = "" then (tables, .ok none)
      else
        match tables.resolveSession config.session config.hashToken token request.now with
        | (after, none) => (after, .ok none)
        | (after, some resolved) =>
            let value := request.csrf.getD ""
            if request.action.method ∉ SAFE_METHODS
                ∧ (value = "" ∨ value ≠ resolved.csrfToken) then
              (after, .error csrfRefusal)
            else (after, .ok (some resolved.principal))

/-- `requirePermission` -/
def requirePermission (principal : Principal) (permission : Permission) : Gate :=
  if principal.mustChangePassword then .refuses "Set a new password before continuing"
  else if permission ∈ permissionsFor principal.kind principal.role then
    .passes (some (.operator principal))
  else .refuses ("Your role (" ++ principal.role ++ ") cannot " ++ permission.text)

/-- Without a session there is the shared token. -/
def sharedGate (config : PlaneConfig) (request : Request) : Gate :=
  match config.token with
  | none => .refuses "Admin plane is disabled"
  | some token =>
      if token = "" then .refuses "Admin plane is disabled"
      else
        match request.bearer with
        | none => .refuses "Invalid admin token"
        | some provided =>
            if provided = token ∧ provided ≠ "" then .counts
            else .refuses "Invalid admin token"

/-- The `onRequest` hook, up to the count. Routes of other kinds have other gates. -/
def gate (config : PlaneConfig) (tables : SessionTables) (request : Request)
    : SessionTables × Gate :=
  match request.action.access with
  | some (.operator permission) =>
      match resolveAuth config tables request with
      | (after, .error message) => (after, .refuses message)
      | (after, .ok (some principal)) =>
          if principal.kind ≠ .operator then
            (after, .refuses "This session is not an operator account")
          else (after, requirePermission principal permission)
      | (after, .ok none) => (after, sharedGate config request)
  | _ => (tables, .passes none)

-----------------------------------------------------------------------------
-- Requests side by side

/-- A row of `admin_audit`. -/
structure AuditRow where
  actor : String
  action : String
  target : Option String
  result : String
  detail : Option String
  deriving DecidableEq

inductive Answer
  | done
  /-- Nothing was done. -/
  | refused (message : String)
  /-- The mutation, or its audit, threw. -/
  | failed (message : String)
  /-- The record of a failure threw, or that behind the mutation's own. -/
  | unrecorded (message : String)
  deriving DecidableEq

/-- Where a request is, and whom it was let in as. -/
inductive Phase
  | gating
  | counting
  | targeting (actor : Option Actor) (tenantId userId : String)
  | reading (actor : Option Actor)
  | writing (actor : Option Actor) (write : Write) (rest : List Write)
  /-- The mutation has ended, with the message of what it threw. -/
  | auditing (actor : Option Actor) (threw : Option String)
  /-- The mutation has its record, and the route adds its own. -/
  | reporting (actor : Option Actor)
  | answered (actor : Option Actor) (answer : Answer)
  deriving DecidableEq

structure Call where
  request : Request
  phase : Phase
  deriving DecidableEq

structure Plane where
  tables : SessionTables
  audit : List AuditRow
  calls : List Call

/-- What sign-in, and a change of one's own password, write in a principal's row. -/
inductive Credential
  | recordFailure (failedLogins : Nat) (lockedUntil : Option Int)
  | clearFailures
  | rehashPassword (hash : String)
  | setPassword (hash : String)
  deriving DecidableEq

def Credential.apply (row : PrincipalRow) : Credential → PrincipalRow
  | .recordFailure failedLogins lockedUntil => row.recordFailure failedLogins lockedUntil
  | .clearFailures => row.clearFailures
  | .rehashPassword hash => row.rehashPassword hash
  | .setPassword hash => row.setPassword hash false

inductive Event
  | arrives (request : Request)
  /-- What a request awaits is answered. -/
  | await (call : Nat)
  /-- What a request awaits rejects. A statement may have been applied all the same. -/
  | reject (call : Nat) (applied : Bool)
  | signsIn (input : NewSession)
  | credential (id : String) (change : Credential)
  deriving DecidableEq

def connectionLost : String := "Connection terminated unexpectedly"

/-- `isTenantUserOf` -/
def isTenantUserOf (principal : Option PrincipalRow) (tenantId : String) : Bool :=
  principal.any fun row => row.kind = .tenantUser && row.tenantId = some tenantId

/-- A request goes on to its mutation, through `mutate` if it is one. -/
def mutate (actor : Option Actor) (action : Action) : Phase :=
  if action.audited = none then .reading actor
  else
    match action.writes with
    | [] => .auditing actor none
    | write :: rest => .writing actor write rest

/-- What a request does once it is let in. -/
def admitted (actor : Option Actor) (action : Action) : Phase :=
  match action.badRequest, action.tenantUser with
  | some message, _ => .answered actor (.refused message)
  | none, some (tenantId, userId) => .targeting actor tenantId userId
  | none, none => mutate actor action

/-- `recordAudit`, where there is something to record. -/
def auditRow (audited : Option (String × Option String)) (actor : Option Actor)
    (threw : Option String)
    : List AuditRow :=
  (audited.map fun (name, target) =>
      { actor := actorOf actor
        action := name
        target
        result := if threw = none then "ok" else "error"
        detail := threw }).toList

/-- Behind the record of a mutation the request throws, adds a record, or is done. -/
def afterAudit (action : Action) (actor : Option Actor) (threw : Option String) : Phase :=
  match threw with
  | some message => .answered actor (.failed message)
  | none => if action.reported = none then .answered actor .done else .reporting actor

/-- What a request awaits is answered. -/
def Call.await (config : PlaneConfig) (tables : SessionTables) (call : Call)
    : Option (SessionTables × List AuditRow × Phase) :=
  let action := call.request.action
  match call.phase with
  | .gating =>
      match gate config tables call.request with
      | (after, .refuses message) => some (after, [], .answered none (.refused message))
      | (after, .counts) => some (after, [], .counting)
      | (after, .passes actor) => some (after, [], admitted actor action)
  | .counting =>
      let refusal :=
        "The shared admin token is disabled because operator accounts exist. "
          ++ "Sign in at /auth/login."
      if 0 < tables.operatorCount then some (tables, [], .answered none (.refused refusal))
      else some (tables, [], admitted (some .sharedToken) action)
  | .targeting actor tenantId userId =>
      if isTenantUserOf (tables.principal? userId) tenantId then
        some (tables, [], mutate actor action)
      else some (tables, [], .answered actor (.refused "No such user on this tenant"))
  | .reading actor => some (tables, [], .answered actor .done)
  | .writing actor write rest =>
      match write.perform config.lower call.request.now tables with
      | .error message => some (tables, [], .auditing actor (some message))
      | .ok after =>
          match rest with
          | [] => some (after, [], .auditing actor none)
          | next :: later => some (after, [], .writing actor next later)
  | .auditing actor threw =>
      some (tables, auditRow action.audited actor threw, afterAudit action actor threw)
  | .reporting actor =>
      some (tables, auditRow action.reported actor none, .answered actor .done)
  | .answered .. => none

/-- What a request awaits rejects. -/
def Call.reject (config : PlaneConfig) (tables : SessionTables) (call : Call) (applied : Bool)
    : Option (SessionTables × List AuditRow × Phase) :=
  match call.phase with
  | .answered .. => none
  | .writing actor write _ =>
      let after :=
        if applied then (write.perform config.lower call.request.now tables).toOption.getD tables
        else tables
      some (after, [], .auditing actor (some connectionLost))
  | .auditing actor threw =>
      -- A record of success that is not written is followed by one of failure.
      some
        ( tables,
          if applied then auditRow call.request.action.audited actor threw else [],
          match threw with
          | none => .auditing actor (some connectionLost)
          | some _ => .answered actor (.unrecorded connectionLost))
  | .reporting actor =>
      some
        ( tables,
          if applied then auditRow call.request.action.reported actor none else [],
          .answered actor (.unrecorded connectionLost))
  | .reading actor => some (tables, [], .answered actor (.failed connectionLost))
  | .targeting actor _ _ => some (tables, [], .answered actor (.refused connectionLost))
  | _ => some (tables, [], .answered none (.refused connectionLost))

/-- The call that an event is about, and what it comes to. -/
def Event.advance (config : PlaneConfig) (tables : SessionTables) (call : Call)
    : Event → Option (SessionTables × List AuditRow × Phase)
  | .await _ => call.await config tables
  | .reject _ applied => call.reject config tables applied
  | _ => none

def Event.call : Event → Option Nat
  | .await call | .reject call _ => some call
  | _ => none

def Plane.step (config : PlaneConfig) (plane : Plane) (event : Event) : Option Plane :=
  match event with
  | .arrives request => some { plane with calls := plane.calls ++ [{ request, phase := .gating }] }
  | .signsIn input =>
      some
        { plane with
            tables := (plane.tables.createSession config.session config.hashToken input).1 }
  | .credential id change =>
      some
        { plane with
            tables :=
              plane.tables.updatePrincipal id (fun row => change.apply row)
                fun row => by cases change <;> rfl }
  | _ =>
      event.call.bind fun index =>
        (plane.calls[index]?).bind fun call =>
          (event.advance config plane.tables call).map fun (tables, audit, phase) =>
            { tables
              audit := plane.audit ++ audit
              calls := plane.calls.set index { call with phase } }

end Cixtech.Admin
