import Cixtech.Admin.RouteAccess
import Cixtech.Auth.AuthStore

/-! The routes of sign-in, sign-out, passwords and second factors, as handlers over the store. -/

namespace Cixtech.Auth.AuthRoutes

open Cixtech.Admin Cixtech.Foundation AuthStore Handlers Handler

-----------------------------------------------------------------------------
-- Replies

structure PublicPrincipal where
  id : String
  email : String
  kind : PrincipalKind
  role : String
  tenantId : Option String
  totpConfirmed : Bool
  mustChangePassword : Bool
  permissions : List Permission
  totpRequired : Bool

/-- The reply to who has signed in, with the token that its cookie takes along. -/
structure SignedIn where
  token : String
  principal : PublicPrincipal
  csrfToken : String
  expiresAt : Int

structure SessionView where
  id : String
  current : Bool
  createdAt : Int
  lastSeenAt : Int
  expiresAt : Int
  ip : Option String
  userAgent : Option String

inductive Reply
  | badRequest (message : String)
  | notFound (message : String)
  /-- `401` -/
  | noSession
  | signedIn (session : SignedIn) (recoveryCodes : Option (List String))
  | mfaRequired (challenge : String)
  | mfaEnrolmentRequired (challenge secret uri : String)
  | session (principal : PublicPrincipal) (csrfToken id : String) (expiresAt idleExpiresAt : Int)
  | sessions (views : List SessionView)
  | ok (clearsCookie : Bool)
  /-- The sessions ended, and the cookie cleared. -/
  | revoked (count : Nat)
  | totp (secret uri : String)
  | recoveryCodes (codes : List String)

def publicPrincipal (principal : Principal) : PublicPrincipal where
  id := principal.id
  email := principal.email
  kind := principal.kind
  role := principal.role
  tenantId := principal.tenantId
  totpConfirmed := principal.totpConfirmed
  mustChangePassword := principal.mustChangePassword
  permissions := permissionsFor principal.kind principal.role
  totpRequired := requiresTotp principal.role

-----------------------------------------------------------------------------
-- `totpEnrolmentUri`

/-- `%` and two digits. -/
def percent (byte : UInt8) : String :=
  let digit (n : Nat) : Char := (Nat.digitChar n).toUpper
  String.ofList ['%', digit (byte.toNat / 16), digit (byte.toNat % 16)]

def encoded (plain : Char → Bool) (text : String) : String :=
  String.join
    (text.toUTF8.data.toList.map fun byte =>
      let c := Char.ofNat byte.toNat
      if byte < 128 && plain c then String.ofList [c] else percent byte)

def encodeURIComponent (text : String) : String :=
  encoded (fun c => c.isAlphanum || "-_.!~*'()".toList.contains c) text

/-- A value of `URLSearchParams`. -/
def formEncoded (text : String) : String :=
  (encoded (fun c => c.isAlphanum || "*-._ ".toList.contains c) text).map fun c =>
    if c = ' ' then '+' else c

def totpEnrolmentUri (secret account : String) : String :=
  "otpauth://totp/" ++ encodeURIComponent ("cixtech:" ++ account) ++ "?secret="
    ++ formEncoded secret ++ "&issuer=cixtech&algorithm=SHA1&digits=6&period=30"

-----------------------------------------------------------------------------
-- `registerAuth`

def CHALLENGE_MS : Int := 2 * 60000

def notAuthenticated : Thrown where
  code := "NOT_AUTHENTICATED"
  message := "Sign in to continue"

def csrfError : Thrown where
  code := "CSRF_FAILED"
  message :=
    "Missing or invalid CSRF token. "
      ++ "Send the value from GET /auth/session in the x-csrf-token header."

def safeMethods : List String := ["GET", "HEAD", "OPTIONS"]

/-- A text that is missing or empty. -/
def absent (text : Option String) : Bool := text.getD "" = ""

variable (config : AuthConfig)

/-- `resolveAuth` -/
def resolveAuth (request : AuthRequest) : AuthHandler (Option ResolvedSession) :=
  if absent request.cookie then pure none
  else do
    let found ← resolveSession config (request.cookie.getD "")
    match found with
    | none => pure none
    | some resolved =>
        let value := request.csrf.getD ""
        if request.route.method ∉ safeMethods ∧ (value = "" ∨ value ≠ resolved.csrfToken) then
          throws csrfError
        else pure (some resolved)

def mustBeSignedIn (request : AuthRequest) : AuthHandler ResolvedSession := do
  let found ← resolveAuth config request
  match found with
  | none => throws notAuthenticated
  | some resolved => pure resolved

/-- An attempt of a principal, with what it came to. -/
def attempt (principal : Principal) (client : Client) (outcome : String) : AttemptRow where
  email := some principal.email
  principalId := some principal.id
  kind := kindText principal.kind
  outcome
  ip := client.ip
  userAgent := client.userAgent
  detail := none

def issueSession (client : Client) (principal : Principal) : AuthHandler SignedIn := do
  let created ← createSession config principal.id client
  recordAttempt (attempt principal client "session_created")
  pure
    { token := created.token
      principal := publicPrincipal principal
      csrfToken := created.csrfToken
      expiresAt := created.session.expiresAt }

/-- What a right password leads to. -/
def passwordAccepted (client : Client) (outcome : Outcome) (principal : Principal)
    : AuthHandler Reply :=
  if outcome = .ok then do
    let session ← issueSession config client principal
    pure (.signedIn session none)
  else do
    let now : Int ← send .now
    let drawn : Drawn ← send .draw
    send (.sweepChallenges now)
    send
      (.setChallenge drawn.challenge
        { principalId := principal.id, expires := now + CHALLENGE_MS })
    if outcome = .mfaEnrolmentRequired then do
      let secret ← beginTotpEnrolment principal.id
      pure
        (.mfaEnrolmentRequired drawn.challenge secret (totpEnrolmentUri secret principal.email))
    else pure (.mfaRequired drawn.challenge)

def login (body : LoginBody) (client : Client) : AuthHandler Reply :=
  let kind := body.principalKind
  if absent body.email || absent body.password then
    pure (.badRequest "email and password are required")
  else
    let email := body.email.getD ""
    let tried : AuthHandler Reply := do
      let (outcome, principal) ←
        verifyCredentials config kind email (body.password.getD "") body.tenantScope
      passwordAccepted config client outcome principal
    tried.catches fun err => do
      recordAttempt
        { email := some email
          principalId := none
          kind := kindText kind
          outcome := "failed"
          ip := client.ip
          userAgent := client.userAgent
          detail := some err.message }
      throws err

def mfa (body : MfaBody) (client : Client) : AuthHandler Reply := do
  let now : Int ← send .now
  let found : Option Challenge ← send (.findChallenge now body.challenge)
  let challenge := body.challenge.getD ""
  match found with
  | none => throws (authFailed "That sign-in attempt has expired. Start again.")
  | some pending =>
      if absent body.code then pure (.badRequest "code is required")
      else do
        let code := body.code.getD ""
        let loaded ← loadById pending.principalId
        match loaded with
        | none => throws (authFailed "Account no longer exists")
        | some principal =>
            if body.enrol then do
              let codes ← confirmTotp config principal.id code
              send (.deleteChallenge challenge)
              let fresh ← loadById principal.id
              let session ← issueSession config client (fresh.getD principal)
              pure (.signedIn session (some codes))
            else do
              let accepted ← verifySecondFactor config principal.id code
              if accepted then do
                send (.deleteChallenge challenge)
                let session ← issueSession config client principal
                pure (.signedIn session none)
              else do
                recordAttempt (attempt principal client "mfa_failed")
                throws (authFailed "That code is not correct")

def session (request : AuthRequest) : AuthHandler Reply := do
  let found ← resolveAuth config request
  match found with
  | none => pure .noSession
  | some resolved =>
      pure
        (.session (publicPrincipal resolved.principal) resolved.csrfToken resolved.session.id
          resolved.session.expiresAt resolved.session.idleExpiresAt)

def logout (request : AuthRequest) : AuthHandler Reply := do
  let found ← resolveAuth config request
  match found with
  | none => pure (.ok true)
  | some resolved => do
      let _ ← revokeSession resolved.session.id "signed out"
      recordAttempt (attempt resolved.principal request.client "signed_out")
      pure (.ok true)

def sessions (request : AuthRequest) : AuthHandler Reply := do
  let resolved ← mustBeSignedIn config request
  let rows ← listSessions resolved.principal.id
  pure
    (.sessions
      (rows.map fun row =>
        { id := row.id
          current := row.id = resolved.session.id
          createdAt := row.createdAt
          lastSeenAt := row.lastSeenAt
          expiresAt := row.expiresAt
          ip := row.ip
          userAgent := row.userAgent }))

def endSession (request : AuthRequest) (id : String) : AuthHandler Reply := do
  let resolved ← mustBeSignedIn config request
  let mine ← listSessions resolved.principal.id
  if mine.any fun row => row.id = id then do
    let _ ← revokeSession id "revoked by user"
    pure (.ok (id = resolved.session.id))
  else pure (.notFound "No such session")

def logoutAll (request : AuthRequest) : AuthHandler Reply := do
  let resolved ← mustBeSignedIn config request
  let revoked ← revokeAllSessions resolved.principal.id "signed out everywhere"
  pure (.revoked revoked)

/-- The length that a new password is measured in, UTF-16 units. -/
def passwordUnits (password : String) : Nat :=
  password.toList.foldl (fun units c => units + utf16Units c) 0

def password (request : AuthRequest) (currentPassword newPassword : Option String)
    : AuthHandler Reply := do
  let found ← resolveAuth config request
  match found with
  | none => throws notAuthenticated
  | some resolved =>
      if absent currentPassword || absent newPassword then
        pure (.badRequest "currentPassword and newPassword are required")
      else if passwordUnits (newPassword.getD "") < 12 then
        pure (.badRequest "New password must be at least 12 characters")
      else do
        let principal := resolved.principal
        let _ ←
          verifyCredentials config principal.kind principal.email (currentPassword.getD "")
            principal.tenantId
        setPassword principal.id (newPassword.getD "") false
        let _ ← revokeAllSessions principal.id "password changed"
        let fresh ← loadById principal.id
        match fresh with
        | none => throws { code := "", message := "Cannot read properties of null (reading 'id')" }
        | some fresh => do
            let session ← issueSession config request.client fresh
            pure (.signedIn session none)

def totpBegin (request : AuthRequest) : AuthHandler Reply := do
  let resolved ← mustBeSignedIn config request
  let secret ← beginTotpEnrolment resolved.principal.id
  pure (.totp secret (totpEnrolmentUri secret resolved.principal.email))

def totpConfirm (request : AuthRequest) (code : Option String) : AuthHandler Reply := do
  let resolved ← mustBeSignedIn config request
  if absent code then pure (.badRequest "code is required")
  else do
    let codes ← confirmTotp config resolved.principal.id (code.getD "")
    pure (.recoveryCodes codes)

def administers : Administration → AuthHandler Reply
  | .createPrincipal row => do
      send (.insertPrincipal row)
      pure (.ok false)
  | .setStatus id status => do
      setStatus id status
      pure (.ok false)
  | .resetPassword id password => do
      setPassword id password true
      let _ ← revokeAllSessions id "password reset by an administrator"
      pure (.ok false)
  | .revokeSessions id => do
      let revoked ← revokeAllSessions id "revoked by an administrator"
      pure (.revoked revoked)

/-- `registerAuth`: the handler of a route. -/
def serve (request : AuthRequest) : AuthHandler Reply := do
  send (.receive request)
  match request.route with
  | .login body => login config body request.client
  | .mfa body => mfa config body request.client
  | .session => session config request
  | .logout => logout config request
  | .sessions => sessions config request
  | .endSession id => endSession config request id
  | .logoutAll => logoutAll config request
  | .password currentPassword newPassword => password config request currentPassword newPassword
  | .totpBegin => totpBegin config request
  | .totpConfirm code => totpConfirm config request code
  | .administers action => administers action

end Cixtech.Auth.AuthRoutes
