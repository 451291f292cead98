import Cixtech.Auth.PrincipalTables

/-! What the routes of sign-in, passwords and second factors are called with. -/

namespace Cixtech.Auth

/-- Where a request comes from. -/
structure AuthStore.Client where
  ip : Option String
  userAgent : Option String

namespace AuthRoutes

structure LoginBody where
  email : Option String
  password : Option String
  kind : Option String
  tenantId : Option String

namespace LoginBody

def principalKind (body : LoginBody) : PrincipalKind :=
  if body.kind = some "tenant_user" then .tenantUser else .operator

/-- The tenant that the account is looked for in. -/
def tenantScope (body : LoginBody) : Option String :=
  if body.principalKind = .tenantUser then body.tenantId else none

end LoginBody

structure MfaBody where
  challenge : Option String
  code : Option String
  enrol : Bool

/-- What other parts of the server do to accounts. -/
inductive Administration
  | createPrincipal (row : PrincipalRow)
  | setStatus (id : String) (status : PrincipalStatus)
  | resetPassword (id password : String)
  | revokeSessions (id : String)

inductive Route
  | login (body : LoginBody)
  | mfa (body : MfaBody)
  | session
  | logout
  | sessions
  | endSession (id : String)
  | logoutAll
  | password (currentPassword newPassword : Option String)
  | totpBegin
  | totpConfirm (code : Option String)
  | administers (action : Administration)

namespace Route

def method : Route → String
  | .session | .sessions => "GET"
  | .endSession _ => "DELETE"
  | _ => "POST"

/-- The code of a second factor that a request gives. -/
def code? : Route → Option String
  | .mfa body => body.code
  | .totpConfirm code => code
  | _ => none

end Route

structure AuthRequest where
  route : Route
  client : AuthStore.Client
  /-- The cookie `cx_session`. -/
  cookie : Option String
  /-- The header `x-csrf-token`. -/
  csrf : Option String

end AuthRoutes

end Cixtech.Auth
