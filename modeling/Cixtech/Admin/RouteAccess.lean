import Cixtech.Auth.ApiKeys
import Cixtech.Auth.Credentials

/-! What each route asks of a request, and what each role may do.
-/

namespace Cixtech.Admin

open Cixtech.Auth

inductive Permission
  /-- See the control plane at all. -/
  | adminRead
  /-- Create tenants, issue and revoke their keys. -/
  | tenantsManage
  /-- Create and disable staff accounts. -/
  | operatorsManage
  /-- Halt and release all payouts. -/
  | killswitch
  /-- Sweep fees on chain. -/
  | treasury
  | tenantRead
  | tenantMoveFunds
  | tenantApprove
  | tenantUsersManage
  deriving DecidableEq, Repr

def Permission.text : Permission → String
  | .adminRead => "admin.read"
  | .tenantsManage => "admin.tenants.manage"
  | .operatorsManage => "admin.operators.manage"
  | .killswitch => "admin.killswitch"
  | .treasury => "admin.treasury"
  | .tenantRead => "tenant.read"
  | .tenantMoveFunds => "tenant.move_funds"
  | .tenantApprove => "tenant.approve"
  | .tenantUsersManage => "tenant.users.manage"

def OPERATOR_PERMISSIONS (role : String) : List Permission :=
  if role = "owner" then [.adminRead, .tenantsManage, .operatorsManage, .killswitch, .treasury]
  else if role = "operator" then [.adminRead, .tenantsManage, .killswitch]
  else if role = "viewer" then [.adminRead]
  else []

def TENANT_PERMISSIONS (role : String) : List Permission :=
  if role = "admin" then [.tenantRead, .tenantMoveFunds, .tenantApprove, .tenantUsersManage]
  else if role = "member" then [.tenantRead, .tenantMoveFunds]
  else if role = "viewer" then [.tenantRead]
  else []

def permissionsFor (kind : PrincipalKind) (role : String) : List Permission :=
  match kind with
  | .operator => OPERATOR_PERMISSIONS role
  | .tenantUser => TENANT_PERMISSIONS role

def OPERATOR_ROLES : List String := ["owner", "operator", "viewer"]

def TENANT_ROLES : List String := ["admin", "member", "viewer"]

def kindText : PrincipalKind → String
  | .operator => "operator"
  | .tenantUser => "tenant_user"

/-- `parseRole` accepts the role. -/
def validRole (kind : PrincipalKind) (role : String) : Bool :=
  match kind with
  | .operator => OPERATOR_ROLES.contains role
  | .tenantUser => TENANT_ROLES.contains role

/-- Who may come to a route. -/
inductive RouteAccess
  | isPublic
  | tenant (scope : Scope)
  | session
  | adminToken
  | operator (permission : Permission)
  deriving DecidableEq, Repr

def ROUTE_ACCESS : List (String × RouteAccess) :=
  [ ("GET /admin/api/assets", .operator .adminRead),
    ("GET /admin/api/audit", .operator .adminRead),
    ("GET /admin/api/auth-attempts", .operator .operatorsManage),
    ("GET /admin/api/deposits", .operator .adminRead),
    ("POST /admin/api/earnings/sweep", .operator .treasury),
    ("GET /admin/api/earnings", .operator .adminRead),
    ("GET /admin/api/errors", .operator .adminRead),
    ("POST /admin/api/killswitch/engage", .operator .killswitch),
    ("POST /admin/api/killswitch/reset", .operator .killswitch),
    ("GET /admin/api/killswitch", .operator .adminRead),
    ("GET /admin/api/ledger/accounts", .operator .adminRead),
    ("GET /admin/api/ledger/entries", .operator .adminRead),
    ("POST /admin/api/operators/:id/disable", .operator .operatorsManage),
    ("POST /admin/api/operators/:id/enable", .operator .operatorsManage),
    ("POST /admin/api/operators/:id/revoke-sessions", .operator .operatorsManage),
    ("GET /admin/api/operators", .operator .operatorsManage),
    ("POST /admin/api/operators", .operator .operatorsManage),
    ("GET /admin/api/overview", .operator .adminRead),
    ("GET /admin/api/payouts", .operator .adminRead),
    ("GET /admin/api/pool-addresses", .operator .adminRead),
    ("POST /admin/api/tenants/:id/keys/:keyId/revoke", .operator .tenantsManage),
    ("POST /admin/api/tenants/:id/keys/rotate", .operator .tenantsManage),
    ("GET /admin/api/tenants/:id/keys", .operator .adminRead),
    ("POST /admin/api/tenants/:id/keys", .operator .tenantsManage),
    ("GET /admin/api/tenants/:id/users", .operator .tenantsManage),
    ("POST /admin/api/tenants/:id/users", .operator .tenantsManage),
    ("POST /admin/api/tenants/:id/users/:userId/disable", .operator .tenantsManage),
    ("POST /admin/api/tenants/:id/users/:userId/enable", .operator .tenantsManage),
    ("POST /admin/api/tenants/:id/users/:userId/reset-password", .operator .tenantsManage),
    ("POST /admin/api/tenants/:id/users/:userId/revoke-sessions", .operator .tenantsManage),
    ("GET /admin/api/tenants/:id", .operator .adminRead),
    ("GET /admin/api/tenants", .operator .adminRead),
    ("POST /admin/api/tenants", .operator .tenantsManage),
    ("GET /admin/api/wallets/verify-onchain", .operator .adminRead),
    ("POST /admin/api/webhooks/:id/cancel", .operator .tenantsManage),
    ("POST /admin/api/webhooks/:id/replay", .operator .tenantsManage),
    ("GET /admin/api/webhooks/:id", .operator .adminRead),
    ("GET /admin/api/webhooks", .operator .adminRead),
    ("POST /auth/login", .isPublic),
    ("POST /auth/logout-all", .session),
    ("POST /auth/logout", .isPublic),
    ("POST /auth/mfa", .isPublic),
    ("POST /auth/password", .session),
    ("GET /auth/session", .session),
    ("DELETE /auth/sessions/:id", .session),
    ("GET /auth/sessions", .session),
    ("POST /auth/totp/begin", .session),
    ("POST /auth/totp/confirm", .session),
    ("GET /health", .isPublic),
    ("GET /metrics", .adminToken),
    ("GET /ready", .isPublic),
    ("DELETE /v1/accounts/:id/allowlist", .tenant .moveFunds),
    ("POST /v1/accounts/:id/allowlist", .tenant .moveFunds),
    ("GET /v1/accounts/:id/balance", .tenant .read),
    ("GET /v1/accounts/:id/deposit-addresses", .tenant .read),
    ("POST /v1/accounts/:id/deposit-addresses", .tenant .moveFunds),
    ("POST /v1/accounts/:id/withdrawals", .tenant .moveFunds),
    ("GET /v1/accounts", .tenant .read),
    ("POST /v1/accounts", .tenant .moveFunds),
    ("GET /v1/ai/anomalies", .tenant .read),
    ("POST /v1/ai/query", .tenant .read),
    ("GET /v1/ai/rules", .tenant .read),
    ("POST /v1/ai/rules", .tenant .moveFunds),
    ("GET /v1/allowlist", .tenant .read),
    ("GET /v1/balances", .tenant .read),
    ("GET /v1/chains", .tenant .read),
    ("GET /v1/deposits", .tenant .read),
    ("GET /v1/payouts", .tenant .read),
    ("GET /v1/webhook/deliveries", .tenant .read),
    ("GET /v1/webhook", .tenant .read),
    ("PUT /v1/webhook", .tenant .moveFunds),
    ("POST /v1/withdrawals/:id/approve", .tenant .approve) ]

def routeKey (method path : String) : String := method ++ " " ++ path

/-- No access is known of a request that meets no route. -/
def accessForRoute (method : String) (pattern : Option String) : Option RouteAccess :=
  pattern.bind fun path =>
    (ROUTE_ACCESS.find? fun entry => entry.1 = routeKey method path).map Prod.snd

/-- Only owners manage operators. -/
theorem operatorsManage_mem_iff {kind : PrincipalKind} {role : String}
    : Permission.operatorsManage ∈ permissionsFor kind role
      ↔ kind = .operator ∧ role = "owner" := by
  cases kind with
  | operator =>
      simp only [permissionsFor, OPERATOR_PERMISSIONS]
      split
      · simp_all
      · split
        · simp_all
        · split <;> simp_all
  | tenantUser =>
      simp only [permissionsFor, TENANT_PERMISSIONS]
      split
      · simp
      · split
        · simp
        · split <;> simp

end Cixtech.Admin
