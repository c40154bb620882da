import VcCommonService.Common
import VcCommonService.Lib.Js

/-!
# Scopes and roles (`libs/auth/src`)

The constants of `constants/scopes.constants.ts`, `ScopeAuthorizationService`
and `partitionRequestedScopes`. A JavaScript set is a duplicate-free list in
insertion order.
-/

namespace VcCommonService.Auth
open Lib

/-! ### Constants -/

def tenantSuperuserScope : String := "tenants:admin"
def platformAdminRole : String := "platform-admin"
def usersManageScope : String := "users:manage"
def connectionsManageScope : String := "connections:manage"
def clientsManageScope : String := "clients:manage"
def auditReadScope : String := "audit:read"

def level2Scopes : List String :=
  ["credentials:offer", "credentials:verify", "credentials:hold", "credentials:revoke",
    connectionsManageScope, "profiles:manage", usersManageScope, clientsManageScope]

def level3Scopes : List String := ["logs:read", auditReadScope]

def allTenantScopes : List String := level2Scopes ++ level3Scopes

def assignableOAuthClientScopes : List String := tenantSuperuserScope :: allTenantScopes

/-- Names of `SCOPE_CATALOG`, which the source enumerates by hand. -/
def scopeCatalogNames : List String :=
  [tenantSuperuserScope, "credentials:offer", "credentials:verify", "credentials:hold",
    "credentials:revoke", connectionsManageScope, "profiles:manage", "users:manage",
    clientsManageScope, "logs:read", auditReadScope]

def isKnownScope (scope : String) : Bool := scopeCatalogNames.contains scope

/-- `TenantRole`, also the `tenant_user_role` type of the database. -/
inductive TenantRole where
  | owner
  | admin
  | member
  | readonly
  deriving Repr, DecidableEq

def TenantRole.name : TenantRole → String
  | .owner => "owner"
  | .admin => "admin"
  | .member => "member"
  | .readonly => "readonly"

def roleHierarchy : List TenantRole := [.owner, .admin, .member, .readonly]

def oauthClientPlatformRoles : List String := [platformAdminRole]
def oauthClientTenantRoles : List String := roleHierarchy.map TenantRole.name
def oauthClientAllowedRoles : List String := oauthClientTenantRoles ++ oauthClientPlatformRoles

/-! ### `AuthContext` and `ScopeAuthorizationService` -/

inductive AuthTokenType where
  | user
  | client
  deriving Repr, DecidableEq

structure AuthContext where
  sub : String
  tokenType : AuthTokenType
  tenantId : Option TenantId
  roles : List String
  scopes : List String
  deriving Repr, DecidableEq

def isPlatformAdmin (roles : List String) : Bool := roles.contains platformAdminRole

def expandEffectiveScopes (tokenScopes : List String) : List String :=
  let effective := Js.setOf tokenScopes
  if tenantSuperuserScope ∈ effective then Js.addAll effective allTenantScopes else effective

theorem mem_expandEffectiveScopes (scopes : List String) (scope : String) :
    scope ∈ expandEffectiveScopes scopes ↔
      scope ∈ scopes ∨ (tenantSuperuserScope ∈ scopes ∧ scope ∈ allTenantScopes) := by
  simp only [expandEffectiveScopes, Js.mem_setOf]
  split
  next h => simp [h]
  next h => simp [h]

/-! ### `common/assert-tenant-access.ts` -/

def assertResourceTenantOrNotFound (auth : Option AuthContext) (resourceTenantId : TenantId)
    (notFoundMessage : String) : Except ServiceError Unit :=
  match auth with
  | none => .error (.notFound notFoundMessage)
  | some auth =>
    if isPlatformAdmin auth.roles then .ok ()
    else if auth.tenantId = none ∨ auth.tenantId = some "" ∨
        auth.tenantId ≠ some resourceTenantId then
      .error (.notFound notFoundMessage)
    else .ok ()

structure TenantAccessDenied where
  message : String
  requiredTenantId : TenantId
  tokenTenantId : Option TenantId
  deriving Repr, DecidableEq

def assertTenantAccess (auth : Option AuthContext) (tenantId : TenantId) :
    Except TenantAccessDenied Unit :=
  match auth with
  | none => .error ⟨"Authenticated request context is missing", tenantId, none⟩
  | some auth =>
    if isPlatformAdmin auth.roles then .ok ()
    else
      match Js.truthy auth.tenantId with
      | none => .error ⟨"Token is missing a tenant_id claim", tenantId, none⟩
      | some tokenTenantId =>
        if tokenTenantId ≠ tenantId then
          .error ⟨"Token tenant_id does not match the requested tenant", tenantId,
            some tokenTenantId⟩
        else .ok ()

/-! ### `partitionRequestedScopes` -/

structure PartitionRequestedScopesInput where
  requestedScopes : List String
  allowedScopes : List String
  actorScopes : List String
  isPlatformAdmin : Bool := false

structure PartitionRequestedScopesResult where
  grantedScopes : List String
  deniedScopes : List String

def permitted (input : PartitionRequestedScopesInput) (scope : String) : Bool :=
  input.allowedScopes.contains scope &&
    (input.isPlatformAdmin || input.actorScopes.contains scope)

def partitionRequestedScopes (input : PartitionRequestedScopesInput) :
    PartitionRequestedScopesResult :=
  input.requestedScopes.foldl
    (fun r scope =>
      if permitted input scope then { r with grantedScopes := r.grantedScopes ++ [scope] }
      else { r with deniedScopes := r.deniedScopes ++ [scope] })
    ⟨[], []⟩

theorem partitionRequestedScopes_eq (input : PartitionRequestedScopesInput) :
    partitionRequestedScopes input =
      ⟨input.requestedScopes.filter (permitted input),
        input.requestedScopes.filter (fun scope => !permitted input scope)⟩ := by
  have key : ∀ (xs g d : List String),
      xs.foldl (fun (r : PartitionRequestedScopesResult) scope =>
          if permitted input scope then { r with grantedScopes := r.grantedScopes ++ [scope] }
          else { r with deniedScopes := r.deniedScopes ++ [scope] }) ⟨g, d⟩ =
        ⟨g ++ xs.filter (permitted input), d ++ xs.filter (fun scope => !permitted input scope)⟩ := by
    intro xs
    induction xs with
    | nil => simp
    | cons x xs ih =>
      intro g d
      by_cases hx : permitted input x = true
      · simp [hx, ih]
      · simp [hx, ih]
  simpa only [partitionRequestedScopes, List.nil_append] using key input.requestedScopes [] []

theorem deniedScopes_eq_nil (input : PartitionRequestedScopesInput) :
    (partitionRequestedScopes input).deniedScopes = [] ↔
      ∀ scope ∈ input.requestedScopes, permitted input scope = true := by
  rw [partitionRequestedScopes_eq]
  simp [List.filter_eq_nil_iff]

end VcCommonService.Auth
