import VcCommonService.Oidc.AccountSession

/-!
# Role to scope mappings (`role-scope.service.ts`, `role-scope.repository.ts`)

Every write runs under the tenant's advisory lock in one transaction, so a write is one
function of the database; an exception rolls it back. Records that logins save in the
commit window are an input of the write.
-/

namespace VcCommonService.RoleScopes
open Lib Auth TenantUsers Oidc

/-! ### Data -/

inductive RoleScopeSource where
  | default
  | override
  deriving Repr, DecidableEq

structure RoleScopeMappingEntry where
  name : TenantRole
  scopes : List String
  source : RoleScopeSource
  deriving Repr, DecidableEq

structure RoleScopeWriteRequest where
  tenantId : TenantId
  role : TenantRole
  actorId : String
  actorScopes : List String
  actorRoles : List String
  actorTokenType : AuthTokenType
  deriving Repr, DecidableEq

structure RoleScopeWriteResult where
  role : TenantRole
  scopes : List String
  source : RoleScopeSource
  revokedRecordCount : ℕ
  deriving Repr, DecidableEq

inductive RoleScopeError where
  | roleImmutable
  | unknownScope (unknown : List String)
  | scopeNotAssignable
  | scopeEscalation (escalated : List String)
  | hierarchyViolation (child parent : TenantRole) (excess : List String)
  deriving Repr, DecidableEq

def RoleScopeError.code : RoleScopeError → String
  | .roleImmutable => "role_immutable"
  | .unknownScope _ => "unknown_scope"
  | .scopeNotAssignable => "scope_not_assignable"
  | .scopeEscalation _ => "scope_escalation"
  | .hierarchyViolation _ _ _ => "hierarchy_violation"

def RoleScopeError.message : RoleScopeError → String
  | .roleImmutable => "The owner role cannot be modified"
  | .unknownScope unknown => "Unknown scope(s): " ++ commaJoin unknown
  | .scopeNotAssignable =>
    tenantSuperuserScope ++ " cannot be assigned to a role other than owner"
  | .scopeEscalation escalated => "Cannot grant scope(s) you do not hold: " ++ commaJoin escalated
  | .hierarchyViolation child parent excess =>
    "Role " ++ child.name ++ " would hold scope(s) that " ++ parent.name ++ " lacks: " ++
      commaJoin excess

inductive AuditAction where
  | update
  | delete
  | revoke
  deriving Repr, DecidableEq

inductive AuditMetadata where
  | change (role : TenantRole) (source : RoleScopeSource)
      (previousScopes scopes removedScopes : List String) (revokedRecordCount : ℕ)
  | commitWindowSweep (role : TenantRole) (revokedRecordCount : ℕ)
  deriving Repr, DecidableEq

/-- An entry about the mapping of a tenant (`tenant_role_scope`), which is its resource. -/
structure AuditEntry where
  tenantId : TenantId
  actorId : String
  actorType : AuthTokenType
  action : AuditAction
  metadata : AuditMetadata
  deriving Repr, DecidableEq

/-- `role_scope`, `tenant_role_scope` by its primary key, and the tables a write touches. -/
structure Db where
  roleScope : List (TenantRole × String)
  tenantRoleScope : TenantId → TenantRole → Option (List String)
  tenantUsers : List TenantUser
  oidcModels : List OidcModel
  auditLog : List AuditEntry

/-! ### Repository -/

/-- `defaults[role]` of the grouped and ordered `role_scope`; a role without rows is absent. -/
def findDefaultRoleScopes (db : Db) (role : TenantRole) : Option (List String) :=
  let scopes := (db.roleScope.filter fun row => decide (row.1 = role)).map Prod.snd
  if scopes = [] then none else some (Js.sort scopes)

def findTenantOverrides (db : Db) (tenantId : TenantId) : List (TenantRole × List String) :=
  roleHierarchy.filterMap fun role =>
    (db.tenantRoleScope tenantId role).map fun scopes => (role, scopes)

/-- The override row when it exists, even an empty one, else the default. Without a tenant
only the default is read. -/
def findScopesForRole (db : Db) (role : TenantRole) (tenantId : Option TenantId) : List String :=
  let default := Js.sort ((db.roleScope.filter fun row => decide (row.1 = role)).map Prod.snd)
  match tenantId with
  | none => default
  | some tenantId => (db.tenantRoleScope tenantId role).getD default

def setTenantRoleScopes (db : Db) (tenantId : TenantId) (role : TenantRole)
    (scopes : Option (List String)) : Db :=
  { db with
    tenantRoleScope := fun t r =>
      if t = tenantId ∧ r = role then scopes else db.tenantRoleScope t r }

def upsertTenantRoleScopes (db : Db) (tenantId : TenantId) (role : TenantRole)
    (scopes : List String) : Db := setTenantRoleScopes db tenantId role (some scopes)

def deleteTenantRoleScopes (db : Db) (tenantId : TenantId) (role : TenantRole) : Db :=
  setTenantRoleScopes db tenantId role none

/-! ### Mappings -/

def getDefaultRoleMapping (db : Db) : List RoleScopeMappingEntry :=
  roleHierarchy.map fun role => ⟨role, (findDefaultRoleScopes db role).getD [], .default⟩

/-- An override wins even when it is empty. -/
def getTenantRoleMapping (db : Db) (tenantId : TenantId) : List RoleScopeMappingEntry :=
  let overrideByRole := findTenantOverrides db tenantId
  roleHierarchy.map fun role =>
    match overrideByRole.lookup role with
    | some scopes => ⟨role, scopes, .override⟩
    | none => ⟨role, (findDefaultRoleScopes db role).getD [], .default⟩

def scopesOf (mapping : List RoleScopeMappingEntry) (role : TenantRole) : List String :=
  ((mapping.find? fun entry => decide (entry.name = role)).map
    RoleScopeMappingEntry.scopes).getD []

/-! ### Checks -/

def assertRoleMutable (role : TenantRole) : Except RoleScopeError Unit :=
  if role = .owner then .error .roleImmutable else .ok ()

def assertScopesAssignable (role : TenantRole) (scopes : List String) :
    Except RoleScopeError Unit := do
  assertRoleMutable role
  let unknown := scopes.filter fun scope => !isKnownScope scope
  if unknown ≠ [] then .error (.unknownScope unknown)
  else if tenantSuperuserScope ∈ scopes then .error .scopeNotAssignable
  else .ok ()

def excessScopes (xs ys : List String) : List String :=
  Js.sort ((expandEffectiveScopes xs).filter fun scope => !(expandEffectiveScopes ys).contains scope)

def removedScopes (previous next : List String) : List String := excessScopes previous next

def assertNoEscalation (scopes : List String) (request : RoleScopeWriteRequest) :
    Except RoleScopeError Unit :=
  let escalated := scopes.filter fun scope =>
    !(expandEffectiveScopes request.actorScopes).contains scope
  if isPlatformAdmin request.actorRoles then .ok ()
  else if escalated ≠ [] then .error (.scopeEscalation escalated)
  else .ok ()

/-- The loop over adjacent roles; the first violation is thrown. -/
def assertHierarchyFrom (mapping : List RoleScopeMappingEntry) :
    List (TenantRole × TenantRole) → Except RoleScopeError Unit
  | [] => .ok ()
  | (parent, child) :: pairs =>
    let excess := excessScopes (scopesOf mapping child) (scopesOf mapping parent)
    if excess ≠ [] then .error (.hierarchyViolation child parent excess)
    else assertHierarchyFrom mapping pairs

def adjacentRoles : List (TenantRole × TenantRole) := roleHierarchy.zip roleHierarchy.tail

def assertHierarchy (mapping : List RoleScopeMappingEntry) : Except RoleScopeError Unit :=
  assertHierarchyFrom mapping adjacentRoles

/-! ### Writes -/

def revokeAffectedSessions (db : Db) (tenantId : TenantId) (role : TenantRole) : Db × ℕ :=
  let (remaining, deleted) := deleteAllForTenantRole db.tenantUsers db.oidcModels tenantId role
  ({ db with oidcModels := remaining }, Table.total deleted)

def audit (db : Db) (request : RoleScopeWriteRequest) (action : AuditAction)
    (metadata : AuditMetadata) : Db :=
  { db with
    auditLog := db.auditLog ++
      [⟨request.tenantId, request.actorId, request.actorTokenType, action, metadata⟩] }

/-- The transaction of `writeMapping`; `apply` writes the override and returns the scopes
the role then has. The flag says whether the write narrowed the role. -/
def writeTransaction (db : Db) (request : RoleScopeWriteRequest) (source : RoleScopeSource)
    (action : AuditAction) (apply : Db → Db × List String) :
    Except RoleScopeError (Db × RoleScopeWriteResult × Bool) := do
  let before := getTenantRoleMapping db request.tenantId
  let previousEntry := before.find? fun entry => decide (entry.name = request.role)
  let previous := (previousEntry.map RoleScopeMappingEntry.scopes).getD []
  let previousSource := (previousEntry.map RoleScopeMappingEntry.source).getD .default
  let (written, scopes) := apply db
  assertNoEscalation scopes request
  assertHierarchy (getTenantRoleMapping written request.tenantId)
  let removed := removedScopes previous scopes
  let narrowed := decide (removed ≠ [])
  let (revoked, count) :=
    if narrowed then revokeAffectedSessions written request.tenantId request.role else (written, 0)
  let changed := decide (previousSource ≠ source) ||
    decide (String.intercalate " " previous ≠ String.intercalate " " scopes)
  let logged :=
    if changed then
      audit revoked request action (.change request.role source previous scopes removed count)
    else revoked
  return (logged, ⟨request.role, scopes, source, count⟩, narrowed)

/-- `writeMapping`: the transaction, then the sweep of the commit window, in which the
records `window` were saved. -/
def writeMapping (db : Db) (request : RoleScopeWriteRequest) (source : RoleScopeSource)
    (action : AuditAction) (apply : Db → Db × List String) (window : List OidcModel) :
    Except RoleScopeError (Db × RoleScopeWriteResult) := do
  let (committed, result, narrowed) ← writeTransaction db request source action apply
  if !narrowed then return (committed, result)
  else
    let visible := { committed with oidcModels := committed.oidcModels ++ window }
    let (swept, late) := revokeAffectedSessions visible request.tenantId request.role
    if late = 0 then return (swept, result)
    else return (audit swept request .revoke (.commitWindowSweep request.role late),
      { result with revokedRecordCount := result.revokedRecordCount + late })

def replaceRoleScopes (db : Db) (request : RoleScopeWriteRequest) (requested : List String)
    (window : List OidcModel) : Except RoleScopeError (Db × RoleScopeWriteResult) := do
  let scopes := Js.sort (Js.setOf requested)
  assertScopesAssignable request.role scopes
  writeMapping db request .override .update
    (fun db => (upsertTenantRoleScopes db request.tenantId request.role scopes, scopes)) window

def resetRoleScopes (db : Db) (request : RoleScopeWriteRequest) (window : List OidcModel) :
    Except RoleScopeError (Db × RoleScopeWriteResult) := do
  assertRoleMutable request.role
  writeMapping db request .default .delete
    (fun db =>
      let written := deleteTenantRoleScopes db request.tenantId request.role
      (written, (findDefaultRoleScopes written request.role).getD [])) window

/-! ### Runs of writes -/

inductive Call where
  | replace (request : RoleScopeWriteRequest) (scopes : List String) (window : List OidcModel)
  | reset (request : RoleScopeWriteRequest) (window : List OidcModel)

def Call.request : Call → RoleScopeWriteRequest
  | .replace request _ _ => request
  | .reset request _ => request

def exec (db : Db) : Call → Except RoleScopeError (Db × RoleScopeWriteResult)
  | .replace request scopes window => replaceRoleScopes db request scopes window
  | .reset request window => resetRoleScopes db request window

def step (db : Db) (call : Call) : Option Db :=
  match exec db call with
  | .error _ => some db
  | .ok (db', _) => some db'

end VcCommonService.RoleScopes
