import VcCommonService.Oidc.GrantScopes
import VcCommonService.RoleScope.Records
import VcCommonService.Tenant.Model

/-!
# Stored grants and `AuthService.switchTenant`

The rows of `oidc_model` together with the payloads of the `Grant` rows, which hold the
scopes, and the two components that write grants: the interaction controller, and
`switchTenant`, which issues tokens for another membership of the same person.
-/

namespace VcCommonService.Oidc
open Lib Auth TenantUsers RoleScopes Tenants

/-- `grants` is the payload column of the `Grant` rows, by their id. -/
structure Sessions where
  db : Db
  grants : String → Grant

def storeGrant (s : Sessions) (grantId : String) (grant : Grant) : Sessions where
  db := { s.db with
    oidcModels := upsert ⟨"Grant", grantId, grant.accountId, none⟩ s.db.oidcModels }
  grants := Function.update s.grants grantId grant

def mapModels (s : Sessions) (f : List OidcModel → List OidcModel) : Sessions :=
  { s with db := { s.db with oidcModels := f s.db.oidcModels } }

def login (s : Sessions) (clientId accountId : Option String) (prompt : PromptDetails)
    (grantId : String) : Except GrantError Sessions := do
  let grant ← loginGrant s.db clientId accountId prompt
  return storeGrant s grantId grant

/-! ### `switchTenant` -/

inductive SwitchError where
  | forbidden (message : String)
  | notFound (message : String)
  | tenantAccessDenied (message requiredTenantId tokenTenantId : String)
  | tenantNotActive (message : String) (status : TenantStatus)
  deriving Repr, DecidableEq

/-- The claims of the token that `switchTenant` reads, and the requested tenant. -/
structure SwitchRequest where
  sub : String
  tokenType : AuthTokenType
  clientId : Option String
  jti : Option String
  targetTenantId : TenantId
  deriving Repr, DecidableEq

/-- What the rest of the world answers: the status of a tenant that is not deleted, the
registered clients, the configured audience, which records have not expired, and the ids
that the provider draws. -/
structure SwitchEnv where
  tenantStatus : TenantId → Option TenantStatus
  isClient : String → Bool
  audience : String
  live : OidcModel → Bool
  grantId : String
  accessTokenId : String
  refreshTokenId : String

def assertTenantActive : Option TenantStatus → Except SwitchError Unit
  | none => .error (.tenantNotActive
      "Tenant could not be found and cannot perform this action" .deactivated)
  | some status =>
    if status ≠ .active then
      .error (.tenantNotActive ("Tenant is " ++ status.name ++ " and cannot perform this action")
        status)
    else .ok ()

def membershipGrant (db : Db) (audience clientId : String) (membership : TenantUser) : Grant :=
  let roleScopes := findScopesForRole db membership.role (some membership.tenantId)
  { clientId := some clientId, accountId := some membership.id
    oidcScopes := standardOidcScopes ++ roleScopes
    resourceScopes :=
      if (String.intercalate " " roleScopes).length > 0 then [(audience, roleScopes)] else [] }

def issueTokensForMembership (env : SwitchEnv) (s : Sessions) (clientId : String)
    (membership : TenantUser) : Except SwitchError Sessions :=
  if env.isClient clientId then
    let granted := storeGrant s env.grantId (membershipGrant s.db env.audience clientId membership)
    .ok (mapModels granted fun models =>
      upsert ⟨"RefreshToken", env.refreshTokenId, some membership.id, some env.grantId⟩
        (upsert ⟨"AccessToken", env.accessTokenId, some membership.id, some env.grantId⟩ models))
  else .error (.forbidden ("OAuth client not found: " ++ clientId))

def revokeGrant (env : SwitchEnv) (grantId : String) (models : List OidcModel) : List OidcModel :=
  let destroyed :=
    match findModel env.live models "Grant" grantId with
    | none => models
    | some _ => destroy "Grant" grantId models
  revokeByGrantId "RefreshToken" grantId (revokeByGrantId "AccessToken" grantId destroyed)

def resolveSwitch (env : SwitchEnv) (users : List TenantUser) (request : SwitchRequest) :
    Except SwitchError (String × TenantUser × TenantUser) :=
  if request.tokenType ≠ .user then
    .error (.forbidden
      "Machine clients cannot switch tenants; each client_id is bound to one tenant")
  else
    match Js.truthy request.clientId, findById users request.sub with
    | none, _ => .error (.forbidden "Token is missing client_id; cannot switch tenant")
    | some _, none => .error (.notFound (TenantUsers.notFoundMessage request.sub))
    | some clientId, some current =>
      match Js.truthy current.externalUserId with
      | none => .error (.forbidden "Token subject is not linked to an external identity")
      | some externalUserId =>
        let denied := SwitchError.tenantAccessDenied
          "User is not an active member of the target tenant" request.targetTenantId
          current.tenantId
        match findByTenantAndExternalUserId users request.targetTenantId externalUserId with
        | none => .error denied
        | some target =>
          if target.status ≠ .active then .error denied
          else
            match assertTenantActive (env.tenantStatus request.targetTenantId) with
            | .error e => .error e
            | .ok () => .ok (clientId, current, target)

def retireRecords (env : SwitchEnv) (previousGrantId : Option String)
    (current target : TenantUser) (models : List OidcModel) : List OidcModel :=
  let revoked :=
    match previousGrantId with
    | none => models
    | some previous => if previous ≠ env.grantId then revokeGrant env previous models else models
  let rebound := rebindSessionsToAccount current.id target.id revoked
  if current.id ≠ target.id then (deleteAllForAccount rebound current.id).1 else rebound

def switchTenant (env : SwitchEnv) (s : Sessions) (request : SwitchRequest) :
    Except SwitchError Sessions := do
  let (clientId, current, target) ← resolveSwitch env s.db.tenantUsers request
  let existingAccessToken := (Js.truthy request.jti).bind
    (findModel env.live s.db.oidcModels "AccessToken")
  let previousGrantId := Js.truthy (existingAccessToken.bind OidcModel.grantId)
  let issued ← issueTokensForMembership env s clientId target
  return mapModels issued (retireRecords env previousGrantId current target)

end VcCommonService.Oidc
