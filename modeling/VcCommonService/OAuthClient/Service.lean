import VcCommonService.Auth.Scopes
import VcCommonService.Lib.Run
import VcCommonService.Lib.Table

/-!
# OAuth clients (`oauth-client.service.ts`, `oauth-client.repository.ts`)

The operations of `OAuthClientService` as functions from a table to a result, the
checks in the order of the source. A call that throws changes nothing. The identifiers
and secrets that a call draws, the salt of the hash and the clock are part of the call.
-/

namespace VcCommonService.OAuthClients
open Lib Auth

/-! ### Data -/

/-- `OAuthClientRevokedReason`; a revocation for cause carries no reason. -/
inductive OAuthClientRevokedReason where
  | tenantDeactivation
  deriving Repr, DecidableEq

structure OAuthClient where
  id : String
  tenantId : TenantId
  clientId : String
  clientSecretHash : Option String
  isPublic : Bool := false
  name : String
  scopes : List String
  roles : List String
  redirectUris : List String
  grantTypes : List String
  createdBy : Option String
  refreshTokenTtlSeconds : Option ℤ
  revokedAt : Option Time := none
  revokedReason : Option OAuthClientRevokedReason := none
  postLogoutRedirectUris : List String := []
  deriving Repr, DecidableEq

structure CreateOAuthClientDto where
  name : String
  scopes : List String
  roles : Js.Field (List String) := .undefined
  redirectUris : Js.Field (List String) := .undefined
  grantTypes : Js.Field (List String) := .undefined
  refreshTokenTtlSeconds : Js.Field ℤ := .undefined
  deriving Repr, DecidableEq

structure UpdateOAuthClientDto where
  name : Js.Field String := .undefined
  scopes : Js.Field (List String) := .undefined
  roles : Js.Field (List String) := .undefined
  redirectUris : Js.Field (List String) := .undefined
  grantTypes : Js.Field (List String) := .undefined
  refreshTokenTtlSeconds : Js.Field ℤ := .undefined
  deriving Repr, DecidableEq

/-- Deployment configuration and the two functions of `argon2`. -/
structure Env where
  supportedGrantTypes : List String
  scopes : List String
  hash : String → String → String
  verify : String → String → Bool

def machineGrantType : String := "client_credentials"

def oauthClientIdPrefix : String := "dtcs_"

/-! ### Repository -/

def findByClientId (clients : List OAuthClient) (clientId : String) : Option OAuthClient :=
  clients.find? fun c => decide (c.clientId = clientId)

def findByTenantAndClientId (clients : List OAuthClient) (tenantId : TenantId)
    (clientId : String) : Option OAuthClient :=
  clients.find? fun c => decide (c.tenantId = tenantId ∧ c.clientId = clientId)

def checkRow (client : OAuthClient) : Except ServiceError Unit :=
  if client.isPublic ≠ client.clientSecretHash.isNone then
    .error (.constraint "chk_oauth_client_secret_matches_kind")
  else if client.refreshTokenTtlSeconds.any (fun ttl => decide (ttl ≤ 0)) then
    .error (.constraint "chk_oauth_client_refresh_token_ttl_positive")
  else .ok ()

def insertClient (clients : List OAuthClient) (client : OAuthClient) :
    Except ServiceError (List OAuthClient) := do
  checkRow client
  if clients.any fun c => decide (c.id = client.id) then .error (.constraint "oauth_client_pkey")
  else if clients.any fun c => decide (c.clientId = client.clientId) then
    .error (.constraint "uq_oauth_client_client_id")
  else return clients ++ [client]

def saveClient (clients : List OAuthClient) (client : OAuthClient) :
    Except ServiceError (List OAuthClient) := do
  checkRow client
  return Table.save OAuthClient.id client clients

def revoke (clients : List OAuthClient) (id : String) (now : Time) : List OAuthClient :=
  Table.updateWhere (fun c => decide (c.id = id))
    (fun c => { c with revokedAt := some now, revokedReason := none }) clients

def revokeAllForTenant (clients : List OAuthClient) (tenantId : TenantId) (now : Time) :
    List OAuthClient :=
  Table.updateWhere (fun c => decide (c.tenantId = tenantId ∧ c.revokedAt = none))
    (fun c => { c with revokedAt := some now, revokedReason := some .tenantDeactivation }) clients

def restoreAllForTenant (clients : List OAuthClient) (tenantId : TenantId) : List OAuthClient :=
  Table.updateWhere
    (fun c => decide (c.tenantId = tenantId ∧ c.revokedReason = some .tenantDeactivation))
    (fun c => { c with revokedAt := none, revokedReason := none }) clients

/-! ### Checks -/

def requireCaller (auth : Option AuthContext) : Except ServiceError AuthContext :=
  match auth with
  | none => .error (.authenticationRequired "invalid_token"
      "Authenticated request context is missing")
  | some auth => .ok auth

def requireTenantClient (clients : List OAuthClient) (tenantId : TenantId) (clientId : String)
    (active : Bool) : Except ServiceError OAuthClient :=
  match findByTenantAndClientId clients tenantId clientId with
  | none => .error (.notFound ("OAuth client '" ++ clientId ++ "' was not found."))
  | some client =>
    if active && client.revokedAt.isSome then
      .error (.notFound ("OAuth client '" ++ clientId ++ "' was not found."))
    else .ok client

/-- `none` stands for a field that is absent or `null`. -/
def assertSupportedGrantTypes (env : Env) (grantTypes : Option (List String)) :
    Except ServiceError Unit :=
  let unsupported := (grantTypes.getD []).filter fun g => !env.supportedGrantTypes.contains g
  if unsupported ≠ [] then
    .error (.badRequest ("Unsupported grant type(s): " ++ commaJoin unsupported ++
      ". Supported grant type(s): " ++ commaJoin env.supportedGrantTypes ++ "."))
  else .ok ()

def hasPlatformRole (roles : List String) : Bool :=
  roles.any fun role => oauthClientPlatformRoles.contains role

/-- `[...new Set(grantTypes)]` is exactly the machine grant; a `null` list is an empty set. -/
def isMachineOnly (grantTypes : Option (List String)) : Bool :=
  decide (Js.setOf (grantTypes.getD []) = [machineGrantType])

def assertRoleConstraints (roles : List String) (grantTypes : Option (List String))
    (caller : AuthContext) (checkAssignment : Bool) (previousRoles : List String) :
    Except ServiceError Unit :=
  let unknown := roles.filter fun role => !oauthClientAllowedRoles.contains role
  if unknown ≠ [] then
    .error (.badRequest ("Unsupported role(s): " ++ commaJoin unknown ++
      ". Allowed role(s): " ++ commaJoin oauthClientAllowedRoles ++ "."))
  else if checkAssignment && (hasPlatformRole previousRoles != hasPlatformRole roles) &&
      !isPlatformAdmin caller.roles then
    .error (.forbidden
      "Only platform-admin callers may assign or clear platform-level roles on OAuth clients.")
  else if roles = [] then .ok ()
  else if !isMachineOnly grantTypes then
    .error (.badRequest ("Roles may only be assigned to clients restricted to the " ++
      machineGrantType ++ " grant."))
  else .ok ()

def scopeRequest (env : Env) (scopes : List String) (caller : AuthContext) :
    PartitionRequestedScopesInput :=
  { requestedScopes := scopes
    allowedScopes := assignableOAuthClientScopes.filter (env.scopes.contains ·)
    actorScopes := expandEffectiveScopes caller.scopes
    isPlatformAdmin := isPlatformAdmin caller.roles }

def assertAssignableScopes (env : Env) (scopes : List String) (caller : AuthContext) :
    Except ServiceError Unit :=
  if scopes = [] then .error (.badRequest "At least one scope is required.")
  else
    let deniedScopes := (partitionRequestedScopes (scopeRequest env scopes caller)).deniedScopes
    let unknown := deniedScopes.filter fun s => !assignableOAuthClientScopes.contains s
    let notConfigured := deniedScopes.filter fun s => !env.scopes.contains s
    if deniedScopes = [] then .ok ()
    else if unknown ≠ [] then
      .error (.badRequest ("Unsupported scope(s): " ++ commaJoin unknown ++
        ". Allowed scope(s): " ++ commaJoin assignableOAuthClientScopes ++ "."))
    else if notConfigured ≠ [] then
      .error (.badRequest ("Scope(s) not enabled on this deployment: " ++
        commaJoin notConfigured ++ "."))
    else .error (.forbidden ("Cannot assign scope(s) not held by the caller: " ++
      commaJoin deniedScopes ++ "."))

/-! ### Operations -/

/-- What `createClient` draws: the row id, the random part of the client id, the secret
and the salt of its hash. -/
structure Fresh where
  id : String
  randomId : String
  clientSecret : String
  salt : String
  deriving Repr, DecidableEq

def newClient (env : Env) (tenantId : TenantId) (dto : CreateOAuthClientDto)
    (caller : AuthContext) (fresh : Fresh) : OAuthClient :=
  { id := fresh.id, tenantId, clientId := oauthClientIdPrefix ++ fresh.randomId
    clientSecretHash := some (env.hash fresh.salt fresh.clientSecret)
    name := dto.name, scopes := dto.scopes, roles := dto.roles.getD []
    redirectUris := dto.redirectUris.getD [], grantTypes := dto.grantTypes.getD [machineGrantType]
    createdBy := if caller.tokenType = .user then some caller.sub else none
    refreshTokenTtlSeconds := dto.refreshTokenTtlSeconds.assignNullable none }

def createClient (env : Env) (clients : List OAuthClient) (tenantId : TenantId)
    (dto : CreateOAuthClientDto) (auth : Option AuthContext) (fresh : Fresh) :
    Except ServiceError (List OAuthClient × OAuthClient) := do
  let caller ← requireCaller auth
  let client := newClient env tenantId dto caller fresh
  assertSupportedGrantTypes env (some client.grantTypes)
  assertRoleConstraints client.roles (some client.grantTypes) caller dto.roles.isDefined []
  assertAssignableScopes env client.scopes caller
  let clients ← insertClient clients client
  return (clients, client)

/-- A list that the checks of `update` read; reading a property of `null` throws. -/
def readList (field : Js.Field (List String)) (old : List String) :
    Except ServiceError (List String) :=
  match field.assign old with
  | none => .error .typeError
  | some xs => .ok xs

/-- The assignments of `update`; `none` when a `NOT NULL` column became `null`. -/
def applyUpdate (dto : UpdateOAuthClientDto) (client : OAuthClient) : Option OAuthClient := do
  let name ← dto.name.assign client.name
  let scopes ← dto.scopes.assign client.scopes
  let roles ← dto.roles.assign client.roles
  let redirectUris ← dto.redirectUris.assign client.redirectUris
  let grantTypes ← dto.grantTypes.assign client.grantTypes
  return { client with
    name, scopes, roles, redirectUris, grantTypes
    refreshTokenTtlSeconds :=
      dto.refreshTokenTtlSeconds.assignNullable client.refreshTokenTtlSeconds }

def checkUpdate (env : Env) (client : OAuthClient) (dto : UpdateOAuthClientDto)
    (caller : AuthContext) : Except ServiceError Unit := do
  let nextRoles ← readList dto.roles client.roles
  assertRoleConstraints nextRoles (dto.grantTypes.assign client.grantTypes) caller
    dto.roles.isDefined client.roles
  if dto.scopes.isDefined then
    let scopes ← readList dto.scopes client.scopes
    assertAssignableScopes env scopes caller

def update (env : Env) (clients : List OAuthClient) (tenantId : TenantId) (clientId : String)
    (dto : UpdateOAuthClientDto) (auth : Option AuthContext) :
    Except ServiceError (List OAuthClient × OAuthClient) := do
  let caller ← requireCaller auth
  assertSupportedGrantTypes env (dto.grantTypes.assign [])
  let client ← requireTenantClient clients tenantId clientId true
  checkUpdate env client dto caller
  match applyUpdate dto client with
  | none => throw (.constraint "not_null")
  | some entity =>
    let clients ← saveClient clients entity
    return (clients, entity)

def revokeClient (clients : List OAuthClient) (tenantId : TenantId) (clientId : String)
    (now : Time) : Except ServiceError (List OAuthClient) := do
  let client ← requireTenantClient clients tenantId clientId false
  if client.revokedAt.isSome then return clients
  else return revoke clients client.id now

def rotateSecret (env : Env) (clients : List OAuthClient) (tenantId : TenantId)
    (clientId clientSecret salt : String) :
    Except ServiceError (List OAuthClient × OAuthClient) := do
  let client ← requireTenantClient clients tenantId clientId true
  let entity := { client with clientSecretHash := some (env.hash salt clientSecret) }
  let clients ← saveClient clients entity
  return (clients, entity)

def verifyClientSecret (env : Env) (clients : List OAuthClient) (clientId clientSecret : String) :
    Except ServiceError Bool :=
  match findByClientId clients clientId with
  | none => .error (.notFound ("OAuth client with ID '" ++ clientId ++ "' was not found."))
  | some client =>
    if client.revokedAt.isSome then .ok false
    else match client.clientSecretHash with
      | none => .ok false
      | some hash => .ok (env.verify hash clientSecret)

/-! ### Runs of calls -/

inductive Call where
  | createClient (tenantId : TenantId) (dto : CreateOAuthClientDto) (fresh : Fresh)
  | update (tenantId : TenantId) (clientId : String) (dto : UpdateOAuthClientDto)
  | rotateSecret (tenantId : TenantId) (clientId clientSecret salt : String)
  | revokeClient (tenantId : TenantId) (clientId : String) (now : Time)
  | revokeAllForTenant (tenantId : TenantId) (now : Time)
  | restoreAllForTenant (tenantId : TenantId)
  deriving Repr, DecidableEq

structure Request where
  auth : Option AuthContext
  call : Call
  deriving Repr, DecidableEq

inductive Response where
  | secret (client : OAuthClient) (clientSecret : String)
  | client (client : OAuthClient)
  | nothing
  deriving Repr, DecidableEq

def exec (env : Env) (clients : List OAuthClient) (request : Request) :
    Except ServiceError (List OAuthClient × Response) :=
  match request.call with
  | .createClient tenantId dto fresh => do
    let (clients, client) ← createClient env clients tenantId dto request.auth fresh
    return (clients, .secret client fresh.clientSecret)
  | .update tenantId clientId dto => do
    let (clients, client) ← update env clients tenantId clientId dto request.auth
    return (clients, .client client)
  | .rotateSecret tenantId clientId clientSecret salt => do
    let (clients, client) ← rotateSecret env clients tenantId clientId clientSecret salt
    return (clients, .secret client clientSecret)
  | .revokeClient tenantId clientId now => do
    let clients ← revokeClient clients tenantId clientId now
    return (clients, .nothing)
  | .revokeAllForTenant tenantId now => return (revokeAllForTenant clients tenantId now, .nothing)
  | .restoreAllForTenant tenantId => return (restoreAllForTenant clients tenantId, .nothing)

structure History where
  clients : List OAuthClient
  log : List (Request × Response)

def step (env : Env) (h : History) (request : Request) : Option History :=
  match exec env h.clients request with
  | .error _ => some h
  | .ok (clients, response) => some ⟨clients, h.log ++ [(request, response)]⟩

/-- An environment for evaluated runs: the hash keeps its salt in front of the secret. -/
def argonEnv : Env :=
  { supportedGrantTypes := [machineGrantType], scopes := assignableOAuthClientScopes
    hash := fun salt secret => salt ++ ":" ++ secret
    verify := fun hash secret =>
      decide (hash.toList.dropWhile (fun c => c != ':') = (":" ++ secret).toList) }

end VcCommonService.OAuthClients
