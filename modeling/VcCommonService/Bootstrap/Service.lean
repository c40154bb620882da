import VcCommonService.OAuthClient.Authentication
import VcCommonService.OAuthClient.Interleaving
import VcCommonService.Tenant.Model

/-!
# Bootstrap of an environment (`bootstrap.service.ts`)

`EnvironmentBootstrapService.run` statement by statement. Each run is a process of its own: it may
die between two statements, and several may be under way, next to the client operations of the
API. All of them name the slug of the environment, so the tenant that a client is loaded with is
the one that the run has found.
-/

namespace VcCommonService.Bootstrap
open Lib Auth OAuthClients Tenants

def uiClientId : String := "dtsc-ui"
def adminClientId : String := "dtsc-platform-admin"
def uiCallbackPath : String := "/auth/callback"
def uiPostLogoutPath : String := "/login"

/-- The arguments that every run of the environment is given, and the origin of its issuer. -/
structure Settings where
  slug : String
  name : String
  origin : String

/-- The rows of both tables; the tenants are those that are not deleted. `stored` is history: the
secrets whose hash a statement has written to the administration client, in order. -/
structure Db where
  tenants : List Tenant
  clients : List OAuthClient
  stored : List String := []

def Settings.redirectUris (conf : Settings) : List String := [conf.origin ++ uiCallbackPath]

/-! ### Tenants -/

def findBySlug (tenants : List Tenant) (slug : String) : Option Tenant :=
  tenants.find? fun t => decide (t.slug = slug)

def insertTenant (tenants : List Tenant) (tenant : Tenant) : Except ServiceError (List Tenant) :=
  if tenants.any fun t => decide (t.id = tenant.id) then .error (.constraint "tenant_pkey")
  else if tenants.any fun t => decide (t.slug = tenant.slug) then
    .error (.constraint "idx_tenant_slug")
  else .ok (tenants ++ [tenant])

def newTenant (conf : Settings) (id : String) : Tenant :=
  { id, name := conf.name, slug := conf.slug, description := none, status := .active, config := []
    deactivatedAt := none }

/-! ### Clients -/

/-- What the columns of `new OAuthClient()` become when it is inserted. -/
def newOAuthClient : OAuthClient :=
  { id := "", tenantId := "", clientId := "", clientSecretHash := none, name := "", scopes := []
    roles := [], redirectUris := [], grantTypes := [machineGrantType], createdBy := none
    refreshTokenTtlSeconds := none }

def uiFields (conf : Settings) (tenantId : TenantId) (client : OAuthClient) : OAuthClient :=
  { client with
    tenantId, name := "Digital Trust Common Service UI", isPublic := true
    clientSecretHash := none, scopes := ["openid", "profile", "email", "tenant", "offline_access"]
    grantTypes := ["authorization_code", "refresh_token"], redirectUris := conf.redirectUris
    postLogoutRedirectUris := [conf.origin ++ uiPostLogoutPath]
    clientId := uiClientId, revokedAt := none }

def adminFields (env : Env) (tenantId : TenantId) (secret salt : String) (client : OAuthClient) :
    OAuthClient :=
  { client with
    tenantId, name := "Platform administration", clientSecretHash := some (env.hash salt secret)
    scopes := [tenantSuperuserScope], roles := [platformAdminRole]
    grantTypes := ["client_credentials"], redirectUris := []
    clientId := adminClientId, revokedAt := none }

/-- A `save` under way: a new entity is inserted, a loaded one is compared with the row as the
save reads it. -/
inductive Save where
  | insert (entity : OAuthClient)
  | select (entity : OAuthClient)
  | write (entity row : OAuthClient)

/-- `upsertClient` up to its `save`. -/
def upsertClient (clients : List OAuthClient) (clientId : String)
    (assign : OAuthClient → OAuthClient) : Save :=
  match findByClientId clients clientId with
  | none => .insert (assign newOAuthClient)
  | some client => .select (assign client)

/-- One statement of a `save`; no statement deletes a row, so it finds its own. -/
def saveStep (clients : List OAuthClient) (id : String) :
    Save → Option (Except ServiceError (List OAuthClient × Option Save))
  | .insert entity =>
    match insertClient clients { entity with id } with
    | .error e => some (.error e)
    | .ok clients => some (.ok (clients, none))
  | .select entity =>
    match findById clients entity.id with
    | none => none
    | some row => some (.ok (clients, some (.write entity row)))
  | .write entity row =>
    match findById clients entity.id with
    | none => none
    | some current =>
      match saveClient clients (writeColumns row entity current) with
      | .error e => some (.error e)
      | .ok clients => some (.ok (clients, none))

/-- Whether the statement writes the column of the hash. -/
def Save.writesHash : Save → Bool
  | .insert _ => true
  | .select _ => false
  | .write entity row => decide (entity.clientSecretHash ≠ row.clientSecretHash)

/-! ### A run -/

structure BootstrapResult where
  tenantId : TenantId
  redirectUris : List String
  adminClientSecret : Option String
  deriving DecidableEq

inductive Process where
  | idle
  | findTenant (rotateAdminSecret : Bool)
  | createTenant (rotateAdminSecret : Bool)
  | findUi (rotateAdminSecret : Bool) (tenantId : TenantId)
  | saveUi (rotateAdminSecret : Bool) (tenantId : TenantId) (save : Save)
  | lookAdmin (tenantId : TenantId)
  | findAdmin (tenantId : TenantId)
  | saveAdmin (tenantId : TenantId) (secret : String) (save : Save)
  | returned (result : BootstrapResult)
  | failed (e : ServiceError)

/-- What a statement may draw: the id of an inserted row, a secret and the salt of its hash. -/
structure Drawn where
  id : String
  secret : String
  salt : String

/-- `exit` is the end of a process, wherever it is. A request to the API and the creation of a
tenant there are whole operations. -/
inductive Event where
  | run (rotateAdminSecret : Bool)
  | statement (drawn : Drawn)
  | exit
  | request (request : Request)
  | createTenant (tenant : Tenant)

def afterUi (rotateAdminSecret : Bool) (tenantId : TenantId) : Process :=
  if rotateAdminSecret then .findAdmin tenantId else .lookAdmin tenantId

def statement (env : Env) (conf : Settings) (db : Db) (drawn : Drawn) :
    Process → Option (Db × Process)
  | .findTenant rotate =>
    match findBySlug db.tenants conf.slug with
    | some tenant => some (db, .findUi rotate tenant.id)
    | none => some (db, .createTenant rotate)
  | .createTenant rotate =>
    match insertTenant db.tenants (newTenant conf drawn.id) with
    | .error e => some (db, .failed e)
    | .ok tenants => some ({ db with tenants }, .findUi rotate drawn.id)
  | .findUi rotate tenantId =>
    some (db, .saveUi rotate tenantId
      (upsertClient db.clients uiClientId (uiFields conf tenantId)))
  | .saveUi rotate tenantId save =>
    match saveStep db.clients drawn.id save with
    | none => none
    | some (.error e) => some (db, .failed e)
    | some (.ok (clients, some save)) => some ({ db with clients }, .saveUi rotate tenantId save)
    | some (.ok (clients, none)) => some ({ db with clients }, afterUi rotate tenantId)
  | .lookAdmin tenantId =>
    match findByClientId db.clients adminClientId with
    | some _ => some (db, .returned ⟨tenantId, conf.redirectUris, none⟩)
    | none => some (db, .findAdmin tenantId)
  | .findAdmin tenantId =>
    some (db, .saveAdmin tenantId drawn.secret
      (upsertClient db.clients adminClientId (adminFields env tenantId drawn.secret drawn.salt)))
  | .saveAdmin tenantId secret save =>
    match saveStep db.clients drawn.id save with
    | none => none
    | some (.error e) => some (db, .failed e)
    | some (.ok (clients, some save)) =>
      some ({ db with clients }, .saveAdmin tenantId secret save)
    | some (.ok (clients, none)) =>
      some (⟨db.tenants, clients, if save.writesHash then db.stored ++ [secret] else db.stored⟩,
        .returned ⟨tenantId, conf.redirectUris, some secret⟩)
  | .idle | .returned _ | .failed _ => none

def processAct (env : Env) (conf : Settings) (db : Db) :
    Process → Event → Option (Db × Process)
  | .idle, .run rotate => some (db, .findTenant rotate)
  | .idle, .request request =>
    match exec env db.clients request with
    | .error _ => some (db, .idle)
    | .ok (clients, response) =>
      some (⟨db.tenants, clients,
        db.stored ++ (issuedSecret adminClientId (request, response)).toList⟩, .idle)
  | .idle, .createTenant tenant =>
    match insertTenant db.tenants tenant with
    | .error _ => some (db, .idle)
    | .ok tenants => some ({ db with tenants }, .idle)
  | process, .statement drawn => statement env conf db drawn process
  | _, .exit => some (db, .idle)
  | _, _ => none

abbrev World := Run.World Db Process

def step (env : Env) (conf : Settings) : World → ℕ × Event → Option World :=
  Run.interleave (processAct env conf)

end VcCommonService.Bootstrap
