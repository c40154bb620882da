import VcCommonService.Lib.Select
import VcCommonService.Tenant.Model

/-!
# Reserved keys of the tenant configuration (`tenant.controller.ts`, `rate-limit-tier.ts`)

`PATCH /tenants/:id/config` merges the keys it knows and leaves `rate_limits` and
`operation_ttl` alone. `PATCH /tenants/:id` has the same guards and replaces the whole
configuration, reserved keys and all.
-/

namespace VcCommonService.Tenants
open Lib Auth

/-! ### `resolveRateLimitTier` -/

inductive RateLimitTier where
  | standard
  | premium
  deriving Repr, DecidableEq

/-- An array is an object too and has no `tier`. -/
def resolveRateLimitTier (config : Option Json.Members) : RateLimitTier :=
  match config.bind (Json.get · "rate_limits") with
  | some (.obj rateLimits) =>
    if Json.get rateLimits "tier" = some (.str "premium") then .premium else .standard
  | _ => .standard

/-! ### Guards -/

inductive RouteError where
  | authenticationRequired (code message : String)
  | insufficientScope (message : String) (requiredScopes : List String)
  | tenantNotActive (message : String) (status : TenantStatus)
  | tenantAccessDenied (denied : TenantAccessDenied)
  | service (error : ServiceError)
  deriving Repr, DecidableEq

/-- The tenants that are not deleted, and the connectors that `updateConfig` reads. -/
structure TenantTables where
  tenants : List Tenant
  credentials : List ConnectorCredential

def findTenant (db : TenantTables) (id : TenantId) : Option Tenant :=
  Table.lookup Tenant.id id db.tenants

def hasRequiredScopes (tokenScopes requiredScopes : List String) : Bool :=
  requiredScopes.all fun scope => (expandEffectiveScopes tokenScopes).contains scope

/-- `ScopeGuard` with required scopes and no required roles. -/
def scopeGuard (auth : Option AuthContext) (requiredScopes : List String) :
    Except RouteError Unit :=
  match auth with
  | none => .error (.authenticationRequired "invalid_token"
      "Authenticated request context is missing")
  | some auth =>
    if isPlatformAdmin auth.roles || hasRequiredScopes auth.scopes requiredScopes then .ok ()
    else .error (.insufficientScope ("Token missing required scope: " ++ commaJoin requiredScopes)
      requiredScopes)

def assertTenantActive : Option Tenant → Except RouteError Unit
  | none => .error (.tenantNotActive
      "Tenant could not be found and cannot perform this action" .deactivated)
  | some tenant =>
    if tenant.status ≠ .active then
      .error (.tenantNotActive
        ("Tenant is " ++ tenant.status.name ++ " and cannot perform this action") tenant.status)
    else .ok ()

def tenantStatusGuard (db : TenantTables) (auth : Option AuthContext) : Except RouteError Unit :=
  match auth with
  | none => .error (.authenticationRequired "invalid_token"
      "Authenticated request context is missing")
  | some auth =>
    if isPlatformAdmin auth.roles then .ok ()
    else
      match Js.truthy auth.tenantId with
      | none => .ok ()
      | some tenantId => assertTenantActive (findTenant db tenantId)

/-- What stands before the service on both routes. -/
def routeGuards (db : TenantTables) (id : TenantId) (auth : Option AuthContext) :
    Except RouteError Unit := do
  scopeGuard auth [tenantSuperuserScope]
  tenantStatusGuard db auth
  (assertTenantAccess auth id).mapError .tenantAccessDenied

/-! ### Service -/

def requireTenant (db : TenantTables) (id : TenantId) : Except RouteError Tenant :=
  match findTenant db id with
  | none => .error (.service (.notFound findByIdMessage))
  | some tenant => .ok tenant

def saveTenant (db : TenantTables) (entity : Tenant) : TenantTables :=
  { db with tenants := Table.save Tenant.id entity db.tenants }

def updateTenant (db : TenantTables) (id : TenantId) (dto : UpdateTenantDto) :
    Except RouteError TenantTables := do
  let tenant ← requireTenant db id
  match applyUpdate dto tenant with
  | none => .error (.service (.constraint "not_null"))
  | some entity => return saveTenant db entity

def checkDefaultConnector (db : TenantTables) (tenant : Tenant) (dto : UpdateTenantConfigDto)
    (auth : Option AuthContext) : Except RouteError Unit :=
  match dto.defaultConnector with
  | .value connectorId =>
    (checkConnector tenant auth connectorId
      (Table.lookup ConnectorCredential.id connectorId db.credentials)).mapError .service
  | _ => .ok ()

def updateTenantConfig (db : TenantTables) (id : TenantId) (dto : UpdateTenantConfigDto)
    (auth : Option AuthContext) : Except RouteError TenantTables := do
  let tenant ← requireTenant db id
  checkDefaultConnector db tenant dto auth
  return saveTenant db { tenant with config := mergeConfig dto tenant.config }

inductive TenantRequest where
  | update (id : TenantId) (dto : UpdateTenantDto) (auth : Option AuthContext)
  | updateConfig (id : TenantId) (dto : UpdateTenantConfigDto) (auth : Option AuthContext)

def respond (db : TenantTables) : TenantRequest → Except RouteError TenantTables
  | .update id dto auth => do
    routeGuards db id auth
    updateTenant db id dto
  | .updateConfig id dto auth => do
    routeGuards db id auth
    updateTenantConfig db id dto auth

/-- A refused request changes nothing. -/
def serve (db : TenantTables) (request : TenantRequest) : Option TenantTables :=
  match respond db request with
  | .error _ => some db
  | .ok db' => some db'

/-! ### The reserved keys -/

def reserved (tenant : Tenant) : Option Json × Option Json :=
  (Json.read tenant.config "rate_limits", Json.read tenant.config "operation_ttl")

/-- Every tenant keeps its reserved keys, and with them its rate limit. -/
structure ReservedKept (db db' : TenantTables) : Prop where
  reserved : ∀ id, (findTenant db' id).map reserved = (findTenant db id).map reserved
  tier : ∀ id, (findTenant db' id).map (fun t => resolveRateLimitTier (some t.config)) =
    (findTenant db id).map fun t => resolveRateLimitTier (some t.config)

/-- An update that goes through and gives a configuration repeats the reserved keys. -/
def RepeatsReserved (db : TenantTables) : TenantRequest → Prop
  | .update id dto auth =>
    routeGuards db id auth = .ok () → dto.name ≠ .null → ∀ tenant, findTenant db id = some tenant →
      ∀ config, dto.config = .value config →
        Json.read config "rate_limits" = Json.read tenant.config "rate_limits" ∧
        Json.read config "operation_ttl" = Json.read tenant.config "operation_ttl"
  | .updateConfig _ _ _ => True

section Steps

variable {db db' : TenantTables}

theorem tier_of_read {a b : Json.Members}
    (h : Json.read a "rate_limits" = Json.read b "rate_limits") :
    resolveRateLimitTier (some a) = resolveRateLimitTier (some b) := by
  have hread : ∀ config : Json.Members, resolveRateLimitTier (some config) =
      match Json.read config "rate_limits" with
      | some (.obj rateLimits) =>
        if Json.get rateLimits "tier" = some (.str "premium") then .premium else .standard
      | _ => .standard := by
    intro config
    simp only [resolveRateLimitTier, Option.bind_some, Json.read]
    cases hget : Json.get config "rate_limits" with
    | none => rfl
    | some value =>
      cases value with
      | obj rateLimits =>
        simp only [Option.map_some, Json.canon, Json.get_canonMembers, Json.read]
        refine if_congr ?_ rfl rfl
        cases Json.get rateLimits "tier" with
        | none => simp
        | some tier => cases tier <;> simp [Json.canon]
      | _ => rfl
  rw [hread, hread, h]

theorem reservedKept_save {tenant entity : Tenant} (hfind : findTenant db entity.id = some tenant)
    (h : reserved entity = reserved tenant) : ReservedKept db (saveTenant db entity) := by
  have hsaved : ∀ id, findTenant (saveTenant db entity) id =
      if entity.id = id then some entity else findTenant db id := fun id =>
    Table.lookup_save entity id db.tenants
  constructor
  · intro id
    rw [hsaved]
    split
    next hid =>
      rw [← hid, hfind, Option.map_some, Option.map_some, h]
    next => rfl
  · intro id
    rw [hsaved]
    split
    next hid =>
      rw [← hid, hfind, Option.map_some, Option.map_some]
      exact congrArg some (tier_of_read (congrArg Prod.fst h))
    next => rfl

theorem reserved_mergeConfig (dto : UpdateTenantConfigDto) (tenant : Tenant) :
    reserved { tenant with config := mergeConfig dto tenant.config } = reserved tenant := by
  have hkeys : ∀ key ∈ keysOf dto,
      key ∈ ["allowed_formats", "default_connector", "features"] := by
    intro key hkey
    simp only [keysOf, settings, List.map_append, List.mem_append] at hkey
    rcases hkey with (h | h) | h <;> simp [key_of_mem_setting h]
  have hreserved : ∀ key, key ∉ ["allowed_formats", "default_connector", "features"] →
      Json.read (mergeConfig dto tenant.config) key = Json.read tenant.config key :=
    fun key hkey => read_mergeConfig_other dto tenant.config fun hmem => hkey (hkeys key hmem)
  exact Prod.ext (hreserved "rate_limits" (by decide)) (hreserved "operation_ttl" (by decide))

theorem reservedKept_refl (db : TenantTables) : ReservedKept db db := ⟨fun _ => rfl, fun _ => rfl⟩

theorem requireTenant_ok {id : TenantId} {tenant : Tenant} (h : requireTenant db id = .ok tenant) :
    findTenant db id = some tenant ∧ tenant.id = id := by
  unfold requireTenant at h
  split at h
  · cases h
  next found hfind =>
    cases h
    exact ⟨hfind, by simpa using List.find?_some hfind⟩

theorem updateTenantConfig_kept {id : TenantId} {dto : UpdateTenantConfigDto}
    {auth : Option AuthContext} (h : updateTenantConfig db id dto auth = .ok db') :
    ReservedKept db db' := by
  obtain ⟨tenant, htenant, hchecked⟩ := bind_eq_ok.mp h
  obtain ⟨hfind, rfl⟩ := requireTenant_ok htenant
  obtain ⟨_, _, hsaved⟩ := bind_eq_ok.mp hchecked
  cases hsaved
  exact reservedKept_save hfind (reserved_mergeConfig dto tenant)

theorem updateTenant_kept_iff {id : TenantId} {dto : UpdateTenantDto} {tenant entity : Tenant}
    (hfind : findTenant db id = some tenant) (hentity : applyUpdate dto tenant = some entity) :
    ReservedKept db (saveTenant db entity) ↔
      ∀ config, dto.config = .value config →
        Json.read config "rate_limits" = Json.read tenant.config "rate_limits" ∧
        Json.read config "operation_ttl" = Json.read tenant.config "operation_ttl" := by
  have hid : tenant.id = id := by simpa using List.find?_some hfind
  simp only [applyUpdate, Option.bind_eq_bind, Option.bind_eq_some_iff, Option.pure_def,
    Option.some.injEq] at hentity
  obtain ⟨name, -, config, hconfig, rfl⟩ := hentity
  subst hid
  have hiff : ∀ entity : Tenant, entity.id = tenant.id → (ReservedKept db (saveTenant db entity) ↔
      reserved entity = reserved tenant) := by
    intro entity heid
    refine ⟨fun hkept => ?_, fun h => reservedKept_save (heid ▸ hfind) h⟩
    have hread := hkept.reserved entity.id
    rw [heid, hfind, findTenant, saveTenant, Table.lookup_save, if_pos heid] at hread
    exact Option.some.inj hread
  refine (hiff _ ?_).trans ?_
  · rfl
  rcases Js.Field.assign_cases hconfig with hvalue | ⟨hundefined, rfl⟩
  · simp only [hvalue, reserved, Prod.mk.injEq, Js.Field.value.injEq, forall_eq']
  · simp [hundefined, reserved]

theorem exists_applyUpdate {dto : UpdateTenantDto} {config : Json.Members} (tenant : Tenant)
    (hname : dto.name ≠ .null) (hconfig : dto.config = .value config) :
    ∃ entity, applyUpdate dto tenant = some entity := by
  cases hn : dto.name with
  | undefined => simp [applyUpdate, hn, hconfig, Js.Field.assign]
  | null => exact absurd hn hname
  | value name => simp [applyUpdate, hn, hconfig, Js.Field.assign]

theorem name_ne_null_of_applyUpdate {dto : UpdateTenantDto} {tenant entity : Tenant}
    (h : applyUpdate dto tenant = some entity) : dto.name ≠ .null := by
  intro hnull
  simp [applyUpdate, hnull, Js.Field.assign] at h

/-- A request keeps the reserved keys of every tenant if and only if it repeats them. -/
theorem reservedKept_iff {request : TenantRequest} (h : serve db request = some db') :
    ReservedKept db db' ↔ RepeatsReserved db request := by
  cases request with
  | updateConfig id dto auth =>
    refine iff_of_true ?_ trivial
    simp only [serve] at h
    split at h
    · cases h
      exact reservedKept_refl db
    next saved hsaved =>
      cases h
      obtain ⟨-, -, hsaved⟩ := bind_eq_ok.mp hsaved
      exact updateTenantConfig_kept hsaved
  | update id dto auth =>
    simp only [serve] at h
    split at h
    next e hrefused =>
      cases h
      refine iff_of_true (reservedKept_refl db) fun hadmit hname tenant hfind config hconfig => ?_
      -- such a request is not refused
      obtain ⟨entity, hentity⟩ := exists_applyUpdate tenant hname hconfig
      simp [respond, hadmit, updateTenant, requireTenant, hfind, hentity, bind, Except.bind, pure,
        Except.pure] at hrefused
    next saved hsaved =>
      cases h
      obtain ⟨⟨⟩, hadmit, hsaved⟩ := bind_eq_ok.mp hsaved
      obtain ⟨tenant, htenant, hsaved⟩ := bind_eq_ok.mp hsaved
      obtain ⟨hfind, -⟩ := requireTenant_ok htenant
      split at hsaved
      · cases hsaved
      next entity hentity =>
        cases hsaved
        rw [updateTenant_kept_iff hfind hentity]
        constructor
        · intro hall _ _ found hfound
          rw [hfind] at hfound
          cases hfound
          exact hall
        · intro hall
          exact hall hadmit (name_ne_null_of_applyUpdate hentity) tenant hfind

end Steps

/-! ### Runs -/

/-- In every sequence of requests the reserved keys never change if and only if every update that
goes through with a configuration repeats them. -/
theorem reserved_config_iff (db : TenantTables) (requests : List TenantRequest) :
    Run.All serve (fun db _ db' => ReservedKept db db') db requests ↔
      Run.All serve (fun db request _ => RepeatsReserved db request) db requests := by
  symm
  exact Run.all_iff_of_invariant (fun _ => True)
    (fun _ _ _ _ hserve => (reservedKept_iff hserve).symm) (fun _ _ _ _ _ _ => trivial) trivial

/-- The caller holds the superuser scope of the tenant and is no platform operator. -/
def ByTenantAdmin : TenantRequest → Prop
  | .update id _ auth | .updateConfig id _ auth =>
    ∃ a, auth = some a ∧ isPlatformAdmin a.roles = false ∧ a.tenantId = some id ∧
      tenantSuperuserScope ∈ a.scopes

def tenantAdmin : AuthContext := ⟨"u", .user, some "t", ["owner"], [tenantSuperuserScope]⟩

def standardTenant : Tenant := ⟨"t", "Acme", "acme", none, .active, [], none⟩

def premiumConfig : Json.Members := [("rate_limits", .obj [("tier", .str "premium")])]

/-- A tenant's own administrator raises its tier with the general update. -/
theorem reserved_config_changed : ¬ ∀ (db : TenantTables) (requests : List TenantRequest),
    Table.UniqueKeys Tenant.id db.tenants → (∀ r ∈ requests, ByTenantAdmin r) →
    Run.All serve (fun db _ db' => ReservedKept db db') db requests := by
  intro hall
  have hadmin : ∀ r ∈ [TenantRequest.update "t" { config := .value premiumConfig } tenantAdmin],
      ByTenantAdmin r := by
    intro r hr
    rw [List.mem_singleton.mp hr]
    exact ⟨tenantAdmin, rfl, by decide, rfl, by decide⟩
  have hrun := hall ⟨[standardTenant], []⟩ _ (by decide) hadmin
  obtain ⟨db', hserve, hkept, -⟩ := hrun
  cases hserve
  exact absurd (hkept.tier "t") (by decide)

end VcCommonService.Tenants
