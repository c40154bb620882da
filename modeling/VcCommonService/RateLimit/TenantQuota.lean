import VcCommonService.Auth.Token
import VcCommonService.RateLimit.Keys
import VcCommonService.Tenant.ReservedConfig

/-!
# The guards of a tenant route and the quota of the tenant

`RateLimitGuard` counts every request by its address, before it is authenticated;
`TenantTierRateLimitGuard` comes last and counts by the tenant that `TenantGuard` stamped. Both
count in one table, so requests that give the id of a tenant for their address are counted against
the tenant, whoever sent them.
-/

namespace VcCommonService.RateLimits
open Lib Auth Tenants

/-! ### Configuration and requests -/

/-- The `RATE_LIMIT_*` settings, with limits that are whole numbers. -/
structure RateConfig where
  enabled : Bool
  windowMs : ℤ
  globalPerMinute : ℕ
  standardPerMinute : ℕ
  premiumPerMinute : ℕ
  deriving Repr, DecidableEq

def RateConfig.tierLimit (config : RateConfig) : RateLimitTier → ℕ
  | .premium => config.premiumPerMinute
  | .standard => config.standardPerMinute

/-- A request to a route below `tenants/:tenantId`. `ip` is `req.ip`, `authorization` the header
and `verifyAccessToken` what the library makes of a token now. -/
structure RouteRequest where
  ip : Option String
  routeKey : String
  authorization : Option String
  verifyAccessToken : String → Except VerifyError Json.Members
  requiredRoles : Option (List String) := none
  requiredScopes : Option (List String) := none
  tenantIdParam : Option String

/-- With the instants at which the guards look at the clock and insert their hits. -/
structure TimedRequest extends RouteRequest where
  addressAt : Time
  addressRecordedAt : Time
  quotaAt : Time
  quotaRecordedAt : Time

structure RateService where
  tables : TenantTables
  ledger : Ledger

inductive Refusal where
  | service (error : ServiceError)
  | guard (exception : GuardException)
  | route (error : RouteError)
  | throttled (retryAfter : ℤ)
  deriving Repr, DecidableEq

/-! ### The guards -/

/-- The key of `RateLimitGuard`: the tracker is the address of the request. -/
def RouteRequest.addressKey (r : RouteRequest) : String :=
  buildRateLimitKey (r.ip.getD "unknown") r.routeKey

def addressCall (config : RateConfig) (r : TimedRequest) : IncrementCall :=
  { key := r.addressKey, ttl := config.windowMs
    limit := config.globalPerMinute, blockDuration := config.windowMs
    calledAt := r.addressAt, recordedAt := r.addressRecordedAt }

def tierOf (tables : TenantTables) (tenantId : TenantId) : RateLimitTier :=
  resolveRateLimitTier ((findTenant tables tenantId).map Tenant.config)

def quotaCall (config : RateConfig) (tables : TenantTables) (tenantId : TenantId)
    (r : TimedRequest) : IncrementCall :=
  { key := buildRateLimitKey tenantId r.routeKey, ttl := config.windowMs
    limit := config.tierLimit (tierOf tables tenantId), blockDuration := config.windowMs
    calledAt := r.quotaAt, recordedAt := r.quotaRecordedAt }

/-- `JwtGuard`, `ScopeGuard`, `TenantGuard` and `TenantStatusGuard`: the stamped tenant. -/
def authorize (tables : TenantTables) (r : RouteRequest) : Except Refusal (Option TenantId) := do
  let auth ← (jwtGuard r.verifyAccessToken r.authorization).mapError .service
  (Auth.scopeGuard (some auth.toAuthContext) r.requiredRoles r.requiredScopes).mapError .guard
  let tenantId ← (tenantGuard (some auth.toAuthContext) r.tenantIdParam).mapError .guard
  (tenantStatusGuard tables (some auth.toAuthContext)).mapError .route
  return tenantId

def refused (record : RateLimitStorageRecord) : Except Refusal Unit :=
  if record.isBlocked then .error (.throttled record.timeToBlockExpire) else .ok ()

/-- `RateLimitGuard`, with its calls in turn. -/
def addressGuard (config : RateConfig) (s : RateService) (r : TimedRequest) :
    RateService × Except Refusal Unit :=
  if !config.enabled then (s, .ok ())
  else
    match increment s.ledger (addressCall config r) with
    | .error e => (s, .error (.service e))
    | .ok (ledger, record) => ({ s with ledger }, refused record)

/-- `TenantTierRateLimitGuard` for a stamped tenant. -/
def tierGuard (config : RateConfig) (s : RateService) (tenantId : TenantId) (r : TimedRequest) :
    RateService × Except Refusal Unit :=
  if !config.enabled then (s, .ok ())
  else
    match increment s.ledger (quotaCall config s.tables tenantId r) with
    | .error e => (s, .error (.service e))
    | .ok (ledger, record) => ({ s with ledger }, refused record)

/-- The guards of the controller. -/
def controllerGuards (config : RateConfig) (s : RateService) (r : TimedRequest) :
    RateService × Except Refusal Unit :=
  match authorize s.tables r.toRouteRequest with
  | .error refusal => (s, .error refusal)
  | .ok tenantId =>
    match Js.truthy tenantId with
    | none => (s, .ok ())
    | some tenantId => tierGuard config s tenantId r

def handle (config : RateConfig) (s : RateService) (r : TimedRequest) :
    RateService × Except Refusal Unit :=
  match addressGuard config s r with
  | (s, .error refusal) => (s, .error refusal)
  | (s, .ok ()) => controllerGuards config s r

/-- Requests one after the other. -/
def handleAll (config : RateConfig) (s : RateService) (rs : List TimedRequest) : RateService :=
  rs.foldl (fun s r => (handle config s r).1) s

/-- The request carries a token that has the scopes of the route and is a platform admin's or
one of the tenant, which is active. -/
def Entitled (tables : TenantTables) (r : RouteRequest) (tenantId : TenantId) : Prop :=
  ∃ auth, jwtGuard r.verifyAccessToken r.authorization = .ok auth ∧
    Auth.scopeGuard (some auth.toAuthContext) r.requiredRoles r.requiredScopes = .ok () ∧
    (isPlatformAdmin auth.roles = true ∨ auth.tenantId = some tenantId ∧
      ∃ tenant, findTenant tables tenantId = some tenant ∧ tenant.status = .active)

/-! ### What the guards do -/

section Guards

variable {config : RateConfig} {s : RateService} {tenantId : TenantId}

theorem increment_key (db : Ledger) {c : IncrementCall} {b : Bucket}
    (hkey : c.key = buildRateLimitKey b.tracker b.routeKey) :
    ∃ db', increment db c = .ok (db', Increment.record ⟨b, c.ttl, c.limit, c.blockDuration⟩
        (countSince b (c.calledAt - c.ttl) db.hits)) ∧
      db'.hits = if c.limit < countSince b (c.calledAt - c.ttl) db.hits then db.hits
        else ⟨b, c.recordedAt⟩ :: db.hits := by
  refine ⟨_, by rw [increment, hkey, parse_build, ok_bind]; rfl, ?_⟩
  simp [Increment.alreadyBlocked]

theorem addressGuard_spec (henabled : config.enabled = true) (s : RateService) (r : TimedRequest) :
    let existing := countSince ⟨r.ip.getD "unknown", r.routeKey⟩ (r.addressAt - config.windowMs)
      s.ledger.hits
    (addressGuard config s r).1.tables = s.tables ∧
    (addressGuard config s r).1.ledger.hits = if config.globalPerMinute < existing then
      s.ledger.hits else ⟨⟨r.ip.getD "unknown", r.routeKey⟩, r.addressRecordedAt⟩ :: s.ledger.hits := by
  obtain ⟨ledger, hincrement, hhits⟩ := increment_key s.ledger
    (c := addressCall config r) (b := ⟨r.ip.getD "unknown", r.routeKey⟩) rfl
  intro existing
  unfold addressGuard
  rw [if_neg (by simp [henabled]), hincrement]
  exact ⟨rfl, hhits⟩

/-- The tier guard refuses exactly where the limiter is on and the hits of the window have reached
the limit. -/
theorem tierGuard_refused (config : RateConfig) (s : RateService) (tenantId : TenantId)
    (r : TimedRequest) :
    (∃ retryAfter, (tierGuard config s tenantId r).2 = .error (.throttled retryAfter)) ↔
      config.enabled = true ∧ config.tierLimit (tierOf s.tables tenantId) ≤
        countSince ⟨tenantId, r.routeKey⟩ (r.quotaAt - config.windowMs) s.ledger.hits := by
  obtain ⟨ledger, hincrement, -⟩ := increment_key s.ledger
    (c := quotaCall config s.tables tenantId r) (b := ⟨tenantId, r.routeKey⟩) rfl
  cases henabled : config.enabled with
  | false =>
    unfold tierGuard
    rw [if_pos (by simp [henabled])]
    simp
  | true =>
    unfold tierGuard
    rw [if_neg (by simp [henabled]), hincrement]
    dsimp only
    unfold refused
    rw [isBlocked_record]
    have hlimit : (quotaCall config s.tables tenantId r).limit =
        config.tierLimit (tierOf s.tables tenantId) := rfl
    have hwindow : (quotaCall config s.tables tenantId r).calledAt -
        (quotaCall config s.tables tenantId r).ttl = r.quotaAt - config.windowMs := rfl
    rw [hlimit, hwindow]
    split
    next hblocked => simpa using of_decide_eq_true hblocked
    next hopen => simpa using hopen

theorem authorize_entitled {tables : TenantTables} {r : RouteRequest}
    (h : authorize tables r = .ok (some tenantId)) : Entitled tables r tenantId := by
  unfold authorize at h
  obtain ⟨auth, hjwt, h⟩ := bind_eq_ok.mp h
  obtain ⟨_, hscope, h⟩ := bind_eq_ok.mp h
  obtain ⟨stamped, htenant, h⟩ := bind_eq_ok.mp h
  obtain ⟨_, hstatus, h⟩ := bind_eq_ok.mp h
  cases h
  have hscope := mapError_eq_ok.mp hscope
  have htenant := mapError_eq_ok.mp htenant
  have hstatus := mapError_eq_ok.mp hstatus
  refine ⟨auth, mapError_eq_ok.mp hjwt, hscope, ?_⟩
  by_cases hadmin : isPlatformAdmin auth.roles = true
  · exact Or.inl hadmin
  · have hadmin : isPlatformAdmin auth.roles = false := Bool.eq_false_iff.mpr hadmin
    simp only [tenantGuard, hadmin, Bool.false_eq_true, if_false] at htenant
    simp only [tenantStatusGuard, hadmin, Bool.false_eq_true, if_false] at hstatus
    split at htenant
    · cases htenant
    · split at htenant
      · cases htenant
      next token htoken =>
        split at htenant
        · cases htenant
        next hsame =>
          cases htenant
          have hid := not_not.mp hsame
          subst hid
          rw [htoken] at hstatus
          dsimp only [assertTenantActive] at hstatus
          refine Or.inr ⟨(Js.truthy_eq_some htoken).1, ?_⟩
          split at hstatus
          · cases hstatus
          next tenant hfind =>
            split at hstatus
            · cases hstatus
            next hactive => exact ⟨tenant, hfind, not_not.mp hactive⟩

end Guards

/-! ### Requests that give the tenant for their address -/

section Strangers

variable {config : RateConfig} {s : RateService} {tenantId : TenantId} {routeKey : String}
  {start : Time}

/-- A request without a token, sent within the window and with the tenant's id for its address. -/
structure Stranger (config : RateConfig) (tenantId : TenantId) (routeKey : String) (start : Time)
    (r : TimedRequest) : Prop where
  ip : r.ip = some tenantId
  routeKey : r.routeKey = routeKey
  authorization : r.authorization = none
  recent : start ≤ r.addressRecordedAt
  window : r.addressAt - config.windowMs ≤ start

theorem authorize_anonymous (tables : TenantTables) {r : RouteRequest}
    (h : r.authorization = none) : ∃ refusal, authorize tables r = .error refusal := by
  unfold authorize
  rw [h]
  exact ⟨_, rfl⟩

/-- Whatever the guard of the address answers, no other guard lets it pass. -/
theorem handle_anonymous (config : RateConfig) (s : RateService) {r : TimedRequest}
    (h : r.authorization = none) : (handle config s r).1 = (addressGuard config s r).1 := by
  unfold handle
  cases haddress : addressGuard config s r with
  | mk s' answer =>
    cases answer with
    | error refusal => rfl
    | ok _ =>
      obtain ⟨refusal, hrefusal⟩ := authorize_anonymous s'.tables h
      simp only [controllerGuards, hrefusal]

/-- The bucket of the tenant holds `n` hits of the window. -/
def Holds (tenantId : TenantId) (routeKey : String) (start : Time) (n : ℕ) (s : RateService) :
    Prop :=
  ∀ since, since ≤ start → countSince ⟨tenantId, routeKey⟩ since s.ledger.hits = n

theorem holds_stranger (henabled : config.enabled = true) {r : TimedRequest}
    (hr : Stranger config tenantId routeKey start r) {n : ℕ}
    (hholds : Holds tenantId routeKey start n s) : (handle config s r).1.tables = s.tables ∧
      Holds tenantId routeKey start (if config.globalPerMinute < n then n else n + 1)
        (handle config s r).1 := by
  have hip : r.ip.getD "unknown" = tenantId := by rw [hr.ip, Option.getD_some]
  obtain ⟨htables, hhits⟩ := addressGuard_spec henabled s r
  rw [hip, hr.routeKey, hholds _ hr.window] at hhits
  rw [handle_anonymous config s hr.authorization]
  refine ⟨htables, fun since hsince => ?_⟩
  have hrecent : since ≤ r.addressRecordedAt := hsince.trans hr.recent
  rw [hhits]
  split
  · exact hholds since hsince
  · rw [countSince_cons, hholds since hsince]
    simp [hrecent]

/-- Strangers fill the bucket up to one more than the limit of the addresses. -/
theorem holds_strangers (henabled : config.enabled = true) (strangers : List TimedRequest)
    (hstrangers : ∀ r ∈ strangers, Stranger config tenantId routeKey start r) {n : ℕ}
    (hn : n ≤ config.globalPerMinute + 1) (hholds : Holds tenantId routeKey start n s) :
    (handleAll config s strangers).tables = s.tables ∧
      Holds tenantId routeKey start (min (n + strangers.length) (config.globalPerMinute + 1))
        (handleAll config s strangers) := by
  induction strangers generalizing s n with
  | nil =>
    rw [List.length_nil, Nat.add_zero, Nat.min_eq_left hn]
    exact ⟨rfl, hholds⟩
  | cons r strangers ih =>
    obtain ⟨htables, hone⟩ := holds_stranger henabled (hstrangers r (List.mem_cons_self ..)) hholds
    have hnext : (if config.globalPerMinute < n then n else n + 1) ≤ config.globalPerMinute + 1 := by
      split <;> omega
    obtain ⟨htables', hall⟩ :=
      ih (fun r hr => hstrangers r (List.mem_cons_of_mem _ hr)) hnext hone
    have hcount : min ((if config.globalPerMinute < n then n else n + 1) + strangers.length)
        (config.globalPerMinute + 1) =
        min (n + (r :: strangers).length) (config.globalPerMinute + 1) := by
      rw [List.length_cons]
      split <;> omega
    rw [hcount] at hall
    exact ⟨htables'.trans htables, hall⟩

/-- Whoever may choose the address of a request needs no token to use up the quota of a tenant:
after `n` such requests on an unused quota the tenant's next one is refused exactly if its limit is
at most `n` and at most one more than the limit of the addresses. -/
theorem quota_spent_by_strangers (config : RateConfig) (henabled : config.enabled = true)
    (s : RateService) (tenantId : TenantId) (routeKey : String) (start : Time)
    (hunused : ∀ h ∈ s.ledger.hits, h.bucket ≠ ⟨tenantId, routeKey⟩)
    (strangers : List TimedRequest)
    (hstrangers : ∀ r ∈ strangers, Stranger config tenantId routeKey start r)
    (r : TimedRequest) (hroute : r.routeKey = routeKey)
    (hwindow : r.quotaAt - config.windowMs ≤ start) :
    (∃ retryAfter, (tierGuard config (handleAll config s strangers) tenantId r).2 =
        .error (.throttled retryAfter)) ↔
      config.tierLimit (tierOf s.tables tenantId) ≤
        min strangers.length (config.globalPerMinute + 1) := by
  have hempty : Holds tenantId routeKey start 0 s := by
    intro since _
    refine List.countP_eq_zero.mpr fun h hh => ?_
    simp [hunused h hh]
  obtain ⟨htables, hholds⟩ := holds_strangers henabled strangers hstrangers (Nat.zero_le _) hempty
  rw [tierGuard_refused, htables, hroute, hholds _ hwindow, Nat.zero_add]
  exact and_iff_right henabled

end Strangers

/-! ### One tenant among others -/

def smallConfig : RateConfig :=
  { enabled := true, windowMs := 60000, globalPerMinute := 3, standardPerMinute := 2
    premiumPerMinute := 9 }

def quotaTenants : TenantTables :=
  ⟨[⟨"t", "T", "t", none, .active, [], none⟩, ⟨"u", "U", "u", none, .active, [], none⟩], []⟩

/-- The token is the id of the tenant it belongs to. -/
def routeRequest (ip token : String) : RouteRequest :=
  { ip := some ip, routeKey := "Clients.list"
    authorization := some ("Bearer " ++ token)
    verifyAccessToken := fun token => .ok [("sub", .str "dtcs_1"), ("tenant_id", .str token)]
    tenantIdParam := some "t" }

def tenantRequest (ip token : String) (now : Time) : TimedRequest :=
  { routeRequest ip token with
    addressAt := now, addressRecordedAt := now, quotaAt := now, quotaRecordedAt := now }

def strangerRequest (now : Time) : TimedRequest :=
  { tenantRequest "t" "t" now with authorization := none }

theorem quota_spent_by_two : ∃ retryAfter, (tierGuard smallConfig
    (handleAll smallConfig ⟨quotaTenants, emptyLedger 0⟩ [strangerRequest 0, strangerRequest 1])
    "t" (tenantRequest "10.0.0.1" "t" 2)).2 = .error (.throttled retryAfter) := by
  refine (quota_spent_by_strangers smallConfig rfl ⟨quotaTenants, emptyLedger 0⟩ "t"
    "Clients.list" 0 (by simp [emptyLedger]) [strangerRequest 0, strangerRequest 1]
    ?_ _ rfl (by decide)).mpr (by decide)
  intro r hr
  simp only [List.mem_cons, List.not_mem_nil, or_false] at hr
  rcases hr with rfl | rfl
  · exact ⟨rfl, rfl, rfl, by decide, by decide⟩
  · exact ⟨rfl, rfl, rfl, by decide, by decide⟩

end VcCommonService.RateLimits
