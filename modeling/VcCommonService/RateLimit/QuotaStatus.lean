import VcCommonService.RateLimit.TenantQuota

/-!
# The rate limit status of a tenant (`admin-rate-limit.service.ts`)

`getStatus` counts the hits of a tenant grouped by route; for every route that is the number the
tier guard goes by at the same instant, unless the limiter is off and the guard lets all pass.
-/

namespace VcCommonService.RateLimits
open Lib Auth Tenants

structure RateLimitStatus where
  tenantId : TenantId
  tier : RateLimitTier
  windowMs : ℤ
  limit : ℕ
  routes : List (String × ℕ)
  deriving Repr, DecidableEq

def countGroupedByRouteSince (tenantId : TenantId) (since : Time) (hits : List RateLimitHit) :
    List (String × ℕ) :=
  Table.countBy (fun h => h.bucket.routeKey)
    (hits.filter fun h => decide (h.bucket.tracker = tenantId ∧ since ≤ h.hitAt))

def getStatus (config : RateConfig) (s : RateService) (tenantId : TenantId) (now : Time) :
    Except ServiceError RateLimitStatus :=
  match findTenant s.tables tenantId with
  | none => .error (.notFound findByIdMessage)
  | some tenant =>
    let tier := resolveRateLimitTier (some tenant.config)
    .ok
      { tenantId, tier, windowMs := config.windowMs, limit := config.tierLimit tier
        routes := countGroupedByRouteSince tenantId (now - config.windowMs) s.ledger.hits }

/-! ### What the status says -/

section Status

variable {config : RateConfig} {s : RateService} {tenantId : TenantId} {now : Time}

theorem lookup_routes (since : Time) (hits : List RateLimitHit) (routeKey : String) :
    ((countGroupedByRouteSince tenantId since hits).lookup routeKey).getD 0 =
      countSince ⟨tenantId, routeKey⟩ since hits := by
  unfold countGroupedByRouteSince countSince
  rw [Table.lookup_countBy, List.countP_filter]
  refine List.countP_congr fun h _ => ?_
  obtain ⟨⟨tracker, route⟩, hitAt⟩ := h
  simp only [Bool.and_eq_true, decide_eq_true_eq, Bucket.mk.injEq]
  constructor
  · rintro ⟨hroute, htracker, hsince⟩
    exact ⟨⟨htracker, hroute⟩, hsince⟩
  · rintro ⟨⟨htracker, hroute⟩, hsince⟩
    exact ⟨hroute, htracker, hsince⟩

theorem getStatus_ok {status : RateLimitStatus} (h : getStatus config s tenantId now = .ok status) :
    status.limit = config.tierLimit (tierOf s.tables tenantId) ∧
      status.routes = countGroupedByRouteSince tenantId (now - config.windowMs) s.ledger.hits := by
  unfold getStatus at h
  cases hfind : findTenant s.tables tenantId with
  | none =>
    rw [hfind] at h
    cases h
  | some tenant =>
    rw [hfind] at h
    cases h
    exact ⟨by rw [tierOf, hfind, Option.map_some], rfl⟩

end Status

/-- Two hits of the tenant in the window, and others that do not count. -/
def usedService : RateService :=
  ⟨quotaTenants, ⟨[⟨⟨"t", "Clients.list"⟩, 4⟩, ⟨⟨"t", "Clients.create"⟩, 4⟩, ⟨⟨"u", "Clients.list"⟩, 4⟩,
    ⟨⟨"t", "Clients.list"⟩, 3⟩], 4, []⟩⟩

end VcCommonService.RateLimits
