import VcCommonService.RoleScope.Service
import VcCommonService.Lib.Run

/-!
# The mapping invariant

Whatever writes a tenant makes, in any order and with any failures in between, its
resolved mapping respects the role hierarchy on expanded scopes, `owner` has no override,
and every override is a sorted set of known scopes without the superuser scope. A write
validates the whole mapping it leaves behind, so this needs nothing of the defaults that
a reset brings back.
-/

namespace VcCommonService.RoleScopes
open Lib Auth TenantUsers Oidc

def HierarchyOk (mapping : List RoleScopeMappingEntry) : Prop :=
  ∀ pair ∈ adjacentRoles, ∀ scope ∈ expandEffectiveScopes (scopesOf mapping pair.2),
    scope ∈ expandEffectiveScopes (scopesOf mapping pair.1)

/-- A stored override: sorted, without duplicates, of known scopes, never the superuser's. -/
structure OverrideOk (scopes : List String) : Prop where
  notSuperuser : tenantSuperuserScope ∉ scopes
  sorted : scopes.Pairwise Js.UnitLe
  nodup : scopes.Nodup
  known : ∀ scope ∈ scopes, isKnownScope scope = true

structure MappingInvariant (db : Db) (tenantId : TenantId) : Prop where
  hierarchy : HierarchyOk (getTenantRoleMapping db tenantId)
  ownerInherits : db.tenantRoleScope tenantId .owner = none
  overrides : ∀ role scopes, db.tenantRoleScope tenantId role = some scopes → OverrideOk scopes

/-! ### Checks that passed -/

theorem excessScopes_eq_nil (xs ys : List String) :
    excessScopes xs ys = [] ↔
      ∀ scope ∈ expandEffectiveScopes xs, scope ∈ expandEffectiveScopes ys := by
  constructor
  · intro h scope hscope
    by_contra hnot
    have hmem : scope ∈ excessScopes xs ys := by
      simp [excessScopes, hscope, hnot]
    rw [h] at hmem
    cases hmem
  · intro h
    refine List.eq_nil_iff_forall_not_mem.mpr fun scope hmem => ?_
    simp only [excessScopes, Js.mem_sort, List.mem_filter, Bool.not_eq_true',
      List.contains_eq_mem, decide_eq_false_iff_not] at hmem
    exact hmem.2 (h scope hmem.1)

theorem assertHierarchyFrom_ok (mapping : List RoleScopeMappingEntry)
    (pairs : List (TenantRole × TenantRole)) :
    assertHierarchyFrom mapping pairs = .ok () ↔
      ∀ pair ∈ pairs, ∀ scope ∈ expandEffectiveScopes (scopesOf mapping pair.2),
        scope ∈ expandEffectiveScopes (scopesOf mapping pair.1) := by
  induction pairs with
  | nil => simp [assertHierarchyFrom]
  | cons pair pairs ih =>
    obtain ⟨parent, child⟩ := pair
    simp only [assertHierarchyFrom, List.forall_mem_cons]
    by_cases h : excessScopes (scopesOf mapping child) (scopesOf mapping parent) = []
    · rw [if_neg (by simp [h]), ih]
      exact (and_iff_right ((excessScopes_eq_nil _ _).mp h)).symm
    · rw [if_pos h]
      exact iff_of_false (by simp) fun hall => h ((excessScopes_eq_nil _ _).mpr hall.1)

theorem assertHierarchy_ok (mapping : List RoleScopeMappingEntry) :
    assertHierarchy mapping = .ok () ↔ HierarchyOk mapping :=
  assertHierarchyFrom_ok mapping adjacentRoles

theorem assertRoleMutable_ok {role : TenantRole} (h : assertRoleMutable role = .ok ()) :
    role ≠ .owner := by
  unfold assertRoleMutable at h
  split at h
  · cases h
  next hne => exact hne

theorem assertScopesAssignable_ok {role : TenantRole} {requested : List String}
    (h : assertScopesAssignable role (Js.sort (Js.setOf requested)) = .ok ()) :
    role ≠ .owner ∧ OverrideOk (Js.sort (Js.setOf requested)) := by
  unfold assertScopesAssignable at h
  obtain ⟨_, hmutable, h⟩ := bind_eq_ok.mp h
  dsimp only at h
  split at h
  · cases h
  next hknown =>
    split at h
    · cases h
    next hsuper =>
      refine ⟨assertRoleMutable_ok hmutable, hsuper, Js.sorted_sort _,
        Js.nodup_sort _ (Js.nodup_setOf _), fun scope hscope => ?_⟩
      have hall := List.filter_eq_nil_iff.mp (not_not.mp hknown) scope hscope
      simpa using hall

/-! ### What a write leaves behind -/

def SameMappings (db db' : Db) : Prop :=
  db'.tenantRoleScope = db.tenantRoleScope ∧ db'.roleScope = db.roleScope

theorem sameMappings_trans {db db' db'' : Db} (h : SameMappings db db')
    (h' : SameMappings db' db'') : SameMappings db db'' :=
  ⟨h'.1.trans h.1, h'.2.trans h.2⟩

theorem sameMappings_mapping {db db' : Db} (h : SameMappings db db') (tenantId : TenantId) :
    getTenantRoleMapping db' tenantId = getTenantRoleMapping db tenantId := by
  unfold getTenantRoleMapping findTenantOverrides findDefaultRoleScopes
  rw [h.1, h.2]

theorem sameMappings_revoke (db : Db) (tenantId : TenantId) (role : TenantRole) :
    SameMappings db (revokeAffectedSessions db tenantId role).1 := ⟨rfl, rfl⟩

theorem sameMappings_audit (db : Db) (request : RoleScopeWriteRequest) (action : AuditAction)
    (metadata : AuditMetadata) : SameMappings db (audit db request action metadata) := ⟨rfl, rfl⟩

theorem writeTransaction_ok {db db' : Db} {request : RoleScopeWriteRequest}
    {source : RoleScopeSource} {action : AuditAction} {apply : Db → Db × List String}
    {result : RoleScopeWriteResult} {narrowed : Bool}
    (h : writeTransaction db request source action apply = .ok (db', result, narrowed)) :
    SameMappings (apply db).1 db' ∧
      HierarchyOk (getTenantRoleMapping (apply db).1 request.tenantId) := by
  unfold writeTransaction at h
  dsimp only at h
  obtain ⟨_, _, h⟩ := bind_eq_ok.mp h
  obtain ⟨_, hhierarchy, h⟩ := bind_eq_ok.mp h
  refine ⟨?_, (assertHierarchy_ok _).mp hhierarchy⟩
  cases h
  have hrevoked : ∀ narrowed : Bool, SameMappings (apply db).1
      (if narrowed then revokeAffectedSessions (apply db).1 request.tenantId request.role
        else ((apply db).1, 0)).1 := by
    intro narrowed
    cases narrowed with
    | true => exact sameMappings_revoke _ _ _
    | false => exact ⟨rfl, rfl⟩
  split
  · exact sameMappings_trans (hrevoked _) (sameMappings_audit _ _ _ _)
  · exact hrevoked _

theorem writeMapping_ok {db db' : Db} {request : RoleScopeWriteRequest}
    {source : RoleScopeSource} {action : AuditAction} {apply : Db → Db × List String}
    {window : List OidcModel} {result : RoleScopeWriteResult}
    (h : writeMapping db request source action apply window = .ok (db', result)) :
    SameMappings (apply db).1 db' ∧
      HierarchyOk (getTenantRoleMapping (apply db).1 request.tenantId) := by
  unfold writeMapping at h
  obtain ⟨⟨committed, result', narrowed⟩, htransaction, h⟩ := bind_eq_ok.mp h
  obtain ⟨hsame, hhierarchy⟩ := writeTransaction_ok htransaction
  refine ⟨?_, hhierarchy⟩
  dsimp only at h
  split at h
  · cases h
    exact hsame
  · split at h
    · cases h
      exact hsame
    · cases h
      exact hsame

/-- A write that returned set one override of its tenant: to an admissible list, or to none. -/
theorem exec_ok {db db' : Db} {call : Call} {result : RoleScopeWriteResult}
    (h : exec db call = .ok (db', result)) :
    ∃ scopes : Option (List String),
      SameMappings (setTenantRoleScopes db call.request.tenantId call.request.role scopes) db' ∧
      HierarchyOk (getTenantRoleMapping
        (setTenantRoleScopes db call.request.tenantId call.request.role scopes)
        call.request.tenantId) ∧
      call.request.role ≠ .owner ∧ ∀ xs, scopes = some xs → OverrideOk xs := by
  cases call with
  | replace request requested window =>
    obtain ⟨_, hassignable, h⟩ := bind_eq_ok.mp h
    obtain ⟨hsame, hhierarchy⟩ := writeMapping_ok h
    obtain ⟨hmutable, hok⟩ := assertScopesAssignable_ok hassignable
    refine ⟨some (Js.sort (Js.setOf requested)), hsame, hhierarchy, hmutable, ?_⟩
    intro xs hxs
    exact Option.some.inj hxs ▸ hok
  | reset request window =>
    obtain ⟨_, hmutable, h⟩ := bind_eq_ok.mp h
    obtain ⟨hsame, hhierarchy⟩ := writeMapping_ok h
    refine ⟨none, hsame, hhierarchy, assertRoleMutable_ok hmutable, ?_⟩
    intro xs hxs
    cases hxs

/-! ### Frame and preservation -/

theorem mapping_other_tenant (db : Db) {tenantId other : TenantId} (role : TenantRole)
    (scopes : Option (List String)) (hne : other ≠ tenantId) :
    getTenantRoleMapping (setTenantRoleScopes db tenantId role scopes) other =
      getTenantRoleMapping db other := by
  have hoverrides : findTenantOverrides (setTenantRoleScopes db tenantId role scopes) other =
      findTenantOverrides db other := by
    unfold findTenantOverrides setTenantRoleScopes
    simp [hne]
  unfold getTenantRoleMapping
  rw [hoverrides]
  rfl

theorem step_other_tenant {db db' : Db} {call : Call} (hs : step db call = some db')
    {other : TenantId} (hne : other ≠ call.request.tenantId) :
    getTenantRoleMapping db' other = getTenantRoleMapping db other := by
  unfold step at hs
  split at hs
  · cases hs
    rfl
  next result hexec =>
    cases hs
    obtain ⟨scopes, hsame, -⟩ := exec_ok hexec
    rw [sameMappings_mapping hsame, mapping_other_tenant db _ _ hne]

theorem mappingInvariant_step {db db' : Db} {call : Call} {tenantId : TenantId}
    (hi : MappingInvariant db tenantId) (hs : step db call = some db') :
    MappingInvariant db' tenantId := by
  by_cases htenant : tenantId = call.request.tenantId
  · unfold step at hs
    split at hs
    · cases hs
      exact hi
    next result hexec =>
      cases hs
      obtain ⟨scopes, hsame, hhierarchy, hmutable, hok⟩ := exec_ok hexec
      subst htenant
      refine ⟨?_, ?_, ?_⟩
      · rw [sameMappings_mapping hsame]
        exact hhierarchy
      · rw [hsame.1]
        simp only [setTenantRoleScopes, true_and, if_neg (Ne.symm hmutable)]
        exact hi.ownerInherits
      · intro role xs hxs
        rw [hsame.1] at hxs
        simp only [setTenantRoleScopes, true_and] at hxs
        split at hxs
        · exact hok xs hxs
        · exact hi.overrides role xs hxs
  · have hmapping := step_other_tenant hs htenant
    have hrows : db'.tenantRoleScope tenantId = db.tenantRoleScope tenantId := by
      unfold step at hs
      split at hs
      · cases hs
        rfl
      next result hexec =>
        cases hs
        obtain ⟨scopes, hsame, -⟩ := exec_ok hexec
        rw [hsame.1]
        funext role
        simp [setTenantRoleScopes, htenant]
    refine ⟨?_, ?_, ?_⟩
    · rw [hmapping]
      exact hi.hierarchy
    · rw [hrows]
      exact hi.ownerInherits
    · rw [hrows]
      exact hi.overrides

theorem mappingInvariant_defaults {db : Db} {tenantId : TenantId}
    (hnone : ∀ role, db.tenantRoleScope tenantId role = none)
    (hdefaults : HierarchyOk (getDefaultRoleMapping db)) : MappingInvariant db tenantId := by
  have hmapping : getTenantRoleMapping db tenantId = getDefaultRoleMapping db := by
    unfold getTenantRoleMapping getDefaultRoleMapping findTenantOverrides
    simp [hnone]
  refine ⟨hmapping ▸ hdefaults, hnone .owner, ?_⟩
  intro role scopes h
  rw [hnone role] at h
  cases h

/-! ### Runs -/

/-- Along every run of writes, by any actors for any tenants, the invariant of a tenant
that starts with it holds in every state, and no write changes another tenant's mapping. -/
theorem mappingInvariant_run (db : Db) (tenantId : TenantId) (calls : List Call)
    (hi : MappingInvariant db tenantId) :
    Run.All step (fun d call d' => MappingInvariant d' tenantId ∧
      ∀ other, other ≠ call.request.tenantId →
        getTenantRoleMapping d' other = getTenantRoleMapping d other) db calls := by
  induction calls generalizing db with
  | nil => trivial
  | cons call calls ih =>
    obtain ⟨db', hs⟩ : ∃ db', step db call = some db' := by
      unfold step
      split
      · exact ⟨_, rfl⟩
      · exact ⟨_, rfl⟩
    have hi' := mappingInvariant_step hi hs
    exact ⟨db', hs, ⟨hi', fun other hne => step_other_tenant hs hne⟩, ih db' hi'⟩

/-! ### The seeded defaults -/

/-- The rows of `CreateRoleScopes`, with no override yet. -/
def seededDb : Db :=
  { roleScope := (.owner, tenantSuperuserScope) ::
      (allTenantScopes.map fun scope => (.admin, scope)) ++
      [(.member, "credentials:offer"), (.member, "credentials:verify")]
    tenantRoleScope := fun _ _ => none
    tenantUsers := [], oidcModels := [], auditLog := [] }

theorem hierarchyOk_seeded : HierarchyOk (getDefaultRoleMapping seededDb) := by
  unfold HierarchyOk
  decide +kernel

def ownerRequest (role : TenantRole) : RoleScopeWriteRequest :=
  ⟨"t", role, "owner-user", [tenantSuperuserScope], ["owner"], .user⟩

def sampleWrites : List Call :=
  [.replace (ownerRequest .member) ["logs:read", "credentials:offer", "logs:read"] [],
    .replace (ownerRequest .readonly) ["users:manage"] [], .reset (ownerRequest .member) []]

theorem mappingInvariant_run_seeded :
    Run.All step (fun d call d' => MappingInvariant d' "t" ∧
      ∀ other, other ≠ call.request.tenantId →
        getTenantRoleMapping d' other = getTenantRoleMapping d other) seededDb sampleWrites :=
  mappingInvariant_run seededDb "t" sampleWrites
    (mappingInvariant_defaults (fun _ => rfl) hierarchyOk_seeded)

end VcCommonService.RoleScopes
