import VcCommonService.RoleScope.Mapping

/-!
# Records that a write of the mapping leaves behind

A write that narrows a role deletes every record of the users who hold it. A write that
does not keeps the effective scopes of the role, and the records with them.
-/

namespace VcCommonService.RoleScopes
open Lib Auth TenantUsers Oidc

theorem lookup_filterMap {κ β : Type} [DecidableEq κ] (f : κ → Option β) (keys : List κ) (k : κ) :
    (keys.filterMap fun key => (f key).map fun b => (key, b)).lookup k =
      if k ∈ keys then f k else none := by
  induction keys with
  | nil => rfl
  | cons key keys ih =>
    rw [List.filterMap_cons]
    by_cases hk : k = key
    · subst hk
      cases hf : f k with
      | none => simp [ih, hf]
      | some b => simp
    · have hbeq : (k == key) = false := beq_false_of_ne hk
      cases f key with
      | none => simp [ih, hk]
      | some b => simp [List.lookup_cons, hbeq, ih, hk]

theorem findDefaultRoleScopes_getD (db : Db) (role : TenantRole) :
    (findDefaultRoleScopes db role).getD [] = findScopesForRole db role none := by
  simp only [findDefaultRoleScopes, findScopesForRole]
  split
  next h => rw [h]; rfl
  next => rfl

def resolve (db : Db) (tenantId : TenantId) (role : TenantRole) : RoleScopeMappingEntry :=
  match db.tenantRoleScope tenantId role with
  | some scopes => ⟨role, scopes, .override⟩
  | none => ⟨role, (findDefaultRoleScopes db role).getD [], .default⟩

theorem resolve_name (db : Db) (tenantId : TenantId) (role : TenantRole) :
    (resolve db tenantId role).name = role := by
  unfold resolve
  split <;> rfl

theorem resolve_scopes (db : Db) (tenantId : TenantId) (role : TenantRole) :
    (resolve db tenantId role).scopes = findScopesForRole db role (some tenantId) := by
  unfold resolve
  cases h : db.tenantRoleScope tenantId role with
  | some scopes => simp [findScopesForRole, h]
  | none =>
    rw [findDefaultRoleScopes_getD]
    simp [findScopesForRole, h]

theorem getTenantRoleMapping_eq (db : Db) (tenantId : TenantId) :
    getTenantRoleMapping db tenantId = roleHierarchy.map (resolve db tenantId) := by
  have hlookup : ∀ role, (findTenantOverrides db tenantId).lookup role =
      db.tenantRoleScope tenantId role := by
    intro role
    rw [findTenantOverrides, lookup_filterMap, if_pos (by cases role <;> decide)]
  simp only [getTenantRoleMapping, hlookup]
  rfl

theorem find_mapping (db : Db) (tenantId : TenantId) (role : TenantRole) :
    ((getTenantRoleMapping db tenantId).find? fun entry => decide (entry.name = role)) =
      some (resolve db tenantId role) := by
  have hfind : roleHierarchy.find? ((fun entry => decide (entry.name = role)) ∘
      resolve db tenantId) = some role := by
    have hcomp : ((fun entry : RoleScopeMappingEntry => decide (entry.name = role)) ∘
        resolve db tenantId) = fun r => decide (r = role) := by
      funext r
      rw [Function.comp_apply, resolve_name]
    rw [hcomp]
    cases role <;> decide
  rw [getTenantRoleMapping_eq, List.find?_map, hfind, Option.map_some]

/-- The resolved mapping and the query of a login give a role the same scopes. -/
theorem scopesOf_mapping (db : Db) (tenantId : TenantId) (role : TenantRole) :
    scopesOf (getTenantRoleMapping db tenantId) role =
      findScopesForRole db role (some tenantId) := by
  rw [scopesOf, find_mapping, Option.map_some, Option.getD_some, resolve_scopes]

/-! ### One write -/

/-- Nobody who holds the role has a grant left. -/
def NoGrants (users : List TenantUser) (models : List OidcModel) (tenantId : TenantId)
    (role : TenantRole) : Prop :=
  ∀ m ∈ models, m.modelName = "Grant" → ∀ u ∈ users, holdsRole tenantId role u = true →
    m.accountId ≠ some u.id

/-- The records after a write: the effective scopes of the role are kept, or its grants gone. -/
structure RecordsKept (db db' : Db) (request : RoleScopeWriteRequest) : Prop where
  tenantUsers : db'.tenantUsers = db.tenantUsers
  oidcModels : db'.oidcModels.Sublist db.oidcModels
  covered : (∀ scope ∈ expandEffectiveScopes
        (findScopesForRole db request.role (some request.tenantId)),
      scope ∈ expandEffectiveScopes
        (findScopesForRole db' request.role (some request.tenantId))) ∨
    NoGrants db.tenantUsers db'.oidcModels request.tenantId request.role

theorem noGrants_revoked (db : Db) (tenantId : TenantId) (role : TenantRole) :
    NoGrants db.tenantUsers (revokeAffectedSessions db tenantId role).1.oidcModels tenantId role := by
  intro m hm hgrant u hu hrole
  have hbound : m.modelName ∈ accountBoundModels := by
    rw [hgrant]
    decide
  exact not_bound_of_left hm hbound (List.mem_map_of_mem (List.mem_filter.mpr ⟨hu, hrole⟩))

theorem noGrants_of_sublist {users : List TenantUser} {models models' : List OidcModel}
    {tenantId : TenantId} {role : TenantRole} (h : NoGrants users models tenantId role)
    (hsub : models'.Sublist models) : NoGrants users models' tenantId role :=
  fun m hm => h m (hsub.subset hm)

theorem sublist_revoked (db : Db) (tenantId : TenantId) (role : TenantRole) :
    (revokeAffectedSessions db tenantId role).1.oidcModels.Sublist db.oidcModels :=
  List.filter_sublist

theorem writeTransaction_records {db db' : Db} {request : RoleScopeWriteRequest}
    {source : RoleScopeSource} {action : AuditAction} {apply : Db → Db × List String}
    {result : RoleScopeWriteResult} {narrowed : Bool}
    (h : writeTransaction db request source action apply = .ok (db', result, narrowed)) :
    db'.tenantUsers = (apply db).1.tenantUsers ∧
      db'.oidcModels = (if narrowed then
        (revokeAffectedSessions (apply db).1 request.tenantId request.role).1.oidcModels
        else (apply db).1.oidcModels) ∧
      narrowed = decide (removedScopes (scopesOf (getTenantRoleMapping db request.tenantId)
        request.role) (apply db).2 ≠ []) := by
  unfold writeTransaction at h
  dsimp only at h
  obtain ⟨_, _, h⟩ := bind_eq_ok.mp h
  obtain ⟨_, _, h⟩ := bind_eq_ok.mp h
  cases h
  refine ⟨?_, ?_, rfl⟩
  · generalize decide (removedScopes _ (apply db).2 ≠ []) = narrowed
    cases narrowed with
    | true => split <;> rfl
    | false => split <;> rfl
  · generalize decide (removedScopes _ (apply db).2 ≠ []) = narrowed
    cases narrowed with
    | true => split <;> rfl
    | false => split <;> rfl

theorem writeMapping_records {db db' : Db} {request : RoleScopeWriteRequest}
    {source : RoleScopeSource} {action : AuditAction} {apply : Db → Db × List String}
    {result : RoleScopeWriteResult}
    (h : writeMapping db request source action apply [] = .ok (db', result))
    (husers : (apply db).1.tenantUsers = db.tenantUsers)
    (hmodels : (apply db).1.oidcModels = db.oidcModels)
    (hscopes : findScopesForRole db' request.role (some request.tenantId) = (apply db).2) :
    RecordsKept db db' request := by
  unfold writeMapping at h
  obtain ⟨⟨committed, result', narrowed⟩, htransaction, h⟩ := bind_eq_ok.mp h
  obtain ⟨hcu, hcm, hnarrowed⟩ := writeTransaction_records htransaction
  rw [husers] at hcu
  dsimp only at h
  cases narrowed with
  | false =>
    cases h
    rw [hmodels] at hcm
    refine ⟨hcu, hcm ▸ List.Sublist.refl _, Or.inl ?_⟩
    have hnil := not_not.mp (of_decide_eq_false hnarrowed.symm)
    rw [scopesOf_mapping] at hnil
    rw [hscopes]
    exact (excessScopes_eq_nil _ _).mp hnil
  | true =>
    have hsub : committed.oidcModels.Sublist db.oidcModels := by
      rw [hcm, ← hmodels]
      exact sublist_revoked _ _ _
    have hnone : NoGrants db.tenantUsers committed.oidcModels request.tenantId request.role := by
      rw [hcm, ← husers]
      exact noGrants_revoked _ _ _
    have hswept : ∀ d : Db, d.tenantUsers = committed.tenantUsers →
        d.oidcModels = (revokeAffectedSessions { committed with
          oidcModels := committed.oidcModels ++ [] } request.tenantId request.role).1.oidcModels →
        RecordsKept db d request := by
      intro d hdu hdm
      have hsweep : d.oidcModels.Sublist committed.oidcModels := by
        rw [hdm]
        refine (sublist_revoked _ _ _).trans ?_
        rw [List.append_nil]
      exact ⟨hdu.trans hcu, hsweep.trans hsub, Or.inr (noGrants_of_sublist hnone hsweep)⟩
    simp only [Bool.not_true, Bool.false_eq_true, if_false] at h
    split at h
    · cases h
      exact hswept _ rfl rfl
    · cases h
      exact hswept _ rfl rfl

/-! What the role has when the write has returned. -/

theorem findScopesForRole_upserted {db db' : Db} {tenantId : TenantId} {role : TenantRole}
    {scopes : List String}
    (hsame : SameMappings (upsertTenantRoleScopes db tenantId role scopes) db') :
    findScopesForRole db' role (some tenantId) = scopes := by
  simp only [findScopesForRole, hsame.1, upsertTenantRoleScopes, setTenantRoleScopes, and_self,
    if_true, Option.getD_some]

theorem findScopesForRole_deleted {db db' : Db} {tenantId : TenantId} {role : TenantRole}
    (hsame : SameMappings (deleteTenantRoleScopes db tenantId role) db') :
    findScopesForRole db' role (some tenantId) =
      (findDefaultRoleScopes (deleteTenantRoleScopes db tenantId role) role).getD [] := by
  rw [findDefaultRoleScopes_getD]
  simp only [findScopesForRole, hsame.1, hsame.2, deleteTenantRoleScopes, setTenantRoleScopes,
    and_self, if_true, Option.getD_none]

def Call.alone : Call → Prop
  | .replace _ _ window => window = []
  | .reset _ window => window = []

theorem exec_records {db db' : Db} {call : Call} {result : RoleScopeWriteResult}
    (halone : call.alone) (h : exec db call = .ok (db', result)) :
    RecordsKept db db' call.request := by
  cases call with
  | replace request requested window =>
    cases (halone : window = [])
    obtain ⟨_, _, h⟩ := bind_eq_ok.mp h
    obtain ⟨hsame, -⟩ := writeMapping_ok h
    exact writeMapping_records h rfl rfl (findScopesForRole_upserted hsame)
  | reset request window =>
    cases (halone : window = [])
    obtain ⟨_, _, h⟩ := bind_eq_ok.mp h
    obtain ⟨hsame, -⟩ := writeMapping_ok h
    exact writeMapping_records h rfl rfl (findScopesForRole_deleted hsame)

theorem exec_other_role {db db' : Db} {call : Call} {result : RoleScopeWriteResult}
    (h : exec db call = .ok (db', result)) {role : TenantRole} {tenantId : TenantId}
    (hother : ¬ (tenantId = call.request.tenantId ∧ role = call.request.role)) :
    findScopesForRole db' role (some tenantId) = findScopesForRole db role (some tenantId) := by
  obtain ⟨scopes, hsame, -⟩ := exec_ok h
  simp only [findScopesForRole, hsame.1, hsame.2, setTenantRoleScopes, if_neg hother]

end VcCommonService.RoleScopes
