import Mathlib.Data.Char
import Mathlib.Data.List.Dedup
import VcCommonService.Lib.Select
import VcCommonService.RoleScope.Records

/-!
# Resolution of role scopes in the database and in memory

A login resolves a role with one query, `COALESCE` over the override row and the aggregated
default; the management routes read defaults and overrides with two queries and join them with
`??`. Both tables are sets of rows, so the two paths may see them in different orders; scopes
are ordered by the collation of the database.
-/

namespace VcCommonService.RoleScopes.Sql
open Lib Auth

structure TenantRoleScopeRow where
  tenantId : TenantId
  role : TenantRole
  scopes : List String
  deriving Repr, DecidableEq

/-- The rows of `role_scope` and `tenant_role_scope`. -/
structure Tables where
  roleScope : List (TenantRole × String)
  tenantRoleScope : List TenantRoleScopeRow

def TenantRoleScopeRow.key (row : TenantRoleScopeRow) : TenantId × TenantRole :=
  (row.tenantId, row.role)

section Queries

variable {κ : Type} [LinearOrder κ] (collate : String → κ)

/-! ### Repository -/

def defaultScopes (tables : Tables) (role : TenantRole) : List String :=
  (tables.roleScope.filter fun row => decide (row.1 = role)).map Prod.snd

/-- `ARRAY_AGG(scope ORDER BY scope)`; over no rows it is `NULL`. -/
def arrayAgg (scopes : List String) : Option (List String) :=
  if scopes = [] then none else some (Table.orderBy collate scopes)

/-- `SELECT scopes … WHERE tenant_id = $1 AND role = $2` as a scalar: `NULL` without a row. -/
def overrideScopes (tables : Tables) (tenantId : TenantId) (role : TenantRole) :
    Option (List String) :=
  ((tables.tenantRoleScope.filter fun row => decide (row.key = (tenantId, role))).map
    TenantRoleScopeRow.scopes).head?

def coalesce {β : Type} (a b : Option β) : Option β := a.or b

def findScopesForRole (tables : Tables) (role : TenantRole) (tenantId : Option TenantId) :
    List String :=
  match Js.truthy tenantId with
  | none => Table.orderBy collate (defaultScopes tables role)
  | some tenantId =>
    -- the aggregate has no `GROUP BY`, so there is always one row
    let rows := [coalesce (overrideScopes tables tenantId role)
      (coalesce (arrayAgg collate (defaultScopes tables role)) (some []))]
    rows.head?.join.getD []

/-- `GROUP BY role`: a role without rows has no group. -/
def findDefaultRoleScopes (tables : Tables) : List (String × List String) :=
  (tables.roleScope.map Prod.fst).dedup.filterMap fun role =>
    (arrayAgg collate (defaultScopes tables role)).map fun scopes => (role.name, scopes)

/-- `ORDER BY role` is the order of the enumeration. -/
def findTenantOverrides (tables : Tables) (tenantId : TenantId) : List (String × List String) :=
  (Table.orderBy (fun row => roleHierarchy.idxOf row.role)
    (tables.tenantRoleScope.filter fun row => decide (row.tenantId = tenantId))).map
    fun row => (row.role.name, row.scopes)

/-! ### Service -/

def getDefaultRoleMapping (tables : Tables) : List RoleScopeMappingEntry :=
  let defaults := findDefaultRoleScopes collate tables
  roleHierarchy.map fun role => ⟨role, (Js.mapGet defaults role.name).getD [], .default⟩

/-- An array is truthy, so an empty override counts. -/
def getTenantRoleMapping (tables : Tables) (tenantId : TenantId) : List RoleScopeMappingEntry :=
  let defaults := findDefaultRoleScopes collate tables
  let overrideByRole := findTenantOverrides tables tenantId
  roleHierarchy.map fun role =>
    let override := Js.mapGet overrideByRole role.name
    ⟨role, (override.or (Js.mapGet defaults role.name)).getD [],
      if override.isSome then .override else .default⟩

/-! ### The two paths -/

/-- Two readings of the same tables: the rows in some order each. -/
structure SameRows (tables tables' : Tables) : Prop where
  roleScope : tables.roleScope.Perm tables'.roleScope
  tenantRoleScope : tables.tenantRoleScope.Perm tables'.tenantRoleScope

def reported (mapping : List RoleScopeMappingEntry) : List (TenantRole × List String) :=
  mapping.map fun entry => (entry.name, entry.scopes)

variable {collate} {tables tables' : Tables} {tenantId : TenantId}

theorem name_injective : Function.Injective TenantRole.name := by
  intro a b
  cases a <;> cases b <;> decide

theorem SameRows.uniqueKeys (h : SameRows tables tables')
    (hkeys : Table.UniqueKeys TenantRoleScopeRow.key tables.tenantRoleScope) :
    Table.UniqueKeys TenantRoleScopeRow.key tables'.tenantRoleScope :=
  (h.tenantRoleScope.map _).nodup_iff.mp hkeys

theorem defaultScopes_perm (h : SameRows tables tables') (role : TenantRole) :
    (defaultScopes tables role).Perm (defaultScopes tables' role) :=
  (h.roleScope.filter _).map _

theorem mem_findDefaultRoleScopes {role : TenantRole} {scopes : List String} :
    (role.name, scopes) ∈ findDefaultRoleScopes collate tables ↔
      arrayAgg collate (defaultScopes tables role) = some scopes := by
  simp only [findDefaultRoleScopes, List.mem_filterMap, List.mem_dedup, Option.map_eq_some_iff,
    Prod.mk.injEq]
  constructor
  · rintro ⟨role', -, scopes', hagg, hname, rfl⟩
    rw [← name_injective hname]
    exact hagg
  · intro hagg
    refine ⟨role, ?_, scopes, hagg, rfl, rfl⟩
    -- an aggregate that is not null has a row
    have hne : defaultScopes tables role ≠ [] := by
      intro hnil
      simp [arrayAgg, hnil] at hagg
    obtain ⟨scope, hscope⟩ := List.exists_mem_of_ne_nil _ hne
    obtain ⟨row, hrow, -⟩ := List.mem_map.mp hscope
    obtain ⟨hrow, hrole⟩ := List.mem_filter.mp hrow
    exact List.mem_map.mpr ⟨row, hrow, of_decide_eq_true hrole⟩

theorem mapGet_findDefaultRoleScopes (tables : Tables) (role : TenantRole) :
    Js.mapGet (findDefaultRoleScopes collate tables) role.name =
      arrayAgg collate (defaultScopes tables role) := by
  ext scopes
  rw [Js.mapGet_eq_some_iff, mem_findDefaultRoleScopes]
  intro b b' hb hb'
  rw [mem_findDefaultRoleScopes] at hb hb'
  exact Option.some.inj (hb.symm.trans hb')

theorem arrayAgg_getD (scopes : List String) :
    (arrayAgg collate scopes).getD [] = Table.orderBy collate scopes := by
  unfold arrayAgg
  split
  next h => rw [h]; rfl
  next => rfl

theorem overrideScopes_eq_some_iff (hkeys : Table.UniqueKeys TenantRoleScopeRow.key
    tables.tenantRoleScope) {role : TenantRole} {scopes : List String} :
    overrideScopes tables tenantId role = some scopes ↔
      ⟨tenantId, role, scopes⟩ ∈ tables.tenantRoleScope := by
  have hlookup : overrideScopes tables tenantId role =
      (Table.lookup TenantRoleScopeRow.key (tenantId, role) tables.tenantRoleScope).map
        TenantRoleScopeRow.scopes := by
    rw [overrideScopes, List.head?_map, List.head?_filter]
    rfl
  rw [hlookup, Option.map_eq_some_iff]
  constructor
  · rintro ⟨row, hrow, rfl⟩
    obtain ⟨hmem, hkey⟩ := (Table.lookup_eq_some_iff hkeys).mp hrow
    cases hkey
    exact hmem
  · exact fun hmem => ⟨_, (Table.lookup_eq_some_iff hkeys).mpr ⟨hmem, rfl⟩, rfl⟩

theorem mem_findTenantOverrides {role : TenantRole} {scopes : List String} :
    (role.name, scopes) ∈ findTenantOverrides tables tenantId ↔
      ⟨tenantId, role, scopes⟩ ∈ tables.tenantRoleScope := by
  simp only [findTenantOverrides, List.mem_map, Table.mem_orderBy, List.mem_filter,
    decide_eq_true_eq, Prod.mk.injEq]
  constructor
  · rintro ⟨row, ⟨hrow, rfl⟩, hname, rfl⟩
    rw [← name_injective hname]
    exact hrow
  · exact fun hrow => ⟨_, ⟨hrow, rfl⟩, rfl, rfl⟩

theorem mapGet_findTenantOverrides (hkeys : Table.UniqueKeys TenantRoleScopeRow.key
    tables.tenantRoleScope) (role : TenantRole) :
    Js.mapGet (findTenantOverrides tables tenantId) role.name =
      overrideScopes tables tenantId role := by
  ext scopes
  rw [Js.mapGet_eq_some_iff, mem_findTenantOverrides, overrideScopes_eq_some_iff hkeys]
  intro b b' hb hb'
  rw [mem_findTenantOverrides, ← overrideScopes_eq_some_iff hkeys] at hb hb'
  exact Option.some.inj (hb.symm.trans hb')

theorem overrideScopes_congr (h : SameRows tables tables')
    (hkeys : Table.UniqueKeys TenantRoleScopeRow.key tables.tenantRoleScope) (role : TenantRole) :
    overrideScopes tables tenantId role = overrideScopes tables' tenantId role := by
  have hkeys' := h.uniqueKeys hkeys
  ext scopes
  rw [overrideScopes_eq_some_iff hkeys, overrideScopes_eq_some_iff hkeys',
    h.tenantRoleScope.mem_iff]

theorem findScopesForRole_default (tables : Tables) (role : TenantRole) :
    findScopesForRole collate tables role none =
      Table.orderBy collate (defaultScopes tables role) := rfl

theorem findScopesForRole_tenant (htenant : tenantId ≠ "") (tables : Tables) (role : TenantRole) :
    findScopesForRole collate tables role (some tenantId) =
      (overrideScopes tables tenantId role).getD
        (Table.orderBy collate (defaultScopes tables role)) := by
  have htruthy : Js.truthy (some tenantId) = some tenantId := Js.truthy_some htenant
  have hdefault : coalesce (arrayAgg collate (defaultScopes tables role)) (some []) =
      some (Table.orderBy collate (defaultScopes tables role)) := by
    rw [← arrayAgg_getD]
    cases arrayAgg collate (defaultScopes tables role) <;> rfl
  simp only [findScopesForRole, htruthy, hdefault]
  cases overrideScopes tables tenantId role <;> rfl

/-- The query of a login and the mapping of the management routes give every role of a tenant the
same list of scopes, and without a tenant both give the defaults. -/
theorem login_and_management_agree (hcollate : Function.Injective collate)
    (hrows : SameRows tables tables')
    (hkeys : Table.UniqueKeys TenantRoleScopeRow.key tables.tenantRoleScope)
    (htenant : tenantId ≠ "") :
    reported (getTenantRoleMapping collate tables' tenantId) =
      roleHierarchy.map (fun role =>
        (role, findScopesForRole collate tables role (some tenantId))) ∧
    reported (getDefaultRoleMapping collate tables') =
      roleHierarchy.map (fun role => (role, findScopesForRole collate tables role none)) := by
  have hkeys' := hrows.uniqueKeys hkeys
  have hdefault : ∀ role, Table.orderBy collate (defaultScopes tables' role) =
      Table.orderBy collate (defaultScopes tables role) := fun role =>
    (Table.orderBy_perm hcollate (defaultScopes_perm hrows role)).symm
  constructor
  · simp only [reported, getTenantRoleMapping, List.map_map]
    refine List.map_congr_left fun role _ => ?_
    rw [findScopesForRole_tenant htenant, overrideScopes_congr hrows hkeys, ← hdefault]
    simp only [Function.comp_apply, mapGet_findTenantOverrides hkeys',
      mapGet_findDefaultRoleScopes, Prod.mk.injEq, true_and]
    cases overrideScopes tables' tenantId role with
    | none => exact arrayAgg_getD _
    | some scopes => rfl
  · simp only [reported, getDefaultRoleMapping, List.map_map]
    refine List.map_congr_left fun role _ => ?_
    rw [findScopesForRole_default, ← hdefault]
    simp only [Function.comp_apply, mapGet_findDefaultRoleScopes, arrayAgg_getD]

end Queries

/-- One role inherits its default, one has no default, one is stripped and one is replaced. -/
def sampleTables : Tables :=
  { roleScope := [(.member, "credentials:verify"), (.owner, "tenants:admin"),
      (.member, "credentials:offer")]
    tenantRoleScope := [⟨"t", .owner, []⟩, ⟨"u", .admin, ["logs:read"]⟩,
      ⟨"t", .admin, ["logs:read"]⟩] }

theorem login_and_management_agree_sample :
    reported (getTenantRoleMapping String.toList
      ⟨sampleTables.roleScope.reverse, sampleTables.tenantRoleScope.reverse⟩ "t") =
      [(.owner, []), (.admin, ["logs:read"]), (.member, ["credentials:offer", "credentials:verify"]),
        (.readonly, [])] := by
  have hcollate : Function.Injective String.toList := fun _ _ => String.toList_inj.mp
  have hrows : SameRows sampleTables
      ⟨sampleTables.roleScope.reverse, sampleTables.tenantRoleScope.reverse⟩ :=
    ⟨(List.reverse_perm _).symm, (List.reverse_perm _).symm⟩
  refine (login_and_management_agree hcollate hrows (by decide) (by decide)).1.trans ?_
  decide

/-! ### The mapping as a function of the database -/

/-- The database of the writes has the content of these tables. -/
structure Shows (tables : Tables) (db : Db) : Prop where
  roleScope : db.roleScope = tables.roleScope
  tenantRoleScope : ∀ tenantId role,
    db.tenantRoleScope tenantId role = overrideScopes tables tenantId role

theorem orderBy_codeUnits (scopes : List String) :
    Table.orderBy Js.codeUnits scopes = Js.sort scopes := rfl

theorem findScopesForRole_db {tables : Tables} {db : Db} (h : Shows tables db) (role : TenantRole) :
    RoleScopes.findScopesForRole db role none = findScopesForRole Js.codeUnits tables role none ∧
    ∀ tenantId, tenantId ≠ "" → RoleScopes.findScopesForRole db role (some tenantId) =
      findScopesForRole Js.codeUnits tables role (some tenantId) := by
  constructor
  · rw [findScopesForRole_default, orderBy_codeUnits]
    simp only [RoleScopes.findScopesForRole, h.roleScope, defaultScopes]
  · intro tenantId htenant
    rw [findScopesForRole_tenant htenant, orderBy_codeUnits]
    simp only [RoleScopes.findScopesForRole, h.roleScope, h.tenantRoleScope, defaultScopes]

theorem getTenantRoleMapping_db {tables : Tables} {db : Db} (h : Shows tables db)
    (hkeys : Table.UniqueKeys TenantRoleScopeRow.key tables.tenantRoleScope)
    (tenantId : TenantId) :
    RoleScopes.getTenantRoleMapping db tenantId =
      getTenantRoleMapping Js.codeUnits tables tenantId := by
  rw [getTenantRoleMapping_eq, getTenantRoleMapping]
  refine List.map_congr_left fun role _ => ?_
  rw [mapGet_findTenantOverrides hkeys, mapGet_findDefaultRoleScopes]
  have hdefault : arrayAgg Js.codeUnits (defaultScopes tables role) =
      RoleScopes.findDefaultRoleScopes db role := by
    simp only [arrayAgg, orderBy_codeUnits, RoleScopes.findDefaultRoleScopes, h.roleScope,
      defaultScopes]
    congr
  simp only [resolve, h.tenantRoleScope, hdefault]
  cases overrideScopes tables tenantId role <;> rfl

end VcCommonService.RoleScopes.Sql
