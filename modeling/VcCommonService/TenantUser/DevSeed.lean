import VcCommonService.TenantUser.Constraints

/-!
# Seeded users (`dev-seed.service.ts`, `seed-tenant-user.repository.ts`)

The development seed writes its users at every start, beside the sign-ins that claim them. It
refreshes a row whole only while the row carries the subject that the seed gave it.
-/

namespace VcCommonService.TenantUsers
open Lib Auth

/-! ### `dev-seed.data.ts` -/

structure SeedUserDefinition where
  externalUserId : Option String
  email : String
  displayName : String
  role : TenantRole
  status : TenantUserStatus
  deriving DecidableEq

def uiSpaTenantSlug : String := "acme-corp"

def multiTenantEmail : String := "multi-tenant@example.test"

def rolesByTenant (slug : String) : Option TenantRole :=
  if slug = "acme-corp" then some .admin
  else if slug = "test-org" then some .owner
  else if slug = "suspended-co" then some .member
  else none

def seedUser (slug : String) (role : TenantRole) (label : String) : SeedUserDefinition where
  externalUserId :=
    if slug = uiSpaTenantSlug then none else some ("dev-" ++ slug ++ "-" ++ role.name)
  email := role.name ++ "@" ++ slug ++ ".example.test"
  displayName := slug ++ " " ++ label
  role := role
  status := if slug = uiSpaTenantSlug then .invited else .active

def multiTenantUser (role : TenantRole) : SeedUserDefinition where
  externalUserId := some "7d2f6a9c-3e1b-4f8a-9c5d-2b6e8a1f4c73"
  email := multiTenantEmail
  displayName := "Multi Tenant"
  role := role
  status := .active

def seedUsersForTenant (slug : String) : List SeedUserDefinition :=
  [seedUser slug .owner "Owner", seedUser slug .admin "Admin", seedUser slug .member "Member"] ++
    (rolesByTenant slug).toList.map multiTenantUser

/-! ### `SeedTenantUserRepository` -/

def isSeeded (tenantId : TenantId) (userDef : SeedUserDefinition) (u : TenantUser) : Bool :=
  decide (u.tenantId = tenantId ∧ u.email = userDef.email ∧
    u.externalUserId = userDef.externalUserId)

def refreshed (userDef : SeedUserDefinition) (u : TenantUser) : TenantUser :=
  { u with status := userDef.status, displayName := some userDef.displayName, role := userDef.role }

def refreshSeeded (users : List TenantUser) (tenantId : TenantId) (userDef : SeedUserDefinition) :
    List TenantUser × Bool :=
  (Table.updateWhere (isSeeded tenantId userDef) (refreshed userDef) users,
    users.any (isSeeded tenantId userDef))

def hasEmail (tenantId : TenantId) (userDef : SeedUserDefinition) (u : TenantUser) : Bool :=
  decide (u.tenantId = tenantId ∧ u.email = userDef.email)

def renamed (userDef : SeedUserDefinition) (u : TenantUser) : TenantUser :=
  { u with displayName := some userDef.displayName, role := userDef.role }

def setDisplayNameAndRole (users : List TenantUser) (tenantId : TenantId)
    (userDef : SeedUserDefinition) : List TenantUser × Bool :=
  (Table.updateWhere (hasEmail tenantId userDef) (renamed userDef) users,
    users.any (hasEmail tenantId userDef))

def seededUser (generatedId : String) (tenantId : TenantId) (userDef : SeedUserDefinition) :
    TenantUser :=
  ⟨generatedId, tenantId, userDef.externalUserId, userDef.email, some userDef.displayName,
    userDef.role, userDef.status⟩

/-! ### `seedUsers`, statement by statement -/

inductive SeedCall where
  | refreshing (tenantId : TenantId) (userDef : SeedUserDefinition)
      (rest : List SeedUserDefinition)
  | setting (tenantId : TenantId) (userDef : SeedUserDefinition) (rest : List SeedUserDefinition)
  | creating (tenantId : TenantId) (userDef : SeedUserDefinition) (rest : List SeedUserDefinition)
  | seeded (tenantId : TenantId)
  | failed (error : ServiceError)

def seedUsers (tenantId : TenantId) : List SeedUserDefinition → SeedCall
  | [] => .seeded tenantId
  | userDef :: rest => .refreshing tenantId userDef rest

def seedAct (users : List TenantUser) (generatedId : String) :
    SeedCall → Option (List TenantUser × SeedCall)
  | .refreshing tenantId userDef rest =>
    let result := refreshSeeded users tenantId userDef
    some (result.1, if result.2 then seedUsers tenantId rest else .setting tenantId userDef rest)
  | .setting tenantId userDef rest =>
    let result := setDisplayNameAndRole users tenantId userDef
    some (result.1, if result.2 then seedUsers tenantId rest else .creating tenantId userDef rest)
  | .creating tenantId userDef rest =>
    let result := insert users (seededUser generatedId tenantId userDef)
    some (result.1, match result.2 with
      | .ok _ => seedUsers tenantId rest
      | .error e => .failed e)
  | .seeded _ | .failed _ => none

/-! ### The data -/

theorem seed_status {slug : String} {d : SeedUserDefinition} (hd : d ∈ seedUsersForTenant slug) :
    d.status = if d.externalUserId = none then .invited else .active := by
  simp only [seedUsersForTenant, List.mem_append, List.mem_cons, List.not_mem_nil, or_false,
    List.mem_map, Option.mem_toList] at hd
  rcases hd with (rfl | rfl | rfl) | ⟨role, -, rfl⟩
  · by_cases h : slug = uiSpaTenantSlug <;> simp [seedUser, h]
  · by_cases h : slug = uiSpaTenantSlug <;> simp [seedUser, h]
  · by_cases h : slug = uiSpaTenantSlug <;> simp [seedUser, h]
  · rfl

/-- The first two letters tell the addresses of a tenant apart. -/
theorem seed_emails_nodup (slug : String) :
    ((seedUsersForTenant slug).map SeedUserDefinition.email).Nodup := by
  have hseed : ∀ (role : TenantRole) (label : String),
      (seedUser slug role label).email.toList.take 2 = role.name.toList.take 2 := by
    intro role label
    cases role <;> simp [seedUser, TenantRole.name, String.toList_append]
  refine List.Nodup.of_map (fun email => email.toList.take 2) ?_
  rw [seedUsersForTenant]
  cases rolesByTenant slug with
  | none =>
    simp only [Option.toList_none, List.map_nil, List.append_nil, List.map_cons, hseed]
    decide
  | some role =>
    simp only [Option.toList_some, List.map_cons, List.map_nil, List.cons_append, List.nil_append,
      hseed, multiTenantUser]
    decide

theorem seed_eq_of_email {slug : String} {d d' : SeedUserDefinition}
    (hd : d ∈ seedUsersForTenant slug) (hd' : d' ∈ seedUsersForTenant slug)
    (hemail : d.email = d'.email) : d = d' :=
  List.inj_on_of_nodup_map (seed_emails_nodup slug) hd hd' hemail

/-! ### The data fits its columns -/

def endsInSpace (s : String) : Bool := decide (s.toList.getLast? = some ' ')

theorem endsInSpace_append (s : String) {t : String} (ht : t.toList ≠ []) :
    endsInSpace (s ++ t) = endsInSpace t := by
  simp [endsInSpace, String.toList_append, List.getLast?_append_of_ne_nil _ ht]

theorem seed_ends {slug : String} {d : SeedUserDefinition} (hd : d ∈ seedUsersForTenant slug) :
    endsInSpace d.email = false ∧ endsInSpace d.displayName = false ∧
      ∀ sub, d.externalUserId = some sub → endsInSpace sub = false := by
  have hseed : ∀ (role : TenantRole) (label : String), label.toList ≠ [] →
      endsInSpace label = false → endsInSpace (seedUser slug role label).email = false ∧
        endsInSpace (seedUser slug role label).displayName = false ∧
        ∀ sub, (seedUser slug role label).externalUserId = some sub →
          endsInSpace sub = false := by
    intro role label hlabel hends
    refine ⟨(endsInSpace_append _ (by decide)).trans (by decide),
      (endsInSpace_append _ hlabel).trans hends, fun sub hsub => ?_⟩
    simp only [seedUser] at hsub
    split at hsub
    · cases hsub
    · cases hsub
      rw [endsInSpace_append _ (by cases role <;> decide)]
      cases role <;> decide
  simp only [seedUsersForTenant, List.mem_append, List.mem_cons, List.not_mem_nil, or_false,
    List.mem_map, Option.mem_toList] at hd
  rcases hd with (rfl | rfl | rfl) | ⟨role, -, rfl⟩
  · exact hseed .owner "Owner" (by decide) (by decide)
  · exact hseed .admin "Admin" (by decide) (by decide)
  · exact hseed .member "Member" (by decide) (by decide)
  · have hemail : endsInSpace multiTenantEmail = false := by decide
    have hname : endsInSpace "Multi Tenant" = false := by decide
    refine ⟨hemail, hname, fun sub hsub => ?_⟩
    cases hsub
    decide

/-- Nothing of a seeded user is cut off. -/
theorem storedUser_seeded {slug : String} {d : SeedUserDefinition}
    (hd : d ∈ seedUsersForTenant slug) {generatedId : String} {tenantId : TenantId}
    {row : TenantUser} (h : storedUser (seededUser generatedId tenantId d) = some row) :
    row = seededUser generatedId tenantId d := by
  obtain ⟨hemail, hname, hsub⟩ := seed_ends hd
  obtain ⟨hid, htenant, hrole, hstatus, hext, hmail, hdisplay⟩ := storedUser_eq h
  have hends : ∀ {s : String}, endsInSpace s = false → s.toList.getLast? ≠ some ' ' :=
    fun he => of_decide_eq_false he
  have hrowEmail : row.email = d.email := Varchar.eq_of_stored hmail (hends hemail)
  have hrowName : row.displayName = some d.displayName := by
    obtain ⟨name, hstored, he⟩ := Option.map_eq_some_iff.mp hdisplay
    rw [← he, Varchar.eq_of_stored hstored (hends hname)]
  have hrowExt : row.externalUserId = d.externalUserId := by
    simp only [seededUser] at hext
    cases hd : d.externalUserId with
    | none =>
      rw [hd] at hext
      exact (Option.some.inj hext).symm
    | some sub =>
      rw [hd] at hext
      obtain ⟨stored, hstored, he⟩ := Option.map_eq_some_iff.mp hext
      rw [← he, Varchar.eq_of_stored hstored (hends (hsub sub hd))]
  cases row
  simp only [seededUser, TenantUser.mk.injEq]
  exact ⟨hid, htenant, hrowExt, hrowEmail, hrowName, hrole, hstatus⟩

end VcCommonService.TenantUsers
