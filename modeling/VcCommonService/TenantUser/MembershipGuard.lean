import VcCommonService.TenantUser.Service

/-!
# User tokens and the membership guard

`buildOidcConfiguration` puts the id of the tenant user into the `sub` of a user token.
`TenantMembershipGuard` looks the caller up by that `sub` as an external user id, so it finds
the caller's own row only where the two identifiers are the same.
-/

namespace VcCommonService.TenantUsers
open Lib Auth

/-! ### `findAccount` and `extraTokenClaims` -/

structure AccountClaims where
  sub : String
  email : String
  name : Option String
  tenantId : TenantId
  tenantRole : TenantRole
  deriving Repr, DecidableEq

def findAccount (users : List TenantUser) (accountId : String) : Option AccountClaims :=
  match findById users accountId with
  | none => none
  | some user =>
    if user.status ≠ .active then none
    else some ⟨user.id, user.email, user.displayName, user.tenantId, user.role⟩

structure TokenClaims where
  tenantId : TenantId
  tenantRole : TenantRole
  roles : List String
  deriving Repr, DecidableEq

def extraTokenClaims (users : List TenantUser) (accountId : String) : Option TokenClaims :=
  match findById users accountId with
  | none => none
  | some user =>
    if user.status ≠ .active then none
    else some ⟨user.tenantId, user.role, [user.role.name]⟩

/-- The access token of an account, as `JwtGuard` puts it on the request. -/
def issueUserToken (users : List TenantUser) (accountId : String) (scopes : List String) :
    Option AuthContext := do
  let account ← findAccount users accountId
  let claims ← extraTokenClaims users account.sub
  return { sub := account.sub, tokenType := .user, tenantId := Js.truthy (some claims.tenantId),
           roles := claims.roles, scopes }

/-! ### `TenantMembershipGuard` -/

inductive GuardError where
  | authenticationRequired (code message : String)
  | insufficientTenantRole (message : String) (requiredTenantRoles : List TenantRole)
  deriving Repr, DecidableEq

def resolveRouteTenantId (param : Option String) : Option TenantId :=
  match param with
  | none => none
  | some raw => Js.truthy (some (Js.trim raw))

/-- Admission with `request.callerTenantUser`, or the exception. `requiredRoles` is the
metadata of the handler or its class. -/
def canActivate (users : List TenantUser) (auth : Option AuthContext)
    (requiredRoles : Option (List TenantRole)) (tenantIdParam : Option String) :
    Except GuardError (Option TenantUser) :=
  match auth with
  | none => .error (.authenticationRequired "invalid_token"
      "Authenticated request context is missing")
  | some auth =>
    if isPlatformAdmin auth.roles then .ok none
    else
      let roles := requiredRoles.getD []
      if roles.length = 0 then .ok none
      else
        match resolveRouteTenantId tenantIdParam with
        | none => .ok none
        | some tenantId =>
          let denied := GuardError.insufficientTenantRole
            "Caller does not have a sufficient tenant role for this action" roles
          match findByTenantAndExternalUserId users tenantId auth.sub with
          | none => .error denied
          | some callerTenantUser =>
            if callerTenantUser.status ≠ .active ∨ callerTenantUser.role ∉ roles then
              .error denied
            else .ok (some callerTenantUser)

/-! ### Agreement -/

def ExternalUnique (users : List TenantUser) : Prop :=
  ∀ u ∈ users, ∀ v ∈ users, u.tenantId = v.tenantId → u.externalUserId ≠ none →
    u.externalUserId = v.externalUserId → u = v

def Entitled (roles : List TenantRole) (u : TenantUser) : Prop := u.status = .active ∧ u.role ∈ roles

/-- The guard admits `u` exactly when `u` is entitled, and then as `u`. -/
def Agrees (roles : List TenantRole) (u : TenantUser)
    (outcome : Except GuardError (Option TenantUser)) : Prop :=
  ((∃ caller, outcome = .ok caller) ↔ Entitled roles u) ∧
    ∀ caller, outcome = .ok caller → caller = some u

section Guard

variable {users : List TenantUser} {auth : AuthContext} {roles : List TenantRole}
  {tenantIdParam : Option String} {u : TenantUser}

theorem issueUserToken_roles {accountId : String} {scopes : List String}
    (h : issueUserToken users accountId scopes = some auth) :
    ∃ role : TenantRole, auth.roles = [role.name] := by
  simp only [issueUserToken, Option.bind_eq_bind, Option.bind_eq_some_iff, Option.pure_def,
    Option.some.injEq] at h
  obtain ⟨account, -, claims, hclaims, rfl⟩ := h
  unfold extraTokenClaims at hclaims
  split at hclaims
  · cases hclaims
  next user _ =>
    split at hclaims
    · cases hclaims
    · cases hclaims
      exact ⟨user.role, rfl⟩

theorem not_platformAdmin_of_roles {role : TenantRole} (h : auth.roles = [role.name]) :
    isPlatformAdmin auth.roles = false := by
  rw [h]
  cases role <;> decide

theorem canActivate_eq (hadmin : isPlatformAdmin auth.roles = false) (hroles : roles ≠ [])
    {tenantId : TenantId} (hroute : resolveRouteTenantId tenantIdParam = some tenantId)
    (caller : Option TenantUser) :
    canActivate users (some auth) (some roles) tenantIdParam = .ok caller ↔
      ∃ r, findByTenantAndExternalUserId users tenantId auth.sub = some r ∧ Entitled roles r ∧
        caller = some r := by
  have hlength : ¬ roles.length = 0 := mt List.length_eq_zero_iff.mp hroles
  simp only [canActivate, hadmin, Bool.false_eq_true, if_false, Option.getD_some, hlength, hroute]
  cases findByTenantAndExternalUserId users tenantId auth.sub with
  | none => simp
  | some r =>
    by_cases hentitled : Entitled roles r
    · have hpass : ¬ (r.status ≠ .active ∨ r.role ∉ roles) := by
        rintro (h | h)
        · exact h hentitled.1
        · exact h hentitled.2
      simp only [if_neg hpass, Except.ok.injEq, Option.some.injEq, exists_eq_left']
      exact ⟨fun h => ⟨hentitled, h.symm⟩, fun h => h.2.symm⟩
    · have hfail : r.status ≠ .active ∨ r.role ∉ roles := by
        rw [← not_and_or]
        exact hentitled
      simp only [if_pos hfail, reduceCtorEq, Option.some.injEq, exists_eq_left', false_iff]
      exact fun h => hentitled h.1

theorem findByTenantAndExternalUserId_some {tenantId : TenantId} {sub : String} {r : TenantUser}
    (h : findByTenantAndExternalUserId users tenantId sub = some r) :
    r ∈ users ∧ r.tenantId = tenantId ∧ r.externalUserId = some sub := by
  have hmem := List.mem_of_find?_eq_some h
  have hp := List.find?_some h
  exact ⟨hmem, of_decide_eq_true hp⟩

theorem findByTenantAndExternalUserId_eq (hunique : ExternalUnique users) (hu : u ∈ users)
    {sub : String} (hsub : u.externalUserId = some sub) :
    findByTenantAndExternalUserId users u.tenantId sub = some u := by
  cases hfind : findByTenantAndExternalUserId users u.tenantId sub with
  | none =>
    have hnone := List.find?_eq_none.mp hfind u hu
    simp [hsub] at hnone
  | some r =>
    obtain ⟨hr, htenant, hext⟩ := findByTenantAndExternalUserId_some hfind
    rw [hunique r hr u hu htenant (by simp [hext]) (hext.trans hsub.symm)]

theorem findByTenantAndExternalUserId_iff (hunique : ExternalUnique users) {tenantId : TenantId}
    {sub : String} (r : TenantUser) :
    findByTenantAndExternalUserId users tenantId sub = some r ↔
      r ∈ users ∧ r.tenantId = tenantId ∧ r.externalUserId = some sub := by
  constructor
  · exact findByTenantAndExternalUserId_some
  · rintro ⟨hr, rfl, hsub⟩
    exact findByTenantAndExternalUserId_eq hunique hr hsub

/-- A guard that decides by the row it found agrees with `u` when that row is `u`, or when
neither `u` nor the row it found may pass. -/
theorem agrees_iff {outcome : Except GuardError (Option TenantUser)} {found : Option TenantUser}
    (hdecide : ∀ caller, outcome = .ok caller ↔
      ∃ r, found = some r ∧ Entitled roles r ∧ caller = some r) :
    Agrees roles u outcome ↔
      found = some u ∨ (¬ Entitled roles u ∧ ∀ r, found = some r → ¬ Entitled roles r) := by
  constructor
  · rintro ⟨hiff, hcaller⟩
    by_cases hfound : found = some u
    · exact Or.inl hfound
    · have hnot : ¬ Entitled roles u := by
        intro hent
        obtain ⟨caller, hok⟩ := hiff.mpr hent
        obtain ⟨r, hr, -, hrc⟩ := (hdecide caller).mp hok
        have heq : r = u := Option.some.inj (hrc.symm.trans (hcaller caller hok))
        exact hfound (heq ▸ hr)
      refine Or.inr ⟨hnot, fun r hr hent => hnot (hiff.mp ⟨some r, ?_⟩)⟩
      exact (hdecide (some r)).mpr ⟨r, hr, hent, rfl⟩
  · rintro (hfound | ⟨hnot, hnobody⟩)
    · have hown : ∀ caller, outcome = .ok caller → Entitled roles u ∧ caller = some u := by
        intro caller hok
        obtain ⟨r, hr, hent, hrc⟩ := (hdecide caller).mp hok
        have heq : r = u := Option.some.inj (hr.symm.trans hfound)
        exact heq ▸ ⟨hent, hrc⟩
      refine ⟨⟨fun ⟨caller, hok⟩ => (hown caller hok).1, fun hent => ⟨some u, ?_⟩⟩,
        fun caller hok => (hown caller hok).2⟩
      exact (hdecide (some u)).mpr ⟨u, hfound, hent, rfl⟩
    · have hrefused : ∀ caller, outcome ≠ .ok caller := by
        intro caller hok
        obtain ⟨r, hr, hent, -⟩ := (hdecide caller).mp hok
        exact hnobody r hr hent
      exact ⟨⟨fun ⟨caller, hok⟩ => absurd hok (hrefused caller), fun hent => absurd hent hnot⟩,
        fun caller hok => absurd hok (hrefused caller)⟩

end Guard

/-- The guard agrees with a user token if and only if the caller's external id is the id
that the token carries, or nobody would be admitted either way. -/
theorem guard_agrees_iff (issuedFrom users : List TenantUser) (accountId : String)
    (scopes : List String) (auth : AuthContext) (u : TenantUser) (roles : List TenantRole)
    (tenantIdParam : Option String)
    (hissued : issueUserToken issuedFrom accountId scopes = some auth)
    (hunique : ExternalUnique users) (hu : u ∈ users) (hsub : auth.sub = u.id)
    (htenant : auth.tenantId = some u.tenantId)
    (hroute : resolveRouteTenantId tenantIdParam = auth.tenantId) (hroles : roles ≠ []) :
    Agrees roles u (canActivate users (some auth) (some roles) tenantIdParam) ↔
      u.externalUserId = some u.id ∨
        (¬ Entitled roles u ∧ ∀ r ∈ users, r.tenantId = u.tenantId →
          r.externalUserId = some u.id → ¬ Entitled roles r) := by
  obtain ⟨role, hrole⟩ := issueUserToken_roles hissued
  have hdecide := @canActivate_eq users auth roles tenantIdParam (not_platformAdmin_of_roles hrole)
    hroles _ (hroute.trans htenant)
  rw [hsub] at hdecide
  rw [agrees_iff hdecide]
  simp only [findByTenantAndExternalUserId_iff hunique]
  constructor
  · rintro (⟨-, -, hown⟩ | ⟨hnot, hnobody⟩)
    · exact Or.inl hown
    · exact Or.inr ⟨hnot, fun r hr hrt hext => hnobody r ⟨hr, hrt, hext⟩⟩
  · rintro (hown | ⟨hnot, hothers⟩)
    · exact Or.inl ⟨hu, trivial, hown⟩
    · exact Or.inr ⟨hnot, fun r ⟨hr, hrt, hext⟩ => hothers r hr hrt hext⟩

/-! ### An owner signed in through the provider -/

def federatedOwner (externalUserId : String) : TenantUser :=
  ⟨"u1", "t", some externalUserId, "a@example.com", none, .owner, .active⟩

theorem externalUnique_singleton (u : TenantUser) : ExternalUnique [u] := by
  intro v hv w hw _ _ _
  rw [List.mem_singleton.mp hv, List.mem_singleton.mp hw]

def ownerToken : AuthContext := ⟨"u1", .user, some "t", ["owner"], ["users:manage"]⟩

theorem guard_agrees_same_id :
    Agrees [.owner, .admin] (federatedOwner "u1")
      (canActivate [federatedOwner "u1"] (some ownerToken) (some [.owner, .admin]) (some "t")) := by
  exact (guard_agrees_iff [federatedOwner "u1"] [federatedOwner "u1"] "u1" ["users:manage"]
    ownerToken (federatedOwner "u1") [.owner, .admin] (some "t") (by decide)
    (externalUnique_singleton _) (by simp) rfl rfl (by decide) (by decide)).mpr (Or.inl rfl)

theorem guard_disagrees : ¬ ∀ (issuedFrom users : List TenantUser) (accountId : String)
    (scopes : List String) (auth : AuthContext) (u : TenantUser) (roles : List TenantRole)
    (tenantIdParam : Option String),
    issueUserToken issuedFrom accountId scopes = some auth →
    ExternalUnique users → u ∈ users → auth.sub = u.id → auth.tenantId = some u.tenantId →
    resolveRouteTenantId tenantIdParam = auth.tenantId → roles ≠ [] →
    Agrees roles u (canActivate users (some auth) (some roles) tenantIdParam) := by
  intro hall
  obtain ⟨hiff, -⟩ := hall [federatedOwner "keycloak-1"] [federatedOwner "keycloak-1"] "u1"
    ["users:manage"] ownerToken (federatedOwner "keycloak-1") [.owner, .admin] (some "t")
    (by decide) (externalUnique_singleton _) (by simp) rfl rfl (by decide) (by decide)
  obtain ⟨caller, hok⟩ := hiff.mpr ⟨rfl, by decide⟩
  cases hok

end VcCommonService.TenantUsers
