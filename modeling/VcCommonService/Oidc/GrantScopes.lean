import VcCommonService.Oidc.Grant
import VcCommonService.RoleScope.Mapping
import VcCommonService.TenantUser.Service

/-!
# Which scopes a login is granted

`createAndSaveGrant` compares the requested OIDC scopes with the scopes mapped to the role
as they are written, while every API check expands the superuser scope first. The order
of roles that the API sees is therefore the order of logins only where no mapped scope is
held through the superuser scope alone.
-/

namespace VcCommonService.Oidc
open Lib Auth TenantUsers RoleScopes

/-- `createAndSaveGrant` with its ports answered from the tables. -/
def loginGrant (db : Db) (clientId accountId : Option String) (prompt : PromptDetails) :
    Except GrantError Grant :=
  createAndSaveGrant (fun id => id.bind (findById db.tenantUsers))
    (fun role tenantId => findScopesForRole db role (some tenantId)) clientId accountId prompt

def mappedScopes (db : Db) (u : TenantUser) : List String :=
  findScopesForRole db u.role (some u.tenantId)

section Spec

variable {db : Db} {u : TenantUser} {clientId : Option String} {prompt : PromptDetails}

theorem grantOidcScopes_ok_iff (role : TenantRole) (roleScopes : List String)
    (missing : Option (List String)) (granted : List String) :
    grantOidcScopes role roleScopes missing = .ok granted ↔
      granted = missing.getD [] ∧
        ∀ scope ∈ missing.getD [], scope ∈ standardOidcScopes ∨ scope ∈ roleScopes := by
  cases missing with
  | none => simp [grantOidcScopes, eq_comm]
  | some requested =>
    let input : PartitionRequestedScopesInput :=
      { requestedScopes := requested, allowedScopes := standardOidcScopes ++ roleScopes
        actorScopes := standardOidcScopes ++ roleScopes }
    have hpermitted : ∀ scope, permitted input scope = true ↔
        scope ∈ standardOidcScopes ∨ scope ∈ roleScopes := by
      intro scope
      simp [permitted, input]
    have hdenied := deniedScopes_eq_nil input
    simp only [hpermitted] at hdenied
    have hgranted : (partitionRequestedScopes input).deniedScopes = [] →
        (partitionRequestedScopes input).grantedScopes = requested := by
      intro hnil
      rw [partitionRequestedScopes_eq]
      refine List.filter_eq_self.mpr fun scope hscope => ?_
      exact (hpermitted scope).mpr (hdenied.mp hnil scope hscope)
    unfold grantOidcScopes
    dsimp only
    split
    next hlen =>
      have hne : (partitionRequestedScopes input).deniedScopes ≠ [] :=
        List.ne_nil_of_length_pos hlen
      simp only [reduceCtorEq, false_iff, not_and]
      intro _ hall
      exact hne (hdenied.mpr hall)
    next hlen =>
      have hnil : (partitionRequestedScopes input).deniedScopes = [] :=
        List.eq_nil_of_length_eq_zero (Nat.eq_zero_of_not_pos hlen)
      have hg : (partitionRequestedScopes input).grantedScopes = requested := hgranted hnil
      rw [Except.ok.injEq, hg]
      exact ⟨fun h => ⟨h.symm, hdenied.mp hnil⟩, fun h => h.1.symm⟩

theorem loginGrant_ok_iff (hfind : findById db.tenantUsers u.id = some u)
    (hactive : u.status = .active) (grant : Grant) :
    loginGrant db clientId (some u.id) prompt = .ok grant ↔
      grant = ⟨clientId, some u.id, prompt.missingOIDCScope.getD [],
        prompt.missingResourceScopes.getD []⟩ ∧
      ∀ scope ∈ prompt.missingOIDCScope.getD [],
        scope ∈ standardOidcScopes ∨ scope ∈ mappedScopes db u := by
  have hok := grantOidcScopes_ok_iff u.role (mappedScopes db u) prompt.missingOIDCScope
  simp only [loginGrant, createAndSaveGrant, Option.bind_some, hfind, hactive, ne_eq,
    not_true_eq_false, if_false, bind_eq_ok, mappedScopes] at hok ⊢
  constructor
  · rintro ⟨granted, hgranted, hgrant⟩
    obtain ⟨rfl, hall⟩ := (hok granted).mp hgranted
    exact ⟨(Except.ok.inj hgrant).symm, hall⟩
  · rintro ⟨rfl, hall⟩
    exact ⟨_, (hok _).mpr ⟨rfl, hall⟩, rfl⟩

theorem loginGrant_user {accountId : Option String} {grant : Grant}
    (h : loginGrant db clientId accountId prompt = .ok grant) :
    ∃ u, accountId = some u.id ∧ findById db.tenantUsers u.id = some u ∧ u.status = .active := by
  cases accountId with
  | none => cases h
  | some id =>
    cases hfind : findById db.tenantUsers id with
    | none => simp [loginGrant, createAndSaveGrant, hfind] at h
    | some u =>
      have hp := List.find?_some hfind
      have hid : u.id = id := of_decide_eq_true hp
      subst hid
      by_cases hactive : u.status = .active
      · exact ⟨u, rfl, hfind, hactive⟩
      · simp [loginGrant, createAndSaveGrant, hfind, hactive] at h

end Spec

/-! ### The order of roles -/

def Accepts (db : Db) (clientId : Option String) (u : TenantUser) (requested : List String) :
    Prop :=
  ∃ grant, loginGrant db clientId (some u.id) { missingOIDCScope := some requested } = .ok grant

/-- The role of `u` is at least that of `v` for the API. -/
def AtLeast (db : Db) (u v : TenantUser) : Prop :=
  ∀ scope ∈ expandEffectiveScopes (mappedScopes db v),
    scope ∈ expandEffectiveScopes (mappedScopes db u)

instance (db : Db) (u v : TenantUser) : Decidable (AtLeast db u v) :=
  inferInstanceAs (Decidable (∀ scope ∈ expandEffectiveScopes (mappedScopes db v),
    scope ∈ expandEffectiveScopes (mappedScopes db u)))

theorem accepts_iff {db : Db} {clientId : Option String} {u : TenantUser}
    (hu : Table.UniqueKeys TenantUser.id db.tenantUsers) (hmem : u ∈ db.tenantUsers)
    (hactive : u.status = .active) (requested : List String) :
    Accepts db clientId u requested ↔
      ∀ scope ∈ requested, scope ∈ standardOidcScopes ∨ scope ∈ mappedScopes db u := by
  unfold Accepts
  simp only [loginGrant_ok_iff (findById_eq hu hmem) hactive, Option.getD_some,
    exists_eq_left]

/-- Where the API ranks the role of `u` above that of `v`, logins respect the rank if and
only if every scope mapped to the role of `v` is mapped to that of `u` as well. -/
theorem login_respects_hierarchy_iff (db : Db) (clientId : Option String) (u v : TenantUser)
    (hunique : Table.UniqueKeys TenantUser.id db.tenantUsers)
    (hu : u ∈ db.tenantUsers) (hv : v ∈ db.tenantUsers)
    (huactive : u.status = .active) (hvactive : v.status = .active) :
    (AtLeast db u v → ∀ requested, Accepts db clientId v requested →
        Accepts db clientId u requested) ↔
      (AtLeast db u v → ∀ scope ∈ mappedScopes db v,
        scope ∈ standardOidcScopes ∨ scope ∈ mappedScopes db u) := by
  simp only [accepts_iff hunique hu huactive, accepts_iff hunique hv hvactive]
  refine imp_congr_right fun _ => ?_
  constructor
  · intro h scope hscope
    exact h [scope] (by simp [hscope]) scope (List.mem_singleton.mpr rfl)
  · intro h requested hreq scope hscope
    rcases hreq scope hscope with hstd | hmapped
    · exact Or.inl hstd
    · exact h scope hmapped

/-! ### The seeded mapping -/

def seededOwner : TenantUser := ⟨"u1", "t", some "k1", "a@example.com", none, .owner, .active⟩
def seededAdmin : TenantUser := ⟨"u2", "t", some "k2", "b@example.com", none, .admin, .active⟩
def seededMember : TenantUser := ⟨"u3", "t", some "k3", "c@example.com", none, .member, .active⟩

def seededMembers : Db := { seededDb with tenantUsers := [seededOwner, seededAdmin, seededMember] }

theorem login_respects_hierarchy_admin :
    AtLeast seededMembers seededAdmin seededMember ∧ ∀ requested,
      Accepts seededMembers none seededMember requested →
      Accepts seededMembers none seededAdmin requested := by
  have hrank : AtLeast seededMembers seededAdmin seededMember := by decide +kernel
  refine ⟨hrank, (login_respects_hierarchy_iff seededMembers none seededAdmin seededMember
    (by decide) (by decide) (by decide) rfl rfl).mpr (fun _ => ?_) hrank⟩
  decide +kernel

theorem login_breaks_hierarchy : ¬ ∀ (db : Db) (clientId : Option String) (u v : TenantUser),
    Table.UniqueKeys TenantUser.id db.tenantUsers → u ∈ db.tenantUsers → v ∈ db.tenantUsers →
    u.tenantId = v.tenantId → u.status = .active → v.status = .active → AtLeast db u v →
    ∀ requested, Accepts db clientId v requested → Accepts db clientId u requested := by
  intro hall
  have hunique : Table.UniqueKeys TenantUser.id seededMembers.tenantUsers := by decide
  have haccepts := hall seededMembers none seededOwner seededAdmin hunique (by decide) (by decide)
    rfl rfl rfl (by decide +kernel) ["credentials:offer"]
  rw [accepts_iff hunique (by decide) rfl, accepts_iff hunique (by decide) rfl] at haccepts
  revert haccepts
  decide +kernel

end VcCommonService.Oidc
