import VcCommonService.Lib.Transaction
import VcCommonService.Oidc.SwitchTenant

/-!
# The grant that a login saves

`createAndSaveGrant` statement by statement. The missing OIDC scopes are compared with the role
before anything is saved; the missing resource scopes go onto the grant unseen.
-/

namespace VcCommonService.Oidc
open Lib Auth TenantUsers RoleScopes

def activeUser (accountId : Option String) (found : Option TenantUser) :
    Except GrantError TenantUser :=
  match found with
  | none => .error (.userNotActive accountId)
  | some user =>
    if user.status ≠ .active then .error (.userNotActive accountId) else .ok user

/-- `grantId` is the id that the provider draws for the new grant. -/
def saveNewGrant (clientId accountId : Option String) (prompt : PromptDetails) (grantId : String) :
    Transaction.Action GrantError Sessions String := do
  let found ← Transaction.query .dataSource fun s =>
    (accountId.bind (findById s.db.tenantUsers), s)
  let user ← Transaction.check (activeUser accountId found)
  let roleScopes ← Transaction.query .dataSource fun s => (mappedScopes s.db user, s)
  let oidcScopes ← Transaction.check
    (grantOidcScopes user.role roleScopes prompt.missingOIDCScope)
  Transaction.query .dataSource fun s =>
    ((), storeGrant s grantId
      ⟨clientId, accountId, oidcScopes, prompt.missingResourceScopes.getD []⟩)
  return grantId

/-- The statements do what `login` does; an exception leaves the store as it was. -/
theorem saveNewGrant_eq (s : Sessions) (clientId accountId : Option String) (prompt : PromptDetails)
    (grantId : String) :
    saveNewGrant clientId accountId prompt grantId ⟨s, none⟩ =
      match login s clientId accountId prompt grantId with
      | .ok s' => (.ok grantId, ⟨s', none⟩)
      | .error e => (.error e, ⟨s, none⟩) := by
  simp only [saveNewGrant, login, loginGrant, createAndSaveGrant, activeUser, mappedScopes,
    Transaction.Action.bind_apply, Transaction.query_dataSource, Transaction.Action.next_ok,
    Transaction.check_apply]
  cases accountId.bind (findById s.db.tenantUsers) with
  | none => rfl
  | some user =>
    by_cases hactive : user.status = .active
    · simp only [hactive, ne_eq, not_true_eq_false, if_false, Transaction.Action.next_ok,
        Transaction.Action.bind_apply, Transaction.query_dataSource, Transaction.check_apply]
      cases grantOidcScopes user.role (findScopesForRole s.db user.role (some user.tenantId))
          prompt.missingOIDCScope with
      | error e => rfl
      | ok oidcScopes => rfl
    · simp only [hactive, ne_eq, not_false_eq_true, if_true]
      rfl

/-! ### The property and its condition -/

/-- A standard OIDC scope, or one mapped to the role of the user. -/
def Allowed (s : Sessions) (u : TenantUser) (scope : String) : Prop :=
  scope ∈ standardOidcScopes ∨ scope ∈ mappedScopes s.db u

/-- Every scope of the saved grant is allowed, and an exception saves nothing. -/
structure SavesWithinRole (s : Sessions) (u : TenantUser) (clientId : Option String)
    (prompt : PromptDetails) (grantId : String) : Prop where
  oidcScopes : ∀ id s', saveNewGrant clientId (some u.id) prompt grantId ⟨s, none⟩ = (.ok id, s') →
    ∀ scope ∈ (s'.committed.grants id).oidcScopes, Allowed s u scope
  resourceScopes : ∀ id s',
    saveNewGrant clientId (some u.id) prompt grantId ⟨s, none⟩ = (.ok id, s') →
      ∀ r ∈ (s'.committed.grants id).resourceScopes, ∀ scope ∈ r.2, Allowed s u scope
  refused : ∀ e s', saveNewGrant clientId (some u.id) prompt grantId ⟨s, none⟩ = (.error e, s') →
    s'.committed = s

/-- What is saved for an active user. -/
theorem saveNewGrant_ok_iff {s : Sessions} {u : TenantUser} {clientId : Option String}
    {prompt : PromptDetails} {grantId : String}
    (hfind : findById s.db.tenantUsers u.id = some u) (hactive : u.status = .active) (id : String)
    (s' : Transaction.Store Sessions) :
    saveNewGrant clientId (some u.id) prompt grantId ⟨s, none⟩ = (.ok id, s') ↔
      id = grantId ∧ s' = ⟨storeGrant s grantId ⟨clientId, some u.id,
        prompt.missingOIDCScope.getD [], prompt.missingResourceScopes.getD []⟩, none⟩ ∧
      ∀ scope ∈ prompt.missingOIDCScope.getD [], Allowed s u scope := by
  have hok : ∀ grant, loginGrant s.db clientId (some u.id) prompt = .ok grant ↔ _ :=
    loginGrant_ok_iff hfind hactive
  rw [saveNewGrant_eq, login]
  cases hgrant : loginGrant s.db clientId (some u.id) prompt with
  | error e =>
    refine iff_of_false nofun ?_
    rintro ⟨-, -, hall⟩
    have hsaved := (hok _).mpr ⟨rfl, hall⟩
    rw [hgrant] at hsaved
    cases hsaved
  | ok grant =>
    obtain ⟨rfl, hall⟩ := (hok grant).mp hgrant
    constructor
    · intro h
      cases h
      exact ⟨rfl, rfl, hall⟩
    · rintro ⟨rfl, rfl, -⟩
      rfl

/-- The saved grant stays within the role of an active user if and only if, where the missing OIDC
scopes are all allowed, the missing resource scopes are too. -/
theorem saved_grant_within_role_iff (s : Sessions) (u : TenantUser) (clientId : Option String)
    (prompt : PromptDetails) (grantId : String)
    (hfind : findById s.db.tenantUsers u.id = some u) (hactive : u.status = .active) :
    SavesWithinRole s u clientId prompt grantId ↔
      ((∀ scope ∈ prompt.missingOIDCScope.getD [], Allowed s u scope) →
        ∀ r ∈ prompt.missingResourceScopes.getD [], ∀ scope ∈ r.2, Allowed s u scope) := by
  have hok : ∀ id s', saveNewGrant clientId (some u.id) prompt grantId ⟨s, none⟩ = (.ok id, s') ↔ _ :=
    saveNewGrant_ok_iff hfind hactive
  constructor
  · intro hwithin hall r hr
    have hsaved := hwithin.resourceScopes grantId _ ((hok _ _).mpr ⟨rfl, rfl, hall⟩)
    simp only [storeGrant, Function.update_self] at hsaved
    exact hsaved r hr
  · intro hresources
    refine ⟨fun id s' h => ?_, fun id s' h => ?_, fun e s' h => ?_⟩
    · obtain ⟨rfl, rfl, hall⟩ := (hok id s').mp h
      simpa only [storeGrant, Function.update_self] using hall
    · obtain ⟨rfl, rfl, hall⟩ := (hok id s').mp h
      simpa only [storeGrant, Function.update_self] using hresources hall
    · rw [saveNewGrant_eq] at h
      split at h
      · cases h
      · cases h
        rfl

/-! ### The seeded mapping -/

def memberSessions : Sessions := ⟨seededMembers, fun _ => { clientId := none, accountId := none }⟩

theorem saved_grant_within_role_member :
    SavesWithinRole memberSessions seededMember (some "ui")
      { missingOIDCScope := some ["openid", "profile"] } "g1" :=
  (saved_grant_within_role_iff memberSessions seededMember (some "ui") _ "g1" rfl rfl).mpr
    fun _ => nofun

/-- A member is granted the superuser scope as a resource scope. -/
theorem saved_grant_exceeds_role : ¬ ∀ (s : Sessions) (u : TenantUser) (clientId : Option String)
    (prompt : PromptDetails) (grantId : String), findById s.db.tenantUsers u.id = some u →
    u.status = .active → SavesWithinRole s u clientId prompt grantId := by
  intro hall
  have hwithin := hall memberSessions seededMember (some "ui")
    { missingOIDCScope := some ["openid"]
      missingResourceScopes := some [("https://api", [tenantSuperuserScope])] } "g1" rfl rfl
  have hscope := hwithin.resourceScopes "g1" _
    ((saveNewGrant_ok_iff rfl rfl _ _).mpr ⟨rfl, rfl, fun scope hscope =>
      Or.inl (by simp_all [standardOidcScopes])⟩)
  simp only [storeGrant, Function.update_self, Option.getD_some, List.mem_singleton,
    forall_eq] at hscope
  revert hscope
  unfold Allowed
  decide +kernel

end VcCommonService.Oidc
