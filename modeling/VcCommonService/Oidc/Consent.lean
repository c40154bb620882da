import VcCommonService.Oidc.GrantScopes
import Mathlib.Data.Set.Basic
import Mathlib.Logic.Function.Iterate

/-!
# Repeated consent

`oidc-provider` asks for consent while the current grant lacks a requested scope, and the
grant of the last consent is the current one. Each consent of the controller saves a new
grant with the missing scopes alone, so what the previous grant held is missing next. The
rounds end only if the prior grant holds everything or nothing of the request.
-/

namespace VcCommonService.Oidc
open Lib Auth TenantUsers RoleScopes

/-! ### Taking turns -/

section Turns

variable {α : Type*} {request granted : Set α}

/-- After an odd number of turns the grant holds what was missing, after an even number
what was there. -/
theorem iterate_missing (request granted : Set α) (n : ℕ) :
    (fun s => request \ s)^[n + 1] granted = request \ granted ∨
      (fun s => request \ s)^[n + 1] granted = request ∩ granted := by
  induction n with
  | zero => exact Or.inl rfl
  | succ n ih =>
    rw [Function.iterate_succ_apply']
    rcases ih with h | h
    · rw [h, sdiff_sdiff_right_self]
      exact Or.inr rfl
    · rw [h, Set.sdiff_self_inter]
      exact Or.inl rfl

theorem exists_iterate_covers_iff (request granted : Set α) :
    (∃ n, request ⊆ (fun s => request \ s)^[n] granted) ↔
      request ⊆ granted ∨ ∀ a ∈ request, a ∉ granted := by
  constructor
  · rintro ⟨n, hn⟩
    cases n with
    | zero => exact Or.inl hn
    | succ n =>
      rcases iterate_missing request granted n with h | h
      · rw [h] at hn
        exact Or.inr fun a ha => (hn ha).2
      · rw [h] at hn
        exact Or.inl fun a ha => (hn ha).2
  · rintro (h | h)
    · exact ⟨0, h⟩
    · exact ⟨1, fun a ha => ⟨ha, h a ha⟩⟩

end Turns

/-! ### The prompt -/

structure ScopeRequest where
  oidcScopes : List String
  resourceScopes : List (String × List String)
  deriving Repr, DecidableEq

def resourceScopesOf (resources : List (String × List String)) (resource : String) :
    List String :=
  (resources.filter fun entry => decide (entry.1 = resource)).flatMap Prod.snd

def missingOidc (request : ScopeRequest) (grant : Grant) : List String :=
  request.oidcScopes.filter fun scope => !grant.oidcScopes.contains scope

def missingResources (request : ScopeRequest) (grant : Grant) : List (String × List String) :=
  (request.resourceScopes.map fun entry =>
    (entry.1, entry.2.filter fun scope =>
      !(resourceScopesOf grant.resourceScopes entry.1).contains scope)).filter
    fun entry => decide (entry.2 ≠ [])

/-- `missingOIDCScope` and `missingResourceScopes` of the consent prompt, each present
only when something is missing. -/
def consentPrompt (request : ScopeRequest) (grant : Grant) : PromptDetails where
  missingOIDCScope :=
    if missingOidc request grant = [] then none else some (missingOidc request grant)
  missingResourceScopes :=
    if missingResources request grant = [] then none else some (missingResources request grant)

def nothingMissing (request : ScopeRequest) (grant : Grant) : Bool :=
  decide (missingOidc request grant = [] ∧ missingResources request grant = [])

/-- Consent is asked for and given while something is missing, `n` times at most. -/
def consentRounds (db : Db) (clientId accountId : Option String) (request : ScopeRequest) :
    ℕ → Grant → Except GrantError Grant
  | 0, grant => .ok grant
  | n + 1, grant =>
    if nothingMissing request grant then .ok grant
    else do
      let next ← loginGrant db clientId accountId (consentPrompt request grant)
      consentRounds db clientId accountId request n next

def ConsentConverges (db : Db) (clientId accountId : Option String) (request : ScopeRequest)
    (grant : Grant) : Prop :=
  ∃ n final, consentRounds db clientId accountId request n grant = .ok final ∧
    nothingMissing request final = true

/-! ### Scopes as sets -/

/-- A scope of the provider itself, or of a resource. -/
abbrev ScopeItem := String ⊕ String × String

def itemsOf (oidcScopes : List String) (resourceScopes : List (String × List String)) :
    Set ScopeItem
  | .inl scope => scope ∈ oidcScopes
  | .inr (resource, scope) => scope ∈ resourceScopesOf resourceScopes resource

def ScopeRequest.items (request : ScopeRequest) : Set ScopeItem :=
  itemsOf request.oidcScopes request.resourceScopes

def Grant.items (grant : Grant) : Set ScopeItem := itemsOf grant.oidcScopes grant.resourceScopes

section Items

variable {request : ScopeRequest} {grant : Grant}

theorem mem_resourceScopesOf (resources : List (String × List String)) (resource scope : String) :
    scope ∈ resourceScopesOf resources resource ↔
      ∃ scopes, (resource, scopes) ∈ resources ∧ scope ∈ scopes := by
  simp only [resourceScopesOf, List.mem_flatMap, List.mem_filter, decide_eq_true_eq]
  constructor
  · rintro ⟨⟨r, scopes⟩, ⟨hmem, rfl⟩, hscope⟩
    exact ⟨scopes, hmem, hscope⟩
  · rintro ⟨scopes, hmem, hscope⟩
    exact ⟨(resource, scopes), ⟨hmem, rfl⟩, hscope⟩

theorem mem_missingResources (resource scope : String) :
    scope ∈ resourceScopesOf (missingResources request grant) resource ↔
      scope ∈ resourceScopesOf request.resourceScopes resource ∧
        scope ∉ resourceScopesOf grant.resourceScopes resource := by
  rw [mem_resourceScopesOf, mem_resourceScopesOf request.resourceScopes]
  simp only [missingResources, List.mem_filter, List.mem_map, decide_eq_true_eq, Prod.mk.injEq]
  constructor
  · rintro ⟨scopes, ⟨⟨entry, hentry, rfl, rfl⟩, -⟩, hscope⟩
    obtain ⟨hin, hout⟩ := List.mem_filter.mp hscope
    exact ⟨⟨entry.2, hentry, hin⟩, by simpa using hout⟩
  · rintro ⟨⟨scopes, hmem, hin⟩, hout⟩
    have hscope : scope ∈ scopes.filter fun scope =>
        !(resourceScopesOf grant.resourceScopes resource).contains scope :=
      List.mem_filter.mpr ⟨hin, by simpa using hout⟩
    exact ⟨_, ⟨⟨(resource, scopes), hmem, rfl, rfl⟩, List.ne_nil_of_mem hscope⟩, hscope⟩

theorem items_missing (request : ScopeRequest) (grant : Grant) :
    itemsOf (missingOidc request grant) (missingResources request grant) =
      request.items \ grant.items := by
  ext item
  cases item with
  | inl scope =>
    have hmem : scope ∈ missingOidc request grant ↔
        scope ∈ request.oidcScopes ∧ scope ∉ grant.oidcScopes := by
      simp [missingOidc]
    exact hmem
  | inr pair => exact mem_missingResources pair.1 pair.2

theorem missingResources_eq_nil_iff :
    missingResources request grant = [] ↔
      ∀ resource scope, scope ∉ resourceScopesOf (missingResources request grant) resource := by
  constructor
  · intro h resource scope hscope
    rw [h] at hscope
    cases hscope
  · intro h
    refine List.eq_nil_iff_forall_not_mem.mpr fun entry hentry => ?_
    have hne : entry.2 ≠ [] := of_decide_eq_true (List.mem_filter.mp hentry).2
    obtain ⟨scope, hscope⟩ := List.exists_mem_of_ne_nil _ hne
    exact h entry.1 scope ((mem_resourceScopesOf _ _ _).mpr ⟨entry.2, hentry, hscope⟩)

theorem nothingMissing_iff (request : ScopeRequest) (grant : Grant) :
    nothingMissing request grant = true ↔ request.items ⊆ grant.items := by
  rw [← Set.sdiff_eq_empty, ← items_missing, nothingMissing, decide_eq_true_eq,
    missingResources_eq_nil_iff, Set.eq_empty_iff_forall_notMem]
  constructor
  · rintro ⟨hoidc, hresource⟩ item
    cases item with
    | inl scope =>
      intro hmem
      have hin : scope ∈ missingOidc request grant := hmem
      rw [hoidc] at hin
      cases hin
    | inr pair => exact hresource pair.1 pair.2
  · intro h
    exact ⟨List.eq_nil_iff_forall_not_mem.mpr fun scope => h (.inl scope),
      fun resource scope => h (.inr (resource, scope))⟩

end Items

/-! ### Rounds -/

section Rounds

variable {db : Db} {clientId : Option String} {u : TenantUser} {request : ScopeRequest}

theorem consent_round (hfind : findById db.tenantUsers u.id = some u) (hactive : u.status = .active)
    (hpermitted : ∀ scope ∈ request.oidcScopes,
      scope ∈ standardOidcScopes ∨ scope ∈ mappedScopes db u) (grant : Grant) :
    ∃ next, loginGrant db clientId (some u.id) (consentPrompt request grant) = .ok next ∧
      next.items = request.items \ grant.items := by
  have hoidc : (consentPrompt request grant).missingOIDCScope.getD [] =
      missingOidc request grant := by
    unfold consentPrompt
    split
    next h => rw [h]; rfl
    next => rfl
  have hresource : (consentPrompt request grant).missingResourceScopes.getD [] =
      missingResources request grant := by
    unfold consentPrompt
    dsimp only
    split
    next h => rw [h]; rfl
    next => rfl
  refine ⟨_, (loginGrant_ok_iff hfind hactive _).mpr ⟨rfl, ?_⟩, ?_⟩
  · intro scope hscope
    rw [hoidc] at hscope
    exact hpermitted scope (List.mem_of_mem_filter hscope)
  · rw [Grant.items, ← items_missing]
    dsimp only
    rw [hoidc, hresource]

/-- The rounds end with everything granted exactly when some number of turns covers the
request. -/
theorem consentConverges_iff_iterate (hfind : findById db.tenantUsers u.id = some u)
    (hactive : u.status = .active) (hpermitted : ∀ scope ∈ request.oidcScopes,
      scope ∈ standardOidcScopes ∨ scope ∈ mappedScopes db u) (grant : Grant) :
    ConsentConverges db clientId (some u.id) request grant ↔
      ∃ n, request.items ⊆ (fun s => request.items \ s)^[n] grant.items := by
  constructor
  · rintro ⟨n, final, hrun, hdone⟩
    induction n generalizing grant with
    | zero =>
      cases hrun
      exact ⟨0, (nothingMissing_iff request final).mp hdone⟩
    | succ n ih =>
      rw [consentRounds] at hrun
      split at hrun
      next hnothing => exact ⟨0, (nothingMissing_iff request grant).mp hnothing⟩
      next =>
        obtain ⟨next, hnext, hitems⟩ := @consent_round db clientId u request hfind hactive
          hpermitted grant
        rw [hnext] at hrun
        obtain ⟨m, hm⟩ := ih next hrun
        exact ⟨m + 1, by rwa [Function.iterate_succ_apply, ← hitems]⟩
  · rintro ⟨n, hn⟩
    induction n generalizing grant with
    | zero => exact ⟨0, grant, rfl, (nothingMissing_iff request grant).mpr hn⟩
    | succ n ih =>
      by_cases hnothing : nothingMissing request grant = true
      · exact ⟨0, grant, rfl, hnothing⟩
      · obtain ⟨next, hnext, hitems⟩ := @consent_round db clientId u request hfind hactive
          hpermitted grant
        rw [Function.iterate_succ_apply, ← hitems] at hn
        obtain ⟨m, final, hrun, hdone⟩ := ih next hn
        refine ⟨m + 1, final, ?_, hdone⟩
        rw [consentRounds, if_neg hnothing, hnext]
        exact hrun

end Rounds

/-- Repeated consent ends if and only if the prior grant holds all of the request or none
of it. -/
theorem consent_converges_iff (db : Db) (clientId : Option String) (u : TenantUser)
    (request : ScopeRequest) (prior : Grant)
    (hunique : Table.UniqueKeys TenantUser.id db.tenantUsers) (hu : u ∈ db.tenantUsers)
    (hactive : u.status = .active) (hpermitted : ∀ scope ∈ request.oidcScopes,
      scope ∈ standardOidcScopes ∨ scope ∈ mappedScopes db u) :
    ConsentConverges db clientId (some u.id) request prior ↔
      request.items ⊆ prior.items ∨ ∀ item ∈ request.items, item ∉ prior.items :=
  (consentConverges_iff_iterate (findById_eq hunique hu) hactive hpermitted prior).trans
    (exists_iterate_covers_iff request.items prior.items)

/-! ### One more scope than last time -/

def firstConsent : Grant := { clientId := none, accountId := some "u3", oidcScopes := ["openid"] }

def memberRequest (oidcScopes : List String) : ScopeRequest := ⟨oidcScopes, []⟩

theorem consent_converges_fresh :
    ConsentConverges seededMembers none (some seededMember.id)
      (memberRequest ["openid", "profile"]) { clientId := none, accountId := some "u3" } := by
  refine (consent_converges_iff seededMembers none seededMember (memberRequest ["openid", "profile"])
    _ (by decide) (by decide) rfl (by decide)).mpr (Or.inr ?_)
  intro item _ hitem
  cases item with
  | inl scope => cases hitem
  | inr pair => cases hitem

/-- `openid` was granted before; with `profile` asked for as well, each grant lacks the
other scope. -/
theorem consent_diverges : ¬ ∀ (db : Db) (clientId : Option String) (u : TenantUser)
    (request : ScopeRequest) (prior : Grant),
    Table.UniqueKeys TenantUser.id db.tenantUsers → u ∈ db.tenantUsers → u.status = .active →
    (∀ scope ∈ request.oidcScopes, scope ∈ standardOidcScopes ∨ scope ∈ mappedScopes db u) →
    ConsentConverges db clientId (some u.id) request prior := by
  intro hall
  have hunique : Table.UniqueKeys TenantUser.id seededMembers.tenantUsers := by decide
  have hpermitted : ∀ scope ∈ (memberRequest ["openid", "profile"]).oidcScopes,
      scope ∈ standardOidcScopes ∨ scope ∈ mappedScopes seededMembers seededMember := by decide
  have hconv := hall seededMembers none seededMember (memberRequest ["openid", "profile"])
    firstConsent hunique (by decide) rfl hpermitted
  rw [consentConverges_iff_iterate (findById_eq hunique (by decide)) rfl hpermitted,
    exists_iterate_covers_iff] at hconv
  rcases hconv with h | h
  · have hprofile : "profile" ∈ firstConsent.oidcScopes :=
      h (show Sum.inl "profile" ∈ _ from (by decide : "profile" ∈ ["openid", "profile"]))
    revert hprofile
    decide
  · exact h (.inl "openid") (show Sum.inl "openid" ∈ _ from
      (by decide : "openid" ∈ ["openid", "profile"])) (by decide : "openid" ∈ ["openid"])

end VcCommonService.Oidc
