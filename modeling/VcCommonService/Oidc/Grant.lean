import VcCommonService.TenantUser.Model

/-!
# Grants of the interaction controller (`oidc-interaction.controller.ts`)

`createAndSaveGrant` up to the save. The ports of the controller are the answers they
give at that moment, and the prompt is what `oidc-provider` reports as missing.
-/

namespace VcCommonService.Oidc
open Auth TenantUsers

def standardOidcScopes : List String := ["openid", "profile", "email", "tenant", "offline_access"]

structure PromptDetails where
  missingOIDCScope : Option (List String) := none
  missingResourceScopes : Option (List (String × List String)) := none
  deriving Repr, DecidableEq

/-- A grant with the scopes added to it; an account id that was never stored is `null`. -/
structure Grant where
  clientId : Option String
  accountId : Option String
  oidcScopes : List String := []
  resourceScopes : List (String × List String) := []
  deriving Repr, DecidableEq

inductive GrantError where
  | userNotActive (accountId : Option String)
  | unauthorizedOidcScopeRequest (role : TenantRole) (deniedScopes : List String)
  deriving Repr, DecidableEq

def GrantError.message : GrantError → String
  | .userNotActive accountId => "Active tenant user not found: " ++ accountId.getD "null"
  | .unauthorizedOidcScopeRequest role deniedScopes =>
    "Requested scopes exceed tenant-user role \"" ++ role.name ++ "\": " ++ commaJoin deniedScopes

def grantOidcScopes (role : TenantRole) (roleScopes : List String) :
    Option (List String) → Except GrantError (List String)
  | none => .ok []
  | some requestedScopes =>
    let allowedScopes := standardOidcScopes ++ roleScopes
    let r := partitionRequestedScopes { requestedScopes, allowedScopes, actorScopes := allowedScopes }
    if r.deniedScopes.length > 0 then .error (.unauthorizedOidcScopeRequest role r.deniedScopes)
    else .ok r.grantedScopes

/-- The grant that is saved. Resource scopes are added as they are asked for. -/
def createAndSaveGrant (findById : Option String → Option TenantUser)
    (findScopesForRole : TenantRole → TenantId → List String)
    (clientId accountId : Option String) (prompt : PromptDetails) : Except GrantError Grant :=
  match findById accountId with
  | none => .error (.userNotActive accountId)
  | some user =>
    if user.status ≠ .active then .error (.userNotActive accountId)
    else do
      let roleScopes := findScopesForRole user.role user.tenantId
      let oidcScopes ← grantOidcScopes user.role roleScopes prompt.missingOIDCScope
      return { clientId, accountId, oidcScopes
               resourceScopes := prompt.missingResourceScopes.getD [] }

end VcCommonService.Oidc
