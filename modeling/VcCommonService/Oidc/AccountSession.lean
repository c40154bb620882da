import VcCommonService.TenantUser.Model

/-!
# Stored provider records (`oidc-account-session.repository.ts`)

The columns of `oidc_model` by which the provider's records of an account are found, the
statements of its adapter, and those that delete or move the records of accounts.
-/

namespace VcCommonService.Oidc
open Lib Auth TenantUsers

/-- The `oidc_model` row; the payload is not read here. -/
structure OidcModel where
  modelName : String
  oidcId : String
  accountId : Option String
  grantId : Option String
  deriving Repr, DecidableEq

def accountBoundModels : List String :=
  ["Session", "Grant", "AccessToken", "RefreshToken", "AuthorizationCode", "DeviceCode",
    "BackchannelAuthenticationRequest"]

def grantsOf (models : List OidcModel) (accounts : List String) : List String :=
  (models.filter fun m => decide (m.modelName = "Grant") &&
    m.accountId.any (accounts.contains ·)).map OidcModel.oidcId

def boundTo (models : List OidcModel) (accounts : List String) (m : OidcModel) : Bool :=
  (accountBoundModels.contains m.modelName && m.accountId.any (accounts.contains ·)) ||
    m.grantId.any ((grantsOf models accounts).contains ·)

/-! ### Adapter -/

def OidcModel.key (m : OidcModel) : String × String := (m.modelName, m.oidcId)

/-- `INSERT … ON CONFLICT (model_name, oidc_id) DO UPDATE`. -/
def upsert (row : OidcModel) (models : List OidcModel) : List OidcModel :=
  Table.save OidcModel.key row models

def findModel (live : OidcModel → Bool) (models : List OidcModel) (modelName oidcId : String) :
    Option OidcModel :=
  (models.find? fun m => decide (m.key = (modelName, oidcId))).filter live

def destroy (modelName oidcId : String) (models : List OidcModel) : List OidcModel :=
  Table.deleteWhere (fun m => decide (m.key = (modelName, oidcId))) models

def revokeByGrantId (modelName grantId : String) (models : List OidcModel) : List OidcModel :=
  Table.deleteWhere (fun m => decide (m.modelName = modelName ∧ m.grantId = some grantId)) models

/-! ### Accounts -/

def deleteAllForAccount (models : List OidcModel) (accountId : String) :
    List OidcModel × List (String × ℕ) :=
  let victim := boundTo models [accountId]
  (Table.deleteWhere victim models, Table.countBy OidcModel.modelName (models.filter victim))

def rebindSessionsToAccount (fromAccountId toAccountId : String) (models : List OidcModel) :
    List OidcModel :=
  Table.updateWhere (fun m => decide (m.modelName = "Session" ∧ m.accountId = some fromAccountId))
    (fun m => { m with accountId := some toAccountId }) models

def deleteAllForTenantRole (users : List TenantUser) (models : List OidcModel)
    (tenantId : TenantId) (role : TenantRole) : List OidcModel × List (String × ℕ) :=
  let accounts := (users.filter (holdsRole tenantId role)).map TenantUser.id
  let victim := boundTo models accounts
  (Table.deleteWhere victim models, Table.countBy OidcModel.modelName (models.filter victim))

theorem not_bound_of_left {models : List OidcModel} {accounts : List String} {m : OidcModel}
    (h : m ∈ Table.deleteWhere (boundTo models accounts) models)
    (hmodel : m.modelName ∈ accountBoundModels) {account : String} (haccount : account ∈ accounts) :
    m.accountId ≠ some account := by
  intro hid
  have hkept := ((Table.mem_deleteWhere _ _ _).mp h).2
  simp [boundTo, hmodel, hid, haccount] at hkept

end VcCommonService.Oidc
