import VcCommonService.Auth.Token
import VcCommonService.OAuthClient.Authentication
import VcCommonService.TenantUser.MembershipGuard

/-!
# Tokens the provider mints, as the guards read them

`extraTokenClaims` adds the tenant and the roles of the account or of the client to an access
token; `normalizeAuthPayload` reads them back on the next request. What is read is the identity
the token was minted for, and a client token never passes for one of a user.
-/

namespace VcCommonService.MintedTokens
open Lib Auth

/-! ### Minting -/

def strings (xs : List String) : Json := .arr (xs.map Json.str)

/-- `extraTokenClaims` of a token with this client and account. -/
def extraTokenClaims (users : List TenantUsers.TenantUser)
    (client : Option OAuthClients.ClientMetadata) (accountId : Option String) :
    Option Json.Members :=
  match Js.truthy accountId with
  | some accountId =>
    (TenantUsers.extraTokenClaims users accountId).map fun claims =>
      [("tenant_id", .str claims.tenantId), ("tenant_role", .str claims.tenantRole.name),
        ("roles", strings claims.roles)]
  | none =>
    match client with
    | none => none
    | some client =>
      if client.tenant_id = "" then none
      else if client.roles = [] then some [("tenant_id", .str client.tenant_id)]
      else some [("tenant_id", .str client.tenant_id), ("roles", strings client.roles)]

/-- The payload of a structured access token: the provider's own claims besides the extra ones.
A token without scopes has no `scope`. -/
def accessTokenPayload (sub clientId : String) (granted : List String)
    (claims : Option Json.Members) : Json.Members :=
  [("sub", .str sub), ("client_id", .str clientId)] ++
    (if granted = [] then [] else [("scope", .str (String.intercalate " " granted))]) ++
    claims.getD []

/-- A `client_credentials` token has the client for its subject. -/
def clientToken (users : List TenantUsers.TenantUser) (client : OAuthClients.ClientMetadata)
    (granted : List String) : Json.Members :=
  accessTokenPayload client.client_id client.client_id granted
    (extraTokenClaims users (some client) none)

def userToken (users : List TenantUsers.TenantUser) (client : OAuthClients.ClientMetadata)
    (accountId : String) (granted : List String) : Json.Members :=
  accessTokenPayload accountId client.client_id granted
    (extraTokenClaims users (some client) (some accountId))

/-! ### Reading -/

def ScopeName (scope : String) : Prop := scope ≠ "" ∧ NoSpace scope

theorem intercalate_ne_empty {names : List String} (h : ∀ name ∈ names, ScopeName name)
    (hne : names ≠ []) : String.intercalate " " names ≠ "" := by
  intro hempty
  have hlist := congrArg String.toList hempty
  rw [String.toList_intercalate] at hlist
  cases names with
  | nil => exact hne rfl
  | cons name names =>
    have hname : name.toList ≠ [] := mt String.toList_eq_nil_iff.mp (h name (List.mem_cons_self ..)).1
    cases names with
    | nil => exact hname (by simpa using hlist)
    | cons other names =>
      rw [List.map_cons, List.map_cons, List.intercalate_cons_cons] at hlist
      exact hname (by simpa using (List.append_eq_nil_iff.mp hlist).1)

/-- The scope string of a token or of a client is read back as the list it was joined from. -/
theorem scopeWords_intercalate {names : List String} (h : ∀ name ∈ names, ScopeName name) :
    scopeWords (String.intercalate " " names) = names := by
  unfold scopeWords
  rw [String.toList_intercalate]
  have hspace : Js.isWhitespace ' ' = true := by decide
  have hwords : Words.words _ ([' '].intercalate (names.map String.toList)) = _ :=
    Words.words_intercalate hspace ?_ ?_
  · have hsep : " ".toList = [' '] := rfl
    rw [hsep, hwords, List.map_map]
    simp [Function.comp_def]
  · intro w hw
    obtain ⟨name, hname, rfl⟩ := List.mem_map.mp hw
    exact mt String.toList_eq_nil_iff.mp (h name hname).1
  · intro w hw
    obtain ⟨name, hname, rfl⟩ := List.mem_map.mp hw
    exact (h name hname).2

theorem stringElements_strings (xs : List String) : stringElements (xs.map Json.str) = xs := by
  unfold stringElements
  induction xs with
  | nil => rfl
  | cons x xs ih =>
    have hx : asString (.str x) = some x := rfl
    rw [List.map_cons, List.filterMap_cons_some hx, ih]

/-- What the claims of a token say, whatever their order. -/
structure Says (payload : Json.Members) (sub clientId : String) (granted : List String)
    (tenantId : Option TenantId) (roles : List String) : Prop where
  sub : Json.get payload "sub" = some (.str sub)
  clientId : Json.get payload "client_id" = some (.str clientId)
  scope : readScope (Json.get payload "scope") = String.intercalate " " granted
  tenantId : readOptionalString (Json.get payload "tenant_id") = tenantId
  roles : readRoles (Json.get payload "roles") = roles

theorem normalize_says_payload {payload : Json.Members} {sub clientId : String}
    {granted : List String} {tenantId : Option TenantId} {roles : List String}
    (htold : Says payload sub clientId granted tenantId roles) (hsub : sub ≠ "")
    (hclient : clientId ≠ "") (hgranted : ∀ scope ∈ granted, ScopeName scope) :
    normalizeAuthPayload payload = .ok
      ⟨⟨sub, resolveTokenType sub, tenantId, roles, granted⟩, some clientId,
        String.intercalate " " granted⟩ := by
  have hid : readOptionalString (Json.get payload "client_id") = some clientId := by
    rw [htold.clientId]
    exact Js.truthy_some hclient
  have hscopes : (if String.intercalate " " granted = "" then []
      else scopeWords (String.intercalate " " granted)) = granted := by
    by_cases hnil : granted = []
    · subst hnil
      decide
    · rw [if_neg (intercalate_ne_empty hgranted hnil), scopeWords_intercalate hgranted]
  unfold normalizeAuthPayload
  simp only [htold.sub, hid, htold.scope, htold.tenantId, htold.roles, orEmpty, textOf,
    if_neg hsub, Option.some_or, hscopes]

section Claims

variable {sub clientId : String} {granted : List String} {claims : Json.Members}

/-- The scopes of a payload whose extra claims name none. -/
theorem readScope_payload (hclaims : Json.get claims "scope" = none) :
    readScope (Json.get (accessTokenPayload sub clientId granted (some claims)) "scope") =
      String.intercalate " " granted := by
  unfold Json.get at hclaims
  unfold accessTokenPayload Json.get
  by_cases hnil : granted = []
  · subst hnil
    simp [List.lookup_cons, hclaims, readScope]
  · simp [hnil, List.lookup_cons, readScope]

/-- A claim that only the extra claims name. -/
theorem get_payload {key : String} (hkey : key ∉ ["sub", "client_id", "scope"]) :
    Json.get (accessTokenPayload sub clientId granted (some claims)) key = Json.get claims key := by
  have hsub : (key == "sub") = false := by
    simp_all
  have hclient : (key == "client_id") = false := by
    simp_all
  have hscope : (key == "scope") = false := by
    simp_all
  unfold accessTokenPayload Json.get
  by_cases hnil : granted = []
  · simp [hnil, List.lookup_cons, hsub, hclient]
  · simp [hnil, List.lookup_cons, hsub, hclient, hscope]

end Claims

/-- The identity of a client token: the tenant and the roles of the client, and neither of them
when the client has no tenant. -/
theorem says_clientToken (users : List TenantUsers.TenantUser)
    {client : OAuthClients.ClientMetadata} (granted : List String) (htenant : client.tenant_id ≠ "") :
    Says (clientToken users client granted) client.client_id client.client_id granted
      (some client.tenant_id) client.roles := by
  have hclaims : ∃ claims, extraTokenClaims users (some client) none = some claims ∧
      Json.get claims "scope" = none ∧
      Json.get claims "tenant_id" = some (.str client.tenant_id) ∧
      readRoles (Json.get claims "roles") = client.roles := by
    unfold extraTokenClaims
    by_cases hroles : client.roles = []
    · exact ⟨[("tenant_id", .str client.tenant_id)], by simp [Js.truthy, htenant, hroles],
        by simp [Json.get, List.lookup_cons], by simp [Json.get], by
          simp [Json.get, List.lookup_cons, readRoles, hroles]⟩
    · exact ⟨[("tenant_id", .str client.tenant_id), ("roles", strings client.roles)],
        by simp [Js.truthy, htenant, hroles], by simp [Json.get, List.lookup_cons],
        by simp [Json.get], by
          simp [Json.get, List.lookup_cons, readRoles, strings, stringElements_strings]⟩
  obtain ⟨claims, hextra, hscope, htenantId, hroles⟩ := hclaims
  unfold clientToken
  rw [hextra]
  refine ⟨by simp [accessTokenPayload, Json.get], by
    simp [accessTokenPayload, Json.get, List.lookup_cons], readScope_payload hscope, ?_, ?_⟩
  · rw [get_payload (by simp), htenantId]
    exact Js.truthy_some htenant
  · rw [get_payload (by simp), hroles]

theorem says_userToken (users : List TenantUsers.TenantUser)
    (client : OAuthClients.ClientMetadata) {accountId : String} {granted : List String}
    {auth : AuthContext} (hsub : accountId ≠ "")
    (hissued : TenantUsers.issueUserToken users accountId granted = some auth) :
    Says (userToken users client accountId granted) accountId client.client_id granted
      auth.tenantId auth.roles ∧ auth.sub = accountId ∧ auth.tokenType = .user ∧
      auth.scopes = granted := by
  simp only [TenantUsers.issueUserToken, Option.bind_eq_bind, Option.bind_eq_some_iff,
    Option.pure_def, Option.some.injEq] at hissued
  obtain ⟨account, haccount, claims, hclaims, rfl⟩ := hissued
  have hid : account.sub = accountId := by
    unfold TenantUsers.findAccount at haccount
    split at haccount
    · cases haccount
    next user huser =>
      split at haccount
      · cases haccount
      · cases haccount
        have hp := List.find?_some huser
        exact of_decide_eq_true hp
  rw [hid] at hclaims
  refine ⟨?_, hid, rfl, rfl⟩
  unfold userToken extraTokenClaims
  rw [Js.truthy_some hsub]
  simp only [hclaims, Option.map_some]
  refine ⟨by simp [accessTokenPayload, Json.get], by
    simp [accessTokenPayload, Json.get, List.lookup_cons],
    readScope_payload (by simp [Json.get, List.lookup_cons]), ?_, ?_⟩
  · rw [get_payload (by simp)]
    simp [Json.get, readOptionalString, asString]
  · rw [get_payload (by simp)]
    simp [Json.get, List.lookup_cons, readRoles, strings, stringElements_strings]

/-! ### The clients of a run -/

section Clients

open OAuthClients

variable {env : Env} {clients clients' : List OAuthClient}

/-- The client id cannot be taken for the id of a user. -/
def Named (clients : List OAuthClient) : Prop :=
  ∀ c ∈ clients, c.clientId ≠ "" ∧ isUuidPattern c.clientId = false

theorem named_prefix (randomId : String) : oauthClientIdPrefix ++ randomId ≠ "" ∧
    isUuidPattern (oauthClientIdPrefix ++ randomId) = false := by
  have htext : (oauthClientIdPrefix ++ randomId).toList =
      'd' :: 't' :: 'c' :: 's' :: '_' :: randomId.toList := by
    rw [String.toList_append]
    rfl
  constructor
  · intro hempty
    rw [hempty] at htext
    cases htext
  · have ht : isUuidPatternChar 1 't' = false := by decide
    unfold isUuidPattern
    rw [htext, List.zipIdx_cons, List.zipIdx_cons]
    simp [ht]

theorem named_updateWhere (hn : Named clients) {p : OAuthClient → Bool}
    {f : OAuthClient → OAuthClient} (hf : ∀ c, (f c).clientId = c.clientId) :
    Named (Table.updateWhere p f clients) := by
  refine Table.forall_updateWhere (fun c hc _ => ?_) fun c hc _ => hn c hc
  rw [hf]
  exact hn c hc

theorem named_save (hn : Named clients) {old entity : OAuthClient} (hold : old ∈ clients)
    (hid : entity.clientId = old.clientId) : Named (Table.save OAuthClient.id entity clients) := by
  intro c hc
  rcases Table.eq_or_mem_of_mem_save hc with rfl | hc
  · rw [hid]
    exact hn old hold
  · exact hn c hc

theorem named_effect (hn : Named clients) {auth : Option AuthContext} {call : Call}
    {response : Response} (he : Effect env clients auth call clients' response) :
    Named clients' := by
  cases he with
  | createClient tenantId dto fresh =>
    intro c hc
    rcases List.mem_append.mp hc with hc | hc
    · exact hn c hc
    · rw [List.mem_singleton.mp hc]
      exact named_prefix fresh.randomId
  | update tenantId clientId dto caller hcaller old entity hold hactive hentity =>
    obtain ⟨-, -, hid, -⟩ := applyUpdate_some hentity
    exact named_save hn (findByTenantAndClientId_some hold).1 hid
  | rotateSecret tenantId clientId clientSecret salt old hold =>
    exact named_save hn (findByTenantAndClientId_some hold).1 rfl
  | revokeAgain => exact hn
  | revokeClient => exact named_updateWhere hn (by intro c; rfl)
  | revokeAllForTenant => exact named_updateWhere hn (by intro c; rfl)
  | restoreAllForTenant => exact named_updateWhere hn (by intro c; rfl)

theorem findClientMetadata_some {id : String} {client : ClientMetadata}
    (h : findClientMetadata clients id = some client) :
    ∃ c ∈ clients, c.clientId = id ∧ client = toClientMetadata c.record := by
  unfold findClientMetadata findActiveClient at h
  split at h
  · cases h
  next c hfind =>
    obtain ⟨hc, hid⟩ := findByClientId_some hfind
    split at h
    · cases h
    · cases h
      exact ⟨c, hc, hid, rfl⟩

/-- What the metadata keeps of the row, for a public client as for a confidential one. -/
theorem toClientMetadata_record (c : OAuthClient) :
    (toClientMetadata c.record).client_id = c.clientId ∧
      (toClientMetadata c.record).roles = c.roles ∧
      (toClientMetadata c.record).scope = String.intercalate " " c.scopes ∧
      (toClientMetadata c.record).response_types =
        if c.grantTypes.contains "authorization_code" then ["code"] else [] := by
  unfold toClientMetadata
  dsimp only
  split
  · exact ⟨rfl, rfl, rfl, rfl⟩
  · exact ⟨rfl, rfl, rfl, rfl⟩

instance (scope : String) : Decidable (ScopeName scope) :=
  inferInstanceAs (Decidable (scope ≠ "" ∧ Words.Free Js.isWhitespace scope.toList))

theorem scopeName_assignable : ∀ scope ∈ assignableOAuthClientScopes, ScopeName scope := by
  have hall : (assignableOAuthClientScopes.all fun s => decide (ScopeName s)) = true := by decide
  exact fun scope hs => of_decide_eq_true (List.all_eq_true.mp hall scope hs)

/-- A `client_credentials` token is read back as its client, in the client's tenant, with the
client's roles and the granted scopes; a client whose token carries roles has no interactive
sign-in. -/
def ReadsBackClient (env : Env) (users : List TenantUsers.TenantUser)
    (clients : List OAuthClient) : Prop :=
  ∀ id client granted, findClientMetadata clients id = some client → client.tenant_id ≠ "" →
    (∀ scope ∈ granted, scope ∈ scopeWords client.scope) →
    normalizeAuthPayload (clientToken users client granted) = .ok
      ⟨⟨id, .client, some client.tenant_id, client.roles, granted⟩, some id,
        String.intercalate " " granted⟩ ∧
    (∀ scope ∈ granted, scope ∈ assignableOAuthClientScopes ∧ scope ∈ env.scopes) ∧
    (client.roles ≠ [] → client.response_types = [])

/-- A token of an account is read back as the user it was issued to, whichever client asked
for it. -/
def ReadsBackUser (users : List TenantUsers.TenantUser) (clients : List OAuthClient) : Prop :=
  ∀ id client accountId granted auth, findClientMetadata clients id = some client →
    isUuidPattern accountId = true → (∀ scope ∈ granted, ScopeName scope) →
    TenantUsers.issueUserToken users accountId granted = some auth →
    normalizeAuthPayload (userToken users client accountId granted) = .ok
      ⟨auth, some id, String.intercalate " " granted⟩

theorem resolveTokenType_client {id : String} (h : isUuidPattern id = false) :
    resolveTokenType id = .client := by
  unfold resolveTokenType
  rw [h]
  split <;> rfl

theorem resolveTokenType_user {id : String} (h : isUuidPattern id = true) :
    resolveTokenType id = .user := by
  -- a text that starts with `client:` has an `l` where a UUID has a hexadecimal digit
  have hstart : clientSubPrefix.toList.isPrefixOf id.toList = false := by
    by_contra hp
    have hp : clientSubPrefix.toList <+: id.toList := by simpa using hp
    obtain ⟨rest, hrest⟩ := hp
    have htext : id.toList = 'c' :: 'l' :: ("ient:".toList ++ rest) := hrest.symm
    have hl : isUuidPatternChar 1 'l' = false := by decide
    unfold isUuidPattern at h
    rw [htext, List.zipIdx_cons, List.zipIdx_cons] at h
    simp [hl] at h
  unfold resolveTokenType
  rw [hstart, h]
  rfl

theorem readsBackClient_of_inv (users : List TenantUsers.TenantUser)
    (hi : ClientsInv env clients) (hn : Named clients) : ReadsBackClient env users clients := by
  intro id client granted hfind htenant hgranted
  obtain ⟨c, hc, rfl, rfl⟩ := findClientMetadata_some hfind
  obtain ⟨hid, hroles, hscope, hresponse⟩ := toClientMetadata_record c
  obtain ⟨hne, huuid⟩ := hn c hc
  have hwf := hi.wellFormed c hc
  have hwords : scopeWords (toClientMetadata c.record).scope = c.scopes := by
    rw [hscope]
    exact scopeWords_intercalate fun s hs => scopeName_assignable s (hwf.scopes s hs).1
  have hstored : ∀ scope ∈ granted, scope ∈ assignableOAuthClientScopes ∧ scope ∈ env.scopes := by
    intro scope hs
    have hmem := hgranted scope hs
    rw [hwords] at hmem
    exact hwf.scopes scope hmem
  refine ⟨?_, hstored, fun hrole => ?_⟩
  · have htold := says_clientToken users granted htenant
    rw [hid] at htold
    rw [normalize_says_payload htold hne hne fun s hs => scopeName_assignable s (hstored s hs).1,
      resolveTokenType_client huuid]
  · rw [hroles] at hrole
    have hcode : "authorization_code" ∉ c.grantTypes := by
      rw [hwf.machineOnly hrole]
      decide
    rw [hresponse, if_neg (by simpa using hcode)]

theorem readsBackUser_of_named (users : List TenantUsers.TenantUser) (hn : Named clients) :
    ReadsBackUser users clients := by
  intro id client accountId granted auth hfind huuid hgranted hissued
  obtain ⟨c, hc, rfl, rfl⟩ := findClientMetadata_some hfind
  have hne : accountId ≠ "" := by
    rintro rfl
    revert huuid
    decide
  obtain ⟨htold, hsub, htype, hscopes⟩ :=
    says_userToken users (toClientMetadata c.record) hne hissued
  rw [(toClientMetadata_record c).1] at htold
  rw [normalize_says_payload htold hne (hn c hc).1 hgranted, resolveTokenType_user huuid]
  obtain ⟨sub, tokenType, tenantId, roles, scopes⟩ := auth
  cases hsub
  cases htype
  cases hscopes
  rfl

/-- In every state of every run of whole calls from well-formed clients, the tokens minted for the
stored clients, and through them for the tenant users, are read back as what they were minted for.
Two updates at once can leave roles beside `authorization_code`, and the client of the bootstrap is
not well-formed, so neither is covered. -/
theorem minted_tokens_read_back (env : Env) (clients : List OAuthClient)
    (requests : List Request) (hk : Constraints clients) (hwf : ∀ c ∈ clients, WellFormed env c)
    (hn : Named clients) :
    Run.All (step env)
      (fun _ _ s' => ∀ users, ReadsBackClient env users s'.clients ∧ ReadsBackUser users s'.clients)
      ⟨clients, []⟩ requests := by
  refine Run.all_of_invariant (fun s => ClientsInv env s.clients ∧ Named s.clients) ?_
    ⟨⟨hk, hwf⟩, hn⟩ (Run.enabled_of_total (step_isSome env) _ requests)
  intro s request s' hi hs _
  have hclients := (clientsInv_step hi.1 hs).1
  have hnamed : Named s'.clients := by
    rcases step_cases hs with ⟨rfl, -⟩ | ⟨response, -, heffect, -⟩
    · exact hi.2
    · exact named_effect hi.2 heffect
  exact ⟨⟨hclients, hnamed⟩, fun users => ⟨readsBackClient_of_inv users hclients hnamed,
    readsBackUser_of_named users hnamed⟩⟩

theorem minted_tokens_issuer :
    Run.All (step argonEnv)
      (fun _ _ s' => ∀ users, ReadsBackClient argonEnv users s'.clients ∧
        ReadsBackUser users s'.clients) ⟨[issuer], []⟩ createAndUpdate := by
  refine minted_tokens_read_back argonEnv [issuer] createAndUpdate
    ⟨by decide, by decide, by decide⟩ ?_ ?_
  · intro c hc
    rw [List.mem_singleton.mp hc]
    exact ⟨by decide, fun _ grantType => List.mem_singleton, by decide, by decide, by decide⟩
  · intro c hc
    rw [List.mem_singleton.mp hc]
    exact ⟨by decide, by decide⟩

end Clients

end VcCommonService.MintedTokens
