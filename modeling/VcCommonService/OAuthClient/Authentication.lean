import VcCommonService.OAuthClient.Escalation
import VcCommonService.OAuthClient.WellFormed

/-!
# Client authentication (`oauth-client-lookup.adapter.ts`, `oidc-client.adapter.ts`)

The provider reads its clients through `findActiveClient` and compares a presented secret
with the stored hash (`applyClientSecretHashComparator`); `verifyClientSecret` is the check of
the service. After any run of calls both accept the secret that was handed out last for the
client id, while the client is not revoked, and no other.
-/

namespace VcCommonService.OAuthClients
open Lib Auth

/-! ### What the provider sees -/

structure OidcClientRecord where
  clientId : String
  clientSecretHash : Option String
  name : String
  tenantId : TenantId
  scopes : List String
  redirectUris : List String
  postLogoutRedirectUris : List String
  grantTypes : List String
  isPublic : Bool
  roles : List String
  refreshTokenTtlSeconds : Option ℤ
  deriving Repr, DecidableEq

def OAuthClient.record (client : OAuthClient) : OidcClientRecord :=
  { clientId := client.clientId, clientSecretHash := client.clientSecretHash
    name := client.name, tenantId := client.tenantId, scopes := client.scopes
    redirectUris := client.redirectUris
    postLogoutRedirectUris := client.postLogoutRedirectUris, grantTypes := client.grantTypes
    isPublic := client.isPublic, roles := client.roles
    refreshTokenTtlSeconds := client.refreshTokenTtlSeconds }

def findActiveClient (clients : List OAuthClient) (clientId : String) :
    Option OidcClientRecord :=
  match findByClientId clients clientId with
  | none => none
  | some client => if client.revokedAt.isSome then none else some client.record

/-- The payload of `toClientMetadata`. A key that the source leaves out is `none`. -/
structure ClientMetadata where
  client_id : String
  client_name : String
  tenant_id : TenantId
  roles : List String
  redirect_uris : List String
  post_logout_redirect_uris : List String
  grant_types : List String
  response_types : List String
  scope : String
  client_secret : Option (Option String) := none
  client_secret_hash : Option (Option String) := none
  token_endpoint_auth_method : String
  refresh_token_ttl_seconds : Option ℤ := none
  deriving Repr, DecidableEq

def toClientMetadata (client : OidcClientRecord) : ClientMetadata :=
  let responseTypes := if client.grantTypes.contains "authorization_code" then ["code"] else []
  let metadata : ClientMetadata :=
    { client_id := client.clientId, client_name := client.name, tenant_id := client.tenantId
      roles := client.roles, redirect_uris := client.redirectUris
      post_logout_redirect_uris := client.postLogoutRedirectUris
      grant_types := client.grantTypes, response_types := responseTypes
      scope := String.intercalate " " client.scopes
      token_endpoint_auth_method := "none"
      refresh_token_ttl_seconds := client.refreshTokenTtlSeconds }
  if client.isPublic then metadata
  else
    { metadata with
      client_secret := some client.clientSecretHash
      client_secret_hash := some client.clientSecretHash
      token_endpoint_auth_method := "client_secret_basic" }

/-- `OidcClientAdapter.find`. -/
def findClientMetadata (clients : List OAuthClient) (id : String) : Option ClientMetadata :=
  (findActiveClient clients id).map toClientMetadata

/-- The comparison that replaces the one of the provider; an empty hash counts as absent. -/
def compareClientSecret (env : Env) (client : ClientMetadata) (actual : String) : Bool :=
  match Js.truthy client.client_secret_hash.join with
  | none => false
  | some hash => env.verify hash actual

/-- The provider finds the client and its comparison succeeds. -/
def providerAccepts (env : Env) (clients : List OAuthClient) (clientId secret : String) : Bool :=
  (findClientMetadata clients clientId).any fun client => compareClientSecret env client secret

/-! ### The secret of a client -/

/-- What the code relies on of `argon2`: a hash verifies the secret it was made of and no
other, and the empty string verifies nothing. -/
structure Argon2 (env : Env) : Prop where
  verify_hash : ∀ salt secret actual, env.verify (env.hash salt secret) actual = true ↔
    actual = secret
  hash_ne : ∀ salt secret, env.hash salt secret ≠ ""
  verify_empty : ∀ actual, env.verify "" actual = false

def issuedSecret (clientId : String) (entry : Request × Response) : Option String :=
  match entry.2 with
  | .secret client clientSecret =>
    if client.clientId = clientId then some clientSecret else none
  | _ => none

/-- The last secret that a call returned for the client id. -/
def lastSecret (log : List (Request × Response)) (clientId : String) : Option String :=
  (log.filterMap (issuedSecret clientId)).getLast?

/-- The secret is the one handed out last; a client that had its hash in the table before
the run keeps it until the first rotation. -/
def CurrentSecret (env : Env) (initial : List OAuthClient) (log : List (Request × Response))
    (clientId secret : String) : Prop :=
  match lastSecret log clientId with
  | some issued => secret = issued
  | none => ∃ c ∈ initial, c.clientId = clientId ∧ ∃ hash, c.clientSecretHash = some hash ∧
      env.verify hash secret = true

def Active (clients : List OAuthClient) (clientId : String) : Prop :=
  ∃ c ∈ clients, c.clientId = clientId ∧ c.revokedAt = none

/-- Service and provider accept exactly the current secret of an active client. -/
def AuthenticatesExactly (env : Env) (initial : List OAuthClient) (s : History) : Prop :=
  ∀ clientId secret,
    (verifyClientSecret env s.clients clientId secret = .ok true ↔
      Active s.clients clientId ∧ CurrentSecret env initial s.log clientId secret) ∧
    (providerAccepts env s.clients clientId secret = true ↔
      Active s.clients clientId ∧ CurrentSecret env initial s.log clientId secret)

/-! ### Invariant -/

/-- The stored hash was made of the last secret, or is the one the table began with. -/
def HashOfLast (env : Env) (initial : List OAuthClient) (log : List (Request × Response))
    (c : OAuthClient) : Prop :=
  match lastSecret log c.clientId with
  | some issued => ∃ salt, c.clientSecretHash = some (env.hash salt issued)
  | none => ∃ old ∈ initial, old.clientId = c.clientId ∧
      old.clientSecretHash = c.clientSecretHash

structure SecretInv (env : Env) (initial : List OAuthClient) (s : History) : Prop where
  constraints : Constraints s.clients
  hash : ∀ c ∈ s.clients, HashOfLast env initial s.log c

variable {env : Env} {initial clients clients' : List OAuthClient} {s s' : History}
  {request : Request}

theorem lastSecret_append (log : List (Request × Response)) (entry : Request × Response)
    (clientId : String) : lastSecret (log ++ [entry]) clientId =
      (issuedSecret clientId entry).or (lastSecret log clientId) := by
  unfold lastSecret
  rw [List.filterMap_append, List.getLast?_append]
  cases hissued : issuedSecret clientId entry with
  | none => rw [List.filterMap_cons_none hissued, List.filterMap_nil, List.getLast?_nil]
  | some secret => rw [List.filterMap_cons_some hissued, List.filterMap_nil,
      List.getLast?_singleton]

/-- A call that returns no secret leaves the last one of every client. -/
theorem lastSecret_silent {log : List (Request × Response)} {entry : Request × Response}
    {clientId : String} (h : issuedSecret clientId entry = none) :
    lastSecret (log ++ [entry]) clientId = lastSecret log clientId := by
  rw [lastSecret_append, h, Option.none_or]

theorem hashOfLast_congr {log log' : List (Request × Response)} {c c' : OAuthClient}
    (hclientId : c'.clientId = c.clientId) (hhash : c'.clientSecretHash = c.clientSecretHash)
    (hlog : lastSecret log' c.clientId = lastSecret log c.clientId)
    (h : HashOfLast env initial log c) : HashOfLast env initial log' c' := by
  unfold HashOfLast at h ⊢
  rw [hclientId, hlog, hhash]
  exact h

/-- A row whose hash has just been made of the secret that the call returns. -/
theorem hashOfLast_issued {log : List (Request × Response)} {c : OAuthClient}
    {secret salt : String} (request : Request)
    (hhash : c.clientSecretHash = some (env.hash salt secret)) :
    HashOfLast env initial (log ++ [(request, .secret c secret)]) c := by
  have hlast : lastSecret (log ++ [(request, .secret c secret)]) c.clientId = some secret := by
    simp [lastSecret_append, issuedSecret]
  unfold HashOfLast
  rw [hlast]
  exact ⟨salt, hhash⟩

theorem lastSecret_other {log : List (Request × Response)} {client c : OAuthClient}
    {secret : String} (request : Request) (hne : c.clientId ≠ client.clientId) :
    lastSecret (log ++ [(request, .secret client secret)]) c.clientId =
      lastSecret log c.clientId := by
  simp [lastSecret_append, issuedSecret, hne.symm]

/-- Rows that a call does not give a new hash keep the one they have. -/
theorem hashOfLast_updateWhere {log : List (Request × Response)}
    (h : ∀ c ∈ clients, HashOfLast env initial log c) {p : OAuthClient → Bool}
    {f : OAuthClient → OAuthClient} (hclientId : ∀ c, (f c).clientId = c.clientId)
    (hhash : ∀ c, (f c).clientSecretHash = c.clientSecretHash) (request : Request) :
    ∀ c ∈ Table.updateWhere p f clients,
      HashOfLast env initial (log ++ [(request, .nothing)]) c := by
  refine Table.forall_updateWhere (fun c hc _ => ?_) fun c hc _ => ?_
  · exact hashOfLast_congr (hclientId c) (hhash c) (lastSecret_silent rfl) (h c hc)
  · exact hashOfLast_congr rfl rfl (lastSecret_silent rfl) (h c hc)

theorem secretInv_effect (hi : SecretInv env initial s) {response : Response}
    (he : Effect env s.clients request.auth request.call clients' response) :
    ∀ c ∈ clients', HashOfLast env initial (s.log ++ [(request, response)]) c := by
  obtain ⟨auth, call⟩ := request
  cases he with
  | createClient tenantId dto fresh caller hcaller hrole hscopes hrow hid hclientId =>
    intro c hc
    rcases List.mem_append.mp hc with hc | hc
    · exact hashOfLast_congr rfl rfl (lastSecret_other _ (hclientId c hc)) (hi.hash c hc)
    · rw [List.mem_singleton.mp hc]
      exact hashOfLast_issued _ rfl
  | update tenantId clientId dto caller hcaller old entity hold hactive hentity =>
    obtain ⟨hmem, -, -⟩ := findByTenantAndClientId_some hold
    obtain ⟨-, -, hclientId, -⟩ := applyUpdate_some hentity
    obtain ⟨-, -, -, hhash⟩ := applyUpdate_assigned hentity
    intro c hc
    rcases Table.eq_or_mem_of_mem_save hc with rfl | hc
    · exact hashOfLast_congr hclientId hhash (lastSecret_silent rfl) (hi.hash old hmem)
    · exact hashOfLast_congr rfl rfl (lastSecret_silent rfl) (hi.hash c hc)
  | rotateSecret tenantId clientId clientSecret salt old hold =>
    obtain ⟨hmem, -, -⟩ := findByTenantAndClientId_some hold
    intro c hc
    rcases (Table.mem_save hi.constraints.id c).mp hc with rfl | ⟨hc, hne⟩
    · exact hashOfLast_issued _ rfl
    · have hother : c.clientId ≠ old.clientId := by
        intro heq
        have hsame := Table.eq_of_key hi.constraints.clientId hc hmem heq
        exact hne (congrArg OAuthClient.id hsame : c.id = old.id)
      exact hashOfLast_congr rfl rfl (lastSecret_other _ hother) (hi.hash c hc)
  | revokeAgain =>
    intro c hc
    exact hashOfLast_congr rfl rfl (lastSecret_silent rfl) (hi.hash c hc)
  | revokeClient => exact hashOfLast_updateWhere hi.hash (by intro c; rfl) (by intro c; rfl) _
  | revokeAllForTenant => exact hashOfLast_updateWhere hi.hash (by intro c; rfl) (by intro c; rfl) _
  | restoreAllForTenant => exact hashOfLast_updateWhere hi.hash (by intro c; rfl) (by intro c; rfl) _

theorem secretInv_step (hi : SecretInv env initial s) (hs : step env s request = some s') :
    SecretInv env initial s' := by
  rcases step_cases hs with ⟨rfl, -⟩ | ⟨response, -, heffect, hlog⟩
  · exact hi
  · refine ⟨constraints_effect hi.constraints heffect, ?_⟩
    rw [hlog]
    exact secretInv_effect hi heffect

/-! ### Both checks in an invariant state -/

theorem findByClientId_of_mem (hu : Table.UniqueKeys OAuthClient.clientId clients)
    {c : OAuthClient} (hc : c ∈ clients) : findByClientId clients c.clientId = some c := by
  unfold findByClientId
  cases hfind : clients.find? fun d => decide (d.clientId = c.clientId) with
  | none =>
    have hnot := List.find?_eq_none.mp hfind c hc
    simp at hnot
  | some d =>
    have hd : d.clientId = c.clientId := by simpa using List.find?_some hfind
    rw [Table.eq_of_key hu (List.mem_of_find?_eq_some hfind) hc hd]

theorem findByClientId_some {clientId : String} {c : OAuthClient}
    (h : findByClientId clients clientId = some c) : c ∈ clients ∧ c.clientId = clientId :=
  ⟨List.mem_of_find?_eq_some h, by simpa using List.find?_some h⟩

/-- What both checks compute: the client is found, is active, and its hash verifies. -/
def Verifies (env : Env) (clients : List OAuthClient) (clientId secret : String) : Prop :=
  ∃ c ∈ clients, c.clientId = clientId ∧ c.revokedAt = none ∧
    ∃ hash, c.clientSecretHash = some hash ∧ env.verify hash secret = true

theorem verifyClientSecret_iff (hk : Constraints clients) (clientId secret : String) :
    verifyClientSecret env clients clientId secret = .ok true ↔
      Verifies env clients clientId secret := by
  unfold verifyClientSecret
  constructor
  · intro h
    split at h
    · cases h
    next c hfind =>
      obtain ⟨hc, hid⟩ := findByClientId_some hfind
      split at h
      · cases h
      next hactive =>
        split at h
        · cases h
        next hash hhash =>
          exact ⟨c, hc, hid, by simpa using hactive, hash, hhash, Except.ok.inj h⟩
  · rintro ⟨c, hc, rfl, hactive, hash, hhash, hverify⟩
    simp [findByClientId_of_mem hk.clientId hc, hactive, hhash, hverify]

theorem hash_present (hk : Constraints clients) {c : OAuthClient} (hc : c ∈ clients)
    {hash : String} (hhash : c.clientSecretHash = some hash) : c.isPublic = false :=
  checkRow_kind (hk.row c hc) (by rw [hhash]; rfl)

theorem providerAccepts_iff (hargon : Argon2 env) (hk : Constraints clients)
    (clientId secret : String) : providerAccepts env clients clientId secret = true ↔
      Verifies env clients clientId secret := by
  unfold providerAccepts findClientMetadata findActiveClient
  constructor
  · intro h
    split at h
    · cases h
    next c hfind =>
      obtain ⟨hc, hid⟩ := findByClientId_some hfind
      split at h
      · cases h
      next hactive =>
        rw [Option.map_some, Option.any_some] at h
        unfold compareClientSecret at h
        split at h
        · cases h
        next hash hpresent =>
          obtain ⟨hjoin, -⟩ := Js.truthy_eq_some hpresent
          -- a public client has no hash in its metadata
          cases hpublic : c.isPublic with
          | true => simp [toClientMetadata, OAuthClient.record, hpublic] at hjoin
          | false =>
            have hhash : c.clientSecretHash = some hash := by
              simpa [toClientMetadata, OAuthClient.record, hpublic] using hjoin
            exact ⟨c, hc, hid, by simpa using hactive, hash, hhash, h⟩
  · rintro ⟨c, hc, rfl, hactive, hash, hhash, hverify⟩
    have hne : hash ≠ "" := by
      rintro rfl
      rw [hargon.verify_empty] at hverify
      cases hverify
    have hpublic := hash_present hk hc hhash
    simp [findByClientId_of_mem hk.clientId hc, hactive, compareClientSecret, toClientMetadata,
      OAuthClient.record, hpublic, hhash, Js.truthy_some hne, hverify]

theorem verifies_iff (hargon : Argon2 env) (hinitial : Constraints initial)
    (hi : SecretInv env initial s) (clientId secret : String) :
    Verifies env s.clients clientId secret ↔
      Active s.clients clientId ∧ CurrentSecret env initial s.log clientId secret := by
  constructor
  · rintro ⟨c, hc, rfl, hactive, hash, hhash, hverify⟩
    refine ⟨⟨c, hc, rfl, hactive⟩, ?_⟩
    have hlast := hi.hash c hc
    unfold HashOfLast at hlast
    unfold CurrentSecret
    split at hlast
    next issued hissued =>
      obtain ⟨salt, hsalt⟩ := hlast
      rw [hhash] at hsalt
      rw [Option.some.inj hsalt, hargon.verify_hash] at hverify
      exact hverify
    next hnone =>
      obtain ⟨old, hold, hid, hsame⟩ := hlast
      exact ⟨old, hold, hid, hash, hsame.trans hhash, hverify⟩
  · rintro ⟨⟨c, hc, rfl, hactive⟩, hcurrent⟩
    refine ⟨c, hc, rfl, hactive, ?_⟩
    have hlast := hi.hash c hc
    unfold HashOfLast at hlast
    unfold CurrentSecret at hcurrent
    split at hlast
    next issued hissued =>
      obtain ⟨salt, hsalt⟩ := hlast
      rw [hissued] at hcurrent
      exact ⟨_, hsalt, (hargon.verify_hash salt issued secret).mpr hcurrent⟩
    next hnone =>
      rw [hnone] at hcurrent
      obtain ⟨old, hold, hid, hsame⟩ := hlast
      obtain ⟨d, hd, hdid, hash, hhash, hverify⟩ := hcurrent
      have heq : d = old := Table.eq_of_key hinitial.clientId hd hold (hdid.trans hid.symm)
      exact ⟨hash, by rw [← hsame, ← heq]; exact hhash, hverify⟩

/-! ### Runs -/

/-- After every call of a run, service and provider accept exactly the secret last handed out
for an active client: no earlier secret, and none of a revoked client. -/
theorem authenticates_exactly (env : Env) (hargon : Argon2 env) (clients : List OAuthClient)
    (hk : Constraints clients) (requests : List Request) :
    Run.All (step env) (fun _ _ s' => AuthenticatesExactly env clients s') ⟨clients, []⟩
      requests := by
  refine Run.all_of_invariant (SecretInv env clients) ?_ ⟨hk, ?_⟩
    (Run.enabled_of_total (step_isSome env) _ _)
  · intro s request s' hi hs _
    have hi' := secretInv_step hi hs
    refine ⟨hi', fun clientId secret => ?_⟩
    have hiff := verifies_iff hargon hk hi' clientId secret
    exact ⟨(verifyClientSecret_iff hi'.constraints clientId secret).trans hiff,
      (providerAccepts_iff hargon hi'.constraints clientId secret).trans hiff⟩
  · intro c hc
    exact ⟨c, hc, rfl, rfl⟩

/-- A hash without salt, for an evaluated run. -/
def unsaltedEnv : Env :=
  { argonEnv with
    hash := fun _ secret => "$" ++ secret
    verify := fun hash secret => decide (hash = "$" ++ secret) }

theorem unsaltedEnv_argon2 : Argon2 unsaltedEnv := by
  have htext : ∀ secret : String, ("$" ++ secret).toList = '$' :: secret.toList := by
    intro secret
    rw [String.toList_append]
    rfl
  have hcons : ∀ s t : String, "$" ++ s = "$" ++ t ↔ t = s := by
    intro s t
    rw [← String.toList_inj, htext, htext, List.cons.injEq, String.toList_inj]
    exact ⟨fun h => h.2.symm, fun h => ⟨rfl, h.symm⟩⟩
  have hne : ∀ secret : String, "$" ++ secret ≠ "" := by
    intro secret h
    have hnil := congrArg String.toList h
    rw [htext] at hnil
    cases hnil
  refine ⟨fun salt secret actual => ?_, fun _ => hne, fun actual => ?_⟩
  · simp only [unsaltedEnv, decide_eq_true_eq, hcons]
  · exact decide_eq_false (hne actual).symm

theorem authenticates_exactly_rotated :
    Run.All (step unsaltedEnv) (fun _ _ s' => AuthenticatesExactly unsaltedEnv [privilegedClient] s')
      ⟨[privilegedClient], []⟩
      [createOwn, takeOver, ⟨some tenantAdmin, .revokeClient "t" "dtcs_2" 5⟩] :=
  authenticates_exactly unsaltedEnv unsaltedEnv_argon2 [privilegedClient]
    constraints_privilegedClient _

end VcCommonService.OAuthClients
