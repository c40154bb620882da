import VcCommonService.OAuthClient.Effects

/-!
# Well-formed clients

`update` checks a field only when the request carries it, and the pairing of roles and
grants on the state it would store. Together with the checks of `createClient` this keeps
every stored client within the catalogues, and machine roles on machine clients, over any
sequence of calls.
-/

namespace VcCommonService.OAuthClients
open Lib Auth

structure WellFormed (env : Env) (client : OAuthClient) : Prop where
  roles : ∀ role ∈ client.roles, role ∈ oauthClientAllowedRoles
  machineOnly : client.roles ≠ [] → ∀ grantType,
    grantType ∈ client.grantTypes ↔ grantType = machineGrantType
  grantTypes : ∀ grantType ∈ client.grantTypes, grantType ∈ env.supportedGrantTypes
  scopes_ne : client.scopes ≠ []
  scopes : ∀ scope ∈ client.scopes, scope ∈ assignableOAuthClientScopes ∧ scope ∈ env.scopes

def CarriesPlatformRole (clients : List OAuthClient) (id : String) : Prop :=
  ∃ c ∈ clients, c.id = id ∧ hasPlatformRole c.roles = true

/-- Whether a client carries a platform-level role changes only in the call of a platform
admin. -/
def PlatformRoleKept (request : Request) (clients clients' : List OAuthClient) : Prop :=
  request.isPlatformAdmin = false →
    ∀ id, CarriesPlatformRole clients' id ↔ CarriesPlatformRole clients id

/-! ### The checks -/

variable {env : Env} {clients clients' : List OAuthClient}

theorem assertSupportedGrantTypes_ok {grantTypes : Option (List String)}
    (h : assertSupportedGrantTypes env grantTypes = .ok ()) :
    ∀ grantType ∈ grantTypes.getD [], grantType ∈ env.supportedGrantTypes := by
  unfold assertSupportedGrantTypes at h
  dsimp only at h
  split at h
  · cases h
  next hnone =>
    intro grantType hmem
    have hall := List.filter_eq_nil_iff.mp (not_not.mp hnone) grantType hmem
    simpa [List.contains_iff_mem] using hall

theorem isMachineOnly_iff (grantTypes : List String) (h : isMachineOnly (some grantTypes) = true)
    (grantType : String) : grantType ∈ grantTypes ↔ grantType = machineGrantType := by
  have hset : Js.setOf grantTypes = [machineGrantType] := of_decide_eq_true h
  rw [← Js.mem_setOf, hset, List.mem_singleton]

theorem assertRoleConstraints_roles {roles previousRoles : List String}
    {grantTypes : Option (List String)} {caller : AuthContext} {checkAssignment : Bool}
    (h : assertRoleConstraints roles grantTypes caller checkAssignment previousRoles = .ok ()) :
    (∀ role ∈ roles, role ∈ oauthClientAllowedRoles) ∧
      (roles ≠ [] → isMachineOnly grantTypes = true) := by
  unfold assertRoleConstraints at h
  dsimp only at h
  split at h
  · cases h
  next hknown =>
    constructor
    · intro role hrole
      have hall := List.filter_eq_nil_iff.mp (not_not.mp hknown) role hrole
      simpa [List.contains_iff_mem] using hall
    · intro hne
      split at h
      · cases h
      · split at h
        · cases h
        next hmachine => simpa using hmachine

theorem assertAssignableScopes_scopes {scopes : List String} {caller : AuthContext}
    (h : assertAssignableScopes env scopes caller = .ok ()) :
    scopes ≠ [] ∧
      ∀ scope ∈ scopes, scope ∈ assignableOAuthClientScopes ∧ scope ∈ env.scopes := by
  obtain ⟨hne, hpermitted⟩ := assertAssignableScopes_permitted h
  refine ⟨hne, fun scope hscope => ?_⟩
  have hallowed := hpermitted scope hscope
  simp only [permitted, scopeRequest, Bool.and_eq_true, List.contains_iff_mem,
    List.mem_filter] at hallowed
  exact hallowed.1

/-! ### The operations -/

theorem createClient_wellFormed {tenantId : TenantId} {dto : CreateOAuthClientDto}
    {auth : Option AuthContext} {fresh : Fresh} {client : OAuthClient}
    (h : createClient env clients tenantId dto auth fresh = .ok (clients', client)) :
    WellFormed env client ∧ clients' = clients ++ [client] := by
  unfold createClient at h
  obtain ⟨caller, -, h⟩ := bind_eq_ok.mp h
  obtain ⟨_, hgrants, h⟩ := bind_eq_ok.mp h
  obtain ⟨_, hroles, h⟩ := bind_eq_ok.mp h
  obtain ⟨_, hscopes, h⟩ := bind_eq_ok.mp h
  obtain ⟨rows, hinsert, h⟩ := bind_eq_ok.mp h
  obtain ⟨-, -, -, rfl⟩ := insertClient_ok hinsert
  cases h
  obtain ⟨hallowed, hmachine⟩ := assertRoleConstraints_roles hroles
  obtain ⟨hne, hassignable⟩ := assertAssignableScopes_scopes hscopes
  exact ⟨⟨hallowed, fun hroles => isMachineOnly_iff _ (hmachine hroles),
    assertSupportedGrantTypes_ok hgrants, hne, hassignable⟩, rfl⟩

theorem checkUpdate_ok {dto : UpdateOAuthClientDto} {old entity : OAuthClient}
    {caller : AuthContext} (hentity : applyUpdate dto old = some entity)
    (h : checkUpdate env old dto caller = .ok ()) :
    (∀ role ∈ entity.roles, role ∈ oauthClientAllowedRoles) ∧
      (entity.roles ≠ [] → isMachineOnly (some entity.grantTypes) = true) ∧
      (dto.scopes = .value entity.scopes →
        assertAssignableScopes env entity.scopes caller = .ok ()) := by
  obtain ⟨-, hroles, hgrantTypes, -⟩ := applyUpdate_assigned hentity
  unfold checkUpdate at h
  obtain ⟨nextRoles, hnext, h⟩ := bind_eq_ok.mp h
  obtain ⟨_, hconstraints, h⟩ := bind_eq_ok.mp h
  have heq : nextRoles = entity.roles := by
    rw [readList, hroles] at hnext
    exact (Except.ok.inj hnext).symm
  rw [heq, hgrantTypes] at hconstraints
  obtain ⟨hallowed, hmachine⟩ := assertRoleConstraints_roles hconstraints
  refine ⟨hallowed, hmachine, fun hvalue => ?_⟩
  rw [hvalue] at h
  exact h

theorem update_wellFormed {tenantId : TenantId} {clientId : String} {dto : UpdateOAuthClientDto}
    {auth : Option AuthContext} {client : OAuthClient}
    (hwf : ∀ c ∈ clients, WellFormed env c)
    (h : update env clients tenantId clientId dto auth = .ok (clients', client)) :
    WellFormed env client ∧ clients' = Table.save OAuthClient.id client clients := by
  unfold update at h
  obtain ⟨caller, -, h⟩ := bind_eq_ok.mp h
  obtain ⟨_, hsupported, h⟩ := bind_eq_ok.mp h
  obtain ⟨old, hold, h⟩ := bind_eq_ok.mp h
  obtain ⟨_, hcheck, h⟩ := bind_eq_ok.mp h
  have hwfold := hwf old (findByTenantAndClientId_some (requireTenantClient_ok hold).1).1
  split at h
  · cases h
  next entity hentity =>
    obtain ⟨rows, hsave, h⟩ := bind_eq_ok.mp h
    obtain ⟨-, rfl⟩ := saveClient_ok hsave
    cases h
    obtain ⟨hscopes, -, hgrantTypes, -⟩ := applyUpdate_assigned hentity
    obtain ⟨hallowed, hmachine, hassignable⟩ := checkUpdate_ok hentity hcheck
    have hgrants : ∀ g ∈ client.grantTypes, g ∈ env.supportedGrantTypes := by
      rcases Js.Field.assign_cases hgrantTypes with hvalue | ⟨-, hsame⟩
      · rw [hvalue] at hsupported
        exact assertSupportedGrantTypes_ok hsupported
      · exact hsame ▸ hwfold.grantTypes
    have hscope : client.scopes ≠ [] ∧
        ∀ s ∈ client.scopes, s ∈ assignableOAuthClientScopes ∧ s ∈ env.scopes := by
      rcases Js.Field.assign_cases hscopes with hvalue | ⟨-, hsame⟩
      · exact assertAssignableScopes_scopes (hassignable hvalue)
      · exact hsame ▸ ⟨hwfold.scopes_ne, hwfold.scopes⟩
    exact ⟨⟨hallowed, fun hne => isMachineOnly_iff _ (hmachine hne), hgrants, hscope.1, hscope.2⟩,
      rfl⟩

theorem wellFormed_congr {c c' : OAuthClient} (h : WellFormed env c) (hroles : c'.roles = c.roles)
    (hgrantTypes : c'.grantTypes = c.grantTypes) (hscopes : c'.scopes = c.scopes) :
    WellFormed env c' := by
  refine ⟨?_, ?_, ?_, ?_, ?_⟩
  · exact hroles ▸ h.roles
  · rw [hroles, hgrantTypes]
    exact h.machineOnly
  · exact hgrantTypes ▸ h.grantTypes
  · exact hscopes ▸ h.scopes_ne
  · exact hscopes ▸ h.scopes

theorem wellFormed_updateWhere (hwf : ∀ c ∈ clients, WellFormed env c) {p : OAuthClient → Bool}
    {f : OAuthClient → OAuthClient} (hroles : ∀ c, (f c).roles = c.roles)
    (hgrantTypes : ∀ c, (f c).grantTypes = c.grantTypes) (hscopes : ∀ c, (f c).scopes = c.scopes) :
    ∀ c ∈ Table.updateWhere p f clients, WellFormed env c :=
  Table.forall_updateWhere
    (fun c hc _ => wellFormed_congr (hwf c hc) (hroles c) (hgrantTypes c) (hscopes c))
    fun c hc _ => hwf c hc

theorem wellFormed_save (hwf : ∀ c ∈ clients, WellFormed env c) {entity : OAuthClient}
    (hentity : WellFormed env entity) :
    ∀ c ∈ Table.save OAuthClient.id entity clients, WellFormed env c := by
  intro c hc
  rcases Table.eq_or_mem_of_mem_save hc with rfl | hc
  · exact hentity
  · exact hwf c hc

theorem exec_wellFormed {request : Request} {response : Response}
    (hwf : ∀ c ∈ clients, WellFormed env c)
    (h : exec env clients request = .ok (clients', response)) :
    ∀ c ∈ clients', WellFormed env c := by
  unfold exec at h
  split at h
  next tenantId dto fresh =>
    obtain ⟨⟨rows, client⟩, hcreate, h⟩ := bind_eq_ok.mp h
    cases h
    obtain ⟨hclient, rfl⟩ := createClient_wellFormed hcreate
    intro c hc
    rcases List.mem_append.mp hc with hc | hc
    · exact hwf c hc
    · rw [List.mem_singleton.mp hc]
      exact hclient
  next tenantId clientId dto =>
    obtain ⟨⟨rows, client⟩, hupdate, h⟩ := bind_eq_ok.mp h
    cases h
    obtain ⟨hclient, rfl⟩ := update_wellFormed hwf hupdate
    exact wellFormed_save hwf hclient
  next tenantId clientId clientSecret salt =>
    obtain ⟨⟨rows, client⟩, hrotate, h⟩ := bind_eq_ok.mp h
    cases h
    obtain ⟨old, hold, h⟩ := bind_eq_ok.mp hrotate
    obtain ⟨rows, hsave, h⟩ := bind_eq_ok.mp h
    cases h
    obtain ⟨-, rfl⟩ := saveClient_ok hsave
    have hmem := (findByTenantAndClientId_some (requireTenantClient_ok hold).1).1
    exact wellFormed_save hwf (wellFormed_congr (hwf old hmem) rfl rfl rfl)
  next tenantId clientId now =>
    obtain ⟨rows, hrevoke, h⟩ := bind_eq_ok.mp h
    cases h
    obtain ⟨old, hold, h⟩ := bind_eq_ok.mp hrevoke
    split at h
    · cases h
      exact hwf
    · cases h
      exact wellFormed_updateWhere hwf (by intro c; rfl) (by intro c; rfl) (by intro c; rfl)
  next tenantId now =>
    cases h
    exact wellFormed_updateWhere hwf (by intro c; rfl) (by intro c; rfl) (by intro c; rfl)
  next tenantId =>
    cases h
    exact wellFormed_updateWhere hwf (by intro c; rfl) (by intro c; rfl) (by intro c; rfl)

/-! ### Platform-level roles -/

theorem platformRoleKept_effect {request : Request} {response : Response} (hk : Constraints clients)
    (he : Effect env clients request.auth request.call clients' response) :
    PlatformRoleKept request clients clients' := by
  intro hadmin id
  obtain ⟨hforth, hback⟩ := successors_effect hk hadmin he
  constructor
  · rintro ⟨c', hc', rfl, hcarries⟩
    rcases hback c' hc' with ⟨c, hc, hs⟩ | hnone
    · exact ⟨c, hc, hs.id.symm, hs.platformRole ▸ hcarries⟩
    · rw [hnone] at hcarries
      cases hcarries
  · rintro ⟨c, hc, rfl, hcarries⟩
    obtain ⟨c', hc', hs⟩ := hforth c hc
    exact ⟨c', hc', hs.id, hs.platformRole.trans hcarries⟩

/-! ### Runs -/

structure ClientsInv (env : Env) (clients : List OAuthClient) : Prop where
  constraints : Constraints clients
  wellFormed : ∀ c ∈ clients, WellFormed env c

theorem clientsInv_step {s s' : History} {request : Request} (hi : ClientsInv env s.clients)
    (hs : step env s request = some s') :
    ClientsInv env s'.clients ∧ PlatformRoleKept request s.clients s'.clients := by
  rcases step_cases hs with ⟨rfl, -⟩ | ⟨response, hexec, heffect, -⟩
  · exact ⟨hi, fun _ id => Iff.rfl⟩
  · exact ⟨⟨constraints_effect hi.constraints heffect, exec_wellFormed hi.wellFormed hexec⟩,
      platformRoleKept_effect hi.constraints heffect⟩

theorem step_isSome (env : Env) (s : History) (request : Request) :
    (step env s request).isSome = true := by
  unfold step
  split <;> rfl

/-- Whatever the calls, the callers and the requests, every stored client stays well
formed, and only platform admins change whether a client carries a platform-level role. -/
theorem clients_wellFormed (env : Env) (clients : List OAuthClient) (requests : List Request)
    (hk : Constraints clients) (hwf : ∀ c ∈ clients, WellFormed env c) :
    Run.All (step env)
      (fun s request s' => (∀ c ∈ s'.clients, WellFormed env c) ∧
        PlatformRoleKept request s.clients s'.clients) ⟨clients, []⟩ requests := by
  refine Run.all_of_invariant (fun s => ClientsInv env s.clients) ?_ ⟨hk, hwf⟩
    (Run.enabled_of_total (step_isSome env) _ requests)
  intro s request s' hi hs _
  obtain ⟨hi', hkept⟩ := clientsInv_step hi hs
  exact ⟨hi', hi'.wellFormed, hkept⟩

/-! ### A role on a machine client -/

def issuer : OAuthClient :=
  { id := "row", tenantId := "t", clientId := "dtcs_1", clientSecretHash := some "salt:secret"
    name := "issuer", scopes := ["credentials:offer"], roles := ["member"], redirectUris := []
    grantTypes := [machineGrantType], createdBy := none, refreshTokenTtlSeconds := none }

def clientAdmin : AuthContext :=
  { sub := "admin", tokenType := .user, tenantId := some "t", roles := ["admin"]
    scopes := ["clients:manage", "credentials:offer"] }

def createAndUpdate : List Request :=
  [⟨some clientAdmin, .createClient "t" { name := "new", scopes := ["credentials:offer"] }
      ⟨"row2", "2", "secret", "salt"⟩⟩,
    ⟨some clientAdmin, .update "t" "dtcs_1" { roles := .value ["readonly"] }⟩]

theorem clients_wellFormed_issuer :
    Run.All (step argonEnv)
      (fun s request s' => (∀ c ∈ s'.clients, WellFormed argonEnv c) ∧
        PlatformRoleKept request s.clients s'.clients) ⟨[issuer], []⟩ createAndUpdate := by
  refine clients_wellFormed argonEnv [issuer] createAndUpdate
    ⟨by decide, by decide, by decide⟩ ?_
  intro c hc
  rw [List.mem_singleton.mp hc]
  exact ⟨by decide, fun _ grantType => List.mem_singleton, by decide, by decide, by decide⟩

end VcCommonService.OAuthClients
