import VcCommonService.OAuthClient.Service

/-!
# What a successful call did

One constructor of `Effect` per operation: the row it found, the checks it passed, and
the table it left. Everything about runs is derived from `exec_effect`.
-/

namespace VcCommonService.OAuthClients
open Lib Auth

def Request.isPlatformAdmin (request : Request) : Bool :=
  request.auth.any fun auth => Auth.isPlatformAdmin auth.roles

inductive Effect (env : Env) (clients : List OAuthClient) (auth : Option AuthContext) :
    Call → List OAuthClient → Response → Prop where
  | createClient (tenantId : TenantId) (dto : CreateOAuthClientDto) (fresh : Fresh)
      (caller : AuthContext) (hcaller : auth = some caller)
      (hrole : hasPlatformRole (newClient env tenantId dto caller fresh).roles = true →
        Auth.isPlatformAdmin caller.roles = true)
      (hscopes : ∀ scope ∈ dto.scopes, Auth.isPlatformAdmin caller.roles = true ∨
        scope ∈ expandEffectiveScopes caller.scopes)
      (hrow : checkRow (newClient env tenantId dto caller fresh) = .ok ())
      (hid : ∀ c ∈ clients, c.id ≠ fresh.id)
      (hclientId : ∀ c ∈ clients, c.clientId ≠ oauthClientIdPrefix ++ fresh.randomId) :
      Effect env clients auth (.createClient tenantId dto fresh)
        (clients ++ [newClient env tenantId dto caller fresh])
        (.secret (newClient env tenantId dto caller fresh) fresh.clientSecret)
  | update (tenantId : TenantId) (clientId : String) (dto : UpdateOAuthClientDto)
      (caller : AuthContext) (hcaller : auth = some caller) (old entity : OAuthClient)
      (hold : findByTenantAndClientId clients tenantId clientId = some old)
      (hactive : old.revokedAt = none) (hentity : applyUpdate dto old = some entity)
      (hrole : hasPlatformRole old.roles ≠ hasPlatformRole entity.roles →
        Auth.isPlatformAdmin caller.roles = true)
      (hrow : checkRow entity = .ok ()) :
      Effect env clients auth (.update tenantId clientId dto)
        (Table.save OAuthClient.id entity clients) (.client entity)
  | rotateSecret (tenantId : TenantId) (clientId clientSecret salt : String) (old : OAuthClient)
      (hold : findByTenantAndClientId clients tenantId clientId = some old)
      (hactive : old.revokedAt = none) (hkind : old.isPublic = false)
      (hrow : checkRow { old with clientSecretHash := some (env.hash salt clientSecret) } = .ok ()) :
      Effect env clients auth (.rotateSecret tenantId clientId clientSecret salt)
        (Table.save OAuthClient.id
          { old with clientSecretHash := some (env.hash salt clientSecret) } clients)
        (.secret { old with clientSecretHash := some (env.hash salt clientSecret) } clientSecret)
  | revokeAgain (tenantId : TenantId) (clientId : String) (now : Time) (old : OAuthClient)
      (hold : findByTenantAndClientId clients tenantId clientId = some old)
      (hrevoked : old.revokedAt.isSome = true) :
      Effect env clients auth (.revokeClient tenantId clientId now) clients .nothing
  | revokeClient (tenantId : TenantId) (clientId : String) (now : Time) (old : OAuthClient)
      (hold : findByTenantAndClientId clients tenantId clientId = some old)
      (hactive : old.revokedAt = none) :
      Effect env clients auth (.revokeClient tenantId clientId now) (revoke clients old.id now)
        .nothing
  | revokeAllForTenant (tenantId : TenantId) (now : Time) :
      Effect env clients auth (.revokeAllForTenant tenantId now)
        (revokeAllForTenant clients tenantId now) .nothing
  | restoreAllForTenant (tenantId : TenantId) :
      Effect env clients auth (.restoreAllForTenant tenantId)
        (restoreAllForTenant clients tenantId) .nothing

/-! ### Checks that passed -/

variable {env : Env} {clients clients' : List OAuthClient}

theorem requireCaller_ok {auth : Option AuthContext} {caller : AuthContext}
    (h : requireCaller auth = .ok caller) : auth = some caller := by
  cases auth with
  | none => cases h
  | some a => exact congrArg some (Except.ok.inj h)

theorem requireTenantClient_ok {tenantId : TenantId} {clientId : String} {active : Bool}
    {client : OAuthClient} (h : requireTenantClient clients tenantId clientId active = .ok client) :
    findByTenantAndClientId clients tenantId clientId = some client ∧
      (active = true → client.revokedAt = none) := by
  unfold requireTenantClient at h
  split at h
  · cases h
  next c hc =>
    split at h
    · cases h
    next hactive =>
      have hcc : c = client := Except.ok.inj h
      subst hcc
      refine ⟨hc, fun hact => ?_⟩
      simpa [hact] using hactive

theorem assertRoleConstraints_ok {roles previousRoles : List String}
    {grantTypes : Option (List String)} {caller : AuthContext} {checkAssignment : Bool}
    (h : assertRoleConstraints roles grantTypes caller checkAssignment previousRoles = .ok ()) :
    checkAssignment = true → hasPlatformRole previousRoles ≠ hasPlatformRole roles →
      isPlatformAdmin caller.roles = true := by
  intro hcheck hne
  unfold assertRoleConstraints at h
  dsimp only at h
  split at h
  · cases h
  · split at h
    · cases h
    next hguard =>
      by_contra hadmin
      have hfalse : isPlatformAdmin caller.roles = false := Bool.eq_false_iff.mpr hadmin
      exact hguard (by simp [hcheck, hne, hfalse])

theorem assertAssignableScopes_permitted {scopes : List String} {caller : AuthContext}
    (h : assertAssignableScopes env scopes caller = .ok ()) :
    scopes ≠ [] ∧ ∀ scope ∈ scopes, permitted (scopeRequest env scopes caller) scope = true := by
  unfold assertAssignableScopes at h
  dsimp only at h
  split at h
  · cases h
  next hne =>
    refine ⟨hne, ?_⟩
    split at h
    next hdenied => exact (deniedScopes_eq_nil _).mp hdenied
    · split at h
      · cases h
      · split at h <;> cases h

theorem assertAssignableScopes_ok {scopes : List String} {caller : AuthContext}
    (h : assertAssignableScopes env scopes caller = .ok ()) :
    ∀ scope ∈ scopes, isPlatformAdmin caller.roles = true ∨
      scope ∈ expandEffectiveScopes caller.scopes := by
  intro scope hscope
  have hpermitted := (assertAssignableScopes_permitted h).2 scope hscope
  simp only [permitted, scopeRequest, Bool.and_eq_true, Bool.or_eq_true,
    List.contains_iff_mem] at hpermitted
  exact hpermitted.2

theorem saveClient_ok {client : OAuthClient} (h : saveClient clients client = .ok clients') :
    checkRow client = .ok () ∧ clients' = Table.save OAuthClient.id client clients := by
  unfold saveClient at h
  obtain ⟨u, hu, hr⟩ := bind_eq_ok.mp h
  exact ⟨hu, (Except.ok.inj hr).symm⟩

theorem insertClient_ok {client : OAuthClient} (h : insertClient clients client = .ok clients') :
    checkRow client = .ok () ∧ (∀ c ∈ clients, c.id ≠ client.id) ∧ (∀ c ∈ clients, c.clientId ≠ client.clientId) ∧
      clients' = clients ++ [client] := by
  unfold insertClient at h
  obtain ⟨_, hrow, h⟩ := bind_eq_ok.mp h
  split at h
  · cases h
  next hid =>
    split at h
    · cases h
    next hclientId =>
      refine ⟨hrow, fun c hc he => hid ?_, fun c hc he => hclientId ?_, (Except.ok.inj h).symm⟩
      · exact List.any_eq_true.mpr ⟨c, hc, decide_eq_true he⟩
      · exact List.any_eq_true.mpr ⟨c, hc, decide_eq_true he⟩

theorem checkRow_kind {client : OAuthClient} (h : checkRow client = .ok ())
    (hsecret : client.clientSecretHash.isSome = true) : client.isPublic = false := by
  unfold checkRow at h
  split at h
  · cases h
  next hkind =>
    have heq : client.isPublic = client.clientSecretHash.isNone := by simpa using hkind
    rw [heq, Option.isNone_eq_false_iff]
    exact hsecret

/-! ### Operations that succeeded -/

theorem createClient_effect {tenantId : TenantId} {dto : CreateOAuthClientDto}
    {auth : Option AuthContext} {fresh : Fresh} {client : OAuthClient}
    (h : createClient env clients tenantId dto auth fresh = .ok (clients', client)) :
    Effect env clients auth (.createClient tenantId dto fresh) clients'
      (.secret client fresh.clientSecret) := by
  unfold createClient at h
  obtain ⟨caller, hcaller, h⟩ := bind_eq_ok.mp h
  obtain ⟨_, _, h⟩ := bind_eq_ok.mp h
  obtain ⟨_, hroles, h⟩ := bind_eq_ok.mp h
  obtain ⟨_, hscopes, h⟩ := bind_eq_ok.mp h
  obtain ⟨rows, hinsert, h⟩ := bind_eq_ok.mp h
  obtain ⟨hrow, hid, hclientId, rfl⟩ := insertClient_ok hinsert
  cases h
  refine .createClient tenantId dto fresh caller (requireCaller_ok hcaller) ?_
    (assertAssignableScopes_ok hscopes) hrow hid hclientId
  intro hplatform
  -- an omitted field means no role at all, so a platform role was in the request
  cases hd : dto.roles.isDefined with
  | true =>
    refine assertRoleConstraints_ok hroles hd ?_
    rw [hplatform]
    simp [hasPlatformRole]
  | false =>
    have hnone : (newClient env tenantId dto caller fresh).roles = [] := by
      cases hr : dto.roles with
      | undefined => simp [newClient, hr, Js.Field.getD]
      | null => simp [newClient, hr, Js.Field.getD]
      | value roles => simp [hr, Js.Field.isDefined] at hd
    rw [hnone] at hplatform
    simp [hasPlatformRole] at hplatform

theorem applyUpdate_assigned {dto : UpdateOAuthClientDto} {old entity : OAuthClient}
    (h : applyUpdate dto old = some entity) :
    dto.scopes.assign old.scopes = some entity.scopes ∧
      dto.roles.assign old.roles = some entity.roles ∧
      dto.grantTypes.assign old.grantTypes = some entity.grantTypes ∧
      entity.clientSecretHash = old.clientSecretHash := by
  simp only [applyUpdate, Option.bind_eq_bind, Option.bind_eq_some_iff, Option.pure_def,
    Option.some.injEq] at h
  obtain ⟨name, -, scopes, hscopes, roles, hroles, uris, -, grants, hgrants, rfl⟩ := h
  exact ⟨hscopes, hroles, hgrants, rfl⟩

theorem applyUpdate_some {dto : UpdateOAuthClientDto} {old entity : OAuthClient}
    (h : applyUpdate dto old = some entity) :
    entity.id = old.id ∧ entity.tenantId = old.tenantId ∧ entity.clientId = old.clientId ∧
      entity.revokedAt = old.revokedAt ∧ entity.revokedReason = old.revokedReason ∧
      dto.roles.assign old.roles = some entity.roles := by
  simp only [applyUpdate, Option.bind_eq_bind, Option.bind_eq_some_iff, Option.pure_def,
    Option.some.injEq] at h
  obtain ⟨name, -, scopes, -, roles, hroles, uris, -, grants, -, rfl⟩ := h
  exact ⟨rfl, rfl, rfl, rfl, rfl, hroles⟩

theorem update_effect {tenantId : TenantId} {clientId : String} {dto : UpdateOAuthClientDto}
    {auth : Option AuthContext} {client : OAuthClient}
    (h : update env clients tenantId clientId dto auth = .ok (clients', client)) :
    Effect env clients auth (.update tenantId clientId dto) clients' (.client client) := by
  unfold update at h
  obtain ⟨caller, hcaller, h⟩ := bind_eq_ok.mp h
  obtain ⟨_, _, h⟩ := bind_eq_ok.mp h
  obtain ⟨old, hold, h⟩ := bind_eq_ok.mp h
  obtain ⟨_, hcheck, h⟩ := bind_eq_ok.mp h
  obtain ⟨hfind, hactive⟩ := requireTenantClient_ok hold
  split at h
  · cases h
  next entity hentity =>
    obtain ⟨rows, hsave, h⟩ := bind_eq_ok.mp h
    obtain ⟨hrow, rfl⟩ := saveClient_ok hsave
    cases h
    refine .update tenantId clientId dto caller (requireCaller_ok hcaller) old client hfind
      (hactive rfl) hentity ?_ hrow
    intro hne
    obtain ⟨-, -, -, -, -, hassign⟩ := applyUpdate_some hentity
    unfold checkUpdate at hcheck
    obtain ⟨nextRoles, hnext, hcheck⟩ := bind_eq_ok.mp hcheck
    obtain ⟨_, hroles, _⟩ := bind_eq_ok.mp hcheck
    have heq : nextRoles = client.roles := by
      rw [readList, hassign] at hnext
      exact (Except.ok.inj hnext).symm
    rw [heq] at hroles
    refine assertRoleConstraints_ok hroles ?_ hne
    cases hr : dto.roles with
    | undefined =>
      rw [hr] at hassign
      exact absurd (congrArg hasPlatformRole (Option.some.inj hassign)) hne
    | null => rfl
    | value roles => rfl

theorem rotateSecret_effect {tenantId : TenantId} {clientId clientSecret salt : String}
    {auth : Option AuthContext} {client : OAuthClient}
    (h : rotateSecret env clients tenantId clientId clientSecret salt = .ok (clients', client)) :
    Effect env clients auth (.rotateSecret tenantId clientId clientSecret salt) clients'
      (.secret client clientSecret) := by
  unfold rotateSecret at h
  obtain ⟨old, hold, h⟩ := bind_eq_ok.mp h
  obtain ⟨hfind, hactive⟩ := requireTenantClient_ok hold
  obtain ⟨rows, hsave, h⟩ := bind_eq_ok.mp h
  obtain ⟨hrow, rfl⟩ := saveClient_ok hsave
  cases h
  have hkind := checkRow_kind hrow rfl
  exact .rotateSecret tenantId clientId clientSecret salt old hfind (hactive rfl) hkind hrow

theorem revokeClient_effect {tenantId : TenantId} {clientId : String} {now : Time}
    {auth : Option AuthContext} (h : revokeClient clients tenantId clientId now = .ok clients') :
    Effect env clients auth (.revokeClient tenantId clientId now) clients' .nothing := by
  unfold revokeClient at h
  obtain ⟨old, hold, h⟩ := bind_eq_ok.mp h
  obtain ⟨hfind, -⟩ := requireTenantClient_ok hold
  split at h
  next hrevoked =>
    cases h
    exact .revokeAgain tenantId clientId now old hfind hrevoked
  next hactive =>
    cases h
    exact .revokeClient tenantId clientId now old hfind (by simpa using hactive)

theorem exec_effect {request : Request} {response : Response}
    (h : exec env clients request = .ok (clients', response)) :
    Effect env clients request.auth request.call clients' response := by
  unfold exec at h
  split at h
  next tenantId dto fresh hcall =>
    obtain ⟨⟨rows, client⟩, hcreate, h⟩ := bind_eq_ok.mp h
    cases h
    exact hcall ▸ createClient_effect hcreate
  next tenantId clientId dto hcall =>
    obtain ⟨⟨rows, client⟩, hupdate, h⟩ := bind_eq_ok.mp h
    cases h
    exact hcall ▸ update_effect hupdate
  next tenantId clientId clientSecret salt hcall =>
    obtain ⟨⟨rows, client⟩, hrotate, h⟩ := bind_eq_ok.mp h
    cases h
    exact hcall ▸ rotateSecret_effect hrotate
  next tenantId clientId now hcall =>
    obtain ⟨rows, hrevoke, h⟩ := bind_eq_ok.mp h
    cases h
    exact hcall ▸ revokeClient_effect hrevoke
  next tenantId now hcall =>
    cases h
    exact hcall ▸ .revokeAllForTenant tenantId now
  next tenantId hcall =>
    cases h
    exact hcall ▸ .restoreAllForTenant tenantId

theorem step_cases {s s' : History} {request : Request} (h : step env s request = some s') :
    (s' = s ∧ ∃ e, exec env s.clients request = .error e) ∨
    ∃ response, exec env s.clients request = .ok (s'.clients, response) ∧
      Effect env s.clients request.auth request.call s'.clients response ∧
      s'.log = s.log ++ [(request, response)] := by
  unfold step at h
  split at h
  next e he =>
    cases h
    exact Or.inl ⟨rfl, e, he⟩
  next rows response he =>
    cases h
    exact Or.inr ⟨response, he, exec_effect he, rfl⟩

theorem findByTenantAndClientId_some {tenantId : TenantId} {clientId : String}
    {client : OAuthClient} (h : findByTenantAndClientId clients tenantId clientId = some client) :
    client ∈ clients ∧ client.tenantId = tenantId ∧ client.clientId = clientId := by
  have hmem := List.mem_of_find?_eq_some h
  have hp := List.find?_some h
  exact ⟨hmem, of_decide_eq_true hp⟩

/-! ### The constraints of the table -/

structure Constraints (clients : List OAuthClient) : Prop where
  id : Table.UniqueKeys OAuthClient.id clients
  clientId : Table.UniqueKeys OAuthClient.clientId clients
  row : ∀ c ∈ clients, checkRow c = .ok ()

theorem constraints_save (hk : Constraints clients) {old entity : OAuthClient}
    (hold : old ∈ clients) (hid : entity.id = old.id) (hclientId : entity.clientId = old.clientId)
    (hrow : checkRow entity = .ok ()) :
    Constraints (Table.save OAuthClient.id entity clients) := by
  refine ⟨Table.uniqueKeys_save entity hk.id, ?_, ?_⟩
  · unfold Table.UniqueKeys
    rw [(Table.map_save_eq_iff hk.id hold hid.symm).mpr hclientId]
    exact hk.clientId
  · intro c hc
    rcases (Table.mem_save hk.id c).mp hc with rfl | ⟨hc, -⟩
    · exact hrow
    · exact hk.row c hc

theorem constraints_updateWhere {p : OAuthClient → Bool} {f : OAuthClient → OAuthClient}
    (hk : Constraints clients) (hid : ∀ c, (f c).id = c.id)
    (hclientId : ∀ c, (f c).clientId = c.clientId) (hrow : ∀ c, checkRow (f c) = checkRow c) :
    Constraints (Table.updateWhere p f clients) := by
  refine ⟨Table.uniqueKeys_updateWhere hid hk.id, Table.uniqueKeys_updateWhere hclientId hk.clientId,
    Table.forall_updateWhere (fun c hc _ => ?_) fun c hc _ => hk.row c hc⟩
  rw [hrow]
  exact hk.row c hc

theorem constraints_effect {auth : Option AuthContext} {call : Call} {response : Response}
    (hk : Constraints clients) (he : Effect env clients auth call clients' response) :
    Constraints clients' := by
  cases he with
  | createClient tenantId dto fresh caller hcaller hrole hscopes hrow hid hclientId =>
    refine ⟨Table.uniqueKeys_append hk.id hid, Table.uniqueKeys_append hk.clientId hclientId, fun c hc => ?_⟩
    rcases List.mem_append.mp hc with hc | hc
    · exact hk.row c hc
    · rw [List.mem_singleton.mp hc]
      exact hrow
  | update tenantId clientId dto caller hcaller old entity hold hactive hentity hrole hrow =>
    obtain ⟨hid, -, hcid, -⟩ := applyUpdate_some hentity
    exact constraints_save hk (findByTenantAndClientId_some hold).1 hid hcid hrow
  | rotateSecret tenantId clientId clientSecret salt old hold hactive hkind hrow =>
    exact constraints_save hk (findByTenantAndClientId_some hold).1 rfl rfl hrow
  | revokeAgain => exact hk
  | revokeClient =>
    exact constraints_updateWhere hk (by intro c; rfl) (by intro c; rfl) (by intro c; rfl)
  | revokeAllForTenant =>
    exact constraints_updateWhere hk (by intro c; rfl) (by intro c; rfl) (by intro c; rfl)
  | restoreAllForTenant =>
    exact constraints_updateWhere hk (by intro c; rfl) (by intro c; rfl) (by intro c; rfl)

/-! ### The rows that a call leaves -/

/-- The row `c'` is what became of `c` in a call of somebody who is no platform admin. -/
structure Successor (c c' : OAuthClient) : Prop where
  id : c'.id = c.id
  clientId : c'.clientId = c.clientId
  platformRole : hasPlatformRole c'.roles = hasPlatformRole c.roles

def Successors (clients clients' : List OAuthClient) : Prop :=
  (∀ c ∈ clients, ∃ c' ∈ clients', Successor c c') ∧
  ∀ c' ∈ clients', (∃ c ∈ clients, Successor c c') ∨ hasPlatformRole c'.roles = false

theorem successors_refl (clients : List OAuthClient) : Successors clients clients :=
  ⟨fun c hc => ⟨c, hc, rfl, rfl, rfl⟩, fun c hc => Or.inl ⟨c, hc, rfl, rfl, rfl⟩⟩

theorem successors_save (hk : Constraints clients) {old entity : OAuthClient} (hold : old ∈ clients)
    (hs : Successor old entity) :
    Successors clients (Table.save OAuthClient.id entity clients) := by
  constructor
  · intro c hc
    by_cases hid : c.id = entity.id
    · have heq : c = old := Table.eq_of_key hk.id hc hold (hid.trans hs.id)
      exact ⟨entity, Table.mem_save_self _ _ _, heq ▸ hs⟩
    · exact ⟨c, (Table.mem_save hk.id c).mpr (Or.inr ⟨hc, hid⟩), rfl, rfl, rfl⟩
  · intro c hc
    rcases Table.eq_or_mem_of_mem_save hc with rfl | hc
    · exact Or.inl ⟨old, hold, hs⟩
    · exact Or.inl ⟨c, hc, rfl, rfl, rfl⟩

theorem successors_updateWhere {p : OAuthClient → Bool} {f : OAuthClient → OAuthClient}
    (hf : ∀ c, Successor c (f c)) : Successors clients (Table.updateWhere p f clients) := by
  have hrow : ∀ c, Successor c (if p c then f c else c) := by
    intro c
    split
    · exact hf c
    · exact ⟨rfl, rfl, rfl⟩
  constructor
  · intro c hc
    exact ⟨_, (Table.mem_updateWhere _ _ _ _).mpr ⟨c, hc, rfl⟩, hrow c⟩
  · intro c hc
    obtain ⟨q, hq, rfl⟩ := (Table.mem_updateWhere _ _ _ _).mp hc
    exact Or.inl ⟨q, hq, hrow q⟩

theorem not_admin {request : Request} {caller : AuthContext} (hauth : request.auth = some caller)
    (h : request.isPlatformAdmin = false) : ¬ isPlatformAdmin caller.roles = true := by
  rw [Request.isPlatformAdmin, hauth] at h
  simpa using h

/-- Unless a platform admin calls, every row keeps its platform role and a new row has none. -/
theorem successors_effect {request : Request} {response : Response} (hk : Constraints clients)
    (hadmin : request.isPlatformAdmin = false)
    (he : Effect env clients request.auth request.call clients' response) :
    Successors clients clients' := by
  generalize request.call = call at he
  cases he with
  | createClient tenantId dto fresh caller hcaller hrole =>
    obtain ⟨hsame, hfrom⟩ := successors_refl clients
    refine ⟨fun c hc => ?_, fun c hc => ?_⟩
    · obtain ⟨c', hc', hs⟩ := hsame c hc
      exact ⟨c', List.mem_append_left _ hc', hs⟩
    · rcases List.mem_append.mp hc with hc | hc
      · exact hfrom c hc
      · rw [List.mem_singleton.mp hc]
        exact Or.inr (Bool.eq_false_iff.mpr fun h => not_admin hcaller hadmin (hrole h))
  | update tenantId clientId dto caller hcaller old entity hold hactive hentity hrole =>
    obtain ⟨hid, -, hclientId, -⟩ := applyUpdate_some hentity
    have hsame : hasPlatformRole entity.roles = hasPlatformRole old.roles := by
      by_contra hne
      exact not_admin hcaller hadmin (hrole fun h => hne h.symm)
    exact successors_save hk (findByTenantAndClientId_some hold).1 ⟨hid, hclientId, hsame⟩
  | rotateSecret tenantId clientId clientSecret salt old hold =>
    exact successors_save hk (findByTenantAndClientId_some hold).1 ⟨rfl, rfl, rfl⟩
  | revokeAgain => exact successors_refl clients
  | revokeClient => exact successors_updateWhere fun c => ⟨rfl, rfl, rfl⟩
  | revokeAllForTenant => exact successors_updateWhere fun c => ⟨rfl, rfl, rfl⟩
  | restoreAllForTenant => exact successors_updateWhere fun c => ⟨rfl, rfl, rfl⟩

end VcCommonService.OAuthClients
