import VcCommonService.OAuthClient.Effects

/-!
# Secrets of privileged clients

`createClient` and `update` let only a platform admin change whether a client carries a
platform-level role. `rotateSecret` asks nothing of its caller, so whoever may manage the
clients of a tenant can take over a privileged client of that tenant. That is the only
way: as long as nobody but a platform admin rotates such a secret, no other caller is
ever handed one.
-/

namespace VcCommonService.OAuthClients
open Lib Auth

/-- A secret returned to a caller who is no platform admin belongs to a client without
platform role, and a created client has no scope beyond its creator's. -/
def EscalationFree (s : History) (request : Request) (s' : History) : Prop :=
  request.isPlatformAdmin = false →
    ∀ client clientSecret, s'.log = s.log ++ [(request, .secret client clientSecret)] →
      hasPlatformRole client.roles = false ∧
      ∀ tenantId dto fresh, request.call = .createClient tenantId dto fresh →
        ∀ caller, request.auth = some caller →
          ∀ scope ∈ client.scopes, scope ∈ expandEffectiveScopes caller.scopes

/-- No secret handed out during the run authenticates a client with a platform role. -/
def NoPlatformSecret (env : Env) (s : History) : Prop :=
  ∀ entry ∈ s.log, ∀ client clientSecret, entry.2 = .secret client clientSecret →
    verifyClientSecret env s.clients client.clientId clientSecret = .ok true →
    ∀ c ∈ s.clients, c.clientId = client.clientId → hasPlatformRole c.roles = false

/-- Only a platform admin rotates the secret of an active confidential client that
carries a platform role. -/
def RotatesUnprivileged (s : History) (request : Request) (_ : History) : Prop :=
  request.isPlatformAdmin = false →
    ∀ tenantId clientId clientSecret salt,
      request.call = .rotateSecret tenantId clientId clientSecret salt →
      ∀ c, findByTenantAndClientId s.clients tenantId clientId = some c →
        c.revokedAt = none → c.isPublic = false → hasPlatformRole c.roles = false

variable {env : Env} {s s' : History} {request : Request}

theorem rotateSecret_ok (env : Env) {tenantId : TenantId} {clientId : String}
    (clientSecret salt : String)
    {clients : List OAuthClient} (hk : Constraints clients) {c : OAuthClient}
    (hc : findByTenantAndClientId clients tenantId clientId = some c)
    (hactive : c.revokedAt = none) (hkind : c.isPublic = false) :
    ∃ clients', rotateSecret env clients tenantId clientId clientSecret salt =
      .ok (clients', { c with clientSecretHash := some (env.hash salt clientSecret) }) := by
  have hfound : requireTenantClient clients tenantId clientId true = .ok c := by
    simp [requireTenantClient, hc, hactive]
  have hrow := hk.row c (findByTenantAndClientId_some hc).1
  have hnew : checkRow { c with clientSecretHash := some (env.hash salt clientSecret) } =
      .ok () := by
    unfold checkRow at hrow ⊢
    split at hrow
    · cases hrow
    · simpa [hkind] using hrow
  have hsave : saveClient clients
      { c with clientSecretHash := some (env.hash salt clientSecret) } =
        .ok (Table.save OAuthClient.id
          { c with clientSecretHash := some (env.hash salt clientSecret) } clients) :=
    bind_eq_ok.mpr ⟨(), hnew, rfl⟩
  exact ⟨_, bind_eq_ok.mpr ⟨c, hfound, bind_eq_ok.mpr ⟨_, hsave, rfl⟩⟩⟩

theorem escalationFree_iff (hk : Constraints s.clients) (hs : step env s request = some s') :
    RotatesUnprivileged s request s' ↔ EscalationFree s request s' := by
  constructor
  · intro hc hadmin client clientSecret hlog
    rcases step_cases hs with ⟨rfl, -⟩ | ⟨response, -, heffect, hlog'⟩
    · simp at hlog
    have hresponse : response = .secret client clientSecret := by
      have h := List.append_cancel_left (hlog'.symm.trans hlog)
      simpa using h
    subst hresponse
    generalize s'.clients = clients' at heffect
    generalize hcall : request.call = call at heffect
    cases heffect with
    | createClient tenantId dto fresh caller hcaller hrole hscopes hrow hid hclientId =>
      have hnot := not_admin hcaller hadmin
      refine ⟨Bool.eq_false_iff.mpr fun h => hnot (hrole h), ?_⟩
      intro t d f _ caller' hcaller' scope hscope
      have heq : caller = caller' := Option.some.inj (hcaller.symm.trans hcaller')
      exact heq ▸ (hscopes scope hscope).resolve_left hnot
    | rotateSecret tenantId clientId _ salt old hold hactive hkind hrow =>
      refine ⟨hc hadmin _ _ _ _ hcall old hold hactive hkind, ?_⟩
      intro t d f hcreate
      cases hcreate
  · intro hfree hadmin tenantId clientId clientSecret salt hcall c hc hactive hkind
    obtain ⟨clients', hrotate⟩ := rotateSecret_ok env clientSecret salt hk hc hactive hkind
    have hexec : exec env s.clients request = .ok (clients', .secret
        { c with clientSecretHash := some (env.hash salt clientSecret) } clientSecret) := by
      simp only [exec, hcall]
      exact bind_eq_ok.mpr ⟨_, hrotate, rfl⟩
    have hlog : s'.log = s.log ++ [(request, .secret
        { c with clientSecretHash := some (env.hash salt clientSecret) } clientSecret)] := by
      rw [step, hexec] at hs
      cases hs
      rfl
    exact (hfree hadmin _ _ hlog).1

/-! ### Runs without a platform admin -/

structure UnprivilegedInv (s : History) : Prop where
  constraints : Constraints s.clients
  issued : ∀ entry ∈ s.log, ∀ client clientSecret, entry.2 = .secret client clientSecret →
    ∃ c ∈ s.clients, c.clientId = client.clientId ∧ hasPlatformRole c.roles = false

def KeepsPlatformRole (clients clients' : List OAuthClient) : Prop :=
  ∀ c ∈ clients, ∃ c' ∈ clients', c'.clientId = c.clientId ∧
    hasPlatformRole c'.roles = hasPlatformRole c.roles

theorem keepsPlatformRole_effect {clients clients' : List OAuthClient} {response : Response}
    (hk : Constraints clients) (hadmin : request.isPlatformAdmin = false)
    (he : Effect env clients request.auth request.call clients' response) :
    KeepsPlatformRole clients clients' := by
  intro c hc
  obtain ⟨c', hc', hs⟩ := (successors_effect hk hadmin he).1 c hc
  exact ⟨c', hc', hs.clientId, hs.platformRole⟩

theorem secret_stored {clients clients' : List OAuthClient} {auth : Option AuthContext}
    {call : Call} {client : OAuthClient} {clientSecret : String} (hk : Constraints clients)
    (he : Effect env clients auth call clients' (.secret client clientSecret)) :
    client ∈ clients' := by
  cases he with
  | createClient => exact List.mem_append_right _ (List.mem_singleton_self _)
  | rotateSecret => exact (Table.mem_save hk.id _).mpr (Or.inl rfl)

theorem unprivilegedInv_step (hi : UnprivilegedInv s) (hs : step env s request = some s')
    (hc : RotatesUnprivileged s request s') (hadmin : request.isPlatformAdmin = false) :
    UnprivilegedInv s' := by
  have hfree := (escalationFree_iff hi.constraints hs).mp hc
  rcases step_cases hs with ⟨rfl, -⟩ | ⟨response, -, heffect, hlog⟩
  · exact hi
  refine ⟨constraints_effect hi.constraints heffect, ?_⟩
  intro entry hentry client clientSecret hsecret
  rw [hlog] at hentry
  rcases List.mem_append.mp hentry with hentry | hentry
  · obtain ⟨c, hc, hclientId, hrole⟩ := hi.issued entry hentry client clientSecret hsecret
    obtain ⟨c', hc', hclientId', hrole'⟩ :=
      keepsPlatformRole_effect hi.constraints hadmin heffect c hc
    exact ⟨c', hc', hclientId'.trans hclientId, hrole'.trans hrole⟩
  · rw [List.mem_singleton.mp hentry] at hsecret
    have hresponse : response = .secret client clientSecret := hsecret
    subst hresponse
    exact ⟨client, secret_stored hi.constraints heffect, rfl, (hfree hadmin _ _ hlog).1⟩

theorem noPlatformSecret_of_inv (hi : UnprivilegedInv s) : NoPlatformSecret env s := by
  intro entry hentry client clientSecret hsecret _ c hc hclientId
  obtain ⟨d, hd, hdid, hrole⟩ := hi.issued entry hentry client clientSecret hsecret
  have heq : d = c := Table.eq_of_key hi.constraints.clientId hd hc (hdid.trans hclientId.symm)
  exact heq ▸ hrole

/-! ### Runs -/

/-- A run hands out no secret beyond its caller's privileges, and leaves no usable one behind
when no platform admin took part, if and only if only platform admins rotate the
secrets of privileged clients. -/
theorem escalation_free_iff (env : Env) (clients : List OAuthClient) (requests : List Request)
    (hk : Constraints clients) :
    (Run.All (step env) EscalationFree ⟨clients, []⟩ requests ∧
      ((∀ request ∈ requests, request.isPlatformAdmin = false) →
        ∀ s, Run.final (step env) ⟨clients, []⟩ requests = some s → NoPlatformSecret env s)) ↔
      Run.All (step env) RotatesUnprivileged ⟨clients, []⟩ requests := by
  have hiff : Run.All (step env) RotatesUnprivileged ⟨clients, []⟩ requests ↔
      Run.All (step env) EscalationFree ⟨clients, []⟩ requests := by
    refine Run.all_iff_of_invariant (fun s => Constraints s.clients) ?_ ?_ hk
    · intro s request s' hk hs
      exact escalationFree_iff hk hs
    · intro s request s' hk hs _
      rcases step_cases hs with ⟨rfl, -⟩ | ⟨response, -, heffect, -⟩
      · exact hk
      · exact constraints_effect hk heffect
  constructor
  · rintro ⟨hfree, -⟩
    exact hiff.mpr hfree
  · intro hrun
    refine ⟨hiff.mp hrun, fun hadmin s hfinal => ?_⟩
    have hall := Run.all_labels hadmin hrun
    have hinv : UnprivilegedInv s := by
      refine Run.final_of_invariant UnprivilegedInv ?_ ?_ hall hfinal
      · intro s request s' hi hs hc
        exact unprivilegedInv_step hi hs hc.1 hc.2
      · exact ⟨hk, fun entry hentry => by cases hentry⟩
    exact noPlatformSecret_of_inv hinv

/-! ### A tenant admin takes over a privileged client -/

def tenantAdmin : AuthContext :=
  { sub := "admin", tokenType := .user, tenantId := some "t", roles := ["admin"]
    scopes := ["clients:manage", "credentials:offer"] }

def privilegedClient : OAuthClient :=
  { id := "row", tenantId := "t", clientId := "dtsc-platform-admin"
    clientSecretHash := some "salt:initial", name := "Platform admin"
    scopes := ["tenants:admin"], roles := ["platform-admin"], redirectUris := []
    grantTypes := [machineGrantType], createdBy := none, refreshTokenTtlSeconds := none }

def takeOver : Request :=
  ⟨some tenantAdmin, .rotateSecret "t" "dtsc-platform-admin" "stolen" "salt2"⟩

def createOwn : Request :=
  ⟨some tenantAdmin, .createClient "t" { name := "own", scopes := ["credentials:offer"] }
    ⟨"row2", "2", "secret", "salt"⟩⟩

theorem constraints_privilegedClient : Constraints [privilegedClient] :=
  ⟨by decide, by decide, by decide⟩

theorem escalation_free_create :
    Run.All (step argonEnv) EscalationFree ⟨[privilegedClient], []⟩ [createOwn] ∧
      ((∀ request ∈ [createOwn], request.isPlatformAdmin = false) →
        ∀ s, Run.final (step argonEnv) ⟨[privilegedClient], []⟩ [createOwn] = some s →
          NoPlatformSecret argonEnv s) := by
  refine (escalation_free_iff argonEnv [privilegedClient] [createOwn]
    constraints_privilegedClient).mpr ⟨_, rfl, ?_, trivial⟩
  intro _ t c secret salt hcall
  cases hcall

theorem escalation_by_rotation : ¬ ∀ (env : Env) (clients : List OAuthClient)
    (requests : List Request), Constraints clients →
    Run.All (step env) EscalationFree ⟨clients, []⟩ requests ∧
      ((∀ request ∈ requests, request.isPlatformAdmin = false) →
        ∀ s, Run.final (step env) ⟨clients, []⟩ requests = some s → NoPlatformSecret env s) := by
  intro hall
  obtain ⟨-, hnone⟩ := hall argonEnv [privilegedClient] [takeOver] constraints_privilegedClient
  have hs := hnone (by decide) _ rfl
  have hlost := hs _ (List.mem_singleton_self _) _ _ rfl (by decide +kernel) _
    (List.mem_singleton_self _) rfl
  revert hlost
  decide

end VcCommonService.OAuthClients
