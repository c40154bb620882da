import VcCommonService.OAuthClient.Effects

/-!
# Revocation for cause

`restoreAllForTenant` restores what carries the `TENANT_DEACTIVATION` tag, so a
revocation for cause is permanent as long as it clears the tag. `revokeClient` returns
early for a client that is revoked already and leaves the tag of the cascade on it;
without such a call, revocations for cause are permanent and only those survive the
reactivation of the tenant.
-/

namespace VcCommonService.OAuthClients
open Lib Auth

/-- The client was revoked for cause: in the table at the start, or by a `revokeClient`
that returned. -/
def Cause (initial : List OAuthClient) (log : List (Request × Response)) (tenantId : TenantId)
    (clientId : String) : Prop :=
  (∃ c ∈ initial, (c.tenantId = tenantId ∧ c.clientId = clientId) ∧
    c.revokedAt ≠ none ∧ c.revokedReason = none) ∨
  ∃ entry ∈ log, ∃ now, entry.1.call = .revokeClient tenantId clientId now

/-- A client revoked for cause is revoked, and after a reactivation every other client of
the tenant is active. -/
def RevocationLaw (initial : List OAuthClient) (_ : History) (request : Request)
    (s' : History) : Prop :=
  (∀ c ∈ s'.clients, Cause initial s'.log c.tenantId c.clientId → c.revokedAt ≠ none) ∧
  ∀ tenantId, request.call = .restoreAllForTenant tenantId →
    ∀ c ∈ s'.clients, c.tenantId = tenantId →
      ¬ Cause initial s'.log c.tenantId c.clientId → c.revokedAt = none

/-- `revokeClient` is not called for a client that the cascade has revoked. -/
def RevokesUntagged (s : History) (request : Request) (_ : History) : Prop :=
  ∀ tenantId clientId now, request.call = .revokeClient tenantId clientId now →
    ∀ c, findByTenantAndClientId s.clients tenantId clientId = some c →
      c.revokedAt.isSome = true → c.revokedReason = none

/-! ### Invariant -/

/-- The tag tells the two kinds of revocation apart. -/
structure CauseInv (initial : List OAuthClient) (s : History) : Prop where
  constraints : Constraints s.clients
  untagged : ∀ tenantId clientId, Cause initial s.log tenantId clientId →
    ∃ c ∈ s.clients, (c.tenantId = tenantId ∧ c.clientId = clientId) ∧
      c.revokedAt ≠ none ∧ c.revokedReason = none
  caused : ∀ c ∈ s.clients, c.revokedAt ≠ none → c.revokedReason = none →
    Cause initial s.log c.tenantId c.clientId

variable {env : Env} {initial : List OAuthClient} {s s' : History} {request : Request}

theorem cause_append (log : List (Request × Response)) (entry : Request × Response)
    (tenantId : TenantId) (clientId : String) :
    Cause initial (log ++ [entry]) tenantId clientId ↔ Cause initial log tenantId clientId ∨
      ∃ now, entry.1.call = .revokeClient tenantId clientId now := by
  simp only [Cause, List.mem_append, List.mem_singleton]
  constructor
  · rintro (h | ⟨e, he | rfl, h⟩)
    · exact Or.inl (Or.inl h)
    · exact Or.inl (Or.inr ⟨e, he, h⟩)
    · exact Or.inr h
  · rintro ((h | ⟨e, he, h⟩) | h)
    · exact Or.inl h
    · exact Or.inr ⟨e, Or.inl he, h⟩
    · exact Or.inr ⟨entry, Or.inr rfl, h⟩

theorem untagged_row (hi : CauseInv initial s) {c : OAuthClient} (hc : c ∈ s.clients)
    (h : Cause initial s.log c.tenantId c.clientId) :
    c.revokedAt ≠ none ∧ c.revokedReason = none := by
  obtain ⟨d, hd, ⟨-, hid⟩, hrevoked⟩ := hi.untagged _ _ h
  have heq : d = c := Table.eq_of_key hi.constraints.clientId hd hc hid
  exact heq ▸ hrevoked

theorem causeInv_save (hi : CauseInv initial s) {old entity : OAuthClient} (hold : old ∈ s.clients)
    (hactive : old.revokedAt = none) (hid : entity.id = old.id)
    (hrevokedAt : entity.revokedAt = none)
    (hok : Constraints s'.clients) (hclients : s'.clients = Table.save OAuthClient.id entity s.clients)
    (hlog : ∀ t c, Cause initial s'.log t c ↔ Cause initial s.log t c) :
    CauseInv initial s' := by
  refine ⟨hok, fun t c hcause => ?_, fun c hc hrevoked hreason => ?_⟩
  · obtain ⟨d, hd, hkey, hrev, hreason⟩ := hi.untagged t c ((hlog t c).mp hcause)
    refine ⟨d, ?_, hkey, hrev, hreason⟩
    rw [hclients, Table.mem_save hi.constraints.id]
    refine Or.inr ⟨hd, fun he => hrev ?_⟩
    rw [Table.eq_of_key hi.constraints.id hd hold (he.trans hid), hactive]
  · rw [hclients, Table.mem_save hi.constraints.id] at hc
    rcases hc with rfl | ⟨hc, -⟩
    · exact absurd hrevokedAt hrevoked
    · exact (hlog _ _).mpr (hi.caused c hc hrevoked hreason)

theorem causeInv_updateWhere (hi : CauseInv initial s) {p : OAuthClient → Bool}
    {f : OAuthClient → OAuthClient}
    (hskip : ∀ c, c.revokedAt ≠ none → c.revokedReason = none → p c = false)
    (hresult : ∀ c, (f c).revokedAt ≠ none → (f c).revokedReason ≠ none)
    (hok : Constraints s'.clients) (hclients : s'.clients = Table.updateWhere p f s.clients)
    (hlog : ∀ t c, Cause initial s'.log t c ↔ Cause initial s.log t c) :
    CauseInv initial s' := by
  refine ⟨hok, fun t c hcause => ?_, fun c hc hrevoked hreason => ?_⟩
  · obtain ⟨d, hd, hkey, hrev, hreason⟩ := hi.untagged t c ((hlog t c).mp hcause)
    refine ⟨d, ?_, hkey, hrev, hreason⟩
    rw [hclients, Table.mem_updateWhere]
    exact ⟨d, hd, by simp [hskip d hrev hreason]⟩
  · rw [hclients, Table.mem_updateWhere] at hc
    obtain ⟨d, hd, rfl⟩ := hc
    by_cases hp : p d = true
    · rw [if_pos hp] at hrevoked hreason
      exact absurd hreason (hresult d hrevoked)
    · rw [if_neg hp] at hrevoked hreason ⊢
      exact (hlog _ _).mpr (hi.caused d hd hrevoked hreason)

theorem cause_unchanged (initial : List OAuthClient) {log : List (Request × Response)}
    {response : Response}
    (hcall : ∀ t c now, request.call ≠ .revokeClient t c now) (hlog : s'.log = log ++ [(request, response)])
    (t : TenantId) (c : String) :
    Cause initial s'.log t c ↔ Cause initial log t c := by
  rw [hlog, cause_append]
  exact or_iff_left fun ⟨now, h⟩ => hcall t c now h

theorem causeInv_revoke (hi : CauseInv initial s) {response : Response} {tenantId : TenantId}
    {clientId : String} {now : Time} {old : OAuthClient} (hold : old ∈ s.clients)
    (hkey : old.tenantId = tenantId ∧ old.clientId = clientId)
    (hcall : request.call = .revokeClient tenantId clientId now)
    (hok : Constraints s'.clients) (hclients : s'.clients = revoke s.clients old.id now)
    (hlog : s'.log = s.log ++ [(request, response)]) : CauseInv initial s' := by
  have hadd : ∀ t c, Cause initial s'.log t c ↔ Cause initial s.log t c ∨
      (t = tenantId ∧ c = clientId) := by
    intro t c
    rw [hlog, cause_append]
    refine or_congr_right ⟨?_, ?_⟩
    · rintro ⟨now', h⟩
      rw [hcall] at h
      cases h
      exact ⟨rfl, rfl⟩
    · rintro ⟨rfl, rfl⟩
      exact ⟨now, hcall⟩
  refine ⟨hok, fun t c hcause => ?_, fun c hc hrevoked hreason => ?_⟩
  · rcases (hadd t c).mp hcause with h | ⟨rfl, rfl⟩
    · obtain ⟨d, hd, hdkey, hrev, hreason⟩ := hi.untagged t c h
      by_cases hdid : d.id = old.id
      · refine ⟨{ d with revokedAt := some now, revokedReason := none }, ?_, hdkey, by simp, rfl⟩
        rw [hclients, revoke, Table.mem_updateWhere]
        exact ⟨d, hd, by simp [hdid]⟩
      · refine ⟨d, ?_, hdkey, hrev, hreason⟩
        rw [hclients, revoke, Table.mem_updateWhere]
        exact ⟨d, hd, by simp [hdid]⟩
    · refine ⟨{ old with revokedAt := some now, revokedReason := none }, ?_, hkey, by simp, rfl⟩
      rw [hclients, revoke, Table.mem_updateWhere]
      exact ⟨old, hold, by simp⟩
  · rw [hclients, revoke, Table.mem_updateWhere] at hc
    obtain ⟨d, hd, rfl⟩ := hc
    by_cases hdid : d.id = old.id
    · have heq : d = old := Table.eq_of_key hi.constraints.id hd hold hdid
      subst heq
      rw [if_pos (decide_eq_true rfl)]
      exact (hadd _ _).mpr (Or.inr hkey)
    · rw [if_neg (by simp [hdid])] at hrevoked hreason ⊢
      exact (hadd _ _).mpr (Or.inl (hi.caused d hd hrevoked hreason))

theorem causeInv_step (hi : CauseInv initial s) (hs : step env s request = some s')
    (hc : RevokesUntagged s request s') : CauseInv initial s' := by
  rcases step_cases hs with ⟨rfl, -⟩ | ⟨response, -, heffect, hlog⟩
  · exact hi
  have hok := constraints_effect hi.constraints heffect
  generalize hclients : s'.clients = clients' at heffect
  generalize hcall : request.call = call at heffect
  cases heffect with
  | createClient tenantId dto fresh caller hcaller hrole hscopes hrow hid hclientId =>
    have hsame := cause_unchanged initial (by simp [hcall]) hlog
    refine ⟨hok, fun t c hcause => ?_, fun c hmem hrevoked hreason => ?_⟩
    · obtain ⟨d, hd, hdkey, hrest⟩ := hi.untagged t c ((hsame t c).mp hcause)
      exact ⟨d, hclients ▸ List.mem_append_left _ hd, hdkey, hrest⟩
    · rw [hclients] at hmem
      rcases List.mem_append.mp hmem with hmem | hmem
      · exact (hsame _ _).mpr (hi.caused c hmem hrevoked hreason)
      · rw [List.mem_singleton.mp hmem] at hrevoked
        exact absurd rfl hrevoked
  | update tenantId clientId dto caller hcaller old entity hold hactive hentity hrole hrow =>
    obtain ⟨hid, -, -, hrevokedAt, -⟩ := applyUpdate_some hentity
    exact causeInv_save hi (findByTenantAndClientId_some hold).1 hactive hid
      (hrevokedAt.trans hactive) hok hclients (cause_unchanged initial (by simp [hcall]) hlog)
  | rotateSecret tenantId clientId clientSecret salt old hold hactive hkind hrow =>
    refine causeInv_save hi (findByTenantAndClientId_some hold).1 hactive ?_ ?_ hok hclients
      (cause_unchanged initial (by simp [hcall]) hlog)
    · rfl
    · exact hactive
  | revokeAgain tenantId clientId now old hold hrevoked =>
    obtain ⟨hmem, hkey⟩ := findByTenantAndClientId_some hold
    have hreason := hc tenantId clientId now hcall old hold hrevoked
    refine ⟨hok, fun t c hcause => ?_, fun c hmem hrev hre => ?_⟩
    · rw [hlog, cause_append] at hcause
      rcases hcause with h | ⟨now', h⟩
      · exact hclients ▸ hi.untagged t c h
      · rw [hcall] at h
        cases h
        exact ⟨old, hclients ▸ hmem, hkey, Option.isSome_iff_ne_none.mp hrevoked, hreason⟩
    · rw [hclients] at hmem
      rw [hlog, cause_append]
      exact Or.inl (hi.caused c hmem hrev hre)
  | revokeClient tenantId clientId now old hold hactive =>
    obtain ⟨hmem, hkey⟩ := findByTenantAndClientId_some hold
    exact causeInv_revoke hi hmem hkey hcall hok hclients hlog
  | revokeAllForTenant tenantId now =>
    refine causeInv_updateWhere hi ?_ ?_ hok hclients (cause_unchanged initial (by simp [hcall]) hlog)
    · intro c hrev _
      simp [hrev]
    · intro c _
      simp
  | restoreAllForTenant tenantId =>
    refine causeInv_updateWhere hi ?_ ?_ hok hclients (cause_unchanged initial (by simp [hcall]) hlog)
    · intro c _ hreason
      simp [hreason]
    · intro c hrev
      exact absurd rfl hrev

theorem restored_active (hs : step env s request = some s') (hi' : CauseInv initial s') {tenantId : TenantId}
    (hcall : request.call = .restoreAllForTenant tenantId) {c : OAuthClient}
    (hmem : c ∈ s'.clients) (ht : c.tenantId = tenantId)
    (hcause : ¬ Cause initial s'.log c.tenantId c.clientId) : c.revokedAt = none := by
  by_contra hrevoked
  have htagged : c.revokedReason ≠ none := fun hreason =>
    hcause (hi'.caused c hmem hrevoked hreason)
  have hclients : s'.clients = restoreAllForTenant s.clients tenantId := by
    rcases step_cases hs with ⟨-, e, he⟩ | ⟨response, -, heffect, -⟩
    · simp only [exec, hcall] at he
      cases he
    · rw [hcall] at heffect
      generalize s'.clients = clients' at heffect ⊢
      cases heffect
      rfl
  rw [hclients, restoreAllForTenant, Table.mem_updateWhere] at hmem
  obtain ⟨d, -, rfl⟩ := hmem
  split at hrevoked
  · exact hrevoked rfl
  next hp =>
    rw [if_neg hp] at ht htagged
    apply hp
    cases hr : d.revokedReason with
    | none => exact absurd hr htagged
    | some reason =>
      cases reason
      simp [ht]

/-! ### Runs -/

/-- In every run in which `revokeClient` is never called for a client that the cascade
has revoked, revocations for cause are permanent and reactivation undoes the others. -/
theorem revocation_permanent (env : Env) (clients : List OAuthClient) (requests : List Request)
    (hk : Constraints clients) (hrun : Run.All (step env) RevokesUntagged ⟨clients, []⟩ requests) :
    Run.All (step env) (RevocationLaw clients) ⟨clients, []⟩ requests := by
  refine Run.all_of_invariant (CauseInv clients) ?_ ?_ hrun
  · intro s request s' hi hs hc
    have hi' := causeInv_step hi hs hc
    refine ⟨hi', fun c hmem hcause => (untagged_row hi' hmem hcause).1, ?_⟩
    intro tenantId hcall c hmem ht hcause
    exact restored_active hs hi' hcall hmem ht hcause
  · refine ⟨hk, fun t c hcause => ?_, fun c hmem hrev hreason => ?_⟩
    · rcases hcause with h | ⟨entry, hentry, -⟩
      · exact h
      · cases hentry
    · exact Or.inl ⟨c, hmem, ⟨rfl, rfl⟩, hrev, hreason⟩

/-! ### A revocation for cause during a deactivation -/

def machineClient : OAuthClient :=
  { id := "row", tenantId := "t", clientId := "dtcs_1", clientSecretHash := some "salt:secret"
    name := "integration", scopes := ["credentials:offer"], roles := [], redirectUris := []
    grantTypes := [machineGrantType], createdBy := none, refreshTokenTtlSeconds := none }

def deactivate : Request := ⟨none, .revokeAllForTenant "t" 1⟩
def revokeByHand : Request := ⟨none, .revokeClient "t" "dtcs_1" 2⟩
def reactivate : Request := ⟨none, .restoreAllForTenant "t"⟩

theorem revocation_permanent_by_hand :
    Run.All (step argonEnv) (RevocationLaw [machineClient]) ⟨[machineClient], []⟩
      [revokeByHand, deactivate, reactivate] := by
  refine revocation_permanent argonEnv [machineClient] _
    ⟨by decide, by decide, by decide⟩ ?_
  refine ⟨_, rfl, ?_, _, rfl, ?_, _, rfl, ?_, trivial⟩
  · intro t c now hcall d hd hrevoked
    cases hcall
    cases hd
    cases hrevoked
  · intro t c now hcall
    cases hcall
  · intro t c now hcall
    cases hcall

theorem revocation_undone : ¬ ∀ (env : Env) (clients : List OAuthClient) (requests : List Request),
    Constraints clients → Run.Enabled (step env) ⟨clients, []⟩ requests →
    Run.All (step env) (RevocationLaw clients) ⟨clients, []⟩ requests := by
  intro hall
  have hrun := hall argonEnv [machineClient] ([deactivate, revokeByHand] ++ [reactivate])
    ⟨by decide, by decide, by decide⟩
    ⟨_, rfl, trivial, _, rfl, trivial, _, rfl, trivial, trivial⟩
  obtain ⟨s, s', hlaw, hq⟩ := Run.all_last hrun
    (fun _ s' => decide (s'.clients = [machineClient] ∧ (revokeByHand, .nothing) ∈ s'.log))
    (by decide +kernel)
  obtain ⟨hclients, hlog⟩ := of_decide_eq_true hq
  refine hlaw.1 machineClient (by simp [hclients]) (Or.inr ⟨_, hlog, 2, rfl⟩) rfl

end VcCommonService.OAuthClients
