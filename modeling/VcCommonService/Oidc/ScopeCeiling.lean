import VcCommonService.Oidc.SwitchTenant

/-!
# The scope ceiling of stored grants

The API scopes of a grant stay within what its user's role gives as long as every call
that lowers the ceiling takes the grants with it. A write of the mapping does, a switch of
tenants grants no more than the role has. `TenantUserService.update` changes the role and
leaves the grants, and a login adds the resource scopes it is asked for unseen; the ceiling
holds in exactly those runs in which neither goes too far.
-/

namespace VcCommonService.Oidc
open Lib Auth TenantUsers RoleScopes Tenants

/-! ### The ceiling -/

def apiScopes (grant : Grant) : List String :=
  (grant.oidcScopes.filter fun scope => !standardOidcScopes.contains scope) ++
    grant.resourceScopes.flatMap Prod.snd

def Covers (roleScopes : List String) (grant : Grant) : Prop :=
  ∀ scope ∈ apiScopes grant, scope ∈ expandEffectiveScopes roleScopes

def Ceiling (s : Sessions) : Prop :=
  ∀ m ∈ s.db.oidcModels, m.modelName = "Grant" → ∀ u ∈ s.db.tenantUsers,
    m.accountId = some u.id → Covers (mappedScopes s.db u) (s.grants m.oidcId)

/-! ### Calls in sequence -/

inductive SessionCall where
  | login (clientId accountId : Option String) (prompt : PromptDetails) (grantId : String)
  | switchTenant (env : SwitchEnv) (request : SwitchRequest)
  | replaceRoleScopes (request : RoleScopeWriteRequest) (scopes : List String)
  | resetRoleScopes (request : RoleScopeWriteRequest)
  | updateUser (tenantId : TenantId) (id : String) (dto : UpdateTenantUserDto)
      (callerTenantUserId : Option String)

def writeScopes (s : Sessions) (call : RoleScopes.Call) : Sessions :=
  match RoleScopes.exec s.db call with
  | .error _ => s
  | .ok (db, _) => { s with db }

def runCall (s : Sessions) : SessionCall → Sessions
  | .login clientId accountId prompt grantId =>
    match login s clientId accountId prompt grantId with
    | .error _ => s
    | .ok s' => s'
  | .switchTenant env request =>
    match switchTenant env s request with
    | .error _ => s
    | .ok s' => s'
  | .replaceRoleScopes request scopes => writeScopes s (.replace request scopes [])
  | .resetRoleScopes request => writeScopes s (.reset request [])
  | .updateUser tenantId id dto caller =>
    { s with db := { s.db with
        tenantUsers := (update s.db.tenantUsers tenantId id dto caller).1 } }

def sessionStep (s : Sessions) (call : SessionCall) : Option Sessions := some (runCall s call)

/-- A login that is not refused asks for no resource scope beyond its role, and a change of
role that goes through leaves the user's grants within the new role. -/
def WithinCeiling (s : Sessions) : SessionCall → Prop
  | .login _ accountId prompt _ =>
    ∀ u ∈ s.db.tenantUsers, accountId = some u.id → u.status = .active →
      (∀ scope ∈ prompt.missingOIDCScope.getD [],
        scope ∈ standardOidcScopes ∨ scope ∈ mappedScopes s.db u) →
      ∀ scope ∈ (prompt.missingResourceScopes.getD []).flatMap Prod.snd,
        scope ∈ expandEffectiveScopes (mappedScopes s.db u)
  | .updateUser tenantId id dto caller =>
    ∀ old entity role, UpdateAccepted s.db.tenantUsers tenantId id dto caller old entity →
      dto.role = .value role → ∀ m ∈ s.db.oidcModels, m.modelName = "Grant" →
        m.accountId = some id →
        Covers (findScopesForRole s.db role (some tenantId)) (s.grants m.oidcId)
  | _ => True

structure SessionsOk (s : Sessions) : Prop where
  users : Table.UniqueKeys TenantUser.id s.db.tenantUsers
  models : Table.UniqueKeys OidcModel.key s.db.oidcModels
  ceiling : Ceiling s

/-! ### Saving a grant -/

section Save

variable {s : Sessions} {grantId : String} {grant : Grant}

theorem covers_of_subset {roleScopes : List String} {grant : Grant}
    (hoidc : ∀ scope ∈ grant.oidcScopes, scope ∈ standardOidcScopes ∨ scope ∈ roleScopes)
    (hresource : ∀ scope ∈ grant.resourceScopes.flatMap Prod.snd,
      scope ∈ expandEffectiveScopes roleScopes) : Covers roleScopes grant := by
  intro scope hscope
  rcases List.mem_append.mp hscope with h | h
  · obtain ⟨hmem, hstd⟩ := List.mem_filter.mp h
    have hnot : scope ∉ standardOidcScopes := by simpa using hstd
    exact (mem_expandEffectiveScopes _ _).mpr (Or.inl ((hoidc scope hmem).resolve_left hnot))
  · exact hresource scope h

theorem ceiling_storeGrant_iff (hok : SessionsOk s) :
    Ceiling (storeGrant s grantId grant) ↔
      ∀ u ∈ s.db.tenantUsers, grant.accountId = some u.id → Covers (mappedScopes s.db u) grant := by
  have hmapped : ∀ u, mappedScopes (storeGrant s grantId grant).db u = mappedScopes s.db u :=
    fun _ => rfl
  constructor
  · intro h u hu haccount
    have hrow := h ⟨"Grant", grantId, grant.accountId, none⟩
      ((Table.mem_save hok.models _).mpr (Or.inl rfl)) rfl u hu haccount
    rw [hmapped] at hrow
    simpa only [storeGrant, Function.update_self] using hrow
  · intro h m hm hgrant u hu haccount
    rw [hmapped]
    rcases (Table.mem_save hok.models _).mp hm with rfl | ⟨hold, hkey⟩
    · simpa only [storeGrant, Function.update_self] using h u hu haccount
    · have hid : m.oidcId ≠ grantId := by
        intro hid
        exact hkey (by rw [OidcModel.key, OidcModel.key, hgrant, hid])
      simpa only [storeGrant, Function.update_of_ne hid] using
        hok.ceiling m hold hgrant u hu haccount

theorem sessionsOk_storeGrant (hok : SessionsOk s)
    (hcover : ∀ u ∈ s.db.tenantUsers, grant.accountId = some u.id →
      Covers (mappedScopes s.db u) grant) : SessionsOk (storeGrant s grantId grant) :=
  ⟨hok.users, Table.uniqueKeys_save _ hok.models, (ceiling_storeGrant_iff hok).mpr hcover⟩

end Save

/-! ### Other records -/

/-- A change of the records that adds no grant and keeps their keys unique. -/
structure NoNewGrant (models models' : List OidcModel) : Prop where
  grants : ∀ m ∈ models', m.modelName = "Grant" → m ∈ models
  keys : Table.UniqueKeys OidcModel.key models → Table.UniqueKeys OidcModel.key models'

section Records

variable {models models' models'' : List OidcModel}

theorem noNewGrant_refl (models : List OidcModel) : NoNewGrant models models :=
  ⟨fun _ hm _ => hm, id⟩

theorem noNewGrant_trans (h : NoNewGrant models models') (h' : NoNewGrant models' models'') :
    NoNewGrant models models'' :=
  ⟨fun m hm hgrant => h.grants m (h'.grants m hm hgrant) hgrant, fun hu => h'.keys (h.keys hu)⟩

theorem noNewGrant_of_sublist (h : models'.Sublist models) : NoNewGrant models models' :=
  ⟨fun _ hm _ => h.subset hm, fun hu => hu.sublist (h.map _)⟩

theorem noNewGrant_deleteWhere (p : OidcModel → Bool) (models : List OidcModel) :
    NoNewGrant models (Table.deleteWhere p models) := noNewGrant_of_sublist List.filter_sublist

theorem noNewGrant_upsert {row : OidcModel} (hrow : row.modelName ≠ "Grant")
    (models : List OidcModel) : NoNewGrant models (upsert row models) := by
  refine ⟨fun m hm hgrant => ?_, Table.uniqueKeys_save row⟩
  rcases Table.eq_or_mem_of_mem_save hm with rfl | h
  · exact absurd hgrant hrow
  · exact h

theorem noNewGrant_rebind (fromAccountId toAccountId : String) (models : List OidcModel) :
    NoNewGrant models (rebindSessionsToAccount fromAccountId toAccountId models) := by
  refine ⟨fun m hm hgrant => ?_, fun hu => ?_⟩
  · obtain ⟨old, hold, rfl⟩ := (Table.mem_updateWhere _ _ _ _).mp hm
    by_cases hp : old.modelName = "Session" ∧ old.accountId = some fromAccountId
    · rw [if_pos (decide_eq_true hp)] at hgrant
      exact absurd (hp.1.symm.trans hgrant) (by decide)
    · rw [if_neg (by simpa using hp)]
      exact hold
  · have hkey : ∀ m : OidcModel, ({ m with accountId := some toAccountId } : OidcModel).key = m.key :=
      fun _ => rfl
    exact Table.uniqueKeys_updateWhere hkey hu

theorem noNewGrant_revokeGrant (env : SwitchEnv) (grantId : String) (models : List OidcModel) :
    NoNewGrant models (revokeGrant env grantId models) := by
  unfold revokeGrant
  refine noNewGrant_trans (noNewGrant_trans ?_ (noNewGrant_deleteWhere _ _))
    (noNewGrant_deleteWhere _ _)
  split
  · exact noNewGrant_refl _
  · exact noNewGrant_deleteWhere _ _

end Records

theorem sessionsOk_mapModels {s : Sessions} {f : List OidcModel → List OidcModel}
    (hok : SessionsOk s) (hf : NoNewGrant s.db.oidcModels (f s.db.oidcModels)) :
    SessionsOk (mapModels s f) where
  users := hok.users
  models := hf.keys hok.models
  ceiling m hm hgrant := hok.ceiling m (hf.grants m hm hgrant) hgrant

/-! ### One call -/

section Step

variable {s : Sessions}

theorem covers_membershipGrant (db : Db) (audience clientId : String) (membership : TenantUser) :
    Covers (mappedScopes db membership) (membershipGrant db audience clientId membership) := by
  refine covers_of_subset (fun scope hscope => List.mem_append.mp hscope) ?_
  intro scope hscope
  have hmapped : scope ∈ mappedScopes db membership := by
    simp only [membershipGrant] at hscope
    split at hscope
    · simpa [mappedScopes] using hscope
    · cases hscope
  exact (mem_expandEffectiveScopes _ _).mpr (Or.inl hmapped)

theorem resolveSwitch_target {env : SwitchEnv} {users : List TenantUser} {request : SwitchRequest}
    {clientId : String} {current target : TenantUser}
    (h : resolveSwitch env users request = .ok (clientId, current, target)) : target ∈ users := by
  unfold resolveSwitch at h
  split at h
  · cases h
  · split at h
    · cases h
    · cases h
    · split at h
      · cases h
      · split at h
        · cases h
        next found hfind =>
          split at h
          · cases h
          · split at h
            · cases h
            · cases h
              exact List.mem_of_find?_eq_some hfind

theorem noNewGrant_retireRecords (env : SwitchEnv) (previousGrantId : Option String)
    (current target : TenantUser) (models : List OidcModel) :
    NoNewGrant models (retireRecords env previousGrantId current target models) := by
  have hretired : ∀ revoked, NoNewGrant models revoked → NoNewGrant models
      (if current.id ≠ target.id then
        (deleteAllForAccount (rebindSessionsToAccount current.id target.id revoked) current.id).1
      else rebindSessionsToAccount current.id target.id revoked) := by
    intro revoked hrevoked
    have hrebound := noNewGrant_trans hrevoked (noNewGrant_rebind current.id target.id revoked)
    split
    · exact noNewGrant_trans hrebound (noNewGrant_deleteWhere _ _)
    · exact hrebound
  cases previousGrantId with
  | none => exact hretired models (noNewGrant_refl _)
  | some previous =>
    have hrevoked : NoNewGrant models
        (if previous ≠ env.grantId then revokeGrant env previous models else models) := by
      split
      · exact noNewGrant_revokeGrant env previous models
      · exact noNewGrant_refl _
    exact hretired _ hrevoked

theorem sessionsOk_issue {env : SwitchEnv} {clientId : String} {membership : TenantUser}
    {s' : Sessions} (hok : SessionsOk s) (hmem : membership ∈ s.db.tenantUsers)
    (h : issueTokensForMembership env s clientId membership = .ok s') : SessionsOk s' := by
  unfold issueTokensForMembership at h
  split at h
  · cases h
    refine sessionsOk_mapModels (sessionsOk_storeGrant hok ?_)
      (noNewGrant_trans (noNewGrant_upsert (by simp) _) (noNewGrant_upsert (by simp) _))
    intro u hu haccount
    have heq : membership = u := Table.eq_of_key hok.users hmem hu (Option.some.inj haccount)
    exact heq ▸ covers_membershipGrant s.db env.audience clientId membership
  · cases h

theorem sessionsOk_switchTenant {env : SwitchEnv} {request : SwitchRequest} {s' : Sessions}
    (hok : SessionsOk s) (h : switchTenant env s request = .ok s') : SessionsOk s' := by
  obtain ⟨⟨clientId, current, target⟩, hresolve, h⟩ := bind_eq_ok.mp h
  obtain ⟨issued, hissued, h⟩ := bind_eq_ok.mp h
  cases h
  exact sessionsOk_mapModels (sessionsOk_issue hok (resolveSwitch_target hresolve) hissued)
    (noNewGrant_retireRecords _ _ _ _ _)

theorem sessionsOk_writeScopes {call : RoleScopes.Call} (hok : SessionsOk s) (halone : call.alone) :
    SessionsOk (writeScopes s call) := by
  unfold writeScopes
  split
  · exact hok
  next db' result hexec =>
    have hrecords := exec_records halone hexec
    have hkeep := noNewGrant_of_sublist hrecords.oidcModels
    refine ⟨hrecords.tenantUsers ▸ hok.users, hkeep.keys hok.models, ?_⟩
    intro m hm hgrant u hu haccount scope hscope
    rw [show (⟨db', s.grants⟩ : Sessions).db = db' from rfl, hrecords.tenantUsers] at hu
    have hbefore := hok.ceiling m (hkeep.grants m hm hgrant) hgrant u hu haccount scope hscope
    by_cases hrole : u.tenantId = call.request.tenantId ∧ u.role = call.request.role
    · rcases hrecords.covered with hcover | hnone
      · unfold mappedScopes at hbefore ⊢
        rw [hrole.1, hrole.2] at hbefore ⊢
        exact hcover scope hbefore
      · exact absurd haccount (hnone m hm hgrant u hu (decide_eq_true hrole))
    · unfold mappedScopes at hbefore ⊢
      rwa [exec_other_role hexec hrole]

theorem runCall_login_of_error {clientId accountId : Option String} {prompt : PromptDetails}
    {grantId : String} (h : ∀ grant, loginGrant s.db clientId accountId prompt ≠ .ok grant) :
    runCall s (.login clientId accountId prompt grantId) = s := by
  cases hgrant : loginGrant s.db clientId accountId prompt with
  | error e =>
    simp only [runCall, login, hgrant]
    rfl
  | ok grant => exact absurd hgrant (h grant)

theorem login_step (hok : SessionsOk s) (clientId accountId : Option String)
    (prompt : PromptDetails) (grantId : String) :
    (WithinCeiling s (.login clientId accountId prompt grantId) ↔
      Ceiling (runCall s (.login clientId accountId prompt grantId))) ∧
    (WithinCeiling s (.login clientId accountId prompt grantId) →
      SessionsOk (runCall s (.login clientId accountId prompt grantId))) := by
  by_cases hgranted : ∃ grant, loginGrant s.db clientId accountId prompt = .ok grant
  · obtain ⟨grant, hgrant⟩ := hgranted
    have hrun : runCall s (.login clientId accountId prompt grantId) =
        storeGrant s grantId grant := by
      simp only [runCall, login, hgrant]
      rfl
    obtain ⟨u, rfl, hfind, hactive⟩ := loginGrant_user hgrant
    obtain ⟨rfl, hpermitted⟩ := (loginGrant_ok_iff hfind hactive grant).mp hgrant
    have hmem := List.mem_of_find?_eq_some hfind
    have hcover : WithinCeiling s (.login clientId (some u.id) prompt grantId) ↔
        ∀ v ∈ s.db.tenantUsers, some u.id = some v.id → Covers (mappedScopes s.db v)
          ⟨clientId, some u.id, prompt.missingOIDCScope.getD [],
            prompt.missingResourceScopes.getD []⟩ := by
      constructor
      · intro hc v hv hid
        have heq : u = v := Table.eq_of_key hok.users hmem hv (Option.some.inj hid)
        subst heq
        exact covers_of_subset hpermitted (hc u hmem rfl hactive hpermitted)
      · intro h v hv hid _ _ scope hscope
        exact h v hv hid scope (List.mem_append_right _ hscope)
    rw [hrun, ceiling_storeGrant_iff hok]
    exact ⟨hcover, fun hc => sessionsOk_storeGrant hok (hcover.mp hc)⟩
  · have hnone : ∀ grant, loginGrant s.db clientId accountId prompt ≠ .ok grant :=
      fun grant h => hgranted ⟨grant, h⟩
    have hc : WithinCeiling s (.login clientId accountId prompt grantId) := by
      intro u hu haccount hactive hpermitted
      subst haccount
      exact absurd ((loginGrant_ok_iff (findById_eq hok.users hu) hactive _).mpr ⟨rfl, hpermitted⟩)
        (hnone _)
    rw [runCall_login_of_error hnone]
    exact ⟨iff_of_true hc hok.ceiling, fun _ => hok⟩

theorem applyDto_role {dto : UpdateTenantUserDto} {old entity : TenantUser}
    (h : applyDto dto old = some entity) : dto.role.assign old.role = some entity.role := by
  simp only [applyDto, Option.bind_eq_bind, Option.bind_eq_some_iff, Option.pure_def,
    Option.some.injEq] at h
  obtain ⟨email, -, role, hrole, status, -, rfl⟩ := h
  exact hrole

/-- Saving a user moves the ceiling of that user's grants only. -/
theorem ceiling_saveUser_iff (hok : SessionsOk s) {old entity : TenantUser}
    (hid : entity.id = old.id) :
    Ceiling { s with db := { s.db with
        tenantUsers := Table.save TenantUser.id entity s.db.tenantUsers } } ↔
      ∀ m ∈ s.db.oidcModels, m.modelName = "Grant" → m.accountId = some old.id →
        Covers (mappedScopes s.db entity) (s.grants m.oidcId) := by
  constructor
  · intro h m hm hgrant haccount
    exact h m hm hgrant entity (Table.mem_save_self _ _ _) (haccount.trans (by rw [hid]))
  · intro h m hm hgrant u hu haccount
    rcases Table.eq_or_mem_of_mem_save hu with rfl | hu
    · exact h m hm hgrant (haccount.trans (by rw [hid]))
    · exact hok.ceiling m hm hgrant u hu haccount

theorem withinCeiling_updateUser_iff (hok : SessionsOk s) {tenantId : TenantId} {id : String}
    {dto : UpdateTenantUserDto} {caller : Option String} {old entity : TenantUser}
    (hacc : UpdateAccepted s.db.tenantUsers tenantId id dto caller old entity) :
    WithinCeiling s (.updateUser tenantId id dto caller) ↔
      ∀ m ∈ s.db.oidcModels, m.modelName = "Grant" → m.accountId = some old.id →
        Covers (mappedScopes s.db entity) (s.grants m.oidcId) := by
  obtain ⟨hold, hid, htenant⟩ := findByTenantAndId_some hacc.found
  have hetenant : entity.tenantId = tenantId :=
    (applyDto_key dto old entity hacc.assigned).2.trans htenant
  rw [hid]
  unfold mappedScopes
  rw [hetenant]
  rcases Js.Field.assign_cases (applyDto_role hacc.assigned) with hrole | ⟨hundef, hsame⟩
  · constructor
    · intro hc m hm hgrant haccount
      exact hc old entity entity.role hacc hrole m hm hgrant haccount
    · intro h old' entity' role _ hrole' m hm hgrant haccount
      have heq : entity.role = role := Js.Field.value.inj (hrole.symm.trans hrole')
      exact heq ▸ h m hm hgrant haccount
  · -- the role stays, and so does the ceiling
    refine iff_of_true (fun old' entity' role _ hrole => ?_) fun m hm hgrant haccount => ?_
    · rw [hundef] at hrole
      cases hrole
    · have hcover := hok.ceiling m hm hgrant old hold (haccount.trans (by rw [hid]))
      rwa [mappedScopes, htenant, ← hsame] at hcover

theorem updateUser_step (hok : SessionsOk s) (tenantId : TenantId) (id : String)
    (dto : UpdateTenantUserDto) (caller : Option String) :
    (WithinCeiling s (.updateUser tenantId id dto caller) ↔
      Ceiling (runCall s (.updateUser tenantId id dto caller))) ∧
    (WithinCeiling s (.updateUser tenantId id dto caller) →
      SessionsOk (runCall s (.updateUser tenantId id dto caller))) := by
  by_cases hacc : ∃ old entity, UpdateAccepted s.db.tenantUsers tenantId id dto caller old entity
  · obtain ⟨old, entity, hacc⟩ := hacc
    have heid := (applyDto_key dto old entity hacc.assigned).1
    have hrun : runCall s (.updateUser tenantId id dto caller) = { s with db := { s.db with
        tenantUsers := Table.save TenantUser.id entity s.db.tenantUsers } } := by
      rw [runCall, update_of_accepted hacc]
    have hiff : WithinCeiling s (.updateUser tenantId id dto caller) ↔
        Ceiling (runCall s (.updateUser tenantId id dto caller)) := by
      rw [hrun, ceiling_saveUser_iff hok heid]
      exact withinCeiling_updateUser_iff hok hacc
    refine ⟨hiff, fun hc => ⟨?_, ?_, hiff.mp hc⟩⟩
    · rw [hrun]
      exact Table.uniqueKeys_save entity hok.users
    · rw [hrun]
      exact hok.models
  · have hrefused : ∀ old entity,
        ¬ UpdateAccepted s.db.tenantUsers tenantId id dto caller old entity :=
      fun old entity h => hacc ⟨old, entity, h⟩
    have hrun : runCall s (.updateUser tenantId id dto caller) = s := by
      rw [runCall, update_of_refused hrefused]
    rw [hrun]
    exact ⟨iff_of_true (fun old entity _ h => absurd h (hrefused old entity)) hok.ceiling,
      fun _ => hok⟩

theorem session_step (hok : SessionsOk s) (call : SessionCall) :
    (WithinCeiling s call ↔ Ceiling (runCall s call)) ∧
      (WithinCeiling s call → SessionsOk (runCall s call)) := by
  have hkeep : SessionsOk (runCall s call) → WithinCeiling s call →
      (WithinCeiling s call ↔ Ceiling (runCall s call)) ∧
        (WithinCeiling s call → SessionsOk (runCall s call)) :=
    fun h hc => ⟨iff_of_true hc h.ceiling, fun _ => h⟩
  cases call with
  | login clientId accountId prompt grantId =>
    exact login_step hok clientId accountId prompt grantId
  | switchTenant env request =>
    refine hkeep ?_ trivial
    simp only [runCall]
    split
    · exact hok
    next s' hswitch => exact sessionsOk_switchTenant hok hswitch
  | replaceRoleScopes request scopes => exact hkeep (sessionsOk_writeScopes hok rfl) trivial
  | resetRoleScopes request => exact hkeep (sessionsOk_writeScopes hok rfl) trivial
  | updateUser tenantId id dto caller => exact updateUser_step hok tenantId id dto caller

end Step

/-! ### Runs -/

/-- The ceiling holds after every call of a run if and only if no login asks for resource
scopes beyond its role and no change of role leaves a grant above the new one. -/
theorem scope_ceiling_iff (s : Sessions) (calls : List SessionCall)
    (husers : Table.UniqueKeys TenantUser.id s.db.tenantUsers)
    (hmodels : Table.UniqueKeys OidcModel.key s.db.oidcModels) (hceiling : Ceiling s) :
    Run.All sessionStep (fun _ _ s' => Ceiling s') s calls ↔
      Run.All sessionStep (fun s call _ => WithinCeiling s call) s calls := by
  symm
  refine Run.all_iff_of_invariant SessionsOk ?_ ?_ ⟨husers, hmodels, hceiling⟩
  · intro s call s' hok hs
    cases hs
    exact (session_step hok call).1
  · intro s call s' hok hs hc
    cases hs
    exact (session_step hok call).2 hc

/-! ### A demoted administrator -/

def noSessions : Sessions := ⟨seededMembers, fun _ => { clientId := none, accountId := none }⟩

def adminLogin : SessionCall :=
  .login (some "spa") (some "u2") { missingOIDCScope := some ["openid", "users:manage"] } "g1"

def memberLogin : SessionCall :=
  .login (some "spa") (some "u3") { missingOIDCScope := some ["openid", "credentials:offer"] } "g1"

theorem scope_ceiling_other_user :
    Run.All sessionStep (fun _ _ s' => Ceiling s') noSessions
      [memberLogin, .updateUser "t" "u2" demote (some "u1")] := by
  refine (scope_ceiling_iff noSessions _ (by decide)
    (by decide) (fun m hm => by cases hm)).mpr ?_
  refine ⟨_, rfl, ?_, _, rfl, ?_, trivial⟩
  · intro u _ _ _ _ scope hscope
    cases hscope
  · intro old entity role _ _ m hm _ haccount
    have hnone : ∀ m ∈ (runCall noSessions memberLogin).db.oidcModels, m.accountId ≠ some "u2" := by
      decide +kernel
    exact absurd haccount (hnone m hm)

theorem scope_ceiling_broken : ¬ ∀ (s : Sessions) (calls : List SessionCall),
    Table.UniqueKeys TenantUser.id s.db.tenantUsers →
    Table.UniqueKeys OidcModel.key s.db.oidcModels → Ceiling s →
    Run.All sessionStep (fun _ _ s' => Ceiling s') s calls := by
  intro hall
  obtain ⟨s₁, h₁, -, s₂, h₂, hceiling, -⟩ := hall noSessions
    [adminLogin, .updateUser "t" "u2" demote (some "u1")] (by decide)
    (by decide) (fun m hm => by cases hm)
  cases h₁
  cases h₂
  have hscope := hceiling ⟨"Grant", "g1", some "u2", none⟩ (by decide +kernel) rfl
    { seededAdmin with role := .member } (by decide +kernel) rfl "users:manage" (by decide +kernel)
  revert hscope
  decide +kernel

end VcCommonService.Oidc
