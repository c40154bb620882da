import VcCommonService.Auth.MintedTokens
import VcCommonService.Oidc.FirstLogin
import VcCommonService.Oidc.SwitchTenant

/-!
# The tenants of a token (`auth.service.ts`)

`listTenants` shows the memberships of the person behind a token and `switchTenant` exchanges the
token for one of them. Both read the same rows by different queries: over any chain of switches
the list stays the same, and what it shows as active is what a switch accepts.
-/

namespace VcCommonService.Oidc
open Lib Auth TenantUsers Tenants

structure TenantRow where
  name : String
  slug : String
  status : TenantStatus
  deletedAt : Option Time

structure AuthTenantDto where
  id : TenantId
  name : String
  slug : String
  status : TenantStatus
  role : TenantRole
  deriving DecidableEq

/-- What the service reads besides the sessions: the tenants that rows refer to, the creation
times of the members, the case functions, the clients and the audience. -/
structure AuthEnv where
  tenants : TenantId → TenantRow
  createdAt : String → Time
  text : EmailCase
  isClient : String → Bool
  audience : String

def AuthEnv.directory (env : AuthEnv) : Directory :=
  ⟨env.text, env.createdAt, fun tenantId => (env.tenants tenantId).deletedAt⟩

structure UserToken where
  sub : String
  tokenType : AuthTokenType
  clientId : Option String
  jti : Option String

def UserToken.request (token : UserToken) (targetTenantId : TenantId) : SwitchRequest :=
  ⟨token.sub, token.tokenType, token.clientId, token.jti, targetTenantId⟩

def toDto (env : AuthEnv) (membership : TenantUser) : AuthTenantDto :=
  let tenant := env.tenants membership.tenantId
  ⟨membership.tenantId, tenant.name, tenant.slug, tenant.status, membership.role⟩

def listTenants (env : AuthEnv) (users : List TenantUser) (token : UserToken) :
    Except SwitchError (List AuthTenantDto) :=
  if token.tokenType ≠ .user then
    .error (.forbidden
      "Machine clients cannot switch tenants; each client_id is bound to one tenant")
  else
    match findById users token.sub with
    | none => .error (.notFound (TenantUsers.notFoundMessage token.sub))
    | some current =>
      match Js.truthy current.externalUserId with
      | none => .error (.forbidden "Token subject is not linked to an external identity")
      | some externalUserId =>
        .ok ((findActiveByExternalUserId env.directory users externalUserId).map (toDto env))

/-! ### Chains of switches -/

/-- The target, and what the provider answers during the switch. -/
structure Switch where
  targetTenantId : TenantId
  live : OidcModel → Bool
  grantId : String
  accessTokenId : String
  refreshTokenId : String

def AuthEnv.switchEnv (env : AuthEnv) (e : Switch) : SwitchEnv where
  tenantStatus tenantId :=
    if (env.tenants tenantId).deletedAt = none then some (env.tenants tenantId).status else none
  isClient := env.isClient
  audience := env.audience
  live := e.live
  grantId := e.grantId
  accessTokenId := e.accessTokenId
  refreshTokenId := e.refreshTokenId

/-- The sessions, and the token that the browser holds. -/
structure SignedIn where
  sessions : Sessions
  token : UserToken

/-- A switch that is accepted, and the token that it issues to the same client. -/
def switchStep (env : AuthEnv) (b : SignedIn) (e : Switch) : Option SignedIn :=
  let request := b.token.request e.targetTenantId
  match resolveSwitch (env.switchEnv e) b.sessions.db.tenantUsers request,
      switchTenant (env.switchEnv e) b.sessions request with
  | .ok (clientId, _, target), .ok sessions =>
    some ⟨sessions, ⟨target.id, resolveTokenType target.id, some clientId,
      some e.accessTokenId⟩⟩
  | _, _ => none

/-! ### One switch -/

section Switches

variable {env : AuthEnv} {users : List TenantUser} {b b' : SignedIn} {e : Switch}

/-- The row that the switch finds by tenant and subject is one that the list is made of. -/
structure Member (env : AuthEnv) (users : List TenantUser) (externalUserId : String)
    (tenantId : TenantId) (u : TenantUser) : Prop where
  mem : u ∈ users
  tenant : u.tenantId = tenantId
  subject : u.externalUserId = some externalUserId
  active : u.status = .active
  deletedAt : (env.tenants tenantId).deletedAt = none
  status : (env.tenants tenantId).status = .active

theorem assertTenantActive_ok {status : Option TenantStatus} :
    assertTenantActive status = .ok () ↔ status = some .active := by
  cases status with
  | none => exact ⟨nofun, nofun⟩
  | some status => cases status <;> simp [assertTenantActive]

theorem tenantStatus_active {tenantId : TenantId} :
    (env.switchEnv e).tenantStatus tenantId = some .active ↔
      (env.tenants tenantId).deletedAt = none ∧ (env.tenants tenantId).status = .active := by
  unfold AuthEnv.switchEnv
  dsimp only
  split
  next h => simp [h]
  next h => simp [h]

/-- Who may switch: the person behind the token, to a membership of an active tenant. -/
theorem resolveSwitch_iff (h : Constraints users) {token : UserToken} {externalUserId : String}
    {current : TenantUser} {clientId : String} (htype : token.tokenType = .user)
    (hclient : Js.truthy token.clientId = some clientId)
    (hcurrent : findById users token.sub = some current)
    (hlinked : Js.truthy current.externalUserId = some externalUserId)
    (result : String × TenantUser × TenantUser) :
    resolveSwitch (env.switchEnv e) users (token.request e.targetTenantId) = .ok result ↔
      ∃ target, Member env users externalUserId e.targetTenantId target ∧
        result = (clientId, current, target) := by
  unfold resolveSwitch UserToken.request
  dsimp only
  rw [if_neg (not_not.mpr htype), hclient, hcurrent]
  dsimp only
  rw [hlinked]
  dsimp only
  constructor
  · intro hok
    cases hfind : findByTenantAndExternalUserId users e.targetTenantId externalUserId with
    | none =>
      rw [hfind] at hok
      cases hok
    | some u =>
      rw [hfind] at hok
      dsimp only at hok
      split at hok
      · cases hok
      next hactive =>
      cases hassert : assertTenantActive ((env.switchEnv e).tenantStatus e.targetTenantId) with
      | error error =>
        rw [hassert] at hok
        cases hok
      | ok _ =>
        rw [hassert] at hok
        cases hok
        obtain ⟨hmem, ht, hext⟩ := findByTenantAndExternalUserId_some hfind
        obtain ⟨hdeleted, hstatus⟩ := tenantStatus_active.mp (assertTenantActive_ok.mp hassert)
        exact ⟨u, ⟨hmem, ht, hext, not_not.mp hactive, hdeleted, hstatus⟩, rfl⟩
  · rintro ⟨target, ⟨hmem, ht, hext, hactive, hdeleted, hstatus⟩, rfl⟩
    have hexternal : ExternalUnique users :=
      fun a ha c hc hac hlink he => h.eq ha hc ⟨hac, Or.inr ⟨hlink, he⟩⟩
    have hfind := findByTenantAndExternalUserId_eq hexternal hmem hext
    rw [ht] at hfind
    have hassert := assertTenantActive_ok.mpr (tenantStatus_active (e := e).mpr ⟨hdeleted, hstatus⟩)
    rw [hfind]
    dsimp only
    rw [if_neg (not_not.mpr hactive), hassert]

/-- Whose token it is, and for which client. -/
structure Person (env : AuthEnv) (users : List TenantUser) (externalUserId clientId : String)
    (token : UserToken) : Prop where
  user : token.tokenType = .user
  client : Js.truthy token.clientId = some clientId
  known : env.isClient clientId = true
  linked : ∃ current, findById users token.sub = some current ∧
    Js.truthy current.externalUserId = some externalUserId

theorem listTenants_of_person {token : UserToken} {externalUserId clientId : String}
    (hp : Person env users externalUserId clientId token) :
    listTenants env users token =
      .ok ((findActiveByExternalUserId env.directory users externalUserId).map (toDto env)) := by
  obtain ⟨current, hcurrent, hlinked⟩ := hp.linked
  rw [listTenants, if_neg (not_not.mpr hp.user), hcurrent]
  dsimp only
  rw [hlinked]

theorem person_of_listTenants {token : UserToken} {clientId : String} {list : List AuthTenantDto}
    (hclient : Js.truthy token.clientId = some clientId) (hknown : env.isClient clientId = true)
    (h : listTenants env users token = .ok list) :
    ∃ externalUserId, Person env users externalUserId clientId token := by
  unfold listTenants at h
  split at h
  · cases h
  next huser =>
  split at h
  · cases h
  next current hcurrent =>
  split at h
  · cases h
  next externalUserId hlinked =>
    exact ⟨externalUserId, not_not.mp huser, hclient, hknown, current, hcurrent, hlinked⟩

/-- What the list shows as active. -/
theorem shown_iff {externalUserId : String} {tenantId : TenantId} :
    (∃ entry ∈ (findActiveByExternalUserId env.directory users externalUserId).map (toDto env),
      entry.id = tenantId ∧ entry.status = .active) ↔
      ∃ u, Member env users externalUserId tenantId u := by
  constructor
  · rintro ⟨entry, hentry, hid, hstatus⟩
    obtain ⟨u, hu, rfl⟩ := List.mem_map.mp hentry
    obtain ⟨hmem, hactive⟩ := mem_findActiveByExternalUserId.mp hu
    obtain ⟨hext, hactive, hdeleted⟩ := isActiveMember_iff.mp hactive
    have ht : u.tenantId = tenantId := hid
    exact ⟨u, hmem, ht, hext, hactive, ht ▸ hdeleted, ht ▸ hstatus⟩
  · rintro ⟨u, hmem, rfl, hext, hactive, hdeleted, hstatus⟩
    refine ⟨toDto env u, List.mem_map_of_mem ?_, rfl, hstatus⟩
    exact mem_findActiveByExternalUserId.mpr ⟨hmem, isActiveMember_iff.mpr ⟨hext, hactive, hdeleted⟩⟩

theorem switchTenant_of_resolve {senv : SwitchEnv} {s : Sessions} {request : SwitchRequest}
    {clientId : String} {current target : TenantUser}
    (h : resolveSwitch senv s.db.tenantUsers request = .ok (clientId, current, target))
    (hknown : senv.isClient clientId = true) :
    ∃ s', switchTenant senv s request = .ok s' ∧ s'.db.tenantUsers = s.db.tenantUsers := by
  rw [switchTenant, h]
  simp only [bind, Except.bind, issueTokensForMembership, hknown, if_true]
  exact ⟨_, rfl, rfl⟩

/-- A switch is accepted for the members of active tenants, and issues a token of the target. -/
theorem switchStep_iff (h : Constraints b.sessions.db.tenantUsers)
    {externalUserId clientId : String}
    (hp : Person env b.sessions.db.tenantUsers externalUserId clientId b.token) :
    switchStep env b e = some b' ↔
      ∃ u, Member env b.sessions.db.tenantUsers externalUserId e.targetTenantId u ∧
        b'.token = ⟨u.id, resolveTokenType u.id, some clientId, some e.accessTokenId⟩ ∧
        switchTenant (env.switchEnv e) b.sessions (b.token.request e.targetTenantId) =
          .ok b'.sessions := by
  obtain ⟨current, hcurrent, hlinked⟩ := hp.linked
  have hiff := @resolveSwitch_iff env _ e h _ _ _ _ hp.user hp.client hcurrent hlinked
  unfold switchStep
  dsimp only
  constructor
  · intro hb'
    split at hb'
    next clientId' current' target sessions hresolve hswitch =>
      cases hb'
      obtain ⟨u, hu, heq⟩ := (hiff _).mp hresolve
      cases heq
      exact ⟨target, hu, rfl, hswitch⟩
    · cases hb'
  · rintro ⟨u, hu, htoken, hswitch⟩
    rw [(hiff _).mpr ⟨u, hu, rfl⟩, hswitch]
    dsimp only
    rw [← htoken]

theorem switchStep_users (h : Constraints b.sessions.db.tenantUsers)
    {externalUserId clientId : String}
    (hp : Person env b.sessions.db.tenantUsers externalUserId clientId b.token)
    (hs : switchStep env b e = some b') :
    b'.sessions.db.tenantUsers = b.sessions.db.tenantUsers := by
  obtain ⟨current, hcurrent, hlinked⟩ := hp.linked
  obtain ⟨u, hu, -, hswitch⟩ := (switchStep_iff h hp).mp hs
  have hresolve :=
    (resolveSwitch_iff (e := e) h hp.user hp.client hcurrent hlinked _).mpr ⟨u, hu, rfl⟩
  obtain ⟨sessions, hok, hsame⟩ := switchTenant_of_resolve hresolve hp.known
  rw [hswitch] at hok
  cases hok
  exact hsame

theorem person_switched (h : Constraints b.sessions.db.tenantUsers)
    (huuid : ∀ u ∈ b.sessions.db.tenantUsers, isUuidPattern u.id = true)
    {externalUserId clientId : String}
    (hp : Person env b.sessions.db.tenantUsers externalUserId clientId b.token)
    (hs : switchStep env b e = some b') :
    Person env b.sessions.db.tenantUsers externalUserId clientId b'.token := by
  obtain ⟨u, hu, htoken, -⟩ := (switchStep_iff h hp).mp hs
  obtain ⟨current, -, hlinked⟩ := hp.linked
  have hne : externalUserId ≠ "" := (Js.truthy_eq_some hlinked).2
  have hclient : clientId ≠ "" := (Js.truthy_eq_some hp.client).2
  rw [htoken]
  refine ⟨MintedTokens.resolveTokenType_user (huuid u hu.mem), Js.truthy_some hclient, hp.known,
    u, findById_eq h.keys hu.mem, ?_⟩
  rw [hu.subject]
  exact Js.truthy_some hne

/-! ### Chains of switches -/

def AcceptsListed (env : AuthEnv) (list : List AuthTenantDto) (b : SignedIn) : Prop :=
  ∀ e, (∃ b', switchStep env b e = some b') ↔
    ∃ entry ∈ list, entry.id = e.targetTenantId ∧ entry.status = .active

/-- After a switch: the same list, the same switches, and the role that the list shows. -/
structure SwitchOk (env : AuthEnv) (list : List AuthTenantDto) (_ : SignedIn) (e : Switch)
    (b' : SignedIn) : Prop where
  listed : listTenants env b'.sessions.db.tenantUsers b'.token = .ok list
  accepts : AcceptsListed env list b'
  role : ∃ entry ∈ list, entry.id = e.targetTenantId ∧
    ∃ u, findById b'.sessions.db.tenantUsers b'.token.sub = some u ∧
      u.tenantId = entry.id ∧ u.role = entry.role

theorem accepts_of_person (h : Constraints b.sessions.db.tenantUsers)
    {externalUserId clientId : String}
    (hp : Person env b.sessions.db.tenantUsers externalUserId clientId b.token) :
    AcceptsListed env ((findActiveByExternalUserId env.directory b.sessions.db.tenantUsers
      externalUserId).map (toDto env)) b := by
  intro e
  rw [shown_iff]
  constructor
  · rintro ⟨b', hb'⟩
    obtain ⟨u, hu, -⟩ := (switchStep_iff h hp).mp hb'
    exact ⟨u, hu⟩
  · rintro ⟨u, hu⟩
    obtain ⟨current, hcurrent, hlinked⟩ := hp.linked
    have hresolve :=
      (resolveSwitch_iff (e := e) h hp.user hp.client hcurrent hlinked _).mpr ⟨u, hu, rfl⟩
    obtain ⟨sessions, hok, -⟩ := switchTenant_of_resolve hresolve hp.known
    exact ⟨⟨sessions, ⟨u.id, resolveTokenType u.id, some clientId, some e.accessTokenId⟩⟩,
      (switchStep_iff h hp).mpr ⟨u, hu, rfl, hok⟩⟩

theorem list_nodup (h : Constraints users) (externalUserId : String) :
    (((findActiveByExternalUserId env.directory users externalUserId).map (toDto env)).map
      AuthTenantDto.id).Nodup := by
  have hrows : (findActiveByExternalUserId env.directory users externalUserId).Nodup := by
    refine (Table.perm_orderBy _ _).nodup_iff.mpr ?_
    exact h.keys.of_map.filter _
  rw [List.map_map]
  refine hrows.map_on ?_
  intro u hu v hv htenant
  obtain ⟨hmem, hactive⟩ := mem_findActiveByExternalUserId.mp hu
  obtain ⟨hmem', hactive'⟩ := mem_findActiveByExternalUserId.mp hv
  obtain ⟨hext, -⟩ := isActiveMember_iff.mp hactive
  obtain ⟨hext', -⟩ := isActiveMember_iff.mp hactive'
  have hlinked : u.externalUserId ≠ none := by
    rw [hext]
    exact Option.some_ne_none _
  exact h.eq hmem hmem' ⟨htenant, Or.inr ⟨hlinked, hext.trans hext'.symm⟩⟩

/-- The client of the token is still one that the provider finds (`hknown`); without it the list is
shown and no switch issues tokens. -/
theorem switches_follow_list (env : AuthEnv) (b : SignedIn) (list : List AuthTenantDto)
    (clientId : String) (es : List Switch) (h : Constraints b.sessions.db.tenantUsers)
    (huuid : ∀ u ∈ b.sessions.db.tenantUsers, isUuidPattern u.id = true)
    (hclient : Js.truthy b.token.clientId = some clientId) (hknown : env.isClient clientId = true)
    (hlist : listTenants env b.sessions.db.tenantUsers b.token = .ok list)
    (hrun : Run.Enabled (switchStep env) b es) :
    (list.map AuthTenantDto.id).Nodup ∧ AcceptsListed env list b ∧
      Run.All (switchStep env) (SwitchOk env list) b es := by
  obtain ⟨externalUserId, hp⟩ := person_of_listTenants hclient hknown hlist
  have hshown := listTenants_of_person hp
  rw [hlist] at hshown
  cases hshown
  refine ⟨list_nodup h externalUserId, accepts_of_person h hp, ?_⟩
  refine Run.all_of_invariant (fun b' =>
    b'.sessions.db.tenantUsers = b.sessions.db.tenantUsers ∧
      Person env b'.sessions.db.tenantUsers externalUserId clientId b'.token) ?_ ⟨rfl, hp⟩ hrun
  rintro b₁ e b₂ ⟨husers, hp₁⟩ hs -
  rw [← husers] at h huuid ⊢
  have hsame := switchStep_users h hp₁ hs
  have hp₂ := person_switched h huuid hp₁ hs
  obtain ⟨u, hu, htoken, -⟩ := (switchStep_iff h hp₁).mp hs
  rw [← hsame] at h hp₂ hu ⊢
  refine ⟨⟨rfl, hp₂⟩, listTenants_of_person hp₂, accepts_of_person h hp₂, toDto env u, ?_, ?_, u, ?_⟩
  · refine List.mem_map_of_mem (mem_findActiveByExternalUserId.mpr ⟨hu.mem, ?_⟩)
    exact isActiveMember_iff.mpr ⟨hu.subject, hu.active, hu.tenant ▸ hu.deletedAt⟩
  · exact hu.tenant
  · rw [htoken]
    exact ⟨findById_eq h.keys hu.mem, rfl, rfl⟩

end Switches

/-! ### A person in two tenants -/

def owner : TenantUser :=
  ⟨"11111111-1111-4111-8111-111111111111", "t1", some "sub-1", "a@example.com", none, .owner,
    .active⟩

def ownerElsewhere : TenantUser :=
  ⟨"22222222-2222-4222-8222-222222222222", "t2", some "sub-1", "a@example.com", none, .readonly,
    .active⟩

def twoTenants : AuthEnv where
  tenants tenantId := ⟨tenantId, tenantId, .active, none⟩
  createdAt _ := 0
  text := plainCase
  isClient := fun clientId => clientId == "dtsc-ui"
  audience := "https://api.example.com"

def signedIn : SignedIn where
  sessions := ⟨⟨[], fun _ _ => none, [owner, ownerElsewhere], [], []⟩, fun _ => ⟨none, none, [], []⟩⟩
  token := ⟨owner.id, .user, some "dtsc-ui", none⟩

def thereAndBack : List Switch :=
  [⟨"t2", fun _ => true, "g1", "a1", "r1"⟩, ⟨"t1", fun _ => true, "g2", "a2", "r2"⟩]

theorem constraints_two : Constraints signedIn.sessions.db.tenantUsers := by
  refine ⟨by decide, fun u hu v hv hconflict => ?_⟩
  simp only [signedIn, List.mem_cons, List.not_mem_nil, or_false] at hu hv
  rcases hu with rfl | rfl
  · rcases hv with rfl | rfl
    · rfl
    · exact absurd hconflict.1 (by decide)
  · rcases hv with rfl | rfl
    · exact absurd hconflict.1 (by decide)
    · rfl

theorem switches_follow_list_two :
    ∃ list, listTenants twoTenants signedIn.sessions.db.tenantUsers signedIn.token = .ok list ∧
      Run.All (switchStep twoTenants) (SwitchOk twoTenants list) signedIn thereAndBack := by
  refine ⟨_, rfl, ?_⟩
  exact (switches_follow_list twoTenants signedIn _ "dtsc-ui" thereAndBack
    constraints_two (by decide) (by decide) (by decide) rfl
    (Run.enabled_of_final (by decide +kernel))).2.2

end VcCommonService.Oidc
