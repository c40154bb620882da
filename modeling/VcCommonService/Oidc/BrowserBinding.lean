import VcCommonService.Oidc.LoginEffects

/-!
# Which browser a login ends in

A login is finished in the browser that holds the cookie of the interaction, for the user
that a callback stored. The callback itself is never asked for that cookie: PKCE and the
nonce tie the code to the stored row, and the state is compared with the state of the row
that it selected. So a login ends in the browser whose user signed in exactly as far as
nobody redeems a code for an interaction of another browser.
-/

namespace VcCommonService.Oidc
open Lib Auth TenantUsers OAuthClients

/-- Every finished login is for a user that a callback of the interaction's own browser stored. -/
def BrowserBound (db : LoginStore) : Prop :=
  ∀ f ∈ db.finished, ∀ accountId grantId, f.result = .login (some accountId) grantId →
    f.storedBy = some f.details.browser

/-- A callback whose code is redeemed comes from a browser with the cookie of the
interaction it was validated for. -/
def OwnCallback (challenge : String → String) (db : LoginStore) : LoginCall → LoginEvent → Prop
  | .exchanging request loaded, .exchange _ =>
    (authorizationCodeGrant challenge db.codes request loaded).isSome = true →
      (interactionDetails db request.browser loaded.interactionUid).isSome = true
  | _, _ => True

/-! ### Invariant -/

def Owns (db : LoginStore) (browser : Browser) (uid : String) : Prop :=
  ∃ details ∈ db.interactions, details.uid = uid ∧ details.browser = browser

/-- The row belongs to the interaction that its state and its id were drawn for. -/
structure Drawn (db : LoginStore) (r : OidcUpstreamInteraction) : Prop where
  issued : (r.state, r.interactionUid) ∈ db.issued
  drawn : (r.id, r.interactionUid) ∈ db.drawnIds

/-- Also, its user was stored by the owner of that interaction. -/
structure RowBound (db : LoginStore) (r : OidcUpstreamInteraction) : Prop extends Drawn db r where
  stored : r.tenantUserId.isSome = true → ∃ browser, r.storedBy = some browser ∧
    Owns db browser r.interactionUid

structure LoginInvariant (db : LoginStore) : Prop where
  uids : Table.UniqueKeys InteractionDetails.uid db.interactions
  states : Table.UniqueKeys Prod.fst db.issued
  ids : Table.UniqueKeys Prod.fst db.drawnIds
  rows : ∀ r ∈ db.rows, RowBound db r
  finished : BrowserBound db

def GrantBound (db : LoginStore) (details : InteractionDetails) : GrantFor → Prop
  | .login loaded => details ∈ db.interactions ∧ loaded.interactionUid = details.uid ∧
      RowBound db loaded
  | .consent _ => True

/-- What a save knows of the entity and of the row that it has read under its id. -/
structure SaveBound (db : LoginStore) (entity : OidcUpstreamInteraction)
    (row : Option OidcUpstreamInteraction) : Prop where
  bound : RowBound db entity
  row : ∀ read, row = some read → RowBound db read ∧ read.id = entity.id

/-- What each request knows. From the exchange on, a callback belongs to the owner of the
interaction that its state was drawn for. -/
def CallBound (db : LoginStore) : LoginCall → Prop
  | .granting details purpose => GrantBound db details purpose
  | .finishing details purpose _ => GrantBound db details purpose
  | .exchanging request loaded => (request.state, loaded.interactionUid) ∈ db.issued
  | .resolving request loaded _ => (request.state, loaded.interactionUid) ∈ db.issued ∧
      Owns db request.browser loaded.interactionUid
  | .settingUser request loaded _ => (request.state, loaded.interactionUid) ∈ db.issued ∧
      Owns db request.browser loaded.interactionUid
  | .savingUser _ _ entity => RowBound db entity
  | .writingUser _ _ entity row => SaveBound db entity row
  | .savingConsumed _ _ entity => RowBound db entity
  | .writingConsumed _ _ entity row => SaveBound db entity row
  | _ => True

variable {challenge : String → String} {db db' : LoginStore} {pc pc' : LoginCall} {e : LoginEvent}
  {browser : Browser} {uid : String} {details : InteractionDetails} {purpose : GrantFor}
  {r : OidcUpstreamInteraction}

/-! ### Interactions and drawn states are only added -/

structure Grows (db db' : LoginStore) : Prop where
  interactions : db.interactions ⊆ db'.interactions
  issued : db.issued ⊆ db'.issued
  drawnIds : db.drawnIds ⊆ db'.drawnIds

theorem effect_grows (h : LoginEffect challenge db pc e db' pc') : Grows db db' := by
  cases h with
  | authorize details hnew => exact ⟨List.subset_cons_self _ _, fun _ h => h, fun _ h => h⟩
  | initiate details tenantId draw now hnew hnewId rows hstore response =>
    exact ⟨fun _ h => h, List.subset_cons_self _ _, List.subset_cons_self _ _⟩
  | _ => exact ⟨fun _ h => h, fun _ h => h, fun _ h => h⟩

theorem owns_mono (hg : Grows db db') (h : Owns db browser uid) : Owns db' browser uid := by
  obtain ⟨details, hmem, hd⟩ := h
  exact ⟨details, hg.interactions hmem, hd⟩

theorem drawn_mono (hg : Grows db db') (h : Drawn db r) : Drawn db' r :=
  ⟨hg.issued h.issued, hg.drawnIds h.drawn⟩

theorem rowBound_mono (hg : Grows db db') (h : RowBound db r) : RowBound db' r := by
  refine ⟨drawn_mono hg h.toDrawn, fun hsome => ?_⟩
  obtain ⟨browser, hstored, howns⟩ := h.stored hsome
  exact ⟨browser, hstored, owns_mono hg howns⟩

theorem saveBound_mono (hg : Grows db db') {row : Option OidcUpstreamInteraction}
    (h : SaveBound db r row) : SaveBound db' r row :=
  ⟨rowBound_mono hg h.bound, fun read hread =>
    ⟨rowBound_mono hg (h.row read hread).1, (h.row read hread).2⟩⟩

theorem grantBound_mono (hg : Grows db db') (h : GrantBound db details purpose) :
    GrantBound db' details purpose := by
  cases purpose with
  | login loaded => exact ⟨hg.interactions h.1, h.2.1, rowBound_mono hg h.2.2⟩
  | consent accountId => trivial

theorem callBound_mono (hg : Grows db db') (h : CallBound db pc) : CallBound db' pc := by
  cases pc with
  | granting details purpose => exact grantBound_mono hg h
  | finishing details purpose grantId => exact grantBound_mono hg h
  | exchanging request loaded => exact hg.issued h
  | resolving request loaded claims => exact ⟨hg.issued h.1, owns_mono hg h.2⟩
  | settingUser request loaded tenantUserId => exact ⟨hg.issued h.1, owns_mono hg h.2⟩
  | savingUser request loaded entity => exact rowBound_mono hg h
  | writingUser request loaded entity row => exact saveBound_mono hg h
  | savingConsumed request loaded entity => exact rowBound_mono hg h
  | writingConsumed request loaded entity row => exact saveBound_mono hg h
  | _ => trivial

/-! ### One step -/

theorem interactionDetails_some (h : interactionDetails db browser uid = some details) :
    details ∈ db.interactions ∧ details.uid = uid ∧ details.browser = browser :=
  ⟨List.mem_of_find?_eq_some h, by simpa using List.find?_some h⟩

theorem issued_unique (hi : LoginInvariant db) {state uid uid' : String}
    (h : (state, uid) ∈ db.issued) (h' : (state, uid') ∈ db.issued) : uid = uid' :=
  congrArg Prod.snd (Table.eq_of_key hi.states h h' rfl)

theorem owner_unique (hi : LoginInvariant db) (hd : details ∈ db.interactions)
    (h : Owns db browser details.uid) : browser = details.browser := by
  obtain ⟨d, hmem, huid, rfl⟩ := h
  rw [Table.eq_of_key hi.uids hmem hd huid]

theorem grantBound_storedBy (hi : LoginInvariant db) (h : GrantBound db details purpose)
    {accountId grantId grantId' : String}
    (hr : purpose.result grantId = .login (some accountId) grantId') :
    purpose.storedBy = some details.browser := by
  cases purpose with
  | consent a => cases hr
  | login loaded =>
    obtain ⟨hd, huid, hrow⟩ := h
    have hsome : loaded.tenantUserId.isSome = true := by
      have he : loaded.tenantUserId = some accountId := (InteractionResult.login.inj hr).1
      rw [he]
      rfl
    obtain ⟨browser, hstored, howns⟩ := hrow.stored hsome
    rw [huid] at howns
    exact hstored.trans (congrArg some (owner_unique hi hd howns))

theorem uid_of_id (hids : Table.UniqueKeys Prod.fst db.drawnIds) {r' : OidcUpstreamInteraction}
    (h : Drawn db r) (h' : Drawn db r') (hid : r.id = r'.id) :
    r.interactionUid = r'.interactionUid :=
  congrArg Prod.snd (Table.eq_of_key hids h.drawn h'.drawn hid)

section Save

variable {row entity current : OidcUpstreamInteraction}

/-- The entity, the row that the save has read and the one that it writes have one id, so all
three belong to one interaction. -/
theorem writeColumns_uid (hids : Table.UniqueKeys Prod.fst db.drawnIds) (hrow : Drawn db row)
    (hentity : Drawn db entity) (hcurrent : Drawn db current) (hid : row.id = entity.id)
    (hid' : current.id = entity.id) : current.interactionUid = entity.interactionUid ∧
      (writeColumns row entity current).interactionUid = entity.interactionUid := by
  have huid : entity.interactionUid = row.interactionUid := (uid_of_id hids hrow hentity hid).symm
  have huid' : current.interactionUid = entity.interactionUid :=
    uid_of_id hids hcurrent hentity hid'
  exact ⟨huid', (Table.written_of_eq huid _).trans huid'⟩

theorem drawn_writeColumns (hids : Table.UniqueKeys Prod.fst db.drawnIds) (hrow : Drawn db row)
    (hentity : Drawn db entity) (hcurrent : Drawn db current) (hid : row.id = entity.id)
    (hid' : current.id = entity.id) : Drawn db (writeColumns row entity current) := by
  obtain ⟨huid, hwritten⟩ := writeColumns_uid hids hrow hentity hcurrent hid hid'
  refine ⟨?_, ?_⟩
  · rw [hwritten]
    show (Table.written row.state entity.state current.state, entity.interactionUid) ∈ db.issued
    unfold Table.written
    split
    · exact huid ▸ hcurrent.issued
    · exact hentity.issued
  · rw [hwritten, ← huid]
    exact hcurrent.drawn

theorem rowBound_writeColumns (hids : Table.UniqueKeys Prod.fst db.drawnIds)
    (hrow : RowBound db row) (hentity : RowBound db entity) (hcurrent : RowBound db current)
    (hid : row.id = entity.id) (hid' : current.id = entity.id) :
    RowBound db (writeColumns row entity current) := by
  obtain ⟨huid, hwritten⟩ := writeColumns_uid hids hrow.toDrawn hentity.toDrawn hcurrent.toDrawn
    hid hid'
  refine ⟨drawn_writeColumns hids hrow.toDrawn hentity.toDrawn hcurrent.toDrawn hid hid', ?_⟩
  rw [hwritten]
  show (Table.written row.tenantUserId entity.tenantUserId current.tenantUserId).isSome = true →
    ∃ browser, (if entity.tenantUserId = row.tenantUserId then current.storedBy
      else entity.storedBy) = some browser ∧ Owns db browser entity.interactionUid
  unfold Table.written
  split
  · exact huid ▸ hcurrent.stored
  · exact hentity.stored

end Save

theorem loginInvariant_rows (hi : LoginInvariant db) {rows : List OidcUpstreamInteraction}
    (hrows : ∀ r ∈ rows, RowBound db r) : LoginInvariant { db with rows } :=
  ⟨hi.uids, hi.states, hi.ids, fun r hr => ⟨⟨(hrows r hr).issued, (hrows r hr).drawn⟩,
    (hrows r hr).stored⟩, hi.finished⟩

theorem loginInvariant_save (hi : LoginInvariant db) {entity : OidcUpstreamInteraction}
    {row : Option OidcUpstreamInteraction} {rows : List OidcUpstreamInteraction}
    (hsave : saveInteraction db.rows entity row = .ok rows) (hbound : SaveBound db entity row) :
    LoginInvariant { db with rows } := by
  refine loginInvariant_rows hi fun r hr => ?_
  rcases saveInteraction_ok hsave hr with hr | ⟨-, rfl⟩ | ⟨read, hread, current, hmem, hid, rfl⟩
  · exact hi.rows r hr
  · exact hbound.bound
  · obtain ⟨hrow, hreadId⟩ := hbound.row read hread
    exact rowBound_writeColumns hi.ids hrow hbound.bound (hi.rows current hmem) hreadId hid

theorem saveBound_findSaved (hi : LoginInvariant db) (h : RowBound db r) :
    SaveBound db r (findSaved db r) := by
  refine ⟨h, fun read hread => ?_⟩
  obtain ⟨hmem, hid⟩ := Table.mem_of_lookup hread
  exact ⟨hi.rows read hmem, hid⟩

theorem uniqueKeys_cons {l : List (String × String)} {k v : String}
    (hu : Table.UniqueKeys Prod.fst l) (hnew : ∀ i ∈ l, i.1 ≠ k) :
    Table.UniqueKeys Prod.fst ((k, v) :: l) := by
  refine List.nodup_cons.mpr ⟨fun hmem => ?_, hu⟩
  obtain ⟨i, hi, he⟩ := List.mem_map.mp hmem
  exact hnew i hi he

theorem loginInvariant_initiate (hi : LoginInvariant db) {draw : Draw} {tenantId : TenantId}
    {now : Time} {rows : List OidcUpstreamInteraction}
    (hnew : ∀ i ∈ db.issued, i.1 ≠ draw.state) (hnewId : ∀ i ∈ db.drawnIds, i.1 ≠ draw.id)
    (hstore : storeInteraction db.rows draw uid tenantId now = .ok rows) :
    LoginInvariant { db with
      rows
      issued := (draw.state, uid) :: db.issued
      drawnIds := (draw.id, uid) :: db.drawnIds } := by
  have hgrows : Grows db { db with
      rows
      issued := (draw.state, uid) :: db.issued
      drawnIds := (draw.id, uid) :: db.drawnIds } :=
    ⟨fun _ h => h, List.subset_cons_self _ _, List.subset_cons_self _ _⟩
  refine ⟨hi.uids, uniqueKeys_cons hi.states hnew, uniqueKeys_cons hi.ids hnewId,
    fun r hr => ?_, hi.finished⟩
  rcases storeInteraction_ok hstore hr with hold | rfl
  · exact rowBound_mono hgrows (hi.rows r hold)
  · refine ⟨⟨List.mem_cons_self .., ?_⟩, fun hsome => by cases hsome⟩
    rcases upsertedRow_id db.rows draw uid tenantId (now + interactionTtl) now with
      hid | ⟨old, hold, huid, hid⟩
    · rw [hid]
      exact List.mem_cons_self ..
    · rw [hid]
      refine List.mem_cons_of_mem _ ?_
      rw [show (upsertedRow db.rows draw uid tenantId (now + interactionTtl) now).interactionUid =
        old.interactionUid from huid.symm]
      exact (hi.rows old hold).drawn

/-- The row that a callback of the owner stores its user on. The callback reads it again
by state, which was drawn for the interaction of the first read. -/
theorem rowBound_setUser (hi : LoginInvariant db) {request : CallbackRequest}
    {loaded entity : OidcUpstreamInteraction} {tenantUserId : String} {now : Time}
    (hissued : (request.state, loaded.interactionUid) ∈ db.issued)
    (howns : Owns db request.browser loaded.interactionUid)
    (hentity : setTenantUserIdForInteraction db.rows request.state tenantUserId request.browser
      now = .ok entity) : RowBound db entity := by
  obtain ⟨r, hr, hstate, rfl⟩ := setTenantUserIdForInteraction_ok hentity
  have hrow := (hi.rows r hr).issued
  have huid : r.interactionUid = loaded.interactionUid := by
    rw [hstate] at hrow
    exact issued_unique hi hrow hissued
  refine ⟨⟨hrow, (hi.rows r hr).drawn⟩, fun _ => ⟨request.browser, rfl, ?_⟩⟩
  show Owns db request.browser r.interactionUid
  rw [huid]
  exact howns

theorem effect_bound (hi : LoginInvariant db) (hl : CallBound db pc)
    (h : LoginEffect challenge db pc e db' pc') (hc : OwnCallback challenge db pc e) :
    LoginInvariant db' ∧ CallBound db' pc' := by
  have hgrows := effect_grows h
  cases h with
  | stop pc e response => exact ⟨hi, trivial⟩
  | authorize details hnew =>
    refine ⟨⟨?_, hi.states, hi.ids, fun r hr => rowBound_mono hgrows (hi.rows r hr), hi.finished⟩,
      trivial⟩
    refine List.nodup_cons.mpr ⟨fun hmem => ?_, hi.uids⟩
    obtain ⟨d, hd, he⟩ := List.mem_map.mp hmem
    exact hnew d hd he
  | upstreamLogin browser url code claims =>
    exact ⟨⟨hi.uids, hi.states, hi.ids, fun r hr => rowBound_mono hgrows (hi.rows r hr),
      hi.finished⟩, trivial⟩
  | purge limit now =>
    exact ⟨loginInvariant_rows hi fun r hr => hi.rows r (mem_of_mem_purge hr), trivial⟩
  | startUpstream browser uid details clientId => exact ⟨hi, trivial⟩
  | readLogin browser uid details loaded hdetails hloaded =>
    obtain ⟨hrow, huid⟩ := findByInteractionUid_some hloaded
    exact ⟨hi, (interactionDetails_some hdetails).1, huid, hi.rows loaded hrow⟩
  | readConsent browser uid details accountId => exact ⟨hi, trivial⟩
  | lookup details clientId client => exact ⟨hi, trivial⟩
  | initiate details tenantId draw now hnew hnewId rows hstore response =>
    exact ⟨loginInvariant_initiate hi hnew hnewId hstore, trivial⟩
  | grant details purpose findById findScopesForRole grantId g =>
    exact ⟨⟨hi.uids, hi.states, hi.ids, fun r hr => rowBound_mono hgrows (hi.rows r hr),
      hi.finished⟩, grantBound_mono hgrows hl⟩
  | finish details purpose grantId now =>
    refine ⟨⟨hi.uids, hi.states, hi.ids, fun r hr => rowBound_mono hgrows (hi.rows r hr),
      fun f hf accountId grantId' hr => ?_⟩, trivial⟩
    rcases List.mem_cons.mp hf with rfl | hf
    · exact grantBound_storedBy hi hl hr
    · exact hi.finished f hf accountId grantId' hr
  | validate query now code state loaded hloaded =>
    obtain ⟨hrow, hstate⟩ := validateInteraction_ok hloaded
    have hissued := (hi.rows loaded hrow).issued
    rw [hstate] at hissued
    exact ⟨hi, hissued⟩
  | redeem request loaded refusal claims hclaims codes =>
    have hcookie := hc (by rw [hclaims]; rfl)
    obtain ⟨details, hdetails⟩ := Option.isSome_iff_exists.mp hcookie
    obtain ⟨hmem, huid, hbrowser⟩ := interactionDetails_some hdetails
    exact ⟨⟨hi.uids, hi.states, hi.ids, fun r hr => rowBound_mono hgrows (hi.rows r hr),
      hi.finished⟩, hl, details, hmem, huid, hbrowser⟩
  | resolve request loaded claims port tenantUserId => exact ⟨hi, hl⟩
  | setUser request loaded tenantUserId now entity hentity =>
    exact ⟨hi, rowBound_setUser hi hl.1 hl.2 hentity⟩
  | readUser request loaded entity now => exact ⟨hi, saveBound_findSaved hi hl⟩
  | saveUser request loaded entity row now rows hsave =>
    exact ⟨loginInvariant_save hi hsave hl, trivial⟩
  | consume request loaded now entity hentity =>
    obtain ⟨r, hr, -, rfl⟩ := consumeInteraction_ok hentity
    exact ⟨hi, ⟨(hi.rows r hr).issued, (hi.rows r hr).drawn⟩, (hi.rows r hr).stored⟩
  | readConsumed request loaded entity now => exact ⟨hi, saveBound_findSaved hi hl⟩
  | saveConsumed request loaded entity row now rows hsave response =>
    exact ⟨loginInvariant_save hi hsave hl, trivial⟩

/-! ### Runs -/

/-- As long as every redeemed callback comes from the browser with the interaction's
cookie, every login is finished in the browser whose callback stored its user. -/
theorem login_bound_to_browser (calculatePKCECodeChallenge : String → String)
    (events : List (ℕ × LoginEvent))
    (hown : Run.All (loginStep calculatePKCECodeChallenge)
      (Run.Before (OwnCallback calculatePKCECodeChallenge)) ⟨{}, fun _ => .idle⟩ events) :
    Run.All (loginStep calculatePKCECodeChallenge) (fun _ _ w' => BrowserBound w'.db)
      ⟨{}, fun _ => .idle⟩ events := by
  refine Run.all_of_invariant (Run.Holds LoginInvariant CallBound) ?_ ⟨?_, fun _ => trivial⟩ hown
  · intro w l w' hw hs hc
    have hw' : Run.Holds LoginInvariant CallBound w' := by
      refine Run.holds_interleave (C := OwnCallback calculatePKCECodeChallenge) ?_ ?_ hw hs hc
      · intro db pc e db' pc' hg hl ha hc
        exact effect_bound hg hl (loginAct_effect ha) hc
      · intro db pc e db' pc' other hg hl ho ha hc
        exact callBound_mono (effect_grows (loginAct_effect ha)) ho
    exact ⟨hw', hw'.1.finished⟩
  · exact ⟨List.nodup_nil, List.nodup_nil, List.nodup_nil, by simp, by simp [BrowserBound]⟩

/-! ### A forwarded authorization URL -/

def s256 (codeVerifier : String) : String :=
  if codeVerifier = "dBjftJeZ4CVP-mB92K27uhbUJU1p1r_wW1gFWFOEjXk" then
    "E9Melhoa2OwvFrEMTJguCHaoeK1t8URWbuGJSstw_cM"
  else ""

def spaClient : OAuthClient :=
  { id := "c", tenantId := "t", clientId := "spa", clientSecretHash := none, isPublic := true
    name := "SPA", scopes := [], roles := [], redirectUris := ["https://app.localhost"]
    grantTypes := ["authorization_code"], createdBy := none, refreshTokenTtlSeconds := none }

def signedInUser : TenantUser :=
  { id := "u", tenantId := "t", externalUserId := some "sub", email := "u@example.org"
    displayName := none, role := .readonly, status := .active }

def tenantUserPort : OidcTenantUserPort where
  findActiveByExternalUserId sub := if sub = "sub" then [signedInUser] else []
  findByTenantAndExternalUserId _ _ := none
  claimInvitedByEmail _ _ _ := none
  create _ := signedInUser

/-- Browser 0 opens an interaction and is sent to the upstream provider; `visitor` visits
that URL, signs in and follows the redirect to the callback; browser 0 returns. -/
def forwardedLogin (visitor : Browser) : List (ℕ × LoginEvent) :=
  [(0, .authorize
      { uid := "i", browser := 0, prompt := .login, clientId := some "spa", accountId := none
        promptDetails := { missingOIDCScope := some ["openid"] } }),
    (1, .interaction 0 "i"),
    (1, .findActiveClient (some spaClient)),
    (1, .initiate ⟨"dBjftJeZ4CVP-mB92K27uhbUJU1p1r_wW1gFWFOEjXk", "s", "n", "r"⟩ 0),
    (2, .upstreamLogin visitor ⟨"s", "n", "E9Melhoa2OwvFrEMTJguCHaoeK1t8URWbuGJSstw_cM"⟩ "c"
      ⟨"sub", none, none⟩),
    (3, .callback { browser := visitor, code := some "c", state := some "s" } 1000),
    (3, .exchange "invalid_grant"),
    (3, .resolve tenantUserPort),
    (3, .next 1000), (3, .next 1000), (3, .next 1000), (3, .next 1000), (3, .next 1000),
    (3, .next 1000),
    (4, .interaction 0 "i"),
    (4, .grant (fun _ => some signedInUser) (fun _ _ => []) "g")]

theorem login_bound_to_browser_alone :
    Run.All (loginStep s256) (fun _ _ w' => BrowserBound w'.db) ⟨{}, fun _ => .idle⟩
      (forwardedLogin 0 ++ [(4, .next 2000)]) := by
  refine login_bound_to_browser s256 _ ?_
  exact ⟨_, rfl, trivial, _, rfl, trivial, _, rfl, trivial, _, rfl, trivial, _, rfl, trivial,
    _, rfl, trivial, _, rfl, fun _ => rfl, _, rfl, trivial, _, rfl, trivial, _, rfl, trivial,
    _, rfl, trivial, _, rfl, trivial, _, rfl, trivial, _, rfl, trivial, _, rfl, trivial,
    _, rfl, trivial, _, rfl, trivial, trivial⟩

theorem login_crosses_browsers : ¬ ∀ (calculatePKCECodeChallenge : String → String)
    (events : List (ℕ × LoginEvent)),
    Run.Enabled (loginStep calculatePKCECodeChallenge) ⟨{}, fun _ => .idle⟩ events →
    Run.All (loginStep calculatePKCECodeChallenge) (fun _ _ w' => BrowserBound w'.db)
      ⟨{}, fun _ => .idle⟩ events := by
  intro hall
  have hrun := hall s256 (forwardedLogin 1 ++ [(4, .next 2000)])
    (Run.enabled_of_final (by decide +kernel))
  obtain ⟨w, w', hbound, hq⟩ := Run.all_last hrun
    (fun _ w' => decide (∃ f ∈ w'.db.finished, f.result = .login (some "u") "g" ∧
      f.details.browser = 0 ∧ f.storedBy = some 1))
    (by decide +kernel)
  obtain ⟨f, hf, hresult, hbrowser, hstored⟩ := of_decide_eq_true hq
  have howner := hbound f hf "u" "g" hresult
  rw [hstored, hbrowser] at howner
  cases howner

end VcCommonService.Oidc
