import VcCommonService.Oidc.Login

/-!
# What one step of a login can do

Every step either ends its request without writing, or is one of the transitions below.
Proofs about runs go through this list and do not unfold the controller again.
-/

namespace VcCommonService.Oidc
open Lib Auth TenantUsers OAuthClients

/-- The transitions that write or let a request go on. -/
inductive LoginEffect (challenge : String → String) (db : LoginStore) :
    LoginCall → LoginEvent → LoginStore → LoginCall → Prop
  | stop (pc : LoginCall) (e : LoginEvent) (response : Response) :
    LoginEffect challenge db pc e db (.done response)
  | authorize (details : InteractionDetails) (hnew : ∀ d ∈ db.interactions, d.uid ≠ details.uid) :
    LoginEffect challenge db .idle (.authorize details)
      { db with interactions := details :: db.interactions } .idle
  | upstreamLogin (browser : Browser) (url : AuthorizationUrl) (code : String)
      (claims : OidcUpstreamClaims) :
    LoginEffect challenge db .idle (.upstreamLogin browser url code claims)
      { db with codes := ⟨code, url.nonce, url.codeChallenge, claims⟩ :: db.codes } .idle
  | purge (limit : ℕ) (now : Time) :
    LoginEffect challenge db .idle (.purge limit now)
      { db with rows := purgeExpiredUpstreamInteractionsBatch db.rows limit now } .idle
  | startUpstream (browser : Browser) (uid : String) (details : InteractionDetails)
      (clientId : String) :
    LoginEffect challenge db .idle (.interaction browser uid) db (.lookingUp details clientId)
  | readLogin (browser : Browser) (uid : String) (details : InteractionDetails)
      (loaded : OidcUpstreamInteraction) (hdetails : interactionDetails db browser uid = some details)
      (hloaded : findByInteractionUid db.rows details.uid = some loaded) :
    LoginEffect challenge db .idle (.interaction browser uid) db
      (.granting details (.login loaded))
  | readConsent (browser : Browser) (uid : String) (details : InteractionDetails)
      (accountId : String) :
    LoginEffect challenge db .idle (.interaction browser uid) db
      (.granting details (.consent accountId))
  | lookup (details : InteractionDetails) (clientId : String) (client : OAuthClient) :
    LoginEffect challenge db (.lookingUp details clientId) (.findActiveClient (some client)) db
      (.initiating details client.tenantId)
  | initiate (details : InteractionDetails) (tenantId : TenantId) (draw : Draw) (now : Time)
      (hnew : ∀ i ∈ db.issued, i.1 ≠ draw.state) (hnewId : ∀ i ∈ db.drawnIds, i.1 ≠ draw.id)
      (rows : List OidcUpstreamInteraction)
      (hstore : storeInteraction db.rows draw details.uid tenantId now = .ok rows)
      (response : Response) :
    LoginEffect challenge db (.initiating details tenantId) (.initiate draw now)
      { db with
        rows
        issued := (draw.state, details.uid) :: db.issued
        drawnIds := (draw.id, details.uid) :: db.drawnIds }
      (.done response)
  | grant (details : InteractionDetails) (purpose : GrantFor)
      (findById : Option String → Option TenantUser)
      (findScopesForRole : TenantRole → TenantId → List String) (grantId : String) (g : Grant) :
    LoginEffect challenge db (.granting details purpose)
      (.grant findById findScopesForRole grantId)
      { db with grants := (grantId, g) :: db.grants } (.finishing details purpose grantId)
  | finish (details : InteractionDetails) (purpose : GrantFor) (grantId : String) (now : Time) :
    LoginEffect challenge db (.finishing details purpose grantId) (.next now)
      { db with
        finished := ⟨details, purpose.result grantId, purpose.storedBy⟩ :: db.finished }
      (.done .finished)
  | validate (query : CallbackQuery) (now : Time) (code state : String)
      (loaded : OidcUpstreamInteraction) (hloaded : validateInteraction db.rows state now = .ok loaded) :
    LoginEffect challenge db .idle (.callback query now) db
      (.exchanging ⟨query.browser, code, state⟩ loaded)
  | redeem (request : CallbackRequest) (loaded : OidcUpstreamInteraction) (refusal : String)
      (claims : OidcUpstreamClaims)
      (hclaims : authorizationCodeGrant challenge db.codes request loaded = some claims)
      (codes : List UpstreamCode) :
    LoginEffect challenge db (.exchanging request loaded) (.exchange refusal) { db with codes }
      (.resolving request loaded claims)
  | resolve (request : CallbackRequest) (loaded : OidcUpstreamInteraction)
      (claims : OidcUpstreamClaims) (port : OidcTenantUserPort) (tenantUserId : String) :
    LoginEffect challenge db (.resolving request loaded claims) (.resolve port) db
      (.settingUser request loaded tenantUserId)
  | setUser (request : CallbackRequest) (loaded : OidcUpstreamInteraction) (tenantUserId : String)
      (now : Time) (entity : OidcUpstreamInteraction)
      (hentity : setTenantUserIdForInteraction db.rows request.state tenantUserId
        request.browser now = .ok entity) :
    LoginEffect challenge db (.settingUser request loaded tenantUserId) (.next now) db
      (.savingUser request loaded entity)
  | readUser (request : CallbackRequest) (loaded entity : OidcUpstreamInteraction) (now : Time) :
    LoginEffect challenge db (.savingUser request loaded entity) (.next now) db
      (.writingUser request loaded entity (findSaved db entity))
  | saveUser (request : CallbackRequest) (loaded entity : OidcUpstreamInteraction)
      (row : Option OidcUpstreamInteraction) (now : Time) (rows : List OidcUpstreamInteraction)
      (hsave : saveInteraction db.rows entity row = .ok rows) :
    LoginEffect challenge db (.writingUser request loaded entity row) (.next now) { db with rows }
      (.consuming request loaded)
  | consume (request : CallbackRequest) (loaded : OidcUpstreamInteraction) (now : Time)
      (entity : OidcUpstreamInteraction)
      (hentity : consumeInteraction db.rows request.state now = .ok entity) :
    LoginEffect challenge db (.consuming request loaded) (.next now) db
      (.savingConsumed request loaded entity)
  | readConsumed (request : CallbackRequest) (loaded entity : OidcUpstreamInteraction) (now : Time) :
    LoginEffect challenge db (.savingConsumed request loaded entity) (.next now) db
      (.writingConsumed request loaded entity (findSaved db entity))
  | saveConsumed (request : CallbackRequest) (loaded entity : OidcUpstreamInteraction)
      (row : Option OidcUpstreamInteraction) (now : Time) (rows : List OidcUpstreamInteraction)
      (hsave : saveInteraction db.rows entity row = .ok rows) (response : Response) :
    LoginEffect challenge db (.writingConsumed request loaded entity row) (.next now)
      { db with rows } (.done response)

variable {challenge : String → String} {db db' : LoginStore} {pc pc' : LoginCall} {e : LoginEvent}

theorem startUpstreamLogin_effect (browser : Browser) (uid : String)
    (details : InteractionDetails) :
    LoginEffect challenge db .idle (.interaction browser uid) db (startUpstreamLogin details) := by
  unfold startUpstreamLogin
  split
  · exact .stop _ _ _
  · exact .stop _ _ _
  · exact .startUpstream browser uid details _

theorem beginInteraction_effect (browser : Browser) (uid : String) :
    LoginEffect challenge db .idle (.interaction browser uid) db
      (beginInteraction db browser uid) := by
  unfold beginInteraction
  split
  · exact .stop _ _ _
  next details hdetails =>
    split
    · split
      · exact startUpstreamLogin_effect browser uid details
      next loaded hloaded =>
        split
        · exact .readLogin browser uid details loaded hdetails hloaded
        · exact startUpstreamLogin_effect browser uid details
    · split
      · exact .stop _ _ _
      · exact .readConsent browser uid details _
    · exact .stop _ _ _

theorem beginCallback_effect (query : CallbackQuery) (now : Time) :
    LoginEffect challenge db .idle (.callback query now) db (beginCallback db query now) := by
  unfold beginCallback
  split
  · exact .stop _ _ _
  · split
    · split
      · exact .stop _ _ _
      · split
        · exact .stop _ _ _
        next loaded hloaded => exact .validate query now _ _ loaded hloaded
    · exact .stop _ _ _

theorem aborted_done {message : String} (h : aborted message pc = some pc') :
    ∃ response, pc' = .done response := by
  cases pc with
  | idle => cases h
  | done response => cases h
  | _ => exact ⟨_, (Option.some.inj h).symm⟩

theorem abort_effect {message : String}
    (h : ((aborted message pc).map fun pc' => (db, pc')) = some (db', pc')) :
    LoginEffect challenge db pc (.abort message) db' pc' := by
  obtain ⟨pc₁, hpc₁, he⟩ := Option.map_eq_some_iff.mp h
  obtain ⟨response, rfl⟩ := aborted_done hpc₁
  cases he
  exact .stop _ _ response

theorem idle_effect (h : loginAct challenge db .idle e = some (db', pc')) :
    LoginEffect challenge db .idle e db' pc' := by
  cases e with
  | interaction browser uid =>
    cases h
    exact beginInteraction_effect browser uid
  | callback query now =>
    cases h
    exact beginCallback_effect query now
  | authorize details =>
    simp only [loginAct] at h
    split at h
    · cases h
    next hnew =>
      cases h
      exact .authorize details fun d hd he => hnew (List.any_eq_true.mpr ⟨d, hd, by simpa using he⟩)
  | upstreamLogin browser url code claims =>
    simp only [loginAct] at h
    split at h
    · cases h
    · cases h
      exact .upstreamLogin browser url code claims
  | purge limit now =>
    cases h
    exact .purge limit now
  | abort message => exact abort_effect h
  | _ => cases h

/-! ### Statements of the two requests -/

theorem initiateUpstreamLogin_effect {details : InteractionDetails} {tenantId : TenantId}
    {draw : Draw} {now : Time} (hnew : ∀ i ∈ db.issued, i.1 ≠ draw.state)
    (hnewId : ∀ i ∈ db.drawnIds, i.1 ≠ draw.id)
    (h : initiateUpstreamLogin challenge db details.uid tenantId draw now = (db', pc')) :
    LoginEffect challenge db (.initiating details tenantId) (.initiate draw now) db' pc' := by
  unfold initiateUpstreamLogin at h
  split at h
  · cases h
    exact .stop _ _ _
  next rows hstore =>
    cases h
    exact .initiate details tenantId draw now hnew hnewId rows hstore _

theorem saveGrant_effect {details : InteractionDetails} {purpose : GrantFor}
    {findById : Option String → Option TenantUser}
    {findScopesForRole : TenantRole → TenantId → List String} {grantId : String}
    (h : saveGrant db details purpose findById findScopesForRole grantId = (db', pc')) :
    LoginEffect challenge db (.granting details purpose)
      (.grant findById findScopesForRole grantId) db' pc' := by
  unfold saveGrant at h
  split at h
  · cases h
    exact .stop _ _ _
  next g _ =>
    cases h
    exact .grant details purpose findById findScopesForRole grantId g

theorem exchangeCode_effect {request : CallbackRequest} {loaded : OidcUpstreamInteraction}
    {refusal : String} (h : exchangeCode challenge db request loaded refusal = (db', pc')) :
    LoginEffect challenge db (.exchanging request loaded) (.exchange refusal) db' pc' := by
  unfold exchangeCode at h
  split at h
  · cases h
    exact .stop _ _ _
  next claims hclaims =>
    cases h
    exact .redeem request loaded refusal claims hclaims _

theorem saveEntity_cases {entity : OidcUpstreamInteraction} {row : Option OidcUpstreamInteraction}
    {k : LoginCall} (h : saveEntity db entity row k = (db', pc')) :
    (db' = db ∧ ∃ response, pc' = .done response) ∨
      ∃ rows, saveInteraction db.rows entity row = .ok rows ∧ db' = { db with rows } ∧ pc' = k := by
  unfold saveEntity at h
  split at h
  · cases h
    exact Or.inl ⟨rfl, _, rfl⟩
  next rows hsave =>
    cases h
    exact Or.inr ⟨rows, hsave, rfl, rfl⟩

theorem readEntity_cases {k : OidcUpstreamInteraction → LoginCall}
    (x : Except String OidcUpstreamInteraction) :
    (∃ response, readEntity k x = .done response) ∨
      ∃ entity, x = .ok entity ∧ readEntity k x = k entity := by
  cases x with
  | error message => exact Or.inl ⟨_, rfl⟩
  | ok entity => exact Or.inr ⟨entity, rfl, rfl⟩

theorem lookingUp_effect {details : InteractionDetails} {clientId : String}
    (h : loginAct challenge db (.lookingUp details clientId) e = some (db', pc')) :
    LoginEffect challenge db (.lookingUp details clientId) e db' pc' := by
  cases e with
  | findActiveClient client =>
    cases client with
    | none =>
      cases h
      exact .stop _ _ _
    | some client =>
      cases h
      exact .lookup details clientId client
  | abort message => exact abort_effect h
  | _ => cases h

theorem initiating_effect {details : InteractionDetails} {tenantId : TenantId}
    (h : loginAct challenge db (.initiating details tenantId) e = some (db', pc')) :
    LoginEffect challenge db (.initiating details tenantId) e db' pc' := by
  cases e with
  | initiate draw now =>
    simp only [loginAct] at h
    split at h
    · cases h
    next hfresh =>
      simp only [Bool.or_eq_true, List.any_eq_true, decide_eq_true_eq, not_or, not_exists,
        not_and] at hfresh
      exact initiateUpstreamLogin_effect hfresh.1 hfresh.2 (Option.some.inj h)
  | abort message => exact abort_effect h
  | _ => cases h

theorem granting_effect {details : InteractionDetails} {purpose : GrantFor}
    (h : loginAct challenge db (.granting details purpose) e = some (db', pc')) :
    LoginEffect challenge db (.granting details purpose) e db' pc' := by
  cases e with
  | grant findById findScopesForRole grantId => exact saveGrant_effect (Option.some.inj h)
  | abort message => exact abort_effect h
  | _ => cases h

theorem finishing_effect {details : InteractionDetails} {purpose : GrantFor} {grantId : String}
    (h : loginAct challenge db (.finishing details purpose grantId) e = some (db', pc')) :
    LoginEffect challenge db (.finishing details purpose grantId) e db' pc' := by
  cases e with
  | next now =>
    cases h
    exact .finish details purpose grantId now
  | abort message => exact abort_effect h
  | _ => cases h

theorem exchanging_effect {request : CallbackRequest} {loaded : OidcUpstreamInteraction}
    (h : loginAct challenge db (.exchanging request loaded) e = some (db', pc')) :
    LoginEffect challenge db (.exchanging request loaded) e db' pc' := by
  cases e with
  | exchange refusal => exact exchangeCode_effect (Option.some.inj h)
  | abort message => exact abort_effect h
  | _ => cases h

theorem resolving_effect {request : CallbackRequest} {loaded : OidcUpstreamInteraction}
    {claims : OidcUpstreamClaims}
    (h : loginAct challenge db (.resolving request loaded claims) e = some (db', pc')) :
    LoginEffect challenge db (.resolving request loaded claims) e db' pc' := by
  cases e with
  | resolve port =>
    simp only [loginAct] at h
    cases hr : resolveFederatedUser port loaded.tenantId claims with
    | error message =>
      rw [hr] at h
      cases h
      exact .stop _ _ _
    | ok user =>
      rw [hr] at h
      cases h
      exact .resolve request loaded claims port user.id
  | abort message => exact abort_effect h
  | _ => cases h

theorem settingUser_effect {request : CallbackRequest} {loaded : OidcUpstreamInteraction}
    {tenantUserId : String}
    (h : loginAct challenge db (.settingUser request loaded tenantUserId) e = some (db', pc')) :
    LoginEffect challenge db (.settingUser request loaded tenantUserId) e db' pc' := by
  cases e with
  | next now =>
    simp only [loginAct] at h
    rcases readEntity_cases (k := .savingUser request loaded) (setTenantUserIdForInteraction
      db.rows request.state tenantUserId request.browser now) with ⟨response, hr⟩ | ⟨entity, he, hr⟩
    · rw [hr] at h
      cases h
      exact .stop _ _ response
    · rw [hr] at h
      cases h
      exact .setUser request loaded tenantUserId now entity he
  | abort message => exact abort_effect h
  | _ => cases h

theorem savingUser_effect {request : CallbackRequest} {loaded : OidcUpstreamInteraction}
    {entity : OidcUpstreamInteraction}
    (h : loginAct challenge db (.savingUser request loaded entity) e = some (db', pc')) :
    LoginEffect challenge db (.savingUser request loaded entity) e db' pc' := by
  cases e with
  | next now =>
    cases h
    exact .readUser request loaded entity now
  | abort message => exact abort_effect h
  | _ => cases h

theorem writingUser_effect {request : CallbackRequest} {loaded entity : OidcUpstreamInteraction}
    {row : Option OidcUpstreamInteraction}
    (h : loginAct challenge db (.writingUser request loaded entity row) e = some (db', pc')) :
    LoginEffect challenge db (.writingUser request loaded entity row) e db' pc' := by
  cases e with
  | next now =>
    rcases saveEntity_cases (Option.some.inj h) with ⟨rfl, response, rfl⟩ | ⟨rows, hs, rfl, rfl⟩
    · exact .stop _ _ response
    · exact .saveUser request loaded entity row now rows hs
  | abort message => exact abort_effect h
  | _ => cases h

theorem consuming_effect {request : CallbackRequest} {loaded : OidcUpstreamInteraction}
    (h : loginAct challenge db (.consuming request loaded) e = some (db', pc')) :
    LoginEffect challenge db (.consuming request loaded) e db' pc' := by
  cases e with
  | next now =>
    simp only [loginAct] at h
    rcases readEntity_cases (k := .savingConsumed request loaded)
      (consumeInteraction db.rows request.state now) with ⟨response, hr⟩ | ⟨entity, he, hr⟩
    · rw [hr] at h
      cases h
      exact .stop _ _ response
    · rw [hr] at h
      cases h
      exact .consume request loaded now entity he
  | abort message => exact abort_effect h
  | _ => cases h

theorem savingConsumed_effect {request : CallbackRequest} {loaded : OidcUpstreamInteraction}
    {entity : OidcUpstreamInteraction}
    (h : loginAct challenge db (.savingConsumed request loaded entity) e = some (db', pc')) :
    LoginEffect challenge db (.savingConsumed request loaded entity) e db' pc' := by
  cases e with
  | next now =>
    cases h
    exact .readConsumed request loaded entity now
  | abort message => exact abort_effect h
  | _ => cases h

theorem writingConsumed_effect {request : CallbackRequest} {loaded entity : OidcUpstreamInteraction}
    {row : Option OidcUpstreamInteraction}
    (h : loginAct challenge db (.writingConsumed request loaded entity row) e = some (db', pc')) :
    LoginEffect challenge db (.writingConsumed request loaded entity row) e db' pc' := by
  cases e with
  | next now =>
    rcases saveEntity_cases (Option.some.inj h) with ⟨rfl, response, rfl⟩ | ⟨rows, hs, rfl, rfl⟩
    · exact .stop _ _ response
    · exact .saveConsumed request loaded entity row now rows hs _
  | abort message => exact abort_effect h
  | _ => cases h

theorem loginAct_effect (h : loginAct challenge db pc e = some (db', pc')) :
    LoginEffect challenge db pc e db' pc' := by
  cases pc with
  | idle => exact idle_effect h
  | lookingUp details clientId => exact lookingUp_effect h
  | initiating details tenantId => exact initiating_effect h
  | granting details purpose => exact granting_effect h
  | finishing details purpose grantId => exact finishing_effect h
  | exchanging request loaded => exact exchanging_effect h
  | resolving request loaded claims => exact resolving_effect h
  | settingUser request loaded tenantUserId => exact settingUser_effect h
  | savingUser request loaded entity => exact savingUser_effect h
  | writingUser request loaded entity row => exact writingUser_effect h
  | consuming request loaded => exact consuming_effect h
  | savingConsumed request loaded entity => exact savingConsumed_effect h
  | writingConsumed request loaded entity row => exact writingConsumed_effect h
  | done response =>
    cases e with
    | abort message => exact abort_effect h
    | _ => cases h

end VcCommonService.Oidc
