import VcCommonService.OAuthClient.Service
import VcCommonService.Oidc.Grant
import VcCommonService.Oidc.UpstreamInteraction

/-!
# Federated login (`OidcInteractionController`)

The two requests of a login as sequences of statements: `GET /oidc/interaction/:uid`,
for which `oidc-provider` demands the cookie of the interaction, and `GET /oidc/callback`,
which is found by its state alone. The other parties are events of the same run: the
provider opens an interaction for a browser, and the upstream provider issues a code to
whichever browser visits an authorization URL. Nothing keeps a browser from requesting a
URL that another browser was sent to.
-/

namespace VcCommonService.Oidc
open Lib Auth TenantUsers OAuthClients

/-! ### The other parties -/

inductive Prompt where
  | login
  | consent
  | other (name : String)
  deriving Repr, DecidableEq

/-- What `provider.interactionDetails` returns to the browser with the cookie. -/
structure InteractionDetails where
  uid : String
  browser : Browser
  prompt : Prompt
  promptDetails : PromptDetails
  clientId : Option String
  accountId : Option String
  deriving Repr, DecidableEq

structure AuthorizationUrl where
  state : String
  nonce : String
  codeChallenge : String
  deriving Repr, DecidableEq

structure OidcUpstreamClaims where
  sub : String
  email : Option String
  name : Option String
  deriving Repr, DecidableEq

structure UpstreamCode where
  code : String
  nonce : String
  codeChallenge : String
  claims : OidcUpstreamClaims
  deriving Repr, DecidableEq

inductive InteractionResult where
  | login (accountId : Option String) (grantId : String)
  | consent (grantId : String)
  deriving Repr, DecidableEq

/-- A call of `provider.interactionFinished`, with the browser that stored the account. -/
structure Finished where
  details : InteractionDetails
  result : InteractionResult
  storedBy : Option Browser
  deriving Repr, DecidableEq

/-- `interactions`, `codes` and `grants` belong to the providers; `issued` and `drawnIds` are the
states and the row ids drawn so far, each with its interaction, and `finished` the finished
interactions. -/
structure LoginStore where
  rows : List OidcUpstreamInteraction := []
  interactions : List InteractionDetails := []
  codes : List UpstreamCode := []
  grants : List (String × Grant) := []
  issued : List (String × String) := []
  drawnIds : List (String × String) := []
  finished : List Finished := []

def interactionDetails (db : LoginStore) (browser : Browser) (uid : String) :
    Option InteractionDetails :=
  db.interactions.find? fun d => decide (d.uid = uid ∧ d.browser = browser)

/-! ### Requests -/

structure CallbackQuery where
  browser : Browser
  code : Option String
  state : Option String
  error : Option String := none
  errorDescription : Option String := none
  host : Option String := some "localhost:3000"
  deriving Repr, DecidableEq

structure CallbackRequest where
  browser : Browser
  code : String
  state : String
  deriving Repr, DecidableEq

inductive Response where
  | redirect (url : AuthorizationUrl)
  | redirectToInteraction (uid : String)
  | text (statusCode : ℕ) (body : String)
  | finished
  | thrown (message : String)
  deriving Repr, DecidableEq

/-- The grant that an interaction waits for: after a login at the upstream provider, with
the row that was read, or for the account of the session. -/
inductive GrantFor where
  | login (loaded : OidcUpstreamInteraction)
  | consent (accountId : String)
  deriving Repr, DecidableEq

def GrantFor.accountId : GrantFor → Option String
  | .login loaded => loaded.tenantUserId
  | .consent accountId => some accountId

def GrantFor.result (grantId : String) : GrantFor → InteractionResult
  | .login loaded => .login loaded.tenantUserId grantId
  | .consent _ => .consent grantId

def GrantFor.storedBy : GrantFor → Option Browser
  | .login loaded => loaded.storedBy
  | .consent _ => none

/-- Where a request stands; a callback passes through the states from `exchanging` on.
`loaded` is the row that its first statement read, `entity` the one it is about to save, and
`row` what the save has read under the id of the entity. -/
inductive LoginCall where
  | idle
  | lookingUp (details : InteractionDetails) (clientId : String)
  | initiating (details : InteractionDetails) (tenantId : TenantId)
  | granting (details : InteractionDetails) (purpose : GrantFor)
  | finishing (details : InteractionDetails) (purpose : GrantFor) (grantId : String)
  | exchanging (request : CallbackRequest) (loaded : OidcUpstreamInteraction)
  | resolving (request : CallbackRequest) (loaded : OidcUpstreamInteraction)
      (claims : OidcUpstreamClaims)
  | settingUser (request : CallbackRequest) (loaded : OidcUpstreamInteraction)
      (tenantUserId : String)
  | savingUser (request : CallbackRequest) (loaded entity : OidcUpstreamInteraction)
  | writingUser (request : CallbackRequest) (loaded entity : OidcUpstreamInteraction)
      (row : Option OidcUpstreamInteraction)
  | consuming (request : CallbackRequest) (loaded : OidcUpstreamInteraction)
  | savingConsumed (request : CallbackRequest) (loaded entity : OidcUpstreamInteraction)
  | writingConsumed (request : CallbackRequest) (loaded entity : OidcUpstreamInteraction)
      (row : Option OidcUpstreamInteraction)
  | done (response : Response)

structure OidcCreateTenantUserInput where
  tenantId : TenantId
  externalUserId : String
  email : String
  displayName : String
  role : TenantRole
  status : TenantUserStatus
  deriving Repr, DecidableEq

structure OidcTenantUserPort where
  findActiveByExternalUserId : String → List TenantUser
  findByTenantAndExternalUserId : TenantId → String → Option TenantUser
  claimInvitedByEmail : TenantId → String → String → Option TenantUser
  create : OidcCreateTenantUserInput → TenantUser

/-- The first two are requests; the next three are the other parties; the rest moves a
request on. -/
inductive LoginEvent where
  | interaction (browser : Browser) (uid : String)
  | callback (query : CallbackQuery) (now : Time)
  | authorize (details : InteractionDetails)
  | upstreamLogin (browser : Browser) (url : AuthorizationUrl) (code : String)
      (claims : OidcUpstreamClaims)
  | purge (limit : ℕ) (now : Time)
  | findActiveClient (client : Option OAuthClient)
  | initiate (draw : Draw) (now : Time)
  | grant (findById : Option String → Option TenantUser)
      (findScopesForRole : TenantRole → TenantId → List String) (grantId : String)
  | exchange (refusal : String)
  | resolve (port : OidcTenantUserPort)
  | next (now : Time)
  | abort (message : String)

/-! ### `GET /oidc/interaction/:uid` -/

def startUpstreamLogin (details : InteractionDetails) : LoginCall :=
  match Js.truthy details.accountId, details.clientId with
  | some accountId, _ =>
    .done (.thrown ("Attempted upstream login despite existing accountId " ++ accountId))
  | none, none => .done (.thrown "Missing client_id in interaction params")
  | none, some clientId => .lookingUp details clientId

/-- The request up to its first wait: the cookie, the prompt and the row of the login. -/
def beginInteraction (db : LoginStore) (browser : Browser) (uid : String) : LoginCall :=
  match interactionDetails db browser uid with
  | none => .done (.thrown "invalid_request")
  | some details =>
    match details.prompt with
    | .login =>
      match findByInteractionUid db.rows details.uid with
      | none => startUpstreamLogin details
      | some loaded =>
        -- a callback has been here: the user it stored is logged in
        if loaded.consumedAt.isSome then .granting details (.login loaded)
        else startUpstreamLogin details
    | .consent =>
      match Js.truthy details.accountId with
      | none => .done (.thrown "No authenticated session")
      | some accountId => .granting details (.consent accountId)
    | .other name =>
      .done (.thrown ("Unsupported oidc-provider interaction prompt: " ++ name))

def afterClientLookup (details : InteractionDetails) (clientId : String) :
    Option OAuthClient → LoginCall
  | none => .done (.thrown ("OAuth client not found: " ++ clientId))
  | some client => .initiating details client.tenantId

def initiateUpstreamLogin (calculatePKCECodeChallenge : String → String) (db : LoginStore)
    (interactionUid : String) (tenantId : TenantId) (draw : Draw) (now : Time) :
    LoginStore × LoginCall :=
  match storeInteraction db.rows draw interactionUid tenantId now with
  | .error message => (db, .done (.thrown message))
  | .ok rows =>
    ({ db with
        rows
        issued := (draw.state, interactionUid) :: db.issued
        drawnIds := (draw.id, interactionUid) :: db.drawnIds },
      .done (.redirect
        ⟨draw.state, draw.nonce, calculatePKCECodeChallenge draw.codeVerifier⟩))

def escapeHtml (s : String) : String :=
  String.join (s.toList.map fun c =>
    if c = '"' then "&quot;" else if c = '&' then "&amp;" else if c.toNat = 39 then "&#39;"
    else if c = '<' then "&lt;" else if c = '>' then "&gt;" else c.toString)

def grantFailed : GrantError → Response
  | .unauthorizedOidcScopeRequest role deniedScopes =>
    .text 403 ("Insufficient role for requested scopes: " ++
      escapeHtml (GrantError.unauthorizedOidcScopeRequest role deniedScopes).message)
  | .userNotActive accountId => .thrown (GrantError.userNotActive accountId).message

def saveGrant (db : LoginStore) (details : InteractionDetails) (purpose : GrantFor)
    (findById : Option String → Option TenantUser)
    (findScopesForRole : TenantRole → TenantId → List String) (grantId : String) :
    LoginStore × LoginCall :=
  match createAndSaveGrant findById findScopesForRole details.clientId purpose.accountId
    details.promptDetails with
  | .error e => (db, .done (grantFailed e))
  | .ok grant =>
    ({ db with grants := (grantId, grant) :: db.grants }, .finishing details purpose grantId)

def interactionFinished (db : LoginStore) (details : InteractionDetails) (purpose : GrantFor)
    (grantId : String) : LoginStore × LoginCall :=
  ({ db with finished := ⟨details, purpose.result grantId, purpose.storedBy⟩ :: db.finished },
    .done .finished)

/-! ### `GET /oidc/callback` -/

def callbackFailed (message : String) : LoginCall :=
  .done (.text 400 ("Error processing callback: " ++ escapeHtml message))

def beginCallback (db : LoginStore) (query : CallbackQuery) (now : Time) : LoginCall :=
  match Js.truthy query.error with
  | some error =>
    .done (.text 400 ("Upstream OIDC error: " ++ escapeHtml error ++ "\n" ++
      escapeHtml (query.errorDescription.getD "")))
  | none =>
    match Js.truthy query.code, Js.truthy query.state with
    | some code, some state =>
      match Js.truthy query.host with
      | none => callbackFailed "Missing Host header"
      | some _ =>
        match validateInteraction db.rows state now with
        | .error message => callbackFailed message
        | .ok loaded => .exchanging ⟨query.browser, code, state⟩ loaded
    | _, _ => .done (.text 400 "Missing code or state in upstream callback")

/-- The token request. The state is compared with the state of the row that it selected. -/
def authorizationCodeGrant (calculatePKCECodeChallenge : String → String)
    (codes : List UpstreamCode) (request : CallbackRequest) (loaded : OidcUpstreamInteraction) :
    Option OidcUpstreamClaims :=
  match codes.find? fun c => decide (c.code = request.code) with
  | none => none
  | some c =>
    if request.state = loaded.state ∧
        c.codeChallenge = calculatePKCECodeChallenge loaded.codeVerifier ∧
        c.nonce = loaded.nonce then
      some c.claims
    else none

def exchangeCode (calculatePKCECodeChallenge : String → String) (db : LoginStore)
    (request : CallbackRequest) (loaded : OidcUpstreamInteraction) (refusal : String) :
    LoginStore × LoginCall :=
  match authorizationCodeGrant calculatePKCECodeChallenge db.codes request loaded with
  | none => (db, callbackFailed refusal)
  | some claims =>
    ({ db with codes := Table.deleteWhere (fun c => decide (c.code = request.code)) db.codes },
      .resolving request loaded claims)

def resolveFederatedUser (port : OidcTenantUserPort) (tenantId : TenantId)
    (claims : OidcUpstreamClaims) : Except String TenantUser :=
  match (port.findActiveByExternalUserId claims.sub).head? with
  | some user => .ok user
  | none =>
    match (Js.truthy claims.email).bind fun email =>
        port.claimInvitedByEmail tenantId email claims.sub with
    | some user => .ok user
    | none =>
      match port.findByTenantAndExternalUserId tenantId claims.sub with
      | some user =>
        if user.status ≠ .active then .error "Federated user is not active" else .ok user
      | none => .ok (port.create
          { tenantId, externalUserId := claims.sub, email := claims.email.getD ""
            displayName := (claims.name.orElse fun _ => claims.email).getD claims.sub
            role := .readonly, status := .active })

def afterResolution (request : CallbackRequest) (loaded : OidcUpstreamInteraction) :
    Except String TenantUser → LoginCall
  | .error message => callbackFailed message
  | .ok user => .settingUser request loaded user.id

def findSaved (db : LoginStore) (entity : OidcUpstreamInteraction) :
    Option OidcUpstreamInteraction :=
  Table.lookup OidcUpstreamInteraction.id entity.id db.rows

def saveEntity (db : LoginStore) (entity : OidcUpstreamInteraction)
    (row : Option OidcUpstreamInteraction) (k : LoginCall) : LoginStore × LoginCall :=
  match saveInteraction db.rows entity row with
  | .error message => (db, callbackFailed message)
  | .ok rows => ({ db with rows }, k)

def readEntity (k : OidcUpstreamInteraction → LoginCall) :
    Except String OidcUpstreamInteraction → LoginCall
  | .error message => callbackFailed message
  | .ok entity => k entity

/-! ### Steps -/

/-- An exception inside the callback is answered with 400; elsewhere it is thrown on. -/
def aborted (message : String) : LoginCall → Option LoginCall
  | .idle | .done _ => none
  | .lookingUp _ _ | .initiating _ _ | .granting _ _ | .finishing _ _ _ =>
    some (.done (.thrown message))
  | _ => some (callbackFailed message)

variable (calculatePKCECodeChallenge : String → String)

/-- One statement of one request, or one step of another party. What is drawn at random
has not been drawn before. -/
def loginAct (db : LoginStore) : LoginCall → LoginEvent → Option (LoginStore × LoginCall)
  | .idle, .interaction browser uid => some (db, beginInteraction db browser uid)
  | .idle, .callback query now => some (db, beginCallback db query now)
  | .idle, .authorize details =>
    if db.interactions.any fun d => decide (d.uid = details.uid) then none
    else some ({ db with interactions := details :: db.interactions }, .idle)
  -- any browser may visit any URL; the code is for the user of the browser that did
  | .idle, .upstreamLogin _ url code claims =>
    if db.codes.any fun c => decide (c.code = code) then none
    else some ({ db with codes := ⟨code, url.nonce, url.codeChallenge, claims⟩ :: db.codes }, .idle)
  | .idle, .purge limit now =>
    some ({ db with rows := purgeExpiredUpstreamInteractionsBatch db.rows limit now }, .idle)
  | .lookingUp details clientId, .findActiveClient client =>
    some (db, afterClientLookup details clientId client)
  | .initiating details tenantId, .initiate draw now =>
    if (db.issued.any fun i => decide (i.1 = draw.state)) ||
        db.drawnIds.any fun i => decide (i.1 = draw.id) then none
    else some (initiateUpstreamLogin calculatePKCECodeChallenge db details.uid tenantId draw now)
  | .granting details purpose, .grant findById findScopesForRole grantId =>
    some (saveGrant db details purpose findById findScopesForRole grantId)
  | .finishing details purpose grantId, .next _ =>
    some (interactionFinished db details purpose grantId)
  | .exchanging request loaded, .exchange refusal =>
    some (exchangeCode calculatePKCECodeChallenge db request loaded refusal)
  | .resolving request loaded claims, .resolve port =>
    some (db, afterResolution request loaded (resolveFederatedUser port loaded.tenantId claims))
  -- both updates of a callback read the row again by its state and save what they read
  | .settingUser request loaded tenantUserId, .next now =>
    some (db, readEntity (.savingUser request loaded)
      (setTenantUserIdForInteraction db.rows request.state tenantUserId request.browser now))
  | .savingUser request loaded entity, .next _ =>
    some (db, .writingUser request loaded entity (findSaved db entity))
  | .writingUser request loaded entity row, .next _ =>
    some (saveEntity db entity row (.consuming request loaded))
  | .consuming request loaded, .next now =>
    some (db, readEntity (.savingConsumed request loaded)
      (consumeInteraction db.rows request.state now))
  | .savingConsumed request loaded entity, .next _ =>
    some (db, .writingConsumed request loaded entity (findSaved db entity))
  | .writingConsumed _ loaded entity row, .next _ =>
    some (saveEntity db entity row (.done (.redirectToInteraction loaded.interactionUid)))
  | pc, .abort message => (aborted message pc).map fun pc' => (db, pc')
  | _, _ => none

abbrev LoginWorld := Run.World LoginStore LoginCall

def loginStep : LoginWorld → ℕ × LoginEvent → Option LoginWorld :=
  Run.interleave (loginAct calculatePKCECodeChallenge)

end VcCommonService.Oidc
