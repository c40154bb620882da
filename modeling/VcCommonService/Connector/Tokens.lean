import VcCommonService.Connector.Registry
import VcCommonService.Lib.JsonText
import VcCommonService.Lib.Rounding
import VcCommonService.Lib.Utf8

/-!
# Traction tokens (`traction-token-manager.service.ts`)

The cache of bearer tokens of one pod, and the rows of the connectors that it fetches them for.
Calls of `getToken` and calls of the connector service take their steps in any order; a fetch is
in flight for as long as it likes. With a token stays the request that brought it, which no code
reads.
-/

namespace VcCommonService.Connectors.Tokens
open Lib
open Registry (ConnectorContext)

/-- What `Date.now()` can return. -/
abbrev Instant := { t : ℤ // |t| ≤ 8640000000000000 }

def expirySafetyMarginMs : ℤ := 30000

/-! ### Requests -/

inductive TokenError where
  | connectorUnavailable (message connectorId : String) (tenantId : TenantId)
  | request (message : String)
  | service (error : ServiceError)
  deriving Repr, DecidableEq

/-- Where the request goes, and what it sends. -/
structure TokenRequest where
  endpointUrl : String
  apiKey : String
  tractionTenantId : String
  deriving Repr, DecidableEq

/-- The untyped bag of a context, out of the decrypted text. -/
def bag (context : ConnectorContext) : Json.Members :=
  match JsonText.parse (Utf8.decode (context.credentials.map UInt8.toNat)) with
  | some (.obj members) => members
  | _ => []

def readCredential (context : ConnectorContext) (name : String) : Except TokenError String :=
  match Json.get (bag context) name with
  | some (.str value) =>
    if value.length = 0 then .error (.connectorUnavailable ("Connector '" ++ context.connectorId ++
      "' is missing its " ++ name ++ " credential") context.connectorId context.tenantId)
    else .ok value
  | _ => .error (.connectorUnavailable ("Connector '" ++ context.connectorId ++
      "' is missing its " ++ name ++ " credential") context.connectorId context.tenantId)

/-- `readCredentials`, with the endpoint of the context. -/
def tokenRequest (context : ConnectorContext) : Except TokenError TokenRequest := do
  let apiKey ← readCredential context "apiKey"
  let tractionTenantId ← readCredential context "tractionTenantId"
  return ⟨context.endpointUrl, apiKey, tractionTenantId⟩

/-! ### Expiry -/

structure CachedToken where
  token : Option Json
  expiresAtMs : Number
  request : TokenRequest
  deriving DecidableEq

section Manager

-- `decodeJwt` of `jose`, without the message of an error
variable (decodeJwt : String → Option Json.Members)

def expOf : Option Json → Option Number
  | some (.str token) =>
    match (decodeJwt token).bind fun payload => Json.get payload "exp" with
    | some (.num exp) => some exp
    | _ => none
  | _ => none

def readExpiry (now : Instant) (token : Option Json) : Number :=
  match expOf decodeJwt token with
  | some exp => exp.mul (.finite 1000)
  | none => .finite now.1

def isUsable (now : Instant) (cached : CachedToken) : Bool :=
  Number.less (.add (.finite now.1) (.finite expirySafetyMarginMs)) cached.expiresAtMs

/-! ### Calls -/

structure Pod where
  now : Instant
  connectors : String → Connectors.World
  cache : String → Option CachedToken

inductive TokenCall where
  | idle
  | validating (context : ConnectorContext) (request : TokenRequest)
  | requesting (context : ConnectorContext) (request : TokenRequest)
  | returned (request : TokenRequest) (token : Option Json) (cached : Bool)
  | failed (error : TokenError)

/-- `safe` and `refused` are the outcomes of `assertSafeConnectorUrl`. -/
inductive TokenEvent where
  | getToken (id : String)
  | safe
  | refused (error : ServiceError)
  | respond (data : Json)
  | fail (message : String)
  | connector (id : String) (label : ℕ × Connectors.Event)
  | tick (ms : ℕ)
  | reset

variable (aes : AesGcm) (keys : Keys)

/-- The context of a connector as it is stored now. -/
def contextOf (pod : Pod) (id : String) : Except ServiceError ConnectorContext := do
  let row := (pod.connectors id).db.row
  let credentials ← openRow aes keys row
  return ⟨id, row.tenantId, row.endpointUrl, credentials⟩

def fetch (context : ConnectorContext) : TokenCall :=
  match tokenRequest context with
  | .ok request => .validating context request
  | .error e => .failed e

def getToken (pod : Pod) (context : ConnectorContext) : TokenCall :=
  match pod.cache context.connectorId with
  | some cached =>
    if isUsable pod.now cached then .returned cached.request cached.token true
    else fetch context
  | none => fetch context

def tokenField : Json → Option Json
  | .obj members => Json.get members "token"
  | _ => none

def Pod.store (pod : Pod) (connectorId : String) (cached : CachedToken) : Pod :=
  { pod with cache := Function.update pod.cache connectorId (some cached) }

def respond (pod : Pod) (context : ConnectorContext) (request : TokenRequest) (data : Json) :
    Pod × TokenCall :=
  if data = .null then (pod, .failed (.service .typeError))
  else
    let token := tokenField data
    (pod.store context.connectorId ⟨token, readExpiry decodeJwt pod.now token, request⟩,
      .returned request token false)

def act (pod : Pod) : TokenCall → TokenEvent → Option (Pod × TokenCall)
  | .idle, .getToken id =>
    match contextOf aes keys pod id with
    | .ok context => some (pod, getToken pod context)
    | .error e => some (pod, .failed (.service e))
  | .validating context request, .safe => some (pod, .requesting context request)
  | .validating _ _, .refused e => some (pod, .failed (.service e))
  | .requesting context request, .respond data => some (respond decodeJwt pod context request data)
  | .requesting _ _, .fail message => some (pod, .failed (.request message))
  | .idle, .connector id label =>
    (Connectors.step aes keys (pod.connectors id) label).map fun w =>
      ({ pod with connectors := Function.update pod.connectors id w }, .idle)
  | .idle, .tick ms =>
    if h : |pod.now.1 + ms| ≤ 8640000000000000 then some ({ pod with now := ⟨_, h⟩ }, .idle)
    else none
  | .idle, .reset => some ({ pod with cache := fun _ => none }, .idle)
  | _, _ => none

abbrev World := Run.World Pod TokenCall

def step : World → ℕ × TokenEvent → Option World := Run.interleave (act decodeJwt aes keys)

end Manager

def start (now : Instant) (stored : String → Connectors.Store) : World :=
  ⟨⟨now, fun id => ⟨stored id, fun _ => .idle⟩, fun _ => none⟩, fun _ => .idle⟩

/-! ### What a token belongs to -/

section Belongs

section Definitions

variable (decodeJwt : String → Option Json.Members) (aes : AesGcm) (keys : Keys)

/-- The request that the stored connector stands for. -/
def config (pod : Pod) (id : String) : Option TokenRequest :=
  match contextOf aes keys pod id with
  | .ok context => (tokenRequest context).toOption
  | .error _ => none

def Fetching (id : String) : TokenCall → Prop
  | .validating context _ => context.connectorId = id
  | .requesting context _ => context.connectorId = id
  | _ => False

/-- More than the margin is left before the claim. -/
def MarginLeft (now : Instant) : Number → Prop
  | .finite exp => ((now.1 + expirySafetyMarginMs : ℤ) : ℚ) < exp * 1000
  | .infinite negative => negative = false
  | .nan => False

abbrev Past := List (World × (ℕ × TokenEvent))

/-- Call `i` began with the context of the connector that it named, as it was stored then. -/
def BeganWith (past : Past) (i : ℕ) (context : ConnectorContext) : Prop :=
  ∃ w id, (w, (i, TokenEvent.getToken id)) ∈ past ∧ contextOf aes keys w.db id = .ok context

/-- A call that returns a token has begun with a context. The token was obtained with its values, and
has time left if it comes from the cache. -/
def Own (s : World × Past) (l : ℕ × TokenEvent) (s' : World × Past) : Prop :=
  ∀ request token cached, s'.1.calls l.1 = .returned request token cached →
    (∃ context, BeganWith aes keys s'.2 l.1 context) ∧
      ∀ context, BeganWith aes keys s'.2 l.1 context → tokenRequest context = .ok request ∧
        (cached = true → ∃ exp, expOf decodeJwt token = some exp ∧ MarginLeft s.1.db.now exp)

/-- The configuration of a connector changes while no token of it is usable and none is fetched. -/
def ChangesUnobserved (w : World) (_ : ℕ × TokenEvent) (w' : World) : Prop :=
  ∀ id, config aes keys w'.db id ≠ config aes keys w.db id →
    (∀ cached, w.db.cache id = some cached → isUsable w.db.now cached = false) ∧
      ∀ i, ¬ Fetching id (w.calls i)

end Definitions

variable {decodeJwt : String → Option Json.Members} {aes : AesGcm} {keys : Keys}

/-! ### Time that is left -/

/-- Where the expiry of an entry comes from: the claim of the token, or the instant it was stored. -/
def Expires (decodeJwt : String → Option Json.Members) (now : Instant) (cached : CachedToken) :
    Prop :=
  (∃ exp, expOf decodeJwt cached.token = some exp ∧ cached.expiresAtMs = exp.mul (.finite 1000)) ∨
    ∃ stored : Instant, stored.1 ≤ now.1 ∧ cached.expiresAtMs = .finite stored.1

theorem expires_readExpiry (now : Instant) (token : Option Json) (request : TokenRequest) :
    Expires decodeJwt now ⟨token, readExpiry decodeJwt now token, request⟩ := by
  unfold readExpiry
  cases hexp : expOf decodeJwt token with
  | some exp => exact Or.inl ⟨exp, hexp, rfl⟩
  | none => exact Or.inr ⟨now, le_refl _, rfl⟩

theorem margin_small (now : Instant) :
    |((now.1 + expirySafetyMarginMs : ℤ) : ℚ)| < 2 ^ 53 := by
  have hbound := abs_le.mp now.2
  have hint : |now.1 + expirySafetyMarginMs| < 2 ^ 53 := by
    rw [abs_lt]
    unfold expirySafetyMarginMs
    omega
  exact_mod_cast hint

/-- `Date.now() + EXPIRY_SAFETY_MARGIN_MS` is exact. -/
theorem now_add_margin (now : Instant) :
    Number.add (.finite now.1) (.finite expirySafetyMarginMs) =
      .finite ((now.1 + expirySafetyMarginMs : ℤ) : ℚ) := by
  have hsmall := margin_small now
  have hsum : (now.1 : ℚ) + (expirySafetyMarginMs : ℤ) = ((now.1 + expirySafetyMarginMs : ℤ) : ℚ) := by
    push_cast
    rfl
  have hfinite : |Number.nearest ((now.1 + expirySafetyMarginMs : ℤ) : ℚ)| < 2 ^ 1024 := by
    rw [Number.nearest_intCast hsmall]
    exact hsmall.trans (pow_lt_pow_right₀ one_lt_two (by decide))
  rw [Number.add, hsum, Number.ofRat, if_pos hfinite, Number.nearest_intCast hsmall]

theorem isUsable_iff (now : Instant) (cached : CachedToken) : isUsable now cached = true ↔
    Number.less (.finite ((now.1 + expirySafetyMarginMs : ℤ) : ℚ)) cached.expiresAtMs = true := by
  rw [isUsable, now_add_margin]

/-- A product above an integer instant is above it before it is rounded. -/
theorem lt_of_less_ofRat {n : ℤ} (hn : |(n : ℚ)| < 2 ^ 53) {q : ℚ}
    (h : Number.less (.finite n) (Number.ofRat q) = true) : (n : ℚ) < q := by
  by_contra hle
  have hnearest := Number.nearest_le hn (not_lt.mp hle)
  unfold Number.ofRat at h
  split at h
  next => exact absurd (of_decide_eq_true h) (not_lt.mpr hnearest)
  next hlarge =>
    have hpos : 0 ≤ q := by
      by_contra hneg
      rw [decide_eq_true (not_le.mp hneg)] at h
      cases h
    refine hlarge ?_
    rw [abs_of_nonneg (Number.nearest_nonneg hpos)]
    calc Number.nearest q ≤ n := hnearest
      _ ≤ |(n : ℚ)| := le_abs_self _
      _ < 2 ^ 53 := hn
      _ < 2 ^ 1024 := pow_lt_pow_right₀ one_lt_two (by decide)

theorem marginLeft_of_usable {now : Instant} {cached : CachedToken}
    (hexpires : Expires decodeJwt now cached) (h : isUsable now cached = true) :
    ∃ exp, expOf decodeJwt cached.token = some exp ∧ MarginLeft now exp := by
  rw [isUsable_iff] at h
  rcases hexpires with ⟨exp, hexp, hms⟩ | ⟨stored, hstored, hms⟩
  · refine ⟨exp, hexp, ?_⟩
    rw [hms] at h
    cases exp with
    | finite q => exact lt_of_less_ofRat (margin_small now) h
    | infinite negative =>
      have hsign : decide ((1000 : ℚ) < 0) = false := by decide
      change (!(negative != decide ((1000 : ℚ) < 0))) = true at h
      rw [hsign] at h
      cases negative with
      | false => rfl
      | true => cases h
    | nan => cases h
  · rw [hms] at h
    have hlt : now.1 + expirySafetyMarginMs < stored.1 := by exact_mod_cast of_decide_eq_true h
    unfold expirySafetyMarginMs at hlt
    omega

theorem isUsable_mono {now now' : Instant} (hnow : now.1 ≤ now'.1) {cached : CachedToken}
    (h : isUsable now' cached = true) : isUsable now cached = true := by
  rw [isUsable_iff] at h ⊢
  have hsum : ((now.1 + expirySafetyMarginMs : ℤ) : ℚ) ≤ ((now'.1 + expirySafetyMarginMs : ℤ) : ℚ) := by
    exact_mod_cast Int.add_le_add_right hnow _
  cases hms : cached.expiresAtMs with
  | finite q =>
    rw [hms] at h
    exact decide_eq_true (hsum.trans_lt (of_decide_eq_true h))
  | infinite negative =>
    rw [hms] at h
    exact h
  | nan =>
    rw [hms] at h
    cases h

/-! ### One step -/

def TokenCall.context : TokenCall → Option ConnectorContext
  | .validating context _ | .requesting context _ => some context
  | .idle | .returned _ _ _ | .failed _ => none

def TokenCall.ended : TokenCall → Bool
  | .returned _ _ _ | .failed _ => true
  | _ => false

def TokenEvent.context (aes : AesGcm) (keys : Keys) (pod : Pod) : TokenEvent → Option ConnectorContext
  | .getToken id => (contextOf aes keys pod id).toOption
  | _ => none

/-- The context of a call that has begun, or of the event that begins it. -/
def contextNow (aes : AesGcm) (keys : Keys) (pod : Pod) (pc : TokenCall) (e : TokenEvent) :
    Option ConnectorContext := pc.context.or (e.context aes keys pod)

/-- What a step of a pod with this context can be. -/
inductive Acts (decodeJwt : String → Option Json.Members) (aes : AesGcm) (keys : Keys) (pod : Pod) :
    Option ConnectorContext → TokenCall → Pod → TokenCall → Prop
  | cached {id : String} {context : ConnectorContext} {cached : CachedToken}
      (hcontext : contextOf aes keys pod id = .ok context) (hcached : pod.cache id = some cached)
      (husable : isUsable pod.now cached = true) :
      Acts decodeJwt aes keys pod (some context) .idle pod
        (.returned cached.request cached.token true)
  | starts {id : String} {context : ConnectorContext} {request : TokenRequest}
      (hcontext : contextOf aes keys pod id = .ok context)
      (hrequest : tokenRequest context = .ok request) :
      Acts decodeJwt aes keys pod (some context) .idle pod (.validating context request)
  | validates (context : ConnectorContext) (request : TokenRequest) :
      Acts decodeJwt aes keys pod (some context) (.validating context request) pod
        (.requesting context request)
  | stores (context : ConnectorContext) (request : TokenRequest) (token : Option Json) :
      Acts decodeJwt aes keys pod (some context) (.requesting context request)
        (pod.store context.connectorId ⟨token, readExpiry decodeJwt pod.now token, request⟩)
        (.returned request token false)
  | fails (now : Option ConnectorContext) (pc : TokenCall) (error : TokenError) :
      Acts decodeJwt aes keys pod now pc pod (.failed error)
  | passes {pod' : Pod} (hnow : pod.now.1 ≤ pod'.now.1)
      (hcache : ∀ id cached, pod'.cache id = some cached → pod.cache id = some cached) :
      Acts decodeJwt aes keys pod none .idle pod' .idle

theorem connectorId_contextOf {pod : Pod} {id : String} {context : ConnectorContext}
    (h : contextOf aes keys pod id = .ok context) : context.connectorId = id := by
  obtain ⟨credentials, -, hcontext⟩ := bind_eq_ok.mp h
  cases hcontext
  rfl

theorem acts_fetch {pod : Pod} {id : String} {context : ConnectorContext}
    (hcontext : contextOf aes keys pod id = .ok context) :
    Acts decodeJwt aes keys pod (some context) .idle pod (fetch context) := by
  unfold fetch
  cases hrequest : tokenRequest context with
  | ok request => exact .starts hcontext hrequest
  | error e => exact .fails _ _ e

theorem acts_getToken {pod : Pod} {id : String} {context : ConnectorContext}
    (hcontext : contextOf aes keys pod id = .ok context) :
    Acts decodeJwt aes keys pod (some context) .idle pod (getToken pod context) := by
  have hid := connectorId_contextOf hcontext
  unfold getToken
  cases hcached : pod.cache context.connectorId with
  | none => exact acts_fetch hcontext
  | some cached =>
    dsimp only
    split
    next husable => exact .cached hcontext (hid ▸ hcached) husable
    next => exact acts_fetch hcontext

theorem acts_respond {pod pod' : Pod} {pc' : TokenCall} {context : ConnectorContext}
    {request : TokenRequest} {data : Json}
    (h : respond decodeJwt pod context request data = (pod', pc')) :
    Acts decodeJwt aes keys pod (some context) (.requesting context request) pod' pc' := by
  unfold respond at h
  split at h
  · cases h
    exact .fails _ _ _
  · cases h
    exact .stores context request _

theorem act_cases {pod pod' : Pod} {pc pc' : TokenCall} {e : TokenEvent}
    (h : act decodeJwt aes keys pod pc e = some (pod', pc')) :
    Acts decodeJwt aes keys pod (contextNow aes keys pod pc e) pc pod' pc' := by
  unfold act at h
  split at h
  next id =>
    cases hcontext : contextOf aes keys pod id with
    | ok context =>
      rw [hcontext] at h
      cases h
      have hnow : contextNow aes keys pod .idle (.getToken id) = some context := by
        simp [contextNow, TokenCall.context, TokenEvent.context, hcontext, Except.toOption]
      rw [hnow]
      exact acts_getToken hcontext
    | error e =>
      rw [hcontext] at h
      cases h
      exact .fails _ _ _
  next context request =>
    cases h
    exact .validates context request
  next =>
    cases h
    exact .fails _ _ _
  next => exact acts_respond (Option.some.inj h)
  next =>
    cases h
    exact .fails _ _ _
  next id label =>
    obtain ⟨w, -, hpod⟩ := Option.map_eq_some_iff.mp h
    cases hpod
    exact .passes (le_refl _) fun _ _ hcached => hcached
  next ms =>
    split at h
    next =>
      cases h
      exact .passes (Int.le_add_of_nonneg_right (Int.natCast_nonneg ms)) fun _ _ hcached => hcached
    next => cases h
  next =>
    cases h
    exact .passes (le_refl _) nofun
  next => cases h

/-! ### What a call began with -/

/-- A call on its way has the one context that it began with. -/
def AboutContext (aes : AesGcm) (keys : Keys) (past : Past) (i : ℕ) (pc : TokenCall) : Prop :=
  pc.ended = true ∨ ∀ context, BeganWith aes keys past i context ↔ pc.context = some context

theorem beganWith_cons_iff {past : Past} {w : World} {l : ℕ × TokenEvent} {i : ℕ}
    {context : ConnectorContext} :
    BeganWith aes keys ((w, l) :: past) i context ↔
      (l.1 = i ∧ l.2.context aes keys w.db = some context) ∨ BeganWith aes keys past i context := by
  have hcontext : ∀ id, (TokenEvent.getToken id).context aes keys w.db = some context ↔
      contextOf aes keys w.db id = .ok context := by
    intro id
    rw [TokenEvent.context]
    cases contextOf aes keys w.db id with
    | ok found => exact ⟨fun h => congrArg Except.ok (Option.some.inj h),
        fun h => congrArg some (Except.ok.inj h)⟩
    | error e => exact ⟨nofun, nofun⟩
  constructor
  · rintro ⟨w', id, hmem, hfound⟩
    rcases List.mem_cons.mp hmem with heq | hmem
    · cases heq
      exact Or.inl ⟨rfl, (hcontext id).mpr hfound⟩
    · exact Or.inr ⟨w', id, hmem, hfound⟩
  · rintro (⟨hi, hnow⟩ | ⟨w', id, hmem, hfound⟩)
    · obtain ⟨j, e⟩ := l
      cases e with
      | getToken id => exact ⟨w, id, hi ▸ List.mem_cons_self .., (hcontext id).mp hnow⟩
      | _ => cases hnow
    · exact ⟨w', id, List.mem_cons_of_mem _ hmem, hfound⟩

/-- A call that has begun does not begin again, and one that has ended takes no step. -/
theorem context_of_begun {pod pod' : Pod} {pc pc' : TokenCall} {e : TokenEvent}
    (h : act decodeJwt aes keys pod pc e = some (pod', pc')) :
    pc.ended = false ∧ (pc = .idle ∨ e.context aes keys pod = none) := by
  unfold act at h
  split at h <;> first | exact ⟨rfl, Or.inl rfl⟩ | exact ⟨rfl, Or.inr rfl⟩ | cases h

theorem began_step_iff {w : World} {pod' : Pod} {pc' : TokenCall} {past : Past}
    {l : ℕ × TokenEvent} (habout : AboutContext aes keys past l.1 (w.calls l.1))
    (h : act decodeJwt aes keys w.db (w.calls l.1) l.2 = some (pod', pc'))
    (context : ConnectorContext) :
    BeganWith aes keys ((w, l) :: past) l.1 context ↔
      contextNow aes keys w.db (w.calls l.1) l.2 = some context := by
  obtain ⟨hended, hbegun⟩ := context_of_begun h
  have hbefore : ∀ c, BeganWith aes keys past l.1 c ↔ (w.calls l.1).context = some c := by
    rcases habout with hended' | habout
    · rw [hended] at hended'
      cases hended'
    · exact habout
  rw [beganWith_cons_iff, hbefore, contextNow]
  rcases hbegun with hidle | hnone
  · simp [hidle, TokenCall.context]
  · simp [hnone]

theorem context_of_acts {pod pod' : Pod} {now : Option ConnectorContext} {pc pc' : TokenCall}
    (h : Acts decodeJwt aes keys pod now pc pod' pc') : pc'.ended = true ∨ pc'.context = now := by
  cases h with
  | cached => exact Or.inl rfl
  | starts => exact Or.inr rfl
  | validates context request => exact Or.inr rfl
  | stores context request token => exact Or.inl rfl
  | fails now pc error => exact Or.inl rfl
  | passes => exact Or.inr rfl

theorem aboutContext_step {w : World} {pod' : Pod} {pc' : TokenCall} {past : Past}
    {l : ℕ × TokenEvent} (habout : ∀ i, AboutContext aes keys past i (w.calls i))
    (h : act decodeJwt aes keys w.db (w.calls l.1) l.2 = some (pod', pc')) (i : ℕ) :
    AboutContext aes keys ((w, l) :: past) i (Function.update w.calls l.1 pc' i) := by
  by_cases hi : i = l.1
  · subst hi
    rw [Function.update_self]
    refine (context_of_acts (act_cases h)).imp id fun hcontext context => ?_
    rw [hcontext]
    exact began_step_iff (habout l.1) h context
  · rw [Function.update_of_ne hi]
    refine (habout i).imp id fun hsame context => ?_
    rw [beganWith_cons_iff, ← hsame context]
    exact ⟨fun h => h.resolve_left fun hl => hi hl.1.symm, Or.inr⟩

/-! ### Runs -/

/-- Usable tokens are those of the stored configuration. -/
structure Current (decodeJwt : String → Option Json.Members) (aes : AesGcm) (keys : Keys)
    (pod : Pod) : Prop where
  expires : ∀ id cached, pod.cache id = some cached → Expires decodeJwt pod.now cached
  usable : ∀ id cached, pod.cache id = some cached → isUsable pod.now cached = true →
    config aes keys pod id = some cached.request

/-- A fetch in flight is that of the stored configuration. -/
def FromCurrent (aes : AesGcm) (keys : Keys) (pod : Pod) : TokenCall → Prop
  | .validating context request => tokenRequest context = .ok request ∧
      config aes keys pod context.connectorId = some request
  | .requesting context request => tokenRequest context = .ok request ∧
      config aes keys pod context.connectorId = some request
  | _ => True

def CallsCurrent (aes : AesGcm) (keys : Keys) (w : World) : Prop :=
  ∀ i, FromCurrent aes keys w.db (w.calls i)

theorem config_of_context {pod : Pod} {id : String} {context : ConnectorContext}
    (hcontext : contextOf aes keys pod id = .ok context) {request : TokenRequest} :
    config aes keys pod id = some request ↔ tokenRequest context = .ok request := by
  rw [config, hcontext]
  dsimp only
  cases hrequest : tokenRequest context with
  | ok request' => exact ⟨fun h => congrArg Except.ok (Option.some.inj h),
      fun h => congrArg some (Except.ok.inj h)⟩
  | error e => exact ⟨nofun, nofun⟩

/-- A change that nothing observes. -/
def Unobserved (aes : AesGcm) (keys : Keys) (pod pod' : Pod) : Prop :=
  ∀ id, config aes keys pod' id ≠ config aes keys pod id →
    ∀ cached, pod.cache id = some cached → isUsable pod.now cached = false

theorem current_passes {pod pod' : Pod} (hpod : Current decodeJwt aes keys pod)
    (hnow : pod.now.1 ≤ pod'.now.1)
    (hcache : ∀ id cached, pod'.cache id = some cached → pod.cache id = some cached)
    (hchange : Unobserved aes keys pod pod') : Current decodeJwt aes keys pod' where
  expires id cached hcached := by
    rcases hpod.expires id cached (hcache id cached hcached) with hexp | ⟨stored, hstored, hms⟩
    · exact Or.inl hexp
    · exact Or.inr ⟨stored, hstored.trans hnow, hms⟩
  usable id cached hcached husable := by
    have hbefore := hcache id cached hcached
    have husable' := isUsable_mono hnow husable
    by_cases hsame : config aes keys pod' id = config aes keys pod id
    · rw [hsame]
      exact hpod.usable id cached hbefore husable'
    · rw [hchange id hsame cached hbefore] at husable'
      cases husable'

theorem current_store {pod : Pod} (hpod : Current decodeJwt aes keys pod) {connectorId : String}
    {cached : CachedToken} (hexpires : Expires decodeJwt pod.now cached)
    (hconfig : config aes keys pod connectorId = some cached.request) :
    Current decodeJwt aes keys (pod.store connectorId cached) := by
  have hentry : ∀ id entry, (pod.store connectorId cached).cache id = some entry →
      (id = connectorId ∧ entry = cached) ∨ pod.cache id = some entry := by
    intro id entry hentry
    change Function.update pod.cache connectorId (some cached) id = some entry at hentry
    by_cases hid : id = connectorId
    · rw [hid, Function.update_self] at hentry
      exact Or.inl ⟨hid, (Option.some.inj hentry).symm⟩
    · rw [Function.update_of_ne hid] at hentry
      exact Or.inr hentry
  constructor
  · intro id entry h
    rcases hentry id entry h with ⟨-, rfl⟩ | hold
    · exact hexpires
    · exact hpod.expires id entry hold
  · intro id entry h husable
    rcases hentry id entry h with ⟨rfl, rfl⟩ | hold
    · exact hconfig
    · exact hpod.usable id entry hold husable

theorem current_acts {pod pod' : Pod} {now : Option ConnectorContext} {pc pc' : TokenCall}
    (hpod : Current decodeJwt aes keys pod) (hpc : FromCurrent aes keys pod pc)
    (h : Acts decodeJwt aes keys pod now pc pod' pc')
    (hchange : Unobserved aes keys pod pod') :
    Current decodeJwt aes keys pod' ∧ FromCurrent aes keys pod' pc' := by
  cases h with
  | cached => exact ⟨hpod, trivial⟩
  | @starts id context request hcontext hrequest =>
    have hid := connectorId_contextOf hcontext
    exact ⟨hpod, hrequest, hid ▸ (config_of_context hcontext).mpr hrequest⟩
  | validates context request => exact ⟨hpod, hpc⟩
  | stores context request token =>
    exact ⟨current_store hpod (expires_readExpiry _ _ _) hpc.2, trivial⟩
  | fails now pc error => exact ⟨hpod, trivial⟩
  | passes hnow hcache => exact ⟨current_passes hpod hnow hcache hchange, trivial⟩

theorem fromCurrent_frame {pod pod' : Pod} {pc : TokenCall} (hpc : FromCurrent aes keys pod pc)
    (h : ∀ id, Fetching id pc → config aes keys pod' id = config aes keys pod id) :
    FromCurrent aes keys pod' pc := by
  cases pc with
  | validating context request => exact ⟨hpc.1, (h _ rfl).trans hpc.2⟩
  | requesting context request => exact ⟨hpc.1, (h _ rfl).trans hpc.2⟩
  | idle => trivial
  | returned request token cached => trivial
  | failed error => trivial

theorem own_acts {pod pod' : Pod} {now : Option ConnectorContext} {pc : TokenCall}
    {request : TokenRequest} {token : Option Json} {cached : Bool}
    (hpod : Current decodeJwt aes keys pod) (hpc : FromCurrent aes keys pod pc)
    (h : Acts decodeJwt aes keys pod now pc pod' (.returned request token cached)) :
    ∃ context, now = some context ∧ tokenRequest context = .ok request ∧
      (cached = true → ∃ exp, expOf decodeJwt token = some exp ∧ MarginLeft pod.now exp) := by
  cases h with
  | cached hcontext hcached husable =>
    refine ⟨_, rfl, (config_of_context hcontext).mp (hpod.usable _ _ hcached husable), fun _ => ?_⟩
    exact marginLeft_of_usable (hpod.expires _ _ hcached) husable
  | stores => exact ⟨_, rfl, hpc.1, nofun⟩

/-- The steps of the pod, with what came before them. -/
abbrev tracedStep (decodeJwt : String → Option Json.Members) (aes : AesGcm) (keys : Keys) :=
  Run.traced (step decodeJwt aes keys)

/-- In every run that changes the configuration of a connector only while none of its tokens is
usable and none is fetched, a returned token is one of the configuration that its call began
with, and one from the cache has more than the margin left. -/
theorem tokens_belong_to_configuration (decodeJwt : String → Option Json.Members) (aes : AesGcm)
    (keys : Keys) (now : Instant) (stored : String → Connectors.Store)
    (events : List (ℕ × TokenEvent))
    (h : Run.All (step decodeJwt aes keys) (ChangesUnobserved aes keys) (start now stored) events) :
    Run.All (tracedStep decodeJwt aes keys) (Own decodeJwt aes keys) (start now stored, [])
      events := by
  refine Run.all_of_invariant
    (fun s => Current decodeJwt aes keys s.1.db ∧ CallsCurrent aes keys s.1 ∧
      ∀ i, AboutContext aes keys s.2 i (s.1.calls i)) ?_ ?_ (Run.all_traced h [])
  · rintro ⟨w, past⟩ l ⟨w', past'⟩ ⟨hpod, hcalls, habout⟩ hs hchange
    obtain ⟨hstep, hpast⟩ := Run.traced_cases hs
    obtain ⟨pod', pc', hact, rfl⟩ := Run.interleave_cases hstep
    subst hpast
    have hacts := act_cases hact
    have hquiet : Unobserved aes keys w.db pod' := fun id hne => (hchange id hne).1
    obtain ⟨hpod', hpc'⟩ := current_acts hpod (hcalls l.1) hacts hquiet
    refine ⟨⟨hpod', fun i => ?_, aboutContext_step habout hact⟩, ?_⟩
    · by_cases hi : i = l.1
      · subst hi
        simpa only [Function.update_self] using hpc'
      · simp only [Function.update_of_ne hi]
        refine fromCurrent_frame (hcalls i) fun id hfetching => ?_
        by_contra hne
        exact (hchange id hne).2 i hfetching
    · intro request token cached hreturned
      have hpc : pc' = .returned request token cached :=
        (Function.update_self l.1 pc' w.calls).symm.trans hreturned
      obtain ⟨context, hnow, hown⟩ := own_acts hpod (hcalls l.1) (hpc ▸ hacts)
      have hbegan := began_step_iff (habout l.1) hact
      refine ⟨⟨context, (hbegan context).mpr hnow⟩, fun other hother => ?_⟩
      have hsame : other = context := Option.some.inj (((hbegan other).mp hother).symm.trans hnow)
      exact hsame ▸ hown
  · refine ⟨⟨nofun, nofun⟩, fun i => trivial, fun i => Or.inr fun context => ?_⟩
    refine iff_of_false ?_ nofun
    rintro ⟨_, _, hmem, -⟩
    cases hmem

/-! ### Steps that change no connector -/

def TokenEvent.isConnector : TokenEvent → Bool
  | .connector _ _ => true
  | _ => false

theorem connectors_act {pod pod' : Pod} {pc pc' : TokenCall} {e : TokenEvent}
    (he : e.isConnector = false) (h : act decodeJwt aes keys pod pc e = some (pod', pc')) :
    pod'.connectors = pod.connectors := by
  unfold act at h
  split at h
  next id =>
    split at h <;> (cases h; rfl)
  next => cases h; rfl
  next => cases h; rfl
  next context request data =>
    have hrespond := Option.some.inj h
    unfold respond at hrespond
    split at hrespond <;> (cases hrespond; rfl)
  next => cases h; rfl
  next id label => cases he
  next ms =>
    split at h
    next => cases h; rfl
    next => cases h
  next => cases h; rfl
  next => cases h

theorem config_congr {pod pod' : Pod} (h : pod'.connectors = pod.connectors) (id : String) :
    config aes keys pod' id = config aes keys pod id := by
  have hcontext : contextOf aes keys pod' id = contextOf aes keys pod id := by
    rw [contextOf, contextOf, h]
  rw [config, config, hcontext]

theorem changesUnobserved_of_enabled {w : World} {events : List (ℕ × TokenEvent)}
    (hevents : ∀ l ∈ events, l.2.isConnector = false)
    (h : Run.Enabled (step decodeJwt aes keys) w events) :
    Run.All (step decodeJwt aes keys) (ChangesUnobserved aes keys) w events := by
  refine Run.all_of_invariant (fun _ => True) ?_ trivial (Run.all_labels hevents h)
  rintro w l w' - hs ⟨-, hlabel⟩
  obtain ⟨pod', pc', hact, rfl⟩ := Run.interleave_cases hs
  refine ⟨trivial, fun id hne => absurd ?_ hne⟩
  exact config_congr (connectors_act hlabel hact) id

/-- The condition is needed: where a usable token is not that of the stored configuration, the next
call for the connector returns it. -/
theorem returns_other_configuration {w : World} {past : Past} {i : ℕ} {id : String}
    {context : ConnectorContext} {cached : CachedToken} (hidle : w.calls i = .idle)
    (hcontext : contextOf aes keys w.db id = .ok context) (hcached : w.db.cache id = some cached)
    (husable : isUsable w.db.now cached = true)
    (hother : config aes keys w.db id ≠ some cached.request) :
    ∃ s', tracedStep decodeJwt aes keys (w, past) (i, .getToken id) = some s' ∧
      ¬ Own decodeJwt aes keys (w, past) (i, .getToken id) s' := by
  have hid := connectorId_contextOf hcontext
  have hget : getToken w.db context = .returned cached.request cached.token true := by
    rw [getToken, hid, hcached]
    exact if_pos husable
  have hact : act decodeJwt aes keys w.db (w.calls i) (.getToken id) =
      some (w.db, .returned cached.request cached.token true) := by
    rw [hidle, ← hget, act, hcontext]
  refine ⟨_, by rw [tracedStep, Run.traced, step, Run.interleave, hact, Option.map_some,
    Option.map_some], fun hown => hother ?_⟩
  have hreturned := hown cached.request cached.token true (Function.update_self ..)
  have hbegan : BeganWith aes keys ((w, (i, TokenEvent.getToken id)) :: past) i context :=
    ⟨w, id, List.mem_cons_self .., hcontext⟩
  exact (config_of_context hcontext).mpr (hreturned.2 context hbegan).1

end Belongs

/-! ### A new key under a cached token -/

def credentialsText (apiKey : String) : Bytes :=
  (Utf8.encode ("\x7b\"apiKey\":\"" ++ apiKey ++ "\",\"tractionTenantId\":\"t1\"\x7d")).map UInt8.ofNat

def tractionRow : ConnectorCredential :=
  { storedRow (credentialsText "k1") with connectorType := .traction }

def storedConnectors (_ : String) : Connectors.Store := ⟨tractionRow, credentialsText "k1"⟩

/-- A token that expires an hour after the epoch. -/
def hourToken : String := "eyJhbGciOiJub25lIn0.eyJleHAiOjM2MDB9.signature"

def decodeHourToken (token : String) : Option Json.Members :=
  if token = hourToken then some [("exp", .num (.finite 3600))] else none

def epoch : Instant := ⟨0, by decide⟩

def fetchToken (i : ℕ) : List (ℕ × TokenEvent) :=
  [(i, .getToken "c"), (i, .safe), (i, .respond (.obj [("token", .str hourToken)]))]

def rotateApiKey : List (ℕ × TokenEvent) :=
  [(9, .connector "c" (0, .update { credentials := .value (credentialsText "k2") } admin 1 zeroIv)),
    (9, .connector "c" (0, .next .healthy zeroIv))]

/-- The step is the whole call, and its token is that of another request than the connector stands
for. -/
def othersToken (i : ℕ) (id : String) (s s' : World × Past) : Bool :=
  match contextOf plainAes noKeys s.1.db id, s'.1.calls i with
  | .ok context, .returned request _ _ => decide ((tokenRequest context).toOption ≠ some request)
  | _, _ => false

theorem idle_update {calls : ℕ → TokenCall} (h : ∀ i, calls i = .idle) (j : ℕ) :
    ∀ i, Function.update calls j .idle i = .idle := by
  intro i
  by_cases hi : i = j
  · rw [hi, Function.update_self]
  · rw [Function.update_of_ne hi, h]

theorem tokens_belong_to_configuration_rotated :
    Run.All (tracedStep decodeHourToken plainAes noKeys) (Own decodeHourToken plainAes noKeys)
      (start epoch storedConnectors, []) (rotateApiKey ++ (fetchToken 0 ++ [(1, .getToken "c")])) := by
  refine tokens_belong_to_configuration decodeHourToken plainAes noKeys epoch storedConnectors _ ?_
  have hunobserved : ∀ {w w' : World} {l : ℕ × TokenEvent}, (∀ id, w.db.cache id = none) →
      (∀ i, w.calls i = .idle) → ChangesUnobserved plainAes noKeys w l w' := by
    intro w w' l hcache hcalls id _
    refine ⟨fun cached hcached => ?_, fun i hfetching => ?_⟩
    · rw [hcache] at hcached
      cases hcached
    · rw [hcalls] at hfetching
      exact hfetching
  have hidle : ∀ i, Function.update (fun _ => TokenCall.idle) 9 .idle i = .idle :=
    idle_update (fun _ => rfl) 9
  refine ⟨_, rfl, hunobserved (fun _ => rfl) (fun _ => rfl), _, rfl,
    hunobserved (fun _ => rfl) hidle, ?_⟩
  exact changesUnobserved_of_enabled (by decide) (Run.enabled_of_final (by decide +kernel))

theorem tokens_not_of_configuration : ¬ ∀ (decodeJwt : String → Option Json.Members) (aes : AesGcm)
    (keys : Keys) (now : Instant) (stored : String → Connectors.Store)
    (events : List (ℕ × TokenEvent)),
    Run.Enabled (step decodeJwt aes keys) (start now stored) events →
      Run.All (tracedStep decodeJwt aes keys) (Own decodeJwt aes keys) (start now stored, [])
        events := by
  intro hall
  have hrun := hall decodeHourToken plainAes noKeys epoch storedConnectors
    (fetchToken 0 ++ rotateApiKey ++ [(1, .getToken "c")])
    (Run.enabled_of_final (by decide +kernel))
  obtain ⟨s, s', hown, hother⟩ := Run.all_last (Run.all_with_step hrun)
    (othersToken 1 "c") (by decide +kernel)
  obtain ⟨hown, hstep⟩ := hown
  have hpast := (Run.traced_cases hstep).2
  unfold othersToken at hother
  split at hother
  next context request token cached hcontext hreturned =>
    have hbegan : BeganWith plainAes noKeys s'.2 1 context :=
      ⟨s.1, "c", hpast ▸ List.mem_cons_self .., hcontext⟩
    have hrequest := ((hown request token cached hreturned).2 context hbegan).1
    rw [hrequest] at hother
    exact of_decide_eq_true hother rfl
  next => cases hother

end VcCommonService.Connectors.Tokens
