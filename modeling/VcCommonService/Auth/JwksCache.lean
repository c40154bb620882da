import Mathlib.Data.Rat.Cast.Order
import Mathlib.Tactic.Linarith
import VcCommonService.Common
import VcCommonService.Lib.Json
import VcCommonService.Lib.Js
import VcCommonService.Lib.Run

/-!
# The cache of signing keys (`jwks-cache.service.ts`, `jwt-validation.service.ts`)

`resolveKey`, `refresh` and `resolveKeyWithRefresh` as calls that share one cache. A fetch takes time:
it gets the document that the provider serves at some instant, and its body arrives later, within
the timeout or not at all. Fetches of several calls can overtake each other. What the provider
has served, and when, is a record that no code reads.
-/

namespace VcCommonService.Jwks
open Lib

structure JwksConfig where
  jwtJwksUri : Option String := none
  issuer : String
  jwtJwksCacheTtlSeconds : Option ℚ := none
  jwtJwksFetchTimeoutMs : Option ℤ := none

def JwksConfig.ttlSeconds (config : JwksConfig) : ℚ := config.jwtJwksCacheTtlSeconds.getD (5 * 60)

def JwksConfig.timeoutMs (config : JwksConfig) : ℤ := config.jwtJwksFetchTimeoutMs.getD 5000

def withoutSlashes (s : String) : String :=
  String.ofList (s.toList.reverse.dropWhile fun c => c = '/').reverse

def getJwksUri (config : JwksConfig) : String :=
  match Js.truthy config.jwtJwksUri with
  | some configured => withoutSlashes configured
  | none => withoutSlashes config.issuer ++ "/jwks"

inductive JwksError where
  | keyNotFound (kid : String)
  | error (message : String)
  | typeError
  deriving Repr, DecidableEq

/-- `body` is missing where the text is no JSON. -/
structure Response where
  status : ℕ
  body : Option Json
  deriving DecidableEq

structure JwksCacheEntry where
  keysByKid : Json.Members
  fetchedAtMs : Time
  deriving DecidableEq

/-! ### Reading a document -/

/-- The keys of a document that is well formed up to there. -/
def keysOf (config : JwksConfig) (response : Response) : Except JwksError (List Json) :=
  let jwksUri := getJwksUri config
  let status := response.status
  if ¬ (200 ≤ status ∧ status < 300) then
    .error (.error s!"JWKS fetch failed with status {status} from {jwksUri}")
  else match response.body with
    | none => .error (.error "Unexpected token in JSON")
    | some .null => .error .typeError
    | some (.obj members) => match Json.get members "keys" with
      | some (.arr keys) => .ok keys
      | _ => .error (.error "JWKS response is missing a keys array")
    | some _ => .error (.error "JWKS response is missing a keys array")

def kidOf : Json → Option String
  | .obj members => match Json.get members "kid" with
    | some (.str keyKid) => if 0 < keyKid.length then some keyKid else none
    | _ => none
  | _ => none

/-- The loop over the keys; the later one of two with a `kid` stays. -/
def indexByKid : List Json → Json.Members → Except JwksError Json.Members
  | [], keysByKid => .ok keysByKid
  | .null :: _, _ => .error .typeError
  | key :: keys, keysByKid => match kidOf key with
    | some kid => indexByKid keys (Json.set keysByKid kid key)
    | none => indexByKid keys keysByKid

def readDocument (config : JwksConfig) (response : Response) : Except JwksError Json.Members := do
  let keys ← keysOf config response
  indexByKid keys []

/-! ### Calls -/

structure Store where
  now : Time
  served : Response
  history : List (Time × Response)
  cache : Option JwksCacheEntry

def isExpired (config : JwksConfig) (db : Store) (fetchedAtMs : Time) : Bool :=
  decide (config.ttlSeconds * 1000 ≤ ((db.now - fetchedAtMs : ℤ) : ℚ))

def getCachedKey (config : JwksConfig) (db : Store) (kid : String) : Option Json :=
  match db.cache with
  | none => none
  | some cache => if isExpired config db cache.fetchedAtMs then none else Json.get cache.keysByKid kid

/-- What a call does after its refresh; `firstTry` is inside the `try` of `resolveKeyWithRefresh`. -/
inductive Waiting where
  | refresh
  | resolveKey (kid : String)
  | firstTry (kid : String)
  | secondTry (kid : String)

inductive Outcome where
  | refreshed
  | key (key : Json)
  | thrown (error : JwksError)
  deriving DecidableEq

inductive Call where
  | idle
  | fetching (startedAt : Time) (waiting : Waiting)
  | reading (startedAt : Time) (response : Response) (waiting : Waiting)
  | settled (result : Except JwksError Unit) (waiting : Waiting)
  | done (outcome : Outcome)

inductive Event where
  | refresh
  | resolveKey (kid : String)
  | resolveKeyWithRefresh (kid : String)
  | respond
  | arrive
  | fail (message : String)
  | next
  | tick (ms : ℕ)
  | serve (response : Response)
  | clearCache

def resolveKey (config : JwksConfig) (db : Store) (kid : String) (waiting : Waiting) : Call :=
  match getCachedKey config db kid with
  | some cached => .done (.key cached)
  | none => .fetching db.now waiting

/-- `resolveKey` after its own refresh. -/
def readAgain (config : JwksConfig) (db : Store) (kid : String) : Call :=
  match getCachedKey config db kid with
  | some refreshed => .done (.key refreshed)
  | none => .done (.thrown (.keyNotFound kid))

def refreshed (config : JwksConfig) (db : Store) : Waiting → Call
  | .refresh => .done .refreshed
  | .resolveKey kid => readAgain config db kid
  | .firstTry kid => readAgain config db kid
  | .secondTry kid => resolveKey config db kid (.resolveKey kid)

/-- A refresh never throws `JwksKeyNotFoundError`, so the `catch` goes on. -/
def rejected (db : Store) (error : JwksError) : Waiting → Call
  | .firstTry kid => .fetching db.now (.secondTry kid)
  | _ => .done (.thrown error)

def arrive (config : JwksConfig) (db : Store) (response : Response) (waiting : Waiting) : Store × Call :=
  match readDocument config response with
  | .error error => (db, .settled (.error error) waiting)
  | .ok keysByKid => ({ db with cache := some ⟨keysByKid, db.now⟩ }, .settled (.ok ()) waiting)

def tick (db : Store) (ms : ℕ) : Store :=
  { db with now := db.now + ms, history := (db.now + ms, db.served) :: db.history }

def serve (db : Store) (response : Response) : Store :=
  { db with served := response, history := (db.now, response) :: db.history }

def act (config : JwksConfig) (db : Store) : Call → Event → Option (Store × Call)
  | .idle, .refresh => some (db, .fetching db.now .refresh)
  | .idle, .resolveKey kid => some (db, resolveKey config db kid (.resolveKey kid))
  | .idle, .resolveKeyWithRefresh kid => some (db, resolveKey config db kid (.firstTry kid))
  | .fetching startedAt waiting, .respond => some (db, .reading startedAt db.served waiting)
  | .fetching _ waiting, .fail message => some (db, .settled (.error (.error message)) waiting)
  | .reading _ _ waiting, .fail message => some (db, .settled (.error (.error message)) waiting)
  | .reading startedAt response waiting, .arrive =>
    if db.now ≤ startedAt + config.timeoutMs then some (arrive config db response waiting) else none
  | .settled (.ok _) waiting, .next => some (db, refreshed config db waiting)
  | .settled (.error error) waiting, .next => some (db, rejected db error waiting)
  | .idle, .tick ms => some (tick db ms, .idle)
  | .idle, .serve response => some (serve db response, .idle)
  | .idle, .clearCache => some ({ db with cache := none }, .idle)
  | _, _ => none

abbrev World := Run.World Store Call

def step (config : JwksConfig) : World → ℕ × Event → Option World := Run.interleave (act config)

def start (now : Time) (served : Response) : World :=
  ⟨⟨now, served, [(now, served)], none⟩, fun _ => .idle⟩

/-! ### What a document gives -/

theorem get_indexByKid {keys : List Json} {keysByKid indexed : Json.Members}
    (h : indexByKid keys keysByKid = .ok indexed) {kid : String} {key : Json}
    (hget : Json.get indexed kid = some key) :
    Json.get keysByKid kid = some key ∨ (key ∈ keys ∧ kidOf key = some kid) := by
  induction keys generalizing keysByKid with
  | nil =>
    obtain rfl := Except.ok.inj h
    exact Or.inl hget
  | cons k keys ih =>
    have hnull : k ≠ .null := by
      rintro rfl
      cases h
    have hcons : indexByKid (k :: keys) keysByKid = match kidOf k with
        | some kid => indexByKid keys (Json.set keysByKid kid k)
        | none => indexByKid keys keysByKid := by
      cases k <;> first | rfl | exact absurd rfl hnull
    rw [hcons] at h
    cases hk : kidOf k with
    | none =>
      rw [hk] at h
      exact (ih h).imp id fun ⟨hmem, hkid⟩ => ⟨List.mem_cons_of_mem _ hmem, hkid⟩
    | some kid' =>
      rw [hk] at h
      rcases ih h with hset | ⟨hmem, hkid⟩
      · rw [Json.get_set] at hset
        split at hset
        next heq =>
          obtain rfl := Option.some.inj hset
          exact Or.inr ⟨List.mem_cons_self .., hk.trans (congrArg some heq.symm)⟩
        next => exact Or.inl hset
      · exact Or.inr ⟨List.mem_cons_of_mem _ hmem, hkid⟩

/-- The key is one of the document's and carries the `kid`. -/
def Contains (config : JwksConfig) (response : Response) (kid : String) (key : Json) : Prop :=
  kidOf key = some kid ∧ ∃ keys, keysOf config response = .ok keys ∧ key ∈ keys

theorem contains_of_readDocument {config : JwksConfig} {response : Response} {keysByKid : Json.Members}
    (h : readDocument config response = .ok keysByKid) {kid : String} {key : Json}
    (hget : Json.get keysByKid kid = some key) : Contains config response kid key := by
  obtain ⟨keys, hkeys, hindex⟩ := bind_eq_ok.mp h
  rcases get_indexByKid hindex hget with hnil | ⟨hmem, hkid⟩
  · cases hnil
  · exact ⟨hkid, keys, hkeys, hmem⟩

/-! ### Invariant -/

/-- The provider served this document at an instant that is not before `since`. -/
def ServedSince (db : Store) (since : ℚ) (response : Response) : Prop :=
  ∃ servedAt, (servedAt, response) ∈ db.history ∧ since ≤ (servedAt : ℚ) ∧ servedAt ≤ db.now

def CacheFresh (config : JwksConfig) (db : Store) : Prop :=
  (db.now, db.served) ∈ db.history ∧
    ∀ cache ∈ db.cache, ∃ response,
      ServedSince db ((cache.fetchedAtMs - config.timeoutMs : ℤ) : ℚ) response ∧
        ∀ kid key, Json.get cache.keysByKid kid = some key → Contains config response kid key

/-- A response is one that was served after its fetch began. -/
def ReadSince (db : Store) : Call → Prop
  | .fetching startedAt _ => startedAt ≤ db.now
  | .reading startedAt response _ => ServedSince db (startedAt : ℚ) response
  | _ => True

/-- The key is one of a document that was served within the time to live and the timeout. -/
def Trusted (config : JwksConfig) (db : Store) (kid : String) (key : Json) : Prop :=
  ∃ response, ServedSince db (db.now - config.ttlSeconds * 1000 - config.timeoutMs) response ∧
    Contains config response kid key

theorem trusted_of_getCachedKey {config : JwksConfig} {db : Store} (h : CacheFresh config db)
    {kid : String} {key : Json} (hget : getCachedKey config db kid = some key) :
    Trusted config db kid key := by
  unfold getCachedKey at hget
  cases hcache : db.cache with
  | none =>
    rw [hcache] at hget
    cases hget
  | some cache =>
    rw [hcache] at hget
    dsimp only at hget
    split at hget
    · cases hget
    · next hlive =>
      obtain ⟨response, ⟨servedAt, hmem, hsince, hnow⟩, hcontains⟩ := h.2 cache hcache
      have hlive : ((db.now - cache.fetchedAtMs : ℤ) : ℚ) < config.ttlSeconds * 1000 :=
        not_le.mp fun hle => hlive (decide_eq_true hle)
      refine ⟨response, ⟨servedAt, hmem, ?_, hnow⟩, hcontains kid key hget⟩
      push_cast at hlive hsince
      linarith

/-! ### Steps -/

def Waiting.kid : Waiting → Option String
  | .refresh => none
  | .resolveKey kid | .firstTry kid | .secondTry kid => some kid

/-- The `kid` that a call is about. -/
def Call.kid : Call → Option String
  | .fetching _ waiting | .reading _ _ waiting | .settled _ waiting => waiting.kid
  | .idle | .done _ => none

def Event.kid : Event → Option String
  | .resolveKey kid | .resolveKeyWithRefresh kid => some kid
  | _ => none

/-- What a call about `kid` does while the store stays as it is. -/
inductive Moved (config : JwksConfig) (db : Store) (kid : Option String) : Call → Call → Prop
  | fetches (pc : Call) (waiting : Waiting) (hkid : waiting.kid = kid) :
      Moved config db kid pc (.fetching db.now waiting)
  | responds (startedAt : Time) (waiting : Waiting) (hkid : waiting.kid = kid) :
      Moved config db kid (.fetching startedAt waiting) (.reading startedAt db.served waiting)
  | fails (pc : Call) (error : JwksError) (waiting : Waiting) (hkid : waiting.kid = kid) :
      Moved config db kid pc (.settled (.error error) waiting)
  | returns (pc : Call) {k : String} {key : Json} (hkid : kid = some k)
      (hget : getCachedKey config db k = some key) : Moved config db kid pc (.done (.key key))
  | refreshes (pc : Call) : Moved config db kid pc (.done .refreshed)
  | throws (pc : Call) (error : JwksError) : Moved config db kid pc (.done (.thrown error))

/-- A document is read in time and put into the cache. -/
inductive Installs (config : JwksConfig) (db : Store) : Call → Store → Call → Prop
  | mk {startedAt : Time} {response : Response} {keysByKid : Json.Members} (waiting : Waiting)
      (hintime : db.now ≤ startedAt + config.timeoutMs)
      (hread : readDocument config response = .ok keysByKid) :
      Installs config db (.reading startedAt response waiting)
        { db with cache := some ⟨keysByKid, db.now⟩ } (.settled (.ok ()) waiting)

/-- What happens beside the calls. -/
inductive Passes (db : Store) : Event → Store → Prop
  | tick (ms : ℕ) : Passes db (.tick ms) (tick db ms)
  | serve (response : Response) : Passes db (.serve response) (serve db response)
  | clear : Passes db .clearCache { db with cache := none }

theorem moved_resolveKey (config : JwksConfig) (db : Store) (pc : Call) {kid : String}
    {waiting : Waiting} (h : waiting.kid = some kid) :
    Moved config db (some kid) pc (resolveKey config db kid waiting) := by
  unfold resolveKey
  cases hget : getCachedKey config db kid with
  | none => exact .fetches pc waiting h
  | some key => exact .returns pc rfl hget

theorem moved_readAgain (config : JwksConfig) (db : Store) (pc : Call) (kid : String) :
    Moved config db (some kid) pc (readAgain config db kid) := by
  unfold readAgain
  cases hget : getCachedKey config db kid with
  | none => exact .throws pc _
  | some key => exact .returns pc rfl hget

theorem moved_refreshed (config : JwksConfig) (db : Store) (pc : Call) (waiting : Waiting) :
    Moved config db waiting.kid pc (refreshed config db waiting) := by
  cases waiting with
  | refresh => exact .refreshes pc
  | resolveKey kid => exact moved_readAgain config db pc kid
  | firstTry kid => exact moved_readAgain config db pc kid
  | secondTry kid => exact moved_resolveKey config db pc rfl

theorem moved_rejected (config : JwksConfig) (db : Store) (pc : Call) (error : JwksError)
    (waiting : Waiting) : Moved config db waiting.kid pc (rejected db error waiting) := by
  cases waiting with
  | firstTry kid => exact .fetches pc _ rfl
  | refresh => exact .throws pc error
  | resolveKey kid => exact .throws pc error
  | secondTry kid => exact .throws pc error

theorem arrive_cases {config : JwksConfig} {db db' : Store} {startedAt : Time} {response : Response}
    {waiting : Waiting} {pc' : Call} (hintime : db.now ≤ startedAt + config.timeoutMs)
    (h : arrive config db response waiting = (db', pc')) :
    (db' = db ∧ Moved config db waiting.kid (.reading startedAt response waiting) pc') ∨
      Installs config db (.reading startedAt response waiting) db' pc' := by
  unfold arrive at h
  cases hread : readDocument config response with
  | error error =>
    rw [hread] at h
    obtain ⟨rfl, rfl⟩ := Prod.mk.inj h
    exact Or.inl ⟨rfl, .fails _ error waiting rfl⟩
  | ok keysByKid =>
    rw [hread] at h
    obtain ⟨rfl, rfl⟩ := Prod.mk.inj h
    exact Or.inr (.mk waiting hintime hread)

/-- The `kid` of a call that has begun, or of the event that begins it. -/
def askedKid (pc : Call) (e : Event) : Option String := pc.kid.or e.kid

theorem act_cases {config : JwksConfig} {db db' : Store} {pc pc' : Call} {e : Event}
    (h : act config db pc e = some (db', pc')) :
    (db' = db ∧ Moved config db (askedKid pc e) pc pc') ∨
      (e = .arrive ∧ Installs config db pc db' pc') ∨
      (pc = .idle ∧ pc' = .idle ∧ Passes db e db') := by
  unfold act at h
  split at h
  case h_7 startedAt response waiting =>
    split at h
    next hintime =>
      rcases arrive_cases hintime (Option.some.inj h) with hmoved | hinstalls
      · rw [← Option.or_none (o := waiting.kid)] at hmoved
        exact Or.inl hmoved
      · exact Or.inr (Or.inl ⟨rfl, hinstalls⟩)
    next => cases h
  case h_13 => cases h
  all_goals obtain ⟨rfl, rfl⟩ := Prod.mk.inj (Option.some.inj h)
  case h_1 => exact Or.inl ⟨rfl, .fetches _ _ rfl⟩
  case h_2 kid => exact Or.inl ⟨rfl, moved_resolveKey config db _ rfl⟩
  case h_3 kid => exact Or.inl ⟨rfl, moved_resolveKey config db _ rfl⟩
  case h_4 startedAt waiting => exact Or.inl ⟨rfl, .responds startedAt waiting Option.or_none.symm⟩
  case h_5 => exact Or.inl ⟨rfl, .fails _ _ _ Option.or_none.symm⟩
  case h_6 => exact Or.inl ⟨rfl, .fails _ _ _ Option.or_none.symm⟩
  case h_8 waiting =>
    have hmoved := moved_refreshed config db (.settled (.ok ()) waiting) waiting
    rw [← Option.or_none (o := waiting.kid)] at hmoved
    exact Or.inl ⟨rfl, hmoved⟩
  case h_9 error waiting =>
    have hmoved := moved_rejected config db (.settled (.error error) waiting) error waiting
    rw [← Option.or_none (o := waiting.kid)] at hmoved
    exact Or.inl ⟨rfl, hmoved⟩
  case h_10 ms => exact Or.inr (Or.inr ⟨rfl, rfl, .tick ms⟩)
  case h_11 response => exact Or.inr (Or.inr ⟨rfl, rfl, .serve response⟩)
  case h_12 => exact Or.inr (Or.inr ⟨rfl, rfl, .clear⟩)

/-! ### What the steps keep -/

theorem ServedSince.mono {db db' : Store} {since : ℚ} {response : Response}
    (h : ServedSince db since response) (hhistory : db.history ⊆ db'.history) (hnow : db.now ≤ db'.now) :
    ServedSince db' since response := by
  obtain ⟨servedAt, hmem, hsince, hle⟩ := h
  exact ⟨servedAt, hhistory hmem, hsince, hle.trans hnow⟩

theorem readSince_mono {db db' : Store} {pc : Call} (h : ReadSince db pc)
    (hhistory : db.history ⊆ db'.history) (hnow : db.now ≤ db'.now) : ReadSince db' pc := by
  cases pc with
  | fetching startedAt waiting => exact h.trans hnow
  | reading startedAt response waiting => exact h.mono hhistory hnow
  | idle => trivial
  | settled result waiting => trivial
  | done outcome => trivial

theorem readSince_moved {config : JwksConfig} {db : Store} {pc pc' : Call}
    {kid : Option String} (hcache : CacheFresh config db) (hpc : ReadSince db pc)
    (h : Moved config db kid pc pc') : ReadSince db pc' := by
  cases h with
  | fetches waiting => exact le_refl db.now
  | responds startedAt waiting =>
    have hstarted : startedAt ≤ db.now := hpc
    exact ⟨db.now, hcache.1, by exact_mod_cast hstarted, le_refl db.now⟩
  | fails error waiting => trivial
  | returns hget => trivial
  | refreshes => trivial
  | throws error => trivial

theorem cacheFresh_installs {config : JwksConfig} {db db' : Store} {pc pc' : Call}
    (hcache : CacheFresh config db) (hpc : ReadSince db pc) (h : Installs config db pc db' pc') :
    CacheFresh config db' := by
  cases h with
  | @mk startedAt response keysByKid waiting hintime hread =>
    refine ⟨hcache.1, fun cache hmem => ?_⟩
    obtain rfl := Option.some.inj hmem
    obtain ⟨servedAt, hserved, hsince, hnow⟩ := hpc
    have hstarted : startedAt ≤ servedAt := by exact_mod_cast hsince
    refine ⟨response, ⟨servedAt, hserved, ?_, hnow⟩, fun kid key => contains_of_readDocument hread⟩
    exact_mod_cast (sub_le_iff_le_add.mpr hintime).trans hstarted

theorem history_passes {db db' : Store} {e : Event} (h : Passes db e db') :
    db.history ⊆ db'.history ∧ db.now ≤ db'.now := by
  cases h with
  | tick ms => exact ⟨List.subset_cons_self .., Int.le_add_of_nonneg_right (Int.natCast_nonneg ms)⟩
  | serve response => exact ⟨List.subset_cons_self .., le_refl db.now⟩
  | clear => exact ⟨List.Subset.refl _, le_refl db.now⟩

theorem cacheFresh_passes {config : JwksConfig} {db db' : Store} {e : Event}
    (hcache : CacheFresh config db) (h : Passes db e db') : CacheFresh config db' := by
  obtain ⟨hhistory, hnow⟩ := history_passes h
  have hkept : ∀ cache ∈ db.cache, ∃ response,
      ServedSince db' ((cache.fetchedAtMs - config.timeoutMs : ℤ) : ℚ) response ∧
        ∀ kid key, Json.get cache.keysByKid kid = some key → Contains config response kid key := by
    intro cache hmem
    obtain ⟨response, hserved, hcontains⟩ := hcache.2 cache hmem
    exact ⟨response, hserved.mono hhistory hnow, hcontains⟩
  cases h with
  | tick ms => exact ⟨List.mem_cons_self .., hkept⟩
  | serve response => exact ⟨List.mem_cons_self .., hkept⟩
  | clear => exact ⟨hcache.1, nofun⟩

theorem act_keeps {config : JwksConfig} {db db' : Store} {pc pc' : Call} {e : Event}
    (hcache : CacheFresh config db) (hpc : ReadSince db pc)
    (h : act config db pc e = some (db', pc')) :
    CacheFresh config db' ∧ ReadSince db' pc' ∧ db.history ⊆ db'.history ∧ db.now ≤ db'.now := by
  rcases act_cases h with ⟨rfl, hmoved⟩ | ⟨-, hinstalls⟩ | ⟨-, rfl, hpasses⟩
  · exact ⟨hcache, readSince_moved hcache hpc hmoved, List.Subset.refl _, le_refl _⟩
  · refine ⟨cacheFresh_installs hcache hpc hinstalls, ?_, ?_, ?_⟩ <;> cases hinstalls
    · trivial
    · exact List.Subset.refl _
    · exact le_refl db.now
  · exact ⟨cacheFresh_passes hcache hpasses, trivial, history_passes hpasses⟩

/-! ### What a call was asked for -/

abbrev Past := List (World × (ℕ × Event))

/-- In the past of a run, call `i` was asked for the key of `kid`. -/
def Asks (past : Past) (i : ℕ) (kid : String) : Prop :=
  (i, .resolveKey kid) ∈ past.map Prod.snd ∨ (i, .resolveKeyWithRefresh kid) ∈ past.map Prod.snd

theorem asks_cons_iff {past : Past} {w : World} {l : ℕ × Event} {i : ℕ} {kid : String} :
    Asks ((w, l) :: past) i kid ↔ (l.1 = i ∧ l.2.kid = some kid) ∨ Asks past i kid := by
  obtain ⟨j, e⟩ := l
  have hlabel : (j = i ∧ e.kid = some kid) ↔
      (i, Event.resolveKey kid) = (j, e) ∨ (i, Event.resolveKeyWithRefresh kid) = (j, e) := by
    cases e <;> simp [Event.kid, eq_comm]
  simp only [Asks, List.map_cons, List.mem_cons]
  rw [hlabel]
  tauto

/-- A call on its way is about the one `kid` that it was asked for. -/
def AboutAsked (past : Past) (i : ℕ) (pc : Call) : Prop :=
  (∃ outcome, pc = .done outcome) ∨ ∀ kid, Asks past i kid ↔ pc.kid = some kid

theorem kid_of_moved {config : JwksConfig} {db : Store} {pc pc' : Call} {kid : Option String}
    (h : Moved config db kid pc pc') : (∃ outcome, pc' = .done outcome) ∨ pc'.kid = kid := by
  cases h with
  | fetches _ waiting hkid => exact Or.inr hkid
  | responds startedAt waiting hkid => exact Or.inr hkid
  | fails _ error waiting hkid => exact Or.inr hkid
  | returns _ hkid hget => exact Or.inl ⟨_, rfl⟩
  | refreshes => exact Or.inl ⟨_, rfl⟩
  | throws _ error => exact Or.inl ⟨_, rfl⟩

theorem kid_of_act {config : JwksConfig} {db db' : Store} {pc pc' : Call} {e : Event}
    (h : act config db pc e = some (db', pc')) :
    (∃ outcome, pc' = .done outcome) ∨ pc'.kid = askedKid pc e := by
  rcases act_cases h with ⟨-, hmoved⟩ | ⟨rfl, hinstalls⟩ | ⟨rfl, rfl, hpasses⟩
  · exact kid_of_moved hmoved
  · cases hinstalls with
    | mk waiting hintime hread => exact Or.inr Option.or_none.symm
  · cases hpasses <;> exact Or.inr rfl

/-- A call that has begun is not asked again. -/
theorem kid_of_begun {config : JwksConfig} {db db' : Store} {pc pc' : Call} {e : Event}
    (h : act config db pc e = some (db', pc')) : pc = .idle ∨ e.kid = none := by
  unfold act at h
  split at h <;> first | exact Or.inl rfl | exact Or.inr rfl | cases h

/-- The `kid` of a step is the one that its call was asked for, now or before. -/
theorem asks_step_iff {config : JwksConfig} {db db' : Store} {pc pc' : Call}
    {past : Past} {w : World} {i : ℕ} {e : Event} (habout : AboutAsked past i pc)
    (h : act config db pc e = some (db', pc')) (kid : String) :
    Asks ((w, (i, e)) :: past) i kid ↔ askedKid pc e = some kid := by
  have hbefore : ∀ k, Asks past i k ↔ pc.kid = some k := by
    rcases habout with ⟨outcome, rfl⟩ | habout
    · cases e <;> cases h
    · exact habout
  rw [asks_cons_iff, hbefore, askedKid]
  rcases kid_of_begun h with rfl | hnone
  · simp [Call.kid]
  · simp [hnone]

theorem aboutAsked_step {config : JwksConfig} {w : World} {db' : Store} {pc' : Call}
    {past : Past} {l : ℕ × Event} (habout : ∀ i, AboutAsked past i (w.calls i))
    (h : act config w.db (w.calls l.1) l.2 = some (db', pc')) (i : ℕ) :
    AboutAsked ((w, l) :: past) i (Function.update w.calls l.1 pc' i) := by
  by_cases hi : i = l.1
  · subst hi
    rw [Function.update_self]
    rcases kid_of_act h with hdone | hkid
    · exact Or.inl hdone
    · refine Or.inr fun kid => ?_
      rw [hkid]
      exact asks_step_iff (habout l.1) h kid
  · rw [Function.update_of_ne hi]
    refine (habout i).imp id fun hkid kid => ?_
    rw [asks_cons_iff, ← hkid kid]
    exact ⟨fun h => h.resolve_left fun hl => hi hl.1.symm, Or.inr⟩

/-! ### Runs -/

/-- The steps of the cache, with the events before them. -/
abbrev tracedStep (config : JwksConfig) := Run.traced (step config)

/-- A call that returns a key was asked for one, and for each `kid` that it was asked for the key is
trusted. Nothing but a document that was read, or `clearCache`, changes the cache. -/
def Sound (config : JwksConfig) (s : World × Past) (l : ℕ × Event) (s' : World × Past) : Prop :=
  (∀ key, s'.1.calls l.1 = .done (.key key) → (∃ kid, Asks s'.2 l.1 kid) ∧
    ∀ kid, Asks s'.2 l.1 kid → Trusted config s'.1.db kid key) ∧
    (s'.1.db.cache = s.1.db.cache ∨ l.2 = .clearCache ∨
      (l.2 = .arrive ∧ ∃ startedAt response waiting keysByKid,
        s.1.calls l.1 = .reading startedAt response waiting ∧
          readDocument config response = .ok keysByKid ∧
            s'.1.db.cache = some ⟨keysByKid, s.1.db.now⟩))

theorem act_sound {config : JwksConfig} {db db' : Store} {pc pc' : Call} {e : Event}
    (hcache : CacheFresh config db) (h : act config db pc e = some (db', pc')) :
    (∀ key, pc' = .done (.key key) →
      ∃ kid, askedKid pc e = some kid ∧ Trusted config db' kid key) ∧
      (db'.cache = db.cache ∨ e = .clearCache ∨
        (e = .arrive ∧ ∃ startedAt response waiting keysByKid,
          pc = .reading startedAt response waiting ∧ readDocument config response = .ok keysByKid ∧
            db'.cache = some ⟨keysByKid, db.now⟩)) := by
  rcases act_cases h with ⟨rfl, hmoved⟩ | ⟨rfl, hinstalls⟩ | ⟨-, rfl, hpasses⟩
  · refine ⟨?_, Or.inl rfl⟩
    rintro key rfl
    cases hmoved with
    | returns _ hkid hget => exact ⟨_, hkid, trusted_of_getCachedKey hcache hget⟩
  · cases hinstalls with
    | @mk startedAt response keysByKid waiting hintime hread =>
      exact ⟨nofun, Or.inr (Or.inr ⟨rfl, startedAt, response, waiting, keysByKid, rfl, hread, rfl⟩)⟩
  · refine ⟨nofun, ?_⟩
    cases hpasses with
    | tick ms => exact Or.inl rfl
    | serve response => exact Or.inl rfl
    | clear => exact Or.inr (Or.inl rfl)

theorem holds_step {config : JwksConfig} {w w' : World} {l : ℕ × Event}
    (hw : Run.Holds (CacheFresh config) ReadSince w) (hs : step config w l = some w') :
    Run.Holds (CacheFresh config) ReadSince w' := by
  refine Run.holds_interleave (C := fun _ _ _ => True) ?_ ?_ hw hs trivial
  · intro db pc e db' pc' hcache hpc hact _
    obtain ⟨hcache', hpc', -⟩ := act_keeps hcache hpc hact
    exact ⟨hcache', hpc'⟩
  · intro db pc e db' pc' other hcache hpc hother hact _
    obtain ⟨-, -, hhistory, hnow⟩ := act_keeps hcache hpc hact
    exact readSince_mono hother hhistory hnow

/-- In every run, whatever the fetches and the provider do, a key that is returned carries the `kid`
that its call was asked for and was in a document served no longer ago than the time to live and
the timeout, and a fetch that fails or is malformed leaves the cache as it was. -/
theorem returned_keys_trusted (config : JwksConfig) (now : Time) (served : Response)
    (events : List (ℕ × Event)) (h : Run.Enabled (step config) (start now served) events) :
    Run.All (tracedStep config) (Sound config) (start now served, []) events := by
  refine Run.all_of_invariant
    (fun s => Run.Holds (CacheFresh config) ReadSince s.1 ∧ ∀ i, AboutAsked s.2 i (s.1.calls i))
    ?_ ?_ (Run.all_traced h [])
  · rintro ⟨w, past⟩ l ⟨w', past'⟩ ⟨hw, habout⟩ hs _
    obtain ⟨hstep, hpast⟩ := Run.traced_cases hs
    obtain ⟨db', pc', hact, rfl⟩ := Run.interleave_cases hstep
    subst hpast
    refine ⟨⟨holds_step hw hstep, aboutAsked_step habout hact⟩, ?_⟩
    obtain ⟨htrusted, hkept⟩ := act_sound hw.1 hact
    refine ⟨fun key hdone => ?_, hkept⟩
    have hpc' : pc' = .done (.key key) := (Function.update_self l.1 pc' w.calls).symm.trans hdone
    obtain ⟨kid, hkid, hkey⟩ := htrusted key hpc'
    have hasked := asks_step_iff (w := w) (habout l.1) hact
    refine ⟨⟨kid, (hasked kid).mpr hkid⟩, fun k hk => ?_⟩
    have hsame : k = kid := Option.some.inj (((hasked k).mp hk).symm.trans hkid)
    exact hsame ▸ hkey
  · refine ⟨⟨⟨List.mem_singleton_self _, nofun⟩, fun _ => trivial⟩, fun i => Or.inr fun kid => ?_⟩
    exact iff_of_false (by simp [Asks]) nofun

/-! ### A key that is taken out of the document -/

def rotatingConfig : JwksConfig := { issuer := "https://issuer.example/oidc" }

def documentOf (kids : List String) : Response :=
  { status := 200, body := some (.obj [("keys", .arr (kids.map fun kid => .obj [("kid", .str kid)]))]) }

/-- A key is fetched, taken out of the document, and still in the cache a second later. -/
def retiredKeyRun : List (ℕ × Event) :=
  [(0, .resolveKey "k1"), (0, .respond), (1, .serve (documentOf ["k2"])), (0, .arrive), (0, .next),
    (1, .tick 1000), (2, .resolveKeyWithRefresh "k1")]

theorem returned_keys_trusted_retired :
    Run.All (tracedStep rotatingConfig) (Sound rotatingConfig) (start 0 (documentOf ["k1"]), [])
      retiredKeyRun :=
  returned_keys_trusted rotatingConfig 0 (documentOf ["k1"]) retiredKeyRun
    (Run.enabled_of_final (by decide +kernel))

end VcCommonService.Jwks
