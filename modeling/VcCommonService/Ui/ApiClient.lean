import VcCommonService.Lib.Js
import VcCommonService.Lib.Run

/-!
# Unauthorized requests (`api/client.ts`)

A request that is answered with 401 waits for the refresh in flight, or starts one, and is sent once
more if a token comes of it. Of a flight, the call of `refresh` and the two continuations behind it
are steps of their own, so other requests can come in between; each continuation of a promise runs
at any time after the promise has settled.
-/

namespace VcCommonService.Ui.Api
open Lib

/-! ### Requests and flights -/

/-- The configuration of a request: the header and the flag that the interceptors set. -/
structure RetriableConfig where
  authorization : Option String := none
  retried : Bool := false
  deriving Repr, DecidableEq

/-- `mergeConfig` of the library puts the defaults under a configuration and keeps the properties
that it does not know. -/
structure Axios where
  mergeConfig : RetriableConfig → RetriableConfig
  retried_mergeConfig : ∀ config, (mergeConfig config).retried = config.retried

/-- What the response interceptor reads of an error. -/
structure Failure where
  isAxiosError : Bool
  status : Option ℕ
  hasConfig : Bool
  deriving Repr, DecidableEq

/-- `error.config` of a request that was sent with `config`. -/
def Failure.config (error : Failure) (config : RetriableConfig) : Option RetriableConfig :=
  if error.hasConfig then some config else none

inductive Response where
  | fulfilled
  | rejected (error : Failure)
  deriving Repr, DecidableEq

/-- What the promise of `refresh` settles with. -/
inductive RefreshOutcome where
  | resolved (token : Option String)
  | rejected
  deriving Repr, DecidableEq

/-- `.catch(() => null)`. -/
def RefreshOutcome.caught : RefreshOutcome → Option String
  | .resolved token => token
  | .rejected => none

/-- A flight: `refresh` is pending, has settled, `.then` has run, `.finally` has run. -/
inductive Flight where
  | refreshing
  | refreshed (token : Option String)
  | checked (token : Option String)
  | cleared (token : Option String)
  deriving Repr, DecidableEq

/-- A settled request has the response with which its promise settles, an error normalized. -/
inductive Stage where
  | idle
  | requested (config : RetriableConfig)
  | sent (config : RetriableConfig)
  | waiting (config : RetriableConfig) (error : Failure) (flight : ℕ)
  | settled (response : Response)
  deriving Repr, DecidableEq

/-- `sends` and `waitedFor` are history: how often the request was sent, and the flight it awaited. -/
structure Request where
  stage : Stage := .idle
  sends : ℕ := 0
  waitedFor : Option ℕ := none
  deriving Repr, DecidableEq

/-- Who called `onAuthFailure`. -/
inductive Caller where
  | flight (f : ℕ)
  | request (i : ℕ)
  deriving Repr, DecidableEq

/-- The module; `authFailures` is history. -/
structure ApiClient where
  authHandlers : Bool
  refreshInFlight : Option ℕ
  flights : List Flight
  requests : List Request
  authFailures : List Caller
  deriving Repr, DecidableEq

def ApiClient.setRequest (s : ApiClient) (i : ℕ) (r : Request) : ApiClient :=
  { s with requests := s.requests.set i r }

def ApiClient.setFlight (s : ApiClient) (f : ℕ) (flight : Flight) : ApiClient :=
  { s with flights := s.flights.set f flight }

def ApiClient.onAuthFailure (s : ApiClient) (caller : Caller) : ApiClient :=
  { s with authFailures := caller :: s.authFailures }

/-! ### Interceptors -/

/-- `accessToken` is what `getAccessToken` returns. -/
def requestInterceptor (s : ApiClient) (accessToken : Option String) (config : RetriableConfig) :
    RetriableConfig :=
  match if s.authHandlers then Js.truthy accessToken else none with
  | some token => { config with authorization := some ("Bearer " ++ token) }
  | none => config

/-- The rejection handler up to `await refreshInFlight`. -/
def unauthorized (s : ApiClient) (i : ℕ) (r : Request) (config : RetriableConfig) (error : Failure) :
    ApiClient :=
  if !error.isAxiosError || decide (error.status ≠ some 401) || !s.authHandlers then
    s.setRequest i { r with stage := .settled (.rejected error) }
  else
    match error.config config with
    | none =>
      (s.onAuthFailure (.request i)).setRequest i { r with stage := .settled (.rejected error) }
    | some config =>
      if config.retried then
        (s.onAuthFailure (.request i)).setRequest i { r with stage := .settled (.rejected error) }
      else
        match s.refreshInFlight with
        | some f =>
          s.setRequest i { r with stage := .waiting config error f, waitedFor := some f }
        | none =>
          let f := s.flights.length
          { s with refreshInFlight := some f, flights := s.flights ++ [Flight.refreshing] }.setRequest i
            { r with stage := .waiting config error f, waitedFor := some f }

def responseInterceptor (s : ApiClient) (i : ℕ) (r : Request) (config : RetriableConfig) :
    Response → ApiClient
  | .fulfilled => s.setRequest i { r with stage := .settled .fulfilled }
  | .rejected error => unauthorized s i r config error

/-- The rejection handler after `await refreshInFlight`. -/
def retry (axios : Axios) (s : ApiClient) (i : ℕ) (r : Request) (config : RetriableConfig)
    (error : Failure) (token : Option String) : ApiClient :=
  match Js.truthy token with
  | none => s.setRequest i { r with stage := .settled (.rejected error) }
  | some _ =>
    s.setRequest i { r with stage := .requested (axios.mergeConfig { config with retried := true }) }

/-- `.then` of a flight. -/
def checkToken (s : ApiClient) (f : ℕ) (token : Option String) : ApiClient :=
  if (Js.truthy token).isNone && s.authHandlers then
    (s.onAuthFailure (.flight f)).setFlight f (.checked token)
  else s.setFlight f (.checked token)

/-! ### Steps -/

inductive Label where
  | setAuthHandlers (handlers : Bool)
  | request (i : ℕ)
  | send (i : ℕ) (accessToken : Option String)
  | respond (i : ℕ) (response : Response)
  | settleRefresh (f : ℕ) (outcome : RefreshOutcome)
  | checkToken (f : ℕ)
  | clear (f : ℕ)
  | resume (i : ℕ)
  deriving Repr, DecidableEq

def step (axios : Axios) (s : ApiClient) : Label → Option ApiClient
  | .setAuthHandlers handlers => some { s with authHandlers := handlers }
  | .request i => do
    let r ← s.requests[i]?
    match r.stage with
    | .idle => some (s.setRequest i { r with stage := .requested (axios.mergeConfig {}) })
    | _ => none
  | .send i accessToken => do
    let r ← s.requests[i]?
    match r.stage with
    | .requested config =>
      some (s.setRequest i
        { r with stage := .sent (requestInterceptor s accessToken config), sends := r.sends + 1 })
    | _ => none
  | .respond i response => do
    let r ← s.requests[i]?
    match r.stage with
    | .sent config => some (responseInterceptor s i r config response)
    | _ => none
  | .settleRefresh f outcome =>
    match s.flights[f]? with
    | some .refreshing => some (s.setFlight f (.refreshed outcome.caught))
    | _ => none
  | .checkToken f =>
    match s.flights[f]? with
    | some (.refreshed token) => some (checkToken s f token)
    | _ => none
  | .clear f =>
    match s.flights[f]? with
    | some (.checked token) =>
      some ({ s with refreshInFlight := none }.setFlight f (.cleared token))
    | _ => none
  | .resume i => do
    let r ← s.requests[i]?
    match r.stage with
    | .waiting config error f =>
      match s.flights[f]? with
      | some (.cleared token) => some (retry axios s i r config error token)
      | _ => none
    | _ => none

/-- `n` requests that are still to be made. -/
def start (n : ℕ) : ApiClient := ⟨true, none, [], List.replicate n {}, []⟩

/-! ### What the runs keep -/

/-- What happens by itself once it can. -/
def Label.isContinuation : Label → Bool
  | .send _ _ | .checkToken _ | .clear _ | .resume _ => true
  | .setAuthHandlers _ | .request _ | .respond _ _ | .settleRefresh _ _ => false

def Label.isSetAuthHandlers : Label → Bool
  | .setAuthHandlers _ => true
  | _ => false

/-- All responses and refreshes have settled, and their continuations have run. -/
structure Quiet (axios : Axios) (s : ApiClient) : Prop where
  responses : ∀ r ∈ s.requests, ∀ config, r.stage ≠ .sent config
  refreshes : ∀ flight ∈ s.flights, flight ≠ .refreshing
  continuations : ∀ l, l.isContinuation = true → step axios s l = none

/-- The promise of the request has not settled. -/
def Stage.isPending : Stage → Bool
  | .requested _ | .sent _ | .waiting _ _ _ => true
  | .idle | .settled _ => false

def Flight.isOpen : Flight → Bool
  | .refreshing | .refreshed _ | .checked _ => true
  | .cleared _ => false

structure ApiClient.Settled (s : ApiClient) : Prop where
  requests : ∀ r ∈ s.requests, r.stage.isPending = false
  flights : ∀ flight ∈ s.flights, flight.isOpen = false

/-- The refresh of flight `f` resolved to a token, and the flight is over. -/
def Succeeded (flights : List Flight) (f : ℕ) : Prop :=
  ∃ token, flights[f]? = some (.cleared (some token)) ∧ token ≠ ""

/-- The flight has come to its `.then` without a token. -/
def Flight.failed : Flight → Bool
  | .checked token | .cleared token => (Js.truthy token).isNone
  | .refreshing | .refreshed _ => false

def ApiClient.failed (s : ApiClient) (f : ℕ) : Bool := (s.flights[f]?).any Flight.failed

structure SingleFlight (axios : Axios) (s : ApiClient) (l : Label) (s' : ApiClient) : Prop where
  atMostOne : ∀ f g : ℕ, s'.flights[f]? = some .refreshing → s'.flights[g]? = some .refreshing →
    f = g
  sentTwice : ∀ r ∈ s'.requests, r.sends ≤ 2
  resent : ∀ i token r, l = .send i token → s.requests[i]? = some r → r.sends ≠ 0 →
    ∃ f, r.waitedFor = some f ∧ Succeeded s.flights f
  settles : Quiet axios s' ↔ s'.Settled

/-- Each failed flight has called `onAuthFailure` once, no other has. -/
def FailuresTold (s : ApiClient) : Prop :=
  ∀ f, s.authFailures.count (.flight f) = if s.failed f then 1 else 0

/-! ### What a step does -/

/-- The steps by case; `authFailures` is the list of calls after a step that can add one. -/
inductive Move (axios : Axios) (s : ApiClient) : Label → ApiClient → Prop where
  | setAuthHandlers (handlers : Bool) :
      Move axios s (.setAuthHandlers handlers) { s with authHandlers := handlers }
  | request (i : ℕ) (r : Request) (hr : s.requests[i]? = some r) (hstage : r.stage = .idle) :
      Move axios s (.request i)
        (s.setRequest i { r with stage := .requested (axios.mergeConfig {}) })
  | send (i : ℕ) (r : Request) (config config' : RetriableConfig) (accessToken : Option String)
      (hr : s.requests[i]? = some r) (hstage : r.stage = .requested config)
      (hretried : config'.retried = config.retried) :
      Move axios s (.send i accessToken)
        (s.setRequest i { r with stage := .sent config', sends := r.sends + 1 })
  | settle (i : ℕ) (r : Request) (config : RetriableConfig) (response : Response)
      (authFailures : List Caller) (hr : s.requests[i]? = some r) (hstage : r.stage = .sent config)
      (htold : ∀ f, authFailures.count (.flight f) = s.authFailures.count (.flight f)) :
      Move axios s (.respond i response)
        ({ s with authFailures := authFailures }.setRequest i { r with stage := .settled response })
  | join (i f : ℕ) (r : Request) (config : RetriableConfig) (error : Failure)
      (hr : s.requests[i]? = some r) (hstage : r.stage = .sent config)
      (hretried : config.retried = false) (hflight : s.refreshInFlight = some f) :
      Move axios s (.respond i (.rejected error))
        (s.setRequest i { r with stage := .waiting config error f, waitedFor := some f })
  | lead (i : ℕ) (r : Request) (config : RetriableConfig) (error : Failure)
      (hr : s.requests[i]? = some r) (hstage : r.stage = .sent config)
      (hretried : config.retried = false) (hflight : s.refreshInFlight = none) :
      Move axios s (.respond i (.rejected error))
        ({ s with
            refreshInFlight := some s.flights.length
            flights := s.flights ++ [Flight.refreshing] }.setRequest i
          { r with stage := .waiting config error s.flights.length
                   waitedFor := some s.flights.length })
  | settleRefresh (f : ℕ) (outcome : RefreshOutcome)
      (hflight : s.flights[f]? = some .refreshing) :
      Move axios s (.settleRefresh f outcome) (s.setFlight f (.refreshed outcome.caught))
  | checkToken (f : ℕ) (token : Option String) (authFailures : List Caller)
      (hflight : s.flights[f]? = some (.refreshed token))
      (htold : s.authHandlers = true → authFailures =
        if (Js.truthy token).isNone then .flight f :: s.authFailures else s.authFailures) :
      Move axios s (.checkToken f)
        ({ s with authFailures := authFailures }.setFlight f (.checked token))
  | clear (f : ℕ) (token : Option String) (hflight : s.flights[f]? = some (.checked token)) :
      Move axios s (.clear f) ({ s with refreshInFlight := none }.setFlight f (.cleared token))
  | giveUp (i f : ℕ) (r : Request) (config : RetriableConfig) (error : Failure)
      (hr : s.requests[i]? = some r) (hstage : r.stage = .waiting config error f) :
      Move axios s (.resume i) (s.setRequest i { r with stage := .settled (.rejected error) })
  | retry (i f : ℕ) (r : Request) (config config' : RetriableConfig) (error : Failure)
      (token : String) (hr : s.requests[i]? = some r) (hstage : r.stage = .waiting config error f)
      (hflight : s.flights[f]? = some (.cleared (some token))) (htoken : token ≠ "")
      (hretried : config'.retried = true) :
      Move axios s (.resume i) (s.setRequest i { r with stage := .requested config' })

variable {axios : Axios} {s s' : ApiClient} {l : Label}

theorem requestInterceptor_retried (s : ApiClient) (accessToken : Option String)
    (config : RetriableConfig) :
    (requestInterceptor s accessToken config).retried = config.retried := by
  unfold requestInterceptor
  split <;> rfl

theorem move_respond {i : ℕ} {r : Request} {config : RetriableConfig} {response : Response}
    (hr : s.requests[i]? = some r) (hstage : r.stage = .sent config) :
    Move axios s (.respond i response) (responseInterceptor s i r config response) := by
  have hcount : ∀ f, (s.onAuthFailure (.request i)).authFailures.count (.flight f) =
      s.authFailures.count (.flight f) := by
    intro f
    have hne : Caller.request i ≠ .flight f := nofun
    exact List.count_cons_of_ne hne
  cases response with
  | fulfilled => exact .settle i r config .fulfilled s.authFailures hr hstage fun _ => rfl
  | rejected error =>
    simp only [responseInterceptor, unauthorized]
    split
    · exact .settle i r config _ s.authFailures hr hstage fun _ => rfl
    · split
      · exact .settle i r config _ _ hr hstage hcount
      next config' hconfig =>
        have hsame : config' = config := by
          unfold Failure.config at hconfig
          split at hconfig
          · exact (Option.some.inj hconfig).symm
          · cases hconfig
        subst hsame
        split
        · exact .settle i r _ _ _ hr hstage hcount
        next hretried =>
          have hretried := Bool.eq_false_of_not_eq_true hretried
          split
          next f hflight => exact .join i f r _ error hr hstage hretried hflight
          next hflight => exact .lead i r _ error hr hstage hretried hflight

theorem move_resume {i f : ℕ} {r : Request} {config : RetriableConfig} {error : Failure}
    {token : Option String} (hr : s.requests[i]? = some r)
    (hstage : r.stage = .waiting config error f)
    (hflight : s.flights[f]? = some (.cleared token)) :
    Move axios s (.resume i) (retry axios s i r config error token) := by
  unfold retry
  split
  · exact .giveUp i f r config error hr hstage
  next token' htoken =>
    obtain ⟨rfl, hne⟩ := Js.truthy_eq_some htoken
    exact .retry i f r config _ error token' hr hstage hflight hne (axios.retried_mergeConfig _)

theorem move_checkToken {f : ℕ} {token : Option String}
    (hflight : s.flights[f]? = some (.refreshed token)) :
    Move axios s (.checkToken f) (checkToken s f token) := by
  unfold checkToken
  split
  next h =>
    rw [Bool.and_eq_true] at h
    exact .checkToken f token _ hflight fun _ => (if_pos h.1).symm
  next h =>
    refine .checkToken f token s.authFailures hflight fun hhandlers => (if_neg ?_).symm
    rw [hhandlers, Bool.and_true] at h
    exact h

theorem move_of_step (h : step axios s l = some s') : Move axios s l s' := by
  cases l with
  | setAuthHandlers handlers =>
    cases h
    exact .setAuthHandlers handlers
  | request i =>
    obtain ⟨r, hr, h⟩ := Option.bind_eq_some_iff.mp h
    split at h
    next hstage =>
      cases h
      exact .request i r hr hstage
    · cases h
  | send i accessToken =>
    obtain ⟨r, hr, h⟩ := Option.bind_eq_some_iff.mp h
    split at h
    next config hstage =>
      cases h
      exact .send i r config _ accessToken hr hstage (requestInterceptor_retried ..)
    · cases h
  | respond i response =>
    obtain ⟨r, hr, h⟩ := Option.bind_eq_some_iff.mp h
    split at h
    next config hstage =>
      cases h
      exact move_respond hr hstage
    · cases h
  | settleRefresh f outcome =>
    simp only [step] at h
    split at h
    next hflight =>
      cases h
      exact .settleRefresh f outcome hflight
    · cases h
  | checkToken f =>
    simp only [step] at h
    split at h
    next token hflight =>
      cases h
      exact move_checkToken hflight
    · cases h
  | clear f =>
    simp only [step] at h
    split at h
    next token hflight =>
      cases h
      exact .clear f token hflight
    · cases h
  | resume i =>
    obtain ⟨r, hr, h⟩ := Option.bind_eq_some_iff.mp h
    split at h
    next config error f hstage =>
      split at h
      next token hflight =>
        cases h
        exact move_resume hr hstage hflight
      · cases h
    · cases h

/-! ### Invariant -/

def Request.Ok (flights : List Flight) (r : Request) : Prop :=
  match r.stage with
  | .idle => r.sends = 0
  | .requested config =>
    if config.retried then
      r.sends = 1 ∧ ∃ f, r.waitedFor = some f ∧ Succeeded flights f
    else r.sends = 0
  | .sent config => r.sends = if config.retried then 2 else 1
  | .waiting _ _ f => r.sends = 1 ∧ f < flights.length ∧ r.waitedFor = some f
  | .settled _ => r.sends ≤ 2

/-- Only the flight in `refreshInFlight` is not over. -/
structure Consistent (s : ApiClient) : Prop where
  inFlight : ∀ (f : ℕ) (flight : Flight), s.flights[f]? = some flight → flight.isOpen = true →
    s.refreshInFlight = some f
  known : ∀ f, s.refreshInFlight = some f → f < s.flights.length
  requests : ∀ r ∈ s.requests, r.Ok s.flights

theorem consistent_start (n : ℕ) : Consistent (start n) where
  inFlight _ _ h := nomatch h
  known _ h := nomatch h
  requests r hr := by
    rw [List.eq_of_mem_replicate hr]
    rfl

/-- There are more flights, and those that were over still are. -/
structure Grows (flights flights' : List Flight) : Prop where
  length : flights.length ≤ flights'.length
  cleared : ∀ (f : ℕ) (token : Option String), flights[f]? = some (.cleared token) →
    flights'[f]? = some (.cleared token)

theorem Grows.refl (flights : List Flight) : Grows flights flights := ⟨le_rfl, fun _ _ h => h⟩

theorem grows_append (flights : List Flight) (flight : Flight) :
    Grows flights (flights ++ [flight]) := by
  constructor
  · rw [List.length_append]
    exact Nat.le_add_right _ _
  · intro f token h
    obtain ⟨hlt, -⟩ := List.getElem?_eq_some_iff.mp h
    rw [List.getElem?_append_left hlt, h]

theorem grows_set {flights : List Flight} {f : ℕ} {flight : Flight} (flight' : Flight)
    (h : flights[f]? = some flight) (hopen : flight.isOpen = true) :
    Grows flights (flights.set f flight') := by
  constructor
  · rw [List.length_set]
  · intro g token hg
    have hne : f ≠ g := by
      rintro rfl
      cases h.symm.trans hg
      cases hopen
    rw [List.getElem?_set_ne hne, hg]

theorem Move.grows (h : Move axios s l s') : Grows s.flights s'.flights := by
  cases h with
  | lead => exact grows_append _ _
  | settleRefresh f outcome hflight => exact grows_set _ hflight rfl
  | checkToken f token _ hflight => exact grows_set _ hflight rfl
  | clear f token hflight => exact grows_set _ hflight rfl
  | _ => exact Grows.refl _

theorem Succeeded.mono {flights flights' : List Flight} {f : ℕ} (hgrows : Grows flights flights')
    (h : Succeeded flights f) : Succeeded flights' f := by
  obtain ⟨token, hf, hne⟩ := h
  exact ⟨token, hgrows.cleared f _ hf, hne⟩

theorem Request.Ok.mono {flights flights' : List Flight} {r : Request}
    (hgrows : Grows flights flights') (h : r.Ok flights) : r.Ok flights' := by
  unfold Request.Ok at h ⊢
  cases hstage : r.stage with
  | requested config =>
    rw [hstage] at h
    cases hretried : config.retried with
    | false =>
      simp only [hretried] at h ⊢
      exact h
    | true =>
      simp only [hretried] at h ⊢
      obtain ⟨hsends, f, hf, hsucceeded⟩ := h
      exact ⟨hsends, f, hf, hsucceeded.mono hgrows⟩
  | waiting config error f =>
    rw [hstage] at h
    obtain ⟨hsends, hlt, hf⟩ := h
    exact ⟨hsends, hlt.trans_le hgrows.length, hf⟩
  | _ =>
    rw [hstage] at h
    exact h

theorem Consistent.ok (hs : Consistent s) {i : ℕ} {r : Request} (hr : s.requests[i]? = some r) :
    r.Ok s.flights := hs.requests r (List.mem_of_getElem? hr)

theorem Consistent.sends_le (hs : Consistent s) {r : Request} (hr : r ∈ s.requests) :
    r.sends ≤ 2 := by
  have hok := hs.requests r hr
  unfold Request.Ok at hok
  split at hok
  · omega
  · split at hok <;> omega
  · split at hok <;> omega
  · omega
  · exact hok

theorem Consistent.set (hs : Consistent s) {flights' : List Flight} (i : ℕ) {r' : Request}
    (hgrows : Grows s.flights flights') (hr' : r'.Ok flights') :
    ∀ r ∈ s.requests.set i r', r.Ok flights' := by
  intro r hr
  rcases List.mem_or_eq_of_mem_set hr with hold | rfl
  · exact (hs.requests r hold).mono hgrows
  · exact hr'

theorem Move.requests_ok (hs : Consistent s) (h : Move axios s l s') :
    ∀ r ∈ s'.requests, r.Ok s'.flights := by
  have hgrows := h.grows
  cases h with
  | request i r hr hstage =>
    have hok := hs.ok hr
    refine hs.set i hgrows ?_
    simp only [Request.Ok, hstage] at hok
    simp [Request.Ok, axios.retried_mergeConfig, hok]
  | send i r config config' _ hr hstage hretried =>
    have hok := hs.ok hr
    refine hs.set i hgrows ?_
    simp only [Request.Ok, hstage] at hok
    simp only [Request.Ok, hretried]
    split at hok
    next hretried => rw [if_pos hretried, hok.1]
    next hretried => rw [if_neg hretried, hok]
  | settle i r config response _ hr hstage _ =>
    have hle := hs.sends_le (List.mem_of_getElem? hr)
    exact hs.set i hgrows hle
  | join i f r config error hr hstage hretried hflight =>
    have hok := hs.ok hr
    refine hs.set i hgrows ?_
    simp only [Request.Ok, hstage, hretried] at hok
    exact ⟨hok, hs.known f hflight, rfl⟩
  | lead i r config error hr hstage hretried hflight =>
    have hok := hs.ok hr
    refine hs.set i hgrows ?_
    simp only [Request.Ok, hstage, hretried] at hok
    refine ⟨hok, ?_, rfl⟩
    rw [ApiClient.setRequest, List.length_append]
    exact Nat.lt_succ_self _
  | giveUp i f r config error hr hstage =>
    have hle := hs.sends_le (List.mem_of_getElem? hr)
    exact hs.set i hgrows hle
  | retry i f r config config' error token hr hstage hflight htoken hretried =>
    have hok := hs.ok hr
    refine hs.set i hgrows ?_
    simp only [Request.Ok, hstage] at hok
    simp only [Request.Ok, hretried]
    exact ⟨hok.1, f, hok.2.2, token, hflight, htoken⟩
  | setAuthHandlers => exact hs.requests
  | settleRefresh => exact fun r hr => (hs.requests r hr).mono hgrows
  | checkToken => exact fun r hr => (hs.requests r hr).mono hgrows
  | clear => exact fun r hr => (hs.requests r hr).mono hgrows

/-- A flight goes on: it was the one in flight, and what it was before it still is. -/
theorem Consistent.inFlight_set (hs : Consistent s) {f : ℕ} {flight : Flight} (flight' : Flight)
    (h : s.flights[f]? = some flight) (hopen : flight.isOpen = true) :
    ∀ (g : ℕ) (other : Flight), (s.flights.set f flight')[g]? = some other →
      other.isOpen = true → s.refreshInFlight = some g := by
  intro g other hg hother
  by_cases hfg : f = g
  · subst hfg
    exact hs.inFlight f flight h hopen
  · rw [List.getElem?_set_ne hfg] at hg
    exact hs.inFlight g other hg hother

theorem Consistent.none_open (hs : Consistent s) (hnone : s.refreshInFlight = none) {f : ℕ}
    {flight : Flight} (h : s.flights[f]? = some flight) : flight.isOpen = false := by
  by_contra hopen
  have hf := hs.inFlight f flight h (Bool.eq_true_of_not_eq_false hopen)
  cases hnone.symm.trans hf

theorem Move.inFlight (hs : Consistent s) (h : Move axios s l s') :
    ∀ (f : ℕ) (flight : Flight), s'.flights[f]? = some flight → flight.isOpen = true →
      s'.refreshInFlight = some f := by
  cases h with
  | lead i r config error hr hstage hretried hflight =>
    intro f flight hf hopen
    rcases Nat.lt_trichotomy f s.flights.length with hlt | rfl | hgt
    · have hold : s.flights[f]? = some flight := (List.getElem?_append_left hlt).symm.trans hf
      have hclosed := hs.none_open hflight hold
      rw [hclosed] at hopen
      cases hopen
    · rfl
    · have hnone : (s.flights ++ [Flight.refreshing])[f]? = none := by
        rw [List.getElem?_eq_none_iff, List.length_append]
        exact hgt
      cases hnone.symm.trans hf
  | settleRefresh f outcome hflight => exact hs.inFlight_set _ hflight rfl
  | checkToken f token _ hflight => exact hs.inFlight_set _ hflight rfl
  | clear f token hflight =>
    intro g other hg hopen
    have hf := hs.inFlight f _ hflight rfl
    have hg' := hs.inFlight_set _ hflight rfl g other hg hopen
    cases hf.symm.trans hg'
    have hself : (s.flights.set f (.cleared token))[f]? = some (.cleared token) :=
      List.getElem?_set_self (List.getElem?_eq_some_iff.mp hflight).1
    cases hself.symm.trans hg
    cases hopen
  | _ => exact hs.inFlight

theorem Move.known (hs : Consistent s) (h : Move axios s l s') :
    ∀ f, s'.refreshInFlight = some f → f < s'.flights.length := by
  have hgrows := h.grows.length
  cases h with
  | lead =>
    intro f hf
    cases hf
    rw [ApiClient.setRequest, List.length_append]
    exact Nat.lt_succ_self _
  | clear => nofun
  | _ => exact fun f hf => (hs.known f hf).trans_le hgrows

theorem Move.consistent (hs : Consistent s) (h : Move axios s l s') : Consistent s' :=
  ⟨h.inFlight hs, h.known hs, h.requests_ok hs⟩

/-! ### Single flight -/

theorem Consistent.atMostOne (hs : Consistent s) {f g : ℕ}
    (hf : s.flights[f]? = some .refreshing) (hg : s.flights[g]? = some .refreshing) : f = g :=
  Option.some.inj ((hs.inFlight f _ hf rfl).symm.trans (hs.inFlight g _ hg rfl))

theorem Move.resent (hs : Consistent s) {i : ℕ} {token : Option String}
    (h : Move axios s (.send i token) s') {r : Request} (hr : s.requests[i]? = some r)
    (hsends : r.sends ≠ 0) : ∃ f, r.waitedFor = some f ∧ Succeeded s.flights f := by
  cases h with
  | send _ r' config config' _ hr' hstage _ =>
    cases hr.symm.trans hr'
    have hok := hs.ok hr
    simp only [Request.Ok, hstage] at hok
    split at hok
    · exact hok.2
    · exact absurd hok hsends

/-- A flight that waits for nothing outside is over once its continuations have run. -/
theorem Quiet.cleared (hquiet : Quiet axios s) {f : ℕ} {flight : Flight}
    (hf : s.flights[f]? = some flight) : ∃ token, flight = .cleared token := by
  cases flight with
  | refreshing => exact absurd rfl (hquiet.refreshes _ (List.mem_of_getElem? hf))
  | refreshed token =>
    have hnone := hquiet.continuations (.checkToken f) rfl
    simp only [step, hf] at hnone
    cases hnone
  | checked token =>
    have hnone := hquiet.continuations (.clear f) rfl
    simp only [step, hf] at hnone
    cases hnone
  | cleared token => exact ⟨token, rfl⟩

theorem Quiet.settled (hquiet : Quiet axios s) (hs : Consistent s) {i : ℕ} {r : Request}
    (hr : s.requests[i]? = some r) : r.stage.isPending = false := by
  cases hstage : r.stage with
  | requested config =>
    have hnone := hquiet.continuations (.send i none) rfl
    simp only [step, hr, Option.bind_eq_bind, Option.bind_some, hstage] at hnone
    cases hnone
  | sent config => exact absurd hstage (hquiet.responses r (List.mem_of_getElem? hr) config)
  | waiting config error f =>
    have hok := hs.ok hr
    simp only [Request.Ok, hstage] at hok
    have hf := List.getElem?_eq_getElem hok.2.1
    obtain ⟨token, htoken⟩ := hquiet.cleared hf
    rw [htoken] at hf
    have hnone := hquiet.continuations (.resume i) rfl
    simp only [step, hr, Option.bind_eq_bind, Option.bind_some, hstage, hf] at hnone
    cases hnone
  | _ => rfl

theorem ApiClient.Settled.not_pending (h : s.Settled) {i : ℕ} {r : Request} {stage : Stage}
    (hr : s.requests[i]? = some r) (hstage : r.stage = stage) : stage.isPending = false :=
  hstage ▸ h.requests r (List.mem_of_getElem? hr)

theorem ApiClient.Settled.not_open (h : s.Settled) {f : ℕ} {flight : Flight}
    (hflight : s.flights[f]? = some flight) : flight.isOpen = false :=
  h.flights flight (List.mem_of_getElem? hflight)

theorem ApiClient.Settled.no_continuation (h : s.Settled) (hmove : Move axios s l s') :
    l.isContinuation = false := by
  cases hmove with
  | send i r config _ _ hr hstage _ => cases h.not_pending hr hstage
  | checkToken f token _ hflight _ => cases h.not_open hflight
  | clear f token hflight => cases h.not_open hflight
  | giveUp i f r config error hr hstage => cases h.not_pending hr hstage
  | retry i f r config _ error token hr hstage _ _ _ => cases h.not_pending hr hstage
  | _ => rfl

theorem ApiClient.Settled.quiet (h : s.Settled) : Quiet axios s := by
  refine ⟨fun r hr config hsent => ?_, fun flight hflight hrefreshing => ?_, fun l hl => ?_⟩
  · have hpending := h.requests r hr
    rw [hsent] at hpending
    cases hpending
  · have hopen := h.flights flight hflight
    rw [hrefreshing] at hopen
    cases hopen
  · cases hstep : step axios s l with
    | none => rfl
    | some s' =>
      have hnone := h.no_continuation (move_of_step hstep)
      rw [hl] at hnone
      cases hnone

theorem Consistent.quiet_iff (hs : Consistent s) : Quiet axios s ↔ s.Settled := by
  refine ⟨fun hquiet => ⟨fun r hr => ?_, fun flight hflight => ?_⟩, ApiClient.Settled.quiet⟩
  · obtain ⟨i, hi⟩ := List.mem_iff_getElem?.mp hr
    exact hquiet.settled hs hi
  · obtain ⟨f, hf⟩ := List.mem_iff_getElem?.mp hflight
    obtain ⟨token, rfl⟩ := hquiet.cleared hf
    rfl

theorem singleFlight_step (hs : Consistent s) (h : step axios s l = some s') :
    Consistent s' ∧ SingleFlight axios s l s' := by
  have hmove := move_of_step h
  have hs' := hmove.consistent hs
  refine ⟨hs', ⟨fun f g hf hg => hs'.atMostOne hf hg, fun r hr => hs'.sends_le hr, ?_,
    hs'.quiet_iff⟩⟩
  rintro i token r rfl hr hsends
  exact hmove.resent hs hr hsends

/-! ### Termination -/

/-- At most how many steps the request still takes, with those of a flight that it starts. -/
def Stage.stepsLeft : Stage → ℕ
  | .idle => 9
  | .requested config => if config.retried then 2 else 8
  | .sent config => if config.retried then 1 else 7
  | .waiting _ _ _ => 3
  | .settled _ => 0

def Flight.stepsLeft : Flight → ℕ
  | .refreshing => 3
  | .refreshed _ => 2
  | .checked _ => 1
  | .cleared _ => 0

def stepsLeft (s : ApiClient) : ℕ :=
  (s.requests.map fun r => r.stage.stepsLeft).sum + (s.flights.map Flight.stepsLeft).sum

theorem stepsLeft_start (n : ℕ) : stepsLeft (start n) = 9 * n := by
  simp [stepsLeft, start, Stage.stepsLeft, Nat.mul_comm]

theorem stepsLeft_setRequest (s : ApiClient) {i : ℕ} {r : Request} {stage : Stage} (r' : Request)
    (hr : s.requests[i]? = some r) (hstage : r.stage = stage) :
    stepsLeft (s.setRequest i r') + stage.stepsLeft = stepsLeft s + r'.stage.stepsLeft := by
  have hsum := Run.sum_map_set (fun r : Request => r.stage.stepsLeft) r' hr
  simp only [hstage] at hsum
  simp only [stepsLeft, ApiClient.setRequest]
  omega

theorem stepsLeft_setRequest_lt (s : ApiClient) {i : ℕ} {r r' : Request} {stage : Stage}
    (hr : s.requests[i]? = some r) (hstage : r.stage = stage)
    (hlt : r'.stage.stepsLeft < stage.stepsLeft) : stepsLeft (s.setRequest i r') < stepsLeft s := by
  have hset := stepsLeft_setRequest s r' hr hstage
  omega

theorem stepsLeft_setFlight_lt (s : ApiClient) {f : ℕ} {flight flight' : Flight}
    (hflight : s.flights[f]? = some flight) (hlt : flight'.stepsLeft < flight.stepsLeft) :
    stepsLeft (s.setFlight f flight') < stepsLeft s := by
  have hsum := Run.sum_map_set Flight.stepsLeft flight' hflight
  simp only [stepsLeft, ApiClient.setFlight]
  omega

theorem stepsLeft_append (s : ApiClient) (refreshInFlight : Option ℕ) :
    stepsLeft { s with
      refreshInFlight := refreshInFlight
      flights := s.flights ++ [Flight.refreshing] } = stepsLeft s + 3 := by
  simp only [stepsLeft, List.map_append, List.sum_append, List.map_cons, List.map_nil,
    List.sum_cons, List.sum_nil, Flight.stepsLeft]
  omega

/-- Every step but a change of handlers is one of those that are left. -/
theorem Move.stepsLeft_lt (h : Move axios s l s') (hl : l.isSetAuthHandlers = false) :
    stepsLeft s' < stepsLeft s := by
  cases h with
  | setAuthHandlers => cases hl
  | request i r hr hstage =>
    refine stepsLeft_setRequest_lt s hr hstage ?_
    simp [Stage.stepsLeft, axios.retried_mergeConfig]
  | send i r config config' _ hr hstage hretried =>
    refine stepsLeft_setRequest_lt s hr hstage ?_
    simp only [Stage.stepsLeft, hretried]
    split <;> omega
  | settle i r config response authFailures hr hstage _ =>
    refine stepsLeft_setRequest_lt { s with authFailures := authFailures } hr hstage ?_
    simp only [Stage.stepsLeft]
    split <;> omega
  | join i f r config error hr hstage hretried _ =>
    refine stepsLeft_setRequest_lt s hr hstage ?_
    simp [Stage.stepsLeft, hretried]
  | lead i r config error hr hstage hretried _ =>
    -- the request gives up four steps, and three of them are the flight's
    have hset := stepsLeft_setRequest
      { s with
        refreshInFlight := some s.flights.length
        flights := s.flights ++ [Flight.refreshing] }
      { r with
        stage := .waiting config error s.flights.length
        waitedFor := some s.flights.length } hr hstage
    rw [stepsLeft_append] at hset
    simp only [Stage.stepsLeft, hretried, Bool.false_eq_true, if_false] at hset
    omega
  | settleRefresh f outcome hflight =>
    exact stepsLeft_setFlight_lt s hflight (Nat.lt_succ_self _)
  | checkToken f token authFailures hflight _ =>
    exact stepsLeft_setFlight_lt { s with authFailures := authFailures } hflight
      (Nat.lt_succ_self _)
  | clear f token hflight =>
    exact stepsLeft_setFlight_lt { s with refreshInFlight := none } hflight (Nat.lt_succ_self _)
  | giveUp i f r config error hr hstage =>
    exact stepsLeft_setRequest_lt s hr hstage (Nat.succ_pos _)
  | retry i f r config config' error token hr hstage _ _ hretried =>
    refine stepsLeft_setRequest_lt s hr hstage ?_
    simp [Stage.stepsLeft, hretried]

theorem stepsLeft_step (h : step axios s l = some s') :
    stepsLeft s' + (if !l.isSetAuthHandlers then 1 else 0) ≤ stepsLeft s := by
  have hmove := move_of_step h
  cases hl : l.isSetAuthHandlers with
  | false => exact hmove.stepsLeft_lt hl
  | true =>
    cases hmove with
    | setAuthHandlers => exact le_rfl
    | _ => cases hl

/-! ### Failed flights -/

theorem failuresTold_start (n : ℕ) : FailuresTold (start n) := fun _ => rfl

/-- A step that calls `onAuthFailure` for no flight and ends no flight without a token. -/
theorem FailuresTold.keep (h : FailuresTold s)
    (hcount : ∀ f, s'.authFailures.count (.flight f) = s.authFailures.count (.flight f))
    (hfailed : ∀ f, s'.failed f = s.failed f) : FailuresTold s' := by
  intro f
  rw [hcount, hfailed]
  exact h f

theorem failed_setFlight (s : ApiClient) {f : ℕ} {flight : Flight} (flight' : Flight)
    (hflight : s.flights[f]? = some flight) (g : ℕ) :
    (s.setFlight f flight').failed g = if f = g then flight'.failed else s.failed g := by
  obtain ⟨hlt, -⟩ := List.getElem?_eq_some_iff.mp hflight
  simp only [ApiClient.failed, ApiClient.setFlight]
  split
  next hfg =>
    subst hfg
    rw [List.getElem?_set_self hlt, Option.any_some]
  next hfg => rw [List.getElem?_set_ne hfg]

theorem failed_setFlight_same (s : ApiClient) {f : ℕ} {flight flight' : Flight}
    (hflight : s.flights[f]? = some flight) (hsame : flight'.failed = flight.failed) (g : ℕ) :
    (s.setFlight f flight').failed g = s.failed g := by
  rw [failed_setFlight s flight' hflight]
  split
  next hfg =>
    subst hfg
    rw [ApiClient.failed, hflight, Option.any_some, hsame]
  · rfl

theorem any_failed_append (flights : List Flight) (f : ℕ) :
    ((flights ++ [Flight.refreshing])[f]?).any Flight.failed = (flights[f]?).any Flight.failed := by
  rcases Nat.lt_or_ge f flights.length with hlt | hge
  · rw [List.getElem?_append_left hlt]
  · rw [List.getElem?_append_right hge, List.getElem?_eq_none hge]
    cases f - flights.length <;> rfl

/-- A flight without a token calls `onAuthFailure` in its `.then`, which runs once. -/
theorem FailuresTold.checkToken (htold : FailuresTold s) {f : ℕ} {token : Option String}
    (hflight : s.flights[f]? = some (.refreshed token)) {authFailures : List Caller}
    (hcalled : authFailures =
      if (Js.truthy token).isNone then .flight f :: s.authFailures else s.authFailures) :
    FailuresTold ({ s with authFailures := authFailures }.setFlight f (.checked token)) := by
  intro g
  have hfailed := failed_setFlight { s with authFailures := authFailures } (.checked token) hflight g
  rw [hfailed]
  change authFailures.count (.flight g) = _
  by_cases hfg : f = g
  · subst hfg
    have hpending : s.failed f = false := by rw [ApiClient.failed, hflight]; rfl
    have hnone := htold f
    rw [hpending, if_neg Bool.false_ne_true] at hnone
    rw [if_pos rfl, Flight.failed, hcalled]
    split
    · rw [List.count_cons_self, hnone]
    · exact hnone
  · have hne : Caller.flight f ≠ .flight g := fun he => hfg (Caller.flight.inj he)
    have hsame : authFailures.count (.flight g) = s.authFailures.count (.flight g) := by
      rw [hcalled]
      split
      · exact List.count_cons_of_ne hne
      · rfl
    rw [if_neg hfg, hsame]
    exact htold g

theorem Move.failuresTold (h : Move axios s l s') (hhandlers : s.authHandlers = true)
    (htold : FailuresTold s) : FailuresTold s' := by
  cases h with
  | settle i r config response authFailures hr hstage hcount =>
    exact htold.keep hcount fun _ => rfl
  | lead => exact htold.keep (fun _ => rfl) (any_failed_append s.flights)
  | settleRefresh f outcome hflight =>
    exact htold.keep (fun _ => rfl) (failed_setFlight_same s hflight rfl)
  | checkToken f token authFailures hflight hcalled =>
    exact htold.checkToken hflight (hcalled hhandlers)
  | clear f token hflight =>
    exact htold.keep (fun _ => rfl) (failed_setFlight_same _ hflight rfl)
  | _ => exact fun f => htold f

theorem Move.authHandlers (h : Move axios s l s') (hhandlers : s.authHandlers = true)
    (hl : l ≠ .setAuthHandlers false) : s'.authHandlers = true := by
  cases h with
  | setAuthHandlers handlers =>
    cases handlers with
    | true => rfl
    | false => exact absurd rfl hl
  | _ => exact hhandlers

structure Registered (s : ApiClient) : Prop where
  handlers : s.authHandlers = true
  told : FailuresTold s

theorem failuresTold_of_enabled {events : List Label} (n : ℕ)
    (hrun : Run.Enabled (step axios) (start n) events)
    (hregistered : ∀ l ∈ events, l ≠ .setAuthHandlers false) :
    Run.All (step axios) (fun _ _ s' => FailuresTold s') (start n) events := by
  have hlabels := Run.all_labels hregistered hrun
  refine Run.all_of_invariant Registered (fun s l s' hs h hl => ?_)
    ⟨rfl, failuresTold_start n⟩ hlabels
  have hmove := move_of_step h
  have htold := hmove.failuresTold hs.handlers hs.told
  exact ⟨⟨hmove.authHandlers hs.handlers hl.2, htold⟩, htold⟩

theorem singleFlight_of_enabled {events : List Label} (n : ℕ)
    (hrun : Run.Enabled (step axios) (start n) events) :
    Run.All (step axios) (SingleFlight axios) (start n) events :=
  Run.all_of_invariant Consistent (fun _ _ _ hs h _ => singleFlight_step hs h)
    (consistent_start n) hrun

/-- Requests, responses and refreshes in any order: in every state one refresh is pending at most,
no request has been sent more than twice, a request is sent again only after a flight that brought
a token, and where nothing is left to settle or to run every request has settled. There are at most
nine steps for each request, and each flight that failed has called `onAuthFailure` once. -/
theorem unauthorized_single_flight (axios : Axios) (n : ℕ) (events : List Label)
    (hrun : Run.Enabled (step axios) (start n) events) :
    Run.All (step axios) (SingleFlight axios) (start n) events ∧
      (events.countP fun l => !l.isSetAuthHandlers) ≤ 9 * n ∧
      ((∀ l ∈ events, l ≠ .setAuthHandlers false) →
        Run.All (step axios) (fun _ _ s' => FailuresTold s') (start n) events) := by
  refine ⟨singleFlight_of_enabled n hrun, ?_, failuresTold_of_enabled n hrun⟩
  have hcount := Run.countP_le_of_variant stepsLeft (fun l => !l.isSetAuthHandlers)
    (fun _ _ _ => stepsLeft_step) hrun
  exact hcount.trans_eq (stepsLeft_start n)

def plainAxios : Axios := ⟨fun config => config, fun _ => rfl⟩

/-- The second request joins a flight that fails; the 401 of the third arrives after that, and it is
sent again with the token of a second flight. -/
def twoFlights : List Label :=
  [.request 0, .request 1, .request 2, .send 0 (some "stale"), .send 1 (some "stale"),
    .send 2 (some "stale"), .respond 0 (.rejected ⟨true, some 401, true⟩),
    .respond 1 (.rejected ⟨true, some 401, true⟩), .settleRefresh 0 .rejected, .checkToken 0,
    .clear 0, .resume 1, .respond 2 (.rejected ⟨true, some 401, true⟩), .resume 0,
    .settleRefresh 1 (.resolved (some "fresh")), .checkToken 1, .clear 1, .resume 2,
    .send 2 (some "fresh"), .respond 2 .fulfilled]

theorem unauthorized_single_flight_two :
    Run.All (step plainAxios) (SingleFlight plainAxios) (start 3) twoFlights ∧
      (twoFlights.countP fun l => !l.isSetAuthHandlers) ≤ 9 * 3 ∧
      Run.All (step plainAxios) (fun _ _ s' => FailuresTold s') (start 3) twoFlights := by
  have hall := unauthorized_single_flight plainAxios 3 twoFlights
    (Run.enabled_of_final (by decide))
  exact ⟨hall.1, hall.2.1, hall.2.2 (by decide)⟩

end VcCommonService.Ui.Api
