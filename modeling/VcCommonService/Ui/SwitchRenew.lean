import VcCommonService.Ui.AuthClient

/-!
# Renews during a tenant switch

The server revokes the old grant somewhere between the request of a switch and its response. A renew
with a token of that grant then fails. `refresh` bridges the gap with `switchStorePending`, which is
set when the response arrives, so a renew whose failure arrives before the response is reported as
a dead session.
-/

namespace VcCommonService.Ui
open Lib

/-! ### The server -/

/-- `isOld` are the refresh tokens of the grant that the switch revokes; `tenantId` is the tenant
that the switch goes to. -/
structure SwitchServer where
  isOld : String → Bool
  tenantId : String

def SwitchServer.isNewToken (server : SwitchServer) (accessToken : String) : Bool :=
  decide (accessToken ≠ "") &&
    decide (stringClaim (decodeJwtPayload accessToken) "tenant_id" = some server.tenantId)

/-- User and tokens are those of the new tenant. -/
def SwitchServer.isNewUser (server : SwitchServer) (u : User) : Bool :=
  server.isNewToken u.accessToken &&
    (decide ((toAuthUser u).tenantId = some server.tenantId) &&
      u.refreshToken.any fun r => !server.isOld r)

/-- The user that a renew with the refresh token `r` produces belongs to the same grant. -/
def SwitchServer.renews (server : SwitchServer) (r : String) (u : User) : Bool :=
  if server.isOld r then decide (u.accessToken ≠ "") && u.refreshToken.any server.isOld
  else server.isNewUser u

def SwitchServer.answersSwitch (server : SwitchServer) (tokens : SwitchTokens) : Bool :=
  server.isNewToken tokens.accessToken && !server.isOld tokens.refreshToken

/-- How far the switch is. -/
inductive SwitchPhase where
  | before
  | requested
  | revoked
  | responded
  | stored
  deriving Repr, DecidableEq

def SwitchPhase.isRevoked : SwitchPhase → Bool
  | .before | .requested => false
  | .revoked | .responded | .stored => true

/-- `answer` is what the server has decided about the renew in flight. -/
structure SwitchRun where
  world : World
  phase : SwitchPhase := .before
  answer : Option Bool := none

inductive SwitchLabel where
  | client (i : ℕ) (e : Event)
  | renewProcessed (i : ℕ)
  | oldGrantRevoked

/-- What callers and environment may do, with the phase and the answer afterwards. -/
def environment (server : SwitchServer) (phase : SwitchPhase) (answer : Option Bool) :
    Call → Event → Option (SwitchPhase × Option Bool)
  | .idle, .refresh => some (phase, answer)
  | .renewQueued _, .start _ => some (phase, answer)
  | .storeQueued _ _, .start _ => some (phase, answer)
  | .renewWaiting _, .settle => some (phase, answer)
  | .idle, .switchTenant tenantId =>
    if phase = .before ∧ tenantId = server.tenantId then some (.requested, answer) else none
  | .switchRequested _, .switchResponse (some tokens) =>
    if phase = .revoked ∧ server.answersSwitch tokens then some (.responded, answer) else none
  | .storing _ _, .storeSettled true => some (.stored, answer)
  | .renewing _ (some r), .renewSettled (.user u) =>
    if answer = some true ∧ server.renews r u then some (phase, none) else none
  | .renewing _ _, .renewSettled .rejected =>
    if answer = some false then some (phase, none) else none
  | _, _ => none

/-- A renew with a token of the old grant is refused from the revocation on, any other granted. -/
def process (server : SwitchServer) (s : SwitchRun) : Call → Option SwitchRun
  | .renewing _ (some r) =>
    if s.answer = none then
      some { s with answer := some (!(server.isOld r && s.phase.isRevoked)) }
    else none
  | _ => none

def switchStep (server : SwitchServer) (s : SwitchRun) : SwitchLabel → Option SwitchRun
  | .client i e =>
    (environment server s.phase s.answer (s.world.calls i) e).bind fun p =>
      (step s.world (i, e)).map fun world => ⟨world, p.1, p.2⟩
  | .renewProcessed i => process server s (s.world.calls i)
  | .oldGrantRevoked => if s.phase = .requested then some { s with phase := .revoked } else none

def signedIn (u : User) : SwitchRun :=
  ⟨⟨{ currentUser := some u, currentState := stateOf (some u), stored := some u },
    fun _ => .idle⟩, .before, none⟩

/-! ### The property and its condition -/

def Call.isSettled : Call → Bool
  | .idle | .renewed _ | .switched => true
  | _ => false

/-- No refresh has resolved to `null`, and when everything has settled after the switch, user and
access token are those of the new tenant. -/
structure NeverLooksDead (server : SwitchServer) (s : SwitchRun) : Prop where
  noNull : ∀ i, s.world.calls i ≠ .renewed none
  newTenant : (∀ i, (s.world.calls i).isSettled = true) → (∃ i, s.world.calls i = .switched) →
    s.world.db.currentState.status = .authenticated ∧
      (s.world.db.currentState.user.bind AuthUser.tenantId) = some server.tenantId ∧
      ∃ token, s.world.db.getAccessToken = some token ∧ server.isNewToken token = true

/-- A renew that the server has refused does not settle before the response of the switch. -/
def RefusedAfterResponse (s : SwitchRun) : SwitchLabel → Prop
  | .client _ (.renewSettled .rejected) => s.phase = .responded ∨ s.phase = .stored
  | _ => True

/-! ### The user of the switch -/

theorem get_spread (base more : Json.Members) (key : String) :
    Json.get (spread base more) key = (Json.get more key).or (Json.get base key) := by
  induction more with
  | nil => rfl
  | cons m more ih =>
    obtain ⟨name, value⟩ := m
    have hspread : spread base ((name, value) :: more) = Json.set (spread base more) name value := by
      simp only [spread, List.reverse_cons, List.foldl_append, List.foldl_cons, List.foldl_nil]
    rw [hspread, Json.get_set, ih]
    by_cases hk : key = name
    · simp [Json.get, hk]
    · simp [Json.get, List.lookup_cons, beq_eq_false_iff_ne.mpr hk, hk]

theorem stringClaim_spread {base more : Json.Members} {claim value : String}
    (h : stringClaim more claim = some value) : stringClaim (spread base more) claim = some value := by
  unfold stringClaim at h ⊢
  rw [get_spread]
  cases hget : Json.get more claim with
  | none =>
    rw [hget] at h
    cases h
  | some v =>
    rw [hget] at h
    exact h

variable {server : SwitchServer}

theorem isNewToken_iff {accessToken : String} : server.isNewToken accessToken = true ↔
    accessToken ≠ "" ∧
      stringClaim (decodeJwtPayload accessToken) "tenant_id" = some server.tenantId := by
  rw [SwitchServer.isNewToken, Bool.and_eq_true, decide_eq_true_iff, decide_eq_true_iff]

theorem isNewUser_iff {u : User} : server.isNewUser u = true ↔
    server.isNewToken u.accessToken = true ∧
      stringClaim u.profile "tenant_id" = some server.tenantId ∧
        ∃ r, u.refreshToken = some r ∧ server.isOld r = false := by
  rw [SwitchServer.isNewUser, Bool.and_eq_true, Bool.and_eq_true, decide_eq_true_iff]
  simp [toAuthUser, Option.any_eq_true]

theorem isNewUser_switchedUser {tokens : SwitchTokens} (h : server.answersSwitch tokens = true)
    (currentUser : Option User) (now : ℤ) :
    server.isNewUser (switchedUser currentUser tokens now) = true := by
  rw [SwitchServer.answersSwitch, Bool.and_eq_true, Bool.not_eq_true'] at h
  have hclaim := (isNewToken_iff.mp h.1).2
  rw [isNewUser_iff]
  refine ⟨h.1, ?_, tokens.refreshToken, rfl, h.2⟩
  have hprofile : (switchedUser currentUser tokens now).profile =
      spread ((currentUser.map User.profile).getD []) (decodeJwtPayload tokens.accessToken) := by
    simp only [switchedUser]
  rw [hprofile]
  exact stringClaim_spread hclaim

/-! ### What a step does -/

def SwitchRun.move (s : SwitchRun) (i : ℕ) (c : Client) (pc : Call) (phase : SwitchPhase)
    (answer : Option Bool) : SwitchRun :=
  ⟨⟨c, Function.update s.world.calls i pc⟩, phase, answer⟩

inductive SwitchMove (server : SwitchServer) (s : SwitchRun) : SwitchLabel → SwitchRun → Prop where
  | refresh (i : ℕ) (hpc : s.world.calls i = .idle) :
      SwitchMove server s (.client i .refresh)
        (s.move i { s.world.db with tickets := s.world.db.tickets + 1 }
          (.renewQueued s.world.db.tickets) s.phase s.answer)
  | startRenew (i ticket : ℕ) (now : ℤ) (hpc : s.world.calls i = .renewQueued ticket)
      (hturn : s.world.db.served = ticket) :
      SwitchMove server s (.client i (.start now))
        (s.move i s.world.db (.renewing ticket (s.world.db.stored.bind User.refreshToken)) s.phase
          s.answer)
  | startStore (i ticket : ℕ) (tokens : SwitchTokens) (now : ℤ)
      (hpc : s.world.calls i = .storeQueued ticket tokens) (hturn : s.world.db.served = ticket) :
      SwitchMove server s (.client i (.start now))
        (s.move i s.world.db (.storing ticket (switchedUser s.world.db.currentUser tokens now))
          s.phase s.answer)
  | waited (i switch : ℕ) (hpc : s.world.calls i = .renewWaiting switch) :
      SwitchMove server s (.client i .settle)
        (s.move i s.world.db (.renewed s.world.db.getAccessToken) s.phase s.answer)
  | request (i : ℕ) (tenantId : String) (inFlight : Bool) (pc : Call) (hpc : s.world.calls i = .idle)
      (hphase : s.phase = .before) (hpc' : pc = .switchRequested tenantId ∨ pc = .switchFailed) :
      SwitchMove server s (.client i (.switchTenant tenantId))
        (s.move i { s.world.db with switchInFlight := inFlight } pc .requested s.answer)
  | respond (i : ℕ) (tenantId : String) (tokens : SwitchTokens)
      (hpc : s.world.calls i = .switchRequested tenantId) (hphase : s.phase = .revoked)
      (htokens : server.answersSwitch tokens = true) :
      SwitchMove server s (.client i (.switchResponse (some tokens)))
        (s.move i
          { s.world.db with
            tickets := s.world.db.tickets + 1
            switchStorePending := some s.world.db.tickets }
          (.storeQueued s.world.db.tickets tokens) .responded s.answer)
  | store (i ticket : ℕ) (next : User) (hpc : s.world.calls i = .storing ticket next) :
      SwitchMove server s (.client i (.storeSettled true))
        (s.move i { (s.world.db.load next).endSwitch with served := ticket + 1 } .switched .stored
          s.answer)
  | renew (i ticket : ℕ) (r : String) (u : User) (hpc : s.world.calls i = .renewing ticket (some r))
      (hanswer : s.answer = some true) (hrenews : server.renews r u = true) :
      SwitchMove server s (.client i (.renewSettled (.user u)))
        (s.move i { s.world.db.load u with served := ticket + 1 }
          (afterRenew { s.world.db.load u with served := ticket + 1 } (.user u)) s.phase none)
  | refuse (i ticket : ℕ) (r : Option String) (hpc : s.world.calls i = .renewing ticket r)
      (hanswer : s.answer = some false) :
      SwitchMove server s (.client i (.renewSettled .rejected))
        (s.move i { s.world.db with served := ticket + 1 }
          (afterRenew { s.world.db with served := ticket + 1 } .rejected) s.phase none)
  | process (i ticket : ℕ) (r : String) (hpc : s.world.calls i = .renewing ticket (some r)) :
      SwitchMove server s (.renewProcessed i)
        { s with answer := some (!(server.isOld r && s.phase.isRevoked)) }
  | revoke (hphase : s.phase = .requested) :
      SwitchMove server s .oldGrantRevoked { s with phase := .revoked }

variable {s s' : SwitchRun}

theorem clientMove_of_step {i : ℕ} {e : Event}
    (h : switchStep server s (.client i e) = some s') : SwitchMove server s (.client i e) s' := by
  obtain ⟨⟨phase', answer'⟩, henv, hmap⟩ := Option.bind_eq_some_iff.mp h
  obtain ⟨w', hstep, rfl⟩ := Option.map_eq_some_iff.mp hmap
  obtain ⟨c', pc', hact, rfl⟩ := Run.interleave_cases hstep
  simp only at hact
  generalize hpc : s.world.calls i = pc at henv hact
  unfold environment at henv
  split at henv
  · cases henv
    cases hact
    exact .refresh i hpc
  · cases henv
    simp only [act] at hact
    split at hact
    next hturn =>
      cases hact
      exact .startRenew i _ _ hpc hturn
    · cases hact
  · cases henv
    simp only [act] at hact
    split at hact
    next hturn =>
      cases hact
      exact .startStore i _ _ _ hpc hturn
    · cases hact
  · cases henv
    simp only [act] at hact
    split at hact
    · cases hact
      exact .waited i _ hpc
    · cases hact
  · split at henv
    next hphase =>
      cases henv
      simp only [act] at hact
      split at hact
      · cases hact
        exact .request i _ s.world.db.switchInFlight _ hpc hphase.1 (Or.inr rfl)
      · cases hact
        exact .request i _ true _ hpc hphase.1 (Or.inl rfl)
    · cases henv
  · split at henv
    next hphase =>
      cases henv
      cases hact
      exact .respond i _ _ hpc hphase.1 hphase.2
    · cases henv
  · cases henv
    cases hact
    exact .store i _ _ hpc
  · split at henv
    next hanswer =>
      cases henv
      cases hact
      exact .renew i _ _ _ hpc hanswer.1 hanswer.2
    · cases henv
  · split at henv
    next hanswer =>
      cases henv
      cases hact
      exact .refuse i _ _ hpc hanswer
    · cases henv
  · cases henv

theorem switchMove_of_step {l : SwitchLabel} (h : switchStep server s l = some s') :
    SwitchMove server s l s' := by
  cases l with
  | client i e => exact clientMove_of_step h
  | renewProcessed i =>
    simp only [switchStep] at h
    generalize hpc : s.world.calls i = pc at h
    unfold process at h
    split at h
    · split at h <;> cases h
      exact .process i _ _ hpc
    · cases h
  | oldGrantRevoked =>
    simp only [switchStep] at h
    split at h
    next hphase =>
      cases h
      exact .revoke hphase
    · cases h

/-! ### Invariant -/

/-- Until the switch is stored, the user belongs to the old grant. -/
def UserOk (server : SwitchServer) (phase : SwitchPhase) (u : User) : Prop :=
  u.accessToken ≠ "" ∧
    if phase = .stored then server.isNewUser u = true
    else ∃ r, u.refreshToken = some r ∧ server.isOld r = true

/-- Storage, user and state agree. -/
structure Holder (server : SwitchServer) (s : SwitchRun) (u : User) : Prop where
  current : s.world.db.currentUser = some u
  stored : s.world.db.stored = some u
  state : s.world.db.currentState = stateOf (some u)
  ok : UserOk server s.phase u

def Call.ticket : Call → Option ℕ
  | .renewQueued ticket | .renewing ticket _ | .storeQueued ticket _ | .storing ticket _ =>
    some ticket
  | _ => none

/-- What holds of a call besides its ticket. -/
def CallOk (server : SwitchServer) (s : SwitchRun) : Call → Prop
  | .renewing ticket r => ticket = s.world.db.served ∧ r = s.world.db.stored.bind User.refreshToken ∧
    (s.answer = some false → ∃ token, r = some token ∧ server.isOld token = true)
  | .renewed token => token ≠ none
  | .storeQueued ticket tokens => s.phase = .responded ∧
    s.world.db.switchStorePending = some ticket ∧ server.answersSwitch tokens = true
  | .storing ticket next => ticket = s.world.db.served ∧ s.phase = .responded ∧
    s.world.db.switchStorePending = some ticket ∧ server.isNewUser next = true
  | .switched => s.phase = .stored
  | _ => True

/-- The calls in the queue have tickets of their own, from the one that is served on. -/
structure Tickets (c : Client) (calls : ℕ → Call) : Prop where
  le : c.served ≤ c.tickets
  range : ∀ i ticket, (calls i).ticket = some ticket → c.served ≤ ticket ∧ ticket < c.tickets
  unique : ∀ i j ticket, (calls i).ticket = some ticket → (calls j).ticket = some ticket → i = j

structure SwitchInv (server : SwitchServer) (s : SwitchRun) : Prop where
  user : ∃ u, Holder server s u
  pending : s.world.db.switchStorePending.isSome = true ↔ s.phase = .responded
  answered : s.answer ≠ none → ∃ i ticket r, s.world.calls i = .renewing ticket r
  tickets : Tickets s.world.db s.world.calls
  call : ∀ i, CallOk server s (s.world.calls i)

theorem neverLooksDead_of_inv (hinv : SwitchInv server s) : NeverLooksDead server s := by
  refine ⟨fun i hi => ?_, fun _ ⟨i, hi⟩ => ?_⟩
  · have hcall := hinv.call i
    rw [hi] at hcall
    exact hcall rfl
  · have hcall := hinv.call i
    rw [hi] at hcall
    have hstored : s.phase = .stored := hcall
    obtain ⟨u, hcurrent, -, hstate, -, hnew⟩ := hinv.user
    rw [if_pos hstored] at hnew
    have hnew' := isNewUser_iff.mp hnew
    rw [hstate]
    refine ⟨rfl, hnew'.2.1, u.accessToken, ?_, hnew'.1⟩
    rw [Client.getAccessToken, hcurrent, Option.map_some]

/-! ### The queue -/

section Queue

variable {c c' : Client} {calls : ℕ → Call} {i : ℕ} {pc : Call}

theorem ticket_update {j ticket : ℕ} (h : (Function.update calls i pc j).ticket = some ticket) :
    (j = i ∧ pc.ticket = some ticket) ∨ (j ≠ i ∧ (calls j).ticket = some ticket) := by
  by_cases hji : j = i
  · subst hji
    rw [Function.update_self] at h
    exact Or.inl ⟨rfl, h⟩
  · rw [Function.update_of_ne hji] at h
    exact Or.inr ⟨hji, h⟩

/-- A call that had no ticket joins the queue. -/
theorem Tickets.take (h : Tickets c calls) (hserved : c'.served = c.served)
    (htickets : c'.tickets = c.tickets + 1) (hpc : pc.ticket = some c.tickets) :
    Tickets c' (Function.update calls i pc) := by
  have hlast : ∀ j, (calls j).ticket ≠ some c.tickets :=
    fun j hj => Nat.lt_irrefl _ (h.range j _ hj).2
  refine ⟨?_, fun j ticket hj => ?_, fun j k ticket hj hk => ?_⟩
  · rw [hserved, htickets]
    exact Nat.le_succ_of_le h.le
  · rw [hserved, htickets]
    rcases ticket_update hj with ⟨-, hnew⟩ | ⟨-, hold⟩
    · cases hpc.symm.trans hnew
      exact ⟨h.le, Nat.lt_succ_self _⟩
    · have := h.range j ticket hold
      omega
  · rcases ticket_update hj with ⟨rfl, hnew⟩ | ⟨-, hold⟩ <;>
      rcases ticket_update hk with ⟨rfl, hnew'⟩ | ⟨-, hold'⟩
    · rfl
    · cases hpc.symm.trans hnew
      exact absurd hold' (hlast k)
    · cases hpc.symm.trans hnew'
      exact absurd hold (hlast j)
    · exact h.unique j k ticket hold hold'

/-- A call keeps its place, or goes on without one. -/
theorem Tickets.keep (h : Tickets c calls) (hserved : c'.served = c.served)
    (htickets : c'.tickets = c.tickets) (hpc : ∀ ticket, pc.ticket = some ticket →
      (calls i).ticket = some ticket) : Tickets c' (Function.update calls i pc) := by
  have hold : ∀ j ticket, (Function.update calls i pc j).ticket = some ticket →
      (calls j).ticket = some ticket := by
    intro j ticket hj
    rcases ticket_update hj with ⟨rfl, hown⟩ | ⟨-, hother⟩
    · exact hpc ticket hown
    · exact hother
  refine ⟨?_, fun j ticket hj => ?_, fun j k ticket hj hk => ?_⟩
  · rw [hserved, htickets]
    exact h.le
  · rw [hserved, htickets]
    exact h.range j ticket (hold j ticket hj)
  · exact h.unique j k ticket (hold j ticket hj) (hold k ticket hk)

/-- The call whose turn it was leaves the queue. -/
theorem Tickets.serve (h : Tickets c calls) (hi : (calls i).ticket = some c.served)
    (hserved : c'.served = c.served + 1) (htickets : c'.tickets = c.tickets)
    (hpc : pc.ticket = none) : Tickets c' (Function.update calls i pc) := by
  have hother : ∀ j ticket, (Function.update calls i pc j).ticket = some ticket →
      j ≠ i ∧ (calls j).ticket = some ticket := by
    intro j ticket hj
    rcases ticket_update hj with ⟨-, hown⟩ | hother
    · cases hpc.symm.trans hown
    · exact hother
  refine ⟨?_, fun j ticket hj => ?_, fun j k ticket hj hk => ?_⟩
  · rw [hserved, htickets]
    exact (h.range i _ hi).2
  · obtain ⟨hji, hold⟩ := hother j ticket hj
    have hne : ticket ≠ c.served := fun he => hji (h.unique j i _ (he ▸ hold) hi)
    have := h.range j ticket hold
    omega
  · exact h.unique j k ticket (hother j ticket hj).2 (hother k ticket hk).2

end Queue

/-! ### One step keeps the invariant -/

theorem Holder.keep {u : User} (h : Holder server s u)
    (hcurrent : s'.world.db.currentUser = s.world.db.currentUser)
    (hstored : s'.world.db.stored = s.world.db.stored)
    (hstate : s'.world.db.currentState = s.world.db.currentState)
    (hphase : s'.phase = .stored ↔ s.phase = .stored) : Holder server s' u := by
  refine ⟨hcurrent.trans h.current, hstored.trans h.stored, hstate.trans h.state, h.ok.1, ?_⟩
  simpa only [hphase] using h.ok.2

/-- A call that does not move only sees what its turn, its ticket and the phase say. -/
theorem callOk_frame {pc : Call} (h : CallOk server s pc)
    (hturn : pc.ticket = some s.world.db.served → s'.world.db.served = s.world.db.served ∧
      s'.world.db.stored = s.world.db.stored ∧ s'.answer = s.answer)
    (hstore : s.phase = .responded → s.world.db.switchStorePending = pc.ticket →
      s'.phase = .responded ∧ s'.world.db.switchStorePending = s.world.db.switchStorePending)
    (hstored : s.phase = .stored → s'.phase = .stored) : CallOk server s' pc := by
  cases pc with
  | renewing ticket r =>
    obtain ⟨rfl, hr, hanswer⟩ := h
    obtain ⟨h1, h2, h3⟩ := hturn rfl
    refine ⟨h1.symm, hr.trans (congrArg (Option.bind · User.refreshToken) h2.symm), ?_⟩
    rw [h3]
    exact hanswer
  | renewed token => exact h
  | storeQueued ticket tokens =>
    obtain ⟨hphase, hpending, htokens⟩ := h
    obtain ⟨h1, h2⟩ := hstore hphase hpending
    exact ⟨h1, h2.trans hpending, htokens⟩
  | storing ticket next =>
    obtain ⟨rfl, hphase, hpending, hnext⟩ := h
    obtain ⟨h1, h2⟩ := hstore hphase hpending
    exact ⟨(hturn rfl).1.symm, h1, h2.trans hpending, hnext⟩
  | switched => exact hstored h
  | _ => trivial

theorem SwitchInv.served_of_renewing {i ticket : ℕ} {r : Option String} (hinv : SwitchInv server s)
    (hpc : s.world.calls i = .renewing ticket r) : ticket = s.world.db.served := by
  have hcall := hinv.call i
  rw [hpc] at hcall
  exact hcall.1

/-- While the server has an answer for it, the renew that it is about has the turn. -/
theorem SwitchInv.answer_none {i : ℕ} (hinv : SwitchInv server s)
    (hturn : (s.world.calls i).ticket = some s.world.db.served)
    (hpc : ∀ ticket r, s.world.calls i ≠ .renewing ticket r) : s.answer = none := by
  by_contra hne
  obtain ⟨k, ticket, r, hk⟩ := hinv.answered hne
  have hticket : (s.world.calls k).ticket = some s.world.db.served := by
    rw [hk, hinv.served_of_renewing hk]
    rfl
  have hki := hinv.tickets.unique k i _ hticket hturn
  subst hki
  exact hpc ticket r hk

theorem callOk_move {i : ℕ} {c : Client} {pc : Call} {phase : SwitchPhase} {answer : Option Bool}
    (hown : CallOk server (s.move i c pc phase answer) pc)
    (hother : ∀ j ≠ i, CallOk server (s.move i c pc phase answer) (s.world.calls j)) (j : ℕ) :
    CallOk server (s.move i c pc phase answer) ((s.move i c pc phase answer).world.calls j) :=
  (Function.forall_update_iff s.world.calls
    (fun _ other => CallOk server (s.move i c pc phase answer) other)).mpr ⟨hown, hother⟩ j

/-- A step of a call that neither ends a turn nor changes the user. -/
theorem SwitchInv.quiet {i : ℕ} {c : Client} {pc : Call} {phase : SwitchPhase}
    (hinv : SwitchInv server s) (hpc : ∀ ticket r, s.world.calls i ≠ .renewing ticket r)
    (hserved : c.served = s.world.db.served)
    (hcurrent : c.currentUser = s.world.db.currentUser) (hstored : c.stored = s.world.db.stored)
    (hstate : c.currentState = s.world.db.currentState)
    (hphase : phase = .stored ↔ s.phase = .stored)
    (hstore : s.phase = .responded →
      phase = .responded ∧ c.switchStorePending = s.world.db.switchStorePending)
    (hpending : c.switchStorePending.isSome = true ↔ phase = .responded)
    (htickets : Tickets c (Function.update s.world.calls i pc))
    (hown : CallOk server (s.move i c pc phase s.answer) pc) :
    SwitchInv server (s.move i c pc phase s.answer) := by
  obtain ⟨u, hu⟩ := hinv.user
  refine ⟨⟨u, hu.keep hcurrent hstored hstate hphase⟩, hpending, fun hne => ?_, htickets,
    callOk_move hown fun j _ => ?_⟩
  · obtain ⟨k, ticket, r, hk⟩ := hinv.answered hne
    have hki : k ≠ i := fun he => hpc ticket r (he ▸ hk)
    exact ⟨k, ticket, r, (Function.update_of_ne hki _ _).trans hk⟩
  · exact callOk_frame (hinv.call j) (fun _ => ⟨hserved, hstored, rfl⟩) (fun hp _ => hstore hp)
      hphase.mpr

theorem SwitchInv.turn {i : ℕ} {c : Client} {pc : Call} {phase : SwitchPhase}
    (hinv : SwitchInv server s) (hturn : (s.world.calls i).ticket = some s.world.db.served)
    (hserved : c.served = s.world.db.served + 1) (htickets : c.tickets = s.world.db.tickets)
    (huser : ∃ u, Holder server (s.move i c pc phase none) u)
    (hstore : s.phase = .responded → ∀ j ≠ i,
      s.world.db.switchStorePending = (s.world.calls j).ticket →
      phase = .responded ∧ c.switchStorePending = s.world.db.switchStorePending)
    (hphase : s.phase = .stored → phase = .stored)
    (hpending : c.switchStorePending.isSome = true ↔ phase = .responded)
    (hticket : pc.ticket = none) (hown : CallOk server (s.move i c pc phase none) pc) :
    SwitchInv server (s.move i c pc phase none) := by
  refine ⟨huser, hpending, fun hne => absurd rfl hne,
    hinv.tickets.serve hturn hserved htickets hticket, callOk_move hown fun j hji => ?_⟩
  refine callOk_frame (hinv.call j) (fun hj => ?_) (fun hp => hstore hp j hji) hphase
  exact absurd (hinv.tickets.unique j i _ hj hturn) hji

theorem SwitchInv.callOk {i : ℕ} {pc : Call} (hinv : SwitchInv server s)
    (hpc : s.world.calls i = pc) : CallOk server s pc := hpc ▸ hinv.call i

theorem SwitchInv.pending_none (hinv : SwitchInv server s) (hphase : s.phase ≠ .responded) :
    s.world.db.switchStorePending = none := by
  cases hp : s.world.db.switchStorePending with
  | none => rfl
  | some switch => exact absurd (hinv.pending.mp (hp ▸ rfl)) hphase

theorem inv_startRenew {i ticket : ℕ} (hinv : SwitchInv server s)
    (hpc : s.world.calls i = .renewQueued ticket) (hturn : s.world.db.served = ticket) :
    SwitchInv server (s.move i s.world.db
      (.renewing ticket (s.world.db.stored.bind User.refreshToken)) s.phase s.answer) := by
  have hticket : (s.world.calls i).ticket = some ticket := by rw [hpc]; rfl
  have hnone : s.answer = none := by
    refine hinv.answer_none (hturn ▸ hticket) ?_
    rw [hpc]
    nofun
  refine hinv.quiet (by rw [hpc]; nofun) rfl rfl rfl rfl Iff.rfl (fun h => ⟨h, rfl⟩) hinv.pending
    (hinv.tickets.keep rfl rfl ?_) ⟨hturn.symm, rfl, ?_⟩
  · rintro t ht
    cases ht
    exact hticket
  · simp only [SwitchRun.move, hnone]
    nofun

theorem inv_startStore {i ticket : ℕ} {tokens : SwitchTokens} (now : ℤ)
    (hinv : SwitchInv server s) (hpc : s.world.calls i = .storeQueued ticket tokens)
    (hturn : s.world.db.served = ticket) :
    SwitchInv server (s.move i s.world.db
      (.storing ticket (switchedUser s.world.db.currentUser tokens now)) s.phase s.answer) := by
  obtain ⟨hphase, hpending, htokens⟩ := hinv.callOk hpc
  refine hinv.quiet (by rw [hpc]; nofun) rfl rfl rfl rfl Iff.rfl (fun h => ⟨h, rfl⟩) hinv.pending
    (hinv.tickets.keep rfl rfl ?_)
    ⟨hturn.symm, hphase, hpending, isNewUser_switchedUser htokens _ now⟩
  rintro t ht
  cases ht
  rw [hpc]
  rfl

theorem inv_respond {i : ℕ} {tokens : SwitchTokens} (hinv : SwitchInv server s)
    (hpc : ∀ ticket r, s.world.calls i ≠ .renewing ticket r) (hphase : s.phase = .revoked)
    (htokens : server.answersSwitch tokens = true) :
    SwitchInv server (s.move i
      { s.world.db with
        tickets := s.world.db.tickets + 1
        switchStorePending := some s.world.db.tickets }
      (.storeQueued s.world.db.tickets tokens) .responded s.answer) := by
  refine hinv.quiet hpc rfl rfl rfl rfl ?_ ?_ (iff_of_true rfl rfl)
    (hinv.tickets.take rfl rfl rfl) ⟨rfl, rfl, htokens⟩
  · rw [hphase]
    exact iff_of_false nofun nofun
  · rw [hphase]
    nofun

theorem inv_store {i ticket : ℕ} {next : User} (hinv : SwitchInv server s)
    (hpc : s.world.calls i = .storing ticket next) :
    SwitchInv server (s.move i { (s.world.db.load next).endSwitch with served := ticket + 1 }
      .switched .stored s.answer) := by
  obtain ⟨rfl, hphase, hpending, hnext⟩ := hinv.callOk hpc
  have hturn : (s.world.calls i).ticket = some s.world.db.served := by rw [hpc]; rfl
  have hnone : s.answer = none := hinv.answer_none hturn (by rw [hpc]; nofun)
  rw [hnone]
  refine hinv.turn hturn rfl rfl ⟨next, rfl, rfl, rfl, ?_⟩ ?_ (fun _ => rfl)
    (iff_of_false nofun nofun) rfl rfl
  · exact ⟨(isNewToken_iff.mp (isNewUser_iff.mp hnext).1).1, hnext⟩
  · intro _ j hji hj
    -- only the switch has the ticket that is pending
    exact absurd (hinv.tickets.unique j i _ (hj.symm.trans hpending) hturn) hji

/-- A renew that is granted gives a user of the grant that it was made with. -/
theorem userOk_of_renews {phase : SwitchPhase} {u u' : User} {r : String}
    (hu : UserOk server phase u) (hr : u.refreshToken = some r) (h : server.renews r u' = true) :
    UserOk server phase u' := by
  obtain ⟨-, hgrant⟩ := hu
  unfold SwitchServer.renews at h
  by_cases hphase : phase = .stored
  · rw [if_pos hphase] at hgrant
    obtain ⟨-, -, r', hr', hnew⟩ := isNewUser_iff.mp hgrant
    cases hr.symm.trans hr'
    rw [hnew] at h
    refine ⟨(isNewToken_iff.mp (isNewUser_iff.mp h).1).1, ?_⟩
    rw [if_pos hphase]
    exact h
  · rw [if_neg hphase] at hgrant
    obtain ⟨r', hr', hold⟩ := hgrant
    cases hr.symm.trans hr'
    rw [hold, if_pos rfl, Bool.and_eq_true, decide_eq_true_iff, Option.any_eq_true] at h
    refine ⟨h.1, ?_⟩
    rw [if_neg hphase]
    exact h.2

theorem inv_renew {i ticket : ℕ} {r : String} {u : User} (hinv : SwitchInv server s)
    (hpc : s.world.calls i = .renewing ticket (some r)) (hrenews : server.renews r u = true) :
    SwitchInv server (s.move i { s.world.db.load u with served := ticket + 1 }
      (afterRenew { s.world.db.load u with served := ticket + 1 } (.user u)) s.phase none) := by
  obtain ⟨rfl, hr, -⟩ := hinv.callOk hpc
  obtain ⟨held, hheld⟩ := hinv.user
  rw [hheld.stored] at hr
  have hok := userOk_of_renews hheld.ok hr.symm hrenews
  have hafter : ∀ c, afterRenew c (.user u) = .renewed (some u.accessToken) := by
    intro c
    simp only [afterRenew, RenewOutcome.token, if_neg hok.1]
  rw [hafter]
  exact hinv.turn (by rw [hpc]; rfl) rfl rfl ⟨u, rfl, rfl, rfl, hok⟩ (fun h _ _ _ => ⟨h, rfl⟩) id
    hinv.pending rfl nofun

theorem inv_refuse {i ticket : ℕ} {r : Option String} (hinv : SwitchInv server s)
    (hpc : s.world.calls i = .renewing ticket r) (hanswer : s.answer = some false)
    (hphase : s.phase = .responded ∨ s.phase = .stored) :
    SwitchInv server (s.move i { s.world.db with served := ticket + 1 }
      (afterRenew { s.world.db with served := ticket + 1 } .rejected) s.phase none) := by
  obtain ⟨rfl, hr, hrefused⟩ := hinv.callOk hpc
  obtain ⟨u, hu⟩ := hinv.user
  obtain ⟨token, htoken, hold⟩ := hrefused hanswer
  have hnot : s.phase ≠ .stored := by
    intro hstored
    have hnew := hu.ok.2
    rw [if_pos hstored] at hnew
    obtain ⟨-, -, r', hr', hnew'⟩ := isNewUser_iff.mp hnew
    rw [hu.stored, htoken] at hr
    cases hr.trans hr'
    cases hold.symm.trans hnew'
  obtain ⟨switch, hswitch⟩ :=
    Option.isSome_iff_exists.mp (hinv.pending.mpr (hphase.resolve_right hnot))
  have hafter : afterRenew { s.world.db with served := s.world.db.served + 1 } .rejected =
      .renewWaiting switch := by
    simp only [afterRenew, RenewOutcome.token, hswitch]
  rw [hafter]
  exact hinv.turn (by rw [hpc]; rfl) rfl rfl ⟨u, hu.keep rfl rfl rfl Iff.rfl⟩
    (fun h _ _ _ => ⟨h, rfl⟩) id hinv.pending rfl trivial

theorem inv_process {i ticket : ℕ} {r : String} (hinv : SwitchInv server s)
    (hpc : s.world.calls i = .renewing ticket (some r)) :
    SwitchInv server { s with answer := some (!(server.isOld r && s.phase.isRevoked)) } := by
  obtain ⟨rfl, hr, -⟩ := hinv.callOk hpc
  obtain ⟨u, hu⟩ := hinv.user
  refine ⟨⟨u, hu.keep rfl rfl rfl Iff.rfl⟩, hinv.pending, fun _ => ⟨i, _, _, hpc⟩, hinv.tickets,
    fun j => ?_⟩
  by_cases hji : j = i
  · subst hji
    simp only [hpc]
    refine ⟨rfl, hr, fun hfalse => ⟨r, rfl, ?_⟩⟩
    have hboth : (server.isOld r && s.phase.isRevoked) = true := by
      simpa only [Option.some.injEq, Bool.not_eq_false'] using hfalse
    exact (Bool.and_eq_true_iff.mp hboth).1
  · refine callOk_frame (hinv.call j) (fun hj => ?_) (fun hp _ => ⟨hp, rfl⟩) id
    exact absurd (hinv.tickets.unique j i _ hj (by rw [hpc]; rfl)) hji

theorem inv_revoke (hinv : SwitchInv server s) (hphase : s.phase = .requested) :
    SwitchInv server { s with phase := .revoked } := by
  obtain ⟨u, hu⟩ := hinv.user
  have hnone := hinv.pending_none (by rw [hphase]; nofun)
  refine ⟨⟨u, hu.keep rfl rfl rfl ?_⟩, ?_, hinv.answered, hinv.tickets, fun j => ?_⟩
  · rw [hphase]
    exact iff_of_false nofun nofun
  · simp only [hnone]
    exact iff_of_false nofun nofun
  · refine callOk_frame (hinv.call j) (fun _ => ⟨rfl, rfl, rfl⟩) ?_ ?_
    · rw [hphase]
      nofun
    · rw [hphase]
      nofun

theorem inv_switchMove {l : SwitchLabel} (hinv : SwitchInv server s)
    (hmove : SwitchMove server s l s') (hc : RefusedAfterResponse s l) : SwitchInv server s' := by
  cases hmove with
  | refresh i hpc =>
    exact hinv.quiet (by rw [hpc]; nofun) rfl rfl rfl rfl Iff.rfl (fun h => ⟨h, rfl⟩) hinv.pending
      (hinv.tickets.take rfl rfl rfl) trivial
  | startRenew i ticket now hpc hturn => exact inv_startRenew hinv hpc hturn
  | startStore i ticket tokens now hpc hturn => exact inv_startStore now hinv hpc hturn
  | waited i switch hpc =>
    obtain ⟨u, hu⟩ := hinv.user
    refine hinv.quiet (by rw [hpc]; nofun) rfl rfl rfl rfl Iff.rfl (fun h => ⟨h, rfl⟩) hinv.pending
      (hinv.tickets.keep rfl rfl nofun) ?_
    rw [Client.getAccessToken, hu.current]
    nofun
  | request i tenantId inFlight pc hpc hphase hpc' =>
    have hnone := hinv.pending_none (by rw [hphase]; nofun)
    refine hinv.quiet (by rw [hpc]; nofun) rfl rfl rfl rfl ?_ ?_ ?_
      (hinv.tickets.keep rfl rfl ?_) ?_
    · rw [hphase]
      exact iff_of_false nofun nofun
    · rw [hphase]
      nofun
    · simp only [hnone]
      exact iff_of_false nofun nofun
    · rcases hpc' with rfl | rfl <;> nofun
    · rcases hpc' with rfl | rfl <;> trivial
  | respond i tenantId tokens hpc hphase htokens =>
    exact inv_respond hinv (by rw [hpc]; nofun) hphase htokens
  | store i ticket next hpc => exact inv_store hinv hpc
  | renew i ticket r u hpc hanswer hrenews => exact inv_renew hinv hpc hrenews
  | refuse i ticket r hpc hanswer => exact inv_refuse hinv hpc hanswer hc
  | process i ticket r hpc => exact inv_process hinv hpc
  | revoke hphase => exact inv_revoke hinv hphase

/-- A refused renew that settles before the response of the switch resolves to `null`. -/
theorem refusedAfterResponse_of_neverLooksDead {l : SwitchLabel} (hinv : SwitchInv server s)
    (hmove : SwitchMove server s l s') (h : NeverLooksDead server s') :
    RefusedAfterResponse s l := by
  cases hmove with
  | refuse i ticket r hpc hanswer =>
    by_contra hnot
    have hnone := hinv.pending_none fun hphase => hnot (Or.inl hphase)
    refine h.noNull i ?_
    simp only [SwitchRun.move, Function.update_self, afterRenew, RenewOutcome.token, hnone]
  | _ => trivial

theorem inv_signedIn {u : User} {r : String} (htoken : u.accessToken ≠ "")
    (hr : u.refreshToken = some r) (hold : server.isOld r = true) :
    SwitchInv server (signedIn u) :=
  { user := ⟨u, rfl, rfl, rfl, htoken, r, hr, hold⟩
    pending := iff_of_false nofun nofun
    answered := fun h => absurd rfl h
    tickets := ⟨Nat.le_refl _, nofun, nofun⟩
    call := fun _ => trivial }

/-- In a run no switch looks like a dead session if and only if no renew that the server has refused
settles before the response of the switch. -/
theorem switch_never_looks_dead_iff (server : SwitchServer) (u : User) (r : String)
    (htoken : u.accessToken ≠ "") (hr : u.refreshToken = some r) (hold : server.isOld r = true)
    (labels : List SwitchLabel) :
    Run.All (switchStep server) (fun _ _ s' => NeverLooksDead server s') (signedIn u) labels ↔
      Run.All (switchStep server) (fun s l _ => RefusedAfterResponse s l) (signedIn u) labels := by
  symm
  refine Run.all_iff_of_invariant (SwitchInv server) (fun s l s' hinv hs => ?_)
    (fun s l s' hinv hs hc => ?_) (inv_signedIn htoken hr hold)
  · have hmove := switchMove_of_step hs
    constructor
    · intro hc
      exact neverLooksDead_of_inv (inv_switchMove hinv hmove hc)
    · intro h
      exact refusedAfterResponse_of_neverLooksDead hinv hmove h
  · exact inv_switchMove hinv (switchMove_of_step hs) hc

/-! ### A renew that fails before the response -/

theorem switchStep_respond {i : ℕ} {tenantId : String} {tokens : SwitchTokens}
    (hpc : s.world.calls i = .switchRequested tenantId) (hphase : s.phase = .revoked)
    (htokens : server.answersSwitch tokens = true) :
    switchStep server s (.client i (.switchResponse (some tokens))) =
      some (s.move i
        { s.world.db with
          tickets := s.world.db.tickets + 1
          switchStorePending := some s.world.db.tickets }
        (.storeQueued s.world.db.tickets tokens) .responded s.answer) := by
  simp only [switchStep, environment, hpc, hphase, htokens, and_self, if_true, Option.bind_some, step,
    Run.interleave, act, Option.map_some, SwitchRun.move]

def switchToT2 : SwitchServer := ⟨fun r => decide (r = "rt1"), "t2"⟩

/-- The payload of the access token is one claim, the new tenant. -/
def tokensOfT2 : SwitchTokens := ⟨"h.eyJ0ZW5hbnRfaWQiOiJ0MiJ9.s", "rt2", "Bearer", 300⟩

def userOfT1 : User := ⟨"at1", some "rt1", "Bearer", none, [("tenant_id", .str "t1")], none, none, none⟩

theorem answersSwitch_tokensOfT2 : switchToT2.answersSwitch tokensOfT2 = true := by
  decide +kernel

/-- The failure of the renew arrives after the response of the switch. -/
def refusedLate : List SwitchLabel :=
  [.client 1 .refresh, .client 1 (.start 0), .client 2 (.switchTenant "t2"), .oldGrantRevoked,
    .renewProcessed 1, .client 2 (.switchResponse (some tokensOfT2)),
    .client 1 (.renewSettled .rejected), .client 2 (.start 0), .client 2 (.storeSettled true),
    .client 1 .settle]

theorem switch_never_looks_dead_late :
    userOfT1.accessToken ≠ "" ∧ userOfT1.refreshToken = some "rt1" ∧
      switchToT2.isOld "rt1" = true ∧
      Run.All (switchStep switchToT2) (fun _ _ s' => NeverLooksDead switchToT2 s')
        (signedIn userOfT1) refusedLate := by
  refine ⟨by decide, rfl, by decide, ?_⟩
  refine (switch_never_looks_dead_iff switchToT2 userOfT1 "rt1" (by decide) rfl (by decide) _).mpr ?_
  refine ⟨_, rfl, trivial, _, rfl, trivial, _, rfl, trivial, _, rfl, trivial, _, rfl, trivial,
    _, switchStep_respond rfl rfl answersSwitch_tokensOfT2, trivial, _, rfl, Or.inl rfl,
    _, rfl, trivial, _, rfl, trivial, _, rfl, trivial, trivial⟩

/-- The failure arrives first. -/
def refusedEarly : List SwitchLabel :=
  [.client 1 .refresh, .client 1 (.start 0), .client 2 (.switchTenant "t2"), .oldGrantRevoked,
    .renewProcessed 1, .client 1 (.renewSettled .rejected),
    .client 2 (.switchResponse (some tokensOfT2)), .client 2 (.start 0),
    .client 2 (.storeSettled true)]

theorem switch_looks_dead : ¬ ∀ (server : SwitchServer) (u : User) (r : String)
    (labels : List SwitchLabel), u.accessToken ≠ "" → u.refreshToken = some r →
    server.isOld r = true → Run.Enabled (switchStep server) (signedIn u) labels →
    Run.All (switchStep server) (fun _ _ s' => NeverLooksDead server s') (signedIn u) labels := by
  intro hall
  have hrun := hall switchToT2 userOfT1 "rt1" refusedEarly (by decide) rfl (by decide)
    ⟨_, rfl, trivial, _, rfl, trivial, _, rfl, trivial, _, rfl, trivial, _, rfl, trivial,
      _, rfl, trivial, _, switchStep_respond rfl rfl answersSwitch_tokensOfT2, trivial,
      _, rfl, trivial, _, rfl, trivial, trivial⟩
  obtain ⟨_, h1, -, _, h2, -, _, h3, -, _, h4, -, _, h5, -, _, h6, hdead, -⟩ := hrun
  cases h1
  cases h2
  cases h3
  cases h4
  cases h5
  cases h6
  exact hdead.noNull 1 rfl

end VcCommonService.Ui
