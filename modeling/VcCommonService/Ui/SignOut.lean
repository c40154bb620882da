import VcCommonService.Ui.AuthClient

/-!
# Signing out

`logout` and `clearSession` do not wait for the renew, the switch or the restoration that is in
flight. When one of these settles later with a user, it signs the browser in again.
-/

namespace VcCommonService.Ui
open Lib

/-- Once a sign-out has resolved, the client is signed out until a login is completed. -/
def SignedOutStays (c : Client) : Prop :=
  c.signedOut = true → c.currentState.status = .unauthenticated ∧ c.getAccessToken = none

/-- A request settles with a user that no login asked for. -/
def producesUser : Call → Event → Bool
  | .restoring found, .settle => found.isSome
  | .renewing _ _, .renewSettled (.user _) => true
  | .storing _ _, .storeSettled true => true
  | .revoking, .revokeSettled reloaded => reloaded.isSome
  | _, _ => false

/-- No such request settles after a sign-out, or between the removal of the user by a sign-out at
the provider and its end. -/
def NoLateUser (c : Client) (pc : Call) (e : Event) : Prop :=
  (c.signedOut = true → producesUser pc e = false) ∧
    (pc = .redirecting → e = .signoutSettled true → c.currentUser = none)

/-! ### What a step does to the user -/

inductive UserEffect (c : Client) (pc : Call) (e : Event) (c' : Client) : Prop where
  | same (hquiet : producesUser pc e = false)
      (hpc : ¬ (pc = .redirecting ∧ e = .signoutSettled true))
      (huser : c'.currentUser = c.currentUser) (hstate : c'.currentState = c.currentState)
      (hout : c'.signedOut = c.signedOut)
  | produced (u : User) (hproduces : producesUser pc e = true) (hpc : pc ≠ .redirecting)
      (huser : c'.currentUser = some u) (hstate : c'.currentState = stateOf (some u))
      (hout : c'.signedOut = c.signedOut)
  | cleared (hquiet : producesUser pc e = false)
      (hpc : ¬ (pc = .redirecting ∧ e = .signoutSettled true)) (huser : c'.currentUser = none)
      (hstate : c'.currentState = stateOf none)
  | redirected (hpc : pc = .redirecting) (he : e = .signoutSettled true) (hc' : c' = c.signOut)
  | completed (hquiet : producesUser pc e = false)
      (hpc : ¬ (pc = .redirecting ∧ e = .signoutSettled true))
      (hstate : c'.currentState = stateOf c'.currentUser) (hout : c'.signedOut = false)

variable {c c' : Client} {pc pc' : Call} {e : Event}

theorem userEffect_of_act (h : act c pc e = some (c', pc')) : UserEffect c pc e c' := by
  unfold act at h
  split at h
  next found =>
    cases h
    cases found with
    | none => exact .cleared rfl (by simp) rfl rfl
    | some u => exact .produced u rfl nofun rfl rfl rfl
  · cases h
    exact .same rfl (by simp) rfl rfl rfl
  · split at h <;> cases h
    exact .same rfl (by simp) rfl rfl rfl
  next outcome =>
    cases h
    cases outcome with
    | user u => exact .produced u rfl nofun rfl rfl rfl
    | null => exact .cleared rfl (by simp) rfl rfl
    | rejected => exact .same rfl (by simp) rfl rfl rfl
  · split at h <;> cases h
    exact .same rfl (by simp) rfl rfl rfl
  · split at h <;> cases h <;> exact .same rfl (by simp) rfl rfl rfl
  · cases h
    exact .same rfl (by simp) rfl rfl rfl
  · cases h
    exact .same rfl (by simp) rfl rfl rfl
  · split at h <;> cases h
    exact .same rfl (by simp) rfl rfl rfl
  next next' =>
    cases h
    exact .produced next' rfl nofun rfl rfl rfl
  · cases h
    exact .same rfl (by simp) rfl rfl rfl
  · cases h
    exact .same rfl (by simp) rfl rfl rfl
  next reloaded =>
    cases h
    cases reloaded with
    | none => exact .same rfl (by simp) rfl rfl rfl
    | some u => exact .produced u rfl nofun rfl rfl rfl
  · cases h
    exact .cleared rfl (by simp) rfl rfl
  · cases h
    exact .cleared rfl (by simp) rfl rfl
  · cases h
    exact .redirected rfl rfl rfl
  · cases h
    exact .cleared rfl (by simp) rfl rfl
  · cases h
    exact .same rfl (by simp) rfl rfl rfl
  · cases h
    exact .cleared rfl (by simp) rfl rfl
  · cases h
    exact .same rfl (by simp) rfl rfl rfl
  · cases h
    exact .completed rfl (by simp) rfl rfl
  · cases h
    exact .same rfl (by simp) rfl rfl rfl
  · cases h

/-! ### Invariant -/

/-- The state says what the user is, except while it is loading. -/
def Known (c : Client) : Prop := c.currentState = stateOf c.currentUser

def ClientInv (c : Client) : Prop := (Known c ∨ c.currentUser = none) ∧ SignedOutStays c

/-- The user was removed, so the client is not loading. -/
def CallInv (c : Client) : Call → Prop
  | .redirecting => Known c
  | _ => True

theorem known_of_effect (heffect : UserEffect c pc e c') (h : Known c) : Known c' := by
  cases heffect with
  | same hquiet hpc huser hstate hout =>
    unfold Known
    rw [huser, hstate]
    exact h
  | produced u hproduces hpc huser hstate hout =>
    unfold Known
    rw [huser, hstate]
  | cleared hquiet hpc huser hstate =>
    unfold Known
    rw [huser, hstate]
  | redirected hpc he hc' =>
    rw [hc']
    exact h
  | completed hquiet hpc hstate hout => exact hstate

theorem noLateUser_iff (hinv : ClientInv c) (hcall : CallInv c pc)
    (h : act c pc e = some (c', pc')) : NoLateUser c pc e ↔ SignedOutStays c' := by
  cases userEffect_of_act h with
  | same hquiet hpc huser hstate hout =>
    refine iff_of_true ⟨fun _ => hquiet, fun h1 h2 => absurd ⟨h1, h2⟩ hpc⟩ ?_
    unfold SignedOutStays Client.getAccessToken
    rw [hout, hstate, huser]
    exact hinv.2
  | produced u hproduces hpc huser hstate hout =>
    unfold NoLateUser SignedOutStays
    rw [hproduces, hstate, hout]
    constructor
    · rintro ⟨hnot, -⟩ hsigned
      cases hnot hsigned
    · intro hstays
      exact ⟨fun hsigned => (nomatch (hstays hsigned).1), fun h1 => absurd h1 hpc⟩
  | cleared hquiet hpc huser hstate =>
    refine iff_of_true ⟨fun _ => hquiet, fun h1 h2 => absurd ⟨h1, h2⟩ hpc⟩ fun _ => ?_
    unfold Client.getAccessToken
    rw [hstate, huser]
    exact ⟨rfl, rfl⟩
  | redirected hpc he hc' =>
    subst hpc he hc'
    have hknown : c.currentState = stateOf c.currentUser := hcall
    constructor
    · rintro ⟨-, hnone⟩ -
      have huser := hnone rfl rfl
      rw [huser] at hknown
      exact ⟨congrArg AuthState.status hknown, congrArg (Option.map User.accessToken) huser⟩
    · intro hstays
      refine ⟨fun _ => rfl, fun _ _ => ?_⟩
      exact Option.map_eq_none_iff.mp (hstays rfl).2
  | completed hquiet hpc hstate hout =>
    refine iff_of_true ⟨fun _ => hquiet, fun h1 h2 => absurd ⟨h1, h2⟩ hpc⟩ fun hsigned => ?_
    rw [hout] at hsigned
    cases hsigned

theorem clientInv_act (hinv : ClientInv c) (hcall : CallInv c pc)
    (h : act c pc e = some (c', pc')) (hc : NoLateUser c pc e) : ClientInv c' := by
  refine ⟨?_, (noLateUser_iff hinv hcall h).mp hc⟩
  rcases hinv.1 with hknown | hnone
  · exact Or.inl (known_of_effect (userEffect_of_act h) hknown)
  · cases userEffect_of_act h with
    | same hquiet hpc huser hstate hout => exact Or.inr (huser.trans hnone)
    | produced u hproduces hpc huser hstate hout => exact Or.inl (by rw [Known, huser, hstate])
    | cleared hquiet hpc huser hstate => exact Or.inr huser
    | redirected hpc he hc' => exact Or.inr (hc' ▸ hnone)
    | completed hquiet hpc hstate hout => exact Or.inl hstate

theorem afterRenew_ne_redirecting (c : Client) (outcome : RenewOutcome) :
    afterRenew c outcome ≠ .redirecting := by
  unfold afterRenew
  split
  · nofun
  · split <;> nofun

theorem redirecting_of_act (h : act c pc e = some (c', .redirecting)) : c' = c.removeUser := by
  unfold act at h
  split at h
  case h_4 => exact absurd (congrArg Prod.snd (Option.some.inj h)) (afterRenew_ne_redirecting _ _)
  case h_3 => split at h <;> cases h
  case h_5 => split at h <;> cases h
  case h_6 => split at h <;> cases h
  case h_9 => split at h <;> cases h
  all_goals cases h
  rfl

theorem callInv_own (h : act c pc e = some (c', pc')) : CallInv c' pc' := by
  cases pc' with
  | redirecting =>
    rw [redirecting_of_act h]
    exact (rfl : stateOf none = stateOf none)
  | _ => trivial

theorem callInv_frame {other : Call} (h : act c pc e = some (c', pc')) (hother : CallInv c other) :
    CallInv c' other := by
  cases other with
  | redirecting => exact known_of_effect (userEffect_of_act h) hother
  | _ => trivial

/-- Signing out is final in a run if and only if nothing that is in flight settles with a user after
a sign-out. -/
theorem sign_out_final_iff (stored : Option User) (events : List (ℕ × Event)) :
    Run.All step (fun _ _ w' => SignedOutStays w'.db) (created stored) events ↔
      Run.All step (Run.Before NoLateUser) (created stored) events := by
  symm
  refine Run.all_iff_of_invariant (Run.Holds ClientInv CallInv) (fun w l w' hi hs => ?_)
    (fun w l w' hi hs hc => ?_) ⟨⟨Or.inr rfl, nofun⟩, fun i => ?_⟩
  · obtain ⟨c', pc', ha, rfl⟩ := Run.interleave_cases hs
    exact noLateUser_iff hi.1 (hi.2 l.1) ha
  · refine Run.holds_interleave (C := NoLateUser) ?_ ?_ hi hs hc
    · intro c pc e c' pc' hinv hcall ha hlate
      exact ⟨clientInv_act hinv hcall ha hlate, callInv_own ha⟩
    · intro c pc e c' pc' other _ _ hother ha _
      exact callInv_frame ha hother
  · simp only [created]
    split <;> trivial

/-! ### A renew that settles late -/

def signedInUser : User :=
  ⟨"at1", some "rt1", "Bearer", none, [("sub", .str "u"), ("tenant_id", .str "t1")], none, none, none⟩

/-- The session is cleared while a renew is in flight. -/
def clearDuringRenew : List (ℕ × Event) :=
  [(0, .settle), (1, .refresh), (1, .start 0), (2, .clearSession), (2, .settle),
    (1, .renewSettled (.user { signedInUser with accessToken := "at2" }))]

/-- The renew signs the browser in again. -/
theorem sign_out_undone : ¬ ∀ (stored : Option User) (events : List (ℕ × Event)),
    Run.Enabled step (created stored) events →
    Run.All step (fun _ _ w' => SignedOutStays w'.db) (created stored) events := by
  intro hall
  have hrun := hall (some signedInUser) clearDuringRenew
    ⟨_, rfl, trivial, _, rfl, trivial, _, rfl, trivial, _, rfl, trivial, _, rfl, trivial, _, rfl,
      trivial, trivial⟩
  obtain ⟨_, h1, -, _, h2, -, _, h3, -, _, h4, -, _, h5, -, _, h6, hstays, -⟩ := hrun
  cases h1
  cases h2
  cases h3
  cases h4
  cases h5
  cases h6
  exact nomatch (hstays rfl).1

end VcCommonService.Ui
