import Mathlib.Logic.Function.Basic
import Mathlib.Data.List.Basic
import Mathlib.Algebra.GroupWithZero.Nat

/-!
# Runs of labelled step functions and interleavings of calls

A step function `σ → α → Option σ` says what an action does in a state; `none`
means that the action is not enabled there. A run is a list of actions. The
second half specialises this to calls that share one database: each call has a
program counter of its own, and a label names the call that moves. The rules are
those of Owicki and Gries: a global invariant, one assertion per program counter,
and freedom from interference.
-/

namespace VcCommonService.Lib.Run

variable {σ α : Type*}

/-- Every step of the run `as` from `s` is enabled and satisfies `P`. -/
def All (step : σ → α → Option σ) (P : σ → α → σ → Prop) : σ → List α → Prop
  | _, [] => True
  | s, a :: as => ∃ s', step s a = some s' ∧ P s a s' ∧ All step P s' as

def Enabled (step : σ → α → Option σ) (s : σ) (as : List α) : Prop :=
  All step (fun _ _ _ => True) s as

def final (step : σ → α → Option σ) : σ → List α → Option σ
  | s, [] => some s
  | s, a :: as => (step s a).bind fun s' => final step s' as

variable {step : σ → α → Option σ} {P Q C : σ → α → σ → Prop} {s s' : σ} {as : List α}

theorem all_labels {Q : α → Prop} (hq : ∀ a ∈ as, Q a) (hp : All step P s as) :
    All step (fun s a s' => P s a s' ∧ Q a) s as := by
  induction as generalizing s with
  | nil => trivial
  | cons a as ih =>
    obtain ⟨t, ht, hpt, hrest⟩ := hp
    exact ⟨t, ht, ⟨hpt, hq a (List.mem_cons_self ..)⟩,
      ih (fun b hb => hq b (List.mem_cons_of_mem _ hb)) hrest⟩

/-- Invariant rule: where `C` holds of every step, an invariant that `C`-steps keep
gives `P` at every step. -/
theorem all_of_invariant (I : σ → Prop)
    (hstep : ∀ s a s', I s → step s a = some s' → C s a s' → I s' ∧ P s a s')
    (hi : I s) (hc : All step C s as) : All step P s as := by
  induction as generalizing s with
  | nil => trivial
  | cons a as ih =>
    obtain ⟨t, ht, hct, hrest⟩ := hc
    obtain ⟨hit, hpt⟩ := hstep s a t hi ht hct
    exact ⟨t, ht, hpt, ih hit hrest⟩

/-- Exactness rule: if `C` and `P` agree at every step from an invariant state and
such steps keep the invariant, they agree on whole runs. -/
theorem all_iff_of_invariant (I : σ → Prop)
    (hiff : ∀ s a s', I s → step s a = some s' → (C s a s' ↔ P s a s'))
    (hkeep : ∀ s a s', I s → step s a = some s' → C s a s' → I s')
    (hi : I s) : All step C s as ↔ All step P s as := by
  constructor
  · exact all_of_invariant I
      (fun s a s' h ht hc => ⟨hkeep s a s' h ht hc, (hiff s a s' h ht).1 hc⟩) hi
  · exact all_of_invariant I
      (fun s a s' h ht hp => ⟨hkeep s a s' h ht ((hiff s a s' h ht).2 hp),
        (hiff s a s' h ht).2 hp⟩) hi

theorem final_of_invariant (I : σ → Prop)
    (hstep : ∀ s a s', I s → step s a = some s' → C s a s' → I s')
    (hi : I s) (hc : All step C s as) (hf : final step s as = some s') : I s' := by
  induction as generalizing s with
  | nil =>
    have he : s = s' := Option.some.inj hf
    exact he ▸ hi
  | cons a as ih =>
    obtain ⟨t, ht, hct, hrest⟩ := hc
    refine ih (hstep s a t hi ht hct) hrest ?_
    simpa only [final, ht, Option.bind_some] using hf

/-! ### One run after another -/

theorem final_cons {a : α} {s t : σ} (h : final step s (a :: as) = some t) :
    ∃ s', step s a = some s' ∧ final step s' as = some t :=
  Option.bind_eq_some_iff.mp h

theorem all_append {bs : List α} {t : σ} (hp : All step P s (as ++ bs))
    (hf : final step s as = some t) : All step P s as ∧ All step P t bs := by
  induction as generalizing s with
  | nil =>
    cases hf
    exact ⟨trivial, hp⟩
  | cons a as ih =>
    obtain ⟨s', hs', hpa, hrest⟩ := hp
    rw [final, hs', Option.bind_some] at hf
    obtain ⟨has, hbs⟩ := ih hrest hf
    exact ⟨⟨s', hs', hpa, has⟩, hbs⟩

theorem enabled_of_total (h : ∀ s a, (step s a).isSome = true) (s : σ) (as : List α) :
    Enabled step s as := by
  induction as generalizing s with
  | nil => trivial
  | cons a as ih =>
    obtain ⟨t, ht⟩ := Option.isSome_iff_exists.mp (h s a)
    exact ⟨t, ht, trivial, ih t⟩

/-! ### Variants -/

/-- Variant rule: where `m` never grows and each step that counts makes it smaller, a run has at
most `m s` such steps. -/
theorem countP_le_of_variant (m : σ → ℕ) (counts : α → Bool)
    (hstep : ∀ s a s', step s a = some s' → m s' + (if counts a then 1 else 0) ≤ m s)
    (hrun : Enabled step s as) : as.countP counts ≤ m s := by
  induction as generalizing s with
  | nil => exact Nat.zero_le _
  | cons a as ih =>
    obtain ⟨t, ht, -, hrest⟩ := hrun
    have has := ih hrest
    have ha := hstep s a t ht
    rw [List.countP_cons]
    omega

/-- Variant rule with credit: a step that `pays` may raise `m` by `k`. -/
theorem countP_le_of_credit (m : σ → ℕ) (counts pays : α → Bool) (k : ℕ)
    (hstep : ∀ s a s', step s a = some s' →
      m s' + (if counts a then 1 else 0) ≤ m s + if pays a then k else 0)
    (hrun : Enabled step s as) : as.countP counts ≤ m s + k * as.countP pays := by
  induction as generalizing s with
  | nil => exact Nat.zero_le _
  | cons a as ih =>
    obtain ⟨t, ht, -, hrest⟩ := hrun
    have has := ih hrest
    have ha := hstep s a t ht
    rw [List.countP_cons, List.countP_cons, Nat.mul_add]
    have hk : k * (if pays a then 1 else 0) = if pays a then k else 0 := by
      rw [mul_ite, Nat.mul_one, Nat.mul_zero]
    omega

/-- The part of one of several parties in a variant that sums over them. -/
theorem sum_map_set {ι : Type*} (g : ι → ℕ) {l : List ι} {i : ℕ} {x : ι} (y : ι)
    (h : l[i]? = some x) : ((l.set i y).map g).sum + g x = (l.map g).sum + g y := by
  induction l generalizing i with
  | nil => cases h
  | cons z l ih =>
    cases i with
    | zero =>
      cases h
      simp only [List.set_cons_zero, List.map_cons, List.sum_cons]
      omega
    | succ i =>
      have htail := ih h
      simp only [List.set_cons_succ, List.map_cons, List.sum_cons]
      omega

/-! ### Evaluated runs -/

theorem enabled_of_final (h : (final step s as).isSome = true) : Enabled step s as := by
  induction as generalizing s with
  | nil => trivial
  | cons a as ih =>
    cases ht : step s a with
    | none => simp [final, ht] at h
    | some t =>
      rw [final, ht, Option.bind_some] at h
      exact ⟨t, ht, trivial, ih h⟩

theorem all_last {a : α} (hp : All step P s (as ++ [a])) (Q : σ → σ → Bool)
    (h : ((final step s as).bind fun t => (step t a).map (Q t)) = some true) :
    ∃ t t', P t a t' ∧ Q t t' = true := by
  induction as generalizing s with
  | nil =>
    obtain ⟨t, ht, hpt, -⟩ := hp
    rw [final, Option.bind_some, ht] at h
    exact ⟨s, t, hpt, Option.some.inj h⟩
  | cons b as ih =>
    obtain ⟨t, ht, -, hrest⟩ := hp
    rw [final, ht, Option.bind_some] at h
    exact ih hrest h

/-! ### Calls over a shared database -/

section Interleaving

variable {δ π ε : Type*}

structure World (δ π : Type*) where
  db : δ
  calls : ℕ → π

def interleave (act : δ → π → ε → Option (δ × π)) (w : World δ π) (l : ℕ × ε) :
    Option (World δ π) :=
  (act w.db (w.calls l.1) l.2).map fun r => ⟨r.1, Function.update w.calls l.1 r.2⟩

variable {act : δ → π → ε → Option (δ × π)} {w w' : World δ π} {l : ℕ × ε}

theorem interleave_cases (h : interleave act w l = some w') :
    ∃ db' pc', act w.db (w.calls l.1) l.2 = some (db', pc') ∧
      w' = ⟨db', Function.update w.calls l.1 pc'⟩ := by
  obtain ⟨⟨db', pc'⟩, ha, he⟩ := Option.map_eq_some_iff.mp h
  exact ⟨db', pc', ha, he.symm⟩

def Holds (G : δ → Prop) (L : δ → π → Prop) (w : World δ π) : Prop :=
  G w.db ∧ ∀ i, L w.db (w.calls i)

def Before (C : δ → π → ε → Prop) (w : World δ π) (l : ℕ × ε) (_ : World δ π) : Prop :=
  C w.db (w.calls l.1) l.2

def Across (P : δ → δ → Prop) (w : World δ π) (_ : ℕ × ε) (w' : World δ π) : Prop :=
  P w.db w'.db

/-- Owicki–Gries: an invariant is kept when the moving call keeps it and its own
assertion, and the assertions of the other calls survive the change of database. -/
theorem holds_interleave {G : δ → Prop} {L : δ → π → Prop} {C : δ → π → ε → Prop}
    (hown : ∀ db pc e db' pc', G db → L db pc → act db pc e = some (db', pc') → C db pc e →
      G db' ∧ L db' pc')
    (hframe : ∀ db pc e db' pc' other, G db → L db pc → L db other →
      act db pc e = some (db', pc') → C db pc e → L db' other)
    (hw : Holds G L w) (hs : interleave act w l = some w') (hc : Before C w l w') :
    Holds G L w' := by
  obtain ⟨db', pc', ha, rfl⟩ := interleave_cases hs
  have hpc := hw.2 l.1
  obtain ⟨hg, hl⟩ := hown _ _ _ _ _ hw.1 hpc ha hc
  refine ⟨hg, fun i => ?_⟩
  by_cases hi : i = l.1
  · subst hi
    simpa only [Function.update_self] using hl
  · simpa only [Function.update_of_ne hi] using
      hframe _ _ _ _ _ (w.calls i) hw.1 hpc (hw.2 i) ha hc

/-- A call that moves while no other does. -/
theorem final_alone (i : ℕ) (es : List ε) (w : World δ π) :
    final (interleave act) w (es.map fun e => (i, e)) =
      (final (fun (s : δ × π) e => act s.1 s.2 e) (w.db, w.calls i) es).map
        fun s => ⟨s.1, Function.update w.calls i s.2⟩ := by
  induction es generalizing w with
  | nil => simp [final]
  | cons e es ih =>
    rw [List.map_cons, final, final, interleave, Option.bind_map, Option.map_bind]
    congr 1
    funext s
    simp [ih]

end Interleaving

/-! ### Runs with their past -/

theorem all_with_step (h : All step P s as) :
    All step (fun s a s' => P s a s' ∧ step s a = some s') s as := by
  induction as generalizing s with
  | nil => trivial
  | cons a as ih =>
    obtain ⟨t, ht, hp, hrest⟩ := h
    exact ⟨t, ht, ⟨hp, ht⟩, ih hrest⟩

/-- The state with the labels so far and the states that they met, the newest first. -/
def traced (step : σ → α → Option σ) (s : σ × List (σ × α)) (a : α) :
    Option (σ × List (σ × α)) :=
  (step s.1 a).map fun t => (t, (s.1, a) :: s.2)

theorem traced_cases {s s' : σ × List (σ × α)} {a : α} (h : traced step s a = some s') :
    step s.1 a = some s'.1 ∧ s'.2 = (s.1, a) :: s.2 := by
  obtain ⟨t, ht, rfl⟩ := Option.map_eq_some_iff.mp h
  exact ⟨ht, rfl⟩

/-- What holds of the steps of a run holds of them with their past. -/
theorem all_traced (h : All step P s as) (past : List (σ × α)) :
    All (traced step) (fun s a s' => P s.1 a s'.1) (s, past) as := by
  induction as generalizing s past with
  | nil => trivial
  | cons a as ih =>
    obtain ⟨t, ht, hp, hrest⟩ := h
    exact ⟨(t, (s, a) :: past), by rw [traced, ht, Option.map_some], hp, ih hrest _⟩

end VcCommonService.Lib.Run
