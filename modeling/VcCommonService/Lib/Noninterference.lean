import VcCommonService.Lib.Run

/-!
# Noninterference

A run in which others act as well ends for one party as if they had never acted. The unwinding
rule compares the run with the one from which the actions of the others are purged; for calls
over a shared database it is a rule about single statements.
-/

namespace VcCommonService.Lib.Run

section Unwinding

variable {σ α : Type*} {step : σ → α → Option σ} {C : σ → α → σ → Prop}

/-- Unwinding rule: `R` relates a state of the full run to one of the purged run. -/
theorem final_purge (own : α → Bool) (R : σ → σ → Prop)
    (hown : ∀ s t a s', R s t → step s a = some s' → C s a s' → own a = true →
      ∃ t', step t a = some t' ∧ R s' t')
    (hother : ∀ s t a s', R s t → step s a = some s' → C s a s' → own a = false → R s' t)
    {s t s' : σ} {as : List α} (hr : R s t) (hrun : All step C s as)
    (hfinal : final step s as = some s') :
    ∃ t', final step t (as.filter own) = some t' ∧ R s' t' := by
  induction as generalizing s t with
  | nil =>
    cases hfinal
    exact ⟨t, rfl, hr⟩
  | cons a as ih =>
    obtain ⟨s₁, hs₁, hc, hrest⟩ := hrun
    rw [final, hs₁, Option.bind_some] at hfinal
    cases ha : own a with
    | true =>
      obtain ⟨t₁, ht₁, hr₁⟩ := hown s t a s₁ hr hs₁ hc ha
      obtain ⟨t', ht', hr'⟩ := ih hr₁ hrest hfinal
      refine ⟨t', ?_, hr'⟩
      rw [List.filter_cons_of_pos ha, final, ht₁, Option.bind_some, ht']
    | false =>
      obtain ⟨t', ht', hr'⟩ := ih (hother s t a s₁ hr hs₁ hc ha) hrest hfinal
      refine ⟨t', ?_, hr'⟩
      rw [List.filter_cons_of_neg (by simp [ha]), ht']

end Unwinding

section Interleaving

variable {δ π ε : Type*} {act : δ → π → ε → Option (δ × π)}

theorem interleave_some {w : World δ π} {i : ℕ} {e : ε} {pc pc' : π} {db' : δ}
    (hpc : w.calls i = pc) (h : act w.db pc e = some (db', pc')) :
    interleave act w (i, e) = some ⟨db', Function.update w.calls i pc'⟩ := by
  rw [interleave, hpc, h]
  rfl

/-- The databases look alike to the party whose calls `mine` tells, and its calls stand at the
same point. -/
structure SameView (V : δ → δ → Prop) (mine : π → Bool) (w v : World δ π) : Prop where
  db : V w.db v.db
  calls : ∀ i, mine (w.calls i) = true → v.calls i = w.calls i

theorem mine_update {mine : π → Bool} {calls : ℕ → π} {i : ℕ} {pc : π}
    (h : mine pc = mine (calls i)) (j : ℕ) :
    mine (Function.update calls i pc j) = mine (calls j) := by
  by_cases hji : j = i
  · rw [hji, Function.update_self, h]
  · rw [Function.update_of_ne hji]

/-- A statement of the party finds and leaves the same in both databases, and one of another call
leaves what the party sees; then the calls of the party end as if the others had never come. -/
theorem purge_interleave {G : δ → Prop} {L : δ → π → Prop} {C : δ → π → ε → Prop}
    {V : δ → δ → Prop} {mine : π → Bool}
    (hkeep : ∀ w l w', Holds G L w → interleave act w l = some w' → Before C w l w' → Holds G L w')
    (hmine : ∀ db pc e db' pc', act db pc e = some (db', pc') → mine pc' = mine pc)
    (hown : ∀ db view pc e db' pc', G db → L db pc → V db view → act db pc e = some (db', pc') →
      C db pc e → mine pc = true → ∃ view', act view pc e = some (view', pc') ∧ V db' view')
    (hother : ∀ db view pc e db' pc', G db → L db pc → V db view →
      act db pc e = some (db', pc') → C db pc e → mine pc = false → V db' view)
    {w v w' : World δ π} {run : List (ℕ × ε)} (hw : Holds G L w) (hv : SameView V mine w v)
    (hrun : All (interleave act) (Before C) w run)
    (hfinal : final (interleave act) w run = some w') :
    ∃ v', final (interleave act) v (run.filter fun l => mine (w.calls l.1)) = some v' ∧
      SameView V mine w' v' := by
  have hunwound := final_purge (fun l : ℕ × ε => mine (w.calls l.1))
    (fun u v => Holds G L u ∧ SameView V mine u v ∧ ∀ i, mine (u.calls i) = mine (w.calls i))
    ?_ ?_ ⟨hw, hv, fun _ => rfl⟩ hrun hfinal
  · obtain ⟨v', hv', -, hsame, -⟩ := hunwound
    exact ⟨v', hv', hsame⟩
  · rintro s t ⟨i, e⟩ s' ⟨hs, hst, hconst⟩ hstep hc hi
    have hkept := hkeep s (i, e) s' hs hstep hc
    obtain ⟨db', pc', hact, rfl⟩ := interleave_cases hstep
    have hpc : mine (s.calls i) = true := (hconst i).trans hi
    obtain ⟨view', hview, hV⟩ := hown _ _ _ _ _ _ hs.1 (hs.2 i) hst.db hact hc hpc
    refine ⟨_, interleave_some (hst.calls i hpc) hview, hkept, ⟨hV, fun j hj => ?_⟩, fun j =>
      (mine_update (hmine _ _ _ _ _ hact) j).trans (hconst j)⟩
    dsimp only at hj ⊢
    by_cases hji : j = i
    · rw [hji, Function.update_self, Function.update_self]
    · rw [Function.update_of_ne hji] at hj ⊢
      rw [Function.update_of_ne hji]
      exact hst.calls j hj
  · rintro s t ⟨i, e⟩ s' ⟨hs, hst, hconst⟩ hstep hc hi
    have hkept := hkeep s (i, e) s' hs hstep hc
    obtain ⟨db', pc', hact, rfl⟩ := interleave_cases hstep
    have hpc : mine (s.calls i) = false := (hconst i).trans hi
    refine ⟨hkept, ⟨hother _ _ _ _ _ _ hs.1 (hs.2 i) hst.db hact hc hpc, fun j hj => ?_⟩,
      fun j => (mine_update (hmine _ _ _ _ _ hact) j).trans (hconst j)⟩
    dsimp only at hj ⊢
    have hji : j ≠ i := by
      rintro rfl
      rw [Function.update_self, hmine _ _ _ _ _ hact, hpc] at hj
      cases hj
    rw [Function.update_of_ne hji] at hj ⊢
    exact hst.calls j hj

end Interleaving

end VcCommonService.Lib.Run
