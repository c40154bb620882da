import VcCommonService.Lib.Js
import Mathlib.Data.List.TakeWhile

/-!
# Splitting text at runs of separators

`s.split(/\s+/)` cuts a text at every maximal run of separators, so a run at an end of the text
leaves an empty piece there. `words` drops the empty pieces and reads a joined list of words back.
-/

namespace VcCommonService.Lib.Words

variable {α : Type*} {sep : α → Bool}

def push (c : α) : List (List α) → List (List α)
  | [] => [[c]]
  | piece :: pieces => (c :: piece) :: pieces

/-- The pieces between the runs; `inRun` tells that the run at the head is already cut. -/
def splitRuns (sep : α → Bool) : Bool → List α → List (List α)
  | _, [] => [[]]
  | inRun, c :: cs =>
    if sep c then
      if inRun then splitRuns sep true cs else [] :: splitRuns sep true cs
    else push c (splitRuns sep false cs)

/-- `split(/…+/).filter(Boolean)`. -/
def words (sep : α → Bool) (text : List α) : List (List α) :=
  (splitRuns sep false text).filter fun piece => !piece.isEmpty

/-- A piece between two runs. -/
def Free (sep : α → Bool) (piece : List α) : Prop := ∀ c ∈ piece, sep c = false

def AllSep (sep : α → Bool) (run : List α) : Prop := ∀ c ∈ run, sep c = true

instance (sep : α → Bool) (piece : List α) : Decidable (Free sep piece) :=
  List.decidableBAll (fun c => sep c = false) piece

theorem splitRuns_free {w : List α} (hw : Free sep w) (inRun : Bool) :
    splitRuns sep inRun w = [w] := by
  induction w generalizing inRun with
  | nil => rfl
  | cons c w ih =>
    have hc : sep c = false := hw c (List.mem_cons_self ..)
    have hrest : Free sep w := fun d hd => hw d (List.mem_cons_of_mem _ hd)
    simp [splitRuns, hc, ih hrest, push]

/-- Behind a separator the rest of its run does not count. -/
theorem splitRuns_run {run : List α} (hrun : AllSep sep run) (rest : List α) :
    splitRuns sep true (run ++ rest) = splitRuns sep true rest := by
  induction run with
  | nil => rfl
  | cons c run ih =>
    have hc : sep c = true := hrun c (List.mem_cons_self ..)
    simp [splitRuns, hc, ih fun d hd => hrun d (List.mem_cons_of_mem _ hd)]

theorem splitRuns_start {rest : List α} (h : ∀ c ∈ rest.head?, sep c = false) (inRun : Bool) :
    splitRuns sep inRun rest = splitRuns sep false rest := by
  cases rest with
  | nil => rfl
  | cons c rest =>
    have hc : sep c = false := h c rfl
    simp [splitRuns, hc]

/-- A piece, the run behind it, and what follows. -/
theorem splitRuns_piece {w run rest : List α} (hw : Free sep w) (hne : run ≠ [])
    (hrun : AllSep sep run) (hrest : ∀ c ∈ rest.head?, sep c = false) :
    splitRuns sep false (w ++ run ++ rest) = w :: splitRuns sep false rest := by
  induction w with
  | nil =>
    cases run with
    | nil => exact absurd rfl hne
    | cons s run =>
      have hs : sep s = true := hrun s (List.mem_cons_self ..)
      have htail := splitRuns_run (fun c hc => hrun c (List.mem_cons_of_mem _ hc)) rest
      simp [splitRuns, hs, htail, splitRuns_start hrest true]
  | cons c w ih =>
    have hc : sep c = false := hw c (List.mem_cons_self ..)
    have hfree : Free sep w := fun d hd => hw d (List.mem_cons_of_mem _ hd)
    have htail := ih hfree
    rw [List.append_assoc] at htail
    simp [splitRuns, hc, htail, push]

/-- Either the text has no separator, or it is a piece, a run, and a rest that starts no run. -/
theorem decompose (sep : α → Bool) (text : List α) : Free sep text ∨
    ∃ w run rest, text = w ++ run ++ rest ∧ Free sep w ∧ run ≠ [] ∧ AllSep sep run ∧
      ∀ c ∈ rest.head?, sep c = false := by
  induction text with
  | nil => exact Or.inl nofun
  | cons c text ih =>
    cases hc : sep c with
    | false =>
      have hcons : ∀ w, Free sep w → Free sep (c :: w) := by
        intro w hw d hd
        rcases List.mem_cons.mp hd with rfl | hd
        · exact hc
        · exact hw d hd
      rcases ih with hfree | ⟨w, run, rest, rfl, hw, hrun⟩
      · exact Or.inl (hcons text hfree)
      · exact Or.inr ⟨c :: w, run, rest, rfl, hcons w hw, hrun⟩
    | true =>
      refine Or.inr ⟨[], c :: text.takeWhile sep, text.dropWhile sep, ?_, nofun, nofun, ?_, ?_⟩
      · simp
      · intro d hd
        rcases List.mem_cons.mp hd with rfl | hd
        · exact hc
        · exact List.mem_takeWhile_imp hd
      · intro d hd
        have hnot := List.head?_dropWhile_not sep text
        rw [Option.mem_def.mp hd] at hnot
        exact hnot

/-- Two pieces: one run between two texts without separators. -/
theorem splitRuns_eq_pair {text a b : List α} :
    splitRuns sep false text = [a, b] ↔ ∃ run, text = a ++ run ++ b ∧ Free sep a ∧ Free sep b ∧
      run ≠ [] ∧ AllSep sep run := by
  constructor
  · intro h
    rcases decompose sep text with hfree | ⟨w, run, rest, rfl, hw, hne, hrun, hrest⟩
    · rw [splitRuns_free hfree] at h
      cases h
    · rw [splitRuns_piece hw hne hrun hrest, List.cons.injEq] at h
      obtain ⟨rfl, htail⟩ := h
      rcases decompose sep rest with hfree | ⟨w', run', rest', rfl, hw', hne', hrun', hrest'⟩
      · rw [splitRuns_free hfree, List.cons.injEq] at htail
        obtain ⟨rfl, -⟩ := htail
        exact ⟨run, rfl, hw, hfree, hne, hrun⟩
      · rw [splitRuns_piece hw' hne' hrun' hrest', List.cons.injEq] at htail
        have hnil := htail.2
        rcases decompose sep rest' with hf | ⟨w'', run'', rest'', rfl, hw'', hne'', hrun'', hrest''⟩
        · rw [splitRuns_free hf] at hnil
          cases hnil
        · rw [splitRuns_piece hw'' hne'' hrun'' hrest''] at hnil
          cases hnil
  · rintro ⟨run, rfl, ha, hb, hne, hrun⟩
    rw [splitRuns_piece ha hne hrun, splitRuns_free hb]
    intro c hc
    exact hb c (List.mem_of_mem_head? hc)

/-- Words joined with one separator are read back. -/
theorem words_intercalate {s : α} (hs : sep s = true) {ws : List (List α)}
    (hne : ∀ w ∈ ws, w ≠ []) (hfree : ∀ w ∈ ws, Free sep w) :
    words sep ([s].intercalate ws) = ws := by
  induction ws with
  | nil => rfl
  | cons w ws ih =>
    have hw := hfree w (List.mem_cons_self ..)
    have hwne : w ≠ [] := hne w (List.mem_cons_self ..)
    cases ws with
    | nil =>
      rw [List.intercalate_singleton, words, splitRuns_free hw]
      simp [hwne]
    | cons v vs =>
      have htail := ih (fun x hx => hne x (List.mem_cons_of_mem _ hx))
        fun x hx => hfree x (List.mem_cons_of_mem _ hx)
      have hhead : ∀ c ∈ ([s].intercalate (v :: vs)).head?, sep c = false := by
        have hv := hfree v (List.mem_cons_of_mem _ (List.mem_cons_self ..))
        cases v with
        | nil => exact absurd rfl (hne [] (List.mem_cons_of_mem _ (List.mem_cons_self ..)))
        | cons c v =>
          intro d hd
          have hcd : d = c := by
            cases vs with
            | nil => simpa [eq_comm] using hd
            | cons u us => simpa [List.intercalate_cons_cons, eq_comm] using hd
          exact hcd ▸ hv c (List.mem_cons_self ..)
      rw [List.intercalate_cons_cons, words, splitRuns_piece hw (by simp)
        (by simpa [AllSep] using hs) hhead, List.filter_cons_of_pos (by simpa using hwne)]
      exact congrArg (List.cons w) htail

/-! ### `trim` -/

section Trim

/-- The text without the separators at both ends. -/
def trimSep (sep : α → Bool) (text : List α) : List α :=
  ((text.dropWhile sep).reverse.dropWhile sep).reverse

/-- No separator at either end. -/
structure Trimmed (sep : α → Bool) (text : List α) : Prop where
  head : ∀ c ∈ text.head?, sep c = false
  last : ∀ c ∈ text.getLast?, sep c = false

theorem dropWhile_allSep {run rest : List α} (hrun : AllSep sep run)
    (hrest : ∀ c ∈ rest.head?, sep c = false) : (run ++ rest).dropWhile sep = rest := by
  induction run with
  | nil =>
    cases rest with
    | nil => rfl
    | cons c rest => exact List.dropWhile_cons_of_neg (by simp [hrest c rfl])
  | cons c run ih =>
    rw [List.cons_append, List.dropWhile_cons_of_pos (hrun c (List.mem_cons_self ..))]
    exact ih fun d hd => hrun d (List.mem_cons_of_mem _ hd)

theorem trimSep_append {pre text post : List α} (hpre : AllSep sep pre) (hpost : AllSep sep post)
    (htext : Trimmed sep text) (hne : text ≠ []) : trimSep sep (pre ++ text ++ post) = text := by
  have hhead : ∀ c ∈ (text ++ post).head?, sep c = false := by
    intro c hc
    rw [List.head?_append_of_ne_nil text hne] at hc
    exact htext.head c hc
  have hlast : ∀ c ∈ text.reverse.head?, sep c = false := by
    intro c hc
    rw [List.head?_reverse] at hc
    exact htext.last c hc
  have hpost' : AllSep sep post.reverse := fun c hc => hpost c (List.mem_reverse.mp hc)
  rw [trimSep, List.append_assoc, dropWhile_allSep hpre hhead, List.reverse_append,
    dropWhile_allSep hpost' hlast, List.reverse_reverse]

theorem trimSep_spec (sep : α → Bool) (text : List α) : ∃ pre post,
    text = pre ++ trimSep sep text ++ post ∧ AllSep sep pre ∧ AllSep sep post := by
  refine ⟨text.takeWhile sep, ((text.dropWhile sep).reverse.takeWhile sep).reverse, ?_,
    fun c hc => List.mem_takeWhile_imp hc, fun c hc => ?_⟩
  · rw [trimSep, List.append_assoc, ← List.reverse_append, List.takeWhile_append_dropWhile,
      List.reverse_reverse, List.takeWhile_append_dropWhile]
  · exact List.mem_takeWhile_imp (List.mem_reverse.mp hc)

end Trim

end VcCommonService.Lib.Words
