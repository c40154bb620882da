import Mathlib.Data.Nat.Notation
import Mathlib.Tactic.Common

/-!
# Single flight

A field that holds the promise of the one call in flight: a caller that finds it filled waits for
that call, one that finds it empty starts another. A handler on the promise may empty the field
again, by the outcome.
-/

namespace VcCommonService.Lib.SingleFlight

variable {τ ρ : Type*}

/-- The function runs, it has returned and the handler has not run, the promise is settled. -/
inductive Flight (τ ρ : Type*) where
  | running (task : τ)
  | returned (outcome : ρ)
  | settled (outcome : ρ)

def Flight.Open : Flight τ ρ → Prop
  | .settled _ => False
  | _ => True

structure Cell (τ ρ : Type*) where
  current : Option ℕ
  flights : List (Flight τ ρ)

namespace Cell

def empty : Cell τ ρ := ⟨none, []⟩

/-- `this.promise ??= f()`, and the flight whose promise is in the field then. -/
def join (cell : Cell τ ρ) (start : Flight τ ρ) : Cell τ ρ × ℕ :=
  match cell.current with
  | some f => (cell, f)
  | none => (⟨some cell.flights.length, cell.flights ++ [start]⟩, cell.flights.length)

def set (cell : Cell τ ρ) (f : ℕ) (flight : Flight τ ρ) : Cell τ ρ :=
  { cell with flights := cell.flights.set f flight }

/-- The handler, which empties the field for the outcomes that `forget` tells. -/
def settle (forget : ρ → Bool) (cell : Cell τ ρ) (f : ℕ) : Option (Cell τ ρ) :=
  match cell.flights[f]? with
  | some (.returned outcome) => some
      ⟨if forget outcome then none else cell.current, cell.flights.set f (.settled outcome)⟩
  | _ => none

/-- The field holds the call in flight, and an outcome that is not forgotten. -/
structure Wf (forget : ρ → Bool) (cell : Cell τ ρ) : Prop where
  lt : ∀ f, cell.current = some f → f < cell.flights.length
  unsettled : ∀ f flight, cell.flights[f]? = some flight → flight.Open → cell.current = some f
  kept : ∀ f outcome, cell.flights[f]? = some (.settled outcome) → forget outcome = false →
    cell.current = some f
  remembered : ∀ f outcome, cell.current = some f → cell.flights[f]? = some (.settled outcome) →
    forget outcome = false

variable {forget : ρ → Bool} {cell cell' : Cell τ ρ} {f g : ℕ} {flight start : Flight τ ρ}

theorem wf_empty : Wf forget (empty : Cell τ ρ) :=
  ⟨nofun, nofun, nofun, nofun⟩

/-! ### Operations -/

theorem getElem?_set {flights : List (Flight τ ρ)} {x y : Flight τ ρ} (hf : flights[f]? = some x)
    (h : (flights.set f flight)[g]? = some y) :
    (g = f ∧ y = flight) ∨ (g ≠ f ∧ flights[g]? = some y) := by
  have hlt := (List.getElem?_eq_some_iff.mp hf).1
  by_cases hg : g = f
  · subst hg
    rw [List.getElem?_set_self hlt] at h
    exact Or.inl ⟨rfl, (Option.some.inj h).symm⟩
  · rw [List.getElem?_set_ne (Ne.symm hg)] at h
    exact Or.inr ⟨hg, h⟩

theorem getElem?_append_start {flights : List (Flight τ ρ)}
    (hf : (flights ++ [start])[f]? = some flight) :
    flights[f]? = some flight ∨ (f = flights.length ∧ flight = start) := by
  by_cases hlt : f < flights.length
  · rw [List.getElem?_append_left hlt] at hf
    exact Or.inl hf
  · rw [List.getElem?_append_right (Nat.le_of_not_lt hlt), List.getElem?_singleton] at hf
    split at hf
    · exact Or.inr ⟨by omega, (Option.some.inj hf).symm⟩
    · cases hf

theorem join_cases (hf : (cell.join start).1.flights[f]? = some flight) :
    cell.flights[f]? = some flight ∨ flight = start := by
  unfold Cell.join at hf
  split at hf
  · exact Or.inl hf
  · exact (getElem?_append_start hf).imp_right And.right

theorem Wf.join (h : Wf forget cell) (hstart : start.Open) : Wf forget (cell.join start).1 := by
  unfold Cell.join
  split
  · exact h
  next hnone =>
  have hold : ∀ (f : ℕ) (x : Flight τ ρ), cell.flights[f]? = some x → x.Open → False := by
    intro f x hf hopen
    have hcurrent := h.unsettled f x hf hopen
    rw [hnone] at hcurrent
    cases hcurrent
  refine ⟨?_, ?_, ?_, ?_⟩
  · intro f hf
    cases hf
    simp
  · intro f flight hf hopen
    rcases getElem?_append_start hf with hf | ⟨rfl, -⟩
    · exact absurd hopen (hold f flight hf)
    · rfl
  · intro f outcome hf hkeep
    rcases getElem?_append_start hf with hf | ⟨-, rfl⟩
    · have hcurrent := h.kept f outcome hf hkeep
      rw [hnone] at hcurrent
      cases hcurrent
    · exact absurd hstart id
  · intro f outcome hf hsettled
    cases hf
    rcases getElem?_append_start hsettled with hf | ⟨-, rfl⟩
    · have hlt := (List.getElem?_eq_some_iff.mp hf).1
      exact absurd hlt (Nat.lt_irrefl _)
    · exact absurd hstart id

/-- The flight that a caller waits for is there. -/
theorem join_lt (h : Wf forget cell) : (cell.join start).2 < (cell.join start).1.flights.length := by
  unfold Cell.join
  split
  next f hf => exact h.lt f hf
  · simp

theorem Wf.set (h : Wf forget cell) {old : Flight τ ρ} (hf : cell.flights[f]? = some old)
    (hold : old.Open) (hopen : flight.Open) : Wf forget (cell.set f flight) := by
  have hcurrent := h.unsettled f old hf hold
  refine ⟨?_, ?_, ?_, ?_⟩
  · intro g hg
    rw [Cell.set, List.length_set]
    exact h.lt g hg
  · intro g x hg hx
    rcases getElem?_set hf hg with ⟨rfl, -⟩ | ⟨-, hg⟩
    · exact hcurrent
    · exact h.unsettled g x hg hx
  · intro g outcome hg hkeep
    rcases getElem?_set hf hg with ⟨rfl, -⟩ | ⟨-, hg⟩
    · exact hcurrent
    · exact h.kept g outcome hg hkeep
  · intro g outcome hg hsettled
    rcases getElem?_set hf hsettled with ⟨-, rfl⟩ | ⟨-, hsettled⟩
    · exact absurd hopen id
    · exact h.remembered g outcome hg hsettled

theorem settle_cases (h : cell.settle forget f = some cell') :
    ∃ outcome, cell.flights[f]? = some (.returned outcome) ∧
      cell' = ⟨if forget outcome then none else cell.current,
        cell.flights.set f (.settled outcome)⟩ := by
  unfold settle at h
  split at h
  next outcome hf => exact ⟨outcome, hf, (Option.some.inj h).symm⟩
  · cases h

theorem Wf.settle (h : Wf forget cell) (hs : cell.settle forget f = some cell') :
    Wf forget cell' := by
  obtain ⟨outcome, hf, rfl⟩ := settle_cases hs
  have hcurrent := h.unsettled f _ hf trivial
  have hother : ∀ (g : ℕ) (x : Flight τ ρ), g ≠ f → cell.flights[g]? = some x →
      cell.current = some g → False := by
    intro g x hg _ hcur
    exact hg (Option.some.inj (hcur.symm.trans hcurrent))
  refine ⟨?_, ?_, ?_, ?_⟩
  · intro g hg
    dsimp only at hg ⊢
    rw [List.length_set]
    split at hg
    · cases hg
    · exact h.lt g hg
  · intro g x hg hx
    rcases getElem?_set hf hg with ⟨-, rfl⟩ | ⟨hne, hg⟩
    · exact absurd hx id
    · exact absurd (h.unsettled g x hg hx) (hother g x hne hg)
  · intro g o hg hkeep
    rcases getElem?_set hf hg with ⟨rfl, heq⟩ | ⟨hne, hg⟩
    · cases heq
      dsimp only
      rw [hkeep]
      exact hcurrent
    · exact absurd (h.kept g o hg hkeep) (hother g _ hne hg)
  · intro g o hcur hg
    dsimp only at hcur
    split at hcur
    · cases hcur
    next hforget =>
    rcases getElem?_set hf hg with ⟨-, heq⟩ | ⟨hne, hg⟩
    · cases heq
      exact Bool.eq_false_iff.mpr hforget
    · exact absurd hcur (hother g _ hne hg)

/-! ### Which flight a caller waits for -/

theorem Wf.join_open (h : Wf forget cell) (hf : cell.flights[f]? = some flight)
    (hopen : flight.Open) : cell.join start = (cell, f) := by
  rw [Cell.join, h.unsettled f flight hf hopen]

theorem Wf.current_eq_none (h : Wf forget cell) (hclosed : ∀ x ∈ cell.flights, ¬ x.Open)
    (hforgotten : ∀ (f : ℕ) outcome, cell.flights[f]? = some (.settled outcome) →
      forget outcome = true) : cell.current = none := by
  cases hcurrent : cell.current with
  | none => rfl
  | some f =>
    have hlt := h.lt f hcurrent
    have hf := List.getElem?_eq_getElem hlt
    have hmem := List.getElem_mem hlt
    cases hflight : cell.flights[f] with
    | running task =>
      rw [hflight] at hmem
      exact absurd hmem fun hmem => hclosed _ hmem trivial
    | returned outcome =>
      rw [hflight] at hmem
      exact absurd hmem fun hmem => hclosed _ hmem trivial
    | settled outcome =>
      rw [hflight] at hf
      have hkept := h.remembered f outcome hcurrent hf
      rw [hforgotten f outcome hf] at hkept
      cases hkept

/-! ### Settled promises -/

theorem join_getElem? {x : Flight τ ρ} (hf : cell.flights[f]? = some x) :
    (cell.join start).1.flights[f]? = some x := by
  unfold join
  split
  · exact hf
  · rw [List.getElem?_append_left (List.getElem?_eq_some_iff.mp hf).1, hf]

theorem set_settled {old : Flight τ ρ} (hg : cell.flights[g]? = some old) (hold : old.Open)
    {outcome : ρ} (hf : cell.flights[f]? = some (.settled outcome)) :
    (cell.set g flight).flights[f]? = some (.settled outcome) := by
  have hne : g ≠ f := by
    rintro rfl
    cases hg.symm.trans hf
    exact hold
  rw [set, List.getElem?_set_ne hne, hf]

theorem settle_settled (hs : cell.settle forget g = some cell') {outcome : ρ}
    (hf : cell.flights[f]? = some (.settled outcome)) :
    cell'.flights[f]? = some (.settled outcome) := by
  obtain ⟨o, hg, rfl⟩ := settle_cases hs
  have hne : g ≠ f := by
    rintro rfl
    cases hg.symm.trans hf
  rw [List.getElem?_set_ne hne, hf]

/-! ### Consequences -/

/-- Never two calls in flight. -/
theorem Wf.open_unique (h : Wf forget cell) {x y : Flight τ ρ} (hf : cell.flights[f]? = some x)
    (hg : cell.flights[g]? = some y) (hx : x.Open) (hy : y.Open) : f = g :=
  Option.some.inj ((h.unsettled f x hf hx).symm.trans (h.unsettled g y hg hy))

/-- A field that forgets nothing sees one call. -/
theorem Wf.eq_of_keep (h : Wf (fun _ => false) cell) {x y : Flight τ ρ}
    (hf : cell.flights[f]? = some x) (hg : cell.flights[g]? = some y) : f = g := by
  have hall : ∀ (f : ℕ) (x : Flight τ ρ), cell.flights[f]? = some x → cell.current = some f := by
    intro f x hf
    cases x with
    | settled outcome => exact h.kept f outcome hf rfl
    | running task => exact h.unsettled f _ hf trivial
    | returned outcome => exact h.unsettled f _ hf trivial
  exact Option.some.inj ((hall f x hf).symm.trans (hall g y hg))

end Cell

end VcCommonService.Lib.SingleFlight
