import Mathlib.Data.Nat.Notation
import Mathlib.Data.Int.Notation

/-!
# Shared vocabulary

Identifiers, instants and the exceptions the services throw. Identifiers are the
strings the database stores; only their equality matters.
-/

namespace VcCommonService

abbrev TenantId := String

/-- Milliseconds since the epoch, as `Date.getTime` returns them. -/
abbrev Time := ℤ

/-- Exceptions of `@nestjs/common` and `@app/auth` with their message, a violated
constraint of the database, or an error of the language itself. -/
inductive ServiceError where
  | authenticationRequired (code message : String)
  | badRequest (message : String)
  | forbidden (message : String)
  | notFound (message : String)
  | conflict (message : String)
  | unprocessableEntity (message : String)
  | constraint (name : String)
  | typeError
  | error (message : String)
  deriving Repr, DecidableEq

def commaJoin (xs : List String) : String := String.intercalate ", " xs

theorem ok_bind {ε α β : Type} (a : α) (f : α → Except ε β) : (Except.ok a >>= f) = f a := rfl

theorem bind_eq_ok {ε α β : Type} {x : Except ε α} {f : α → Except ε β} {b : β} :
    (x >>= f) = .ok b ↔ ∃ a, x = .ok a ∧ f a = .ok b := by
  cases x with
  | error e => simp [bind, Except.bind]
  | ok a => simp [bind, Except.bind]

theorem bind_eq_error {ε α β : Type} {x : Except ε α} {f : α → Except ε β} {e : ε} :
    (x >>= f) = .error e ↔ x = .error e ∨ ∃ a, x = .ok a ∧ f a = .error e := by
  cases x with
  | error e => simp [bind, Except.bind]
  | ok a => simp [bind, Except.bind]

theorem mapError_eq_ok {ε ε' α : Type} {x : Except ε α} {f : ε → ε'} {a : α} :
    x.mapError f = .ok a ↔ x = .ok a := by
  cases x with
  | error e => exact ⟨nofun, nofun⟩
  | ok b => exact ⟨fun h => congrArg Except.ok (Except.ok.inj h),
      fun h => congrArg Except.ok (Except.ok.inj h)⟩

theorem mapM_ok {ε α β : Type} {f : α → Except ε β} {g : α → β} {xs : List α}
    (h : ∀ a ∈ xs, f a = .ok (g a)) : xs.mapM f = .ok (xs.map g) := by
  induction xs with
  | nil => rfl
  | cons a xs ih =>
    rw [List.mapM_cons, h a (List.mem_cons_self ..), ok_bind,
      ih fun b hb => h b (List.mem_cons_of_mem _ hb)]
    rfl

theorem mapM_error {ε α β : Type} {f : α → Except ε β} {e : ε} {xs : List α}
    (h : ∀ a ∈ xs, (∃ b, f a = .ok b) ∨ f a = .error e) (hfails : ∃ a ∈ xs, f a = .error e) :
    xs.mapM f = .error e := by
  induction xs with
  | nil => obtain ⟨_, ha, -⟩ := hfails; cases ha
  | cons x xs ih =>
    rw [List.mapM_cons]
    rcases h x (List.mem_cons_self ..) with ⟨b, hb⟩ | he
    · obtain ⟨a, ha, he⟩ := hfails
      have hrest : ∃ a ∈ xs, f a = .error e := by
        rcases List.mem_cons.mp ha with rfl | ha
        · rw [hb] at he
          cases he
        · exact ⟨a, ha, he⟩
      rw [hb, ok_bind, ih (fun a ha => h a (List.mem_cons_of_mem _ ha)) hrest]
      rfl
    · rw [he]
      rfl

theorem ok_of_mapM {ε α β : Type} {f : α → Except ε β} {xs : List α} {ys : List β}
    (h : xs.mapM f = .ok ys) : ∀ a ∈ xs, ∃ b, f a = .ok b := by
  induction xs generalizing ys with
  | nil => exact fun _ ha => nomatch ha
  | cons x xs ih =>
    rw [List.mapM_cons] at h
    obtain ⟨b, hb, h⟩ := bind_eq_ok.mp h
    obtain ⟨bs, hbs, -⟩ := bind_eq_ok.mp h
    intro a ha
    rcases List.mem_cons.mp ha with rfl | ha
    · exact ⟨b, hb⟩
    · exact ih hbs a ha

end VcCommonService
