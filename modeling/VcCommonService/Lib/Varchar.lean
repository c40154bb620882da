import Mathlib.Data.List.Basic
import Mathlib.Data.Nat.Notation

/-!
# Text columns of a database

No text has U+0000 in it, and a `VARCHAR(n)` column holds at most `n` characters. A longer value
is refused, unless all that is too much are spaces: these are cut off.
-/

namespace VcCommonService.Lib.Varchar

def isText (s : String) : Bool := !s.toList.contains (Char.ofNat 0)

/-- What a `VARCHAR(n)` column stores for a value. -/
def stored (n : ℕ) (s : String) : Option String :=
  if isText s && (s.toList.drop n).all fun c => decide (c = ' ') then
    some (String.ofList (s.toList.take n))
  else none

/-- The same for a column that may be null. -/
def storedOrNull (n : ℕ) : Option String → Option (Option String)
  | none => some none
  | some s => (stored n s).map some

def Fits (n : ℕ) (s : String) : Prop := stored n s = some s

instance (n : ℕ) (s : String) : Decidable (Fits n s) :=
  inferInstanceAs (Decidable (stored n s = some s))

variable {n : ℕ} {s t : String}

theorem stored_eq_some (h : stored n s = some t) :
    isText s = true ∧ (∀ c ∈ s.toList.drop n, c = ' ') ∧ t.toList = s.toList.take n := by
  unfold stored at h
  split at h
  next hcond =>
    obtain ⟨htext, hspaces⟩ := (Bool.and_eq_true _ _).mp hcond
    cases h
    exact ⟨htext, fun c hc => of_decide_eq_true (List.all_eq_true.mp hspaces c hc),
      String.toList_ofList⟩
  next => cases h

theorem fits_iff : Fits n s ↔ isText s = true ∧ s.toList.length ≤ n := by
  constructor
  · intro h
    obtain ⟨htext, -, htake⟩ := stored_eq_some h
    refine ⟨htext, ?_⟩
    calc s.toList.length = (s.toList.take n).length := congrArg List.length htake
      _ ≤ n := List.length_take_le n s.toList
  · intro ⟨htext, hlength⟩
    simp [Fits, stored, htext, List.drop_of_length_le hlength, List.take_of_length_le hlength]

theorem isText_of_subset (h : isText s = true) (hsub : t.toList ⊆ s.toList) : isText t = true := by
  simp only [isText, Bool.not_eq_true', List.contains_eq_mem, decide_eq_false_iff_not] at h ⊢
  exact fun hmem => h (hsub hmem)

/-- What a column holds fits it. -/
theorem fits_of_stored (h : stored n s = some t) : Fits n t := by
  obtain ⟨htext, -, htake⟩ := stored_eq_some h
  refine fits_iff.mpr ⟨isText_of_subset htext ?_, ?_⟩
  · rw [htake]
    exact List.take_subset n s.toList
  · rw [htake]
    exact List.length_take_le n s.toList

theorem fits_of_storedOrNull {value : Option String}
    (h : storedOrNull n value = some (some t)) : Fits n t := by
  cases value with
  | none => cases h
  | some s =>
    obtain ⟨t', hstored, he⟩ := Option.map_eq_some_iff.mp h
    cases he
    exact fits_of_stored hstored

/-- Only a value that ends in a space is cut off. -/
theorem eq_of_stored (h : stored n s = some t) (hlast : s.toList.getLast? ≠ some ' ') : t = s := by
  obtain ⟨-, hspaces, htake⟩ := stored_eq_some h
  have hdrop : s.toList.drop n = [] := by
    by_contra hne
    have hmem := List.getLast_mem hne
    have hshort : ¬ s.toList.length ≤ n := fun hle => hne (List.drop_of_length_le hle)
    have hlast' : s.toList.getLast? = some ((s.toList.drop n).getLast hne) := by
      rw [← List.getLast?_eq_some_getLast hne, List.getLast?_drop, if_neg hshort]
    rw [hspaces _ hmem] at hlast'
    exact hlast hlast'
  have hlength : s.toList.length ≤ n := List.drop_eq_nil_iff.mp hdrop
  rw [List.take_of_length_le hlength] at htake
  exact String.toList_injective htake

example : (stored 3 "abc  ", stored 3 "ab c", stored 3 "ab") = (some "abc", none, some "ab") := by
  decide

end VcCommonService.Lib.Varchar
