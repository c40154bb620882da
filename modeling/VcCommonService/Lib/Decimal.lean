import Mathlib.Data.Nat.Notation
import Mathlib.Data.Int.Notation
import Mathlib.Algebra.Group.Nat.Defs
import Mathlib.Algebra.Ring.Nat
import Mathlib.Tactic.Ring

/-!
# Decimal digits

Numbers written with a fixed number of digits, as dates are, and read back from the front of a
text. The last digits are written when a number has more.
-/

namespace VcCommonService.Lib.Decimal

def digit (n : ℕ) : Char := Char.ofNat (48 + n % 10)

def isDigit (c : Char) : Bool := '0' ≤ c && c ≤ '9'

def digitValue (c : Char) : ℕ := c.toNat - 48

theorem digit_spec (n : ℕ) : isDigit (digit n) = true ∧ digitValue (digit n) = n % 10 := by
  have hall : ∀ k < 10, isDigit (digit k) = true ∧ digitValue (digit k) = k := by decide
  have hmod : digit n = digit (n % 10) := by rw [digit, digit, Nat.mod_mod]
  rw [hmod]
  exact hall (n % 10) (Nat.mod_lt n (by omega))

/-! ### Fixed width -/

def fixed : ℕ → ℕ → List Char
  | 0, _ => []
  | width + 1, n => fixed width (n / 10) ++ [digit n]

def value (ds : List Char) : ℕ := ds.foldl (fun v d => 10 * v + digitValue d) 0

theorem value_concat (ds : List Char) (d : Char) :
    value (ds ++ [d]) = 10 * value ds + digitValue d := by
  rw [value, value, List.foldl_append, List.foldl_cons, List.foldl_nil]

@[simp] theorem length_fixed (width n : ℕ) : (fixed width n).length = width := by
  induction width generalizing n with
  | zero => rfl
  | succ width ih => rw [fixed, List.length_append, ih, List.length_singleton]

theorem all_fixed (width n : ℕ) : (fixed width n).all isDigit = true := by
  induction width generalizing n with
  | zero => rfl
  | succ width ih =>
    rw [fixed, List.all_append, ih, List.all_cons, (digit_spec n).1]
    rfl

theorem value_fixed (width n : ℕ) : value (fixed width n) = n % 10 ^ width := by
  induction width generalizing n with
  | zero => rw [pow_zero, Nat.mod_one]; rfl
  | succ width ih =>
    rw [fixed, value_concat, ih, (digit_spec n).2, pow_succ', Nat.mod_mul, Nat.add_comm]

/-! ### Reading -/

/-- `width` digits at the front of a text. -/
def takeFixed (width : ℕ) (cs : List Char) : Option (ℕ × List Char) :=
  if (cs.take width).length = width ∧ (cs.take width).all isDigit = true then
    some (value (cs.take width), cs.drop width)
  else none

def expect (c : Char) : List Char → Option (List Char)
  | [] => none
  | d :: rest => if d = c then some rest else none

@[simp] theorem expect_cons (c : Char) (rest : List Char) : expect c (c :: rest) = some rest :=
  if_pos rfl

theorem takeFixed_fixed {width n : ℕ} (h : n < 10 ^ width) (rest : List Char) :
    takeFixed width (fixed width n ++ rest) = some (n, rest) := by
  have htake : (fixed width n ++ rest).take width = fixed width n :=
    List.take_left' (length_fixed width n)
  have hdrop : (fixed width n ++ rest).drop width = rest :=
    List.drop_left' (length_fixed width n)
  rw [takeFixed, htake, hdrop, if_pos ⟨length_fixed width n, all_fixed width n⟩, value_fixed,
    Nat.mod_eq_of_lt h]

end VcCommonService.Lib.Decimal
