import Mathlib.Data.Rat.Floor

/-!
# Numbers and dates of ECMAScript

A number is a binary64 value. A finite one is kept as the rational it denotes (the
sign of zero is not recorded), and every operation rounds its exact result to
nearest, ties to even. A date is a time value: a whole number of milliseconds, or
nothing for an invalid date.
-/

namespace VcCommonService.Lib

inductive Number where
  | finite (q : ℚ)
  | infinite (negative : Bool)
  | nan
  deriving Repr, DecidableEq

namespace Number

/-! ### Rounding -/

/-- The exponent `e` with `2 ^ e ≤ |q| < 2 ^ (e + 1)`. -/
def binade (q : ℚ) : ℤ :=
  let e : ℤ := (q.num.natAbs.log2 : ℤ) - q.den.log2
  if (2 : ℚ) ^ e ≤ |q| then e else e - 1

def roundEven (x : ℚ) : ℤ :=
  let f := ⌊x⌋
  if x - f < 1 / 2 then f
  else if 1 / 2 < x - f then f + 1
  else if f % 2 = 0 then f
  else f + 1

/-- Nearest multiple of the unit in the last place; at least `2 ^ (-1074)`. -/
def nearest (q : ℚ) : ℚ :=
  if q = 0 then 0
  else
    let ulp : ℤ := max (binade q - 52) (-1074)
    roundEven (q / 2 ^ ulp) * 2 ^ ulp

def ofRat (q : ℚ) : Number :=
  if |nearest q| < 2 ^ 1024 then .finite (nearest q) else .infinite (decide (q < 0))

/-! ### Operations -/

def isFinite : Number → Bool
  | .finite _ => true
  | _ => false

def isPositive : Number → Bool
  | .finite q => decide (0 < q)
  | .infinite negative => !negative
  | .nan => false

def add : Number → Number → Number
  | .finite a, .finite b => ofRat (a + b)
  | .nan, _ => .nan
  | _, .nan => .nan
  | .infinite a, .infinite b => if a = b then .infinite a else .nan
  | .infinite a, .finite _ => .infinite a
  | .finite _, .infinite b => .infinite b

def mul : Number → Number → Number
  | .finite a, .finite b => ofRat (a * b)
  | .nan, _ => .nan
  | _, .nan => .nan
  | .infinite a, .infinite b => .infinite (a != b)
  | .infinite a, .finite b => if b = 0 then .nan else .infinite (a != decide (b < 0))
  | .finite a, .infinite b => if a = 0 then .nan else .infinite (b != decide (a < 0))

/-- `a < b`; nothing is below or above `NaN`. -/
def less : Number → Number → Bool
  | .finite a, .finite b => decide (a < b)
  | .finite _, .infinite negative => !negative
  | .infinite negative, .finite _ => negative
  | .infinite a, .infinite b => a && !b
  | .nan, _ => false
  | _, .nan => false

/-- `a === b`; nothing is equal to `NaN`. -/
def strictEquals (a b : Number) : Bool := decide (a = b) && decide (a ≠ .nan)

end Number

/-! ### Dates -/

/-- The time value of a `Date`; `none` is an invalid date. -/
abbrev Date := Option ℤ

namespace Date

/-- `new Date(v)`: values past `8.64e15` or not finite are invalid, the rest loses its
fraction. -/
def ofNumber : Number → Date
  | .finite q =>
    if |q| ≤ 8640000000000000 then some (if 0 ≤ q then ⌊q⌋ else ⌈q⌉) else none
  | _ => none

def getTime : Date → Number
  | some t => .finite t
  | none => .nan

example : ofNumber (.add (getTime (some 1700000000000)) (.finite 3600000)) =
    some 1700003600000 := by decide +kernel

end Date

end VcCommonService.Lib
