import VcCommonService.Lib.Js
import VcCommonService.Lib.JsonText

/-!
# Numbers from text

`Number(s)` of a string: without the white space around it, it is empty (zero), a whole number
after a radix prefix, or a decimal literal; any other text is not a number. The decimal spelling
of an integer is read as that integer, rounded.
-/

namespace VcCommonService.Lib.NumberText
open JsonText (isDigit digitsValue exponent)

/-! ### `StringToNumber` -/

def radixPrefix : List Char → Option (ℕ × List Char)
  | '0' :: c :: ds =>
    if c = 'x' || c = 'X' then some (16, ds)
    else if c = 'o' || c = 'O' then some (8, ds)
    else if c = 'b' || c = 'B' then some (2, ds)
    else none
  | _ => none

def radixDigits (radix : ℕ) (ds : List Char) : Option ℕ :=
  if ds.isEmpty then none
  else ds.foldlM (fun n d => do
    let v ← Uri.hexValue d
    if v < radix then some (radix * n + v) else none) 0

/-- The digits before and after the point; one side may be empty. -/
def decimalParts (cs : List Char) : List Char × List Char × List Char :=
  match cs.dropWhile isDigit with
  | '.' :: rest => (cs.takeWhile isDigit, rest.takeWhile isDigit, rest.dropWhile isDigit)
  | rest => (cs.takeWhile isDigit, [], rest)

def unsignedDecimal (cs : List Char) : Option ℚ :=
  let (whole, part, rest) := decimalParts cs
  if whole.isEmpty && part.isEmpty then none
  else
    match exponent rest with
    | some (e, []) => some ((digitsValue whole + digitsValue part / 10 ^ part.length) * 10 ^ e)
    | _ => none

def decimalLiteral (negative : Bool) (cs : List Char) : Number :=
  if cs = "Infinity".toList then .infinite negative
  else
    match unsignedDecimal cs with
    | some q => Number.ofRat (if negative then -q else q)
    | none => .nan

def literal (cs : List Char) : Number :=
  match cs with
  | [] => .finite 0
  | '+' :: cs => decimalLiteral false cs
  | '-' :: cs => decimalLiteral true cs
  | cs =>
    match radixPrefix cs with
    | some (radix, ds) =>
      match radixDigits radix ds with
      | some n => Number.ofRat n
      | none => .nan
    | none => decimalLiteral false cs

def stringToNumber (s : String) : Number := literal (Js.trim s).toList

example : ["0x1F", " -2.50e1\n", "", "1_0", "01"].map stringToNumber =
    [.finite 31, .finite (-25), .finite 0, .nan, .finite 1] := by
  decide +kernel

/-! ### Integers -/

/-- The decimal spelling of an integer, as `String` writes it below `10 ^ 21`. -/
def integerText (n : ℤ) : String :=
  String.ofList (if n < 0 then '-' :: Nat.toDigits 10 n.natAbs else Nat.toDigits 10 n.natAbs)

def AllDigits (ds : List Char) : Prop := ∀ d ∈ ds, isDigit d = true

theorem allDigits_toDigits (n : ℕ) : AllDigits (Nat.toDigits 10 n) := by
  intro d hd
  have hdigit := Nat.isDigit_of_mem_toDigits (by decide) (by decide) hd
  exact hdigit

theorem digitsValue_toDigits (n : ℕ) : digitsValue (Nat.toDigits 10 n) = n := by
  have hvalue := Nat.ofDigitChars_ten_toDigits (n := n)
  rwa [Nat.ofDigitChars_eq_foldl] at hvalue

theorem digit_code {d : Char} (h : isDigit d = true) : 48 ≤ d.toNat ∧ d.toNat ≤ 57 := by
  have hbounds := Bool.and_eq_true_iff.mp h
  exact ⟨of_decide_eq_true hbounds.1, of_decide_eq_true hbounds.2⟩

theorem ne_of_not_digit {c d : Char} (h : isDigit d = true) (hc : isDigit c = false) : d ≠ c := by
  rintro rfl
  rw [h] at hc
  cases hc

theorem not_whitespace_of_digit {d : Char} (h : isDigit d = true) : Js.isWhitespace d = false := by
  have hcode := digit_code h
  rw [Js.isWhitespace, List.contains_eq_mem, decide_eq_false_iff_not]
  intro hmem
  simp only [Js.whitespace, List.mem_cons, List.not_mem_nil, or_false] at hmem
  omega

theorem trim_of_no_whitespace {cs : List Char} (h : ∀ c ∈ cs, Js.isWhitespace c = false) :
    (Js.trim (String.ofList cs)).toList = cs := by
  have hdrop : ∀ ds : List Char, (∀ c ∈ ds, Js.isWhitespace c = false) →
      ds.dropWhile Js.isWhitespace = ds := by
    intro ds hds
    cases ds with
    | nil => rfl
    | cons d ds => rw [List.dropWhile_cons, hds d (List.mem_cons_self ..)]; rfl
  have hreverse : ∀ c ∈ cs.reverse, Js.isWhitespace c = false :=
    fun c hc => h c (List.mem_reverse.mp hc)
  rw [Js.trim, String.toList_ofList, String.toList_ofList, hdrop cs h, hdrop cs.reverse hreverse,
    List.reverse_reverse]

theorem takeWhile_digits {ds : List Char} (h : AllDigits ds) : ds.takeWhile isDigit = ds := by
  have happend : (ds ++ []).takeWhile isDigit = ds ++ [].takeWhile isDigit :=
    List.takeWhile_append_of_pos h
  rwa [List.append_nil, List.takeWhile_nil, List.append_nil] at happend

theorem dropWhile_digits {ds : List Char} (h : AllDigits ds) : ds.dropWhile isDigit = [] := by
  have happend : (ds ++ []).dropWhile isDigit = [].dropWhile isDigit :=
    List.dropWhile_append_of_pos h
  rwa [List.append_nil, List.dropWhile_nil] at happend

theorem decimalLiteral_digits (negative : Bool) {ds : List Char} (h : AllDigits ds) (hne : ds ≠ []) :
    decimalLiteral negative ds =
      Number.ofRat (if negative then -(digitsValue ds : ℚ) else digitsValue ds) := by
  have hinfinity : ds ≠ "Infinity".toList := by
    rintro rfl
    have hletter := h 'I' (by decide)
    revert hletter
    decide
  have hparts : decimalParts ds = (ds, [], []) := by
    rw [decimalParts, dropWhile_digits h, takeWhile_digits h]
  have hunsigned : unsignedDecimal ds = some (digitsValue ds : ℚ) := by
    rw [unsignedDecimal, hparts]
    dsimp only
    rw [List.isEmpty_eq_false_iff.mpr hne]
    change some (((digitsValue ds : ℕ) + ((0 : ℕ) : ℚ) / 10 ^ 0) * 10 ^ (0 : ℤ)) = _
    rw [Nat.cast_zero, zero_div, add_zero, zpow_zero, mul_one]
  rw [decimalLiteral, if_neg hinfinity, hunsigned]

theorem radixPrefix_digits {ds : List Char} (h : AllDigits ds) : radixPrefix ds = none := by
  unfold radixPrefix
  split
  next c rest =>
    have hc : isDigit c = true := h c (by simp)
    have hne : ∀ letter, isDigit letter = false → c ≠ letter := fun letter => ne_of_not_digit hc
    simp [hne 'x' rfl, hne 'X' rfl, hne 'o' rfl, hne 'O' rfl, hne 'b' rfl, hne 'B' rfl]
  next => rfl

theorem literal_digits {ds : List Char} (h : AllDigits ds) (hne : ds ≠ []) :
    literal ds = decimalLiteral false ds := by
  unfold literal
  split
  next => exact absurd rfl hne
  next rest => exact absurd (h '+' (List.mem_cons_self ..)) (by decide)
  next rest => exact absurd (h '-' (List.mem_cons_self ..)) (by decide)
  next => rw [radixPrefix_digits h]

/-- `Number(String(n))`. -/
theorem stringToNumber_integerText (n : ℤ) :
    stringToNumber (integerText n) = Number.ofRat n := by
  have hdigits := allDigits_toDigits n.natAbs
  have hne : Nat.toDigits 10 n.natAbs ≠ [] := Nat.toDigits_ne_nil
  have hspace : ∀ c ∈ Nat.toDigits 10 n.natAbs, Js.isWhitespace c = false :=
    fun c hc => not_whitespace_of_digit (hdigits c hc)
  unfold stringToNumber integerText
  by_cases hneg : n < 0
  · have hspace' : ∀ c ∈ '-' :: Nat.toDigits 10 n.natAbs, Js.isWhitespace c = false := by
      intro c hc
      rcases List.mem_cons.mp hc with rfl | hc
      · decide
      · exact hspace c hc
    have hvalue : -((n.natAbs : ℕ) : ℚ) = n := by
      have hint : -(n.natAbs : ℤ) = n := by omega
      rw [← Int.cast_natCast, ← Int.cast_neg, hint]
    rw [if_pos hneg, trim_of_no_whitespace hspace']
    change decimalLiteral true (Nat.toDigits 10 n.natAbs) = _
    rw [decimalLiteral_digits true hdigits hne, digitsValue_toDigits, if_pos rfl, hvalue]
  · have hvalue : ((n.natAbs : ℕ) : ℚ) = n := by
      have hint : (n.natAbs : ℤ) = n := by omega
      rw [← Int.cast_natCast, hint]
    rw [if_neg hneg, trim_of_no_whitespace hspace, literal_digits hdigits hne,
      decimalLiteral_digits false hdigits hne, digitsValue_toDigits, if_neg (by decide), hvalue]

end VcCommonService.Lib.NumberText
