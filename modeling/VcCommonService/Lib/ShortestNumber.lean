import Mathlib.Tactic.FieldSimp
import VcCommonService.Lib.NumberText
import VcCommonService.Lib.Rounding
import VcCommonService.Lib.Stringify

/-!
# Numbers written and read back

A number is written with the fewest digits that read back as it; seventeen are always enough. Its
text puts zeros, a point or an exponent around them and is read as what the digits say.
-/

namespace VcCommonService.Lib.JsonText
open NumberText

/-! ### The digits of a number -/

theorem ten_zpow_pos (e : ℤ) : (0 : ℚ) < 10 ^ e := zpow_pos (by norm_num) e

theorem ten_zpow_add (a b : ℤ) : (10 : ℚ) ^ (a + b) = 10 ^ a * 10 ^ b := zpow_add₀ (by norm_num) a b

theorem magnitude_spec {q : ℚ} (hq : 0 < q) :
    (10 : ℚ) ^ (magnitude q - 1) ≤ q ∧ q < 10 ^ magnitude q := by
  unfold magnitude
  split
  next hone =>
    have hfloor : 1 ≤ ⌊q⌋ := Int.le_floor.mpr (by exact_mod_cast hone)
    obtain ⟨n, hn⟩ : ∃ n : ℕ, ⌊q⌋ = n := ⟨⌊q⌋.toNat, by omega⟩
    have hn0 : n ≠ 0 := by omega
    have hlow : (n : ℚ) ≤ q := by exact_mod_cast hn ▸ Int.floor_le q
    have hhigh : q < n + 1 := by exact_mod_cast hn ▸ Int.lt_floor_add_one q
    rw [hn, Int.toNat_natCast, add_sub_cancel_right, ← Nat.cast_succ, zpow_natCast, zpow_natCast]
    constructor
    · have hpow : (10 : ℚ) ^ Nat.log 10 n ≤ n := by exact_mod_cast Nat.pow_log_le_self 10 hn0
      exact hpow.trans hlow
    · have hpow : n + 1 ≤ 10 ^ (Nat.log 10 n + 1) := Nat.lt_pow_succ_log_self (by decide) n
      exact hhigh.trans_le (by exact_mod_cast hpow)
  next hone =>
    have hinv : 1 < 1 / q := (one_lt_div hq).mpr (not_le.mp hone)
    have hceil : 1 < ⌈1 / q⌉ := Int.lt_ceil.mpr (by exact_mod_cast hinv)
    obtain ⟨n, hn⟩ : ∃ n : ℕ, ⌈1 / q⌉ = n := ⟨⌈1 / q⌉.toNat, by omega⟩
    have hlow : (n : ℚ) < 1 / q + 1 := by exact_mod_cast hn ▸ Int.ceil_lt_add_one (1 / q)
    have hhigh : 1 / q ≤ n := by exact_mod_cast hn ▸ Int.le_ceil (1 / q)
    have hclog : 0 < Nat.clog 10 n := Nat.clog_pos (by decide) (by omega)
    obtain ⟨c, hc⟩ : ∃ c, Nat.clog 10 n = c + 1 := ⟨Nat.clog 10 n - 1, by omega⟩
    have hle : n ≤ 10 ^ (c + 1) := hc ▸ Nat.le_pow_clog (by decide) n
    have hlt : 10 ^ c + 1 ≤ n := Nat.pow_lt_of_lt_clog (by rw [hc]; exact Nat.lt_succ_self c)
    have hbelow : (10 : ℚ) ^ c < 1 / q := by
      have hlt' : (10 : ℚ) ^ c + 1 ≤ n := by exact_mod_cast hlt
      linarith
    have habove : 1 / q ≤ 10 ^ (c + 1) := hhigh.trans (by exact_mod_cast hle)
    rw [hn, Int.toNat_natCast, hc]
    constructor
    · rw [show (1 : ℤ) - ((c + 1 : ℕ) : ℤ) - 1 = -((c + 1 : ℕ) : ℤ) by push_cast; ring, zpow_neg,
        zpow_natCast, inv_le_comm₀ (by positivity) hq, ← one_div]
      exact habove
    · rw [show (1 : ℤ) - ((c + 1 : ℕ) : ℤ) = -(c : ℤ) by push_cast; ring, zpow_neg, zpow_natCast,
        lt_inv_comm₀ hq (by positivity), ← one_div]
      exact hbelow

/-! ### Seventeen digits -/

def digitsOf (q : ℚ) (k : ℕ) : ℚ := candidate q k * 10 ^ (magnitude q - k)

theorem candidate_spec {q : ℚ} (hq : 0 < q) {k : ℕ} (hk : 1 ≤ k) :
    0 < candidate q k ∧ |digitsOf q k - q| ≤ 10 ^ (magnitude q - k) / 2 := by
  obtain ⟨hlow, -⟩ := magnitude_spec hq
  have hpos := ten_zpow_pos (magnitude q - k)
  have hone : 1 ≤ q / 10 ^ (magnitude q - k) := by
    rw [le_div_iff₀ hpos, one_mul]
    exact (zpow_le_zpow_right₀ (by norm_num) (by omega)).trans hlow
  have hround : 1 ≤ Number.roundEven (q / 10 ^ (magnitude q - k)) :=
    Number.le_roundEven (by exact_mod_cast hone)
  have hcast : (candidate q k : ℚ) = Number.roundEven (q / 10 ^ (magnitude q - k)) := by
    have hint : (candidate q k : ℤ) = Number.roundEven (q / 10 ^ (magnitude q - k)) := by
      unfold candidate
      omega
    exact_mod_cast hint
  refine ⟨by unfold candidate; omega, ?_⟩
  have hhalf := Number.abs_roundEven_sub_le (q / 10 ^ (magnitude q - k))
  have hdiff : digitsOf q k - q = (Number.roundEven (q / 10 ^ (magnitude q - k)) -
      q / 10 ^ (magnitude q - k)) * 10 ^ (magnitude q - k) := by
    rw [digitsOf, hcast, sub_mul, div_mul_cancel₀ _ hpos.ne']
  rw [hdiff, abs_mul, abs_of_pos hpos]
  linarith [mul_le_mul_of_nonneg_right hhalf hpos.le]

theorem readsBack_seventeen {q : ℚ} (hdouble : Number.nearest q = q) (hq : 0 < q) :
    readsBack q 17 = true := by
  obtain ⟨hlow, -⟩ := magnitude_spec hq
  obtain ⟨-, hnear⟩ := candidate_spec hq (show 1 ≤ 17 by decide)
  refine decide_eq_true (Number.nearest_of_near hdouble (ten_zpow_pos _) ?_ hnear)
  have hpow : (10 : ℚ) ^ 16 * 10 ^ (magnitude q - (17 : ℕ)) = 10 ^ (magnitude q - 1) := by
    rw [← zpow_natCast, ← ten_zpow_add]
    exact congrArg ((10 : ℚ) ^ ·) (by push_cast; ring)
  exact hpow.trans_le hlow


/-! ### Digits -/

/-- Digits of a positive number. -/
structure Numeral (ds : List Char) : Prop where
  digits : AllDigits ds
  head : ∃ d rest, ds = d :: rest ∧ d ≠ '0'

theorem digitsValue_concat (ds : List Char) (d : Char) :
    digitsValue (ds ++ [d]) = 10 * digitsValue ds + (d.toNat - '0'.toNat) := by
  rw [digitsValue, List.foldl_append]
  rfl

theorem digitsValue_append (ds es : List Char) :
    digitsValue (ds ++ es) = digitsValue ds * 10 ^ es.length + digitsValue es := by
  induction es using List.reverseRecOn with
  | nil => simp [digitsValue]
  | append_singleton es e ih =>
    rw [← List.append_assoc, digitsValue_concat, digitsValue_concat, ih, List.length_append,
      List.length_singleton, pow_succ]
    ring

theorem digitsValue_zeros (n : ℕ) : digitsValue (List.replicate n '0') = 0 := by
  induction n with
  | zero => rfl
  | succ n ih =>
    rw [List.replicate_succ', digitsValue_concat, ih]
    rfl

theorem numeral_toDigits {n : ℕ} (hn : 0 < n) : Numeral (Nat.toDigits 10 n) := by
  refine ⟨allDigits_toDigits n, ?_⟩
  induction n using Nat.strong_induction_on with
  | _ n ih =>
    by_cases hsmall : n < 10
    · have hdigit : ∀ k < 10, 0 < k → Nat.digitChar k ≠ '0' := by decide
      rw [Nat.toDigits_of_lt_base hsmall]
      exact ⟨_, [], rfl, hdigit n hsmall hn⟩
    · obtain ⟨d, rest, hhead, hne⟩ := ih (n / 10) (by omega) (by omega)
      rw [Nat.toDigits_of_base_le (by decide) (not_lt.mp hsmall), hhead]
      exact ⟨d, _, rfl, hne⟩

/-- A numeral without the zeros at its end. -/
theorem numeral_strip {ds : List Char} (h : Numeral ds) :
    ∃ n, ds = (ds.reverse.dropWhile fun d => d = '0').reverse ++ List.replicate n '0' ∧
      Numeral (ds.reverse.dropWhile fun d => d = '0').reverse := by
  have hsplit := congrArg List.reverse
    (List.takeWhile_append_dropWhile (p := fun d => decide (d = '0')) (l := ds.reverse))
  rw [List.reverse_append, List.reverse_reverse] at hsplit
  have hzeros : (ds.reverse.takeWhile fun d => decide (d = '0')).reverse =
      List.replicate (ds.reverse.takeWhile fun d => decide (d = '0')).length '0' := by
    rw [List.eq_replicate_iff]
    refine ⟨List.length_reverse .., fun d hd => ?_⟩
    have hall := List.all_eq_true.mp List.all_takeWhile d (List.mem_reverse.mp hd)
    exact of_decide_eq_true hall
  rw [hzeros] at hsplit
  refine ⟨_, hsplit.symm, ?_, ?_⟩
  · intro d hd
    refine h.digits d ?_
    rw [← hsplit]
    exact List.mem_append_left _ hd
  · obtain ⟨d, rest, hhead, hne⟩ := h.head
    generalize (ds.reverse.dropWhile fun d => decide (d = '0')).reverse = es at *
    cases es with
    | nil =>
      rw [List.nil_append, hhead] at hsplit
      exact absurd (List.eq_of_mem_replicate (hsplit ▸ List.mem_cons_self ..)) hne
    | cons e es =>
      rw [hhead, List.cons_append] at hsplit
      exact ⟨e, es, rfl, (List.cons.inj hsplit).1 ▸ hne⟩

/-- The digits that are written read back as the number. -/
theorem shortest_spec {q : ℚ} (hdouble : Number.nearest q = q) (hq : 0 < q) :
    Numeral (shortest q).1 ∧
      Number.nearest (digitsValue (shortest q).1 * 10 ^ ((shortest q).2 - (shortest q).1.length)) =
        q := by
  obtain ⟨k, hk, hone, hreads⟩ : ∃ k, ((List.range' 1 17).find? (readsBack q)).getD 17 = k ∧ 1 ≤ k ∧
      readsBack q k = true := by
    cases hfind : (List.range' 1 17).find? (readsBack q) with
    | none => exact ⟨17, rfl, by decide, readsBack_seventeen hdouble hq⟩
    | some k =>
      have hmem := List.mem_of_find?_eq_some hfind
      rw [List.mem_range'_1] at hmem
      exact ⟨k, rfl, hmem.1, List.find?_some hfind⟩
  obtain ⟨hcandidate, -⟩ := candidate_spec hq hone
  obtain ⟨n, hsplit, hnumeral⟩ := numeral_strip (numeral_toDigits hcandidate)
  unfold shortest
  dsimp only
  rw [hk]
  refine ⟨hnumeral, ?_⟩
  have hvalue := digitsValue_toDigits (candidate q k)
  rw [hsplit, digitsValue_append, digitsValue_zeros, List.length_replicate, add_zero] at hvalue
  have hlength := congrArg List.length hsplit
  rw [List.length_append, List.length_replicate] at hlength
  generalize ((Nat.toDigits 10 (candidate q k)).reverse.dropWhile fun d => decide (d = '0')).reverse
    = ds at *
  have hdigits : (digitsValue ds : ℚ) * 10 ^ n = candidate q k := by exact_mod_cast hvalue
  have hexponent : magnitude q + ((Nat.toDigits 10 (candidate q k)).length - k : ℤ) - ds.length =
      n + (magnitude q - k) := by
    rw [hlength]
    push_cast
    ring
  rw [hexponent, ten_zpow_add, zpow_natCast, ← mul_assoc, hdigits]
  exact of_decide_eq_true hreads

/-! ### Reading -/

def NoDigit (rest : List Char) : Prop := ∀ c ∈ rest.head?, isDigit c = false

/-- What may come after a number. -/
def EndsNumber (rest : List Char) : Prop :=
  ∀ c ∈ rest.head?, isDigit c = false ∧ c ≠ '.' ∧ c ≠ 'e' ∧ c ≠ 'E'

theorem EndsNumber.noDigit {rest : List Char} (h : EndsNumber rest) : NoDigit rest :=
  fun c hc => (h c hc).1

theorem noDigit_cons {c : Char} (h : isDigit c = false) (rest : List Char) : NoDigit (c :: rest) := by
  intro d hd
  rw [← Option.some.inj hd]
  exact h

theorem span_digits {ds rest : List Char} (hds : AllDigits ds) (hrest : NoDigit rest) :
    (ds ++ rest).takeWhile isDigit = ds ∧ (ds ++ rest).dropWhile isDigit = rest := by
  rw [List.takeWhile_append_of_pos hds, List.dropWhile_append_of_pos hds]
  cases rest with
  | nil => exact ⟨List.append_nil ds, rfl⟩
  | cons c rest =>
    have hc : ¬ isDigit c = true := by simp [hrest c rfl]
    rw [List.takeWhile_cons_of_neg hc, List.dropWhile_cons_of_neg hc, List.append_nil]
    exact ⟨rfl, rfl⟩

theorem Numeral.ne_nil {ds : List Char} (h : Numeral ds) : ds ≠ [] := by
  obtain ⟨d, rest, rfl, -⟩ := h.head
  exact List.cons_ne_nil _ _

theorem Numeral.append {ds es : List Char} (h : Numeral ds) (hes : AllDigits es) :
    Numeral (ds ++ es) := by
  obtain ⟨d, rest, rfl, hne⟩ := h.head
  exact ⟨List.forall_mem_append.mpr ⟨h.digits, hes⟩, d, rest ++ es, rfl, hne⟩

theorem Numeral.take {ds : List Char} (h : Numeral ds) {n : ℕ} (hn : 0 < n) : Numeral (ds.take n) := by
  obtain ⟨d, rest, rfl, hne⟩ := h.head
  obtain ⟨m, rfl⟩ : ∃ m, n = m + 1 := ⟨n - 1, by omega⟩
  exact ⟨fun c hc => h.digits c (List.mem_of_mem_take hc), d, rest.take m, rfl, hne⟩

theorem wholePart_numeral {ds rest : List Char} (hds : Numeral ds) (hrest : NoDigit rest) :
    wholePart (ds ++ rest) = some (digitsValue ds, rest) := by
  obtain ⟨htake, hdrop⟩ := span_digits hds.digits hrest
  have hne := List.isEmpty_eq_false_iff.mpr hds.ne_nil
  unfold wholePart
  split
  next heq =>
    obtain ⟨d, tail, hhead, hzero⟩ := hds.head
    rw [hhead] at heq
    exact absurd (List.cons.inj heq).1 hzero
  next =>
    rw [htake, hdrop, hne]
    rfl

theorem fraction_digits {ds rest : List Char} (hds : AllDigits ds) (hne : ds ≠ [])
    (hrest : NoDigit rest) :
    fraction ('.' :: (ds ++ rest)) = some ((digitsValue ds : ℚ) / 10 ^ ds.length, rest) := by
  obtain ⟨htake, hdrop⟩ := span_digits hds hrest
  change (if ((ds ++ rest).takeWhile isDigit).isEmpty then none
    else some ((digitsValue ((ds ++ rest).takeWhile isDigit) : ℚ) /
      10 ^ ((ds ++ rest).takeWhile isDigit).length, (ds ++ rest).dropWhile isDigit)) = _
  rw [htake, hdrop, List.isEmpty_eq_false_iff.mpr hne]
  rfl

theorem fraction_none {rest : List Char} (h : ∀ c ∈ rest.head?, c ≠ '.') :
    fraction rest = some (0, rest) := by
  unfold fraction
  split
  next heq => exact absurd rfl (h '.' rfl)
  next => rfl

theorem exponent_none {rest : List Char} (h : ∀ c ∈ rest.head?, c ≠ 'e' ∧ c ≠ 'E') :
    exponent rest = some (0, rest) := by
  cases rest with
  | nil => rfl
  | cons c rest =>
    obtain ⟨he, hE⟩ := h c rfl
    have hother : ¬ (decide (c = 'e') || decide (c = 'E')) = true := by simp [he, hE]
    exact if_neg hother

theorem exponentDigits_toDigits (negative : Bool) (n : ℕ) {rest : List Char} (hrest : NoDigit rest) :
    exponentDigits negative (Nat.toDigits 10 n ++ rest) =
      some (if negative then -(n : ℤ) else n, rest) := by
  obtain ⟨htake, hdrop⟩ := span_digits (allDigits_toDigits n) hrest
  unfold exponentDigits
  dsimp only
  rw [htake, hdrop, List.isEmpty_eq_false_iff.mpr Nat.toDigits_ne_nil, digitsValue_toDigits]
  rfl

theorem exponent_signed (e : ℤ) {rest : List Char} (hrest : NoDigit rest) :
    exponent ('e' :: (if 0 ≤ e then '+' else '-') :: (Nat.toDigits 10 e.natAbs ++ rest)) =
      some (e, rest) := by
  by_cases hnonneg : 0 ≤ e
  · have habs : ((e.natAbs : ℕ) : ℤ) = e := Int.natAbs_of_nonneg hnonneg
    rw [if_pos hnonneg]
    change exponentDigits false _ = _
    rw [exponentDigits_toDigits false _ hrest, if_neg (by decide), habs]
  · have habs : -((e.natAbs : ℕ) : ℤ) = e := by omega
    rw [if_neg hnonneg]
    change exponentDigits true _ = _
    rw [exponentDigits_toDigits true _ hrest, if_pos rfl, habs]

theorem unsignedNumber_parts {cs cs' cs'' rest : List Char} {whole : ℕ} {part : ℚ} {e : ℤ}
    (hwhole : wholePart cs = some (whole, cs')) (hpart : fraction cs' = some (part, cs''))
    (he : exponent cs'' = some (e, rest)) :
    unsignedNumber cs = some ((whole + part) * 10 ^ e, rest) := by
  rw [unsignedNumber, hwhole, Option.bind_eq_bind, Option.bind_some]
  dsimp only
  rw [hpart, Option.bind_eq_bind, Option.bind_some]
  dsimp only
  rw [he]
  rfl

theorem allDigits_zeros (n : ℤ) : AllDigits (zeros n) := by
  intro d hd
  rw [List.eq_of_mem_replicate hd]
  rfl

theorem length_zeros {n : ℤ} (h : 0 ≤ n) : ((zeros n).length : ℤ) = n := by
  rw [zeros, List.length_replicate]
  exact Int.toNat_of_nonneg h

theorem take_drop_value (ds : List Char) (n : ℕ) :
    (digitsValue (ds.take n) : ℚ) + digitsValue (ds.drop n) / 10 ^ (ds.drop n).length =
      digitsValue ds / 10 ^ (ds.drop n).length := by
  have hvalue := digitsValue_append (ds.take n) (ds.drop n)
  rw [List.take_append_drop] at hvalue
  rw [hvalue]
  push_cast
  field_simp

theorem unsignedNumber_pointed {ds cs rest : List Char} (hds : Numeral ds) {k : ℕ} (hk : 0 < k)
    (hlt : k < ds.length) (hcs : NoDigit cs) {e : ℤ} (he : exponent cs = some (e, rest)) :
    unsignedNumber (ds.take k ++ '.' :: (ds.drop k ++ cs)) =
      some ((digitsValue ds : ℚ) * 10 ^ ((k : ℤ) - ds.length + e), rest) := by
  have hne : ds.drop k ≠ [] := by
    rw [ne_eq, List.drop_eq_nil_iff]
    omega
  have hdrop : AllDigits (ds.drop k) := fun c hc => hds.digits c (List.mem_of_mem_drop hc)
  have hpow : (k : ℤ) - ds.length + e = -(((ds.drop k).length : ℕ) : ℤ) + e := by
    rw [List.length_drop]
    omega
  rw [unsignedNumber_parts (wholePart_numeral (hds.take hk) (noDigit_cons rfl _))
      (fraction_digits hdrop hne hcs) he,
    take_drop_value, hpow, ten_zpow_add, zpow_neg, zpow_natCast, div_eq_mul_inv, mul_assoc]

theorem unsignedNumber_whole {ds rest : List Char} (hds : Numeral ds) {n : ℤ}
    (hn : ds.length ≤ n) (hrest : EndsNumber rest) :
    unsignedNumber (ds ++ zeros (n - ds.length) ++ rest) =
      some ((digitsValue ds : ℚ) * 10 ^ (n - ds.length), rest) := by
  have hpoint := fraction_none fun c hc => (hrest c hc).2.1
  have hexponent := exponent_none fun c hc => (hrest c hc).2.2
  have hnumeral := hds.append (allDigits_zeros (n - ds.length))
  have hlength : (n - ds.length : ℤ) = ((n - ds.length).toNat : ℕ) := by omega
  rw [unsignedNumber_parts (wholePart_numeral hnumeral hrest.noDigit) hpoint hexponent,
    digitsValue_append, zeros, digitsValue_zeros, List.length_replicate, add_zero, add_zero,
    zpow_zero, mul_one, hlength, zpow_natCast]
  push_cast
  rfl

theorem unsignedNumber_small {ds rest : List Char} (hds : Numeral ds) {n : ℤ} (hn : n ≤ 0)
    (hrest : EndsNumber rest) :
    unsignedNumber ('0' :: '.' :: (zeros (-n) ++ ds ++ rest)) =
      some ((digitsValue ds : ℚ) * 10 ^ (n - ds.length), rest) := by
  have hexponent := exponent_none fun c hc => (hrest c hc).2.2
  have hdigits : AllDigits (zeros (-n) ++ ds) :=
    List.forall_mem_append.mpr ⟨allDigits_zeros _, hds.digits⟩
  have hne : zeros (-n) ++ ds ≠ [] := List.append_ne_nil_of_right_ne_nil _ hds.ne_nil
  have hpow : n - ds.length = -(((zeros (-n) ++ ds).length : ℕ) : ℤ) := by
    rw [List.length_append, Nat.cast_add, length_zeros (by omega)]
    ring
  have hvalue : digitsValue (zeros (-n) ++ ds) = digitsValue ds := by
    rw [digitsValue_append, zeros, digitsValue_zeros, Nat.zero_mul, Nat.zero_add]
  rw [unsignedNumber_parts rfl (fraction_digits hdigits hne hrest.noDigit) hexponent, hvalue,
    Nat.cast_zero, zero_add, zpow_zero, mul_one, hpow, zpow_neg, zpow_natCast, div_eq_mul_inv]

theorem unsignedNumber_exponentText {ds rest : List Char} (hds : Numeral ds) (e : ℤ)
    (hrest : EndsNumber rest) :
    unsignedNumber (exponentText ds e ++ rest) =
      some ((digitsValue ds : ℚ) * 10 ^ (e + 1 - ds.length), rest) := by
  have hexponent := exponent_signed e hrest.noDigit
  have hpos := List.length_pos_iff.mpr hds.ne_nil
  unfold exponentText
  by_cases hone : ds.length = 1
  · have hall : ds.take 1 = ds := List.take_of_length_le hone.le
    have hpow : e + 1 - ds.length = e := by omega
    rw [if_pos hone, List.append_nil, List.append_assoc, List.cons_append, List.cons_append, hall,
      unsignedNumber_parts (wholePart_numeral hds (noDigit_cons rfl _))
        (fraction_none fun c hc => by rw [← Option.some.inj hc]; decide) hexponent,
      add_zero, hpow]
  · have hpow : ((1 : ℕ) : ℤ) - ds.length + e = e + 1 - ds.length := by omega
    rw [if_neg hone, List.append_assoc, List.append_assoc, List.cons_append, List.cons_append,
      List.cons_append,
      unsignedNumber_pointed hds Nat.one_pos (by omega) (noDigit_cons rfl _) hexponent, hpow]

theorem unsignedNumber_decimalText {ds rest : List Char} (hds : Numeral ds) (n : ℤ)
    (hrest : EndsNumber rest) :
    unsignedNumber (decimalText ds n ++ rest) =
      some ((digitsValue ds : ℚ) * 10 ^ (n - ds.length), rest) := by
  unfold decimalText
  split
  next hwhole => exact unsignedNumber_whole hds hwhole.1 hrest
  split
  next hfew hmiddle =>
    have hexponent := exponent_none fun c hc => (hrest c hc).2.2
    have hpow : ((n.toNat : ℕ) : ℤ) - ds.length + 0 = n - ds.length := by omega
    rw [List.append_assoc, List.cons_append,
      unsignedNumber_pointed hds (by omega) (by omega) hrest.noDigit hexponent, hpow]
  split
  next hsmall =>
    rw [List.cons_append, List.cons_append, List.cons_append, List.cons_append]
    exact unsignedNumber_small hds hsmall.2 hrest
  next =>
    have hpow : n - 1 + 1 - ds.length = n - ds.length := by omega
    rw [unsignedNumber_exponentText hds _ hrest, hpow]

/-! ### Numbers -/

/-- The value of a finite binary64. -/
def IsDouble (q : ℚ) : Prop := Number.nearest q = q ∧ |q| < 2 ^ 1024

theorem ofRat_of_nearest {q x : ℚ} (hq : IsDouble q) (hx : Number.nearest x = q) :
    Number.ofRat x = .finite q := by
  rw [Number.ofRat, hx, if_pos hq.2]

theorem decimalText_head {ds : List Char} (hds : Numeral ds) (n : ℤ) :
    ∃ d cs, decimalText ds n = d :: cs ∧ isDigit d = true := by
  obtain ⟨d, rest, rfl, -⟩ := hds.head
  have hd := hds.digits d (List.mem_cons_self ..)
  unfold decimalText
  split
  · exact ⟨d, _, rfl, hd⟩
  split
  next hmiddle =>
    obtain ⟨m, hm⟩ : ∃ m, n.toNat = m + 1 := ⟨n.toNat - 1, by omega⟩
    rw [hm]
    exact ⟨d, _, rfl, hd⟩
  split
  · exact ⟨'0', _, rfl, rfl⟩
  · exact ⟨d, _, rfl, hd⟩

theorem number_of_digit {d : Char} (hd : isDigit d = true) (cs : List Char) :
    number (d :: cs) =
      (unsignedNumber (d :: cs)).map fun (q, rest) => (.num (Number.ofRat q), rest) := by
  unfold number
  split
  next heq =>
    obtain ⟨rfl, -⟩ := List.cons.inj heq
    cases hd
  next => rfl

theorem unsignedNumber_shortest {q : ℚ} (hdouble : Number.nearest q = q) (hq : 0 < q)
    {rest : List Char} (hrest : EndsNumber rest) :
    ∃ x d cs, decimalText (shortest q).1 (shortest q).2 ++ rest = d :: cs ∧ isDigit d = true ∧
      unsignedNumber (d :: cs) = some (x, rest) ∧ Number.nearest x = q := by
  obtain ⟨hnumeral, hvalue⟩ := shortest_spec hdouble hq
  obtain ⟨d, cs, hhead, hd⟩ := decimalText_head hnumeral (shortest q).2
  have hread := unsignedNumber_decimalText hnumeral (shortest q).2 hrest
  rw [hhead, List.cons_append] at hread
  exact ⟨_, d, cs ++ rest, by rw [hhead, List.cons_append], hd, hread, hvalue⟩

theorem number_finiteText {q : ℚ} (hq : IsDouble q) {rest : List Char} (hrest : EndsNumber rest) :
    number (finiteText q ++ rest) = some (.num (.finite q), rest) := by
  unfold finiteText
  split
  next hzero =>
    have hpoint := fraction_none fun c hc => (hrest c hc).2.1
    have hexponent := exponent_none fun c hc => (hrest c hc).2.2
    rw [List.singleton_append, number_of_digit rfl, unsignedNumber_parts rfl hpoint hexponent, hzero,
      Option.map_some]
    dsimp only
    rw [Nat.cast_zero, add_zero, zero_mul, ofRat_of_nearest ⟨Number.nearest_zero, by norm_num⟩
      Number.nearest_zero]
  split
  next hzero hneg =>
    have hdouble : Number.nearest (-q) = -q := by rw [Number.nearest_neg, hq.1]
    obtain ⟨x, d, cs, htext, hd, hread, hx⟩ :=
      unsignedNumber_shortest hdouble (neg_pos.mpr hneg) hrest
    have hx' : Number.nearest (-x) = q := by rw [Number.nearest_neg, hx, neg_neg]
    rw [List.cons_append, htext]
    change (unsignedNumber (d :: cs)).map _ = _
    rw [hread, Option.map_some]
    dsimp only
    rw [ofRat_of_nearest hq hx']
  next hzero hneg =>
    have hpos : 0 < q := lt_of_le_of_ne (not_lt.mp hneg) (Ne.symm hzero)
    obtain ⟨x, d, cs, htext, hd, hread, hx⟩ := unsignedNumber_shortest hq.1 hpos hrest
    rw [htext, number_of_digit hd, hread, Option.map_some]
    dsimp only
    rw [ofRat_of_nearest hq hx]

end VcCommonService.Lib.JsonText
