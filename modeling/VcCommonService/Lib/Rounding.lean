import Mathlib.Algebra.Order.Field.Power
import Mathlib.Data.Rat.Cast.Order
import Mathlib.Tactic.Linarith
import Mathlib.Tactic.NormNum
import Mathlib.Tactic.Positivity
import VcCommonService.Lib.Number

/-!
# What rounding to binary64 keeps

Rounding never crosses an integer below `2 ^ 53`, which is its own rounding; from
`2 ^ 52` on it rounds to integers. A double is the rounding of whatever agrees with it in
seventeen digits.
-/

namespace VcCommonService.Lib.Number

/-! ### Rounding to integers -/

theorem le_roundEven {k : ℤ} {x : ℚ} (h : (k : ℚ) ≤ x) : k ≤ roundEven x := by
  have hfloor : k ≤ ⌊x⌋ := Int.le_floor.mpr h
  unfold roundEven
  dsimp only
  split_ifs <;> omega

theorem roundEven_le {k : ℤ} {x : ℚ} (h : x ≤ k) : roundEven x ≤ k := by
  have hfloor := Int.floor_le x
  unfold roundEven
  dsimp only
  rcases (Int.floor_le_iff.mpr (h.trans_lt (lt_add_one _)) : ⌊x⌋ ≤ k).lt_or_eq with hlt | heq
  · split_ifs <;> omega
  · have hx : x = k := le_antisymm h (heq ▸ hfloor)
    have hzero : x - ⌊x⌋ = 0 := by rw [heq, hx, sub_self]
    rw [if_pos (by rw [hzero]; norm_num)]
    exact heq.le

theorem roundEven_mono {x y : ℚ} (h : x ≤ y) : roundEven x ≤ roundEven y := by
  have hx : roundEven x ≤ ⌊x⌋ + 1 := by
    refine roundEven_le ?_
    push_cast
    exact (Int.lt_floor_add_one x).le
  have hy : ⌊y⌋ ≤ roundEven y := le_roundEven (Int.floor_le y)
  rcases (Int.floor_mono h).lt_or_eq with hlt | heq
  · omega
  · unfold roundEven
    dsimp only
    rw [heq]
    split_ifs <;> first | omega | (exfalso; linarith)

theorem roundEven_of_half_lt {k : ℤ} {x : ℚ} (h : (k : ℚ) + 1 / 2 < x) : k < roundEven x := by
  by_cases hk : (k : ℚ) + 1 ≤ x
  · exact Int.lt_of_add_one_le (le_roundEven (by push_cast; exact hk))
  · have hfloor : ⌊x⌋ = k := Int.floor_eq_iff.mpr ⟨by linarith, not_le.mp hk⟩
    unfold roundEven
    dsimp only
    rw [hfloor, if_neg (by linarith), if_pos (by linarith)]
    exact lt_add_one k

theorem roundEven_le_of_le_half {k : ℤ} (heven : k % 2 = 0) {x : ℚ} (h : x ≤ k + 1 / 2) :
    roundEven x ≤ k := by
  rcases le_or_gt x k with hle | hlt
  · exact roundEven_le hle
  · have hfloor : ⌊x⌋ = k := Int.floor_eq_iff.mpr ⟨hlt.le, by linarith⟩
    unfold roundEven
    dsimp only
    rw [hfloor, if_neg (show ¬ 1 / 2 < x - k by linarith), if_pos heven]
    split <;> exact le_rfl

/-! ### Binades -/

theorem two_zpow_pos (e : ℤ) : (0 : ℚ) < 2 ^ e := zpow_pos two_pos e

theorem binade_spec {q : ℚ} (hq : q ≠ 0) : (2 : ℚ) ^ binade q ≤ |q| ∧ |q| < 2 ^ (binade q + 1) := by
  obtain ⟨a, ha⟩ : ∃ a, a = q.num.natAbs.log2 := ⟨_, rfl⟩
  obtain ⟨b, hb⟩ : ∃ b, b = q.den.log2 := ⟨_, rfl⟩
  have hnum : q.num.natAbs ≠ 0 := Int.natAbs_ne_zero.mpr (Rat.num_ne_zero.mpr hq)
  have hden : (0 : ℚ) < q.den := by exact_mod_cast q.den_pos
  have habs : |q| = q.num.natAbs / q.den := by
    conv_lhs => rw [← Rat.num_div_den q]
    rw [abs_div, Nat.abs_cast, Nat.cast_natAbs, Int.cast_abs]
  have hnumLow : (2 : ℚ) ^ (a : ℤ) ≤ q.num.natAbs := by
    rw [zpow_natCast]
    exact_mod_cast ha ▸ Nat.log2_self_le hnum
  have hnumHigh : (q.num.natAbs : ℚ) < 2 ^ ((a : ℤ) + 1) := by
    rw [← Nat.cast_succ, zpow_natCast]
    exact_mod_cast ha ▸ Nat.lt_log2_self
  have hdenLow : (2 : ℚ) ^ (b : ℤ) ≤ q.den := by
    rw [zpow_natCast]
    exact_mod_cast hb ▸ Nat.log2_self_le q.den_nz
  have hdenHigh : (q.den : ℚ) < 2 ^ ((b : ℤ) + 1) := by
    rw [← Nat.cast_succ, zpow_natCast]
    exact_mod_cast hb ▸ Nat.lt_log2_self
  have hlow : (2 : ℚ) ^ ((a : ℤ) - b - 1) ≤ |q| := by
    rw [habs, le_div_iff₀ hden]
    calc (2 : ℚ) ^ ((a : ℤ) - b - 1) * q.den
        ≤ 2 ^ ((a : ℤ) - b - 1) * 2 ^ ((b : ℤ) + 1) := by
          exact mul_le_mul_of_nonneg_left hdenHigh.le (two_zpow_pos _).le
      _ = 2 ^ (a : ℤ) := by
          rw [← zpow_add₀ two_ne_zero]
          exact congrArg ((2 : ℚ) ^ ·) (by omega)
      _ ≤ q.num.natAbs := hnumLow
  have hhigh : |q| < (2 : ℚ) ^ ((a : ℤ) - b + 1) := by
    rw [habs, div_lt_iff₀ hden]
    calc (q.num.natAbs : ℚ) < 2 ^ ((a : ℤ) + 1) := hnumHigh
      _ = 2 ^ ((a : ℤ) - b + 1) * 2 ^ (b : ℤ) := by
          rw [← zpow_add₀ two_ne_zero]
          exact congrArg ((2 : ℚ) ^ ·) (by omega)
      _ ≤ 2 ^ ((a : ℤ) - b + 1) * q.den := by
          exact mul_le_mul_of_nonneg_left hdenLow (two_zpow_pos _).le
  unfold binade
  rw [← ha, ← hb]
  dsimp only
  split
  next hle => exact ⟨hle, hhigh⟩
  next hlt => exact ⟨hlow, by rw [sub_add_cancel]; exact not_le.mp hlt⟩

def ulpExponent (q : ℚ) : ℤ := max (binade q - 52) (-1074)

theorem nearest_eq {q : ℚ} (hq : q ≠ 0) :
    nearest q = roundEven (q / 2 ^ ulpExponent q) * 2 ^ ulpExponent q := if_neg hq

theorem ulpExponent_le_zero {q : ℚ} (hq : q ≠ 0) (h : |q| < 2 ^ 53) : ulpExponent q ≤ 0 := by
  have hbinade : (2 : ℚ) ^ binade q < 2 ^ (53 : ℤ) := (binade_spec hq).1.trans_lt (by exact_mod_cast h)
  have hlt := (zpow_lt_zpow_iff_right₀ one_lt_two).mp hbinade
  unfold ulpExponent
  omega

/-! ### Rounding and integers -/

/-- An integer is a whole number of units that are not larger than one. -/
theorem exists_int_units {e : ℤ} (he : e ≤ 0) (n : ℤ) : ∃ k : ℤ, (k : ℚ) * 2 ^ e = n := by
  obtain ⟨m, rfl⟩ := Int.exists_eq_neg_ofNat he
  refine ⟨n * 2 ^ m, ?_⟩
  rw [zpow_neg, zpow_natCast]
  push_cast
  exact mul_inv_cancel_right₀ (pow_ne_zero m two_ne_zero) _

theorem nearest_le_units {q : ℚ} (hq : q ≠ 0) {k : ℤ} (h : q ≤ k * 2 ^ ulpExponent q) :
    nearest q ≤ k * 2 ^ ulpExponent q := by
  have hpos := two_zpow_pos (ulpExponent q)
  rw [nearest_eq hq]
  exact mul_le_mul_of_nonneg_right
    (by exact_mod_cast roundEven_le ((div_le_iff₀ hpos).mpr h)) hpos.le

theorem units_le_nearest {q : ℚ} (hq : q ≠ 0) {k : ℤ} (h : k * 2 ^ ulpExponent q ≤ q) :
    k * 2 ^ ulpExponent q ≤ nearest q := by
  have hpos := two_zpow_pos (ulpExponent q)
  rw [nearest_eq hq]
  exact mul_le_mul_of_nonneg_right
    (by exact_mod_cast le_roundEven ((le_div_iff₀ hpos).mpr h)) hpos.le

theorem le_nearest_of_small {n : ℤ} {q : ℚ} (hq : q ≠ 0) (hsmall : |q| < 2 ^ 53) (h : (n : ℚ) ≤ q) :
    (n : ℚ) ≤ nearest q := by
  obtain ⟨k, hk⟩ := exists_int_units (ulpExponent_le_zero hq hsmall) n
  rw [← hk] at h ⊢
  exact units_le_nearest hq h

theorem nearest_le_of_small {n : ℤ} {q : ℚ} (hq : q ≠ 0) (hsmall : |q| < 2 ^ 53) (h : q ≤ n) :
    nearest q ≤ n := by
  obtain ⟨k, hk⟩ := exists_int_units (ulpExponent_le_zero hq hsmall) n
  rw [← hk] at h ⊢
  exact nearest_le_units hq h

theorem nearest_zero : nearest 0 = 0 := if_pos rfl

/-- An integer of 53 bits is its own rounding. -/
theorem nearest_intCast {n : ℤ} (hn : |(n : ℚ)| < 2 ^ 53) : nearest n = n := by
  by_cases hzero : (n : ℚ) = 0
  · rw [hzero, nearest_zero]
  · exact le_antisymm (nearest_le_of_small hzero hn le_rfl) (le_nearest_of_small hzero hn le_rfl)

/-! ### Rounding keeps the order -/

theorem exists_units_two_zpow {e b : ℤ} (h : e ≤ b) : ∃ k : ℤ, (k : ℚ) * 2 ^ e = 2 ^ b := by
  obtain ⟨m, rfl⟩ := Int.le.dest h
  refine ⟨2 ^ m, ?_⟩
  rw [add_comm, zpow_add₀ two_ne_zero, zpow_natCast]
  push_cast
  rfl

/-- A power of two that is a number of units is not crossed. -/
theorem nearest_two_zpow {q : ℚ} (hq : q ≠ 0) {b : ℤ} (hb : ulpExponent q ≤ b) :
    (q ≤ 2 ^ b → nearest q ≤ 2 ^ b) ∧ ((2 : ℚ) ^ b ≤ q → 2 ^ b ≤ nearest q) ∧
      (q ≤ -2 ^ b → nearest q ≤ -2 ^ b) ∧ (-(2 : ℚ) ^ b ≤ q → -2 ^ b ≤ nearest q) := by
  obtain ⟨k, hk⟩ := exists_units_two_zpow hb
  have hneg : ((-k : ℤ) : ℚ) * 2 ^ ulpExponent q = -2 ^ b := by
    rw [Int.cast_neg, neg_mul, hk]
  rw [← hneg, ← hk]
  exact ⟨nearest_le_units hq, units_le_nearest hq, nearest_le_units hq, units_le_nearest hq⟩

theorem nearest_mono_of_units {q r : ℚ} (hq : q ≠ 0) (hr : r ≠ 0)
    (hunits : ulpExponent q = ulpExponent r) (h : q ≤ r) : nearest q ≤ nearest r := by
  have hpos := two_zpow_pos (ulpExponent r)
  rw [nearest_eq hq, nearest_eq hr, hunits]
  refine mul_le_mul_of_nonneg_right ?_ hpos.le
  exact_mod_cast roundEven_mono (div_le_div_of_nonneg_right h hpos.le)

/-- With other units, the larger number begins a binade that the smaller one does not reach. -/
theorem exists_binade_between {q r : ℚ} (hq : q ≠ 0) (hr : r ≠ 0) (h : |q| ≤ |r|)
    (hunits : ulpExponent q ≠ ulpExponent r) :
    ∃ b, ulpExponent q ≤ b ∧ ulpExponent r ≤ b ∧ |q| < 2 ^ b ∧ (2 : ℚ) ^ b ≤ |r| := by
  obtain ⟨hlow, hhigh⟩ := binade_spec hq
  obtain ⟨hlow', hhigh'⟩ := binade_spec hr
  have hbinade := (zpow_lt_zpow_iff_right₀ one_lt_two).mp (hlow.trans_lt (h.trans_lt hhigh'))
  unfold ulpExponent at hunits ⊢
  refine ⟨binade r, by omega, by omega, hhigh.trans_le ?_, hlow'⟩
  exact zpow_le_zpow_right₀ one_le_two (by omega)

theorem nearest_nonneg {q : ℚ} (h : 0 ≤ q) : 0 ≤ nearest q := by
  by_cases hq : q = 0
  · rw [hq, nearest_zero]
  · have hzero := units_le_nearest (k := 0) hq (by rwa [Int.cast_zero, zero_mul])
    rwa [Int.cast_zero, zero_mul] at hzero

theorem nearest_nonpos {q : ℚ} (h : q ≤ 0) : nearest q ≤ 0 := by
  by_cases hq : q = 0
  · rw [hq, nearest_zero]
  · have hzero := nearest_le_units (k := 0) hq (by rwa [Int.cast_zero, zero_mul])
    rwa [Int.cast_zero, zero_mul] at hzero

theorem nearest_mono {q r : ℚ} (h : q ≤ r) : nearest q ≤ nearest r := by
  rcases le_or_gt 0 q with hpos | hneg
  · by_cases hq : q = 0
    · rw [hq, nearest_zero]
      exact nearest_nonneg (hpos.trans h)
    have hr : r ≠ 0 := ((hpos.lt_of_ne' hq).trans_le h).ne'
    by_cases hunits : ulpExponent q = ulpExponent r
    · exact nearest_mono_of_units hq hr hunits h
    have habs : |q| ≤ |r| := by rwa [abs_of_nonneg hpos, abs_of_nonneg (hpos.trans h)]
    obtain ⟨b, hqb, hrb, hbelow, habove⟩ := exists_binade_between hq hr habs hunits
    rw [abs_of_nonneg hpos] at hbelow
    rw [abs_of_nonneg (hpos.trans h)] at habove
    exact ((nearest_two_zpow hq hqb).1 hbelow.le).trans ((nearest_two_zpow hr hrb).2.1 habove)
  rcases le_or_gt 0 r with hpos | hneg'
  · exact (nearest_nonpos hneg.le).trans (nearest_nonneg hpos)
  · by_cases hunits : ulpExponent q = ulpExponent r
    · exact nearest_mono_of_units hneg.ne hneg'.ne hunits h
    have habs : |r| ≤ |q| := by
      rw [abs_of_neg hneg, abs_of_neg hneg']
      exact neg_le_neg h
    obtain ⟨b, hrb, hqb, habove, hbelow⟩ :=
      exists_binade_between hneg'.ne hneg.ne habs (Ne.symm hunits)
    rw [abs_of_neg hneg] at hbelow
    rw [abs_of_neg hneg'] at habove
    exact ((nearest_two_zpow hneg.ne hqb).2.2.1 (by linarith)).trans
      ((nearest_two_zpow hneg'.ne hrb).2.2.2 (by linarith))

theorem le_nearest {n : ℤ} (hn : |(n : ℚ)| < 2 ^ 53) {q : ℚ} (h : (n : ℚ) ≤ q) :
    (n : ℚ) ≤ nearest q := by
  have hle := nearest_mono h
  rwa [nearest_intCast hn] at hle

theorem nearest_le {n : ℤ} (hn : |(n : ℚ)| < 2 ^ 53) {q : ℚ} (h : q ≤ n) : nearest q ≤ n := by
  have hle := nearest_mono h
  rwa [nearest_intCast hn] at hle

/-- Up to the half above an even integer of 53 bits, rounding comes down to it. -/
theorem nearest_le_iff {n : ℤ} (hlow : (2 : ℚ) ^ 52 ≤ n) (hhigh : (n : ℚ) + 1 < 2 ^ 53)
    (heven : n % 2 = 0) {q : ℚ} (hq : 0 ≤ q) : nearest q ≤ n ↔ q ≤ n + 1 / 2 := by
  have hnpos : (0 : ℚ) < n := lt_of_lt_of_le (by positivity) hlow
  rcases le_or_gt q n with hle | hgt
  · have hbound : nearest q ≤ n := by
      by_cases hzero : q = 0
      · rw [hzero, nearest_zero]
        exact hnpos.le
      · exact nearest_le_of_small hzero (by rw [abs_of_nonneg hq]; linarith) hle
    exact iff_of_true hbound (by linarith)
  · have hqpos : 0 < q := hnpos.trans hgt
    rcases le_or_gt (n + 1 : ℚ) q with hfar | hnear
    · refine iff_of_false (not_le.mpr ?_) (by linarith)
      have hsucc : |((n + 1 : ℤ) : ℚ)| < 2 ^ 53 := by
        push_cast
        rw [abs_of_pos (by linarith)]
        exact hhigh
      have hle := le_nearest hsucc (q := q) (by push_cast; exact hfar)
      push_cast at hle
      linarith
    · -- one unit in the last place is one here
      have hulp : ulpExponent q = 0 := by
        obtain ⟨hlow', hhigh'⟩ := binade_spec hqpos.ne'
        rw [abs_of_pos hqpos] at hlow' hhigh'
        have hbelow : (2 : ℚ) ^ binade q < 2 ^ (53 : ℤ) :=
          hlow'.trans_lt (hnear.trans (by exact_mod_cast hhigh))
        have habove : (2 : ℚ) ^ (52 : ℤ) < 2 ^ (binade q + 1) :=
          lt_of_le_of_lt (by exact_mod_cast hlow) (hgt.trans hhigh')
        have h₁ := (zpow_lt_zpow_iff_right₀ one_lt_two).mp hbelow
        have h₂ := (zpow_lt_zpow_iff_right₀ one_lt_two).mp habove
        unfold ulpExponent
        omega
      have hnearest : nearest q = roundEven q := by
        rw [nearest_eq hqpos.ne', hulp, zpow_zero, div_one, mul_one]
      rw [hnearest]
      constructor
      · intro hround
        by_contra hhalf
        have hlt := roundEven_of_half_lt (not_le.mp hhalf)
        exact absurd (by exact_mod_cast hround) (not_le.mpr hlt)
      · intro hhalf
        exact_mod_cast roundEven_le_of_le_half heven hhalf

/-! ### Numbers near a double -/

theorem abs_roundEven_sub_le (x : ℚ) : |roundEven x - x| ≤ 1 / 2 := by
  have hfloor := Int.floor_le x
  have hfloor' := Int.lt_floor_add_one x
  unfold roundEven
  dsimp only
  rw [abs_le]
  split_ifs <;> constructor <;> push_cast <;> linarith

theorem roundEven_of_near {k : ℤ} {x : ℚ} (h : |x - k| < 1 / 2) : roundEven x = k := by
  obtain ⟨hlow, hhigh⟩ := abs_lt.mp h
  have habove : k - 1 < roundEven x := roundEven_of_half_lt (by push_cast; linarith)
  have hfloor : ⌊x⌋ < k + 1 := Int.floor_lt.mpr (by push_cast; linarith)
  have hbelow : roundEven x ≤ k := by
    rcases (Int.le_of_lt_add_one hfloor).lt_or_eq with hlt | heq
    · unfold roundEven
      dsimp only
      split_ifs <;> omega
    · unfold roundEven
      dsimp only
      rw [heq, if_pos (by linarith)]
  omega

theorem roundEven_neg (x : ℚ) : roundEven (-x) = -roundEven x := by
  have hfloor := Int.floor_le x
  have hfloor' := Int.lt_floor_add_one x
  rcases lt_trichotomy (x - ⌊x⌋) (1 / 2) with hlt | heq | hgt
  · have hx : roundEven x = ⌊x⌋ := roundEven_of_near (abs_lt.mpr ⟨by linarith, hlt⟩)
    rw [hx]
    refine roundEven_of_near (abs_lt.mpr ⟨?_, ?_⟩) <;> push_cast <;> linarith
  · -- a tie: the two floors differ in parity
    have hneg : ⌊-x⌋ = -⌊x⌋ - 1 := by
      refine Int.floor_eq_iff.mpr ⟨?_, ?_⟩ <;> push_cast <;> linarith
    have htie : -x - ⌊-x⌋ = 1 / 2 := by
      rw [hneg]
      push_cast
      linarith
    unfold roundEven
    dsimp only
    rw [heq, htie, hneg, if_neg (lt_irrefl _), if_neg (lt_irrefl _), if_neg (lt_irrefl _),
      if_neg (lt_irrefl _)]
    split_ifs <;> omega
  · have hx : roundEven x = ⌊x⌋ + 1 := by
      refine roundEven_of_near (abs_lt.mpr ⟨?_, ?_⟩) <;> push_cast <;> linarith
    rw [hx]
    refine roundEven_of_near (abs_lt.mpr ⟨?_, ?_⟩) <;> push_cast <;> linarith

theorem nearest_neg (q : ℚ) : nearest (-q) = -nearest q := by
  by_cases hq : q = 0
  · rw [hq, neg_zero, nearest_zero, neg_zero]
  · have hbinade : binade (-q) = binade q := by simp [binade]
    have hunits : ulpExponent (-q) = ulpExponent q := by rw [ulpExponent, hbinade, ulpExponent]
    rw [nearest_eq (neg_ne_zero.mpr hq), nearest_eq hq, hunits, neg_div, roundEven_neg, Int.cast_neg,
      neg_mul]

section Double

variable {q : ℚ} (hq : nearest q = q) (hpos : 0 < q)
include hq hpos

theorem exists_units_of_double {e : ℤ} (he : e ≤ ulpExponent q) : ∃ m : ℤ, q = m * 2 ^ e := by
  obtain ⟨k, hk⟩ := exists_units_two_zpow he
  refine ⟨roundEven (q / 2 ^ ulpExponent q) * k, ?_⟩
  rw [Int.cast_mul, mul_assoc, hk, ← nearest_eq hpos.ne', hq]

/-- A double below a power of two is a unit below it. -/
theorem add_unit_le {b : ℤ} (hb : ulpExponent q ≤ b) (h : q < 2 ^ b) :
    q + 2 ^ ulpExponent q ≤ 2 ^ b := by
  obtain ⟨k, hk⟩ := exists_units_two_zpow hb
  obtain ⟨m, hm⟩ := exists_units_of_double hq hpos le_rfl
  generalize ulpExponent q = e at *
  have hunit := two_zpow_pos e
  rw [← hk, hm] at h ⊢
  have hlt : (m : ℚ) < k := lt_of_mul_lt_mul_right h hunit.le
  have hle : (m : ℚ) + 1 ≤ k := by exact_mod_cast hlt
  calc (m : ℚ) * 2 ^ e + 2 ^ e = (m + 1) * 2 ^ e := by rw [add_mul, one_mul]
    _ ≤ k * 2 ^ e := mul_le_mul_of_nonneg_right hle hunit.le

end Double

theorem lt_unit {x δ : ℚ} (hδ : 0 < δ) (h : 2 ^ 53 * δ < x) : δ < 2 ^ ulpExponent x := by
  have hx : 0 < x := lt_trans (by positivity) h
  obtain ⟨-, hbinade⟩ := binade_spec hx.ne'
  rw [abs_of_pos hx] at hbinade
  have hpow : (2 : ℚ) ^ (binade x + 1) = 2 ^ 53 * 2 ^ (binade x - 52) := by
    rw [← zpow_natCast, ← zpow_add₀ two_ne_zero]
    exact congrArg ((2 : ℚ) ^ ·) (by push_cast; ring)
  have hscaled : 2 ^ 53 * δ < 2 ^ 53 * (2 : ℚ) ^ (binade x - 52) := hpow ▸ h.trans hbinade
  calc δ < 2 ^ (binade x - 52) := lt_of_mul_lt_mul_left hscaled (by positivity)
    _ ≤ 2 ^ ulpExponent x := zpow_le_zpow_right₀ one_le_two (le_max_left _ _)

/-- A double is the nearest to what agrees with it in seventeen digits. -/
theorem nearest_of_near {q x δ : ℚ} (hq : nearest q = q) (hδ : 0 < δ) (hdigits : 10 ^ 16 * δ ≤ q)
    (hnear : |x - q| ≤ δ / 2) : nearest x = q := by
  obtain ⟨hlow, hhigh⟩ := abs_le.mp hnear
  have hqpos : 0 < q := lt_of_lt_of_le (by positivity) hdigits
  have hxlow : 2 ^ 53 * δ < x := by linarith
  have hxpos : 0 < x := lt_trans (by positivity) hxlow
  have hunits : ulpExponent x ≤ ulpExponent q := by
    by_contra hgt
    obtain ⟨hbelow, -⟩ := binade_spec hxpos.ne'
    obtain ⟨-, habove⟩ := binade_spec hqpos.ne'
    rw [abs_of_pos hxpos] at hbelow
    rw [abs_of_pos hqpos] at habove
    have hbinade : ulpExponent q ≤ binade x ∧ binade q + 1 ≤ binade x := by
      unfold ulpExponent at hgt ⊢
      omega
    have hqbelow : q < 2 ^ binade x :=
      habove.trans_le (zpow_le_zpow_right₀ one_le_two hbinade.2)
    have hgap := add_unit_le hq hqpos hbinade.1 hqbelow
    have hunit := lt_unit hδ (show 2 ^ 53 * δ < q by linarith)
    linarith
  obtain ⟨m, hm⟩ := exists_units_of_double hq hqpos hunits
  have hpos := two_zpow_pos (ulpExponent x)
  have hround : roundEven (x / 2 ^ ulpExponent x) = m := by
    have hdiff : x / 2 ^ ulpExponent x - m = (x - q) / 2 ^ ulpExponent x := by
      rw [sub_div, eq_div_iff hpos.ne' |>.mpr hm.symm]
    refine roundEven_of_near ?_
    rw [hdiff, abs_div, abs_of_pos hpos, div_lt_iff₀ hpos]
    linarith [lt_unit hδ hxlow]
  rw [nearest_eq hxpos.ne', hround, ← hm]

end VcCommonService.Lib.Number
