import Mathlib.Tactic.SplitIfs
import VcCommonService.Lib.Decimal
import VcCommonService.Lib.Number

/-!
# The calendar of ECMAScript dates

Days are counted from 1 January 1970, months from January of the year 0, so that month `k` is
month `k % 12` of the year `k / 12`. `toISOString` writes a time value as a text of fixed width,
and `ofISOString` reads it back.
-/

namespace VcCommonService.Lib.Calendar

/-! ### Years -/

def IsLeap (year : ℤ) : Prop := year % 4 = 0 ∧ (year % 100 ≠ 0 ∨ year % 400 = 0)

instance : DecidablePred IsLeap := fun _ => inferInstanceAs (Decidable (_ ∧ _))

def leapDays (year : ℤ) : ℤ := if IsLeap year then 1 else 0

theorem leapDays_cases (year : ℤ) : leapDays year = 0 ∨ leapDays year = 1 := by
  unfold leapDays
  split
  · exact Or.inr rfl
  · exact Or.inl rfl

/-- `DayFromYear`, the day of 1 January. -/
def dayFromYear (year : ℤ) : ℤ :=
  365 * (year - 1970) + (year - 1969) / 4 - (year - 1901) / 100 + (year - 1601) / 400

theorem dayFromYear_succ (year : ℤ) :
    dayFromYear (year + 1) = dayFromYear year + 365 + leapDays year := by
  unfold leapDays
  by_cases h : IsLeap year
  · rw [if_pos h]
    unfold IsLeap at h
    unfold dayFromYear
    omega
  · rw [if_neg h]
    unfold IsLeap at h
    unfold dayFromYear
    omega

/-- `YearFromTime`: four centuries have 146097 days, which is off by one year at most. -/
def yearFromDay (day : ℤ) : ℤ :=
  let year := 1970 + 400 * day / 146097
  if day < dayFromYear year then year - 1
  else if dayFromYear (year + 1) ≤ day then year + 1
  else year

theorem yearFromDay_spec (day : ℤ) :
    dayFromYear (yearFromDay day) ≤ day ∧ day < dayFromYear (yearFromDay day + 1) := by
  obtain ⟨year, hyear⟩ : ∃ year, year = 1970 + 400 * day / 146097 := ⟨_, rfl⟩
  unfold yearFromDay
  rw [← hyear]
  dsimp only
  by_cases hbefore : day < dayFromYear year
  · rw [if_pos hbefore, sub_add_cancel]
    refine ⟨?_, hbefore⟩
    unfold dayFromYear
    omega
  · rw [if_neg hbefore]
    by_cases hafter : dayFromYear (year + 1) ≤ day
    · rw [if_pos hafter]
      refine ⟨hafter, ?_⟩
      unfold dayFromYear
      omega
    · rw [if_neg hafter]
      exact ⟨not_lt.mp hbefore, not_le.mp hafter⟩

/-! ### Months -/

/-- Days of a year before its month, of a year with `leap` leap days. -/
def monthOffset (leap month : ℤ) : ℤ :=
  (367 * month + 5) / 12 - if month ≤ 1 then 0 else 2 - leap

def monthInYear (leap n : ℤ) : ℤ :=
  (12 * (n + if n < 59 + leap then 0 else 2 - leap) + 6) / 367

theorem monthOffset_twelve (leap : ℤ) : monthOffset leap 12 = 365 + leap := by
  unfold monthOffset
  rw [if_neg (by omega)]
  omega

theorem monthInYear_spec {leap n : ℤ} (hleap : leap = 0 ∨ leap = 1) (hn : 0 ≤ n)
    (hn' : n < 365 + leap) :
    0 ≤ monthInYear leap n ∧ monthInYear leap n < 12 ∧
      monthOffset leap (monthInYear leap n) ≤ n ∧ n < monthOffset leap (monthInYear leap n + 1) := by
  unfold monthInYear
  obtain ⟨month, hmonth⟩ : ∃ month, month =
    (12 * (n + if n < 59 + leap then 0 else 2 - leap) + 6) / 367 := ⟨_, rfl⟩
  rw [← hmonth]
  unfold monthOffset
  rcases hleap with rfl | rfl
  · split_ifs at * <;> omega
  · split_ifs at * <;> omega

/-- The day on which month `k` begins: `MakeDay(k / 12, k % 12, 1)`. -/
def dayFromMonth (k : ℤ) : ℤ := dayFromYear (k / 12) + monthOffset (leapDays (k / 12)) (k % 12)

def monthFromDay (day : ℤ) : ℤ :=
  let year := yearFromDay day
  12 * year + monthInYear (leapDays year) (day - dayFromYear year)

/-- Month twelve of a year is the first of the next one. -/
theorem dayFromMonth_eq {year month : ℤ} (h : 0 ≤ month) (h' : month ≤ 12) :
    dayFromMonth (12 * year + month) = dayFromYear year + monthOffset (leapDays year) month := by
  unfold dayFromMonth
  rcases h'.lt_or_eq with hlt | rfl
  · rw [show (12 * year + month) / 12 = year by omega,
      show (12 * year + month) % 12 = month by omega]
  · rw [show (12 * year + 12) / 12 = year + 1 by omega, show (12 * year + 12) % 12 = 0 by omega,
      monthOffset_twelve, dayFromYear_succ]
    unfold monthOffset
    rw [if_pos (by omega)]
    omega

/-- A month has 28 to 31 days. -/
theorem dayFromMonth_succ (k : ℤ) :
    dayFromMonth k + 28 ≤ dayFromMonth (k + 1) ∧ dayFromMonth (k + 1) ≤ dayFromMonth k + 31 := by
  have hk : k = 12 * (k / 12) + k % 12 := by omega
  have h := @dayFromMonth_eq (k / 12) (k % 12) (by omega) (by omega)
  have h' := @dayFromMonth_eq (k / 12) (k % 12 + 1) (by omega) (by omega)
  rw [← hk] at h
  rw [← add_assoc, ← hk] at h'
  rw [h, h']
  have hleap := leapDays_cases (k / 12)
  unfold monthOffset
  split_ifs <;> omega

theorem dayFromMonth_lt_iff {j k : ℤ} : dayFromMonth j < dayFromMonth k ↔ j < k := by
  have hmono : StrictMono dayFromMonth := strictMono_int_of_lt_succ fun k => by
    have h := (dayFromMonth_succ k).1
    omega
  exact hmono.lt_iff_lt

theorem monthFromDay_spec (day : ℤ) :
    dayFromMonth (monthFromDay day) ≤ day ∧ day < dayFromMonth (monthFromDay day + 1) := by
  obtain ⟨hyear, hyear'⟩ := yearFromDay_spec day
  rw [dayFromYear_succ] at hyear'
  unfold monthFromDay
  dsimp only
  generalize yearFromDay day = year at *
  obtain ⟨h0, h12, hle, hlt⟩ := monthInYear_spec (n := day - dayFromYear year)
    (leapDays_cases year) (by omega) (by omega)
  rw [add_assoc, dayFromMonth_eq h0 (by omega), dayFromMonth_eq (by omega) (by omega)]
  omega

theorem monthFromDay_eq_iff {day k : ℤ} :
    monthFromDay day = k ↔ dayFromMonth k ≤ day ∧ day < dayFromMonth (k + 1) := by
  constructor
  · rintro rfl
    exact monthFromDay_spec day
  · rintro ⟨hle, hlt⟩
    obtain ⟨hle', hlt'⟩ := monthFromDay_spec day
    have h := dayFromMonth_lt_iff.mp (hle.trans_lt hlt')
    have h' := dayFromMonth_lt_iff.mp (hle'.trans_lt hlt)
    omega

/-! ### Time values -/

def msPerDay : ℤ := 86400000

/-- The largest time value; a `Date` past it, or below its negative, is invalid. -/
def maxTime : ℤ := 8640000000000000

def IsTime (t : ℤ) : Prop := -maxTime ≤ t ∧ t ≤ maxTime

instance : DecidablePred IsTime := fun _ => inferInstanceAs (Decidable (_ ∧ _))

def timeClip (t : ℤ) : Date := if IsTime t then some t else none

/-- `Date.UTC(year, month, date)`; the years 0 to 99 are read as 1900 to 1999. -/
def utc (year month date : ℤ) : Date :=
  let fullYear := if 0 ≤ year ∧ year ≤ 99 then 1900 + year else year
  timeClip ((dayFromMonth (12 * fullYear + month) + date - 1) * msPerDay)

def monthOf (t : ℤ) : ℤ := monthFromDay (t / msPerDay)

def getUTCFullYear (t : ℤ) : ℤ := monthOf t / 12

def getUTCMonth (t : ℤ) : ℤ := monthOf t % 12

def monthStart (k : ℤ) : ℤ := dayFromMonth k * msPerDay

theorem monthStart_lt_iff {j k : ℤ} : monthStart j < monthStart k ↔ j < k := by
  have hdays := @dayFromMonth_lt_iff j k
  unfold monthStart msPerDay
  omega

theorem monthStart_le_iff {j k : ℤ} : monthStart j ≤ monthStart k ↔ j ≤ k := by
  rw [← not_lt, monthStart_lt_iff, not_lt]

theorem monthOf_eq_iff {t k : ℤ} :
    monthOf t = k ↔ monthStart k ≤ t ∧ t < monthStart (k + 1) := by
  unfold monthOf monthStart msPerDay
  rw [monthFromDay_eq_iff]
  omega

theorem monthOf_monthStart (k : ℤ) : monthOf (monthStart k) = k :=
  monthOf_eq_iff.mpr ⟨le_rfl, monthStart_lt_iff.mpr (lt_add_one k)⟩

theorem monthOf_mono {t t' : ℤ} (h : t ≤ t') : monthOf t ≤ monthOf t' := by
  obtain ⟨hle, -⟩ := monthOf_eq_iff.mp (rfl : monthOf t = monthOf t)
  obtain ⟨-, hlt⟩ := monthOf_eq_iff.mp (rfl : monthOf t' = monthOf t')
  have hmonth := monthStart_lt_iff.mp (hle.trans_lt (h.trans_lt hlt))
  omega

theorem timeClip_of_isTime {t : ℤ} (h : IsTime t) : timeClip t = some t := if_pos h

/-- `Date.UTC` of the month that is `i` months after that of `t`. -/
theorem utc_month {t : ℤ} (h : 100 ≤ getUTCFullYear t) (i : ℤ) :
    utc (getUTCFullYear t) (getUTCMonth t + i) 1 = timeClip (monthStart (monthOf t + i)) := by
  have hmonth : 12 * (monthOf t / 12) + (monthOf t % 12 + i) = monthOf t + i := by omega
  unfold utc getUTCMonth
  unfold getUTCFullYear at *
  dsimp only
  rw [if_neg (by omega), hmonth, add_sub_cancel_right]
  rfl

/-- Time values lie in the years -271821 to 275760. -/
theorem year_of_isTime {t : ℤ} (h : IsTime t) :
    -271821 ≤ getUTCFullYear t ∧ getUTCFullYear t ≤ 275760 := by
  have hfirst : monthOf (-maxTime) / 12 = -271821 := by decide +kernel
  have hlast : monthOf maxTime / 12 = 275760 := by decide +kernel
  have hle := monthOf_mono h.1
  have hle' := monthOf_mono h.2
  unfold getUTCFullYear
  omega

/-! ### `toISOString` -/

section IsoText
open Decimal

def yearText (year : ℤ) : List Char :=
  if 0 ≤ year ∧ year ≤ 9999 then fixed 4 year.toNat
  else (if year < 0 then '-' else '+') :: fixed 6 year.natAbs

/-- The text for a month and a date counted from one, and the milliseconds of the day. -/
def isoParts (year : ℤ) (month date ms : ℕ) : String :=
  String.ofList (yearText year ++ '-' :: fixed 2 month ++ '-' :: fixed 2 date ++
    'T' :: fixed 2 (ms / 3600000) ++ ':' :: fixed 2 (ms / 60000 % 60) ++
    ':' :: fixed 2 (ms / 1000 % 60) ++ '.' :: fixed 3 (ms % 1000) ++ ['Z'])

def isoText (t : ℤ) : String :=
  isoParts (getUTCFullYear t) (getUTCMonth t + 1).toNat
    (t / msPerDay - dayFromMonth (monthOf t) + 1).toNat (t % msPerDay).toNat

/-- `none` where `toISOString` throws, on an invalid date. -/
def toISOString (date : Date) : Option String := date.map isoText

/-! ### Reading the text back -/

def readYear : List Char → Option (ℤ × List Char)
  | '+' :: cs => (takeFixed 6 cs).map fun (year, rest) => ((year : ℤ), rest)
  | '-' :: cs => (takeFixed 6 cs).map fun (year, rest) => (-(year : ℤ), rest)
  | cs => (takeFixed 4 cs).map fun (year, rest) => ((year : ℤ), rest)

def ofISOString (s : String) : Option ℤ := do
  let (year, cs) ← readYear s.toList
  let cs ← expect '-' cs
  let (month, cs) ← takeFixed 2 cs
  let cs ← expect '-' cs
  let (date, cs) ← takeFixed 2 cs
  let cs ← expect 'T' cs
  let (hour, cs) ← takeFixed 2 cs
  let cs ← expect ':' cs
  let (minute, cs) ← takeFixed 2 cs
  let cs ← expect ':' cs
  let (second, cs) ← takeFixed 2 cs
  let cs ← expect '.' cs
  let (ms, cs) ← takeFixed 3 cs
  let cs ← expect 'Z' cs
  if cs.isEmpty then
    return (dayFromMonth (12 * year + month - 1) + date - 1) * msPerDay + hour * 3600000 +
      minute * 60000 + second * 1000 + ms
  else none

/-- A digit is neither sign, so a year of four digits is not taken for a longer one. -/
theorem readYear_yearText {year : ℤ} (h : -999999 ≤ year ∧ year ≤ 999999) (rest : List Char) :
    readYear (yearText year ++ rest) = some (year, rest) := by
  unfold yearText
  split
  next hshort =>
    obtain ⟨n, rfl⟩ := Int.eq_ofNat_of_zero_le hshort.1
    have hn : n < 10 ^ 4 := by omega
    have hdigit : ∀ c : Char, isDigit c = false → (digit (n / 10 / 10 / 10)) ≠ c := by
      rintro c hc rfl
      rw [(digit_spec _).1] at hc
      cases hc
    have hread : readYear (fixed 4 n ++ rest) =
        (takeFixed 4 (fixed 4 n ++ rest)).map fun (year, rest) => ((year : ℤ), rest) := by
      unfold readYear
      split
      next cs heq => exact absurd (List.cons.inj heq).1 (hdigit '+' (by decide))
      next cs heq => exact absurd (List.cons.inj heq).1 (hdigit '-' (by decide))
      next => rfl
    rw [Int.toNat_natCast, hread, takeFixed_fixed hn]
    rfl
  next hlong =>
    have hn : year.natAbs < 10 ^ 6 := by omega
    split
    next hneg =>
      rw [List.cons_append, readYear, takeFixed_fixed hn, Option.map_some]
      refine congrArg (fun y => some (y, rest)) ?_
      omega
    next hpos =>
      rw [List.cons_append, readYear, takeFixed_fixed hn, Option.map_some]
      refine congrArg (fun y => some (y, rest)) ?_
      omega

theorem ofISOString_isoParts {year : ℤ} {month date ms : ℕ}
    (hyear : -999999 ≤ year ∧ year ≤ 999999) (hmonth : month < 100) (hdate : date < 100)
    (hms : (ms : ℤ) < msPerDay) :
    ofISOString (isoParts year month date ms) =
      some ((dayFromMonth (12 * year + month - 1) + date - 1) * msPerDay + ms) := by
  unfold msPerDay at hms
  have hmonthText := @takeFixed_fixed 2 month (by omega)
  have hdateText := @takeFixed_fixed 2 date (by omega)
  have hhourText := @takeFixed_fixed 2 (ms / 3600000) (by omega)
  have hminuteText := @takeFixed_fixed 2 (ms / 60000 % 60) (by omega)
  have hsecondText := @takeFixed_fixed 2 (ms / 1000 % 60) (by omega)
  have hmsText := @takeFixed_fixed 3 (ms % 1000) (by omega)
  unfold isoParts ofISOString
  simp only [String.toList_ofList, List.append_assoc, List.cons_append]
  rw [readYear_yearText hyear]
  dsimp only [Option.bind_eq_bind, Option.bind_some]
  rw [expect_cons, Option.bind_some, hmonthText, Option.bind_some, expect_cons, Option.bind_some,
    hdateText, Option.bind_some, expect_cons, Option.bind_some, hhourText, Option.bind_some,
    expect_cons, Option.bind_some, hminuteText, Option.bind_some, expect_cons, Option.bind_some,
    hsecondText, Option.bind_some, expect_cons, Option.bind_some, hmsText, Option.bind_some,
    expect_cons, Option.bind_some]
  dsimp only
  refine congrArg some ?_
  omega

theorem ofISOString_isoText {t : ℤ} (h : IsTime t) : ofISOString (isoText t) = some t := by
  have hyear := year_of_isTime h
  obtain ⟨hday, hday'⟩ := monthFromDay_spec (t / msPerDay)
  have hlong := (dayFromMonth_succ (monthFromDay (t / msPerDay))).2
  have hms : t / msPerDay * msPerDay + t % msPerDay = t := Int.ediv_mul_add_emod t msPerDay
  have hms0 : 0 ≤ t % msPerDay := Int.emod_nonneg t (by decide)
  have hms1 : t % msPerDay < msPerDay := Int.emod_lt_of_pos t (by decide)
  unfold isoText getUTCMonth
  unfold getUTCFullYear at *
  unfold monthOf at *
  generalize t / msPerDay = day at *
  generalize monthFromDay day = k at *
  rw [ofISOString_isoParts (by omega) (by omega) (by omega) (by omega)]
  have hk : 12 * (k / 12) + ((k % 12 + 1).toNat : ℤ) - 1 = k := by omega
  have hdate : dayFromMonth k + ((day - dayFromMonth k + 1).toNat : ℤ) - 1 = day := by omega
  rw [hk, hdate, Int.toNat_of_nonneg hms0, hms]

theorem isoText_ne_empty {t : ℤ} (h : IsTime t) : isoText t ≠ "" := by
  intro hempty
  have hread := ofISOString_isoText h
  rw [hempty] at hread
  cases hread

/-- Valid dates are told apart by their text. -/
theorem isoText_inj {t t' : ℤ} (h : IsTime t) (h' : IsTime t') :
    isoText t = isoText t' ↔ t = t' := by
  constructor
  · intro heq
    have hread := ofISOString_isoText h
    rw [heq, ofISOString_isoText h'] at hread
    exact (Option.some.inj hread).symm
  · exact congrArg isoText

example : isoText 951782399999 = "2000-02-28T23:59:59.999Z" := by decide +kernel

end IsoText

end VcCommonService.Lib.Calendar
