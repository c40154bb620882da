import VcCommonService.Common
import VcCommonService.Lib.Timestamptz

/-!
# Partitions of the audit log (`000007_create-audit-log-schema.ts`)

`buildMonthlyPartitionSpecs` names one partition for each month and gives its bounds as ISO texts.
Months are numbered from January of the year 0. A bound past the last `Date` cannot be written, so
that the call throws.
-/

namespace VcCommonService.Audit
open Lib Calendar Timestamptz

/-! ### `buildMonthlyPartitionSpecs` -/

structure PartitionSpec where
  name : String
  fromText : String
  toText : String
  deriving Repr, DecidableEq

def padStart (s : String) (width : ℕ) (fill : Char) : String :=
  String.ofList (List.replicate (width - s.length) fill) ++ s

/-- `audit_log_${yyyy}_${mm}`; `month` counts from zero. -/
def partitionName (year month : ℤ) : String :=
  "audit_log_" ++ toString year ++ "_" ++ padStart (toString (month + 1)) 2 '0'

def invalidTimeValue : ServiceError := .error "Invalid time value"

def toISOString (date : Date) : Except ServiceError String :=
  match Calendar.toISOString date with
  | some text => .ok text
  | none => .error invalidTimeValue

/-- The body of the loop. The name of an invalid `from` is never used, since the call throws. -/
def buildMonthlyPartitionSpec (cursor : ℤ) (i : ℕ) : Except ServiceError PartitionSpec := do
  let fromDate := utc (getUTCFullYear cursor) (getUTCMonth cursor + i) 1
  let toDate := utc (getUTCFullYear cursor) (getUTCMonth cursor + i + 1) 1
  let fromText ← toISOString fromDate
  let toText ← toISOString toDate
  let lower := fromDate.getD 0
  return { name := partitionName (getUTCFullYear lower) (getUTCMonth lower), fromText, toText }

def buildMonthlyPartitionSpecs (start : ℤ) (monthsAhead : ℕ) :
    Except ServiceError (List PartitionSpec) :=
  match utc (getUTCFullYear start) (getUTCMonth start) 1 with
  | none => .error invalidTimeValue
  | some cursor => (List.range (monthsAhead + 1)).mapM (buildMonthlyPartitionSpec cursor)

/-- The instants of a partition, as its bounds spell them. -/
def PartitionSpec.Spans (s : PartitionSpec) (lower upper : ℤ) : Prop :=
  ofISOString s.fromText = some lower ∧ ofISOString s.toText = some upper

def PartitionSpec.Covers (s : PartitionSpec) (t : ℤ) : Prop :=
  ∃ lower upper, s.Spans lower upper ∧ lower ≤ t ∧ t < upper

/-! ### The partition of a month -/

def monthSpec (k : ℤ) : PartitionSpec :=
  ⟨partitionName (k / 12) (k % 12), isoText (monthStart k), isoText (monthStart (k + 1))⟩

/-- Both bounds of a month are dates. -/
def IsMonth (k : ℤ) : Prop := IsTime (monthStart k) ∧ IsTime (monthStart (k + 1))

theorem spans_monthSpec {k : ℤ} (h : IsMonth k) {lower upper : ℤ} :
    (monthSpec k).Spans lower upper ↔ lower = monthStart k ∧ upper = monthStart (k + 1) := by
  unfold PartitionSpec.Spans monthSpec
  rw [ofISOString_isoText h.1, ofISOString_isoText h.2, Option.some_inj, Option.some_inj]
  exact and_congr eq_comm eq_comm

theorem covers_monthSpec {k : ℤ} (h : IsMonth k) {t : ℤ} :
    (monthSpec k).Covers t ↔ monthOf t = k := by
  rw [monthOf_eq_iff]
  constructor
  · rintro ⟨lower, upper, hspans, ht⟩
    obtain ⟨rfl, rfl⟩ := (spans_monthSpec h).mp hspans
    exact ht
  · exact fun ht => ⟨_, _, (spans_monthSpec h).mpr ⟨rfl, rfl⟩, ht⟩

/-- The text of a month has two digits and tells it apart. -/
theorem monthText_spec : ∀ m : ℕ, m < 12 →
    (padStart (toString ((m : ℤ) + 1)) 2 '0').toList.length = 2 ∧ ∀ m' : ℕ, m' < 12 →
      padStart (toString ((m : ℤ) + 1)) 2 '0' = padStart (toString ((m' : ℤ) + 1)) 2 '0' →
        m = m' := by
  decide +kernel

theorem toDigits_inj {n n' : ℕ} (h : Nat.toDigits 10 n = Nat.toDigits 10 n') : n = n' := by
  rw [← Nat.ofDigitChars_toDigits (b := 10) (n := n) (by decide) (by decide), h,
    Nat.ofDigitChars_toDigits (by decide) (by decide)]

theorem partitionName_inj {year year' month month' : ℕ} (hmonth : month < 12)
    (hmonth' : month' < 12) :
    partitionName year month = partitionName year' month' ↔ year = year' ∧ month = month' := by
  obtain ⟨hlength, hdigits⟩ := monthText_spec month hmonth
  obtain ⟨hlength', -⟩ := monthText_spec month' hmonth'
  constructor
  · intro h
    have htext := congrArg String.toList h
    unfold partitionName at htext
    simp only [String.toList_append] at htext
    -- what stands before the last two characters is the same as well
    obtain ⟨hfront, hback⟩ := List.append_inj' htext (hlength.trans hlength'.symm)
    rw [List.append_left_inj, List.append_right_inj] at hfront
    have hyear : year = year' := by
      change year.repr.toList = year'.repr.toList at hfront
      rw [Nat.toList_repr, Nat.toList_repr] at hfront
      exact toDigits_inj hfront
    exact ⟨hyear, hdigits month' hmonth' (String.toList_injective hback)⟩
  · rintro ⟨rfl, rfl⟩
    rfl

theorem name_monthSpec_inj {k k' : ℤ} (h : 0 ≤ k) (h' : 0 ≤ k') :
    (monthSpec k).name = (monthSpec k').name ↔ k = k' := by
  obtain ⟨n, rfl⟩ := Int.eq_ofNat_of_zero_le h
  obtain ⟨n', rfl⟩ := Int.eq_ofNat_of_zero_le h'
  have hname := @partitionName_inj (n / 12) (n' / 12) _ _
    (Nat.mod_lt n (by decide : 0 < 12)) (Nat.mod_lt n' (by decide : 0 < 12))
  refine hname.trans ?_
  omega

/-! ### The specs of a call -/

theorem month_nonneg {start : ℤ} (h : 0 ≤ start) : 23640 ≤ monthOf start := by
  have hepoch : monthOf 0 = 23640 := by decide +kernel
  rw [← hepoch]
  exact monthOf_mono h

theorem monthStart_nonneg {k : ℤ} (h : 23640 ≤ k) : 0 ≤ monthStart k := by
  have hepoch : monthStart 23640 = 0 := by decide +kernel
  rw [← hepoch]
  exact monthStart_le_iff.mpr h

/-- From 1970 on, a month ends in a date when any later one does. -/
theorem isMonth_of_le {k k' : ℤ} (h : 23640 ≤ k) (hle : k ≤ k') (hend : IsTime (monthStart (k' + 1))) :
    IsMonth k := by
  have hbound : ∀ j, 23640 ≤ j → j ≤ k' + 1 → IsTime (monthStart j) := by
    intro j hj hj'
    have h0 := monthStart_nonneg hj
    have hmono := monthStart_le_iff.mpr hj'
    unfold IsTime maxTime at *
    omega
  exact ⟨hbound k h (by omega), hbound (k + 1) (by omega) (by omega)⟩

theorem toISOString_of_isTime {t : ℤ} (h : IsTime t) :
    toISOString (timeClip t) = .ok (isoText t) := by
  rw [timeClip_of_isTime h]
  rfl

theorem toISOString_of_not_isTime {t : ℤ} (h : ¬ IsTime t) :
    toISOString (timeClip t) = .error invalidTimeValue := by
  rw [timeClip, if_neg h]
  rfl

theorem utc_cursor {k : ℤ} (h : 23640 ≤ k) (i : ℤ) :
    utc (getUTCFullYear (monthStart k)) (getUTCMonth (monthStart k) + i) 1 =
      timeClip (monthStart (k + i)) := by
  have hyear : 100 ≤ getUTCFullYear (monthStart k) := by
    unfold getUTCFullYear
    rw [monthOf_monthStart]
    omega
  rw [utc_month hyear, monthOf_monthStart]

theorem buildMonthlyPartitionSpec_ok {k : ℤ} (h : 23640 ≤ k) {i : ℕ} (hmonth : IsMonth (k + i)) :
    buildMonthlyPartitionSpec (monthStart k) i = .ok (monthSpec (k + i)) := by
  unfold buildMonthlyPartitionSpec
  dsimp only
  rw [utc_cursor h, add_assoc, utc_cursor h, ← add_assoc, toISOString_of_isTime hmonth.1,
    toISOString_of_isTime hmonth.2, timeClip_of_isTime hmonth.1, ok_bind, ok_bind,
    Option.getD_some]
  unfold getUTCFullYear getUTCMonth
  rw [monthOf_monthStart]
  rfl

theorem buildMonthlyPartitionSpec_error {k : ℤ} (h : 23640 ≤ k) {i : ℕ}
    (hmonth : ¬ IsMonth (k + i)) :
    buildMonthlyPartitionSpec (monthStart k) i = .error invalidTimeValue := by
  unfold buildMonthlyPartitionSpec
  dsimp only
  rw [utc_cursor h, add_assoc, utc_cursor h, ← add_assoc]
  by_cases hfirst : IsTime (monthStart (k + i))
  · have hlast : ¬ IsTime (monthStart (k + i + 1)) := fun hlast => hmonth ⟨hfirst, hlast⟩
    rw [toISOString_of_isTime hfirst, ok_bind, toISOString_of_not_isTime hlast]
    rfl
  · rw [toISOString_of_not_isTime hfirst]
    rfl

/-- The month after the last of a call begins at a `Date`. -/
def EndsInDate (start : ℤ) (monthsAhead : ℕ) : Prop :=
  IsTime (monthStart (monthOf start + monthsAhead + 1))

instance (start : ℤ) (monthsAhead : ℕ) : Decidable (EndsInDate start monthsAhead) :=
  inferInstanceAs (Decidable (IsTime _))

def monthSpecs (start : ℤ) (monthsAhead : ℕ) : List PartitionSpec :=
  (List.range (monthsAhead + 1)).map fun i : ℕ => monthSpec (monthOf start + i)

theorem isTime_monthStart_monthOf {start : ℤ} (h : 0 ≤ start) (htime : IsTime start) :
    IsTime (monthStart (monthOf start)) := by
  have h0 := monthStart_nonneg (month_nonneg h)
  have hle := (monthOf_eq_iff.mp (rfl : monthOf start = monthOf start)).1
  unfold IsTime maxTime at *
  omega

theorem buildMonthlyPartitionSpecs_eq {start : ℤ} (h : 0 ≤ start) (htime : IsTime start)
    (monthsAhead : ℕ) :
    buildMonthlyPartitionSpecs start monthsAhead =
      (List.range (monthsAhead + 1)).mapM
        (buildMonthlyPartitionSpec (monthStart (monthOf start))) := by
  have hmonth := month_nonneg h
  have hyear : 100 ≤ getUTCFullYear start := by
    unfold getUTCFullYear
    omega
  have hcursor := utc_month hyear 0
  rw [add_zero, add_zero, timeClip_of_isTime (isTime_monthStart_monthOf h htime)] at hcursor
  unfold buildMonthlyPartitionSpecs
  rw [hcursor]

theorem buildMonthlyPartitionSpecs_ok {start : ℤ} (h : 0 ≤ start) (htime : IsTime start)
    {monthsAhead : ℕ} (hend : EndsInDate start monthsAhead) :
    buildMonthlyPartitionSpecs start monthsAhead = .ok (monthSpecs start monthsAhead) := by
  have hmonth := month_nonneg h
  rw [buildMonthlyPartitionSpecs_eq h htime]
  refine mapM_ok fun i hi => buildMonthlyPartitionSpec_ok hmonth ?_
  have hi := List.mem_range.mp hi
  exact isMonth_of_le (by omega) (by omega) hend

theorem buildMonthlyPartitionSpecs_error {start : ℤ} (h : 0 ≤ start) (htime : IsTime start)
    {monthsAhead : ℕ} (hend : ¬ EndsInDate start monthsAhead) :
    buildMonthlyPartitionSpecs start monthsAhead = .error invalidTimeValue := by
  have hmonth := month_nonneg h
  rw [buildMonthlyPartitionSpecs_eq h htime]
  refine mapM_error (fun i _ => ?_) ⟨monthsAhead, List.mem_range.mpr (by omega), ?_⟩
  · by_cases hvalid : IsMonth (monthOf start + i)
    · exact Or.inl ⟨_, buildMonthlyPartitionSpec_ok hmonth hvalid⟩
    · exact Or.inr (buildMonthlyPartitionSpec_error hmonth hvalid)
  · exact buildMonthlyPartitionSpec_error hmonth fun hvalid => hend hvalid.2

/-- What a call returns, told apart from a call that throws. -/
theorem mem_specs {start : ℤ} (h : 0 ≤ start) (htime : IsTime start) {monthsAhead : ℕ}
    {specs : List PartitionSpec} (hspecs : buildMonthlyPartitionSpecs start monthsAhead = .ok specs)
    {s : PartitionSpec} (hs : s ∈ specs) :
    ∃ k, 23640 ≤ k ∧ IsMonth k ∧ s = monthSpec k := by
  have hmonth := month_nonneg h
  by_cases hend : EndsInDate start monthsAhead
  · rw [buildMonthlyPartitionSpecs_ok h htime hend] at hspecs
    obtain rfl := Except.ok.inj hspecs
    obtain ⟨i, hi, rfl⟩ := List.mem_map.mp hs
    have hi := List.mem_range.mp hi
    exact ⟨monthOf start + i, by omega, isMonth_of_le (by omega) (by omega) hend, rfl⟩
  · rw [buildMonthlyPartitionSpecs_error h htime hend] at hspecs
    cases hspecs

end VcCommonService.Audit
