import VcCommonService.Lib.Calendar

/-!
# Instants of the database

A `timestamptz` counts microseconds, a `Date` milliseconds: the driver drops what is below, and
what no `Date` can hold becomes an invalid one. The input syntax of the database is a parameter. All
that is used of it is how it reads the texts of `toISOString`: a year has four digits there, and
there is no year zero.
-/

namespace VcCommonService.Lib

abbrev Timestamptz := ℤ

namespace Timestamptz
open Calendar

/-- The whole milliseconds of an instant. -/
def floorMs (t : Timestamptz) : ℤ := t / 1000

def toDate (t : Timestamptz) : Date := timeClip (floorMs t)

def ofMs (ms : ℤ) : Timestamptz := 1000 * ms

/-- The years that the input syntax takes from an ISO text. -/
def IsReadable (ms : ℤ) : Prop := 1 ≤ getUTCFullYear ms ∧ getUTCFullYear ms ≤ 9999

instance : DecidablePred IsReadable := fun _ => inferInstanceAs (Decidable (_ ∧ _))

theorem isTime_of_isReadable {ms : ℤ} (h : IsReadable ms) : IsTime ms := by
  have hfirst : -maxTime ≤ monthStart 12 := by decide +kernel
  have hlast : monthStart 120000 ≤ maxTime := by decide +kernel
  obtain ⟨hle, hlt⟩ := monthOf_eq_iff.mp (rfl : monthOf ms = monthOf ms)
  unfold IsReadable getUTCFullYear at h
  have hlower := monthStart_le_iff.mpr (show 12 ≤ monthOf ms by omega)
  have hupper := monthStart_le_iff.mpr (show monthOf ms + 1 ≤ 120000 by omega)
  unfold IsTime
  omega

/-- `CAST(text AS timestamptz)`. -/
structure Input where
  cast : String → Option Timestamptz
  cast_isoText : ∀ ms, IsTime ms → IsReadable ms → cast (isoText ms) = some (ofMs ms)
  cast_unreadable : ∀ ms, IsTime ms → ¬ IsReadable ms → cast (isoText ms) = none

/-- The input syntax cut down to the texts of `toISOString`. -/
def isoInput : Input where
  cast s := (ofISOString s).bind fun ms => if IsReadable ms then some (ofMs ms) else none
  cast_isoText ms htime hread := by
    rw [ofISOString_isoText htime, Option.bind_some, if_pos hread]
  cast_unreadable ms htime hread := by
    rw [ofISOString_isoText htime, Option.bind_some, if_neg hread]

theorem ofMs_floorMs_le (t : Timestamptz) : ofMs (floorMs t) ≤ t := Int.mul_ediv_self_le (by decide)

theorem ofMs_lt_ofMs {a b : ℤ} : ofMs a < ofMs b ↔ a < b := by
  change (1000 : ℤ) * a < 1000 * b ↔ a < b
  omega

theorem ofMs_le_iff {ms : ℤ} {t : Timestamptz} : ofMs ms ≤ t ↔ ms ≤ floorMs t := by
  rw [ofMs, mul_comm]
  exact (Int.le_ediv_iff_mul_le (by decide)).symm

theorem floorMs_le_of_le {t : Timestamptz} {ms : ℤ} (h : t ≤ ofMs ms) : floorMs t ≤ ms := by
  rw [ofMs, mul_comm] at h
  exact Int.ediv_le_of_le_mul (by decide) h

end Timestamptz

end VcCommonService.Lib
