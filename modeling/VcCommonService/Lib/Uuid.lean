import Mathlib.Data.String.Basic

/-!
# UUIDs

Identifiers in the text the database writes: groups of lower-case hexadecimal digits. The order of
the texts is the order of the bytes they spell.
-/

namespace VcCommonService.Lib

def isUuidChar (i : ℕ) (c : Char) : Bool :=
  if i = 8 || i = 13 || i = 18 || i = 23 then c = '-'
  else ('0' ≤ c && c ≤ '9') || ('a' ≤ c && c ≤ 'f')

def isUuid (s : String) : Bool :=
  s.toList.length = 36 && s.toList.zipIdx.all fun (c, i) => isUuidChar i c

abbrev Uuid := { s : String // isUuid s = true }

theorem Uuid.ne_empty (u : Uuid) : u.1 ≠ "" := by
  intro h
  have hu := u.2
  rw [h] at hu
  cases hu

theorem Uuid.isUuid_val (u : Uuid) : isUuid u.1 = true := u.2

def Uuid.nil : Uuid := ⟨"00000000-0000-0000-0000-000000000000", by decide +kernel⟩

def Uuid.max : Uuid := ⟨"ffffffff-ffff-ffff-ffff-ffffffffffff", by decide +kernel⟩

theorem Uuid.nil_ne_max : Uuid.nil ≠ Uuid.max := by decide +kernel

end VcCommonService.Lib
