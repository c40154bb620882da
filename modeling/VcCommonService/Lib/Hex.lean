import Mathlib.Data.Nat.Notation
import VcCommonService.Lib.Uri

/-!
# Hexadecimal bytes

Two digits spell a byte. The lenient reader takes the bytes that the front of a text spells and
leaves the rest without an error. It looks at the low byte of a code unit only.
-/

namespace VcCommonService.Lib.Hex
open Uri (hexValue)

def byte (high low : ℕ) : UInt8 := UInt8.ofNat (16 * high + low)

inductive Spells : List Char → List UInt8 → Prop
  | nil : Spells [] []
  | cons {a b : Char} {high low : ℕ} {cs : List Char} {bytes : List UInt8}
      (hhigh : hexValue a = some high) (hlow : hexValue b = some low) (hrest : Spells cs bytes) :
      Spells (a :: b :: cs) (byte high low :: bytes)

/-- The bytes that the front of a text spells. -/
def decodePrefix : List Char → List UInt8
  | a :: b :: cs =>
    match hexValue a, hexValue b with
    | some high, some low => byte high low :: decodePrefix cs
    | _, _ => []
  | _ => []

def lowByte (unit : Char) : Char := Char.ofNat (unit.toNat % 256)

/-- `Buffer.from(text, 'hex')` of the code units of a text, each given as a character. -/
def decode (units : List Char) : List UInt8 := decodePrefix (units.map lowByte)

def startsByte : List Char → Bool
  | a :: b :: _ => (hexValue a).isSome && (hexValue b).isSome
  | _ => false

def AllHex (cs : List Char) : Prop := ∀ c ∈ cs, (hexValue c).isSome = true

/-- A digit is its own low byte. -/
theorem lowByte_of_hexValue {c : Char} (h : (hexValue c).isSome = true) : lowByte c = c := by
  have hlt : c.toNat < 256 := by
    simp only [hexValue, Char.le_def, UInt32.le_iff_toNat_le] at h
    have hmax : ∀ d : Char, d.toNat < 256 → c.val.toNat ≤ d.val.toNat → c.toNat < 256 := fun d hd hle =>
      Nat.lt_of_le_of_lt hle hd
    split at h
    next hdigit => exact hmax '9' (by decide) hdigit.2
    · split at h
      next hlower => exact hmax 'f' (by decide) hlower.2
      · split at h
        next hupper => exact hmax 'F' (by decide) hupper.2
        · cases h
  rw [lowByte, Nat.mod_eq_of_lt hlt, Char.ofNat_toNat]

theorem AllHex.lowByte {cs : List Char} (h : AllHex cs) : cs.map Hex.lowByte = cs := by
  have hself : ∀ c ∈ cs, Hex.lowByte c = c := fun c hc => lowByte_of_hexValue (h c hc)
  rw [List.map_congr_left hself, List.map_id']

example : decode [Char.ofNat 0x130, '0', 'f', 'F', 'z'] = [0x00, 0xFF] := by decide

theorem Spells.length {cs : List Char} {bytes : List UInt8} (h : Spells cs bytes) :
    cs.length = 2 * bytes.length := by
  induction h with
  | nil => rfl
  | cons _ _ _ ih =>
    simp only [List.length_cons]
    omega

theorem Spells.allHex {cs : List Char} {bytes : List UInt8} (h : Spells cs bytes) : AllHex cs := by
  induction h with
  | nil => exact nofun
  | cons hhigh hlow _ ih =>
    intro c hc
    rcases List.mem_cons.mp hc with rfl | hc
    · rw [hhigh]
      rfl
    rcases List.mem_cons.mp hc with rfl | hc
    · rw [hlow]
      rfl
    · exact ih c hc

/-- An even number of digits spells bytes. -/
theorem exists_spells {n : ℕ} {cs : List Char} (hlength : cs.length = 2 * n) (h : AllHex cs) :
    ∃ bytes, Spells cs bytes := by
  induction n generalizing cs with
  | zero =>
    rw [List.eq_nil_of_length_eq_zero hlength]
    exact ⟨[], .nil⟩
  | succ n ih =>
    match cs with
    | [] =>
      rw [List.length_nil] at hlength
      omega
    | [a] =>
      rw [List.length_singleton] at hlength
      omega
    | a :: b :: cs =>
      simp only [List.length_cons] at hlength
      have hrest : AllHex cs := fun c hc => h c (List.mem_cons_of_mem _ (List.mem_cons_of_mem _ hc))
      obtain ⟨bytes, hbytes⟩ := ih (by omega) hrest
      obtain ⟨high, hhigh⟩ := Option.isSome_iff_exists.mp (h a (by simp))
      obtain ⟨low, hlow⟩ := Option.isSome_iff_exists.mp (h b (by simp))
      exact ⟨_, .cons hhigh hlow hbytes⟩

theorem decodePrefix_of_not_starts {cs : List Char} (h : startsByte cs = false) :
    decodePrefix cs = [] := by
  unfold decodePrefix
  split
  next a b cs =>
    split
    next high low hhigh hlow =>
      rw [startsByte, hhigh, hlow] at h
      cases h
    next => rfl
  next => rfl

theorem decodePrefix_append {digits rest : List Char} {bytes : List UInt8}
    (hdigits : Spells digits bytes) (hrest : startsByte rest = false) :
    decodePrefix (digits ++ rest) = bytes := by
  induction hdigits with
  | nil => exact decodePrefix_of_not_starts hrest
  | cons hhigh hlow _ ih =>
    rw [List.cons_append, List.cons_append, decodePrefix, hhigh, hlow]
    exact congrArg _ ih

theorem spells_decodePrefix (cs : List Char) :
    ∃ digits rest, cs = digits ++ rest ∧ Spells digits (decodePrefix cs) ∧
      startsByte rest = false := by
  induction cs using decodePrefix.induct with
  | case1 a b cs high low hlow hhigh ih =>
    obtain ⟨digits, rest, hsplit, hdigits, hrest⟩ := ih
    refine ⟨a :: b :: digits, rest, congrArg (a :: b :: ·) hsplit, ?_, hrest⟩
    rw [decodePrefix, hhigh, hlow]
    exact .cons hhigh hlow hdigits
  | case2 a b cs hnone =>
    have hstarts : startsByte (a :: b :: cs) = false := by
      rw [startsByte, Bool.and_eq_false_iff]
      cases hhigh : hexValue a with
      | none => exact Or.inl rfl
      | some high =>
        cases hlow : hexValue b with
        | none => exact Or.inr rfl
        | some low => exact absurd hlow (hnone high low hhigh)
    refine ⟨[], a :: b :: cs, rfl, ?_, hstarts⟩
    rw [decodePrefix_of_not_starts hstarts]
    exact .nil
  | case3 cs hshort =>
    have hstarts : startsByte cs = false := by
      unfold startsByte
      split
      next a b rest => exact absurd rfl (hshort a b rest)
      next => rfl
    refine ⟨[], cs, rfl, ?_, hstarts⟩
    rw [decodePrefix_of_not_starts hstarts]
    exact .nil

/-- The reader gives `n` bytes when `2 * n` digits stand at the front and no further byte does. -/
theorem length_decodePrefix_iff {cs : List Char} {n : ℕ} :
    (decodePrefix cs).length = n ↔
      ∃ digits rest, cs = digits ++ rest ∧ digits.length = 2 * n ∧ AllHex digits ∧
        startsByte rest = false := by
  constructor
  · rintro rfl
    obtain ⟨digits, rest, hsplit, hdigits, hrest⟩ := spells_decodePrefix cs
    exact ⟨digits, rest, hsplit, hdigits.length, hdigits.allHex, hrest⟩
  · rintro ⟨digits, rest, rfl, hlength, hhex, hrest⟩
    obtain ⟨bytes, hbytes⟩ := exists_spells hlength hhex
    rw [decodePrefix_append hbytes hrest]
    have := hbytes.length
    omega

end VcCommonService.Lib.Hex
