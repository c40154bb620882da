import VcCommonService.Lib.Uri
import VcCommonService.Lib.Utf8

/-!
# `encodeURIComponent`

A character that is not unreserved is written as the escapes of its UTF-8 bytes. Every text is read
back, and of the separators only `%` is ever written.
-/

namespace VcCommonService.Lib.Uri

def unreserved (c : Char) : Bool :=
  ('A' ≤ c && c ≤ 'Z') || ('a' ≤ c && c ≤ 'z') || ('0' ≤ c && c ≤ '9') ||
    ['-', '_', '.', '!', '~', '*', '\'', '(', ')'].contains c

def upperHexDigit (n : ℕ) : Char := "0123456789ABCDEF".toList.getD n '0'

def escapeByte (b : ℕ) : List Char := ['%', upperHexDigit (b / 16), upperHexDigit (b % 16)]

def encodeChar (c : Char) : List Char :=
  if unreserved c then [c] else (Utf8.encodeChar c).flatMap escapeByte

def encodeURIComponent (s : String) : String := String.ofList (s.toList.flatMap encodeChar)

example : encodeURIComponent "::1 é" = "%3A%3A1%20%C3%A9" := by decide

/-! ### One character -/

theorem hexValue_upperHexDigit : ∀ n < 16, hexValue (upperHexDigit n) = some n := by decide

theorem escapedByte_escapeByte {b : ℕ} (h : b < 256) (rest : List Char) :
    escapedByte (escapeByte b ++ rest) = some (b, rest) := by
  have hhigh := hexValue_upperHexDigit (b / 16) (by omega)
  have hlow := hexValue_upperHexDigit (b % 16) (by omega)
  change escapedByte ('%' :: upperHexDigit (b / 16) :: upperHexDigit (b % 16) :: rest) = _
  rw [escapedByte, hhigh, hlow]
  exact congrArg (fun n => some (n, rest)) (by omega)

theorem continuation_escapeByte {b : ℕ} (h : 0x80 ≤ b ∧ b < 0xC0) (count value : ℕ)
    (rest : List Char) :
    continuation (count + 1) value (escapeByte b ++ rest) =
      continuation count (64 * value + (b - 0x80)) rest := by
  rw [continuation, escapedByte_escapeByte (by omega), Option.bind_eq_bind, Option.bind_some]
  exact if_pos h

/-- The first byte says how many follow and how small the code point cannot be. -/
theorem escapedChar_leading {b count bits least : ℕ} (hb : b < 256)
    (hleading : leadingByte b = some (count, bits, least)) {cs rest : List Char} {c : Char}
    (hcontinue : continuation count bits cs = some (c.toNat, rest)) (hleast : least ≤ c.toNat) :
    escapedChar (escapeByte b ++ cs) = some (c, rest) := by
  have hvalid : c.toNat.isValidChar := c.valid
  rw [escapedChar, escapedByte_escapeByte hb, Option.bind_eq_bind, Option.bind_some]
  dsimp only
  rw [hleading, Option.bind_eq_bind, Option.bind_some]
  dsimp only
  rw [hcontinue, Option.bind_some]
  dsimp only
  rw [if_pos ⟨hleast, hvalid⟩, Char.ofNat_toNat]
  rfl

theorem escapedChar_encodeChar (c : Char) (rest : List Char) :
    escapedChar ((Utf8.encodeChar c).flatMap escapeByte ++ rest) = some (c, rest) := by
  have hvalid : c.toNat < 0xD800 ∨ 0xDFFF < c.toNat ∧ c.toNat < 0x110000 := c.valid
  unfold Utf8.encodeChar
  dsimp only
  by_cases h1 : c.toNat < 0x80
  · have hleading : leadingByte c.toNat = some (0, c.toNat, 0) := if_pos h1
    rw [if_pos h1, List.flatMap_singleton]
    exact escapedChar_leading (by omega) hleading rfl (Nat.zero_le _)
  rw [if_neg h1]
  by_cases h2 : c.toNat < 0x800
  · have hleading : leadingByte (0xC0 + c.toNat / 64) =
        some (1, 0xC0 + c.toNat / 64 - 0xC0, 0x80) := by
      rw [leadingByte, if_neg (by omega), if_neg (by omega), if_pos (by omega)]
    rw [if_pos h2, List.flatMap_cons, List.flatMap_singleton, List.append_assoc]
    refine escapedChar_leading (by omega) hleading ?_ (by omega)
    rw [continuation_escapeByte (by omega), continuation]
    exact congrArg (fun n => some (n, rest)) (by omega)
  rw [if_neg h2]
  by_cases h3 : c.toNat < 0x10000
  · have hleading : leadingByte (0xE0 + c.toNat / 4096) =
        some (2, 0xE0 + c.toNat / 4096 - 0xE0, 0x800) := by
      rw [leadingByte, if_neg (by omega), if_neg (by omega), if_neg (by omega), if_pos (by omega)]
    rw [if_pos h3, List.flatMap_cons, List.flatMap_cons, List.flatMap_singleton, List.append_assoc,
      List.append_assoc]
    refine escapedChar_leading (by omega) hleading ?_ (by omega)
    rw [continuation_escapeByte (by omega), continuation_escapeByte (by omega), continuation]
    exact congrArg (fun n => some (n, rest)) (by omega)
  · have hleading : leadingByte (0xF0 + c.toNat / 262144) =
        some (3, 0xF0 + c.toNat / 262144 - 0xF0, 0x10000) := by
      rw [leadingByte, if_neg (by omega), if_neg (by omega), if_neg (by omega), if_neg (by omega),
        if_pos (by omega)]
    rw [if_neg h3, List.flatMap_cons, List.flatMap_cons, List.flatMap_cons, List.flatMap_singleton,
      List.append_assoc, List.append_assoc, List.append_assoc]
    refine escapedChar_leading (by omega) hleading ?_ (by omega)
    rw [continuation_escapeByte (by omega), continuation_escapeByte (by omega),
      continuation_escapeByte (by omega), continuation]
    exact congrArg (fun n => some (n, rest)) (by omega)

theorem encodeChar_escaped (c : Char) :
    ∃ cs, (Utf8.encodeChar c).flatMap escapeByte = '%' :: cs := by
  unfold Utf8.encodeChar
  dsimp only
  split
  · exact ⟨_, rfl⟩
  split
  · exact ⟨_, rfl⟩
  split <;> exact ⟨_, rfl⟩

theorem decodeChars_encodeChar (c : Char) (fuel : ℕ) (rest : List Char) :
    decodeChars (fuel + 1) (encodeChar c ++ rest) = (decodeChars fuel rest).map (c :: ·) := by
  unfold encodeChar
  split
  next hplain =>
    have hpercent : c ≠ '%' := by
      rintro rfl
      revert hplain
      decide
    rw [List.singleton_append, decodeChars, if_neg hpercent]
    cases decodeChars fuel rest <;> rfl
  next =>
    obtain ⟨cs, hcs⟩ := encodeChar_escaped c
    have hchar := escapedChar_encodeChar c rest
    rw [hcs, List.cons_append] at hchar ⊢
    rw [decodeChars, if_pos rfl, hchar, Option.bind_eq_bind, Option.bind_some]
    dsimp only
    cases decodeChars fuel rest <;> rfl

/-! ### Strings -/

theorem decodeChars_encoded (cs : List Char) {fuel : ℕ} (hfuel : cs.length ≤ fuel) :
    decodeChars fuel (cs.flatMap encodeChar) = some cs := by
  induction cs generalizing fuel with
  | nil => cases fuel <;> rfl
  | cons c cs ih =>
    rw [List.length_cons] at hfuel
    obtain ⟨n, rfl⟩ : ∃ n, fuel = n + 1 := ⟨fuel - 1, by omega⟩
    rw [List.flatMap_cons, decodeChars_encodeChar, ih (by omega), Option.map_some]

theorem length_le_encoded (cs : List Char) : cs.length ≤ (cs.flatMap encodeChar).length := by
  induction cs with
  | nil => exact Nat.le_refl 0
  | cons c cs ih =>
    have hone : 1 ≤ (encodeChar c).length := by
      unfold encodeChar
      split
      · exact Nat.le_refl 1
      · obtain ⟨ds, hds⟩ := encodeChar_escaped c
        rw [hds]
        exact Nat.le_add_left 1 _
    rw [List.flatMap_cons, List.length_append, List.length_cons]
    omega

theorem decodeURIComponent_encodeURIComponent (s : String) :
    decodeURIComponent (encodeURIComponent s) = some s := by
  rw [decodeURIComponent, encodeURIComponent, String.length_ofList, String.toList_ofList,
    decodeChars_encoded s.toList (length_le_encoded s.toList), Option.map_some, String.ofList_toList]

/-- Apart from `%`, only unreserved characters are written. -/
theorem encoded_chars {c : Char} {s : String} (h : c ∈ (encodeURIComponent s).toList) :
    c = '%' ∨ unreserved c = true := by
  rw [encodeURIComponent, String.toList_ofList] at h
  obtain ⟨d, -, hd⟩ := List.mem_flatMap.mp h
  unfold encodeChar at hd
  split at hd
  next hplain =>
    rw [List.mem_singleton.mp hd]
    exact Or.inr hplain
  next =>
    have hdigit : ∀ n < 16, unreserved (upperHexDigit n) = true := by decide
    obtain ⟨b, hb, hc⟩ := List.mem_flatMap.mp hd
    have hbyte := Utf8.encodeChar_lt d b hb
    simp only [escapeByte, List.mem_cons, List.not_mem_nil, or_false] at hc
    rcases hc with rfl | rfl | rfl
    · exact Or.inl rfl
    · exact Or.inr (hdigit _ (by omega))
    · exact Or.inr (hdigit _ (by omega))

end VcCommonService.Lib.Uri
