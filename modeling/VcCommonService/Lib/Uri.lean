import Mathlib.Data.Nat.Notation

/-!
# `decodeURIComponent`

Escapes are bytes of UTF-8: a leading byte says how many follow, and each character must be
written in as few bytes as it takes. Anything else is a `URIError`.
-/

namespace VcCommonService.Lib.Uri

def hexValue (c : Char) : Option ℕ :=
  if '0' ≤ c ∧ c ≤ '9' then some (c.toNat - '0'.toNat)
  else if 'a' ≤ c ∧ c ≤ 'f' then some (c.toNat - 'a'.toNat + 10)
  else if 'A' ≤ c ∧ c ≤ 'F' then some (c.toNat - 'A'.toNat + 10)
  else none

/-- `%XX` at the start. -/
def escapedByte : List Char → Option (ℕ × List Char)
  | '%' :: high :: low :: rest => do
    let h ← hexValue high
    let l ← hexValue low
    return (16 * h + l, rest)
  | _ => none

/-- `count` continuation bytes, six bits each. -/
def continuation : ℕ → ℕ → List Char → Option (ℕ × List Char)
  | 0, value, cs => some (value, cs)
  | count + 1, value, cs => do
    let (byte, rest) ← escapedByte cs
    if 0x80 ≤ byte ∧ byte < 0xC0 then continuation count (64 * value + (byte - 0x80)) rest
    else none

/-- Number of continuation bytes, the bits of the leading byte, and the least code point that
takes that many bytes. -/
def leadingByte (byte : ℕ) : Option (ℕ × ℕ × ℕ) :=
  if byte < 0x80 then some (0, byte, 0)
  else if byte < 0xC0 then none
  else if byte < 0xE0 then some (1, byte - 0xC0, 0x80)
  else if byte < 0xF0 then some (2, byte - 0xE0, 0x800)
  else if byte < 0xF8 then some (3, byte - 0xF0, 0x10000)
  else none

def escapedChar (cs : List Char) : Option (Char × List Char) := do
  let (byte, rest) ← escapedByte cs
  let (count, bits, least) ← leadingByte byte
  let (value, rest) ← continuation count bits rest
  if least ≤ value ∧ value.isValidChar then return (Char.ofNat value, rest) else none

/-- The fuel is the number of characters that are left. -/
def decodeChars : ℕ → List Char → Option (List Char)
  | _, [] => some []
  | 0, _ => none
  | fuel + 1, c :: cs =>
    if c = '%' then do
      let (decoded, rest) ← escapedChar (c :: cs)
      let tail ← decodeChars fuel rest
      return decoded :: tail
    else do
      let tail ← decodeChars fuel cs
      return c :: tail

def decodeURIComponent (s : String) : Option String :=
  (decodeChars s.length s.toList).map String.ofList

example : decodeURIComponent "%3A%3A1%C3%A9" = some "::1é" := by decide

end VcCommonService.Lib.Uri
