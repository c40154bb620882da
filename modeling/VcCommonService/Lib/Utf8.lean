import Mathlib.Data.Nat.Notation

/-!
# UTF-8

The bytes of a string, and decoding as `Buffer.toString` does it: a byte that cannot go on is read
again as the first of a character, and what came before it is one replacement character.
-/

namespace VcCommonService.Lib.Utf8

def encodeChar (c : Char) : List ℕ :=
  let n := c.toNat
  if n < 0x80 then [n]
  else if n < 0x800 then [0xC0 + n / 64, 0x80 + n % 64]
  else if n < 0x10000 then [0xE0 + n / 4096, 0x80 + n / 64 % 64, 0x80 + n % 64]
  else [0xF0 + n / 262144, 0x80 + n / 4096 % 64, 0x80 + n / 64 % 64, 0x80 + n % 64]

def encode (s : String) : List ℕ := s.toList.flatMap encodeChar

/-! ### Decoding -/

def replacement : Char := Char.ofNat 0xFFFD

/-- How many bytes a character still has, the bits so far, and the range of the next byte. -/
structure Pending where
  count : ℕ
  bits : ℕ
  lower : ℕ
  upper : ℕ
  deriving Repr, DecidableEq

/-- The first byte of a character. Overlong forms and surrogates are excluded by the range of the
byte after it. -/
def first (b : ℕ) : List Char × Option Pending :=
  if b < 0x80 then ([Char.ofNat b], none)
  else if b < 0xC2 then ([replacement], none)
  else if b < 0xE0 then ([], some ⟨1, b - 0xC0, 0x80, 0xBF⟩)
  else if b < 0xF0 then
    ([], some ⟨2, b - 0xE0, if b = 0xE0 then 0xA0 else 0x80, if b = 0xED then 0x9F else 0xBF⟩)
  else if b < 0xF5 then
    ([], some ⟨3, b - 0xF0, if b = 0xF0 then 0x90 else 0x80, if b = 0xF4 then 0x8F else 0xBF⟩)
  else ([replacement], none)

def step : Option Pending → ℕ → List Char × Option Pending
  | none, b => first b
  | some p, b =>
    if p.lower ≤ b ∧ b ≤ p.upper then
      let bits := 64 * p.bits + (b - 0x80)
      if p.count = 1 then ([Char.ofNat bits], none) else ([], some ⟨p.count - 1, bits, 0x80, 0xBF⟩)
    else (replacement :: (first b).1, (first b).2)

def decodeFrom : Option Pending → List ℕ → List Char
  | none, [] => []
  | some _, [] => [replacement]
  | pending, b :: bs => (step pending b).1 ++ decodeFrom (step pending b).2 bs

def decode (bytes : List ℕ) : String := String.ofList (decodeFrom none bytes)

/-! ### Round trip -/

theorem decodeFrom_ascii {n : ℕ} (h : n < 0x80) (bs : List ℕ) :
    decodeFrom none (n :: bs) = Char.ofNat n :: decodeFrom none bs := by
  rw [decodeFrom, step, first, if_pos h]
  rfl

/-- A continuation byte that is not the last of its character. -/
theorem decodeFrom_continue {p : Pending} {b : ℕ} (hb : p.lower ≤ b ∧ b ≤ p.upper)
    (hcount : p.count ≠ 1) (bs : List ℕ) :
    decodeFrom (some p) (b :: bs) =
      decodeFrom (some ⟨p.count - 1, 64 * p.bits + (b - 0x80), 0x80, 0xBF⟩) bs := by
  rw [decodeFrom, step, if_pos hb]
  dsimp only
  rw [if_neg hcount]
  rfl

theorem decodeFrom_finish {p : Pending} {b : ℕ} (hb : p.lower ≤ b ∧ b ≤ p.upper)
    (hcount : p.count = 1) (bs : List ℕ) :
    decodeFrom (some p) (b :: bs) =
      Char.ofNat (64 * p.bits + (b - 0x80)) :: decodeFrom none bs := by
  rw [decodeFrom, step, if_pos hb]
  dsimp only
  rw [if_pos hcount]
  rfl

theorem decodeFrom_encodeChar (c : Char) (bs : List ℕ) :
    decodeFrom none (encodeChar c ++ bs) = c :: decodeFrom none bs := by
  have hvalid : c.toNat < 0xD800 ∨ 0xDFFF < c.toNat ∧ c.toNat < 0x110000 := c.valid
  have hchar : Char.ofNat c.toNat = c := Char.ofNat_toNat c
  unfold encodeChar
  generalize c.toNat = n at *
  dsimp only
  by_cases h1 : n < 0x80
  · rw [if_pos h1, List.singleton_append, decodeFrom_ascii h1, hchar]
  rw [if_neg h1]
  by_cases h2 : n < 0x800
  · rw [if_pos h2, List.cons_append, List.singleton_append, decodeFrom, step, first,
      if_neg (by omega), if_neg (by omega), if_pos (by omega), List.nil_append,
      decodeFrom_finish ⟨by dsimp only; omega, by dsimp only; omega⟩ rfl]
    dsimp only
    rw [show 64 * (0xC0 + n / 64 - 0xC0) + (0x80 + n % 64 - 0x80) = n by omega, hchar]
  rw [if_neg h2]
  by_cases h3 : n < 0x10000
  · rw [if_pos h3, List.cons_append, List.cons_append, List.singleton_append, decodeFrom, step,
      first, if_neg (by omega), if_neg (by omega), if_neg (by omega), if_pos (by omega),
      List.nil_append,
      decodeFrom_continue ⟨by dsimp only; split <;> omega, by dsimp only; split <;> omega⟩
        (by dsimp only; omega),
      decodeFrom_finish ⟨by dsimp only; omega, by dsimp only; omega⟩ rfl]
    dsimp only
    rw [show 64 * (64 * (0xE0 + n / 4096 - 0xE0) + (0x80 + n / 64 % 64 - 0x80)) +
      (0x80 + n % 64 - 0x80) = n by omega, hchar]
  · rw [if_neg h3, List.cons_append, List.cons_append, List.cons_append, List.singleton_append,
      decodeFrom, step, first, if_neg (by omega), if_neg (by omega), if_neg (by omega),
      if_neg (by omega), if_pos (by omega), List.nil_append,
      decodeFrom_continue ⟨by dsimp only; split <;> omega, by dsimp only; split <;> omega⟩
        (by dsimp only; omega),
      decodeFrom_continue ⟨by dsimp only; omega, by dsimp only; omega⟩
        (by dsimp only; omega),
      decodeFrom_finish ⟨by dsimp only; omega, by dsimp only; omega⟩ rfl]
    dsimp only
    rw [show 64 * (64 * (64 * (0xF0 + n / 262144 - 0xF0) + (0x80 + n / 4096 % 64 - 0x80)) +
      (0x80 + n / 64 % 64 - 0x80)) + (0x80 + n % 64 - 0x80) = n by omega, hchar]

theorem decode_encode (s : String) : decode (encode s) = s := by
  have hchars : ∀ cs : List Char, decodeFrom none (cs.flatMap encodeChar) = cs := by
    intro cs
    induction cs with
    | nil => rfl
    | cons c cs ih => rw [List.flatMap_cons, decodeFrom_encodeChar, ih]
  rw [decode, encode, hchars, String.ofList_toList]

theorem encodeChar_lt (c : Char) : ∀ b ∈ encodeChar c, b < 256 := by
  have hvalid : c.toNat < 0xD800 ∨ 0xDFFF < c.toNat ∧ c.toNat < 0x110000 := c.valid
  unfold encodeChar
  intro b hb
  dsimp only at hb
  split at hb
  next h => simp only [List.mem_singleton] at hb; omega
  next h =>
    split at hb
    next h' => simp only [List.mem_cons, List.not_mem_nil, or_false] at hb; omega
    next h' =>
      split at hb
      next h'' => simp only [List.mem_cons, List.not_mem_nil, or_false] at hb; omega
      next h'' => simp only [List.mem_cons, List.not_mem_nil, or_false] at hb; omega

theorem encode_lt (s : String) : ∀ b ∈ encode s, b < 256 := by
  intro b hb
  obtain ⟨c, -, hc⟩ := List.mem_flatMap.mp hb
  exact encodeChar_lt c b hc

end VcCommonService.Lib.Utf8
