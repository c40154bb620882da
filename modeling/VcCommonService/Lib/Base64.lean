import Mathlib.Data.List.Basic

/-!
# Base64

`atob` gives a binary string, one character for each byte. ASCII whitespace is skipped, and up to two
padding characters may end a text whose length is a multiple of four. Buffers are written as
`base64url`, without padding, and read from either alphabet.
-/

namespace VcCommonService.Lib.Base64

def digit (c : Char) : Option ℕ :=
  if 'A' ≤ c ∧ c ≤ 'Z' then some (c.toNat - 'A'.toNat)
  else if 'a' ≤ c ∧ c ≤ 'z' then some (c.toNat - 'a'.toNat + 26)
  else if '0' ≤ c ∧ c ≤ '9' then some (c.toNat - '0'.toNat + 52)
  else if c = '+' then some 62
  else if c = '/' then some 63
  else none

def isAsciiWhitespace (c : Char) : Bool := [0x9, 0xA, 0xC, 0xD, 0x20].contains c.toNat

def stripPadding (cs : List Char) : List Char :=
  if cs.length % 4 = 0 then
    match cs.reverse with
    | '=' :: '=' :: rest => rest.reverse
    | '=' :: rest => rest.reverse
    | _ => cs
  else cs

/-- Four digits give three bytes; the spare bits of a last, shorter group are dropped. -/
def bytes : List ℕ → List ℕ
  | a :: b :: c :: d :: rest =>
    (4 * a + b / 16) :: (b % 16 * 16 + c / 4) :: (c % 4 * 64 + d) :: bytes rest
  | [a, b, c] => [4 * a + b / 16, b % 16 * 16 + c / 4]
  | [a, b] => [4 * a + b / 16]
  | _ => []

/-- `none` where `atob` throws. -/
def atob (s : String) : Option String := do
  let cs := stripPadding (s.toList.filter fun c => !isAsciiWhitespace c)
  if cs.length % 4 = 1 then none
  let digits ← cs.mapM digit
  return String.ofList ((bytes digits).map Char.ofNat)

example : atob "eyJzdWIiOiJ1In0=" = some "\x7b\"sub\":\"u\"\x7d" := by decide

/-! ### `base64url` -/

/-- Three bytes give four digits; the spare bits of the last digit are zero. -/
def digits : List ℕ → List ℕ
  | a :: b :: c :: rest => a / 4 :: (a % 4 * 16 + b / 16) :: (b % 16 * 4 + c / 64) :: c % 64 :: digits rest
  | [a, b] => [a / 4, a % 4 * 16 + b / 16, b % 16 * 4]
  | [a] => [a / 4, a % 4 * 16]
  | [] => []

def urlAlphabet : List Char :=
  "ABCDEFGHIJKLMNOPQRSTUVWXYZabcdefghijklmnopqrstuvwxyz0123456789-_".toList

def urlChar (d : ℕ) : Char := urlAlphabet.getD d 'A'

def urlDigit (c : Char) : Option ℕ :=
  if c = '-' then some 62 else if c = '_' then some 63 else digit c

/-- `Buffer.toString('base64url')` -/
def toBase64url (bs : List ℕ) : String := String.ofList ((digits bs).map urlChar)

/-- `Buffer.from(s, 'base64url')`; characters of neither alphabet are skipped. -/
def ofBase64url (s : String) : List ℕ := bytes (s.toList.filterMap urlDigit)

theorem urlDigit_urlChar : ∀ d < 64, urlDigit (urlChar d) = some d := by decide +kernel

theorem digits_lt (bs : List ℕ) (h : ∀ b ∈ bs, b < 256) : ∀ d ∈ digits bs, d < 64 := by
  induction bs using digits.induct with
  | case1 a b c rest ih =>
    have ha := h a (by simp)
    have hb := h b (by simp)
    intro d hd
    simp only [digits, List.mem_cons] at hd
    rcases hd with rfl | rfl | rfl | rfl | hd
    · omega
    · omega
    · have hc := h c (by simp)
      omega
    · omega
    · exact ih (fun x hx => h x (by simp [hx])) d hd
  | case2 a b =>
    have ha := h a (by simp)
    have hb := h b (by simp)
    intro d hd
    simp only [digits, List.mem_cons, List.not_mem_nil, or_false] at hd
    omega
  | case3 a =>
    have ha := h a (by simp)
    intro d hd
    simp only [digits, List.mem_cons, List.not_mem_nil, or_false] at hd
    omega
  | case4 => exact nofun

theorem bytes_digits (bs : List ℕ) (h : ∀ b ∈ bs, b < 256) : bytes (digits bs) = bs := by
  induction bs using digits.induct with
  | case1 a b c rest ih =>
    have ha := h a (by simp)
    have hb := h b (by simp)
    have hc := h c (by simp)
    rw [digits, bytes, ih fun x hx => h x (by simp [hx])]
    congr 1
    · omega
    · congr 1
      · omega
      · congr 1
        omega
  | case2 a b =>
    have ha := h a (by simp)
    have hb := h b (by simp)
    rw [digits, bytes]
    congr 1
    · omega
    · congr 1
      omega
  | case3 a =>
    have ha := h a (by simp)
    rw [digits, bytes]
    congr 1
    omega
  | case4 => rfl

theorem ofBase64url_toBase64url (bs : List ℕ) (h : ∀ b ∈ bs, b < 256) :
    ofBase64url (toBase64url bs) = bs := by
  have hchars : ∀ ds : List ℕ, (∀ d ∈ ds, d < 64) → (ds.map urlChar).filterMap urlDigit = ds := by
    intro ds hds
    induction ds with
    | nil => rfl
    | cons d ds ih =>
      rw [List.map_cons, List.filterMap_cons_some (urlDigit_urlChar d (hds d (List.mem_cons_self ..))),
        ih fun x hx => hds x (List.mem_cons_of_mem _ hx)]
  rw [ofBase64url, toBase64url, String.toList_ofList, hchars _ (digits_lt bs h), bytes_digits bs h]

end VcCommonService.Lib.Base64
