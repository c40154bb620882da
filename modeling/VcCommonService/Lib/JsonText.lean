import VcCommonService.Lib.Js
import VcCommonService.Lib.Json
import VcCommonService.Lib.Uri

/-!
# `JSON.parse`

The grammar of JSON texts. The fuel of the mutual functions is the number of characters: an
element and the comma or bracket after it are at least two. A repeated name keeps its first place
and takes the last value; an unpaired surrogate is read as the replacement character.
-/

namespace VcCommonService.Lib.JsonText
open Uri (hexValue)

/-! ### Tokens -/

def skipWhitespace (cs : List Char) : List Char :=
  cs.dropWhile fun c => c = ' ' || c = '\t' || c = '\n' || c = '\r'

def isDigit (c : Char) : Bool := '0' ≤ c && c ≤ '9'

def digitsValue (ds : List Char) : ℕ := ds.foldl (fun n d => 10 * n + (d.toNat - '0'.toNat)) 0

/-- A whole part without leading zeros. -/
def wholePart : List Char → Option (ℕ × List Char)
  | '0' :: rest => some (0, rest)
  | cs =>
    if (cs.takeWhile isDigit).isEmpty then none
    else some (digitsValue (cs.takeWhile isDigit), cs.dropWhile isDigit)

/-- `.` and at least one digit, as a value below one. -/
def fraction : List Char → Option (ℚ × List Char)
  | '.' :: rest =>
    let ds := rest.takeWhile isDigit
    if ds.isEmpty then none else some (digitsValue ds / 10 ^ ds.length, rest.dropWhile isDigit)
  | cs => some (0, cs)

def exponentDigits (negative : Bool) (cs : List Char) : Option (ℤ × List Char) :=
  let ds := cs.takeWhile isDigit
  if ds.isEmpty then none
  else some (if negative then -(digitsValue ds : ℤ) else digitsValue ds, cs.dropWhile isDigit)

def exponent : List Char → Option (ℤ × List Char)
  | c :: rest =>
    if c = 'e' || c = 'E' then
      match rest with
      | '-' :: rest => exponentDigits true rest
      | '+' :: rest => exponentDigits false rest
      | rest => exponentDigits false rest
    else some (0, c :: rest)
  | [] => some (0, [])

def unsignedNumber (cs : List Char) : Option (ℚ × List Char) := do
  let (whole, cs) ← wholePart cs
  let (part, cs) ← fraction cs
  let (e, cs) ← exponent cs
  return ((whole + part) * 10 ^ e, cs)

def number : List Char → Option (Json × List Char)
  | '-' :: cs => (unsignedNumber cs).map fun (q, rest) => (.num (Number.ofRat (-q)), rest)
  | cs => (unsignedNumber cs).map fun (q, rest) => (.num (Number.ofRat q), rest)

/-! ### Strings -/

def codeUnit : List Char → Option (ℕ × List Char)
  | a :: b :: c :: d :: rest => do
    let a ← hexValue a
    let b ← hexValue b
    let c ← hexValue c
    let d ← hexValue d
    return (((16 * a + b) * 16 + c) * 16 + d, rest)
  | _ => none

/-- The character of `\uXXXX`, with the second half of a surrogate pair if one follows. -/
def unicodeEscape (cs : List Char) : Option (Char × List Char) := do
  let (unit, rest) ← codeUnit cs
  if unit < 0xD800 ∨ 0xE000 ≤ unit then return (Char.ofNat unit, rest)
  match rest with
  | '\\' :: 'u' :: more =>
    let (low, after) ← codeUnit more
    if unit < 0xDC00 ∧ 0xDC00 ≤ low ∧ low < 0xE000 then
      return (Char.ofNat (0x10000 + (unit - 0xD800) * 0x400 + (low - 0xDC00)), after)
    else return (Char.ofNat 0xFFFD, rest)
  | _ => return (Char.ofNat 0xFFFD, rest)

def escape : List Char → Option (Char × List Char)
  | '"' :: cs => some ('"', cs)
  | '\\' :: cs => some ('\\', cs)
  | '/' :: cs => some ('/', cs)
  | 'b' :: cs => some (Char.ofNat 8, cs)
  | 'f' :: cs => some (Char.ofNat 12, cs)
  | 'n' :: cs => some ('\n', cs)
  | 'r' :: cs => some ('\r', cs)
  | 't' :: cs => some ('\t', cs)
  | 'u' :: cs => unicodeEscape cs
  | _ => none

/-- The characters up to the closing quote. -/
def stringBody : ℕ → List Char → Option (List Char × List Char)
  | 0, _ => none
  | _ + 1, [] => none
  | fuel + 1, c :: cs =>
    if c = '"' then some ([], cs)
    else if c = '\\' then do
      let (decoded, rest) ← escape cs
      let (tail, rest) ← stringBody fuel rest
      return (decoded :: tail, rest)
    else if c.toNat < 0x20 then none
    else do
      let (tail, rest) ← stringBody fuel cs
      return (c :: tail, rest)

/-- A string after its opening quote. -/
def string (cs : List Char) : Option (String × List Char) :=
  (stringBody (cs.length + 1) cs).map fun (body, rest) => (String.ofList body, rest)

/-! ### Values -/

mutual
def value : ℕ → List Char → Option (Json × List Char)
  | 0, _ => none
  | fuel + 1, cs =>
    match skipWhitespace cs with
    | 'n' :: 'u' :: 'l' :: 'l' :: rest => some (.null, rest)
    | 't' :: 'r' :: 'u' :: 'e' :: rest => some (.bool true, rest)
    | 'f' :: 'a' :: 'l' :: 's' :: 'e' :: rest => some (.bool false, rest)
    | '"' :: rest => (string rest).map fun (s, rest) => (.str s, rest)
    | '[' :: rest =>
      match skipWhitespace rest with
      | ']' :: after => some (.arr [], after)
      | _ => (elements fuel rest).map fun (es, rest) => (.arr es, rest)
    | '\x7b' :: rest =>
      match skipWhitespace rest with
      | '\x7d' :: after => some (.obj [], after)
      | _ => (members fuel [] rest).map fun (ms, rest) => (.obj ms, rest)
    | cs => number cs

/-- One element or more, up to the closing bracket. -/
def elements : ℕ → List Char → Option (List Json × List Char)
  | 0, _ => none
  | fuel + 1, cs => do
    let (e, rest) ← value fuel cs
    match skipWhitespace rest with
    | ',' :: rest =>
      let (es, rest) ← elements fuel rest
      return (e :: es, rest)
    | ']' :: rest => return ([e], rest)
    | _ => none

/-- One member or more, up to the closing brace. -/
def members : ℕ → Json.Members → List Char → Option (Json.Members × List Char)
  | 0, _, _ => none
  | fuel + 1, acc, cs => do
    match skipWhitespace cs with
    | '"' :: rest =>
      let (name, rest) ← string rest
      match skipWhitespace rest with
      | ':' :: rest =>
        let (v, rest) ← value fuel rest
        match skipWhitespace rest with
        | ',' :: rest => members fuel (Json.set acc name v) rest
        | '\x7d' :: rest => return (Json.set acc name v, rest)
        | _ => none
      | _ => none
    | _ => none
end

/-- `JSON.parse`; `none` where it throws. -/
def parse (s : String) : Option Json :=
  match value (s.length + 1) s.toList with
  | some (v, rest) => if (skipWhitespace rest).isEmpty then some v else none
  | none => none

/-! ### Code units -/

def IsSurrogate (unit : ℕ) : Prop := 0xD800 ≤ unit ∧ unit < 0xE000

instance (unit : ℕ) : Decidable (IsSurrogate unit) := inferInstanceAs (Decidable (_ ∧ _))

/-- A code unit as a character; half of a surrogate pair is one of plane 15. -/
def unitChar (unit : ℕ) : Char :=
  if IsSurrogate unit then Char.ofNat (0xF0000 + unit) else Char.ofNat unit

/-- The text with each code unit of its strings as a character of its own: the parser then keeps
a surrogate without its other half. -/
def unitText : List Char → List Char
  | '\\' :: 'u' :: a :: b :: c :: d :: rest =>
    match codeUnit [a, b, c, d] with
    | some (unit, _) =>
      if IsSurrogate unit then unitChar unit :: unitText rest
      else '\\' :: 'u' :: a :: b :: c :: d :: unitText rest
    | none => '\\' :: 'u' :: unitText (a :: b :: c :: d :: rest)
  | '\\' :: c :: rest => '\\' :: c :: unitText rest
  | c :: rest => (Js.charUnits c).map unitChar ++ unitText rest
  | [] => []

/-- `JSON.parse` with strings as sequences of code units. -/
def parseUnits (s : String) : Option Json := parse (String.ofList (unitText s.toList))

example : parse " [1.5e1, \x7b\"a\": null, \"a\": \"\\u00e9\"\x7d] " =
    some (.arr [.num (.finite 15), .obj [("a", .str "é")]]) := by
  decide +kernel

end VcCommonService.Lib.JsonText
