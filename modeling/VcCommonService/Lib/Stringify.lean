import Mathlib.Data.Nat.Log
import VcCommonService.Lib.Js
import VcCommonService.Lib.JsonText

/-!
# `JSON.stringify`

The text of a JSON value, with numbers in their shortest form and array indices before the other
members of an object. A string that was written is read back from the front of a text, and no
control character is ever written.
-/

namespace VcCommonService.Lib.JsonText

/-! ### `Number.prototype.toString` -/

/-- The exponent `n` with `10 ^ (n - 1) ≤ q < 10 ^ n`. -/
def magnitude (q : ℚ) : ℤ :=
  if 1 ≤ q then Nat.log 10 ⌊q⌋.toNat + 1 else 1 - Nat.clog 10 ⌈1 / q⌉.toNat

/-- The closest number with `k` digits. -/
def candidate (q : ℚ) (k : ℕ) : ℕ := (Number.roundEven (q / 10 ^ (magnitude q - k))).toNat

def readsBack (q : ℚ) (k : ℕ) : Bool :=
  decide (Number.nearest (candidate q k * 10 ^ (magnitude q - k)) = q)

/-- The fewest digits that read back as a positive number, and where the point stands in them. -/
def shortest (q : ℚ) : List Char × ℤ :=
  let k := ((List.range' 1 17).find? (readsBack q)).getD 17
  let ds := Nat.toDigits 10 (candidate q k)
  ((ds.reverse.dropWhile fun d => d = '0').reverse, magnitude q + (ds.length - k))

def zeros (n : ℤ) : List Char := List.replicate n.toNat '0'

def exponentText (ds : List Char) (e : ℤ) : List Char :=
  ds.take 1 ++ (if ds.length = 1 then [] else '.' :: ds.drop 1) ++
    'e' :: (if 0 ≤ e then '+' else '-') :: Nat.toDigits 10 e.natAbs

def decimalText (ds : List Char) (n : ℤ) : List Char :=
  if ds.length ≤ n ∧ n ≤ 21 then ds ++ zeros (n - ds.length)
  else if 0 < n ∧ n ≤ 21 then ds.take n.toNat ++ '.' :: ds.drop n.toNat
  else if -6 < n ∧ n ≤ 0 then '0' :: '.' :: zeros (-n) ++ ds
  else exponentText ds (n - 1)

def finiteText (q : ℚ) : List Char :=
  if q = 0 then ['0']
  else if q < 0 then '-' :: decimalText (shortest (-q)).1 (shortest (-q)).2
  else decimalText (shortest q).1 (shortest q).2

def numberText : Number → List Char
  | .finite q => finiteText q
  | .infinite negative => if negative then "-Infinity".toList else "Infinity".toList
  | .nan => "NaN".toList

/-! ### Strings -/

def hexDigit (n : ℕ) : Char := "0123456789abcdef".toList.getD n '0'

def shortEscapes : List (Char × Char) :=
  [('"', '"'), ('\\', '\\'), (Char.ofNat 8, 'b'), ('\t', 't'), ('\n', 'n'), (Char.ofNat 12, 'f'),
    ('\r', 'r')]

def quoteChar (c : Char) : List Char :=
  match shortEscapes.lookup c with
  | some d => ['\\', d]
  | none =>
    if c.toNat < 0x20 then ['\\', 'u', '0', '0', hexDigit (c.toNat / 16), hexDigit (c.toNat % 16)]
    else [c]

def quote (s : String) : List Char := '"' :: s.toList.flatMap quoteChar ++ ['"']

/-! ### Objects -/

/-- The index that a property name spells, if it spells one. -/
def arrayIndex (name : String) : Option ℕ :=
  let n := digitsValue name.toList
  if name = toString n ∧ n < 4294967295 then some n else none

/-- The order of own properties: array indices first, in ascending order. -/
def ownOrder {β : Type*} (members : List (String × β)) : List (String × β) :=
  (members.filter fun m => (arrayIndex m.1).isSome).insertionSort
      (fun m m' => (arrayIndex m.1).getD 0 ≤ (arrayIndex m'.1).getD 0) ++
    members.filter fun m => !(arrayIndex m.1).isSome

def commaSeparated : List (List Char) → List Char
  | [] => []
  | [text] => text
  | text :: texts => text ++ ',' :: commaSeparated texts

mutual
def stringifyChars : Json → List Char
  | .null => "null".toList
  | .bool b => if b then "true".toList else "false".toList
  | .num n => if n.isFinite then numberText n else "null".toList
  | .str s => quote s
  | .arr elements => '[' :: commaSeparated (stringifyElements elements) ++ [']']
  | .obj members => '\x7b' :: commaSeparated ((ownOrder (stringifyMembers members)).map
      fun m => quote m.1 ++ ':' :: m.2) ++ ['\x7d']

def stringifyElements : List Json → List (List Char)
  | [] => []
  | e :: es => stringifyChars e :: stringifyElements es

def stringifyMembers : List (String × Json) → List (String × List Char)
  | [] => []
  | (name, value) :: ms => (name, stringifyChars value) :: stringifyMembers ms
end

def stringify (v : Json) : String := String.ofList (stringifyChars v)

example : stringify (.obj [("b", .num (.finite (-3 / 2))), ("2", .str "é\n"), ("1", .arr [.null])]) =
    "\x7b\"1\":[null],\"2\":\"é\\n\",\"b\":-1.5\x7d" := by
  decide +kernel

/-! ### Reading strings back -/

theorem hexValue_hexDigit : ∀ n < 16, Uri.hexValue (hexDigit n) = some n := by decide

theorem mem_shortEscapes {c d : Char} (h : shortEscapes.lookup c = some d) :
    (c, d) ∈ shortEscapes := by
  obtain ⟨before, after, hsplit, -⟩ := List.lookup_eq_some_iff.mp h
  rw [hsplit]
  exact List.mem_append_right _ (List.mem_cons_self ..)

theorem escape_short {c d : Char} (h : shortEscapes.lookup c = some d) (rest : List Char) :
    escape (d :: rest) = some (c, rest) := by
  have hmem := mem_shortEscapes h
  simp only [shortEscapes, List.mem_cons, Prod.mk.injEq, List.not_mem_nil, or_false] at hmem
  rcases hmem with ⟨rfl, rfl⟩ | ⟨rfl, rfl⟩ | ⟨rfl, rfl⟩ | ⟨rfl, rfl⟩ | ⟨rfl, rfl⟩ | ⟨rfl, rfl⟩ | ⟨rfl, rfl⟩
  all_goals rfl

theorem escape_control {c : Char} (h : c.toNat < 0x20) (rest : List Char) :
    escape ('u' :: '0' :: '0' :: hexDigit (c.toNat / 16) :: hexDigit (c.toNat % 16) :: rest) =
      some (c, rest) := by
  have hhigh := hexValue_hexDigit (c.toNat / 16) (by omega)
  have hlow := hexValue_hexDigit (c.toNat % 16) (by omega)
  have hzero : Uri.hexValue '0' = some 0 := rfl
  have hunit : codeUnit ('0' :: '0' :: hexDigit (c.toNat / 16) :: hexDigit (c.toNat % 16) :: rest) =
      some (c.toNat, rest) := by
    rw [codeUnit]
    simp only [hzero, hhigh, hlow, Option.bind_eq_bind, Option.bind_some]
    exact congrArg (fun n => some (n, rest)) (by omega)
  rw [escape, unicodeEscape, hunit, Option.bind_eq_bind, Option.bind_some]
  dsimp only
  rw [if_pos (Or.inl (by omega)), Char.ofNat_toNat]
  rfl

theorem stringBody_escape {cs after : List Char} {c : Char} (h : escape cs = some (c, after))
    (fuel : ℕ) :
    stringBody (fuel + 1) ('\\' :: cs) =
      (stringBody fuel after).map fun (body, rest) => (c :: body, rest) := by
  rw [stringBody, if_neg (by decide), if_pos rfl, h, Option.bind_eq_bind, Option.bind_some]
  dsimp only
  cases stringBody fuel after <;> rfl

theorem stringBody_quoteChar (c : Char) (fuel : ℕ) (rest : List Char) :
    stringBody (fuel + 1) (quoteChar c ++ rest) =
      (stringBody fuel rest).map fun (body, after) => (c :: body, after) := by
  unfold quoteChar
  split
  next d hshort => exact stringBody_escape (escape_short hshort rest) fuel
  next hshort =>
    split
    next hcontrol => exact stringBody_escape (escape_control hcontrol rest) fuel
    next hplain =>
      have hquote : c ≠ '"' := by
        rintro rfl
        cases hshort
      have hslash : c ≠ '\\' := by
        rintro rfl
        cases hshort
      rw [List.singleton_append, stringBody, if_neg hquote, if_neg hslash, if_neg hplain]
      cases stringBody fuel rest <;> rfl

theorem stringBody_quoted (cs : List Char) {fuel : ℕ} (hfuel : cs.length < fuel)
    (rest : List Char) :
    stringBody fuel (cs.flatMap quoteChar ++ '"' :: rest) = some (cs, rest) := by
  induction cs generalizing fuel with
  | nil =>
    obtain ⟨n, rfl⟩ := Nat.exists_eq_add_of_lt hfuel
    rfl
  | cons c cs ih =>
    obtain ⟨n, rfl⟩ : ∃ n, fuel = n + 1 := ⟨fuel - 1, by omega⟩
    rw [List.length_cons] at hfuel
    rw [List.flatMap_cons, List.append_assoc, stringBody_quoteChar, ih (by omega)]
    rfl

theorem length_le_quoted (cs : List Char) : cs.length ≤ (cs.flatMap quoteChar).length := by
  induction cs with
  | nil => exact Nat.le_refl 0
  | cons c cs ih =>
    have hone : 1 ≤ (quoteChar c).length := by
      unfold quoteChar
      split
      · exact Nat.le_add_left 1 1
      · split <;> exact Nat.le_add_left 1 _
    rw [List.flatMap_cons, List.length_append, List.length_cons]
    omega

/-- What `quote` wrote after the opening quote is read back. -/
theorem string_quoted (s : String) (rest : List Char) :
    string (s.toList.flatMap quoteChar ++ '"' :: rest) = some (s, rest) := by
  have hlength := length_le_quoted s.toList
  rw [string, stringBody_quoted s.toList (by
    rw [List.length_append, List.length_cons]
    omega) rest, Option.map_some]
  dsimp only
  rw [String.ofList_toList]

/-! ### Reading values back -/

theorem skipWhitespace_cons {c : Char} (h : (c = ' ' || c = '\t' || c = '\n' || c = '\r') = false)
    (cs : List Char) : skipWhitespace (c :: cs) = c :: cs := by
  rw [skipWhitespace, List.dropWhile_cons, h]
  rfl

theorem value_quote (s : String) (fuel : ℕ) (rest : List Char) :
    value (fuel + 1) (quote s ++ rest) = some (.str s, rest) := by
  have htext : quote s ++ rest = '"' :: (s.toList.flatMap quoteChar ++ '"' :: rest) := by
    simp [quote]
  rw [htext, value, skipWhitespace_cons rfl]
  change (string (s.toList.flatMap quoteChar ++ '"' :: rest)).map _ = _
  rw [string_quoted, Option.map_some]

/-! ### Members -/

theorem set_append (acc : Json.Members) {name : String} (v : Json)
    (h : ∀ m ∈ acc, m.1 ≠ name) : Json.set acc name v = acc ++ [(name, v)] := by
  induction acc with
  | nil => rfl
  | cons m ms ih =>
    rw [Json.set, if_neg (h m (List.mem_cons_self ..)),
      ih fun m' hm' => h m' (List.mem_cons_of_mem _ hm'), List.cons_append]

theorem ownOrder_of_names {β : Type*} {members : List (String × β)}
    (h : ∀ m ∈ members, arrayIndex m.1 = none) : ownOrder members = members := by
  have hindices : (members.filter fun m => (arrayIndex m.1).isSome) = [] :=
    List.filter_eq_nil_iff.mpr fun m hm => by simp [h m hm]
  have hothers : (members.filter fun m => !(arrayIndex m.1).isSome) = members :=
    List.filter_eq_self.mpr fun m hm => by simp [h m hm]
  rw [ownOrder, hindices, hothers]
  rfl

theorem perm_ownOrder {β : Type*} (members : List (String × β)) :
    (ownOrder members).Perm members := by
  have hsorted := List.perm_insertionSort
    (fun m m' : String × β => (arrayIndex m.1).getD 0 ≤ (arrayIndex m'.1).getD 0)
    (members.filter fun m => (arrayIndex m.1).isSome)
  exact (hsorted.append_right _).trans
    (List.filter_append_perm (fun m : String × β => (arrayIndex m.1).isSome) members)

/-! ### No control characters -/

def IsPrintable (c : Char) : Prop := 0x20 ≤ c.toNat

instance : DecidablePred IsPrintable := fun _ => inferInstanceAs (Decidable (_ ≤ _))

def Printable (cs : List Char) : Prop := ∀ c ∈ cs, IsPrintable c

instance : DecidablePred Printable := fun cs => List.decidableBAll IsPrintable cs

theorem printable_cons {c : Char} {cs : List Char} (h : IsPrintable c) (hcs : Printable cs) :
    Printable (c :: cs) := List.forall_mem_cons.mpr ⟨h, hcs⟩

theorem printable_append {cs ds : List Char} (h : Printable cs) (h' : Printable ds) :
    Printable (cs ++ ds) := List.forall_mem_append.mpr ⟨h, h'⟩

theorem printable_of_subset {cs ds : List Char} (hsub : cs ⊆ ds) (h : Printable ds) :
    Printable cs := fun c hc => h c (hsub hc)

theorem printable_toDigits (n : ℕ) : Printable (Nat.toDigits 10 n) := by
  intro c hc
  have hdigit := Nat.isDigit_of_mem_toDigits (by decide) (by decide) hc
  have h0 : '0'.toNat ≤ c.toNat := (Bool.and_eq_true_iff.mp hdigit).1 |> of_decide_eq_true
  exact Nat.le_trans (by decide) h0

theorem printable_zeros (n : ℤ) : Printable (zeros n) := by
  intro c hc
  rw [List.eq_of_mem_replicate hc]
  decide

theorem printable_shortest (q : ℚ) : Printable (shortest q).1 := by
  intro c hc
  have hdrop := (List.dropWhile_sublist _).subset (List.mem_reverse.mp hc)
  exact printable_toDigits _ c (List.mem_reverse.mp hdrop)

theorem printable_decimalText {ds : List Char} (h : Printable ds) (n : ℤ) :
    Printable (decimalText ds n) := by
  have htake : ∀ k, Printable (ds.take k) := fun k => printable_of_subset (List.take_subset k ds) h
  have hdrop : ∀ k, Printable (ds.drop k) := fun k => printable_of_subset (List.drop_subset k ds) h
  unfold decimalText
  split
  · exact printable_append h (printable_zeros _)
  split
  · exact printable_append (htake _) (printable_cons (by decide) (hdrop _))
  split
  · exact printable_cons (by decide) (printable_cons (by decide)
      (printable_append (printable_zeros _) h))
  · unfold exponentText
    refine printable_append (printable_append (htake 1) ?_) (printable_cons (by decide) ?_)
    · split
      · exact nofun
      · exact printable_cons (by decide) (hdrop 1)
    · refine printable_cons ?_ (printable_toDigits _)
      split <;> decide

theorem printable_numberText (n : Number) : Printable (numberText n) := by
  cases n with
  | finite q =>
    change Printable (finiteText q)
    unfold finiteText
    split
    · exact printable_cons (by decide) nofun
    split
    · exact printable_cons (by decide) (printable_decimalText (printable_shortest _) _)
    · exact printable_decimalText (printable_shortest _) _
  | infinite negative => cases negative <;> decide
  | nan => decide

theorem printable_quoteChar (c : Char) : Printable (quoteChar c) := by
  unfold quoteChar
  split
  next d hshort =>
    have hd : IsPrintable d := by
      have hall : ∀ p ∈ shortEscapes, IsPrintable p.2 := by decide
      exact hall _ (mem_shortEscapes hshort)
    exact printable_cons (by decide) (printable_cons hd nofun)
  next =>
    split
    next hcontrol =>
      have hhex : ∀ n < 16, IsPrintable (hexDigit n) := by decide
      refine printable_cons (by decide) (printable_cons (by decide) (printable_cons (by decide)
        (printable_cons (by decide) (printable_cons (hhex _ ?_) (printable_cons (hhex _ ?_) nofun)))))
      · omega
      · omega
    next hplain => exact printable_cons (Nat.le_of_not_lt hplain) nofun

theorem printable_quote (s : String) : Printable (quote s) := by
  unfold quote
  refine printable_append (printable_cons (by decide) fun c hc => ?_) (printable_cons (by decide) nofun)
  obtain ⟨d, -, hd⟩ := List.mem_flatMap.mp hc
  exact printable_quoteChar d c hd

theorem printable_commaSeparated {texts : List (List Char)} (h : ∀ text ∈ texts, Printable text) :
    Printable (commaSeparated texts) := by
  induction texts with
  | nil => exact nofun
  | cons text texts ih =>
    have htext := h text (List.mem_cons_self ..)
    have hrest := ih fun t ht => h t (List.mem_cons_of_mem _ ht)
    cases texts with
    | nil => exact htext
    | cons text' texts => exact printable_append htext (printable_cons (by decide) hrest)

mutual
theorem printable_stringifyChars (v : Json) : Printable (stringifyChars v) := by
  cases v with
  | null => decide
  | bool b => cases b <;> decide
  | num n =>
    unfold stringifyChars
    split
    · exact printable_numberText n
    · decide
  | str s => exact printable_quote s
  | arr elements =>
    exact printable_append (printable_cons (by decide)
      (printable_commaSeparated (printable_stringifyElements elements)))
      (printable_cons (by decide) nofun)
  | obj members =>
    refine printable_append (printable_cons (by decide) (printable_commaSeparated fun text h => ?_))
      (printable_cons (by decide) nofun)
    obtain ⟨m, hm, rfl⟩ := List.mem_map.mp h
    exact printable_append (printable_quote m.1) (printable_cons (by decide)
      (printable_stringifyMembers members m ((perm_ownOrder _).subset hm)))

theorem printable_stringifyElements (elements : List Json) :
    ∀ text ∈ stringifyElements elements, Printable text := by
  cases elements with
  | nil => exact nofun
  | cons e es =>
    intro text h
    rcases List.mem_cons.mp h with rfl | h
    · exact printable_stringifyChars e
    · exact printable_stringifyElements es text h

theorem printable_stringifyMembers (members : List (String × Json)) :
    ∀ m ∈ stringifyMembers members, Printable m.2 := by
  cases members with
  | nil => exact nofun
  | cons m ms =>
    obtain ⟨name, value⟩ := m
    intro m' h
    rcases List.mem_cons.mp h with rfl | h
    · exact printable_stringifyChars value
    · exact printable_stringifyMembers ms m' h
end

end VcCommonService.Lib.JsonText
