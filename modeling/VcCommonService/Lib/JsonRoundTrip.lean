import VcCommonService.Lib.ShortestNumber

/-!
# `JSON.parse` after `JSON.stringify`

The values that exist are read back from their texts: numbers are finite doubles, and an object has
one member of a name, in the order of own properties.
-/

namespace VcCommonService.Lib.JsonText

mutual
/-- The value is one that the language has. -/
def IsValue : Json → Prop
  | .num n => ∃ q, n = .finite q ∧ IsDouble q
  | .arr elements => AllValues elements
  | .obj members =>
    (members.map Prod.fst).Nodup ∧ ownOrder members = members ∧ MemberValues members
  | _ => True

def AllValues : List Json → Prop
  | [] => True
  | e :: es => IsValue e ∧ AllValues es

def MemberValues : List (String × Json) → Prop
  | [] => True
  | (_, v) :: ms => IsValue v ∧ MemberValues ms
end

/-! ### First characters -/

def BeginsValue (c : Char) : Prop :=
  (c = ' ' || c = '\t' || c = '\n' || c = '\r') = false ∧ c ≠ ']'

theorem digit_begins {d : Char} (h : isDigit d = true) : BeginsValue d := by
  have hne : ∀ c, isDigit c = false → d ≠ c := fun c => NumberText.ne_of_not_digit h
  simp [BeginsValue, hne ' ' rfl, hne '\t' rfl, hne '\n' rfl, hne '\r' rfl, hne ']' rfl]

theorem finiteText_head {q : ℚ} (hq : IsDouble q) :
    ∃ c cs, finiteText q = c :: cs ∧ (isDigit c = true ∨ c = '-') := by
  unfold finiteText
  split
  · exact ⟨'0', [], rfl, Or.inl rfl⟩
  split
  · exact ⟨'-', _, rfl, Or.inr rfl⟩
  next hzero hneg =>
    have hpos : 0 < q := lt_of_le_of_ne (not_lt.mp hneg) (Ne.symm hzero)
    obtain ⟨d, cs, hhead, hd⟩ := decimalText_head (shortest_spec hq.1 hpos).1 (shortest q).2
    exact ⟨d, cs, hhead, Or.inl hd⟩

theorem stringifyChars_head {v : Json} (hv : IsValue v) :
    ∃ c cs, stringifyChars v = c :: cs ∧ BeginsValue c := by
  cases v with
  | null => exact ⟨'n', _, rfl, rfl, by decide⟩
  | bool b => cases b <;> exact ⟨_, _, rfl, rfl, by decide⟩
  | num n =>
    obtain ⟨q, rfl, hq⟩ := hv
    obtain ⟨c, cs, hhead, hc⟩ := finiteText_head hq
    refine ⟨c, cs, hhead, ?_⟩
    rcases hc with hdigit | rfl
    · exact digit_begins hdigit
    · exact ⟨rfl, by decide⟩
  | str s => exact ⟨'"', _, rfl, rfl, by decide⟩
  | arr elements => exact ⟨'[', _, rfl, rfl, by decide⟩
  | obj members => exact ⟨'\x7b', _, rfl, rfl, by decide⟩

/-! ### One value -/

theorem value_of_numeric {c : Char} (hc : isDigit c = true ∨ c = '-') (fuel : ℕ) (cs : List Char) :
    value (fuel + 1) (c :: cs) = number (c :: cs) := by
  have hne : ∀ d, isDigit d = false → d ≠ '-' → c ≠ d := by
    intro d hd hminus
    rcases hc with hdigit | rfl
    · exact NumberText.ne_of_not_digit hdigit hd
    · exact Ne.symm hminus
  have hspace : (c = ' ' || c = '\t' || c = '\n' || c = '\r') = false := by
    simp [hne ' ' rfl (by decide), hne '\t' rfl (by decide), hne '\n' rfl (by decide),
      hne '\r' rfl (by decide)]
  rw [value, skipWhitespace_cons hspace]
  split
  next heq => exact absurd (List.cons.inj heq).1 (hne 'n' rfl (by decide))
  next heq => exact absurd (List.cons.inj heq).1 (hne 't' rfl (by decide))
  next heq => exact absurd (List.cons.inj heq).1 (hne 'f' rfl (by decide))
  next heq => exact absurd (List.cons.inj heq).1 (hne '"' rfl (by decide))
  next heq => exact absurd (List.cons.inj heq).1 (hne '[' rfl (by decide))
  next heq => exact absurd (List.cons.inj heq).1 (hne '\x7b' rfl (by decide))
  next => rfl

theorem value_finiteText {q : ℚ} (hq : IsDouble q) (fuel : ℕ) {rest : List Char}
    (hrest : EndsNumber rest) :
    value (fuel + 1) (finiteText q ++ rest) = some (.num (.finite q), rest) := by
  have hread := number_finiteText hq hrest
  obtain ⟨c, cs, hhead, hc⟩ := finiteText_head hq
  rw [hhead, List.cons_append] at hread ⊢
  rw [value_of_numeric hc, hread]

/-! ### Elements and members -/

theorem endsNumber_cons {c : Char} (h : c = ',' ∨ c = ']' ∨ c = '\x7d') (rest : List Char) :
    EndsNumber (c :: rest) := by
  intro d hd
  rw [← Option.some.inj hd]
  rcases h with rfl | rfl | rfl <;> exact ⟨rfl, by decide, by decide, by decide⟩

theorem elements_last {fuel : ℕ} {cs rest : List Char} {e : Json}
    (h : value fuel cs = some (e, ']' :: rest)) : elements (fuel + 1) cs = some ([e], rest) := by
  rw [elements, h, Option.bind_eq_bind, Option.bind_some]
  dsimp only
  rw [skipWhitespace_cons rfl]
  rfl

theorem elements_more {fuel : ℕ} {cs cs' rest : List Char} {e : Json} {es : List Json}
    (h : value fuel cs = some (e, ',' :: cs')) (hes : elements fuel cs' = some (es, rest)) :
    elements (fuel + 1) cs = some (e :: es, rest) := by
  rw [elements, h, Option.bind_eq_bind, Option.bind_some]
  dsimp only
  rw [skipWhitespace_cons rfl]
  change (elements fuel cs').bind _ = _
  rw [hes]
  rfl

/-- A member at the front of a text, up to what comes after it. -/
theorem members_member (name : String) {fuel : ℕ} (acc : Json.Members) {cs after : List Char}
    {v : Json} (h : value fuel cs = some (v, after)) :
    members (fuel + 1) acc (quote name ++ ':' :: cs) =
      match skipWhitespace after with
      | ',' :: rest => members fuel (Json.set acc name v) rest
      | '\x7d' :: rest => some (Json.set acc name v, rest)
      | _ => none := by
  have htext : quote name ++ ':' :: cs = '"' :: (name.toList.flatMap quoteChar ++ '"' :: ':' :: cs) := by
    simp [quote]
  rw [htext, members, skipWhitespace_cons rfl]
  change (string (name.toList.flatMap quoteChar ++ '"' :: ':' :: cs)).bind _ = _
  rw [string_quoted, Option.bind_some]
  dsimp only
  rw [skipWhitespace_cons rfl]
  change (value fuel cs).bind _ = _
  rw [h, Option.bind_some]
  rfl

theorem value_array {c : Char} (hc : BeginsValue c) (fuel : ℕ) (cs : List Char) :
    value (fuel + 1) ('[' :: c :: cs) =
      (elements fuel (c :: cs)).map fun (es, rest) => (.arr es, rest) := by
  have hrest := skipWhitespace_cons hc.1 cs
  rw [value, skipWhitespace_cons rfl]
  split
  case h_5 rest heq =>
    cases heq
    rw [hrest]
    split
    next heq => exact absurd (List.cons.inj heq).1 hc.2
    next => rfl
  case h_7 harray _ => exact absurd rfl (harray _)
  all_goals next heq => cases heq

theorem value_object (fuel : ℕ) (cs : List Char) :
    value (fuel + 1) ('\x7b' :: '"' :: cs) =
      (members fuel [] ('"' :: cs)).map fun (ms, rest) => (.obj ms, rest) := by
  rw [value, skipWhitespace_cons rfl]
  rfl

/-! ### Own order -/

theorem ownOrder_map {β γ : Type*} (f : β → γ) (members : List (String × β)) :
    ownOrder (members.map fun m => (m.1, f m.2)) = (ownOrder members).map fun m => (m.1, f m.2) := by
  unfold ownOrder
  rw [List.map_append, List.filter_map, List.filter_map]
  have hsort := List.map_insertionSort
    (fun m m' : String × β => (arrayIndex m.1).getD 0 ≤ (arrayIndex m'.1).getD 0)
    (fun m m' : String × γ => (arrayIndex m.1).getD 0 ≤ (arrayIndex m'.1).getD 0)
    (fun m => (m.1, f m.2)) (members.filter fun m => (arrayIndex m.1).isSome)
    fun _ _ _ _ => Iff.rfl
  rw [hsort]
  rfl

theorem stringifyMembers_eq (members : List (String × Json)) :
    stringifyMembers members = members.map fun m => (m.1, stringifyChars m.2) := by
  induction members with
  | nil => rfl
  | cons m ms ih =>
    rw [List.map_cons, ← ih]
    rfl

/-- The texts of the members, in the order of the object. -/
def memberTexts (members : List (String × Json)) : List (List Char) :=
  (stringifyMembers members).map fun m => quote m.1 ++ ':' :: m.2

theorem stringifyChars_obj {members : List (String × Json)} (h : ownOrder members = members) :
    stringifyChars (.obj members) = '\x7b' :: (commaSeparated (memberTexts members) ++ ['\x7d']) := by
  have horder : ownOrder (stringifyMembers members) = stringifyMembers members := by
    rw [stringifyMembers_eq, ownOrder_map, h]
  rw [stringifyChars, horder]
  rfl

theorem stringifyElements_head {es : List Json} (hne : es ≠ []) (hes : AllValues es) :
    ∃ c cs, commaSeparated (stringifyElements es) = c :: cs ∧ BeginsValue c := by
  cases es with
  | nil => exact absurd rfl hne
  | cons e es =>
    obtain ⟨c, cs, hhead, hc⟩ := stringifyChars_head hes.1
    cases es with
    | nil => exact ⟨c, cs, hhead, hc⟩
    | cons e' es =>
      refine ⟨c, cs ++ ',' :: commaSeparated (stringifyElements (e' :: es)), ?_, hc⟩
      rw [← List.cons_append, ← hhead]
      rfl

theorem memberTexts_head {ms : List (String × Json)} (hne : ms ≠ []) :
    ∃ cs, commaSeparated (memberTexts ms) = '"' :: cs := by
  cases ms with
  | nil => exact absurd rfl hne
  | cons m ms => cases ms <;> exact ⟨_, rfl⟩

/-! ### Values -/

mutual
theorem value_stringify (v : Json) (hv : IsValue v) {fuel : ℕ}
    (hfuel : (stringifyChars v).length ≤ fuel) {rest : List Char} (hrest : EndsNumber rest) :
    value fuel (stringifyChars v ++ rest) = some (v, rest) := by
  obtain ⟨c, cs, hhead, -⟩ := stringifyChars_head hv
  obtain ⟨n, rfl⟩ : ∃ n, fuel = n + 1 := by
    rw [hhead, List.length_cons] at hfuel
    exact ⟨fuel - 1, by omega⟩
  cases v with
  | null => rfl
  | bool b => cases b <;> rfl
  | num number =>
    obtain ⟨q, rfl, hq⟩ := hv
    exact value_finiteText hq n hrest
  | str s => exact value_quote s n rest
  | arr es =>
    by_cases hes : es = []
    · rw [hes]
      rfl
    · obtain ⟨c, cs, hfirst, hc⟩ := stringifyElements_head hes hv
      have hlength : (commaSeparated (stringifyElements es)).length + 1 ≤ n := by
        simp only [stringifyChars, List.length_append, List.length_cons, List.length_nil] at hfuel
        omega
      have hread := elements_stringify es hes hv hlength rest
      rw [stringifyChars, List.cons_append, List.cons_append, List.append_assoc,
        List.singleton_append]
      rw [hfirst, List.cons_append] at hread ⊢
      rw [value_array hc, hread, Option.map_some]
  | obj ms =>
    obtain ⟨hnames, horder, hms⟩ := hv
    rw [stringifyChars_obj horder] at hfuel ⊢
    by_cases hempty : ms = []
    · rw [hempty]
      rfl
    · obtain ⟨cs, hfirst⟩ := memberTexts_head hempty
      have hlength : (commaSeparated (memberTexts ms)).length + 1 ≤ n := by
        simp only [List.length_append, List.length_cons, List.length_nil] at hfuel
        omega
      have hread := members_stringify ms hempty hms hlength [] nofun hnames rest
      rw [List.cons_append, List.append_assoc, List.singleton_append]
      rw [hfirst, List.cons_append] at hread ⊢
      rw [value_object, hread, List.nil_append, Option.map_some]

theorem elements_stringify (es : List Json) (hne : es ≠ []) (hes : AllValues es) {fuel : ℕ}
    (hfuel : (commaSeparated (stringifyElements es)).length + 1 ≤ fuel) (rest : List Char) :
    elements fuel (commaSeparated (stringifyElements es) ++ ']' :: rest) = some (es, rest) := by
  obtain ⟨n, rfl⟩ : ∃ n, fuel = n + 1 := ⟨fuel - 1, by omega⟩
  cases es with
  | nil => exact absurd rfl hne
  | cons e es =>
    cases es with
    | nil =>
      have hlength : (stringifyChars e).length ≤ n := Nat.le_of_succ_le_succ hfuel
      exact elements_last (value_stringify e hes.1 hlength (endsNumber_cons (by decide) rest))
    | cons e' es =>
      have htext : commaSeparated (stringifyElements (e :: e' :: es)) =
          stringifyChars e ++ ',' :: commaSeparated (stringifyElements (e' :: es)) := rfl
      rw [htext, List.length_append, List.length_cons] at hfuel
      rw [htext, List.append_assoc, List.cons_append]
      exact elements_more
        (value_stringify e hes.1 (by omega) (endsNumber_cons (by decide) _))
        (elements_stringify (e' :: es) (List.cons_ne_nil _ _) hes.2 (by omega) rest)

theorem members_stringify (ms : List (String × Json)) (hne : ms ≠ []) (hms : MemberValues ms)
    {fuel : ℕ} (hfuel : (commaSeparated (memberTexts ms)).length + 1 ≤ fuel) (acc : Json.Members)
    (hacc : ∀ m ∈ acc, m.1 ∉ ms.map Prod.fst) (hnames : (ms.map Prod.fst).Nodup)
    (rest : List Char) :
    members fuel acc (commaSeparated (memberTexts ms) ++ '\x7d' :: rest) = some (acc ++ ms, rest) := by
  obtain ⟨n, rfl⟩ : ∃ n, fuel = n + 1 := ⟨fuel - 1, by omega⟩
  cases ms with
  | nil => exact absurd rfl hne
  | cons m ms =>
    obtain ⟨name, v⟩ := m
    have hset : Json.set acc name v = acc ++ [(name, v)] :=
      set_append acc v fun m hm heq => hacc m hm (heq ▸ List.mem_cons_self ..)
    obtain ⟨hnew, hnames⟩ := List.nodup_cons.mp hnames
    cases ms with
    | nil =>
      have htext : commaSeparated (memberTexts [(name, v)]) = quote name ++ ':' :: stringifyChars v :=
        rfl
      have hlength : (stringifyChars v).length ≤ n := by
        simp only [htext, List.length_append, List.length_cons] at hfuel
        omega
      have hread := value_stringify v hms.1 hlength (endsNumber_cons (Or.inr (Or.inr rfl)) rest)
      rw [htext, List.append_assoc, List.cons_append, members_member name acc hread,
        skipWhitespace_cons rfl, ← hset]
      rfl
    | cons m' ms =>
      have htext : commaSeparated (memberTexts ((name, v) :: m' :: ms)) =
          (quote name ++ ':' :: stringifyChars v) ++ ',' :: commaSeparated (memberTexts (m' :: ms)) :=
        rfl
      simp only [htext, List.length_append, List.length_cons] at hfuel
      have hread := value_stringify v hms.1 (show (stringifyChars v).length ≤ n by omega)
        (endsNumber_cons (Or.inl rfl) (commaSeparated (memberTexts (m' :: ms)) ++ '\x7d' :: rest))
      have hacc' : ∀ m ∈ Json.set acc name v, m.1 ∉ (m' :: ms).map Prod.fst := by
        rw [hset]
        refine List.forall_mem_append.mpr ⟨fun m hm hmem => ?_, ?_⟩
        · exact hacc m hm (List.mem_cons_of_mem _ hmem)
        · exact List.forall_mem_singleton.mpr hnew
      have hrest : members n (Json.set acc name v) _ = _ :=
        members_stringify (m' :: ms) (List.cons_ne_nil _ _) hms.2 (by omega) _ hacc' hnames rest
      rw [htext, List.append_assoc, List.append_assoc, List.cons_append, List.cons_append,
        members_member name acc hread, skipWhitespace_cons rfl]
      refine hrest.trans ?_
      rw [hset, List.append_assoc]
      rfl
end

theorem parse_stringify {v : Json} (hv : IsValue v) : parse (stringify v) = some v := by
  have hread : value _ (stringifyChars v ++ []) = _ := value_stringify v hv (Nat.le_succ _) nofun
  rw [List.append_nil] at hread
  rw [parse, stringify, String.length_ofList, String.toList_ofList, hread]
  rfl

/-! ### Objects of strings -/

def stringMembers (ms : List (String × String)) : Json.Members := ms.map fun m => (m.1, .str m.2)

theorem isValue_stringMembers {ms : List (String × String)} (hnames : (ms.map Prod.fst).Nodup)
    (hindex : ∀ m ∈ ms, arrayIndex m.1 = none) : IsValue (.obj (stringMembers ms)) := by
  have hvalues : ∀ ms : List (String × String), MemberValues (stringMembers ms) := by
    intro ms
    induction ms with
    | nil => trivial
    | cons m ms ih => exact ⟨trivial, ih⟩
  refine ⟨?_, ownOrder_of_names fun m hm => ?_, hvalues ms⟩
  · rw [stringMembers, List.map_map]
    exact hnames
  · obtain ⟨m', hm', rfl⟩ := List.mem_map.mp hm
    exact hindex m' hm'

end VcCommonService.Lib.JsonText
