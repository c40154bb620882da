import VcCommonService.Lib.JsonRoundTrip

/-!
# `JSON.stringify` with indentation

With a gap, elements and members stand on lines of their own, indented once more than the brackets
around them. White space between tokens does not count, so the text is read back like the compact
one.
-/

namespace VcCommonService.Lib.JsonText

/-! ### The indented text -/

/-- Texts with a comma and the margin between them. -/
def onLines (margin : List Char) : List (List Char) → List Char
  | [] => []
  | [text] => text
  | text :: texts => text ++ ',' :: (margin ++ onLines margin texts)

/-- `margin` is the line break and the indentation of the closing bracket. -/
def bracketed (left right : Char) (gap margin : List Char) (texts : List (List Char)) : List Char :=
  if texts.isEmpty then [left, right]
  else left :: (margin ++ gap ++ onLines (margin ++ gap) texts ++ margin ++ [right])

mutual
def prettyChars (gap margin : List Char) : Json → List Char
  | .arr elements => bracketed '[' ']' gap margin (prettyElements gap (margin ++ gap) elements)
  | .obj members => bracketed '\x7b' '\x7d' gap margin
      ((ownOrder (prettyMembers gap (margin ++ gap) members)).map fun m =>
        quote m.1 ++ ':' :: ' ' :: m.2)
  | .null => stringifyChars .null
  | .bool b => stringifyChars (.bool b)
  | .num n => stringifyChars (.num n)
  | .str s => stringifyChars (.str s)

def prettyElements (gap margin : List Char) : List Json → List (List Char)
  | [] => []
  | e :: es => prettyChars gap margin e :: prettyElements gap margin es

def prettyMembers (gap margin : List Char) : List (String × Json) → List (String × List Char)
  | [] => []
  | (name, value) :: ms => (name, prettyChars gap margin value) :: prettyMembers gap margin ms
end

/-- `JSON.stringify(v, null, gap)`. -/
def pretty (gap : String) (v : Json) : String := String.ofList (prettyChars gap.toList ['\n'] v)

example : pretty "  " (.obj [("a", .arr [.null, .bool true]), ("b", .obj [])]) =
    "\x7b\n  \"a\": [\n    null,\n    true\n  ],\n  \"b\": \x7b\x7d\n\x7d" := by decide +kernel

/-! ### White space -/

/-- White space of the grammar. -/
def Blank (cs : List Char) : Prop :=
  ∀ c ∈ cs, (c = ' ' || c = '\t' || c = '\n' || c = '\r') = true

instance (cs : List Char) : Decidable (Blank cs) :=
  List.decidableBAll (fun c => (c = ' ' || c = '\t' || c = '\n' || c = '\r') = true) cs

theorem blank_append {cs ds : List Char} (hc : Blank cs) (hd : Blank ds) : Blank (cs ++ ds) :=
  List.forall_mem_append.mpr ⟨hc, hd⟩

theorem skipWhitespace_blank {ws : List Char} (h : Blank ws) (cs : List Char) :
    skipWhitespace (ws ++ cs) = skipWhitespace cs := by
  unfold skipWhitespace
  induction ws with
  | nil => rfl
  | cons c ws ih =>
    rw [List.cons_append, List.dropWhile_cons, if_pos (h c (List.mem_cons_self ..))]
    exact ih fun d hd => h d (List.mem_cons_of_mem _ hd)

theorem value_blank {ws : List Char} (h : Blank ws) (fuel : ℕ) (cs : List Char) :
    value fuel (ws ++ cs) = value fuel cs := by
  cases fuel with
  | zero => rfl
  | succ n => rw [value, value, skipWhitespace_blank h]

theorem members_blank {ws : List Char} (h : Blank ws) (fuel : ℕ) (acc : Json.Members)
    (cs : List Char) : members fuel acc (ws ++ cs) = members fuel acc cs := by
  cases fuel with
  | zero => rfl
  | succ n => rw [members, members, skipWhitespace_blank h]

theorem elements_blank {ws : List Char} (h : Blank ws) (fuel : ℕ) (cs : List Char) :
    elements fuel (ws ++ cs) = elements fuel cs := by
  cases fuel with
  | zero => rfl
  | succ n => rw [elements, elements, value_blank h]

theorem blank_endsNumber {ws : List Char} (h : Blank ws) {c : Char}
    (hc : c = ',' ∨ c = ']' ∨ c = '\x7d') (rest : List Char) : EndsNumber (ws ++ c :: rest) := by
  cases ws with
  | nil => exact endsNumber_cons hc rest
  | cons w ws =>
    intro d hd
    rw [← Option.some.inj hd]
    have hw := h w (List.mem_cons_self ..)
    simp only [Bool.or_eq_true, decide_eq_true_eq] at hw
    rcases hw with ((rfl | rfl) | rfl) | rfl <;> exact ⟨rfl, by decide, by decide, by decide⟩

/-! ### Brackets -/

theorem value_array_of {c : Char} {cs rest : List Char} (h : skipWhitespace rest = c :: cs)
    (hc : c ≠ ']') (fuel : ℕ) : value (fuel + 1) ('[' :: rest) =
      (elements fuel rest).map fun (es, rest) => (.arr es, rest) := by
  rw [value, skipWhitespace_cons rfl]
  split
  case h_5 rest' heq =>
    cases heq
    rw [h]
    split
    next heq => exact absurd (List.cons.inj heq).1 hc
    next => rfl
  case h_7 harray _ => exact absurd rfl (harray _)
  all_goals next heq => cases heq

theorem value_object_of {cs rest : List Char} (h : skipWhitespace rest = '"' :: cs) (fuel : ℕ) :
    value (fuel + 1) ('\x7b' :: rest) =
      (members fuel [] rest).map fun (ms, rest) => (.obj ms, rest) := by
  rw [value, skipWhitespace_cons rfl]
  split
  case h_6 rest' heq =>
    cases heq
    rw [h]
    rfl
  case h_7 hobject => exact absurd rfl (hobject _)
  all_goals next heq => cases heq

/-- The last element, up to the bracket on its own line. -/
theorem elements_close {fuel : ℕ} {cs ws rest : List Char} {e : Json} (hws : Blank ws)
    (h : value fuel cs = some (e, ws ++ ']' :: rest)) :
    elements (fuel + 1) cs = some ([e], rest) := by
  rw [elements, h, Option.bind_eq_bind, Option.bind_some]
  dsimp only
  rw [skipWhitespace_blank hws, skipWhitespace_cons rfl]
  rfl

/-! ### First characters -/

theorem bracketed_head (left right : Char) (gap margin : List Char) (texts : List (List Char)) :
    ∃ cs, bracketed left right gap margin texts = left :: cs := by
  unfold bracketed
  split
  · exact ⟨_, rfl⟩
  · exact ⟨_, rfl⟩

theorem prettyChars_head (gap margin : List Char) {v : Json} (hv : IsValue v) :
    ∃ c cs, prettyChars gap margin v = c :: cs ∧ BeginsValue c := by
  cases v with
  | arr elements =>
    obtain ⟨cs, hcs⟩ := bracketed_head '[' ']' gap margin (prettyElements gap (margin ++ gap) elements)
    exact ⟨'[', cs, by rw [prettyChars, hcs], rfl, by decide⟩
  | obj members =>
    obtain ⟨cs, hcs⟩ := bracketed_head '\x7b' '\x7d' gap margin
      ((ownOrder (prettyMembers gap (margin ++ gap) members)).map fun m =>
        quote m.1 ++ ':' :: ' ' :: m.2)
    exact ⟨'\x7b', cs, by rw [prettyChars, hcs], rfl, by decide⟩
  | null => exact stringifyChars_head hv
  | bool b => exact stringifyChars_head hv
  | num n => exact stringifyChars_head hv
  | str s => exact stringifyChars_head hv

theorem onLines_cons (margin text : List Char) (texts : List (List Char)) :
    ∃ cs, onLines margin (text :: texts) = text ++ cs := by
  cases texts with
  | nil => exact ⟨[], (List.append_nil _).symm⟩
  | cons text' texts => exact ⟨_, rfl⟩

theorem prettyMembers_eq (gap margin : List Char) (members : List (String × Json)) :
    prettyMembers gap margin members = members.map fun m => (m.1, prettyChars gap margin m.2) := by
  induction members with
  | nil => rfl
  | cons m ms ih =>
    rw [List.map_cons, ← ih]
    rfl

/-- The texts of the members on their lines, in the order of the object. -/
def prettyTexts (gap margin : List Char) (members : List (String × Json)) : List (List Char) :=
  members.map fun m => quote m.1 ++ ':' :: ' ' :: prettyChars gap margin m.2

theorem prettyChars_obj (gap margin : List Char) {members : List (String × Json)}
    (h : ownOrder members = members) : prettyChars gap margin (.obj members) =
      bracketed '\x7b' '\x7d' gap margin (prettyTexts gap (margin ++ gap) members) := by
  rw [prettyChars, prettyMembers_eq, ownOrder_map, h, List.map_map]
  rfl

/-! ### Values -/

section RoundTrip

variable {gap : List Char}

mutual
theorem value_pretty (v : Json) (hv : IsValue v) (hgap : Blank gap) {margin : List Char}
    (hmargin : Blank margin) {fuel : ℕ} (hfuel : (prettyChars gap margin v).length ≤ fuel)
    {rest : List Char} (hrest : EndsNumber rest) :
    value fuel (prettyChars gap margin v ++ rest) = some (v, rest) := by
  obtain ⟨c, cs, hhead, -⟩ := prettyChars_head gap margin hv
  obtain ⟨n, rfl⟩ : ∃ n, fuel = n + 1 := by
    rw [hhead, List.length_cons] at hfuel
    exact ⟨fuel - 1, by omega⟩
  have hinner : Blank (margin ++ gap) := blank_append hmargin hgap
  cases v with
  | null => rfl
  | bool b => cases b <;> rfl
  | num number => exact value_stringify _ hv hfuel hrest
  | str s => exact value_quote s n rest
  | arr es =>
    rw [prettyChars] at hfuel ⊢
    cases es with
    | nil => rfl
    | cons e es =>
      have hne : (prettyElements gap (margin ++ gap) (e :: es)).isEmpty = false := rfl
      obtain ⟨c, cs, hfirst, hc⟩ := prettyChars_head gap (margin ++ gap) hv.1
      obtain ⟨tail, htail⟩ := onLines_cons (margin ++ gap) (prettyChars gap (margin ++ gap) e)
        (prettyElements gap (margin ++ gap) es)
      have hstart : onLines (margin ++ gap) (prettyElements gap (margin ++ gap) (e :: es)) =
          c :: (cs ++ tail) := by
        rw [prettyElements, htail, hfirst, List.cons_append]
      simp only [bracketed, hne, Bool.false_eq_true, if_false, List.length_cons,
        List.length_append, List.length_nil] at hfuel
      have hread : elements n _ = _ :=
        elements_pretty (e :: es) (List.cons_ne_nil _ _) hv hgap hinner hmargin (by omega) rest
      have htext : bracketed '[' ']' gap margin (prettyElements gap (margin ++ gap) (e :: es)) ++ rest =
          '[' :: ((margin ++ gap) ++
            (onLines (margin ++ gap) (prettyElements gap (margin ++ gap) (e :: es)) ++
              (margin ++ ']' :: rest))) := by
        simp [bracketed, hne]
      have hskip : skipWhitespace ((margin ++ gap) ++
          (onLines (margin ++ gap) (prettyElements gap (margin ++ gap) (e :: es)) ++
            (margin ++ ']' :: rest))) = c :: (cs ++ tail ++ (margin ++ ']' :: rest)) := by
        rw [skipWhitespace_blank hinner, hstart, List.cons_append, skipWhitespace_cons hc.1]
      rw [htext, value_array_of hskip hc.2, elements_blank hinner, hread, Option.map_some]
  | obj ms =>
    obtain ⟨hnames, horder, hms⟩ := hv
    rw [prettyChars_obj gap margin horder] at hfuel ⊢
    cases ms with
    | nil => rfl
    | cons m ms =>
      have hne : (prettyTexts gap (margin ++ gap) (m :: ms)).isEmpty = false := rfl
      obtain ⟨tail, htail⟩ := onLines_cons (margin ++ gap)
        (quote m.1 ++ ':' :: ' ' :: prettyChars gap (margin ++ gap) m.2)
        (prettyTexts gap (margin ++ gap) ms)
      obtain ⟨cs, hstart⟩ : ∃ cs,
          onLines (margin ++ gap) (prettyTexts gap (margin ++ gap) (m :: ms)) = '"' :: cs :=
        ⟨_, htail⟩
      simp only [bracketed, hne, Bool.false_eq_true, if_false, List.length_cons,
        List.length_append, List.length_nil] at hfuel
      have hread : members n [] _ = _ :=
        members_pretty (m :: ms) (List.cons_ne_nil _ _) hms hgap hinner hmargin (by omega) []
          nofun hnames rest
      have htext : bracketed '\x7b' '\x7d' gap margin (prettyTexts gap (margin ++ gap) (m :: ms)) ++
          rest = '\x7b' :: ((margin ++ gap) ++
            (onLines (margin ++ gap) (prettyTexts gap (margin ++ gap) (m :: ms)) ++
              (margin ++ '\x7d' :: rest))) := by
        simp [bracketed, hne]
      have hskip : skipWhitespace ((margin ++ gap) ++
          (onLines (margin ++ gap) (prettyTexts gap (margin ++ gap) (m :: ms)) ++
            (margin ++ '\x7d' :: rest))) = '"' :: (cs ++ (margin ++ '\x7d' :: rest)) := by
        rw [skipWhitespace_blank hinner, hstart, List.cons_append, skipWhitespace_cons rfl]
      rw [htext, value_object_of hskip, members_blank hinner, hread, List.nil_append,
        Option.map_some]

theorem elements_pretty (es : List Json) (hne : es ≠ []) (hes : AllValues es) (hgap : Blank gap)
    {margin close : List Char} (hmargin : Blank margin) (hclose : Blank close) {fuel : ℕ}
    (hfuel : (onLines margin (prettyElements gap margin es)).length + 1 ≤ fuel)
    (rest : List Char) :
    elements fuel (onLines margin (prettyElements gap margin es) ++ (close ++ ']' :: rest)) =
      some (es, rest) := by
  obtain ⟨n, rfl⟩ : ∃ n, fuel = n + 1 := ⟨fuel - 1, by omega⟩
  cases es with
  | nil => exact absurd rfl hne
  | cons e es =>
    cases es with
    | nil =>
      have hlength : (prettyChars gap margin e).length ≤ n := Nat.le_of_succ_le_succ hfuel
      exact elements_close hclose (value_pretty e hes.1 hgap hmargin hlength
        (blank_endsNumber hclose (Or.inr (Or.inl rfl)) rest))
    | cons e' es =>
      have htext : onLines margin (prettyElements gap margin (e :: e' :: es)) =
          prettyChars gap margin e ++
            ',' :: (margin ++ onLines margin (prettyElements gap margin (e' :: es))) := rfl
      rw [htext, List.length_append, List.length_cons, List.length_append] at hfuel
      have hread : elements n _ = _ :=
        elements_pretty (e' :: es) (List.cons_ne_nil _ _) hes.2 hgap hmargin hclose (by omega) rest
      rw [← elements_blank hmargin] at hread
      rw [htext, List.append_assoc, List.cons_append, List.append_assoc]
      exact elements_more (value_pretty e hes.1 hgap hmargin (by omega)
        (endsNumber_cons (Or.inl rfl) _)) hread

theorem members_pretty (ms : List (String × Json)) (hne : ms ≠ []) (hms : MemberValues ms)
    (hgap : Blank gap) {margin close : List Char} (hmargin : Blank margin) (hclose : Blank close)
    {fuel : ℕ} (hfuel : (onLines margin (prettyTexts gap margin ms)).length + 1 ≤ fuel)
    (acc : Json.Members) (hacc : ∀ m ∈ acc, m.1 ∉ ms.map Prod.fst)
    (hnames : (ms.map Prod.fst).Nodup) (rest : List Char) :
    members fuel acc (onLines margin (prettyTexts gap margin ms) ++ (close ++ '\x7d' :: rest)) =
      some (acc ++ ms, rest) := by
  obtain ⟨n, rfl⟩ : ∃ n, fuel = n + 1 := ⟨fuel - 1, by omega⟩
  have hspace : Blank [' '] := by
    intro c hc
    rw [List.mem_singleton.mp hc]
    rfl
  cases ms with
  | nil => exact absurd rfl hne
  | cons m ms =>
    obtain ⟨name, v⟩ := m
    have hset : Json.set acc name v = acc ++ [(name, v)] :=
      set_append acc v fun m hm heq => hacc m hm (heq ▸ List.mem_cons_self ..)
    obtain ⟨hnew, hnames⟩ := List.nodup_cons.mp hnames
    cases ms with
    | nil =>
      have htext : onLines margin (prettyTexts gap margin [(name, v)]) =
          quote name ++ ':' :: ([' '] ++ prettyChars gap margin v) := rfl
      have hlength : (prettyChars gap margin v).length ≤ n := by
        simp only [htext, List.length_append, List.length_cons] at hfuel
        omega
      have hread := value_pretty v hms.1 hgap hmargin hlength
        (blank_endsNumber hclose (Or.inr (Or.inr rfl)) rest)
      rw [← value_blank hspace] at hread
      rw [htext, List.append_assoc, List.cons_append, List.append_assoc,
        members_member name acc hread, skipWhitespace_blank hclose, skipWhitespace_cons rfl, ← hset]
      rfl
    | cons m' ms =>
      have htext : onLines margin (prettyTexts gap margin ((name, v) :: m' :: ms)) =
          (quote name ++ ':' :: ([' '] ++ prettyChars gap margin v)) ++
            ',' :: (margin ++ onLines margin (prettyTexts gap margin (m' :: ms))) := rfl
      simp only [htext, List.length_append, List.length_cons] at hfuel
      have hread := value_pretty v hms.1 hgap hmargin
        (show (prettyChars gap margin v).length ≤ n by omega)
        (endsNumber_cons (Or.inl rfl) (margin ++ (onLines margin (prettyTexts gap margin (m' :: ms)) ++
          (close ++ '\x7d' :: rest))))
      rw [← value_blank hspace] at hread
      have hacc' : ∀ m ∈ Json.set acc name v, m.1 ∉ (m' :: ms).map Prod.fst := by
        rw [hset]
        refine List.forall_mem_append.mpr ⟨fun m hm hmem => ?_, ?_⟩
        · exact hacc m hm (List.mem_cons_of_mem _ hmem)
        · exact List.forall_mem_singleton.mpr hnew
      have hrest : members n (Json.set acc name v) _ = _ :=
        members_pretty (m' :: ms) (List.cons_ne_nil _ _) hms.2 hgap hmargin hclose (by omega) _
          hacc' hnames rest
      rw [← members_blank hmargin] at hrest
      have hwhole : onLines margin (prettyTexts gap margin ((name, v) :: m' :: ms)) ++
          (close ++ '\x7d' :: rest) = quote name ++ ':' :: ([' '] ++ (prettyChars gap margin v ++
            ',' :: (margin ++ (onLines margin (prettyTexts gap margin (m' :: ms)) ++
              (close ++ '\x7d' :: rest))))) := by
        simp [htext]
      rw [hwhole, members_member name acc hread, skipWhitespace_cons rfl]
      refine hrest.trans ?_
      rw [hset, List.append_assoc]
      rfl
end

/-- What was written with indentation, and with a line break at the end or not, is read back. -/
theorem parse_pretty {gap : String} (hgap : Blank gap.toList) {v : Json} (hv : IsValue v)
    {ending : String} (hending : Blank ending.toList) :
    parse (pretty gap v ++ ending) = some v := by
  have hline : Blank ['\n'] := by
    intro c hc
    rw [List.mem_singleton.mp hc]
    rfl
  have hend : EndsNumber ending.toList := by
    cases htext : ending.toList with
    | nil => exact nofun
    | cons c cs =>
      have hblank := hending
      rw [htext] at hblank
      intro d hd
      have hc := hblank c (List.mem_cons_self ..)
      rw [← Option.some.inj hd]
      simp only [Bool.or_eq_true, decide_eq_true_eq] at hc
      rcases hc with ((rfl | rfl) | rfl) | rfl <;> exact ⟨rfl, by decide, by decide, by decide⟩
  have hlength : (prettyChars gap.toList ['\n'] v).length ≤ (pretty gap v ++ ending).length + 1 := by
    rw [String.length_append, pretty, String.length_ofList]
    omega
  have hread := value_pretty v hv hgap hline hlength hend
  have htext : (pretty gap v ++ ending).toList = prettyChars gap.toList ['\n'] v ++ ending.toList := by
    rw [String.toList_append, pretty, String.toList_ofList]
  have hskip := skipWhitespace_blank hending []
  rw [List.append_nil] at hskip
  rw [parse, htext, hread]
  dsimp only
  rw [hskip]
  rfl

end RoundTrip

end VcCommonService.Lib.JsonText
