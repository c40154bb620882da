import Mathlib.Data.String.Basic

/-!
# CSV (RFC 4180)

A reader of a whole file, one character at a time. A field is in quotes, with each quote in it
doubled, or it has no comma, quote, CR or LF. Records end with LF or CRLF; the last one need not
end with either. A CR outside of quotes that no LF follows is an error.
-/

namespace VcCommonService.Lib.Csv

inductive Mode where
  | start
  | plain
  | quoted
  | closed
  | cr
  deriving Repr, DecidableEq

/-- What has been read, and of the current record and field. -/
structure Reader where
  mode : Mode
  field : List Char
  record : List String
  records : List (List String)

def begin : Reader := ⟨.start, [], [], []⟩

def Reader.endField (r : Reader) : Reader :=
  ⟨.start, [], r.record ++ [String.ofList r.field], r.records⟩

def Reader.endRecord (r : Reader) : Reader :=
  ⟨.start, [], [], r.records ++ [r.record ++ [String.ofList r.field]]⟩

/-- A character after a field. -/
def Reader.separate (r : Reader) (c : Char) : Option Reader :=
  if c = ',' then some r.endField
  else if c = '\n' then some r.endRecord
  else if c = '\r' then some { r with mode := .cr }
  else none

def Reader.unquoted (r : Reader) (c : Char) : Option Reader :=
  if c = '"' then none
  else (r.separate c).or (some { r with mode := .plain, field := r.field ++ [c] })

def step (r : Reader) (c : Char) : Option Reader :=
  match r.mode with
  | .start => if c = '"' then some { r with mode := .quoted } else r.unquoted c
  | .plain => r.unquoted c
  | .quoted =>
    if c = '"' then some { r with mode := .closed } else some { r with field := r.field ++ [c] }
  | .closed =>
    if c = '"' then some { r with mode := .quoted, field := r.field ++ [c] } else r.separate c
  | .cr => if c = '\n' then some r.endRecord else none

/-- What has been read at the end of the file; a line break at its end begins no record. -/
def Reader.finish (r : Reader) : Option (List (List String)) :=
  match r.mode with
  | .quoted => none
  | .cr => none
  | .start => if r.record = [] ∧ r.records ≠ [] then some r.records else some r.endRecord.records
  | .plain => some r.endRecord.records
  | .closed => some r.endRecord.records

def parse (text : String) : Option (List (List String)) :=
  (text.toList.foldlM step begin).bind Reader.finish

/-! ### Texts of a field -/

def special (c : Char) : Bool := c = ',' || c = '"' || c = '\n' || c = '\r'

/-- `value.replace(/"/g, '""')` -/
def doubled (cs : List Char) : List Char := cs.flatMap fun c => if c = '"' then ['"', '"'] else [c]

inductive Writes : List Char → String → Prop
  | plain (cs : List Char) (h : ∀ c ∈ cs, special c = false) : Writes cs (String.ofList cs)
  | quoted (cs : List Char) : Writes ('"' :: (doubled cs ++ ['"'])) (String.ofList cs)

/-- A CR that no grammar allows: nothing makes the writer quote the field. -/
def Stray (text : List Char) : Prop :=
  '\r' ∈ text ∧ ∀ c ∈ text, c ≠ ',' ∧ c ≠ '"' ∧ c ≠ '\n'

theorem Writes.not_stray {text : List Char} {value : String} (h : Writes text value) : ¬ Stray text := by
  rintro ⟨hreturn, hplain⟩
  cases h with
  | plain cs h => exact absurd (h '\r' hreturn) (by decide)
  | quoted cs => exact (hplain '"' (List.mem_cons_self ..)).2.1 rfl

/-- A field has been read up to its end. -/
structure Reader.Holds (r : Reader) (value : String) (record : List String)
    (records : List (List String)) : Prop where
  mode : r.mode = .start ∨ r.mode = .plain ∨ r.mode = .closed
  field : String.ofList r.field = value
  record : r.record = record
  records : r.records = records

namespace Reader.Holds

variable {r : Reader} {value : String} {record : List String} {records : List (List String)}

theorem step_comma (h : r.Holds value record records) :
    step r ',' = some ⟨.start, [], record ++ [value], records⟩ := by
  obtain ⟨hmode, rfl, rfl, rfl⟩ := h
  unfold step
  rcases hmode with hmode | hmode | hmode <;> rw [hmode] <;> rfl

theorem step_newline (h : r.Holds value record records) :
    step r '\n' = some ⟨.start, [], [], records ++ [record ++ [value]]⟩ := by
  obtain ⟨hmode, rfl, rfl, rfl⟩ := h
  unfold step
  rcases hmode with hmode | hmode | hmode <;> rw [hmode] <;> rfl

theorem finish_eq (h : r.Holds value record records) (hrecord : record ≠ []) :
    r.finish = some (records ++ [record ++ [value]]) := by
  obtain ⟨hmode, rfl, rfl, rfl⟩ := h
  unfold Reader.finish
  rcases hmode with hmode | hmode | hmode <;> rw [hmode]
  · exact if_neg fun hempty => hrecord hempty.1
  · rfl
  · rfl

end Reader.Holds

theorem foldlM_plain (cs : List Char) (h : ∀ c ∈ cs, special c = false) (r : Reader)
    (hmode : r.mode = .start ∨ r.mode = .plain) :
    ∃ mode, (mode = .start ∨ mode = .plain) ∧
      cs.foldlM step r = some { r with mode, field := r.field ++ cs } := by
  induction cs generalizing r with
  | nil => exact ⟨r.mode, hmode, by rw [List.append_nil]; rfl⟩
  | cons c cs ih =>
    have hc : special c = false := h c (List.mem_cons_self ..)
    have hcs : ∀ c ∈ cs, special c = false := fun c hc => h c (List.mem_cons_of_mem _ hc)
    simp only [special, Bool.or_eq_false_iff, decide_eq_false_iff_not] at hc
    obtain ⟨⟨⟨hcomma, hquote⟩, hnewline⟩, hreturn⟩ := hc
    have hstep : step r c = some { r with mode := .plain, field := r.field ++ [c] } := by
      unfold step Reader.unquoted Reader.separate
      rcases hmode with hmode | hmode <;>
        rw [hmode] <;> simp only [if_neg hcomma, if_neg hquote, if_neg hnewline, if_neg hreturn] <;> rfl
    obtain ⟨mode, hmode', hrest⟩ := ih hcs { r with mode := .plain, field := r.field ++ [c] } (Or.inr rfl)
    refine ⟨mode, hmode', ?_⟩
    rw [List.foldlM_cons, hstep]
    change cs.foldlM step _ = _
    rw [hrest, List.append_assoc]
    rfl

theorem foldlM_doubled (cs : List Char) (r : Reader) (hmode : r.mode = .quoted) (rest : List Char) :
    (doubled cs ++ rest).foldlM step r = rest.foldlM step { r with field := r.field ++ cs } := by
  induction cs generalizing r with
  | nil => rw [List.append_nil]; rfl
  | cons c cs ih =>
    have hcons : doubled (c :: cs) ++ rest =
        (if c = '"' then ['"', '"'] else [c]) ++ (doubled cs ++ rest) := List.append_assoc ..
    have hfield : r.field ++ c :: cs = r.field ++ [c] ++ cs := List.append_cons ..
    rw [hcons, hfield]
    have hrest := ih { r with field := r.field ++ [c] } hmode
    split
    next hquote =>
      subst hquote
      rw [← hrest]
      obtain ⟨mode, field, record, records⟩ := r
      obtain rfl : mode = .quoted := hmode
      rfl
    next hquote =>
      rw [← hrest, List.singleton_append, List.foldlM_cons]
      unfold step
      rw [hmode]
      dsimp only
      rw [if_neg hquote]
      rfl

theorem foldlM_writes {text : List Char} {value : String} (h : Writes text value)
    (record : List String) (records : List (List String)) :
    ∃ r, text.foldlM step ⟨.start, [], record, records⟩ = some r ∧ r.Holds value record records := by
  cases h with
  | plain cs hplain =>
    obtain ⟨mode, hmode, hread⟩ := foldlM_plain text hplain ⟨.start, [], record, records⟩ (Or.inl rfl)
    refine ⟨_, hread, ⟨?_, rfl, rfl, rfl⟩⟩
    exact hmode.imp id Or.inl
  | quoted cs =>
    refine ⟨⟨.closed, cs, record, records⟩, ?_, ⟨Or.inr (Or.inr rfl), rfl, rfl, rfl⟩⟩
    change (doubled cs ++ ['"']).foldlM step ⟨.quoted, [], record, records⟩ = _
    rw [foldlM_doubled cs _ rfl]
    rfl

/-- The reader stops at a stray CR, at the latest when the next field begins. -/
theorem foldlM_stray {text : List Char} (h : Stray text) (r : Reader)
    (hmode : r.mode = .start ∨ r.mode = .plain) {c : Char} (hc : c ≠ '\n') (rest : List Char) :
    (text ++ c :: rest).foldlM step r = none := by
  induction text generalizing r with
  | nil => cases h.1
  | cons d ds ih =>
    obtain ⟨hmem, hplain⟩ := h
    obtain ⟨hcomma, hquote, hnewline⟩ := hplain d (List.mem_cons_self ..)
    have hds : ∀ c ∈ ds, c ≠ ',' ∧ c ≠ '"' ∧ c ≠ '\n' := fun c hc => hplain c (List.mem_cons_of_mem _ hc)
    rw [List.cons_append, List.foldlM_cons]
    by_cases hreturn : d = '\r'
    · subst hreturn
      have hstep : step r '\r' = some { r with mode := .cr } := by
        unfold step
        rcases hmode with hmode | hmode <;> rw [hmode] <;> rfl
      rw [hstep]
      change (ds ++ c :: rest).foldlM step { r with mode := .cr } = none
      cases ds with
      | nil =>
        rw [List.nil_append, List.foldlM_cons]
        have hnone : step { r with mode := .cr } c = none := if_neg hc
        rw [hnone]
        rfl
      | cons e es =>
        rw [List.cons_append, List.foldlM_cons]
        have hnone : step { r with mode := .cr } e = none :=
          if_neg (hds e (List.mem_cons_self ..)).2.2
        rw [hnone]
        rfl
    · have hstep : step r d = some { r with mode := .plain, field := r.field ++ [d] } := by
        unfold step Reader.unquoted Reader.separate
        rcases hmode with hmode | hmode <;>
          rw [hmode] <;> simp only [if_neg hcomma, if_neg hquote, if_neg hnewline, if_neg hreturn] <;> rfl
      rw [hstep]
      refine ih ⟨?_, hds⟩ { r with mode := .plain, field := r.field ++ [d] } (Or.inr rfl)
      exact (List.mem_cons.mp hmem).resolve_left fun heq => hreturn heq.symm

/-! ### Files -/

/-- The fields of a record, each with the value that it stands for. -/
def lineText (fields : List (List Char × String)) : List Char := [','].intercalate (fields.map Prod.fst)

def fileText (rows : List (List (List Char × String))) : List Char :=
  ['\n'].intercalate (rows.map lineText)

theorem foldlM_line {fields : List (List Char × String)} (hne : fields ≠ [])
    (h : ∀ f ∈ fields, Writes f.1 f.2) (record : List String) (records : List (List String)) :
    ∃ r last, (lineText fields).foldlM step ⟨.start, [], record, records⟩ = some r ∧
      r.Holds last (record ++ (fields.dropLast.map Prod.snd)) records ∧
      fields.map Prod.snd = fields.dropLast.map Prod.snd ++ [last] := by
  induction fields generalizing record with
  | nil => exact absurd rfl hne
  | cons f fields ih =>
    obtain ⟨r, hread, hholds⟩ := foldlM_writes (h f (List.mem_cons_self ..)) record records
    cases fields with
    | nil =>
      refine ⟨r, f.2, ?_, ?_, rfl⟩
      · rw [lineText, List.map_singleton, List.intercalate_singleton]
        exact hread
      · rw [List.dropLast_singleton, List.map_nil, List.append_nil]
        exact hholds
    | cons f' fields =>
      obtain ⟨r', last, hread', hholds', hlast⟩ := ih (List.cons_ne_nil _ _)
        (fun f hf => h f (List.mem_cons_of_mem _ hf)) (record ++ [f.2])
      refine ⟨r', last, ?_, ?_, ?_⟩
      · have htext : lineText (f :: f' :: fields) = f.1 ++ ',' :: lineText (f' :: fields) := by
          rw [lineText, List.map_cons, List.map_cons, List.intercalate_cons_cons, List.append_assoc]
          rfl
        rw [htext, List.foldlM_append, hread]
        change ((',' :: lineText (f' :: fields)).foldlM step r) = _
        rw [List.foldlM_cons, hholds.step_comma]
        exact hread'
      · rw [List.dropLast_cons_cons, List.map_cons]
        rwa [List.append_assoc] at hholds'
      · rw [List.map_cons, hlast]
        rfl

theorem fileText_cons_cons (fields fields' : List (List Char × String))
    (rows : List (List (List Char × String))) :
    fileText (fields :: fields' :: rows) = lineText fields ++ '\n' :: fileText (fields' :: rows) := by
  rw [fileText, List.map_cons, List.map_cons, List.intercalate_cons_cons, List.append_assoc]
  rfl

/-- A file of records with two fields or more is read back. -/
theorem foldlM_file {rows : List (List (List Char × String))} (hne : rows ≠ [])
    (hlong : ∀ fields ∈ rows, 2 ≤ fields.length)
    (h : ∀ fields ∈ rows, ∀ f ∈ fields, Writes f.1 f.2) (records : List (List String)) :
    ((fileText rows).foldlM step ⟨.start, [], [], records⟩).bind Reader.finish =
      some (records ++ rows.map fun fields => fields.map Prod.snd) := by
  induction rows generalizing records with
  | nil => exact absurd rfl hne
  | cons fields rows ih =>
    have hlength := hlong fields (List.mem_cons_self ..)
    obtain ⟨r, last, hread, hholds, hlast⟩ := foldlM_line (List.ne_nil_of_length_pos (by omega))
      (h fields (List.mem_cons_self ..)) [] records
    rw [List.nil_append] at hholds
    cases rows with
    | nil =>
      have hinit : fields.dropLast.map Prod.snd ≠ [] := by
        intro hnil
        have hzero := congrArg List.length hnil
        rw [List.length_map, List.length_dropLast, List.length_nil] at hzero
        omega
      rw [fileText, List.map_singleton, List.intercalate_singleton, hread, Option.bind_some,
        hholds.finish_eq hinit, ← hlast, List.map_singleton]
    | cons fields' rows =>
      rw [fileText_cons_cons, List.foldlM_append, hread]
      change (('\n' :: fileText (fields' :: rows)).foldlM step r).bind Reader.finish = _
      rw [List.foldlM_cons, hholds.step_newline, ← hlast]
      change ((fileText (fields' :: rows)).foldlM step _).bind Reader.finish = _
      rw [ih (List.cons_ne_nil _ _) (fun f hf => hlong f (List.mem_cons_of_mem _ hf))
        (fun f hf => h f (List.mem_cons_of_mem _ hf)), List.append_assoc]
      rfl

theorem foldlM_stray_line {fields : List (List Char × String)}
    (h : ∀ f ∈ fields, Writes f.1 f.2 ∨ Stray f.1) (hstray : ∃ f ∈ fields.dropLast, Stray f.1)
    (record : List String) (records : List (List String)) (rest : List Char) :
    (lineText fields ++ rest).foldlM step ⟨.start, [], record, records⟩ = none := by
  induction fields generalizing record with
  | nil => obtain ⟨_, hmem, -⟩ := hstray; cases hmem
  | cons f fields ih =>
    cases fields with
    | nil => obtain ⟨_, hmem, -⟩ := hstray; cases hmem
    | cons f' fields =>
      have htext : lineText (f :: f' :: fields) ++ rest =
          f.1 ++ ',' :: (lineText (f' :: fields) ++ rest) := by
        rw [lineText, List.map_cons, List.map_cons, List.intercalate_cons_cons, List.append_assoc,
          List.append_assoc]
        rfl
      rw [htext]
      rcases h f (List.mem_cons_self ..) with hwrites | hf
      · obtain ⟨r, hread, hholds⟩ := foldlM_writes hwrites record records
        have hrest : ∃ f ∈ (f' :: fields).dropLast, Stray f.1 := by
          obtain ⟨g, hg, hgstray⟩ := hstray
          rw [List.dropLast_cons_cons] at hg
          rcases List.mem_cons.mp hg with rfl | hg
          · exact absurd hgstray hwrites.not_stray
          · exact ⟨g, hg, hgstray⟩
        rw [List.foldlM_append, hread]
        change ((',' :: (lineText (f' :: fields) ++ rest)).foldlM step r) = _
        rw [List.foldlM_cons, hholds.step_comma]
        exact ih (fun f hf => h f (List.mem_cons_of_mem _ hf)) hrest (record ++ [f.2])
      · exact foldlM_stray hf _ (Or.inl rfl) (by decide) _

/-- One stray CR before the last field of a record, and the file is not read at all. -/
theorem foldlM_stray_file {rows : List (List (List Char × String))}
    (h : ∀ fields ∈ rows, ∀ f ∈ fields, Writes f.1 f.2 ∨ Stray f.1)
    (hlast : ∀ fields ∈ rows, ∀ f ∈ fields.getLast?, ¬ Stray f.1) (hne : ∀ fields ∈ rows, fields ≠ [])
    (hstray : ∃ fields ∈ rows, ∃ f ∈ fields, Stray f.1) (records : List (List String)) :
    (fileText rows).foldlM step ⟨.start, [], [], records⟩ = none := by
  induction rows generalizing records with
  | nil => obtain ⟨_, hmem, -⟩ := hstray; cases hmem
  | cons fields rows ih =>
    have hfields := h fields (List.mem_cons_self ..)
    by_cases hfirst : ∃ f ∈ fields, Stray f.1
    · obtain ⟨f, hf, hstray⟩ := hfirst
      have hinit : ∃ f ∈ fields.dropLast, Stray f.1 := by
        refine ⟨f, ?_, hstray⟩
        have hend := hne fields (List.mem_cons_self ..)
        rw [← List.dropLast_append_getLast hend] at hf
        refine (List.mem_append.mp hf).resolve_right fun heq => ?_
        rw [List.mem_singleton.mp heq] at hstray
        exact hlast fields (List.mem_cons_self ..) _ (List.getLast?_eq_some_getLast hend) hstray
      cases rows with
      | nil =>
        rw [fileText, List.map_singleton, List.intercalate_singleton, ← List.append_nil (lineText fields)]
        exact foldlM_stray_line hfields hinit [] records []
      | cons fields' rows =>
        rw [fileText_cons_cons]
        exact foldlM_stray_line hfields hinit [] records _
    · have hwrites : ∀ f ∈ fields, Writes f.1 f.2 := fun f hf =>
        (hfields f hf).resolve_right fun hstray => hfirst ⟨f, hf, hstray⟩
      obtain ⟨g, hg, hgstray⟩ := hstray
      have hrows : g ∈ rows := by
        rcases List.mem_cons.mp hg with rfl | hrows
        · exact absurd hgstray hfirst
        · exact hrows
      cases rows with
      | nil => cases hrows
      | cons fields' rows =>
        obtain ⟨r, last, hread, hholds, -⟩ := foldlM_line (hne fields (List.mem_cons_self ..)) hwrites []
          records
        rw [fileText_cons_cons, List.foldlM_append, hread]
        change (('\n' :: fileText (fields' :: rows)).foldlM step r) = none
        rw [List.foldlM_cons, hholds.step_newline]
        exact ih (fun f hf => h f (List.mem_cons_of_mem _ hf))
          (fun f hf => hlast f (List.mem_cons_of_mem _ hf))
          (fun f hf => hne f (List.mem_cons_of_mem _ hf)) ⟨g, hrows, hgstray⟩ _

end VcCommonService.Lib.Csv
