import VcCommonService.Audit.Log
import VcCommonService.Lib.Csv

/-!
# Export of the audit log (`AuditLogService.exportCsv`)

A field is quoted for a quote, a comma or a LF, but not for a CR. Three columns are texts that a CR can be
in; the metadata are JSON, where it is escaped.
-/

namespace VcCommonService.Audit
open Lib

def AuditActorType.name : AuditActorType → String
  | .user => "user"
  | .system => "system"
  | .client => "client"

def AuditAction.name : AuditAction → String
  | .issue => "issue"
  | .verify => "verify"
  | .hold => "hold"
  | .revoke => "revoke"
  | .create => "create"
  | .update => "update"
  | .delete => "delete"
  | .login => "login"
  | .tokenGrant => "token_grant"

/-- A spreadsheet would read the value as a formula. -/
def startsFormula (value : String) : Bool :=
  match value.toList with
  | [] => false
  | c :: _ => ['=', '+', '-', '@'].contains c

def neutralise (value : String) : String := if startsFormula value then "'" ++ value else value

@[irreducible] def csvEscape (value : String) : String :=
  let safe := neutralise value
  if safe.toList.any fun c => c = '"' || c = ',' || c = '\n' then
    String.ofList ('"' :: (Csv.doubled safe.toList ++ ['"']))
  else safe

/-- `date.toISOString()` -/
def isoOrThrow (createdAt : Timestamptz) : Except ServiceError String :=
  match Calendar.toISOString createdAt.toDate with
  | none => .error (.error "Invalid time value")
  | some text => .ok text

def columns : List (String × (AuditLog → Except ServiceError String)) :=
  [("id", fun row => .ok row.id.1),
    ("tenant_id", fun row => .ok row.tenantId.1),
    ("actor_id", fun row => .ok row.actorId),
    ("actor_type", fun row => .ok row.actorType.name),
    ("action", fun row => .ok row.action.name),
    ("resource_type", fun row => .ok row.resourceType),
    ("resource_id", fun row => .ok row.resourceId.1),
    ("operation_id", fun row => .ok ((row.operationId.map Subtype.val).getD "")),
    ("ip_address", fun row => .ok (row.ipAddress.getD "")),
    ("created_at", fun row => isoOrThrow row.createdAt),
    ("metadata", fun row => .ok (JsonText.stringify (.obj row.metadata)))]

def csvLine (row : AuditLog) : Except ServiceError String := do
  let values ← columns.mapM fun column => column.2 row
  return ",".intercalate (values.map csvEscape)

def toCsv (rows : List AuditLog) : Except ServiceError String := do
  let header := ",".intercalate (columns.map Prod.fst)
  let lines ← rows.mapM csvLine
  return "\n".intercalate (header :: lines)

def exportCsv (table : AuditTable) (tenantId : Uuid) (filters : AuditLogFilters) :
    Except ServiceError String :=
  toCsv (findForExport table tenantId filters auditLogExportMaxRows)

/-! ### What the texts stand for -/

def headers : List String := columns.map Prod.fst

/-- The row's values, with the text of its date. -/
def valuesOf (row : AuditLog) : List String :=
  [row.id.1, row.tenantId.1, row.actorId, row.actorType.name, row.action.name, row.resourceType,
    row.resourceId.1, (row.operationId.map Subtype.val).getD "", row.ipAddress.getD "",
    Calendar.isoText row.createdAt.floorMs, JsonText.stringify (.obj row.metadata)]

/-- What a spreadsheet should show for the row. -/
def csvRecord (row : AuditLog) : List String := (valuesOf row).map neutralise

theorem mem_neutralise {c : Char} (hc : c ≠ '\'') (value : String) :
    c ∈ (neutralise value).toList ↔ c ∈ value.toList := by
  unfold neutralise
  split
  · rw [String.toList_append, List.mem_append]
    exact or_iff_right fun h => hc (List.mem_singleton.mp h)
  · exact Iff.rfl

theorem csvEscape_cases (value : String) :
    (¬ Csv.Stray value.toList ∧ Csv.Writes (csvEscape value).toList (neutralise value)) ∨
      (Csv.Stray value.toList ∧ Csv.Stray (csvEscape value).toList) := by
  by_cases hquote : ∃ c ∈ (neutralise value).toList, c = '"' ∨ c = ',' ∨ c = '\n'
  · left
    have hany : ((neutralise value).toList.any fun c => c = '"' || c = ',' || c = '\n') = true := by
      simpa [or_assoc] using hquote
    obtain ⟨c, hc, hspecial⟩ := hquote
    constructor
    · rintro ⟨-, hplain⟩
      have hne : c ≠ '\'' := by rcases hspecial with rfl | rfl | rfl <;> decide
      obtain ⟨hcomma, hquote, hnewline⟩ := hplain c ((mem_neutralise hne value).mp hc)
      rcases hspecial with hc | hc | hc
      · exact hquote hc
      · exact hcomma hc
      · exact hnewline hc
    · have hwrites := Csv.Writes.quoted (neutralise value).toList
      rw [String.ofList_toList] at hwrites
      unfold csvEscape
      dsimp only
      rw [if_pos hany, String.toList_ofList]
      exact hwrites
  · have hany : ¬ ((neutralise value).toList.any fun c => c = '"' || c = ',' || c = '\n') = true := by
      simpa [or_assoc] using hquote
    have hescape : csvEscape value = neutralise value := by
      unfold csvEscape
      dsimp only
      rw [if_neg hany]
    have hplain : ∀ c ∈ (neutralise value).toList, c ≠ ',' ∧ c ≠ '"' ∧ c ≠ '\n' := fun c hc =>
      ⟨fun h => hquote ⟨c, hc, Or.inr (Or.inl h)⟩, fun h => hquote ⟨c, hc, Or.inl h⟩,
        fun h => hquote ⟨c, hc, Or.inr (Or.inr h)⟩⟩
    rw [hescape]
    by_cases hreturn : '\r' ∈ (neutralise value).toList
    · right
      refine ⟨⟨(mem_neutralise (by decide) value).mp hreturn, fun c hc => ?_⟩, hreturn, hplain⟩
      by_cases happostrophe : c = '\''
      · subst happostrophe
        decide
      · exact hplain c ((mem_neutralise happostrophe value).mpr hc)
    · left
      refine ⟨fun hstray => hreturn ((mem_neutralise (by decide) value).mpr hstray.1), ?_⟩
      have hwrites := Csv.Writes.plain (neutralise value).toList fun c hc => by
        obtain ⟨hcomma, hquote, hnewline⟩ := hplain c hc
        have hne : c ≠ '\r' := fun h => hreturn (h ▸ hc)
        simp [Csv.special, hcomma, hquote, hnewline, hne]
      rwa [String.ofList_toList] at hwrites

theorem not_stray_csvEscape {value : String} (h : '\r' ∉ value.toList) :
    ¬ Csv.Stray (csvEscape value).toList := by
  rcases csvEscape_cases value with ⟨-, hwrites⟩ | ⟨hstray, -⟩
  · exact hwrites.not_stray
  · exact absurd hstray.1 h

/-! ### Columns without a CR -/

theorem return_notMem_uuid (u : Uuid) : '\r' ∉ u.1.toList := by
  intro hmem
  have hu := u.2
  unfold isUuid at hu
  obtain ⟨-, hall⟩ := Bool.and_eq_true_iff.mp hu
  obtain ⟨i, hi, hget⟩ := List.mem_iff_getElem.mp hmem
  have hpair : ('\r', i) ∈ u.1.toList.zipIdx := by
    rw [List.mem_zipIdx_iff_getElem?, List.getElem?_eq_getElem hi, hget]
  have hchar := List.all_eq_true.mp hall _ hpair
  dsimp only at hchar
  unfold isUuidChar at hchar
  split at hchar <;> exact absurd hchar (by decide)

theorem return_notMem_stringify (v : Json) : '\r' ∉ (JsonText.stringify v).toList := by
  intro hmem
  rw [JsonText.stringify, String.toList_ofList] at hmem
  exact absurd (JsonText.printable_stringifyChars v '\r' hmem) (by decide)

theorem return_notMem_fixed (width n : ℕ) : '\r' ∉ Decimal.fixed width n := by
  intro hmem
  have hdigit := List.all_eq_true.mp (Decimal.all_fixed width n) '\r' hmem
  exact absurd hdigit (by decide)

theorem return_notMem_isoText (t : ℤ) : '\r' ∉ (Calendar.isoText t).toList := by
  have hyear : ∀ year, '\r' ∉ Calendar.yearText year := by
    intro year hmem
    unfold Calendar.yearText at hmem
    split at hmem
    · exact return_notMem_fixed _ _ hmem
    · rcases List.mem_cons.mp hmem with hsign | hmem
      · split at hsign <;> exact absurd hsign (by decide)
      · exact return_notMem_fixed _ _ hmem
  rw [Calendar.isoText, Calendar.isoParts, String.toList_ofList]
  simp [hyear, return_notMem_fixed]

/-! ### The file -/

/-- The texts of the file, each with what it stands for. -/
def headerFields : List (List Char × String) := headers.map fun h => (h.toList, h)

def fieldsOf (row : AuditLog) : List (List Char × String) :=
  (valuesOf row).map fun value => ((csvEscape value).toList, neutralise value)

theorem csvLine_eq {row : AuditLog} (h : Calendar.IsTime row.createdAt.floorMs) :
    csvLine row = .ok (",".intercalate ((valuesOf row).map csvEscape)) := by
  have htext : isoOrThrow row.createdAt = .ok (Calendar.isoText row.createdAt.floorMs) := by
    rw [isoOrThrow, Timestamptz.toDate, Calendar.timeClip_of_isTime h]
    rfl
  have hvalues : (columns.mapM fun column => column.2 row) = .ok (valuesOf row) := by
    unfold columns
    simp only [List.mapM_cons, List.mapM_nil, htext]
    rfl
  rw [csvLine, hvalues]
  rfl

theorem csvLine_error {row : AuditLog} (h : ¬ Calendar.IsTime row.createdAt.floorMs) :
    csvLine row = .error (.error "Invalid time value") := by
  have htext : isoOrThrow row.createdAt = .error (.error "Invalid time value") := by
    rw [isoOrThrow, Timestamptz.toDate, Calendar.timeClip, if_neg h]
    rfl
  have hvalues : (columns.mapM fun column => column.2 row) = .error (.error "Invalid time value") := by
    unfold columns
    simp only [List.mapM_cons, List.mapM_nil, htext]
    rfl
  rw [csvLine, hvalues]
  rfl

theorem toCsv_eq {rows : List AuditLog} (h : ∀ row ∈ rows, Calendar.IsTime row.createdAt.floorMs) :
    toCsv rows = .ok (String.ofList (Csv.fileText (headerFields :: rows.map fieldsOf))) := by
  have hlines := mapM_ok fun row hrow => csvLine_eq (h row hrow)
  unfold toCsv
  rw [hlines, ok_bind]
  refine congrArg Except.ok (String.toList_injective ?_)
  rw [String.toList_intercalate, String.toList_ofList, String.toList_ofList, Csv.fileText, List.map_cons,
    List.map_cons, List.map_map, List.map_map]
  have hheader : (",".intercalate (columns.map Prod.fst)).toList = Csv.lineText headerFields := by
    rw [String.toList_intercalate, Csv.lineText, headerFields, List.map_map]
    rfl
  have hline : ∀ row, (",".intercalate ((valuesOf row).map csvEscape)).toList =
      Csv.lineText (fieldsOf row) := by
    intro row
    rw [String.toList_intercalate, Csv.lineText, fieldsOf, List.map_map, List.map_map]
    rfl
  have hmap : rows.map (String.toList ∘ fun row => ",".intercalate ((valuesOf row).map csvEscape)) =
      rows.map (Csv.lineText ∘ fieldsOf) := List.map_congr_left fun row _ => hline row
  rw [hheader, hmap]

/-- The date is a valid one, and a CR in one of the texts does not stand there alone. -/
def Exportable (row : AuditLog) : Prop :=
  Calendar.IsTime row.createdAt.floorMs ∧
    ∀ value ∈ [row.actorId, row.resourceType, row.ipAddress.getD ""],
      '\r' ∈ value.toList → ∃ c ∈ value.toList, c = ',' ∨ c = '"' ∨ c = '\n'

theorem not_stray_iff (value : String) : ¬ Csv.Stray value.toList ↔
    ('\r' ∈ value.toList → ∃ c ∈ value.toList, c = ',' ∨ c = '"' ∨ c = '\n') := by
  unfold Csv.Stray
  push Not
  refine imp_congr_right fun _ => exists_congr fun c => and_congr_right fun _ => ?_
  exact ⟨fun h => or_iff_not_imp_left.mpr fun hcomma => or_iff_not_imp_left.mpr (h hcomma),
    fun h hcomma hquote => (h.resolve_left hcomma).resolve_left hquote⟩

theorem exportable_iff (row : AuditLog) : Exportable row ↔
    Calendar.IsTime row.createdAt.floorMs ∧ ∀ value ∈ valuesOf row, ¬ Csv.Stray value.toList := by
  have hplain : ∀ value : String, '\r' ∉ value.toList → ¬ Csv.Stray value.toList :=
    fun _ hreturn hstray => hreturn hstray.1
  refine and_congr_right fun _ => ?_
  constructor
  · intro h value hvalue
    simp only [valuesOf, List.mem_cons, List.not_mem_nil, or_false] at hvalue
    have htexts := fun v hv => (not_stray_iff v).mpr (h v hv)
    rcases hvalue with rfl | rfl | rfl | rfl | rfl | rfl | rfl | rfl | rfl | rfl | rfl
    · exact hplain _ (return_notMem_uuid _)
    · exact hplain _ (return_notMem_uuid _)
    · exact htexts _ (List.mem_cons_self ..)
    · exact hplain _ (by cases row.actorType <;> decide)
    · exact hplain _ (by cases row.action <;> decide)
    · exact htexts _ (List.mem_cons_of_mem _ (List.mem_cons_self ..))
    · exact hplain _ (return_notMem_uuid _)
    · cases row.operationId with
      | none => exact hplain _ (by decide)
      | some operationId => exact hplain _ (return_notMem_uuid operationId)
    · exact htexts _ (List.mem_cons_of_mem _ (List.mem_cons_of_mem _ (List.mem_cons_self ..)))
    · exact hplain _ (return_notMem_isoText _)
    · exact hplain _ (return_notMem_stringify _)
  · intro h value hvalue
    refine (not_stray_iff value).mp (h value ?_)
    simp only [List.mem_cons, List.not_mem_nil, or_false] at hvalue
    rcases hvalue with rfl | rfl | rfl <;> simp [valuesOf]

theorem isTime_of_toCsv {rows : List AuditLog} {text : String} (h : toCsv rows = .ok text) :
    ∀ row ∈ rows, Calendar.IsTime row.createdAt.floorMs := by
  intro row hrow
  obtain ⟨lines, hlines, -⟩ := bind_eq_ok.mp h
  obtain ⟨line, hline⟩ := ok_of_mapM hlines row hrow
  by_contra hinvalid
  rw [csvLine_error hinvalid] at hline
  cases hline

theorem writes_header {f : List Char × String} (h : f ∈ headerFields) : Csv.Writes f.1 f.2 := by
  obtain ⟨header, hheader, rfl⟩ := List.mem_map.mp h
  have hplain : headers.all (fun header => header.toList.all fun c => !Csv.special c) = true := by
    decide +kernel
  have hchars := List.all_eq_true.mp (List.all_eq_true.mp hplain header hheader)
  have hwrites := Csv.Writes.plain header.toList fun c hc => by simpa using hchars c hc
  rwa [String.ofList_toList] at hwrites

theorem length_fieldsOf (row : AuditLog) : (fieldsOf row).length = 11 := rfl

theorem getLast?_fieldsOf (row : AuditLog) : (fieldsOf row).getLast? =
    some ((csvEscape (JsonText.stringify (.obj row.metadata))).toList,
      neutralise (JsonText.stringify (.obj row.metadata))) := by
  have hlast : (valuesOf row).getLast? = some (JsonText.stringify (.obj row.metadata)) := rfl
  rw [fieldsOf, List.getLast?_map, hlast]
  rfl

theorem parse_fileText {rows : List AuditLog}
    (h : ∀ row ∈ rows, ∀ value ∈ valuesOf row, ¬ Csv.Stray value.toList) :
    Csv.parse (String.ofList (Csv.fileText (headerFields :: rows.map fieldsOf))) =
      some (headers :: rows.map csvRecord) := by
  have hlong : ∀ fields ∈ headerFields :: rows.map fieldsOf, 2 ≤ fields.length := by
    intro fields hfields
    rcases List.mem_cons.mp hfields with rfl | hfields
    · decide
    · obtain ⟨row, -, rfl⟩ := List.mem_map.mp hfields
      rw [length_fieldsOf]
      decide
  have hwrites : ∀ fields ∈ headerFields :: rows.map fieldsOf, ∀ f ∈ fields, Csv.Writes f.1 f.2 := by
    intro fields hfields f hf
    rcases List.mem_cons.mp hfields with rfl | hfields
    · exact writes_header hf
    · obtain ⟨row, hrow, rfl⟩ := List.mem_map.mp hfields
      obtain ⟨value, hvalue, rfl⟩ := List.mem_map.mp hf
      rcases csvEscape_cases value with ⟨-, hwrites⟩ | ⟨hstray, -⟩
      · exact hwrites
      · exact absurd hstray (h row hrow value hvalue)
  have hread := Csv.foldlM_file (List.cons_ne_nil _ _) hlong hwrites []
  have hheader : headerFields.map Prod.snd = headers := by
    rw [headerFields, List.map_map]
    exact List.map_id _
  have hrecord : ∀ row, (fieldsOf row).map Prod.snd = csvRecord row := fun row => List.map_map ..
  rw [Csv.parse, String.toList_ofList]
  refine hread.trans ?_
  rw [List.nil_append, List.map_cons, hheader, List.map_map]
  exact congrArg (fun records => some (headers :: records)) (List.map_congr_left fun row _ => hrecord row)

theorem parse_fileText_stray {rows : List AuditLog}
    (h : ∃ row ∈ rows, ∃ value ∈ valuesOf row, Csv.Stray value.toList) :
    Csv.parse (String.ofList (Csv.fileText (headerFields :: rows.map fieldsOf))) = none := by
  have hcases : ∀ fields ∈ headerFields :: rows.map fieldsOf, ∀ f ∈ fields,
      Csv.Writes f.1 f.2 ∨ Csv.Stray f.1 := by
    intro fields hfields f hf
    rcases List.mem_cons.mp hfields with rfl | hfields
    · exact Or.inl (writes_header hf)
    · obtain ⟨row, hrow, rfl⟩ := List.mem_map.mp hfields
      obtain ⟨value, hvalue, rfl⟩ := List.mem_map.mp hf
      exact (csvEscape_cases value).imp And.right And.right
  have hlast : ∀ fields ∈ headerFields :: rows.map fieldsOf, ∀ f ∈ fields.getLast?, ¬ Csv.Stray f.1 := by
    intro fields hfields f hf
    rcases List.mem_cons.mp hfields with rfl | hfields
    · exact (writes_header (List.mem_of_getLast? hf)).not_stray
    · obtain ⟨row, -, rfl⟩ := List.mem_map.mp hfields
      rw [getLast?_fieldsOf] at hf
      have hmetadata := not_stray_csvEscape (return_notMem_stringify (.obj row.metadata))
      rw [← Option.mem_some_iff.mp hf]
      dsimp only
      exact hmetadata
  have hne : ∀ fields ∈ headerFields :: rows.map fieldsOf, fields ≠ [] := by
    intro fields hfields
    rcases List.mem_cons.mp hfields with rfl | hfields
    · exact List.cons_ne_nil _ _
    · obtain ⟨row, -, rfl⟩ := List.mem_map.mp hfields
      exact List.cons_ne_nil _ _
  have hstray : ∃ fields ∈ headerFields :: rows.map fieldsOf, ∃ f ∈ fields, Csv.Stray f.1 := by
    obtain ⟨row, hrow, value, hvalue, hstray⟩ := h
    refine ⟨_, List.mem_cons_of_mem _ (List.mem_map_of_mem hrow), _, List.mem_map_of_mem hvalue, ?_⟩
    rcases csvEscape_cases value with ⟨hplain, -⟩ | ⟨-, hescaped⟩
    · exact absurd hstray hplain
    · exact hescaped
  have hnone := Csv.foldlM_stray_file hcases hlast hne hstray []
  rw [Csv.parse, String.toList_ofList, Csv.begin, hnone]
  rfl

theorem toCsv_readable_iff (rows : List AuditLog) :
    (∃ text, toCsv rows = .ok text ∧ Csv.parse text = some (headers :: rows.map csvRecord)) ↔
      ∀ row ∈ rows, Exportable row := by
  constructor
  · rintro ⟨text, htext, hparse⟩ row hrow
    have htime := isTime_of_toCsv htext
    rw [toCsv_eq htime] at htext
    obtain rfl := Except.ok.inj htext
    refine (exportable_iff row).mpr ⟨htime row hrow, fun value hvalue hstray => ?_⟩
    rw [parse_fileText_stray ⟨row, hrow, value, hvalue, hstray⟩] at hparse
    cases hparse
  · intro h
    have hrows := fun row hrow => (exportable_iff row).mp (h row hrow)
    exact ⟨_, toCsv_eq fun row hrow => (hrows row hrow).1, parse_fileText fun row hrow => (hrows row hrow).2⟩

/-- A reader of the grammar gets the header and a record for each row exactly if no exported row has
an invalid date or a CR that its field is not quoted for. -/
theorem audit_export_readable_iff (table : AuditTable) (tenantId : Uuid) (filters : AuditLogFilters) :
    (∃ text, exportCsv table tenantId filters = .ok text ∧
      Csv.parse text = some (headers ::
        (findForExport table tenantId filters auditLogExportMaxRows).map csvRecord)) ↔
      ∀ row ∈ findForExport table tenantId filters auditLogExportMaxRows, Exportable row :=
  toCsv_readable_iff _

def auditWithReturn : AuditLog := { auditAt Uuid.nil 1700000000000000 with actorId := "a\rb" }

def oneAudit (audit : AuditLog) : AuditTable := ⟨[audit], List.nodup_singleton _⟩

/-- An actor with a CR in the name; the file has a CR outside of quotes. -/
theorem audit_export_not_readable :
    ¬ ∀ (table : AuditTable) (tenantId : Uuid) (filters : AuditLogFilters),
      ∃ text, exportCsv table tenantId filters = .ok text ∧
        Csv.parse text = some (headers ::
          (findForExport table tenantId filters auditLogExportMaxRows).map csvRecord) := by
  intro h
  have hfound : findForExport (oneAudit auditWithReturn) Uuid.nil {} auditLogExportMaxRows =
      [auditWithReturn] := by
    decide +kernel
  have hexportable := (toCsv_readable_iff _).mp (h (oneAudit auditWithReturn) Uuid.nil {})
    auditWithReturn
  rw [hfound] at hexportable
  obtain ⟨c, hc, hquoted⟩ := (hexportable (List.mem_singleton_self _)).2 "a\rb"
    (List.mem_cons_self ..) (by decide)
  have hplain : "a\rb".toList.all (fun c => !decide (c = ',' ∨ c = '"' ∨ c = '\n')) = true := by decide
  have hfalse := List.all_eq_true.mp hplain c hc
  rw [decide_eq_true hquoted] at hfalse
  cases hfalse

end VcCommonService.Audit
