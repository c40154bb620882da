import VcCommonService.Auth.Scopes
import VcCommonService.Credential.Validators
import VcCommonService.Lib.Run
import VcCommonService.Lib.Select

/-!
# Credential definitions, statement by statement

`create` looks for an active definition of the same key, checks the schema and inserts. `update`
loads an active definition, changes it and saves it: the save reads the row again, whether active or
not, and writes the columns that differ from it. `delete` loads and then deactivates with one
`UPDATE`. Statements of different calls may alternate.
-/

namespace VcCommonService.Credentials
open Lib Auth
open Table (written)

/-! ### Entities -/

inductive CredentialDefinitionFormat where
  | anoncreds
  | sdJwt
  | mdl
  | w3cVc
  deriving Repr, DecidableEq

def CredentialDefinitionFormat.value : CredentialDefinitionFormat → String
  | .anoncreds => "anoncreds"
  | .sdJwt => "sd-jwt"
  | .mdl => "mdl"
  | .w3cVc => "w3c-vc"

inductive CredentialDefinitionConnectorType where
  | traction
  | credo
  deriving Repr, DecidableEq

structure CredentialDefinition where
  id : String
  tenantId : TenantId
  name : String
  format : CredentialDefinitionFormat
  schemaDefinition : Json.Members
  externalId : String
  connectorType : CredentialDefinitionConnectorType
  metadata : Option Json.Members
  isActive : Bool

structure CreateCredentialDefinitionDto where
  name : String
  format : CredentialDefinitionFormat
  schemaDefinition : Json.Members
  externalId : String
  connectorType : CredentialDefinitionConnectorType
  metadata : Option Json.Members

structure UpdateCredentialDefinitionDto where
  name : Js.Field String
  metadata : Js.Field Json.Members

inductive DefinitionError where
  | service (error : ServiceError)
  | tenantAccessDenied (denied : TenantAccessDenied)
  | invalidSchema (message : String) (issues : List FormatValidationIssue)
  | notImplemented (message : String)

/-! ### Format validation -/

def toPortCredentialFormat (format : CredentialDefinitionFormat) : Option CredentialFormat :=
  credentialFormats.find? fun value => decide (value.value = format.value)

def validateSchemaDefinition (format : CredentialDefinitionFormat)
    (schemaDefinition : Json.Members) : Except DefinitionError Unit :=
  match (toPortCredentialFormat format).bind resolve with
  | none => .ok ()
  | some validator =>
    match validator.validateSchema schemaDefinition with
    | .error message => .error (.notImplemented message)
    | .ok issues =>
      if issues.isEmpty then .ok ()
      else .error (.invalidSchema "Credential definition schema failed format validation" issues)

/-! ### The table -/

abbrev Definitions := List CredentialDefinition

def findById (db : Definitions) (id : String) : Option CredentialDefinition :=
  db.find? fun d => decide (d.id = id) && d.isActive

def hasKey (tenantId : TenantId) (name : String) (format : CredentialDefinitionFormat)
    (d : CredentialDefinition) : Bool :=
  decide (d.tenantId = tenantId) && (decide (d.name = name) && decide (d.format = format))

def findByTenantAndNameAndFormat (db : Definitions) (tenantId : TenantId) (name : String)
    (format : CredentialDefinitionFormat) : Option CredentialDefinition :=
  db.find? fun d => hasKey tenantId name format d && d.isActive

/-- `uq_credential_definition_tenant_name_format`, the unique index over active rows. -/
def violatesUnique (db : Definitions) (row : CredentialDefinition) : Bool :=
  row.isActive && db.any fun d =>
    decide (d.id ≠ row.id) && (hasKey row.tenantId row.name row.format d && d.isActive)

def deactivate (db : Definitions) (id : String) : Definitions :=
  Table.updateWhere (fun d => decide (d.id = id)) (fun d => { d with isActive := false }) db

def newDefinition (id : String) (tenantId : TenantId) (dto : CreateCredentialDefinitionDto) :
    CredentialDefinition :=
  { id := id
    tenantId := tenantId
    name := dto.name
    format := dto.format
    schemaDefinition := dto.schemaDefinition
    externalId := dto.externalId
    connectorType := dto.connectorType
    metadata := dto.metadata
    isActive := true }

/-- A `jsonb` column after a save. -/
def writtenJson (row entity current : Json.Members) : Json.Members :=
  if Json.deepCompare entity row then current else entity

def writtenJsonOrNull : Option Json.Members → Option Json.Members → Option Json.Members →
    Option Json.Members
  | none, none, current => current
  | some row, some entity, current => if Json.deepCompare entity row then current else some entity
  | _, entity, _ => entity

/-- The row `current` after the columns are written in which `entity` differs from `row`. -/
def writeDefinition (row entity current : CredentialDefinition) : CredentialDefinition :=
  { id := current.id
    tenantId := written row.tenantId entity.tenantId current.tenantId
    name := written row.name entity.name current.name
    format := written row.format entity.format current.format
    schemaDefinition :=
      writtenJson row.schemaDefinition entity.schemaDefinition current.schemaDefinition
    externalId := written row.externalId entity.externalId current.externalId
    connectorType := written row.connectorType entity.connectorType current.connectorType
    metadata := writtenJsonOrNull row.metadata entity.metadata current.metadata
    isActive := written row.isActive entity.isActive current.isActive }

/-! ### The service up to its writes -/

def notFoundMessage (id : String) : String := "Credential definition '" ++ id ++ "' was not found."

def liftService {α : Type} : Except ServiceError α → Except DefinitionError α
  | .ok a => .ok a
  | .error e => .error (.service e)

def findDefinition (db : Definitions) (tenantId : TenantId) (id : String)
    (auth : Option AuthContext) : Except DefinitionError CredentialDefinition :=
  match findById db id with
  | none => .error (.service (.notFound (notFoundMessage id)))
  | some d =>
    if d.tenantId ≠ tenantId then .error (.service (.notFound (notFoundMessage id)))
    else do
      liftService (assertResourceTenantOrNotFound auth d.tenantId (notFoundMessage id))
      return d

def checkCreate (db : Definitions) (tenantId : TenantId) (dto : CreateCredentialDefinitionDto)
    (auth : Option AuthContext) : Except DefinitionError Unit :=
  match assertTenantAccess auth tenantId with
  | .error denied => .error (.tenantAccessDenied denied)
  | .ok () =>
    match findByTenantAndNameAndFormat db tenantId dto.name dto.format with
    | some _ =>
      .error (.service (.conflict
        "Credential definition with this name and format already exists for this tenant."))
    | none => validateSchemaDefinition dto.format dto.schemaDefinition

/-- The assignments of `update`; `none` when the name became `null`. -/
def applyUpdate (dto : UpdateCredentialDefinitionDto) (d : CredentialDefinition) :
    Option CredentialDefinition :=
  (dto.name.assign d.name).map fun name =>
    { d with name := name, metadata := dto.metadata.assignNullable d.metadata }

/-! ### Calls -/

/-- Where a call is: not begun, about to insert, about to save, with the row that its save has
read, or about to deactivate. -/
inductive DefinitionCall where
  | ready
  | inserting (tenantId : TenantId) (dto : CreateCredentialDefinitionDto)
  | saving (entity : CredentialDefinition)
  | writing (entity row : CredentialDefinition)
  | deactivating (id : String)
  | done (result : Except DefinitionError (Option CredentialDefinition))

/-- `next` carries the id that the database draws for an inserted row. -/
inductive DefinitionEvent where
  | create (tenantId : TenantId) (dto : CreateCredentialDefinitionDto) (auth : Option AuthContext)
  | update (tenantId : TenantId) (id : String) (dto : UpdateCredentialDefinitionDto)
      (auth : Option AuthContext)
  | delete (tenantId : TenantId) (id : String) (auth : Option AuthContext)
  | next (newId : String)
  | abort (error : ServiceError)

def beginUpdate (dto : UpdateCredentialDefinitionDto) (d : CredentialDefinition) :
    DefinitionCall :=
  match applyUpdate dto d with
  | none => .done (.error (.service (.constraint "not_null")))
  | some entity => .saving entity

def uniqueIndex : DefinitionError :=
  .service (.constraint "uq_credential_definition_tenant_name_format")

/-- The `UPDATE` of a save. -/
def writeRow (db : Definitions) (entity row : CredentialDefinition) :
    Except DefinitionError Definitions :=
  match Table.lookup CredentialDefinition.id entity.id db with
  | none => .ok db
  | some current =>
    if violatesUnique db (writeDefinition row entity current) then .error uniqueIndex
    else .ok (Table.updateWhere (fun d => decide (d.id = entity.id)) (writeDefinition row entity) db)

def definitionAct (db : Definitions) :
    DefinitionCall → DefinitionEvent → Option (Definitions × DefinitionCall)
  | .ready, .create tenantId dto auth =>
    match checkCreate db tenantId dto auth with
    | .error e => some (db, .done (.error e))
    | .ok () => some (db, .inserting tenantId dto)
  | .ready, .update tenantId id dto auth =>
    match findDefinition db tenantId id auth with
    | .error e => some (db, .done (.error e))
    | .ok d => some (db, beginUpdate dto d)
  | .ready, .delete tenantId id auth =>
    match findDefinition db tenantId id auth with
    | .error e => some (db, .done (.error e))
    | .ok _ => some (db, .deactivating id)
  | .inserting tenantId dto, .next newId =>
    if db.any fun d => decide (d.id = newId) then none
    else if violatesUnique db (newDefinition newId tenantId dto) then
      some (db, .done (.error uniqueIndex))
    else some (db ++ [newDefinition newId tenantId dto],
      .done (.ok (newDefinition newId tenantId dto)))
  | .saving entity, .next _ =>
    -- no row is ever deleted
    (Table.lookup CredentialDefinition.id entity.id db).map fun row => (db, .writing entity row)
  | .writing entity row, .next _ =>
    match writeRow db entity row with
    | .error e => some (db, .done (.error e))
    | .ok db' => some (db', .done (.ok entity))
  | .deactivating id, .next _ => some (deactivate db id, .done (.ok none))
  | .inserting _ _, .abort e => some (db, .done (.error (.service e)))
  | .saving _, .abort e => some (db, .done (.error (.service e)))
  | .writing _ _, .abort e => some (db, .done (.error (.service e)))
  | .deactivating _, .abort e => some (db, .done (.error (.service e)))
  | _, _ => none

abbrev DefinitionWorld := Run.World Definitions DefinitionCall

def definitionStep : DefinitionWorld → ℕ × DefinitionEvent → Option DefinitionWorld :=
  Run.interleave definitionAct

def definitionStart (db : Definitions) : DefinitionWorld := ⟨db, fun _ => .ready⟩

/-! ### What a statement changes -/

inductive Change (db : Definitions) : DefinitionCall → Definitions → Prop where
  | quiet (pc : DefinitionCall) : Change db pc db
  | insert (tenantId : TenantId) (dto : CreateCredentialDefinitionDto) (newId : String)
      (hnew : ∀ d ∈ db, d.id ≠ newId) :
      Change db (.inserting tenantId dto) (db ++ [newDefinition newId tenantId dto])
  | write (entity row current : CredentialDefinition)
      (hcurrent : Table.lookup CredentialDefinition.id entity.id db = some current)
      (hfree : violatesUnique db (writeDefinition row entity current) = false) :
      Change db (.writing entity row)
        (Table.updateWhere (fun d => decide (d.id = entity.id)) (writeDefinition row entity) db)
  | deactivate (id : String) : Change db (.deactivating id) (deactivate db id)

section Steps

variable {db db' : Definitions} {pc pc' : DefinitionCall} {e : DefinitionEvent}

theorem change_writing {entity row : CredentialDefinition}
    (h : writeRow db entity row = .ok db') : Change db (.writing entity row) db' := by
  unfold writeRow at h
  split at h
  · cases h
    exact .quiet _
  next current hcurrent =>
    split at h
    · cases h
    next hfree =>
      cases h
      exact .write entity row current hcurrent (by simpa using hfree)

theorem change_of_act (h : definitionAct db pc e = some (db', pc')) : Change db pc db' := by
  unfold definitionAct at h
  split at h
  · split at h <;> cases h <;> exact .quiet _
  · split at h <;> cases h <;> exact .quiet _
  · split at h <;> cases h <;> exact .quiet _
  next tenantId dto newId =>
    split at h
    · cases h
    next hnew =>
      split at h
      · cases h
        exact .quiet _
      · cases h
        refine .insert tenantId dto newId fun d hd heq => hnew ?_
        exact List.any_eq_true.mpr ⟨d, hd, decide_eq_true heq⟩
  · obtain ⟨row, -, hrow⟩ := Option.map_eq_some_iff.mp h
    cases hrow
    exact .quiet _
  next entity row _ =>
    split at h
    · cases h
      exact .quiet _
    next hwrite =>
      cases h
      exact change_writing hwrite
  next id _ =>
    cases h
    exact .deactivate id
  all_goals cases h
  all_goals exact .quiet _

end Steps

/-! ### What the calls know about the rows -/

/-- The format and the schema of a row never change. -/
def Tracked (db : Definitions) (x : CredentialDefinition) : Prop :=
  ∃ d ∈ db, d.id = x.id ∧ d.format = x.format ∧ d.schemaDefinition = x.schemaDefinition

def CallTracked (db : Definitions) : DefinitionCall → Prop
  | .inserting _ dto => validateSchemaDefinition dto.format dto.schemaDefinition = .ok ()
  | .saving entity => entity.isActive = true ∧ Tracked db entity
  | .writing entity row =>
    entity.isActive = true ∧ row.id = entity.id ∧ Tracked db entity ∧ Tracked db row
  | _ => True

def UniqueIds (db : Definitions) : Prop := Table.UniqueKeys CredentialDefinition.id db

section Invariant

variable {db db' : Definitions} {pc pc' : DefinitionCall} {e : DefinitionEvent}

theorem findById_eq_some {id : String} {d : CredentialDefinition} (h : findById db id = some d) :
    d ∈ db ∧ d.id = id ∧ d.isActive = true := by
  have hd := List.find?_some h
  simp only [Bool.and_eq_true, decide_eq_true_eq] at hd
  exact ⟨List.mem_of_find?_eq_some h, hd⟩

theorem findDefinition_ok {tenantId : TenantId} {id : String} {auth : Option AuthContext}
    {d : CredentialDefinition} (h : findDefinition db tenantId id auth = .ok d) :
    findById db id = some d := by
  unfold findDefinition at h
  split at h
  · cases h
  next found hfound =>
    split at h
    · cases h
    · obtain ⟨-, -, hd⟩ := bind_eq_ok.mp h
      cases hd
      exact hfound

theorem checkCreate_ok {tenantId : TenantId} {dto : CreateCredentialDefinitionDto}
    {auth : Option AuthContext} (h : checkCreate db tenantId dto auth = .ok ()) :
    validateSchemaDefinition dto.format dto.schemaDefinition = .ok () := by
  unfold checkCreate at h
  split at h
  · cases h
  · split at h
    · cases h
    · exact h

/-- A save leaves the format and the schema as they are. -/
theorem writeDefinition_schema {row entity current : CredentialDefinition}
    (hentity : current.format = entity.format ∧ current.schemaDefinition = entity.schemaDefinition)
    (hrow : current.format = row.format ∧ current.schemaDefinition = row.schemaDefinition) :
    (writeDefinition row entity current).format = current.format ∧
      (writeDefinition row entity current).schemaDefinition = current.schemaDefinition := by
  simp [writeDefinition, written, writtenJson, ← hentity.1, ← hentity.2, ← hrow.1, ← hrow.2]

theorem Tracked.eq {x d : CredentialDefinition} (h : Tracked db x) (hu : UniqueIds db) (hd : d ∈ db)
    (hid : d.id = x.id) : d.format = x.format ∧ d.schemaDefinition = x.schemaDefinition := by
  obtain ⟨d', hd', hid', hsame⟩ := h
  rw [Table.eq_of_key hu hd hd' (hid.trans hid'.symm)]
  exact hsame

theorem tracked_updateWhere {p : CredentialDefinition → Bool}
    {f : CredentialDefinition → CredentialDefinition} {x : CredentialDefinition}
    (hid : ∀ d, (f d).id = d.id)
    (hf : ∀ d ∈ db, p d = true →
      (f d).format = d.format ∧ (f d).schemaDefinition = d.schemaDefinition)
    (h : Tracked db x) : Tracked (Table.updateWhere p f db) x := by
  obtain ⟨d, hd, hx, hsame⟩ := h
  refine ⟨if p d then f d else d, (Table.mem_updateWhere p f db _).mpr ⟨d, hd, rfl⟩, ?_⟩
  split
  next hp =>
    obtain ⟨hformat, hschema⟩ := hf d hd hp
    exact ⟨(hid d).trans hx, hformat.trans hsame.1, hschema.trans hsame.2⟩
  · exact ⟨hx, hsame⟩

theorem tracked_change {x : CredentialDefinition} (hu : UniqueIds db) (hcall : CallTracked db pc)
    (hchange : Change db pc db') (h : Tracked db x) : Tracked db' x := by
  cases hchange with
  | quiet => exact h
  | insert tenantId dto newId hnew =>
    obtain ⟨d, hd, hsame⟩ := h
    exact ⟨d, List.mem_append_left _ hd, hsame⟩
  | write entity row current hcurrent hfree =>
    obtain ⟨-, hid, hentity, hrow⟩ := hcall
    refine tracked_updateWhere (fun _ => rfl) (fun d hd hp => ?_) h
    have hd' : d.id = entity.id := of_decide_eq_true hp
    exact writeDefinition_schema (hentity.eq hu hd hd') (hrow.eq hu hd (hd'.trans hid.symm))
  | deactivate id => exact tracked_updateWhere (fun _ => rfl) (fun _ _ _ => ⟨rfl, rfl⟩) h

theorem uniqueIds_change (hu : UniqueIds db) (hchange : Change db pc db') : UniqueIds db' := by
  cases hchange with
  | quiet => exact hu
  | insert tenantId dto newId hnew => exact Table.uniqueKeys_append hu hnew
  | write entity row current hcurrent hfree =>
    exact Table.uniqueKeys_updateWhere (f := writeDefinition row entity) (fun _ => rfl) hu
  | deactivate id =>
    exact Table.uniqueKeys_updateWhere (f := fun d => { d with isActive := false })
      (fun _ => rfl) hu

theorem applyUpdate_tracked {dto : UpdateCredentialDefinitionDto} {d entity : CredentialDefinition}
    (h : applyUpdate dto d = some entity) :
    entity.id = d.id ∧ entity.isActive = d.isActive ∧ entity.format = d.format ∧
      entity.schemaDefinition = d.schemaDefinition := by
  obtain ⟨name, -, rfl⟩ := Option.map_eq_some_iff.mp h
  exact ⟨rfl, rfl, rfl, rfl⟩

theorem callTracked_own (hcall : CallTracked db pc) (hu : UniqueIds db)
    (h : definitionAct db pc e = some (db', pc')) : CallTracked db' pc' := by
  unfold definitionAct at h
  split at h
  · split at h
    · cases h
      trivial
    next hcheck =>
      cases h
      exact checkCreate_ok hcheck
  next tenantId id dto auth =>
    split at h
    · cases h
      trivial
    next d hfind =>
      cases h
      obtain ⟨hd, -, hactive⟩ := findById_eq_some (findDefinition_ok hfind)
      unfold beginUpdate
      split
      · trivial
      next entity hentity =>
        obtain ⟨hid, hsame, hformat, hschema⟩ := applyUpdate_tracked hentity
        exact ⟨hsame.trans hactive, d, hd, hid.symm, hformat.symm, hschema.symm⟩
  · split at h <;> cases h <;> trivial
  · split at h
    · cases h
    · split at h <;> cases h <;> trivial
  next entity _ =>
    obtain ⟨row, hlookup, hrow⟩ := Option.map_eq_some_iff.mp h
    cases hrow
    obtain ⟨hmem, hid⟩ := (Table.lookup_eq_some_iff hu).mp hlookup
    exact ⟨hcall.1, hid, hcall.2, row, hmem, rfl, rfl, rfl⟩
  · split at h <;> cases h <;> trivial
  all_goals cases h
  all_goals trivial

theorem callTracked_change {other : DefinitionCall} (hu : UniqueIds db) (hcall : CallTracked db pc)
    (hchange : Change db pc db') (h : CallTracked db other) : CallTracked db' other := by
  cases other with
  | inserting tenantId dto => exact h
  | saving entity => exact ⟨h.1, tracked_change hu hcall hchange h.2⟩
  | writing entity row =>
    obtain ⟨hactive, hid, hentity, hrow⟩ := h
    exact ⟨hactive, hid, tracked_change hu hcall hchange hentity,
      tracked_change hu hcall hchange hrow⟩
  | _ => trivial

end Invariant

theorem tracked_step {w w' : DefinitionWorld} {l : ℕ × DefinitionEvent}
    (hi : Run.Holds UniqueIds CallTracked w) (hs : definitionStep w l = some w') :
    Run.Holds UniqueIds CallTracked w' := by
  refine Run.holds_interleave (C := fun _ _ _ => True) ?_ ?_ hi hs trivial
  · intro db pc e db' pc' hu hcall ha _
    exact ⟨uniqueIds_change hu (change_of_act ha), callTracked_own hcall hu ha⟩
  · intro db pc e db' pc' other hu hcall hother ha _
    exact callTracked_change hu hcall (change_of_act ha) hother

theorem tracked_start {db : Definitions} (hu : UniqueIds db) :
    Run.Holds UniqueIds CallTracked (definitionStart db) :=
  ⟨hu, fun _ => trivial⟩

end VcCommonService.Credentials
