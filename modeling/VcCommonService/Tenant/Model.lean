import VcCommonService.Auth.Scopes
import VcCommonService.Lib.Json
import VcCommonService.Lib.Run
import VcCommonService.Lib.Table

/-!
# Tenants (`tenant.service.ts`, `tenant.repository.ts`)

`TenantService.update`, `updateConfig` and `updateStatus` on one tenant row, each a
sequence of database steps. `save` reads the row once more and then writes the columns in
which the entity differs from it; in `updateStatus` the write is in one transaction with the
`tenant.status-change` job, so nobody sees one without the other.
-/

namespace VcCommonService.Tenants
open Lib Auth
open Table (written written_self)

inductive TenantStatus where
  | active
  | pendingApproval
  | rejected
  | suspended
  | deactivated
  deriving Repr, DecidableEq

def TenantStatus.name : TenantStatus → String
  | .active => "active"
  | .pendingApproval => "pending_approval"
  | .rejected => "rejected"
  | .suspended => "suspended"
  | .deactivated => "deactivated"

def allowedStatusTransitions : TenantStatus → List TenantStatus
  | .active => [.suspended, .deactivated]
  | .suspended => [.active, .deactivated]
  | .deactivated => [.active]
  | .pendingApproval => []
  | .rejected => []

structure Tenant where
  id : TenantId
  name : String
  slug : String
  description : Option String
  status : TenantStatus
  config : Json.Members
  deactivatedAt : Option Time

structure ConnectorCredential where
  id : String
  tenantId : TenantId
  active : Bool
  deriving Repr, DecidableEq

structure TenantStatusChangeJobData where
  tenantId : TenantId
  previousStatus : TenantStatus
  status : TenantStatus
  deriving Repr, DecidableEq

structure TenantConfigChangeJobData where
  tenantId : TenantId
  config : Json.Members

structure UpdateTenantDto where
  name : Js.Field String := .undefined
  description : Js.Field String := .undefined
  config : Js.Field Json.Members := .undefined

structure UpdateTenantConfigDto where
  allowedFormats : Js.Field (List String) := .undefined
  defaultConnector : Js.Field String := .undefined
  features : Js.Field Json.Members := .undefined

/-! ### Pure parts of the service -/

def findByIdMessage : String := "Tenant not found"

/-- The assignments of `update`; `none` when a `NOT NULL` column became `null`. -/
def applyUpdate (dto : UpdateTenantDto) (tenant : Tenant) : Option Tenant := do
  let name ← dto.name.assign tenant.name
  let config ← dto.config.assign tenant.config
  return { tenant with name, config, description := dto.description.assignNullable tenant.description }

def setIfDefined {α : Type} (config : Json.Members) (key : String) (toJson : α → Json) :
    Js.Field α → Json.Members
  | .undefined => config
  | .null => Json.set config key .null
  | .value a => Json.set config key (toJson a)

def mergeConfig (dto : UpdateTenantConfigDto) (config : Json.Members) : Json.Members :=
  let config := setIfDefined config "allowed_formats" (fun fs => .arr (fs.map .str))
    dto.allowedFormats
  let config := setIfDefined config "default_connector" .str dto.defaultConnector
  setIfDefined config "features" .obj dto.features

def setting {α : Type} (key : String) (toJson : α → Json) : Js.Field α → Json.Members
  | .undefined => []
  | .null => [(key, .null)]
  | .value a => [(key, toJson a)]

/-- The keys that a request sets, with their values. -/
def settings (dto : UpdateTenantConfigDto) : Json.Members :=
  setting "allowed_formats" (fun fs => .arr (fs.map .str)) dto.allowedFormats ++
    setting "default_connector" .str dto.defaultConnector ++
    setting "features" .obj dto.features

def keysOf (dto : UpdateTenantConfigDto) : List String := (settings dto).map Prod.fst

theorem read_setIfDefined {α : Type} (config : Json.Members) (key : String) (toJson : α → Json)
    (field : Js.Field α) :
    (∀ s ∈ setting key toJson field,
      Json.read (setIfDefined config key toJson field) s.1 = some (Json.canon s.2)) ∧
    ∀ k, k ∉ (setting key toJson field).map Prod.fst →
      Json.read (setIfDefined config key toJson field) k = Json.read config k := by
  cases field with
  | undefined => simp [setting, setIfDefined]
  | null =>
    simp only [setting, setIfDefined, Json.read_set]
    simp +contextual
  | value a =>
    simp only [setting, setIfDefined, Json.read_set]
    simp +contextual

theorem key_of_mem_setting {α : Type} {key : String} {toJson : α → Json} {field : Js.Field α}
    {k : String} (h : k ∈ (setting key toJson field).map Prod.fst) : k = key := by
  cases field with
  | undefined => simp [setting] at h
  | null => simpa [setting] using h
  | value a => simpa [setting] using h

theorem read_mergeConfig_other (dto : UpdateTenantConfigDto) (config : Json.Members)
    {key : String} (h : key ∉ keysOf dto) :
    Json.read (mergeConfig dto config) key = Json.read config key := by
  simp only [keysOf, settings, List.map_append, List.mem_append, not_or] at h
  obtain ⟨⟨hformats, hconnector⟩, hfeatures⟩ := h
  rw [mergeConfig, (read_setIfDefined _ _ _ _).2 _ hfeatures,
    (read_setIfDefined _ _ _ _).2 _ hconnector, (read_setIfDefined _ _ _ _).2 _ hformats]

theorem read_mergeConfig_set (dto : UpdateTenantConfigDto) (config : Json.Members) :
    ∀ s ∈ settings dto, Json.read (mergeConfig dto config) s.1 = some (Json.canon s.2) := by
  intro s hs
  have hother : ∀ {α : Type} (key : String) (toJson : α → Json) (field : Js.Field α),
      s.1 ≠ key → s.1 ∉ (setting key toJson field).map Prod.fst :=
    fun _ _ _ hne hmem => hne (key_of_mem_setting hmem)
  simp only [settings, List.mem_append] at hs
  rcases hs with (hs | hs) | hs
  · have hkey : s.1 = "allowed_formats" := key_of_mem_setting (List.mem_map_of_mem hs)
    rw [mergeConfig, (read_setIfDefined _ _ _ _).2 _ (hother _ _ _ (by rw [hkey]; decide)),
      (read_setIfDefined _ _ _ _).2 _ (hother _ _ _ (by rw [hkey]; decide))]
    exact (read_setIfDefined _ _ _ _).1 s hs
  · have hkey : s.1 = "default_connector" := key_of_mem_setting (List.mem_map_of_mem hs)
    rw [mergeConfig, (read_setIfDefined _ _ _ _).2 _ (hother _ _ _ (by rw [hkey]; decide))]
    exact (read_setIfDefined _ _ _ _).1 s hs
  · exact (read_setIfDefined _ _ _ _).1 s hs

/-- `ConnectorCredentialService.findById` on what its read returned, and the two checks
`updateConfig` makes on the credential. -/
def checkConnector (tenant : Tenant) (auth : Option AuthContext) (connectorId : String)
    (found : Option ConnectorCredential) : Except ServiceError Unit := do
  let message := "Connector credential with ID '" ++ connectorId ++ "' was not found."
  match found with
  | none => throw (.notFound message)
  | some credential =>
    assertResourceTenantOrNotFound auth credential.tenantId message
    if credential.tenantId ≠ tenant.id then
      throw (.conflict "default_connector does not belong to this tenant")
    if !credential.active then
      throw (.conflict "default_connector is not active")

def applyStatus (tenant : Tenant) (status : TenantStatus) (now : Time) :
    Except ServiceError Tenant :=
  if status ∈ allowedStatusTransitions tenant.status then
    .ok { tenant with
      status
      deactivatedAt := if status = .deactivated then some now else none }
  else .error (.conflict
    ("Cannot transition tenant from '" ++ tenant.status.name ++ "' to '" ++ status.name ++ "'"))

/-! ### `save` as a read and a write -/

/-- The row `current` after the columns are written in which `entity` differs from `row`. -/
def writeColumns (row entity current : Tenant) : Tenant :=
  { id := current.id
    name := written row.name entity.name current.name
    slug := written row.slug entity.slug current.slug
    description := written row.description entity.description current.description
    status := written row.status entity.status current.status
    config := if Json.deepCompare entity.config row.config then current.config else entity.config
    deactivatedAt := written row.deactivatedAt entity.deactivatedAt current.deactivatedAt }

/-- With nobody in between, a save stores the entity. -/
theorem writeColumns_self {row entity : Tenant} (hid : entity.id = row.id) :
    { writeColumns row entity row with config := entity.config } = entity ∧
      ∀ key, Json.read (writeColumns row entity row).config key = Json.read entity.config key := by
  constructor
  · cases entity
    simp only [writeColumns, written_self, ← hid]
  · intro key
    simp only [writeColumns]
    split
    next h => exact (Json.read_of_deepCompare h key).symm
    · rfl

/-! ### Calls -/

structure Store where
  tenant : Tenant
  statusJobs : List TenantStatusChangeJobData
  configJobs : List TenantConfigChangeJobData

/-- What follows the save: nothing, the job of `updateStatus` in the same transaction,
or the publication of `updateConfig` after it. -/
inductive AfterSave where
  | nothing
  | statusJob (previousStatus status : TenantStatus)
  | publishConfig
  deriving Repr, DecidableEq

/-- Where a call is: not begun, waiting for the connector, about to save, with the row that its
save has read, or after the save. -/
inductive Call where
  | idle
  | checkingConnector (loaded : Tenant) (dto : UpdateTenantConfigDto) (auth : Option AuthContext)
      (connectorId : String)
  | saving (loaded : Tenant) (entity : Option Tenant) (after : AfterSave)
  | writing (loaded entity row : Tenant) (after : AfterSave)
  | publishing (saved : Tenant)
  | done (result : Except ServiceError Tenant)

inductive Event where
  | update (id : TenantId) (dto : UpdateTenantDto)
  | updateConfig (id : TenantId) (dto : UpdateTenantConfigDto) (auth : Option AuthContext)
  | updateStatus (id : TenantId) (status : TenantStatus) (now : Time)
  | connector (found : Option ConnectorCredential)
  | next
  | abort (error : ServiceError)

def findById (db : Store) (id : TenantId) : Option Tenant :=
  if db.tenant.id = id then some db.tenant else none

def withTenant (db : Store) (id : TenantId) (k : Tenant → Call) : Call :=
  match findById db id with
  | none => .done (.error (.notFound findByIdMessage))
  | some tenant => k tenant

def saveConfig (loaded : Tenant) (dto : UpdateTenantConfigDto) : Call :=
  .saving loaded (some { loaded with config := mergeConfig dto loaded.config }) .publishConfig

def beginUpdateConfig (dto : UpdateTenantConfigDto) (auth : Option AuthContext)
    (tenant : Tenant) : Call :=
  match dto.defaultConnector with
  | .value connectorId => .checkingConnector tenant dto auth connectorId
  | _ => saveConfig tenant dto

def beginUpdateStatus (status : TenantStatus) (now : Time) (tenant : Tenant) : Call :=
  match applyStatus tenant status now with
  | .error e => .done (.error e)
  | .ok entity => .saving tenant (some entity) (.statusJob tenant.status status)

/-- The `SELECT` of a save; an entity that lacks a `NOT NULL` column is refused after it. -/
def readRow (db : Store) (loaded : Tenant) (after : AfterSave) : Option Tenant → Call
  | none => .done (.error (.constraint "not_null"))
  | some entity => .writing loaded entity db.tenant after

/-- The `UPDATE` of a save, for `updateStatus` with the job and the `COMMIT`: until then nobody
sees the new row, and nobody else can write it. -/
def runSave (db : Store) (entity row : Tenant) : AfterSave → Store × Call
  | .nothing => ({ db with tenant := writeColumns row entity db.tenant }, .done (.ok entity))
  | .publishConfig => ({ db with tenant := writeColumns row entity db.tenant }, .publishing entity)
  | .statusJob previousStatus status =>
    ({ db with
        tenant := writeColumns row entity db.tenant
        statusJobs := db.statusJobs ++ [⟨entity.id, previousStatus, status⟩] },
      .done (.ok entity))

/-- One statement of one call. A failed publication is only logged. -/
def act (db : Store) : Call → Event → Option (Store × Call)
  | .idle, .update id dto =>
    some (db, withTenant db id fun tenant => .saving tenant (applyUpdate dto tenant) .nothing)
  | .idle, .updateConfig id dto auth => some (db, withTenant db id (beginUpdateConfig dto auth))
  | .idle, .updateStatus id status now =>
    some (db, withTenant db id (beginUpdateStatus status now))
  | .checkingConnector loaded dto auth connectorId, .connector found =>
    match checkConnector loaded auth connectorId found with
    | .error e => some (db, .done (.error e))
    | .ok () => some (db, saveConfig loaded dto)
  | .saving loaded entity after, .next => some (db, readRow db loaded after entity)
  | .writing _ entity row after, .next => some (runSave db entity row after)
  | .publishing saved, .next =>
    some ({ db with configJobs := db.configJobs ++ [⟨saved.id, saved.config⟩] },
      .done (.ok saved))
  | .publishing saved, .abort _ => some (db, .done (.ok saved))
  | .checkingConnector _ _ _ _, .abort e => some (db, .done (.error e))
  | .saving _ _ _, .abort e => some (db, .done (.error e))
  | .writing _ _ _ _, .abort e => some (db, .done (.error e))
  | _, _ => none

abbrev World := Run.World Store Call

def step : World → ℕ × Event → Option World := Run.interleave act

end VcCommonService.Tenants
