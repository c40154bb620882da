import VcCommonService.Audit.Log
import VcCommonService.Auth.Token
import VcCommonService.Connector.Service
import VcCommonService.Lib.Run
import VcCommonService.Lib.Uuid
import VcCommonService.Tenant.Cascade
import VcCommonService.Tenant.ReservedConfig

/-!
# Connections (`connection.service.ts`)

Calls of several tenants over one table, statement by statement. A save reads the row and then
writes the columns in which the entity differs from it, or inserts the entity where it finds no
row.
-/

namespace VcCommonService.Connections

open Lib Auth Tenants Connectors Audit

inductive ConnectionProtocol where
  | didcommV1
  | didcommV2
  | openid4vc
  deriving Repr, DecidableEq

structure Connection where
  id : Uuid
  tenantId : TenantId
  externalConnectionId : String
  theirLabel : Option String
  theirDid : Option String
  state : ConnectionState
  connectorType : ConnectorType
  protocol : ConnectionProtocol
  metadata : Json.Members
  createdAt : Time
  deriving DecidableEq

structure CreateConnectionDto where
  tenantId : TenantId
  externalConnectionId : String
  theirLabel : Js.Field String
  theirDid : Js.Field String
  state : ConnectionState
  connectorType : ConnectorType
  protocol : ConnectionProtocol
  metadata : Js.Field Json.Members

structure UpdateConnectionDto where
  theirLabel : Js.Field String
  theirDid : Js.Field String
  state : Js.Field ConnectionState
  protocol : Js.Field ConnectionProtocol
  metadata : Js.Field Json.Members

/-! ### `ConnectionRepository` -/

def findById (connections : List Connection) (id : Uuid) : Option Connection :=
  connections.find? fun c => decide (c.id = id)

def findByExternalConnectionId (connections : List Connection) (externalConnectionId : String) :
    Option Connection :=
  connections.find? fun c => decide (c.externalConnectionId = externalConnectionId)

def findByTenantId (connections : List Connection) (tenantId : TenantId) : List Connection :=
  Table.orderBy Connection.createdAt (connections.filter fun c => decide (c.tenantId = tenantId))

def findByTenantIdAndState (connections : List Connection) (tenantId : TenantId)
    (state : ConnectionState) : List Connection :=
  Table.orderBy Connection.createdAt
    (connections.filter fun c => decide (c.tenantId = tenantId ∧ c.state = state))

/-- The primary key and the index on the external identifier. -/
def checkUnique (connections : List Connection) (row : Connection) : Except ServiceError Unit :=
  if connections.any fun c => decide (c.id = row.id) then .error (.constraint "connection_pkey")
  else if connections.any fun c => decide (c.externalConnectionId = row.externalConnectionId) then
    .error (.constraint "idx_connection_external_connection_id")
  else .ok ()

def insert (connections : List Connection) (row : Connection) :
    Except ServiceError (List Connection) :=
  (checkUnique connections row).map fun _ => connections ++ [row]

/-- A `jsonb` column counts as changed where the values differ. -/
def writtenJson (row entity current : Json.Members) : Json.Members :=
  if Json.deepCompare entity row then current else entity

open Table (written) in
/-- The columns of `current` after those are written in which `entity` differs from `row`. -/
def writeColumns (row entity current : Connection) : Connection :=
  { id := current.id
    tenantId := written row.tenantId entity.tenantId current.tenantId
    externalConnectionId := written row.externalConnectionId entity.externalConnectionId
      current.externalConnectionId
    theirLabel := written row.theirLabel entity.theirLabel current.theirLabel
    theirDid := written row.theirDid entity.theirDid current.theirDid
    state := written row.state entity.state current.state
    connectorType := written row.connectorType entity.connectorType current.connectorType
    protocol := written row.protocol entity.protocol current.protocol
    metadata := writtenJson row.metadata entity.metadata current.metadata
    createdAt := written row.createdAt entity.createdAt current.createdAt }

def update (connections : List Connection) (row entity : Connection) :
    Except ServiceError (List Connection) :=
  match findById connections entity.id with
  | none => .ok connections
  | some current =>
    let changed := writeColumns row entity current
    if connections.any fun c => decide (c.id ≠ current.id ∧
        c.externalConnectionId = changed.externalConnectionId) then
      .error (.constraint "idx_connection_external_connection_id")
    else .ok (Table.updateWhere (fun c => decide (c.id = entity.id)) (fun _ => changed) connections)

def abandonAllForTenant (connections : List Connection) (tenantId : TenantId) : List Connection :=
  Table.updateWhere
    (fun c => decide (c.tenantId = tenantId ∧ c.state ≠ .completed ∧ c.state ≠ .abandoned))
    (fun c => { c with state := .abandoned }) connections

/-! ### `ConnectionService`, `ConnectionController` -/

inductive Request where
  | create (dto : CreateConnectionDto)
  | findById (id : Uuid)
  | findByExternalConnectionId (externalConnectionId : String)
  | findByTenantId (tenantId : Uuid) (state : Option ConnectionState)
  | update (id : Uuid) (dto : UpdateConnectionDto)
  | delete (id : Uuid)

inductive Response where
  | connection (c : Connection)
  | connections (cs : List Connection)
  | deleted
  | abandoned (count : ℕ)
  | guarded (e : GuardException)
  | notActive (e : RouteError)
  | throttled (retryAfter : ℤ)
  | thrown (e : ServiceError)

/-- `audit.write`, as `DomainAuditService.emit` enqueues it. -/
structure AuditJob where
  tenantId : TenantId
  actorId : String := "system"
  actorType : AuditActorType := .system
  action : AuditAction
  resourceType : String := "connection"
  resourceId : Uuid
  deriving DecidableEq

/-- What the guards of a request read beside its token. The two rate limiters count in one table that
every address and every tenant writes to, so what they answer is given: the seconds to wait. -/
structure GuardReads where
  tenants : TenantTables
  addressLimit : Option ℤ := none
  tierLimit : Option ℤ := none

/-- A request under a token, or the worker of the status cascade. -/
inductive Caller where
  | token (auth : AuthContext)
  | worker (tenantId : TenantId)

inductive Stage where
  | idle
  | creating (dto : CreateConnectionDto)
  | updating (entity : Connection)
  | writing (entity : Connection) (row : Option Connection)
  | deleting (c : Connection)
  | emitting (job : AuditJob) (response : Response)
  | finished (response : Response)

structure Call where
  caller : Caller
  stage : Stage

inductive Event where
  | request (r : Request) (reads : GuardReads)
  | abandon
  | insert (id : Uuid) (createdAt : Time)
  | select
  | write
  | delete
  | emit (accepted : Bool)

structure ConnectionStore where
  connections : List Connection
  jobs : List AuditJob

def notFoundById (id : Uuid) : String := "Connection '" ++ id.1 ++ "' was not found."

def notFoundByExternalId (externalConnectionId : String) : String :=
  "Connection with external ID '" ++ externalConnectionId ++ "' was not found."

/-- The row, where the token may see it. -/
def visible (auth : AuthContext) (found : Option Connection) (notFound : String) :
    Except ServiceError Connection :=
  match found with
  | none => .error (.notFound notFound)
  | some c => (assertResourceTenantOrNotFound (some auth) c.tenantId notFound).map fun _ => c

/-- `update`, between the read and the save. A required column that became `null` is refused by
the database whatever the save reads. -/
def applyDto (dto : UpdateConnectionDto) (c : Connection) : Except ServiceError Connection :=
  match dto.state.assign c.state, dto.protocol.assign c.protocol,
    dto.metadata.assign c.metadata with
  | some state, some protocol, some metadata => .ok { c with
      theirLabel := dto.theirLabel.assignNullable c.theirLabel
      theirDid := dto.theirDid.assignNullable c.theirDid
      state, protocol, metadata }
  | _, _, _ => .error (.constraint "not-null")

def newConnection (dto : CreateConnectionDto) (id : Uuid) (createdAt : Time) : Connection :=
  { id
    tenantId := dto.tenantId
    externalConnectionId := dto.externalConnectionId
    theirLabel := dto.theirLabel.assignNullable none
    theirDid := dto.theirDid.assignNullable none
    state := dto.state
    connectorType := dto.connectorType
    protocol := dto.protocol
    metadata := dto.metadata.getD []
    createdAt }

def auditJob (action : AuditAction) (c : Connection) : AuditJob :=
  { tenantId := c.tenantId, action, resourceId := c.id }

def Request.tenantIdParam : Request → Option String
  | .findByTenantId tenantId _ => some tenantId.1
  | _ => none

def throttle (limit : Option ℤ) : Except Response Unit :=
  match limit with
  | none => .ok ()
  | some retryAfter => .error (.throttled retryAfter)

/-- The global `RateLimitGuard`, and the guards of the controller from left to right; the last one
counts only where a tenant was stamped. -/
def guards (reads : GuardReads) (auth : AuthContext) (r : Request) : Except Response Unit := do
  throttle reads.addressLimit
  (scopeGuard (some auth) none (some [connectionsManageScope])).mapError .guarded
  let tenantId ← (tenantGuard (some auth) r.tenantIdParam).mapError .guarded
  (tenantStatusGuard reads.tenants (some auth)).mapError .notActive
  match Js.truthy tenantId with
  | none => .ok ()
  | some _ => throttle reads.tierLimit

/-- The guards, and the call up to its first statement, which is done. -/
def request (connections : List Connection) (auth : AuthContext) (r : Request)
    (reads : GuardReads) : Stage :=
  match guards reads auth r with
  | .error refused => .finished refused
  | .ok _ =>
    match r with
    | .create dto =>
      match assertTenantAccess (some auth) dto.tenantId with
      | .error denied => .finished (.guarded (.tenantAccessDenied denied))
      | .ok _ =>
        match findByExternalConnectionId connections dto.externalConnectionId with
        | some _ => .finished (.thrown
            (.conflict "Connection with this external ID already exists."))
        | none => .creating dto
    | .findById id =>
      match visible auth (findById connections id) (notFoundById id) with
      | .error e => .finished (.thrown e)
      | .ok c => .finished (.connection c)
    | .findByExternalConnectionId externalConnectionId =>
      match visible auth (findByExternalConnectionId connections externalConnectionId)
          (notFoundByExternalId externalConnectionId) with
      | .error e => .finished (.thrown e)
      | .ok c => .finished (.connection c)
    | .findByTenantId tenantId state =>
      match state with
      | some state => .finished (.connections (findByTenantIdAndState connections tenantId state))
      | none => .finished (.connections (findByTenantId connections tenantId))
    | .update id dto =>
      match visible auth (findById connections id) (notFoundById id) with
      | .error e => .finished (.thrown e)
      | .ok c =>
        match applyDto dto c with
        | .error e => .finished (.thrown e)
        | .ok entity => .updating entity
    | .delete id =>
      match visible auth (findById connections id) (notFoundById id) with
      | .error e => .finished (.thrown e)
      | .ok c => .deleting c

/-- One statement of a call. -/
def stage (db : ConnectionStore) (caller : Caller) : Stage → Event → Option (ConnectionStore × Stage)
  | .idle, .request r reads =>
    match caller with
    | .token auth => some (db, request db.connections auth r reads)
    | .worker _ => none
  | .idle, .abandon =>
    match caller with
    | .token _ => none
    | .worker tenantId =>
      let connections := abandonAllForTenant db.connections tenantId
      some ({ db with connections }, .finished (.abandoned (db.connections.countP fun c =>
        decide (c.tenantId = tenantId ∧ c.state ≠ .completed ∧ c.state ≠ .abandoned))))
  | .creating dto, .insert id createdAt =>
    let c := newConnection dto id createdAt
    match insert db.connections c with
    | .error e => some (db, .finished (.thrown e))
    | .ok connections =>
      some ({ db with connections }, .emitting (auditJob .create c) (.connection c))
  | .updating entity, .select =>
    some (db, .writing entity (findById db.connections entity.id))
  | .writing entity row, .write =>
    match (match row with
      | none => insert db.connections entity
      | some row => update db.connections row entity) with
    | .error e => some (db, .finished (.thrown e))
    | .ok connections =>
      some ({ db with connections }, .emitting (auditJob .update entity) (.connection entity))
  | .deleting c, .delete =>
    let connections := Table.deleteWhere (fun r => decide (r.id = c.id)) db.connections
    some ({ db with connections }, .emitting (auditJob .delete c) .deleted)
  -- `emit` only logs that it could not enqueue
  | .emitting job response, .emit accepted =>
    some (if accepted then { db with jobs := db.jobs ++ [job] } else db, .finished response)
  | _, _ => none

def act (db : ConnectionStore) (call : Call) (e : Event) : Option (ConnectionStore × Call) :=
  (stage db call.caller call.stage e).map fun r => (r.1, { call with stage := r.2 })

end VcCommonService.Connections
