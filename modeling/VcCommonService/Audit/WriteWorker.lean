import VcCommonService.Audit.Export
import VcCommonService.Audit.PartitionWorker
import VcCommonService.Lib.Varchar

/-!
# Writing the audit log (`audit-write.worker.ts`, `domain-audit.service.ts`)

Domain services and the interceptor put events into a queue, a worker checks each of them and
inserts a row; other services write theirs directly. The queue delivers a job that is not completed
any number of times, also to two workers at once: a delivery begins, it inserts its row or throws,
and one that has returned may complete the job while others are still under way.
-/

namespace VcCommonService.Audit
open Lib

/-! ### Payloads -/

/-- `AuditWriteJobData` as the queue holds it; `none` is an absent or `null` member. -/
structure AuditWriteJobData where
  tenantId : Option String
  actorId : Option String
  actorType : Option String
  action : Option String
  resourceType : Option String
  resourceId : Option String
  operationId : Option String := none
  metadata : Option Json.Members := none
  ipAddress : Option String := none

structure WriteAuditLogInput where
  tenantId : Uuid
  actorId : String
  actorType : AuditActorType
  action : AuditAction
  resourceType : String
  resourceId : Uuid
  operationId : Option Uuid
  metadata : Option Json.Members
  ipAddress : Option String

def auditActorTypes : List AuditActorType := [.user, .system, .client]

def auditActions : List AuditAction :=
  [.issue, .verify, .hold, .revoke, .create, .update, .delete, .login, .tokenGrant]

/-- A text that `UUID_RE` takes, as the database writes it. -/
def parseUuid (s : String) : Option Uuid :=
  let lower := s.map Char.toLower
  if h : isUuid lower = true then some ⟨lower, h⟩ else none

def invalidPayload : ServiceError := .error "Invalid audit.write payload"

/-- The checks, with the values as the columns take them. -/
def assertValidPayload (data : Option AuditWriteJobData) : Except ServiceError WriteAuditLogInput :=
  match data with
  | none => .error invalidPayload
  | some data =>
    match Js.truthy data.tenantId, Js.truthy data.actorId, Js.truthy data.actorType,
        Js.truthy data.action, Js.truthy data.resourceType, Js.truthy data.resourceId with
    | some tenantId, some actorId, some actorType, some action, some resourceType,
        some resourceId =>
      let operationId := (Js.truthy data.operationId).map parseUuid
      match parseUuid tenantId, parseUuid resourceId with
      | some tenantId, some resourceId =>
        if operationId = some none then .error invalidPayload
        else
          match auditActorTypes.find? fun t => decide (t.name = actorType),
              auditActions.find? fun a => decide (a.name = action) with
          | some actorType, some action =>
            .ok ⟨tenantId, actorId, actorType, action, resourceType, resourceId,
              operationId.join, data.metadata, data.ipAddress⟩
          | _, _ => .error invalidPayload
      | _, _ => .error invalidPayload
    | _, _, _, _, _, _ => .error invalidPayload

/-! ### Producers -/

structure DomainAuditEmitInput where
  tenantId : String
  action : AuditAction
  resourceType : String
  resourceId : String
  metadata : Option Json.Members := none

/-- What `DomainAuditService.emit` publishes. -/
def DomainAuditEmitInput.payload (input : DomainAuditEmitInput) : AuditWriteJobData where
  tenantId := some input.tenantId
  actorId := some "system"
  actorType := some AuditActorType.system.name
  action := some input.action.name
  resourceType := some input.resourceType
  resourceId := some input.resourceId
  metadata := some (input.metadata.getD [])

/-- What the interceptor reads of a request that has been answered; `skip` is the decorator. -/
structure AuditedRequest where
  enabled : Bool
  http : Bool
  skip : Bool
  method : String
  path : String
  paramsTenantId : Option String
  bodyTenantId : Option String
  paramsId : Option String

def mutatingMethods : List String := ["POST", "PUT", "PATCH", "DELETE"]

def skipPathPrefixes : List String := ["/health", "/api/docs", "/api/docs/"]

def shouldSkipPath (path : String) : Bool :=
  path.toList.tails.any ("/audit-logs".toList.isPrefixOf ·) ||
    skipPathPrefixes.any fun start => start.toList.isPrefixOf path.toList

def mapAction (method : String) : AuditAction :=
  if method = "POST" then .create else if method = "DELETE" then .delete else .update

def mapResourceType (path : String) : String :=
  let segments := (path.toList.splitOn '/').filter fun segment => !segment.isEmpty
  let segment := segments.head?.getD "unknown".toList
  String.ofList (segment.map fun c => if c = '-' then '_' else c)

/-- What `AuditAutoInterceptor` publishes, if anything; the method is in upper case. -/
def AuditedRequest.payload (request : AuditedRequest) : Option AuditWriteJobData :=
  if !request.enabled || !request.http || request.skip ||
      !mutatingMethods.contains request.method || shouldSkipPath request.path then none
  else
    match (Js.truthy request.paramsTenantId).or (Js.truthy request.bodyTenantId),
        Js.truthy request.paramsId with
    | some tenantId, some resourceId =>
      some
        { tenantId := some tenantId, actorId := some "system"
          actorType := some AuditActorType.system.name
          action := some (mapAction request.method).name
          resourceType := some (mapResourceType request.path), resourceId := some resourceId
          metadata := some [("source", .str "auto-interceptor"), ("method", .str request.method),
            ("path", .str request.path)] }
    | _, _ => none

/-! ### The table -/

/-- How often a job has been delivered, how many of the deliveries are under way, and whether one has
returned. -/
structure WriteJob where
  data : Option AuditWriteJobData
  delivered : ℕ := 0
  underWay : ℕ := 0
  returned : Bool := false
  completed : Bool := false

/-- `written` is history: the job of each inserted row, `none` for a direct write; so is
`maintained`, the jobs that have maintained the partitions. -/
structure AuditDb where
  log : AuditTable
  tenants : List Uuid
  operations : List Uuid
  jobs : List WriteJob := []
  maintained : List Job
  written : List (Option ℕ × AuditLog) := []

def newAuditLog (input : WriteAuditLogInput) (id : Uuid) (createdAt : Timestamptz) : AuditLog where
  id := id
  tenantId := input.tenantId
  actorId := input.actorId
  actorType := input.actorType
  action := input.action
  resourceType := input.resourceType
  resourceId := input.resourceId
  operationId := input.operationId
  metadata := input.metadata.getD []
  ipAddress := input.ipAddress
  createdAt := createdAt

instance (p : Partition) (t : Timestamptz) : Decidable (p.Contains t) :=
  inferInstanceAs (Decidable (_ ∧ _))

/-- The row with what its text columns store, where they take it. -/
def storedAudit (row : AuditLog) : Option AuditLog := do
  let actorId ← Varchar.stored 255 row.actorId
  let resourceType ← Varchar.stored 100 row.resourceType
  let ipAddress ← Varchar.storedOrNull 64 row.ipAddress
  if Json.storableMembers row.metadata then some { row with actorId, resourceType, ipAddress }
  else none

/-- `AuditLogRepository.insert`, of a row as the columns store it. -/
def insertAudit (catalog : List Partition) (db : AuditDb) (row : AuditLog) :
    Except ServiceError AuditTable :=
  if !catalog.any fun p => decide (p.Contains row.createdAt) then
    .error (.constraint "no partition of relation \"audit_log\" found for row")
  else if h : ∀ r ∈ db.log.rows, (r.id, r.createdAt) ≠ (row.id, row.createdAt) then
    if !db.tenants.contains row.tenantId then .error (.constraint "fk_audit_log_tenant")
    else if row.operationId.any fun op => !db.operations.contains op then
      .error (.constraint "fk_audit_log_operation")
    else .ok ⟨db.log.rows ++ [row], Table.uniqueKeys_append db.log.primaryKey h⟩
  else .error (.constraint "pk_audit_log")

/-- `ON DELETE SET NULL` -/
def clearOperation (operationId : Uuid) (row : AuditLog) : AuditLog :=
  { row with operationId := row.operationId.filter fun op => decide (op ≠ operationId) }

def AuditTable.clear (log : AuditTable) (operationId : Uuid) : AuditTable where
  rows := log.rows.map (clearOperation operationId)
  primaryKey := by
    unfold Table.UniqueKeys
    rw [List.map_map]
    exact log.primaryKey

/-! ### Steps -/

/-- `published` is false where the queue refuses the job; the producers log that and go on. A
maintenance job that others meet half done is one for fewer months. -/
inductive AuditEvent where
  | emit (input : DomainAuditEmitInput) (published : Bool)
  | intercept (request : AuditedRequest) (published : Bool)
  | deliver (job : ℕ)
  | handle (job : ℕ) (id : Uuid) (now : Timestamptz)
  | write (entry : WriteAuditLogInput) (id : Uuid) (now : Timestamptz)
  | complete (job : ℕ)
  | maintain (job : Job)
  | createOperation (operationId : Uuid)
  | deleteOperation (operationId : Uuid)

def newJob (data : AuditWriteJobData) : WriteJob := { data := some data }

def AuditDb.enqueue (db : AuditDb) (data : Option AuditWriteJobData) (published : Bool) :
    AuditDb :=
  if published then { db with jobs := db.jobs ++ (data.map newJob).toList } else db

section Step

variable (input : Timestamptz.Input)

def AuditDb.catalog (db : AuditDb) : List Partition := maintain input db.maintained

/-- `AuditLogService.write`, for a job or for a caller that waits for it. -/
def AuditDb.write (db : AuditDb) (writer : Option ℕ) (entry : WriteAuditLogInput) (id : Uuid)
    (now : Timestamptz) : Except ServiceError AuditDb :=
  match storedAudit (newAuditLog entry id now) with
  | none => .error (.constraint "value of a text column")
  | some row =>
    match insertAudit (db.catalog input) db row with
    | .error e => .error e
    | .ok log => .ok { db with log, written := db.written ++ [(writer, row)] }

/-- `AuditWriteWorker.handle`: an invalid payload and a refused insertion throw. -/
def handleWrite (db : AuditDb) (i : ℕ) (job : WriteJob) (id : Uuid) (now : Timestamptz) : AuditDb :=
  let job := { job with underWay := job.underWay - 1 }
  match (assertValidPayload job.data).bind fun entry => db.write input (some i) entry id now with
  | .error _ => { db with jobs := db.jobs.set i job }
  | .ok written => { written with jobs := db.jobs.set i { job with returned := true } }

def auditStep (db : AuditDb) : AuditEvent → Option AuditDb
  | .emit entry published => some (db.enqueue (some entry.payload) published)
  | .intercept request published => some (db.enqueue request.payload published)
  | .deliver i =>
    match db.jobs[i]? with
    | none => none
    | some job =>
      if job.completed then none
      else
        let job := { job with delivered := job.delivered + 1, underWay := job.underWay + 1 }
        some { db with jobs := db.jobs.set i job }
  | .handle i id now =>
    match db.jobs[i]? with
    | none => none
    | some job => if job.underWay = 0 then none else some (handleWrite input db i job id now)
  | .write entry id now =>
    -- a caller whose write is refused rolls back with it
    some (match db.write input none entry id now with
      | .error _ => db
      | .ok written => written)
  | .complete i =>
    match db.jobs[i]? with
    | none => none
    | some job =>
      if job.returned then some { db with jobs := db.jobs.set i { job with completed := true } }
      else none
  | .maintain job => some { db with maintained := db.maintained ++ [job] }
  | .createOperation operationId => some { db with operations := operationId :: db.operations }
  | .deleteOperation operationId =>
    some { db with
      log := db.log.clear operationId
      operations := db.operations.filter fun op => decide (op ≠ operationId) }

end Step

end VcCommonService.Audit
