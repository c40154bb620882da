import VcCommonService.Paging.Cursor

/-!
# The audit log (`audit-log.repository.ts`, `audit-log.service.ts`)

Pages go from the newest row to the oldest; the order is that of the pair `(created_at, id)`, which
is the primary key of the partitioned table as well. A cursor keeps the milliseconds of
`created_at`, so the next page begins below them.
-/

namespace VcCommonService.Audit
open Lib Cursors

inductive AuditActorType where
  | user
  | system
  | client
  deriving Repr, DecidableEq

inductive AuditAction where
  | issue
  | verify
  | hold
  | revoke
  | create
  | update
  | delete
  | login
  | tokenGrant
  deriving Repr, DecidableEq

structure AuditLog where
  id : Uuid
  tenantId : Uuid
  actorId : String
  actorType : AuditActorType
  action : AuditAction
  resourceType : String
  resourceId : Uuid
  operationId : Option Uuid
  metadata : Json.Members
  ipAddress : Option String
  createdAt : Timestamptz
  deriving DecidableEq

/-- `PRIMARY KEY (id, created_at)`. It lets two partitions hold one id, of which `getMany` would make
one entity; the ids are drawn at random, and the listing below returns a row for each key. -/
structure AuditTable where
  rows : List AuditLog
  primaryKey : Table.UniqueKeys (fun r => (r.id, r.createdAt)) rows

structure AuditLogFilters where
  action : Option AuditAction := none
  actorId : Option String := none
  resourceType : Option String := none
  resourceId : Option Uuid := none
  operationId : Option Uuid := none
  since : Option ℤ := none
  untilTime : Option ℤ := none

/-! ### Repository -/

/-- A condition that is left out when the filter is. -/
def ifSet {α : Type} (filter : Option α) (condition : α → Bool) : Bool :=
  match filter with
  | none => true
  | some a => condition a

def AuditLogFilters.accept (filters : AuditLogFilters) (audit : AuditLog) : Bool :=
  ifSet filters.action (fun action => audit.action = action) &&
    ifSet (Js.truthy filters.actorId) (fun actorId => audit.actorId = actorId) &&
    ifSet (Js.truthy filters.resourceType) (fun resourceType => audit.resourceType = resourceType) &&
    ifSet filters.resourceId (fun resourceId => audit.resourceId = resourceId) &&
    ifSet filters.operationId (fun operationId => audit.operationId = some operationId) &&
    ifSet filters.since (fun since => Timestamptz.ofMs since ≤ audit.createdAt) &&
    ifSet filters.untilTime (fun bound => audit.createdAt ≤ Timestamptz.ofMs bound)

def baseFilterQuery (table : AuditTable) (tenantId : Uuid) (filters : AuditLogFilters) :
    List AuditLog :=
  table.rows.filter fun audit => decide (audit.tenantId = tenantId) && filters.accept audit

/-- `ORDER BY created_at DESC, id DESC`, and `(created_at, id) < cursor`. -/
def newestFirst : Listing AuditLog (Timestamptz ×ₗ Uuid)ᵒᵈ where
  createdAt := AuditLog.createdAt
  id := AuditLog.id
  rankOf createdAt id := OrderDual.toDual (toLex (createdAt, id))

def findPageForTenant (driver : Driver) (table : AuditTable) (tenantId : Uuid)
    (filters : AuditLogFilters) (limit : ℕ) (cursor : Option Cursor) :
    Except ServiceError (Paging.Page AuditLog Cursor) :=
  findPage driver newestFirst (baseFilterQuery table tenantId filters) limit cursor

def auditLogExportMaxRows : ℕ := 10000

def findForExport (table : AuditTable) (tenantId : Uuid) (filters : AuditLogFilters)
    (maxRows : ℕ) : List AuditLog :=
  (Table.orderBy newestFirst.rank (baseFilterQuery table tenantId filters)).take maxRows

/-! ### Service -/

def list (driver : Driver) (table : AuditTable) (tenantId : Uuid) (filters : AuditLogFilters)
    (limit : Option ℕ) (cursor : Option String) :
    Except ServiceError (Paging.Page AuditLog String) :=
  Cursors.list (findPageForTenant driver table tenantId filters) limit cursor

/-! ### Paging -/

/-- The matching rows, newest first. -/
def matching (table : AuditTable) (tenantId : Uuid) (filters : AuditLogFilters) : List AuditLog :=
  Table.orderBy newestFirst.rank (baseFilterQuery table tenantId filters)

/-- The row after a page lies below the whole milliseconds of the last row of the page, or on them
with a smaller id. -/
def LiesBelow (last next : AuditLog) : Prop :=
  next.createdAt < resumeAt last.createdAt ∨
    (next.createdAt = resumeAt last.createdAt ∧ next.id < last.id)

instance (last next : AuditLog) : Decidable (LiesBelow last next) :=
  inferInstanceAs (Decidable (_ ∨ _))

theorem rankOf_lt_rank_iff {last next : AuditLog} :
    newestFirst.rankOf (resumeAt last.createdAt) last.id < newestFirst.rank next ↔
      LiesBelow last next :=
  Prod.Lex.toLex_lt_toLex

theorem not_liesBelow_self (last : AuditLog) : ¬ LiesBelow last last := by
  rintro (hlt | ⟨-, hid⟩)
  · exact absurd (Timestamptz.ofMs_floorMs_le last.createdAt) (not_le.mpr hlt)
  · exact lt_irrefl _ hid

theorem nodup_baseFilterQuery (table : AuditTable) (tenantId : Uuid) (filters : AuditLogFilters) :
    (baseFilterQuery table tenantId filters).Nodup :=
  (List.Nodup.of_map _ table.primaryKey).filter _

/-- Following the cursors gives every matching row once and in order exactly if each row after a full
page lies below the whole milliseconds of the last row of the page. -/
theorem audit_list_complete_iff (driver : Driver) (table : AuditTable) (tenantId : Uuid)
    (filters : AuditLogFilters) {limit : ℕ} (hlimit : 0 < limit) :
    Paging.Enumerates (list driver table tenantId filters (some limit))
        (matching table tenantId filters) ↔
      ∀ last next, Paging.Boundary limit (matching table tenantId filters) last next →
        Timestamptz.IsReadable last.createdAt.floorMs ∧ LiesBelow last next := by
  refine (Cursors.list_enumerates_iff driver newestFirst
    (nodup_baseFilterQuery table tenantId filters) hlimit).trans ?_
  refine forall₂_congr fun last next => forall_congr' fun _ => and_congr_right fun _ => ?_
  have hnext := @rankOf_lt_rank_iff last next
  have hlast := (@rankOf_lt_rank_iff last last).not.mpr (not_liesBelow_self last)
  exact ⟨fun h => hnext.mp h.1, fun h => ⟨hnext.mpr h, hlast⟩⟩

def auditAt (id : Uuid) (createdAt : Timestamptz) : AuditLog :=
  { id, tenantId := Uuid.nil, actorId := "u1", actorType := .user, action := .update,
    resourceType := "tenant", resourceId := Uuid.nil, operationId := none, metadata := [],
    ipAddress := none, createdAt }

def twoAudits (first second : Timestamptz) : AuditTable where
  rows := [auditAt Uuid.nil first, auditAt Uuid.max second]
  primaryKey := by
    refine List.nodup_cons.mpr ⟨fun h => ?_, List.nodup_singleton _⟩
    exact Uuid.nil_ne_max (congrArg Prod.fst (List.mem_singleton.mp h))

/-- Rows of different milliseconds, a page each. -/
theorem audit_list_complete_ms :
    Paging.Enumerates
      (list isoDriver (twoAudits 1700000000001900 1700000000000900) Uuid.nil {} (some 1))
      (matching (twoAudits 1700000000001900 1700000000000900) Uuid.nil {}) := by
  have hrows : matching (twoAudits 1700000000001900 1700000000000900) Uuid.nil {} =
      [auditAt Uuid.nil 1700000000001900, auditAt Uuid.max 1700000000000900] := by
    decide +kernel
  refine (audit_list_complete_iff isoDriver _ Uuid.nil {} Nat.one_pos).mpr ?_
  intro last next hboundary
  rw [hrows] at hboundary
  obtain ⟨rfl, rfl⟩ := Paging.boundary_pair hboundary
  decide +kernel

/-- Of two rows of one millisecond, the reader with a limit of one row sees one. -/
theorem audit_list_not_complete :
    ¬ ∀ (driver : Driver) (table : AuditTable) (tenantId : Uuid) (filters : AuditLogFilters)
      (limit : ℕ), 0 < limit →
      Paging.Enumerates (list driver table tenantId filters (some limit))
        (matching table tenantId filters) := by
  intro h
  have henumerates := h isoDriver (twoAudits 1700000000000900 1700000000000100) Uuid.nil {} 1 (by decide)
  have hnodup := nodup_baseFilterQuery (twoAudits 1700000000000900 1700000000000100) Uuid.nil {}
  have hboundary := (Cursors.list_enumerates_iff isoDriver newestFirst hnodup Nat.one_pos).mp henumerates
    (auditAt Uuid.nil 1700000000000900) (auditAt Uuid.max 1700000000000100)
    ⟨1, Nat.one_pos, Nat.dvd_refl 1, by decide +kernel, by decide +kernel⟩
  exact absurd (rankOf_lt_rank_iff.mp hboundary.2.1) (by decide +kernel)

end VcCommonService.Audit
