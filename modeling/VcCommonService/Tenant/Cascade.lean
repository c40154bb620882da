import VcCommonService.OAuthClient.Service
import VcCommonService.Tenant.Model

/-!
# The status-change cascade (`tenant-status-change.worker.ts`)

The jobs that `updateStatus` enqueues and the worker that processes them. A worker slot
runs the statements of one job in any order (`Promise.all`); a statement can fail, a slot
can die, and a job can be delivered again at any time. The log of executed statements,
the processed jobs and the clients created since the last transition are records that no
code reads.
-/

namespace VcCommonService.Tenants
open Lib OAuthClients

inductive ConnectionState where
  | invited
  | requested
  | responded
  | active
  | completed
  | abandoned
  deriving Repr, DecidableEq

structure Connection where
  id : String
  tenantId : TenantId
  state : ConnectionState
  deriving Repr, DecidableEq

def deactivateAllForTenant (connectors : List ConnectorCredential) (tenantId : TenantId) :
    List ConnectorCredential :=
  Table.updateWhere (fun k => decide (k.tenantId = tenantId) && k.active)
    (fun k => { k with active := false }) connectors

def abandonAllForTenant (connections : List Connection) (tenantId : TenantId) : List Connection :=
  Table.updateWhere
    (fun k => decide (k.tenantId = tenantId ∧ k.state ≠ .completed ∧ k.state ≠ .abandoned))
    (fun k => { k with state := .abandoned }) connections

/-! ### The handler -/

inductive Statement where
  | revokeClients
  | deactivateConnectors
  | abandonConnections
  | restoreClients
  deriving Repr, DecidableEq

/-- `handle`: the statements a job runs, decided by the payload alone. -/
def handle (job : TenantStatusChangeJobData) : List Statement :=
  if job.status = .deactivated then [.revokeClients, .deactivateConnectors, .abandonConnections]
  else if job.previousStatus = .deactivated ∧ job.status = .active then [.restoreClients]
  else []

/-- A slot that works on a job: the statements still to run, and whether one has failed. -/
structure Attempt where
  job : ℕ
  todo : List Statement
  failed : Bool
  deriving Repr, DecidableEq

structure CascadeState where
  tenant : Tenant
  clients : List OAuthClient
  connectors : List ConnectorCredential
  connections : List Connection
  jobs : List TenantStatusChangeJobData
  slots : ℕ → Option Attempt
  executed : List (ℕ × Statement)
  processed : List ℕ
  createdSince : List String

def runStatement (s : CascadeState) (tenantId : TenantId) (now : Time) : Statement → CascadeState
  | .revokeClients => { s with clients := revokeAllForTenant s.clients tenantId now }
  | .deactivateConnectors =>
    { s with connectors := deactivateAllForTenant s.connectors tenantId }
  | .abandonConnections => { s with connections := abandonAllForTenant s.connections tenantId }
  | .restoreClients => { s with clients := restoreAllForTenant s.clients tenantId }

/-! ### Steps -/

inductive CascadeEvent where
  | updateStatus (status : TenantStatus) (now : Time)
  | createClient (client : OAuthClient)
  | deliver (slot job : ℕ)
  | run (slot : ℕ) (statement : Statement) (now : Time)
  | fail (slot : ℕ) (statement : Statement)
  | die (slot : ℕ)
  | complete (slot : ℕ)
  deriving Repr

def setSlot (s : CascadeState) (slot : ℕ) (attempt : Option Attempt) : CascadeState :=
  { s with slots := Function.update s.slots slot attempt }

def commitStatus (s : CascadeState) (status : TenantStatus) (tenant : Tenant) : CascadeState :=
  { s with
    tenant
    jobs := s.jobs ++ [⟨tenant.id, s.tenant.status, status⟩]
    createdSince := [] }

def commitStatement (s : CascadeState) (slot : ℕ) (a : Attempt) (tenantId : TenantId)
    (statement : Statement) (now : Time) : CascadeState :=
  let s' := runStatement s tenantId now statement
  { s' with
    slots := Function.update s.slots slot (some { a with todo := a.todo.erase statement })
    executed := s.executed ++ [(a.job, statement)] }

def cascadeStep (s : CascadeState) : CascadeEvent → Option CascadeState
  | .updateStatus status now =>
    match applyStatus s.tenant status now with
    | .error _ => none
    | .ok tenant => some (commitStatus s status tenant)
  | .createClient client =>
    if client.tenantId = s.tenant.id ∧ client.revokedAt = none ∧ client.revokedReason = none ∧
        ∀ c ∈ s.clients, c.id ≠ client.id then
      some { s with
        clients := s.clients ++ [client], createdSince := s.createdSince ++ [client.id] }
    else none
  | .deliver slot j =>
    match s.slots slot, s.jobs[j]? with
    | none, some job => some (setSlot s slot (some ⟨j, handle job, false⟩))
    | _, _ => none
  | .run slot statement now =>
    match s.slots slot with
    | none => none
    | some a =>
      match s.jobs[a.job]? with
      | none => none
      | some job =>
        if statement ∈ a.todo then some (commitStatement s slot a job.tenantId statement now)
        else none
  | .fail slot statement =>
    match s.slots slot with
    | none => none
    | some a =>
      if statement ∈ a.todo then
        some (setSlot s slot (some { a with todo := a.todo.erase statement, failed := true }))
      else none
  | .die slot => some (setSlot s slot none)
  | .complete slot =>
    match s.slots slot with
    | none => none
    | some a =>
      if a.todo = [] then
        some { setSlot s slot none with
          processed := if a.failed then s.processed else s.processed ++ [a.job] }
      else none

end VcCommonService.Tenants
