import VcCommonService.Auth.Scopes
import VcCommonService.Lib.Run
import VcCommonService.Lib.Table

/-!
# Tenant users (`tenant-user.service.ts`, `tenant-user.repository.ts`)

`TenantUserService.update` and `delete` as sequences of database statements. Every
statement is one step, so that the statements of several calls can interleave:
the read of the row, the owner count of the last-owner guard, and the write.
`save` writes back every loaded column that differs from the row, so the stored
row becomes the entity; when the row is gone, `save` inserts the entity again.
-/

namespace VcCommonService.TenantUsers
open Lib Auth

inductive TenantUserStatus where
  | active
  | invited
  | disabled
  deriving Repr, DecidableEq

structure TenantUser where
  id : String
  tenantId : TenantId
  externalUserId : Option String
  email : String
  displayName : Option String
  role : TenantRole
  status : TenantUserStatus
  deriving Repr, DecidableEq

/-- `UpdateTenantUserDto`; `@IsOptional()` lets `null` through as well. -/
structure UpdateTenantUserDto where
  email : Js.Field String := .undefined
  displayName : Js.Field String := .undefined
  role : Js.Field TenantRole := .undefined
  status : Js.Field TenantUserStatus := .undefined
  deriving Repr, DecidableEq

/-! ### Repository -/

def findByTenantAndId (users : List TenantUser) (tenantId : TenantId) (id : String) :
    Option TenantUser :=
  users.find? fun u => decide (u.id = id ∧ u.tenantId = tenantId)

def holdsRole (tenantId : TenantId) (role : TenantRole) (u : TenantUser) : Bool :=
  decide (u.tenantId = tenantId ∧ u.role = role)

def countByTenantAndRole (users : List TenantUser) (tenantId : TenantId) (role : TenantRole) : ℕ :=
  users.countP (holdsRole tenantId role)

def violatesUnique (users : List TenantUser) (entity : TenantUser) : Option String :=
  let others := users.filter fun u => decide (u.id ≠ entity.id ∧ u.tenantId = entity.tenantId)
  if others.any fun u => decide (u.email = entity.email) then
    some "uq_tenant_user_tenant_email"
  else if others.any fun u =>
      u.externalUserId.isSome && decide (u.externalUserId = entity.externalUserId) then
    some "uq_tenant_user_external_user"
  else none

/-! ### Service -/

/-- The four assignments of `update`; `none` when a `NOT NULL` column became `null`. -/
def applyDto (dto : UpdateTenantUserDto) (u : TenantUser) : Option TenantUser := do
  let email ← dto.email.assign u.email
  let role ← dto.role.assign u.role
  let status ← dto.status.assign u.status
  return { u with email, role, status, displayName := dto.displayName.assignNullable u.displayName }

/-- `dto.role !== undefined && dto.role !== tenantUser.role && tenantUser.role === OWNER`. -/
def demotesOwner (dto : UpdateTenantUserDto) (u : TenantUser) : Bool :=
  dto.role.isDefined && decide (dto.role ≠ .value u.role) && decide (u.role = .owner)

inductive Write where
  | save (entity : Option TenantUser)
  | delete
  deriving Repr, DecidableEq

def lastOwnerMessage : Write → String
  | .save _ => "Cannot change the role of the tenant's last owner."
  | .delete => "Cannot remove the tenant's last owner."

/-- Where a call stands. `loaded` is the entity it read, `ownerCount` the count the
guard read when it ran. -/
inductive Call where
  | idle
  | counting (loaded : TenantUser) (write : Write)
  | writing (loaded : TenantUser) (ownerCount : Option ℕ) (write : Write)
  | done (result : Except ServiceError (Option TenantUser))

inductive Event where
  | update (tenantId : TenantId) (id : String) (dto : UpdateTenantUserDto)
      (callerTenantUserId : Option String)
  | delete (tenantId : TenantId) (id : String)
  | next
  | abort (error : ServiceError)

def notFoundMessage (id : String) : String := "Tenant user '" ++ id ++ "' was not found."

def guarded (needsGuard : Bool) (loaded : TenantUser) (write : Write) : Call :=
  if needsGuard then .counting loaded write else .writing loaded none write

def beginUpdate (users : List TenantUser) (tenantId : TenantId) (id : String)
    (dto : UpdateTenantUserDto) (callerTenantUserId : Option String) : Call :=
  match findByTenantAndId users tenantId id with
  | none => .done (.error (.notFound (notFoundMessage id)))
  | some u =>
    if dto.role.isDefined && decide (callerTenantUserId = some id) then
      .done (.error (.forbidden
        "Cannot change your own role; ask another tenant owner or admin to do this."))
    else guarded (demotesOwner dto u) u (.save (applyDto dto u))

def beginDelete (users : List TenantUser) (tenantId : TenantId) (id : String) : Call :=
  match findByTenantAndId users tenantId id with
  | none => .done (.error (.notFound (notFoundMessage id)))
  | some u => guarded (decide (u.role = .owner)) u .delete

def runGuard (users : List TenantUser) (loaded : TenantUser) (write : Write) : Call :=
  let ownerCount := countByTenantAndRole users loaded.tenantId .owner
  if ownerCount ≤ 1 then .done (.error (.conflict (lastOwnerMessage write)))
  else .writing loaded (some ownerCount) write

def runWrite (users : List TenantUser) (loaded : TenantUser) : Write → List TenantUser × Call
  | .save none => (users, .done (.error (.constraint "not_null")))
  | .save (some entity) =>
    match violatesUnique users entity with
    | some name => (users, .done (.error (.constraint name)))
    | none => (Table.save TenantUser.id entity users, .done (.ok (some entity)))
  | .delete => (Table.deleteWhere (fun u => decide (u.id = loaded.id)) users, .done (.ok none))

/-- One statement of one call; `abort` is a statement that fails. -/
def act (users : List TenantUser) : Call → Event → Option (List TenantUser × Call)
  | .idle, .update t id dto caller => some (users, beginUpdate users t id dto caller)
  | .idle, .delete t id => some (users, beginDelete users t id)
  | .counting loaded write, .next => some (users, runGuard users loaded write)
  | .writing loaded _ write, .next => some (runWrite users loaded write)
  | .counting _ _, .abort e => some (users, .done (.error e))
  | .writing _ _ _, .abort e => some (users, .done (.error e))
  | _, _ => none

abbrev World := Run.World (List TenantUser) Call

def step : World → ℕ × Event → Option World := Run.interleave act

end VcCommonService.TenantUsers
