import VcCommonService.Lib.Varchar
import VcCommonService.TenantUser.LastOwner

/-!
# Calls of the tenant-user service, one at a time

The five writing calls of `TenantUserService` as functions of the table. `update` and
`delete` run the statements of the interleaved model to the end with nothing in between;
for each of them one structure says exactly when the call goes through. Ids are drawn by
the database.
-/

namespace VcCommonService.TenantUsers
open Lib Auth

abbrev Result := List TenantUser × Except ServiceError (Option TenantUser)

/-! ### Repository -/

def findById (users : List TenantUser) (id : String) : Option TenantUser :=
  users.find? fun u => decide (u.id = id)

def findByTenantAndEmail (users : List TenantUser) (tenantId : TenantId) (email : String) :
    Option TenantUser :=
  users.find? fun u => decide (u.tenantId = tenantId ∧ u.email = email)

def findByTenantAndExternalUserId (users : List TenantUser) (tenantId : TenantId)
    (externalUserId : String) : Option TenantUser :=
  users.find? fun u => decide (u.tenantId = tenantId ∧ u.externalUserId = some externalUserId)

theorem findById_eq {users : List TenantUser} (hu : Table.UniqueKeys TenantUser.id users)
    {u : TenantUser} (hmem : u ∈ users) : findById users u.id = some u := by
  cases hfind : findById users u.id with
  | none =>
    have hnone := List.find?_eq_none.mp hfind u hmem
    simp at hnone
  | some v =>
    have hv := List.mem_of_find?_eq_some hfind
    have hp := List.find?_some hfind
    have hid : v.id = u.id := of_decide_eq_true hp
    rw [Table.eq_of_key hu hv hmem hid]

/-- The row of an entity; the three texts are `VARCHAR(255)` columns. -/
def storedUser (entity : TenantUser) : Option TenantUser := do
  let externalUserId ← Varchar.storedOrNull 255 entity.externalUserId
  let email ← Varchar.stored 255 entity.email
  let displayName ← Varchar.storedOrNull 255 entity.displayName
  return { entity with externalUserId, email, displayName }

/-- `save` of an entity without an id: an `INSERT` under a new one. -/
def insert (users : List TenantUser) (entity : TenantUser) : Result :=
  match storedUser entity with
  | none => (users, .error (.constraint "character varying(255)"))
  | some row =>
    if users.any fun u => decide (u.id = row.id) then
      (users, .error (.constraint "tenant_user_pkey"))
    else
      match violatesUnique users row with
      | some name => (users, .error (.constraint name))
      | none => (users ++ [row], .ok (some entity))

/-! ### Calls -/

structure InviteTenantUserDto where
  email : String
  role : TenantRole
  deriving Repr, DecidableEq

structure CreateTenantUserDto where
  tenantId : TenantId
  externalUserId : String
  email : String
  displayName : Js.Field String := .undefined
  role : Js.Field TenantRole := .undefined
  status : Js.Field TenantUserStatus := .undefined
  deriving Repr, DecidableEq

def invite (users : List TenantUser) (generatedId : String) (tenantId : TenantId)
    (dto : InviteTenantUserDto) : Result :=
  match findByTenantAndEmail users tenantId dto.email with
  | some _ =>
    (users, .error (.conflict "A tenant user with this email already exists for this tenant."))
  | none => insert users ⟨generatedId, tenantId, none, dto.email, none, dto.role, .invited⟩

/-- The column defaults stand in for what the request leaves out. -/
def newUser (generatedId : String) (dto : CreateTenantUserDto) : Option TenantUser := do
  let role ← dto.role.assign .member
  let status ← dto.status.assign .invited
  return { id := generatedId, tenantId := dto.tenantId, externalUserId := some dto.externalUserId,
           email := dto.email, displayName := dto.displayName.assignNullable none, role, status }

def create (users : List TenantUser) (generatedId : String) (dto : CreateTenantUserDto) : Result :=
  match findByTenantAndExternalUserId users dto.tenantId dto.externalUserId with
  | some _ => (users, .error (.conflict "User already belongs to this tenant."))
  | none =>
    match newUser generatedId dto with
    | none => (users, .error (.constraint "not_null"))
    | some entity => insert users entity

/-- `trim().toLowerCase()` of the application and `LOWER` of the database. -/
structure EmailCase where
  normalize : String → String
  lower : String → String

def claimable (text : EmailCase) (tenantId : TenantId) (email : String) (u : TenantUser) : Bool :=
  decide (u.tenantId = tenantId ∧ text.lower u.email = text.normalize email ∧
    u.externalUserId = none ∧ u.status = .invited)

def claim (externalUserId : String) (u : TenantUser) : TenantUser :=
  { u with externalUserId := some externalUserId, status := .active }

/-- The `UPDATE` of a claim with the value that the column stores. -/
def updateClaimed (text : EmailCase) (users : List TenantUser) (tenantId : TenantId)
    (email externalUserId stored : String) : Result :=
  let claimed := Table.updateWhere (claimable text tenantId email) (claim stored) users
  let affected := users.filter (claimable text tenantId email)
  match affected.findSome? fun u => violatesUnique claimed (claim stored u) with
  | some name => (users, .error (.constraint name))
  | none =>
    (claimed, .ok (if affected.isEmpty then none
      else findByTenantAndExternalUserId claimed tenantId externalUserId))

def claimInvitedByEmail (text : EmailCase) (users : List TenantUser) (tenantId : TenantId)
    (email externalUserId : String) : Result :=
  match Varchar.stored 255 externalUserId with
  | none => (users, .error (.constraint "character varying(255)"))
  | some stored =>
    if Varchar.isText (text.normalize email) then
      updateClaimed text users tenantId email externalUserId stored
    else (users, .error (.constraint "invalid byte sequence"))

/-- The statements that are left of a call, with nothing in between. -/
def runAlone : ℕ → List TenantUser → Call → Result
  | _, users, .done result => (users, result)
  | 0, users, _ => (users, .ok none)
  | n + 1, users, call =>
    match act users call .next with
    | none => (users, .ok none)
    | some (users', call') => runAlone n users' call'

def update (users : List TenantUser) (tenantId : TenantId) (id : String)
    (dto : UpdateTenantUserDto) (callerTenantUserId : Option String) : Result :=
  runAlone 2 users (beginUpdate users tenantId id dto callerTenantUserId)

def delete (users : List TenantUser) (tenantId : TenantId) (id : String) : Result :=
  runAlone 2 users (beginDelete users tenantId id)

/-! ### When a call goes through -/

structure UpdateAccepted (users : List TenantUser) (tenantId : TenantId) (id : String)
    (dto : UpdateTenantUserDto) (callerTenantUserId : Option String)
    (old entity : TenantUser) : Prop where
  found : findByTenantAndId users tenantId id = some old
  notSelf : dto.role.isDefined = true → callerTenantUserId ≠ some id
  guard : demotesOwner dto old = true → 1 < countByTenantAndRole users tenantId .owner
  assigned : applyDto dto old = some entity
  unique : violatesUnique users entity = none

structure DeleteAccepted (users : List TenantUser) (tenantId : TenantId) (id : String)
    (old : TenantUser) : Prop where
  found : findByTenantAndId users tenantId id = some old
  guard : old.role = .owner → 1 < countByTenantAndRole users tenantId .owner

section Accepted

variable {users : List TenantUser} {tenantId : TenantId} {id : String}
  {dto : UpdateTenantUserDto} {callerTenantUserId : Option String}

theorem runAlone_writing (n : ℕ) (users : List TenantUser) (loaded : TenantUser)
    (ownerCount : Option ℕ) (write : Write) :
    runAlone (n + 1) users (.writing loaded ownerCount write) =
      match runWrite users loaded write with
      | (users', .done result) => (users', result)
      | (users', _) => (users', .ok none) := by
  cases write with
  | delete => cases n <;> rfl
  | save entity =>
    cases entity with
    | none => cases n <;> rfl
    | some entity =>
      simp only [runAlone, act, runWrite]
      cases violatesUnique users entity <;> cases n <;> rfl

theorem runAlone_guarded (needsGuard : Bool) (loaded : TenantUser) (write : Write) :
    runAlone 2 users (guarded needsGuard loaded write) =
      if needsGuard = true ∧ countByTenantAndRole users loaded.tenantId .owner ≤ 1 then
        (users, .error (.conflict (lastOwnerMessage write)))
      else runAlone 1 users (.writing loaded none write) := by
  cases needsGuard with
  | false =>
    rw [if_neg (by simp)]
    simp only [guarded, Bool.false_eq_true, if_false, runAlone_writing]
  | true =>
    have hcount : runAlone 2 users (.counting loaded write) =
        runAlone 1 users (runGuard users loaded write) := rfl
    simp only [guarded, if_true, true_and, hcount, runGuard]
    split
    · rfl
    · rw [runAlone_writing, runAlone_writing]

theorem update_of_accepted {old entity : TenantUser}
    (h : UpdateAccepted users tenantId id dto callerTenantUserId old entity) :
    update users tenantId id dto callerTenantUserId =
      (Table.save TenantUser.id entity users, .ok (some entity)) := by
  obtain ⟨-, -, htenant⟩ := findByTenantAndId_some h.found
  have hself : (dto.role.isDefined && decide (callerTenantUserId = some id)) = false := by
    by_cases hrole : dto.role.isDefined = true
    · simp [h.notSelf hrole]
    · simp [hrole]
  have hguard : ¬ (demotesOwner dto old = true ∧
      countByTenantAndRole users old.tenantId .owner ≤ 1) := by
    rintro ⟨hd, hle⟩
    have hlt := h.guard hd
    rw [htenant] at hle
    omega
  rw [update, beginUpdate, h.found]
  simp only [hself, Bool.false_eq_true, if_false]
  rw [runAlone_guarded, if_neg hguard, runAlone_writing, h.assigned]
  simp only [runWrite, h.unique]

theorem update_of_refused
    (h : ∀ old entity, ¬ UpdateAccepted users tenantId id dto callerTenantUserId old entity) :
    (update users tenantId id dto callerTenantUserId).1 = users := by
  rw [update, beginUpdate]
  cases hfound : findByTenantAndId users tenantId id with
  | none => rfl
  | some old =>
    obtain ⟨-, -, htenant⟩ := findByTenantAndId_some hfound
    dsimp only
    by_cases hself : (dto.role.isDefined && decide (callerTenantUserId = some id)) = true
    · rw [if_pos hself]
      rfl
    · rw [if_neg hself, runAlone_guarded]
      split
      · rfl
      next hguard =>
        rw [runAlone_writing]
        cases hassign : applyDto dto old with
        | none => rfl
        | some entity =>
          cases hunique : violatesUnique users entity with
          | some name => simp only [runWrite, hunique]
          | none =>
            refine absurd ⟨hfound, ?_, ?_, hassign, hunique⟩ (h old entity)
            · intro hrole hcaller
              simp [hrole, hcaller] at hself
            · intro hd
              rw [htenant] at hguard
              exact not_le.mp fun hle => hguard ⟨hd, hle⟩

theorem delete_of_accepted {old : TenantUser} (h : DeleteAccepted users tenantId id old) :
    delete users tenantId id =
      (Table.deleteWhere (fun u => decide (u.id = old.id)) users, .ok none) := by
  obtain ⟨-, -, htenant⟩ := findByTenantAndId_some h.found
  have hguard : ¬ (decide (old.role = .owner) = true ∧
      countByTenantAndRole users old.tenantId .owner ≤ 1) := by
    rintro ⟨hd, hle⟩
    have hlt := h.guard (of_decide_eq_true hd)
    rw [htenant] at hle
    omega
  rw [delete, beginDelete, h.found]
  dsimp only
  rw [runAlone_guarded, if_neg hguard, runAlone_writing]
  rfl

theorem delete_of_refused (h : ∀ old, ¬ DeleteAccepted users tenantId id old) :
    (delete users tenantId id).1 = users := by
  rw [delete, beginDelete]
  cases hfound : findByTenantAndId users tenantId id with
  | none => rfl
  | some old =>
    obtain ⟨-, -, htenant⟩ := findByTenantAndId_some hfound
    dsimp only
    rw [runAlone_guarded]
    split
    · rfl
    next hguard =>
      refine absurd ⟨hfound, fun hrole => ?_⟩ (h old)
      rw [htenant] at hguard
      exact not_le.mp fun hle => hguard ⟨decide_eq_true hrole, hle⟩

end Accepted

end VcCommonService.TenantUsers
