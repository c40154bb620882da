import VcCommonService.Lib.Transaction
import VcCommonService.RoleScope.Records

/-!
# Writes of the mapping, statement by statement

`replaceRoleScopes` and `resetRoleScopes` as sequences of statements: the override is written
before the result is checked, and a rejected write is undone by the transaction around it. Each
of them does what the write as one function of the database says.
-/

namespace VcCommonService.RoleScopes.Statements
open Lib Transaction Auth TenantUsers Oidc

abbrev Action := Transaction.Action RoleScopeError Db

/-! ### Statements -/

def getTenantRoleMapping (runner : Runner) (tenantId : TenantId) :
    Action (List RoleScopeMappingEntry) :=
  query runner fun db => (RoleScopes.getTenantRoleMapping db tenantId, db)

def findDefaultRoleScopes (runner : Runner) (role : TenantRole) : Action (Option (List String)) :=
  query runner fun db => (RoleScopes.findDefaultRoleScopes db role, db)

def upsertTenantRoleScopes (runner : Runner) (tenantId : TenantId) (role : TenantRole)
    (scopes : List String) : Action Unit :=
  query runner fun db => ((), RoleScopes.upsertTenantRoleScopes db tenantId role scopes)

def deleteTenantRoleScopes (runner : Runner) (tenantId : TenantId) (role : TenantRole) :
    Action Unit :=
  query runner fun db => ((), RoleScopes.deleteTenantRoleScopes db tenantId role)

def revokeAffectedSessions (runner : Runner) (tenantId : TenantId) (role : TenantRole) :
    Action ℕ :=
  query runner fun db =>
    ((RoleScopes.revokeAffectedSessions db tenantId role).2,
      (RoleScopes.revokeAffectedSessions db tenantId role).1)

def auditLogWrite (runner : Runner) (request : RoleScopeWriteRequest) (action : AuditAction)
    (metadata : AuditMetadata) : Action Unit :=
  query runner fun db => ((), audit db request action metadata)

def revokeIfNarrowed (narrowed : Bool) (tenantId : TenantId) (role : TenantRole) : Action ℕ :=
  if narrowed then revokeAffectedSessions .manager tenantId role else pure 0

def auditIfChanged (changed : Bool) (request : RoleScopeWriteRequest) (action : AuditAction)
    (metadata : AuditMetadata) : Action Unit :=
  if changed then auditLogWrite .manager request action metadata else pure ()

/-- Logins save their records on connections of their own. -/
def savedMeanwhile (window : List OidcModel) : Action Unit :=
  query .dataSource fun db => ((), { db with oidcModels := db.oidcModels ++ window })

/-! ### Writes -/

/-- The callback of `dataSource.transaction`. The advisory lock keeps other writes of the tenant
out. -/
def writeBody (request : RoleScopeWriteRequest) (source : RoleScopeSource) (action : AuditAction)
    (apply : Runner → Action (List String)) : Action (RoleScopeWriteResult × Bool) := do
  let before ← getTenantRoleMapping .manager request.tenantId
  let previousEntry := before.find? fun entry => decide (entry.name = request.role)
  let previous := (previousEntry.map RoleScopeMappingEntry.scopes).getD []
  let previousSource := (previousEntry.map RoleScopeMappingEntry.source).getD .default
  let scopes ← apply .manager
  let after ← getTenantRoleMapping .manager request.tenantId
  check (assertNoEscalation scopes request)
  check (assertHierarchy after)
  let removed := removedScopes previous scopes
  let narrowed := decide (removed ≠ [])
  let count ← revokeIfNarrowed narrowed request.tenantId request.role
  let changed := decide (previousSource ≠ source) ||
    decide (String.intercalate " " previous ≠ String.intercalate " " scopes)
  auditIfChanged changed request action
    (.change request.role source previous scopes removed count)
  return (⟨request.role, scopes, source, count⟩, narrowed)

def writeMapping (request : RoleScopeWriteRequest) (source : RoleScopeSource)
    (action : AuditAction) (apply : Runner → Action (List String)) (window : List OidcModel) :
    Action RoleScopeWriteResult := do
  let (result, narrowed) ← transaction (writeBody request source action apply)
  if !narrowed then return result
  else
    savedMeanwhile window
    let late ← revokeAffectedSessions .dataSource request.tenantId request.role
    if late = 0 then return result
    else
      auditLogWrite .dataSource request .revoke (.commitWindowSweep request.role late)
      return { result with revokedRecordCount := result.revokedRecordCount + late }

def replaceRoleScopes (request : RoleScopeWriteRequest) (requested : List String)
    (window : List OidcModel) : Action RoleScopeWriteResult := do
  let scopes := Js.sort (Js.setOf requested)
  check (assertScopesAssignable request.role scopes)
  writeMapping request .override .update
    (fun runner => do
      upsertTenantRoleScopes runner request.tenantId request.role scopes
      return scopes) window

def resetRoleScopes (request : RoleScopeWriteRequest) (window : List OidcModel) :
    Action RoleScopeWriteResult := do
  check (assertRoleMutable request.role)
  writeMapping request .default .delete
    (fun runner => do
      deleteTenantRoleScopes runner request.tenantId request.role
      let default ← findDefaultRoleScopes runner request.role
      return default.getD []) window

def perform : Call → Action RoleScopeWriteResult
  | .replace request scopes window => replaceRoleScopes request scopes window
  | .reset request window => resetRoleScopes request window

/-! ### One function of the database -/

/-- What `apply` does on a working copy. -/
def Applies (apply : Runner → Action (List String)) (f : Db → Db × List String) : Prop :=
  ∀ committed db, apply .manager ⟨committed, some db⟩ = (.ok (f db).2, ⟨committed, some (f db).1⟩)

section Write

variable {request : RoleScopeWriteRequest} {source : RoleScopeSource} {action : AuditAction}
  {apply : Runner → Action (List String)} {f : Db → Db × List String} {db db' : Db}

theorem revokeIfNarrowed_apply (narrowed : Bool) (tenantId : TenantId) (role : TenantRole)
    (committed db : Db) :
    revokeIfNarrowed narrowed tenantId role ⟨committed, some db⟩ =
      (.ok (if narrowed then RoleScopes.revokeAffectedSessions db tenantId role else (db, 0)).2,
        ⟨committed, some (if narrowed then RoleScopes.revokeAffectedSessions db tenantId role
          else (db, 0)).1⟩) := by
  cases narrowed <;> rfl

theorem auditIfChanged_apply (changed : Bool) (request : RoleScopeWriteRequest)
    (action : AuditAction) (metadata : AuditMetadata) (committed db : Db) :
    auditIfChanged changed request action metadata ⟨committed, some db⟩ =
      (.ok (), ⟨committed, some (if changed then audit db request action metadata else db)⟩) := by
  cases changed <;> rfl

/-- A check has failed: the override is written, in the working copy. -/
theorem writeBody_error {e : RoleScopeError} (ha : Applies apply f)
    (h : writeTransaction db request source action f = .error e) :
    writeBody request source action apply ⟨db, some db⟩ = (.error e, ⟨db, some (f db).1⟩) := by
  unfold writeTransaction at h
  dsimp only at h
  simp only [writeBody, getTenantRoleMapping, Action.bind_apply, query_manager, Action.next_ok,
    ha db db, check_apply]
  rcases bind_eq_error.mp h with hescalation | ⟨_, hescalation, h⟩
  · rw [hescalation, Action.next_error]
  · rcases bind_eq_error.mp h with hhierarchy | ⟨_, -, h⟩
    · simp only [hescalation, hhierarchy, Action.next_ok, Action.next_error, Action.bind_apply,
        check_apply]
    · cases h

theorem writeBody_ok {result : RoleScopeWriteResult} {narrowed : Bool} (ha : Applies apply f)
    (h : writeTransaction db request source action f = .ok (db', result, narrowed)) :
    writeBody request source action apply ⟨db, some db⟩ =
      (.ok (result, narrowed), ⟨db, some db'⟩) := by
  unfold writeTransaction at h
  dsimp only at h
  obtain ⟨_, hescalation, h⟩ := bind_eq_ok.mp h
  obtain ⟨_, hhierarchy, h⟩ := bind_eq_ok.mp h
  cases h
  simp only [writeBody, getTenantRoleMapping, Action.bind_apply, query_manager, Action.next_ok,
    ha db db, check_apply, hescalation, hhierarchy, revokeIfNarrowed_apply, auditIfChanged_apply,
    Action.pure_apply]

theorem writeMapping_eq_error {e : RoleScopeError} {window : List OidcModel}
    (ha : Applies apply f)
    (h : RoleScopes.writeMapping db request source action f window = .error e) :
    writeMapping request source action apply window ⟨db, none⟩ = (.error e, ⟨db, none⟩) := by
  rcases bind_eq_error.mp h with hbody | ⟨r, -, h⟩
  · rw [writeMapping, Action.bind_apply, transaction_error (writeBody_error ha hbody)]
    rfl
  · -- nothing is checked once the transaction has committed
    dsimp only at h
    split at h
    · cases h
    · split at h
      · cases h
      · cases h

theorem writeMapping_eq_ok {result : RoleScopeWriteResult} {window : List OidcModel}
    (ha : Applies apply f)
    (h : RoleScopes.writeMapping db request source action f window = .ok (db', result)) :
    writeMapping request source action apply window ⟨db, none⟩ = (.ok result, ⟨db', none⟩) := by
  obtain ⟨⟨committed, result', narrowed⟩, hbody, h⟩ := bind_eq_ok.mp h
  rw [writeMapping, Action.bind_apply, transaction_ok (writeBody_ok ha hbody), Action.next_ok]
  dsimp only at h ⊢
  cases narrowed with
  | false =>
    cases h
    rfl
  | true =>
    simp only [Bool.not_true, Bool.false_eq_true, if_false] at h ⊢
    simp only [savedMeanwhile, revokeAffectedSessions, Action.bind_apply, query_dataSource,
      Action.next_ok]
    split at h
    next hlate =>
      cases h
      rw [if_pos hlate]
      rfl
    next hlate =>
      cases h
      rw [if_neg hlate]
      rfl

end Write

/-! ### Calls -/

variable {db db' : Db} {call : Call}

theorem applies_upsert (tenantId : TenantId) (role : TenantRole) (scopes : List String) :
    Applies
      (fun runner => do
        upsertTenantRoleScopes runner tenantId role scopes
        return scopes)
      (fun db => (RoleScopes.upsertTenantRoleScopes db tenantId role scopes, scopes)) :=
  fun _ _ => rfl

theorem applies_delete (tenantId : TenantId) (role : TenantRole) :
    Applies
      (fun runner => do
        deleteTenantRoleScopes runner tenantId role
        let default ← findDefaultRoleScopes runner role
        return default.getD [])
      (fun db =>
        let written := RoleScopes.deleteTenantRoleScopes db tenantId role
        (written, (RoleScopes.findDefaultRoleScopes written role).getD [])) :=
  fun _ _ => rfl

/-- A rejected call leaves the database as it was. -/
theorem perform_of_exec_error {e : RoleScopeError} (h : exec db call = .error e) :
    perform call ⟨db, none⟩ = (.error e, ⟨db, none⟩) := by
  cases call with
  | replace request requested window =>
    rcases bind_eq_error.mp h with hcheck | ⟨_, hcheck, h⟩
    · simp only [perform, replaceRoleScopes, Action.bind_apply, check_apply, hcheck,
        Action.next_error]
    · simp only [perform, replaceRoleScopes, Action.bind_apply, check_apply, hcheck,
        Action.next_ok]
      exact writeMapping_eq_error (applies_upsert _ _ _) h
  | reset request window =>
    rcases bind_eq_error.mp h with hcheck | ⟨_, hcheck, h⟩
    · simp only [perform, resetRoleScopes, Action.bind_apply, check_apply, hcheck,
        Action.next_error]
    · simp only [perform, resetRoleScopes, Action.bind_apply, check_apply, hcheck,
        Action.next_ok]
      exact writeMapping_eq_error (applies_delete _ _) h

/-- A call that returns leaves the database that the write as one function computes. -/
theorem perform_of_exec_ok {result : RoleScopeWriteResult} (h : exec db call = .ok (db', result)) :
    perform call ⟨db, none⟩ = (.ok result, ⟨db', none⟩) := by
  cases call with
  | replace request requested window =>
    obtain ⟨_, hcheck, h⟩ := bind_eq_ok.mp h
    simp only [perform, replaceRoleScopes, Action.bind_apply, check_apply, hcheck, Action.next_ok]
    exact writeMapping_eq_ok (applies_upsert _ _ _) h
  | reset request window =>
    obtain ⟨_, hcheck, h⟩ := bind_eq_ok.mp h
    simp only [perform, resetRoleScopes, Action.bind_apply, check_apply, hcheck, Action.next_ok]
    exact writeMapping_eq_ok (applies_delete _ _) h

/-! ### Escalation -/

theorem assertNoEscalation_ok {scopes : List String} {request : RoleScopeWriteRequest}
    (h : assertNoEscalation scopes request = .ok ())
    (hadmin : isPlatformAdmin request.actorRoles = false) :
    ∀ scope ∈ scopes, scope ∈ expandEffectiveScopes request.actorScopes := by
  simp only [assertNoEscalation, hadmin, Bool.false_eq_true, if_false] at h
  split at h
  · cases h
  next hnone =>
    intro scope hscope
    have hall := List.filter_eq_nil_iff.mp (not_not.mp hnone) scope hscope
    simpa using hall

/-- Who holds the superuser scope holds what it stands for. -/
theorem expandEffectiveScopes_subset {scopes actor : List String}
    (h : ∀ scope ∈ scopes, scope ∈ expandEffectiveScopes actor) :
    ∀ scope ∈ expandEffectiveScopes scopes, scope ∈ expandEffectiveScopes actor := by
  intro scope hscope
  rcases (mem_expandEffectiveScopes _ _).mp hscope with hscope | ⟨hsuper, hall⟩
  · exact h scope hscope
  · rcases (mem_expandEffectiveScopes _ _).mp (h _ hsuper) with hactor | ⟨hactor, -⟩
    · exact (mem_expandEffectiveScopes _ _).mpr (Or.inr ⟨hactor, hall⟩)
    · exact (mem_expandEffectiveScopes _ _).mpr (Or.inr ⟨hactor, hall⟩)

theorem writeMapping_noEscalation {request : RoleScopeWriteRequest} {source : RoleScopeSource}
    {action : AuditAction} {f : Db → Db × List String} {window : List OidcModel}
    {result : RoleScopeWriteResult}
    (h : RoleScopes.writeMapping db request source action f window = .ok (db', result)) :
    assertNoEscalation (f db).2 request = .ok () := by
  obtain ⟨_, hbody, -⟩ := bind_eq_ok.mp h
  unfold writeTransaction at hbody
  obtain ⟨_, hescalation, -⟩ := bind_eq_ok.mp hbody
  exact hescalation

theorem exec_noEscalation {result : RoleScopeWriteResult} (h : exec db call = .ok (db', result)) :
    assertNoEscalation (findScopesForRole db' call.request.role (some call.request.tenantId))
      call.request = .ok () := by
  cases call with
  | replace request requested window =>
    obtain ⟨_, _, h⟩ := bind_eq_ok.mp h
    have hscopes := findScopesForRole_upserted (writeMapping_ok h).1
    rw [Call.request, hscopes]
    exact writeMapping_noEscalation h
  | reset request window =>
    obtain ⟨_, _, h⟩ := bind_eq_ok.mp h
    have hscopes := findScopesForRole_deleted (writeMapping_ok h).1
    rw [Call.request, hscopes]
    exact writeMapping_noEscalation h

/-- A write that returns gives a role nothing that its actor does not hold, unless the actor is a
platform admin; a write that is rejected changes nothing. -/
theorem role_write_bounded_and_atomic (db : Db) (call : Call) :
    (∀ result, (perform call ⟨db, none⟩).1 = .ok result →
      isPlatformAdmin call.request.actorRoles = false →
      ∀ scope ∈ expandEffectiveScopes (findScopesForRole (perform call ⟨db, none⟩).2.committed
          call.request.role (some call.request.tenantId)),
        scope ∈ expandEffectiveScopes call.request.actorScopes) ∧
    ∀ error, (perform call ⟨db, none⟩).1 = .error error →
      (perform call ⟨db, none⟩).2 = ⟨db, none⟩ := by
  cases hexec : exec db call with
  | error e =>
    rw [perform_of_exec_error hexec]
    exact ⟨nofun, fun _ _ => rfl⟩
  | ok r =>
    obtain ⟨db', result⟩ := r
    rw [perform_of_exec_ok hexec]
    refine ⟨fun _ _ hadmin => ?_, nofun⟩
    exact expandEffectiveScopes_subset (assertNoEscalation_ok (exec_noEscalation hexec) hadmin)

def readonlyRequest : RoleScopeWriteRequest :=
  ⟨"t", .readonly, "user", ["credentials:offer"], ["member"], .user⟩

/-- Somebody who holds one scope can give it to a role, and no other. -/
theorem role_write_bounded_readonly :
    (∀ scope ∈ expandEffectiveScopes (findScopesForRole
        (perform (.replace readonlyRequest ["credentials:offer"] []) ⟨seededDb, none⟩).2.committed
        .readonly (some "t")), scope ∈ expandEffectiveScopes ["credentials:offer"]) ∧
    (perform (.replace readonlyRequest ["logs:read"] []) ⟨seededDb, none⟩).2 =
      ⟨seededDb, none⟩ := by
  constructor
  · exact (role_write_bounded_and_atomic seededDb
      (.replace readonlyRequest ["credentials:offer"] [])).1
      ⟨.readonly, ["credentials:offer"], .override, 0⟩ rfl rfl
  · exact (role_write_bounded_and_atomic seededDb (.replace readonlyRequest ["logs:read"] [])).2
      (.scopeEscalation ["logs:read"]) rfl

end VcCommonService.RoleScopes.Statements
