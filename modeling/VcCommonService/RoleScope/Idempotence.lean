import VcCommonService.RoleScope.Records

/-!
# Writes of the mapping that are repeated

The rows of `tenant_role_scope` with their timestamps. A write that is made again, its scopes
in another order or some of them twice, finds the mapping it left: it writes no audit entry and
deletes no record, and of the override only `updated_at` moves. The records of a role are deleted
by the writes that narrow it and by no others.
-/

namespace VcCommonService.RoleScopes
open Lib Auth TenantUsers Oidc

/-! ### Both calls as one write -/

def Call.window : Call → List OidcModel
  | .replace _ _ window => window
  | .reset _ window => window

def Call.source : Call → RoleScopeSource
  | .replace _ _ _ => .override
  | .reset _ _ => .default

def Call.action : Call → AuditAction
  | .replace _ _ _ => .update
  | .reset _ _ => .delete

def Call.assertAllowed : Call → Except RoleScopeError Unit
  | .replace request requested _ =>
    assertScopesAssignable request.role (Js.sort (Js.setOf requested))
  | .reset request _ => assertRoleMutable request.role

def Call.apply : Call → Db → Db × List String
  | .replace request requested _ => fun db =>
    (upsertTenantRoleScopes db request.tenantId request.role (Js.sort (Js.setOf requested)),
      Js.sort (Js.setOf requested))
  | .reset request _ => fun db =>
    (deleteTenantRoleScopes db request.tenantId request.role,
      (findDefaultRoleScopes (deleteTenantRoleScopes db request.tenantId request.role)
        request.role).getD [])

theorem exec_eq (db : Db) (call : Call) :
    exec db call = (do
      call.assertAllowed
      writeMapping db call.request call.source call.action call.apply call.window) := by
  cases call <;> rfl

/-- A call made again: the scopes may come in another order, and more than once. -/
inductive Repeats : Call → Call → Prop where
  | replace (request : RoleScopeWriteRequest) {scopes scopes' : List String}
      (window window' : List OidcModel) (same : ∀ scope, scope ∈ scopes' ↔ scope ∈ scopes) :
      Repeats (.replace request scopes window) (.replace request scopes' window')
  | reset (request : RoleScopeWriteRequest) (window window' : List OidcModel) :
      Repeats (.reset request window) (.reset request window')

theorem Repeats.exec_eq {call again : Call} (h : Repeats call again) (db : Db) :
    exec db again = (do
      call.assertAllowed
      writeMapping db call.request call.source call.action call.apply again.window) := by
  cases h with
  | replace request window window' same =>
    rw [RoleScopes.exec_eq]
    simp only [Call.assertAllowed, Call.apply, Js.sort_setOf_congr same]
    rfl
  | reset request window window' => rfl

/-! ### What an accepted call did -/

theorem apply_tenantUsers (call : Call) (db : Db) :
    (call.apply db).1.tenantUsers = db.tenantUsers := by
  cases call <;> rfl

theorem apply_oidcModels (call : Call) (db : Db) :
    (call.apply db).1.oidcModels = db.oidcModels := by
  cases call <;> rfl

/-- The scopes that the effective scopes of the role lose by the call. -/
def Call.removed (call : Call) (db : Db) : List String :=
  removedScopes (findScopesForRole db call.request.role (some call.request.tenantId))
    (call.apply db).2

structure Accepted (db db' : Db) (call : Call) (result : RoleScopeWriteResult) : Prop where
  allowed : call.assertAllowed = .ok ()
  noEscalation : assertNoEscalation (call.apply db).2 call.request = .ok ()
  hierarchy : HierarchyOk (getTenantRoleMapping (call.apply db).1 call.request.tenantId)
  same : SameMappings (call.apply db).1 db'
  tenantUsers : db'.tenantUsers = db.tenantUsers
  returned : ∃ count, result = ⟨call.request.role, (call.apply db).2, call.source, count⟩
  kept : call.removed db = [] → db'.oidcModels = db.oidcModels ∧ result.revokedRecordCount = 0
  revoked : call.removed db ≠ [] → ∃ models, db'.oidcModels =
    (deleteAllForTenantRole db.tenantUsers models call.request.tenantId call.request.role).1

theorem writeTransaction_returned {db db' : Db} {request : RoleScopeWriteRequest}
    {source : RoleScopeSource} {action : AuditAction} {apply : Db → Db × List String}
    {result : RoleScopeWriteResult} {narrowed : Bool}
    (h : writeTransaction db request source action apply = .ok (db', result, narrowed)) :
    assertNoEscalation (apply db).2 request = .ok () ∧
      (∃ count, result = ⟨request.role, (apply db).2, source, count⟩) ∧
      (narrowed = false → result.revokedRecordCount = 0) := by
  unfold writeTransaction at h
  dsimp only at h
  obtain ⟨_, hescalation, h⟩ := bind_eq_ok.mp h
  obtain ⟨_, _, h⟩ := bind_eq_ok.mp h
  cases h
  refine ⟨hescalation, ⟨_, rfl⟩, fun hkept => ?_⟩
  rw [hkept]
  rfl

theorem exec_accepted {db db' : Db} {call : Call} {result : RoleScopeWriteResult}
    (h : exec db call = .ok (db', result)) : Accepted db db' call result := by
  rw [exec_eq] at h
  obtain ⟨_, hallowed, h⟩ := bind_eq_ok.mp h
  obtain ⟨hsame, hhierarchy⟩ := writeMapping_ok h
  unfold writeMapping at h
  obtain ⟨⟨committed, committedResult, narrowed⟩, htransaction, h⟩ := bind_eq_ok.mp h
  obtain ⟨husers, hmodels, hnarrowed⟩ := writeTransaction_records htransaction
  obtain ⟨hescalation, ⟨count, hresult⟩, hzero⟩ := writeTransaction_returned htransaction
  rw [apply_tenantUsers] at husers
  rw [apply_oidcModels] at hmodels
  rw [scopesOf_mapping] at hnarrowed
  dsimp only at h
  cases narrowed with
  | false =>
    cases h
    have hnil : call.removed db = [] := not_not.mp (of_decide_eq_false hnarrowed.symm)
    exact ⟨hallowed, hescalation, hhierarchy, hsame, husers, ⟨count, hresult⟩,
      fun _ => ⟨hmodels, hzero rfl⟩, fun hne => absurd hnil hne⟩
  | true =>
    have hne : call.removed db ≠ [] := of_decide_eq_true hnarrowed.symm
    simp only [Bool.not_true, Bool.false_eq_true, if_false] at h
    split at h
    · cases h
      refine ⟨hallowed, hescalation, hhierarchy, hsame, husers, ⟨count, hresult⟩,
        fun hnil => absurd hnil hne, fun _ => ⟨committed.oidcModels ++ call.window, ?_⟩⟩
      rw [← husers]
      rfl
    · cases h
      refine ⟨hallowed, hescalation, hhierarchy, hsame, husers, ⟨_, by rw [hresult]⟩,
        fun hnil => absurd hnil hne, fun _ => ⟨committed.oidcModels ++ call.window, ?_⟩⟩
      rw [← husers]
      rfl

/-- The role resolves to what the call wrote, and writing it once more changes nothing. -/
theorem apply_settled {db db' : Db} (call : Call) (h : SameMappings (call.apply db).1 db') :
    call.apply db' = (db', (call.apply db).2) ∧
      resolve db' call.request.tenantId call.request.role =
        ⟨call.request.role, (call.apply db).2, call.source⟩ := by
  have hsettled : ∀ (tenantId : TenantId) (role : TenantRole) (scopes : Option (List String)),
      db'.tenantRoleScope tenantId role = scopes →
        setTenantRoleScopes db' tenantId role scopes = db' := by
    intro tenantId role scopes hrow
    unfold setTenantRoleScopes
    cases db' with
    | mk roleScope tenantRoleScope tenantUsers oidcModels auditLog =>
      congr 1
      funext t r
      split
      next heq => rw [heq.1, heq.2, ← hrow]
      next => rfl
  cases call with
  | replace request requested window =>
    have hrow : db'.tenantRoleScope request.tenantId request.role =
        some (Js.sort (Js.setOf requested)) := by
      rw [h.1]
      simp [Call.apply, upsertTenantRoleScopes, setTenantRoleScopes]
    refine ⟨congrArg₂ Prod.mk (hsettled _ _ _ hrow) rfl, ?_⟩
    simp only [resolve, Call.request, hrow]
    rfl
  | reset request window =>
    have hrow : db'.tenantRoleScope request.tenantId request.role = none := by
      rw [h.1]
      simp [Call.apply, deleteTenantRoleScopes, setTenantRoleScopes]
    have hdefault : findDefaultRoleScopes db' request.role =
        findDefaultRoleScopes (deleteTenantRoleScopes db request.tenantId request.role)
          request.role := by
      unfold findDefaultRoleScopes
      rw [h.2]
      rfl
    have hdelete : deleteTenantRoleScopes db' request.tenantId request.role = db' :=
      hsettled _ _ _ hrow
    refine ⟨?_, ?_⟩
    · simp only [Call.apply, hdelete, hdefault]
    · simp only [resolve, Call.request, hrow, Call.apply, hdefault]
      rfl

/-! ### The same call again -/

theorem writeTransaction_settled {db : Db} {request : RoleScopeWriteRequest}
    {source : RoleScopeSource} {action : AuditAction} {apply : Db → Db × List String}
    {scopes : List String}
    (hresolved : resolve db request.tenantId request.role = ⟨request.role, scopes, source⟩)
    (happly : apply db = (db, scopes)) (hescalation : assertNoEscalation scopes request = .ok ())
    (hhierarchy : HierarchyOk (getTenantRoleMapping db request.tenantId)) :
    writeTransaction db request source action apply =
      .ok (db, ⟨request.role, scopes, source, 0⟩, false) := by
  have hremoved : removedScopes scopes scopes = [] :=
    (excessScopes_eq_nil scopes scopes).mpr fun _ hscope => hscope
  unfold writeTransaction
  simp only [find_mapping, hresolved, happly, Option.map_some, Option.getD_some, hescalation,
    (assertHierarchy_ok _).mpr hhierarchy, hremoved]
  simp only [ne_eq, not_true_eq_false, decide_false, Bool.or_self, Bool.false_eq_true, if_false]
  rfl

theorem exec_again {db db' db'' : Db} {call again : Call} {result : RoleScopeWriteResult}
    (hcall : exec db call = .ok (db', result)) (hagain : Repeats call again)
    (hsame : SameMappings db' db'') :
    exec db'' again = .ok (db'', { result with revokedRecordCount := 0 }) := by
  have haccepted := exec_accepted hcall
  obtain ⟨happly, hresolved⟩ := apply_settled call (sameMappings_trans haccepted.same hsame)
  obtain ⟨count, hresult⟩ := haccepted.returned
  have hhierarchy : HierarchyOk (getTenantRoleMapping db'' call.request.tenantId) := by
    rw [sameMappings_mapping hsame, sameMappings_mapping haccepted.same]
    exact haccepted.hierarchy
  have htransaction : writeTransaction db'' call.request call.source call.action call.apply =
      .ok (db'', ⟨call.request.role, (call.apply db).2, call.source, 0⟩, false) :=
    writeTransaction_settled hresolved happly haccepted.noEscalation hhierarchy
  rw [hagain.exec_eq, haccepted.allowed, writeMapping, htransaction, hresult]
  rfl

/-! ### Rows with timestamps -/

structure OverrideRow where
  scopes : List String
  createdAt : ℕ
  updatedAt : ℕ
  deriving Repr, DecidableEq

/-- The database with the whole rows of `tenant_role_scope`. -/
structure Tables where
  roleScope : List (TenantRole × String)
  overrides : TenantId → TenantRole → Option OverrideRow
  tenantUsers : List TenantUser
  oidcModels : List OidcModel
  auditLog : List AuditEntry

def Tables.db (tables : Tables) : Db where
  roleScope := tables.roleScope
  tenantRoleScope := fun tenantId role => (tables.overrides tenantId role).map OverrideRow.scopes
  tenantUsers := tables.tenantUsers
  oidcModels := tables.oidcModels
  auditLog := tables.auditLog

def setRow (tables : Tables) (tenantId : TenantId) (role : TenantRole)
    (row : Option OverrideRow) : Tables :=
  { tables with
    overrides := fun t r => if t = tenantId ∧ r = role then row else tables.overrides t r }

/-- `ON CONFLICT … DO UPDATE SET scopes = EXCLUDED.scopes, updated_at = CURRENT_TIMESTAMP`. -/
def upsertRow (now : ℕ) (tables : Tables) (tenantId : TenantId) (role : TenantRole)
    (scopes : List String) : Tables :=
  setRow tables tenantId role (some
    (match tables.overrides tenantId role with
    | some row => { row with scopes := scopes, updatedAt := now }
    | none => ⟨scopes, now, now⟩))

def deleteRow (tables : Tables) (tenantId : TenantId) (role : TenantRole) : Tables :=
  setRow tables tenantId role none

/-- The statement of a call on `tenant_role_scope`. -/
def writeRow (now : ℕ) (tables : Tables) : Call → Tables
  | .replace request requested _ =>
    upsertRow now tables request.tenantId request.role (Js.sort (Js.setOf requested))
  | .reset request _ => deleteRow tables request.tenantId request.role

/-- A call whose transaction began at `now`. -/
def execAt (now : ℕ) (tables : Tables) (call : Call) :
    Except RoleScopeError (Tables × RoleScopeWriteResult) := do
  let (db, result) ← exec tables.db call
  return ({ writeRow now tables call with
    oidcModels := db.oidcModels, auditLog := db.auditLog }, result)

@[simp] theorem setRow_db (tables : Tables) (tenantId : TenantId) (role : TenantRole)
    (row : Option OverrideRow) :
    (setRow tables tenantId role row).db =
      setTenantRoleScopes tables.db tenantId role (row.map OverrideRow.scopes) := by
  unfold setRow setTenantRoleScopes Tables.db
  congr 1
  funext t r
  by_cases h : t = tenantId ∧ r = role
  · simp [h]
  · simp [h]

@[simp] theorem upsertRow_db (now : ℕ) (tables : Tables) (tenantId : TenantId) (role : TenantRole)
    (scopes : List String) :
    (upsertRow now tables tenantId role scopes).db =
      upsertTenantRoleScopes tables.db tenantId role scopes := by
  rw [upsertRow, setRow_db, upsertTenantRoleScopes]
  cases tables.overrides tenantId role <;> rfl

@[simp] theorem deleteRow_db (tables : Tables) (tenantId : TenantId) (role : TenantRole) :
    (deleteRow tables tenantId role).db = deleteTenantRoleScopes tables.db tenantId role :=
  setRow_db tables tenantId role none

theorem writeRow_db (now : ℕ) (tables : Tables) (call : Call) :
    (writeRow now tables call).db = (call.apply tables.db).1 := by
  cases call with
  | replace request requested window => exact upsertRow_db now tables _ _ _
  | reset request window => exact deleteRow_db tables _ _

/-- The timestamps change nothing of what a call does. -/
theorem execAt_ok {now : ℕ} {tables tables' : Tables} {call : Call}
    {result : RoleScopeWriteResult} (h : execAt now tables call = .ok (tables', result)) :
    exec tables.db call = .ok (tables'.db, result) := by
  obtain ⟨⟨db', result'⟩, hexec, h⟩ := bind_eq_ok.mp h
  cases h
  have haccepted := exec_accepted hexec
  have hdb : ({ writeRow now tables call with
      oidcModels := db'.oidcModels, auditLog := db'.auditLog } : Tables).db =
      { (writeRow now tables call).db with
        oidcModels := db'.oidcModels, auditLog := db'.auditLog } := rfl
  rw [hexec, hdb, writeRow_db]
  dsimp only
  rw [← haccepted.same.1, ← haccepted.same.2, apply_tenantUsers, ← haccepted.tenantUsers]

/-- The tables after a repeated call: of a repeated `replaceRoleScopes` the row is stamped. -/
def touch (now : ℕ) (tables : Tables) : Call → Tables
  | .replace request _ _ =>
    setRow tables request.tenantId request.role
      ((tables.overrides request.tenantId request.role).map fun row => { row with updatedAt := now })
  | .reset _ _ => tables

theorem setRow_self (tables : Tables) (tenantId : TenantId) (role : TenantRole) :
    setRow tables tenantId role (tables.overrides tenantId role) = tables := by
  unfold setRow
  congr 1
  funext t r
  split
  next heq => rw [heq.1, heq.2]
  next => rfl

theorem writeRow_again {now : ℕ} {tables : Tables} {db : Db} {call again : Call}
    (hagain : Repeats call again) (hsame : SameMappings (call.apply db).1 tables.db) :
    writeRow now tables again = touch now tables again := by
  cases hagain with
  | @replace request scopes scopes' window window' same =>
    have hrow : tables.db.tenantRoleScope request.tenantId request.role =
        some (Js.sort (Js.setOf scopes)) := by
      rw [hsame.1]
      simp [Call.apply, upsertTenantRoleScopes, setTenantRoleScopes]
    obtain ⟨row, hfound, hscopes⟩ := Option.map_eq_some_iff.mp hrow
    simp only [writeRow, upsertRow, touch, hfound, Option.map_some, Js.sort_setOf_congr same,
      ← hscopes]
  | reset request window window' =>
    have hrow : tables.db.tenantRoleScope request.tenantId request.role = none := by
      rw [hsame.1]
      simp [Call.apply, deleteTenantRoleScopes, setTenantRoleScopes]
    have hnone : tables.overrides request.tenantId request.role = none :=
      Option.map_eq_none_iff.mp hrow
    simp only [writeRow, deleteRow, touch, ← hnone]
    exact setRow_self tables request.tenantId request.role

/-! ### Narrowing -/

/-- The role loses one of its effective scopes between the two databases. -/
def Narrows (db db' : Db) (request : RoleScopeWriteRequest) : Prop :=
  ∃ scope ∈ expandEffectiveScopes (findScopesForRole db request.role (some request.tenantId)),
    scope ∉ expandEffectiveScopes (findScopesForRole db' request.role (some request.tenantId))

/-- A session, grant or token of a user who holds the role. -/
def HeldByRole (db : Db) (request : RoleScopeWriteRequest) (m : OidcModel) : Prop :=
  m.modelName ∈ accountBoundModels ∧
    ∃ u ∈ db.tenantUsers, holdsRole request.tenantId request.role u = true ∧
      m.accountId = some u.id

theorem removed_ne_nil_iff {db db' : Db} {call : Call}
    (hsame : SameMappings (call.apply db).1 db') :
    call.removed db ≠ [] ↔ Narrows db db' call.request := by
  have hafter : findScopesForRole db' call.request.role (some call.request.tenantId) =
      (call.apply db).2 := by
    rw [← resolve_scopes, (apply_settled call hsame).2]
  rw [Call.removed, removedScopes, ne_eq, excessScopes_eq_nil, Narrows, hafter]
  push Not
  rfl

theorem not_held_of_left {db : Db} {models : List OidcModel} {request : RoleScopeWriteRequest}
    {m : OidcModel} (hheld : HeldByRole db request m) :
    m ∉ (deleteAllForTenantRole db.tenantUsers models request.tenantId request.role).1 := by
  intro hleft
  obtain ⟨hbound, u, hu, hrole, haccount⟩ := hheld
  exact not_bound_of_left hleft hbound (List.mem_map_of_mem (List.mem_filter.mpr ⟨hu, hrole⟩))
    haccount

theorem exec_revokes {db db' : Db} {call : Call} {result : RoleScopeWriteResult}
    (h : exec db call = .ok (db', result)) :
    (∀ m ∈ db.oidcModels, HeldByRole db call.request m →
        (m ∉ db'.oidcModels ↔ Narrows db db' call.request)) ∧
      (¬ Narrows db db' call.request →
        db'.oidcModels = db.oidcModels ∧ result.revokedRecordCount = 0) := by
  have haccepted := exec_accepted h
  have hnarrows := removed_ne_nil_iff haccepted.same
  have hkept : ¬ Narrows db db' call.request →
      db'.oidcModels = db.oidcModels ∧ result.revokedRecordCount = 0 :=
    fun hnot => haccepted.kept (not_not.mp fun hne => hnot (hnarrows.mp hne))
  refine ⟨fun m hm hheld => ⟨fun hgone => ?_, fun hyes => ?_⟩, hkept⟩
  · by_contra hnot
    rw [(hkept hnot).1] at hgone
    exact hgone hm
  · obtain ⟨models, hleft⟩ := haccepted.revoked (hnarrows.mpr hyes)
    rw [hleft]
    exact not_held_of_left hheld

/-! ### Repeated writes and narrowing writes -/

/-- After an accepted write, the same write again finds nothing to do as long as the mappings are
the ones it left: the same scopes are returned, no audit entry is written, no record is deleted,
and the tables are the same but for `updated_at`. Every record of the role is gone after a write
if and only if the write narrowed the role. -/
theorem execAt_again_and_narrowing {now : ℕ} {tables tables' : Tables} {call : Call}
    {result : RoleScopeWriteResult} (h : execAt now tables call = .ok (tables', result)) :
    (∀ (later : ℕ) (again : Call) (tables'' : Tables), Repeats call again →
        tables''.overrides = tables'.overrides → tables''.roleScope = tables'.roleScope →
        execAt later tables'' again =
          .ok (touch later tables'' again, { result with revokedRecordCount := 0 })) ∧
      (∀ m ∈ tables.oidcModels, HeldByRole tables.db call.request m →
        (m ∉ tables'.oidcModels ↔ Narrows tables.db tables'.db call.request)) ∧
      (¬ Narrows tables.db tables'.db call.request →
        tables'.oidcModels = tables.oidcModels ∧ result.revokedRecordCount = 0) := by
  have hexec := execAt_ok h
  refine ⟨fun later again tables'' hagain hrows hdefaults => ?_, exec_revokes hexec⟩
  have hsame : SameMappings tables'.db tables''.db := by
    refine ⟨?_, hdefaults⟩
    unfold Tables.db
    rw [hrows]
  have hwritten := sameMappings_trans (exec_accepted hexec).same hsame
  have hframe : ∀ now : ℕ, (touch now tables'' again).oidcModels = tables''.oidcModels ∧
      (touch now tables'' again).auditLog = tables''.auditLog := by
    intro now
    cases again <;> exact ⟨rfl, rfl⟩
  rw [execAt, exec_again hexec hagain hsame]
  show Except.ok (({ writeRow later tables'' again with
    oidcModels := tables''.oidcModels, auditLog := tables''.auditLog } : Tables), _) = _
  rw [writeRow_again hagain hwritten, ← (hframe later).1, ← (hframe later).2]

/-- The seeded defaults, and a member with a session. -/
def memberTables : Tables where
  roleScope := seededDb.roleScope
  overrides := fun _ _ => none
  tenantUsers := [⟨"u", "t", some "x", "u@example.com", none, .member, .active⟩]
  oidcModels := [⟨"Session", "s", some "u", none⟩]
  auditLog := []

def narrowMember (scopes : List String) : Call := .replace (ownerRequest .member) scopes []

theorem narrowMember_repeats :
    Repeats (narrowMember ["logs:read", "credentials:offer"])
      (narrowMember ["credentials:offer", "logs:read", "credentials:offer"]) :=
  .replace (ownerRequest .member) [] [] (by simp)

theorem execAt_again_and_narrowing_member :
    ∃ tables' result, execAt 1 memberTables (narrowMember ["logs:read", "credentials:offer"]) =
        .ok (tables', result) ∧
      execAt 2 tables' (narrowMember ["credentials:offer", "logs:read", "credentials:offer"]) =
        .ok (touch 2 tables' (narrowMember ["credentials:offer", "logs:read", "credentials:offer"]),
          { result with revokedRecordCount := 0 }) := by
  have hok : (execAt 1 memberTables
      (narrowMember ["logs:read", "credentials:offer"])).isOk = true := by decide +kernel
  cases h : execAt 1 memberTables (narrowMember ["logs:read", "credentials:offer"]) with
  | error e =>
    rw [h] at hok
    cases hok
  | ok written =>
    exact ⟨written.1, written.2, rfl,
      (execAt_again_and_narrowing h).1 2 _ written.1 narrowMember_repeats rfl rfl⟩

/-- The row of the override is written once more, with a new `updated_at`. -/
theorem replaceRoleScopes_again_stamps_row :
    ¬ ∀ (now later : ℕ) (tables tables' tables'' : Tables) (call again : Call)
        (result result' : RoleScopeWriteResult), Repeats call again →
      execAt now tables call = .ok (tables', result) →
      execAt later tables' again = .ok (tables'', result') →
      tables''.overrides = tables'.overrides := by
  intro hall
  have hrows : (do
      let (tables', _) ← execAt 1 memberTables (narrowMember ["logs:read"])
      let (tables'', _) ← execAt 2 tables' (narrowMember ["logs:read"])
      return (tables'.overrides "t" .member, tables''.overrides "t" .member)) =
      .ok (some ⟨["logs:read"], 1, 1⟩, some ⟨["logs:read"], 1, 2⟩) := by decide +kernel
  obtain ⟨⟨tables', result⟩, hfirst, hrows⟩ := bind_eq_ok.mp hrows
  obtain ⟨⟨tables'', result'⟩, hagain, hrows⟩ := bind_eq_ok.mp hrows
  have hsame := hall 1 2 memberTables tables' tables'' _ _ result result'
    (.replace (ownerRequest .member) [] [] fun _ => Iff.rfl) hfirst hagain
  simp only [hsame] at hrows
  have hpair := Except.ok.inj hrows
  have hboth := (Prod.mk.inj hpair).1.symm.trans (Prod.mk.inj hpair).2
  revert hboth
  decide

end VcCommonService.RoleScopes
