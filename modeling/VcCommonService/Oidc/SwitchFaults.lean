import VcCommonService.Lib.Transaction
import VcCommonService.Oidc.SessionGrants
import VcCommonService.Oidc.SwitchTenant

/-!
# `switchTenant`, statement by statement

The statements of a tenant switch run outside any transaction, and each of them may throw. Up to
the revocation of the previous grant a switch that throws has only added records of its own. From
there on it leaves the caller with less than before: the old grant and its refresh tokens are gone,
and some of the sessions already belong to the other membership.
-/

namespace VcCommonService.Oidc.Faults
open Lib Transaction Auth TenantUsers Tenants

/-! ### The program -/

/-- Where a switch may throw. -/
inductive Point where
  | findCurrent
  | findTarget
  | findTenant
  | findAccessToken
  | findClient
  | findRoleScopes
  | saveGrant
  | saveAccessToken
  | saveRefreshToken
  | findGrant
  | destroyGrant
  | revokeAccessTokens
  | revokeRefreshTokens
  | findSessions
  | saveSession (k : ℕ)
  | deleteAccount
  deriving Repr, DecidableEq

inductive SwitchFailure where
  | refused (error : SwitchError)
  | thrown (point : Point)
  deriving Repr, DecidableEq

/-- The memberships, the clock, and what the provider answers and draws. -/
structure Env extends SwitchEnv where
  users : List TenantUser
  now : Time

structure Tokens where
  grantId : String
  accessTokenId : String
  refreshTokenId : String
  deriving Repr, DecidableEq

/-- What a switch has found before its first write. -/
structure Prepared where
  clientId : String
  current : TenantUser
  target : TenantUser
  previousGrantId : Option String
  deriving Repr, DecidableEq

abbrev Action := Transaction.Action SwitchFailure ModelTable

abbrev Statements := List (Point × (ModelTable → ModelTable))

section Program

variable (fault : Option Point) (env : Env)

def reading (point : Point) : Except SwitchFailure Unit :=
  if fault = some point then .error (.thrown point) else .ok ()

def required {α : Type} (x : Option α) (otherwise : SwitchError) : Except SwitchFailure α :=
  match x with
  | some a => .ok a
  | none => .error (.refused otherwise)

def assertUserToken (request : SwitchRequest) : Except SwitchFailure Unit :=
  if request.tokenType ≠ .user then
    .error (.refused (.forbidden
      "Machine clients cannot switch tenants; each client_id is bound to one tenant"))
  else .ok ()

/-- `switchTenant` up to `assertTenantActive`. -/
def resolve (request : SwitchRequest) :
    Except SwitchFailure (String × TenantUser × TenantUser) := do
  assertUserToken request
  let clientId ← required (Js.truthy request.clientId)
    (.forbidden "Token is missing client_id; cannot switch tenant")
  reading fault .findCurrent
  let current ← required (findById env.users request.sub)
    (.notFound (TenantUsers.notFoundMessage request.sub))
  let externalUserId ← required (Js.truthy current.externalUserId)
    (.forbidden "Token subject is not linked to an external identity")
  reading fault .findTarget
  let target ← required
    ((findByTenantAndExternalUserId env.users request.targetTenantId externalUserId).filter
      fun target => decide (target.status = .active))
    (.tenantAccessDenied "User is not an active member of the target tenant"
      request.targetTenantId current.tenantId)
  reading fault .findTenant
  (assertTenantActive (env.tenantStatus request.targetTenantId)).mapError .refused
  return (clientId, current, target)

def findLive (rows : ModelTable) (modelName id : String) : Option StoredModel :=
  (Table.lookup StoredModel.key (modelName, id) rows).filter fun m =>
    m.expiresAt.all fun t => decide (env.now < t)

def findAccessToken (jti : Option String) (rows : ModelTable) :
    Except SwitchFailure (Option StoredModel) :=
  match Js.truthy jti with
  | none => .ok none
  | some jti => do
    reading fault .findAccessToken
    return findLive env rows "AccessToken" jti

/-- Everything before the first write. -/
def prepare (request : SwitchRequest) (rows : ModelTable) : Except SwitchFailure Prepared := do
  let (clientId, current, target) ← resolve fault env request
  let existingAccessToken ← findAccessToken fault env request.jti rows
  let previousGrantId := Js.truthy (existingAccessToken.bind fun m => m.grantId)
  reading fault .findClient
  if env.isClient clientId then do
    reading fault .findRoleScopes
    return ⟨clientId, current, target, previousGrantId⟩
  else .error (.refused (.forbidden ("OAuth client not found: " ++ clientId)))

def issueStatements (accountId : String) : Statements :=
  [(.saveGrant, saveModel (grantRow env.grantId (some accountId) env.now)),
    (.saveAccessToken, saveModel
      (tokenRow "AccessToken" env.accessTokenId env.grantId (some accountId) env.now)),
    (.saveRefreshToken, saveModel
      (tokenRow "RefreshToken" env.refreshTokenId env.grantId (some accountId) env.now))]

def destroyGrant (grantId : String) : ModelTable → ModelTable :=
  Table.deleteWhere fun m => decide (m.key = ("Grant", grantId))

def revokeTokens (modelName grantId : String) : ModelTable → ModelTable :=
  Table.deleteWhere fun m => decide (m.modelName = modelName ∧ m.grantId = some grantId)

/-- `grant?.destroy()`, then both `revokeByGrantId`. -/
def revokeStatements (grantId : String) (grant : Option StoredModel) : Statements :=
  (if grant.isSome then [(.destroyGrant, destroyGrant grantId)] else []) ++
    [(.revokeAccessTokens, revokeTokens "AccessToken" grantId),
      (.revokeRefreshTokens, revokeTokens "RefreshToken" grantId)]

def revokeGrant (grantId : String) : Action Unit := do
  let grant ← Transaction.find .thrown fault .findGrant (findLive env · "Grant" grantId)
  sequence .thrown fault (revokeStatements grantId grant)

def isSessionOf (accountId : String) (m : StoredModel) : Bool :=
  decide (m.modelName = "Session") && decide (m.accountId = some accountId)

def reboundSession (toAccountId clientId grantId : String) (m : StoredModel) : StoredModel :=
  { m with
    accountId := some toAccountId
    payload := rebindPayload toAccountId clientId grantId m.payload }

def rebindStatements (toAccountId clientId grantId : String) (sessions : ModelTable) : Statements :=
  sessions.mapIdx fun k session =>
    (.saveSession k, saveModel (reboundSession toAccountId clientId grantId session))

def rebindSessionsToAccount (fromAccountId toAccountId clientId grantId : String) :
    Action Unit := do
  let sessions ← Transaction.find .thrown fault .findSessions (List.filter (isSessionOf fromAccountId))
  sequence .thrown fault (rebindStatements toAccountId clientId grantId sessions)

/-- The grant that is revoked: the previous one, unless the provider drew the same id again. -/
def revokedGrant (p : Prepared) : Option String :=
  p.previousGrantId.filter fun previous => decide (previous ≠ env.grantId)

def deleteStatements (p : Prepared) : Statements :=
  if p.current.id ≠ p.target.id then [(.deleteAccount, Oidc.deleteAccount p.current.id)] else []

def writes (p : Prepared) : Action Unit := do
  sequence .thrown fault (issueStatements env p.target.id)
  match revokedGrant env p with
  | none => pure ()
  | some previous => revokeGrant fault env previous
  rebindSessionsToAccount fault p.current.id p.target.id p.clientId env.grantId
  sequence .thrown fault (deleteStatements p)

def switchTenant (request : SwitchRequest) : Action Tokens := do
  let p ← readOnly (prepare fault env request)
  writes fault env p
  return ⟨env.grantId, env.accessTokenId, env.refreshTokenId⟩

end Program

/-! ### The reads -/

section Reads

variable {fault : Option Point} {env : Env} {request : SwitchRequest} {rows : ModelTable}

@[simp] theorem reading_none (point : Point) : reading none point = .ok () := rfl

theorem reading_of_ne {point : Point} (h : fault ≠ some point) : reading fault point = .ok () :=
  if_neg h

/-- Without a fault the checks are those of the switch as one function of the database. -/
theorem resolve_none (env : Env) (request : SwitchRequest) :
    resolve none env request =
      (resolveSwitch env.toSwitchEnv env.users request).mapError .refused := by
  unfold resolve resolveSwitch assertUserToken
  split
  · rfl
  · simp only [reading_none, ok_bind]
    cases Js.truthy request.clientId with
    | none => rfl
    | some clientId =>
      cases findById env.users request.sub with
      | none => rfl
      | some current =>
        simp only [required, ok_bind]
        cases Js.truthy current.externalUserId with
        | none => rfl
        | some externalUserId =>
          simp only [ok_bind]
          cases findByTenantAndExternalUserId env.users request.targetTenantId externalUserId with
          | none => rfl
          | some target =>
            by_cases hactive : target.status = .active
            · simp only [Option.filter_some, hactive]
              cases assertTenantActive (env.tenantStatus request.targetTenantId) <;> rfl
            · have hfilter : (some target).filter (fun target => decide (target.status = .active)) =
                  none := by simp [hactive]
              rw [hfilter]
              simp only [ne_eq, hactive, not_false_eq_true, if_true]
              rfl

theorem resolve_of_ok {r : String × TenantUser × TenantUser}
    (h : resolve fault env request = .ok r) : resolve none env request = .ok r := by
  simp only [resolve, bind_eq_ok] at h ⊢
  obtain ⟨_, huser, clientId, hclient, _, -, current, hcurrent, externalUserId, hexternal, _, -,
    target, htarget, _, -, _, hactive, hreturn⟩ := h
  exact ⟨_, huser, clientId, hclient, (), rfl, current, hcurrent, externalUserId, hexternal, (), rfl,
    target, htarget, (), rfl, _, hactive, hreturn⟩

/-- A fault that lets the reads pass is not one of them. -/
theorem prepare_of_ok {p : Prepared} (h : prepare fault env request rows = .ok p) :
    prepare none env request rows = .ok p := by
  obtain ⟨⟨clientId, current, target⟩, hresolve, h⟩ := bind_eq_ok.mp h
  obtain ⟨token, htoken, h⟩ := bind_eq_ok.mp h
  obtain ⟨_, -, h⟩ := bind_eq_ok.mp h
  have hresolve' := resolve_of_ok hresolve
  have htoken' : findAccessToken none env request.jti rows = .ok token := by
    unfold findAccessToken at htoken ⊢
    cases hjti : Js.truthy request.jti with
    | none =>
      rw [hjti] at htoken
      exact htoken
    | some jti =>
      rw [hjti] at htoken
      obtain ⟨_, -, htoken⟩ := bind_eq_ok.mp htoken
      exact htoken
  rw [prepare, hresolve', ok_bind]
  dsimp only
  rw [htoken', ok_bind, reading_none, ok_bind]
  split at h
  next hclient =>
    obtain ⟨_, -, h⟩ := bind_eq_ok.mp h
    rw [if_pos hclient]
    exact h
  next => cases h

def readPoints : List Point :=
  [.findCurrent, .findTarget, .findTenant, .findAccessToken, .findClient, .findRoleScopes]

theorem prepare_of_write (env : Env) (request : SwitchRequest) (rows : ModelTable)
    (h : ∀ point ∈ readPoints, fault ≠ some point) :
    prepare fault env request rows = prepare none env request rows := by
  have hread : ∀ point ∈ readPoints, reading fault point = reading none point :=
    fun point hpoint => reading_of_ne (h point hpoint)
  simp only [readPoints, List.forall_mem_cons] at hread
  obtain ⟨h1, h2, h3, h4, h5, h6, -⟩ := hread
  simp only [prepare, resolve, findAccessToken, h1, h2, h3, h4, h5, h6]

end Reads

/-! ### The writes as one sequence -/

section Plan

variable (env : Env) (p : Prepared)

def revokePlan (rows : ModelTable) : Statements :=
  match revokedGrant env p with
  | none => []
  | some previous =>
    (.findGrant, id) :: revokeStatements previous (findLive env rows "Grant" previous)

def rebindPlan (rows : ModelTable) : Statements :=
  (.findSessions, id) :: rebindStatements p.target.id p.clientId env.grantId
    (rows.filter (isSessionOf p.current.id))

/-- The tables after the tokens are stored, and after the previous grant is revoked. -/
def issued (rows : ModelTable) : ModelTable := applied (issueStatements env p.target.id) rows

def revoked (rows : ModelTable) : ModelTable :=
  applied (revokePlan env p (issued env p rows)) (issued env p rows)

def plan (rows : ModelTable) : Statements :=
  issueStatements env p.target.id ++ (revokePlan env p (issued env p rows) ++
    (rebindPlan env p (revoked env p rows) ++ deleteStatements p))

theorem writes_eq (fault : Option Point) (rows : ModelTable) :
    writes fault env p ⟨rows, none⟩ = sequence .thrown fault (plan env p rows) ⟨rows, none⟩ := by
  have hrebind : ∀ db, (do
      rebindSessionsToAccount fault p.current.id p.target.id p.clientId env.grantId
      sequence .thrown fault (deleteStatements p) : Action Unit) ⟨db, none⟩ =
      sequence .thrown fault (rebindPlan env p db ++ deleteStatements p) ⟨db, none⟩ := by
    intro db
    rw [rebindSessionsToAccount, Action.bind_assoc]
    exact find_bind (sequence_bind rfl)
  unfold writes plan
  refine sequence_bind ?_
  unfold revoked revokePlan
  cases revokedGrant env p with
  | none => exact hrebind _
  | some previous =>
    dsimp only
    rw [revokeGrant, Action.bind_assoc]
    exact find_bind (sequence_bind (hrebind _))

/-- The tables between the statements of the revocation. -/
def destroyed (rows : ModelTable) : ModelTable :=
  match revokedGrant env p with
  | none => issued env p rows
  | some previous =>
    if (findLive env (issued env p rows) "Grant" previous).isSome then
      destroyGrant previous (issued env p rows)
    else issued env p rows

def accessRevoked (rows : ModelTable) : ModelTable :=
  match revokedGrant env p with
  | none => issued env p rows
  | some previous => revokeTokens "AccessToken" previous (destroyed env p rows)

theorem revoked_eq (rows : ModelTable) :
    revoked env p rows =
      match revokedGrant env p with
      | none => issued env p rows
      | some previous => revokeTokens "RefreshToken" previous (accessRevoked env p rows) := by
  unfold revoked revokePlan accessRevoked destroyed
  cases revokedGrant env p with
  | none => rfl
  | some previous =>
    dsimp only
    unfold revokeStatements
    split <;> rfl

def callerSessions (rows : ModelTable) : ModelTable :=
  (revoked env p rows).filter (isSessionOf p.current.id)

/-- The table after the first `k` sessions are saved. -/
def rebound (rows : ModelTable) (k : ℕ) : ModelTable :=
  applied ((rebindStatements p.target.id p.clientId env.grantId
    (callerSessions env p rows)).take k) (revoked env p rows)

/-- The table that a statement finds, and leaves when it throws. -/
def stateAt (rows : ModelTable) : Point → ModelTable
  | .saveAccessToken => applied ((issueStatements env p.target.id).take 1) rows
  | .saveRefreshToken => applied ((issueStatements env p.target.id).take 2) rows
  | .findGrant | .destroyGrant => issued env p rows
  | .revokeAccessTokens => destroyed env p rows
  | .revokeRefreshTokens => accessRevoked env p rows
  | .findSessions => revoked env p rows
  | .saveSession k => rebound env p rows k
  | .deleteAccount => rebound env p rows (callerSessions env p rows).length
  | _ => rows

/-- The statements that a switch with these findings runs. -/
def Reaches (rows : ModelTable) : Point → Prop
  | .saveGrant | .saveAccessToken | .saveRefreshToken | .findSessions => True
  | .findGrant | .revokeAccessTokens | .revokeRefreshTokens => (revokedGrant env p).isSome = true
  | .destroyGrant => ∃ previous, revokedGrant env p = some previous ∧
      (findLive env (issued env p rows) "Grant" previous).isSome = true
  | .saveSession k => k < (callerSessions env p rows).length
  | .deleteAccount => p.current.id ≠ p.target.id
  | _ => False

theorem rebindStatements_points (toAccountId clientId grantId : String) (sessions : ModelTable) :
    (rebindStatements toAccountId clientId grantId sessions).map Prod.fst =
      (List.range sessions.length).map Point.saveSession := by
  refine List.ext_getElem (by simp [rebindStatements]) fun k _ _ => by simp [rebindStatements]

def revokePoints (rows : ModelTable) : List Point :=
  match revokedGrant env p with
  | none => []
  | some previous =>
    .findGrant :: ((if (findLive env (issued env p rows) "Grant" previous).isSome then
      [.destroyGrant] else []) ++ [.revokeAccessTokens, .revokeRefreshTokens])

theorem plan_points (rows : ModelTable) :
    (plan env p rows).map Prod.fst =
      [.saveGrant, .saveAccessToken, .saveRefreshToken] ++ (revokePoints env p rows ++
        (.findSessions :: (List.range (callerSessions env p rows).length).map .saveSession ++
          if p.current.id ≠ p.target.id then [.deleteAccount] else [])) := by
  have hrevoke : (revokePlan env p (issued env p rows)).map Prod.fst = revokePoints env p rows := by
    unfold revokePlan revokePoints revokeStatements
    cases revokedGrant env p with
    | none => rfl
    | some previous =>
      dsimp only
      split <;> rfl
  have hdelete : (deleteStatements p).map Prod.fst =
      if p.current.id ≠ p.target.id then [.deleteAccount] else [] := by
    unfold deleteStatements
    split <;> rfl
  rw [plan, List.map_append, List.map_append, List.map_append, hrevoke, hdelete, rebindPlan,
    List.map_cons, rebindStatements_points, ← callerSessions]
  rfl

theorem mem_revokePoints_iff (rows : ModelTable) (point : Point) :
    point ∈ revokePoints env p rows ↔ ∃ previous, revokedGrant env p = some previous ∧
      (point = .findGrant ∨
        (findLive env (issued env p rows) "Grant" previous).isSome = true ∧ point = .destroyGrant ∨
        point = .revokeAccessTokens ∨ point = .revokeRefreshTokens) := by
  unfold revokePoints
  cases revokedGrant env p with
  | none => simp
  | some previous =>
    cases hfound : (findLive env (issued env p rows) "Grant" previous).isSome with
    | false => simp [hfound]
    | true => simp [hfound]

theorem mem_plan_iff (rows : ModelTable) (point : Point) :
    point ∈ (plan env p rows).map Prod.fst ↔ Reaches env p rows point := by
  rw [plan_points]
  simp only [List.mem_append, mem_revokePoints_iff]
  cases point <;> simp [Reaches, Option.isSome_iff_exists]

theorem nodup_plan (rows : ModelTable) : ((plan env p rows).map Prod.fst).Nodup := by
  have hsessions : ∀ n, ((List.range n).map Point.saveSession).Nodup := fun n =>
    List.nodup_range.map fun _ _ h => Point.saveSession.inj h
  rw [plan_points]
  unfold revokePoints
  cases revokedGrant env p with
  | none =>
    dsimp only
    split <;> simp [List.nodup_append, hsessions]
  | some previous =>
    dsimp only
    split <;> split <;> simp [List.nodup_append, hsessions]

theorem writes_error {rows : ModelTable} {point : Point} {f : ModelTable → ModelTable}
    {before after : Statements} (hplan : plan env p rows = before ++ (point, f) :: after) :
    writes (some point) env p ⟨rows, none⟩ =
      (.error (.thrown point), ⟨applied before rows, none⟩) := by
  have hnodup := nodup_plan env p rows
  rw [hplan, List.map_append, List.nodup_append] at hnodup
  rw [writes_eq, hplan]
  exact sequence_error (fun statement hstatement =>
    hnodup.2.2 _ (List.mem_map_of_mem hstatement) _ (List.mem_cons_self ..)) rows

theorem writes_ok {rows : ModelTable} {fault : Option Point}
    (h : ∀ point, fault = some point → ¬ Reaches env p rows point) :
    writes fault env p ⟨rows, none⟩ = (.ok (), ⟨applied (plan env p rows) rows, none⟩) := by
  rw [writes_eq]
  refine sequence_ok (fun statement hstatement hfault => ?_) rows
  exact h statement.1 hfault ((mem_plan_iff env p rows statement.1).mp
    (List.mem_map_of_mem hstatement))

/-- The plan around the revocation, where one takes place. -/
theorem plan_revoke (rows : ModelTable) {previous : String}
    (h : revokedGrant env p = some previous) :
    plan env p rows = issueStatements env p.target.id ++ (.findGrant, id) ::
      ((if (findLive env (issued env p rows) "Grant" previous).isSome then
          [(.destroyGrant, destroyGrant previous)] else []) ++
        (.revokeAccessTokens, revokeTokens "AccessToken" previous) ::
        (.revokeRefreshTokens, revokeTokens "RefreshToken" previous) ::
        (rebindPlan env p (revoked env p rows) ++ deleteStatements p)) := by
  simp [plan, revokePlan, revokeStatements, h]

/-- The plan around the `k`-th session. -/
theorem plan_session {rows : ModelTable} {k : ℕ} (h : k < (callerSessions env p rows).length) :
    ∃ f after, plan env p rows =
      (issueStatements env p.target.id ++ (revokePlan env p (issued env p rows) ++ (.findSessions, id) ::
        (rebindStatements p.target.id p.clientId env.grantId (callerSessions env p rows)).take k)) ++
      (.saveSession k, f) :: after := by
  have hlength : k < (rebindStatements p.target.id p.clientId env.grantId
      (callerSessions env p rows)).length := by simpa [rebindStatements] using h
  have hget : (rebindStatements p.target.id p.clientId env.grantId (callerSessions env p rows))[k] =
      (.saveSession k, saveModel (reboundSession p.target.id p.clientId env.grantId
        (callerSessions env p rows)[k])) := by simp [rebindStatements]
  have hsplit := List.take_append_drop k
    (rebindStatements p.target.id p.clientId env.grantId (callerSessions env p rows))
  rw [List.drop_eq_getElem_cons hlength, hget] at hsplit
  refine ⟨saveModel (reboundSession p.target.id p.clientId env.grantId
      (callerSessions env p rows)[k]),
    (rebindStatements p.target.id p.clientId env.grantId
      (callerSessions env p rows)).drop (k + 1) ++ deleteStatements p, ?_⟩
  unfold plan rebindPlan
  rw [← callerSessions]
  conv_lhs => rw [← hsplit]
  simp

theorem writes_at {rows : ModelTable} {point : Point} (h : Reaches env p rows point) :
    writes (some point) env p ⟨rows, none⟩ =
      (.error (.thrown point), ⟨stateAt env p rows point, none⟩) := by
  cases point with
  | saveGrant =>
    have hplan : plan env p rows = [] ++ _ := rfl
    exact writes_error env p hplan
  | saveAccessToken =>
    have hplan : plan env p rows = (issueStatements env p.target.id).take 1 ++ _ := rfl
    exact writes_error env p hplan
  | saveRefreshToken =>
    have hplan : plan env p rows = (issueStatements env p.target.id).take 2 ++ _ := rfl
    exact writes_error env p hplan
  | findGrant =>
    obtain ⟨previous, hprevious⟩ := Option.isSome_iff_exists.mp h
    exact writes_error env p (plan_revoke env p rows hprevious)
  | destroyGrant =>
    obtain ⟨previous, hprevious, hfound⟩ := h
    have hplan := (plan_revoke env p rows hprevious).trans (List.append_cons ..)
    rw [if_pos hfound] at hplan
    rw [writes_error env p hplan, applied_append]
    rfl
  | revokeAccessTokens =>
    obtain ⟨previous, hprevious⟩ := Option.isSome_iff_exists.mp h
    have hplan := ((plan_revoke env p rows hprevious).trans (List.append_cons ..)).trans
      (List.append_assoc ..).symm
    rw [writes_error env p hplan, applied_append, applied_append]
    simp only [stateAt, destroyed, hprevious]
    split <;> rfl
  | revokeRefreshTokens =>
    obtain ⟨previous, hprevious⟩ := Option.isSome_iff_exists.mp h
    have hplan := (((plan_revoke env p rows hprevious).trans (List.append_cons ..)).trans
      (List.append_assoc ..).symm).trans (List.append_cons ..)
    rw [writes_error env p hplan, applied_append, applied_append, applied_append]
    simp only [stateAt, accessRevoked, destroyed, hprevious]
    split <;> rfl
  | findSessions =>
    have hplan : plan env p rows =
        (issueStatements env p.target.id ++ revokePlan env p (issued env p rows)) ++ _ :=
      (List.append_assoc ..).symm
    rw [writes_error env p hplan, applied_append]
    rfl
  | saveSession k =>
    obtain ⟨f, after, hplan⟩ := plan_session env p h
    rw [writes_error env p hplan, applied_append, applied_append]
    rfl
  | deleteAccount =>
    have hne : p.current.id ≠ p.target.id := h
    have hplan : plan env p rows = (issueStatements env p.target.id ++
        (revokePlan env p (issued env p rows) ++ rebindPlan env p (revoked env p rows))) ++
          [(.deleteAccount, Oidc.deleteAccount p.current.id)] := by
      rw [plan, deleteStatements, if_pos hne, List.append_assoc, List.append_assoc]
    have hall : rebindStatements p.target.id p.clientId env.grantId (callerSessions env p rows) =
        (rebindStatements p.target.id p.clientId env.grantId (callerSessions env p rows)).take
          (callerSessions env p rows).length := by
      rw [List.take_of_length_le (by simp [rebindStatements])]
    rw [writes_error env p hplan, applied_append, applied_append]
    simp only [stateAt, rebound]
    rw [← hall]
    rfl
  | _ => exact h.elim

end Plan

/-! ### What becomes of the caller's records -/

/-- A session, grant or refresh token of the membership. -/
def Held (accountId : String) (m : StoredModel) : Prop :=
  m.accountId = some accountId ∧
    (m.modelName = "Session" ∨ m.modelName = "Grant" ∨ m.modelName = "RefreshToken")

/-- Everything that the membership held in `rows` is in `db` and belongs to it. -/
def StillBound (accountId : String) (rows db : ModelTable) : Prop :=
  ∀ m ∈ rows, Held accountId m → ∃ m' ∈ db, m'.key = m.key ∧ m'.accountId = some accountId

/-- The provider draws ids that are not in the table. -/
structure Fresh (env : Env) (rows : ModelTable) : Prop where
  grant : hasModel rows "Grant" env.grantId = false
  accessToken : hasModel rows "AccessToken" env.accessTokenId = false
  refreshToken : hasModel rows "RefreshToken" env.refreshTokenId = false

def isLive (env : Env) (m : StoredModel) : Bool := m.expiresAt.all fun t => decide (env.now < t)

/-- The grant that `grant?.destroy()` deletes. -/
def losesGrant (env : Env) (p : Prepared) (m : StoredModel) : Bool :=
  (revokedGrant env p).any fun previous => decide (m.key = ("Grant", previous)) && isLive env m

/-- A refresh token that is revoked with the grant. -/
def losesToken (env : Env) (p : Prepared) (m : StoredModel) : Bool :=
  (revokedGrant env p).any fun previous =>
    decide (m.modelName = "RefreshToken" ∧ m.grantId = some previous)

section Tables

variable {env : Env} {p : Prepared} {rows : ModelTable}

theorem stillBound_iff {accountId : String} {db : ModelTable} {fate : StoredModel → Option StoredModel}
    (hu : Table.UniqueKeys StoredModel.key db)
    (hfate : ∀ m ∈ rows, Held accountId m → Table.lookup StoredModel.key m.key db = fate m) :
    StillBound accountId rows db ↔
      ∀ m ∈ rows, Held accountId m → ∃ m', fate m = some m' ∧ m'.accountId = some accountId := by
  refine forall₂_congr fun m hm => forall_congr' fun hheld => ?_
  rw [← hfate m hm hheld]
  constructor
  · rintro ⟨m', hm', hkey, haccount⟩
    exact ⟨m', (Table.lookup_eq_some_iff hu).mpr ⟨hm', hkey⟩, haccount⟩
  · rintro ⟨m', hlookup, haccount⟩
    obtain ⟨hm', hkey⟩ := (Table.lookup_eq_some_iff hu).mp hlookup
    exact ⟨m', hm', hkey, haccount⟩

theorem key_ne_of_fresh {modelName id : String} (h : hasModel rows modelName id = false)
    {m : StoredModel} (hm : m ∈ rows) : m.key ≠ (modelName, id) := by
  intro hkey
  have hany : hasModel rows modelName id = true :=
    List.any_eq_true.mpr ⟨m, hm, decide_eq_true hkey⟩
  rw [h] at hany
  cases hany

/-- The tables up to the revocation hold every old record. -/
theorem lookup_issued (hok : TableOk rows) (hfresh : Fresh env rows) {n : ℕ} {m : StoredModel}
    (hm : m ∈ rows) :
    Table.lookup StoredModel.key m.key
      (applied ((issueStatements env p.target.id).take n) rows) = some m := by
  have hrow : Table.lookup StoredModel.key m.key rows = some m :=
    (Table.lookup_eq_some_iff hok.unique).mpr ⟨hm, rfl⟩
  have hkept : ∀ (row : StoredModel) (db : ModelTable), m.key ≠ row.key →
      Table.lookup StoredModel.key m.key db = some m →
      Table.lookup StoredModel.key m.key (saveModel row db) = some m := by
    intro row db hne hdb
    rw [saveModel, Table.lookup_save, if_neg (Ne.symm hne), hdb]
  have hgrant := hkept (grantRow env.grantId (some p.target.id) env.now) rows
    (key_ne_of_fresh hfresh.grant hm) hrow
  have haccess := hkept (tokenRow "AccessToken" env.accessTokenId env.grantId (some p.target.id)
    env.now) _ (key_ne_of_fresh hfresh.accessToken hm) hgrant
  have hrefresh := hkept (tokenRow "RefreshToken" env.refreshTokenId env.grantId
    (some p.target.id) env.now) _ (key_ne_of_fresh hfresh.refreshToken hm) haccess
  match n with
  | 0 => exact hrow
  | 1 => exact hgrant
  | 2 => exact haccess
  | k + 3 =>
    rw [List.take_of_length_le (Nat.le_add_left 3 k)]
    exact hrefresh

theorem tableOk_issued (hok : TableOk rows) (n : ℕ) :
    TableOk (applied ((issueStatements env p.target.id).take n) rows) := by
  have hgrant := tableOk_grantRow hok env.grantId (some p.target.id) env.now
  have haccess := tableOk_tokenRow hgrant (by decide : "AccessToken" ∈ tokenModels)
    env.accessTokenId env.grantId (some p.target.id) env.now
  have hrefresh := tableOk_tokenRow haccess (by decide : "RefreshToken" ∈ tokenModels)
    env.refreshTokenId env.grantId (some p.target.id) env.now
  match n with
  | 0 => exact hok
  | 1 => exact hgrant
  | 2 => exact haccess
  | k + 3 =>
    rw [List.take_of_length_le (Nat.le_add_left 3 k)]
    exact hrefresh

theorem tableOk_destroyed (hok : TableOk rows) : TableOk (destroyed env p rows) := by
  have hissued : TableOk (issued env p rows) := tableOk_issued hok 3
  unfold destroyed
  split
  · exact hissued
  · split
    · exact tableOk_deleteWhere hissued _
    · exact hissued

theorem tableOk_accessRevoked (hok : TableOk rows) : TableOk (accessRevoked env p rows) := by
  unfold accessRevoked
  split
  · exact tableOk_issued hok 3
  · exact tableOk_deleteWhere (tableOk_destroyed hok) _

theorem tableOk_revoked (hok : TableOk rows) : TableOk (revoked env p rows) := by
  rw [revoked_eq]
  split
  · exact tableOk_issued hok 3
  · exact tableOk_deleteWhere (tableOk_accessRevoked hok) _

/-- Under unique keys `grant?.destroy()` deletes the grant if it has not expired. -/
theorem destroyed_eq (hok : TableOk rows) {previous : String}
    (hprevious : revokedGrant env p = some previous) :
    destroyed env p rows = Table.deleteWhere
      (fun m => decide (m.key = ("Grant", previous)) && isLive env m) (issued env p rows) := by
  have hunique : Table.UniqueKeys StoredModel.key (issued env p rows) :=
    (tableOk_issued hok 3).unique
  have hfound : ∀ m ∈ issued env p rows, m.key = ("Grant", previous) →
      (findLive env (issued env p rows) "Grant" previous).isSome = isLive env m := by
    intro m hm hkey
    have hlookup : Table.lookup StoredModel.key ("Grant", previous) (issued env p rows) = some m :=
      (Table.lookup_eq_some_iff hunique).mpr ⟨hm, hkey⟩
    rw [findLive, hlookup]
    change ((some m).filter (isLive env)).isSome = isLive env m
    cases hlive : isLive env m <;> simp [hlive]
  unfold destroyed
  rw [hprevious]
  dsimp only
  split
  next hlive =>
    refine List.filter_congr fun m hm => ?_
    by_cases hkey : m.key = ("Grant", previous)
    · simp [hkey, ← hfound m hm hkey, hlive]
    · simp [hkey]
  next hlive =>
    refine (List.filter_eq_self.mpr fun m hm => ?_).symm
    by_cases hkey : m.key = ("Grant", previous)
    · simpa [hkey, ← hfound m hm hkey] using hlive
    · simp [hkey]

/-- A record of the caller after the grant is destroyed. -/
theorem lookup_destroyed (hok : TableOk rows) (hfresh : Fresh env rows) {m : StoredModel}
    (hm : m ∈ rows) :
    Table.lookup StoredModel.key m.key (destroyed env p rows) =
      if losesGrant env p m then none else some m := by
  have hissued : Table.lookup StoredModel.key m.key (issued env p rows) = some m :=
    lookup_issued hok hfresh hm (n := 3)
  cases hprevious : revokedGrant env p with
  | none => simp [destroyed, losesGrant, hprevious, hissued]
  | some previous =>
    have hloses : losesGrant env p m =
        (decide (m.key = ("Grant", previous)) && isLive env m) := by
      simp [losesGrant, hprevious]
    rw [destroyed_eq hok hprevious, hloses]
    exact Table.lookup_deleteWhere_some (tableOk_issued hok 3).unique _ hissued

theorem lookup_revokeTokens {db : ModelTable} (hok : TableOk db) (modelName grantId : String)
    {m : StoredModel} {lost : Bool}
    (h : Table.lookup StoredModel.key m.key db = if lost then none else some m) :
    Table.lookup StoredModel.key m.key (revokeTokens modelName grantId db) =
      if lost || decide (m.modelName = modelName ∧ m.grantId = some grantId) then none
      else some m := by
  unfold revokeTokens
  cases lost with
  | true =>
    rw [Table.lookup_deleteWhere hok.unique, h]
    rfl
  | false => exact Table.lookup_deleteWhere_some hok.unique _ h

/-- The access tokens are none of the caller's records. -/
theorem lookup_accessRevoked (hok : TableOk rows) (hfresh : Fresh env rows) {m : StoredModel}
    (hm : m ∈ rows) (hmodel : m.modelName ≠ "AccessToken") :
    Table.lookup StoredModel.key m.key (accessRevoked env p rows) =
      if losesGrant env p m then none else some m := by
  have hdestroyed := lookup_destroyed (p := p) hok hfresh hm
  unfold accessRevoked
  cases hprevious : revokedGrant env p with
  | none =>
    have hkept : losesGrant env p m = false := by simp [losesGrant, hprevious]
    rw [hkept]
    exact lookup_issued hok hfresh hm (n := 3)
  | some previous =>
    simpa [hmodel] using
      lookup_revokeTokens (tableOk_destroyed hok) "AccessToken" previous hdestroyed

theorem lookup_revoked (hok : TableOk rows) (hfresh : Fresh env rows) {m : StoredModel}
    (hm : m ∈ rows) (hmodel : m.modelName ≠ "AccessToken") :
    Table.lookup StoredModel.key m.key (revoked env p rows) =
      if losesGrant env p m || losesToken env p m then none else some m := by
  have haccess := lookup_accessRevoked (p := p) hok hfresh hm hmodel
  rw [revoked_eq]
  cases hprevious : revokedGrant env p with
  | none =>
    have hkept : (losesGrant env p m || losesToken env p m) = false := by
      simp [losesGrant, losesToken, hprevious]
    rw [hkept]
    exact lookup_issued hok hfresh hm (n := 3)
  | some previous =>
    have htoken : losesToken env p m =
        decide (m.modelName = "RefreshToken" ∧ m.grantId = some previous) := by
      simp [losesToken, hprevious]
    rw [htoken]
    exact lookup_revokeTokens (tableOk_accessRevoked hok) "RefreshToken" previous haccess

/-! The sessions of the caller are saved one after the other. -/

theorem reboundSession_key (toAccountId clientId grantId : String) (m : StoredModel) :
    (reboundSession toAccountId clientId grantId m).key = m.key := rfl

theorem callerSessions_eq : callerSessions env p rows = rows.filter (isSessionOf p.current.id) := by
  have hsave : ∀ (row : StoredModel) (db : ModelTable), row.modelName ≠ "Session" →
      (saveModel row db).filter (isSessionOf p.current.id) =
        db.filter (isSessionOf p.current.id) := by
    intro row db hrow
    refine Table.filter_save (by simp [isSessionOf, hrow]) fun m _ hkey => ?_
    have hmodel : m.modelName = row.modelName := congrArg Prod.fst hkey
    simp [isSessionOf, hmodel, hrow]
  have hissued : (issued env p rows).filter (isSessionOf p.current.id) =
      rows.filter (isSessionOf p.current.id) := by
    simp only [issued, issueStatements, applied_cons, applied_nil]
    rw [hsave _ _ (by simp [tokenRow]), hsave _ _ (by simp [tokenRow]),
      hsave _ _ (by simp [grantRow])]
  have hsession : ∀ m : StoredModel, isSessionOf p.current.id m = true → m.modelName = "Session" := by
    intro m hm
    simp only [isSessionOf, Bool.and_eq_true, decide_eq_true_eq] at hm
    exact hm.1
  have hdestroyed : (destroyed env p rows).filter (isSessionOf p.current.id) =
      rows.filter (isSessionOf p.current.id) := by
    unfold destroyed
    split
    · exact hissued
    · split
      · rw [destroyGrant, Table.filter_deleteWhere, hissued]
        intro m _ hm
        simp [StoredModel.key, OidcModel.key, hsession m hm]
      · exact hissued
  have haccess : (accessRevoked env p rows).filter (isSessionOf p.current.id) =
      rows.filter (isSessionOf p.current.id) := by
    unfold accessRevoked
    split
    · exact hissued
    · rw [revokeTokens, Table.filter_deleteWhere, hdestroyed]
      intro m _ hm
      simp [hsession m hm]
  rw [callerSessions, revoked_eq]
  split
  · exact hissued
  · rw [revokeTokens, Table.filter_deleteWhere, haccess]
    intro m _ hm
    simp [hsession m hm]

theorem rebound_eq (hok : TableOk rows) (k : ℕ) :
    rebound env p rows k =
      Table.updateWhere (fun m => decide (m ∈ (callerSessions env p rows).take k))
        (reboundSession p.target.id p.clientId env.grantId) (revoked env p rows) := by
  have hsaves : ∀ (label : ℕ → Point) (sessions db : ModelTable),
      applied (sessions.mapIdx fun k session => (label k,
          saveModel (reboundSession p.target.id p.clientId env.grantId session))) db =
        sessions.foldl (fun db session => Table.save StoredModel.key
          (reboundSession p.target.id p.clientId env.grantId session) db) db := by
    intro label sessions
    induction sessions generalizing label with
    | nil => exact fun _ => rfl
    | cons session sessions ih =>
      intro db
      rw [List.mapIdx_cons, applied_cons, ih fun k => label (k + 1)]
      rfl
  have htake : (rebindStatements p.target.id p.clientId env.grantId
      (callerSessions env p rows)).take k = rebindStatements p.target.id p.clientId env.grantId
        ((callerSessions env p rows).take k) := by
    refine List.ext_getElem (by simp [rebindStatements]) fun i _ _ => by simp [rebindStatements]
  have hunique : Table.UniqueKeys StoredModel.key (revoked env p rows) :=
    (tableOk_revoked hok).unique
  rw [rebound, htake, rebindStatements, hsaves]
  refine Table.foldl_save_old (reboundSession_key _ _ _) hunique ?_ ?_
  · exact hunique.sublist (((List.take_sublist ..).trans List.filter_sublist).map _)
  · exact fun m hm => List.mem_of_mem_filter ((List.take_sublist ..).subset hm)

theorem lookup_rebound (hok : TableOk rows) (hfresh : Fresh env rows) (k : ℕ) {m : StoredModel}
    (hm : m ∈ rows) (hmodel : m.modelName ≠ "AccessToken") :
    Table.lookup StoredModel.key m.key (rebound env p rows k) =
      if losesGrant env p m || losesToken env p m then none
      else if m ∈ (callerSessions env p rows).take k then
        some (reboundSession p.target.id p.clientId env.grantId m)
      else some m := by
  rw [rebound_eq hok, Table.lookup_updateWhere _ (reboundSession_key _ _ _),
    lookup_revoked hok hfresh hm hmodel]
  cases losesGrant env p m || losesToken env p m with
  | true => rfl
  | false => by_cases hin : m ∈ (callerSessions env p rows).take k <;> simp [hin]

theorem uniqueKeys_rebound (hok : TableOk rows) (k : ℕ) :
    Table.UniqueKeys StoredModel.key (rebound env p rows k) := by
  rw [rebound_eq hok]
  exact Table.uniqueKeys_updateWhere (reboundSession_key _ _ _) (tableOk_revoked hok).unique

end Tables

/-! ### The condition -/

section Condition

variable (env : Env) (p : Prepared) (rows : ModelTable)

/-- The revocation of the previous grant takes nothing from the caller. -/
def NothingRevoked : Prop :=
  ∀ m ∈ rows, Held p.current.id m → losesGrant env p m = false ∧ losesToken env p m = false

/-- When the statement throws, nothing that the caller held has been touched. -/
def Spared : Point → Prop
  | .revokeAccessTokens | .revokeRefreshTokens =>
    ∀ m ∈ rows, Held p.current.id m → losesGrant env p m = false
  | .findSessions => NothingRevoked env p rows
  | .saveSession k => k < (rows.filter (isSessionOf p.current.id)).length →
      NothingRevoked env p rows ∧ (k = 0 ∨ p.current.id = p.target.id)
  | .deleteAccount => p.current.id ≠ p.target.id →
      NothingRevoked env p rows ∧ rows.filter (isSessionOf p.current.id) = []
  | _ => True

variable {env p rows}

theorem held_model {accountId : String} {m : StoredModel} (h : Held accountId m) :
    m.modelName ≠ "AccessToken" := by
  rcases h.2 with h | h | h <;> simp [h]

/-- A table in which a record is lost exactly where `lost` says. -/
theorem stillBound_of_lost {db : ModelTable} {lost : StoredModel → Bool}
    (hu : Table.UniqueKeys StoredModel.key db)
    (h : ∀ m ∈ rows, Held p.current.id m →
      Table.lookup StoredModel.key m.key db = if lost m then none else some m) :
    StillBound p.current.id rows db ↔
      ∀ m ∈ rows, Held p.current.id m → lost m = false := by
  rw [stillBound_iff hu h]
  refine forall₂_congr fun m _ => forall_congr' fun hheld => ?_
  cases lost m with
  | true => simp
  | false => simpa using hheld.1

theorem held_of_session {accountId : String} {m : StoredModel}
    (h : isSessionOf accountId m = true) : Held accountId m := by
  simp only [isSessionOf, Bool.and_eq_true, decide_eq_true_eq] at h
  exact ⟨h.2, Or.inl h.1⟩

theorem session_not_lost {m : StoredModel} (h : isSessionOf p.current.id m = true) :
    (losesGrant env p m || losesToken env p m) = false := by
  simp only [isSessionOf, Bool.and_eq_true, decide_eq_true_eq] at h
  simp [losesGrant, losesToken, StoredModel.key, OidcModel.key, h.1]

theorem stillBound_rebound (hok : TableOk rows) (hfresh : Fresh env rows) (k : ℕ) :
    StillBound p.current.id rows (rebound env p rows k) ↔
      NothingRevoked env p rows ∧
        (p.current.id = p.target.id ∨ (rows.filter (isSessionOf p.current.id)).take k = []) := by
  rw [stillBound_iff (uniqueKeys_rebound hok k) fun m hm hheld =>
    lookup_rebound hok hfresh k hm (held_model hheld), callerSessions_eq]
  constructor
  · intro h
    constructor
    · intro m hm hheld
      obtain ⟨m', hfate, -⟩ := h m hm hheld
      split at hfate
      · cases hfate
      next hkept => simpa using hkept
    · by_contra hnot
      obtain ⟨hne, hsome⟩ := not_or.mp hnot
      obtain ⟨m, hfirst⟩ := List.exists_mem_of_ne_nil _ hsome
      obtain ⟨hm, hsession⟩ := List.mem_filter.mp ((List.take_sublist ..).subset hfirst)
      obtain ⟨m', hfate, haccount⟩ := h m hm (held_of_session hsession)
      rw [session_not_lost hsession, if_neg (by decide), if_pos hfirst] at hfate
      cases hfate
      exact hne (Option.some.inj haccount).symm
  · rintro ⟨hnothing, hsessions⟩ m hm hheld
    obtain ⟨hgrant, htoken⟩ := hnothing m hm hheld
    rw [hgrant, htoken, if_neg (by decide)]
    split
    next hfirst =>
      refine ⟨_, rfl, ?_⟩
      rcases hsessions with hsame | hnone
      · exact congrArg some hsame.symm
      · rw [hnone] at hfirst
        cases hfirst
    next => exact ⟨m, rfl, hheld.1⟩

theorem stillBound_stateAt (hok : TableOk rows) (hfresh : Fresh env rows) {point : Point}
    (h : Reaches env p rows point) :
    StillBound p.current.id rows (stateAt env p rows point) ↔ Spared env p rows point := by
  have hissued : ∀ n, StillBound p.current.id rows
      (applied ((issueStatements env p.target.id).take n) rows) := by
    intro n m hm hheld
    have hlookup := lookup_issued (n := n) (p := p) hok hfresh hm
    obtain ⟨hin, -⟩ := (Table.lookup_eq_some_iff (tableOk_issued hok n).unique).mp hlookup
    exact ⟨m, hin, rfl, hheld.1⟩
  cases point with
  | saveGrant => exact iff_of_true (hissued 0) trivial
  | saveAccessToken => exact iff_of_true (hissued 1) trivial
  | saveRefreshToken => exact iff_of_true (hissued 2) trivial
  | findGrant => exact iff_of_true (hissued 3) trivial
  | destroyGrant => exact iff_of_true (hissued 3) trivial
  | revokeAccessTokens =>
    exact stillBound_of_lost (tableOk_destroyed hok).unique
      fun m hm _ => lookup_destroyed hok hfresh hm
  | revokeRefreshTokens =>
    exact stillBound_of_lost (tableOk_accessRevoked hok).unique
      fun m hm hheld => lookup_accessRevoked hok hfresh hm (held_model hheld)
  | findSessions =>
    refine (stillBound_of_lost (tableOk_revoked hok).unique fun m hm hheld =>
      lookup_revoked hok hfresh hm (held_model hheld)).trans ?_
    simp only [Spared, NothingRevoked, Bool.or_eq_false_iff]
  | saveSession k =>
    have hk : k < (rows.filter (isSessionOf p.current.id)).length := callerSessions_eq ▸ h
    have htake : (rows.filter (isSessionOf p.current.id)).take k = [] ↔ k = 0 := by
      rw [List.take_eq_nil_iff]
      exact or_iff_left (List.ne_nil_of_length_pos (Nat.zero_lt_of_lt hk))
    refine (stillBound_rebound hok hfresh k).trans ?_
    rw [htake, or_comm]
    exact ⟨fun hspared _ => hspared, fun hspared => hspared hk⟩
  | deleteAccount =>
    have hne : p.current.id ≠ p.target.id := h
    refine (stillBound_rebound hok hfresh _).trans ?_
    rw [callerSessions_eq, List.take_length, or_iff_right hne]
    exact ⟨fun hspared _ => hspared, fun hspared => hspared hne⟩
  | _ => exact h.elim

theorem spared_of_not_reached {point : Point} (h : ¬ Reaches env p rows point) :
    Spared env p rows point := by
  cases point with
  | revokeAccessTokens =>
    have hnone : revokedGrant env p = none := by simpa [Reaches] using h
    intro m _ _
    simp [losesGrant, hnone]
  | revokeRefreshTokens =>
    have hnone : revokedGrant env p = none := by simpa [Reaches] using h
    intro m _ _
    simp [losesGrant, hnone]
  | findSessions => exact absurd trivial h
  | saveSession k =>
    intro hk
    have hreached : Reaches env p rows (.saveSession k) := by
      rw [Reaches, callerSessions_eq]
      exact hk
    exact absurd hreached h
  | deleteAccount => exact fun hne => absurd hne h
  | _ => trivial

end Condition

/-! ### Without a fault -/

section Completed

variable {env : Env} {p : Prepared} {rows : ModelTable}

theorem revoked_eq_revokePrevious (hok : TableOk rows) :
    revoked env p rows =
      revokePrevious p.previousGrantId env.grantId env.now (issued env p rows) := by
  rw [revoked_eq]
  cases hprevious : p.previousGrantId with
  | none =>
    have hnone : revokedGrant env p = none := by rw [revokedGrant, hprevious]; rfl
    rw [hnone]
    rfl
  | some previous =>
    by_cases hsame : previous = env.grantId
    · have hnone : revokedGrant env p = none := by simp [revokedGrant, hprevious, hsame]
      rw [hnone, revokePrevious, if_pos hsame]
    · have hsome : revokedGrant env p = some previous := by simp [revokedGrant, hprevious, hsame]
      rw [hsome, revokePrevious, if_neg hsame]
      dsimp only
      rw [accessRevoked, hsome]
      dsimp only
      rw [destroyed_eq hok hsome]
      unfold revokeTokens Table.deleteWhere
      rw [List.filter_filter, List.filter_filter]
      refine List.filter_congr fun m _ => ?_
      rw [← Bool.not_or, ← Bool.not_or]
      simp only [or_and_right, Bool.decide_or, isLive]
      ac_rfl

theorem rebound_eq_rebindSessions (hok : TableOk rows) :
    rebound env p rows (callerSessions env p rows).length =
      rebindSessions p.current.id p.target.id p.clientId env.grantId (revoked env p rows) := by
  rw [rebound_eq hok, List.take_length, rebindSessions]
  refine List.map_congr_left fun m hm => ?_
  have hmem : (m ∈ callerSessions env p rows) ↔ isSessionOf p.current.id m = true := by
    rw [callerSessions, List.mem_filter]
    exact and_iff_right hm
  exact if_congr (decide_eq_true_iff.trans hmem) rfl rfl

end Completed

/-! ### All or nothing -/

section Outcome

variable {fault : Option Point} {env : Env} {p : Prepared} {request : SwitchRequest}
  {rows : ModelTable}

/-- Every session of the membership is in `db` and belongs to the other one, in its column and in
its payload. -/
def BoundTo (accountId targetId : String) (rows db : ModelTable) : Prop :=
  ∀ m ∈ rows, isSessionOf accountId m = true → ∃ m' ∈ db, m'.key = m.key ∧
    m'.accountId = some targetId ∧ Json.get m'.payload "accountId" = some (.str targetId)

theorem get_rebindPayload (toAccountId clientId grantId : String) (payload : Json.Members) :
    Json.get (rebindPayload toAccountId clientId grantId payload) "accountId" =
      some (.str toAccountId) := by
  have hrebound : Json.get (Json.set payload "accountId" (.str toAccountId)) "accountId" =
      some (.str toAccountId) := by rw [Json.get_set, if_pos rfl]
  unfold rebindPayload
  dsimp only
  split
  · split
    · rw [Json.get_set, if_neg (by decide), hrebound]
    · exact hrebound
  · exact hrebound

theorem applied_plan (env : Env) (p : Prepared) (rows : ModelTable) :
    applied (plan env p rows) rows = applied (deleteStatements p)
      (rebound env p rows (callerSessions env p rows).length) := by
  have hall : (rebindStatements p.target.id p.clientId env.grantId (callerSessions env p rows)).take
      (callerSessions env p rows).length =
      rebindStatements p.target.id p.clientId env.grantId (callerSessions env p rows) :=
    List.take_of_length_le (by simp [rebindStatements])
  rw [plan, applied_append, applied_append, applied_append, rebound, hall]
  rfl

/-- `deleteAllForAccount` spares the sessions that belong to the target by then. -/
theorem boundTo_applied_plan (hok : TableOk rows) (hfresh : Fresh env rows) :
    BoundTo p.current.id p.target.id rows (applied (plan env p rows) rows) := by
  intro m hm hsession
  have hheld := held_of_session hsession
  have hmem : m ∈ (callerSessions env p rows).take (callerSessions env p rows).length := by
    rw [List.take_length, callerSessions_eq]
    exact List.mem_filter.mpr ⟨hm, hsession⟩
  have hlookup := lookup_rebound (p := p) hok hfresh (callerSessions env p rows).length hm
    (held_model hheld)
  rw [session_not_lost hsession, if_neg (by decide), if_pos hmem] at hlookup
  obtain ⟨hin, hkey⟩ := (Table.lookup_eq_some_iff (uniqueKeys_rebound hok _)).mp hlookup
  refine ⟨_, ?_, hkey, rfl, get_rebindPayload ..⟩
  rw [applied_plan]
  unfold deleteStatements
  split
  next hne =>
    have hmodel : m.modelName = "Session" := by
      simp only [isSessionOf, Bool.and_eq_true, decide_eq_true_eq] at hsession
      exact hsession.1
    have hgrantId : m.grantId = none := hok.noGrantId m hm (Or.inl hmodel)
    refine (Table.mem_deleteWhere ..).mpr ⟨hin, ?_⟩
    simp [boundTo, reboundSession, hgrantId, Ne.symm hne]
  next => exact hin

theorem prepare_ok (h : prepare none env request rows = .ok p) :
    resolveSwitch env.toSwitchEnv env.users request = .ok (p.clientId, p.current, p.target) ∧
      p.current.id = request.sub := by
  obtain ⟨⟨clientId, current, target⟩, hresolve, h⟩ := bind_eq_ok.mp h
  obtain ⟨token, -, h⟩ := bind_eq_ok.mp h
  have hp : p.clientId = clientId ∧ p.current = current ∧ p.target = target := by
    simp only [reading_none, ok_bind] at h
    split at h
    · cases h
      exact ⟨rfl, rfl, rfl⟩
    · cases h
  have hcurrent : current.id = request.sub := by
    have hsteps := hresolve
    simp only [resolve, bind_eq_ok] at hsteps
    obtain ⟨_, -, _, -, _, -, found, hfound, _, -, _, -, _, -, _, -, _, -, hreturn⟩ := hsteps
    cases hreturn
    unfold required at hfound
    split at hfound
    next hfind =>
      cases hfound
      have hid := List.find?_some hfind
      exact of_decide_eq_true hid
    next => cases hfound
  obtain ⟨hclient, hcur, htarget⟩ := hp
  rw [hclient, hcur, htarget]
  refine ⟨?_, hcurrent⟩
  rw [resolve_none] at hresolve
  cases hresult : resolveSwitch env.toSwitchEnv env.users request with
  | error e =>
    rw [hresult] at hresolve
    cases hresolve
  | ok r =>
    rw [hresult] at hresolve
    cases hresolve
    rfl

/-- Without a fault the statements make the step of the provider's tables. -/
theorem modelStep_switchTenant {κ : Type} [LinearOrder κ] (collate : String → κ)
    (hok : TableOk rows) (hfresh : Fresh env rows)
    (hprepared : prepare none env request rows = .ok p) :
    modelStep collate rows (.switchTenant p.current.id p.target.id p.clientId p.previousGrantId
      env.grantId env.accessTokenId env.refreshTokenId env.now) =
        some (switchTenant none env request ⟨rows, none⟩).2.committed := by
  have hnone : ∀ point, none = some point → ¬ Reaches env p rows point := fun _ h => nomatch h
  rw [switchTenant, Action.bind_apply, readOnly_apply, hprepared, Action.next_ok, Action.bind_apply,
    writes_ok env p hnone, Action.next_ok, Action.pure_apply, applied_plan,
    rebound_eq_rebindSessions hok, revoked_eq_revokePrevious hok, modelStep, hfresh.grant,
    hfresh.accessToken, hfresh.refreshToken, if_neg (by decide)]
  unfold deleteStatements
  dsimp only
  by_cases hsame : p.current.id = p.target.id
  · rw [if_pos hsame, if_neg (not_not_intro hsame)]
    rfl
  · rw [if_neg hsame, if_pos hsame]
    rfl

/-- Either the tokens are returned and the caller's sessions belong to the target membership, or
the caller holds what it held before. -/
def AllOrNothing (fault : Option Point) (env : Env) (request : SwitchRequest) (rows : ModelTable) :
    Prop :=
  match switchTenant fault env request ⟨rows, none⟩ with
  | (.ok _, after) => ∃ clientId current target,
      resolveSwitch env.toSwitchEnv env.users request = .ok (clientId, current, target) ∧
        BoundTo request.sub target.id rows after.committed
  | (.error _, after) => StillBound request.sub rows after.committed

theorem stillBound_refl (accountId : String) (rows : ModelTable) : StillBound accountId rows rows :=
  fun m hm hheld => ⟨m, hm, rfl, hheld.1⟩

/-- The outcome, once the reads have passed. -/
theorem allOrNothing_of_prepared (hok : TableOk rows) (hfresh : Fresh env rows)
    (hprepared : prepare fault env request rows = .ok p) :
    AllOrNothing fault env request rows ↔ ∀ point, fault = some point → Spared env p rows point := by
  obtain ⟨hresolve, hcurrent⟩ := prepare_ok (prepare_of_ok hprepared)
  have hswitch : switchTenant fault env request ⟨rows, none⟩ =
      (writes fault env p >>= fun _ => (pure ⟨env.grantId, env.accessTokenId, env.refreshTokenId⟩ :
        Action Tokens)) ⟨rows, none⟩ := by
    rw [switchTenant, Action.bind_apply, readOnly_apply, hprepared, Action.next_ok]
  rw [AllOrNothing, hswitch, Action.bind_apply]
  by_cases hreached : ∃ point, fault = some point ∧ Reaches env p rows point
  · obtain ⟨point, rfl, hreached⟩ := hreached
    rw [writes_at env p hreached, Action.next_error]
    change StillBound request.sub rows (stateAt env p rows point) ↔ _
    rw [← hcurrent, stillBound_stateAt hok hfresh hreached]
    constructor
    · rintro hspared _ ⟨⟩
      exact hspared
    · exact fun hspared => hspared point rfl
  · have hnot : ∀ point, fault = some point → ¬ Reaches env p rows point :=
      fun point hpoint hreach => hreached ⟨point, hpoint, hreach⟩
    rw [writes_ok env p hnot, Action.next_ok, Action.pure_apply]
    refine iff_of_true ⟨_, _, _, hresolve, ?_⟩ fun point hpoint =>
      spared_of_not_reached (hnot point hpoint)
    rw [← hcurrent]
    exact boundTo_applied_plan hok hfresh

/-- The switch is all or nothing exactly if the step that throws comes before anything that the
caller held has been touched. -/
theorem switchTenant_allOrNothing_iff (fault : Option Point) (env : Env) (request : SwitchRequest)
    (rows : ModelTable) (hok : TableOk rows) (hfresh : Fresh env rows) :
    AllOrNothing fault env request rows ↔
      ∀ p, prepare none env request rows = .ok p →
        ∀ point, fault = some point → Spared env p rows point := by
  cases hprepare : prepare fault env request rows with
  | ok p =>
    rw [allOrNothing_of_prepared hok hfresh hprepare, prepare_of_ok hprepare]
    constructor
    · rintro h _ ⟨⟩
      exact h
    · exact fun h => h p rfl
  | error e =>
    have hstays : AllOrNothing fault env request rows := by
      rw [AllOrNothing, switchTenant, Action.bind_apply, readOnly_apply, hprepare, Action.next_error]
      exact stillBound_refl _ _
    refine iff_of_true hstays fun p hp point hpoint => ?_
    -- The point is one of the reads: otherwise the reads would have passed.
    by_cases hread : point ∈ readPoints
    · simp only [readPoints, List.mem_cons, List.not_mem_nil, or_false] at hread
      rcases hread with rfl | rfl | rfl | rfl | rfl | rfl <;> trivial
    · have hsame : prepare fault env request rows = prepare none env request rows := by
        refine prepare_of_write env request rows fun other hother heq => ?_
        rw [hpoint] at heq
        exact hread (Option.some.inj heq ▸ hother)
      rw [hprepare, hp] at hsame
      cases hsame

end Outcome

/-! ### A user with two memberships -/

def firstMembership : TenantUser := ⟨"u1", "t1", some "k", "a@example.com", none, .member, .active⟩

def secondMembership : TenantUser := ⟨"u2", "t2", some "k", "a@example.com", none, .member, .active⟩

def twoTenants : Env where
  tenantStatus := fun _ => some .active
  isClient := fun clientId => decide (clientId = "ui")
  audience := "api"
  live := fun _ => true
  grantId := "g2"
  accessTokenId := "a2"
  refreshTokenId := "r2"
  users := [firstMembership, secondMembership]
  now := 5

def toSecondTenant : SwitchRequest := ⟨"u1", .user, some "ui", some "a1", "t2"⟩

/-- A browser session, and the tokens of the client `ui` under one grant. -/
def signedIn : ModelTable :=
  [{ modelName := "Session", oidcId := "s1", accountId := some "u1", grantId := none
     createdAt := 1 },
    grantRow "g1" (some "u1") 2, tokenRow "AccessToken" "a1" "g1" (some "u1") 3,
    tokenRow "RefreshToken" "r1" "g1" (some "u1") 3]

theorem tableOk_signedIn : TableOk signedIn := by
  constructor <;> decide +kernel

theorem fresh_signedIn : Fresh twoTenants signedIn := by
  constructor <;> decide +kernel

theorem switchTenant_allOrNothing_token_save :
    AllOrNothing (some .saveRefreshToken) twoTenants toSecondTenant signedIn := by
  refine (switchTenant_allOrNothing_iff _ _ _ _ tableOk_signedIn fresh_signedIn).mpr ?_
  rintro p - _ ⟨⟩
  trivial

/-- The session cannot be saved: the switch throws, and the caller's grant and refresh token are
gone. -/
theorem switchTenant_loses_grant :
    ¬ ∀ (fault : Option Point) (env : Env) (request : SwitchRequest) (rows : ModelTable),
      TableOk rows → Fresh env rows → AllOrNothing fault env request rows := by
  intro hall
  have hkept : StillBound "u1" signedIn
      (switchTenant (some (.saveSession 0)) twoTenants toSecondTenant ⟨signedIn, none⟩).2.committed :=
    hall (some (.saveSession 0)) twoTenants toSecondTenant signedIn tableOk_signedIn fresh_signedIn
  obtain ⟨m, hm, hkey, -⟩ := hkept (grantRow "g1" (some "u1") 2) (by decide)
    ⟨rfl, Or.inr (Or.inl rfl)⟩
  have hgone : ∀ m ∈ (switchTenant (some (.saveSession 0)) twoTenants toSecondTenant
      ⟨signedIn, none⟩).2.committed, m.key ≠ ("Grant", "g1") := by decide +kernel
  exact hgone m hm hkey

end VcCommonService.Oidc.Faults
