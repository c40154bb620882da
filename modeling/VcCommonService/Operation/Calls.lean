import VcCommonService.Operation.Ttl
import VcCommonService.Lib.Run
import VcCommonService.Lib.Table

/-!
# Calls on one operation (`operation.service.ts`, `operation.repository.ts`)

`getForTenant`, `markViewed` and `transitionState` as sequences of database steps on
one operation row. `save` reads the row once more and then writes the columns in which the
entity differs from it; `markFirstView` is one conditional update.
-/

namespace VcCommonService.Operations
open Lib
open Table (written written_of_eq written_of_ne)

structure Operation where
  id : String
  tenantId : TenantId
  batchId : Option String
  type : String
  state : OperationState
  request : Json
  result : Option Json
  externalId : Option String
  viewedAt : Option Time
  expiresAt : Time
  createdAt : Time

/-- The row, the configuration of its tenant (`none` once the tenant is deleted), and
two records that no code reads: the configurations the tenant has had and how many
times `markFirstView` updated the row. -/
structure Store where
  operation : Operation
  tenantConfig : Option Json.Members
  configHistory : List Json.Members
  firstViews : ℕ

/-! ### Repository -/

def findById (db : Store) (id : String) : Option Operation :=
  if db.operation.id = id then some db.operation else none

def findByIdForTenant (db : Store) (id : String) (tenantId : TenantId) : Option Operation :=
  (findById db id).filter fun op => decide (op.tenantId = tenantId)

/-- `UPDATE operation SET viewed_at, expires_at WHERE id = $1 AND viewed_at IS NULL`;
the flag says whether a row was updated. -/
def markFirstView (db : Store) (id : String) (viewedAt expiresAt : Time) : Store × Bool :=
  if db.operation.id = id ∧ db.operation.viewedAt = none then
    ({ db with
        operation := { db.operation with viewedAt := some viewedAt, expiresAt }
        firstViews := db.firstViews + 1 }, true)
  else (db, false)

/-- A `jsonb` column that may be null, after a save. -/
def writtenResult (row entity current : Option Json) : Option Json :=
  if entity.map Json.canon = row.map Json.canon then current else entity

/-- The row `current` after the columns are written in which `entity` differs from `row`. -/
def writeColumns (row entity current : Operation) : Operation :=
  { id := current.id
    tenantId := written row.tenantId entity.tenantId current.tenantId
    batchId := written row.batchId entity.batchId current.batchId
    type := written row.type entity.type current.type
    state := written row.state entity.state current.state
    request := if Json.canon entity.request = Json.canon row.request then current.request
      else entity.request
    result := writtenResult row.result entity.result current.result
    externalId := written row.externalId entity.externalId current.externalId
    viewedAt := written row.viewedAt entity.viewedAt current.viewedAt
    expiresAt := written row.expiresAt entity.expiresAt current.expiresAt
    createdAt := written row.createdAt entity.createdAt current.createdAt }

/-- The `UPDATE` of a save whose `SELECT` has read `row`. -/
def save (db : Store) (entity row : Operation) : Store :=
  { db with operation := writeColumns row entity db.operation }

/-! ### Creation -/

structure CreateOperationInput where
  tenantId : TenantId
  type : String
  request : Json
  batchId : Option String := none
  externalId : Option String := none

/-- `createOperation` for a tenant with this configuration. The service reads `now` before
the insert; the id and `createdAt` are the database's. -/
def createOperation (input : CreateOperationInput) (config : Json.Members) (now : Time)
    (id : String) (createdAt : Time) : Except ServiceError Operation :=
  match computeOperationExpiresAt .pending now none (some config) with
  | none => .error (.constraint "invalid_timestamp")
  | some expiresAt => .ok
    { id, tenantId := input.tenantId, batchId := input.batchId, type := input.type
      state := .pending, request := input.request, result := none
      externalId := input.externalId, viewedAt := none, expiresAt, createdAt }

/-! ### Calls -/

/-- Where a call stands; each state but the first and the last is before a statement. -/
inductive Call where
  | idle
  | viewing (loaded : Operation)
  | marking (loaded : Operation) (viewedAt : Time) (expiresAt : Date)
  | rereading (id : String)
  | transitioning (loaded : Operation) (state : OperationState) (result : Option Json)
  | saving (loaded : Operation) (state : OperationState) (result : Option Json) (expiresAt : Date)
  | writing (loaded : Operation) (state : OperationState) (result : Option Json) (expiresAt : Date)
      (row : Operation)
  | done (result : Except ServiceError Operation)

/-- `readTenant` carries the clock that `applyViewed` reads after it; `configure` is a
change of the tenant by another service. -/
inductive Event where
  | getForTenant (tenantId : TenantId) (id : String)
  | markViewed (id : String)
  | transitionState (id : String) (state : OperationState) (result : Option Json)
  | readTenant (now : Time)
  | next
  | abort (error : ServiceError)
  | configure (config : Option Json.Members)

def operationNotFound : Call := .done (.error (.notFound "Operation not found"))

def tenantNotFound : Call := .done (.error (.notFound "Tenant not found"))

def invalidTimestamp : Call := .done (.error (.constraint "invalid_timestamp"))

def beginGetForTenant (db : Store) (tenantId : TenantId) (id : String) : Call :=
  match findByIdForTenant db id tenantId with
  | none => operationNotFound
  | some op =>
    if !isTerminalOperationState op.state || op.viewedAt.isSome then .done (.ok op)
    else .viewing op

def beginMarkViewed (db : Store) (id : String) : Call :=
  match findById db id with
  | none => operationNotFound
  | some op => if op.viewedAt.isSome then .done (.ok op) else .viewing op

def beginTransitionState (db : Store) (id : String) (state : OperationState)
    (result : Option Json) : Call :=
  match findById db id with
  | none => operationNotFound
  | some op => .transitioning op state result

def computeView (db : Store) (loaded : Operation) (now : Time) : Call :=
  match db.tenantConfig with
  | none => tenantNotFound
  | some config =>
    .marking loaded now
      (computeOperationExpiresAt loaded.state loaded.createdAt (some now) (some config))

def computeTransition (db : Store) (loaded : Operation) (state : OperationState)
    (result : Option Json) : Call :=
  match db.tenantConfig with
  | none => tenantNotFound
  | some config =>
    .saving loaded state result
      (computeOperationExpiresAt state loaded.createdAt loaded.viewedAt (some config))

def transitioned (loaded : Operation) (state : OperationState) (result : Option Json)
    (expiresAt : Time) : Operation :=
  { loaded with state, result := result.or loaded.result, expiresAt }

def runMarkFirstView (db : Store) (loaded : Operation) (viewedAt : Time) :
    Date → Store × Call
  | none => (db, invalidTimestamp)
  | some expiresAt =>
    match markFirstView db loaded.id viewedAt expiresAt with
    | (db', true) => (db', .done (.ok { loaded with viewedAt := some viewedAt, expiresAt }))
    | (db', false) => (db', .rereading loaded.id)

def runSave (db : Store) (loaded : Operation) (state : OperationState) (result : Option Json)
    (row : Operation) : Date → Store × Call
  | none => (db, invalidTimestamp)
  | some expiresAt =>
    let entity := transitioned loaded state result expiresAt
    (save db entity row, .done (.ok entity))

def reread (db : Store) (id : String) : Call :=
  match findById db id with
  | none => operationNotFound
  | some current => .done (.ok current)

def configure (db : Store) (config : Option Json.Members) : Store :=
  { db with tenantConfig := config, configHistory := db.configHistory ++ config.toList }

def act (db : Store) : Call → Event → Option (Store × Call)
  | .idle, .getForTenant tenantId id => some (db, beginGetForTenant db tenantId id)
  | .idle, .markViewed id => some (db, beginMarkViewed db id)
  | .idle, .transitionState id state result => some (db, beginTransitionState db id state result)
  | .idle, .configure config => some (configure db config, .idle)
  | .viewing loaded, .readTenant now => some (db, computeView db loaded now)
  | .marking loaded viewedAt expiresAt, .next => some (runMarkFirstView db loaded viewedAt expiresAt)
  | .rereading id, .next => some (db, reread db id)
  | .transitioning loaded state result, .readTenant _ =>
    some (db, computeTransition db loaded state result)
  | .saving loaded state result expiresAt, .next =>
    some (db, .writing loaded state result expiresAt db.operation)
  | .writing loaded state result expiresAt row, .next =>
    some (runSave db loaded state result row expiresAt)
  | .viewing _, .abort e => some (db, .done (.error e))
  | .marking _ _ _, .abort e => some (db, .done (.error e))
  | .rereading _, .abort e => some (db, .done (.error e))
  | .transitioning _ _ _, .abort e => some (db, .done (.error e))
  | .saving _ _ _ _, .abort e => some (db, .done (.error e))
  | .writing _ _ _ _ _, .abort e => some (db, .done (.error e))
  | _, _ => none

abbrev World := Run.World Store Call

def step : World → ℕ × Event → Option World := Run.interleave act

/-! ### What one statement does -/

/-- The two statements that write the row; every other one leaves it alone. -/
inductive Wrote (db : Store) : Call → Store → Prop where
  | view (loaded : Operation) (viewedAt expiresAt : Time) (hid : db.operation.id = loaded.id)
      (hnone : db.operation.viewedAt = none) :
      Wrote db (.marking loaded viewedAt (some expiresAt))
        { db with
          operation := { db.operation with viewedAt := some viewedAt, expiresAt }
          firstViews := db.firstViews + 1 }
  | save (loaded : Operation) (state : OperationState) (result : Option Json) (expiresAt : Time)
      (row : Operation) :
      Wrote db (.writing loaded state result (some expiresAt) row)
        (save db (transitioned loaded state result expiresAt) row)

/-- Everything a call can read or compute in one statement, or hold over from the last. -/
inductive Moved (db : Store) : Call → Call → Prop where
  | load (loaded : Operation) (hload : loaded = db.operation) (pc : Call)
      (hpc : pc = .viewing loaded ∨ ∃ state result, pc = .transitioning loaded state result) :
      Moved db .idle pc
  | view (loaded : Operation) (now : Time) (config : Json.Members)
      (hconfig : db.tenantConfig = some config) :
      Moved db (.viewing loaded) (.marking loaded now
        (computeOperationExpiresAt loaded.state loaded.createdAt (some now) (some config)))
  | transition (loaded : Operation) (state : OperationState) (result : Option Json)
      (config : Json.Members) (hconfig : db.tenantConfig = some config) :
      Moved db (.transitioning loaded state result) (.saving loaded state result
        (computeOperationExpiresAt state loaded.createdAt loaded.viewedAt (some config)))
  | read (loaded : Operation) (state : OperationState) (result : Option Json) (expiresAt : Date) :
      Moved db (.saving loaded state result expiresAt)
        (.writing loaded state result expiresAt db.operation)
  | settle (pc : Call) (result : Except ServiceError Operation) : Moved db pc (.done result)
  | reread (pc : Call) (id : String) : Moved db pc (.rereading id)

theorem findById_eq {db : Store} {id : String} {op : Operation} (h : findById db id = some op) :
    op = db.operation := by
  unfold findById at h
  split at h
  · exact (Option.some.inj h).symm
  · cases h

theorem moved_getForTenant (db : Store) (tenantId : TenantId) (id : String) :
    Moved db .idle (beginGetForTenant db tenantId id) := by
  unfold beginGetForTenant
  split
  · exact .settle _ _
  next op hop =>
    obtain ⟨hfind, -⟩ := Option.filter_eq_some_iff.mp hop
    split
    · exact .settle _ _
    · exact .load op (findById_eq hfind) _ (Or.inl rfl)

theorem moved_markViewed (db : Store) (id : String) : Moved db .idle (beginMarkViewed db id) := by
  unfold beginMarkViewed
  split
  · exact .settle _ _
  next op hop =>
    split
    · exact .settle _ _
    · exact .load op (findById_eq hop) _ (Or.inl rfl)

theorem moved_transitionState (db : Store) (id : String) (state : OperationState)
    (result : Option Json) : Moved db .idle (beginTransitionState db id state result) := by
  unfold beginTransitionState
  split
  · exact .settle _ _
  next op hop => exact .load op (findById_eq hop) _ (Or.inr ⟨state, result, rfl⟩)

theorem moved_computeView (db : Store) (loaded : Operation) (now : Time) :
    Moved db (.viewing loaded) (computeView db loaded now) := by
  unfold computeView
  split
  · exact .settle _ _
  next config hconfig => exact .view loaded now config hconfig

theorem moved_computeTransition (db : Store) (loaded : Operation) (state : OperationState)
    (result : Option Json) :
    Moved db (.transitioning loaded state result) (computeTransition db loaded state result) := by
  unfold computeTransition
  split
  · exact .settle _ _
  next config hconfig => exact .transition loaded state result config hconfig

theorem runMarkFirstView_cases {db db' : Store} {pc' : Call} {loaded : Operation} {viewedAt : Time}
    {expiresAt : Option Time} (h : runMarkFirstView db loaded viewedAt expiresAt = (db', pc')) :
    (Wrote db (.marking loaded viewedAt expiresAt) db' ∧ ∃ result, pc' = .done result) ∨
      (db' = db ∧ Moved db (.marking loaded viewedAt expiresAt) pc') := by
  cases expiresAt with
  | none =>
    cases h
    exact .inr ⟨rfl, .settle _ _⟩
  | some expiresAt =>
    by_cases hc : db.operation.id = loaded.id ∧ db.operation.viewedAt = none
    · simp only [runMarkFirstView, markFirstView, if_pos hc] at h
      cases h
      exact .inl ⟨.view loaded viewedAt expiresAt hc.1 hc.2, _, rfl⟩
    · -- another call has stamped the row: it is read again
      simp only [runMarkFirstView, markFirstView, if_neg hc] at h
      cases h
      exact .inr ⟨rfl, .reread _ _⟩

theorem moved_reread (db : Store) (id : String) : Moved db (.rereading id) (reread db id) := by
  unfold reread
  split
  · exact .settle _ _
  · exact .settle _ _

/-- Inversion: a statement writes the row and ends its call, changes the configuration,
or only moves its call on. -/
theorem act_cases {db db' : Store} {pc pc' : Call} {e : Event} (h : act db pc e = some (db', pc')) :
    (Wrote db pc db' ∧ e = .next ∧ ∃ result, pc' = .done result) ∨
    (∃ config, db' = configure db config ∧ pc = .idle ∧ pc' = .idle) ∨
    (db' = db ∧ Moved db pc pc' ∧
      ∀ loaded state result expiresAt row,
        pc = .writing loaded state result (some expiresAt) row → e ≠ .next) := by
  cases pc with
  | idle =>
    cases e with
    | getForTenant tenantId id =>
      cases h
      exact .inr (.inr ⟨rfl, moved_getForTenant db tenantId id, by simp⟩)
    | markViewed id =>
      cases h
      exact .inr (.inr ⟨rfl, moved_markViewed db id, by simp⟩)
    | transitionState id state result =>
      cases h
      exact .inr (.inr ⟨rfl, moved_transitionState db id state result, by simp⟩)
    | configure config =>
      cases h
      exact .inr (.inl ⟨config, rfl, rfl, rfl⟩)
    | _ => cases h
  | viewing loaded =>
    cases e with
    | readTenant now =>
      cases h
      exact .inr (.inr ⟨rfl, moved_computeView db loaded now, by simp⟩)
    | abort err =>
      cases h
      exact .inr (.inr ⟨rfl, .settle _ _, by simp⟩)
    | _ => cases h
  | marking loaded viewedAt expiresAt =>
    cases e with
    | next =>
      rcases runMarkFirstView_cases (Option.some.inj h) with ⟨hw, hdone⟩ | ⟨rfl, hm⟩
      · exact .inl ⟨hw, rfl, hdone⟩
      · exact .inr (.inr ⟨rfl, hm, by simp⟩)
    | abort err =>
      cases h
      exact .inr (.inr ⟨rfl, .settle _ _, by simp⟩)
    | _ => cases h
  | rereading id =>
    cases e with
    | next =>
      cases h
      exact .inr (.inr ⟨rfl, moved_reread db id, by simp⟩)
    | abort err =>
      cases h
      exact .inr (.inr ⟨rfl, .settle _ _, by simp⟩)
    | _ => cases h
  | transitioning loaded state result =>
    cases e with
    | readTenant now =>
      cases h
      exact .inr (.inr ⟨rfl, moved_computeTransition db loaded state result, by simp⟩)
    | abort err =>
      cases h
      exact .inr (.inr ⟨rfl, .settle _ _, by simp⟩)
    | _ => cases h
  | saving loaded state result expiresAt =>
    cases e with
    | next =>
      cases h
      exact .inr (.inr ⟨rfl, .read loaded state result expiresAt, by simp⟩)
    | abort err =>
      cases h
      exact .inr (.inr ⟨rfl, .settle _ _, by simp⟩)
    | _ => cases h
  | writing loaded state result expiresAt row =>
    cases e with
    | next =>
      cases expiresAt with
      | none =>
        cases h
        exact .inr (.inr ⟨rfl, .settle _ _, by simp⟩)
      | some expiresAt =>
        cases h
        exact .inl ⟨.save loaded state result expiresAt row, rfl, _, rfl⟩
    | abort err =>
      cases h
      exact .inr (.inr ⟨rfl, .settle _ _, by simp⟩)
    | _ => cases h
  | done result => cases e <;> cases h

end VcCommonService.Operations
