import VcCommonService.Lib.Run
import VcCommonService.Oidc.ModelAdapter
import VcCommonService.Oidc.UpstreamInteraction
import VcCommonService.Oidc.UpstreamSession

/-!
# The purge job (`oidc-purge.service.ts`, `oidc-purge.repository.ts`)

`purgeExpiredModels` runs batches over three tables. A batch first ends the upstream sessions of
expired sessions, then deletes expired pending upstream sessions, expired models with the
upstream sessions bound to them, and expired upstream interactions. The loop ends with the first
batch that deletes no model, or after fifty.
-/

namespace VcCommonService.Oidc
open Lib

variable {π : Type}

structure PurgeDb (π : Type) where
  models : List (ModelRow π)
  sessions : List OidcUpstreamSession
  interactions : List OidcUpstreamInteraction

/-- The tables and the counters of the loop; `attempted` is history: the models for which
`logoutUpstreamSessionForOidcSession` was called. -/
structure PurgeRun (π : Type) where
  db : PurgeDb π
  batches : ℕ := 0
  batchCount : ℕ := 0
  attempted : List String := []

/-- What the clock, the database and the upstream provider decide in one batch: the time of each
query, the order of the rows it returns, and which logouts go through. -/
structure BatchInput (π : Type) where
  cleanupAt : Time
  cleanupOrder : List (ModelRow π)
  loggedOut : String → Bool
  pendingAt : Time
  pendingOrder : List OidcUpstreamSession
  purgeAt : Time
  purgeOrder : List (ModelRow π)
  interactionsAt : Time

/-! ### Repositories -/

def isLinked (sessions : List OidcUpstreamSession) (r : ModelRow π) : Bool :=
  sessions.any fun s => decide (s.oidcModelId = some r.id)

def needsCleanup (sessions : List OidcUpstreamSession) (now : Time) (r : ModelRow π) : Bool :=
  decide (r.modelName = "Session") && isPurgeable now r && isLinked sessions r

/-- The join finds at most one upstream session for each model
(`uq_oidc_upstream_session_model`). -/
def getExpiredSessionsWithUpstreamCleanup [DecidableEq π] (models : List (ModelRow π))
    (sessions : List OidcUpstreamSession) (limit : ℕ) (now : Time) (order : List (ModelRow π)) :
    Option (List String) :=
  if Table.IsOrdered expiryRank (needsCleanup sessions now) models order then
    some ((order.take (max 1 limit)).map ModelRow.id)
  else none

def isExpiredPending (now : Time) (r : OidcUpstreamSession) : Bool :=
  decide (r.oidcModelId = none) && r.expiresAt.any fun t => decide (t < now)

def deleteExpiredPendingBatch (sessions : List OidcUpstreamSession) (limit : ℕ) (now : Time)
    (order : List OidcUpstreamSession) : Option (List OidcUpstreamSession) :=
  if Table.IsOrdered OidcUpstreamSession.createdAt (isExpiredPending now) sessions order then
    let ids := (order.take (max 1 limit)).map OidcUpstreamSession.id
    some (Table.deleteWhere (fun r => ids.contains r.id) sessions)
  else none

/-- `ON DELETE CASCADE` of `oidc_upstream_session.oidc_model_id`. -/
def cascadeSessions (models : List (ModelRow π)) (sessions : List OidcUpstreamSession) :
    List OidcUpstreamSession :=
  Table.deleteWhere
    (fun s => s.oidcModelId.any fun id => !models.any fun m => decide (m.id = id)) sessions

/-! ### Service -/

/-- The request to the end-session endpoint comes before the row is deleted, so where the call
throws the row stays. -/
def logoutUpstreamSessionForOidcSession (loggedOut : String → Bool)
    (sessions : List OidcUpstreamSession) (oidcModelId : String) : List OidcUpstreamSession :=
  match findByOidcModelId sessions oidcModelId with
  | none => sessions
  | some r =>
    if loggedOut oidcModelId then Table.deleteWhere (fun s => decide (s.id = r.id)) sessions
    else sessions

def batchSize : ℕ := 500

def maxBatchesPerRun : ℕ := 50

/-- The `do … while` loop goes on: it has not started, or the last batch deleted a model. -/
def PurgeRun.continues (run : PurgeRun π) : Bool :=
  decide (run.batches = 0) ||
    (decide (0 < run.batchCount) && decide (run.batches < maxBatchesPerRun))

def purgeBatch [DecidableEq π] (run : PurgeRun π) (input : BatchInput π) :
    Option (PurgeRun π) := do
  guard run.continues
  let cleanup ← getExpiredSessionsWithUpstreamCleanup run.db.models run.db.sessions batchSize
    input.cleanupAt input.cleanupOrder
  let sessions := cleanup.foldl (logoutUpstreamSessionForOidcSession input.loggedOut)
    run.db.sessions
  let sessions ← deleteExpiredPendingBatch sessions batchSize input.pendingAt input.pendingOrder
  let (models, batch) ← purgeExpiredBatch run.db.models batchSize input.purgeAt input.purgeOrder
  return {
    db := {
      models
      sessions := cascadeSessions models sessions
      interactions := purgeExpiredUpstreamInteractionsBatch run.db.interactions batchSize
        input.interactionsAt }
    batches := run.batches + 1
    batchCount := Table.total batch
    attempted := run.attempted ++ cleanup }

def PurgeRun.start (db : PurgeDb π) : PurgeRun π := { db }

/-! ### What a batch does -/

section Batch

variable [DecidableEq π] {run run' : PurgeRun π} {input : BatchInput π}

def cleanupIds (input : BatchInput π) : List String :=
  (input.cleanupOrder.take batchSize).map ModelRow.id

def loggedOutSessions (run : PurgeRun π) (input : BatchInput π) : List OidcUpstreamSession :=
  (cleanupIds input).foldl (logoutUpstreamSessionForOidcSession input.loggedOut) run.db.sessions

def purgedModels (run : PurgeRun π) (input : BatchInput π) : List (ModelRow π) :=
  Table.deleteWhere
    (fun r => ((input.purgeOrder.take batchSize).map ModelRow.id).contains r.id) run.db.models

def keptSessions (run : PurgeRun π) (input : BatchInput π) : List OidcUpstreamSession :=
  cascadeSessions (purgedModels run input) (Table.deleteWhere
    (fun r => ((input.pendingOrder.take batchSize).map OidcUpstreamSession.id).contains r.id)
    (loggedOutSessions run input))

/-- The orders that the database may return. -/
structure Orders (run : PurgeRun π) (input : BatchInput π) : Prop where
  cleanup : Table.IsOrdered expiryRank (needsCleanup run.db.sessions input.cleanupAt)
    run.db.models input.cleanupOrder
  pending : Table.IsOrdered OidcUpstreamSession.createdAt (isExpiredPending input.pendingAt)
    (loggedOutSessions run input) input.pendingOrder
  purge : Table.IsOrdered expiryRank (isPurgeable input.purgeAt) run.db.models input.purgeOrder

theorem purgeBatch_eq_some_iff :
    purgeBatch run input = some run' ↔
      run.continues = true ∧ Orders run input ∧
      run' = {
        db := {
          models := purgedModels run input
          sessions := keptSessions run input
          interactions := purgeExpiredUpstreamInteractionsBatch run.db.interactions batchSize
            input.interactionsAt }
        batches := run.batches + 1
        batchCount := (run.db.models.filter fun r =>
          ((input.purgeOrder.take batchSize).map ModelRow.id).contains r.id).length
        attempted := run.attempted ++ cleanupIds input } := by
  have hsize : max 1 batchSize = batchSize := rfl
  simp only [purgeBatch, getExpiredSessionsWithUpstreamCleanup, deleteExpiredPendingBatch,
    purgeExpiredBatch, hsize, Option.bind_eq_bind, Option.bind_eq_some_iff, Option.guard_eq_some',
    Option.ite_none_right_eq_some, Option.pure_def, Option.some.injEq]
  constructor
  · rintro ⟨-, hcontinues, cleanup, ⟨hcleanup, rfl⟩, sessions, ⟨hpending, rfl⟩, batch,
      ⟨hpurge, rfl⟩, rfl⟩
    refine ⟨hcontinues, ⟨hcleanup, hpending, hpurge⟩, ?_⟩
    simp only [Table.total_countBy]
    rfl
  · rintro ⟨hcontinues, horders, rfl⟩
    refine ⟨(), hcontinues, _, ⟨horders.cleanup, rfl⟩, _, ⟨horders.pending, rfl⟩, _,
      ⟨horders.purge, rfl⟩, ?_⟩
    simp only [Table.total_countBy]
    rfl

end Batch

/-! ### What a batch leaves alone -/

section Frame

variable {sessions : List OidcUpstreamSession} {loggedOut : String → Bool} {ids : List String}
  {p : OidcUpstreamSession → Bool}

theorem uniqueKeys_logout (hu : Table.UniqueKeys OidcUpstreamSession.id sessions)
    (oidcModelId : String) :
    Table.UniqueKeys OidcUpstreamSession.id
      (logoutUpstreamSessionForOidcSession loggedOut sessions oidcModelId) := by
  unfold logoutUpstreamSessionForOidcSession
  split
  · exact hu
  · split
    · exact Table.uniqueKeys_deleteWhere _ hu
    · exact hu

/-- A logout touches no row but the one bound to its model. -/
theorem filter_logout (hu : Table.UniqueKeys OidcUpstreamSession.id sessions)
    {oidcModelId : String} (hp : ∀ s, p s = true → s.oidcModelId ≠ some oidcModelId) :
    (logoutUpstreamSessionForOidcSession loggedOut sessions oidcModelId).filter p =
      sessions.filter p := by
  unfold logoutUpstreamSessionForOidcSession
  split
  · rfl
  next r hfind =>
    split
    · refine Table.filter_deleteWhere fun s hs hps => decide_eq_false fun hid => hp s hps ?_
      rw [Table.eq_of_key hu hs (List.mem_of_find?_eq_some hfind) hid]
      simpa using List.find?_some hfind
    · rfl

theorem filter_logouts (hu : Table.UniqueKeys OidcUpstreamSession.id sessions)
    (hp : ∀ s, p s = true → ∀ id ∈ ids, s.oidcModelId ≠ some id) :
    (ids.foldl (logoutUpstreamSessionForOidcSession loggedOut) sessions).filter p =
      sessions.filter p := by
  induction ids generalizing sessions with
  | nil => rfl
  | cons id ids ih =>
    rw [List.foldl_cons, ih (uniqueKeys_logout hu id) fun s hs i hi =>
      hp s hs i (List.mem_cons_of_mem _ hi)]
    exact filter_logout hu fun s hs => hp s hs id (List.mem_cons_self ..)

theorem uniqueKeys_logouts (loggedOut : String → Bool) (ids : List String)
    (hu : Table.UniqueKeys OidcUpstreamSession.id sessions) :
    Table.UniqueKeys OidcUpstreamSession.id
      (ids.foldl (logoutUpstreamSessionForOidcSession loggedOut) sessions) := by
  induction ids generalizing sessions with
  | nil => exact hu
  | cons id ids ih => exact ih (uniqueKeys_logout hu id)

theorem oidcModelId_of_isExpiredPending {now : Time} {s : OidcUpstreamSession}
    (h : isExpiredPending now s = true) : s.oidcModelId = none := by
  simp only [isExpiredPending, Bool.and_eq_true, decide_eq_true_eq] at h
  exact h.1

/-- Pending rows are bound to no model, so they are the same after any logouts. -/
theorem filter_loggedOutSessions {run : PurgeRun π} (hk : Table.UniqueKeys OidcUpstreamSession.id
    run.db.sessions) (input : BatchInput π) (now : Time) :
    (loggedOutSessions run input).filter (isExpiredPending now) =
      run.db.sessions.filter (isExpiredPending now) :=
  filter_logouts hk fun s hs id _ => by simp [oidcModelId_of_isExpiredPending hs]

end Frame

/-! ### Primary keys -/

structure PurgeDb.Keys (db : PurgeDb π) : Prop where
  models : Table.UniqueKeys ModelRow.id db.models
  sessions : Table.UniqueKeys OidcUpstreamSession.id db.sessions
  interactions : Table.UniqueKeys OidcUpstreamInteraction.id db.interactions

theorem keys_purgeBatch [DecidableEq π] {run run' : PurgeRun π} {input : BatchInput π}
    (hk : run.db.Keys) (h : purgeBatch run input = some run') : run'.db.Keys := by
  obtain ⟨-, -, rfl⟩ := purgeBatch_eq_some_iff.mp h
  have hsessions := Table.uniqueKeys_deleteWhere
    (fun r => ((input.pendingOrder.take batchSize).map OidcUpstreamSession.id).contains r.id)
    (uniqueKeys_logouts input.loggedOut (cleanupIds input) hk.sessions)
  exact ⟨Table.uniqueKeys_deleteWhere _ hk.models, Table.uniqueKeys_deleteWhere _ hsessions,
    Table.uniqueKeys_deleteWhere _ hk.interactions⟩

end VcCommonService.Oidc
