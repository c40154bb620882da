import VcCommonService.Oidc.Purge

/-!
# Upstream logout before the purge

The sessions to log out and the models to delete come from two queries. The first sees sessions
that are linked to an upstream session, the second every model, and time may pass between them.
A session is deleted without a logout when it expires in between, or when the first query spends
its limit on other sessions that the second one does not reach.
-/

namespace VcCommonService.Oidc
open Lib

variable {π : Type}

/-- Every linked session that the batch has deleted was logged out, or at least tried, by then.
`db` are the tables at the start of the run. -/
def LogsOutDeleted (db : PurgeDb π) (run run' : PurgeRun π) : Prop :=
  ∀ r ∈ run.db.models, r ∉ run'.db.models → r.modelName = "Session" →
    isLinked db.sessions r = true → r.id ∈ run'.attempted

/-- The batch logs out what it deletes, in whatever order rows of the same time come. -/
def LogsOutInEveryOrder [DecidableEq π] (db : PurgeDb π) (run : PurgeRun π)
    (input : BatchInput π) : Prop :=
  ∀ cleanupOrder pendingOrder purgeOrder run',
    purgeBatch run { input with cleanupOrder, pendingOrder, purgeOrder } = some run' →
      LogsOutDeleted db run run'

/-- A linked session that was not tried yet and can be among the next models to be deleted has
expired when the batch begins, and fewer linked sessions than a batch has room for can come
before it. -/
def CleanupReaches [DecidableEq π] (run : PurgeRun π) (input : BatchInput π) : Prop :=
  ∀ r ∈ run.db.models, r.modelName = "Session" → isLinked run.db.sessions r = true →
    r.id ∉ run.attempted → isPurgeable input.purgeAt r = true →
    (run.db.models.countP fun x =>
      isPurgeable input.purgeAt x && decide (expiryRank x < expiryRank r)) < batchSize →
    isPurgeable input.cleanupAt r = true ∧
    (run.db.models.countP fun x => needsCleanup run.db.sessions input.cleanupAt x &&
      (decide (x ≠ r) && decide (expiryRank x ≤ expiryRank r))) < batchSize

/-! ### Links -/

theorem isLinked_iff {sessions : List OidcUpstreamSession} {r : ModelRow π} :
    isLinked sessions r = true ↔ ∃ s ∈ sessions, s.oidcModelId = some r.id := by
  simp [isLinked]

/-- Links only go with the upstream session or the model, and an upstream session only goes
after a logout. -/
structure LinksKept (db : PurgeDb π) (run : PurgeRun π) : Prop where
  keys : run.db.Keys
  sessions : run.db.sessions ⊆ db.sessions
  linked : ∀ r ∈ run.db.models, isLinked db.sessions r = true → r.id ∉ run.attempted →
    isLinked run.db.sessions r = true

theorem linksKept_start {db : PurgeDb π} (hk : db.Keys) : LinksKept db (.start db) :=
  ⟨hk, fun _ h => h, fun _ _ h _ => h⟩

section Batch

variable {db : PurgeDb π} {run run' : PurgeRun π} {input : BatchInput π}

theorem mem_loggedOutSessions (hk : run.db.Keys) {s : OidcUpstreamSession}
    (hs : s ∈ run.db.sessions) (hids : ∀ id ∈ cleanupIds input, s.oidcModelId ≠ some id) :
    s ∈ loggedOutSessions run input := by
  have hfilter : (loggedOutSessions run input).filter
      (fun x => decide (x.oidcModelId = s.oidcModelId)) = run.db.sessions.filter
      (fun x => decide (x.oidcModelId = s.oidcModelId)) := by
    refine filter_logouts hk.sessions fun x hx id hid => ?_
    rw [of_decide_eq_true hx]
    exact hids id hid
  have hmem : s ∈ run.db.sessions.filter (fun x => decide (x.oidcModelId = s.oidcModelId)) :=
    List.mem_filter.mpr ⟨hs, decide_eq_true rfl⟩
  rw [← hfilter] at hmem
  exact List.mem_of_mem_filter hmem

theorem loggedOutSessions_subset : loggedOutSessions run input ⊆ run.db.sessions := by
  unfold loggedOutSessions
  generalize run.db.sessions = sessions
  induction cleanupIds input generalizing sessions with
  | nil => exact fun _ h => h
  | cons id ids ih =>
    intro s hs
    replace hs := ih _ hs
    unfold logoutUpstreamSessionForOidcSession at hs
    split at hs
    · exact hs
    · split at hs
      · exact ((Table.mem_deleteWhere _ _ _).mp hs).1
      · exact hs

theorem isLinked_keptSessions (hk : run.db.Keys) (horders : Orders run input) {r : ModelRow π}
    (hr : r ∈ purgedModels run input) (hlinked : isLinked run.db.sessions r = true)
    (hids : r.id ∉ cleanupIds input) : isLinked (keptSessions run input) r = true := by
  obtain ⟨s, hs, hsr⟩ := isLinked_iff.mp hlinked
  have hlogged : s ∈ loggedOutSessions run input := by
    refine mem_loggedOutSessions hk hs fun id hid he => ?_
    have hid' : r.id = id := Option.some.inj (hsr.symm.trans he)
    exact hids (hid' ▸ hid)
  have hpending : s ∉ input.pendingOrder.take batchSize := by
    intro hmem
    have hp := ((horders.pending.mem_iff s).mp (List.mem_of_mem_take hmem)).2
    simp [isExpiredPending, hsr] at hp
  have hunique := uniqueKeys_logouts input.loggedOut (cleanupIds input) hk.sessions
  have hbatch : ∀ x ∈ input.pendingOrder.take batchSize, x ∈ loggedOutSessions run input :=
    fun x hx => ((horders.pending.mem_iff x).mp (List.mem_of_mem_take hx)).1
  refine isLinked_iff.mpr ⟨s, ?_, hsr⟩
  unfold keptSessions cascadeSessions
  rw [Table.mem_deleteWhere, Table.mem_deleteWhere]
  refine ⟨⟨hlogged, ?_⟩, ?_⟩
  · exact Bool.eq_false_iff.mpr fun h => hpending ((Table.mem_keys_iff hunique hbatch hlogged).mp h)
  · simp only [hsr, Option.any_some, Bool.not_eq_false', List.any_eq_true, decide_eq_true_eq]
    exact ⟨r, hr, rfl⟩

theorem linksKept_purgeBatch [DecidableEq π] (hl : LinksKept db run) (h : purgeBatch run input = some run') :
    LinksKept db run' := by
  have hkeys := keys_purgeBatch hl.keys h
  obtain ⟨-, horders, rfl⟩ := purgeBatch_eq_some_iff.mp h
  refine ⟨hkeys, fun s hs => ?_, fun r hr hlinked hnot => ?_⟩
  · have hkept := ((Table.mem_deleteWhere _ _ _).mp hs).1
    exact hl.sessions (loggedOutSessions_subset ((Table.mem_deleteWhere _ _ _).mp hkept).1)
  · have hnot' := not_or.mp (mt List.mem_append.mpr hnot)
    have hmodel := ((Table.mem_deleteWhere _ _ _).mp hr).1
    exact isLinked_keptSessions hl.keys horders hr (hl.linked r hmodel hlinked hnot'.1) hnot'.2

/-! ### One batch -/

theorem mem_purgedModels_iff (hk : run.db.Keys) (horders : Orders run input) {r : ModelRow π}
    (hr : r ∈ run.db.models) :
    r ∉ purgedModels run input ↔ r ∈ input.purgeOrder.take batchSize := by
  have hbatch : ∀ x ∈ input.purgeOrder.take batchSize, x ∈ run.db.models :=
    fun x hx => ((horders.purge.mem_iff x).mp (List.mem_of_mem_take hx)).1
  rw [← Table.mem_keys_iff hk.models hbatch hr, purgedModels, Table.mem_deleteWhere]
  simp [hr]

theorem mem_cleanupIds_iff (hk : run.db.Keys) (horders : Orders run input) {r : ModelRow π}
    (hr : r ∈ run.db.models) :
    r.id ∈ cleanupIds input ↔ r ∈ input.cleanupOrder.take batchSize := by
  have hbatch : ∀ x ∈ input.cleanupOrder.take batchSize, x ∈ run.db.models :=
    fun x hx => ((horders.cleanup.mem_iff x).mp (List.mem_of_mem_take hx)).1
  rw [← Table.mem_keys_iff hk.models hbatch hr, List.contains_iff_mem, cleanupIds]

theorem logsOutDeleted_of_cleanupReaches [DecidableEq π] (hl : LinksKept db run)
    (h : purgeBatch run input = some run') (hreach : CleanupReaches run input) :
    LogsOutDeleted db run run' := by
  obtain ⟨-, horders, rfl⟩ := purgeBatch_eq_some_iff.mp h
  intro r hr hdeleted hsession hlinked
  refine List.mem_append.mpr (or_iff_not_imp_left.mpr fun hnot => ?_)
  have hnodup : run.db.models.Nodup := .of_map _ hl.keys.models
  have hbatch := (mem_purgedModels_iff hl.keys horders hr).mp hdeleted
  have hpurgeable := ((horders.purge.mem_iff r).mp (List.mem_of_mem_take hbatch)).2
  have hlinked' := hl.linked r hr hlinked hnot
  obtain ⟨hexpired, hfew⟩ := hreach r hr hsession hlinked' hnot hpurgeable
    ((Table.exists_mem_take_iff hnodup hr hpurgeable).mp ⟨_, horders.purge, hbatch⟩)
  have hneeds : needsCleanup run.db.sessions input.cleanupAt r = true := by
    simp [needsCleanup, hsession, hexpired, hlinked']
  exact (mem_cleanupIds_iff hl.keys horders hr).mpr
    ((Table.forall_mem_take_iff hnodup hr hneeds).mpr hfew _ horders.cleanup)

/-- The orders of the three queries can be chosen one by one. -/
theorem orders_of (hk : run.db.Keys) (horders : Orders run input)
    {cleanupOrder purgeOrder : List (ModelRow π)}
    (hcleanup : Table.IsOrdered expiryRank (needsCleanup run.db.sessions input.cleanupAt)
      run.db.models cleanupOrder)
    (hpurge : Table.IsOrdered expiryRank (isPurgeable input.purgeAt) run.db.models purgeOrder) :
    Orders run { input with cleanupOrder, purgeOrder } := by
  refine ⟨hcleanup, ⟨?_, horders.pending.2⟩, hpurge⟩
  have hperm := horders.pending.1
  rw [filter_loggedOutSessions hk.sessions] at hperm ⊢
  exact hperm

theorem cleanupReaches_iff [DecidableEq π] (hl : LinksKept db run)
    (h : purgeBatch run input = some run') :
    CleanupReaches run input ↔ LogsOutInEveryOrder db run input := by
  constructor
  · exact fun hreach cleanupOrder pendingOrder purgeOrder run'' h' =>
      logsOutDeleted_of_cleanupReaches hl h' hreach
  · intro hall r hr hsession hlinked hnot hpurgeable hfew
    obtain ⟨hcontinues, horders, -⟩ := purgeBatch_eq_some_iff.mp h
    have hnodup : run.db.models.Nodup := .of_map _ hl.keys.models
    obtain ⟨purgeOrder, hpurge, hbatch⟩ :=
      (Table.exists_mem_take_iff hnodup hr hpurgeable).mpr hfew
    have hlinked₀ : isLinked db.sessions r = true := by
      obtain ⟨s, hs, hsr⟩ := isLinked_iff.mp hlinked
      exact isLinked_iff.mpr ⟨s, hl.sessions hs, hsr⟩
    -- with `r` in the batch, every order of the first query has to reach it
    have hreached : ∀ cleanupOrder, Table.IsOrdered expiryRank
        (needsCleanup run.db.sessions input.cleanupAt) run.db.models cleanupOrder →
        r ∈ cleanupOrder.take batchSize := by
      intro cleanupOrder hcleanup
      have horders' := orders_of hl.keys horders hcleanup hpurge
      have hout := hall cleanupOrder _ purgeOrder _
        (purgeBatch_eq_some_iff.mpr ⟨hcontinues, horders', rfl⟩) r hr
        ((mem_purgedModels_iff hl.keys horders' hr).mpr hbatch) hsession hlinked₀
      exact (mem_cleanupIds_iff hl.keys horders' hr).mp
        ((List.mem_append.mp hout).resolve_left hnot)
    have hneeds := ((horders.cleanup.mem_iff r).mp
      (List.mem_of_mem_take (hreached _ horders.cleanup))).2
    refine ⟨?_, (Table.forall_mem_take_iff hnodup hr hneeds).mp hreached⟩
    simp only [needsCleanup, Bool.and_eq_true] at hneeds
    exact hneeds.1.2

end Batch

/-! ### Runs -/

/-- In every run: each batch logs out what it deletes, however rows of the same time are ordered,
exactly when the first query of each batch reaches the sessions that the second one can reach. -/
theorem purge_logs_out_iff [DecidableEq π] (db : PurgeDb π) (hk : db.Keys)
    (inputs : List (BatchInput π)) :
    Run.All purgeBatch (fun run input _ => CleanupReaches run input) (.start db) inputs ↔
      Run.All purgeBatch (fun run input _ => LogsOutInEveryOrder db run input) (.start db)
        inputs :=
  Run.all_iff_of_invariant (LinksKept db) (fun _ _ _ hl h => cleanupReaches_iff hl h)
    (fun _ _ _ hl h _ => linksKept_purgeBatch hl h) (linksKept_start hk)

def linkedModel : ModelRow Unit :=
  { upsertedModel "m" "Session" "sid" { rest := () } 1 0 with expiresAt := some 10 }

def linkedDb : PurgeDb Unit :=
  { models := [linkedModel]
    sessions := [{ id := "s", oidcModelId := some "m", oidcSessionUid := some "uid"
                   tenantUserId := "u", upstreamSubject := "sub", upstreamIdToken := "token"
                   createdAt := 0, expiresAt := none }]
    interactions := [] }

/-- The upstream provider does not answer the logout. -/
def linkedBatch (cleanupAt purgeAt : Time) (cleanupOrder : List (ModelRow Unit)) :
    BatchInput Unit :=
  { cleanupAt, cleanupOrder, loggedOut := fun _ => false, pendingAt := purgeAt, pendingOrder := []
    purgeAt, purgeOrder := [linkedModel], interactionsAt := purgeAt }

theorem purge_logs_out_failed_logout :
    Run.All purgeBatch (fun run input _ => LogsOutInEveryOrder linkedDb run input)
      (.start linkedDb) [linkedBatch 20 20 [linkedModel]] := by
  have hk : linkedDb.Keys := ⟨by decide, by decide, by decide⟩
  refine (purge_logs_out_iff linkedDb hk _).mp ⟨_, rfl, ?_, trivial⟩
  unfold CleanupReaches
  decide

def BatchInput.times (input : BatchInput π) : List Time :=
  [input.cleanupAt, input.pendingAt, input.purgeAt, input.interactionsAt]

/-- The session expires after the first query of the batch and before the second. -/
theorem purge_skips_logout :
    ¬ ∀ (db : PurgeDb Unit) (inputs : List (BatchInput Unit)), db.Keys →
      (inputs.flatMap BatchInput.times).Pairwise (· ≤ ·) →
      Run.Enabled purgeBatch (.start db) inputs →
      Run.All purgeBatch (fun run _ run' => LogsOutDeleted db run run') (.start db) inputs := by
  intro hall
  have hk : linkedDb.Keys := ⟨by decide, by decide, by decide⟩
  obtain ⟨run', hrun, hlogs, -⟩ :=
    hall linkedDb [linkedBatch 5 20 []] hk (by decide) ⟨_, rfl, trivial, trivial⟩
  cases hrun
  exact absurd (hlogs linkedModel (by decide) (by decide) rfl rfl) (by decide)

end VcCommonService.Oidc
