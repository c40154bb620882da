import VcCommonService.Oidc.Purge

/-!
# What a purge run leaves

Each batch takes up to five hundred expired rows of each table, but only the models decide
whether there is another batch. With the clock standing still a run below the cap therefore has
as many batches as the models need, and one more that finds none; pending upstream sessions and
upstream interactions are drained when that many batches are enough for them too.
-/

namespace VcCommonService.Oidc
open Lib

variable {π : Type}

def isExpiredInteraction (now : Time) (r : OidcUpstreamInteraction) : Bool :=
  decide (r.expiresAt < now)

/-! ### Backlogs -/

def modelBacklog (now : Time) (db : PurgeDb π) : ℕ := db.models.countP (isPurgeable now)

def pendingBacklog (now : Time) (db : PurgeDb π) : ℕ := db.sessions.countP (isExpiredPending now)

def interactionBacklog (now : Time) (db : PurgeDb π) : ℕ :=
  db.interactions.countP (isExpiredInteraction now)

structure Drained (now : Time) (db : PurgeDb π) : Prop where
  models : ∀ r ∈ db.models, isPurgeable now r = false
  sessions : ∀ r ∈ db.sessions, isExpiredPending now r = false
  interactions : ∀ r ∈ db.interactions, isExpiredInteraction now r = false

theorem drained_iff {now : Time} {db : PurgeDb π} :
    Drained now db ↔ modelBacklog now db = 0 ∧ pendingBacklog now db = 0 ∧
      interactionBacklog now db = 0 := by
  simp only [modelBacklog, pendingBacklog, interactionBacklog, List.countP_eq_zero,
    Bool.not_eq_true]
  exact ⟨fun h => ⟨h.models, h.sessions, h.interactions⟩, fun h => ⟨h.1, h.2.1, h.2.2⟩⟩

/-- Enough batches for the models, and the one that finds nothing. -/
def batchesNeeded (now : Time) (db : PurgeDb π) : ℕ :=
  (modelBacklog now db + (batchSize - 1)) / batchSize + 1

/-! ### One batch -/

/-- The clock stands at `now` throughout the batch. -/
structure BatchInput.At (input : BatchInput π) (now : Time) : Prop where
  cleanup : input.cleanupAt = now
  pending : input.pendingAt = now
  purge : input.purgeAt = now
  interactions : input.interactionsAt = now

section Batch

variable [DecidableEq π] {run run' : PurgeRun π} {input : BatchInput π} {now : Time}

theorem modelBacklog_purgeBatch (hk : run.db.Keys) (hnow : input.At now)
    (h : purgeBatch run input = some run') :
    modelBacklog now run'.db = modelBacklog now run.db - batchSize := by
  obtain ⟨-, horders, rfl⟩ := purgeBatch_eq_some_iff.mp h
  have hpurge := hnow.purge ▸ horders.purge.1
  exact Table.countP_deleteBatch hk.models hpurge batchSize

theorem batchCount_purgeBatch (hk : run.db.Keys) (hnow : input.At now)
    (h : purgeBatch run input = some run') :
    run'.batchCount = min batchSize (modelBacklog now run.db) := by
  obtain ⟨-, horders, rfl⟩ := purgeBatch_eq_some_iff.mp h
  have hpurge := hnow.purge ▸ horders.purge
  have hnodup : input.purgeOrder.Nodup :=
    hpurge.1.nodup_iff.mpr ((List.Nodup.of_map _ hk.models).filter _)
  have hdeleted := Table.perm_deleted hk.models
    (fun r hr => ((hpurge.mem_iff r).mp (List.mem_of_mem_take hr)).1)
    (hnodup.sublist (List.take_sublist batchSize _))
  rw [hdeleted.length_eq, List.length_take, hpurge.1.length_eq, modelBacklog,
    List.countP_eq_length_filter]

theorem pendingBacklog_purgeBatch (hk : run.db.Keys) (hnow : input.At now)
    (h : purgeBatch run input = some run') :
    pendingBacklog now run'.db = pendingBacklog now run.db - batchSize := by
  obtain ⟨-, horders, rfl⟩ := purgeBatch_eq_some_iff.mp h
  have hpending := hnow.pending ▸ horders.pending.1
  have hunique := uniqueKeys_logouts input.loggedOut (cleanupIds input) hk.sessions
  have hcount := Table.countP_deleteBatch hunique hpending batchSize
  -- logouts and the cascade only concern sessions that are bound to a model
  have hcascade : (keptSessions run input).countP (isExpiredPending now) =
      (Table.deleteWhere (fun r =>
        ((input.pendingOrder.take batchSize).map OidcUpstreamSession.id).contains r.id)
        (loggedOutSessions run input)).countP (isExpiredPending now) := by
    rw [List.countP_eq_length_filter, List.countP_eq_length_filter, keptSessions, cascadeSessions,
      Table.filter_deleteWhere fun s _ hs => by simp [oidcModelId_of_isExpiredPending hs]]
  have hbefore : (loggedOutSessions run input).countP (isExpiredPending now) =
      run.db.sessions.countP (isExpiredPending now) := by
    rw [List.countP_eq_length_filter, List.countP_eq_length_filter,
      filter_loggedOutSessions hk.sessions]
  exact hcascade.trans (hcount.trans (congrArg (· - batchSize) hbefore))

theorem interactionBacklog_purgeBatch (hk : run.db.Keys) (hnow : input.At now)
    (h : purgeBatch run input = some run') :
    interactionBacklog now run'.db = interactionBacklog now run.db - batchSize := by
  obtain ⟨-, -, rfl⟩ := purgeBatch_eq_some_iff.mp h
  obtain rfl := hnow.interactions
  exact Table.countP_deleteBatch hk.interactions (Table.perm_orderBy _ _) batchSize

end Batch

/-! ### The run -/

/-- How far a run from `db` has come. -/
structure Progress (now : Time) (db : PurgeDb π) (run : PurgeRun π) : Prop where
  keys : run.db.Keys
  models : modelBacklog now run.db = modelBacklog now db - batchSize * run.batches
  pending : pendingBacklog now run.db = pendingBacklog now db - batchSize * run.batches
  interactions :
    interactionBacklog now run.db = interactionBacklog now db - batchSize * run.batches
  /-- The batches before the last one have all deleted a model. -/
  busy : batchSize * run.batches < modelBacklog now db + 2 * batchSize
  last : 0 < run.batches →
    run.batchCount = min batchSize (modelBacklog now db - batchSize * (run.batches - 1))

section Run

variable {now : Time} {db : PurgeDb π} {run run' : PurgeRun π} {input : BatchInput π}

theorem progress_start (hk : db.Keys) : Progress now db (.start db) :=
  ⟨hk, rfl, rfl, rfl, by simp [PurgeRun.start, batchSize], by simp [PurgeRun.start]⟩

theorem progress_purgeBatch [DecidableEq π] (hp : Progress now db run)
    (h : purgeBatch run input = some run') (hnow : input.At now) : Progress now db run' := by
  have hmodels := modelBacklog_purgeBatch hp.keys hnow h
  have hcount := batchCount_purgeBatch hp.keys hnow h
  have hpending := pendingBacklog_purgeBatch hp.keys hnow h
  have hinteractions := interactionBacklog_purgeBatch hp.keys hnow h
  have hkeys := keys_purgeBatch hp.keys h
  have hbatches : run'.batches = run.batches + 1 := by
    obtain ⟨-, -, rfl⟩ := purgeBatch_eq_some_iff.mp h
    rfl
  have hcontinues := (purgeBatch_eq_some_iff.mp h).1
  simp only [PurgeRun.continues, Bool.or_eq_true, Bool.and_eq_true, decide_eq_true_eq] at hcontinues
  have hsum : batchSize * run'.batches = batchSize * run.batches + batchSize := by
    rw [hbatches, Nat.mul_succ]
  refine ⟨hkeys, ?_, ?_, ?_, ?_, fun _ => ?_⟩
  · rw [hmodels, hp.models, hsum, Nat.sub_sub]
  · rw [hpending, hp.pending, hsum, Nat.sub_sub]
  · rw [hinteractions, hp.interactions, hsum, Nat.sub_sub]
  · have hlast := hp.last
    simp only [batchSize] at hlast hsum ⊢
    rcases hcontinues with hfirst | ⟨hpositive, -⟩ <;> omega
  · rw [hcount, hp.models, hbatches, Nat.add_sub_cancel]

theorem progress_run [DecidableEq π] {inputs : List (BatchInput π)} (hk : db.Keys)
    (hclock : ∀ input ∈ inputs, input.At now)
    (hrun : Run.final purgeBatch (.start db) inputs = some run) : Progress now db run := by
  have henabled : Run.Enabled purgeBatch (.start db) inputs :=
    Run.enabled_of_final (by rw [hrun]; rfl)
  exact Run.final_of_invariant (Progress now db)
    (fun s input s' hp h hc => progress_purgeBatch hp h hc.2) (progress_start hk)
    (Run.all_labels hclock henabled) hrun

/-- A run below the cap has as many batches as the models need. -/
theorem batches_eq (hp : Progress now db run) (hreturned : run.continues = false)
    (hcap : run.batches < maxBatchesPerRun) : run.batches = batchesNeeded now db := by
  simp only [PurgeRun.continues, Bool.or_eq_false_iff, Bool.and_eq_false_iff,
    decide_eq_false_iff_not] at hreturned
  have hzero : run.batchCount = 0 := by
    rcases hreturned.2 with h | h <;> omega
  have hlast := hp.last
  have hbusy := hp.busy
  simp only [batchesNeeded, batchSize] at hlast hbusy ⊢
  omega

/-- Models are always drained; the other two tables exactly when the batches that the models
need are enough for them. -/
theorem purge_drains_iff [DecidableEq π] (db : PurgeDb π) (hk : db.Keys) (now : Time)
    (inputs : List (BatchInput π)) (hclock : ∀ input ∈ inputs, input.At now) (run : PurgeRun π)
    (hrun : Run.final purgeBatch (.start db) inputs = some run)
    (hreturned : run.continues = false) (hcap : run.batches < maxBatchesPerRun) :
    Drained now run.db ↔
      pendingBacklog now db ≤ batchSize * batchesNeeded now db ∧
      interactionBacklog now db ≤ batchSize * batchesNeeded now db := by
  have hp := progress_run hk hclock hrun
  have hbatches := batches_eq hp hreturned hcap
  have hmodels : modelBacklog now run.db = 0 := by
    rw [hp.models, hbatches, batchesNeeded]
    simp only [batchSize]
    omega
  rw [drained_iff, hp.pending, hp.interactions, hbatches, Nat.sub_eq_zero_iff_le,
    Nat.sub_eq_zero_iff_le]
  exact and_iff_right hmodels

end Run

/-! ### Instances -/

def backlogModel : ModelRow Unit :=
  { upsertedModel "m" "AccessToken" "t" { rest := () } 1 0 with expiresAt := some 5 }

def backlogSession : OidcUpstreamSession :=
  { id := "s", tenantUserId := "u", upstreamSubject := "sub", upstreamIdToken := "token"
    createdAt := 0, expiresAt := some 5 }

def backlogInteraction (n : ℕ) : OidcUpstreamInteraction :=
  { id := String.ofList (List.replicate n 'i'), state := String.ofList (List.replicate n 's')
    nonce := "n", interactionUid := String.ofList (List.replicate n 'u'), codeVerifier := "v"
    tenantId := "t", createdAt := 0, expiresAt := 5 }

def smallBacklog : PurgeDb Unit := ⟨[backlogModel], [backlogSession], [backlogInteraction 1]⟩

def batchAt (now : Time) (pending : List OidcUpstreamSession) (models : List (ModelRow Unit)) :
    BatchInput Unit :=
  { cleanupAt := now, cleanupOrder := [], loggedOut := fun _ => true, pendingAt := now
    pendingOrder := pending, purgeAt := now, purgeOrder := models, interactionsAt := now }

theorem batchAt_at (now : Time) (pending : List OidcUpstreamSession)
    (models : List (ModelRow Unit)) : (batchAt now pending models).At now :=
  ⟨rfl, rfl, rfl, rfl⟩

def smallRun : PurgeRun Unit := { db := ⟨[], [], []⟩, batches := 2 }

theorem purge_drains_small :
    Run.final purgeBatch (.start smallBacklog)
      [batchAt 10 [backlogSession] [backlogModel], batchAt 10 [] []] = some smallRun ∧
      Drained 10 smallRun.db := by
  have hk : smallBacklog.Keys := ⟨by decide, by decide, by decide⟩
  have hclock : ∀ input ∈ [batchAt 10 [backlogSession] [backlogModel], batchAt 10 [] []],
      input.At 10 := by simp [batchAt_at]
  exact ⟨rfl, (purge_drains_iff smallBacklog hk 10 _ hclock smallRun rfl rfl (by decide)).mpr
    ⟨by decide, by decide⟩⟩

def manyInteractions : PurgeDb Unit := ⟨[], [], (List.range 501).map backlogInteraction⟩

theorem manyInteractions_keys : manyInteractions.Keys := by
  refine ⟨List.nodup_nil, List.nodup_nil, ?_⟩
  unfold Table.UniqueKeys manyInteractions
  rw [List.map_map]
  refine List.Nodup.map (fun m n h => ?_) List.nodup_range
  have hlist := congrArg String.toList h
  simp only [Function.comp_apply, backlogInteraction, String.toList_ofList] at hlist
  simpa using congrArg List.length hlist

theorem manyInteractions_backlog : interactionBacklog 10 manyInteractions = 501 := by
  have hall : ∀ r ∈ (List.range 501).map backlogInteraction, isExpiredInteraction 10 r = true := by
    intro r hr
    obtain ⟨n, -, rfl⟩ := List.mem_map.mp hr
    rfl
  rw [interactionBacklog, manyInteractions, List.countP_eq_length.mpr hall, List.length_map,
    List.length_range]

/-- No model has expired and 501 upstream interactions have: the first batch is the last. -/
theorem purge_leaves_interaction :
    ¬ ∀ (db : PurgeDb Unit) (now : Time) (inputs : List (BatchInput Unit)) (run : PurgeRun Unit),
      db.Keys → (∀ input ∈ inputs, input.At now) →
      Run.final purgeBatch (.start db) inputs = some run → run.continues = false →
      run.batches < maxBatchesPerRun → Drained now run.db := by
  intro hall
  have hclock : ∀ input ∈ [batchAt 10 [] []], input.At 10 := by simp [batchAt_at]
  have horders : Orders (.start manyInteractions) (batchAt 10 [] []) :=
    ⟨⟨.refl _, .nil⟩, ⟨.refl _, .nil⟩, ⟨.refl _, .nil⟩⟩
  have hrun : Run.final purgeBatch (.start manyInteractions) [batchAt 10 [] []] = some _ :=
    congrArg (Option.bind · some) (purgeBatch_eq_some_iff.mpr ⟨rfl, horders, rfl⟩)
  have hdrained := hall manyInteractions 10 _ _ manyInteractions_keys hclock hrun rfl (by decide)
  have hleft := (progress_run manyInteractions_keys hclock hrun).interactions
  rw [(drained_iff.mp hdrained).2.2, manyInteractions_backlog] at hleft
  exact absurd hleft (by decide)

end VcCommonService.Oidc
