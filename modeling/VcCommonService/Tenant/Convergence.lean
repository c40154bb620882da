import VcCommonService.Tenant.Cascade

/-!
# Convergence of the cascade

The worker acts on the status in the job, so a late or repeated job can undo a newer one.
Where no statement of a job runs after a statement of a later job, the tables agree with
the tenant's status whenever every job has been processed and no slot is busy.
-/

namespace VcCommonService.Tenants
open Lib OAuthClients

/-! ### Statements of the property -/

/-- Every job has been processed at least once and none is running. -/
def Quiescent (s : CascadeState) : Prop :=
  (∀ slot, s.slots slot = none) ∧ ∀ j < s.jobs.length, j ∈ s.processed

/-- A deactivated tenant has no usable client from before the last transition and no active
connector; an active one has no client left revoked by the cascade. -/
def Converged (s : CascadeState) : Prop :=
  (s.tenant.status = .deactivated →
    (∀ c ∈ s.clients, c.tenantId = s.tenant.id → c.id ∉ s.createdSince → c.revokedAt ≠ none) ∧
    ∀ k ∈ s.connectors, k.tenantId = s.tenant.id → k.active = false) ∧
  (s.tenant.status = .active →
    ∀ c ∈ s.clients, c.tenantId = s.tenant.id → c.revokedReason ≠ some .tenantDeactivation)

/-- Nothing in flight, and the tables as the cascades so far should have left them. -/
structure Settled (s : CascadeState) : Prop where
  jobs : s.jobs = []
  slots : ∀ slot, s.slots slot = none
  executed : s.executed = []
  processed : s.processed = []
  converged : Converged s
  untagged : s.tenant.status ≠ .deactivated → ∀ c ∈ s.clients, c.tenantId = s.tenant.id →
    c.revokedReason ≠ some .tenantDeactivation

/-- A statement runs only while no statement of a later job has run. -/
def InOrder (s : CascadeState) (e : CascadeEvent) (_ : CascadeState) : Prop :=
  ∀ slot statement now, e = .run slot statement now →
    ∀ a, s.slots slot = some a → ∀ entry ∈ s.executed, entry.1 ≤ a.job

/-! ### The handler and the chain of jobs -/

theorem handle_revoke {job : TenantStatusChangeJobData} (h : .revokeClients ∈ handle job) :
    job.status = .deactivated := by
  unfold handle at h
  split at h
  next hs => exact hs
  · split at h
    · simp at h
    · simp at h

theorem handle_restore {job : TenantStatusChangeJobData} (h : .restoreClients ∈ handle job) :
    job.status ≠ .deactivated := by
  unfold handle at h
  split at h
  · simp at h
  next hs => exact hs

theorem handle_deactivated {job : TenantStatusChangeJobData} (h : job.status = .deactivated) :
    .revokeClients ∈ handle job ∧ .deactivateConnectors ∈ handle job := by
  simp [handle, h]

/-- The jobs are the transitions of the tenant from `first` to `last`, in order. -/
def Chain (first : TenantStatus) : List TenantStatusChangeJobData → TenantStatus → Prop
  | [], last => first = last
  | job :: jobs, last => job.previousStatus = first ∧
      job.status ∈ allowedStatusTransitions first ∧ Chain job.status jobs last

theorem chain_append {first last : TenantStatus} {jobs : List TenantStatusChangeJobData}
    (h : Chain first jobs last) (job : TenantStatusChangeJobData)
    (hprev : job.previousStatus = last) (hallowed : job.status ∈ allowedStatusTransitions last) :
    Chain first (jobs ++ [job]) job.status := by
  induction jobs generalizing first with
  | nil =>
    have heq : first = last := h
    exact ⟨hprev.trans heq.symm, heq ▸ hallowed, rfl⟩
  | cons j jobs ih => exact ⟨h.1, h.2.1, ih h.2.2⟩

theorem chain_last {first last : TenantStatus} {jobs : List TenantStatusChangeJobData}
    (h : Chain first jobs last) {job : TenantStatusChangeJobData}
    (hjob : jobs[jobs.length - 1]? = some job) : job.status = last := by
  induction jobs generalizing first with
  | nil => simp at hjob
  | cons j jobs ih =>
    cases jobs with
    | nil =>
      have heq : j = job := by simpa using hjob
      exact heq ▸ h.2.2
    | cons j' jobs => exact ih h.2.2 (by simpa using hjob)

theorem chain_leaves_start {last : TenantStatus} {jobs : List TenantStatusChangeJobData}
    (h : Chain .deactivated jobs last) (hlast : last ≠ .deactivated) :
    ∃ job, jobs[0]? = some job ∧ .restoreClients ∈ handle job := by
  cases jobs with
  | nil => exact absurd (Eq.symm h) hlast
  | cons job jobs =>
    refine ⟨job, rfl, ?_⟩
    have hactive : job.status = .active := by
      simpa [allowedStatusTransitions] using h.2.1
    simp [handle, h.1, hactive]

theorem chain_leaves {first last : TenantStatus} {jobs : List TenantStatusChangeJobData}
    (h : Chain first jobs last) (hlast : last ≠ .deactivated) {k : ℕ}
    {job : TenantStatusChangeJobData} (hjob : jobs[k]? = some job)
    (hstatus : job.status = .deactivated) :
    ∃ next, jobs[k + 1]? = some next ∧ .restoreClients ∈ handle next := by
  induction jobs generalizing first k with
  | nil => simp at hjob
  | cons j jobs ih =>
    cases k with
    | zero =>
      have heq : j = job := by simpa using hjob
      subst heq
      obtain ⟨next, hnext, hrestore⟩ := chain_leaves_start (hstatus ▸ h.2.2) hlast
      exact ⟨next, by simpa using hnext, hrestore⟩
    | succ k =>
      obtain ⟨next, hnext, hrestore⟩ := ih h.2.2 (by simpa using hjob)
      exact ⟨next, by simpa using hnext, hrestore⟩

/-! ### Invariant -/

def AttemptOk (jobs : List TenantStatusChangeJobData) (executed : List (ℕ × Statement))
    (a : Attempt) : Prop :=
  ∃ job, jobs[a.job]? = some job ∧ (∀ st ∈ a.todo, st ∈ handle job) ∧
    (a.failed = false → ∀ st ∈ handle job, st ∈ a.todo ∨ (a.job, st) ∈ executed)

def LastHasRun (s : CascadeState) (st : Statement) : Prop :=
  s.jobs = [] ∨ (s.jobs.length - 1, st) ∈ s.executed

/-- Why a client carries the tag: a revocation that no later reactivation has followed. -/
def TagExplained (first : TenantStatus) (executed : List (ℕ × Statement)) : Prop :=
  (∃ j, (j, .revokeClients) ∈ executed ∧ ∀ r, (r, .restoreClients) ∈ executed → r < j) ∨
    (first = .deactivated ∧ ∀ r, (r, .restoreClients) ∉ executed)

structure CascadeInv (first : TenantStatus) (s : CascadeState) : Prop where
  chain : Chain first s.jobs s.tenant.status
  jobTenant : ∀ job ∈ s.jobs, job.tenantId = s.tenant.id
  attempts : ∀ slot a, s.slots slot = some a → AttemptOk s.jobs s.executed a
  executed : ∀ j st, (j, st) ∈ s.executed → ∃ job, s.jobs[j]? = some job ∧ st ∈ handle job
  processed : ∀ j ∈ s.processed, ∃ job, s.jobs[j]? = some job ∧
    ∀ st ∈ handle job, (j, st) ∈ s.executed
  revoked : s.tenant.status = .deactivated → LastHasRun s .revokeClients →
    ∀ c ∈ s.clients, c.tenantId = s.tenant.id → c.id ∉ s.createdSince → c.revokedAt ≠ none
  inactive : s.tenant.status = .deactivated → LastHasRun s .deactivateConnectors →
    ∀ k ∈ s.connectors, k.tenantId = s.tenant.id → k.active = false
  tagged : ∀ c ∈ s.clients, c.tenantId = s.tenant.id →
    c.revokedReason = some .tenantDeactivation → TagExplained first s.executed

variable {first : TenantStatus} {s s' : CascadeState}

theorem cascadeInv_settled (h : Settled s) : CascadeInv s.tenant.status s := by
  refine ⟨?_, ?_, ?_, ?_, ?_, ?_, ?_, ?_⟩
  · rw [h.jobs]
    rfl
  · simp [h.jobs]
  · intro slot a ha
    rw [h.slots slot] at ha
    cases ha
  · simp [h.executed]
  · simp [h.processed]
  · intro hstatus _
    exact (h.converged.1 hstatus).1
  · intro hstatus _
    exact (h.converged.1 hstatus).2
  · intro c hc ht htag
    refine Or.inr ⟨?_, by simp [h.executed]⟩
    by_contra hne
    exact h.untagged hne c hc ht htag

theorem converged_of_quiescent (hi : CascadeInv first s) (hq : Quiescent s) : Converged s := by
  have hran : ∀ j job, s.jobs[j]? = some job → ∀ st ∈ handle job, (j, st) ∈ s.executed := by
    intro j job hjob
    have hlt : j < s.jobs.length := (List.getElem?_eq_some_iff.mp hjob).1
    obtain ⟨job', hjob', hran⟩ := hi.processed j (hq.2 j hlt)
    exact Option.some.inj (hjob'.symm.trans hjob) ▸ hran
  have hlast : s.tenant.status = .deactivated → ∀ st, (∀ job : TenantStatusChangeJobData,
      job.status = .deactivated → st ∈ handle job) → LastHasRun s st := by
    intro hstatus st hst
    by_cases hnil : s.jobs = []
    · exact Or.inl hnil
    · have hlt : s.jobs.length - 1 < s.jobs.length := by
        have := List.length_pos_iff.mpr hnil
        omega
      have hjob := List.getElem?_eq_getElem hlt
      exact Or.inr (hran _ _ hjob st (hst _ ((chain_last hi.chain hjob).trans hstatus)))
  constructor
  · intro hstatus
    exact ⟨hi.revoked hstatus (hlast hstatus _ fun _ h => (handle_deactivated h).1),
      hi.inactive hstatus (hlast hstatus _ fun _ h => (handle_deactivated h).2)⟩
  · intro hstatus c hc ht htag
    have hne : s.tenant.status ≠ .deactivated := by simp [hstatus]
    rcases hi.tagged c hc ht htag with ⟨j, hj, hlater⟩ | ⟨hfirst, hnone⟩
    · -- the job after the revocation was a reactivation, and it has run
      obtain ⟨job, hjob, hst⟩ := hi.executed j _ hj
      obtain ⟨next, hnext, hrestore⟩ := chain_leaves hi.chain hne hjob (handle_revoke hst)
      have hlt := hlater (j + 1) (hran _ _ hnext _ hrestore)
      omega
    · obtain ⟨job, hjob, hrestore⟩ := chain_leaves_start (hfirst ▸ hi.chain) hne
      exact hnone 0 (hran _ _ hjob _ hrestore)

/-! ### Steps that leave the tables alone -/

theorem getElem?_append_some {jobs more : List TenantStatusChangeJobData} {j : ℕ}
    {job : TenantStatusChangeJobData} (h : jobs[j]? = some job) : (jobs ++ more)[j]? = some job := by
  rw [List.getElem?_append_left (List.getElem?_eq_some_iff.mp h).1]
  exact h

theorem attemptOk_mono {jobs : List TenantStatusChangeJobData}
    (more : List TenantStatusChangeJobData)
    {executed executed' : List (ℕ × Statement)} {a : Attempt} (h : AttemptOk jobs executed a)
    (hsub : executed ⊆ executed') : AttemptOk (jobs ++ more) executed' a := by
  obtain ⟨job, hjob, htodo, hrun⟩ := h
  refine ⟨job, getElem?_append_some hjob, htodo, fun hf st hst => ?_⟩
  exact (hrun hf st hst).imp_right fun hmem => hsub hmem

theorem attempts_update {jobs : List TenantStatusChangeJobData}
    {executed : List (ℕ × Statement)} {slots : ℕ → Option Attempt}
    (h : ∀ slot a, slots slot = some a → AttemptOk jobs executed a) (slot : ℕ)
    {attempt : Option Attempt} (hnew : ∀ a, attempt = some a → AttemptOk jobs executed a) :
    ∀ i a, Function.update slots slot attempt i = some a → AttemptOk jobs executed a := by
  intro i a ha
  by_cases hi : i = slot
  · subst hi
    rw [Function.update_self] at ha
    exact hnew a ha
  · rw [Function.update_of_ne hi] at ha
    exact h i a ha

theorem cascadeInv_slots (hi : CascadeInv first s) {slots : ℕ → Option Attempt}
    {processed : List ℕ} (hattempts : ∀ slot a, slots slot = some a → AttemptOk s.jobs s.executed a)
    (hprocessed : ∀ j ∈ processed, ∃ job, s.jobs[j]? = some job ∧
      ∀ st ∈ handle job, (j, st) ∈ s.executed) :
    CascadeInv first { s with slots, processed } :=
  ⟨hi.chain, hi.jobTenant, hattempts, hi.executed, hprocessed, hi.revoked, hi.inactive, hi.tagged⟩

theorem cascadeInv_complete (hi : CascadeInv first s) {slot : ℕ} {a : Attempt}
    (ha : s.slots slot = some a) (hdone : a.todo = []) :
    CascadeInv first { setSlot s slot none with
      processed := if a.failed then s.processed else s.processed ++ [a.job] } := by
  refine cascadeInv_slots hi (attempts_update hi.attempts slot fun b hb => by cases hb) ?_
  intro j hj
  split at hj
  · exact hi.processed j hj
  next hok =>
    rcases List.mem_append.mp hj with hj | hj
    · exact hi.processed j hj
    · obtain ⟨job, hjob, -, hrun⟩ := hi.attempts slot a ha
      rw [List.mem_singleton.mp hj]
      refine ⟨job, hjob, fun st hst => ?_⟩
      rcases hrun (by simpa using hok) st hst with hmem | hmem
      · simp [hdone] at hmem
      · exact hmem

theorem cascadeInv_fail (hi : CascadeInv first s) {slot : ℕ} {a : Attempt}
    (ha : s.slots slot = some a) (st : Statement) :
    CascadeInv first (setSlot s slot (some { a with todo := a.todo.erase st, failed := true })) := by
  refine cascadeInv_slots hi (attempts_update hi.attempts slot ?_) hi.processed
  intro b hb
  cases hb
  obtain ⟨job, hjob, htodo, -⟩ := hi.attempts slot a ha
  exact ⟨job, hjob, fun x hx => htodo x (List.mem_of_mem_erase hx), fun hf => by cases hf⟩

theorem cascadeInv_updateStatus (hi : CascadeInv first s) {status : TenantStatus} {now : Time}
    {tenant : Tenant} (h : applyStatus s.tenant status now = .ok tenant) :
    CascadeInv first (commitStatus s status tenant) := by
  have htenant : tenant.id = s.tenant.id ∧ tenant.status = status ∧
      status ∈ allowedStatusTransitions s.tenant.status := by
    unfold applyStatus at h
    split at h
    next hallowed =>
      cases h
      exact ⟨rfl, rfl, hallowed⟩
    · cases h
  obtain ⟨hid, hstatus, hallowed⟩ := htenant
  -- no statement of the new job has run yet
  have hfresh : ∀ st, ¬ LastHasRun (commitStatus s status tenant) st := by
    rintro st (hnil | hmem)
    · simp [commitStatus] at hnil
    · obtain ⟨job, hjob, -⟩ := hi.executed _ st hmem
      have hlt := (List.getElem?_eq_some_iff.mp hjob).1
      simp [commitStatus] at hlt
  refine ⟨?_, ?_, ?_, ?_, ?_, fun _ hlast => absurd hlast (hfresh _),
    fun _ hlast => absurd hlast (hfresh _), ?_⟩
  · have hchain := chain_append hi.chain ⟨tenant.id, s.tenant.status, status⟩ rfl hallowed
    rw [← hstatus] at hchain ⊢
    exact hchain
  · intro job hjob
    rcases List.mem_append.mp hjob with hjob | hjob
    · exact (hi.jobTenant job hjob).trans hid.symm
    · rw [List.mem_singleton.mp hjob]
      rfl
  · intro slot a ha
    exact attemptOk_mono _ (hi.attempts slot a ha) (List.Subset.refl _)
  · intro j st hmem
    obtain ⟨job, hjob, hst⟩ := hi.executed j st hmem
    exact ⟨job, getElem?_append_some hjob, hst⟩
  · intro j hj
    obtain ⟨job, hjob, hran⟩ := hi.processed j hj
    exact ⟨job, getElem?_append_some hjob, hran⟩
  · intro c hc ht htag
    exact hi.tagged c hc (ht.trans hid) htag

theorem cascadeInv_createClient (hi : CascadeInv first s) {client : OAuthClient}
    (hreason : client.revokedReason = none) :
    CascadeInv first { s with
      clients := s.clients ++ [client], createdSince := s.createdSince ++ [client.id] } := by
  refine ⟨hi.chain, hi.jobTenant, hi.attempts, hi.executed, hi.processed, ?_, hi.inactive, ?_⟩
  · intro hstatus hlast c hc ht hnew
    rcases List.mem_append.mp hc with hc | hc
    · exact hi.revoked hstatus hlast c hc ht fun h => hnew (List.mem_append_left _ h)
    · rw [List.mem_singleton.mp hc] at hnew
      exact absurd (List.mem_append_right _ (List.mem_singleton_self _)) hnew
  · intro c hc ht htag
    rcases List.mem_append.mp hc with hc | hc
    · exact hi.tagged c hc ht htag
    · rw [List.mem_singleton.mp hc, hreason] at htag
      cases htag

/-! ### Statements of the handler -/

section Run

variable {slot : ℕ} {a : Attempt} {job : TenantStatusChangeJobData} {st : Statement}

theorem cascadeInv_executed (hi : CascadeInv first s) (ha : s.slots slot = some a)
    (hjob : s.jobs[a.job]? = some job) (hst : st ∈ handle job) {clients : List OAuthClient}
    {connectors : List ConnectorCredential} {connections : List Connection}
    (hrevoked : s.tenant.status = .deactivated →
      (s.jobs.length - 1, .revokeClients) ∈ s.executed ++ [(a.job, st)] →
      ∀ c ∈ clients, c.tenantId = s.tenant.id → c.id ∉ s.createdSince → c.revokedAt ≠ none)
    (hinactive : s.tenant.status = .deactivated →
      (s.jobs.length - 1, .deactivateConnectors) ∈ s.executed ++ [(a.job, st)] →
      ∀ k ∈ connectors, k.tenantId = s.tenant.id → k.active = false)
    (htagged : ∀ c ∈ clients, c.tenantId = s.tenant.id →
      c.revokedReason = some .tenantDeactivation → TagExplained first (s.executed ++ [(a.job, st)])) :
    CascadeInv first { s with
      clients, connectors, connections
      slots := Function.update s.slots slot (some { a with todo := a.todo.erase st })
      executed := s.executed ++ [(a.job, st)] } := by
  have hne : s.jobs ≠ [] := fun hnil => by simp [hnil] at hjob
  have hsub : s.executed ⊆ s.executed ++ [(a.job, st)] := fun _ h => List.mem_append_left _ h
  have hgrow : ∀ b, AttemptOk s.jobs s.executed b →
      AttemptOk s.jobs (s.executed ++ [(a.job, st)]) b := by
    intro b hb
    simpa using attemptOk_mono [] hb hsub
  refine ⟨hi.chain, hi.jobTenant, ?_, ?_, ?_, fun hs hl => hrevoked hs (hl.resolve_left hne),
    fun hs hl => hinactive hs (hl.resolve_left hne), htagged⟩
  · refine attempts_update (fun i b hb => hgrow b (hi.attempts i b hb)) slot ?_
    intro b hb
    cases hb
    obtain ⟨job', hjob', htodo, hrun⟩ := hi.attempts slot a ha
    refine ⟨job', hjob', fun x hx => htodo x (List.mem_of_mem_erase hx), fun hf x hx => ?_⟩
    by_cases hxs : x = st
    · exact Or.inr (hxs ▸ List.mem_append_right _ (List.mem_singleton_self _))
    · rcases hrun hf x hx with hmem | hmem
      · exact Or.inl ((List.mem_erase_of_ne hxs).mpr hmem)
      · exact Or.inr (hsub hmem)
  · intro j x hmem
    rcases List.mem_append.mp hmem with hmem | hmem
    · exact hi.executed j x hmem
    · cases List.mem_singleton.mp hmem
      exact ⟨job, hjob, hst⟩
  · intro j hj
    obtain ⟨job', hjob', hran⟩ := hi.processed j hj
    exact ⟨job', hjob', fun x hx => hsub (hran x hx)⟩

theorem mem_executed_of_ne {executed : List (ℕ × Statement)} {j k : ℕ} {x y : Statement}
    (h : (j, x) ∈ executed ++ [(k, y)]) (hne : x ≠ y) : (j, x) ∈ executed := by
  rcases List.mem_append.mp h with h | h
  · exact h
  · cases List.mem_singleton.mp h
    exact absurd rfl hne

theorem tagExplained_append {executed : List (ℕ × Statement)} {j : ℕ}
    (h : TagExplained first executed) (hst : st ≠ .restoreClients) :
    TagExplained first (executed ++ [(j, st)]) := by
  rcases h with ⟨k, hk, hlater⟩ | ⟨hfirst, hnone⟩
  · exact Or.inl ⟨k, List.mem_append_left _ hk,
      fun r hr => hlater r (mem_executed_of_ne hr hst.symm)⟩
  · exact Or.inr ⟨hfirst, fun r hr => hnone r (mem_executed_of_ne hr hst.symm)⟩

theorem revokeAllForTenant_revoked (clients : List OAuthClient) (tenantId : TenantId)
    (now : Time) : ∀ c ∈ revokeAllForTenant clients tenantId now,
      c.tenantId = tenantId → c.revokedAt ≠ none := by
  refine Table.forall_updateWhere (fun c _ _ _ => by simp) fun c _ hp ht hnone => ?_
  simp [ht, hnone] at hp

theorem restoreAllForTenant_untagged (clients : List OAuthClient) (tenantId : TenantId) :
    ∀ c ∈ restoreAllForTenant clients tenantId,
      c.tenantId = tenantId → c.revokedReason ≠ some .tenantDeactivation := by
  refine Table.forall_updateWhere (fun c _ _ _ => by simp) fun c _ hp ht htag => ?_
  simp [ht, htag] at hp

theorem deactivateAllForTenant_inactive (connectors : List ConnectorCredential)
    (tenantId : TenantId) : ∀ k ∈ deactivateAllForTenant connectors tenantId,
      k.tenantId = tenantId → k.active = false := by
  refine Table.forall_updateWhere (fun k _ _ _ => rfl) fun k _ hp ht => ?_
  simpa [ht] using hp

theorem cascadeInv_run (hi : CascadeInv first s) (ha : s.slots slot = some a)
    (hjob : s.jobs[a.job]? = some job) (htodo : st ∈ a.todo) (now : Time)
    (horder : ∀ entry ∈ s.executed, entry.1 ≤ a.job) :
    CascadeInv first (commitStatement s slot a job.tenantId st now) := by
  have htenant : job.tenantId = s.tenant.id :=
    hi.jobTenant job (List.mem_of_getElem? hjob)
  have hst : st ∈ handle job := by
    obtain ⟨job', hjob', hsub, -⟩ := hi.attempts slot a ha
    exact Option.some.inj (hjob'.symm.trans hjob) ▸ hsub st htodo
  cases st with
  | revokeClients =>
    refine cascadeInv_executed hi ha hjob hst ?_ ?_ ?_
    · intro _ _ c hc ht _
      exact revokeAllForTenant_revoked _ _ _ c hc (ht.trans htenant.symm)
    · intro hstatus hmem
      exact hi.inactive hstatus (Or.inr (mem_executed_of_ne hmem (by simp)))
    · -- every restore so far belongs to an earlier job
      intro c _ _ _
      refine Or.inl ⟨a.job, List.mem_append_right _ (List.mem_singleton_self _), fun r hr => ?_⟩
      have hr' := mem_executed_of_ne hr (by simp)
      have hle := horder _ hr'
      obtain ⟨job', hjob', hrestore⟩ := hi.executed r _ hr'
      refine lt_of_le_of_ne hle fun heq => ?_
      have hsame : job' = job := by
        have hj : s.jobs[a.job]? = some job' := heq ▸ hjob'
        exact Option.some.inj (hj.symm.trans hjob)
      exact handle_restore hrestore (hsame ▸ handle_revoke hst)
  | deactivateConnectors =>
    refine cascadeInv_executed hi ha hjob hst ?_ ?_ ?_
    · intro hstatus hmem
      exact hi.revoked hstatus (Or.inr (mem_executed_of_ne hmem (by simp)))
    · intro _ _ k hk ht
      exact deactivateAllForTenant_inactive _ _ k hk (ht.trans htenant.symm)
    · intro c hc ht htag
      exact tagExplained_append (hi.tagged c hc ht htag) (by simp)
  | abandonConnections =>
    refine cascadeInv_executed hi ha hjob hst ?_ ?_ ?_
    · intro hstatus hmem
      exact hi.revoked hstatus (Or.inr (mem_executed_of_ne hmem (by simp)))
    · intro hstatus hmem
      exact hi.inactive hstatus (Or.inr (mem_executed_of_ne hmem (by simp)))
    · intro c hc ht htag
      exact tagExplained_append (hi.tagged c hc ht htag) (by simp)
  | restoreClients =>
    refine cascadeInv_executed hi ha hjob hst ?_ ?_ ?_
    · -- the last job has run and deactivates, so this is not it, and it comes too late
      intro hstatus hmem
      have hle := horder _ (mem_executed_of_ne hmem (by simp))
      have hlt := (List.getElem?_eq_some_iff.mp hjob).1
      have hlast : s.jobs[s.jobs.length - 1]? = some job := by
        have heq : s.jobs.length - 1 = a.job := by
          dsimp only at hle
          omega
        rw [heq]
        exact hjob
      exact absurd ((chain_last hi.chain hlast).trans hstatus) (handle_restore hst)
    · intro hstatus hmem
      exact hi.inactive hstatus (Or.inr (mem_executed_of_ne hmem (by simp)))
    · intro c hc ht htag
      exact absurd htag (restoreAllForTenant_untagged _ _ c hc (ht.trans htenant.symm))

end Run

theorem cascadeInv_step {e : CascadeEvent} (hi : CascadeInv first s)
    (hs : cascadeStep s e = some s') (hc : InOrder s e s') : CascadeInv first s' := by
  cases e with
  | updateStatus status now =>
    simp only [cascadeStep] at hs
    split at hs
    · cases hs
    next tenant happly =>
      cases hs
      exact cascadeInv_updateStatus hi happly
  | createClient client =>
    simp only [cascadeStep] at hs
    split at hs
    next h =>
      cases hs
      exact cascadeInv_createClient hi h.2.2.1
    · cases hs
  | deliver slot j =>
    simp only [cascadeStep] at hs
    split at hs
    next job _ hjob =>
      cases hs
      refine cascadeInv_slots hi (attempts_update hi.attempts slot ?_) hi.processed
      intro a ha
      cases ha
      exact ⟨job, hjob, fun _ h => h, fun _ _ h => Or.inl h⟩
    · cases hs
  | run slot st now =>
    simp only [cascadeStep] at hs
    split at hs
    · cases hs
    next a ha =>
      split at hs
      · cases hs
      next job hjob =>
        split at hs
        next htodo =>
          cases hs
          exact cascadeInv_run hi ha hjob htodo now (hc slot st now rfl a ha)
        · cases hs
  | fail slot st =>
    simp only [cascadeStep] at hs
    split at hs
    · cases hs
    next a ha =>
      split at hs
      · cases hs
        exact cascadeInv_fail hi ha st
      · cases hs
  | die slot =>
    cases hs
    refine cascadeInv_slots hi (attempts_update hi.attempts slot ?_) hi.processed
    intro b hb
    cases hb
  | complete slot =>
    simp only [cascadeStep] at hs
    split at hs
    · cases hs
    next a ha =>
      split at hs
      next hdone =>
        cases hs
        exact cascadeInv_complete hi ha hdone
      · cases hs

/-! ### Runs -/

/-- In every run in which statements run in the order of their jobs, the cascade has
converged whenever every job has been processed and none is running. -/
theorem cascade_converges (s : CascadeState) (events : List CascadeEvent) (hs : Settled s)
    (hrun : Run.All cascadeStep InOrder s events) :
    Run.All cascadeStep (fun _ _ s' => Quiescent s' → Converged s') s events := by
  refine Run.all_of_invariant (CascadeInv s.tenant.status) ?_ (cascadeInv_settled hs) hrun
  intro t e t' hi ht hc
  have hi' := cascadeInv_step hi ht hc
  exact ⟨hi', converged_of_quiescent hi'⟩

/-! ### Two jobs in the wrong order -/

def activeState : CascadeState :=
  { tenant := ⟨"t", "Acme", "acme", none, .active, [], none⟩
    clients := [{ id := "row", tenantId := "t", clientId := "dtcs_1"
                  clientSecretHash := some "salt:secret", name := "integration"
                  scopes := ["credentials:offer"], roles := [], redirectUris := []
                  grantTypes := [machineGrantType], createdBy := none
                  refreshTokenTtlSeconds := none }]
    connectors := [⟨"connector", "t", true⟩], connections := [], jobs := []
    slots := fun _ => none, executed := [], processed := [], createdSince := [] }

theorem settled_activeState : Settled activeState := by
  refine ⟨rfl, fun _ => rfl, rfl, rfl, ⟨by simp [activeState], ?_⟩, ?_⟩
  · intro _ c hc _
    rw [List.mem_singleton.mp hc]
    simp
  · intro _ c hc _
    rw [List.mem_singleton.mp hc]
    simp

def deactivation : List CascadeEvent :=
  [.updateStatus .deactivated 1, .deliver 0 0, .run 0 .revokeClients 2,
    .run 0 .deactivateConnectors 3, .run 0 .abandonConnections 4, .complete 0]

theorem cascade_converges_deactivation :
    Run.All cascadeStep (fun _ _ s' => Quiescent s' → Converged s') activeState deactivation := by
  refine cascade_converges activeState deactivation settled_activeState ?_
  refine ⟨_, rfl, ?_, _, rfl, ?_, _, rfl, ?_, _, rfl, ?_, _, rfl, ?_, _, rfl, ?_, trivial⟩
  · intro slot st now h
    cases h
  · intro slot st now h
    cases h
  · intro slot st now _ a _ entry hentry
    cases hentry
  · intro slot st now _ a _ entry hentry
    rw [List.mem_singleton.mp hentry]
    exact Nat.zero_le _
  · intro slot st now _ a _ entry hentry
    rcases List.mem_cons.mp hentry with rfl | hentry
    · exact Nat.zero_le _
    · rw [List.mem_singleton.mp hentry]
      exact Nat.zero_le _
  · intro slot st now h
    cases h

def jobsSwapped : List CascadeEvent :=
  [.updateStatus .deactivated 1, .updateStatus .active 2, .deliver 0 0, .deliver 1 1,
    .run 1 .restoreClients 3, .complete 1, .run 0 .revokeClients 4,
    .run 0 .deactivateConnectors 5, .run 0 .abandonConnections 6, .complete 0]

theorem cascade_diverges : ¬ ∀ (s : CascadeState) (events : List CascadeEvent), Settled s →
    Run.Enabled cascadeStep s events →
    Run.All cascadeStep (fun _ _ s' => Quiescent s' → Converged s') s events := by
  intro hall
  have hrun := hall activeState jobsSwapped settled_activeState
    ⟨_, rfl, trivial, _, rfl, trivial, _, rfl, trivial, _, rfl, trivial, _, rfl, trivial,
      _, rfl, trivial, _, rfl, trivial, _, rfl, trivial, _, rfl, trivial, _, rfl, trivial, trivial⟩
  obtain ⟨s₁, h₁, -, s₂, h₂, -, s₃, h₃, -, s₄, h₄, -, s₅, h₅, -, s₆, h₆, -, s₇, h₇, -, s₈, h₈, -,
    s₉, h₉, -, s₁₀, h₁₀, hconverged, -⟩ := hrun
  cases h₁; cases h₂; cases h₃; cases h₄; cases h₅; cases h₆; cases h₇; cases h₈; cases h₉
  cases h₁₀
  have hquiet := hconverged ⟨?_, ?_⟩
  · exact hquiet.2 rfl _ (List.mem_singleton_self _) rfl rfl
  · rintro (_ | _ | slot)
    · rfl
    · rfl
    · rfl
  · decide

end VcCommonService.Tenants
