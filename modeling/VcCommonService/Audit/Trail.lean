import Mathlib.Data.List.Forall2
import VcCommonService.Audit.WriteWorker
import VcCommonService.Lib.Run

/-!
# The trail of the events

From an event to its row: in every run of producers, deliveries, completions and maintenance the
table is made of the rows of delivered jobs and of direct writes, in the order of their insertion
and with what the job says; only the deletion of an operation takes something away, the reference
to it. A completed job has its row, and a partition is there for it where the maintenance has run
in time. The event of a domain service is one that the worker takes where its ids are UUIDs; the
grant of a token has another id, and its event is refused at every delivery.
-/

namespace VcCommonService.Audit
open Lib Calendar

/-! ### Payloads of the producers -/

theorem parseUuid_ne_empty {s : String} {u : Uuid} (h : parseUuid s = some u) : s ≠ "" := by
  intro hempty
  have hnone : parseUuid "" = none := by decide +kernel
  rw [hempty, hnone] at h
  cases h

theorem find_auditAction (action : AuditAction) : Js.truthy (some action.name) = some action.name ∧
    auditActions.find? (fun a => decide (a.name = action.name)) = some action := by
  cases action <;> decide

theorem find_systemActor : Js.truthy (some "system") = some "system" ∧
    Js.truthy (some AuditActorType.system.name) = some AuditActorType.system.name ∧
    auditActorTypes.find? (fun t => decide (t.name = AuditActorType.system.name)) =
      some .system := by
  decide

/-- The entry of the event of a domain service: its ids are UUIDs. -/
def EntryOf (input : DomainAuditEmitInput) (entry : WriteAuditLogInput) : Prop :=
  ∃ tenantId resourceId, parseUuid input.tenantId = some tenantId ∧
    parseUuid input.resourceId = some resourceId ∧ input.resourceType ≠ "" ∧
    entry = ⟨tenantId, "system", .system, input.action, input.resourceType, resourceId, none,
      some (input.metadata.getD []), none⟩

theorem emit_taken (input : DomainAuditEmitInput) (entry : WriteAuditLogInput) :
    assertValidPayload (some input.payload) = .ok entry ↔ EntryOf input entry := by
  constructor
  · intro h
    unfold assertValidPayload DomainAuditEmitInput.payload at h
    simp only [find_auditAction, find_systemActor] at h
    split at h
    next tenantText actorId actorType action resourceType resourceText htenant hactor hactorType
        haction htype hresource =>
      cases hactor
      cases hactorType
      cases haction
      obtain ⟨htenant, -⟩ := Js.truthy_eq_some htenant
      obtain ⟨hresource, -⟩ := Js.truthy_eq_some hresource
      obtain ⟨htype, hnonempty⟩ := Js.truthy_eq_some htype
      cases htenant
      cases hresource
      cases htype
      split at h
      next tenantId resourceId hparseTenant hparseResource =>
        simp only [find_auditAction, find_systemActor] at h
        cases h
        exact ⟨tenantId, resourceId, hparseTenant, hparseResource, hnonempty, rfl⟩
      next => cases h
    next => cases h
  · intro ⟨tenantId, resourceId, hparseTenant, hparseResource, htype, htaken⟩
    unfold assertValidPayload DomainAuditEmitInput.payload
    simp only [Js.truthy_some (parseUuid_ne_empty hparseTenant),
      Js.truthy_some (parseUuid_ne_empty hparseResource), Js.truthy_some htype, find_auditAction,
      find_systemActor, hparseTenant, hparseResource, htaken]
    rfl

/-- The id of a grant is no UUID. -/
example : parseUuid "V1StGXR8_Z5jdHi6B-myT" = none := by
  decide +kernel

/-! ### What the queue knows of the rows -/

/-- The row says what the job says, as the columns store it. -/
def Says (job : WriteJob) (row : AuditLog) : Prop :=
  ∃ entry, assertValidPayload job.data = .ok entry ∧
    storedAudit (newAuditLog entry row.id row.createdAt) = some row

def writtenBy (i : ℕ) (written : List (Option ℕ × AuditLog)) : ℕ :=
  written.countP fun e => decide (e.1 = some i)

structure JobsOk (jobs : List WriteJob) (written : List (Option ℕ × AuditLog)) : Prop where
  origin : ∀ e ∈ written, ∀ i, e.1 = some i → ∃ job, jobs[i]? = some job ∧ Says job e.2
  returned : ∀ (i : ℕ) (job : WriteJob), jobs[i]? = some job → job.returned = true →
    ∃ row, (some i, row) ∈ written
  completed : ∀ (i : ℕ) (job : WriteJob), jobs[i]? = some job → job.completed = true →
    job.returned = true
  atMost : ∀ (i : ℕ) (job : WriteJob), jobs[i]? = some job →
    writtenBy i written + job.underWay ≤ job.delivered

variable {jobs : List WriteJob} {written : List (Option ℕ × AuditLog)}

theorem jobsOk_nil : JobsOk [] [] := by
  refine ⟨List.forall_mem_nil _, ?_, ?_, ?_⟩
  · intro i job hjob
    rw [List.getElem?_nil] at hjob
    cases hjob
  · intro i job hjob
    rw [List.getElem?_nil] at hjob
    cases hjob
  · intro i job hjob
    rw [List.getElem?_nil] at hjob
    cases hjob

theorem jobsOk_append (h : JobsOk jobs written) (data : AuditWriteJobData) :
    JobsOk (jobs ++ [newJob data]) written := by
  have hlt : ∀ e ∈ written, ∀ i, e.1 = some i → i < jobs.length := by
    intro e he i hi
    obtain ⟨job, hjob, -⟩ := h.origin e he i hi
    exact (List.getElem?_eq_some_iff.mp hjob).1
  have hlast : ∀ i job, (jobs ++ [newJob data])[i]? = some job →
      jobs[i]? = some job ∨ (i = jobs.length ∧ job = newJob data) := by
    intro i job hjob
    rcases Nat.lt_or_ge i jobs.length with hi | hi
    · rw [List.getElem?_append_left hi] at hjob
      exact Or.inl hjob
    · rw [List.getElem?_append_right hi, List.getElem?_singleton] at hjob
      split at hjob
      next hzero =>
        cases hjob
        exact Or.inr ⟨by omega, rfl⟩
      · cases hjob
  refine ⟨?_, ?_, ?_, ?_⟩
  · intro e he i hi
    obtain ⟨job, hjob, hsays⟩ := h.origin e he i hi
    exact ⟨job, by rw [List.getElem?_append_left (hlt e he i hi), hjob], hsays⟩
  · intro i job hjob hreturned
    rcases hlast i job hjob with hold | ⟨-, rfl⟩
    · exact h.returned i job hold hreturned
    · cases hreturned
  · intro i job hjob hcompleted
    rcases hlast i job hjob with hold | ⟨-, rfl⟩
    · exact h.completed i job hold hcompleted
    · cases hcompleted
  · intro i job hjob
    rcases hlast i job hjob with hold | ⟨rfl, rfl⟩
    · exact h.atMost i job hold
    · refine (List.countP_eq_zero.mpr ?_).le
      intro e he hi
      exact absurd (hlt e he _ (of_decide_eq_true hi)) (lt_irrefl _)

/-- A delivery or a completion of job `i`, and the rows it has inserted. -/
theorem jobsOk_set (h : JobsOk jobs written) {i : ℕ} {job job' : WriteJob}
    {more : List (Option ℕ × AuditLog)} (hjob : jobs[i]? = some job) (hdata : job'.data = job.data)
    (hdelivered : job.delivered + more.length + job'.underWay ≤ job'.delivered + job.underWay)
    (hreturned : job'.returned = true → job.returned = true ∨ more ≠ [])
    (hcompleted : job'.completed = true → job'.returned = true)
    (hmore : ∀ e ∈ more, e.1 = some i ∧ Says job e.2) : JobsOk (jobs.set i job') (written ++ more) := by
  have hlt : i < jobs.length := (List.getElem?_eq_some_iff.mp hjob).1
  have hself : (jobs.set i job')[i]? = some job' := List.getElem?_set_self hlt
  have hsays : ∀ row, Says job row → Says job' row := by
    rintro row ⟨entry, hvalid, hrow⟩
    exact ⟨entry, hdata ▸ hvalid, hrow⟩
  refine ⟨?_, ?_, ?_, ?_⟩
  · intro e he j hj
    rcases List.mem_append.mp he with he | he
    · obtain ⟨old, hold, hs⟩ := h.origin e he j hj
      by_cases hi : i = j
      · subst hi
        rw [hjob] at hold
        cases hold
        exact ⟨job', hself, hsays _ hs⟩
      · exact ⟨old, by rw [List.getElem?_set_ne hi, hold], hs⟩
    · obtain ⟨hi, hs⟩ := hmore e he
      obtain rfl : i = j := Option.some.inj (hi.symm.trans hj)
      exact ⟨job', hself, hsays _ hs⟩
  · intro j old hold hret
    by_cases hi : i = j
    · subst hi
      rw [hself] at hold
      cases hold
      rcases hreturned hret with hbefore | hne
      · obtain ⟨row, hrow⟩ := h.returned i job hjob hbefore
        exact ⟨row, List.mem_append_left _ hrow⟩
      · obtain ⟨e, he⟩ := List.exists_mem_of_ne_nil more hne
        refine ⟨e.2, List.mem_append_right _ ?_⟩
        rw [← (hmore e he).1]
        exact he
    · rw [List.getElem?_set_ne hi] at hold
      obtain ⟨row, hrow⟩ := h.returned j old hold hret
      exact ⟨row, List.mem_append_left _ hrow⟩
  · intro j old hold hcomp
    by_cases hi : i = j
    · subst hi
      rw [hself] at hold
      cases hold
      exact hcompleted hcomp
    · rw [List.getElem?_set_ne hi] at hold
      exact h.completed j old hold hcomp
  · intro j old hold
    unfold writtenBy
    rw [List.countP_append]
    by_cases hi : i = j
    · subst hi
      rw [hself] at hold
      cases hold
      have hbefore := h.atMost i job hjob
      unfold writtenBy at hbefore
      have hlength := @List.countP_le_length _ (fun e : Option ℕ × AuditLog => decide (e.1 = some i)) more
      omega
    · rw [List.getElem?_set_ne hi] at hold
      have hbefore := h.atMost j old hold
      unfold writtenBy at hbefore
      have hzero : more.countP (fun e => decide (e.1 = some j)) = 0 := by
        refine List.countP_eq_zero.mpr ?_
        intro e he
        rw [(hmore e he).1]
        simpa using hi
      omega

theorem jobsOk_mark (h : JobsOk jobs written) {i : ℕ} {job job' : WriteJob}
    (hjob : jobs[i]? = some job) (hdata : job'.data = job.data)
    (hdelivered : job.delivered + job'.underWay ≤ job'.delivered + job.underWay)
    (hreturned : job'.returned = true → job.returned = true)
    (hcompleted : job'.completed = true → job'.returned = true) :
    JobsOk (jobs.set i job') written := by
  have hset : JobsOk (jobs.set i job') (written ++ []) :=
    jobsOk_set h hjob hdata hdelivered (fun h' => Or.inl (hreturned h')) hcompleted
      (List.forall_mem_nil _)
  rwa [List.append_nil] at hset

theorem jobsOk_direct (h : JobsOk jobs written) (row : AuditLog) :
    JobsOk jobs (written ++ [(none, row)]) := by
  refine ⟨?_, ?_, h.completed, ?_⟩
  · intro e he i hi
    rcases List.mem_append.mp he with he | he
    · exact h.origin e he i hi
    · rw [List.mem_singleton.mp he] at hi
      cases hi
  · intro i job hjob hreturned
    obtain ⟨row', hrow⟩ := h.returned i job hjob hreturned
    exact ⟨row', List.mem_append_left _ hrow⟩
  · intro i job hjob
    unfold writtenBy
    rw [List.countP_append]
    exact h.atMost i job hjob

/-! ### The table -/

/-- The row as it was inserted, or without the operation that it referred to. -/
def Cleared (inserted row : AuditLog) : Prop :=
  row = inserted ∨ row = { inserted with operationId := none }

theorem cleared_clearOperation {inserted row : AuditLog} (h : Cleared inserted row)
    (operationId : Uuid) : Cleared inserted (clearOperation operationId row) := by
  rcases h with rfl | rfl
  · unfold clearOperation
    cases hop : row.operationId with
    | none =>
      refine Or.inr ?_
      rw [Option.filter_none]
    | some op =>
      by_cases hne : op ≠ operationId
      · refine Or.inl ?_
        rw [Option.filter_some, if_pos (decide_eq_true hne), ← hop]
      · refine Or.inr ?_
        rw [Option.filter_some, if_neg (by simpa using hne)]
  · exact Or.inr rfl

theorem storedAudit_some {row stored : AuditLog} (h : storedAudit row = some stored) :
    stored.id = row.id ∧ stored.createdAt = row.createdAt := by
  unfold storedAudit at h
  obtain ⟨_, -, h⟩ := Option.bind_eq_some_iff.mp h
  obtain ⟨_, -, h⟩ := Option.bind_eq_some_iff.mp h
  obtain ⟨_, -, h⟩ := Option.bind_eq_some_iff.mp h
  split at h
  · cases h
    exact ⟨rfl, rfl⟩
  · cases h

theorem insertAudit_ok {catalog : List Partition} {db : AuditDb} {row : AuditLog} {log : AuditTable}
    (h : insertAudit catalog db row = .ok log) :
    log.rows = db.log.rows ++ [row] ∧ ∃ p ∈ catalog, p.Contains row.createdAt := by
  unfold insertAudit at h
  split at h
  · cases h
  next hpartition =>
  split at h
  · split at h
    · cases h
    · split at h
      · cases h
      · cases h
        simp only [Bool.not_eq_true', Bool.not_eq_false, List.any_eq_true,
          decide_eq_true_eq] at hpartition
        exact ⟨rfl, hpartition⟩
  · cases h

/-- What the database asks of the row besides a partition. -/
structure Insertable (db : AuditDb) (row : AuditLog) : Prop where
  actorId : Varchar.Fits 255 row.actorId
  resourceType : Varchar.Fits 100 row.resourceType
  ipAddress : ∀ ip, row.ipAddress = some ip → Varchar.Fits 64 ip
  metadata : Json.storableMembers row.metadata = true
  new : ∀ r ∈ db.log.rows, (r.id, r.createdAt) ≠ (row.id, row.createdAt)
  tenant : row.tenantId ∈ db.tenants
  operation : ∀ op, row.operationId = some op → op ∈ db.operations

/-- Its columns take the values as they are. -/
theorem Insertable.stored {db : AuditDb} {row : AuditLog} (h : Insertable db row) :
    storedAudit row = some row := by
  have hip : Varchar.storedOrNull 64 row.ipAddress = some row.ipAddress := by
    cases hip : row.ipAddress with
    | none => rfl
    | some ip => rw [Varchar.storedOrNull, h.ipAddress ip hip, Option.map_some]
  have hactor : Varchar.stored 255 row.actorId = some row.actorId := h.actorId
  have htype : Varchar.stored 100 row.resourceType = some row.resourceType := h.resourceType
  simp only [storedAudit, hactor, htype, hip, h.metadata, Option.bind_eq_bind, Option.bind_some,
    if_true]

theorem insertAudit_of {catalog : List Partition} {db : AuditDb} {row : AuditLog}
    (h : Insertable db row) (hpartition : ∃ p ∈ catalog, p.Contains row.createdAt) :
    ∃ log, insertAudit catalog db row = .ok log := by
  have hcovered : ¬ ((!catalog.any fun p => decide (p.Contains row.createdAt)) = true) := by
    simpa using hpartition
  have htenant : ¬ ((!db.tenants.contains row.tenantId) = true) := by simpa using h.tenant
  have hoperation : ¬ ((row.operationId.any fun op => !db.operations.contains op) = true) := by
    cases hop : row.operationId with
    | none => simp
    | some op => simpa using h.operation op hop
  unfold insertAudit
  rw [if_neg hcovered, dif_pos h.new, if_neg htenant, if_neg hoperation]
  exact ⟨_, rfl⟩

section Trail

variable {input : Timestamptz.Input} {initial : List AuditLog} {db db' : AuditDb}

/-! ### The partitions -/

/-- The maintenance has run for the month of the instant. -/
def Covered (db : AuditDb) (now : Timestamptz) : Prop :=
  ∃ m ∈ db.maintained, m.Readable ∧ monthOf (Timestamptz.floorMs now) ∈ m.months

theorem catalog_covers (hstart : ∀ m ∈ db.maintained, IsStart m.now) {now : Timestamptz}
    (h : Covered db now) : ∃ p ∈ db.catalog input, p.Contains now := by
  obtain ⟨months, hcatalog, hmonths⟩ := maintain_months input hstart
  obtain ⟨m, hm, hreadable, hmonth⟩ := h
  refine ⟨monthPartition (monthOf (Timestamptz.floorMs now)), ?_, contains_monthPartition.mpr rfl⟩
  rw [AuditDb.catalog, hcatalog.eq]
  exact List.mem_map_of_mem (hmonths m hm hreadable hmonth)

theorem catalog_grows (hstart : ∀ m ∈ db.maintained, IsStart m.now) {m : Job}
    (hm : IsStart m.now) {p : Partition} (hp : p ∈ db.catalog input) :
    p ∈ maintain input (db.maintained ++ [m]) := by
  obtain ⟨months, hcatalog, -⟩ := maintain_months input hstart
  obtain ⟨months', hcatalog', hsub, -⟩ := handle_maintained input hcatalog hm
  rw [maintain_concat, hcatalog'.eq]
  rw [AuditDb.catalog, hcatalog.eq] at hp
  exact List.map_subset _ hsub hp

/-! ### Steps -/

structure TrailInv (input : Timestamptz.Input) (initial : List AuditLog) (db : AuditDb) : Prop where
  table : List.Forall₂ Cleared (initial ++ db.written.map Prod.snd) db.log.rows
  jobs : JobsOk db.jobs db.written
  partitions : ∀ row ∈ db.log.rows, ∃ p ∈ db.catalog input, p.Contains row.createdAt
  starts : ∀ m ∈ db.maintained, IsStart m.now

theorem trailInv_enqueue (h : TrailInv input initial db) (data : Option AuditWriteJobData)
    (published : Bool) : TrailInv input initial (db.enqueue data published) := by
  unfold AuditDb.enqueue
  split
  · refine ⟨h.table, ?_, h.partitions, h.starts⟩
    cases data with
    | none =>
      rw [Option.map_none, Option.toList_none, List.append_nil]
      exact h.jobs
    | some data => exact jobsOk_append h.jobs data
  · exact h

/-- What a write that is not refused leaves. -/
theorem write_ok {writer : Option ℕ} {entry : WriteAuditLogInput} {id : Uuid} {now : Timestamptz}
    {db' : AuditDb} (h : db.write input writer entry id now = .ok db') :
    ∃ row log, storedAudit (newAuditLog entry id now) = some row ∧
      insertAudit (db.catalog input) db row = .ok log ∧
      db' = { db with log, written := db.written ++ [(writer, row)] } := by
  unfold AuditDb.write at h
  split at h
  · cases h
  next row hstored =>
    split at h
    · cases h
    next log hinsert =>
      cases h
      exact ⟨row, log, hstored, hinsert, rfl⟩

/-- The table after a write, and the partition of the new row. -/
theorem trailInv_write (h : TrailInv input initial db) {writer : Option ℕ} {row : AuditLog}
    {log : AuditTable} (hinsert : insertAudit (db.catalog input) db row = .ok log)
    {jobs : List WriteJob} (hjobs : JobsOk jobs (db.written ++ [(writer, row)])) :
    TrailInv input initial { db with log, jobs, written := db.written ++ [(writer, row)] } := by
  obtain ⟨hrows, hpartition⟩ := insertAudit_ok hinsert
  refine ⟨?_, hjobs, ?_, h.starts⟩
  · rw [List.map_append, ← List.append_assoc]
    show List.Forall₂ Cleared _ log.rows
    rw [hrows]
    exact List.rel_append h.table (.cons (Or.inl rfl) .nil)
  · show ∀ r ∈ log.rows, _
    rw [hrows]
    intro r hr
    rcases List.mem_append.mp hr with hr | hr
    · exact h.partitions r hr
    · rw [List.mem_singleton.mp hr]
      exact hpartition

/-- A delivery that throws, or one that inserts its row. -/
theorem handleWrite_cases (input : Timestamptz.Input) (db : AuditDb) (i : ℕ) (job : WriteJob)
    (id : Uuid) (now : Timestamptz) :
    handleWrite input db i job id now =
      { db with jobs := db.jobs.set i { job with underWay := job.underWay - 1 } } ∨
    ∃ entry db', assertValidPayload job.data = .ok entry ∧
      db.write input (some i) entry id now = .ok db' ∧
      handleWrite input db i job id now =
        { db' with
          jobs := db.jobs.set i { job with underWay := job.underWay - 1, returned := true } } := by
  unfold handleWrite
  dsimp only
  split
  · exact Or.inl rfl
  next db' hwrite =>
    refine Or.inr ?_
    cases hvalid : assertValidPayload job.data with
    | error e =>
      rw [hvalid] at hwrite
      cases hwrite
    | ok entry =>
      rw [hvalid] at hwrite
      exact ⟨entry, db', rfl, hwrite, rfl⟩

theorem trailInv_handle (h : TrailInv input initial db) {i : ℕ} {job : WriteJob}
    (hjob : db.jobs[i]? = some job) (hopen : job.underWay ≠ 0) (id : Uuid) (now : Timestamptz) :
    TrailInv input initial (handleWrite input db i job id now) := by
  rcases handleWrite_cases input db i job id now with
    hrefused | ⟨entry, db', hvalid, hwrite, hwritten⟩
  · rw [hrefused]
    refine ⟨h.table, jobsOk_mark h.jobs hjob rfl ?_ (fun hret => hret)
      (h.jobs.completed i job hjob), h.partitions, h.starts⟩
    dsimp only
    omega
  · obtain ⟨row, log, hstored, hinsert, rfl⟩ := write_ok hwrite
    obtain ⟨hid, hcreated⟩ := storedAudit_some hstored
    rw [hwritten]
    refine trailInv_write h hinsert (jobsOk_set h.jobs hjob rfl ?_
      (fun _ => Or.inr (List.cons_ne_nil _ _)) (fun _ => rfl) ?_)
    · simp only [List.length_singleton]
      omega
    · intro e he
      rw [List.mem_singleton.mp he]
      refine ⟨rfl, entry, hvalid, ?_⟩
      rw [hid, hcreated]
      exact hstored

theorem trailInv_deliver (h : TrailInv input initial db) {i : ℕ} {job : WriteJob}
    (hjob : db.jobs[i]? = some job) (hopen : job.completed = false) {job' : WriteJob}
    (hdelivery : job' = { job with
      delivered := job.delivered + 1, underWay := job.underWay + 1 }) :
    TrailInv input initial { db with jobs := db.jobs.set i job' } := by
  subst hdelivery
  refine ⟨h.table, jobsOk_mark h.jobs hjob rfl ?_ (fun hret => hret) ?_, h.partitions, h.starts⟩
  · dsimp only
    omega
  · intro hcompleted
    rw [hopen] at hcompleted
    cases hcompleted

theorem trailInv_direct (h : TrailInv input initial db) {entry : WriteAuditLogInput} {id : Uuid}
    {now : Timestamptz} {db' : AuditDb} (hwrite : db.write input none entry id now = .ok db') :
    TrailInv input initial db' := by
  obtain ⟨row, log, -, hinsert, rfl⟩ := write_ok hwrite
  exact trailInv_write h hinsert (jobsOk_direct h.jobs _)

theorem trailInv_step {e : AuditEvent} (h : TrailInv input initial db)
    (hclock : ∀ m, e = .maintain m → IsStart m.now) (hs : auditStep input db e = some db') :
    TrailInv input initial db' := by
  cases e with
  | emit entry published =>
    cases hs
    exact trailInv_enqueue h _ _
  | intercept request published =>
    cases hs
    exact trailInv_enqueue h _ _
  | deliver i =>
    simp only [auditStep] at hs
    split at hs
    · cases hs
    next job hjob =>
      split at hs
      · cases hs
      next hopen =>
        cases hs
        exact trailInv_deliver h hjob (Bool.eq_false_iff.mpr hopen) rfl
  | handle i id now =>
    simp only [auditStep] at hs
    split at hs
    · cases hs
    next job hjob =>
      split at hs
      · cases hs
      next hopen =>
        cases hs
        exact trailInv_handle h hjob hopen id now
  | write entry id now =>
    simp only [auditStep, Option.some.injEq] at hs
    split at hs
    · exact hs ▸ h
    next written hwrite => exact hs ▸ trailInv_direct h hwrite
  | complete i =>
    simp only [auditStep] at hs
    split at hs
    · cases hs
    next job hjob =>
      split at hs
      next hreturned =>
        cases hs
        exact ⟨h.table, jobsOk_mark h.jobs hjob rfl (le_refl _) (fun hret => hret)
          fun _ => hreturned, h.partitions, h.starts⟩
      · cases hs
  | maintain m =>
    cases hs
    have hm := hclock m rfl
    refine ⟨h.table, h.jobs, ?_, ?_⟩
    · intro row hrow
      obtain ⟨p, hp, hcontains⟩ := h.partitions row hrow
      exact ⟨p, catalog_grows h.starts hm hp, hcontains⟩
    · intro m' hm'
      rcases List.mem_append.mp hm' with hm' | hm'
      · exact h.starts m' hm'
      · rw [List.mem_singleton.mp hm']
        exact hm
  | createOperation operationId =>
    cases hs
    exact ⟨h.table, h.jobs, h.partitions, h.starts⟩
  | deleteOperation operationId =>
    cases hs
    refine ⟨?_, h.jobs, ?_, h.starts⟩
    · refine List.forall₂_map_right_iff.mpr (h.table.imp ?_)
      exact fun _ _ hcleared => cleared_clearOperation hcleared operationId
    · intro row hrow
      obtain ⟨old, hold, rfl⟩ := List.mem_map.mp hrow
      exact h.partitions old hold

/-! ### Runs -/

/-- The row that an event may insert, with its job. -/
def Inserts (db : AuditDb) : AuditEvent → Option ℕ × AuditLog → Prop
  | .handle i id now, new => new.1 = some i ∧ ∃ job entry, db.jobs[i]? = some job ∧
      assertValidPayload job.data = .ok entry ∧
      storedAudit (newAuditLog entry id now) = some new.2
  | .write entry id now, new => new.1 = none ∧ storedAudit (newAuditLog entry id now) = some new.2
  | _, _ => False

structure TrailOk (input : Timestamptz.Input) (initial : List AuditLog) (db : AuditDb)
    (e : AuditEvent) (db' : AuditDb) : Prop where
  table : List.Forall₂ Cleared (initial ++ db'.written.map Prod.snd) db'.log.rows
  inserted : (∀ op, e ≠ .deleteOperation op) →
    db'.log.rows = db.log.rows ∧ db'.written = db.written ∨
      ∃ new, Inserts db e new ∧ db'.log.rows = db.log.rows ++ [new.2] ∧
        db'.written = db.written ++ [new]
  cleared : ∀ op, e = .deleteOperation op → db'.written = db.written ∧
    db'.log.rows = db.log.rows.map fun row =>
      if row.operationId = some op then { row with operationId := none } else row
  jobs : JobsOk db'.jobs db'.written
  partitions : ∀ row ∈ db'.log.rows, ∃ p ∈ db'.catalog input, p.Contains row.createdAt
  emitted : ∀ input : DomainAuditEmitInput, e = .emit input true →
    db'.jobs = db.jobs ++ [newJob input.payload] ∧
      ∀ entry, assertValidPayload (some input.payload) = .ok entry ↔ EntryOf input entry
  stored : ∀ i id now, e = .handle i id now → ∀ job entry, db.jobs[i]? = some job →
    assertValidPayload job.data = .ok entry → Insertable db (newAuditLog entry id now) →
      Covered db now → (some i, newAuditLog entry id now) ∈ db'.written
  direct : ∀ entry id now, e = .write entry id now → Insertable db (newAuditLog entry id now) →
    Covered db now → (none, newAuditLog entry id now) ∈ db'.written

/-- Nothing refuses the write of an insertable row in a month that has been maintained. -/
theorem write_stored (input : Timestamptz.Input) (hstart : ∀ m ∈ db.maintained, IsStart m.now)
    (writer : Option ℕ) {entry : WriteAuditLogInput} {id : Uuid} {now : Timestamptz}
    (hinsertable : Insertable db (newAuditLog entry id now)) (hcovered : Covered db now) :
    ∃ db', db.write input writer entry id now = .ok db' ∧
      (writer, newAuditLog entry id now) ∈ db'.written := by
  have hpartition : ∃ p ∈ db.catalog input, p.Contains now := catalog_covers hstart hcovered
  obtain ⟨log, hinsert⟩ := insertAudit_of hinsertable hpartition
  unfold AuditDb.write
  rw [hinsertable.stored]
  dsimp only
  rw [hinsert]
  exact ⟨_, rfl, List.mem_append_right _ (List.mem_singleton_self _)⟩

theorem handle_stored (h : TrailInv input initial db) {i : ℕ} {id : Uuid} {now : Timestamptz}
    (hs : auditStep input db (.handle i id now) = some db') {job : WriteJob}
    {entry : WriteAuditLogInput} (hjob : db.jobs[i]? = some job)
    (hvalid : assertValidPayload job.data = .ok entry)
    (hinsertable : Insertable db (newAuditLog entry id now)) (hcovered : Covered db now) :
    (some i, newAuditLog entry id now) ∈ db'.written := by
  obtain ⟨written, hwrite, hmem⟩ := write_stored input h.starts (some i) hinsertable hcovered
  simp only [auditStep, hjob] at hs
  split at hs
  · cases hs
  · rw [← Option.some.inj hs]
    simp only [handleWrite, hvalid, Except.bind, hwrite]
    exact hmem

theorem direct_stored (h : TrailInv input initial db) {entry : WriteAuditLogInput} {id : Uuid}
    {now : Timestamptz} (hs : auditStep input db (.write entry id now) = some db')
    (hinsertable : Insertable db (newAuditLog entry id now)) (hcovered : Covered db now) :
    (none, newAuditLog entry id now) ∈ db'.written := by
  obtain ⟨written, hwrite, hmem⟩ := write_stored input h.starts none hinsertable hcovered
  simp only [auditStep, hwrite, Option.some.injEq] at hs
  exact hs ▸ hmem

theorem write_inserts {writer : Option ℕ} {entry : WriteAuditLogInput} {id : Uuid}
    {now : Timestamptz} (hwrite : db.write input writer entry id now = .ok db') :
    ∃ row, storedAudit (newAuditLog entry id now) = some row ∧
      db'.log.rows = db.log.rows ++ [row] ∧ db'.written = db.written ++ [(writer, row)] := by
  obtain ⟨row, log, hstored, hinsert, rfl⟩ := write_ok hwrite
  exact ⟨row, hstored, (insertAudit_ok hinsert).1, rfl⟩

/-- Only a delivery and a direct write insert, and what they insert is their own row. -/
theorem step_inserts {e : AuditEvent} (hs : auditStep input db e = some db')
    (hdelete : ∀ op, e ≠ .deleteOperation op) :
    db'.log.rows = db.log.rows ∧ db'.written = db.written ∨
      ∃ new, Inserts db e new ∧ db'.log.rows = db.log.rows ++ [new.2] ∧
        db'.written = db.written ++ [new] := by
  cases e with
  | emit entry published =>
    cases hs
    unfold AuditDb.enqueue
    split <;> exact Or.inl ⟨rfl, rfl⟩
  | intercept request published =>
    cases hs
    unfold AuditDb.enqueue
    split <;> exact Or.inl ⟨rfl, rfl⟩
  | deliver i =>
    simp only [auditStep] at hs
    split at hs
    · cases hs
    · split at hs
      · cases hs
      · cases hs
        exact Or.inl ⟨rfl, rfl⟩
  | handle i id now =>
    simp only [auditStep] at hs
    split at hs
    · cases hs
    next job hjob =>
      split at hs
      · cases hs
      · cases hs
        rcases handleWrite_cases input db i job id now with
          hrefused | ⟨entry, db', hvalid, hwrite, hwritten⟩
        · rw [hrefused]
          exact Or.inl ⟨rfl, rfl⟩
        · obtain ⟨row, hstored, hrows, htrail⟩ := write_inserts hwrite
          rw [hwritten]
          exact Or.inr ⟨(some i, row), ⟨rfl, job, entry, hjob, hvalid, hstored⟩, hrows, htrail⟩
  | write entry id now =>
    simp only [auditStep, Option.some.injEq] at hs
    split at hs
    · exact Or.inl ⟨hs ▸ rfl, hs ▸ rfl⟩
    next written hwrite =>
      obtain ⟨row, hstored, hrows, htrail⟩ := write_inserts hwrite
      rw [← hs]
      exact Or.inr ⟨(none, row), ⟨rfl, hstored⟩, hrows, htrail⟩
  | complete i =>
    simp only [auditStep] at hs
    split at hs
    · cases hs
    · split at hs
      · cases hs
        exact Or.inl ⟨rfl, rfl⟩
      · cases hs
  | maintain m =>
    cases hs
    exact Or.inl ⟨rfl, rfl⟩
  | createOperation operationId =>
    cases hs
    exact Or.inl ⟨rfl, rfl⟩
  | deleteOperation operationId => exact absurd rfl (hdelete operationId)

theorem clearOperation_eq (operationId : Uuid) (row : AuditLog) :
    clearOperation operationId row =
      if row.operationId = some operationId then { row with operationId := none } else row := by
  unfold clearOperation
  cases hop : row.operationId with
  | none =>
    rw [if_neg nofun, Option.filter_none, ← hop]
  | some op =>
    by_cases hsame : op = operationId
    · rw [Option.filter_some, if_neg (by simpa using hsame), if_pos (congrArg some hsame)]
    · rw [Option.filter_some, if_pos (decide_eq_true hsame),
        if_neg fun h => hsame (Option.some.inj h), ← hop]

/-- The trail over every run: the table is the initial rows and then those of deliveries and direct
writes, each as its job or its caller says, and only a deleted operation is taken out of a row. -/
theorem audit_trail (input : Timestamptz.Input) (db : AuditDb) (events : List AuditEvent)
    (hjobs : db.jobs = []) (hwritten : db.written = [])
    (hpartitions : ∀ row ∈ db.log.rows, ∃ p ∈ db.catalog input, p.Contains row.createdAt)
    (hstart : ∀ m ∈ db.maintained, IsStart m.now)
    (hclock : ∀ m, .maintain m ∈ events → IsStart m.now)
    (hrun : Run.Enabled (auditStep input) db events) :
    Run.All (auditStep input) (TrailOk input db.log.rows) db events := by
  have hinv : TrailInv input db.log.rows db := by
    refine ⟨?_, ?_, hpartitions, hstart⟩
    · rw [hwritten, List.map_nil, List.append_nil]
      exact List.forall₂_same.mpr fun _ _ => Or.inl rfl
    · rw [hjobs, hwritten]
      exact jobsOk_nil
  have hclocks : ∀ e ∈ events, ∀ m, e = .maintain m → IsStart m.now := by
    intro e he m hm
    exact hclock m (hm ▸ he)
  refine Run.all_of_invariant (TrailInv input db.log.rows) ?_ hinv (Run.all_labels hclocks hrun)
  intro s e s' h hs hm
  have h' := trailInv_step h hm.2 hs
  refine ⟨h', h'.table, step_inserts hs, ?_, h'.jobs, h'.partitions, ?_, ?_, ?_⟩
  · intro op he
    subst he
    cases hs
    exact ⟨rfl, List.map_congr_left fun row _ => clearOperation_eq op row⟩
  · intro event he
    subst he
    cases hs
    exact ⟨rfl, emit_taken event⟩
  · intro i id now he job entry hjob hvalid hinsertable hcovered
    subst he
    exact handle_stored h hs hjob hvalid hinsertable hcovered
  · intro entry id now he hinsertable hcovered
    subst he
    exact direct_stored h hs hinsertable hcovered

end Trail

/-- One tenant, and the partitions of the winter. -/
def winterDb : AuditDb where
  log := ⟨[], List.Pairwise.nil⟩
  tenants := [Uuid.nil]
  operations := []
  maintained := winterJobs

/-- An event that is delivered twice at once: the second delivery inserts its row after the first
has completed the job. -/
def deliveredTwice : List AuditEvent :=
  [.emit ⟨Uuid.nil.1, .create, "tenant", Uuid.nil.1, none⟩ true, .deliver 0, .deliver 0,
    .handle 0 Uuid.nil (Timestamptz.ofMs 1704067200000), .complete 0,
    .handle 0 Uuid.max (Timestamptz.ofMs 1704067200001)]

theorem audit_trail_twice :
    Run.All (auditStep Timestamptz.isoInput) (TrailOk Timestamptz.isoInput []) winterDb
      deliveredTwice ∧
    (Run.final (auditStep Timestamptz.isoInput) winterDb deliveredTwice).map
      (fun db => db.log.rows.length) = some 2 :=
  ⟨audit_trail Timestamptz.isoInput winterDb deliveredTwice rfl rfl (List.forall_mem_nil _)
    (by decide +kernel) (by simp [deliveredTwice]) (Run.enabled_of_final (by decide +kernel)),
    by decide +kernel⟩

end VcCommonService.Audit
