import VcCommonService.Lib.Run
import VcCommonService.Lib.SingleFlight

/-!
# Queues and workers at startup (`jobs.service.ts`)

The modules of an instance attach their workers and schedules at the same time, each after it has
waited for the queues, which one pass creates for all of them; a pass that fails is forgotten and
the next caller starts another. Other instances create the same queues meanwhile.
-/

namespace VcCommonService.Jobs

open Lib SingleFlight

/-! ### Queues -/

structure QueueDefinition where
  name : String
  deadLetter : String
  retryLimit : ℕ
  retryDelay : ℕ
  retryBackoff : Bool
  deriving DecidableEq

def queueDefinitions : List QueueDefinition :=
  [⟨"credential.state-update", "credential.state-update.dlq", 5, 30, true⟩,
    ⟨"credential.bulk-item", "credential.bulk-item.dlq", 5, 30, true⟩,
    ⟨"webhook.dispatch", "webhook.dispatch.dlq", 5, 60, true⟩,
    ⟨"email.send", "email.send.dlq", 3, 60, true⟩,
    ⟨"audit.write", "audit.write.dlq", 5, 15, true⟩,
    ⟨"audit.partition-maintain", "audit.partition-maintain.dlq", 3, 60, true⟩,
    ⟨"tenant.status-change", "tenant.status-change.dlq", 5, 30, true⟩,
    ⟨"tenant.config-change", "tenant.config-change.dlq", 5, 30, true⟩,
    ⟨"rate-limit.prune", "rate-limit.prune.dlq", 3, 60, true⟩]

/-- A call of `createQueue` with its options. -/
structure Queue where
  name : String
  options : Option QueueDefinition
  deriving DecidableEq

def createQueuesOnce : List Queue :=
  queueDefinitions.flatMap fun definition =>
    [⟨definition.deadLetter, none⟩, ⟨definition.name, some definition⟩]

/-- What `bossService.boss` does with the queues of its database. -/
structure PgBoss (δ : Type*) where
  hasQueue : δ → String → Prop
  createQueue : δ → Queue → Option δ

/-- A queue that is there stays, and a dead-letter queue has to be there before its queue. -/
structure PgBoss.Documented {δ : Type*} (boss : PgBoss δ) : Prop where
  created : ∀ {db db' q}, boss.createQueue db q = some db' → boss.hasQueue db' q.name
  kept : ∀ {db db' q}, boss.createQueue db q = some db' →
    ∀ name, boss.hasQueue db name → boss.hasQueue db' name
  accepted : ∀ {db q}, (∀ definition, q.options = some definition →
    boss.hasQueue db definition.deadLetter) → (boss.createQueue db q).isSome = true

/-! ### `JobsService` -/

/-- What waits for the queues: `onModuleInit`, `registerWorker`, `schedule`. -/
inductive Purpose where
  | moduleInit
  | worker (queueName : String) (enabled : Bool)
  | schedule (queueName cron : String)
  deriving DecidableEq

inductive Stage where
  | waiting (flight : ℕ)
  | ready
  | finished (outcome : Except String Unit)

/-- A worker that is not enabled attaches to nothing. -/
def Purpose.needsQueues : Purpose → Bool
  | .worker _ enabled => enabled
  | _ => true

structure Call where
  purpose : Purpose
  stage : Stage

abbrev Promise : Type := Flight (List Queue) (Except String Unit)

structure JobsService (δ : Type*) where
  database : δ
  queuesReady : Bool
  ensureQueuesPromise : Cell (List Queue) (Except String Unit)
  calls : List Call

inductive Event where
  | call (purpose : Purpose)
  | created (flight : ℕ)
  | failed (flight : ℕ) (error : String)
  | settle (flight : ℕ)
  | resume (call : ℕ)
  | attach (call : ℕ) (outcome : Except String Unit)
  | otherInstance (q : Queue)

def isError : Except String Unit → Bool
  | .error _ => true
  | .ok _ => false

variable {δ : Type*}

def ensureQueues (s : JobsService δ) (purpose : Purpose) : JobsService δ :=
  if s.queuesReady then { s with calls := s.calls ++ [⟨purpose, .ready⟩] }
  else
    let joined := s.ensureQueuesPromise.join (.running createQueuesOnce)
    { s with ensureQueuesPromise := joined.1, calls := s.calls ++ [⟨purpose, .waiting joined.2⟩] }

/-- A call up to its first `await`. -/
def call (s : JobsService δ) (purpose : Purpose) : JobsService δ :=
  match purpose with
  | .worker _ false => { s with calls := s.calls ++ [⟨purpose, .finished (.ok ())⟩] }
  | _ => ensureQueues s purpose

def JobsService.setFlight (s : JobsService δ) (f : ℕ) (flight : Promise) : JobsService δ :=
  { s with ensureQueuesPromise := s.ensureQueuesPromise.set f flight }

def JobsService.setCall (s : JobsService δ) (i : ℕ) (c : Call) : JobsService δ :=
  { s with calls := s.calls.set i c }

/-- The pass goes on after a queue; after the last one the queues are ready. -/
def afterQueue (s : JobsService δ) (f : ℕ) : List Queue → JobsService δ
  | [] => { s.setFlight f (.returned (.ok ())) with queuesReady := true }
  | rest => s.setFlight f (.running rest)

def afterPromise : Except String Unit → Stage
  | .ok _ => .ready
  | .error e => .finished (.error e)

def step (boss : PgBoss δ) (s : JobsService δ) : Event → Option (JobsService δ)
  | .call purpose => some (call s purpose)
  | .created f =>
    match s.ensureQueuesPromise.flights[f]? with
    | some (.running (q :: rest)) =>
      (boss.createQueue s.database q).map fun database => afterQueue { s with database } f rest
    | _ => none
  | .failed f error =>
    match s.ensureQueuesPromise.flights[f]? with
    | some (.running _) => some (s.setFlight f (.returned (.error error)))
    | _ => none
  | .settle f =>
    (s.ensureQueuesPromise.settle isError f).map fun cell => { s with ensureQueuesPromise := cell }
  | .resume i =>
    match s.calls[i]? with
    | some ⟨purpose, .waiting f⟩ =>
      match s.ensureQueuesPromise.flights[f]? with
      | some (.settled outcome) => some (s.setCall i ⟨purpose, afterPromise outcome⟩)
      | _ => none
    | _ => none
  | .attach i outcome =>
    match s.calls[i]? with
    | some ⟨purpose, .ready⟩ => some (s.setCall i ⟨purpose, .finished outcome⟩)
    | _ => none
  | .otherInstance q => (boss.createQueue s.database q).map fun database => { s with database }

/-- An instance that starts on a database. -/
def start (database : δ) : JobsService δ := ⟨database, false, Cell.empty, []⟩

/-! ### The invariant -/

def AllQueues (boss : PgBoss δ) (db : δ) : Prop :=
  ∀ q ∈ createQueuesOnce, boss.hasQueue db q.name

def PromiseOk (boss : PgBoss δ) (s : JobsService δ) : Promise → Prop
  | .running rest => rest ≠ [] ∧ ∃ done, createQueuesOnce = done ++ rest ∧
      ∀ q ∈ done, boss.hasQueue s.database q.name
  | .returned outcome => isError outcome = false → s.queuesReady = true
  | .settled outcome => isError outcome = false → s.queuesReady = true

def StageOk (boss : PgBoss δ) (s : JobsService δ) : Stage → Prop
  | .waiting f => f < s.ensureQueuesPromise.flights.length
  | .ready => AllQueues boss s.database
  | .finished _ => True

structure Inv (boss : PgBoss δ) (s : JobsService δ) : Prop where
  cell : s.ensureQueuesPromise.Wf isError
  promises : ∀ (f : ℕ) (x : Promise), s.ensureQueuesPromise.flights[f]? = some x →
    PromiseOk boss s x
  ready : s.queuesReady = true → AllQueues boss s.database
  calls : ∀ c ∈ s.calls, StageOk boss s c.stage

variable {boss : PgBoss δ} {s s' : JobsService δ}

theorem inv_start (db : δ) : Inv boss (start db) :=
  ⟨Cell.wf_empty, nofun, nofun, nofun⟩

/-- The dead-letter queue of a queue comes before it. -/
theorem deadLetter_before (definitions : List QueueDefinition) {done rest : List Queue} {q : Queue}
    {definition : QueueDefinition}
    (h : (definitions.flatMap fun d => [(⟨d.deadLetter, none⟩ : Queue), ⟨d.name, some d⟩]) =
      done ++ q :: rest) (hq : q.options = some definition) :
    ∃ letter ∈ done, letter.name = definition.deadLetter := by
  induction definitions generalizing done with
  | nil => simp at h
  | cons d definitions ih =>
    rw [List.flatMap_cons] at h
    match done with
    | [] =>
      cases h
      cases hq
    | [x] =>
      simp only [List.cons_append, List.nil_append, List.cons.injEq] at h
      obtain ⟨rfl, rfl, -⟩ := h
      cases hq
      exact ⟨_, List.mem_singleton_self _, rfl⟩
    | x :: y :: done =>
      simp only [List.cons_append, List.nil_append, List.cons.injEq] at h
      obtain ⟨letter, hletter, hname⟩ := ih h.2.2
      exact ⟨letter, List.mem_cons_of_mem _ (List.mem_cons_of_mem _ hletter), hname⟩

theorem Inv.deadLetter_next (h : Inv boss s) {f : ℕ} {q : Queue} {rest : List Queue}
    (hf : s.ensureQueuesPromise.flights[f]? = some (.running (q :: rest)))
    (definition : QueueDefinition) (hq : q.options = some definition) :
    boss.hasQueue s.database definition.deadLetter := by
  obtain ⟨-, done, hpass, hdone⟩ := h.promises f _ hf
  obtain ⟨letter, hletter, hname⟩ := deadLetter_before queueDefinitions hpass hq
  rw [← hname]
  exact hdone letter hletter

/-! ### Steps -/

theorem Inv.grow (h : Inv boss s) {db : δ}
    (hgrow : ∀ name, boss.hasQueue s.database name → boss.hasQueue db name) :
    Inv boss { s with database := db } := by
  refine ⟨h.cell, ?_, fun hready q hq => hgrow _ (h.ready hready q hq), ?_⟩
  · intro f x hf
    have hx := h.promises f x hf
    cases x with
    | running rest =>
      obtain ⟨hne, done, hpass, hdone⟩ := hx
      exact ⟨hne, done, hpass, fun q hq => hgrow _ (hdone q hq)⟩
    | returned outcome => exact hx
    | settled outcome => exact hx
  · intro c hc
    have hstage := h.calls c hc
    cases hs : c.stage with
    | waiting f =>
      rw [hs] at hstage
      exact hstage
    | ready =>
      rw [hs] at hstage
      exact fun q hq => hgrow _ (hstage q hq)
    | finished outcome => trivial

theorem Inv.setFlight (h : Inv boss s) {f : ℕ} {old x : Promise}
    (hf : s.ensureQueuesPromise.flights[f]? = some old) (hold : old.Open) (hopen : x.Open)
    (hx : PromiseOk boss s x) : Inv boss (s.setFlight f x) := by
  refine ⟨h.cell.set hf hold hopen, ?_, h.ready, ?_⟩
  · intro g y hg
    rcases Cell.getElem?_set hf hg with ⟨-, rfl⟩ | ⟨-, hg⟩
    · exact hx
    · exact h.promises g y hg
  · intro c hc
    have hstage := h.calls c hc
    cases hs : c.stage with
    | waiting g =>
      rw [hs] at hstage
      exact Nat.lt_of_lt_of_eq hstage (List.length_set ..).symm
    | ready =>
      rw [hs] at hstage
      exact hstage
    | finished outcome => trivial

theorem Inv.setCall (h : Inv boss s) {i : ℕ} {c : Call} (hc : StageOk boss s c.stage) :
    Inv boss (s.setCall i c) := by
  refine ⟨h.cell, h.promises, h.ready, ?_⟩
  intro c' hc'
  rcases List.mem_or_eq_of_mem_set hc' with hmem | rfl
  · exact h.calls c' hmem
  · exact hc

theorem Inv.addCall (h : Inv boss s) {c : Call} (hc : StageOk boss s c.stage) :
    Inv boss { s with calls := s.calls ++ [c] } := by
  refine ⟨h.cell, h.promises, h.ready, ?_⟩
  intro c' hc'
  rcases List.mem_append.mp hc' with hmem | hnew
  · exact h.calls c' hmem
  · rw [List.mem_singleton.mp hnew]
    exact hc

theorem Inv.queuesReady (h : Inv boss s) (hall : AllQueues boss s.database) :
    Inv boss { s with queuesReady := true } := by
  refine ⟨h.cell, ?_, fun _ => hall, h.calls⟩
  intro f x hf
  have hx := h.promises f x hf
  cases x with
  | running rest => exact hx
  | returned outcome => exact fun _ => rfl
  | settled outcome => exact fun _ => rfl

theorem promiseOk_start : PromiseOk boss s (.running createQueuesOnce) :=
  ⟨nofun, [], rfl, nofun⟩

theorem Inv.join (h : Inv boss s) :
    Inv boss { s with
      ensureQueuesPromise := (s.ensureQueuesPromise.join (.running createQueuesOnce)).1 } := by
  refine ⟨h.cell.join trivial, ?_, h.ready, ?_⟩
  · intro f x hf
    rcases Cell.join_cases hf with hf | rfl
    · exact h.promises f x hf
    · exact promiseOk_start
  · intro c hc
    have hstage := h.calls c hc
    cases hs : c.stage with
    | waiting g =>
      rw [hs] at hstage
      have hx := List.getElem?_eq_getElem hstage
      exact (List.getElem?_eq_some_iff.mp (Cell.join_getElem? hx)).1
    | ready =>
      rw [hs] at hstage
      exact hstage
    | finished outcome => trivial

theorem Inv.call (h : Inv boss s) (purpose : Purpose) : Inv boss (call s purpose) := by
  have hensure : Inv boss (ensureQueues s purpose) := by
    unfold ensureQueues
    split
    next hready => exact h.addCall (h.ready hready)
    · exact h.join.addCall (Cell.join_lt h.cell)
  unfold Jobs.call
  split
  · exact h.addCall trivial
  · exact hensure

theorem Inv.afterQueue (h : Inv boss s) {f : ℕ} {q : Queue} {rest : List Queue}
    (hf : s.ensureQueuesPromise.flights[f]? = some (.running (q :: rest)))
    (hq : boss.hasQueue s.database q.name) : Inv boss (afterQueue s f rest) := by
  obtain ⟨-, done, hpass, hdone⟩ := h.promises f _ hf
  have hpass' : createQueuesOnce = (done ++ [q]) ++ rest := by
    rw [hpass, List.append_assoc, List.singleton_append]
  have hdone' : ∀ p ∈ done ++ [q], boss.hasQueue s.database p.name := by
    intro p hp
    rcases List.mem_append.mp hp with hp | hp
    · exact hdone p hp
    · rw [List.mem_singleton.mp hp]
      exact hq
  cases rest with
  | nil =>
    have hall : AllQueues boss s.database := by
      intro p hp
      rw [hpass', List.append_nil] at hp
      exact hdone' p hp
    exact (h.queuesReady hall).setFlight hf trivial trivial fun _ => rfl
  | cons next rest => exact h.setFlight hf trivial trivial ⟨nofun, done ++ [q], hpass', hdone'⟩

theorem Inv.settle (h : Inv boss s) {f : ℕ} {cell : Cell (List Queue) (Except String Unit)}
    (hs : s.ensureQueuesPromise.settle isError f = some cell) :
    Inv boss { s with ensureQueuesPromise := cell } := by
  obtain ⟨outcome, hf, hcell⟩ := Cell.settle_cases hs
  refine ⟨h.cell.settle hs, ?_, h.ready, ?_⟩
  · intro g x hg
    rw [hcell] at hg
    rcases Cell.getElem?_set hf hg with ⟨-, rfl⟩ | ⟨-, hg⟩
    · exact h.promises f _ hf
    · exact h.promises g x hg
  · intro c hc
    have hstage := h.calls c hc
    cases hs : c.stage with
    | waiting g =>
      rw [hs] at hstage
      rw [hcell]
      exact Nat.lt_of_lt_of_eq hstage (List.length_set ..).symm
    | ready =>
      rw [hs] at hstage
      exact hstage
    | finished outcome => trivial

theorem Inv.step (hboss : boss.Documented) (h : Inv boss s) {e : Event}
    (hs : step boss s e = some s') : Inv boss s' := by
  cases e with
  | call purpose =>
    cases hs
    exact h.call purpose
  | created f =>
    simp only [Jobs.step] at hs
    split at hs
    next q rest hf =>
      obtain ⟨db, hdb, rfl⟩ := Option.map_eq_some_iff.mp hs
      exact (h.grow (hboss.kept hdb)).afterQueue hf (hboss.created hdb)
    · cases hs
  | failed f error =>
    simp only [Jobs.step] at hs
    split at hs
    next rest hf =>
      cases hs
      exact h.setFlight hf trivial trivial nofun
    · cases hs
  | settle f =>
    obtain ⟨cell, hcell, rfl⟩ := Option.map_eq_some_iff.mp hs
    exact h.settle hcell
  | resume i =>
    simp only [Jobs.step] at hs
    split at hs
    next purpose f hi =>
      split at hs
      next outcome hf =>
        cases hs
        refine h.setCall ?_
        cases outcome with
        | ok _ => exact h.ready (h.promises f _ hf rfl)
        | error e => trivial
      · cases hs
    · cases hs
  | attach i outcome =>
    simp only [Jobs.step] at hs
    split at hs
    · cases hs
      exact h.setCall trivial
    · cases hs
  | otherInstance q =>
    obtain ⟨db, hdb, rfl⟩ := Option.map_eq_some_iff.mp hs
    exact h.grow (hboss.kept hdb)

/-! ### What a run keeps -/

/-- What a call that needs the queues finds: they are ready, a pass is open and the call waits for
it, or there is none, also because one failed, and the call waits for the pass that it starts. -/
structure Ensured (s s' : JobsService δ) (purpose : Purpose) : Prop where
  ready : s.queuesReady = true → s'.calls = s.calls ++ [⟨purpose, .ready⟩] ∧
    s'.ensureQueuesPromise.flights = s.ensureQueuesPromise.flights
  joined : s.queuesReady = false → ∀ f x, s.ensureQueuesPromise.flights[f]? = some x → x.Open →
    s'.calls = s.calls ++ [⟨purpose, .waiting f⟩] ∧
      s'.ensureQueuesPromise.flights = s.ensureQueuesPromise.flights
  started : s.queuesReady = false → (∀ x ∈ s.ensureQueuesPromise.flights, ¬ x.Open) →
    s'.calls = s.calls ++ [⟨purpose, .waiting s.ensureQueuesPromise.flights.length⟩] ∧
      s'.ensureQueuesPromise.flights =
        s.ensureQueuesPromise.flights ++ [.running createQueuesOnce]

/-- A step of `JobsService`, with the workers and schedules it attaches. -/
structure StepOk (boss : PgBoss δ) (s : JobsService δ) (e : Event) (s' : JobsService δ) : Prop where
  attached : ∀ i outcome, e = .attach i outcome → ∀ definition ∈ queueDefinitions,
    boss.hasQueue s.database definition.deadLetter ∧ boss.hasQueue s.database definition.name
  deadLetter : ∀ (f : ℕ) (q : Queue) (rest : List Queue),
    s.ensureQueuesPromise.flights[f]? = some (.running (q :: rest)) →
    ∀ definition, q.options = some definition → boss.hasQueue s.database definition.deadLetter
  onePass : ∀ (f g : ℕ) (x y : Promise), s.ensureQueuesPromise.flights[f]? = some x →
    s.ensureQueuesPromise.flights[g]? = some y → x.Open → y.Open → f = g
  ensured : ∀ purpose, e = .call purpose → purpose.needsQueues = true → Ensured s s' purpose

theorem allQueues_definitions {db : δ} (h : AllQueues boss db) {definition : QueueDefinition}
    (hmem : definition ∈ queueDefinitions) :
    boss.hasQueue db definition.deadLetter ∧ boss.hasQueue db definition.name := by
  have hpair : ∀ q ∈ [(⟨definition.deadLetter, none⟩ : Queue), ⟨definition.name, some definition⟩],
      boss.hasQueue db q.name :=
    fun q hq => h q (List.mem_flatMap.mpr ⟨definition, hmem, hq⟩)
  exact ⟨hpair ⟨_, none⟩ (by simp), hpair ⟨_, some definition⟩ (by simp)⟩

/-- A pass that ended well left the queues ready. -/
theorem Inv.settled_failed (h : Inv boss s) (hready : s.queuesReady = false) {f : ℕ}
    {outcome : Except String Unit}
    (hf : s.ensureQueuesPromise.flights[f]? = some (.settled outcome)) :
    isError outcome = true := by
  by_contra hok
  have hready' := h.promises f _ hf (Bool.eq_false_iff.mpr hok)
  rw [hready] at hready'
  cases hready'

theorem Inv.ensured (h : Inv boss s) {purpose : Purpose} (hneeds : purpose.needsQueues = true) :
    Ensured s (Jobs.call s purpose) purpose := by
  have hcall : Jobs.call s purpose = ensureQueues s purpose := by
    unfold Jobs.call
    split
    · cases hneeds
    · rfl
  rw [hcall]
  refine ⟨fun hready => ?_, fun hready f x hf hopen => ?_, fun hready hclosed => ?_⟩
  · rw [ensureQueues, if_pos hready]
    exact ⟨rfl, rfl⟩
  · rw [ensureQueues, if_neg (Bool.eq_false_iff.mp hready), h.cell.join_open hf hopen]
    exact ⟨rfl, rfl⟩
  · have hcurrent := h.cell.current_eq_none hclosed fun _ _ hf => h.settled_failed hready hf
    rw [ensureQueues, if_neg (Bool.eq_false_iff.mp hready)]
    simp only [Cell.join, hcurrent]
    exact ⟨trivial, trivial⟩

theorem Inv.stepOk (h : Inv boss s) {e : Event}
    (hs : Jobs.step boss s e = some s') : StepOk boss s e s' := by
  refine ⟨?_, fun f q rest hf => h.deadLetter_next hf,
    fun f g x y hf hg hx hy => h.cell.open_unique hf hg hx hy, ?_⟩
  · intro i outcome he definition hmem
    subst he
    simp only [Jobs.step] at hs
    split at hs
    next purpose hi => exact allQueues_definitions (h.calls _ (List.mem_of_getElem? hi)) hmem
    · cases hs
  · intro purpose he hneeds
    subst he
    cases hs
    exact h.ensured hneeds

/-- Workers and schedules are attached to queues that are there, a queue is created after its
dead-letter queue, there is one pass at a time, and after a failed pass the next call starts
another. -/
theorem attached_to_queues (hboss : boss.Documented) (db : δ) (es : List Event)
    (hrun : Run.Enabled (step boss) (start db) es) :
    Run.All (step boss) (StepOk boss) (start db) es :=
  Run.all_of_invariant (Inv boss)
    (fun _ _ _ h hs _ => ⟨h.step hboss hs, h.stepOk hs⟩) (inv_start db) hrun

/-! ### Every call ends -/

def remaining : Promise → ℕ
  | .running rest => rest.length + 2
  | .returned _ => 1
  | .settled _ => 0

def pending (c : Call) : ℕ :=
  match c.stage with
  | .waiting _ => 2
  | .ready => 1
  | .finished _ => 0

def variant (s : JobsService δ) : ℕ :=
  (s.ensureQueuesPromise.flights.map remaining).sum + (s.calls.map pending).sum

def isCall : Event → Bool
  | .call _ => true
  | _ => false

/-- The steps that the instance takes by itself. -/
def isOwn : Event → Bool
  | .call _ | .otherInstance _ => false
  | _ => true

theorem variant_setFlight {f : ℕ} {old x : Promise}
    (hf : s.ensureQueuesPromise.flights[f]? = some old) :
    variant (s.setFlight f x) + remaining old = variant s + remaining x := by
  have hsum := Run.sum_map_set remaining x hf
  simp only [variant, JobsService.setFlight, Cell.set] at hsum ⊢
  omega

theorem variant_setCall {i : ℕ} {old c : Call} (hi : s.calls[i]? = some old) :
    variant (s.setCall i c) + pending old = variant s + pending c := by
  have hsum := Run.sum_map_set pending c hi
  simp only [variant, JobsService.setCall] at hsum ⊢
  omega

theorem variant_afterQueue {f : ℕ} {q : Queue} {rest : List Queue}
    (hf : s.ensureQueuesPromise.flights[f]? = some (.running (q :: rest))) :
    variant (afterQueue s f rest) + 1 ≤ variant s := by
  cases rest with
  | nil =>
    have hset := variant_setFlight (x := .returned (.ok ())) hf
    simp only [remaining, List.length_cons, List.length_nil] at hset
    change variant (s.setFlight f (.returned (.ok ()))) + 1 ≤ variant s
    omega
  | cons next rest =>
    have hset := variant_setFlight (x := .running (next :: rest)) hf
    simp only [remaining, List.length_cons] at hset
    change variant (s.setFlight f (.running (next :: rest))) + 1 ≤ variant s
    omega

theorem variant_settle {f : ℕ} {cell : Cell (List Queue) (Except String Unit)}
    (hs : s.ensureQueuesPromise.settle isError f = some cell) :
    variant { s with ensureQueuesPromise := cell } + 1 ≤ variant s := by
  obtain ⟨outcome, hf, rfl⟩ := Cell.settle_cases hs
  have hset := variant_setFlight (x := .settled outcome) hf
  change variant (s.setFlight f (.settled outcome)) + 1 ≤ variant s
  simp only [remaining] at hset
  omega

theorem variant_call (s : JobsService δ) (purpose : Purpose) :
    variant (call s purpose) ≤ variant s + (createQueuesOnce.length + 4) := by
  have hadd : ∀ (s : JobsService δ) (c : Call), pending c ≤ 2 →
      variant { s with calls := s.calls ++ [c] } ≤ variant s + 2 := by
    intro s c hc
    simp only [variant, List.map_append, List.sum_append, List.map_singleton, List.sum_singleton]
    omega
  have hjoin : variant { s with
        ensureQueuesPromise := (s.ensureQueuesPromise.join (.running createQueuesOnce)).1 } ≤
      variant s + (createQueuesOnce.length + 2) := by
    unfold Cell.join
    split
    · exact Nat.le_add_right _ _
    · simp only [variant, List.map_append, List.sum_append, List.map_singleton,
        List.sum_singleton, remaining]
      omega
  have hensure : variant (ensureQueues s purpose) ≤ variant s + (createQueuesOnce.length + 4) := by
    unfold ensureQueues
    split
    · have hready := hadd s ⟨purpose, .ready⟩ (Nat.le_succ 1)
      omega
    · have hwait := hadd { s with
          ensureQueuesPromise := (s.ensureQueuesPromise.join (.running createQueuesOnce)).1 }
        ⟨purpose, .waiting (s.ensureQueuesPromise.join (.running createQueuesOnce)).2⟩
        (Nat.le_refl 2)
      dsimp only at hwait ⊢
      omega
  unfold call
  split
  next queueName =>
    have hskip := hadd s ⟨.worker queueName false, .finished (.ok ())⟩ (Nat.zero_le 2)
    omega
  · exact hensure

theorem variant_step {e : Event} (hs : step boss s e = some s') :
    variant s' + (if isOwn e then 1 else 0) ≤
      variant s + if isCall e then createQueuesOnce.length + 4 else 0 := by
  cases e with
  | call purpose =>
    cases hs
    exact variant_call s purpose
  | created f =>
    simp only [step] at hs
    split at hs
    next q rest hf =>
      obtain ⟨db, -, rfl⟩ := Option.map_eq_some_iff.mp hs
      exact variant_afterQueue (s := { s with database := db }) hf
    · cases hs
  | failed f error =>
    simp only [step] at hs
    split at hs
    next rest hf =>
      cases hs
      have hset := variant_setFlight (x := .returned (.error error)) hf
      simp only [remaining] at hset
      change variant (s.setFlight f _) + 1 ≤ variant s
      omega
    · cases hs
  | settle f =>
    obtain ⟨cell, hcell, rfl⟩ := Option.map_eq_some_iff.mp hs
    exact variant_settle hcell
  | resume i =>
    simp only [step] at hs
    split at hs
    next purpose f hi =>
      split at hs
      next outcome hf =>
        cases hs
        have hset := variant_setCall (c := ⟨purpose, afterPromise outcome⟩) hi
        have hafter : pending ⟨purpose, afterPromise outcome⟩ ≤ 1 := by
          cases outcome with
          | ok _ => exact Nat.le_refl 1
          | error e => exact Nat.zero_le 1
        simp only [pending] at hset hafter
        change variant (s.setCall i _) + 1 ≤ variant s
        omega
      · cases hs
    · cases hs
  | attach i outcome =>
    simp only [step] at hs
    split at hs
    next purpose hi =>
      cases hs
      have hset := variant_setCall (c := ⟨purpose, .finished outcome⟩) hi
      simp only [pending] at hset
      change variant (s.setCall i _) + 1 ≤ variant s
      omega
    · cases hs
  | otherInstance q =>
    obtain ⟨db, -, rfl⟩ := Option.map_eq_some_iff.mp hs
    exact Nat.le_refl _

/-- An instance that can do nothing more has ended all calls. -/
theorem Inv.finished (hboss : boss.Documented) (h : Inv boss s)
    (hstuck : ∀ e, isOwn e = true → Jobs.step boss s e = none) {c : Call} (hc : c ∈ s.calls) :
    ∃ outcome, c.stage = .finished outcome := by
  obtain ⟨i, hi⟩ := List.mem_iff_getElem?.mp hc
  obtain ⟨purpose, stage⟩ := c
  cases stage with
  | finished outcome => exact ⟨outcome, rfl⟩
  | ready =>
    have hattach := hstuck (.attach i (.ok ())) rfl
    simp only [Jobs.step, hi] at hattach
    cases hattach
  | waiting f =>
    obtain ⟨x, hf⟩ : ∃ x, s.ensureQueuesPromise.flights[f]? = some x :=
      ⟨_, List.getElem?_eq_getElem (h.calls _ hc)⟩
    cases x with
    | running rest =>
      match rest, hf with
      | [], hf => exact absurd rfl (h.promises f _ hf).1
      | q :: rest, hf =>
        obtain ⟨db, hdb⟩ := Option.isSome_iff_exists.mp (hboss.accepted (h.deadLetter_next hf))
        have hcreated := hstuck (.created f) rfl
        simp only [Jobs.step, hf, hdb, Option.map_some] at hcreated
        cases hcreated
    | returned outcome =>
      have hsettle := hstuck (.settle f) rfl
      simp only [Jobs.step, Cell.settle, hf, Option.map_some] at hsettle
      cases hsettle
    | settled outcome =>
      have hresume := hstuck (.resume i) rfl
      simp only [Jobs.step, hi, hf] at hresume
      cases hresume

theorem calls_end (hboss : boss.Documented) (db : δ) (es : List Event)
    (hrun : Run.final (step boss) (start db) es = some s) :
    es.countP isOwn ≤ (createQueuesOnce.length + 4) * es.countP isCall ∧
      ((∀ e, isOwn e = true → step boss s e = none) →
        ∀ c ∈ s.calls, ∃ outcome, c.stage = .finished outcome) := by
  have henabled : Run.Enabled (step boss) (start db) es :=
    Run.enabled_of_final (by rw [hrun]; rfl)
  constructor
  · have hcount := Run.countP_le_of_credit variant isOwn isCall (createQueuesOnce.length + 4)
      (fun _ _ _ hs => variant_step hs) henabled
    simpa only [start, variant, Cell.empty, List.map_nil, List.sum_nil, Nat.zero_add] using hcount
  · intro hstuck c hc
    have hinv := Run.final_of_invariant (Inv boss) (fun _ _ _ h hs _ => h.step hboss hs)
      (inv_start db) henabled hrun
    exact hinv.finished hboss hstuck hc

/-! ### Two modules that start together -/

/-- The table of queues, whose dead-letter column refers to it. -/
def queueTable : PgBoss (List Queue) where
  hasQueue queues name := ∃ q ∈ queues, q.name = name
  createQueue queues q :=
    if queues.any (fun p => p.name == q.name) then some queues
    else if q.options.all (fun definition => queues.any (fun p => p.name == definition.deadLetter))
    then some (queues ++ [q])
    else none

theorem queueTable_documented : queueTable.Documented := by
  refine ⟨?_, ?_, ?_⟩
  · intro db db' q h
    simp only [queueTable] at h ⊢
    split at h
    next hany =>
      cases h
      simpa using hany
    split at h
    · cases h
      exact ⟨q, by simp, rfl⟩
    · cases h
  · intro db db' q h name hname
    simp only [queueTable] at h ⊢
    split at h
    · cases h
      exact hname
    split at h
    · cases h
      obtain ⟨p, hp, hpname⟩ := hname
      exact ⟨p, List.mem_append_left _ hp, hpname⟩
    · cases h
  · intro db q h
    simp only [queueTable] at h ⊢
    split
    · rfl
    have hall : (q.options.all fun definition =>
        db.any (fun p => p.name == definition.deadLetter)) = true := by
      cases hq : q.options with
      | none => rfl
      | some definition => simpa using h definition hq
    rw [if_pos hall]
    rfl

/-- Two calls join one pass; it fails, and the second pass creates the queues. -/
def twoStarts : List Event :=
  [.call .moduleInit, .call (.worker "audit.write" true), .created 0, .failed 0 "timeout",
    .settle 0, .resume 0, .resume 1, .call (.schedule "rate-limit.prune" "* * * * *")] ++
    List.replicate 18 (.created 1) ++ [.settle 1, .resume 2, .attach 2 (.ok ())]

theorem twoStarts_final :
    (Run.final (step queueTable) (start []) twoStarts).isSome = true := by
  decide +kernel

theorem attached_to_queues_twoStarts :
    Run.All (step queueTable) (StepOk queueTable) (start []) twoStarts :=
  attached_to_queues queueTable_documented [] twoStarts (Run.enabled_of_final twoStarts_final)

theorem calls_end_twoStarts : twoStarts.countP isOwn ≤ 66 := by
  obtain ⟨s, hs⟩ := Option.isSome_iff_exists.mp twoStarts_final
  exact Nat.le_trans (calls_end queueTable_documented [] twoStarts hs).1 (by decide)

end VcCommonService.Jobs
