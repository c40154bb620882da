import VcCommonService.RateLimit.Storage

/-!
# What a rejected request costs

Calls of `increment` one after the other. The table holds one hit for every admitted request, and
one for every request that was rejected because it found exactly `limit` hits: that request crosses
the limit, and its hit counts against the next ones like the others. A request that finds the limit
crossed leaves no hit.
-/

namespace VcCommonService.RateLimits
open Lib

/-! ### Calls in turn -/

/-- A call with the instants of `Date.now()` and of the insert. -/
structure IncrementCall where
  key : String
  ttl : ℤ
  limit : ℕ
  blockDuration : ℤ
  calledAt : Time
  recordedAt : Time
  deriving Repr

/-- An answered call; `recorded` says whether it inserted a hit. -/
structure Served where
  bucket : Bucket
  servedAt : Time
  record : RateLimitStorageRecord
  recorded : Bool
  deriving Repr, DecidableEq

/-- The table, the instant of the last call and the calls answered so far. -/
structure Ledger where
  hits : List RateLimitHit
  clock : Time
  served : List Served
  deriving Repr

def increment (db : Ledger) (c : IncrementCall) :
    Except ServiceError (Ledger × RateLimitStorageRecord) := do
  let bucket ← parseRateLimitKey c.key
  let r : Increment := ⟨bucket, c.ttl, c.limit, c.blockDuration⟩
  let existingHits := countSince bucket (c.calledAt - c.ttl) db.hits
  let alreadyBlocked := r.alreadyBlocked existingHits
  let hits := if alreadyBlocked then db.hits else ⟨bucket, c.recordedAt⟩ :: db.hits
  let record := r.record existingHits
  return (⟨hits, c.recordedAt, ⟨bucket, c.recordedAt, record, !alreadyBlocked⟩ :: db.served⟩, record)

/-- No call begins before the one before it has returned. -/
def serve (db : Ledger) (c : IncrementCall) : Option Ledger :=
  if db.clock ≤ c.calledAt ∧ c.calledAt ≤ c.recordedAt then
    match increment db c with
    | .error _ => some { db with clock := c.recordedAt }
    | .ok (db', _) => some db'
  else none

def emptyLedger (clock : Time) : Ledger := ⟨[], clock, []⟩

/-- The statements of a call that is alone do what the call does. -/
theorem increment_statements {db db' : Ledger} {c : IncrementCall}
    {record : RateLimitStorageRecord} (h : increment db c = .ok (db', record))
    (answers : List Answer) :
    ∃ s pc, statement ⟨db.hits, db.clock, answers⟩ .idle
        (.increment c.key c.ttl c.limit c.blockDuration c.calledAt) = some (s, pc) ∧
      ∃ s' pc', statement s pc (.next c.recordedAt) = some (s', pc') ∧
        (pc' = .returned record ∧ s'.hits = db'.hits ∨
          ∃ s'', statement s' pc' (.next c.recordedAt) = some (s'', .returned record) ∧
            s''.hits = db'.hits) := by
  obtain ⟨bucket, hparse, h⟩ := bind_eq_ok.mp h
  cases h
  refine ⟨_, _, by simp only [statement, hparse]; rfl, ?_⟩
  simp only [statement]
  split
  · exact ⟨_, _, rfl, Or.inl ⟨rfl, rfl⟩⟩
  · exact ⟨_, _, rfl, Or.inr ⟨_, rfl, rfl⟩⟩

/-! ### The ledger -/

/-- Calls of the bucket that satisfy `p` and lie in `[t - ttl, t]`. -/
def servedIn (p : Served → Bool) (bucket : Bucket) (ttl : ℤ) (t : Time) (served : List Served) :
    ℕ :=
  served.countP fun s => p s && decide (s.bucket = bucket ∧ t - ttl ≤ s.servedAt ∧ s.servedAt ≤ t)

def Served.isAdmitted (s : Served) : Bool := !s.record.isBlocked

/-- The request was rejected, but its hit is in the table. -/
def Served.crossed (s : Served) : Bool := s.record.isBlocked && s.recorded

def Served.costs (s : Served) : Bool := s.isAdmitted || s.crossed

/-- The hits are those of the calls that cost, call by call. -/
structure LedgerInv (db : Ledger) : Prop where
  hits : db.hits = (db.served.filter Served.costs).map fun s => ⟨s.bucket, s.servedAt⟩
  past : ∀ s ∈ db.served, s.servedAt ≤ db.clock

theorem ledgerInv_empty (clock : Time) : LedgerInv (emptyLedger clock) :=
  ⟨rfl, by simp [emptyLedger]⟩

/-- The count of the table is a count of calls. -/
theorem countSince_served {db : Ledger} (hi : LedgerInv db) (bucket : Bucket) (ttl : ℤ)
    {t : Time} (ht : db.clock ≤ t) :
    countSince bucket (t - ttl) db.hits = servedIn Served.costs bucket ttl t db.served := by
  rw [countSince, hi.hits, List.countP_map, List.countP_filter, servedIn]
  refine List.countP_congr fun s hs => ?_
  have hpast : s.servedAt ≤ t := (hi.past s hs).trans ht
  simp [hpast, and_comm]

theorem costs_iff_recorded (r : Increment) (existingHits : ℕ) (t : Time) :
    Served.costs ⟨r.bucket, t, r.record existingHits, !r.alreadyBlocked existingHits⟩ =
      !r.alreadyBlocked existingHits := by
  unfold Served.costs Served.isAdmitted Served.crossed
  simp only [isBlocked_record, Increment.alreadyBlocked]
  by_cases h : r.limit < existingHits
  · simp [h, h.le]
  · by_cases hle : r.limit ≤ existingHits <;> simp [h, hle]

/-! ### One call -/

/-- What a call of the bucket found in the calls before it, and what became of it. -/
def Charged (db : Ledger) (c : IncrementCall) (db' : Ledger) : Prop :=
  ∀ bucket, parseRateLimitKey c.key = .ok bucket →
    ∃ s, db'.served = s :: db.served ∧ s.bucket = bucket ∧ s.servedAt = c.recordedAt ∧
      (s.isAdmitted = true ↔
        servedIn Served.costs bucket c.ttl c.calledAt db.served < c.limit) ∧
      (s.crossed = true ↔
        servedIn Served.costs bucket c.ttl c.calledAt db.served = c.limit)

theorem serve_cases {db db' : Ledger} {c : IncrementCall} (h : serve db c = some db') :
    db.clock ≤ c.calledAt ∧ c.calledAt ≤ c.recordedAt ∧
      ((∃ e, parseRateLimitKey c.key = .error e) ∧ db' = { db with clock := c.recordedAt } ∨
        ∃ record, increment db c = .ok (db', record)) := by
  unfold serve at h
  split_ifs at h with htimes
  refine ⟨htimes.1, htimes.2, ?_⟩
  split at h
  next e herror =>
    cases h
    rcases bind_eq_error.mp herror with hparse | ⟨bucket, -, hrest⟩
    · exact Or.inl ⟨⟨e, hparse⟩, rfl⟩
    · cases hrest
  next record hok =>
    cases h
    exact Or.inr ⟨record, hok⟩

theorem ledger_step {db db' : Ledger} {c : IncrementCall} (hi : LedgerInv db)
    (h : serve db c = some db') : LedgerInv db' ∧ Charged db c db' := by
  obtain ⟨hstart, hend, hcase⟩ := serve_cases h
  rcases hcase with ⟨⟨e, herror⟩, rfl⟩ | ⟨record, hok⟩
  · refine ⟨⟨hi.hits, fun s hs => ((hi.past s hs).trans hstart).trans hend⟩, ?_⟩
    intro bucket hparse
    rw [herror] at hparse
    cases hparse
  · obtain ⟨bucket, hparse, hok⟩ := bind_eq_ok.mp hok
    cases hok
    have hcount := countSince_served hi bucket c.ttl hstart
    constructor
    · constructor
      · rw [List.filter_cons, costs_iff_recorded ⟨bucket, c.ttl, c.limit, c.blockDuration⟩]
        simp only [hi.hits]
        split <;> simp_all
      · intro s hs
        rcases List.mem_cons.mp hs with rfl | hs
        · exact le_rfl
        · exact ((hi.past s hs).trans hstart).trans hend
    · intro b hb
      cases hparse.symm.trans hb
      refine ⟨_, rfl, rfl, rfl, ?_, ?_⟩
      · simp [Served.isAdmitted, isBlocked_record, hcount]
      · simp only [Served.crossed, isBlocked_record, Increment.alreadyBlocked, hcount,
          Bool.and_eq_true, Bool.not_eq_true', decide_eq_true_eq, decide_eq_false_iff_not]
        omega

/-! ### Every sequence of calls -/

/-- A call is admitted if and only if fewer than `limit` calls that cost lie in its window: admitted
ones, and rejected ones that themselves found exactly `limit` such calls. -/
theorem increment_charged (clock : Time) (calls : List IncrementCall)
    (hturn : Run.Enabled serve (emptyLedger clock) calls) :
    Run.All serve Charged (emptyLedger clock) calls :=
  Run.all_of_invariant LedgerInv (fun _ _ _ hi hs _ => ledger_step hi hs) (ledgerInv_empty clock)
    hturn

/-- A caller that retries while its hit is still young. -/
def retries : List IncrementCall :=
  [⟨"t::r", 100, 1, 0, 0, 0⟩, ⟨"t::r", 100, 1, 0, 50, 50⟩, ⟨"t::r", 100, 1, 0, 101, 101⟩]

theorem increment_charged_retries : Run.All serve Charged (emptyLedger 0) retries :=
  increment_charged 0 retries (Run.enabled_of_final (by decide))

/-- The call at 101 is rejected: the admitted one at 0 has aged out of its window, but the hit of
the one that was rejected at 50 has not. -/
theorem rejected_call_costs :
    ¬ ∀ (key : String) (ttl : ℤ) (limit : ℕ), 0 < ttl → 1 ≤ limit →
      ∀ (clock : Time) (calls : List IncrementCall),
        (∀ c ∈ calls, c.key = key ∧ c.ttl = ttl ∧ c.limit = limit) →
        Run.Enabled serve (emptyLedger clock) calls →
        Run.All serve (fun db c db' => ∀ bucket, parseRateLimitKey c.key = .ok bucket →
          ∃ s, db'.served = s :: db.served ∧
            (s.isAdmitted = true ↔
              servedIn Served.isAdmitted bucket ttl c.calledAt db.served < limit))
          (emptyLedger clock) calls := by
  intro hall
  have hrun := hall "t::r" 100 1 (by decide) le_rfl 0 retries (by simp [retries])
    (Run.enabled_of_final (by decide))
  obtain ⟨_, h1, -, _, h2, -, _, h3, hlast, -⟩ := hrun
  cases h1
  cases h2
  cases h3
  obtain ⟨s, hserved, hiff⟩ := hlast ⟨"t", "r"⟩ (by decide)
  cases hserved
  revert hiff
  decide

end VcCommonService.RateLimits
