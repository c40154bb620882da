import Mathlib.Tactic.SplitIfs
import VcCommonService.Common
import VcCommonService.Lib.Run
import VcCommonService.Lib.Table
import VcCommonService.Lib.Uri

/-!
# The shared rate limit

A request counts the hits of its key in the last `ttl` milliseconds and, unless there are too many
already, inserts one of its own. The count and the insert are two statements, so several requests
can be admitted on the same count.
-/

namespace VcCommonService.RateLimits
open Lib

/-! ### Keys -/

structure Bucket where
  tracker : String
  routeKey : String
  deriving Repr, DecidableEq

/-- The characters before and after the first `::`. -/
def splitAtSeparator : List Char → Option (List Char × List Char)
  | ':' :: ':' :: rest => some ([], rest)
  | c :: cs => (splitAtSeparator cs).map fun (before, after) => (c :: before, after)
  | [] => none

def decode (cs : List Char) : Except ServiceError String :=
  match Uri.decodeURIComponent (String.ofList cs) with
  | none => .error (.error "URI malformed")
  | some s => .ok s

def parseRateLimitKey (key : String) : Except ServiceError Bucket :=
  match splitAtSeparator key.toList with
  | none => .error (.error ("Malformed rate limit key: " ++ key))
  | some (before, after) => do
    let tracker ← decode before
    let routeKey ← decode after
    return ⟨tracker, routeKey⟩

example : parseRateLimitKey "%3A%3A1::AppController.index" = .ok ⟨"::1", "AppController.index"⟩ := by
  decide

/-! ### The table -/

structure RateLimitHit where
  bucket : Bucket
  hitAt : Time
  deriving Repr, DecidableEq

def countSince (bucket : Bucket) (since : Time) (hits : List RateLimitHit) : ℕ :=
  hits.countP fun h => decide (h.bucket = bucket ∧ since ≤ h.hitAt)

def pruneOlderThan (cutoff : Time) (hits : List RateLimitHit) : List RateLimitHit :=
  Table.deleteWhere (fun h => decide (h.hitAt < cutoff)) hits

theorem countSince_antitone (bucket : Bucket) {since since' : Time} (h : since ≤ since')
    (hits : List RateLimitHit) : countSince bucket since' hits ≤ countSince bucket since hits := by
  refine List.countP_mono_left fun hit _ hin => ?_
  have hin := of_decide_eq_true hin
  exact decide_eq_true ⟨hin.1, h.trans hin.2⟩

theorem countSince_pruneOlderThan {cutoff since : Time} (h : cutoff ≤ since) (bucket : Bucket)
    (hits : List RateLimitHit) :
    countSince bucket since (pruneOlderThan cutoff hits) = countSince bucket since hits := by
  unfold countSince pruneOlderThan Table.deleteWhere
  rw [List.countP_filter]
  congr 1
  funext hit
  by_cases hin : hit.bucket = bucket ∧ since ≤ hit.hitAt
  · have hkept : ¬ hit.hitAt < cutoff := not_lt.mpr (h.trans hin.2)
    simp [hin.1, hin.2, hkept]
  · simp [hin]

/-! ### `increment` -/

structure RateLimitStorageRecord where
  totalHits : ℕ
  timeToExpire : ℤ
  isBlocked : Bool
  timeToBlockExpire : ℤ
  deriving Repr, DecidableEq

/-- `Math.ceil(ms / 1000)`. -/
def ceilSeconds (ms : ℤ) : ℤ := -((-ms) / 1000)

/-- The arguments of a call; `bucket` is its parsed key. -/
structure Increment where
  bucket : Bucket
  ttl : ℤ
  limit : ℕ
  blockDuration : ℤ
  deriving Repr, DecidableEq

def Increment.alreadyBlocked (r : Increment) (existingHits : ℕ) : Bool :=
  decide (r.limit < existingHits)

def Increment.record (r : Increment) (existingHits : ℕ) : RateLimitStorageRecord :=
  let totalHits := if r.alreadyBlocked existingHits then existingHits else existingHits + 1
  let isBlocked := decide (r.limit < totalHits)
  { totalHits := totalHits
    timeToExpire := ceilSeconds r.ttl
    isBlocked := isBlocked
    timeToBlockExpire :=
      if isBlocked then ceilSeconds (if r.blockDuration = 0 then r.ttl else r.blockDuration)
      else 0 }

/-- An answered call. -/
structure Answer where
  bucket : Bucket
  answeredAt : Time
  record : RateLimitStorageRecord
  deriving Repr, DecidableEq

/-- The table, the clock all replicas read, and the answers given so far. -/
structure Store where
  hits : List RateLimitHit
  clock : Time
  answers : List Answer
  deriving Repr

/-- Where a call is: its key parsed and `since` computed, or with its count. -/
inductive Call where
  | idle
  | counting (r : Increment) (since : Time)
  | recording (r : Increment) (since : Time) (existingHits : ℕ)
  | returned (record : RateLimitStorageRecord)
  | failed (error : ServiceError)
  deriving Repr

/-- What happens at an instant; the prune worker deletes in between. -/
inductive Event where
  | increment (key : String) (ttl : ℤ) (limit : ℕ) (blockDuration : ℤ) (now : Time)
  | next (now : Time)
  | abort (error : ServiceError) (now : Time)
  | prune (cutoff now : Time)

def Event.now : Event → Time
  | .increment _ _ _ _ now | .next now | .abort _ now | .prune _ now => now

def Store.answer (db : Store) (r : Increment) (existingHits : ℕ) (now : Time) : Store :=
  { db with clock := now, answers := ⟨r.bucket, now, r.record existingHits⟩ :: db.answers }

def Store.recordHit (db : Store) (bucket : Bucket) (now : Time) : Store :=
  { db with clock := now, hits := ⟨bucket, now⟩ :: db.hits }

def statement (db : Store) : Call → Event → Option (Store × Call)
  | .idle, .increment key ttl limit blockDuration now =>
    match parseRateLimitKey key with
    | .error e => some ({ db with clock := now }, .failed e)
    | .ok bucket =>
      some ({ db with clock := now }, .counting ⟨bucket, ttl, limit, blockDuration⟩ (now - ttl))
  | .counting r since, .next now =>
    let existingHits := countSince r.bucket since db.hits
    if r.alreadyBlocked existingHits then
      some (db.answer r existingHits now, .returned (r.record existingHits))
    else some ({ db with clock := now }, .recording r since existingHits)
  | .recording r _ existingHits, .next now =>
    some ((db.recordHit r.bucket now).answer r existingHits now, .returned (r.record existingHits))
  | .counting _ _, .abort e now => some ({ db with clock := now }, .failed e)
  | .recording _ _ _, .abort e now => some ({ db with clock := now }, .failed e)
  | .idle, .prune cutoff now =>
    some ({ db with clock := now, hits := pruneOlderThan cutoff db.hits }, .idle)
  | _, _ => none

/-- Time does not run backwards. -/
def act (db : Store) (pc : Call) (e : Event) : Option (Store × Call) :=
  if db.clock ≤ e.now then statement db pc e else none

abbrev World := Run.World Store Call

def step : World → ℕ × Event → Option World := Run.interleave act

def start (hits : List RateLimitHit) (clock : Time) : World := ⟨⟨hits, clock, []⟩, fun _ => .idle⟩

/-! ### The property and its condition -/

def admitted (bucket : Bucket) (inWindow : Time → Bool) (answers : List Answer) : ℕ :=
  answers.countP fun a =>
    decide (a.bucket = bucket) && (!a.record.isBlocked && inWindow a.answeredAt)

def window (ttl : ℤ) (x t : Time) : Bool := decide (x ≤ t ∧ t ≤ x + ttl)

/-- In every window of length `ttl` at most `limit` calls are answered with
`isBlocked = false`. -/
def WithinLimit (bucket : Bucket) (ttl : ℤ) (limit : ℕ) (db : Store) : Prop :=
  ∀ x, admitted bucket (window ttl x) db.answers ≤ limit

/-- The calls for the key have this `ttl` and `limit`, and no hit younger than `ttl` is pruned. -/
def Uses (bucket : Bucket) (ttl : ℤ) (limit : ℕ) : Event → Prop
  | .increment key ttl' limit' _ _ =>
    parseRateLimitKey key = .ok bucket → ttl' = ttl ∧ limit' = limit
  | .prune cutoff now => cutoff ≤ now - ttl
  | _ => True

/-- A call for the key that is about to be admitted would still be admitted if it counted again. -/
def FreshCount (bucket : Bucket) (db : Store) : Call → Event → Prop
  | .recording r since existingHits, .next _ =>
    r.bucket = bucket → existingHits < r.limit → countSince bucket since db.hits < r.limit
  | _, _ => True

/-! ### Invariant -/

section Invariant

variable {bucket : Bucket} {ttl : ℤ} {limit : ℕ}

/-- Hits outlive the answers they stand for as long as a window can reach back to them. -/
structure StoreInv (bucket : Bucket) (ttl : ℤ) (limit : ℕ) (db : Store) : Prop where
  within : WithinLimit bucket ttl limit db
  hits : ∀ x, db.clock - ttl ≤ x →
    admitted bucket (fun t => decide (x ≤ t)) db.answers ≤ countSince bucket x db.hits

/-- A call of the key counts from `ttl` before the present or earlier. -/
def CallInv (bucket : Bucket) (ttl : ℤ) (limit : ℕ) (db : Store) : Call → Prop
  | .counting r since | .recording r since _ =>
    r.bucket = bucket → r.ttl = ttl ∧ r.limit = limit ∧ since + ttl ≤ db.clock
  | _ => True

theorem admitted_cons (inWindow : Time → Bool) (a : Answer) (answers : List Answer) :
    admitted bucket inWindow (a :: answers) = admitted bucket inWindow answers +
      if a.bucket = bucket ∧ a.record.isBlocked = false ∧ inWindow a.answeredAt = true then 1
      else 0 := by
  simp [admitted, List.countP_cons]

theorem countSince_cons (since : Time) (h : RateLimitHit) (hits : List RateLimitHit) :
    countSince bucket since (h :: hits) = countSince bucket since hits +
      if h.bucket = bucket ∧ since ≤ h.hitAt then 1 else 0 := by
  simp [countSince, List.countP_cons]

theorem admitted_window_le (x : Time) (answers : List Answer) :
    admitted bucket (window ttl x) answers ≤
      admitted bucket (fun t => decide (x ≤ t)) answers := by
  refine List.countP_mono_left fun a _ h => ?_
  simp only [window, Bool.and_eq_true, decide_eq_true_eq] at h ⊢
  exact ⟨h.1, h.2.1, h.2.2.1⟩

theorem isBlocked_record (r : Increment) (existingHits : ℕ) :
    (r.record existingHits).isBlocked = decide (r.limit ≤ existingHits) := by
  unfold Increment.record Increment.alreadyBlocked
  by_cases h : r.limit < existingHits
  · simp [h, h.le]
  · have hblocked : r.limit < existingHits + 1 ↔ r.limit ≤ existingHits := Nat.lt_succ_iff
    simp only [h, decide_false, Bool.false_eq_true, if_false, hblocked]

/-- A blocked answer changes nothing. -/
theorem admitted_answer_blocked (db : Store) (r : Increment) (existingHits : ℕ) (now : Time)
    (hblocked : r.limit ≤ existingHits) (inWindow : Time → Bool) :
    admitted bucket inWindow (db.answer r existingHits now).answers =
      admitted bucket inWindow db.answers := by
  unfold Store.answer
  rw [admitted_cons, if_neg, Nat.add_zero]
  simp [isBlocked_record, hblocked]

theorem storeInv_clock {db : Store} (hi : StoreInv bucket ttl limit db) {now : Time}
    (hnow : db.clock ≤ now) : StoreInv bucket ttl limit { db with clock := now } :=
  ⟨hi.within, fun x hx => hi.hits x ((Int.sub_le_sub_right hnow ttl).trans hx)⟩

theorem storeInv_blocked {db : Store} (hi : StoreInv bucket ttl limit db) {r : Increment}
    {existingHits : ℕ} {now : Time} (hnow : db.clock ≤ now) (hblocked : r.limit ≤ existingHits) :
    StoreInv bucket ttl limit (db.answer r existingHits now) := by
  constructor
  · intro x
    rw [admitted_answer_blocked db r existingHits now hblocked]
    exact hi.within x
  · intro x hx
    rw [admitted_answer_blocked db r existingHits now hblocked]
    exact (storeInv_clock hi hnow).hits x hx

theorem storeInv_recordHit {db : Store} (hi : StoreInv bucket ttl limit db) {b : Bucket}
    {now : Time} (hnow : db.clock ≤ now) : StoreInv bucket ttl limit (db.recordHit b now) := by
  refine ⟨hi.within, fun x hx => ?_⟩
  unfold Store.recordHit
  rw [countSince_cons]
  exact Nat.le_add_right_of_le ((storeInv_clock hi hnow).hits x hx)

/-- The answers in a window that reaches `now` have their hits in the table, and the repeated
count finds fewer than `limit`. -/
theorem admitted_lt_of_fresh {db : Store} (hi : StoreInv bucket ttl limit db) {since now x : Time}
    (hnow : db.clock ≤ now) (hsince : since + ttl ≤ db.clock) (hx : now ≤ x + ttl)
    (hfresh : countSince bucket since db.hits < limit) :
    admitted bucket (window ttl x) db.answers < limit := by
  have hreach : db.clock - ttl ≤ x := Int.sub_right_le_of_le_add (hnow.trans hx)
  have hback : since ≤ x := Int.le_of_add_le_add_right (hsince.trans (hnow.trans hx))
  calc admitted bucket (window ttl x) db.answers
      ≤ admitted bucket (fun t => decide (x ≤ t)) db.answers := admitted_window_le x _
    _ ≤ countSince bucket x db.hits := hi.hits x hreach
    _ ≤ countSince bucket since db.hits := countSince_antitone bucket hback _
    _ < limit := hfresh

theorem storeInv_record {db : Store} (hi : StoreInv bucket ttl limit db) {r : Increment}
    {since now : Time} {existingHits : ℕ} (hnow : db.clock ≤ now)
    (hcall : CallInv bucket ttl limit db (.recording r since existingHits))
    (hfresh : FreshCount bucket db (.recording r since existingHits) (.next now)) :
    StoreInv bucket ttl limit ((db.recordHit r.bucket now).answer r existingHits now) := by
  have hrecorded := storeInv_recordHit (b := r.bucket) hi hnow
  by_cases hopen : r.bucket = bucket ∧ existingHits < r.limit
  · obtain ⟨hbucket, hlt⟩ := hopen
    obtain ⟨-, hlimit, hsince⟩ := hcall hbucket
    have hcount := hfresh hbucket hlt
    have hunblocked : (r.record existingHits).isBlocked = false := by
      simpa [isBlocked_record] using hlt
    constructor
    · intro x
      simp only [Store.answer, Store.recordHit, admitted_cons]
      split_ifs with hin
      · have hwindow := of_decide_eq_true hin.2.2
        have h := admitted_lt_of_fresh hi hnow hsince hwindow.2 (hlimit ▸ hcount)
        omega
      · exact hi.within x
    · intro x hx
      simp only [Store.answer, Store.recordHit, admitted_cons, countSince_cons, hbucket,
        hunblocked, true_and, decide_eq_true_eq]
      exact Nat.add_le_add_right ((storeInv_clock hi hnow).hits x hx) _
  · have hsame : ∀ inWindow, admitted bucket inWindow
        ((db.recordHit r.bucket now).answer r existingHits now).answers =
          admitted bucket inWindow db.answers := by
      intro inWindow
      unfold Store.answer
      rw [admitted_cons, if_neg]
      · rfl
      · rintro ⟨hb, hblocked, -⟩
        rw [isBlocked_record, decide_eq_false_iff_not, not_le] at hblocked
        exact hopen ⟨hb, hblocked⟩
    constructor
    · intro x
      rw [hsame]
      exact hi.within x
    · intro x hx
      rw [hsame]
      exact hrecorded.hits x hx

theorem storeInv_prune {db : Store} (hi : StoreInv bucket ttl limit db) {cutoff now : Time}
    (hnow : db.clock ≤ now) (hcutoff : cutoff ≤ now - ttl) :
    StoreInv bucket ttl limit { db with clock := now, hits := pruneOlderThan cutoff db.hits } := by
  refine ⟨hi.within, fun x hx => ?_⟩
  simp only at hx ⊢
  rw [countSince_pruneOlderThan (hcutoff.trans hx)]
  exact (storeInv_clock hi hnow).hits x hx

def Proper (bucket : Bucket) (ttl : ℤ) (limit : ℕ) (db : Store) (pc : Call) (e : Event) : Prop :=
  Uses bucket ttl limit e ∧ FreshCount bucket db pc e

variable {db db' : Store} {pc pc' other : Call} {e : Event}

theorem act_cases (h : act db pc e = some (db', pc')) :
    db.clock ≤ e.now ∧ statement db pc e = some (db', pc') := by
  unfold act at h
  split_ifs at h with hnow
  exact ⟨hnow, h⟩

theorem clock_statement (h : statement db pc e = some (db', pc')) : db'.clock = e.now := by
  unfold statement at h
  split at h
  · split at h <;> cases h <;> rfl
  · dsimp only at h
    split_ifs at h <;> cases h <;> rfl
  all_goals cases h
  all_goals rfl

theorem own_statement (hnow : db.clock ≤ e.now) (hi : StoreInv bucket ttl limit db)
    (hcall : CallInv bucket ttl limit db pc) (h : statement db pc e = some (db', pc'))
    (hproper : Proper bucket ttl limit db pc e) :
    StoreInv bucket ttl limit db' ∧ CallInv bucket ttl limit db' pc' := by
  obtain ⟨huses, hfresh⟩ := hproper
  cases pc with
  | idle =>
    cases e with
    | increment key ttl' limit' blockDuration now =>
      simp only [statement] at h
      split at h
      · cases h
        exact ⟨storeInv_clock hi hnow, trivial⟩
      next b hparse =>
        cases h
        refine ⟨storeInv_clock hi hnow, fun hb => ?_⟩
        simp only at hb
        obtain ⟨rfl, rfl⟩ := huses (hb ▸ hparse)
        exact ⟨rfl, rfl, (Int.sub_add_cancel ..).le⟩
    | prune cutoff now =>
      cases h
      exact ⟨storeInv_prune hi hnow huses, trivial⟩
    | _ => cases h
  | counting r since =>
    cases e with
    | next now =>
      simp only [statement] at h
      split_ifs at h with hblocked
      · cases h
        exact ⟨storeInv_blocked hi hnow (of_decide_eq_true hblocked).le, trivial⟩
      · cases h
        refine ⟨storeInv_clock hi hnow, fun hb => ?_⟩
        obtain ⟨httl, hlimit, hsince⟩ := hcall hb
        exact ⟨httl, hlimit, hsince.trans hnow⟩
    | abort error now =>
      cases h
      exact ⟨storeInv_clock hi hnow, trivial⟩
    | _ => cases h
  | recording r since existingHits =>
    cases e with
    | next now =>
      cases h
      exact ⟨storeInv_record hi hnow hcall hfresh, trivial⟩
    | abort error now =>
      cases h
      exact ⟨storeInv_clock hi hnow, trivial⟩
    | _ => cases h
  | returned record => cases e <;> cases h
  | failed error => cases e <;> cases h

theorem callInv_frame (hclock : db.clock ≤ db'.clock) (h : CallInv bucket ttl limit db other) :
    CallInv bucket ttl limit db' other := by
  cases other with
  | counting r since =>
    intro hb
    obtain ⟨httl, hlimit, hsince⟩ := h hb
    exact ⟨httl, hlimit, hsince.trans hclock⟩
  | recording r since existingHits =>
    intro hb
    obtain ⟨httl, hlimit, hsince⟩ := h hb
    exact ⟨httl, hlimit, hsince.trans hclock⟩
  | _ => trivial

end Invariant

theorem holds_step {bucket : Bucket} {ttl : ℤ} {limit : ℕ} {w w' : World} {l : ℕ × Event}
    (hi : Run.Holds (StoreInv bucket ttl limit) (CallInv bucket ttl limit) w)
    (hs : step w l = some w') (hc : Run.Before (Proper bucket ttl limit) w l w') :
    Run.Holds (StoreInv bucket ttl limit) (CallInv bucket ttl limit) w' := by
  refine Run.holds_interleave (C := Proper bucket ttl limit) ?_ ?_ hi hs hc
  · intro db pc e db' pc' hg hl ha hproper
    obtain ⟨hnow, hst⟩ := act_cases ha
    exact own_statement hnow hg hl hst hproper
  · intro db pc e db' pc' other _ _ hother ha _
    obtain ⟨hnow, hst⟩ := act_cases ha
    exact callInv_frame (hnow.trans_eq (clock_statement hst).symm) hother

theorem holds_start (bucket : Bucket) (ttl : ℤ) (limit : ℕ) (hits : List RateLimitHit)
    (clock : Time) :
    Run.Holds (StoreInv bucket ttl limit) (CallInv bucket ttl limit) (start hits clock) :=
  ⟨⟨fun _ => Nat.zero_le _, fun _ _ => Nat.zero_le _⟩, fun _ => trivial⟩

def requestsInTurn : List (ℕ × Event) :=
  [(0, .increment "t::r" 60000 1 0 0), (0, .next 1), (0, .next 2),
    (1, .increment "t::r" 60000 1 0 3), (1, .next 4), (1, .next 5)]

def requestsTogether : List (ℕ × Event) :=
  [(0, .increment "t::r" 60000 1 0 0), (1, .increment "t::r" 60000 1 0 1), (0, .next 2),
    (1, .next 3), (0, .next 4), (1, .next 5)]

theorem requestsInTurn_uses : ∀ l ∈ requestsInTurn, Uses ⟨"t", "r"⟩ 60000 1 l.2 := by
  simp [requestsInTurn, Uses]

theorem requestsTogether_uses : ∀ l ∈ requestsTogether, Uses ⟨"t", "r"⟩ 60000 1 l.2 := by
  simp [requestsTogether, Uses]

end VcCommonService.RateLimits
