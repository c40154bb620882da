import VcCommonService.Operation.PurgeExact

/-!
# When the purge drains the backlog

A batch is one `DELETE`: a single row that a credential still points to fails all of it,
and the run with it. The backlog is drained when the batches that a run takes before it
meets such a row already hold every expired operation that no credential refers to.
-/

namespace VcCommonService.Operations
open Lib

/-- What the next batch deletes: the oldest expired rows and what the cascade adds. -/
def nextBatch (now : Time) (table : List Operation) : List String :=
  cascade table table.length (((expiredInOrder now table).take batchSize).map Operation.id)

/-- The table that `k` batches leave when no credential row stands in their way. -/
def afterBatches (now : Time) : ℕ → List Operation → List Operation
  | 0, table => table
  | k + 1, table => afterBatches now k (without table (nextBatch now table))

def Backlog (referenced : List String) (now : Time) (table : List Operation) : Prop :=
  ∃ row ∈ table, row.expiresAt < now ∧ row.id ∉ referenced

def Drained (referenced : List String) (now : Time) (table : List Operation) : Prop :=
  ∀ row ∈ table, row.expiresAt < now → row.id ∈ referenced

section Batch

variable {referenced : List String} {now : Time} {table : List Operation}

theorem not_backlog_iff : ¬ Backlog referenced now table ↔ Drained referenced now table := by
  unfold Backlog Drained
  push Not
  rfl

theorem expired_of_mem_expiredInOrder {row : Operation} :
    row ∈ expiredInOrder now table ↔ row ∈ table ∧ row.expiresAt < now := by
  rw [expiredInOrder, Table.mem_orderBy, List.mem_filter, decide_eq_true_eq]

theorem drained_of_no_expired (h : expiredInOrder now table = []) :
    Drained referenced now table := by
  intro row hrow hexp
  have hmem := expired_of_mem_expiredInOrder.mpr ⟨hrow, hexp⟩
  rw [h] at hmem
  cases hmem

theorem drained_without (h : Drained referenced now table) (ids : List String) :
    Drained referenced now (without table ids) :=
  fun row hrow => h row ((mem_without ids row).mp hrow).1

theorem drained_afterBatches (k : ℕ) (h : Drained referenced now table) :
    Drained referenced now (afterBatches now k table) := by
  induction k generalizing table with
  | zero => exact h
  | succ k ih => exact ih (drained_without h _)

theorem length_expired_after_batch :
    (expiredInOrder now (without table (nextBatch now table))).length ≤
      (expiredInOrder now table).length - batchSize := by
  have hsub : ((expiredInOrder now table).take batchSize).map Operation.id ⊆
      nextBatch now table := subset_cascade table table.length _
  have hsplit := List.take_append_drop batchSize (expiredInOrder now table)
  rw [expiredInOrder_without_eq, ← hsplit, List.filter_append, filter_take_eq_nil hsub,
    List.nil_append, hsplit]
  have hle := List.length_filter_le (fun row : Operation => !(nextBatch now table).contains row.id)
    ((expiredInOrder now table).drop batchSize)
  rwa [List.length_drop] at hle

theorem purgeExpiredBatch_spec (referenced : List String) (now : Time) (table : List Operation) :
    purgeExpiredBatch referenced now batchSize table =
      if (nextBatch now table).any (referenced.contains ·) then
        .error (.constraint "fk_credential_operation")
      else .ok (without table (nextBatch now table),
        groupByTenant ((expiredInOrder now table).take batchSize)) := by
  have hlimit : max 1 batchSize = batchSize := by decide
  have hdelete : deleteRows table referenced
      (((expiredInOrder now table).take batchSize).map Operation.id) =
      if (nextBatch now table).any (referenced.contains ·) then
        .error (.constraint "fk_credential_operation")
      else .ok (without table (nextBatch now table)) := rfl
  simp only [purgeExpiredBatch, hlimit, hdelete]
  by_cases hhit : (nextBatch now table).any (referenced.contains ·) = true
  · rw [if_pos hhit, if_pos hhit]
    rfl
  · rw [if_neg hhit, if_neg hhit]
    rfl

def Restricted (referenced : List String) (now : Time) (table : List Operation) : Prop :=
  ∃ id ∈ nextBatch now table, id ∈ referenced

theorem restricted_iff_any :
    Restricted referenced now table ↔
      ((nextBatch now table).any (referenced.contains ·)) = true := by
  simp [Restricted]

theorem purgeLoop_of_restricted (h : Restricted referenced now table) (n : ℕ) (totals : Counts) :
    (purgeLoop referenced now (n + 1) table totals).1 = table := by
  rw [purgeLoop, purgeExpiredBatch_spec, if_pos (restricted_iff_any.mp h)]

theorem purgeLoop_of_not_restricted (h : ¬ Restricted referenced now table)
    (hne : expiredInOrder now table ≠ []) (n : ℕ) (totals : Counts) :
    (purgeLoop referenced now (n + 1) table totals).1 =
      (purgeLoop referenced now n (without table (nextBatch now table))
        (addBatch totals (groupByTenant ((expiredInOrder now table).take batchSize)))).1 := by
  have hpos : 0 < ((expiredInOrder now table).take batchSize).length := by
    rw [List.length_pos_iff, Ne, List.take_eq_nil_iff]
    simp [batchSize, hne]
  rw [purgeLoop, purgeExpiredBatch_spec, if_neg (mt restricted_iff_any.mpr h)]
  simp only [groupByTenant, Table.total_countBy, hpos, if_true]

theorem drained_purgeLoop_of_no_expired (h : expiredInOrder now table = []) (n : ℕ)
    (totals : Counts) : Drained referenced now (purgeLoop referenced now n table totals).1 := by
  have hd : Drained referenced now table := drained_of_no_expired h
  cases n with
  | zero => exact hd
  | succ n =>
    rw [purgeLoop, purgeExpiredBatch_spec, h]
    by_cases hhit : (nextBatch now table).any (referenced.contains ·) = true
    · rw [if_pos hhit]
      exact hd
    · rw [if_neg hhit]
      exact drained_without hd _

end Batch

/-- Enough batches for every expired row drain the backlog if and only if each of them,
as long as there is a backlog, holds no row that a credential refers to. -/
theorem drained_purgeLoop_iff (referenced : List String) (now : Time) (n : ℕ)
    {table : List Operation} (totals : Counts)
    (hn : (expiredInOrder now table).length ≤ batchSize * n) :
    Drained referenced now (purgeLoop referenced now n table totals).1 ↔
      ∀ k < n, Backlog referenced now (afterBatches now k table) →
        ¬ Restricted referenced now (afterBatches now k table) := by
  induction n generalizing table totals with
  | zero =>
    have hnil : expiredInOrder now table = [] := List.eq_nil_of_length_eq_zero (by omega)
    exact iff_of_true (drained_of_no_expired hnil) (fun k hk => absurd hk (Nat.not_lt_zero k))
  | succ n ih =>
    have hvacuous : Drained referenced now table →
        ∀ k < n + 1, Backlog referenced now (afterBatches now k table) →
          ¬ Restricted referenced now (afterBatches now k table) := by
      intro hd k _ hb
      exact absurd hb (not_backlog_iff.mpr (drained_afterBatches k hd))
    by_cases hnil : expiredInOrder now table = []
    · exact iff_of_true (drained_purgeLoop_of_no_expired hnil _ _)
        (hvacuous (drained_of_no_expired hnil))
    · by_cases hhit : Restricted referenced now table
      · -- the batch fails and the table stays as it is
        rw [purgeLoop_of_restricted hhit]
        refine ⟨hvacuous, fun h => ?_⟩
        by_contra hd
        exact h 0 (Nat.succ_pos n) (not_not.mp (mt not_backlog_iff.mp hd)) hhit
      · have hlen := @length_expired_after_batch now table
        rw [purgeLoop_of_not_restricted hhit hnil, ih _ (by rw [Nat.mul_succ] at hn; omega)]
        constructor
        · intro h k hk
          cases k with
          | zero => exact fun _ => hhit
          | succ k => exact h k (Nat.lt_of_succ_lt_succ hk)
        · exact fun h k hk => h (k + 1) (Nat.succ_lt_succ hk)

/-- A run over at most `MAX_BATCHES_PER_RUN` full batches of expired operations. -/
theorem purgeExpiredOperations_drains_iff (table : List Operation) (referenced : List String)
    (now : Time) (hmax : (table.filter fun row => decide (row.expiresAt < now)).length ≤
      maxBatchesPerRun * batchSize) :
    (∀ row ∈ (purgeExpiredOperations table referenced now).1,
        row.expiresAt < now → row.id ∈ referenced) ↔
      ∀ k < maxBatchesPerRun,
        (∃ row ∈ afterBatches now k table, row.expiresAt < now ∧ row.id ∉ referenced) →
        ¬ ∃ id ∈ nextBatch now (afterBatches now k table), id ∈ referenced := by
  refine drained_purgeLoop_iff referenced now maxBatchesPerRun [] ?_
  have hlen : (expiredInOrder now table).length =
      (table.filter fun row => decide (row.expiresAt < now)).length :=
    (Table.perm_orderBy _ _).length_eq
  rw [hlen, Nat.mul_comm]
  exact hmax

theorem purgeExpiredOperations_stuck {table : List Operation} {referenced : List String}
    {now : Time} (h : Restricted referenced now table) :
    (purgeExpiredOperations table referenced now).1 = table :=
  purgeLoop_of_restricted h _ _

def issuedOperation : Operation :=
  { batchParent with id := "issued", expiresAt := 1000 }

theorem purgeExpiredOperations_drains_beside_live :
    batchParent.expiresAt < 100 ∧
      ∀ row ∈ (purgeExpiredOperations [batchParent, issuedOperation] ["issued"] 100).1,
        row.expiresAt < 100 → row.id ∈ ["issued"] := by
  refine ⟨by decide, (purgeExpiredOperations_drains_iff _ _ _ (by decide)).mpr ?_⟩
  intro k _ hleft
  cases k with
  | zero =>
    unfold afterBatches
    decide +kernel
  | succ k =>
    have hd : Drained ["issued"] 100 (without [batchParent, issuedOperation]
        (nextBatch 100 [batchParent, issuedOperation])) := by
      unfold Drained
      decide +kernel
    exact absurd hleft (not_backlog_iff.mpr (drained_afterBatches k hd))

theorem purgeExpiredOperations_blocked : ¬ ∀ (table : List Operation) (referenced : List String)
    (now : Time), (table.filter fun row => decide (row.expiresAt < now)).length ≤
      maxBatchesPerRun * batchSize →
    ∀ row ∈ (purgeExpiredOperations table referenced now).1,
      row.expiresAt < now → row.id ∈ referenced := by
  intro hall
  have hleft := hall [batchParent, { batchParent with id := "issued" }] ["issued"] 100 (by decide)
    batchParent
  rw [purgeExpiredOperations_stuck ⟨"issued", by decide +kernel, by decide⟩] at hleft
  have hmem := hleft (by simp) (by decide)
  revert hmem
  decide

end VcCommonService.Operations
