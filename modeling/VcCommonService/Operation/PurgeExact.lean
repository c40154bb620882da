import VcCommonService.Operation.Purge

/-!
# When the purge is exact

The batches of a run cut the expired rows, in expiry order, into slices of `BATCH_SIZE`.
While every slice brings the children of its rows with it, each batch deletes the rows
it returned and nothing else. The first slice that misses a child loses a row that no
count sees, and later batches cannot make up for it.
-/

namespace VcCommonService.Operations
open Lib

/-- `rows` contains every child of its members that the table holds. -/
def ClosedUnderBatch (table rows : List Operation) : Prop :=
  ∀ row ∈ table, ∀ parent ∈ rows, row.batchId = some parent.id → row ∈ rows

/-! ### The cascade -/

section Cascade

variable {table : List Operation} {ids : List String}

theorem mem_childIds (id : String) :
    id ∈ childIds table ids ↔
      ∃ row ∈ table, (∃ p ∈ ids, row.batchId = some p) ∧ row.id ∉ ids ∧ row.id = id := by
  simp only [childIds, List.mem_map, List.mem_filter, Bool.and_eq_true, Bool.not_eq_true',
    Option.any_eq_true, List.contains_iff_mem, ← Bool.not_eq_true]
  constructor
  · rintro ⟨row, ⟨hrow, ⟨p, hp, hmem⟩, hnot⟩, rfl⟩
    exact ⟨row, hrow, ⟨p, hmem, hp⟩, hnot, rfl⟩
  · rintro ⟨row, hrow, ⟨p, hmem, hp⟩, hnot, rfl⟩
    exact ⟨row, ⟨hrow, ⟨p, hp, hmem⟩, hnot⟩, rfl⟩

theorem subset_cascade (table : List Operation) (n : ℕ) (ids : List String) :
    ids ⊆ cascade table n ids := by
  induction n generalizing ids with
  | zero => exact fun _ h => h
  | succ n ih => exact fun _ h => ih _ (List.mem_append_left _ h)

theorem cascade_of_no_child (h : childIds table ids = []) (n : ℕ) : cascade table n ids = ids := by
  induction n with
  | zero => rfl
  | succ n ih => rw [cascade, h, List.append_nil, ih]

theorem child_mem_cascade {id : String} (h : id ∈ childIds table ids) {n : ℕ} (hn : 0 < n) :
    id ∈ cascade table n ids := by
  obtain ⟨m, rfl⟩ := Nat.exists_eq_succ_of_ne_zero (Nat.pos_iff_ne_zero.mp hn)
  exact subset_cascade table m _ (List.mem_append_right _ h)

end Cascade

/-! ### One batch -/

section Batch

variable {table : List Operation} {now : Time}

def without (table : List Operation) (ids : List String) : List Operation :=
  Table.deleteWhere (fun row => ids.contains row.id) table

theorem mem_without (ids : List String) (row : Operation) :
    row ∈ without table ids ↔ row ∈ table ∧ row.id ∉ ids := by
  simp [without]

structure Taken (table rows : List Operation) : Prop where
  unique : Table.UniqueKeys Operation.id rows
  mem : ∀ row ∈ rows, row ∈ table

theorem taken_expired (now : Time) (hu : Table.UniqueKeys Operation.id table) :
    Taken table (expiredInOrder now table) := by
  constructor
  · have hsub : Table.UniqueKeys Operation.id
        (table.filter fun row => decide (row.expiresAt < now)) :=
      hu.sublist (List.filter_sublist.map _)
    exact ((Table.perm_orderBy _ _).map Operation.id).nodup_iff.mpr hsub
  · intro row hrow
    exact List.mem_of_mem_filter ((Table.mem_orderBy _ _ _).mp hrow)

theorem taken_take {rows : List Operation} (h : Taken table rows) (n : ℕ) :
    Taken table (rows.take n) :=
  ⟨h.unique.sublist ((List.take_sublist n rows).map _),
    fun row hrow => h.mem row (List.mem_of_mem_take hrow)⟩

theorem mem_of_id_mem (hu : Table.UniqueKeys Operation.id table) {rows : List Operation}
    (h : Taken table rows) {row : Operation} (hrow : row ∈ table)
    (hid : row.id ∈ rows.map Operation.id) : row ∈ rows := by
  obtain ⟨q, hq, hqid⟩ := List.mem_map.mp hid
  have heq : q = row := Table.eq_of_key hu (h.mem q hq) hrow hqid
  exact heq ▸ hq

theorem childIds_eq_nil (hu : Table.UniqueKeys Operation.id table) {rows : List Operation}
    (h : Taken table rows) :
    childIds table (rows.map Operation.id) = [] ↔ ClosedUnderBatch table rows := by
  constructor
  · intro hnil row hrow parent hparent hbatch
    by_contra hnot
    have hid : row.id ∈ childIds table (rows.map Operation.id) :=
      (mem_childIds _).mpr ⟨row, hrow, ⟨parent.id, List.mem_map_of_mem hparent, hbatch⟩,
        fun hmem => hnot (mem_of_id_mem hu h hrow hmem), rfl⟩
    rw [hnil] at hid
    cases hid
  · intro hclosed
    refine List.eq_nil_iff_forall_not_mem.mpr fun id hid => ?_
    obtain ⟨row, hrow, ⟨p, hp, hbatch⟩, hnot, -⟩ := (mem_childIds id).mp hid
    obtain ⟨parent, hparent, rfl⟩ := List.mem_map.mp hp
    exact hnot (List.mem_map_of_mem (hclosed row hrow parent hparent hbatch))

theorem length_without (table : List Operation) (ids : List String) :
    (without table ids).length +
      (table.filter fun row => decide (row.id ∈ ids)).length = table.length := by
  have h := List.length_eq_length_filter_add (l := table) fun row => decide (row.id ∈ ids)
  have heq : without table ids = table.filter fun row => !decide (row.id ∈ ids) :=
    List.filter_congr fun row _ => by simp
  rw [heq]
  omega

theorem length_without_le {rows : List Operation} (h : Taken table rows) {ids : List String}
    (hsub : rows.map Operation.id ⊆ ids) :
    (without table ids).length + rows.length ≤ table.length := by
  have hlen := length_without table ids
  have hle : rows.length ≤ (table.filter fun row => decide (row.id ∈ ids)).length := by
    refine (List.subperm_of_subset h.unique.of_map ?_).length_le
    intro row hrow
    exact List.mem_filter.mpr ⟨h.mem row hrow, decide_eq_true (hsub (List.mem_map_of_mem hrow))⟩
  omega

theorem length_without_lt {rows : List Operation} (h : Taken table rows) {ids : List String}
    (hsub : rows.map Operation.id ⊆ ids) {row : Operation} (hrow : row ∈ table)
    (hid : row.id ∈ ids) (hnot : row.id ∉ rows.map Operation.id) :
    (without table ids).length + rows.length < table.length := by
  have hmore : Taken table (row :: rows) := by
    refine ⟨List.nodup_cons.mpr ⟨hnot, h.unique⟩, fun r hr => ?_⟩
    rcases List.mem_cons.mp hr with rfl | hr
    · exact hrow
    · exact h.mem r hr
  have hids : (row :: rows).map Operation.id ⊆ ids := by
    intro id hmem
    rcases List.mem_cons.mp hmem with rfl | hmem
    · exact hid
    · exact hsub hmem
  have hle := length_without_le hmore hids
  rw [List.length_cons] at hle
  omega

theorem length_without_eq (hu : Table.UniqueKeys Operation.id table) {rows : List Operation}
    (h : Taken table rows) :
    (without table (rows.map Operation.id)).length + rows.length = table.length := by
  have hlen := length_without table (rows.map Operation.id)
  have hge : (table.filter fun row => decide (row.id ∈ rows.map Operation.id)).length ≤
      rows.length := by
    refine (List.subperm_of_subset
      (List.Nodup.sublist List.filter_sublist hu.of_map) ?_).length_le
    intro row hrow
    obtain ⟨hmem, hid⟩ := List.mem_filter.mp hrow
    exact mem_of_id_mem hu h hmem (of_decide_eq_true hid)
  have hle := length_without_le h (List.Subset.refl _)
  omega

theorem purgeExpiredBatch_eq (table : List Operation) (now : Time) :
    purgeExpiredBatch [] now batchSize table =
      .ok (without table (cascade table table.length
          (((expiredInOrder now table).take batchSize).map Operation.id)),
        groupByTenant ((expiredInOrder now table).take batchSize)) := by
  have hnone : ∀ ids : List String, (ids.any fun id => ([] : List String).contains id) = false := by
    intro ids
    simp
  simp only [purgeExpiredBatch, deleteRows, hnone]
  rfl

theorem expiredInOrder_without_eq (table : List Operation) (ids : List String) :
    expiredInOrder now (without table ids) =
      (expiredInOrder now table).filter fun row => !ids.contains row.id := by
  unfold expiredInOrder without Table.deleteWhere
  rw [Table.filter_orderBy, List.filter_filter, List.filter_filter]
  congr 1
  exact List.filter_congr fun row _ => Bool.and_comm _ _

theorem filter_take_eq_nil {rows : List Operation} {n : ℕ} {ids : List String}
    (hsub : (rows.take n).map Operation.id ⊆ ids) :
    (rows.take n).filter (fun row => !ids.contains row.id) = [] := by
  refine List.filter_eq_nil_iff.mpr fun row hrow => ?_
  have hmem : row.id ∈ ids := hsub (List.mem_map_of_mem hrow)
  simp [hmem]

theorem expiredInOrder_without (hu : Table.UniqueKeys Operation.id table) (n : ℕ) :
    expiredInOrder now (without table (((expiredInOrder now table).take n).map Operation.id)) =
      (expiredInOrder now table).drop n := by
  generalize hids : ((expiredInOrder now table).take n).map Operation.id = ids
  have hnodup : ((expiredInOrder now table).map Operation.id).Nodup := (taken_expired now hu).unique
  rw [← List.take_append_drop n (expiredInOrder now table), List.map_append, hids] at hnodup
  obtain ⟨-, -, hdisj⟩ := List.nodup_append.mp hnodup
  have hgone := @filter_take_eq_nil (expiredInOrder now table) n ids fun _ h => hids ▸ h
  have hkept : ((expiredInOrder now table).drop n).filter (fun row => !ids.contains row.id) =
      (expiredInOrder now table).drop n := by
    refine List.filter_eq_self.mpr fun row hrow => ?_
    have hnot : row.id ∉ ids := fun hmem => hdisj _ hmem _ (List.mem_map_of_mem hrow) rfl
    simp [hnot]
  rw [expiredInOrder_without_eq]
  conv_lhs => rw [← List.take_append_drop n (expiredInOrder now table)]
  rw [List.filter_append, hgone, hkept, List.nil_append]

theorem closed_without_iff (hu : Table.UniqueKeys Operation.id table) {n : ℕ}
    (hclosed : ClosedUnderBatch table ((expiredInOrder now table).take n)) (m : ℕ) :
    ClosedUnderBatch (without table (((expiredInOrder now table).take n).map Operation.id))
        (((expiredInOrder now table).drop n).take m) ↔
      ClosedUnderBatch table ((expiredInOrder now table).take (n + m)) := by
  have htaken := taken_take (taken_expired now hu) n
  rw [List.take_add]
  constructor
  · intro h row hrow parent hparent hbatch
    by_cases hin : row ∈ (expiredInOrder now table).take n
    · exact List.mem_append_left _ hin
    · have hleft : row ∈ without table (((expiredInOrder now table).take n).map Operation.id) :=
        (mem_without _ _).mpr ⟨hrow, fun hid => hin (mem_of_id_mem hu htaken hrow hid)⟩
      rcases List.mem_append.mp hparent with hp | hp
      · exact absurd (hclosed row hrow parent hp hbatch) hin
      · exact List.mem_append_right _ (h row hleft parent hp hbatch)
  · intro h row hrow parent hparent hbatch
    obtain ⟨hmem, hnot⟩ := (mem_without _ _).mp hrow
    rcases List.mem_append.mp (h row hmem parent (List.mem_append_right _ hparent) hbatch) with
      hin | hin
    · exact absurd (List.mem_map_of_mem hin) hnot
    · exact hin

end Batch

/-! ### The loop -/

section Loop

variable {now : Time}

theorem uniqueKeys_without {table : List Operation} (hu : Table.UniqueKeys Operation.id table)
    (ids : List String) : Table.UniqueKeys Operation.id (without table ids) :=
  Table.uniqueKeys_deleteWhere _ hu

theorem total_addBatch_rows (totals : Counts) (rows : List Operation) :
    Table.total (addBatch totals (groupByTenant rows)) = Table.total totals + rows.length := by
  rw [total_addBatch, groupByTenant, Table.total_countBy]

theorem purgeLoop_succ (n : ℕ) (table : List Operation) (totals : Counts) :
    purgeLoop [] now (n + 1) table totals =
      let selected := (expiredInOrder now table).take batchSize
      let table' := without table (cascade table table.length (selected.map Operation.id))
      if 0 < selected.length then
        purgeLoop [] now n table' (addBatch totals (groupByTenant selected))
      else (table', .ok (addBatch totals (groupByTenant selected))) := by
  simp only [purgeLoop, purgeExpiredBatch_eq, groupByTenant, Table.total_countBy]

theorem purgeLoop_le (now : Time) (n : ℕ) {table : List Operation}
    (hu : Table.UniqueKeys Operation.id table) (totals : Counts) :
    ∃ totals', (purgeLoop [] now n table totals).2 = .ok totals' ∧
      Table.total totals' + (purgeLoop [] now n table totals).1.length ≤
        Table.total totals + table.length := by
  induction n generalizing table totals with
  | zero => exact ⟨totals, rfl, le_refl _⟩
  | succ n ih =>
    have hle := length_without_le (taken_take (taken_expired now hu) batchSize)
      (subset_cascade table table.length _)
    rw [purgeLoop_succ]
    dsimp only
    split
    · obtain ⟨totals', hok, hsum⟩ := ih (uniqueKeys_without hu _)
        (addBatch totals (groupByTenant ((expiredInOrder now table).take batchSize)))
      refine ⟨totals', hok, ?_⟩
      rw [total_addBatch_rows] at hsum
      omega
    · refine ⟨_, rfl, ?_⟩
      rw [total_addBatch_rows]
      dsimp only
      omega

/-- No row that has not expired is lost, and the counts account for every lost row. -/
def AccountsFor (now : Time) (table : List Operation) (counted : ℕ)
    (outcome : List Operation × Except ServiceError Counts) : Prop :=
  (∀ row ∈ table, now ≤ row.expiresAt → row ∈ outcome.1) ∧
    ∃ totals, outcome.2 = .ok totals ∧
      Table.total totals + outcome.1.length = counted + table.length

theorem accountsFor_batch {table : List Operation} (hu : Table.UniqueKeys Operation.id table)
    (counted : ℕ) (outcome : List Operation × Except ServiceError Counts) :
    AccountsFor now
        (without table (((expiredInOrder now table).take batchSize).map Operation.id))
        (counted + ((expiredInOrder now table).take batchSize).length) outcome ↔
      AccountsFor now table counted outcome := by
  have htaken := taken_take (taken_expired now hu) batchSize
  have hlen := length_without_eq hu htaken
  have hkept : ∀ row ∈ table, now ≤ row.expiresAt →
      row ∈ without table (((expiredInOrder now table).take batchSize).map Operation.id) := by
    intro row hrow hexp
    refine (mem_without _ _).mpr ⟨hrow, fun hid => ?_⟩
    have hin := List.mem_of_mem_take (mem_of_id_mem hu htaken hrow hid)
    have hpast : row.expiresAt < now :=
      of_decide_eq_true (List.mem_filter.mp ((Table.mem_orderBy _ _ _).mp hin)).2
    exact absurd hpast (not_lt.mpr hexp)
  constructor
  · rintro ⟨hrows, totals, hok, hsum⟩
    exact ⟨fun row hrow hexp => hrows row (hkept row hrow hexp) hexp, totals, hok, by omega⟩
  · rintro ⟨hrows, totals, hok, hsum⟩
    exact ⟨fun row hrow hexp => hrows row ((mem_without _ _).mp hrow).1 hexp, totals, hok,
      by omega⟩

theorem not_accountsFor_of_not_closed {table : List Operation}
    (hu : Table.UniqueKeys Operation.id table) (n : ℕ) (totals : Counts)
    (hopen : ¬ ClosedUnderBatch table ((expiredInOrder now table).take batchSize)) :
    ¬ AccountsFor now table (Table.total totals) (purgeLoop [] now (n + 1) table totals) := by
  have htaken := taken_take (taken_expired now hu) batchSize
  obtain ⟨id, hid⟩ := List.exists_mem_of_ne_nil _ (mt (childIds_eq_nil hu htaken).mp hopen)
  obtain ⟨row, hrow, -, hnot, rfl⟩ := (mem_childIds id).mp hid
  have hpos : 0 < table.length := List.length_pos_of_mem hrow
  have hlt := length_without_lt htaken (subset_cascade table table.length _) hrow
    (child_mem_cascade hid hpos) hnot
  -- an empty batch has no children, so the loop goes on
  have hnonempty : 0 < ((expiredInOrder now table).take batchSize).length := by
    rw [List.length_pos_iff]
    intro hnil
    rw [hnil] at hopen
    exact hopen fun _ _ _ hp => by cases hp
  rintro ⟨-, totals', hok, hsum⟩
  rw [purgeLoop_succ] at hok hsum
  simp only [hnonempty, if_true] at hok hsum
  obtain ⟨totals'', hok', hle⟩ := purgeLoop_le now n
    (uniqueKeys_without hu (cascade table table.length
      (((expiredInOrder now table).take batchSize).map Operation.id)))
    (addBatch totals (groupByTenant ((expiredInOrder now table).take batchSize)))
  have heq : totals' = totals'' := Except.ok.inj (hok.symm.trans hok')
  rw [total_addBatch_rows, ← heq] at hle
  omega

theorem purgeLoop_accountsFor_iff (n : ℕ) {table : List Operation}
    (hu : Table.UniqueKeys Operation.id table) (totals : Counts) :
    AccountsFor now table (Table.total totals) (purgeLoop [] now n table totals) ↔
      ∀ k ≤ n, ClosedUnderBatch table ((expiredInOrder now table).take (batchSize * k)) := by
  have hzero : ∀ table : List Operation,
      ClosedUnderBatch table ((expiredInOrder now table).take (batchSize * 0)) := by
    intro table row _ parent hparent
    simp at hparent
  induction n generalizing table totals with
  | zero =>
    refine iff_of_true ⟨fun _ hrow _ => hrow, totals, rfl, rfl⟩ ?_
    intro k hk
    rw [Nat.le_zero.mp hk]
    exact hzero table
  | succ n ih =>
    have htaken := taken_take (taken_expired now hu) batchSize
    by_cases hclosed : ClosedUnderBatch table ((expiredInOrder now table).take batchSize)
    · have hcascade := cascade_of_no_child ((childIds_eq_nil hu htaken).mpr hclosed) table.length
      rw [← accountsFor_batch hu, purgeLoop_succ]
      simp only [hcascade]
      split
      · -- the batch was not empty: the rest of the run works on the rest of the rows
        have hrest := ih (uniqueKeys_without hu
          (((expiredInOrder now table).take batchSize).map Operation.id))
          (addBatch totals (groupByTenant ((expiredInOrder now table).take batchSize)))
        rw [total_addBatch_rows] at hrest
        refine hrest.trans ?_
        simp only [expiredInOrder_without hu, closed_without_iff hu hclosed]
        constructor
        · intro h k hk
          cases k with
          | zero => exact hzero table
          | succ k =>
            have hk' := h k (by omega)
            rwa [Nat.mul_succ, Nat.add_comm]
        · intro h k hk
          have hk' := h (k + 1) (by omega)
          rwa [Nat.mul_succ, Nat.add_comm] at hk'
      next hempty =>
        have hnil : expiredInOrder now table = [] := by
          rcases List.take_eq_nil_iff.mp (List.length_eq_zero_iff.mp (Nat.eq_zero_of_not_pos hempty))
            with h | h
          · simp [batchSize] at h
          · exact h
        refine iff_of_true ⟨fun _ hrow _ => hrow, _, rfl, ?_⟩ ?_
        · rw [total_addBatch_rows]
        · intro k _ row _ parent hparent
          simp [hnil] at hparent
    · refine iff_of_false (not_accountsFor_of_not_closed hu n totals hclosed) fun h => hclosed ?_
      simpa using h 1 (by omega)

end Loop

/-- A run of the purge is exact if and only if, for each number of batches it may run, the
oldest expired rows of that many batches contain all their batch children. -/
theorem purgeExpiredOperations_exact_iff (table : List Operation) (now : Time)
    (hu : Table.UniqueKeys Operation.id table) :
    AccountsFor now table 0 (purgeExpiredOperations table [] now) ↔
      ∀ n ≤ maxBatchesPerRun,
        ClosedUnderBatch table ((expiredInOrder now table).take (batchSize * n)) :=
  purgeLoop_accountsFor_iff maxBatchesPerRun hu []

/-! ### A live child of an expired parent -/

def batchParent : Operation :=
  { id := "parent", tenantId := "t", batchId := none, type := "batch", state := .completed
    request := .obj [], result := none, externalId := none, viewedAt := none
    expiresAt := 10, createdAt := 0 }

def batchChild : Operation :=
  { batchParent with id := "child", batchId := some "parent", expiresAt := 1000 }

theorem purgeExpiredOperations_exact_single :
    AccountsFor 100 [batchParent] 0 (purgeExpiredOperations [batchParent] [] 100) := by
  refine (purgeExpiredOperations_exact_iff [batchParent] 100
    (by decide)).mpr ?_
  intro n _ row hrow parent _ hbatch
  rw [List.mem_singleton.mp hrow] at hbatch
  cases hbatch

theorem purgeExpiredOperations_inexact : ¬ ∀ (table : List Operation) (now : Time),
    Table.UniqueKeys Operation.id table →
    AccountsFor now table 0 (purgeExpiredOperations table [] now) := by
  intro hall
  obtain ⟨hrows, -⟩ := hall [batchParent, batchChild] 100 (by decide)
  have hchild := List.mem_map_of_mem (f := Operation.id) (hrows batchChild (by simp) (by decide))
  revert hchild
  decide +kernel

end VcCommonService.Operations
