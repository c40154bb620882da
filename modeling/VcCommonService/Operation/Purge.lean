import VcCommonService.Operation.Calls
import VcCommonService.Lib.Table

/-!
# Purge of expired operations (`operation-purge.service.ts`, `operation.repository.ts`)

`purgeExpiredBatch` deletes the oldest expired rows and counts the rows it returned per
tenant; the foreign key of `batch_id` then deletes the children of every deleted row,
expired or not, and nobody counts those. The purge is exact on the tables whose expired
rows, taken in expiry order and in whole batches, bring all their children with them.
-/

namespace VcCommonService.Operations
open Lib

/-! ### Counts per tenant -/

abbrev Counts := List (TenantId × ℕ)

def groupByTenant (rows : List Operation) : Counts := Table.countBy Operation.tenantId rows

def addBatch (totals batch : Counts) : Counts :=
  batch.foldl (fun totals entry => Table.bump entry.1 entry.2 totals) totals

theorem total_addBatch (totals batch : Counts) :
    Table.total (addBatch totals batch) = Table.total totals + Table.total batch := by
  induction batch generalizing totals with
  | nil => simp [addBatch, Table.total]
  | cons entry batch ih =>
    have hstep : addBatch totals (entry :: batch) =
        addBatch (Table.bump entry.1 entry.2 totals) batch := rfl
    rw [hstep, ih, Table.total_bump]
    simp only [Table.total, List.map_cons, List.sum_cons]
    omega

/-! ### The foreign keys -/

def childIds (table : List Operation) (ids : List String) : List String :=
  (table.filter fun row => row.batchId.any (ids.contains ·) && !ids.contains row.id).map
    Operation.id

/-- `ON DELETE CASCADE` of `fk_operation_batch`, level by level. -/
def cascade (table : List Operation) : ℕ → List String → List String
  | 0, ids => ids
  | n + 1, ids => cascade table n (ids ++ childIds table ids)

/-- `DELETE` of the rows with these ids. `referenced` lists the operations that credential
rows point to; their foreign key is `ON DELETE RESTRICT`. -/
def deleteRows (table : List Operation) (referenced ids : List String) :
    Except ServiceError (List Operation) :=
  let gone := cascade table table.length ids
  if gone.any (referenced.contains ·) then .error (.constraint "fk_credential_operation")
  else .ok (Table.deleteWhere (fun row => gone.contains row.id) table)

/-! ### Repository and service -/

def expiredInOrder (now : Time) (table : List Operation) : List Operation :=
  Table.orderBy Operation.expiresAt (table.filter fun row => decide (row.expiresAt < now))

def purgeExpiredBatch (referenced : List String) (now : Time) (limit : ℕ)
    (table : List Operation) : Except ServiceError (List Operation × Counts) := do
  let safeLimit := max 1 limit
  let selected := (expiredInOrder now table).take safeLimit
  let remaining ← deleteRows table referenced (selected.map Operation.id)
  return (remaining, groupByTenant selected)

def batchSize : ℕ := 500

def maxBatchesPerRun : ℕ := 50

/-- The `do … while` loop with the number of batches it may still run. A batch that fails
leaves the earlier ones committed. -/
def purgeLoop (referenced : List String) (now : Time) :
    ℕ → List Operation → Counts → List Operation × Except ServiceError Counts
  | 0, table, totals => (table, .ok totals)
  | n + 1, table, totals =>
    match purgeExpiredBatch referenced now batchSize table with
    | .error e => (table, .error e)
    | .ok (table', batch) =>
      if 0 < Table.total batch then purgeLoop referenced now n table' (addBatch totals batch)
      else (table', .ok (addBatch totals batch))

def purgeExpiredOperations (table : List Operation) (referenced : List String) (now : Time) :
    List Operation × Except ServiceError Counts :=
  purgeLoop referenced now maxBatchesPerRun table []

end VcCommonService.Operations
