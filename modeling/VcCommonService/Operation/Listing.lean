import VcCommonService.Lib.Js
import VcCommonService.Lib.Scan
import VcCommonService.Lib.Timestamptz
import VcCommonService.Operation.Calls

/-!
# Listing operations (`OperationRepository.findByTenantWithFilters`)

The query orders by `created_at` alone, so operations of one instant come in any order, and a page may
end between them. The cursor is the `createdAt` of an operation, a `Date`; the query then takes
what is strictly below it.
-/

namespace VcCommonService.Operations
open Lib

/-- A row of `operation`, with the instants as the table keeps them. -/
structure OperationRow where
  id : String
  tenantId : TenantId
  batchId : Option String
  type : String
  state : OperationState
  request : Json
  result : Option Json
  externalId : Option String
  viewedAt : Option Timestamptz
  expiresAt : Timestamptz
  createdAt : Timestamptz
  deriving DecidableEq

structure OperationTable where
  rows : List OperationRow
  primaryKey : Table.UniqueKeys OperationRow.id rows

/-- A `batchId` of `null` asks for operations without one. -/
structure FindByTenantFilters where
  tenantId : TenantId
  state : Option OperationState := none
  type : Option String := none
  batchId : Js.Field String := .undefined
  limit : Option ℕ := none
  cursor : Option Date := none

def defaultLimit : ℕ := 20

def FindByTenantFilters.accept (filters : FindByTenantFilters) (op : OperationRow) : Bool :=
  decide (op.tenantId = filters.tenantId) &&
    filters.state.all (fun state => op.state = state) &&
    filters.type.all (fun type => op.type = type) &&
    match filters.batchId with
    | .undefined => true
    | .null => op.batchId.isNone
    | .value batchId => op.batchId = some batchId

/-- `op.created_at < :cursor`; an invalid date is no text that the database reads. -/
def belowCursor : Option Date → Option (OperationRow → Bool)
  | none => some fun _ => true
  | some none => none
  | some (some cursor) => some fun op => op.createdAt < Timestamptz.ofMs cursor

/-- `ORDER BY created_at DESC` -/
def OperationRow.newestFirst (op : OperationRow) : Timestamptzᵒᵈ := OrderDual.toDual op.createdAt

/-- What the query may answer. -/
def findByTenantWithFilters (table : OperationTable) (filters : FindByTenantFilters)
    (answer : Except ServiceError (List OperationRow)) : Prop :=
  match belowCursor filters.cursor with
  | none => answer = .error (.constraint "invalid input syntax")
  | some below => ∃ order, Table.IsOrdered OperationRow.newestFirst
      (fun op => filters.accept op && below op) table.rows order ∧
      answer = .ok (order.take (filters.limit.getD defaultLimit))

/-! ### Reading all of them -/

def cursorOf (op : OperationRow) : Date := Timestamptz.toDate op.createdAt

/-- The requests of a reader with these filters. -/
def readFrom (table : OperationTable) (filters : FindByTenantFilters) (cursor : Option Date) :
    Except ServiceError (List OperationRow) → Prop :=
  findByTenantWithFilters table { filters with cursor }

def matching (table : OperationTable) (filters : FindByTenantFilters) : List OperationRow :=
  table.rows.filter filters.accept

/-- When the matching operations were created, the latest first. -/
def creationTimes (table : OperationTable) (filters : FindByTenantFilters) : List Timestamptz :=
  (Table.orderBy OperationRow.newestFirst (matching table filters)).map OperationRow.createdAt

def boundOf (t : Timestamptzᵒᵈ) : Option Timestamptzᵒᵈ :=
  (Timestamptz.toDate (OrderDual.ofDual t)).map fun ms => OrderDual.toDual (Timestamptz.ofMs ms)

theorem finds_of_below {table : OperationTable} {filters : FindByTenantFilters}
    {cursor : Option Date} {below : OperationRow → Bool} (h : belowCursor cursor = some below) :
    Scan.Finds (readFrom table filters) (filters.limit.getD defaultLimit) OperationRow.newestFirst
      ((matching table filters).filter below) cursor := by
  intro answer
  unfold readFrom findByTenantWithFilters
  dsimp only
  rw [h]
  dsimp only
  refine exists_congr fun order => ?_
  have hfilter : table.rows.filter (fun op => filters.accept op && below op) =
      (matching table filters).filter below := by
    rw [matching, List.filter_filter]
    exact List.filter_congr fun op _ => Bool.and_comm ..
  have haccept : FindByTenantFilters.accept { filters with cursor } = filters.accept := rfl
  rw [haccept, Table.IsOrdered, hfilter, and_assoc]

theorem serves_readFrom (table : OperationTable) (filters : FindByTenantFilters) :
    Scan.Serves (readFrom table filters) cursorOf (filters.limit.getD defaultLimit)
      OperationRow.newestFirst boundOf (matching table filters) where
  first := by
    have h := @finds_of_below table filters none _ rfl
    rwa [List.filter_true] at h
  next op _ b hb := by
    obtain ⟨ms, hms, rfl⟩ := Option.map_eq_some_iff.mp hb
    have hbelow : belowCursor (some (cursorOf op)) =
        some fun op => decide (op.createdAt < Timestamptz.ofMs ms) := by
      unfold cursorOf
      rw [show Timestamptz.toDate op.createdAt = some ms from hms]
      rfl
    exact finds_of_below hbelow
  stuck op _ hb := by
    have hinvalid : cursorOf op = none := Option.map_eq_none_iff.mp hb
    refine ⟨.constraint "invalid input syntax", ?_⟩
    unfold readFrom findByTenantWithFilters
    dsimp only
    rw [hinvalid]
    rfl
  le_bound t b hb := by
    obtain ⟨ms, hms, rfl⟩ := Option.map_eq_some_iff.mp hb
    unfold Timestamptz.toDate Calendar.timeClip at hms
    split at hms
    · obtain rfl := Option.some.inj hms
      exact Timestamptz.ofMs_floorMs_le (OrderDual.ofDual t)
    · cases hms

/-- The milliseconds of `last` are a `Date`, and the next operation is older than them. -/
def Separates (last : Timestamptz) (next : Option Timestamptz) : Prop :=
  Calendar.IsTime last.floorMs ∧ ∀ t ∈ next, t < Timestamptz.ofMs last.floorMs

theorem exists_bound_iff (last : Timestamptz) (next : Option Timestamptz) :
    (∃ b, boundOf (OrderDual.toDual last) = some b ∧ ∀ t ∈ next, b < OrderDual.toDual t) ↔
      Separates last next := by
  have hdate : Timestamptz.toDate last =
      if Calendar.IsTime last.floorMs then some last.floorMs else none := rfl
  unfold boundOf Separates
  rw [OrderDual.ofDual_toDual, hdate]
  constructor
  · rintro ⟨b, hb, hnext⟩
    split at hb
    next htime =>
      obtain rfl := Option.some.inj hb
      exact ⟨htime, hnext⟩
    next => cases hb
  · rintro ⟨htime, hnext⟩
    rw [if_pos htime]
    exact ⟨_, rfl, hnext⟩

/-- Reading until a page is empty gives every operation once, whatever order the ties come in,
exactly if each page ends before a whole millisecond that no later row has reached. -/
theorem operation_listing_complete_iff (table : OperationTable) (filters : FindByTenantFilters)
    (hlimit : 0 < filters.limit.getD defaultLimit) :
    Scan.Completes (readFrom table filters) cursorOf (matching table filters) none [] ↔
      ∀ last next, Scan.PageEnd (filters.limit.getD defaultLimit) (creationTimes table filters)
        last next → Separates last next := by
  have hnodup : (matching table filters).Nodup :=
    (List.Nodup.of_map OperationRow.id table.primaryKey).filter _
  refine (Scan.completes_iff (serves_readFrom table filters) hlimit hnodup).trans ?_
  exact forall₂_congr fun last next => imp_congr_right fun _ => exists_bound_iff last next

def operationAt (id : String) (createdAt : Timestamptz) : OperationRow :=
  { id, tenantId := "t1", batchId := some "b1", type := "issue", state := .pending, request := .null,
    result := none, externalId := none, viewedAt := none, expiresAt := createdAt + 86400000000,
    createdAt }

def twoOperations (first second : Timestamptz) : OperationTable where
  rows := [operationAt "op1" first, operationAt "op2" second]
  primaryKey := (by decide : ["op1", "op2"].Nodup)

theorem operation_listing_complete_ms :
    Scan.Completes (readFrom (twoOperations 1700000000001900 1700000000000900)
        { tenantId := "t1", limit := some 1 }) cursorOf
      (matching (twoOperations 1700000000001900 1700000000000900)
        { tenantId := "t1", limit := some 1 }) none [] := by
  have htimes : creationTimes (twoOperations 1700000000001900 1700000000000900)
      { tenantId := "t1", limit := some 1 } = [1700000000001900, 1700000000000900] := by
    decide +kernel
  refine (operation_listing_complete_iff _ _ (by decide)).mpr ?_
  intro last next hend
  rw [htimes] at hend
  rcases Scan.pageEnd_pair hend with ⟨rfl, rfl⟩ | ⟨rfl, rfl⟩
  · refine ⟨by decide +kernel, fun t ht => ?_⟩
    obtain rfl := Option.some.inj ht
    decide +kernel
  · exact ⟨by decide +kernel, nofun⟩

/-- Of two operations of one millisecond, a page of one operation loses one. -/
theorem operation_listing_not_complete :
    ¬ ∀ (table : OperationTable) (filters : FindByTenantFilters), 0 < filters.limit.getD defaultLimit →
      Scan.Completes (readFrom table filters) cursorOf (matching table filters) none [] := by
  intro h
  have hcompletes := h (twoOperations 1700000000000900 1700000000000900)
    { tenantId := "t1", limit := some 1 } Nat.one_pos
  have hnodup : (matching (twoOperations 1700000000000900 1700000000000900)
      { tenantId := "t1", limit := some 1 }).Nodup := by
    decide +kernel
  have hserves := serves_readFrom (twoOperations 1700000000000900 1700000000000900)
    { tenantId := "t1", limit := some 1 }
  obtain ⟨b, hb, hnext⟩ := (Scan.completes_iff hserves Nat.one_pos hnodup).mp hcompletes
    (OrderDual.toDual 1700000000000900) (some (OrderDual.toDual 1700000000000900))
    ⟨1, Nat.one_pos, Or.inl (Nat.dvd_refl 1), by decide +kernel, by decide +kernel⟩
  have hbound : boundOf (OrderDual.toDual 1700000000000900) =
      some (OrderDual.toDual 1700000000000000) := by
    decide +kernel
  obtain rfl := Option.some.inj (hb.symm.trans hbound)
  exact absurd (hnext _ rfl) (by decide +kernel)

end VcCommonService.Operations
