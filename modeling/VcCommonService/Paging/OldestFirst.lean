import VcCommonService.Paging.Cursor
import VcCommonService.Tenant.Model
import VcCommonService.TenantUser.Model

/-!
# Lists from the oldest row on (`tenant.repository.ts`, `tenant-user.repository.ts`)

`TenantService.list` and `TenantUserService.list` order by `(created_at, id)` ascending. The cursor of
a page is its last row with the microseconds cut off, so a row with microseconds is admitted
by its own cursor.
-/

namespace VcCommonService.Cursors
open Lib

/-! ### `tenant-user.repository.ts` -/

structure TenantUserRow extends TenantUsers.TenantUser where
  uuid : isUuid id = true
  createdAt : Timestamptz

structure TenantUserTable where
  rows : List TenantUserRow
  uniqueIds : Table.UniqueKeys (fun r => r.id) rows

/-- `ORDER BY created_at ASC, id ASC`, and `(created_at, id) > cursor`. -/
def TenantUserRow.oldestFirst : Listing TenantUserRow (Timestamptz ×ₗ Uuid) where
  createdAt := TenantUserRow.createdAt
  id r := ⟨r.id, r.uuid⟩
  rankOf createdAt id := toLex (createdAt, id)

def usersOf (table : TenantUserTable) (tenantId : TenantId) : List TenantUserRow :=
  table.rows.filter fun tenantUser => decide (tenantUser.tenantId = tenantId)

def TenantUserTable.findPageForTenant (driver : Driver) (table : TenantUserTable)
    (tenantId : TenantId) (limit : ℕ) (cursor : Option Cursor) :
    Except ServiceError (Paging.Page TenantUserRow Cursor) :=
  findPage driver TenantUserRow.oldestFirst (usersOf table tenantId) limit cursor

def TenantUserTable.list (driver : Driver) (table : TenantUserTable) (tenantId : TenantId)
    (limit : Option ℕ) (cursor : Option String) :
    Except ServiceError (Paging.Page TenantUserRow String) :=
  Cursors.list (table.findPageForTenant driver tenantId) limit cursor

/-! ### `tenant.repository.ts` -/

structure TenantRow extends Tenants.Tenant where
  uuid : isUuid id = true
  createdAt : Timestamptz
  deletedAt : Option Timestamptz

structure TenantTable where
  rows : List TenantRow
  uniqueIds : Table.UniqueKeys (fun r => r.id) rows

def TenantRow.oldestFirst : Listing TenantRow (Timestamptz ×ₗ Uuid) where
  createdAt := TenantRow.createdAt
  id r := ⟨r.id, r.uuid⟩
  rankOf createdAt id := toLex (createdAt, id)

/-- A query through the repository leaves out the rows with a `deletedAt`. -/
def TenantTable.kept (table : TenantTable) : List TenantRow :=
  table.rows.filter fun tenant => tenant.deletedAt.isNone

def TenantTable.findPage (driver : Driver) (table : TenantTable) (limit : ℕ)
    (cursor : Option Cursor) : Except ServiceError (Paging.Page TenantRow Cursor) :=
  Cursors.findPage driver TenantRow.oldestFirst table.kept limit cursor

def TenantTable.list (driver : Driver) (table : TenantTable) (limit : Option ℕ)
    (cursor : Option String) : Except ServiceError (Paging.Page TenantRow String) :=
  Cursors.list (table.findPage driver) limit cursor

/-! ### Rows that their own cursor admits -/

def IsWholeMs (t : Timestamptz) : Prop := resumeAt t = t

instance : DecidablePred IsWholeMs := fun t => inferInstanceAs (Decidable (resumeAt t = t))

section Ascending

variable {ρ : Type} (listing : Listing ρ (Timestamptz ×ₗ Uuid))

/-- Where the order is that of `(created_at, id)`, a cursor passes its own row by exactly if the row
has no microseconds. -/
theorem rankOf_lt_rank_self_iff (hlisting : listing.rankOf = fun createdAt id => toLex (createdAt, id))
    (last : ρ) :
    listing.rankOf (resumeAt (listing.createdAt last)) (listing.id last) < listing.rank last ↔
      ¬ IsWholeMs (listing.createdAt last) := by
  rw [Listing.rank, hlisting, Prod.Lex.toLex_lt_toLex]
  have hle := Timestamptz.ofMs_floorMs_le (listing.createdAt last)
  constructor
  · rintro (hlt | ⟨-, hid⟩)
    · exact hlt.ne
    · exact absurd hid (lt_irrefl _)
  · intro hne
    exact Or.inl (lt_of_le_of_ne hle hne)

/-- The rows of a boundary are two of the list, in its order. -/
theorem rank_lt_of_boundary {κ : Type} [LinearOrder κ] (listing : Listing ρ κ) {rows : List ρ}
    (hrank : (rows.map listing.rank).Nodup) {limit : ℕ} {last next : ρ}
    (h : Paging.Boundary limit (Table.orderBy listing.rank rows) last next) :
    listing.rank last < listing.rank next := by
  obtain ⟨m, hm, -, hlast, hnext⟩ := h
  have hperm := Table.perm_orderBy listing.rank rows
  have hnodup : ((Table.orderBy listing.rank rows).map listing.rank).Nodup :=
    (hperm.map listing.rank).nodup_iff.mpr hrank
  have hsorted := Table.sorted_orderBy listing.rank rows
  obtain ⟨hmlt, rfl⟩ := List.getElem?_eq_some_iff.mp hnext
  obtain ⟨hlt, rfl⟩ := List.getElem?_eq_some_iff.mp hlast
  have hle := List.pairwise_iff_getElem.mp hsorted (m - 1) m hlt hmlt (by omega)
  refine lt_of_le_of_ne hle fun heq => ?_
  rw [← List.getElem_map listing.rank (h := by rwa [List.length_map]),
    ← List.getElem_map listing.rank (h := by rwa [List.length_map])] at heq
  have hindex := hnodup.getElem_inj_iff.mp heq
  omega

theorem list_ascending_iff (driver : Driver)
    (hlisting : listing.rankOf = fun createdAt id => toLex (createdAt, id)) {rows : List ρ}
    (hids : (rows.map listing.id).Nodup) {limit : ℕ} (hlimit : 0 < limit) :
    Paging.Enumerates (list (findPage driver listing rows) (some limit))
        (Table.orderBy listing.rank rows) ↔
      ∀ last next, Paging.Boundary limit (Table.orderBy listing.rank rows) last next →
        Timestamptz.IsReadable (listing.createdAt last).floorMs ∧
          IsWholeMs (listing.createdAt last) := by
  have hrank : (rows.map listing.rank).Nodup := by
    refine List.Nodup.of_map (fun k => (ofLex k).2) ?_
    rw [List.map_map]
    have hsnd : (fun k => (ofLex k).2) ∘ listing.rank = listing.id := by
      funext r
      rw [Function.comp_apply, Listing.rank, hlisting]
      rfl
    rwa [hsnd]
  refine (list_enumerates_iff driver listing (List.Nodup.of_map _ hids) hlimit).trans ?_
  refine forall₂_congr fun last next => forall_congr' fun hboundary => and_congr_right fun _ => ?_
  have hself := rankOf_lt_rank_self_iff listing hlisting last
  constructor
  · rintro ⟨-, hlast⟩
    exact not_not.mp (mt hself.mpr hlast)
  · intro hwhole
    refine ⟨?_, fun hlt => hself.mp hlt hwhole⟩
    rw [hwhole]
    exact rank_lt_of_boundary listing hrank hboundary

end Ascending

/-! ### The two lists -/

/-- Every row of the tenant, the oldest first. -/
def usersInOrder (table : TenantUserTable) (tenantId : TenantId) : List TenantUserRow :=
  Table.orderBy TenantUserRow.oldestFirst.rank (usersOf table tenantId)

def TenantTable.inOrder (table : TenantTable) : List TenantRow :=
  Table.orderBy TenantRow.oldestFirst.rank table.kept

theorem nodup_usersOf (table : TenantUserTable) (tenantId : TenantId) :
    ((usersOf table tenantId).map TenantUserRow.oldestFirst.id).Nodup := by
  refine List.Nodup.of_map Subtype.val ?_
  rw [List.map_map]
  exact table.uniqueIds.sublist (List.filter_sublist.map _)

theorem nodup_kept (table : TenantTable) : (table.kept.map TenantRow.oldestFirst.id).Nodup := by
  refine List.Nodup.of_map Subtype.val ?_
  rw [List.map_map]
  exact table.uniqueIds.sublist (List.filter_sublist.map _)

/-- Following the cursors ends with every row seen once and in order exactly if each full page that
is not the last ends in a row without microseconds, of a year that the database reads. -/
theorem lists_complete_iff (driver : Driver) {limit : ℕ} (hlimit : 0 < limit) :
    (∀ table tenantId,
      Paging.Enumerates (TenantUserTable.list driver table tenantId (some limit))
          (usersInOrder table tenantId) ↔
        ∀ last next, Paging.Boundary limit (usersInOrder table tenantId) last next →
          Timestamptz.IsReadable last.createdAt.floorMs ∧ IsWholeMs last.createdAt) ∧
      ∀ table,
        Paging.Enumerates (TenantTable.list driver table (some limit)) table.inOrder ↔
          ∀ last next, Paging.Boundary limit table.inOrder last next →
            Timestamptz.IsReadable last.createdAt.floorMs ∧ IsWholeMs last.createdAt := by
  constructor
  · intro table tenantId
    exact list_ascending_iff TenantUserRow.oldestFirst driver rfl (nodup_usersOf table tenantId) hlimit
  · intro table
    exact list_ascending_iff TenantRow.oldestFirst driver rfl (nodup_kept table) hlimit

def userAt (id : Uuid) (createdAt : Timestamptz) : TenantUserRow :=
  { id := id.1, uuid := id.isUuid_val, tenantId := "t1", externalUserId := none, email := "u@example.org",
    displayName := none, role := .member, status := .active, createdAt }

def twoUsers (first second : Timestamptz) : TenantUserTable where
  rows := [userAt Uuid.nil first, userAt Uuid.max second]
  uniqueIds := by
    refine List.nodup_cons.mpr ⟨fun h => ?_, List.nodup_singleton _⟩
    exact Uuid.nil_ne_max (Subtype.ext (List.mem_singleton.mp h))

def tenantAt (id : Uuid) (createdAt : Timestamptz) : TenantRow :=
  { id := id.1, uuid := id.isUuid_val, name := "Acme", slug := "acme", description := none, status := .active,
    config := [], deactivatedAt := none, createdAt, deletedAt := none }

def twoTenants (first second : Timestamptz) : TenantTable where
  rows := [tenantAt Uuid.nil first, tenantAt Uuid.max second]
  uniqueIds := by
    refine List.nodup_cons.mpr ⟨fun h => ?_, List.nodup_singleton _⟩
    exact Uuid.nil_ne_max (Subtype.ext (List.mem_singleton.mp h))

/-- Rows of whole milliseconds, a page each. -/
theorem lists_complete_ms :
    Paging.Enumerates (TenantUserTable.list isoDriver
        (twoUsers 1700000000000000 1700000000001000) "t1" (some 1))
      (usersInOrder (twoUsers 1700000000000000 1700000000001000) "t1") ∧
    Paging.Enumerates (TenantTable.list isoDriver
        (twoTenants 1700000000000000 1700000000001000) (some 1))
      (twoTenants 1700000000000000 1700000000001000).inOrder := by
  have husers : usersInOrder (twoUsers 1700000000000000 1700000000001000) "t1" =
      [userAt Uuid.nil 1700000000000000, userAt Uuid.max 1700000000001000] :=
    Table.orderBy_pair (by decide +kernel)
  have htenants : (twoTenants 1700000000000000 1700000000001000).inOrder =
      [tenantAt Uuid.nil 1700000000000000, tenantAt Uuid.max 1700000000001000] :=
    Table.orderBy_pair (by decide +kernel)
  obtain ⟨hlist, hlist'⟩ := lists_complete_iff isoDriver Nat.one_pos
  refine ⟨(hlist _ "t1").mpr ?_, (hlist' _).mpr ?_⟩
  · intro last next hboundary
    rw [husers] at hboundary
    obtain ⟨rfl, rfl⟩ := Paging.boundary_pair hboundary
    decide +kernel
  · intro last next hboundary
    rw [htenants] at hboundary
    obtain ⟨rfl, rfl⟩ := Paging.boundary_pair hboundary
    decide +kernel

/-- A tenant with microseconds, and a limit of one row: the reader gets the first page for ever. -/
theorem tenant_list_not_complete :
    ¬ ∀ (driver : Driver) (table : TenantTable) (limit : ℕ), 0 < limit →
      Paging.Enumerates (TenantTable.list driver table (some limit)) table.inOrder := by
  intro h
  have hnodup := nodup_kept (twoTenants 1700000000000001 1700000000001000)
  have hrows : (twoTenants 1700000000000001 1700000000001000).inOrder =
      [tenantAt Uuid.nil 1700000000000001, tenantAt Uuid.max 1700000000001000] :=
    Table.orderBy_pair (by decide +kernel)
  have henumerates := h isoDriver (twoTenants 1700000000000001 1700000000001000) 1 Nat.one_pos
  have hwhole := (list_ascending_iff TenantRow.oldestFirst isoDriver rfl hnodup Nat.one_pos).mp
    henumerates (tenantAt Uuid.nil 1700000000000001) (tenantAt Uuid.max 1700000000001000)
    ⟨1, Nat.one_pos, Nat.dvd_refl 1, congrArg (·[0]?) hrows, congrArg (·[1]?) hrows⟩
  exact absurd hwhole.2 (by decide +kernel)

end VcCommonService.Cursors
