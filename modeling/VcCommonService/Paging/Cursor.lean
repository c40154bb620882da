import Mathlib.Data.Prod.Lex
import VcCommonService.Common
import VcCommonService.Lib.Base64
import VcCommonService.Lib.JsonRoundTrip
import VcCommonService.Lib.Paging
import VcCommonService.Lib.Select
import VcCommonService.Lib.Timestamptz
import VcCommonService.Lib.Utf8
import VcCommonService.Lib.Uuid

/-!
# Pagination by `(created_at, id)` (the `list` and `findPage` methods)

Three services page in the same way: the cursor of a page is the `createdAt` and `id` of its last
row, as base64 of a JSON object, and the next query compares rows with it. The row keeps the
microseconds of `created_at`; the text in the cursor comes from a `Date`. What the
database makes of the parameters of a query is a parameter itself.
-/

namespace VcCommonService.Cursors
open Lib

/-! ### `encodeCursor` and `decodeCursor` -/

/-- A decoded cursor; the code declares two strings, which a client need not send. -/
structure Cursor where
  createdAt : Json
  id : Json
  deriving DecidableEq

def encodeCursor (cursor : Cursor) : String :=
  Base64.toBase64url (Utf8.encode
    (JsonText.stringify (.obj [("createdAt", cursor.createdAt), ("id", cursor.id)])))

def truthy : Option Json → Bool
  | none => false
  | some .null => false
  | some (.bool b) => b
  | some (.num (.finite q)) => decide (q ≠ 0)
  | some (.num n) => decide (n ≠ .nan)
  | some (.str s) => decide (s ≠ "")
  | some (.arr _) => true
  | some (.obj _) => true

def invalidCursor : ServiceError := .badRequest "Invalid pagination cursor."

def decodeCursor (raw : String) : Except ServiceError Cursor :=
  match JsonText.parse (Utf8.decode (Base64.ofBase64url raw)) with
  | some (.obj members) =>
    let createdAt := Json.get members "createdAt"
    let id := Json.get members "id"
    if truthy createdAt && truthy id then .ok ⟨createdAt.getD .null, id.getD .null⟩
    else .error invalidCursor
  | _ => .error invalidCursor

theorem decodeCursor_encodeCursor {createdAt id : String} (hcreatedAt : createdAt ≠ "")
    (hid : id ≠ "") :
    decodeCursor (encodeCursor ⟨.str createdAt, .str id⟩) = .ok ⟨.str createdAt, .str id⟩ := by
  have hnames : (["createdAt", "id"] : List String).Nodup := by decide
  have hindices : ∀ name ∈ (["createdAt", "id"] : List String), JsonText.arrayIndex name = none := by
    decide +kernel
  have hvalue : JsonText.IsValue
      (.obj (JsonText.stringMembers [("createdAt", createdAt), ("id", id)])) :=
    JsonText.isValue_stringMembers hnames
      fun m hm => hindices m.1 (List.mem_map_of_mem (f := Prod.fst) hm)
  have hparse := JsonText.parse_stringify hvalue
  unfold decodeCursor encodeCursor
  rw [Base64.ofBase64url_toBase64url _ (Utf8.encode_lt _), Utf8.decode_encode]
  change JsonText.parse (JsonText.stringify
    (.obj [("createdAt", .str createdAt), ("id", .str id)])) = _ at hparse
  rw [hparse]
  have hget : Json.get (JsonText.stringMembers [("createdAt", createdAt), ("id", id)]) "createdAt" =
      some (.str createdAt) := rfl
  have hget' : Json.get (JsonText.stringMembers [("createdAt", createdAt), ("id", id)]) "id" =
      some (.str id) := rfl
  dsimp only
  rw [hget, hget']
  simp [truthy, hcreatedAt, hid]

/-! ### The database -/

/-- How the driver writes a parameter, and how the database reads the text of one. -/
structure Driver where
  paramText : Json → String
  paramText_str : ∀ s, paramText (.str s) = s
  timestamptz : Timestamptz.Input
  castUuid : String → Option Uuid
  castUuid_text : ∀ u : Uuid, castUuid u.1 = some u

/-- `(CAST(:cursorCreatedAt AS timestamptz), CAST(:cursorId AS uuid))` -/
def Driver.cast (driver : Driver) (cursor : Cursor) : Option (Timestamptz × Uuid) := do
  let createdAt ← driver.timestamptz.cast (driver.paramText cursor.createdAt)
  let id ← driver.castUuid (driver.paramText cursor.id)
  return (createdAt, id)

/-- Only the texts that the service writes itself. -/
def isoDriver : Driver where
  paramText v := match v with
    | .str s => s
    | v => JsonText.stringify v
  paramText_str _ := rfl
  timestamptz := Timestamptz.isoInput
  castUuid s := if h : isUuid s = true then some ⟨s, h⟩ else none
  castUuid_text u := dif_pos u.2

/-! ### `findPage` and `list` -/

section Pages

variable {ρ κ : Type}

/-- What a page query reads of its table. In the order of `rank`, a row comes after a cursor when it
is above it. -/
structure Listing (ρ κ : Type) where
  createdAt : ρ → Timestamptz
  id : ρ → Uuid
  rankOf : Timestamptz → Uuid → κ

def Listing.rank (listing : Listing ρ κ) (r : ρ) : κ := listing.rankOf (listing.createdAt r) (listing.id r)

/-- `{ createdAt: last.createdAt.toISOString(), id: last.id }`; an invalid date throws. -/
def Listing.cursorOf (listing : Listing ρ κ) (last : ρ) : Except ServiceError Cursor :=
  match Calendar.toISOString (listing.createdAt last).toDate with
  | none => .error (.error "Invalid time value")
  | some text => .ok ⟨.str text, .str (listing.id last).1⟩

section Queries

variable [LinearOrder κ] (driver : Driver) (listing : Listing ρ κ)

/-- The rows that a query with this cursor finds. -/
def admitted (rows : List ρ) : Option Cursor → Except ServiceError (List ρ)
  | none => .ok rows
  | some cursor => match driver.cast cursor with
    | none => .error (.constraint "invalid input syntax")
    | some (createdAt, id) =>
      .ok (rows.filter fun r => decide (listing.rankOf createdAt id < listing.rank r))

def findPage (rows : List ρ) (limit : ℕ) (cursor : Option Cursor) :
    Except ServiceError (Paging.Page ρ Cursor) := do
  let found ← admitted driver listing rows cursor
  Paging.pageOf limit listing.cursorOf ((Table.orderBy listing.rank found).take (limit + 1))

end Queries

def Page.encode (page : Paging.Page ρ Cursor) : Paging.Page ρ String :=
  ⟨page.items, page.nextCursor.map encodeCursor, page.hasMore⟩

/-- `list` of a service, over the `findPage` of its repository. -/
def list (findPage : ℕ → Option Cursor → Except ServiceError (Paging.Page ρ Cursor))
    (limit : Option ℕ) (cursor : Option String) : Except ServiceError (Paging.Page ρ String) := do
  let decoded ← match Js.truthy cursor with
    | none => pure none
    | some raw => (decodeCursor raw).map some
  let page ← findPage (limit.getD 20) decoded
  return Page.encode page

/-! ### What following the cursors comes to -/

/-- The instant that the database reads in the cursor of a row. -/
def resumeAt (createdAt : Timestamptz) : Timestamptz := .ofMs createdAt.floorMs

def Listing.after [LinearOrder κ] (listing : Listing ρ κ) (last : ρ) : Option (ρ → Bool) :=
  if Timestamptz.IsReadable (listing.createdAt last).floorMs then
    some fun r => decide
      (listing.rankOf (resumeAt (listing.createdAt last)) (listing.id last) < listing.rank r)
  else none

def Listing.encodedCursorOf (listing : Listing ρ κ) (last : ρ) : Except ServiceError String :=
  (listing.cursorOf last).map encodeCursor

theorem pageOf_encode (listing : Listing ρ κ) (limit : ℕ) (rows : List ρ) :
    (Paging.pageOf limit listing.cursorOf rows).map Page.encode =
      Paging.pageOf limit listing.encodedCursorOf rows := by
  unfold Paging.pageOf Listing.encodedCursorOf
  dsimp only
  split
  next last _ =>
    split
    · cases listing.cursorOf last <;> rfl
    · rfl
  next => rfl

theorem cursorOf_of_isTime {listing : Listing ρ κ} {last : ρ}
    (h : Calendar.IsTime (listing.createdAt last).floorMs) :
    listing.cursorOf last =
      .ok ⟨.str (Calendar.isoText (listing.createdAt last).floorMs), .str (listing.id last).1⟩ := by
  have htext : Calendar.toISOString (listing.createdAt last).toDate =
      some (Calendar.isoText (listing.createdAt last).floorMs) := by
    rw [Timestamptz.toDate, Calendar.timeClip_of_isTime h]
    rfl
  rw [Listing.cursorOf, htext]

theorem isTime_of_cursorOf {listing : Listing ρ κ} {last : ρ} {cursor : Cursor}
    (h : listing.cursorOf last = .ok cursor) :
    Calendar.IsTime (listing.createdAt last).floorMs := by
  by_contra hinvalid
  have hdate : (listing.createdAt last).toDate = none := if_neg hinvalid
  rw [Listing.cursorOf, hdate] at h
  cases h

theorem list_first (findPage : ℕ → Option Cursor → Except ServiceError (Paging.Page ρ Cursor))
    (limit : ℕ) : list findPage (some limit) none = (findPage limit none).map Page.encode := by
  change (findPage limit none >>= fun page => .ok (Page.encode page)) = _
  cases findPage limit none <;> rfl

/-- A cursor that the service wrote is decoded to what it was made of. -/
theorem list_encoded (findPage : ℕ → Option Cursor → Except ServiceError (Paging.Page ρ Cursor))
    (limit : ℕ) {createdAt id : String} (hcreatedAt : createdAt ≠ "") (hid : id ≠ "") :
    list findPage (some limit) (some (encodeCursor ⟨.str createdAt, .str id⟩)) =
      (findPage limit (some ⟨.str createdAt, .str id⟩)).map Page.encode := by
  have hdecode := decodeCursor_encodeCursor hcreatedAt hid
  have hne : encodeCursor ⟨.str createdAt, .str id⟩ ≠ "" := by
    intro hempty
    rw [hempty] at hdecode
    cases hdecode
  unfold list
  rw [Js.truthy_some hne]
  dsimp only
  rw [hdecode]
  change (findPage limit (some ⟨.str createdAt, .str id⟩) >>= fun page => .ok (Page.encode page)) = _
  cases findPage limit (some ⟨.str createdAt, .str id⟩) <;> rfl

section Requests

variable [LinearOrder κ] (driver : Driver) (listing : Listing ρ κ)

theorem cast_cursor {createdAt : Timestamptz} (h : Calendar.IsTime createdAt.floorMs) (id : Uuid) :
    driver.cast ⟨.str (Calendar.isoText createdAt.floorMs), .str id.1⟩ =
      if Timestamptz.IsReadable createdAt.floorMs then some (resumeAt createdAt, id) else none := by
  unfold Driver.cast
  rw [driver.paramText_str, driver.paramText_str]
  split
  next hread =>
    rw [driver.timestamptz.cast_isoText _ h hread, driver.castUuid_text]
    rfl
  next hread =>
    rw [driver.timestamptz.cast_unreadable _ h hread]
    rfl

theorem list_cursorOf (rows : List ρ) (limit : ℕ) {last : ρ}
    (h : Calendar.IsTime (listing.createdAt last).floorMs) :
    ∃ cursor, listing.encodedCursorOf last = .ok cursor ∧
      list (findPage driver listing rows) (some limit) (some cursor) =
        match listing.after last with
        | none => .error (.constraint "invalid input syntax")
        | some p => Paging.pageOf limit listing.encodedCursorOf
            ((Table.orderBy listing.rank (rows.filter p)).take (limit + 1)) := by
  refine ⟨_, by rw [Listing.encodedCursorOf, cursorOf_of_isTime h]; rfl, ?_⟩
  rw [list_encoded _ limit (Calendar.isoText_ne_empty h) (listing.id last).ne_empty]
  unfold findPage admitted Listing.after
  dsimp only
  rw [cast_cursor driver h]
  by_cases hread : Timestamptz.IsReadable (listing.createdAt last).floorMs
  · rw [if_pos hread, if_pos hread]
    exact pageOf_encode ..
  · rw [if_neg hread, if_neg hread]
    rfl

/-- The requests of a reader, as the library describes them. -/
theorem serves_list (rows : List ρ) (limit : ℕ) :
    Paging.Serves (list (findPage driver listing rows) (some limit)) limit listing.encodedCursorOf
      listing.after (Table.orderBy listing.rank rows) where
  first := by
    rw [list_first]
    exact pageOf_encode ..
  next last _ p hafter := by
    have hread : Timestamptz.IsReadable (listing.createdAt last).floorMs := by
      by_contra hread
      rw [Listing.after, if_neg hread] at hafter
      cases hafter
    obtain ⟨cursor, hcursor, hlist⟩ := list_cursorOf driver listing rows limit
      (Timestamptz.isTime_of_isReadable hread)
    rw [hafter] at hlist
    refine ⟨cursor, hcursor, ?_⟩
    rw [hlist, Table.filter_orderBy]
  stuck last _ hafter cursor hcursor page hpage := by
    have htime : Calendar.IsTime (listing.createdAt last).floorMs := by
      unfold Listing.encodedCursorOf at hcursor
      cases hplain : listing.cursorOf last with
      | error e =>
        rw [hplain] at hcursor
        cases hcursor
      | ok plain => exact isTime_of_cursorOf hplain
    obtain ⟨cursor', hcursor', hlist⟩ := list_cursorOf driver listing rows limit htime
    obtain rfl := Except.ok.inj (hcursor.symm.trans hcursor')
    rw [hafter, hpage] at hlist
    cases hlist
  suffix last p hafter := by
    refine (Table.sorted_orderBy listing.rank rows).imp fun {a b} hle ha => ?_
    unfold Listing.after at hafter
    split at hafter
    · obtain rfl := Option.some.inj hafter
      exact decide_eq_true (lt_of_lt_of_le (of_decide_eq_true ha) hle)
    · cases hafter

/-- Paging is complete exactly if each full page ends in a year that the database reads, and
its cursor separates its last row from the next. -/
theorem list_enumerates_iff {rows : List ρ} (hnodup : rows.Nodup) {limit : ℕ} (hlimit : 0 < limit) :
    Paging.Enumerates (list (findPage driver listing rows) (some limit))
        (Table.orderBy listing.rank rows) ↔
      ∀ last next, Paging.Boundary limit (Table.orderBy listing.rank rows) last next →
        Timestamptz.IsReadable (listing.createdAt last).floorMs ∧
          listing.rankOf (resumeAt (listing.createdAt last)) (listing.id last) < listing.rank next ∧
          ¬ listing.rankOf (resumeAt (listing.createdAt last)) (listing.id last) <
            listing.rank last := by
  have hsorted : (Table.orderBy listing.rank rows).Nodup :=
    (Table.perm_orderBy listing.rank rows).nodup_iff.mpr hnodup
  rw [Paging.enumerates_iff (serves_list driver listing rows limit) hlimit hsorted]
  refine forall₂_congr fun last next => forall_congr' fun _ => ?_
  unfold Paging.Resumes Listing.after
  constructor
  · rintro ⟨p, hafter, hlast, hnext⟩
    split at hafter
    next hread =>
      obtain rfl := Option.some.inj hafter
      exact ⟨hread, of_decide_eq_true hnext, of_decide_eq_false hlast⟩
    next => cases hafter
  · rintro ⟨hread, hnext, hlast⟩
    exact ⟨_, if_pos hread, decide_eq_false hlast, decide_eq_true hnext⟩

end Requests

end Pages

end VcCommonService.Cursors
