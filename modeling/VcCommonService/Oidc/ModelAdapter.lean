import Mathlib.Data.List.Induction
import VcCommonService.Common
import VcCommonService.Lib.Run
import VcCommonService.Lib.Select

/-!
# The record store of the provider (`oidc-model.adapter.ts`, `oidc-purge.repository.ts`)

`OidcModelAdapter` keeps the records of the provider in `oidc_model`, one row for each model
name and id; the purge deletes rows that have expired. Seen through `find` the table is a
keyed store: a record is what its last upsert stored, until it is destroyed, revoked with its
grant or expired, and whether the purge has been there makes no difference.
-/

namespace VcCommonService.Oidc
open Lib

/-- The fields of a payload that the adapter reads or sets; `rest` are the others. -/
structure AdapterPayload (π : Type) where
  grantId : Option String := none
  userCode : Option String := none
  uid : Option String := none
  accountId : Option String := none
  consumed : Option ℤ := none
  rest : π
  deriving Repr, DecidableEq

/-- The `oidc_model` row (`oidc-model.entity.ts`). -/
structure ModelRow (π : Type) where
  id : String
  modelName : String
  oidcId : String
  payload : AdapterPayload π
  grantId : Option String
  userCode : Option String
  uid : Option String
  accountId : Option String
  expiresAt : Option Time
  consumedAt : Option Time
  deriving Repr, DecidableEq

variable {π : Type}

def ModelRow.key (r : ModelRow π) : String × String := (r.modelName, r.oidcId)

/-! ### Adapter -/

def expiryOf (expiresIn : ℤ) (now : Time) : Option Time :=
  if 0 < expiresIn then some (now + expiresIn * 1000) else none

def upsertedModel (rowId modelName id : String) (payload : AdapterPayload π) (expiresIn : ℤ)
    (now : Time) : ModelRow π :=
  { id := rowId, modelName, oidcId := id, payload, grantId := payload.grantId, userCode := payload.userCode
    uid := payload.uid, accountId := payload.accountId, expiresAt := expiryOf expiresIn now
    consumedAt := none }

@[simp] theorem upsertedModel_key (rowId modelName id : String) (payload : AdapterPayload π)
    (expiresIn : ℤ) (now : Time) :
    (upsertedModel rowId modelName id payload expiresIn now).key = (modelName, id) := rfl

/-- `INSERT … ON CONFLICT (model_name, oidc_id) DO UPDATE`; a row that is updated keeps its
own id. -/
def upsertModel (rows : List (ModelRow π)) (generatedId modelName id : String)
    (payload : AdapterPayload π) (expiresIn : ℤ) (now : Time) : List (ModelRow π) :=
  let old := Table.lookup ModelRow.key (modelName, id) rows
  Table.save ModelRow.key
    (upsertedModel ((old.map ModelRow.id).getD generatedId) modelName id payload expiresIn now) rows

/-- `payload.consumed = Math.floor(consumedAt.getTime() / 1000)`. -/
def withConsumed (payload : AdapterPayload π) : Option Time → AdapterPayload π
  | none => payload
  | some consumedAt => { payload with consumed := some (consumedAt / 1000) }

def isExpired (expiresAt : Option Time) (now : Time) : Bool :=
  expiresAt.any fun t => decide (t ≤ now)

def toPayloadIfActive (row : Option (ModelRow π)) (now : Time) : Option (AdapterPayload π) :=
  (row.filter fun r => !isExpired r.expiresAt now).map fun r => withConsumed r.payload r.consumedAt

def find (rows : List (ModelRow π)) (modelName id : String) (now : Time) :
    Option (AdapterPayload π) :=
  toPayloadIfActive (Table.lookup ModelRow.key (modelName, id) rows) now

def consumeModel (rows : List (ModelRow π)) (modelName id : String) (now : Time) :
    List (ModelRow π) :=
  Table.updateWhere (fun r => decide (r.key = (modelName, id)))
    (fun r => { r with consumedAt := some now }) rows

/-- `upstreamLogout` is how the upstream logout of a session ends. It comes first, and where it
throws the row stays. -/
def destroyModel (rows : List (ModelRow π)) (modelName id : String) (upstreamLogout : Bool) :
    List (ModelRow π) :=
  if modelName = "Session" ∧ (Table.lookup ModelRow.key (modelName, id) rows).isSome ∧
      upstreamLogout = false then rows
  else Table.deleteWhere (fun r => decide (r.key = (modelName, id))) rows

def revokeModelsByGrantId (rows : List (ModelRow π)) (modelName grantId : String) :
    List (ModelRow π) :=
  Table.deleteWhere (fun r => decide (r.modelName = modelName ∧ r.grantId = some grantId)) rows

/-! ### Purge -/

def isPurgeable (now : Time) (r : ModelRow π) : Bool := r.expiresAt.any fun t => decide (t < now)

def expiryRank (r : ModelRow π) : Time := r.expiresAt.getD 0

/-- `order` is the order in which the query meets the expired rows. The result are the rows
that are left and how many of each model were deleted. -/
def purgeExpiredBatch [DecidableEq π] (rows : List (ModelRow π)) (limit : ℕ) (now : Time)
    (order : List (ModelRow π)) : Option (List (ModelRow π) × List (String × ℕ)) :=
  if Table.IsOrdered expiryRank (isPurgeable now) rows order then
    let ids := (order.take (max 1 limit)).map ModelRow.id
    let deleted := rows.filter fun r => ids.contains r.id
    some (Table.deleteWhere (fun r => ids.contains r.id) rows,
      Table.countBy ModelRow.modelName deleted)
  else none

/-! ### Calls -/

inductive AdapterCall (π : Type) where
  | upsert (generatedId modelName id : String) (payload : AdapterPayload π) (expiresIn : ℤ)
  | find (modelName id : String)
  | consume (modelName id : String)
  | destroy (modelName id : String) (upstreamLogout : Bool)
  | revokeByGrantId (modelName grantId : String)
  | purgeExpiredBatch (limit : ℕ) (order : List (ModelRow π))

/-- Ids are drawn by the database. -/
def adapterStep [DecidableEq π] (rows : List (ModelRow π)) (c : Time × AdapterCall π) :
    Option (List (ModelRow π)) :=
  match c.2 with
  | .upsert generatedId modelName id payload expiresIn =>
    if rows.any fun r => decide (r.id = generatedId) then none
    else some (upsertModel rows generatedId modelName id payload expiresIn c.1)
  | .find _ _ => some rows
  | .consume modelName id => some (consumeModel rows modelName id c.1)
  | .destroy modelName id upstreamLogout => some (destroyModel rows modelName id upstreamLogout)
  | .revokeByGrantId modelName grantId => some (revokeModelsByGrantId rows modelName grantId)
  | .purgeExpiredBatch limit order => (purgeExpiredBatch rows limit c.1 order).map Prod.fst

/-! ### The keyed store -/

/-- What the last upsert of a key has stored and when it was consumed. -/
structure Record (π : Type) where
  payload : AdapterPayload π
  expiresAt : Option Time
  consumedAt : Option Time

/-- What a call makes of the record of one key. -/
def recordStep (modelName id : String) (record : Option (Record π)) (c : Time × AdapterCall π) :
    Option (Record π) :=
  match c.2 with
  | .upsert _ modelName' id' payload expiresIn =>
    if (modelName', id') = (modelName, id) then some ⟨payload, expiryOf expiresIn c.1, none⟩
    else record
  | .consume modelName' id' =>
    if (modelName', id') = (modelName, id) then
      record.map fun r => { r with consumedAt := some c.1 }
    else record
  | .destroy modelName' id' upstreamLogout =>
    if (modelName', id') = (modelName, id) ∧ (modelName = "Session" → upstreamLogout = true) then
      none
    else record
  | .revokeByGrantId modelName' grantId =>
    if modelName' = modelName then record.filter fun r => decide (r.payload.grantId ≠ some grantId)
    else record
  | _ => record

section Equations

variable (m i modelName id : String) (record : Option (Record π)) (now : Time)

theorem recordStep_upsert (generatedId : String) (payload : AdapterPayload π) (expiresIn : ℤ) :
    recordStep m i record (now, .upsert generatedId modelName id payload expiresIn) =
      if (modelName, id) = (m, i) then some ⟨payload, expiryOf expiresIn now, none⟩
      else record := rfl

theorem recordStep_consume :
    recordStep m i record (now, .consume modelName id) =
      if (modelName, id) = (m, i) then record.map fun r => { r with consumedAt := some now }
      else record := rfl

theorem recordStep_destroy (upstreamLogout : Bool) :
    recordStep m i record (now, .destroy modelName id upstreamLogout) =
      if (modelName, id) = (m, i) ∧ (m = "Session" → upstreamLogout = true) then none
      else record := rfl

theorem recordStep_revoke (grantId : String) :
    recordStep m i record (now, .revokeByGrantId modelName grantId) =
      if modelName = m then record.filter fun r => decide (r.payload.grantId ≠ some grantId)
      else record := rfl

end Equations

def recordOf (modelName id : String) (calls : List (Time × AdapterCall π)) : Option (Record π) :=
  calls.foldl (recordStep modelName id) none

def findRecord (record : Option (Record π)) (now : Time) : Option (AdapterPayload π) :=
  (record.filter fun r => !isExpired r.expiresAt now).map fun r => withConsumed r.payload r.consumedAt

/-! ### Refinement -/

def ModelRow.record (r : ModelRow π) : Record π := ⟨r.payload, r.expiresAt, r.consumedAt⟩

/-- A row stands for its record, and a record that has expired may have lost its row. -/
def Agrees (t : Time) (row : Option (ModelRow π)) (record : Option (Record π)) : Prop :=
  row.map ModelRow.record = record ∨
    (row = none ∧ ∃ r, record = some r ∧ isExpired r.expiresAt t = true)

/-- The table stands for the records of all keys, for lookups from `t` on. -/
structure Refines (t : Time) (rows : List (ModelRow π))
    (records : String → String → Option (Record π)) : Prop where
  ids : Table.UniqueKeys ModelRow.id rows
  keys : Table.UniqueKeys ModelRow.key rows
  grants : ∀ r ∈ rows, r.grantId = r.payload.grantId
  agrees : ∀ modelName id,
    Agrees t (Table.lookup ModelRow.key (modelName, id) rows) (records modelName id)

theorem find_of_agrees {t : Time} {row : Option (ModelRow π)} {record : Option (Record π)}
    (h : Agrees t row record) : toPayloadIfActive row t = findRecord record t := by
  rcases h with rfl | ⟨rfl, r, rfl, hexpired⟩
  · cases row with
    | none => rfl
    | some r =>
      simp only [toPayloadIfActive, findRecord, Option.map_some, Option.filter_some,
        ModelRow.record]
      split <;> rfl
  · simp [toPayloadIfActive, findRecord, hexpired]

section Step

variable {t now : Time} {rows rows' : List (ModelRow π)}
  {records : String → String → Option (Record π)} {modelName id : String}

theorem agrees_deleted {row : Option (ModelRow π)} {record : Option (Record π)}
    (h : Agrees t row record) (p : ModelRow π → Bool) (q : Record π → Bool)
    (hpq : ∀ r, row = some r → q r.record = p r) :
    Agrees t (row.filter p) (record.filter q) := by
  rcases h with rfl | ⟨rfl, r, rfl, hexpired⟩
  · refine Or.inl ?_
    cases row with
    | none => rfl
    | some r =>
      simp only [Option.map_some, Option.filter_some, hpq r rfl]
      split <;> rfl
  · rw [Option.filter_some]
    split
    · exact Or.inr ⟨rfl, r, rfl, hexpired⟩
    · exact Or.inl rfl

/-- A delete keeps the refinement when what it leaves of each key agrees with the new record. -/
theorem refines_deleteWhere {p : ModelRow π → Bool}
    {records' : String → String → Option (Record π)} (h : Refines t rows records)
    (hagrees : ∀ m i, Agrees t
      ((Table.lookup ModelRow.key (m, i) rows).filter fun r => !p r) (records' m i)) :
    Refines t (Table.deleteWhere p rows) records' := by
  refine ⟨Table.uniqueKeys_deleteWhere _ h.ids, Table.uniqueKeys_deleteWhere _ h.keys,
    fun r hr => h.grants r ((Table.mem_deleteWhere _ _ _).mp hr).1, fun m i => ?_⟩
  rw [Table.lookup_deleteWhere h.keys]
  exact hagrees m i

theorem refines_upsert (h : Refines t rows records) {generatedId : String}
    (hnew : ∀ r ∈ rows, r.id ≠ generatedId) (modelName id : String)
    (payload : AdapterPayload π) (expiresIn : ℤ) (now : Time) :
    Refines t (upsertModel rows generatedId modelName id payload expiresIn now) fun m i =>
      recordStep m i (records m i) (now, .upsert generatedId modelName id payload expiresIn) := by
  refine ⟨Table.uniqueKeys_save_col h.keys h.ids fun r hr hkey => ?_,
    Table.uniqueKeys_save _ h.keys, fun r hr => ?_, fun m i => ?_⟩
  · cases hold : Table.lookup ModelRow.key (modelName, id) rows with
    | none => exact hnew r hr
    | some old =>
      obtain ⟨hmem, hk⟩ := Table.mem_of_lookup hold
      intro hid
      exact hkey (Table.eq_of_key h.ids hr hmem hid ▸ hk)
  · rcases Table.eq_or_mem_of_mem_save hr with rfl | hr
    · rfl
    · exact h.grants r hr
  · rw [upsertModel, Table.lookup_save, upsertedModel_key, recordStep_upsert]
    by_cases hk : (modelName, id) = (m, i)
    · rw [if_pos hk, if_pos hk]
      exact Or.inl rfl
    · rw [if_neg hk, if_neg hk]
      exact h.agrees m i

theorem refines_consume (h : Refines t rows records) (modelName id : String) (now : Time) :
    Refines t (consumeModel rows modelName id now) fun m i =>
      recordStep m i (records m i) (now, .consume modelName id) := by
  have hid : ∀ r : ModelRow π, { r with consumedAt := some now }.id = r.id := fun _ => rfl
  have hkey : ∀ r : ModelRow π, { r with consumedAt := some now }.key = r.key := fun _ => rfl
  refine ⟨Table.uniqueKeys_updateWhere hid h.ids, Table.uniqueKeys_updateWhere hkey h.keys, ?_,
    fun m i => ?_⟩
  · exact Table.forall_updateWhere (fun r hr _ => h.grants r hr) fun r hr _ => h.grants r hr
  · rw [consumeModel, Table.lookup_updateWhere _ hkey]
    by_cases hk : (modelName, id) = (m, i)
    · rw [recordStep_consume, if_pos hk, hk]
      rcases h.agrees m i with he | ⟨hnone, r, he, hexpired⟩
      · rw [← he]
        refine Or.inl ?_
        cases hrow : Table.lookup ModelRow.key (m, i) rows with
        | none => rfl
        | some r => simp [(Table.mem_of_lookup hrow).2, ModelRow.record]
      · rw [hnone, he]
        exact Or.inr ⟨rfl, _, rfl, hexpired⟩
    · have hother : (Table.lookup ModelRow.key (m, i) rows).map (fun r =>
          if decide (r.key = (modelName, id)) then { r with consumedAt := some now } else r) =
          Table.lookup ModelRow.key (m, i) rows := by
        cases hrow : Table.lookup ModelRow.key (m, i) rows with
        | none => rfl
        | some r => simp [(Table.mem_of_lookup hrow).2, Ne.symm hk]
      rw [recordStep_consume, if_neg hk, hother]
      exact h.agrees m i

theorem refines_destroy (h : Refines t rows records) (modelName id : String)
    (upstreamLogout : Bool) (now : Time) :
    Refines t (destroyModel rows modelName id upstreamLogout) fun m i =>
      recordStep m i (records m i) (now, .destroy modelName id upstreamLogout) := by
  unfold destroyModel
  split
  next hfails =>
    -- the upstream logout has thrown: the row stays, and so does the record
    refine ⟨h.ids, h.keys, h.grants, fun m i => ?_⟩
    have hsame : ¬ ((modelName, id) = (m, i) ∧ (m = "Session" → upstreamLogout = true)) := by
      rintro ⟨hk, hlogout⟩
      cases hk
      rw [hlogout hfails.1] at hfails
      cases hfails.2.2
    rw [recordStep_destroy, if_neg hsame]
    exact h.agrees m i
  next hreturns =>
    refine refines_deleteWhere h fun m i => ?_
    by_cases hk : (modelName, id) = (m, i)
    · cases hk
      have hgone : (Table.lookup ModelRow.key (modelName, id) rows).filter
          (fun r => !decide (r.key = (modelName, id))) = none := by
        cases hrow : Table.lookup ModelRow.key (modelName, id) rows with
        | none => rfl
        | some r => simp [(Table.mem_of_lookup hrow).2]
      rw [hgone]
      by_cases hlogout : modelName = "Session" → upstreamLogout = true
      · rw [recordStep_destroy, if_pos ⟨rfl, hlogout⟩]
        exact Or.inl rfl
      · -- the session had no row, so nothing was logged out and nothing is lost
        obtain ⟨hsession, hfalse⟩ := Classical.not_imp.mp hlogout
        have hnone : Table.lookup ModelRow.key (modelName, id) rows = none := by
          by_contra hsome
          exact hreturns ⟨hsession, Option.isSome_iff_ne_none.mpr hsome,
            Bool.eq_false_iff.mpr hfalse⟩
        rw [recordStep_destroy, if_neg fun hboth => hlogout hboth.2]
        exact hnone ▸ h.agrees modelName id
    · have hother : (Table.lookup ModelRow.key (m, i) rows).filter
          (fun r => !decide (r.key = (modelName, id))) =
          Table.lookup ModelRow.key (m, i) rows := by
        cases hrow : Table.lookup ModelRow.key (m, i) rows with
        | none => rfl
        | some r => simp [(Table.mem_of_lookup hrow).2, Ne.symm hk]
      rw [recordStep_destroy, if_neg fun hboth => hk hboth.1, hother]
      exact h.agrees m i

theorem refines_revoke (h : Refines t rows records) (modelName grantId : String) (now : Time) :
    Refines t (revokeModelsByGrantId rows modelName grantId) fun m i =>
      recordStep m i (records m i) (now, .revokeByGrantId modelName grantId) := by
  refine refines_deleteWhere h fun m i => ?_
  have hrecord : recordStep m i (records m i) (now, .revokeByGrantId modelName grantId) =
      (records m i).filter fun r => !decide (m = modelName ∧ r.payload.grantId = some grantId) := by
    by_cases hm : modelName = m
    · simp [recordStep_revoke, hm]
    · have hkeep : (records m i).filter (fun _ => true) = records m i := by
        cases records m i <;> rfl
      simp [recordStep_revoke, hm, Ne.symm hm, hkeep]
  rw [hrecord]
  refine agrees_deleted (h.agrees m i) _ _ fun r hr => ?_
  obtain ⟨hmem, hk⟩ := Table.mem_of_lookup hr
  have hm : r.modelName = m := congrArg Prod.fst hk
  rw [ModelRow.record, hm, h.grants r hmem]

theorem refines_purge [DecidableEq π] (h : Refines t rows records) {limit : ℕ}
    {order : List (ModelRow π)} {counts : List (String × ℕ)}
    (hpurge : purgeExpiredBatch rows limit now order = some (rows', counts)) (hnow : now ≤ t) :
    Refines t rows' records := by
  unfold purgeExpiredBatch at hpurge
  split at hpurge
  next hordered =>
    cases hpurge
    refine refines_deleteWhere h fun m i => ?_
    have hagrees := h.agrees m i
    cases hrow : Table.lookup ModelRow.key (m, i) rows with
    | none =>
      rw [hrow] at hagrees
      exact hagrees
    | some r =>
      rw [hrow] at hagrees
      rw [Option.filter_some]
      split
      · exact hagrees
      next hbatch =>
        -- the row is in the batch, so it has expired by the time of the purge
        have hin : r.id ∈ (order.take (max 1 limit)).map ModelRow.id := by simpa using hbatch
        obtain ⟨q, hq, hid⟩ := List.mem_map.mp hin
        obtain ⟨hmem, hpurgeable⟩ := (hordered.mem_iff q).mp (List.mem_of_mem_take hq)
        have hexpired : isPurgeable now r = true :=
          Table.eq_of_key h.ids hmem (Table.mem_of_lookup hrow).1 hid ▸ hpurgeable
        rcases hagrees with he | ⟨hnone, -⟩
        · refine Or.inr ⟨rfl, r.record, he.symm, ?_⟩
          obtain ⟨e, he, hlt⟩ := (Option.any_eq_true _ _).mp hexpired
          exact (Option.any_eq_true _ _).mpr
            ⟨e, he, decide_eq_true ((of_decide_eq_true hlt).le.trans hnow)⟩
        · cases hnone
  · cases hpurge

theorem refines_step [DecidableEq π] (h : Refines t rows records) {c : Time × AdapterCall π}
    (hstep : adapterStep rows c = some rows') (hc : c.1 ≤ t) :
    Refines t rows' fun m i => recordStep m i (records m i) c := by
  obtain ⟨now, call⟩ := c
  cases call with
  | upsert generatedId modelName id payload expiresIn =>
    simp only [adapterStep] at hstep
    split at hstep
    · cases hstep
    next hnew =>
      cases hstep
      exact refines_upsert h (by simpa using hnew) modelName id payload expiresIn now
  | find modelName id =>
    cases hstep
    exact h
  | consume modelName id =>
    cases hstep
    exact refines_consume h modelName id now
  | destroy modelName id upstreamLogout =>
    cases hstep
    exact refines_destroy h modelName id upstreamLogout now
  | revokeByGrantId modelName grantId =>
    cases hstep
    exact refines_revoke h modelName grantId now
  | purgeExpiredBatch limit order =>
    obtain ⟨⟨rows₁, counts⟩, hpurge, rfl⟩ := Option.map_eq_some_iff.mp hstep
    exact refines_purge h hpurge hc

theorem refines_run [DecidableEq π] {calls : List (Time × AdapterCall π)}
    (h : Refines t rows records) (hrun : Run.final adapterStep rows calls = some rows')
    (ht : ∀ c ∈ calls, c.1 ≤ t) :
    Refines t rows' fun m i => calls.foldl (recordStep m i) (records m i) := by
  induction calls generalizing rows records with
  | nil =>
    cases hrun
    exact h
  | cons c calls ih =>
    obtain ⟨rows₁, hstep, hrest⟩ := Option.bind_eq_some_iff.mp hrun
    have h₁ := refines_step h hstep (ht c (List.mem_cons_self ..))
    exact ih h₁ hrest fun d hd => ht d (List.mem_cons_of_mem _ hd)

theorem refines_empty (t : Time) : Refines t ([] : List (ModelRow π)) fun _ _ => none :=
  ⟨List.nodup_nil, List.nodup_nil, by simp, fun _ _ => Or.inl rfl⟩

end Step

/-! ### The record of a key, read off the calls -/

/-- The call stores another record under the key, destroys the record or revokes its grant. -/
def Ends (modelName id : String) (grantId : Option String) : AdapterCall π → Prop
  | .upsert _ modelName' id' _ _ => (modelName', id') = (modelName, id)
  | .destroy modelName' id' upstreamLogout =>
    (modelName', id') = (modelName, id) ∧ (modelName = "Session" → upstreamLogout = true)
  | .revokeByGrantId modelName' grantId' => modelName' = modelName ∧ grantId = some grantId'
  | _ => False

def isConsume (modelName id : String) : AdapterCall π → Bool
  | .consume modelName' id' => decide ((modelName', id') = (modelName, id))
  | _ => false

def lastConsume (modelName id : String) (calls : List (Time × AdapterCall π)) : Option Time :=
  (calls.filter fun c => isConsume modelName id c.2).getLast?.map Prod.fst

/-- The key was last upserted at `stored`, and nothing in `since` has ended that record. -/
structure LastUpsert (calls : List (Time × AdapterCall π)) (modelName id : String) (stored : Time)
    (payload : AdapterPayload π) (expiresIn : ℤ) (since : List (Time × AdapterCall π)) : Prop where
  split : ∃ before generatedId,
    calls = before ++ (stored, .upsert generatedId modelName id payload expiresIn) :: since
  stands : ∀ c ∈ since, ¬ Ends modelName id payload.grantId c.2

section Reading

variable {modelName id : String} {calls since : List (Time × AdapterCall π)}
  {c : Time × AdapterCall π} {stored : Time} {payload : AdapterPayload π} {expiresIn : ℤ}

theorem lastConsume_concat (calls : List (Time × AdapterCall π)) (c : Time × AdapterCall π) :
    lastConsume modelName id (calls ++ [c]) =
      if isConsume modelName id c.2 then some c.1 else lastConsume modelName id calls := by
  unfold lastConsume
  rw [List.filter_append]
  split
  next h => simp [List.filter_cons_of_pos, h]
  next h => simp [h]

theorem lastUpsert_concat :
    LastUpsert (calls ++ [c]) modelName id stored payload expiresIn since ↔
      (since = [] ∧ ∃ generatedId, c = (stored, .upsert generatedId modelName id payload expiresIn)) ∨
      ∃ since', since = since' ++ [c] ∧ ¬ Ends modelName id payload.grantId c.2 ∧
        LastUpsert calls modelName id stored payload expiresIn since' := by
  constructor
  · rintro ⟨⟨before, generatedId, hsplit⟩, hstands⟩
    rcases List.eq_nil_or_concat since with rfl | ⟨since', d, rfl⟩
    · have hlast := (List.append_inj' hsplit rfl).2
      exact Or.inl ⟨rfl, generatedId, (List.cons.inj hlast).1⟩
    · rw [List.concat_eq_append, ← List.cons_append, ← List.append_assoc] at hsplit
      obtain ⟨hcalls, hlast⟩ := List.append_inj' hsplit rfl
      have hd : c = d := (List.cons.inj hlast).1
      subst hd
      rw [List.concat_eq_append] at hstands ⊢
      exact Or.inr ⟨since', rfl, hstands c (by simp), ⟨before, generatedId, hcalls⟩,
        fun x hx => hstands x (List.mem_append_left _ hx)⟩
  · rintro (⟨rfl, generatedId, rfl⟩ | ⟨since', rfl, hnot, ⟨before, generatedId, rfl⟩, hstands⟩)
    · exact ⟨⟨calls, generatedId, rfl⟩, by simp⟩
    · refine ⟨⟨before, generatedId, by simp⟩, fun x hx => ?_⟩
      rcases List.mem_append.mp hx with hx | hx
      · exact hstands x hx
      · rw [List.mem_singleton.mp hx]
        exact hnot

/-- What a call that is not an upsert of the key leaves of a record. -/
def Left (modelName id : String) (c : Time × AdapterCall π) (r₀ r : Record π) : Prop :=
  ¬ Ends modelName id r₀.payload.grantId c.2 ∧
    r = { r₀ with consumedAt := if isConsume modelName id c.2 then some c.1 else r₀.consumedAt }

theorem left_of_quiet {r₀ r : Record π} (hends : ¬ Ends modelName id r₀.payload.grantId c.2)
    (hconsume : isConsume modelName id c.2 = false) :
    some r₀ = some r ↔ Left modelName id c r₀ r := by
  simp only [Left, hends, not_false_eq_true, true_and, hconsume, Bool.false_eq_true, if_false]
  exact Option.some_inj.trans eq_comm

theorem left_of_ends {r₀ r : Record π} (hends : Ends modelName id r₀.payload.grantId c.2) :
    none = some r ↔ Left modelName id c r₀ r :=
  iff_of_false nofun fun hleft => hleft.1 hends

theorem recordStep_left (hother : ∀ generatedId payload expiresIn,
    c.2 ≠ .upsert generatedId modelName id payload expiresIn) (r₀ r : Record π) :
    recordStep modelName id (some r₀) c = some r ↔ Left modelName id c r₀ r := by
  obtain ⟨now, call⟩ := c
  cases call with
  | upsert generatedId modelName' id' payload expiresIn =>
    have hk : ¬ (modelName', id') = (modelName, id) := by
      intro hk
      cases hk
      exact hother generatedId payload expiresIn rfl
    rw [recordStep_upsert, if_neg hk]
    exact left_of_quiet hk rfl
  | find modelName' id' => exact left_of_quiet not_false rfl
  | consume modelName' id' =>
    rw [recordStep_consume]
    by_cases hk : (modelName', id') = (modelName, id)
    · have hconsume : isConsume modelName id (AdapterCall.consume modelName' id' : AdapterCall π) =
          true := decide_eq_true hk
      rw [if_pos hk, Option.map_some, Left, hconsume, if_pos rfl]
      exact Option.some_inj.trans (eq_comm.trans (and_iff_right not_false).symm)
    · rw [if_neg hk]
      exact left_of_quiet not_false (decide_eq_false hk)
  | destroy modelName' id' upstreamLogout =>
    rw [recordStep_destroy]
    by_cases hd : (modelName', id') = (modelName, id) ∧
        (modelName = "Session" → upstreamLogout = true)
    · rw [if_pos hd]
      exact left_of_ends hd
    · rw [if_neg hd]
      exact left_of_quiet hd rfl
  | revokeByGrantId modelName' grantId =>
    rw [recordStep_revoke]
    by_cases hm : modelName' = modelName
    · by_cases hg : r₀.payload.grantId = some grantId
      · rw [if_pos hm, Option.filter_some, decide_eq_false (not_not.mpr hg), if_neg nofun]
        exact left_of_ends ⟨hm, hg⟩
      · rw [if_pos hm, Option.filter_some, decide_eq_true hg, if_pos rfl]
        exact left_of_quiet (fun hends => hg hends.2) rfl
    · rw [if_neg hm]
      exact left_of_quiet (fun hends => hm hends.1) rfl
  | purgeExpiredBatch limit order => exact left_of_quiet not_false rfl

theorem recordStep_none (hother : ∀ generatedId payload expiresIn,
    c.2 ≠ .upsert generatedId modelName id payload expiresIn) :
    recordStep modelName id none c = none := by
  obtain ⟨now, call⟩ := c
  cases call with
  | upsert generatedId modelName' id' payload expiresIn =>
    rw [recordStep_upsert, if_neg]
    intro hk
    cases hk
    exact hother generatedId payload expiresIn rfl
  | consume modelName' id' =>
    rw [recordStep_consume]
    split <;> rfl
  | destroy modelName' id' upstreamLogout =>
    rw [recordStep_destroy]
    split <;> rfl
  | revokeByGrantId modelName' grantId =>
    rw [recordStep_revoke]
    split <;> rfl
  | find modelName' id' => rfl
  | purgeExpiredBatch limit order => rfl

/-- The record of a key is what its last upsert stored, with the last consumption since. -/
theorem recordOf_eq_some_iff {r : Record π} :
    recordOf modelName id calls = some r ↔
      ∃ stored payload expiresIn since,
        LastUpsert calls modelName id stored payload expiresIn since ∧
        r = ⟨payload, expiryOf expiresIn stored, lastConsume modelName id since⟩ := by
  induction calls using List.reverseRecOn generalizing r with
  | nil =>
    refine iff_of_false nofun ?_
    rintro ⟨stored, payload, expiresIn, since, ⟨⟨before, generatedId, hsplit⟩, -⟩, -⟩
    simp at hsplit
  | append_singleton calls c ih =>
    have hstep : recordOf modelName id (calls ++ [c]) =
        recordStep modelName id (recordOf modelName id calls) c := by
      simp [recordOf, List.foldl_append]
    rw [hstep]
    by_cases hupsert : ∃ generatedId payload expiresIn,
        c.2 = .upsert generatedId modelName id payload expiresIn
    · obtain ⟨generatedId, payload, expiresIn, hc⟩ := hupsert
      obtain ⟨now, call⟩ := c
      cases hc
      rw [recordStep_upsert, if_pos rfl]
      constructor
      · intro h
        cases h
        exact ⟨now, payload, expiresIn, [], lastUpsert_concat.mpr (Or.inl ⟨rfl, generatedId, rfl⟩), rfl⟩
      · rintro ⟨stored, payload', expiresIn', since, hlast, rfl⟩
        rcases lastUpsert_concat.mp hlast with ⟨rfl, _, hc⟩ | ⟨since', -, hnot, -⟩
        · cases hc
          rfl
        · exact absurd rfl hnot
    · have hother : ∀ generatedId payload expiresIn,
          c.2 ≠ .upsert generatedId modelName id payload expiresIn :=
        fun generatedId payload expiresIn h => hupsert ⟨generatedId, payload, expiresIn, h⟩
      constructor
      · intro h
        cases hold : recordOf modelName id calls with
        | none =>
          rw [hold, recordStep_none hother] at h
          cases h
        | some r₀ =>
          rw [hold, recordStep_left hother] at h
          obtain ⟨stored, payload, expiresIn, since, hlast, rfl⟩ := ih.mp hold
          refine ⟨stored, payload, expiresIn, since ++ [c],
            lastUpsert_concat.mpr (Or.inr ⟨since, rfl, h.1, hlast⟩), ?_⟩
          rw [lastConsume_concat]
          exact h.2
      · rintro ⟨stored, payload, expiresIn, since, hlast, rfl⟩
        rcases lastUpsert_concat.mp hlast with ⟨-, generatedId, hc⟩ | ⟨since', rfl, hnot, hlast'⟩
        · exact absurd (congrArg Prod.snd hc) (hother generatedId payload expiresIn)
        · rw [ih.mpr ⟨stored, payload, expiresIn, since', hlast', rfl⟩, recordStep_left hother,
            lastConsume_concat]
          exact ⟨hnot, rfl⟩

theorem isExpired_expiryOf (expiresIn : ℤ) (stored now : Time) :
    isExpired (expiryOf expiresIn stored) now = false ↔
      (0 < expiresIn → now < stored + expiresIn * 1000) := by
  unfold expiryOf
  split
  next h => simp [isExpired, h]
  next h => simp [isExpired, h]

theorem findRecord_eq_some_iff {now : Time} {p : AdapterPayload π} :
    findRecord (recordOf modelName id calls) now = some p ↔
      ∃ stored payload expiresIn since,
        LastUpsert calls modelName id stored payload expiresIn since ∧
        (0 < expiresIn → now < stored + expiresIn * 1000) ∧
        p = withConsumed payload (lastConsume modelName id since) := by
  simp only [findRecord, Option.map_eq_some_iff, Option.filter_eq_some_iff, Bool.not_eq_true']
  constructor
  · rintro ⟨r, ⟨hr, hlive⟩, rfl⟩
    obtain ⟨stored, payload, expiresIn, since, hlast, rfl⟩ := recordOf_eq_some_iff.mp hr
    exact ⟨stored, payload, expiresIn, since, hlast,
      (isExpired_expiryOf expiresIn stored now).mp hlive, rfl⟩
  · rintro ⟨stored, payload, expiresIn, since, hlast, hlive, rfl⟩
    exact ⟨_, ⟨recordOf_eq_some_iff.mpr ⟨stored, payload, expiresIn, since, hlast, rfl⟩,
      (isExpired_expiryOf expiresIn stored now).mpr hlive⟩, rfl⟩

end Reading

/-! ### Other keys and the purge -/

/-- The calls that can matter to a key: its own, and revocations of grants of its model. -/
def touches (modelName id : String) : AdapterCall π → Bool
  | .upsert _ modelName' id' _ _ => decide ((modelName', id') = (modelName, id))
  | .consume modelName' id' => decide ((modelName', id') = (modelName, id))
  | .destroy modelName' id' _ => decide ((modelName', id') = (modelName, id))
  | .revokeByGrantId modelName' _ => decide (modelName' = modelName)
  | _ => false

theorem recordStep_untouched {modelName id : String} {c : Time × AdapterCall π}
    (h : touches modelName id c.2 = false) (record : Option (Record π)) :
    recordStep modelName id record c = record := by
  obtain ⟨now, call⟩ := c
  cases call with
  | upsert generatedId modelName' id' payload expiresIn =>
    rw [recordStep_upsert, if_neg (of_decide_eq_false h)]
  | consume modelName' id' => rw [recordStep_consume, if_neg (of_decide_eq_false h)]
  | destroy modelName' id' upstreamLogout =>
    rw [recordStep_destroy, if_neg fun hd => of_decide_eq_false h hd.1]
  | revokeByGrantId modelName' grantId => rw [recordStep_revoke, if_neg (of_decide_eq_false h)]
  | find modelName' id' => rfl
  | purgeExpiredBatch limit order => rfl

theorem recordOf_filter_touches (modelName id : String) (calls : List (Time × AdapterCall π)) :
    recordOf modelName id (calls.filter fun c => touches modelName id c.2) =
      recordOf modelName id calls := by
  have hfold : ∀ record : Option (Record π),
      (calls.filter fun c => touches modelName id c.2).foldl (recordStep modelName id) record =
        calls.foldl (recordStep modelName id) record := by
    induction calls with
    | nil => exact fun _ => rfl
    | cons c calls ih =>
      intro record
      by_cases h : touches modelName id c.2 = true
      · rw [List.filter_cons, if_pos h, List.foldl_cons, List.foldl_cons, ih]
      · rw [List.filter_cons, if_neg h, List.foldl_cons,
          recordStep_untouched (Bool.eq_false_iff.mpr h), ih]
  exact hfold none

theorem find_eq_findRecord [DecidableEq π] {calls : List (Time × AdapterCall π)}
    {rows : List (ModelRow π)} (hrun : Run.final adapterStep [] calls = some rows) {t : Time}
    (ht : ∀ c ∈ calls, c.1 ≤ t) (modelName id : String) :
    find rows modelName id t = findRecord (recordOf modelName id calls) t :=
  find_of_agrees ((refines_run (refines_empty t) hrun ht).agrees modelName id)

def codePayload : AdapterPayload Unit := { grantId := some "g", rest := () }

end VcCommonService.Oidc
