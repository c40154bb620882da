import VcCommonService.Connection.Service

/-!
# Connections of one tenant among those of others

Identifiers tell whose a row is; every statement keeps that, and one about another tenant's row
leaves the tenant's rows.
-/

namespace VcCommonService.Connections

open Lib Auth

/-! ### Rows of a tenant -/

def Caller.tenant : Caller → Option TenantId
  | .token auth => auth.tenantId
  | .worker tenantId => some tenantId

def mine (A : TenantId) (call : Call) : Bool := decide (call.caller.tenant = some A)

def ofTenant (A : TenantId) (c : Connection) : Bool := decide (c.tenantId = A)

/-- `mineId` and `mineExt` tell which identifiers are the tenant's. -/
structure Placed (A : TenantId) (mineId : Uuid → Prop) (mineExt : String → Prop)
    (c : Connection) : Prop where
  id : c.tenantId = A ↔ mineId c.id
  ext : c.tenantId = A ↔ mineExt c.externalConnectionId

def AllPlaced (A : TenantId) (mineId : Uuid → Prop) (mineExt : String → Prop)
    (connections : List Connection) : Prop :=
  ∀ c ∈ connections, Placed A mineId mineExt c

section Rows

variable {A : TenantId} {mineId : Uuid → Prop} {mineExt : String → Prop} {t u : List Connection}

theorem find_filter {q : Connection → Bool} (h : ∀ c ∈ t, q c = true → c.tenantId = A) :
    (t.filter (ofTenant A)).find? q = t.find? q := by
  induction t with
  | nil => rfl
  | cons c t ih =>
    obtain ⟨hc, ht⟩ := List.forall_mem_cons.mp h
    have ih := ih ht
    by_cases hA : c.tenantId = A
    · have hof : ofTenant A c = true := decide_eq_true hA
      rw [List.filter_cons_of_pos hof, List.find?_cons, List.find?_cons, ih]
    · have hq : ¬ q c = true := fun hq => hA (hc hq)
      rw [List.filter_cons_of_neg (by simp [ofTenant, hA]), List.find?_cons_of_neg hq, ih]

theorem any_filter {q : Connection → Bool} (h : ∀ c ∈ t, q c = true → c.tenantId = A) :
    (t.filter (ofTenant A)).any q = t.any q := by
  rw [Bool.eq_iff_iff, List.any_eq_true, List.any_eq_true]
  constructor
  · rintro ⟨c, hc, hq⟩
    exact ⟨c, (List.mem_filter.mp hc).1, hq⟩
  · rintro ⟨c, hc, hq⟩
    exact ⟨c, List.mem_filter.mpr ⟨hc, decide_eq_true (h c hc hq)⟩, hq⟩

theorem any_view {q : Connection → Bool} (hview : t.filter (ofTenant A) = u.filter (ofTenant A))
    (ht : ∀ c ∈ t, q c = true → c.tenantId = A) (hu : ∀ c ∈ u, q c = true → c.tenantId = A) :
    u.any q = t.any q := by
  rw [← any_filter ht, ← any_filter hu, hview]

theorem find_view {q : Connection → Bool} (hview : t.filter (ofTenant A) = u.filter (ofTenant A))
    (ht : ∀ c ∈ t, q c = true → c.tenantId = A) (hu : ∀ c ∈ u, q c = true → c.tenantId = A) :
    u.find? q = t.find? q := by
  rw [← find_filter ht, ← find_filter hu, hview]

theorem countP_filter_tenant {q : Connection → Bool} (h : ∀ c ∈ t, q c = true → c.tenantId = A) :
    (t.filter (ofTenant A)).countP q = t.countP q := by
  rw [List.countP_filter]
  refine List.countP_congr fun c hc => ?_
  simp only [Bool.and_eq_true, and_iff_left_iff_imp]
  exact fun hq => decide_eq_true (h c hc hq)

theorem AllPlaced.of_id (h : AllPlaced A mineId mineExt t) {id : Uuid} (hid : mineId id) :
    ∀ c ∈ t, decide (c.id = id) = true → c.tenantId = A := by
  intro c hc hq
  exact (h c hc).id.mpr (of_decide_eq_true hq ▸ hid)

theorem AllPlaced.of_ext (h : AllPlaced A mineId mineExt t) {ext : String} (hext : mineExt ext) :
    ∀ c ∈ t, decide (c.externalConnectionId = ext) = true → c.tenantId = A := by
  intro c hc hq
  exact (h c hc).ext.mpr (of_decide_eq_true hq ▸ hext)

theorem filter_updateWhere {p : Connection → Bool} {f : Connection → Connection}
    (h : ∀ c ∈ t, p c = true → ((f c).tenantId = A ↔ c.tenantId = A)) :
    (Table.updateWhere p f t).filter (ofTenant A) =
      Table.updateWhere p f (t.filter (ofTenant A)) :=
  Table.filter_updateWhere fun c hc hp => decide_eq_decide.mpr (h c hc hp)

theorem updateWhere_other {p : Connection → Bool} {f : Connection → Connection}
    (h : ∀ c ∈ t, p c = true → c.tenantId ≠ A ∧ (f c).tenantId ≠ A) :
    (Table.updateWhere p f t).filter (ofTenant A) = t.filter (ofTenant A) := by
  rw [filter_updateWhere fun c hc hp => iff_of_false (h c hc hp).2 (h c hc hp).1]
  refine (List.map_congr_left fun c hc => ?_).trans (List.map_id _)
  obtain ⟨hmem, hA⟩ := List.mem_filter.mp hc
  have hp : ¬ p c = true := fun hp => (h c hmem hp).1 (of_decide_eq_true hA)
  rw [if_neg hp]
  rfl

/-! ### Statements -/

theorem placed_writeColumns (row : Connection) {entity current : Connection} (hid : current.id = entity.id)
    (hentity : Placed A mineId mineExt entity) (hcurrent : Placed A mineId mineExt current) :
    Placed A mineId mineExt (writeColumns row entity current) ∧
      ((writeColumns row entity current).tenantId = A ↔ current.tenantId = A) := by
  have htenant : (writeColumns row entity current).tenantId = A ↔ mineId current.id := by
    simp only [writeColumns, Table.written]
    split
    · exact hcurrent.id
    · rw [hid]
      exact hentity.id
  have hext : mineExt (writeColumns row entity current).externalConnectionId ↔
      mineId current.id := by
    simp only [writeColumns, Table.written]
    split
    · rw [← hcurrent.ext, hcurrent.id]
    · rw [← hentity.ext, hentity.id, hid]
  exact ⟨⟨htenant, htenant.trans hext.symm⟩, htenant.trans hcurrent.id.symm⟩

theorem findById_some {id : Uuid} {c : Connection} (h : findById t id = some c) :
    c ∈ t ∧ c.id = id := by
  have hid := List.find?_some h
  exact ⟨List.mem_of_find?_eq_some h, of_decide_eq_true hid⟩

theorem placed_insert {t' : List Connection} {c : Connection} (h : insert t c = .ok t')
    (ht : AllPlaced A mineId mineExt t) (hc : Placed A mineId mineExt c) :
    AllPlaced A mineId mineExt t' ∧
      (c.tenantId ≠ A → t'.filter (ofTenant A) = t.filter (ofTenant A)) := by
  unfold insert at h
  cases hcheck : checkUnique t c with
  | error e =>
    rw [hcheck] at h
    cases h
  | ok u =>
    rw [hcheck] at h
    cases h
    refine ⟨List.forall_mem_append.mpr ⟨ht, List.forall_mem_singleton.mpr hc⟩, fun hA => ?_⟩
    have hnone : [c].filter (ofTenant A) = [] := by simp [ofTenant, hA]
    rw [List.filter_append, hnone, List.append_nil]

theorem placed_update {t' : List Connection} {row entity : Connection}
    (h : update t row entity = .ok t') (ht : AllPlaced A mineId mineExt t)
    (hentity : Placed A mineId mineExt entity) :
    AllPlaced A mineId mineExt t' ∧
      (entity.tenantId ≠ A → t'.filter (ofTenant A) = t.filter (ofTenant A)) := by
  unfold update at h
  split at h
  · cases h
    exact ⟨ht, fun _ => rfl⟩
  next current hfind =>
  obtain ⟨hmem, hid⟩ := findById_some hfind
  obtain ⟨hplaced, htenant⟩ := placed_writeColumns row hid hentity (ht current hmem)
  dsimp only at h
  split at h
  · cases h
  · cases h
    refine ⟨fun c hc => ?_, fun hA => updateWhere_other fun c hc hp => ?_⟩
    · obtain ⟨c', hc', rfl⟩ := List.mem_map.mp hc
      split
      · exact hplaced
      · exact ht c' hc'
    · have hother : ¬ mineId entity.id := fun hmine => hA (hentity.id.mpr hmine)
      have hcid : c.id = entity.id := of_decide_eq_true hp
      have hcurrent : current.tenantId ≠ A := fun heq => hother (hid ▸ (ht current hmem).id.mp heq)
      exact ⟨fun heq => hother (hcid ▸ (ht c hc).id.mp heq), mt htenant.mp hcurrent⟩

theorem placed_abandon (ht : AllPlaced A mineId mineExt t) (tenantId : TenantId) :
    AllPlaced A mineId mineExt (abandonAllForTenant t tenantId) ∧ (tenantId ≠ A →
      (abandonAllForTenant t tenantId).filter (ofTenant A) = t.filter (ofTenant A)) := by
  refine ⟨fun c hc => ?_, fun hA => updateWhere_other fun c _ hp => ?_⟩
  · obtain ⟨c', hc', rfl⟩ := List.mem_map.mp hc
    split
    · exact ⟨(ht c' hc').id, (ht c' hc').ext⟩
    · exact ht c' hc'
  · have hc := (of_decide_eq_true hp).1
    exact ⟨hc ▸ hA, hc ▸ hA⟩

theorem placed_delete (ht : AllPlaced A mineId mineExt t) {c : Connection}
    (hc : Placed A mineId mineExt c) :
    AllPlaced A mineId mineExt (Table.deleteWhere (fun r => decide (r.id = c.id)) t) ∧
      (c.tenantId ≠ A → (Table.deleteWhere (fun r => decide (r.id = c.id)) t).filter (ofTenant A) =
        t.filter (ofTenant A)) := by
  refine ⟨fun r hr => ht r (List.mem_filter.mp hr).1, fun hA => ?_⟩
  rw [Table.deleteWhere, List.filter_filter]
  refine List.filter_congr fun r hr => ?_
  have hkeep : ofTenant A r = true → ¬ r.id = c.id := by
    intro hof heq
    exact hA (hc.id.mpr (heq ▸ (ht r hr).id.mp (of_decide_eq_true hof)))
  cases hof : ofTenant A r with
  | false => rfl
  | true => simp [hkeep hof]

end Rows

end VcCommonService.Connections
