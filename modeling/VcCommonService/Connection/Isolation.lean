import VcCommonService.Connection.Placement
import VcCommonService.Lib.Noninterference

/-!
# Tenants do not see each other's connections

What a tenant's calls do and return is the same as if no other tenant had called, in every
interleaving of the statements, as long as no external identifier is used by two tenants. The rate
limiters are not part of this: the others use up what they share, so their answers are given.
-/

namespace VcCommonService.Connections

open Lib Auth

/-! ### Calls -/

def Unprivileged : Caller → Prop
  | .token auth => isPlatformAdmin auth.roles = false
  | .worker _ => True

section Calls

variable (A : TenantId) (mineId : Uuid → Prop) (mineExt : String → Prop)

/-- What a call holds is its own tenant's. -/
def StageOk (tenant : Option TenantId) : Stage → Prop
  | .creating dto =>
    tenant = some dto.tenantId ∧ (dto.tenantId = A ↔ mineExt dto.externalConnectionId)
  | .updating entity => tenant = some entity.tenantId ∧ Placed A mineId mineExt entity
  | .writing entity _ => tenant = some entity.tenantId ∧ Placed A mineId mineExt entity
  | .deleting c => tenant = some c.tenantId ∧ Placed A mineId mineExt c
  | .emitting job _ => tenant = some job.tenantId
  | _ => True

structure CallOk (call : Call) : Prop where
  unprivileged : Unprivileged call.caller
  stage : StageOk A mineId mineExt call.caller.tenant call.stage

/-- The tenant and the others create connections under external identifiers of their own, and no
identifier is generated for both. -/
def Separate (_ : ConnectionStore) (call : Call) (e : Event) : Prop :=
  match e with
  | .request (.create dto) _ => call.caller.tenant = some A ↔ mineExt dto.externalConnectionId
  | .insert id _ => call.caller.tenant = some A ↔ mineId id
  | _ => True

end Calls

section Steps

variable {A : TenantId} {mineId : Uuid → Prop} {mineExt : String → Prop} {t u : List Connection}

theorem visible_ok {auth : AuthContext} {found : Option Connection} {notFound : String}
    {c : Connection} (hauth : isPlatformAdmin auth.roles = false)
    (h : visible auth found notFound = .ok c) : found = some c ∧ auth.tenantId = some c.tenantId := by
  unfold visible at h
  split at h
  · cases h
  next c' =>
  unfold assertResourceTenantOrNotFound at h
  simp only [hauth, Bool.false_eq_true, if_false] at h
  split at h
  · cases h
  next htenant =>
  cases h
  exact ⟨rfl, not_not.mp fun hne => htenant (Or.inr (Or.inr hne))⟩

theorem applyDto_ok {dto : UpdateConnectionDto} {c entity : Connection}
    (h : applyDto dto c = .ok entity) : entity.id = c.id ∧ entity.tenantId = c.tenantId ∧
      entity.externalConnectionId = c.externalConnectionId := by
  unfold applyDto at h
  split at h
  · cases h
    exact ⟨rfl, rfl, rfl⟩
  · cases h

theorem assertTenantAccess_ok {auth : AuthContext} {tenantId : TenantId}
    (hauth : isPlatformAdmin auth.roles = false)
    (h : assertTenantAccess (some auth) tenantId = .ok ()) : auth.tenantId = some tenantId := by
  unfold assertTenantAccess at h
  simp only [hauth, Bool.false_eq_true, if_false] at h
  split at h
  · cases h
  next token htoken =>
  split at h
  · cases h
  next heq =>
  rw [(Js.truthy_eq_some htoken).1, not_not.mp heq]

theorem isWhitespace_of_isUuidChar {i : ℕ} {c : Char} (h : isUuidChar i c = true) :
    Js.isWhitespace c = false := by
  have hnone : ∀ n < 103, 45 ≤ n → Js.whitespace.contains n = false := by decide
  have hrange : 45 ≤ c.toNat ∧ c.toNat < 103 := by
    unfold isUuidChar at h
    split at h
    · have hc : c = '-' := of_decide_eq_true h
      subst hc
      decide
    · simp only [Bool.or_eq_true, Bool.and_eq_true, decide_eq_true_eq, Char.le_def,
        UInt32.le_iff_toNat_le] at h
      rcases h with ⟨hlow, hhigh⟩ | ⟨hlow, hhigh⟩
      · have hlow : 48 ≤ c.toNat := hlow
        have hhigh : c.toNat ≤ 57 := hhigh
        omega
      · have hlow : 97 ≤ c.toNat := hlow
        have hhigh : c.toNat ≤ 102 := hhigh
        omega
  exact hnone c.toNat hrange.2 hrange.1

theorem trim_uuid (id : Uuid) : Js.trim id.1 = id.1 := by
  have hid := id.2
  simp only [isUuid, Bool.and_eq_true, decide_eq_true_eq, List.all_eq_true] at hid
  have hfree : ∀ c ∈ id.1.toList, Js.isWhitespace c = false := by
    intro c hc
    obtain ⟨i, hi⟩ := List.mem_iff_getElem?.mp hc
    exact isWhitespace_of_isUuidChar (hid.2 (c, i) (List.mk_mem_zipIdx_iff_getElem?.mpr hi))
  have hne : id.1.toList ≠ [] := mt String.toList_eq_nil_iff.mp id.ne_empty
  have htrimmed : Words.Trimmed Js.isWhitespace id.1.toList :=
    ⟨fun c hc => hfree c (List.mem_of_mem_head? hc),
      fun c hc => hfree c (List.mem_of_mem_getLast? hc)⟩
  have htrim : Words.trimSep Js.isWhitespace ([] ++ id.1.toList ++ []) = id.1.toList :=
    Words.trimSep_append (List.forall_mem_nil _) (List.forall_mem_nil _) htrimmed hne
  rw [List.nil_append, List.append_nil] at htrim
  rw [← String.toList_inj, trim_toList, htrim]

theorem tenantGuard_uuid {auth : AuthContext} {tenantId : Uuid} {stamped : Option TenantId}
    (hauth : isPlatformAdmin auth.roles = false) (htenant : auth.tenantId = some A)
    (h : tenantGuard (some auth) (some tenantId.1) = .ok stamped) : tenantId.1 = A := by
  unfold tenantGuard at h
  simp only [Option.bind_some, trim_uuid, Js.truthy_some tenantId.ne_empty, hauth,
    Bool.false_eq_true, if_false] at h
  split at h
  · cases h
  next token htoken =>
  split at h
  · cases h
  next heq =>
  have htokenA : token = A := by
    have hsome := (Js.truthy_eq_some htoken).1
    rw [htenant] at hsome
    exact (Option.some.inj hsome).symm
  rw [← htokenA, not_not.mp heq]

/-- A caller who comes through to a tenant's list is of that tenant. -/
theorem guards_findByTenantId {reads : GuardReads} {auth : AuthContext} {tenantId : Uuid}
    {state : Option Tenants.ConnectionState} (hauth : isPlatformAdmin auth.roles = false)
    (htenant : auth.tenantId = some A)
    (h : guards reads auth (.findByTenantId tenantId state) = .ok ()) : tenantId.1 = A := by
  unfold guards at h
  obtain ⟨_, -, h⟩ := bind_eq_ok.mp h
  obtain ⟨_, -, h⟩ := bind_eq_ok.mp h
  obtain ⟨stamped, hstamped, -⟩ := bind_eq_ok.mp h
  exact tenantGuard_uuid hauth htenant (mapError_eq_ok.mp hstamped)

theorem stageOk_request {auth : AuthContext} {r : Request} {reads : GuardReads}
    (hauth : isPlatformAdmin auth.roles = false) (ht : AllPlaced A mineId mineExt t)
    (hseparate : ∀ dto, r = .create dto →
      (auth.tenantId = some A ↔ mineExt dto.externalConnectionId)) :
    StageOk A mineId mineExt auth.tenantId (request t auth r reads) := by
  unfold request
  split
  · trivial
  cases r with
  | create dto =>
    dsimp only
    split
    · trivial
    next haccess =>
    have htenant := assertTenantAccess_ok hauth haccess
    split
    · trivial
    · refine ⟨htenant, ?_⟩
      rw [← hseparate dto rfl, htenant, Option.some_inj]
  | findById id =>
    dsimp only
    split <;> trivial
  | findByExternalConnectionId externalConnectionId =>
    dsimp only
    split <;> trivial
  | findByTenantId tenantId state =>
    dsimp only
    split <;> trivial
  | update id dto =>
    dsimp only
    split
    · trivial
    next c hvisible =>
    obtain ⟨hfound, htenant⟩ := visible_ok hauth hvisible
    have hplaced := ht c (findById_some hfound).1
    split
    · trivial
    next entity happly =>
    obtain ⟨hid, hsame, hext⟩ := applyDto_ok happly
    refine ⟨hsame ▸ htenant, ⟨?_, ?_⟩⟩
    · rw [hsame, hid]
      exact hplaced.id
    · rw [hsame, hext]
      exact hplaced.ext
  | delete id =>
    dsimp only
    split
    · trivial
    next c hvisible =>
    obtain ⟨hfound, htenant⟩ := visible_ok hauth hvisible
    exact ⟨htenant, ht c (findById_some hfound).1⟩

/-- What the tenant can see of a store. -/
structure SameStore (A : TenantId) (db view : ConnectionStore) : Prop where
  connections : view.connections.filter (ofTenant A) = db.connections.filter (ofTenant A)
  jobs : view.jobs.filter (fun j => decide (j.tenantId = A)) =
    db.jobs.filter fun j => decide (j.tenantId = A)

theorem stage_spec {db db' : ConnectionStore} {caller : Caller} {st st' : Stage} {e : Event}
    (h : stage db caller st e = some (db', st')) (hcaller : Unprivileged caller)
    (hdb : AllPlaced A mineId mineExt db.connections)
    (hok : StageOk A mineId mineExt caller.tenant st)
    (hseparate : Separate A mineId mineExt db ⟨caller, st⟩ e) :
    AllPlaced A mineId mineExt db'.connections ∧ StageOk A mineId mineExt caller.tenant st' ∧
      (caller.tenant ≠ some A → SameStore A db db') := by
  unfold stage at h
  split at h
  case h_1 r reads =>
    cases caller with
    | worker tenantId => cases h
    | token auth =>
      cases h
      refine ⟨hdb, stageOk_request hcaller hdb fun dto hr => ?_, fun _ => ⟨rfl, rfl⟩⟩
      subst hr
      exact hseparate
  case h_2 =>
    cases caller with
    | token auth => cases h
    | worker tenantId =>
      cases h
      obtain ⟨hplaced, hsame⟩ := placed_abandon hdb tenantId
      exact ⟨hplaced, trivial, fun hA => ⟨hsame fun heq => hA (congrArg some heq), rfl⟩⟩
  case h_3 dto id createdAt =>
    dsimp only at h
    obtain ⟨htenant, hext⟩ := hok
    split at h
    · cases h
      exact ⟨hdb, trivial, fun _ => ⟨rfl, rfl⟩⟩
    next connections hinsert =>
    cases h
    have hid : caller.tenant = some A ↔ mineId id := hseparate
    rw [htenant, Option.some_inj] at hid
    have hnew : Placed A mineId mineExt (newConnection dto id createdAt) := ⟨hid, hext⟩
    obtain ⟨hplaced, hsame⟩ := placed_insert hinsert hdb hnew
    exact ⟨hplaced, htenant, fun hA => ⟨hsame fun heq => hA (htenant.trans (congrArg some heq)), rfl⟩⟩
  case h_4 =>
    cases h
    exact ⟨hdb, hok, fun _ => ⟨rfl, rfl⟩⟩
  case h_5 entity row =>
    obtain ⟨htenant, hentity⟩ := hok
    split at h
    · cases h
      exact ⟨hdb, trivial, fun _ => ⟨rfl, rfl⟩⟩
    next connections hwrite =>
    cases h
    have hspec : AllPlaced A mineId mineExt connections ∧ (entity.tenantId ≠ A →
        connections.filter (ofTenant A) = db.connections.filter (ofTenant A)) := by
      cases row with
      | none => exact placed_insert hwrite hdb hentity
      | some row => exact placed_update hwrite hdb hentity
    obtain ⟨hplaced, hsame⟩ := hspec
    exact ⟨hplaced, htenant, fun hA => ⟨hsame fun heq => hA (htenant.trans (congrArg some heq)), rfl⟩⟩
  case h_6 c =>
    obtain ⟨htenant, hc⟩ := hok
    cases h
    obtain ⟨hplaced, hsame⟩ := placed_delete hdb hc
    exact ⟨hplaced, htenant, fun hA => ⟨hsame fun heq => hA (htenant.trans (congrArg some heq)), rfl⟩⟩
  case h_7 job response accepted =>
    cases h
    refine ⟨?_, trivial, fun hA => ?_⟩
    · split <;> exact hdb
    · have hjob : [job].filter (fun j => decide (j.tenantId = A)) = [] := by
        have hne : job.tenantId ≠ A := fun heq => hA (hok.trans (congrArg some heq))
        simp [hne]
      split
      · refine ⟨rfl, ?_⟩
        rw [List.filter_append, hjob, List.append_nil]
      · exact ⟨rfl, rfl⟩
  case h_8 => cases h

/-! ### The tenant's own statements -/

variable (hview : u.filter (ofTenant A) = t.filter (ofTenant A)) (ht : AllPlaced A mineId mineExt t)
  (hu : AllPlaced A mineId mineExt u)

include hview ht hu

theorem findById_view {id : Uuid} (hid : mineId id) : findById u id = findById t id :=
  find_view hview.symm (ht.of_id hid) (hu.of_id hid)

theorem insert_view {c : Connection} (hc : Placed A mineId mineExt c) (hA : c.tenantId = A) :
    (insert u c).map (List.filter (ofTenant A)) = (insert t c).map (List.filter (ofTenant A)) := by
  have hid := hc.id.mp hA
  have hext := hc.ext.mp hA
  have hcheck : checkUnique u c = checkUnique t c := by
    rw [checkUnique, any_view hview.symm (ht.of_id hid) (hu.of_id hid),
      any_view hview.symm (ht.of_ext hext) (hu.of_ext hext)]
    rfl
  rw [insert, insert, hcheck]
  cases checkUnique t c with
  | error e => rfl
  | ok x =>
    refine congrArg Except.ok ?_
    rw [List.filter_append, List.filter_append, hview]

theorem update_view (row : Connection) {entity : Connection} (hentity : Placed A mineId mineExt entity)
    (hA : entity.tenantId = A) : (update u row entity).map (List.filter (ofTenant A)) =
      (update t row entity).map (List.filter (ofTenant A)) := by
  have hmine := hentity.id.mp hA
  rw [update, update, findById_view hview ht hu hmine]
  cases hfind : findById t entity.id with
  | none => exact congrArg Except.ok hview
  | some current =>
    obtain ⟨hmem, hid⟩ := findById_some hfind
    obtain ⟨hplaced, htenant⟩ := placed_writeColumns row hid hentity (ht current hmem)
    have hcurrent : current.tenantId = A := (ht current hmem).id.mpr (hid ▸ hmine)
    have hchanged := htenant.mpr hcurrent
    have hext := hplaced.ext.mp hchanged
    have hany := any_view (q := fun c => decide (c.id ≠ current.id ∧
        c.externalConnectionId = (writeColumns row entity current).externalConnectionId)) hview.symm
      (fun c hc hq => (ht c hc).ext.mpr ((of_decide_eq_true hq).2 ▸ hext))
      (fun c hc hq => (hu c hc).ext.mpr ((of_decide_eq_true hq).2 ▸ hext))
    have hwhere : ∀ v, AllPlaced A mineId mineExt v → ∀ c ∈ v, decide (c.id = entity.id) = true →
        ((writeColumns row entity current).tenantId = A ↔ c.tenantId = A) := by
      intro v hv c hc hq
      exact iff_of_true hchanged (hv.of_id hmine c hc hq)
    dsimp only
    rw [hany]
    split
    · rfl
    · refine congrArg Except.ok ?_
      rw [filter_updateWhere (hwhere u hu), filter_updateWhere (hwhere t ht), hview]

theorem visible_view {auth : AuthContext} (hauth : isPlatformAdmin auth.roles = false)
    (htenant : auth.tenantId = some A) {q : Connection → Bool} (notFound : String)
    (hq : (∀ v, AllPlaced A mineId mineExt v → ∀ c ∈ v, q c = true → c.tenantId = A) ∨
      ∀ v, AllPlaced A mineId mineExt v → ∀ c ∈ v, q c = true → c.tenantId ≠ A) :
    visible auth (u.find? q) notFound = visible auth (t.find? q) notFound := by
  rcases hq with hmine | hother
  · rw [find_view hview.symm (hmine t ht) (hmine u hu)]
  · have hnone : ∀ v, AllPlaced A mineId mineExt v →
        visible auth (v.find? q) notFound = .error (.notFound notFound) := by
      intro v hv
      cases hfind : v.find? q with
      | none => rfl
      | some c =>
        have hne := hother v hv c (List.mem_of_find?_eq_some hfind) (List.find?_some hfind)
        have hdenied : auth.tenantId ≠ some c.tenantId := by
          rw [htenant]
          exact fun heq => hne (Option.some.inj heq).symm
        simp [visible, assertResourceTenantOrNotFound, hauth, hdenied, Except.map]
    rw [hnone u hu, hnone t ht]

theorem request_view {auth : AuthContext} (reads : GuardReads) (hauth : isPlatformAdmin auth.roles = false)
    (htenant : auth.tenantId = some A) {r : Request}
    (hseparate : ∀ dto, r = .create dto →
      (auth.tenantId = some A ↔ mineExt dto.externalConnectionId)) :
    request u auth r reads = request t auth r reads := by
  have hfindById : ∀ id, visible auth (findById u id) (notFoundById id) =
      visible auth (findById t id) (notFoundById id) := by
    intro id
    refine visible_view hview ht hu hauth htenant _ ?_
    by_cases hid : mineId id
    · exact Or.inl fun v hv => hv.of_id hid
    · exact Or.inr fun v hv c hc hq hA => hid (of_decide_eq_true hq ▸ (hv c hc).id.mp hA)
  unfold request
  split
  · rfl
  next hguards =>
  cases r with
  | create dto =>
    dsimp only
    have hext := (hseparate dto rfl).mp htenant
    have hfound : findByExternalConnectionId u dto.externalConnectionId =
        findByExternalConnectionId t dto.externalConnectionId :=
      find_view hview.symm (ht.of_ext hext) (hu.of_ext hext)
    rw [hfound]
  | findById id =>
    dsimp only
    rw [hfindById]
  | findByExternalConnectionId ext =>
    have hvisible : visible auth (findByExternalConnectionId u ext) (notFoundByExternalId ext) =
        visible auth (findByExternalConnectionId t ext) (notFoundByExternalId ext) := by
      refine visible_view hview ht hu hauth htenant _ ?_
      by_cases hext : mineExt ext
      · exact Or.inl fun v hv => hv.of_ext hext
      · exact Or.inr fun v hv c hc hq hA => hext (of_decide_eq_true hq ▸ (hv c hc).ext.mp hA)
    dsimp only
    rw [hvisible]
  | findByTenantId tenantId state =>
    have hA : tenantId.1 = A := guards_findByTenantId hauth htenant hguards
    have hall : ∀ v : List Connection, findByTenantId v tenantId.1 =
        Table.orderBy Connection.createdAt (v.filter (ofTenant A)) := by
      intro v
      rw [hA]
      rfl
    have hstate : ∀ (v : List Connection) s, findByTenantIdAndState v tenantId.1 s =
        Table.orderBy Connection.createdAt
          ((v.filter (ofTenant A)).filter fun c => decide (c.state = s)) := by
      intro v s
      rw [hA, List.filter_filter]
      unfold findByTenantIdAndState ofTenant
      congr 1
      exact List.filter_congr fun c _ => by rw [Bool.decide_and, Bool.and_comm]
    cases state with
    | none =>
      dsimp only
      rw [hall, hall, hview]
    | some s =>
      dsimp only
      rw [hstate, hstate, hview]
  | update id dto =>
    dsimp only
    rw [hfindById]
  | delete id =>
    dsimp only
    rw [hfindById]

end Steps

section Isolation

variable {A : TenantId} {mineId : Uuid → Prop} {mineExt : String → Prop}

/-- The view of a store in which the others did not act. -/
structure View (A : TenantId) (mineId : Uuid → Prop) (mineExt : String → Prop)
    (db view : ConnectionStore) : Prop extends SameStore A db view where
  placed : AllPlaced A mineId mineExt view.connections

/-- Both writes fail alike, or both go through and leave the tenant the same rows. -/
theorem writes_alike {x y : Except ServiceError (List Connection)}
    (h : y.map (List.filter (ofTenant A)) = x.map (List.filter (ofTenant A))) :
    (∃ e, x = .error e ∧ y = .error e) ∨ ∃ t u, x = .ok t ∧ y = .ok u ∧
      u.filter (ofTenant A) = t.filter (ofTenant A) := by
  cases x with
  | error e =>
    cases y with
    | error e' =>
      cases h
      exact Or.inl ⟨e, rfl, rfl⟩
    | ok u => cases h
  | ok t =>
    cases y with
    | error e' => cases h
    | ok u => exact Or.inr ⟨t, u, rfl, rfl, Except.ok.inj h⟩

theorem stage_own {db view db' : ConnectionStore} {caller : Caller} {st st' : Stage} {e : Event}
    (h : stage db caller st e = some (db', st')) (hcaller : Unprivileged caller)
    (hdb : AllPlaced A mineId mineExt db.connections) (hview : View A mineId mineExt db view)
    (hok : StageOk A mineId mineExt caller.tenant st)
    (hseparate : Separate A mineId mineExt db ⟨caller, st⟩ e) (htenant : caller.tenant = some A) :
    ∃ view', stage view caller st e = some (view', st') ∧ SameStore A db' view' := by
  obtain ⟨⟨hrows, hjobs⟩, hplaced⟩ := hview
  unfold stage at h
  split at h
  case h_1 r reads =>
    cases caller with
    | worker tenantId => cases h
    | token auth =>
      cases h
      have hrequest := request_view hrows hdb hplaced reads hcaller htenant (r := r) fun dto hr => by
        subst hr
        exact hseparate
      refine ⟨view, ?_, hrows, hjobs⟩
      rw [stage, hrequest]
  case h_2 =>
    cases caller with
    | token auth => cases h
    | worker tenantId =>
      cases h
      have hA : tenantId = A := Option.some.inj htenant
      have hmine : ∀ v : List Connection, ∀ c ∈ v,
          decide (c.tenantId = tenantId ∧ c.state ≠ .completed ∧ c.state ≠ .abandoned) = true →
            c.tenantId = A := fun _ c _ hq => (of_decide_eq_true hq).1.trans hA
      refine ⟨{ view with connections := abandonAllForTenant view.connections tenantId }, ?_, ?_,
        hjobs⟩
      · rw [stage, ← countP_filter_tenant (hmine view.connections), hrows,
          countP_filter_tenant (hmine db.connections)]
      · have hfilter : ∀ v, (abandonAllForTenant v tenantId).filter (ofTenant A) =
            abandonAllForTenant (v.filter (ofTenant A)) tenantId :=
          fun _ => filter_updateWhere fun _ _ _ => Iff.rfl
        rw [hfilter, hfilter, hrows]
  case h_3 dto id createdAt =>
    have hid : caller.tenant = some A ↔ mineId id := hseparate
    rw [hok.1, Option.some_inj] at hid
    have hA : dto.tenantId = A := Option.some.inj (hok.1.symm.trans htenant)
    rcases writes_alike (insert_view hrows hdb hplaced (c := newConnection dto id createdAt)
      ⟨hid, hok.2⟩ hA) with ⟨e, hx, hy⟩ | ⟨t, u, hx, hy, hsame⟩
    · simp only [hx] at h
      cases h
      exact ⟨view, by simp only [stage, hy], hrows, hjobs⟩
    · simp only [hx] at h
      cases h
      exact ⟨{ view with connections := u }, by simp only [stage, hy], hsame, hjobs⟩
  case h_4 entity =>
    cases h
    have hmine : mineId entity.id := hok.2.id.mp (Option.some.inj (hok.1.symm.trans htenant))
    refine ⟨view, ?_, hrows, hjobs⟩
    rw [stage, findById_view hrows hdb hplaced hmine]
  case h_5 entity row =>
    have hA : entity.tenantId = A := Option.some.inj (hok.1.symm.trans htenant)
    cases row with
    | none =>
      rcases writes_alike (insert_view hrows hdb hplaced hok.2 hA) with
        ⟨e, hx, hy⟩ | ⟨t, u, hx, hy, hsame⟩
      · simp only [hx] at h
        cases h
        exact ⟨view, by simp only [stage, hy], hrows, hjobs⟩
      · simp only [hx] at h
        cases h
        exact ⟨{ view with connections := u }, by simp only [stage, hy], hsame, hjobs⟩
    | some row =>
      rcases writes_alike (update_view hrows hdb hplaced row hok.2 hA) with
        ⟨e, hx, hy⟩ | ⟨t, u, hx, hy, hsame⟩
      · simp only [hx] at h
        cases h
        exact ⟨view, by simp only [stage, hy], hrows, hjobs⟩
      · simp only [hx] at h
        cases h
        exact ⟨{ view with connections := u }, by simp only [stage, hy], hsame, hjobs⟩
  case h_6 c =>
    cases h
    refine ⟨{ view with
      connections := Table.deleteWhere (fun r => decide (r.id = c.id)) view.connections }, ?_, ?_,
      hjobs⟩
    · rw [stage]
    · simp only [Table.deleteWhere, List.filter_filter]
      simp only [Bool.and_comm (ofTenant A _), ← List.filter_filter, hrows]
  case h_7 job response accepted =>
    cases h
    cases accepted with
    | false => exact ⟨view, by simp [stage], hrows, hjobs⟩
    | true =>
      refine ⟨{ view with jobs := view.jobs ++ [job] }, by simp [stage], hrows, ?_⟩
      simp only [if_true, List.filter_append, hjobs]
  case h_8 => cases h

theorem act_stage {db db' : ConnectionStore} {call call' : Call} {e : Event}
    (h : act db call e = some (db', call')) : call'.caller = call.caller ∧
      stage db call.caller call.stage e = some (db', call'.stage) := by
  obtain ⟨⟨db₁, st⟩, hstage, heq⟩ := Option.map_eq_some_iff.mp h
  cases heq
  exact ⟨rfl, hstage⟩

theorem act_spec {db db' : ConnectionStore} {call call' : Call} {e : Event}
    (hdb : AllPlaced A mineId mineExt db.connections) (hcall : CallOk A mineId mineExt call)
    (h : act db call e = some (db', call')) (hseparate : Separate A mineId mineExt db call e) :
    AllPlaced A mineId mineExt db'.connections ∧ CallOk A mineId mineExt call' ∧
      (call.caller.tenant ≠ some A → SameStore A db db') := by
  obtain ⟨hcaller, hstage⟩ := act_stage h
  obtain ⟨hplaced, hok, hsame⟩ := stage_spec hstage hcall.unprivileged hdb hcall.stage hseparate
  refine ⟨hplaced, ⟨?_, ?_⟩, hsame⟩
  · rw [hcaller]
    exact hcall.unprivileged
  · rw [hcaller]
    exact hok

theorem own_statement (db view : ConnectionStore) (call : Call) (e : Event) (db' : ConnectionStore)
    (call' : Call) (hdb : AllPlaced A mineId mineExt db.connections)
    (hcall : CallOk A mineId mineExt call) (hview : View A mineId mineExt db view)
    (h : act db call e = some (db', call')) (hseparate : Separate A mineId mineExt db call e)
    (hmine : mine A call = true) :
    ∃ view', act view call e = some (view', call') ∧ View A mineId mineExt db' view' := by
  obtain ⟨hcaller, hstage⟩ := act_stage h
  obtain ⟨view', hview', hsame⟩ := stage_own hstage hcall.unprivileged hdb hview hcall.stage
    hseparate (of_decide_eq_true hmine)
  have hact : act view call e = some (view', call') := by
    rw [act, hview', Option.map_some, ← hcaller]
  exact ⟨view', hact, hsame, (act_spec hview.placed hcall hact hseparate).1⟩

theorem other_statement (db view : ConnectionStore) (call : Call) (e : Event)
    (db' : ConnectionStore) (call' : Call) (hdb : AllPlaced A mineId mineExt db.connections)
    (hcall : CallOk A mineId mineExt call) (hview : View A mineId mineExt db view)
    (h : act db call e = some (db', call')) (hseparate : Separate A mineId mineExt db call e)
    (hother : mine A call = false) : View A mineId mineExt db' view := by
  obtain ⟨hconnections, hjobs⟩ := (act_spec hdb hcall h hseparate).2.2 (of_decide_eq_false hother)
  exact ⟨⟨hview.connections.trans hconnections.symm, hview.jobs.trans hjobs.symm⟩, hview.placed⟩

/-- In every interleaving of the calls of several tenants, the calls of one tenant return the same
and leave it the same connections and audit jobs as in the run without the other calls, as long as
the others use external identifiers of their own and its requests meet the same tenants table and
the same answers of the rate limiters. -/
theorem connections_isolated {w w' : Run.World ConnectionStore Call}
    (hidle : ∀ i, (w.calls i).stage = .idle) (hcallers : ∀ i, Unprivileged (w.calls i).caller)
    (hplaced : AllPlaced A mineId mineExt w.db.connections) {run : List (ℕ × Event)}
    (hrun : Run.All (Run.interleave act) (Run.Before (Separate A mineId mineExt)) w run)
    (hfinal : Run.final (Run.interleave act) w run = some w') :
    ∃ v', Run.final (Run.interleave act) w (run.filter fun l => mine A (w.calls l.1)) = some v' ∧
      (∀ i, mine A (w'.calls i) = true → v'.calls i = w'.calls i) ∧ SameStore A w'.db v'.db := by
  have hholds : Run.Holds (fun db => AllPlaced A mineId mineExt db.connections)
      (fun _ call => CallOk A mineId mineExt call) w := by
    refine ⟨hplaced, fun i => ⟨hcallers i, ?_⟩⟩
    rw [hidle i]
    trivial
  have hkeep : ∀ u l u', Run.Holds (fun db => AllPlaced A mineId mineExt db.connections)
      (fun _ call => CallOk A mineId mineExt call) u → Run.interleave act u l = some u' →
      Run.Before (Separate A mineId mineExt) u l u' → Run.Holds _ _ u' :=
    fun _ _ _ hu hs hc => Run.holds_interleave
      (fun _ _ _ _ _ hg hl ha hc => (act_spec hg hl ha hc).imp_right And.left)
      (fun _ _ _ _ _ _ _ _ ho _ _ => ho) hu hs hc
  have hmine : ∀ db call e db' call', act db call e = some (db', call') →
      mine A call' = mine A call := by
    intro db call e db' call' h
    unfold mine
    rw [(act_stage h).1]
  obtain ⟨v', hv', hsame⟩ := Run.purge_interleave hkeep hmine own_statement other_statement hholds
    ⟨⟨⟨rfl, rfl⟩, hplaced⟩, fun _ _ => rfl⟩ hrun hfinal
  exact ⟨v', hv', hsame.calls, hsame.db.toSameStore⟩

end Isolation

def managerOf (tenantId : TenantId) : AuthContext :=
  { sub := "client:" ++ tenantId, tokenType := .client, tenantId := some tenantId, roles := [],
    scopes := [connectionsManageScope] }

def twoTenants : Run.World ConnectionStore Call :=
  ⟨⟨[], []⟩, fun i => ⟨.token (managerOf (if i = 0 then "t1" else "t2")), .idle⟩⟩

def createRequest (tenantId : TenantId) : Request :=
  .create ⟨tenantId, tenantId ++ "-c", .undefined, .undefined, .invited, .traction, .didcommV2,
    .undefined⟩

def bothActive : GuardReads :=
  { tenants := ⟨[⟨"t1", "T1", "t1", none, .active, [], none⟩,
      ⟨"t2", "T2", "t2", none, .active, [], none⟩], []⟩ }

def twoCreations : List (ℕ × Event) :=
  [(0, .request (createRequest "t1") bothActive), (1, .request (createRequest "t2") bothActive),
    (1, .insert Uuid.max 0), (0, .insert Uuid.nil 0), (0, .emit true)]

theorem connections_isolated_two : ∃ w' v', Run.final (Run.interleave act) twoTenants
      twoCreations = some w' ∧ Run.final (Run.interleave act) twoTenants
        [(0, .request (createRequest "t1") bothActive), (0, .insert Uuid.nil 0),
          (0, .emit true)] = some v' ∧
    SameStore "t1" w'.db v'.db := by
  have htenant : ¬ some "t2" = some "t1" := by decide
  have hext : ¬ "t2" ++ "-c" = "t1-c" := by decide
  have hrun : Run.All (Run.interleave act)
      (Run.Before (Separate "t1" (fun id => id = Uuid.nil) fun ext => ext = "t1-c")) twoTenants
      twoCreations :=
    ⟨_, rfl, iff_of_true rfl rfl, _, rfl, iff_of_false htenant hext, _, rfl,
      iff_of_false htenant Uuid.nil_ne_max.symm, _, rfl, iff_of_true rfl rfl, _, rfl, trivial,
      trivial⟩
  cases hfinal : Run.final (Run.interleave act) twoTenants twoCreations with
  | none => exact absurd hfinal (by decide +kernel)
  | some w' =>
    have hcallers : ∀ i, Unprivileged (twoTenants.calls i).caller := fun _ => rfl
    obtain ⟨v', hv', -, hsame⟩ := connections_isolated (fun _ => rfl) hcallers
      (fun _ hc => absurd hc List.not_mem_nil) hrun hfinal
    exact ⟨w', v', rfl, hv', hsame⟩

end VcCommonService.Connections
