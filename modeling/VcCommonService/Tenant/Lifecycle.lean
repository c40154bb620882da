import VcCommonService.Tenant.Model

/-!
# Status changes under concurrency

Every change of the stored status should follow `ALLOWED_STATUS_TRANSITIONS` and be
committed with a job that names it, and `deactivated_at` should say whether the tenant is
deactivated. A save writes each of the two columns only where its entity differs from the row
that it has read. It keeps the law exactly when a status that it writes replaces the one its call
loaded, or is stored already, and when a column that it writes alone meets a tenant that is as
deactivated as the row it had read.
-/

namespace VcCommonService.Tenants
open Lib
open Table (written_of_eq written_of_ne)

def DeactivatedAtAgrees (tenant : Tenant) : Prop :=
  tenant.deactivatedAt.isSome = true ↔ tenant.status = .deactivated

instance (tenant : Tenant) : Decidable (DeactivatedAtAgrees tenant) :=
  inferInstanceAs (Decidable (_ ↔ _))

/-- A change of status is an allowed transition, committed with its own job. -/
def LawfulChange (db db' : Store) : Prop :=
  db'.tenant.status ≠ db.tenant.status →
    db'.tenant.status ∈ allowedStatusTransitions db.tenant.status ∧
    db'.statusJobs = db.statusJobs ++ [⟨db.tenant.id, db.tenant.status, db'.tenant.status⟩]

def LawfulStep (db db' : Store) : Prop := LawfulChange db db' ∧ DeactivatedAtAgrees db'.tenant

/-- The save writes one of the columns `status` and `deactivated_at` and leaves the other out. -/
def WritesOneColumn (entity row : Tenant) : Prop :=
  ¬ (entity.status = row.status ↔ entity.deactivatedAt = row.deactivatedAt)

/-- A save that writes the status finds the one its call loaded, or the one it is about to
write; and one that writes a single column of the two finds the tenant deactivated if and only
if the row it has read was. -/
def FreshSave (db : Store) : Call → Event → Prop
  | .writing loaded entity row _, .next =>
    (entity.status ≠ row.status →
      loaded.status = db.tenant.status ∨ entity.status = db.tenant.status) ∧
    (WritesOneColumn entity row →
      (db.tenant.status = .deactivated ↔ row.status = .deactivated))
  | _, _ => True

/-! ### Invariant -/

section Invariant

variable (id : TenantId)

def EntityOk (tenant : Tenant) : Prop := tenant.id = id ∧ DeactivatedAtAgrees tenant

def StatusOk (loaded entity : Tenant) : AfterSave → Prop
  | .statusJob previousStatus status =>
    previousStatus = loaded.status ∧ status = entity.status ∧
      entity.status ∈ allowedStatusTransitions loaded.status
  | _ => entity.status = loaded.status

def CallOk : Call → Prop
  | .checkingConnector loaded _ _ _ => EntityOk id loaded
  | .saving loaded entity after =>
    ∀ e, entity = some e → EntityOk id e ∧ StatusOk loaded e after
  | .writing loaded entity row after =>
    EntityOk id entity ∧ EntityOk id row ∧ StatusOk loaded entity after
  | _ => True

variable {id}

theorem applyUpdate_some {dto : UpdateTenantDto} {tenant entity : Tenant}
    (h : applyUpdate dto tenant = some entity) :
    entity.id = tenant.id ∧ entity.status = tenant.status ∧
      entity.deactivatedAt = tenant.deactivatedAt := by
  simp only [applyUpdate, Option.bind_eq_bind, Option.bind_eq_some_iff, Option.pure_def,
    Option.some.injEq] at h
  obtain ⟨name, _, config, _, rfl⟩ := h
  exact ⟨rfl, rfl, rfl⟩

theorem applyStatus_ok {tenant entity : Tenant} {status : TenantStatus} {now : Time}
    (h : applyStatus tenant status now = .ok entity) :
    entity.id = tenant.id ∧ entity.status = status ∧
      status ∈ allowedStatusTransitions tenant.status ∧ DeactivatedAtAgrees entity := by
  unfold applyStatus at h
  split at h
  next hallowed =>
    cases h
    refine ⟨rfl, rfl, hallowed, ?_⟩
    unfold DeactivatedAtAgrees
    by_cases hs : status = .deactivated <;> simp [hs]
  · cases h

theorem callOk_withTenant {db : Store} (hdb : EntityOk id db.tenant) (tid : TenantId)
    {k : Tenant → Call} (hk : ∀ tenant, EntityOk id tenant → CallOk id (k tenant)) :
    CallOk id (withTenant db tid k) := by
  unfold withTenant findById
  split
  · trivial
  next tenant h =>
    split at h
    · exact hk tenant (Option.some.inj h ▸ hdb)
    · cases h

theorem callOk_saveConfig {loaded : Tenant} (dto : UpdateTenantConfigDto)
    (h : EntityOk id loaded) : CallOk id (saveConfig loaded dto) := by
  intro e he
  cases he
  exact ⟨h, rfl⟩

theorem callOk_update {tenant : Tenant} (dto : UpdateTenantDto) (h : EntityOk id tenant) :
    CallOk id (.saving tenant (applyUpdate dto tenant) .nothing) := by
  intro e he
  obtain ⟨hid, hs, hd⟩ := applyUpdate_some he
  refine ⟨⟨hid.trans h.1, ?_⟩, hs⟩
  unfold DeactivatedAtAgrees
  rw [hs, hd]
  exact h.2

theorem callOk_beginUpdateConfig {tenant : Tenant} (dto : UpdateTenantConfigDto)
    (auth : Option Auth.AuthContext) (h : EntityOk id tenant) :
    CallOk id (beginUpdateConfig dto auth tenant) := by
  unfold beginUpdateConfig
  split
  · exact h
  · exact callOk_saveConfig dto h

theorem callOk_beginUpdateStatus {tenant : Tenant} (status : TenantStatus) (now : Time)
    (h : EntityOk id tenant) : CallOk id (beginUpdateStatus status now tenant) := by
  unfold beginUpdateStatus
  split
  · trivial
  next entity heq =>
    intro e he
    cases he
    obtain ⟨hid, hs, hallowed, hagree⟩ := applyStatus_ok heq
    exact ⟨⟨hid.trans h.1, hagree⟩, rfl, hs.symm, hs ▸ hallowed⟩

/-! ### The save -/

theorem runSave_tenant (db : Store) (entity row : Tenant) (after : AfterSave) :
    (runSave db entity row after).1.tenant = writeColumns row entity db.tenant := by
  cases after <;> rfl

theorem callOk_runSave (db : Store) (entity row : Tenant) (after : AfterSave) :
    CallOk id (runSave db entity row after).2 := by
  cases after <;> trivial

theorem lawfulChange_of_status {db db' : Store} (h : db'.tenant.status = db.tenant.status) :
    LawfulChange db db' := fun hne => absurd h hne

theorem lawfulChange_save_iff {db : Store} {loaded entity row : Tenant} {after : AfterSave}
    (hdb : EntityOk id db.tenant) (he : EntityOk id entity) (hs : StatusOk loaded entity after) :
    LawfulChange db (runSave db entity row after).1 ↔
      (entity.status ≠ row.status →
        loaded.status = db.tenant.status ∨ entity.status = db.tenant.status) := by
  have hid : entity.id = db.tenant.id := he.1.trans hdb.1.symm
  by_cases hsame : entity.status = row.status
  · refine iff_of_true (lawfulChange_of_status ?_) fun hne => absurd hsame hne
    rw [runSave_tenant]
    exact written_of_eq hsame _
  have hstatus : (runSave db entity row after).1.tenant.status = entity.status := by
    rw [runSave_tenant]
    exact written_of_ne hsame _
  by_cases hstored : entity.status = db.tenant.status
  · exact iff_of_true (lawfulChange_of_status (hstatus.trans hstored)) fun _ => Or.inr hstored
  have hne : (runSave db entity row after).1.tenant.status ≠ db.tenant.status :=
    hstatus ▸ hstored
  have hfresh : (entity.status ≠ row.status →
      loaded.status = db.tenant.status ∨ entity.status = db.tenant.status) ↔
        loaded.status = db.tenant.status :=
    ⟨fun h => (h hsame).resolve_right hstored, fun h _ => Or.inl h⟩
  rw [hfresh]
  cases after with
  | statusJob previousStatus status =>
    obtain ⟨hprev, hnew, hallowed⟩ := hs
    constructor
    · intro hlaw
      have hjob := List.append_cancel_left (hlaw hne).2
      simp only [List.cons.injEq, TenantStatusChangeJobData.mk.injEq] at hjob
      rw [← hprev, hjob.1.2.1]
    · intro hloaded _
      rw [hstatus]
      refine ⟨hloaded ▸ hallowed, ?_⟩
      simp only [runSave, hid, hprev, hnew, hloaded]
  | nothing =>
    -- the stored status is overwritten by the loaded one, and no job is written
    refine iff_of_false ?_ fun hl => hstored (Eq.trans hs hl)
    intro hlaw
    exact absurd (hlaw hne).2 (by simp [runSave])
  | publishConfig =>
    refine iff_of_false ?_ fun hl => hstored (Eq.trans hs hl)
    intro hlaw
    exact absurd (hlaw hne).2 (by simp [runSave])

/-- The two columns agree after a write unless one is written alone over a row that has become,
or is no longer, deactivated. -/
theorem agrees_writeColumns_iff {row entity current : Tenant} (hrow : DeactivatedAtAgrees row)
    (hentity : DeactivatedAtAgrees entity) (hcurrent : DeactivatedAtAgrees current) :
    DeactivatedAtAgrees (writeColumns row entity current) ↔
      (WritesOneColumn entity row →
        (current.status = .deactivated ↔ row.status = .deactivated)) := by
  unfold DeactivatedAtAgrees WritesOneColumn at *
  simp only [writeColumns]
  by_cases hstatus : entity.status = row.status
  · rw [written_of_eq hstatus]
    by_cases hat : entity.deactivatedAt = row.deactivatedAt
    · rw [written_of_eq hat]
      exact iff_of_true hcurrent fun h => absurd (iff_of_true hstatus hat) h
    · -- two instants that differ, so that the row and the entity are both deactivated
      have hdeactivated : row.status = .deactivated := by
        by_contra hnot
        have hnone : row.deactivatedAt = none := Option.not_isSome_iff_eq_none.mp fun h =>
          hnot (hrow.mp h)
        have hnone' : entity.deactivatedAt = none := Option.not_isSome_iff_eq_none.mp fun h =>
          hnot (hstatus ▸ hentity.mp h)
        exact hat (hnone'.trans hnone.symm)
      have hsome : entity.deactivatedAt.isSome = true :=
        hentity.mpr (hstatus.trans hdeactivated)
      rw [written_of_ne hat, iff_true_left hsome]
      constructor
      · exact fun h _ => iff_of_true h hdeactivated
      · exact fun h => (h fun heq => hat (heq.mp hstatus)).mpr hdeactivated
  · rw [written_of_ne hstatus]
    by_cases hat : entity.deactivatedAt = row.deactivatedAt
    · have hsame : entity.status = .deactivated ↔ row.status = .deactivated :=
        hentity.symm.trans (hat ▸ hrow)
      rw [written_of_eq hat, hcurrent, hsame]
      constructor
      · exact fun h _ => h
      · exact fun h => h fun heq => hstatus (heq.mpr hat)
    · rw [written_of_ne hat]
      exact iff_of_true hentity fun h => absurd (iff_of_false hstatus hat) h

theorem lawfulStep_save_iff {db : Store} {loaded entity row : Tenant} {after : AfterSave}
    (hdb : EntityOk id db.tenant) (hpc : CallOk id (.writing loaded entity row after)) :
    LawfulStep db (runSave db entity row after).1 ↔
      FreshSave db (.writing loaded entity row after) .next := by
  obtain ⟨he, hr, hs⟩ := hpc
  unfold LawfulStep FreshSave
  rw [lawfulChange_save_iff hdb he hs, runSave_tenant, agrees_writeColumns_iff hr.2 he.2 hdb.2]

/-! ### One statement -/

theorem act_lawful_iff {db db' : Store} {pc pc' : Call} {e : Event} (hdb : EntityOk id db.tenant)
    (hpc : CallOk id pc) (ha : act db pc e = some (db', pc')) :
    (FreshSave db pc e ↔ LawfulStep db db') ∧ db'.tenant.id = id ∧ CallOk id pc' := by
  have hquiet : db'.tenant = db.tenant → CallOk id pc' → FreshSave db pc e →
      (FreshSave db pc e ↔ LawfulStep db db') ∧ db'.tenant.id = id ∧ CallOk id pc' := by
    intro heq hok hfresh
    refine ⟨iff_of_true hfresh ⟨lawfulChange_of_status (heq ▸ rfl), ?_⟩, heq ▸ hdb.1, hok⟩
    rw [heq]
    exact hdb.2
  cases pc with
  | idle =>
    cases e with
    | update tid dto =>
      cases ha
      exact hquiet rfl (callOk_withTenant hdb tid fun t ht => callOk_update dto ht) trivial
    | updateConfig tid dto auth =>
      cases ha
      exact hquiet rfl
        (callOk_withTenant hdb tid fun t ht => callOk_beginUpdateConfig dto auth ht) trivial
    | updateStatus tid status now =>
      cases ha
      exact hquiet rfl
        (callOk_withTenant hdb tid fun t ht => callOk_beginUpdateStatus status now ht) trivial
    | _ => cases ha
  | checkingConnector loaded dto auth connectorId =>
    cases e with
    | connector found =>
      simp only [act] at ha
      split at ha
      · cases ha
        exact hquiet rfl trivial trivial
      · cases ha
        exact hquiet rfl (callOk_saveConfig dto hpc) trivial
    | abort err =>
      cases ha
      exact hquiet rfl trivial trivial
    | _ => cases ha
  | saving loaded entity after =>
    cases e with
    | next =>
      cases ha
      cases entity with
      | none => exact hquiet rfl trivial trivial
      | some entity =>
        obtain ⟨he, hs⟩ := hpc entity rfl
        exact hquiet rfl ⟨he, hdb, hs⟩ trivial
    | abort err =>
      cases ha
      exact hquiet rfl trivial trivial
    | _ => cases ha
  | writing loaded entity row after =>
    cases e with
    | next =>
      have hrun : runSave db entity row after = (db', pc') := Option.some.inj ha
      have hlaw := lawfulStep_save_iff hdb hpc
      have htenant := runSave_tenant db entity row after
      have hok : CallOk id (runSave db entity row after).2 := callOk_runSave db entity row after
      rw [hrun] at hlaw htenant hok
      refine ⟨hlaw.symm, ?_, hok⟩
      rw [htenant]
      exact hdb.1
    | abort err =>
      cases ha
      exact hquiet rfl trivial trivial
    | _ => cases ha
  | publishing saved =>
    cases e with
    | next =>
      cases ha
      exact hquiet rfl trivial trivial
    | abort err =>
      cases ha
      exact hquiet rfl trivial trivial
    | _ => cases ha
  | done result => cases e <;> cases ha

end Invariant

/-! ### Runs -/

/-- Every statement of a run is lawful if and only if every save of the run is fresh. -/
theorem lifecycle_lawful_iff (db : Store) (events : List (ℕ × Event))
    (hdb : DeactivatedAtAgrees db.tenant) :
    Run.All step (Run.Across LawfulStep) ⟨db, fun _ => .idle⟩ events ↔
      Run.All step (Run.Before FreshSave) ⟨db, fun _ => .idle⟩ events := by
  symm
  refine Run.all_iff_of_invariant
    (Run.Holds (fun d => EntityOk db.tenant.id d.tenant) (fun _ pc => CallOk db.tenant.id pc))
    ?_ ?_ ⟨⟨rfl, hdb⟩, fun _ => trivial⟩
  · intro w l w' hw hs
    obtain ⟨db', pc', ha, rfl⟩ := Run.interleave_cases hs
    exact (act_lawful_iff hw.1 (hw.2 l.1) ha).1
  · intro w l w' hw hs hc
    refine Run.holds_interleave (C := FreshSave) ?_ (fun _ _ _ _ _ _ _ _ ho _ _ => ho) hw hs hc
    intro d pc e d' pc' hd hpc ha hfresh
    obtain ⟨hiff, hid, hpc'⟩ := act_lawful_iff hd hpc ha
    exact ⟨⟨hid, (hiff.mp hfresh).2⟩, hpc'⟩

/-! ### A description edit over a deactivation -/

def activeTenant : Tenant := ⟨"t", "Acme", "acme", none, .active, [], none⟩

def editOverDeactivation : List (ℕ × Event) :=
  [(0, .update "t" { description := .value "new" }), (1, .updateStatus "t" .deactivated 1000),
    (1, .next), (1, .next), (0, .next)]

def editThenDeactivation : List (ℕ × Event) :=
  [(0, .update "t" { description := .value "new" }), (0, .next), (0, .next),
    (1, .updateStatus "t" .deactivated 1000), (1, .next), (1, .next)]

theorem lifecycle_lawful_in_turn :
    Run.All step (Run.Across LawfulStep) ⟨⟨activeTenant, [], []⟩, fun _ => .idle⟩
      editThenDeactivation := by
  refine (lifecycle_lawful_iff ⟨activeTenant, [], []⟩ editThenDeactivation
    (by decide)).mpr ?_
  have hboth : ∀ {entity row : Tenant},
      (entity.status = row.status ↔ entity.deactivatedAt = row.deactivatedAt) →
        ¬ WritesOneColumn entity row := fun h hone => hone h
  exact ⟨_, rfl, trivial, _, rfl, trivial, _, rfl,
    ⟨fun h => absurd rfl h, fun h => absurd h (hboth (by decide))⟩, _, rfl, trivial, _, rfl, trivial,
    _, rfl, ⟨fun _ => Or.inl rfl, fun h => absurd h (hboth (by decide))⟩, trivial⟩

theorem lifecycle_reverted : ¬ ∀ (db : Store) (events : List (ℕ × Event)),
    DeactivatedAtAgrees db.tenant →
    Run.Enabled step ⟨db, fun _ => .idle⟩ events →
    Run.All step (Run.Across LawfulStep) ⟨db, fun _ => .idle⟩ events := by
  intro hall
  have hrun := hall ⟨activeTenant, [], []⟩ (editOverDeactivation ++ [(0, .next)])
    (by decide) (Run.enabled_of_final (by decide +kernel))
  obtain ⟨w, w', hlaw, hq⟩ := Run.all_last hrun
    (fun w w' => decide (w.db.tenant.status = .deactivated ∧ w'.db.tenant.status = .active ∧
      w'.db.statusJobs = w.db.statusJobs))
    (by decide +kernel)
  obtain ⟨hdeactivated, hactive, hjobs⟩ := of_decide_eq_true hq
  have hsent := (hlaw.1 (by rw [hdeactivated, hactive]; decide)).2
  rw [hjobs] at hsent
  simp at hsent

end VcCommonService.Tenants
