import VcCommonService.Credential.Definitions

/-!
# Deactivated definitions

`update` saves the definition as it was loaded, active. When the save reads the row after a `delete`
has committed, `is_active` is one of the columns that differ, and the definition comes back unless
its key was taken meanwhile.
-/

namespace VcCommonService.Credentials
open Lib
open Table (written)

def IsDeactivated (db : Definitions) (id : String) : Prop :=
  ∃ d ∈ db, d.id = id ∧ d.isActive = false

/-- A deactivated definition is still deactivated after the step: it is not found, and its name and
format are not taken by it. -/
structure StaysDeactivated (db db' : Definitions) : Prop where
  inactive : ∀ id, IsDeactivated db id → IsDeactivated db' id
  unresolved : ∀ id, IsDeactivated db id → findById db' id = none
  free : ∀ id, IsDeactivated db id → ∀ tenantId name format d,
    findByTenantAndNameAndFormat db' tenantId name format = some d → d.id ≠ id

/-- A save that has read its row as inactive runs into the unique index. -/
def SavesActive (db : Definitions) : DefinitionCall → DefinitionEvent → Prop
  | .writing entity row, .next _ =>
    row.isActive = false → ∀ current,
      Table.lookup CredentialDefinition.id entity.id db = some current →
        violatesUnique db (writeDefinition row entity current) = true
  | _, _ => True

/-- What was read as inactive still is. -/
def CallInactive (db : Definitions) : DefinitionCall → Prop
  | .writing entity row => row.isActive = false → IsDeactivated db entity.id
  | _ => True

section Steps

variable {db db' : Definitions} {pc pc' : DefinitionCall} {e : DefinitionEvent}

theorem staysDeactivated_of_inactive (hu : UniqueIds db')
    (h : ∀ id, IsDeactivated db id → IsDeactivated db' id) : StaysDeactivated db db' := by
  have hactive : ∀ id, IsDeactivated db id → ∀ d ∈ db', d.isActive = true → d.id ≠ id := by
    rintro id hid d hd hd' rfl
    obtain ⟨d', hmem, hsame, hinactive⟩ := h _ hid
    rw [Table.eq_of_key hu hmem hd hsame, hd'] at hinactive
    cases hinactive
  refine ⟨h, fun id hid => ?_, fun id hid tenantId name format d hfind => ?_⟩
  · refine List.find?_eq_none.mpr fun d hd hfound => ?_
    simp only [Bool.and_eq_true, decide_eq_true_eq] at hfound
    exact hactive id hid d hd hfound.2 hfound.1
  · have hfound := List.find?_some hfind
    simp only [Bool.and_eq_true] at hfound
    exact hactive id hid d (List.mem_of_find?_eq_some hfind) hfound.2

theorem isDeactivated_updateWhere {p : CredentialDefinition → Bool}
    {f : CredentialDefinition → CredentialDefinition} {id : String} (hid : ∀ d, (f d).id = d.id)
    (hf : ∀ d ∈ db, d.isActive = false → p d = true → (f d).isActive = false)
    (h : IsDeactivated db id) : IsDeactivated (Table.updateWhere p f db) id := by
  obtain ⟨d, hd, rfl, hinactive⟩ := h
  refine ⟨if p d then f d else d, (Table.mem_updateWhere p f db _).mpr ⟨d, hd, rfl⟩, ?_⟩
  split
  next hp => exact ⟨hid d, hf d hd hinactive hp⟩
  · exact ⟨rfl, hinactive⟩

/-- The column is written only when the row was read as inactive. -/
theorem isActive_writeDefinition {entity row : CredentialDefinition} (hentity : entity.isActive = true)
    (current : CredentialDefinition) :
    (writeDefinition row entity current).isActive =
      if row.isActive then current.isActive else true := by
  simp only [writeDefinition, hentity]
  cases row.isActive <;> rfl

theorem inactive_of_change (hcall : CallTracked db pc) (hchange : Change db pc db')
    (hsaves : ∀ entity row, pc = .writing entity row → db' ≠ db → row.isActive = true) :
    ∀ id, IsDeactivated db id → IsDeactivated db' id := by
  intro id hid
  cases hchange with
  | quiet => exact hid
  | insert tenantId dto newId hnew =>
    obtain ⟨d, hd, hrest⟩ := hid
    exact ⟨d, List.mem_append_left _ hd, hrest⟩
  | write entity row current hcurrent hfree =>
    by_cases hsame : Table.updateWhere (fun d => decide (d.id = entity.id))
        (writeDefinition row entity) db = db
    · rwa [hsame]
    · refine isDeactivated_updateWhere (fun _ => rfl) (fun d hd hinactive hp => ?_) hid
      rw [isActive_writeDefinition hcall.1, hsaves entity row rfl hsame, if_pos rfl]
      exact hinactive
  | deactivate id' => exact isDeactivated_updateWhere (fun _ => rfl) (fun _ _ _ _ => rfl) hid

/-- A save of a row that was read as inactive brings the definition back unless the unique index
rejects it. -/
theorem writing_iff (hu : UniqueIds db) {entity row : CredentialDefinition} {newId : String}
    (hcall : CallTracked db (.writing entity row)) (hinactive : CallInactive db (.writing entity row))
    (h : definitionAct db (.writing entity row) (.next newId) = some (db', pc')) :
    SavesActive db (.writing entity row) (.next newId) ↔ StaysDeactivated db db' := by
  have hu' := uniqueIds_change hu (change_of_act h)
  cases hrow : row.isActive with
  | true =>
    refine iff_of_true (fun hfalse => ?_) ?_
    · rw [hrow] at hfalse
      cases hfalse
    · refine staysDeactivated_of_inactive hu'
        (inactive_of_change hcall (change_of_act h) fun _ _ hpc _ => ?_)
      cases hpc
      exact hrow
  | false =>
    obtain ⟨current, hmem, hid, hcurrent⟩ := hinactive hrow
    have hlookup : Table.lookup CredentialDefinition.id entity.id db = some current :=
      (Table.lookup_eq_some_iff hu).mpr ⟨hmem, hid⟩
    simp only [definitionAct, writeRow, hlookup] at h
    cases hviolates : violatesUnique db (writeDefinition row entity current) with
    | true =>
      rw [hviolates, if_pos rfl] at h
      cases h
      refine iff_of_true (fun _ other hother => ?_) (staysDeactivated_of_inactive hu fun _ => id)
      rw [hlookup] at hother
      cases hother
      exact hviolates
    | false =>
      rw [hviolates, if_neg nofun] at h
      cases h
      refine iff_of_false (fun hsaves => ?_) fun hstays => ?_
      · rw [hsaves hrow current hlookup] at hviolates
        cases hviolates
      · obtain ⟨d, hd, hsame, hd'⟩ := hstays.inactive entity.id ⟨current, hmem, hid, hcurrent⟩
        obtain ⟨q, hq, rfl⟩ := (Table.mem_updateWhere _ _ _ _).mp hd
        have hqid : q.id = entity.id := by
          split at hsame
          · exact hsame
          · exact hsame
        rw [if_pos (decide_eq_true hqid), isActive_writeDefinition hcall.1, hrow] at hd'
        cases hd'

theorem savesActive_iff (hu : UniqueIds db) (hcall : CallTracked db pc)
    (hinactive : CallInactive db pc) (h : definitionAct db pc e = some (db', pc')) :
    SavesActive db pc e ↔ StaysDeactivated db db' := by
  have hquiet : (∀ entity row, pc = .writing entity row → db' ≠ db → row.isActive = true) →
      StaysDeactivated db db' := fun hsaves =>
    staysDeactivated_of_inactive (uniqueIds_change hu (change_of_act h))
      (inactive_of_change hcall (change_of_act h) hsaves)
  cases pc with
  | writing entity row =>
    cases e with
    | next newId => exact writing_iff hu hcall hinactive h
    | abort error =>
      cases h
      exact iff_of_true trivial (staysDeactivated_of_inactive hu fun _ => id)
    | _ => cases h
  | _ =>
    refine iff_of_true trivial (hquiet fun entity row hpc => ?_)
    cases hpc

theorem writing_of_act {entity row : CredentialDefinition}
    (h : definitionAct db pc e = some (db', .writing entity row)) :
    db' = db ∧ Table.lookup CredentialDefinition.id entity.id db = some row := by
  unfold definitionAct at h
  split at h
  · split at h <;> cases h
  · split at h
    · cases h
    · have hcall := congrArg Prod.snd (Option.some.inj h)
      simp only [beginUpdate] at hcall
      split at hcall <;> cases hcall
  · split at h <;> cases h
  · split at h
    · cases h
    · split at h <;> cases h
  · obtain ⟨row', hlookup, hrow⟩ := Option.map_eq_some_iff.mp h
    cases hrow
    exact ⟨rfl, hlookup⟩
  · split at h <;> cases h
  all_goals cases h

theorem callInactive_own (hu : UniqueIds db) (h : definitionAct db pc e = some (db', pc')) :
    CallInactive db' pc' := by
  cases pc' with
  | writing entity row =>
    obtain ⟨rfl, hlookup⟩ := writing_of_act h
    obtain ⟨hmem, hid⟩ := (Table.lookup_eq_some_iff hu).mp hlookup
    exact fun hinactive => ⟨row, hmem, hid, hinactive⟩
  | _ => trivial

end Steps

theorem callInactive_step {w w' : DefinitionWorld} {l : ℕ × DefinitionEvent}
    (hi : Run.Holds UniqueIds CallTracked w ∧ ∀ i, CallInactive w.db (w.calls i))
    (hs : definitionStep w l = some w') (hstays : StaysDeactivated w.db w'.db) :
    Run.Holds UniqueIds CallTracked w' ∧ ∀ i, CallInactive w'.db (w'.calls i) := by
  refine ⟨tracked_step hi.1 hs, fun i => ?_⟩
  obtain ⟨db', pc', ha, rfl⟩ := Run.interleave_cases hs
  by_cases h : i = l.1
  · subst h
    simpa only [Function.update_self] using callInactive_own hi.1.1 ha
  · simp only [Function.update_of_ne h]
    have hother := hi.2 i
    revert hother
    cases w.calls i with
    | writing entity row => exact fun hother hrow => hstays.inactive _ (hother hrow)
    | _ => exact fun _ => trivial

/-- Deactivated definitions stay deactivated in a run if and only if every save that has read its
row as inactive is rejected by the unique index. -/
theorem stays_deactivated_iff (db : Definitions) (hu : UniqueIds db)
    (events : List (ℕ × DefinitionEvent)) :
    Run.All definitionStep (Run.Across StaysDeactivated) (definitionStart db) events ↔
      Run.All definitionStep (Run.Before SavesActive) (definitionStart db) events := by
  symm
  refine Run.all_iff_of_invariant
    (fun w => Run.Holds UniqueIds CallTracked w ∧ ∀ i, CallInactive w.db (w.calls i))
    (fun w l w' hi hs => ?_) (fun w l w' hi hs hc => ?_) ⟨tracked_start hu, fun _ => trivial⟩
  · obtain ⟨db', pc', ha, rfl⟩ := Run.interleave_cases hs
    exact savesActive_iff hi.1.1 (hi.1.2 l.1) (hi.2 l.1) ha
  · refine callInactive_step hi hs ?_
    obtain ⟨db', pc', ha, rfl⟩ := Run.interleave_cases hs
    exact (savesActive_iff hi.1.1 (hi.1.2 l.1) (hi.2 l.1) ha).mp hc

/-! ### A rename and a deletion -/

def person : CredentialDefinition :=
  ⟨"d1", "t", "Person", .mdl, [], "ext", .traction, none, true⟩

def ownerAuth : Auth.AuthContext := ⟨"u", .user, some "t", [], []⟩

def rename : DefinitionEvent := .update "t" "d1" ⟨.value "Human", .undefined⟩ ownerAuth

def readBeforeDelete : List (ℕ × DefinitionEvent) :=
  [(0, rename), (0, .next ""), (1, .delete "t" "d1" ownerAuth), (1, .next ""), (0, .next "")]

def readAfterDelete : List (ℕ × DefinitionEvent) :=
  [(0, rename), (1, .delete "t" "d1" ownerAuth), (1, .next ""), (0, .next ""), (0, .next "")]

theorem stays_deactivated_read_before :
    Run.All definitionStep (Run.Across StaysDeactivated) (definitionStart [person])
      readBeforeDelete :=
  (stays_deactivated_iff [person] (List.nodup_singleton _) readBeforeDelete).mpr
    ⟨_, rfl, trivial, _, rfl, trivial, _, rfl, trivial, _, rfl, trivial, _, rfl, nofun, trivial⟩

/-- A rename in flight activates the deleted definition again. -/
theorem deactivated_resurrected : ¬ ∀ (db : Definitions), UniqueIds db →
    ∀ events, Run.Enabled definitionStep (definitionStart db) events →
      Run.All definitionStep (Run.Across StaysDeactivated) (definitionStart db) events := by
  intro hall
  obtain ⟨_, h1, -, _, h2, -, _, h3, -, _, h4, -, _, h5, hstays, -⟩ :=
    hall [person] (List.nodup_singleton _) readAfterDelete
      ⟨_, rfl, trivial, _, rfl, trivial, _, rfl, trivial, _, rfl, trivial, _, rfl, trivial, trivial⟩
  cases h1
  cases h2
  cases h3
  cases h4
  cases h5
  have hfound := hstays.unresolved "d1" ⟨_, List.mem_singleton.mpr rfl, rfl, rfl⟩
  cases hfound

end VcCommonService.Credentials
