import VcCommonService.TenantUser.Service

/-!
# An owner who can still sign in

The guard of `update` and `delete` counts owner rows whatever their status, and a change
of status alone does not reach it. Calls made one after the other keep an active owner
exactly as long as none of them takes the last one away: by disabling it, or by demoting or
deleting it while an owner who is invited or disabled satisfies the count.
-/

namespace VcCommonService.TenantUsers
open Lib Auth

/-! ### Calls in sequence -/

inductive ServiceCall where
  | invite (generatedId : String) (tenantId : TenantId) (dto : InviteTenantUserDto)
  | create (generatedId : String) (dto : CreateTenantUserDto)
  | claimInvitedByEmail (tenantId : TenantId) (email externalUserId : String)
  | update (tenantId : TenantId) (id : String) (dto : UpdateTenantUserDto)
      (callerTenantUserId : Option String)
  | delete (tenantId : TenantId) (id : String)

def exec (text : EmailCase) (users : List TenantUser) : ServiceCall → Result
  | .invite generatedId tenantId dto => invite users generatedId tenantId dto
  | .create generatedId dto => create users generatedId dto
  | .claimInvitedByEmail tenantId email externalUserId =>
    claimInvitedByEmail text users tenantId email externalUserId
  | .update tenantId id dto caller => update users tenantId id dto caller
  | .delete tenantId id => delete users tenantId id

def callStep (text : EmailCase) (users : List TenantUser) (call : ServiceCall) :
    Option (List TenantUser) := some (exec text users call).1

/-! ### Active owners -/

def isActiveOwner (tenantId : TenantId) (u : TenantUser) : Prop :=
  u.tenantId = tenantId ∧ u.role = .owner ∧ u.status = .active

instance (tenantId : TenantId) (u : TenantUser) : Decidable (isActiveOwner tenantId u) :=
  inferInstanceAs (Decidable (_ ∧ _))

def HasActiveOwner (tenantId : TenantId) (users : List TenantUser) : Prop :=
  ∃ u ∈ users, isActiveOwner tenantId u

instance (tenantId : TenantId) (users : List TenantUser) : Decidable (HasActiveOwner tenantId users) :=
  inferInstanceAs (Decidable (∃ u ∈ users, isActiveOwner tenantId u))

def HasOtherOwner (tenantId : TenantId) (users : List TenantUser) (id : String) : Prop :=
  ∃ u ∈ users, isActiveOwner tenantId u ∧ u.id ≠ id

/-- A call that goes through and takes an active owner away leaves another one. -/
def LeavesActiveOwner (owned : TenantId) (users : List TenantUser) : ServiceCall → Prop
  | .update tenantId id dto caller =>
    ∀ old entity, UpdateAccepted users tenantId id dto caller old entity →
      isActiveOwner owned old → ¬ isActiveOwner owned entity → HasOtherOwner owned users id
  | .delete tenantId id =>
    ∀ old, DeleteAccepted users tenantId id old → isActiveOwner owned old →
      HasOtherOwner owned users id
  | _ => True

section Step

variable {owned : TenantId} {users : List TenantUser}

/-- Table changes that take nothing from an active owner. -/
inductive Harmless (text : EmailCase) (users : List TenantUser) : List TenantUser → Prop
  | unchanged : Harmless text users users
  | inserted (entity : TenantUser) (hnew : ∀ u ∈ users, u.id ≠ entity.id) :
      Harmless text users (users ++ [entity])
  | claimed (tenantId : TenantId) (email externalUserId : String) :
      Harmless text users
        (Table.updateWhere (claimable text tenantId email) (claim externalUserId) users)

theorem harmless_insert (text : EmailCase) (users : List TenantUser) (entity : TenantUser) :
    Harmless text users (insert users entity).1 := by
  unfold insert
  split
  · exact .unchanged
  next row _ =>
    split
    · exact .unchanged
    next hnew =>
      have hfresh : ∀ u ∈ users, u.id ≠ row.id := by simpa using hnew
      cases violatesUnique users row with
      | some name => exact .unchanged
      | none => exact .inserted row hfresh

theorem exec_cases (text : EmailCase) (users : List TenantUser) (call : ServiceCall) :
    (Harmless text users (exec text users call).1 ∧
      ∀ owned, LeavesActiveOwner owned users call) ∨
    (∃ tenantId id dto caller old entity, call = .update tenantId id dto caller ∧
      UpdateAccepted users tenantId id dto caller old entity ∧
      (exec text users call).1 = Table.save TenantUser.id entity users) ∨
    (∃ tenantId id old, call = .delete tenantId id ∧ DeleteAccepted users tenantId id old ∧
      (exec text users call).1 =
        Table.deleteWhere (fun u => decide (u.id = old.id)) users) := by
  cases call with
  | invite generatedId tenantId dto =>
    refine Or.inl ⟨?_, fun _ => trivial⟩
    simp only [exec, invite]
    cases findByTenantAndEmail users tenantId dto.email with
    | some _ => exact .unchanged
    | none => exact harmless_insert text users _
  | create generatedId dto =>
    refine Or.inl ⟨?_, fun _ => trivial⟩
    simp only [exec, create]
    cases findByTenantAndExternalUserId users dto.tenantId dto.externalUserId with
    | some _ => exact .unchanged
    | none =>
      cases newUser generatedId dto with
      | none => exact .unchanged
      | some entity => exact harmless_insert text users entity
  | claimInvitedByEmail tenantId email externalUserId =>
    refine Or.inl ⟨?_, fun _ => trivial⟩
    simp only [exec, claimInvitedByEmail]
    split
    · exact .unchanged
    next stored _ =>
      split
      · simp only [updateClaimed]
        split
        · exact .unchanged
        · exact .claimed tenantId email stored
      · exact .unchanged
  | update tenantId id dto caller =>
    by_cases hacc : ∃ old entity, UpdateAccepted users tenantId id dto caller old entity
    · obtain ⟨old, entity, hacc⟩ := hacc
      refine Or.inr (Or.inl ⟨_, _, _, _, old, entity, rfl, hacc, ?_⟩)
      rw [exec, update_of_accepted hacc]
    · have hrefused : ∀ old entity, ¬ UpdateAccepted users tenantId id dto caller old entity :=
        fun old entity h => hacc ⟨old, entity, h⟩
      refine Or.inl ⟨?_, fun _ old entity h => absurd h (hrefused old entity)⟩
      rw [exec, update_of_refused hrefused]
      exact .unchanged
  | delete tenantId id =>
    by_cases hacc : ∃ old, DeleteAccepted users tenantId id old
    · obtain ⟨old, hacc⟩ := hacc
      refine Or.inr (Or.inr ⟨_, _, old, rfl, hacc, ?_⟩)
      rw [exec, delete_of_accepted hacc]
    · have hrefused : ∀ old, ¬ DeleteAccepted users tenantId id old := fun old h => hacc ⟨old, h⟩
      refine Or.inl ⟨?_, fun _ old h => absurd h (hrefused old)⟩
      rw [exec, delete_of_refused hrefused]
      exact .unchanged

theorem uniqueKeys_of_harmless {text : EmailCase} {users' : List TenantUser}
    (hu : Table.UniqueKeys TenantUser.id users) (h : Harmless text users users') :
    Table.UniqueKeys TenantUser.id users' := by
  cases h with
  | unchanged => exact hu
  | inserted entity hnew => exact Table.uniqueKeys_append hu hnew
  | claimed tenantId email externalUserId =>
    have hkey : ∀ u, (claim externalUserId u).id = u.id := fun _ => rfl
    exact Table.uniqueKeys_updateWhere hkey hu

theorem uniqueKeys_exec (text : EmailCase) (call : ServiceCall)
    (hu : Table.UniqueKeys TenantUser.id users) :
    Table.UniqueKeys TenantUser.id (exec text users call).1 := by
  rcases exec_cases text users call with ⟨h, -⟩ | ⟨_, _, _, _, _, entity, -, -, h⟩ |
    ⟨_, _, _, -, -, h⟩
  · exact uniqueKeys_of_harmless hu h
  · rw [h]
    exact Table.uniqueKeys_save entity hu
  · rw [h]
    exact Table.uniqueKeys_deleteWhere _ hu

/-! ### One call -/

theorem hasActiveOwner_of_harmless {text : EmailCase} {users' : List TenantUser}
    (hi : HasActiveOwner owned users) (h : Harmless text users users') :
    HasActiveOwner owned users' := by
  obtain ⟨u, hu, hown⟩ := hi
  cases h with
  | unchanged => exact ⟨u, hu, hown⟩
  | inserted entity _ => exact ⟨u, List.mem_append_left _ hu, hown⟩
  | claimed tenantId email externalUserId =>
    -- an active row is not an invited one
    have hnot : claimable text tenantId email u = false := by
      simp [claimable, hown.2.2]
    exact ⟨u, (Table.mem_updateWhere _ _ _ _).mpr ⟨u, hu, by rw [hnot]; rfl⟩, hown⟩

theorem otherOwner_of_not_old (hu : Table.UniqueKeys TenantUser.id users) {old : TenantUser}
    (hold : old ∈ users) (hi : HasActiveOwner owned users) (h : ¬ isActiveOwner owned old) :
    HasOtherOwner owned users old.id := by
  obtain ⟨u, hmem, hown⟩ := hi
  refine ⟨u, hmem, hown, fun hid => h ?_⟩
  exact Table.eq_of_key hu hmem hold hid ▸ hown

theorem hasActiveOwner_save_iff (hu : Table.UniqueKeys TenantUser.id users) (entity : TenantUser) :
    HasActiveOwner owned (Table.save TenantUser.id entity users) ↔
      isActiveOwner owned entity ∨ HasOtherOwner owned users entity.id := by
  unfold HasActiveOwner HasOtherOwner
  simp only [Table.mem_save hu]
  constructor
  · rintro ⟨u, rfl | ⟨hmem, hid⟩, hown⟩
    · exact Or.inl hown
    · exact Or.inr ⟨u, hmem, hown, hid⟩
  · rintro (hown | ⟨u, hmem, hown, hid⟩)
    · exact ⟨entity, Or.inl rfl, hown⟩
    · exact ⟨u, Or.inr ⟨hmem, hid⟩, hown⟩

theorem hasActiveOwner_delete_iff (id : String) :
    HasActiveOwner owned (Table.deleteWhere (fun u => decide (u.id = id)) users) ↔
      HasOtherOwner owned users id := by
  unfold HasActiveOwner HasOtherOwner
  simp only [Table.mem_deleteWhere, decide_eq_false_iff_not]
  constructor
  · rintro ⟨u, ⟨hmem, hid⟩, hown⟩
    exact ⟨u, hmem, hown, hid⟩
  · rintro ⟨u, hmem, hown, hid⟩
    exact ⟨u, ⟨hmem, hid⟩, hown⟩

theorem leavesActiveOwner_iff (text : EmailCase) (call : ServiceCall)
    (hu : Table.UniqueKeys TenantUser.id users) (hi : HasActiveOwner owned users) :
    LeavesActiveOwner owned users call ↔ HasActiveOwner owned (exec text users call).1 := by
  rcases exec_cases text users call with ⟨h, hc⟩ |
    ⟨tenantId, id, dto, caller, old, entity, rfl, hacc, h⟩ | ⟨tenantId, id, old, rfl, hacc, h⟩
  · exact iff_of_true (hc owned) (hasActiveOwner_of_harmless hi h)
  · obtain ⟨hold, hid, -⟩ := findByTenantAndId_some hacc.found
    have heid : entity.id = id := (applyDto_key dto old entity hacc.assigned).1.trans hid
    rw [h, hasActiveOwner_save_iff hu, heid]
    constructor
    · intro hc
      by_cases hown : isActiveOwner owned old
      · by_cases hnew : isActiveOwner owned entity
        · exact Or.inl hnew
        · exact Or.inr (hc old entity hacc hown hnew)
      · exact Or.inr (hid ▸ otherOwner_of_not_old hu hold hi hown)
    · intro hafter old' entity' hacc' _ hnew
      have he : old' = old := Option.some.inj (hacc'.found.symm.trans hacc.found)
      have he' : entity' = entity :=
        Option.some.inj (hacc'.assigned.symm.trans (he ▸ hacc.assigned))
      exact hafter.resolve_left (he' ▸ hnew)
  · obtain ⟨hold, hid, -⟩ := findByTenantAndId_some hacc.found
    rw [h, hasActiveOwner_delete_iff, hid]
    constructor
    · intro hc
      by_cases hown : isActiveOwner owned old
      · exact hc old hacc hown
      · exact hid ▸ otherOwner_of_not_old hu hold hi hown
    · intro hafter _ _ _
      exact hafter

end Step

/-! ### Runs -/

/-- In a run from a tenant with an active owner, every state has one if and only if every
call that takes one away leaves another. -/
theorem activeOwner_kept_iff (text : EmailCase) (owned : TenantId) (users : List TenantUser)
    (calls : List ServiceCall) (hu : Table.UniqueKeys TenantUser.id users)
    (howner : HasActiveOwner owned users) :
    Run.All (callStep text) (fun _ _ users' => HasActiveOwner owned users') users calls ↔
      Run.All (callStep text) (fun users call _ => LeavesActiveOwner owned users call)
        users calls := by
  symm
  refine Run.all_iff_of_invariant
    (fun users => Table.UniqueKeys TenantUser.id users ∧ HasActiveOwner owned users)
    ?_ ?_ ⟨hu, howner⟩
  · rintro users call users' ⟨hu, hi⟩ hs
    cases hs
    exact leavesActiveOwner_iff text call hu hi
  · rintro users call users' ⟨hu, hi⟩ hs hc
    cases hs
    exact ⟨uniqueKeys_exec text call hu, (leavesActiveOwner_iff text call hu hi).mp hc⟩

/-! ### The only owner is disabled -/

def plainCase : EmailCase := ⟨id, id⟩

def disable : UpdateTenantUserDto := { status := .value .disabled }

theorem activeOwner_kept_second :
    Run.All (callStep plainCase) (fun _ _ users' => HasActiveOwner "t" users') twoOwners
      [.update "t" "u1" disable (some "u2")] := by
  refine (activeOwner_kept_iff plainCase "t" twoOwners _ (by decide)
    (by decide)).mpr ?_
  refine ⟨_, rfl, ?_, trivial⟩
  intro old entity _ _ _
  exact ⟨⟨"u2", "t", none, "b@example.com", none, .owner, .active⟩, by decide, by decide, by decide⟩

theorem activeOwner_lost : ¬ ∀ (text : EmailCase) (owned : TenantId) (users : List TenantUser)
    (calls : List ServiceCall), Table.UniqueKeys TenantUser.id users →
    HasActiveOwner owned users →
    Run.All (callStep text) (fun _ _ users' => HasActiveOwner owned users') users calls := by
  intro hall
  obtain ⟨users', hs, hown, -⟩ := hall plainCase "t" (twoOwners.take 1)
    [.update "t" "u1" disable none] (by decide)
    (by decide)
  cases hs
  revert hown
  decide

end VcCommonService.TenantUsers
