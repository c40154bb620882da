import VcCommonService.TenantUser.ActiveOwner

/-!
# The unique constraints of `tenant_user`

`uq_tenant_user_tenant_email` and `uq_tenant_user_external_user`: two rows of a tenant share
neither an e-mail address nor an external id. Every statement that writes checks them, and cuts
or refuses what is longer than its column, so every table that calls lead to meets them.
-/

namespace VcCommonService.TenantUsers
open Lib Auth

def Conflict (u v : TenantUser) : Prop :=
  u.tenantId = v.tenantId ∧
    (u.email = v.email ∨ (u.externalUserId ≠ none ∧ u.externalUserId = v.externalUserId))

structure Constraints (users : List TenantUser) : Prop where
  keys : Table.UniqueKeys TenantUser.id users
  noConflict : ∀ u ∈ users, ∀ v ∈ users, Conflict u v → u.id = v.id

/-- Every subject is what its column can hold. -/
def SubjectsFit (users : List TenantUser) : Prop :=
  ∀ u ∈ users, ∀ sub, u.externalUserId = some sub → Varchar.Fits 255 sub

theorem Conflict.symm {u v : TenantUser} (h : Conflict u v) : Conflict v u := by
  refine ⟨h.1.symm, h.2.imp Eq.symm fun hext => ⟨?_, hext.2.symm⟩⟩
  rw [← hext.2]
  exact hext.1

theorem violatesUnique_none_iff (users : List TenantUser) (entity : TenantUser) :
    violatesUnique users entity = none ↔
      ∀ u ∈ users, u.id ≠ entity.id → ¬ Conflict u entity := by
  have hsome : ∀ u : TenantUser, u.externalUserId.isSome = true ↔ u.externalUserId ≠ none := by
    intro u
    cases u.externalUserId <;> simp
  simp only [violatesUnique, List.any_filter]
  constructor
  · intro h u hu hid hconflict
    split at h
    · cases h
    next hemail =>
      split at h
      · cases h
      next hext =>
        simp only [List.any_eq_true, Bool.and_eq_true, decide_eq_true_eq, not_exists, not_and,
          hsome] at hemail hext
        rcases hconflict.2 with he | he
        · exact hemail u hu ⟨hid, hconflict.1⟩ he
        · exact hext u hu ⟨hid, hconflict.1⟩ he.1 he.2
  · intro h
    rw [if_neg, if_neg]
    · simp only [List.any_eq_true, Bool.and_eq_true, decide_eq_true_eq, hsome]
      rintro ⟨u, hu, ⟨hid, ht⟩, hlink, hext⟩
      exact h u hu hid ⟨ht, Or.inr ⟨hlink, hext⟩⟩
    · simp only [List.any_eq_true, Bool.and_eq_true, decide_eq_true_eq]
      rintro ⟨u, hu, ⟨hid, ht⟩, hemail⟩
      exact h u hu hid ⟨ht, Or.inl hemail⟩

section Calls

variable {users : List TenantUser}

theorem Constraints.eq (h : Constraints users) {u v : TenantUser} (hu : u ∈ users)
    (hv : v ∈ users) (hconflict : Conflict u v) : u = v :=
  Table.eq_of_key h.keys hu hv (h.noConflict u hu v hv hconflict)

/-! ### What a call writes -/

/-- What the columns store of an entity. -/
theorem storedUser_eq {entity row : TenantUser} (h : storedUser entity = some row) :
    row.id = entity.id ∧ row.tenantId = entity.tenantId ∧ row.role = entity.role ∧
      row.status = entity.status ∧
      Varchar.storedOrNull 255 entity.externalUserId = some row.externalUserId ∧
      Varchar.stored 255 entity.email = some row.email ∧
      Varchar.storedOrNull 255 entity.displayName = some row.displayName := by
  simp only [storedUser, Option.bind_eq_bind, Option.bind_eq_some_iff, Option.pure_def,
    Option.some.injEq] at h
  obtain ⟨externalUserId, hext, email, hemail, displayName, hname, rfl⟩ := h
  exact ⟨rfl, rfl, rfl, rfl, hext, hemail, hname⟩

theorem insert_cases (users : List TenantUser) (entity : TenantUser) :
    (∃ e, insert users entity = (users, .error e)) ∨
      ∃ row, storedUser entity = some row ∧ (∀ u ∈ users, u.id ≠ row.id) ∧
        violatesUnique users row = none ∧ insert users entity = (users ++ [row], .ok (some entity)) := by
  unfold insert
  cases hrow : storedUser entity with
  | none => exact Or.inl ⟨_, rfl⟩
  | some row =>
    by_cases hnew : (users.any fun u => decide (u.id = row.id)) = true
    · exact Or.inl ⟨_, if_pos hnew⟩
    · have hfresh : ∀ u ∈ users, u.id ≠ row.id := by simpa using hnew
      cases hunique : violatesUnique users row with
      | some name => exact Or.inl ⟨.constraint name, by simp only [if_neg hnew, hunique]⟩
      | none => exact Or.inr ⟨row, rfl, hfresh, hunique, by simp only [if_neg hnew, hunique]⟩

theorem insert_users (users : List TenantUser) (entity : TenantUser) :
    (insert users entity).1 = users ∨
      ∃ row, storedUser entity = some row ∧ (∀ u ∈ users, u.id ≠ row.id) ∧
        violatesUnique users row = none ∧ (insert users entity).1 = users ++ [row] := by
  rcases insert_cases users entity with ⟨e, he⟩ | ⟨row, hrow, hfresh, hunique, he⟩
  · exact Or.inl (congrArg Prod.fst he)
  · exact Or.inr ⟨row, hrow, hfresh, hunique, congrArg Prod.fst he⟩

/-- A claim that goes through leaves no claimed row in conflict. -/
theorem claimInvitedByEmail_users (text : EmailCase) (users : List TenantUser)
    (tenantId : TenantId) (email externalUserId : String) :
    (claimInvitedByEmail text users tenantId email externalUserId).1 = users ∨
      ∃ stored, Varchar.stored 255 externalUserId = some stored ∧
        (claimInvitedByEmail text users tenantId email externalUserId).1 =
          Table.updateWhere (claimable text tenantId email) (claim stored) users ∧
        ∀ u ∈ users, claimable text tenantId email u = true →
          violatesUnique (Table.updateWhere (claimable text tenantId email) (claim stored) users)
            (claim stored u) = none := by
  unfold claimInvitedByEmail
  split
  · exact Or.inl rfl
  next stored hstored =>
    split
    · simp only [updateClaimed]
      split
      · exact Or.inl rfl
      next hnone =>
        refine Or.inr ⟨stored, hstored, rfl, fun u hu hc => ?_⟩
        exact List.findSome?_eq_none_iff.mp hnone u (List.mem_filter.mpr ⟨hu, hc⟩)
    · exact Or.inl rfl

/-! ### Every call -/

theorem constraints_insert (h : Constraints users) (entity : TenantUser) :
    Constraints (insert users entity).1 := by
  rcases insert_users users entity with he | ⟨row, -, hfresh, hunique, he⟩
  · rw [he]
    exact h
  · have hnone := (violatesUnique_none_iff users row).mp hunique
    rw [he]
    refine ⟨Table.uniqueKeys_append h.keys hfresh, fun u hu v hv hconflict => ?_⟩
    rcases List.mem_append.mp hu with hu | hu
    · rcases List.mem_append.mp hv with hv | hv
      · exact h.noConflict u hu v hv hconflict
      · rw [List.mem_singleton.mp hv] at hconflict
        exact absurd hconflict (hnone u hu (hfresh u hu))
    · rw [List.mem_singleton.mp hu] at hconflict ⊢
      rcases List.mem_append.mp hv with hv | hv
      · exact absurd hconflict.symm (hnone v hv (hfresh v hv))
      · rw [List.mem_singleton.mp hv]

theorem constraints_save (h : Constraints users) {entity : TenantUser}
    (hunique : violatesUnique users entity = none) :
    Constraints (Table.save TenantUser.id entity users) := by
  have hnone := (violatesUnique_none_iff users entity).mp hunique
  refine ⟨Table.uniqueKeys_save entity h.keys, fun u hu v hv hconflict => ?_⟩
  rcases (Table.mem_save h.keys u).mp hu with heu | ⟨hold, hid⟩
  · rcases (Table.mem_save h.keys v).mp hv with hev | ⟨hold, hid⟩
    · rw [heu, hev]
    · exact absurd (heu ▸ hconflict.symm) (hnone v hold hid)
  · rcases (Table.mem_save h.keys v).mp hv with hev | ⟨hold', -⟩
    · exact absurd (hev ▸ hconflict) (hnone u hold hid)
    · exact h.noConflict u hold v hold' hconflict

theorem constraints_deleteWhere (h : Constraints users) (p : TenantUser → Bool) :
    Constraints (Table.deleteWhere p users) := by
  refine ⟨Table.uniqueKeys_deleteWhere p h.keys, fun u hu v hv hconflict => ?_⟩
  have hu' := ((Table.mem_deleteWhere _ _ _).mp hu).1
  have hv' := ((Table.mem_deleteWhere _ _ _).mp hv).1
  exact h.noConflict u hu' v hv' hconflict

theorem constraints_claim (text : EmailCase) (h : Constraints users) (tenantId : TenantId)
    (email externalUserId : String) :
    Constraints (claimInvitedByEmail text users tenantId email externalUserId).1 := by
  rcases claimInvitedByEmail_users text users tenantId email externalUserId with
    he | ⟨stored, -, he, hclaim⟩
  · rw [he]
    exact h
  · -- a claimed row is checked against the whole table, two others have not changed
    have hchecked : ∀ u ∈ users, claimable text tenantId email u = true → ∀ v ∈
        Table.updateWhere (claimable text tenantId email) (claim stored) users,
        Conflict v (claim stored u) → v.id = u.id := by
      intro u hu hc v hv hconflict
      by_contra hid
      exact (violatesUnique_none_iff _ _).mp (hclaim u hu hc) v hv hid hconflict
    have hkey : ∀ u, (claim stored u).id = u.id := fun _ => rfl
    rw [he]
    refine ⟨Table.uniqueKeys_updateWhere hkey h.keys, fun a ha b hb hconflict => ?_⟩
    obtain ⟨u, hu, rfl⟩ := (Table.mem_updateWhere _ _ _ _).mp ha
    obtain ⟨v, hv, rfl⟩ := (Table.mem_updateWhere _ _ _ _).mp hb
    by_cases hcv : claimable text tenantId email v = true
    · rw [if_pos hcv] at hconflict ⊢
      exact hchecked v hv hcv _ ha hconflict
    · by_cases hcu : claimable text tenantId email u = true
      · rw [if_pos hcu] at hconflict ⊢
        exact (hchecked u hu hcu _ hb hconflict.symm).symm
      · rw [if_neg hcu, if_neg hcv] at hconflict ⊢
        exact h.noConflict u hu v hv hconflict

theorem constraints_exec (text : EmailCase) (h : Constraints users) (call : ServiceCall) :
    Constraints (exec text users call).1 := by
  cases call with
  | invite generatedId tenantId dto =>
    simp only [exec, invite]
    cases findByTenantAndEmail users tenantId dto.email with
    | some _ => exact h
    | none => exact constraints_insert h _
  | create generatedId dto =>
    simp only [exec, create]
    cases findByTenantAndExternalUserId users dto.tenantId dto.externalUserId with
    | some _ => exact h
    | none =>
      cases newUser generatedId dto with
      | none => exact h
      | some entity => exact constraints_insert h entity
  | claimInvitedByEmail tenantId email externalUserId =>
    exact constraints_claim text h tenantId email externalUserId
  | update tenantId id dto caller =>
    by_cases hacc : ∃ old entity, UpdateAccepted users tenantId id dto caller old entity
    · obtain ⟨old, entity, hacc⟩ := hacc
      rw [exec, update_of_accepted hacc]
      exact constraints_save h hacc.unique
    · rw [exec, update_of_refused fun old entity ha => hacc ⟨old, entity, ha⟩]
      exact h
  | delete tenantId id =>
    by_cases hacc : ∃ old, DeleteAccepted users tenantId id old
    · obtain ⟨old, hacc⟩ := hacc
      rw [exec, delete_of_accepted hacc]
      exact constraints_deleteWhere h _
    · rw [exec, delete_of_refused fun old ha => hacc ⟨old, ha⟩]
      exact h

/-! ### The subjects -/

theorem subjectsFit_insert (h : SubjectsFit users) (entity : TenantUser) :
    SubjectsFit (insert users entity).1 := by
  rcases insert_users users entity with he | ⟨row, hrow, -, -, he⟩
  · rw [he]
    exact h
  · obtain ⟨-, -, -, -, hstored, -⟩ := storedUser_eq hrow
    rw [he]
    intro u hu sub hext
    rcases List.mem_append.mp hu with hu | hu
    · exact h u hu sub hext
    · rw [List.mem_singleton.mp hu] at hext
      rw [hext] at hstored
      exact Varchar.fits_of_storedOrNull hstored

theorem subjectsFit_claim (text : EmailCase) (h : SubjectsFit users) (tenantId : TenantId)
    (email externalUserId : String) :
    SubjectsFit (claimInvitedByEmail text users tenantId email externalUserId).1 := by
  rcases claimInvitedByEmail_users text users tenantId email externalUserId with
    he | ⟨stored, hstored, he, -⟩
  · rw [he]
    exact h
  · rw [he]
    intro u hu sub hext
    obtain ⟨v, hv, rfl⟩ := (Table.mem_updateWhere _ _ _ _).mp hu
    split at hext
    · cases hext
      exact Varchar.fits_of_stored hstored
    · exact h v hv sub hext

theorem applyDto_externalUserId {dto : UpdateTenantUserDto} {old entity : TenantUser}
    (h : applyDto dto old = some entity) : entity.externalUserId = old.externalUserId := by
  simp only [applyDto, Option.bind_eq_bind, Option.bind_eq_some_iff, Option.pure_def,
    Option.some.injEq] at h
  obtain ⟨email, -, role, -, status, -, rfl⟩ := h
  rfl

theorem subjectsFit_exec (text : EmailCase) (hc : Constraints users) (h : SubjectsFit users)
    (call : ServiceCall) : SubjectsFit (exec text users call).1 := by
  cases call with
  | invite generatedId tenantId dto =>
    simp only [exec, invite]
    cases findByTenantAndEmail users tenantId dto.email with
    | some _ => exact h
    | none => exact subjectsFit_insert h _
  | create generatedId dto =>
    simp only [exec, create]
    cases findByTenantAndExternalUserId users dto.tenantId dto.externalUserId with
    | some _ => exact h
    | none =>
      cases newUser generatedId dto with
      | none => exact h
      | some entity => exact subjectsFit_insert h entity
  | claimInvitedByEmail tenantId email externalUserId =>
    exact subjectsFit_claim text h tenantId email externalUserId
  | update tenantId id dto caller =>
    by_cases hacc : ∃ old entity, UpdateAccepted users tenantId id dto caller old entity
    · obtain ⟨old, entity, hacc⟩ := hacc
      rw [exec, update_of_accepted hacc]
      intro u hu sub hext
      rcases (Table.mem_save hc.keys u).mp hu with rfl | ⟨hold, -⟩
      · rw [applyDto_externalUserId hacc.assigned] at hext
        exact h old (findByTenantAndId_some hacc.found).1 sub hext
      · exact h u hold sub hext
    · rw [exec, update_of_refused fun old entity ha => hacc ⟨old, entity, ha⟩]
      exact h
  | delete tenantId id =>
    by_cases hacc : ∃ old, DeleteAccepted users tenantId id old
    · obtain ⟨old, hacc⟩ := hacc
      rw [exec, delete_of_accepted hacc]
      exact fun u hu => h u ((Table.mem_deleteWhere _ _ _).mp hu).1
    · rw [exec, delete_of_refused fun old ha => hacc ⟨old, ha⟩]
      exact h

/-- Tables that calls of the service lead to from the empty one. -/
def Reachable (text : EmailCase) (users : List TenantUser) : Prop :=
  ∃ calls, Run.final (callStep text) [] calls = some users

theorem constraints_of_reachable {text : EmailCase} (h : Reachable text users) :
    Constraints users ∧ SubjectsFit users := by
  obtain ⟨calls, hf⟩ := h
  have hempty : Constraints [] ∧ SubjectsFit [] :=
    ⟨⟨List.nodup_nil, fun u hu => by simp at hu⟩, fun u hu => by simp at hu⟩
  refine Run.final_of_invariant (fun users => Constraints users ∧ SubjectsFit users) ?_ hempty
    (Run.enabled_of_total (fun s a => rfl) [] calls) hf
  intro s call s' hs hstep _
  cases hstep
  exact ⟨constraints_exec text hs.1 call, subjectsFit_exec text hs.1 hs.2 call⟩

end Calls

end VcCommonService.TenantUsers
