import VcCommonService.Oidc.FirstLogin
import VcCommonService.TenantUser.DevSeed

/-!
# Callbacks, invitations and the seed at the same time

The statements on `tenant_user` of any number of callbacks, invitations and seeds interleave.
Whatever their order, no statement takes a row from the subject that it is linked to, a callback
is bound to an active row of its subject as the column stores it, and what the seed has settled
stays so.
-/

namespace VcCommonService.Oidc
open Lib Auth TenantUsers

/-- Where a callback, an invitation or a seed stands. -/
inductive UserCall where
  | idle
  | claiming (tenantId : TenantId) (claims : OidcUpstreamClaims) (email : String)
  | fetching (tenantId : TenantId) (claims : OidcUpstreamClaims)
  | finding (tenantId : TenantId) (claims : OidcUpstreamClaims)
  | checking (tenantId : TenantId) (claims : OidcUpstreamClaims)
  | inserting (tenantId : TenantId) (claims : OidcUpstreamClaims)
  | bound (claims : OidcUpstreamClaims) (user : TenantUser)
  | inviting (tenantId : TenantId) (dto : InviteTenantUserDto)
  | invited
  | seeding (call : SeedCall)
  | failed (error : ServiceError)

/-- The start of a call with its first statement, the next statement, and one that fails. -/
inductive UserEvent where
  | callback (tenantId : TenantId) (claims : OidcUpstreamClaims)
  | invite (tenantId : TenantId) (dto : InviteTenantUserDto)
  | seedUsers (tenantId : TenantId)
  | next (generatedId : String)
  | abort (error : ServiceError)

def UserCall.ended : UserCall → Bool
  | .idle | .bound _ _ | .invited | .failed _ | .seeding (.seeded _) | .seeding (.failed _) => true
  | _ => false

def afterMemberships (tenantId : TenantId) (claims : OidcUpstreamClaims) : UserCall :=
  match Js.truthy claims.email with
  | none => .finding tenantId claims
  | some email => .claiming tenantId claims email

def afterClaim (tenantId : TenantId) (claims : OidcUpstreamClaims) :
    Except ServiceError (Option TenantUser) → UserCall
  | .ok none => .finding tenantId claims
  | .ok (some _) => .fetching tenantId claims
  | .error e => .failed e

def afterInsert (done : UserCall) : Except ServiceError (Option TenantUser) → UserCall
  | .ok _ => done
  | .error e => .failed e

/-- `slugOf` is the slug of a tenant, which the seed looks its users up by. -/
def userAct (dir : Directory) (slugOf : TenantId → String) (users : List TenantUser) :
    UserCall → UserEvent → Option (List TenantUser × UserCall)
  | .idle, .callback tenantId claims =>
    some (users, match (findActiveByExternalUserId dir users claims.sub).head? with
      | some user => .bound claims user
      | none => afterMemberships tenantId claims)
  | .claiming tenantId claims email, .next _ =>
    let result := claimInvitedByEmail dir.text users tenantId email claims.sub
    some (result.1, afterClaim tenantId claims result.2)
  | .fetching tenantId claims, .next _ =>
    some (users, match findByTenantAndExternalUserId users tenantId claims.sub with
      | some user => .bound claims user
      | none => .finding tenantId claims)
  | .finding tenantId claims, .next _ =>
    some (users, match findByTenantAndExternalUserId users tenantId claims.sub with
      | some user =>
        if user.status ≠ .active then .failed (.error "Federated user is not active")
        else .bound claims user
      | none => .checking tenantId claims)
  | .checking tenantId claims, .next _ =>
    some (users, match findByTenantAndExternalUserId users tenantId claims.sub with
      | some _ => .failed (.conflict "User already belongs to this tenant.")
      | none => .inserting tenantId claims)
  | .inserting tenantId claims, .next generatedId =>
    let user := federatedUser generatedId (federatedUserInput tenantId claims)
    let result := TenantUsers.insert users user
    some (result.1, afterInsert (.bound claims user) result.2)
  | .idle, .invite tenantId dto =>
    some (users, match findByTenantAndEmail users tenantId dto.email with
      | some _ => .failed (.conflict
          "A tenant user with this email already exists for this tenant.")
      | none => .inviting tenantId dto)
  | .inviting tenantId dto, .next generatedId =>
    let result := TenantUsers.insert users
      ⟨generatedId, tenantId, none, dto.email, none, dto.role, .invited⟩
    some (result.1, afterInsert .invited result.2)
  | .idle, .seedUsers tenantId =>
    some (users, .seeding (TenantUsers.seedUsers tenantId (seedUsersForTenant (slugOf tenantId))))
  | .seeding call, .next generatedId =>
    (seedAct users generatedId call).map fun r => (r.1, .seeding r.2)
  | call, .abort e => if call.ended then none else some (users, .failed e)
  | _, _ => none

abbrev UserWorld := Run.World (List TenantUser) UserCall

def userStep (dir : Directory) (slugOf : TenantId → String) :
    UserWorld → ℕ × UserEvent → Option UserWorld :=
  Run.interleave (userAct dir slugOf)

/-! ### What a statement does to the table -/

def SeededOk (d : SeedUserDefinition) (u : TenantUser) : Prop :=
  u.externalUserId = d.externalUserId → u.status = d.status

/-- What a row can become. -/
structure RowOk (slugOf : TenantId → String) (u v : TenantUser) : Prop where
  id : v.id = u.id
  tenantId : v.tenantId = u.tenantId
  email : v.email = u.email
  linked : u.externalUserId ≠ none → v.externalUserId = u.externalUserId
  active : u.externalUserId ≠ none → u.status = .active → v.status = .active
  seeded : ∀ d ∈ seedUsersForTenant (slugOf u.tenantId), u.email = d.email →
    u.displayName = some d.displayName ∧ u.role = d.role →
    v.displayName = some d.displayName ∧ v.role = d.role
  status : ∀ d ∈ seedUsersForTenant (slugOf u.tenantId), u.email = d.email →
    SeededOk d u → SeededOk d v

/-- A row without a subject is invited, one with a subject active. -/
def NewOk (u : TenantUser) : Prop :=
  u.status = if u.externalUserId = none then .invited else .active

structure Effect (slugOf : TenantId → String) (users users' : List TenantUser) : Prop where
  constraints : Constraints users → Constraints users'
  subjects : SubjectsFit users → SubjectsFit users'
  rows : ∀ u ∈ users, ∃ v ∈ users', RowOk slugOf u v
  new : ∀ v ∈ users', (∃ u ∈ users, RowOk slugOf u v) ∨ NewOk v

section Statements

variable {slugOf : TenantId → String} {users users' : List TenantUser}

theorem RowOk.refl (u : TenantUser) : RowOk slugOf u u :=
  ⟨rfl, rfl, rfl, fun _ => rfl, fun _ h => h, fun _ _ _ h => h, fun _ _ _ h => h⟩

theorem effect_same (users : List TenantUser) : Effect slugOf users users :=
  ⟨id, id, fun u hu => ⟨u, hu, .refl u⟩, fun u hu => Or.inl ⟨u, hu, .refl u⟩⟩

theorem newOk_stored {entity row : TenantUser} (h : NewOk entity)
    (hrow : storedUser entity = some row) : NewOk row := by
  obtain ⟨-, -, -, hstatus, hext, -, -⟩ := storedUser_eq hrow
  unfold NewOk at h ⊢
  rw [hstatus, h]
  cases hentity : entity.externalUserId with
  | none =>
    rw [hentity] at hext
    rw [← Option.some.inj hext]
  | some sub =>
    rw [hentity] at hext
    obtain ⟨stored, -, he⟩ := Option.map_eq_some_iff.mp hext
    simp [← he]

theorem effect_insert {entity : TenantUser} (hnew : NewOk entity) :
    Effect slugOf users (TenantUsers.insert users entity).1 := by
  refine ⟨fun h => constraints_insert h entity, fun h => subjectsFit_insert h entity, ?_, ?_⟩
  · rcases insert_users users entity with he | ⟨row, -, -, -, he⟩
    · rw [he]
      exact (effect_same users).rows
    · rw [he]
      exact fun u hu => ⟨u, List.mem_append_left _ hu, .refl u⟩
  · rcases insert_users users entity with he | ⟨row, hrow, -, -, he⟩
    · rw [he]
      exact (effect_same users).new
    · rw [he]
      intro v hv
      rcases List.mem_append.mp hv with hv | hv
      · exact Or.inl ⟨v, hv, .refl v⟩
      · rw [List.mem_singleton.mp hv]
        exact Or.inr (newOk_stored hnew hrow)

theorem effect_updateWhere {p : TenantUser → Bool} {f : TenantUser → TenantUser}
    (hrow : ∀ u, p u = true → RowOk slugOf u (f u))
    (hconstraints : Constraints users → Constraints (Table.updateWhere p f users))
    (hsubjects : SubjectsFit users → SubjectsFit (Table.updateWhere p f users)) :
    Effect slugOf users (Table.updateWhere p f users) := by
  have hstep : ∀ u, RowOk slugOf u (if p u then f u else u) := by
    intro u
    split
    next hp => exact hrow u hp
    next => exact .refl u
  refine ⟨hconstraints, hsubjects, ?_, ?_⟩
  · intro u hu
    exact ⟨_, (Table.mem_updateWhere ..).mpr ⟨u, hu, rfl⟩, hstep u⟩
  · intro v hv
    obtain ⟨u, hu, rfl⟩ := (Table.mem_updateWhere ..).mp hv
    exact Or.inl ⟨u, hu, hstep u⟩

/-- Statements that leave the unique columns alone. -/
theorem constraints_updateWhere {p : TenantUser → Bool} {f : TenantUser → TenantUser}
    (hf : ∀ u, (f u).id = u.id ∧ (f u).tenantId = u.tenantId ∧ (f u).email = u.email ∧
      (f u).externalUserId = u.externalUserId) (h : Constraints users) :
    Constraints (Table.updateWhere p f users) := by
  have hsame : ∀ u, (if p u then f u else u).id = u.id ∧
      (if p u then f u else u).tenantId = u.tenantId ∧ (if p u then f u else u).email = u.email ∧
      (if p u then f u else u).externalUserId = u.externalUserId := by
    intro u
    split
    · exact hf u
    · exact ⟨rfl, rfl, rfl, rfl⟩
  refine ⟨Table.uniqueKeys_updateWhere (fun u => (hf u).1) h.keys, ?_⟩
  intro a ha b hb hconflict
  obtain ⟨u, hu, rfl⟩ := (Table.mem_updateWhere ..).mp ha
  obtain ⟨v, hv, rfl⟩ := (Table.mem_updateWhere ..).mp hb
  rw [Conflict, (hsame u).2.1, (hsame u).2.2.1, (hsame u).2.2.2, (hsame v).2.1, (hsame v).2.2.1,
    (hsame v).2.2.2] at hconflict
  rw [(hsame u).1, (hsame v).1]
  exact h.noConflict u hu v hv hconflict

theorem subjectsFit_updateWhere {p : TenantUser → Bool} {f : TenantUser → TenantUser}
    (hf : ∀ u, (f u).externalUserId = u.externalUserId) (h : SubjectsFit users) :
    SubjectsFit (Table.updateWhere p f users) := by
  intro v hv sub hext
  obtain ⟨u, hu, rfl⟩ := (Table.mem_updateWhere ..).mp hv
  split at hext
  · exact h u hu sub ((hf u).symm.trans hext)
  · exact h u hu sub hext

theorem effect_claim (text : EmailCase) (tenantId : TenantId) (email sub : String) :
    Effect slugOf users (claimInvitedByEmail text users tenantId email sub).1 := by
  have hconstraints := fun h : Constraints users => constraints_claim text h tenantId email sub
  have hsubjects := fun h : SubjectsFit users => subjectsFit_claim text h tenantId email sub
  rcases claimInvitedByEmail_users text users tenantId email sub with he | ⟨stored, -, he, -⟩
  · rw [he]
    exact effect_same users
  · rw [he] at hconstraints hsubjects ⊢
    refine effect_updateWhere ?_ hconstraints hsubjects
    intro u hu
    obtain ⟨-, -, hnone, -⟩ := claimable_iff.mp hu
    refine ⟨rfl, rfl, rfl, fun h => absurd hnone h, fun h => absurd hnone h, fun _ _ _ h => h, ?_⟩
    intro d hd _ _ hext
    rw [seed_status hd, ← hext]
    rfl

theorem effect_refreshSeeded {tenantId : TenantId} {d : SeedUserDefinition}
    (hd : d ∈ seedUsersForTenant (slugOf tenantId)) :
    Effect slugOf users (refreshSeeded users tenantId d).1 := by
  refine effect_updateWhere ?_ (constraints_updateWhere fun u => ⟨rfl, rfl, rfl, rfl⟩)
    (subjectsFit_updateWhere fun u => rfl)
  intro u hu
  obtain ⟨rfl, hemail, hext⟩ := of_decide_eq_true hu
  have hsame : ∀ d' ∈ seedUsersForTenant (slugOf u.tenantId), u.email = d'.email → d' = d :=
    fun d' hd' he => seed_eq_of_email hd' hd (he.symm.trans hemail)
  refine ⟨rfl, rfl, rfl, fun _ => rfl, ?_, ?_, ?_⟩
  · intro hlinked _
    rw [hext] at hlinked
    exact (seed_status hd).trans (if_neg hlinked)
  · intro d' hd' he _
    cases hsame d' hd' he
    exact ⟨rfl, rfl⟩
  · intro d' hd' he _ _
    cases hsame d' hd' he
    rfl

theorem effect_setDisplayNameAndRole {tenantId : TenantId} {d : SeedUserDefinition}
    (hd : d ∈ seedUsersForTenant (slugOf tenantId)) :
    Effect slugOf users (setDisplayNameAndRole users tenantId d).1 := by
  refine effect_updateWhere ?_ (constraints_updateWhere fun u => ⟨rfl, rfl, rfl, rfl⟩)
    (subjectsFit_updateWhere fun u => rfl)
  intro u hu
  obtain ⟨rfl, hemail⟩ := of_decide_eq_true hu
  refine ⟨rfl, rfl, rfl, fun _ => rfl, fun _ h => h, ?_, fun _ _ _ h => h⟩
  intro d' hd' he _
  cases seed_eq_of_email hd' hd (he.symm.trans hemail)
  exact ⟨rfl, rfl⟩

/-! ### What the calls know -/

def Settled (users : List TenantUser) (tenantId : TenantId) (d : SeedUserDefinition) : Prop :=
  ∃ u ∈ users, u.tenantId = tenantId ∧ u.email = d.email ∧
    (u.displayName = some d.displayName ∧ u.role = d.role) ∧ SeededOk d u

def AllSettled (slugOf : TenantId → String) (users : List TenantUser) (tenantId : TenantId) : Prop :=
  ∀ d ∈ seedUsersForTenant (slugOf tenantId), Settled users tenantId d

/-- The row of the user is there, active and linked to what the column stores of the subject. -/
def Linked (users : List TenantUser) (sub : String) (user : TenantUser) : Prop :=
  ∃ v ∈ users, v.id = user.id ∧ v.tenantId = user.tenantId ∧
    (∃ stored, Varchar.stored 255 sub = some stored ∧ v.externalUserId = some stored) ∧
    v.status = .active

structure UserTableOk (users : List TenantUser) : Prop where
  constraints : Constraints users
  subjects : SubjectsFit users

def RestOk (slugOf : TenantId → String) (users : List TenantUser) (tenantId : TenantId)
    (rest : List SeedUserDefinition) : Prop :=
  ∃ done, seedUsersForTenant (slugOf tenantId) = done ++ rest ∧
    ∀ d ∈ done, Settled users tenantId d

def SeedCallOk (slugOf : TenantId → String) (users : List TenantUser) : SeedCall → Prop
  | .refreshing t d rest => RestOk slugOf users t (d :: rest)
  | .setting t d rest => RestOk slugOf users t (d :: rest) ∧
      ∀ u ∈ users, u.tenantId = t → u.email = d.email → SeededOk d u
  | .creating t d rest => RestOk slugOf users t (d :: rest)
  | .seeded t => AllSettled slugOf users t
  | .failed _ => True

def UserCallOk (slugOf : TenantId → String) (users : List TenantUser) : UserCall → Prop
  | .fetching t claims => ∃ v ∈ users, v.tenantId = t ∧ v.externalUserId = some claims.sub ∧
      v.status = .active
  | .bound claims user => Linked users claims.sub user
  | .seeding call => SeedCallOk slugOf users call
  | _ => True

theorem RestOk.mem {t : TenantId} {d : SeedUserDefinition} {rest : List SeedUserDefinition}
    (h : RestOk slugOf users t (d :: rest)) : d ∈ seedUsersForTenant (slugOf t) := by
  obtain ⟨done, hseeds, -⟩ := h
  rw [hseeds]
  exact List.mem_append_right _ (List.mem_cons_self ..)

theorem settled_effect (heffect : Effect slugOf users users') {t : TenantId}
    {d : SeedUserDefinition} (hd : d ∈ seedUsersForTenant (slugOf t)) (h : Settled users t d) :
    Settled users' t d := by
  obtain ⟨u, hu, rfl, hemail, hname, hok⟩ := h
  obtain ⟨v, hv, hrow⟩ := heffect.rows u hu
  exact ⟨v, hv, hrow.tenantId, hrow.email.trans hemail, hrow.seeded d hd hemail hname,
    hrow.status d hd hemail hok⟩

theorem restOk_effect (heffect : Effect slugOf users users') {t : TenantId}
    {rest : List SeedUserDefinition} (h : RestOk slugOf users t rest) :
    RestOk slugOf users' t rest := by
  obtain ⟨done, hseeds, hdone⟩ := h
  refine ⟨done, hseeds, fun d hd => settled_effect heffect ?_ (hdone d hd)⟩
  rw [hseeds]
  exact List.mem_append_left _ hd

theorem seededOk_effect (heffect : Effect slugOf users users') {t : TenantId}
    {d : SeedUserDefinition} (hd : d ∈ seedUsersForTenant (slugOf t))
    (h : ∀ u ∈ users, u.tenantId = t → u.email = d.email → SeededOk d u) :
    ∀ v ∈ users', v.tenantId = t → v.email = d.email → SeededOk d v := by
  intro v hv ht hemail
  rcases heffect.new v hv with ⟨u, hu, hrow⟩ | hnew
  · have hut : u.tenantId = t := hrow.tenantId.symm.trans ht
    have hue : u.email = d.email := hrow.email.symm.trans hemail
    exact hrow.status d (hut ▸ hd) hue (h u hu hut hue)
  · intro hext
    rw [hnew, seed_status hd, hext]

theorem linked_effect (heffect : Effect slugOf users users') {sub : String} {user : TenantUser}
    (h : Linked users sub user) : Linked users' sub user := by
  obtain ⟨u, hu, hid, ht, ⟨stored, hstored, hext⟩, hactive⟩ := h
  obtain ⟨v, hv, hrow⟩ := heffect.rows u hu
  have hlinked : u.externalUserId ≠ none := by
    rw [hext]
    exact Option.some_ne_none stored
  exact ⟨v, hv, hrow.id.trans hid, hrow.tenantId.trans ht,
    ⟨stored, hstored, (hrow.linked hlinked).trans hext⟩, hrow.active hlinked hactive⟩

theorem userCallOk_effect (heffect : Effect slugOf users users') {call : UserCall}
    (h : UserCallOk slugOf users call) : UserCallOk slugOf users' call := by
  cases call with
  | fetching t claims =>
    obtain ⟨v, hv, ht, hext, hactive⟩ := h
    obtain ⟨v', hv', hrow⟩ := heffect.rows v hv
    have hlinked : v.externalUserId ≠ none := by
      rw [hext]
      exact Option.some_ne_none _
    exact ⟨v', hv', hrow.tenantId.trans ht, (hrow.linked hlinked).trans hext,
      hrow.active hlinked hactive⟩
  | bound claims user => exact linked_effect heffect h
  | seeding call =>
    cases call with
    | refreshing t d rest => exact restOk_effect heffect h
    | setting t d rest =>
      exact ⟨restOk_effect heffect h.1, seededOk_effect heffect h.1.mem h.2⟩
    | creating t d rest => exact restOk_effect heffect h
    | seeded t => exact fun d hd => settled_effect heffect hd (h d hd)
    | failed e => trivial
  | _ => trivial

/-! ### The statements of the seed -/

theorem seedCallOk_seedUsers {t : TenantId} {rest : List SeedUserDefinition}
    (h : RestOk slugOf users t rest) : SeedCallOk slugOf users (seedUsers t rest) := by
  cases rest with
  | nil =>
    obtain ⟨done, hseeds, hdone⟩ := h
    rw [List.append_nil] at hseeds
    intro d hd
    exact hdone d (hseeds ▸ hd)
  | cons d rest => exact h

theorem RestOk.next {t : TenantId} {d : SeedUserDefinition} {rest : List SeedUserDefinition}
    (h : RestOk slugOf users t (d :: rest)) (hd : Settled users t d) :
    RestOk slugOf users t rest := by
  obtain ⟨done, hseeds, hdone⟩ := h
  refine ⟨done ++ [d], ?_, ?_⟩
  · rw [hseeds, List.append_assoc, List.singleton_append]
  · intro e he
    rcases List.mem_append.mp he with he | he
    · exact hdone e he
    · rw [List.mem_singleton.mp he]
      exact hd

theorem insert_ok {entity : TenantUser} {r : Option TenantUser}
    (h : (TenantUsers.insert users entity).2 = .ok r) :
    ∃ row, storedUser entity = some row ∧ row ∈ (TenantUsers.insert users entity).1 := by
  rcases insert_cases users entity with ⟨e, he⟩ | ⟨row, hrow, -, -, he⟩
  · rw [he] at h
    cases h
  · rw [he]
    exact ⟨row, hrow, List.mem_append_right _ (List.mem_singleton_self _)⟩

theorem seedAct_effect {generatedId : String} {call call' : SeedCall}
    (h : SeedCallOk slugOf users call)
    (hact : seedAct users generatedId call = some (users', call')) :
    Effect slugOf users users' ∧ SeedCallOk slugOf users' call' := by
  cases call with
  | refreshing t d rest =>
    have heffect : Effect slugOf users (refreshSeeded users t d).1 := effect_refreshSeeded h.mem
    have hrest := restOk_effect heffect h
    cases hact
    refine ⟨heffect, ?_⟩
    cases hany : (refreshSeeded users t d).2 with
    | true =>
      obtain ⟨u, hu, hp⟩ := List.any_eq_true.mp hany
      obtain ⟨ht, hemail, hext⟩ := of_decide_eq_true hp
      refine seedCallOk_seedUsers (hrest.next ⟨refreshed d u, ?_, ht, hemail, ⟨rfl, rfl⟩, ?_⟩)
      · exact (Table.mem_updateWhere ..).mpr ⟨u, hu, if_pos hp⟩
      · exact fun _ => rfl
    | false =>
      refine ⟨hrest, ?_⟩
      intro v hv ht hemail hext
      have hnone := List.any_eq_false.mp hany
      obtain ⟨u, hu, rfl⟩ := (Table.mem_updateWhere ..).mp hv
      rw [if_neg (hnone u hu)] at ht hemail hext
      exact absurd (decide_eq_true ⟨ht, hemail, hext⟩) (hnone u hu)
  | setting t d rest =>
    obtain ⟨hrest, hok⟩ := h
    have heffect : Effect slugOf users (setDisplayNameAndRole users t d).1 :=
      effect_setDisplayNameAndRole hrest.mem
    have hrest' := restOk_effect heffect hrest
    cases hact
    refine ⟨heffect, ?_⟩
    cases hany : (setDisplayNameAndRole users t d).2 with
    | true =>
      obtain ⟨u, hu, hp⟩ := List.any_eq_true.mp hany
      obtain ⟨ht, hemail⟩ := of_decide_eq_true hp
      refine seedCallOk_seedUsers (hrest'.next ⟨renamed d u, ?_, ht, hemail, ⟨rfl, rfl⟩, ?_⟩)
      · exact (Table.mem_updateWhere ..).mpr ⟨u, hu, if_pos hp⟩
      · exact hok u hu ht hemail
    | false => exact hrest'
  | creating t d rest =>
    have heffect : Effect slugOf users (TenantUsers.insert users (seededUser generatedId t d)).1 :=
      effect_insert (seed_status h.mem)
    have hrest := restOk_effect heffect h
    cases hact
    refine ⟨heffect, ?_⟩
    cases hresult : (TenantUsers.insert users (seededUser generatedId t d)).2 with
    | ok r =>
      obtain ⟨row, hrow, hmem⟩ := insert_ok hresult
      rw [storedUser_seeded h.mem hrow] at hmem
      exact seedCallOk_seedUsers (hrest.next ⟨_, hmem, rfl, rfl, ⟨rfl, rfl⟩, fun _ => rfl⟩)
    | error e => trivial
  | seeded t => cases hact
  | failed e => cases hact

/-! ### Every statement -/

variable {dir : Directory}

theorem linked_of_found (h : UserTableOk users) {sub : String} {u v : TenantUser} (hu : u ∈ users)
    (hid : u.id = v.id) (ht : u.tenantId = v.tenantId) (hext : u.externalUserId = some sub)
    (hactive : u.status = .active) : Linked users sub v :=
  ⟨u, hu, hid, ht, ⟨sub, h.subjects u hu sub hext, hext⟩, hactive⟩

theorem linked_of_find (h : UserTableOk users) {t : TenantId} {sub : String} {u : TenantUser}
    (hfind : findByTenantAndExternalUserId users t sub = some u)
    (hactive : ∃ v ∈ users, v.tenantId = t ∧ v.externalUserId = some sub ∧ v.status = .active) :
    Linked users sub u := by
  obtain ⟨hu, ht, hext⟩ := findByTenantAndExternalUserId_some hfind
  obtain ⟨v, hv, hvt, hvext, hvactive⟩ := hactive
  have hlinked : v.externalUserId ≠ none := by
    rw [hvext]
    exact Option.some_ne_none sub
  have hvu : v = u :=
    h.constraints.eq hv hu ⟨hvt.trans ht.symm, Or.inr ⟨hlinked, hvext.trans hext.symm⟩⟩
  exact linked_of_found h hu rfl rfl hext (hvu ▸ hvactive)

theorem callback_ok (h : UserTableOk users) (t : TenantId) (claims : OidcUpstreamClaims) :
    UserCallOk slugOf users (match (findActiveByExternalUserId dir users claims.sub).head? with
      | some user => .bound claims user
      | none => afterMemberships t claims) := by
  split
  next user hhead =>
    obtain ⟨hmem, hactive⟩ := mem_findActiveByExternalUserId.mp (List.mem_of_head? hhead)
    obtain ⟨hext, hstatus, -⟩ := isActiveMember_iff.mp hactive
    exact linked_of_found h hmem rfl rfl hext hstatus
  next =>
    unfold afterMemberships
    split <;> trivial

/-- A claim returns a row with the subject itself. -/
theorem claim_returned {text : EmailCase} {t : TenantId} {email sub : String} {w : TenantUser}
    (h : (claimInvitedByEmail text users t email sub).2 = .ok (some w)) :
    w ∈ (claimInvitedByEmail text users t email sub).1 ∧ w.externalUserId = some sub := by
  unfold claimInvitedByEmail at h ⊢
  split at h
  · cases h
  next stored hstored =>
    split at h
    next htext =>
      rw [if_pos htext]
      unfold updateClaimed at h ⊢
      dsimp only at h ⊢
      split at h
      · cases h
      next =>
        dsimp only
        split at h
        · cases h
        · obtain ⟨hmem, -, hext⟩ := findByTenantAndExternalUserId_some (Except.ok.inj h)
          exact ⟨hmem, hext⟩
    · cases h

theorem claim_ok (h : UserTableOk users) (t : TenantId) (claims : OidcUpstreamClaims)
    (email : String) :
    UserCallOk slugOf (claimInvitedByEmail dir.text users t email claims.sub).1
      (afterClaim t claims (claimInvitedByEmail dir.text users t email claims.sub).2) := by
  cases hresult : (claimInvitedByEmail dir.text users t email claims.sub).2 with
  | error e => trivial
  | ok found =>
    cases found with
    | none => trivial
    | some w =>
      -- only a subject that fits is found again
      obtain ⟨hw, hext⟩ := claim_returned hresult
      have hfits : Varchar.Fits 255 claims.sub :=
        subjectsFit_claim dir.text h.subjects t email claims.sub w hw _ hext
      have htext : Varchar.isText (dir.text.normalize email) = true := by
        by_contra hnot
        simp only [claimInvitedByEmail,
          show Varchar.stored 255 claims.sub = some claims.sub from hfits, if_neg hnot] at hresult
        cases hresult
      rcases claim_cases h.constraints t hfits htext with
        ⟨-, he⟩ | ⟨u, hu, -, he⟩ | ⟨-, -, name, he⟩
      · rw [he] at hresult
        cases hresult
      · have hmem : u ∈ users.filter (claimable dir.text t email) := by simp [hu]
        obtain ⟨humem, hclaim⟩ := List.mem_filter.mp hmem
        rw [he]
        exact ⟨claim claims.sub u, (Table.mem_updateWhere ..).mpr ⟨u, humem, if_pos hclaim⟩,
          (claimable_iff.mp hclaim).1, rfl, rfl⟩
      · rw [he] at hresult
        cases hresult

theorem userAct_effect (h : UserTableOk users) {call call' : UserCall} {e : UserEvent}
    (hok : UserCallOk slugOf users call)
    (hact : userAct dir slugOf users call e = some (users', call')) :
    Effect slugOf users users' ∧ UserCallOk slugOf users' call' := by
  cases e with
  | callback t claims =>
    cases call with
    | idle =>
      cases hact
      exact ⟨effect_same users, callback_ok h t claims⟩
    | _ => cases hact
  | invite t dto =>
    cases call with
    | idle =>
      cases hact
      refine ⟨effect_same users, ?_⟩
      split <;> trivial
    | _ => cases hact
  | seedUsers t =>
    cases call with
    | idle =>
      cases hact
      exact ⟨effect_same users, seedCallOk_seedUsers ⟨[], rfl, nofun⟩⟩
    | _ => cases hact
  | abort error =>
    have hend : (if call.ended then none else some (users, UserCall.failed error)) =
        some (users', call') := by
      cases call with
      | seeding call => exact hact
      | _ => exact hact
    split at hend
    · cases hend
    · cases hend
      exact ⟨effect_same users, trivial⟩
  | next generatedId =>
    cases call with
    | claiming t claims email =>
      cases hact
      exact ⟨effect_claim .., claim_ok h t claims email⟩
    | fetching t claims =>
      cases hact
      refine ⟨effect_same users, ?_⟩
      split
      next user hfind => exact linked_of_find h hfind hok
      next => trivial
    | finding t claims =>
      cases hact
      refine ⟨effect_same users, ?_⟩
      split
      next user hfind =>
        obtain ⟨hu, ht, hext⟩ := findByTenantAndExternalUserId_some hfind
        split
        · trivial
        next hactive => exact linked_of_found h hu rfl rfl hext (not_not.mp hactive)
      next => trivial
    | checking t claims =>
      cases hact
      refine ⟨effect_same users, ?_⟩
      split <;> trivial
    | inserting t claims =>
      cases hact
      refine ⟨effect_insert rfl, ?_⟩
      cases hresult : (TenantUsers.insert users
          (federatedUser generatedId (federatedUserInput t claims))).2 with
      | ok r =>
        obtain ⟨row, hrow, hmem⟩ := insert_ok hresult
        obtain ⟨hid, ht, -, hstatus, hext, -, -⟩ := storedUser_eq hrow
        obtain ⟨stored, hstored, he⟩ := Option.map_eq_some_iff.mp hext
        exact ⟨row, hmem, hid, ht, ⟨stored, hstored, he.symm⟩, hstatus⟩
      | error e => trivial
    | inviting t dto =>
      cases hact
      refine ⟨effect_insert rfl, ?_⟩
      unfold afterInsert
      split <;> trivial
    | seeding call =>
      obtain ⟨⟨users'', call''⟩, hseed, he⟩ := Option.map_eq_some_iff.mp hact
      cases he
      exact seedAct_effect hok hseed
    | _ => cases hact

/-! ### Runs -/

def UserInv (slugOf : TenantId → String) : UserWorld → Prop :=
  Run.Holds UserTableOk (UserCallOk slugOf)

variable {w w' : UserWorld} {l : ℕ × UserEvent}

theorem effect_step (hi : UserInv slugOf w) (hs : userStep dir slugOf w l = some w') :
    Effect slugOf w.db w'.db := by
  obtain ⟨users', call', hact, rfl⟩ := Run.interleave_cases hs
  exact (userAct_effect hi.1 (hi.2 l.1) hact).1

theorem userInv_step (hi : UserInv slugOf w) (hs : userStep dir slugOf w l = some w') :
    UserInv slugOf w' := by
  refine Run.holds_interleave (C := fun _ _ _ => True) ?_ ?_ hi hs trivial
  · intro users call e users' call' h hok hact _
    obtain ⟨heffect, hok'⟩ := userAct_effect h hok hact
    exact ⟨⟨heffect.constraints h.constraints, heffect.subjects h.subjects⟩, hok'⟩
  · intro users call e users' call' other h hok hother hact _
    exact userCallOk_effect (userAct_effect h hok hact).1 hother

theorem userInv_idle (h : UserTableOk w.db) (hidle : ∀ i, w.calls i = .idle) :
    UserInv slugOf w := by
  refine ⟨h, fun i => ?_⟩
  rw [hidle]
  trivial

/-- A row that is linked stays linked to the same subject, and active. -/
def KeepsLinks (users users' : List TenantUser) : Prop :=
  ∀ u ∈ users, u.externalUserId ≠ none → ∃ v ∈ users', v.id = u.id ∧ v.tenantId = u.tenantId ∧
    v.email = u.email ∧ v.externalUserId = u.externalUserId ∧
    (u.status = .active → v.status = .active)

structure CallbackStep (w : UserWorld) (_ : ℕ × UserEvent) (w' : UserWorld) : Prop where
  kept : KeepsLinks w.db w'.db
  table : UserTableOk w'.db
  bound : ∀ i claims user, w'.calls i = .bound claims user → Linked w'.db claims.sub user
  same : ∀ i j claims claims' user user', w'.calls i = .bound claims user →
    w'.calls j = .bound claims' user' → claims.sub = claims'.sub →
    user.tenantId = user'.tenantId → user.id = user'.id

theorem callbackStep (hi : UserInv slugOf w) (hs : userStep dir slugOf w l = some w') :
    CallbackStep w l w' := by
  have heffect := effect_step hi hs
  have hi' := userInv_step hi hs
  have hbound : ∀ i claims user, w'.calls i = .bound claims user →
      Linked w'.db claims.sub user := by
    intro i claims user hcall
    have hok := hi'.2 i
    rw [hcall] at hok
    exact hok
  refine ⟨?_, hi'.1, hbound, ?_⟩
  · intro u hu hlinked
    obtain ⟨v, hv, hrow⟩ := heffect.rows u hu
    exact ⟨v, hv, hrow.id, hrow.tenantId, hrow.email, hrow.linked hlinked, hrow.active hlinked⟩
  · intro i j claims claims' user user' hcall hcall' hsub htenant
    obtain ⟨v, hv, hid, ht, ⟨stored, hstored, hext⟩, -⟩ := hbound i claims user hcall
    obtain ⟨v', hv', hid', ht', ⟨stored', hstored', hext'⟩, -⟩ := hbound j claims' user' hcall'
    have hlinked : v.externalUserId ≠ none := by
      rw [hext]
      exact Option.some_ne_none _
    have hsame : v.externalUserId = v'.externalUserId := by
      rw [hsub, hstored'] at hstored
      rw [hext, hext', hstored]
    have hvv : v = v' := hi'.1.constraints.eq hv hv' ⟨ht.trans (htenant.trans ht'.symm),
      Or.inr ⟨hlinked, hsame⟩⟩
    rw [← hid, ← hid', hvv]

theorem callbacks_keep_links (h : UserTableOk w.db) (hidle : ∀ i, w.calls i = .idle)
    (es : List (ℕ × UserEvent)) (hrun : Run.Enabled (userStep dir slugOf) w es) :
    Run.All (userStep dir slugOf) CallbackStep w es :=
  Run.all_of_invariant (UserInv slugOf)
    (fun _ _ _ hi hs _ => ⟨userInv_step hi hs, callbackStep hi hs⟩) (userInv_idle h hidle) hrun

/-! ### A seed on what a seed has settled -/

theorem updateWhere_self {p : TenantUser → Bool} {f : TenantUser → TenantUser}
    (h : ∀ u ∈ users, p u = true → f u = u) : Table.updateWhere p f users = users := by
  have hsame : ∀ u ∈ users, (if p u then f u else u) = u := by
    intro u hu
    split
    next hp => exact h u hu hp
    next => rfl
  exact (List.map_congr_left hsame).trans (List.map_id users)

theorem settled_row (h : Constraints users) {t : TenantId} {d : SeedUserDefinition}
    (hsettled : Settled users t d) {u : TenantUser} (hu : u ∈ users) (ht : u.tenantId = t)
    (hemail : u.email = d.email) :
    (u.displayName = some d.displayName ∧ u.role = d.role) ∧ SeededOk d u := by
  obtain ⟨v, hv, hvt, hvemail, hname, hok⟩ := hsettled
  have huv : u = v := h.eq hu hv ⟨ht.trans hvt.symm, Or.inl (hemail.trans hvemail.symm)⟩
  rw [huv]
  exact ⟨hname, hok⟩

theorem refreshSeeded_settled (h : Constraints users) {t : TenantId} {d : SeedUserDefinition}
    (hsettled : Settled users t d) : (refreshSeeded users t d).1 = users := by
  refine updateWhere_self fun u hu hp => ?_
  obtain ⟨ht, hemail, hext⟩ := of_decide_eq_true hp
  obtain ⟨⟨hname, hrole⟩, hok⟩ := settled_row h hsettled hu ht hemail
  rw [refreshed, ← hname, ← hrole, ← hok hext]

theorem setDisplayNameAndRole_settled (h : Constraints users) {t : TenantId}
    {d : SeedUserDefinition} (hsettled : Settled users t d) :
    setDisplayNameAndRole users t d = (users, true) := by
  have hsame : (setDisplayNameAndRole users t d).1 = users := by
    refine updateWhere_self fun u hu hp => ?_
    obtain ⟨ht, hemail⟩ := of_decide_eq_true hp
    obtain ⟨⟨hname, hrole⟩, -⟩ := settled_row h hsettled hu ht hemail
    rw [renamed, ← hname, ← hrole]
  obtain ⟨v, hv, hvt, hvemail, -⟩ := hsettled
  have hany : (setDisplayNameAndRole users t d).2 = true :=
    List.any_eq_true.mpr ⟨v, hv, decide_eq_true ⟨hvt, hvemail⟩⟩
  exact Prod.ext hsame hany

/-- A statement of a seed leaves every row its subject and adds at most a row that it declares,
with the declared one. -/
def KeepsSubjects (slugOf : TenantId → String) (users : List TenantUser) (call : SeedCall)
    (users' : List TenantUser) : Prop :=
  (∀ u ∈ users, ∃ v ∈ users', v.id = u.id ∧ v.externalUserId = u.externalUserId) ∧
  ∀ v ∈ users', (∃ u ∈ users, u.id = v.id ∧ u.externalUserId = v.externalUserId) ∨
    ∃ t d rest, call = .creating t d rest ∧ d ∈ seedUsersForTenant (slugOf t) ∧
      v.tenantId = t ∧ v.email = d.email ∧ v.externalUserId = d.externalUserId

theorem keepsSubjects_updateWhere {call : SeedCall} {p : TenantUser → Bool}
    {f : TenantUser → TenantUser}
    (hf : ∀ u, (f u).id = u.id ∧ (f u).externalUserId = u.externalUserId) :
    KeepsSubjects slugOf users call (Table.updateWhere p f users) := by
  have hsame : ∀ u, (if p u then f u else u).id = u.id ∧
      (if p u then f u else u).externalUserId = u.externalUserId := by
    intro u
    split
    · exact hf u
    · exact ⟨rfl, rfl⟩
  constructor
  · intro u hu
    exact ⟨_, (Table.mem_updateWhere ..).mpr ⟨u, hu, rfl⟩, hsame u⟩
  · intro v hv
    obtain ⟨u, hu, rfl⟩ := (Table.mem_updateWhere ..).mp hv
    exact Or.inl ⟨u, hu, (hsame u).1.symm, (hsame u).2.symm⟩

theorem keepsSubjects_seedAct {generatedId : String} {call call' : SeedCall}
    (h : SeedCallOk slugOf users call)
    (hact : seedAct users generatedId call = some (users', call')) :
    KeepsSubjects slugOf users call users' := by
  cases call with
  | refreshing t d rest =>
    cases hact
    exact keepsSubjects_updateWhere fun u => ⟨rfl, rfl⟩
  | setting t d rest =>
    cases hact
    exact keepsSubjects_updateWhere fun u => ⟨rfl, rfl⟩
  | creating t d rest =>
    have hinserted : users' = (TenantUsers.insert users (seededUser generatedId t d)).1 := by
      cases hact
      rfl
    rw [hinserted]
    rcases insert_users users (seededUser generatedId t d) with he | ⟨row, hrow, -, -, he⟩
    · rw [he]
      exact ⟨fun u hu => ⟨u, hu, rfl, rfl⟩, fun v hv => Or.inl ⟨v, hv, rfl, rfl⟩⟩
    · rw [he]
      refine ⟨fun u hu => ⟨u, List.mem_append_left _ hu, rfl, rfl⟩, fun v hv => ?_⟩
      rcases List.mem_append.mp hv with hv | hv
      · exact Or.inl ⟨v, hv, rfl, rfl⟩
      · rw [List.mem_singleton.mp hv, storedUser_seeded h.mem hrow]
        exact Or.inr ⟨t, d, rest, rfl, h.mem, rfl, rfl, rfl⟩
  | seeded t => cases hact
  | failed e => cases hact

structure SeedStep (slugOf : TenantId → String) (w : UserWorld) (l : ℕ × UserEvent)
    (w' : UserWorld) : Prop where
  subjects : ∀ call, w.calls l.1 = .seeding call → KeepsSubjects slugOf w.db call w'.db
  settled : ∀ i t, w'.calls i = .seeding (.seeded t) → AllSettled slugOf w'.db t
  stays : ∀ t, AllSettled slugOf w.db t → AllSettled slugOf w'.db t
  refreshed : ∀ t d rest generatedId, l.2 = .next generatedId → AllSettled slugOf w.db t →
    w.calls l.1 = .seeding (.refreshing t d rest) →
    w'.db = w.db ∧ (w'.calls l.1 = .seeding (.setting t d rest) ∨
      w'.calls l.1 = .seeding (seedUsers t rest))
  renamed : ∀ t d rest generatedId, l.2 = .next generatedId → AllSettled slugOf w.db t →
    w.calls l.1 = .seeding (.setting t d rest) →
    w'.db = w.db ∧ w'.calls l.1 = .seeding (seedUsers t rest)

theorem seedStep (hi : UserInv slugOf w) (hs : userStep dir slugOf w l = some w') :
    SeedStep slugOf w l w' := by
  have hi' := userInv_step hi hs
  refine ⟨?_, ?_, fun t h d hd => settled_effect (effect_step hi hs) hd (h d hd), ?_, ?_⟩
  · intro call hcall
    have hok := hi.2 l.1
    obtain ⟨users', call', hact, rfl⟩ := Run.interleave_cases hs
    rw [hcall] at hok hact
    have hquiet : KeepsSubjects slugOf w.db call w.db :=
      ⟨fun u hu => ⟨u, hu, rfl, rfl⟩, fun v hv => Or.inl ⟨v, hv, rfl, rfl⟩⟩
    cases he : l.2 with
    | next generatedId =>
      rw [he] at hact
      obtain ⟨⟨users'', call''⟩, hseed, heq⟩ := Option.map_eq_some_iff.mp hact
      cases heq
      exact keepsSubjects_seedAct hok hseed
    | abort error =>
      rw [he] at hact
      simp only [userAct] at hact
      split at hact
      · cases hact
      · cases hact
        exact hquiet
    | _ =>
      rw [he] at hact
      cases hact
  · intro i t hcall
    have hok := hi'.2 i
    rw [hcall] at hok
    exact hok
  · intro t d rest generatedId hnext hall hcall
    have hok := hi.2 l.1
    obtain ⟨users', call', hact, rfl⟩ := Run.interleave_cases hs
    rw [hcall] at hok hact
    rw [hnext] at hact
    dsimp only
    rw [Function.update_self]
    have hsettled := hall d (RestOk.mem hok)
    cases hact
    refine ⟨refreshSeeded_settled hi.1.constraints hsettled, ?_⟩
    cases (refreshSeeded w.db t d).2 with
    | true => exact Or.inr rfl
    | false => exact Or.inl rfl
  · intro t d rest generatedId hnext hall hcall
    have hok := hi.2 l.1
    obtain ⟨users', call', hact, rfl⟩ := Run.interleave_cases hs
    rw [hcall] at hok hact
    rw [hnext] at hact
    dsimp only
    rw [Function.update_self]
    have hsettled := hall d (RestOk.mem hok.1)
    simp only [userAct, seedAct, setDisplayNameAndRole_settled hi.1.constraints hsettled] at hact
    cases hact
    exact ⟨rfl, rfl⟩

theorem seed_settles (h : UserTableOk w.db) (hidle : ∀ i, w.calls i = .idle)
    (es : List (ℕ × UserEvent)) (hrun : Run.Enabled (userStep dir slugOf) w es) :
    Run.All (userStep dir slugOf) (SeedStep slugOf) w es :=
  Run.all_of_invariant (UserInv slugOf)
    (fun _ _ _ hi hs _ => ⟨userInv_step hi hs, seedStep hi hs⟩) (userInv_idle h hidle) hrun

end Statements

/-! ### A sign-in while the seed runs -/

def emptyTable : UserWorld := ⟨[], fun _ => .idle⟩

theorem userTableOk_empty : UserTableOk emptyTable.db := ⟨⟨List.nodup_nil, nofun⟩, nofun⟩

/-- The seed invites the owner, who signs in before the seed comes to the admin. -/
def ownerSignsIn : List (ℕ × UserEvent) :=
  [(0, .seedUsers "t"), (0, .next ""), (0, .next ""), (0, .next "u1"),
    (1, .callback "t" ⟨"sub-1", some "owner@acme-corp.example.test", none⟩), (0, .next ""),
    (1, .next ""), (0, .next ""), (1, .next ""), (0, .next "u2"), (2, .seedUsers "t"),
    (2, .next ""), (2, .next "")]

theorem ownerSignsIn_final : (Run.final (userStep plainDirectory fun _ => "acme-corp") emptyTable
    ownerSignsIn).isSome = true := by
  decide +kernel

theorem callbacks_keep_links_owner :
    Run.All (userStep plainDirectory fun _ => "acme-corp") CallbackStep emptyTable ownerSignsIn :=
  callbacks_keep_links userTableOk_empty (fun _ => rfl) ownerSignsIn
    (Run.enabled_of_final ownerSignsIn_final)

theorem seed_settles_owner :
    Run.All (userStep plainDirectory fun _ => "acme-corp") (SeedStep fun _ => "acme-corp")
      emptyTable ownerSignsIn :=
  seed_settles userTableOk_empty (fun _ => rfl) ownerSignsIn
    (Run.enabled_of_final ownerSignsIn_final)

end VcCommonService.Oidc
