import Mathlib.Data.Prod.Lex
import Mathlib.Data.String.Basic
import VcCommonService.Oidc.Login
import VcCommonService.TenantUser.Constraints
import VcCommonService.TenantUser.MembershipGuard

/-!
# The user of a callback

`OidcInteractionController.callback` looks for a user by the subject, claims an invitation by
e-mail, looks in the tenant of the client, and creates a user. A login that no disabled row
stands against still fails where these lookups miss a row that the unique constraints
see: another row with the same e-mail address, two invitations whose addresses differ in
case only, or a row of the subject that is not active. Nor does anything shorten what the upstream
provider says to the length of the columns.
-/

namespace VcCommonService.Oidc
open Lib Auth TenantUsers

/-- What the queries read besides the table of users: the case functions, the creation times
of the rows and the soft deletions of tenants. -/
structure Directory where
  text : EmailCase
  createdAt : String → Time
  deletedAt : TenantId → Option Time

/-! ### Repository -/

def isActiveMember (dir : Directory) (externalUserId : String) (u : TenantUser) : Bool :=
  decide (u.externalUserId = some externalUserId ∧ u.status = .active) &&
    (dir.deletedAt u.tenantId).isNone

def findActiveByExternalUserId (dir : Directory) (users : List TenantUser)
    (externalUserId : String) : List TenantUser :=
  Table.orderBy (fun u => toLex (dir.createdAt u.id, u.id))
    (users.filter (isActiveMember dir externalUserId))

/-! ### The resolution, on the table -/

def federatedUserInput (tenantId : TenantId) (claims : OidcUpstreamClaims) :
    OidcCreateTenantUserInput :=
  { tenantId, externalUserId := claims.sub, email := claims.email.getD ""
    displayName := (claims.name.orElse fun _ => claims.email).getD claims.sub
    role := .readonly, status := .active }

def createDto (input : OidcCreateTenantUserInput) : CreateTenantUserDto :=
  { tenantId := input.tenantId, externalUserId := input.externalUserId, email := input.email
    displayName := .value input.displayName, role := .value input.role
    status := .value input.status }

def federatedUser (generatedId : String) (input : OidcCreateTenantUserInput) : TenantUser :=
  { id := generatedId, tenantId := input.tenantId, externalUserId := some input.externalUserId
    email := input.email, displayName := some input.displayName, role := input.role
    status := input.status }

theorem newUser_createDto (generatedId : String) (input : OidcCreateTenantUserInput) :
    newUser generatedId (createDto input) = some (federatedUser generatedId input) := rfl

def claimInvitation (dir : Directory) (users : List TenantUser) (tenantId : TenantId)
    (claims : OidcUpstreamClaims) : TenantUsers.Result :=
  match Js.truthy claims.email with
  | none => (users, .ok none)
  | some email => claimInvitedByEmail dir.text users tenantId email claims.sub

def findOrCreate (users : List TenantUser) (generatedId : String) (tenantId : TenantId)
    (claims : OidcUpstreamClaims) : TenantUsers.Result :=
  match findByTenantAndExternalUserId users tenantId claims.sub with
  | some user =>
    if user.status ≠ .active then (users, .error (.error "Federated user is not active"))
    else (users, .ok (some user))
  | none => create users generatedId (createDto (federatedUserInput tenantId claims))

def afterClaimed (generatedId : String) (tenantId : TenantId) (claims : OidcUpstreamClaims) :
    TenantUsers.Result → TenantUsers.Result
  | (users, .ok none) => findOrCreate users generatedId tenantId claims
  | (users, result) => (users, result)

def resolveSubject (dir : Directory) (users : List TenantUser) (generatedId : String)
    (tenantId : TenantId) (claims : OidcUpstreamClaims) : TenantUsers.Result :=
  match (findActiveByExternalUserId dir users claims.sub).head? with
  | some user => (users, .ok (some user))
  | none => afterClaimed generatedId tenantId claims (claimInvitation dir users tenantId claims)

/-- No query takes a subject with U+0000. -/
def resolveUser (dir : Directory) (users : List TenantUser) (generatedId : String)
    (tenantId : TenantId) (claims : OidcUpstreamClaims) : TenantUsers.Result :=
  if Varchar.isText claims.sub then resolveSubject dir users generatedId tenantId claims
  else (users, .error (.constraint "invalid byte sequence"))

/-! ### What a first login is promised -/

/-- One user has been chosen: its row is active and bound to the subject. -/
def ResolvesTo (sub : String) (result : TenantUsers.Result) : Prop :=
  ∃ u ∈ result.1, ∃ chosen, result.2 = .ok (some chosen) ∧ chosen.id = u.id ∧
    u.status = .active ∧ u.externalUserId = some sub

def changedRows (users users' : List TenantUser) : List TenantUser :=
  users.filter fun u => decide (u ∉ users')

def invitations (dir : Directory) (users : List TenantUser) (tenantId : TenantId)
    (claims : OidcUpstreamClaims) : List TenantUser :=
  match Js.truthy claims.email with
  | none => []
  | some email => users.filter (claimable dir.text tenantId email)

/-- The display name of a new row fits, and so does its e-mail address, which no row of the
tenant has as the column stores it. -/
def Insertable (users : List TenantUser) (tenantId : TenantId) (claims : OidcUpstreamClaims) :
    Prop :=
  (Varchar.stored 255 (federatedUserInput tenantId claims).displayName).isSome = true ∧
    ∃ email, Varchar.stored 255 (claims.email.getD "") = some email ∧
      ∀ u ∈ users, u.tenantId = tenantId → u.email ≠ email

/-- The subject fits its column, and the rows that the lookups find settle the login: an active
membership anywhere; else, with an address that a query takes, one invitation and no row of the
subject in the tenant; else an active row of the subject there; else no row of the subject
and a new row that goes in. -/
def Resolvable (dir : Directory) (users : List TenantUser) (tenantId : TenantId)
    (claims : OidcUpstreamClaims) : Prop :=
  Varchar.Fits 255 claims.sub ∧
  ((∃ u ∈ users, isActiveMember dir claims.sub u = true) ∨
    (∀ email, Js.truthy claims.email = some email →
      Varchar.isText (dir.text.normalize email) = true) ∧
    ((invitations dir users tenantId claims).length = 1 ∧
        (∀ u ∈ users, u.tenantId = tenantId → u.externalUserId ≠ some claims.sub) ∨
      invitations dir users tenantId claims = [] ∧
        ((∃ u ∈ users, u.tenantId = tenantId ∧ u.externalUserId = some claims.sub ∧
            u.status = .active) ∨
          (∀ u ∈ users, u.tenantId = tenantId → u.externalUserId ≠ some claims.sub) ∧
            Insertable users tenantId claims)))

section Claim

variable {text : EmailCase} {users : List TenantUser} {tenantId : TenantId}
  {email sub stored : String}

theorem claimable_iff {u : TenantUser} :
    claimable text tenantId email u = true ↔ u.tenantId = tenantId ∧
      text.lower u.email = text.normalize email ∧ u.externalUserId = none ∧
      u.status = .invited := by
  simp [claimable]

theorem updateWhere_none {p : TenantUser → Bool} (f : TenantUser → TenantUser)
    (h : users.filter p = []) : Table.updateWhere p f users = users := by
  have hnot : ∀ u ∈ users, ¬ p u = true := List.filter_eq_nil_iff.mp h
  unfold Table.updateWhere
  calc users.map (fun u => if p u then f u else u)
      = users.map id := List.map_congr_left fun u hu => if_neg (hnot u hu)
    _ = users := List.map_id users

theorem claim_none (h : users.filter (claimable text tenantId email) = []) :
    updateClaimed text users tenantId email sub stored = (users, .ok none) := by
  have hsame := updateWhere_none (claim stored) h
  simp [updateClaimed, h, hsame]

/-- Two rows of a claim would share the external id, and so would a row that has it. -/
theorem claim_unique {u : TenantUser} (hk : Table.UniqueKeys TenantUser.id users)
    (hu : u ∈ users.filter (claimable text tenantId email))
    (hchecked : violatesUnique (Table.updateWhere (claimable text tenantId email) (claim sub)
      users) (claim sub u) = none) :
    (∀ v ∈ users.filter (claimable text tenantId email), v = u) ∧
      ∀ v ∈ users, v.tenantId = tenantId → v.externalUserId ≠ some sub := by
  obtain ⟨humem, huclaim⟩ := List.mem_filter.mp hu
  have hnone := (violatesUnique_none_iff _ _).mp hchecked
  have hut := (claimable_iff.mp huclaim).1
  constructor
  · intro v hv
    obtain ⟨hvmem, hvclaim⟩ := List.mem_filter.mp hv
    by_contra hne
    have hid : (claim sub v).id ≠ (claim sub u).id := fun he =>
      hne (Table.eq_of_key hk hvmem humem he)
    have hmem : claim sub v ∈
        Table.updateWhere (claimable text tenantId email) (claim sub) users :=
      (Table.mem_updateWhere _ _ _ _).mpr ⟨v, hvmem, if_pos hvclaim⟩
    refine hnone _ hmem hid ⟨(claimable_iff.mp hvclaim).1.trans hut.symm, Or.inr ⟨?_, rfl⟩⟩
    simp [claim]
  · intro v hv hvt hext
    have hvclaim : ¬ claimable text tenantId email v = true := by
      intro hc
      rw [(claimable_iff.mp hc).2.2.1] at hext
      cases hext
    have hmem : v ∈ Table.updateWhere (claimable text tenantId email) (claim sub) users :=
      (Table.mem_updateWhere _ _ _ _).mpr ⟨v, hv, if_neg hvclaim⟩
    have hid : v.id ≠ (claim sub u).id := by
      intro he
      rw [Table.eq_of_key hk hv humem he] at hvclaim
      exact hvclaim huclaim
    refine hnone v hmem hid ⟨hvt.trans hut.symm, Or.inr ⟨?_, hext⟩⟩
    simp [hext]

theorem claim_single (h : Constraints users) {u : TenantUser}
    (hsingle : users.filter (claimable text tenantId email) = [u])
    (hfree : ∀ v ∈ users, v.tenantId = tenantId → v.externalUserId ≠ some stored) :
    updateClaimed text users tenantId email sub stored =
      (Table.updateWhere (claimable text tenantId email) (claim stored) users,
        .ok (findByTenantAndExternalUserId (Table.updateWhere (claimable text tenantId email)
          (claim stored) users) tenantId sub)) := by
  have hu : u ∈ users.filter (claimable text tenantId email) := by simp [hsingle]
  obtain ⟨humem, huclaim⟩ := List.mem_filter.mp hu
  have hut := (claimable_iff.mp huclaim).1
  have hchecked : violatesUnique (Table.updateWhere (claimable text tenantId email) (claim stored)
      users) (claim stored u) = none := by
    refine (violatesUnique_none_iff _ _).mpr fun v hv hid hconflict => ?_
    obtain ⟨w, hw, rfl⟩ := (Table.mem_updateWhere _ _ _ _).mp hv
    by_cases hwclaim : claimable text tenantId email w = true
    · have hwu : w ∈ users.filter (claimable text tenantId email) :=
        List.mem_filter.mpr ⟨hw, hwclaim⟩
      rw [hsingle, List.mem_singleton] at hwu
      rw [if_pos hwclaim, hwu] at hid
      exact hid rfl
    · rw [if_neg hwclaim] at hid hconflict
      rcases hconflict.2 with hemail | ⟨-, hext⟩
      · exact hid (h.noConflict w hw u humem ⟨hconflict.1, Or.inl hemail⟩)
      · exact hfree w hw (hconflict.1.trans hut) hext
  simp [updateClaimed, hsingle, hchecked]

/-- A claim with a subject that fits finds the row that it has claimed. -/
theorem find_claimed {u : TenantUser} (hu : u ∈ users)
    (hclaim : claimable text tenantId email u = true)
    (hfree : ∀ v ∈ users, v.tenantId = tenantId → v.externalUserId ≠ some sub)
    (hsingle : users.filter (claimable text tenantId email) = [u]) :
    findByTenantAndExternalUserId (Table.updateWhere (claimable text tenantId email) (claim sub)
      users) tenantId sub = some (claim sub u) := by
  have hmem : claim sub u ∈ Table.updateWhere (claimable text tenantId email) (claim sub) users :=
    (Table.mem_updateWhere _ _ _ _).mpr ⟨u, hu, if_pos hclaim⟩
  have hlinked : ∀ a ∈ Table.updateWhere (claimable text tenantId email) (claim sub) users,
      a.tenantId = tenantId → a.externalUserId = some sub → a = claim sub u := by
    intro a ha ht hext
    obtain ⟨v, hv, rfl⟩ := (Table.mem_updateWhere _ _ _ _).mp ha
    by_cases hvclaim : claimable text tenantId email v = true
    · have hvmem : v ∈ users.filter (claimable text tenantId email) :=
        List.mem_filter.mpr ⟨hv, hvclaim⟩
      rw [hsingle, List.mem_singleton] at hvmem
      rw [if_pos hvclaim, hvmem]
    · rw [if_neg hvclaim] at ht hext
      exact absurd hext (hfree v hv ht)
  cases hfind : findByTenantAndExternalUserId (Table.updateWhere (claimable text tenantId email)
      (claim sub) users) tenantId sub with
  | none =>
    have hnot := List.find?_eq_none.mp hfind _ hmem
    exact absurd (decide_eq_true ⟨(claimable_iff.mp hclaim).1, rfl⟩) hnot
  | some a =>
    obtain ⟨ha, ht, hext⟩ := findByTenantAndExternalUserId_some hfind
    rw [hlinked a ha ht hext]

theorem eq_singleton {l : List TenantUser} {u : TenantUser} (hn : l.Nodup) (hu : u ∈ l)
    (h : ∀ v ∈ l, v = u) : l = [u] := by
  match l with
  | [] => simp at hu
  | [a] => rw [h a (List.mem_singleton.mpr rfl)]
  | a :: b :: rest =>
    have ha := h a (by simp)
    have hb := h b (by simp)
    simp [ha, hb] at hn

/-- What a claim does: nothing without an invitation, one row where it is the only
invitation and no row of the tenant has what it stores, and else it fails. -/
theorem updateClaimed_cases (h : Constraints users) (text : EmailCase) (tenantId : TenantId)
    (email sub stored : String) :
    (users.filter (claimable text tenantId email) = [] ∧
      updateClaimed text users tenantId email sub stored = (users, .ok none)) ∨
    (∃ u, users.filter (claimable text tenantId email) = [u] ∧
      (∀ v ∈ users, v.tenantId = tenantId → v.externalUserId ≠ some stored) ∧
      updateClaimed text users tenantId email sub stored =
        (Table.updateWhere (claimable text tenantId email) (claim stored) users,
          .ok (findByTenantAndExternalUserId (Table.updateWhere (claimable text tenantId email)
            (claim stored) users) tenantId sub))) ∨
    (users.filter (claimable text tenantId email) ≠ [] ∧
      ¬ ((users.filter (claimable text tenantId email)).length = 1 ∧
        ∀ v ∈ users, v.tenantId = tenantId → v.externalUserId ≠ some stored) ∧
      ∃ name, updateClaimed text users tenantId email sub stored =
        (users, .error (.constraint name))) := by
  by_cases hnil : users.filter (claimable text tenantId email) = []
  · exact Or.inl ⟨hnil, claim_none hnil⟩
  · by_cases hone : (users.filter (claimable text tenantId email)).length = 1 ∧
        ∀ v ∈ users, v.tenantId = tenantId → v.externalUserId ≠ some stored
    · obtain ⟨u, hu⟩ := List.length_eq_one_iff.mp hone.1
      exact Or.inr (Or.inl ⟨u, hu, hone.2, claim_single h hu hone.2⟩)
    · refine Or.inr (Or.inr ⟨hnil, hone, ?_⟩)
      cases hfind : (users.filter (claimable text tenantId email)).findSome? fun u =>
          violatesUnique (Table.updateWhere (claimable text tenantId email) (claim stored) users)
            (claim stored u) with
      | some name => exact ⟨name, by simp only [updateClaimed, hfind]⟩
      | none =>
        obtain ⟨u, hu⟩ := List.exists_mem_of_ne_nil _ hnil
        have hchecked := List.findSome?_eq_none_iff.mp hfind u hu
        obtain ⟨hall, hfree⟩ := claim_unique h.keys hu hchecked
        have hnodup : (users.filter (claimable text tenantId email)).Nodup :=
          h.keys.of_map.filter _
        rw [eq_singleton hnodup hu hall] at hone
        exact absurd ⟨rfl, hfree⟩ hone

/-- A claim whose parameters the database takes. -/
theorem claimInvitedByEmail_eq (hfits : Varchar.Fits 255 sub)
    (htext : Varchar.isText (text.normalize email) = true) :
    claimInvitedByEmail text users tenantId email sub =
      updateClaimed text users tenantId email sub sub := by
  simp only [claimInvitedByEmail, show Varchar.stored 255 sub = some sub from hfits, if_pos htext]

/-- The same of a claim that the database takes, with the row that it returns. -/
theorem claim_cases (h : Constraints users) (tenantId : TenantId)
    (hfits : Varchar.Fits 255 sub) (htext : Varchar.isText (text.normalize email) = true) :
    (users.filter (claimable text tenantId email) = [] ∧
      claimInvitedByEmail text users tenantId email sub = (users, .ok none)) ∨
    (∃ u, users.filter (claimable text tenantId email) = [u] ∧
      (∀ v ∈ users, v.tenantId = tenantId → v.externalUserId ≠ some sub) ∧
      claimInvitedByEmail text users tenantId email sub =
        (Table.updateWhere (claimable text tenantId email) (claim sub) users,
          .ok (some (claim sub u)))) ∨
    (users.filter (claimable text tenantId email) ≠ [] ∧
      ¬ ((users.filter (claimable text tenantId email)).length = 1 ∧
        ∀ v ∈ users, v.tenantId = tenantId → v.externalUserId ≠ some sub) ∧
      ∃ name, claimInvitedByEmail text users tenantId email sub =
        (users, .error (.constraint name))) := by
  rw [claimInvitedByEmail_eq hfits htext]
  rcases updateClaimed_cases h text tenantId email sub sub with
    hnone | ⟨u, hu, hfree, he⟩ | hfails
  · exact Or.inl hnone
  · refine Or.inr (Or.inl ⟨u, hu, hfree, ?_⟩)
    have hmem : u ∈ users.filter (claimable text tenantId email) := by simp [hu]
    obtain ⟨humem, hclaim⟩ := List.mem_filter.mp hmem
    rw [he, find_claimed humem hclaim hfree hu]
  · exact Or.inr (Or.inr hfails)

theorem changedRows_self (users : List TenantUser) : changedRows users users = [] := by
  refine List.filter_eq_nil_iff.mpr fun u hu => ?_
  simp [hu]

theorem claim_changes_one (h : Constraints users) (tenantId : TenantId) (email sub : String) :
    (changedRows users (claimInvitedByEmail text users tenantId email sub).1).length ≤ 1 := by
  have hsame : (changedRows users users).length ≤ 1 := by
    rw [changedRows_self]
    exact Nat.zero_le _
  unfold claimInvitedByEmail
  split
  · exact hsame
  next stored _ =>
    split
    · rcases updateClaimed_cases h text tenantId email sub stored with
        ⟨-, he⟩ | ⟨u, hu, -, he⟩ | ⟨-, -, name, he⟩
      · rw [he]
        exact hsame
      · rw [he]
        have hclaimed : ∀ v ∈ users, decide (v ∉ Table.updateWhere
            (claimable text tenantId email) (claim stored) users) = true →
            claimable text tenantId email v = true := by
          intro v hv hchanged
          by_contra hnot
          exact of_decide_eq_true hchanged
            ((Table.mem_updateWhere _ _ _ _).mpr ⟨v, hv, if_neg hnot⟩)
        calc (changedRows users _).length
            ≤ (users.filter (claimable text tenantId email)).length := by
              simpa only [changedRows, List.countP_eq_length_filter] using
                List.countP_mono_left hclaimed
          _ = 1 := by rw [hu, List.length_singleton]
      · rw [he]
        exact hsame
    · exact hsame

end Claim

/-! ### The resolution -/

section Resolution

variable {dir : Directory} {users : List TenantUser} {generatedId : String} {tenantId : TenantId}
  {claims : OidcUpstreamClaims}

theorem mem_findActiveByExternalUserId {sub : String} {u : TenantUser} :
    u ∈ findActiveByExternalUserId dir users sub ↔
      u ∈ users ∧ isActiveMember dir sub u = true := by
  rw [findActiveByExternalUserId, Table.mem_orderBy, List.mem_filter]

theorem isActiveMember_iff {sub : String} {u : TenantUser} :
    isActiveMember dir sub u = true ↔ u.externalUserId = some sub ∧ u.status = .active ∧
      dir.deletedAt u.tenantId = none := by
  simp [isActiveMember, and_assoc]

theorem findByTenantAndExternalUserId_none {sub : String}
    (h : findByTenantAndExternalUserId users tenantId sub = none) :
    ∀ u ∈ users, u.tenantId = tenantId → u.externalUserId ≠ some sub := by
  intro u hu ht hext
  have hnot := List.find?_eq_none.mp h u hu
  simp [ht, hext] at hnot

theorem storedUser_federatedUser (hfits : Varchar.Fits 255 claims.sub) :
    storedUser (federatedUser generatedId (federatedUserInput tenantId claims)) =
      (Varchar.stored 255 (claims.email.getD "")).bind fun email =>
        (Varchar.stored 255 (federatedUserInput tenantId claims).displayName).map fun name =>
          { federatedUser generatedId (federatedUserInput tenantId claims) with
            email, displayName := some name } := by
  have hsub : Varchar.stored 255 claims.sub = some claims.sub := hfits
  simp only [storedUser, federatedUser, federatedUserInput, Varchar.storedOrNull, hsub,
    Option.map_some, Option.bind_eq_bind, Option.bind_some]
  cases Varchar.stored 255 (claims.email.getD "") with
  | none => rfl
  | some email =>
    cases Varchar.stored 255 ((claims.name.orElse fun _ => claims.email).getD claims.sub) with
    | none => rfl
    | some name => rfl

theorem create_eq_insert
    (hnone : findByTenantAndExternalUserId users tenantId claims.sub = none) :
    create users generatedId (createDto (federatedUserInput tenantId claims)) =
      TenantUsers.insert users
        (federatedUser generatedId (federatedUserInput tenantId claims)) := by
  have hfind : findByTenantAndExternalUserId users
      (createDto (federatedUserInput tenantId claims)).tenantId
      (createDto (federatedUserInput tenantId claims)).externalUserId = none := hnone
  rw [create, hfind, newUser_createDto]

theorem create_resolves_iff (hfits : Varchar.Fits 255 claims.sub)
    (hfresh : ∀ u ∈ users, u.id ≠ generatedId)
    (hnone : findByTenantAndExternalUserId users tenantId claims.sub = none) :
    ResolvesTo claims.sub
        (create users generatedId (createDto (federatedUserInput tenantId claims))) ↔
      Insertable users tenantId claims := by
  have hfree := findByTenantAndExternalUserId_none hnone
  have hany : (users.any fun u => decide (u.id = generatedId)) = false := by simpa using hfresh
  rw [create_eq_insert hnone, TenantUsers.insert, storedUser_federatedUser hfits]
  cases hemail : Varchar.stored 255 (claims.email.getD "") with
  | none => simp [ResolvesTo, Insertable, hemail]
  | some email =>
    cases hname : Varchar.stored 255 (federatedUserInput tenantId claims).displayName with
    | none => simp [ResolvesTo, Insertable, hname]
    | some name =>
      simp only [Option.bind_some, Option.map_some, Insertable, hemail, hname, Option.isSome_some,
        true_and, Option.some.injEq, exists_eq_left']
      have hid : ∀ row : TenantUser, row.id = generatedId →
          (users.any fun u => decide (u.id = row.id)) = false := fun row h => h ▸ hany
      rw [hid _ rfl, if_neg Bool.false_ne_true]
      -- the new row has the subject, so only its address can be in the way
      have hconflict : (∀ u ∈ users, u.tenantId = tenantId → u.email ≠ email) ↔
          violatesUnique users { federatedUser generatedId (federatedUserInput tenantId claims) with
            email, displayName := some name } = none := by
        rw [violatesUnique_none_iff]
        constructor
        · rintro h u hu - ⟨ht, he | ⟨-, hext⟩⟩
          · exact h u hu ht he
          · exact hfree u hu ht hext
        · intro h u hu ht he
          exact h u hu (hfresh u hu) ⟨ht, Or.inl he⟩
      rw [hconflict]
      cases violatesUnique users { federatedUser generatedId
          (federatedUserInput tenantId claims) with email, displayName := some name } with
      | some constraint => simp [ResolvesTo]
      | none => simp [ResolvesTo, federatedUser, federatedUserInput]

theorem findOrCreate_resolves_iff (h : Constraints users) (hfits : Varchar.Fits 255 claims.sub)
    (hfresh : ∀ u ∈ users, u.id ≠ generatedId) :
    ResolvesTo claims.sub (findOrCreate users generatedId tenantId claims) ↔
      (∃ u ∈ users, u.tenantId = tenantId ∧ u.externalUserId = some claims.sub ∧
        u.status = .active) ∨
      (∀ u ∈ users, u.tenantId = tenantId → u.externalUserId ≠ some claims.sub) ∧
        Insertable users tenantId claims := by
  unfold findOrCreate
  cases hfind : findByTenantAndExternalUserId users tenantId claims.sub with
  | none =>
    have hfree := findByTenantAndExternalUserId_none hfind
    dsimp only
    rw [create_resolves_iff hfits hfresh hfind]
    constructor
    · exact fun hinsert => Or.inr ⟨hfree, hinsert⟩
    · rintro (⟨u, hu, ht, hext, -⟩ | ⟨-, hinsert⟩)
      · exact absurd hext (hfree u hu ht)
      · exact hinsert
  | some user =>
    obtain ⟨huser, ht, hext⟩ := findByTenantAndExternalUserId_some hfind
    dsimp only
    by_cases hactive : user.status = .active
    · rw [if_neg (not_not.mpr hactive)]
      exact iff_of_true ⟨user, huser, user, rfl, rfl, hactive, hext⟩
        (Or.inl ⟨user, huser, ht, hext, hactive⟩)
    · rw [if_pos hactive]
      refine iff_of_false ?_ ?_
      · rintro ⟨u, -, chosen, hok, -⟩
        cases hok
      · rintro (⟨u, hu, hut, huext, hstatus⟩ | ⟨hall, -⟩)
        · have hlink : u.externalUserId ≠ none := by simp [huext]
          have he : u = user := h.eq hu huser
            ⟨hut.trans ht.symm, Or.inr ⟨hlink, huext.trans hext.symm⟩⟩
          exact hactive (he ▸ hstatus)
        · exact hall user huser ht hext

theorem resolveSubject_iff (h : Constraints users)
    (hfits : Varchar.Fits 255 claims.sub) (hfresh : ∀ u ∈ users, u.id ≠ generatedId) :
    ResolvesTo claims.sub (resolveSubject dir users generatedId tenantId claims) ↔
      Resolvable dir users tenantId claims := by
  unfold resolveSubject
  cases hhead : (findActiveByExternalUserId dir users claims.sub).head? with
  | some user =>
    obtain ⟨hmem, hactive⟩ := mem_findActiveByExternalUserId.mp (List.mem_of_head? hhead)
    obtain ⟨hext, hstatus, -⟩ := isActiveMember_iff.mp hactive
    exact iff_of_true ⟨user, hmem, user, rfl, rfl, hstatus, hext⟩
      ⟨hfits, Or.inl ⟨user, hmem, hactive⟩⟩
  | none =>
    have hnoMember : ¬ ∃ u ∈ users, isActiveMember dir claims.sub u = true := by
      rintro ⟨u, hu, hactive⟩
      have hmem := mem_findActiveByExternalUserId.mpr ⟨hu, hactive⟩
      rw [List.head?_eq_none_iff.mp hhead] at hmem
      simp at hmem
    have hnoInvitation : invitations dir users tenantId claims = [] →
        (∀ email, Js.truthy claims.email = some email →
          Varchar.isText (dir.text.normalize email) = true) →
        (ResolvesTo claims.sub (findOrCreate users generatedId tenantId claims) ↔
          Resolvable dir users tenantId claims) := by
      intro hnil htext
      rw [findOrCreate_resolves_iff h hfits hfresh, Resolvable, and_iff_right hfits,
        or_iff_right hnoMember, and_iff_right htext]
      simp only [hnil, List.length_nil, Nat.zero_ne_one, false_and, false_or, true_and]
    dsimp only
    cases hemail : Js.truthy claims.email with
    | none =>
      have hnil : invitations dir users tenantId claims = [] := by simp only [invitations, hemail]
      rw [claimInvitation, hemail]
      exact hnoInvitation hnil fun email he => by rw [hemail] at he; cases he
    | some email =>
      have hinv : invitations dir users tenantId claims =
          users.filter (claimable dir.text tenantId email) := by simp only [invitations, hemail]
      simp only [claimInvitation, hemail]
      by_cases htext : Varchar.isText (dir.text.normalize email) = true
      · rcases claim_cases h tenantId hfits htext with
          ⟨hnil, he⟩ | ⟨u, hu, hfree, he⟩ | ⟨hne, hnot, name, he⟩
        · rw [he]
          refine hnoInvitation (hinv.trans hnil) fun email' he' => ?_
          rw [hemail] at he'
          cases he'
          exact htext
        · have hmem : u ∈ users.filter (claimable dir.text tenantId email) := by simp [hu]
          obtain ⟨humem, hclaim⟩ := List.mem_filter.mp hmem
          rw [he]
          refine iff_of_true ⟨claim claims.sub u, ?_, _, rfl, rfl, rfl, rfl⟩
            ⟨hfits, Or.inr ⟨fun email' he' => ?_, Or.inl ⟨?_, hfree⟩⟩⟩
          · exact (Table.mem_updateWhere _ _ _ _).mpr ⟨u, humem, if_pos hclaim⟩
          · rw [hemail] at he'
            cases he'
            exact htext
          · rw [hinv, hu, List.length_singleton]
        · rw [he]
          refine iff_of_false ?_ ?_
          · rintro ⟨u, -, chosen, hok, -⟩
            cases hok
          · rintro ⟨-, hmember | ⟨-, hone | ⟨hnil, -⟩⟩⟩
            · exact hnoMember hmember
            · exact hnot (hinv ▸ hone)
            · exact hne (hinv ▸ hnil)
      · have hrefused : claimInvitedByEmail dir.text users tenantId email claims.sub =
            (users, .error (.constraint "invalid byte sequence")) := by
          simp only [claimInvitedByEmail,
            show Varchar.stored 255 claims.sub = some claims.sub from hfits, if_neg htext]
        rw [hrefused]
        refine iff_of_false ?_ ?_
        · rintro ⟨u, -, chosen, hok, -⟩
          cases hok
        · rintro ⟨-, hmember | ⟨hall, -⟩⟩
          · exact hnoMember hmember
          · exact htext (hall email hemail)

theorem subjectsFit_findOrCreate (h : SubjectsFit users) :
    SubjectsFit (findOrCreate users generatedId tenantId claims).1 := by
  unfold findOrCreate
  split
  · split <;> exact h
  next hnone =>
    rw [create_eq_insert hnone]
    exact subjectsFit_insert h _

theorem subjectsFit_resolveUser (h : SubjectsFit users) :
    SubjectsFit (resolveUser dir users generatedId tenantId claims).1 := by
  have hclaim : SubjectsFit (claimInvitation dir users tenantId claims).1 := by
    unfold claimInvitation
    split
    · exact h
    · exact subjectsFit_claim dir.text h tenantId _ claims.sub
  unfold resolveUser
  split
  · unfold resolveSubject
    split
    · exact h
    · unfold afterClaimed
      split
      next users' hresult =>
        rw [hresult] at hclaim
        exact subjectsFit_findOrCreate hclaim
      next users' result _ hresult =>
        rw [hresult] at hclaim
        exact hclaim
  · exact h

theorem resolveUser_iff (h : Constraints users) (hsubjects : SubjectsFit users)
    (hfresh : ∀ u ∈ users, u.id ≠ generatedId) :
    ResolvesTo claims.sub (resolveUser dir users generatedId tenantId claims) ↔
      Resolvable dir users tenantId claims := by
  by_cases hfits : Varchar.Fits 255 claims.sub
  · rw [resolveUser, if_pos (Varchar.fits_iff.mp hfits).1]
    exact resolveSubject_iff h hfits hfresh
  · refine iff_of_false ?_ fun hres => hfits hres.1
    rintro ⟨u, hu, chosen, -, -, -, hext⟩
    exact hfits (subjectsFit_resolveUser hsubjects u hu claims.sub hext)

/-! ### The port of the login -/

def chosen (result : TenantUsers.Result) : Option TenantUser := result.2.toOption.join

def tablePort (dir : Directory) (users : List TenantUser) (generatedId : String) :
    OidcTenantUserPort :=
  { findActiveByExternalUserId := findActiveByExternalUserId dir users
    findByTenantAndExternalUserId := findByTenantAndExternalUserId users
    claimInvitedByEmail := fun tenantId email externalUserId =>
      chosen (claimInvitedByEmail dir.text users tenantId email externalUserId)
    create := federatedUser generatedId }

theorem findOrCreate_chosen {u : TenantUser}
    (h : (findOrCreate users generatedId tenantId claims).2 = .ok (some u)) :
    (∃ user, findByTenantAndExternalUserId users tenantId claims.sub = some user ∧
      user.status = .active ∧ u = user) ∨
    (findByTenantAndExternalUserId users tenantId claims.sub = none ∧
      u = federatedUser generatedId (federatedUserInput tenantId claims)) := by
  unfold findOrCreate at h
  cases hfind : findByTenantAndExternalUserId users tenantId claims.sub with
  | some user =>
    rw [hfind] at h
    dsimp only at h
    split at h
    · cases h
    next hactive =>
      cases h
      exact Or.inl ⟨_, rfl, not_not.mp hactive, rfl⟩
  | none =>
    rw [hfind] at h
    dsimp only at h
    rw [create_eq_insert hfind] at h
    rcases insert_cases users (federatedUser generatedId (federatedUserInput tenantId claims)) with
      ⟨e, he⟩ | ⟨row, -, -, -, he⟩
    · rw [he] at h
      cases h
    · rw [he] at h
      cases h
      exact Or.inr ⟨rfl, rfl⟩

theorem resolveFederatedUser_created {port : OidcTenantUserPort} {u : TenantUser}
    (hhead : (port.findActiveByExternalUserId claims.sub).head? = none)
    (hclaim : (Js.truthy claims.email).bind (fun email =>
      port.claimInvitedByEmail tenantId email claims.sub) = none)
    (hu : (∃ user, port.findByTenantAndExternalUserId tenantId claims.sub = some user ∧
        user.status = .active ∧ u = user) ∨
      (port.findByTenantAndExternalUserId tenantId claims.sub = none ∧
        u = port.create (federatedUserInput tenantId claims))) :
    resolveFederatedUser port tenantId claims = .ok u := by
  rcases hu with ⟨user, hfind, hactive, rfl⟩ | ⟨hfind, rfl⟩
  · simp [resolveFederatedUser, hhead, hclaim, hfind, hactive]
  · simp only [resolveFederatedUser, hhead, hclaim, hfind]
    rfl

/-- The user that the resolution chooses on the table, for a subject that fits, is the one that
the callback of the login model gets from its port. -/
theorem resolveUser_port (h : Constraints users) (hfits : Varchar.Fits 255 claims.sub)
    {u : TenantUser} (hu : (resolveUser dir users generatedId tenantId claims).2 = .ok (some u)) :
    resolveFederatedUser (tablePort dir users generatedId) tenantId claims = .ok u := by
  have hport : ∀ email, (tablePort dir users generatedId).claimInvitedByEmail tenantId email
      claims.sub = chosen (claimInvitedByEmail dir.text users tenantId email claims.sub) :=
    fun _ => rfl
  rw [resolveUser, if_pos (Varchar.fits_iff.mp hfits).1, resolveSubject] at hu
  cases hhead : (findActiveByExternalUserId dir users claims.sub).head? with
  | some user =>
    rw [hhead] at hu
    cases hu
    simp only [resolveFederatedUser, tablePort, hhead]
  | none =>
    rw [hhead] at hu
    dsimp only at hu
    cases hemail : Js.truthy claims.email with
    | none =>
      simp only [claimInvitation, hemail, afterClaimed] at hu
      exact resolveFederatedUser_created hhead (by simp [hemail]) (findOrCreate_chosen hu)
    | some email =>
      simp only [claimInvitation, hemail] at hu
      by_cases htext : Varchar.isText (dir.text.normalize email) = true
      · rcases claim_cases h tenantId hfits htext with
          ⟨-, he⟩ | ⟨v, -, -, he⟩ | ⟨-, -, name, he⟩
        · rw [he] at hu
          have hclaim : (Js.truthy claims.email).bind (fun email =>
              (tablePort dir users generatedId).claimInvitedByEmail tenantId email claims.sub) =
              none := by
            rw [hemail, Option.bind_some, hport, he]
            rfl
          exact resolveFederatedUser_created hhead hclaim (findOrCreate_chosen hu)
        · rw [he] at hu
          cases hu
          simp only [resolveFederatedUser, hemail, Option.bind_some, hport, he]
          simp only [tablePort, hhead, chosen, Except.toOption, Option.join_some]
        · rw [he] at hu
          cases hu
      · simp only [claimInvitedByEmail,
          show Varchar.stored 255 claims.sub = some claims.sub from hfits, if_neg htext] at hu
        cases hu

end Resolution

/-- On every table that calls lead to, the resolution chooses one active user of the subject
exactly when the subject fits its column and the rows that its lookups find settle the login; a
claim never changes two. -/
theorem first_login_iff (dir : Directory) (users : List TenantUser) (generatedId : String)
    (tenantId : TenantId) (claims : OidcUpstreamClaims) (hreach : Reachable dir.text users)
    (hfresh : ∀ u ∈ users, u.id ≠ generatedId) :
    (ResolvesTo claims.sub (resolveUser dir users generatedId tenantId claims) ∧
      ∀ email, (changedRows users
        (claimInvitedByEmail dir.text users tenantId email claims.sub).1).length ≤ 1) ↔
      Resolvable dir users tenantId claims := by
  obtain ⟨h, hsubjects⟩ := constraints_of_reachable hreach
  rw [resolveUser_iff h hsubjects hfresh]
  exact and_iff_left fun email => claim_changes_one h tenantId email claims.sub

def plainDirectory : Directory := ⟨plainCase, fun _ => 0, fun _ => none⟩

/-- The claimed invitation of a first login. -/
theorem first_login_invited :
    ResolvesTo "sub-1" (resolveUser plainDirectory
        [⟨"u1", "t", none, "a@example.com", none, .member, .invited⟩] "u2" "t"
        ⟨"sub-1", some "a@example.com", none⟩) ∧
      ∀ email, (changedRows [⟨"u1", "t", none, "a@example.com", none, .member, .invited⟩]
        (claimInvitedByEmail plainCase
          [⟨"u1", "t", none, "a@example.com", none, .member, .invited⟩] "t" email
          "sub-1").1).length ≤ 1 :=
  (first_login_iff plainDirectory [⟨"u1", "t", none, "a@example.com", none, .member, .invited⟩]
    "u2" "t" ⟨"sub-1", some "a@example.com", none⟩
    ⟨[.invite "u1" "t" ⟨"a@example.com", .member⟩], rfl⟩ (by decide)).mpr
    ⟨by decide, Or.inr ⟨by decide, Or.inl ⟨rfl, by decide⟩⟩⟩

/-- Two subjects without an e-mail address: the row of the first has the empty address, and
the row of the second would have it too. -/
theorem first_login_without_email : ¬ ∀ (dir : Directory) (users : List TenantUser)
    (generatedId : String) (tenantId : TenantId) (claims : OidcUpstreamClaims),
    Reachable dir.text users → (∀ u ∈ users, u.id ≠ generatedId) →
    (∀ u ∈ users, u.tenantId = tenantId → u.externalUserId = some claims.sub →
      u.status ≠ .disabled) →
    ResolvesTo claims.sub (resolveUser dir users generatedId tenantId claims) := by
  intro hall
  obtain ⟨u, -, chosen, hok, -⟩ := hall plainDirectory
    [⟨"u1", "t", some "sub-1", "", some "sub-1", .readonly, .active⟩] "u2" "t"
    ⟨"sub-2", none, none⟩
    ⟨[.create "u1" (createDto (federatedUserInput "t" ⟨"sub-1", none, none⟩))], rfl⟩
    (by decide) (by decide)
  cases hok

end VcCommonService.Oidc
