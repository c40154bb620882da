import VcCommonService.TenantUser.Constraints

/-!
# Claims of invitations that race with updates

`claimInvitedByEmail` links a row in one `UPDATE`. `update` saves the entity it loaded: the
save reads the row once more and writes the columns in which the entity differs from it, or
inserts the entity when the row is gone. A claim that commits between the load and that read
differs from the entity, so the save takes the link back.
-/

namespace VcCommonService.TenantUsers
open Lib Auth
open Table (written written_self)

/-! ### `save` as a read and a write -/

/-- The row `current` after the columns are written in which `entity` differs from `row`. -/
def writeColumns (row entity current : TenantUser) : TenantUser :=
  { id := current.id
    tenantId := written row.tenantId entity.tenantId current.tenantId
    externalUserId := written row.externalUserId entity.externalUserId current.externalUserId
    email := written row.email entity.email current.email
    displayName := written row.displayName entity.displayName current.displayName
    role := written row.role entity.role current.role
    status := written row.status entity.status current.status }

/-- The `UPDATE` of a save; where the row is gone it matches nothing. -/
def writeRow (users : List TenantUser) (row entity : TenantUser) : Result :=
  match findById users entity.id with
  | none => (users, .ok (some entity))
  | some current =>
    match violatesUnique users (writeColumns row entity current) with
    | some name => (users, .error (.constraint name))
    | none =>
      (Table.save TenantUser.id (writeColumns row entity current) users, .ok (some entity))

def writeSelected (users : List TenantUser) (entity : TenantUser) : Option TenantUser → Result
  | none => insert users entity
  | some row => writeRow users row entity

/-! ### Statements -/

/-- The table and, as history of one row: a claim has linked it, and the claim's change of
its status stands. -/
structure ClaimStore where
  users : List TenantUser
  linked : Bool := false
  activated : Bool := false
  deriving Repr, DecidableEq

def hasRow (id : String) (p : TenantUser → Bool) (users : List TenantUser) : Bool :=
  users.any fun u => decide (u.id = id) && p u

def isLinked (u : TenantUser) : Bool := u.externalUserId.isSome

def isActive (u : TenantUser) : Bool := decide (u.status = .active)

def ClaimStore.stored (db : ClaimStore) (id : String) (users : List TenantUser) : ClaimStore :=
  { users
    linked := db.linked && hasRow id (fun _ => true) users
    activated := db.activated && hasRow id isActive users }

def ClaimStore.claimed (db : ClaimStore) (id : String) (users : List TenantUser) : ClaimStore :=
  let links := hasRow id isLinked users && !hasRow id isLinked db.users
  { users, linked := db.linked || links, activated := db.activated || links }

/-- Where a call stands: in the statements of `update` and `delete`, between the read and the
write of a save, or before the read that ends a claim. `asksStatus` is whether the request of
an update names a status. -/
inductive ClaimCall where
  | running (asksStatus : Bool) (call : Call)
  | saving (asksStatus : Bool) (entity : TenantUser) (row : Option TenantUser)
  | fetching (tenantId : TenantId) (externalUserId : String)

inductive ClaimEvent where
  | service (event : Event)
  | claimInvitedByEmail (tenantId : TenantId) (email externalUserId : String)

def asksStatus : Event → Bool
  | .update _ _ dto _ => dto.status.isDefined
  | _ => false

def ClaimCall.asks : ClaimCall → Bool
  | .running asksStatus _ => asksStatus
  | .saving asksStatus _ _ => asksStatus
  | .fetching _ _ => false

def finish (asksStatus : Bool) (result : Except ServiceError (Option TenantUser)) : ClaimCall :=
  .running asksStatus (.done result)

def afterClaim (tenantId : TenantId) (externalUserId : String) :
    Except ServiceError (Option TenantUser) → ClaimCall
  | .ok (some _) => .fetching tenantId externalUserId
  | result => finish false result

def claimAct (text : EmailCase) (id : String) (db : ClaimStore) :
    ClaimCall → ClaimEvent → Option (ClaimStore × ClaimCall)
  | .running _ .idle, .claimInvitedByEmail tenantId email externalUserId =>
    let result := claimInvitedByEmail text db.users tenantId email externalUserId
    some (db.claimed id result.1, afterClaim tenantId externalUserId result.2)
  | .running asks (.writing _ _ (.save (some entity))), .service .next =>
    some (db, .saving asks entity (findById db.users entity.id))
  | .running asks call, .service e =>
    (act db.users call e).map fun r =>
      (db.stored id r.1, .running (asks || asksStatus e) r.2)
  | .saving asks entity row, .service .next =>
    let result := writeSelected db.users entity row
    some (db.stored id result.1, finish asks result.2)
  | .fetching tenantId externalUserId, .service .next =>
    some (db, finish false (.ok
      (findByTenantAndExternalUserId db.users tenantId externalUserId)))
  | .saving asks _ _, .service (.abort e) => some (db, finish asks (.error e))
  | .fetching _ _, .service (.abort e) => some (db, finish false (.error e))
  | _, _ => none

abbrev ClaimWorld := Run.World ClaimStore ClaimCall

def claimStep (text : EmailCase) (id : String) :
    ClaimWorld → ℕ × ClaimEvent → Option ClaimWorld :=
  Run.interleave (claimAct text id)

/-! ### A save with nobody in between -/

theorem writeColumns_self {row entity : TenantUser} (hid : entity.id = row.id) :
    writeColumns row entity row = entity := by
  cases entity
  simp only [writeColumns, written_self, ← hid]

theorem findById_some {users : List TenantUser} {id : String} {u : TenantUser}
    (h : findById users id = some u) : u ∈ users ∧ u.id = id := by
  have hp := List.find?_some h
  exact ⟨List.mem_of_find?_eq_some h, of_decide_eq_true hp⟩

theorem findById_none {users : List TenantUser} {id : String} (h : findById users id = none) :
    ∀ u ∈ users, u.id ≠ id := by
  intro u hu
  simpa using List.find?_eq_none.mp h u hu

/-- With nobody in between, the two statements of a save are the write of the model that
runs them as one. The request of an update is validated against the length of the columns. -/
theorem writeSelected_eq_runWrite (users : List TenantUser) (loaded entity : TenantUser)
    (hfits : storedUser entity = some entity) :
    (writeSelected users entity (findById users entity.id)).map id Call.done =
      runWrite users loaded (.save (some entity)) := by
  cases hrow : findById users entity.id with
  | none =>
    have hfresh := findById_none hrow
    have hany : (users.any fun u => decide (u.id = entity.id)) = false := by simpa using hfresh
    simp only [writeSelected, insert, hfits, hany, runWrite, Bool.false_eq_true, if_false]
    cases violatesUnique users entity with
    | some name => rfl
    | none =>
      simp only [Table.save_new hfresh]
      rfl
  | some row =>
    have hself := writeColumns_self (findById_some hrow).2.symm
    simp only [writeSelected, writeRow, hrow, hself, runWrite]
    cases violatesUnique users entity <;> rfl

/-! ### What must not be undone -/

/-- A row that a claim has linked keeps its link while it exists, and an update that names no
status leaves the status of the claim alone. -/
def KeepsClaim (id : String) (db : ClaimStore) (call : ClaimCall) (db' : ClaimStore) : Prop :=
  (db.linked = true → ∀ u ∈ db.users, ∀ u' ∈ db'.users, u.id = id → u'.id = id →
    u'.externalUserId = u.externalUserId) ∧
  (call.asks = false → db.activated = true → ∀ u' ∈ db'.users, u'.id = id →
    u'.status = .active)

/-- A save that goes through on a claimed row has read the row with the link that the update
had loaded, unless that is the link of the row, and, where the update names no status, with
the status it had loaded, unless that is active. -/
def SavesLoaded (id : String) (db : ClaimStore) : ClaimCall → ClaimEvent → Prop
  | .saving asks entity (some row), .service .next =>
    entity.id = id → ∀ current, findById db.users id = some current →
      violatesUnique db.users (writeColumns row entity current) = none →
      (db.linked = true →
        row.externalUserId = entity.externalUserId ∨
          entity.externalUserId = current.externalUserId) ∧
      (asks = false → db.activated = true →
        row.status = entity.status ∨ entity.status = .active)
  | _, _ => True

structure ClaimInv (id : String) (db : ClaimStore) : Prop where
  keys : Table.UniqueKeys TenantUser.id db.users
  linked : db.linked = true → ∃ u ∈ db.users, u.id = id ∧ u.externalUserId ≠ none
  activated : db.activated = true → ∃ u ∈ db.users, u.id = id ∧ u.status = .active

/-! ### One statement -/

theorem hasRow_iff {id : String} {p : TenantUser → Bool} {users : List TenantUser} :
    hasRow id p users = true ↔ ∃ u ∈ users, u.id = id ∧ p u = true := by
  simp [hasRow]

section Step

variable {text : EmailCase} {id : String} {db db' : ClaimStore} {call call' : ClaimCall}
  {e : ClaimEvent} {users' : List TenantUser}

theorem linked_row (hi : ClaimInv id db) (h : db.linked = true) {u : TenantUser}
    (hu : u ∈ db.users) (hid : u.id = id) : u.externalUserId ≠ none := by
  obtain ⟨v, hv, hvid, hlink⟩ := hi.linked h
  rw [Table.eq_of_key hi.keys hu hv (hid.trans hvid.symm)]
  exact hlink

theorem active_row (hi : ClaimInv id db) (h : db.activated = true) {u : TenantUser}
    (hu : u ∈ db.users) (hid : u.id = id) : u.status = .active := by
  obtain ⟨v, hv, hvid, hactive⟩ := hi.activated h
  rw [Table.eq_of_key hi.keys hu hv (hid.trans hvid.symm)]
  exact hactive

theorem keepsClaim_of_subset (hi : ClaimInv id db) {db' : ClaimStore}
    (hsub : ∀ u ∈ db'.users, u.id = id → u ∈ db.users) : KeepsClaim id db call db' := by
  constructor
  · intro _ u hu u' hu' hid hid'
    rw [Table.eq_of_key hi.keys (hsub u' hu' hid') hu (hid'.trans hid.symm)]
  · intro _ hact u' hu' hid'
    exact active_row hi hact (hsub u' hu' hid') hid'

theorem claimInv_stored (hi : ClaimInv id db) (hk : Table.UniqueKeys TenantUser.id users')
    (hkeeps : KeepsClaim id db call (db.stored id users')) :
    ClaimInv id (db.stored id users') := by
  refine ⟨hk, fun h => ?_, fun h => ?_⟩
  · have hboth : db.linked = true ∧ hasRow id (fun _ => true) users' = true := by
      simpa [ClaimStore.stored] using h
    obtain ⟨u, hu, hid, hlink⟩ := hi.linked hboth.1
    obtain ⟨u', hu', hid', -⟩ := hasRow_iff.mp hboth.2
    refine ⟨u', hu', hid', ?_⟩
    rw [hkeeps.1 hboth.1 u hu u' hu' hid hid']
    exact hlink
  · have hboth : db.activated = true ∧ hasRow id isActive users' = true := by
      simpa [ClaimStore.stored] using h
    obtain ⟨u', hu', hid', hactive⟩ := hasRow_iff.mp hboth.2
    exact ⟨u', hu', hid', of_decide_eq_true hactive⟩

/-! The claim. -/

theorem not_claimable_of_linked {tenantId : TenantId} {email : String} {u : TenantUser}
    (h : u.externalUserId ≠ none) : claimable text tenantId email u = false := by
  simp [claimable, h]

theorem not_claimable_of_active {tenantId : TenantId} {email : String} {u : TenantUser}
    (h : u.status = .active) : claimable text tenantId email u = false := by
  simp [claimable, h]

/-- A row after a claim is the row before it or a row that the claim has linked. -/
theorem claimed_row {tenantId : TenantId} {email externalUserId : String} {u' : TenantUser}
    (hu' : u' ∈ (claimInvitedByEmail text db.users tenantId email externalUserId).1) :
    u' ∈ db.users ∨ ∃ stored, ∃ u ∈ db.users, claimable text tenantId email u = true ∧
      u' = claim stored u := by
  rcases claimInvitedByEmail_users text db.users tenantId email externalUserId with
    h | ⟨stored, -, h, -⟩
  · rw [h] at hu'
    exact Or.inl hu'
  · rw [h] at hu'
    obtain ⟨u, hu, rfl⟩ := (Table.mem_updateWhere _ _ _ _).mp hu'
    by_cases hc : claimable text tenantId email u = true
    · rw [if_pos hc]
      exact Or.inr ⟨stored, u, hu, hc, rfl⟩
    · rw [if_neg hc]
      exact Or.inl hu

theorem keepsClaim_claimed (hi : ClaimInv id db) (tenantId : TenantId)
    (email externalUserId : String) :
    KeepsClaim id db call (db.claimed id
      (claimInvitedByEmail text db.users tenantId email externalUserId).1) := by
  constructor
  · intro hlinked u hu u' hu' hid hid'
    rcases claimed_row hu' with hold | ⟨stored, v, hv, hclaim, rfl⟩
    · rw [Table.eq_of_key hi.keys hold hu (hid'.trans hid.symm)]
    · have hnot : claimable text tenantId email v = false :=
        not_claimable_of_linked (linked_row hi hlinked hv hid')
      rw [hnot] at hclaim
      cases hclaim
  · intro _ hact u' hu' hid'
    rcases claimed_row hu' with hold | ⟨stored, v, hv, hclaim, rfl⟩
    · exact active_row hi hact hold hid'
    · rfl

theorem uniqueKeys_claimed (hk : Table.UniqueKeys TenantUser.id db.users) (tenantId : TenantId)
    (email externalUserId : String) :
    Table.UniqueKeys TenantUser.id
      (claimInvitedByEmail text db.users tenantId email externalUserId).1 := by
  rcases claimInvitedByEmail_users text db.users tenantId email externalUserId with
    h | ⟨stored, -, h, -⟩
  · rw [h]
    exact hk
  · have hkey : ∀ u, (claim stored u).id = u.id := fun _ => rfl
    rw [h]
    exact Table.uniqueKeys_updateWhere hkey hk

theorem mem_claimed_of_not_claimable {tenantId : TenantId} {email externalUserId : String}
    {u : TenantUser} (hu : u ∈ db.users) (hnot : claimable text tenantId email u = false) :
    u ∈ (claimInvitedByEmail text db.users tenantId email externalUserId).1 := by
  rcases claimInvitedByEmail_users text db.users tenantId email externalUserId with
    h | ⟨stored, -, h, -⟩
  · rw [h]
    exact hu
  · rw [h]
    exact (Table.mem_updateWhere _ _ _ _).mpr ⟨u, hu, by simp [hnot]⟩

theorem claimInv_claimed (hi : ClaimInv id db) (tenantId : TenantId)
    (email externalUserId : String) :
    ClaimInv id (db.claimed id
      (claimInvitedByEmail text db.users tenantId email externalUserId).1) := by
  -- a row that has a link it did not have was linked by this claim
  have hnew : (hasRow id isLinked (claimInvitedByEmail text db.users tenantId email
      externalUserId).1 && !hasRow id isLinked db.users) = true →
      ∃ u ∈ (claimInvitedByEmail text db.users tenantId email externalUserId).1,
        u.id = id ∧ u.externalUserId ≠ none ∧ u.status = .active := by
    intro h
    obtain ⟨hafter, hbefore⟩ := (Bool.and_eq_true _ _).mp h
    obtain ⟨u', hu', hid', hlink⟩ := hasRow_iff.mp hafter
    rcases claimed_row hu' with hold | ⟨stored, u, hu, -, rfl⟩
    · have hlinked : hasRow id isLinked db.users = true := hasRow_iff.mpr ⟨u', hold, hid', hlink⟩
      simp [hlinked] at hbefore
    · exact ⟨_, hu', hid', by simp [claim], rfl⟩
  refine ⟨uniqueKeys_claimed hi.keys tenantId email externalUserId, fun h => ?_, fun h => ?_⟩
  · rcases (Bool.or_eq_true _ _).mp h with h | h
    · obtain ⟨u, hu, hid, hlink⟩ := hi.linked h
      exact ⟨u, mem_claimed_of_not_claimable hu (not_claimable_of_linked hlink), hid, hlink⟩
    · obtain ⟨u, hu, hid, hlink, -⟩ := hnew h
      exact ⟨u, hu, hid, hlink⟩
  · rcases (Bool.or_eq_true _ _).mp h with h | h
    · obtain ⟨u, hu, hid, hactive⟩ := hi.activated h
      exact ⟨u, mem_claimed_of_not_claimable hu (not_claimable_of_active hactive), hid, hactive⟩
    · obtain ⟨u, hu, hid, -, hactive⟩ := hnew h
      exact ⟨u, hu, hid, hactive⟩

/-! The statements of `update` and `delete` up to the save. -/

theorem act_sublist {users : List TenantUser} {c c' : Call} {event : Event}
    (ha : act users c event = some (users', c'))
    (hnot : ∀ loaded n entity, c = .writing loaded n (.save (some entity)) → event ≠ .next) :
    users'.Sublist users := by
  unfold act at ha
  split at ha
  case h_4 loaded n write =>
    cases write with
    | delete =>
      cases ha
      exact List.filter_sublist
    | save entity =>
      cases entity with
      | none =>
        cases ha
        exact List.Sublist.refl _
      | some entity => exact absurd rfl (hnot loaded n entity rfl)
  case h_7 => cases ha
  all_goals
    cases ha
    exact List.Sublist.refl _

/-! The write of a save. -/

theorem written_eq_iff {α : Type} [DecidableEq α] (row entity current : α) :
    written row entity current = current ↔ row = entity ∨ entity = current := by
  unfold written
  split
  next h => exact iff_of_true rfl (Or.inl h.symm)
  next h => exact ⟨Or.inr, fun ho => ho.resolve_left fun hr => h hr.symm⟩

theorem keepsClaim_written_iff (hi : ClaimInv id db) {asks : Bool} {row entity current : TenantUser}
    (hcurrent : findById db.users id = some current)
    (hdb : ∀ u, u ∈ db'.users ↔
      u = writeColumns row entity current ∨ (u ∈ db.users ∧ u.id ≠ id)) :
    KeepsClaim id db (.saving asks entity (some row)) db' ↔
      (db.linked = true → row.externalUserId = entity.externalUserId ∨
        entity.externalUserId = current.externalUserId) ∧
      (asks = false → db.activated = true → row.status = entity.status ∨
        entity.status = .active) := by
  obtain ⟨hmem, hcid⟩ := findById_some hcurrent
  have hafter : writeColumns row entity current ∈ db'.users := (hdb _).mpr (Or.inl rfl)
  have honly : ∀ u' ∈ db'.users, u'.id = id → u' = writeColumns row entity current := by
    intro u' hu' hid'
    rcases (hdb u').mp hu' with h | ⟨-, h⟩
    · exact h
    · exact absurd hid' h
  have hbefore : ∀ u ∈ db.users, u.id = id → u = current := fun u hu huid =>
    Table.eq_of_key hi.keys hu hmem (huid.trans hcid.symm)
  have hstatus : db.activated = true → ((writeColumns row entity current).status = .active ↔
      row.status = entity.status ∨ entity.status = .active) := by
    intro hact
    have hcurrent := active_row hi hact hmem hcid
    simp only [writeColumns, hcurrent]
    exact written_eq_iff _ _ _
  constructor
  · intro hkeeps
    refine ⟨fun hlinked => ?_, fun hasks hact => ?_⟩
    · have hsame := hkeeps.1 hlinked current hmem _ hafter hcid hcid
      exact (written_eq_iff _ _ _).mp hsame
    · exact (hstatus hact).mp (hkeeps.2 hasks hact _ hafter hcid)
  · rintro ⟨hlink, hact⟩
    refine ⟨fun hlinked u hu u' hu' huid huid' => ?_, fun hasks hactive u' hu' huid' => ?_⟩
    · rw [honly u' hu' huid', hbefore u hu huid]
      exact (written_eq_iff _ _ _).mpr (hlink hlinked)
    · rw [honly u' hu' huid']
      exact (hstatus hactive).mpr (hact hasks hactive)

theorem writeRow_users (users : List TenantUser) (row entity : TenantUser) :
    ((writeRow users row entity).1 = users ∧
      ∀ current, findById users entity.id = some current →
        violatesUnique users (writeColumns row entity current) ≠ none) ∨
    ∃ current, findById users entity.id = some current ∧
      violatesUnique users (writeColumns row entity current) = none ∧
      (writeRow users row entity).1 =
        Table.save TenantUser.id (writeColumns row entity current) users := by
  unfold writeRow
  cases hcurrent : findById users entity.id with
  | none => exact Or.inl ⟨rfl, fun _ h => by cases h⟩
  | some current =>
    cases hunique : violatesUnique users (writeColumns row entity current) with
    | none => exact Or.inr ⟨current, rfl, hunique, by simp only [hunique]⟩
    | some name =>
      refine Or.inl ⟨by simp only [hunique], fun c hc => ?_⟩
      cases hc
      simp [hunique]

theorem uniqueKeys_writeSelected (hk : Table.UniqueKeys TenantUser.id db.users)
    (entity : TenantUser) (row : Option TenantUser) :
    Table.UniqueKeys TenantUser.id (writeSelected db.users entity row).1 := by
  cases row with
  | none =>
    rcases insert_users db.users entity with h | ⟨stored, -, hfresh, -, h⟩
    · rw [writeSelected, h]
      exact hk
    · rw [writeSelected, h]
      exact Table.uniqueKeys_append hk hfresh
  | some row =>
    rcases writeRow_users db.users row entity with ⟨h, -⟩ | ⟨current, -, -, h⟩
    · rw [writeSelected, h]
      exact hk
    · rw [writeSelected, h]
      exact Table.uniqueKeys_save _ hk

theorem keepsClaim_insert (hi : ClaimInv id db) (entity : TenantUser) :
    KeepsClaim id db call (db.stored id (insert db.users entity).1) := by
  rcases insert_users db.users entity with h | ⟨stored, -, hfresh, -, h⟩
  · rw [h]
    exact keepsClaim_of_subset hi fun u hu _ => hu
  · by_cases hid : stored.id = id
    · -- the row is gone, so nothing that a claim did to it is left
      have hgone : ∀ u ∈ db.users, u.id ≠ id := hid ▸ hfresh
      refine ⟨fun _ u hu u' _ huid _ => absurd huid (hgone u hu), fun _ hact => ?_⟩
      obtain ⟨u, hu, huid, -⟩ := hi.activated hact
      exact absurd huid (hgone u hu)
    · rw [h]
      refine keepsClaim_of_subset hi fun u hu huid => ?_
      rcases List.mem_append.mp hu with hu | hu
      · exact hu
      · exact absurd (List.mem_singleton.mp hu ▸ huid) hid

theorem savesLoaded_iff_writeRow (hi : ClaimInv id db) (asks : Bool) (row entity : TenantUser) :
    SavesLoaded id db (.saving asks entity (some row)) (.service .next) ↔
      KeepsClaim id db (.saving asks entity (some row))
        (db.stored id (writeRow db.users row entity).1) := by
  rcases writeRow_users db.users row entity with ⟨h, hfails⟩ | ⟨current, hcurrent, hunique, h⟩
  · rw [h]
    refine iff_of_true ?_ (keepsClaim_of_subset hi fun u hu _ => hu)
    intro hid current hcurrent hunique
    exact absurd hunique (hfails current (hid ▸ hcurrent))
  · have hwid : (writeColumns row entity current).id = entity.id := (findById_some hcurrent).2
    rw [h]
    by_cases hid : entity.id = id
    · rw [hid] at hcurrent
      have hmem : ∀ u, u ∈ (db.stored id
          (Table.save TenantUser.id (writeColumns row entity current) db.users)).users ↔
          u = writeColumns row entity current ∨ (u ∈ db.users ∧ u.id ≠ id) := by
        intro u
        rw [← hid, ← hwid]
        exact Table.mem_save hi.keys u
      rw [keepsClaim_written_iff hi hcurrent hmem]
      constructor
      · exact fun hc => hc hid current hcurrent hunique
      · intro hc _ other hother _
        have he : other = current := Option.some.inj (hother.symm.trans hcurrent)
        exact he ▸ hc
    · refine iff_of_true (fun he => absurd he hid) (keepsClaim_of_subset hi fun u hu huid => ?_)
      rcases (Table.mem_save hi.keys u).mp hu with rfl | ⟨hu, -⟩
      · exact absurd (hwid.symm.trans huid) hid
      · exact hu

/-! Every statement. -/

theorem claimAct_iff (hi : ClaimInv id db)
    (ha : claimAct text id db call e = some (db', call')) :
    (SavesLoaded id db call e ↔ KeepsClaim id db call db') ∧
      (KeepsClaim id db call db' → ClaimInv id db') := by
  have hread : KeepsClaim id db call db := keepsClaim_of_subset hi fun u hu _ => hu
  unfold claimAct at ha
  split at ha
  next tenantId email externalUserId =>
    cases ha
    exact ⟨iff_of_true trivial (keepsClaim_claimed hi tenantId email externalUserId),
      fun _ => claimInv_claimed hi tenantId email externalUserId⟩
  next asks loaded n entity =>
    cases ha
    exact ⟨iff_of_true trivial hread, fun _ => hi⟩
  next asks c event hsave =>
    obtain ⟨⟨users', c'⟩, hact, hdb⟩ := Option.map_eq_some_iff.mp ha
    cases hdb
    have hsub := act_sublist hact fun loaded n entity hc he => hsave loaded n entity hc he
    have hkeeps : KeepsClaim id db (.running asks c) (db.stored id users') :=
      keepsClaim_of_subset hi fun u hu _ => hsub.subset hu
    exact ⟨iff_of_true trivial hkeeps,
      fun _ => claimInv_stored hi (hi.keys.sublist (hsub.map _)) hkeeps⟩
  next asks entity row =>
    cases ha
    refine ⟨?_, claimInv_stored hi (uniqueKeys_writeSelected hi.keys entity row)⟩
    cases row with
    | none => exact iff_of_true trivial (keepsClaim_insert hi entity)
    | some row => exact savesLoaded_iff_writeRow hi asks row entity
  next tenantId externalUserId =>
    cases ha
    exact ⟨iff_of_true trivial hread, fun _ => hi⟩
  next asks entity row error =>
    cases ha
    have hquiet : SavesLoaded id db (.saving asks entity row) (.service (.abort error)) := by
      cases row <;> trivial
    exact ⟨iff_of_true hquiet hread, fun _ => hi⟩
  next tenantId externalUserId error =>
    cases ha
    exact ⟨iff_of_true trivial hread, fun _ => hi⟩
  · cases ha

end Step

/-! ### Interleavings -/

def KeepsClaimAt (id : String) (w : ClaimWorld) (l : ℕ × ClaimEvent) (w' : ClaimWorld) : Prop :=
  KeepsClaim id w.db (w.calls l.1) w'.db

/-- In every interleaving, a claimed row keeps its link while it exists and the status of its
claim through every update that names none, if and only if every save that goes through on
it has read what the update had loaded. -/
theorem claim_race_iff (text : EmailCase) (id : String) (db : ClaimStore) (hi : ClaimInv id db)
    (events : List (ℕ × ClaimEvent)) :
    Run.All (claimStep text id) (KeepsClaimAt id) ⟨db, fun _ => .running false .idle⟩ events ↔
      Run.All (claimStep text id) (Run.Before (SavesLoaded id))
        ⟨db, fun _ => .running false .idle⟩ events := by
  symm
  refine Run.all_iff_of_invariant (fun w => ClaimInv id w.db) ?_ ?_ hi
  · intro w l w' hw hs
    obtain ⟨db', call', ha, rfl⟩ := Run.interleave_cases hs
    exact (claimAct_iff hw ha).1
  · intro w l w' hw hs hc
    obtain ⟨db', call', ha, rfl⟩ := Run.interleave_cases hs
    have hstep := claimAct_iff hw ha
    exact hstep.2 (hstep.1.mp hc)

/-! ### A rename over a first login -/

def invitedUser : TenantUser := ⟨"u1", "t", none, "a@example.com", none, .member, .invited⟩

def renameInvited : ClaimEvent :=
  .service (.update "t" "u1" { displayName := .value "Ada" } none)

def firstLogin : ClaimEvent := .claimInvitedByEmail "t" "a@example.com" "sub-1"

theorem claim_race_late :
    Run.All (claimStep plainCase "u1") (KeepsClaimAt "u1")
      ⟨{ users := [invitedUser] }, fun _ => .running false .idle⟩
      [(0, renameInvited), (0, .service .next), (1, firstLogin), (0, .service .next)] := by
  refine (claim_race_iff plainCase "u1" { users := [invitedUser] }
    ⟨by decide, nofun, nofun⟩ _).mpr ?_
  refine ⟨_, rfl, trivial, _, rfl, trivial, _, rfl, trivial, _, rfl, ?_, trivial⟩
  intro _ current _ _
  exact ⟨fun _ => Or.inl rfl, fun _ _ => Or.inl rfl⟩

/-- The rename has loaded the invited row before the first login claims it, and unlinks the
row again. -/
theorem claim_undone_by_rename : ¬ ∀ (text : EmailCase) (id : String) (db : ClaimStore)
    (events : List (ℕ × ClaimEvent)), ClaimInv id db →
    Run.Enabled (claimStep text id) ⟨db, fun _ => .running false .idle⟩ events →
    Run.All (claimStep text id) (KeepsClaimAt id) ⟨db, fun _ => .running false .idle⟩ events := by
  intro hall
  obtain ⟨w₁, h₁, -, w₂, h₂, -, w₃, h₃, -, w₄, h₄, hkeeps, -⟩ :=
    hall plainCase "u1" { users := [invitedUser] }
      [(0, renameInvited), (1, firstLogin), (0, .service .next), (0, .service .next)]
      ⟨by decide, nofun, nofun⟩
      ⟨_, rfl, trivial, _, rfl, trivial, _, rfl, trivial, _, rfl, trivial, trivial⟩
  cases h₁
  cases h₂
  cases h₃
  cases h₄
  have hlink := hkeeps.1 rfl (claim "sub-1" invitedUser) (by decide)
    { invitedUser with displayName := some "Ada" } (by decide) rfl rfl
  cases hlink

end VcCommonService.TenantUsers
