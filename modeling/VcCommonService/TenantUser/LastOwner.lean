import VcCommonService.TenantUser.Model

/-!
# The last owner of a tenant

The guard of `update` and `delete` counts the owners in one statement and the
write follows in another. A tenant keeps an owner in every state of a run in which
each write that takes the owner role away comes from a call that did count, and at
least as many owners are stored as it counted. Two demotions that overlap break
that condition, and leave the tenant with no owner.
-/

namespace VcCommonService.TenantUsers
open Lib Auth

def Write.leaves : Write → Option TenantUser
  | .save entity => entity
  | .delete => none

/-- The write would take the owner role away from a stored row. -/
def removesOwner (users : List TenantUser) (loaded : TenantUser) (write : Write) : Bool :=
  write ≠ .save none &&
    users.any (fun u => decide (u.id = loaded.id ∧ u.role = .owner)) &&
    !(write.leaves.any fun u => decide (u.role = .owner))

/-- What the guard read still stands when the write runs. -/
def GuardStands (users : List TenantUser) : Call → Event → Prop
  | .writing loaded ownerCount write, .next =>
    removesOwner users loaded write = true →
      ∃ n, ownerCount = some n ∧ n ≤ countByTenantAndRole users loaded.tenantId .owner
  | _, _ => True

/-! ### Invariant -/

section Invariant

variable (users₀ : List TenantUser)

def Rooted (u : TenantUser) : Prop := ∃ u₀ ∈ users₀, u₀.id = u.id ∧ u₀.tenantId = u.tenantId

structure OwnerInv (tenantId : TenantId) (users : List TenantUser) : Prop where
  unique : Table.UniqueKeys TenantUser.id users
  rooted : ∀ u ∈ users, Rooted users₀ u
  owner : 1 ≤ countByTenantAndRole users tenantId .owner

def WriteOk (loaded : TenantUser) (write : Write) : Prop :=
  ∀ entity, write = .save (some entity) →
    entity.id = loaded.id ∧ entity.tenantId = loaded.tenantId

def CallOk : Call → Prop
  | .counting loaded write => Rooted users₀ loaded ∧ WriteOk loaded write
  | .writing loaded ownerCount write =>
    Rooted users₀ loaded ∧ WriteOk loaded write ∧ ∀ n, ownerCount = some n → 2 ≤ n
  | _ => True

variable {users₀}

theorem applyDto_key (dto : UpdateTenantUserDto) (u v : TenantUser) (h : applyDto dto u = some v) :
    v.id = u.id ∧ v.tenantId = u.tenantId := by
  simp only [applyDto, Option.bind_eq_bind, Option.bind_eq_some_iff, Option.pure_def,
    Option.some.injEq] at h
  obtain ⟨email, _, role, _, status, _, rfl⟩ := h
  exact ⟨rfl, rfl⟩

theorem findByTenantAndId_some {users : List TenantUser} {tenantId : TenantId} {id : String}
    {u : TenantUser} (h : findByTenantAndId users tenantId id = some u) :
    u ∈ users ∧ u.id = id ∧ u.tenantId = tenantId := by
  have hmem := List.mem_of_find?_eq_some h
  have hp := List.find?_some h
  exact ⟨hmem, of_decide_eq_true hp⟩

theorem rooted_tenant (hu : Table.UniqueKeys TenantUser.id users₀) {u v : TenantUser}
    (hru : Rooted users₀ u) (hrv : Rooted users₀ v) (hid : u.id = v.id) :
    u.tenantId = v.tenantId := by
  obtain ⟨u₀, hu₀, hui, hut⟩ := hru
  obtain ⟨v₀, hv₀, hvi, hvt⟩ := hrv
  have he : u₀ = v₀ := Table.eq_of_key hu hu₀ hv₀ (by rw [hui, hvi, hid])
  rw [← hut, ← hvt, he]

theorem rooted_of_write {loaded entity : TenantUser} {write : Write} (hr : Rooted users₀ loaded)
    (hw : WriteOk loaded write) (he : write = .save (some entity)) : Rooted users₀ entity := by
  obtain ⟨u₀, hu₀, hid, ht⟩ := hr
  obtain ⟨hei, het⟩ := hw entity he
  exact ⟨u₀, hu₀, hid.trans hei.symm, ht.trans het.symm⟩

theorem callOk_guarded {loaded : TenantUser} {write : Write} (needsGuard : Bool)
    (hr : Rooted users₀ loaded) (hw : WriteOk loaded write) :
    CallOk users₀ (guarded needsGuard loaded write) := by
  unfold guarded
  split
  · exact ⟨hr, hw⟩
  · exact ⟨hr, hw, fun n hn => by simp at hn⟩

theorem callOk_beginUpdate {users : List TenantUser} (hroot : ∀ u ∈ users, Rooted users₀ u)
    (tenantId : TenantId) (id : String) (dto : UpdateTenantUserDto) (caller : Option String) :
    CallOk users₀ (beginUpdate users tenantId id dto caller) := by
  unfold beginUpdate
  cases hf : findByTenantAndId users tenantId id with
  | none => trivial
  | some u =>
    dsimp only
    split
    · trivial
    · refine callOk_guarded _ (hroot u (findByTenantAndId_some hf).1) ?_
      intro entity he
      exact applyDto_key dto u entity (Write.save.inj he)

theorem callOk_beginDelete {users : List TenantUser} (hroot : ∀ u ∈ users, Rooted users₀ u)
    (tenantId : TenantId) (id : String) : CallOk users₀ (beginDelete users tenantId id) := by
  unfold beginDelete
  cases hf : findByTenantAndId users tenantId id with
  | none => trivial
  | some u =>
    refine callOk_guarded _ (hroot u (findByTenantAndId_some hf).1) ?_
    intro entity he
    cases he

theorem callOk_runGuard (users : List TenantUser) {loaded : TenantUser} {write : Write}
    (hr : Rooted users₀ loaded) (hw : WriteOk loaded write) :
    CallOk users₀ (runGuard users loaded write) := by
  unfold runGuard
  dsimp only
  split
  · trivial
  next hn =>
    refine ⟨hr, hw, fun n he => ?_⟩
    have hne : countByTenantAndRole users loaded.tenantId .owner = n := Option.some.inj he
    omega

/-! ### The write -/

variable {tenantId : TenantId} {users : List TenantUser} {loaded : TenantUser}
  {ownerCount : Option ℕ}

theorem holdsRole_iff (tenantId : TenantId) (role : TenantRole) (u : TenantUser) :
    holdsRole tenantId role u = true ↔ u.tenantId = tenantId ∧ u.role = role := by
  simp [holdsRole]

theorem removesOwner_of_stored {old : TenantUser} {write : Write} (hold : old ∈ users)
    (hid : old.id = loaded.id) (hor : old.role = .owner) (hw : write ≠ .save none)
    (hleaves : ∀ u, write.leaves = some u → u.role ≠ .owner) :
    removesOwner users loaded write = true := by
  have hany : users.any (fun u => decide (u.id = loaded.id ∧ u.role = .owner)) = true :=
    List.any_eq_true.mpr ⟨old, hold, by simp [hid, hor]⟩
  have hnone : (write.leaves.any fun u => decide (u.role = .owner)) = false := by
    cases hl : write.leaves with
    | none => rfl
    | some u => simp [hleaves u hl]
  rw [removesOwner, hany, hnone]
  simp [hw]

theorem two_owners (hcount : ∀ n, ownerCount = some n → 2 ≤ n) {write : Write}
    (hc : GuardStands users (.writing loaded ownerCount write) .next)
    (hrem : removesOwner users loaded write = true) (ht : loaded.tenantId = tenantId) :
    2 ≤ countByTenantAndRole users tenantId .owner := by
  obtain ⟨n, hn, hle⟩ := hc hrem
  have h2 := hcount n hn
  rw [ht] at hle
  omega

theorem ownerInv_save (hu₀ : Table.UniqueKeys TenantUser.id users₀)
    (hi : OwnerInv users₀ tenantId users) {entity : TenantUser} (hr : Rooted users₀ loaded)
    (hw : WriteOk loaded (.save (some entity))) (hcount : ∀ n, ownerCount = some n → 2 ≤ n)
    (hc : GuardStands users (.writing loaded ownerCount (.save (some entity))) .next) :
    OwnerInv users₀ tenantId (Table.save TenantUser.id entity users) := by
  have hre : Rooted users₀ entity := rooted_of_write hr hw rfl
  obtain ⟨hei, het⟩ := hw entity rfl
  refine ⟨Table.uniqueKeys_save entity hi.unique, ?_, ?_⟩
  · intro u hu
    rcases (Table.mem_save hi.unique u).mp hu with rfl | ⟨hold, _⟩
    · exact hre
    · exact hi.rooted u hold
  · have howner := hi.owner
    unfold countByTenantAndRole at howner ⊢
    by_cases hex : ∃ old ∈ users, old.id = entity.id
    · obtain ⟨old, hold, hid⟩ := hex
      have hcnt := Table.countP_save_old (holdsRole tenantId .owner) hi.unique hold hid
      have htenant : old.tenantId = entity.tenantId :=
        rooted_tenant hu₀ (hi.rooted old hold) hre hid
      by_cases ho : holdsRole tenantId .owner old = true
      · obtain ⟨hot, hor⟩ := (holdsRole_iff _ _ _).mp ho
        by_cases her : entity.role = .owner
        · have hp : holdsRole tenantId .owner entity = true :=
            (holdsRole_iff _ _ _).mpr ⟨htenant.symm.trans hot, her⟩
          rw [if_pos ho, if_pos hp] at hcnt
          omega
        · -- the entity drops the role, so the guard must have counted
          have hrem : removesOwner users loaded (.save (some entity)) = true := by
            refine removesOwner_of_stored hold (hid.trans hei) hor (by simp) ?_
            intro u hu
            exact Option.some.inj hu ▸ her
          have h2 := two_owners hcount hc hrem
            (het.symm.trans (htenant.symm.trans hot))
          unfold countByTenantAndRole at h2
          rw [if_pos ho] at hcnt
          omega
      · rw [if_neg ho] at hcnt
        omega
    · have hnew : ∀ u ∈ users, u.id ≠ entity.id := fun u hu he => hex ⟨u, hu, he⟩
      rw [Table.countP_save_new (holdsRole tenantId .owner) hnew]
      omega

theorem ownerInv_delete (hu₀ : Table.UniqueKeys TenantUser.id users₀)
    (hi : OwnerInv users₀ tenantId users) (hr : Rooted users₀ loaded)
    (hcount : ∀ n, ownerCount = some n → 2 ≤ n)
    (hc : GuardStands users (.writing loaded ownerCount .delete) .next) :
    OwnerInv users₀ tenantId (Table.deleteWhere (fun u => decide (u.id = loaded.id)) users) := by
  refine ⟨Table.uniqueKeys_deleteWhere _ hi.unique,
    fun u hu => hi.rooted u ((Table.mem_deleteWhere _ _ _).mp hu).1, ?_⟩
  have howner := hi.owner
  by_cases hex : ∃ old ∈ users, old.id = loaded.id
  · obtain ⟨old, hold, hid⟩ := hex
    have hcnt := Table.countP_deleteWhere_key (holdsRole tenantId .owner) hi.unique hold
    rw [hid] at hcnt
    by_cases ho : holdsRole tenantId .owner old = true
    · obtain ⟨hot, hor⟩ := (holdsRole_iff _ _ _).mp ho
      have hrem : removesOwner users loaded .delete = true := by
        refine removesOwner_of_stored hold hid hor (by simp) ?_
        intro u hu
        cases hu
      have htenant : old.tenantId = loaded.tenantId :=
        rooted_tenant hu₀ (hi.rooted old hold) hr hid
      have h2 := two_owners hcount hc hrem (htenant.symm.trans hot)
      unfold countByTenantAndRole at h2 ⊢
      rw [if_pos ho] at hcnt
      omega
    · unfold countByTenantAndRole at howner ⊢
      rw [if_neg ho] at hcnt
      omega
  · have hsame : Table.deleteWhere (fun u => decide (u.id = loaded.id)) users = users := by
      refine List.filter_eq_self.mpr fun u hu => ?_
      have hne : u.id ≠ loaded.id := fun he => hex ⟨u, hu, he⟩
      simp [hne]
    rw [hsame]
    exact howner

theorem ownerInv_act (hu₀ : Table.UniqueKeys TenantUser.id users₀) {pc pc' : Call} {e : Event}
    {users' : List TenantUser} (hi : OwnerInv users₀ tenantId users) (hpc : CallOk users₀ pc)
    (ha : act users pc e = some (users', pc')) (hc : GuardStands users pc e) :
    OwnerInv users₀ tenantId users' ∧ CallOk users₀ pc' := by
  cases pc with
  | idle =>
    cases e with
    | update t id dto caller =>
      cases ha
      exact ⟨hi, callOk_beginUpdate hi.rooted t id dto caller⟩
    | delete t id =>
      cases ha
      exact ⟨hi, callOk_beginDelete hi.rooted t id⟩
    | next => cases ha
    | abort err => cases ha
  | counting loaded write =>
    cases e with
    | next =>
      cases ha
      exact ⟨hi, callOk_runGuard users hpc.1 hpc.2⟩
    | abort err =>
      cases ha
      exact ⟨hi, trivial⟩
    | update t id dto caller => cases ha
    | delete t id => cases ha
  | writing loaded ownerCount write =>
    obtain ⟨hr, hw, hcount⟩ := hpc
    cases e with
    | next =>
      have hrun : runWrite users loaded write = (users', pc') := Option.some.inj ha
      cases write with
      | delete =>
        cases hrun
        exact ⟨ownerInv_delete hu₀ hi hr hcount hc, trivial⟩
      | save entity =>
        cases entity with
        | none =>
          cases hrun
          exact ⟨hi, trivial⟩
        | some entity =>
          simp only [runWrite] at hrun
          split at hrun
          · cases hrun
            exact ⟨hi, trivial⟩
          · cases hrun
            exact ⟨ownerInv_save hu₀ hi hr hw hcount hc, trivial⟩
    | abort err =>
      cases ha
      exact ⟨hi, trivial⟩
    | update t id dto caller => cases ha
    | delete t id => cases ha
  | done result => cases e <;> cases ha

end Invariant

/-! ### Runs -/

/-- In a run whose writes all find the guard's count still true, a tenant that starts
with an owner has one in every state. -/
theorem lastOwner_kept (tenantId : TenantId) (users : List TenantUser) (events : List (ℕ × Event))
    (hu : Table.UniqueKeys TenantUser.id users)
    (howner : 1 ≤ countByTenantAndRole users tenantId .owner)
    (hrun : Run.All step (Run.Before GuardStands) ⟨users, fun _ => .idle⟩ events) :
    Run.All step (fun _ _ w' => 1 ≤ countByTenantAndRole w'.db tenantId .owner)
      ⟨users, fun _ => .idle⟩ events := by
  refine Run.all_of_invariant
    (Run.Holds (OwnerInv users tenantId) (fun _ pc => CallOk users pc)) ?_ ?_ hrun
  · intro w l w' hw hs hc
    have hkeep := Run.holds_interleave
      (fun _ _ _ _ _ hg hl ha hc => ownerInv_act hu hg hl ha hc)
      (fun _ _ _ _ _ _ _ _ ho _ _ => ho) hw hs hc
    exact ⟨hkeep, hkeep.1.owner⟩
  · exact ⟨⟨hu, fun u h => ⟨u, h, rfl, rfl⟩, howner⟩, fun _ => trivial⟩

/-! ### Two owners demote each other -/

def twoOwners : List TenantUser :=
  [⟨"u1", "t", none, "a@example.com", none, .owner, .active⟩,
    ⟨"u2", "t", none, "b@example.com", none, .owner, .active⟩]

def demote : UpdateTenantUserDto := { role := .value .member }

def overlappingDemotions : List (ℕ × Event) :=
  [(0, .update "t" "u1" demote (some "u2")), (1, .update "t" "u2" demote (some "u1")),
    (0, .next), (1, .next), (0, .next), (1, .next)]

def demotionsInTurn : List (ℕ × Event) :=
  [(0, .update "t" "u1" demote (some "u2")), (0, .next), (0, .next),
    (1, .update "t" "u2" demote (some "u1")), (1, .next)]

theorem lastOwner_kept_in_turn :
    Run.All step (fun _ _ w' => 1 ≤ countByTenantAndRole w'.db "t" .owner)
      ⟨twoOwners, fun _ => .idle⟩ demotionsInTurn := by
  refine lastOwner_kept "t" twoOwners demotionsInTurn (by decide)
    (by decide) ?_
  refine ⟨_, rfl, trivial, _, rfl, trivial, _, rfl, ?_, _, rfl, trivial, _, rfl, trivial, trivial⟩
  intro _
  exact ⟨2, rfl, by decide⟩

theorem lastOwner_lost : ¬ ∀ (tenantId : TenantId) (users : List TenantUser)
    (events : List (ℕ × Event)), Table.UniqueKeys TenantUser.id users →
    1 ≤ countByTenantAndRole users tenantId .owner →
    Run.Enabled step ⟨users, fun _ => .idle⟩ events →
    Run.All step (fun _ _ w' => 1 ≤ countByTenantAndRole w'.db tenantId .owner)
      ⟨users, fun _ => .idle⟩ events := by
  intro hall
  have hrun := hall "t" twoOwners overlappingDemotions (by decide)
    (by decide)
    ⟨_, rfl, trivial, _, rfl, trivial, _, rfl, trivial, _, rfl, trivial, _, rfl, trivial,
      _, rfl, trivial, trivial⟩
  obtain ⟨w₁, h₁, -, w₂, h₂, -, w₃, h₃, -, w₄, h₄, -, w₅, h₅, -, w₆, h₆, howner, -⟩ := hrun
  cases h₁; cases h₂; cases h₃; cases h₄; cases h₅; cases h₆
  revert howner
  decide

end VcCommonService.TenantUsers
