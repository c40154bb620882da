import VcCommonService.OAuthClient.Interleaving

/-!
# Saves that race with revocations and rotations

A revocation or a rotation that commits between the snapshot of a call and the read of its
save differs from the entity, so the save takes it back. One that commits after the read is
left alone.
-/

namespace VcCommonService.OAuthClients
open Lib Auth
open Table (written)

/-! ### What must not be undone -/

/-- A revoked client stays revoked, and the stored hash is from the latest rotation. -/
def KeepsSecurity (id : String) (db db' : ClientStore) : Prop :=
  (∀ c ∈ db.clients, ∀ c' ∈ db'.clients, c.id = id → c'.id = id →
    c.revokedAt ≠ none → c'.revokedAt ≠ none) ∧
  db'.generation = db'.rotations

/-- A save of the client that goes through has read the row active, and, unless it is a
rotation, with the hash of its own snapshot. -/
def SavesCurrent (id : String) (db : ClientStore) : ClientCall → ClientEvent → Prop
  | .saving rotates entity _ row, .write =>
    entity.id = id →
      (∀ current, findById db.clients entity.id = some current →
        checkRow (writeColumns row entity current) = .ok () →
          row.revokedAt = none ∧
          (rotates = false → row.clientSecretHash = entity.clientSecretHash))
  | _, _ => True

/-! ### What a call knows -/

structure Prepared (id : String) (db : ClientStore) (rotates : Bool) (entity : OAuthClient)
    (generation : ℕ) : Prop where
  active : entity.revokedAt = none
  generation_le : generation ≤ db.rotations
  hash : rotates = false → generation = db.rotations →
    ∀ c ∈ db.clients, c.id = id → c.clientSecretHash = entity.clientSecretHash

/-- A revocation that the save has read still stands, and what the save has read of the
hash is as old as the snapshot or newer. -/
structure Selected (id : String) (db : ClientStore) (rotates : Bool) (entity : OAuthClient)
    (generation : ℕ) (row : OAuthClient) : Prop extends
    Prepared id db rotates entity generation where
  revoked : row.revokedAt ≠ none → ∃ c ∈ db.clients, c.id = id ∧ c.revokedAt ≠ none
  rowHash : rotates = false → generation = db.rotations →
    row.clientSecretHash = entity.clientSecretHash

def Knows (id : String) (db : ClientStore) : ClientCall → Prop
  | .prepared rotates entity generation =>
    entity.id = id → Prepared id db rotates entity generation
  | .saving rotates entity generation row =>
    entity.id = id → Selected id db rotates entity generation row
  | _ => True

structure StoreInv (db : ClientStore) : Prop where
  keys : Table.UniqueKeys OAuthClient.id db.clients
  latest : db.generation = db.rotations

structure Kept (id : String) (db db' : ClientStore) : Prop where
  revoked : ∀ c ∈ db.clients, c.id = id → c.revokedAt ≠ none →
    ∃ c' ∈ db'.clients, c'.id = id ∧ c'.revokedAt ≠ none
  rotations_le : db.rotations ≤ db'.rotations
  hash : db'.rotations = db.rotations → ∀ c' ∈ db'.clients, c'.id = id →
    ∃ c ∈ db.clients, c.id = id ∧ c.clientSecretHash = c'.clientSecretHash

theorem kept_refl (id : String) (db : ClientStore) : Kept id db db :=
  ⟨fun c hc hid hrev => ⟨c, hc, hid, hrev⟩, le_refl _, fun _ c hc hid => ⟨c, hc, hid, rfl⟩⟩

section Frame

variable {id : String} {db db' : ClientStore}

theorem prepared_frame {rotates : Bool} {entity : OAuthClient} {generation : ℕ}
    (hk : Kept id db db') (hp : Prepared id db rotates entity generation) :
    Prepared id db' rotates entity generation := by
  refine ⟨hp.active, hp.generation_le.trans hk.rotations_le, fun hplain hgen c' hc' hid => ?_⟩
  -- the snapshot is of the latest generation, so no rotation was stored by this step
  have hsame : db'.rotations = db.rotations :=
    le_antisymm (hgen ▸ hp.generation_le) hk.rotations_le
  obtain ⟨c, hc, hcid, hhash⟩ := hk.hash hsame c' hc' hid
  exact hhash ▸ hp.hash hplain (hgen.trans hsame) c hc hcid

theorem knows_frame {other : ClientCall} (hk : Kept id db db') (ho : Knows id db other) :
    Knows id db' other := by
  cases other with
  | idle => trivial
  | prepared rotates entity generation => exact fun hid => prepared_frame hk (ho hid)
  | saving rotates entity generation row =>
    intro hid
    have hs := ho hid
    refine ⟨prepared_frame hk hs.toPrepared, fun hrow => ?_, fun hplain hgen => ?_⟩
    · obtain ⟨c, hc, hcid, hrev⟩ := hs.revoked hrow
      exact hk.revoked c hc hcid hrev
    · exact hs.rowHash hplain
        (le_antisymm hs.generation_le (hgen ▸ hk.rotations_le))
  | revoking id' => trivial

end Frame

/-! ### One statement -/

inductive ClientEffect (id : String) (db : ClientStore) (call : ClientCall) :
    ClientEvent → ClientStore → ClientCall → Prop
  | read {e : ClientEvent} {call' : ClientCall} (hquiet : SavesCurrent id db call e)
      (hknows : Knows id db call') : ClientEffect id db call e db call'
  | revoked {e : ClientEvent} {p : OAuthClient → Bool} {f : OAuthClient → OAuthClient}
      (hquiet : SavesCurrent id db call e) (hid : ∀ c, (f c).id = c.id)
      (hhash : ∀ c, (f c).clientSecretHash = c.clientSecretHash)
      (hrevoked : ∀ c, (f c).revokedAt ≠ none) :
      ClientEffect id db call e
        { db with clients := Table.updateWhere p f db.clients } .idle
  | wrote {rotates : Bool} {entity : OAuthClient} {generation : ℕ} {row current : OAuthClient}
      (hcall : call = .saving rotates entity generation row)
      (hcurrent : findById db.clients entity.id = some current)
      (hrow : checkRow (writeColumns row entity current) = .ok ()) :
      ClientEffect id db call .write
        (db.saved id rotates entity generation row
          (Table.save OAuthClient.id (writeColumns row entity current) db.clients)) .idle

section Step

variable {env : Env} {id : String} {db db' : ClientStore} {call call' : ClientCall}
  {e : ClientEvent}

theorem prepared_update (hi : StoreInv db) {dto : UpdateOAuthClientDto} {client entity : OAuthClient}
    (hclient : client ∈ db.clients) (hactive : client.revokedAt = none)
    (hentity : applyUpdate dto client = some entity) (hid : entity.id = id) :
    Prepared id db false entity db.generation := by
  obtain ⟨heid, -, -, hrevokedAt, -, -⟩ := applyUpdate_some hentity
  refine ⟨hrevokedAt.trans hactive, hi.latest.le, fun _ _ c hc hcid => ?_⟩
  have heq : c = client := Table.eq_of_key hi.keys hc hclient (hcid.trans (hid.symm.trans heid))
  rw [heq, (applyUpdate_assigned hentity).2.2.2]

theorem knows_select {rotates : Bool} {entity row : OAuthClient} {generation : ℕ}
    (hk : Knows id db (.prepared rotates entity generation))
    (hrow : findById db.clients entity.id = some row) :
    Knows id db (.saving rotates entity generation row) := by
  intro hid
  obtain ⟨hmem, hrid⟩ := findById_some hrow
  have hp := hk hid
  exact ⟨hp, fun hrev => ⟨row, hmem, hrid.trans hid, hrev⟩,
    fun hplain hgen => hp.hash hplain hgen row hmem (hrid.trans hid)⟩

theorem clientAct_effect (hi : StoreInv db) (hk : Knows id db call)
    (ha : clientAct env id db call e = some (db', call')) :
    ClientEffect id db call e db' call' := by
  unfold clientAct at ha
  split at ha
  next tenantId clientId dto auth =>
    split at ha
    · cases ha
      exact .read trivial trivial
    next entity hprepare =>
      cases ha
      obtain ⟨client, hclient, hactive, hentity⟩ := prepareUpdate_ok hprepare
      exact .read trivial fun hid => prepared_update hi hclient hactive hentity hid
  next tenantId clientId clientSecret salt =>
    split at ha
    · cases ha
      exact .read trivial trivial
    next entity hprepare =>
      cases ha
      obtain ⟨client, hclient, hactive, rfl⟩ := prepareRotation_ok hprepare
      exact .read trivial fun hid => ⟨hactive, hi.latest.le, fun hplain => by cases hplain⟩
  next tenantId clientId =>
    split at ha
    · cases ha
      exact .read trivial trivial
    · split at ha
      · cases ha
        exact .read trivial trivial
      · cases ha
        exact .read trivial trivial
  next tenantId now =>
    cases ha
    exact .revoked trivial (by intro c; rfl) (by intro c; rfl) (by intro c; simp)
  next rotates entity generation =>
    split at ha
    · cases ha
    next row hrow =>
      cases ha
      exact .read trivial (knows_select hk hrow)
  next rotates entity generation row =>
    split at ha
    · cases ha
    next current hcurrent =>
      split at ha
      next err hsave =>
        cases ha
        refine .read (fun _ c hc hok => ?_) trivial
        have heq : current = c := Option.some.inj (hcurrent.symm.trans hc)
        rw [saveClient, heq, hok] at hsave
        cases hsave
      next clients hsave =>
        cases ha
        obtain ⟨hrow, rfl⟩ := saveClient_ok hsave
        exact .wrote rfl hcurrent hrow
  next id' now =>
    cases ha
    exact .revoked trivial (by intro c; rfl) (by intro c; rfl) (by intro c; simp)
  · cases ha

/-! ### The write of a save -/

section Write

variable {rotates : Bool} {entity row current : OAuthClient} {generation : ℕ}

theorem saved_eq_of_hash {clients : List OAuthClient}
    (h : entity.id = id → row.clientSecretHash = entity.clientSecretHash) :
    db.saved id rotates entity generation row clients = { db with clients } :=
  if_neg fun hne => hne.2 (h hne.1).symm

theorem mem_written (hi : StoreInv db) (hcurrent : findById db.clients entity.id = some current)
    (c : OAuthClient) :
    c ∈ Table.save OAuthClient.id (writeColumns row entity current) db.clients ↔
      c = writeColumns row entity current ∨ (c ∈ db.clients ∧ c.id ≠ entity.id) := by
  have hid : (writeColumns row entity current).id = entity.id := (findById_some hcurrent).2
  rw [Table.mem_save hi.keys, hid]

theorem writeColumns_revokedAt (hactive : entity.revokedAt = none) :
    (writeColumns row entity current).revokedAt =
      if row.revokedAt = none then current.revokedAt else none := by
  simp only [writeColumns, written, hactive, eq_comm]

theorem writeColumns_hash (h : row.clientSecretHash = entity.clientSecretHash) :
    (writeColumns row entity current).clientSecretHash = current.clientSecretHash := by
  simp [writeColumns, written, h]

theorem wrote_other (hi : StoreInv db) (hcurrent : findById db.clients entity.id = some current)
    (hid : entity.id ≠ id) :
    ∀ c, c.id = id →
      (c ∈ Table.save OAuthClient.id (writeColumns row entity current) db.clients ↔
        c ∈ db.clients) := by
  intro c hc
  rw [mem_written hi hcurrent]
  constructor
  · rintro (rfl | ⟨hmem, -⟩)
    · exact absurd ((findById_some hcurrent).2.symm.trans hc) hid
    · exact hmem
  · exact fun hmem => Or.inr ⟨hmem, fun h => hid (h.symm.trans hc)⟩

theorem wrote_own (hi : StoreInv db) (hcurrent : findById db.clients entity.id = some current)
    (hid : entity.id = id) :
    ∀ c, c.id = id →
      (c ∈ Table.save OAuthClient.id (writeColumns row entity current) db.clients ↔
        c = writeColumns row entity current) := by
  intro c hc
  rw [mem_written hi hcurrent]
  exact or_iff_left fun h => h.2 (hc.trans hid.symm)

theorem wrote_revoked (hi : StoreInv db) (hcurrent : findById db.clients entity.id = some current)
    (hactive : entity.id = id → entity.revokedAt = none)
    (hrow : entity.id = id → row.revokedAt = none) :
    ∀ c ∈ db.clients, c.id = id → c.revokedAt ≠ none →
      ∃ c' ∈ Table.save OAuthClient.id (writeColumns row entity current) db.clients,
        c'.id = id ∧ c'.revokedAt ≠ none := by
  intro c hc hcid hrev
  by_cases hid : entity.id = id
  · obtain ⟨hmem, hcurid⟩ := findById_some hcurrent
    have heq : c = current := Table.eq_of_key hi.keys hc hmem (hcid.trans (hcurid.trans hid).symm)
    have hwid : (writeColumns row entity current).id = id := hcurid.trans hid
    refine ⟨_, (wrote_own hi hcurrent hid _ hwid).mpr rfl, hwid, ?_⟩
    rw [writeColumns_revokedAt (hactive hid), if_pos (hrow hid), ← heq]
    exact hrev
  · exact ⟨c, (wrote_other hi hcurrent hid c hcid).mpr hc, hcid, hrev⟩

theorem wrote_hash (hi : StoreInv db) (hcurrent : findById db.clients entity.id = some current)
    (hhash : entity.id = id → row.clientSecretHash = entity.clientSecretHash) :
    ∀ c' ∈ Table.save OAuthClient.id (writeColumns row entity current) db.clients, c'.id = id →
      ∃ c ∈ db.clients, c.id = id ∧ c.clientSecretHash = c'.clientSecretHash := by
  intro c' hc' hid'
  by_cases hid : entity.id = id
  · obtain ⟨hmem, hcurid⟩ := findById_some hcurrent
    rw [(wrote_own hi hcurrent hid c' hid').mp hc']
    exact ⟨current, hmem, hcurid.trans hid, (writeColumns_hash (hhash hid)).symm⟩
  · exact ⟨c', (wrote_other hi hcurrent hid c' hid').mp hc', hid', rfl⟩

theorem wrote_kept (hi : StoreInv db) (hk : Knows id db (.saving rotates entity generation row))
    (hcurrent : findById db.clients entity.id = some current)
    (hc : entity.id = id → row.revokedAt = none ∧
      (rotates = false → row.clientSecretHash = entity.clientSecretHash)) :
    let db' := db.saved id rotates entity generation row
      (Table.save OAuthClient.id (writeColumns row entity current) db.clients)
    Kept id db db' ∧ StoreInv db' := by
  have hrevoked := wrote_revoked hi hcurrent (fun hid => (hk hid).active)
    fun hid => (hc hid).1
  have hkeys := Table.uniqueKeys_save (writeColumns row entity current) hi.keys
  by_cases hhash : entity.id = id → row.clientSecretHash = entity.clientSecretHash
  · dsimp only
    rw [saved_eq_of_hash hhash]
    exact ⟨⟨hrevoked, le_refl _, fun _ => wrote_hash hi hcurrent hhash⟩, hkeys, hi.latest⟩
  · -- only a rotation gets here, and it starts a generation
    obtain ⟨hid, hne⟩ := Classical.not_imp.mp hhash
    have hrotates : rotates = true := by
      by_contra h
      exact hne ((hc hid).2 (Bool.eq_false_iff.mpr h))
    have hsaved : ∀ clients, db.saved id rotates entity generation row clients =
        ⟨clients, db.rotations + 1, db.rotations + 1⟩ := by
      intro clients
      unfold ClientStore.saved
      rw [if_pos ⟨hid, fun h => hne h.symm⟩, if_pos hrotates]
    dsimp only
    rw [hsaved]
    refine ⟨⟨hrevoked, Nat.le_succ _, fun h => ?_⟩, hkeys, rfl⟩
    exact absurd h (Nat.succ_ne_self _)

/-- A save that has read a revocation or, for a plain update, another hash, undoes it. -/
theorem wrote_undoes (hi : StoreInv db) (hk : Knows id db (.saving rotates entity generation row))
    (hcurrent : findById db.clients entity.id = some current) (hid : entity.id = id)
    (hkeeps : KeepsSecurity id db (db.saved id rotates entity generation row
      (Table.save OAuthClient.id (writeColumns row entity current) db.clients))) :
    row.revokedAt = none ∧
      (rotates = false → row.clientSecretHash = entity.clientSecretHash) := by
  have hs := hk hid
  constructor
  · by_contra hrow
    obtain ⟨c, hc, hcid, hrev⟩ := hs.revoked hrow
    have hwid : (writeColumns row entity current).id = id := (findById_some hcurrent).2.trans hid
    have hmem : writeColumns row entity current ∈ (db.saved id rotates entity generation row
        (Table.save OAuthClient.id (writeColumns row entity current) db.clients)).clients := by
      rw [saved_clients]
      exact (wrote_own hi hcurrent hid _ hwid).mpr rfl
    refine hkeeps.1 c hc _ hmem hcid hwid hrev ?_
    rw [writeColumns_revokedAt hs.active, if_neg hrow]
  · intro hplain
    by_contra hne
    have hsaved : ∀ clients, db.saved id rotates entity generation row clients =
        ⟨clients, generation, db.rotations⟩ := by
      intro clients
      unfold ClientStore.saved
      rw [if_pos ⟨hid, fun h => hne h.symm⟩, hplain]
      rfl
    have hgen := hkeeps.2
    rw [hsaved] at hgen
    exact hne (hs.rowHash hplain hgen)

end Write

/-! ### Every statement -/

theorem kept_of_effect (hi : StoreInv db) (hk : Knows id db call)
    (h : ClientEffect id db call e db' call') (hc : SavesCurrent id db call e) :
    Kept id db db' ∧ StoreInv db' := by
  cases h with
  | read => exact ⟨kept_refl id db, hi⟩
  | @revoked _ p f _ hid hhash hrevoked =>
    refine ⟨⟨fun c hmem hcid hrev => ?_, le_refl _, fun _ c' hc' hcid' => ?_⟩,
      Table.uniqueKeys_updateWhere hid hi.keys, hi.latest⟩
    · refine ⟨if p c then f c else c, (Table.mem_updateWhere _ _ _ _).mpr ⟨c, hmem, rfl⟩, ?_⟩
      split
      · exact ⟨(hid c).trans hcid, hrevoked c⟩
      · exact ⟨hcid, hrev⟩
    · obtain ⟨c, hmem, rfl⟩ := (Table.mem_updateWhere _ _ _ _).mp hc'
      refine ⟨c, hmem, ?_⟩
      by_cases hp : p c = true
      · rw [if_pos hp] at hcid' ⊢
        exact ⟨(hid c).symm.trans hcid', (hhash c).symm⟩
      · rw [if_neg hp] at hcid' ⊢
        exact ⟨hcid', rfl⟩
  | wrote hcall hcurrent hrow =>
    subst hcall
    exact wrote_kept hi hk hcurrent fun hid => hc hid _ hcurrent hrow

theorem knows_of_effect (h : ClientEffect id db call e db' call') : Knows id db' call' := by
  cases h with
  | read _ hknows => exact hknows
  | revoked => trivial
  | wrote => trivial

theorem keepsSecurity_of_kept (hkept : Kept id db db') (hi' : StoreInv db') :
    KeepsSecurity id db db' := by
  refine ⟨fun c hc c' hc' hcid hcid' hrev => ?_, hi'.latest⟩
  obtain ⟨d, hd, hdid, hdrev⟩ := hkept.revoked c hc hcid hrev
  rw [Table.eq_of_key hi'.keys hc' hd (hcid'.trans hdid.symm)]
  exact hdrev

theorem keepsSecurity_iff (hi : StoreInv db) (hk : Knows id db call)
    (h : ClientEffect id db call e db' call') :
    SavesCurrent id db call e ↔ KeepsSecurity id db db' := by
  constructor
  · intro hc
    obtain ⟨hkept, hi'⟩ := kept_of_effect hi hk h hc
    exact keepsSecurity_of_kept hkept hi'
  · intro hkeeps
    cases h with
    | read hquiet _ => exact hquiet
    | revoked hquiet _ _ _ => exact hquiet
    | @wrote rotates entity generation row current hcall hcurrent hrow =>
      subst hcall
      intro hid _ _ _
      exact wrote_undoes hi hk hcurrent hid hkeeps

end Step

/-! ### Interleavings -/

/-- In every interleaving, no save undoes a revocation of the client or brings back a hash
from before a rotation, if and only if every save of it that goes through has read
the row after its snapshot still active and, unless it rotates, with the hash of the snapshot. -/
theorem save_race_iff (env : Env) (id : String) (clients : List OAuthClient)
    (hk : Table.UniqueKeys OAuthClient.id clients) (events : List (ℕ × ClientEvent)) :
    Run.All (clientStep env id) (Run.Across (KeepsSecurity id)) ⟨{ clients }, fun _ => .idle⟩
        events ↔
      Run.All (clientStep env id) (Run.Before (SavesCurrent id)) ⟨{ clients }, fun _ => .idle⟩
        events := by
  symm
  refine Run.all_iff_of_invariant (Run.Holds StoreInv (Knows id)) ?_ ?_ ?_
  · intro w l w' hw hs
    obtain ⟨db', call', ha, rfl⟩ := Run.interleave_cases hs
    exact keepsSecurity_iff hw.1 (hw.2 l.1) (clientAct_effect hw.1 (hw.2 l.1) ha)
  · intro w l w' hw hs hc
    refine Run.holds_interleave (C := SavesCurrent id) ?_ ?_ hw hs hc
    · intro db call e db' call' hi hk ha hc
      have heffect := clientAct_effect hi hk ha
      exact ⟨(kept_of_effect hi hk heffect hc).2, knows_of_effect heffect⟩
    · intro db call e db' call' other hi hk ho ha hc
      exact knows_frame (kept_of_effect hi hk (clientAct_effect hi hk ha) hc).1 ho
  · exact ⟨⟨hk, rfl⟩, fun i => trivial⟩

/-! ### A rename over a revocation -/

def renamedClient : OAuthClient :=
  { id := "row", tenantId := "t", clientId := "dtcs_1", clientSecretHash := some "salt:secret"
    name := "integration", scopes := ["credentials:offer"], roles := [], redirectUris := []
    grantTypes := [machineGrantType], createdBy := none, refreshTokenTtlSeconds := none }

def clientManager : AuthContext :=
  { sub := "manager", tokenType := .user, tenantId := some "t", roles := ["admin"]
    scopes := ["clients:manage"] }

def rename : ClientEvent := .update "t" "dtcs_1" { name := .value "renamed" } (some clientManager)

theorem save_race_late :
    Run.All (clientStep argonEnv "row") (Run.Across (KeepsSecurity "row"))
      ⟨{ clients := [renamedClient] }, fun _ => .idle⟩
      [(0, rename), (0, .select), (1, .revokeAllForTenant "t" 1), (0, .write)] := by
  refine (save_race_iff argonEnv "row" [renamedClient] (by decide) _).mpr ?_
  refine ⟨_, rfl, trivial, _, rfl, trivial, _, rfl, trivial, _, rfl, ?_, trivial⟩
  intro _ current hcurrent _
  exact ⟨rfl, fun _ => rfl⟩

/-- The rename has loaded the client before it is revoked, and activates it again. -/
def renameOverRevocation : List (ℕ × ClientEvent) :=
  [(0, rename), (1, .revokeClient "t" "dtcs_1"), (1, .revoke 1), (0, .select), (0, .write)]

theorem revocation_undone_by_rename : ¬ ∀ (env : Env) (id : String) (clients : List OAuthClient)
    (events : List (ℕ × ClientEvent)), Table.UniqueKeys OAuthClient.id clients →
    Run.Enabled (clientStep env id) ⟨{ clients }, fun _ => .idle⟩ events →
    Run.All (clientStep env id) (Run.Across (KeepsSecurity id)) ⟨{ clients }, fun _ => .idle⟩
      events := by
  intro hall
  obtain ⟨w₁, h₁, -, w₂, h₂, -, w₃, h₃, -, w₄, h₄, -, w₅, h₅, hkeeps, -⟩ :=
    hall argonEnv "row" [renamedClient] renameOverRevocation (by decide)
      ⟨_, rfl, trivial, _, rfl, trivial, _, rfl, trivial, _, rfl, trivial, _, rfl, trivial, trivial⟩
  cases h₁
  cases h₂
  cases h₃
  cases h₄
  cases h₅
  have hrevoked := hkeeps.1 { renamedClient with revokedAt := some 1 } (by decide)
    { renamedClient with name := "renamed" } (by decide) rfl rfl (by decide)
  exact hrevoked rfl

end VcCommonService.OAuthClients
