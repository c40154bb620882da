import VcCommonService.Connector.Service

/-!
# Key rotation and updates

The rotation of a read stores what the read had loaded. It does no harm while the row
still holds the same credentials; a rotation that comes after the write of an `update`
puts the replaced credentials back.
-/

namespace VcCommonService.Connectors
open Lib Auth

variable {aes : AesGcm} {keys : Keys}

/-- The stored pair opens to what the last update wrote. -/
def Intact (aes : AesGcm) (keys : Keys) (db : Store) : Prop :=
  openRow aes keys db.row = .ok db.lastUpdate

/-- A rotation writes the credentials that the row still holds. -/
def RotatesCurrent (aes : AesGcm) (keys : Keys) (db : Store) : Call → Event → Prop
  | .rotating write _, .next _ _ =>
    openRow aes keys db.row = decrypt aes keys write.ciphertext write.keyVersion
  | _, _ => True

def Settled (w : World) : Prop :=
  ∀ i, w.calls i = .idle ∨ ∃ error, w.calls i = .finished error

/-! ### One step -/

@[simp] theorem openRow_store (row : ConnectorCredential) (write : EncryptionResult) :
    openRow aes keys (row.store write) = decrypt aes keys write.ciphertext write.keyVersion := rfl

theorem intact_runUpdate {db db' : Store} {pc' : Call} {dto : UpdateConnectorCredentialDto}
    {existing : ConnectorCredential} {currentVersion : ℕ} {health : Health} {iv : Iv}
    (hdb : Intact aes keys db)
    (h : runUpdate aes keys db dto existing currentVersion health iv = (db', pc')) :
    Intact aes keys db' := by
  unfold runUpdate at h
  split at h
  · cases h
    exact hdb
  · cases h
    exact hdb
  · -- only the endpoint is written
    cases h
    exact hdb
  · cases h
    exact decrypt_encrypt aes keys currentVersion iv _

theorem intact_act_iff {db db' : Store} {pc pc' : Call} {e : Event} (hdb : Intact aes keys db)
    (ha : act aes keys db pc e = some (db', pc')) :
    RotatesCurrent aes keys db pc e ↔ Intact aes keys db' := by
  have hquiet : db' = db → RotatesCurrent aes keys db pc e →
      (RotatesCurrent aes keys db pc e ↔ Intact aes keys db') := by
    intro heq hc
    exact iff_of_true hc (heq ▸ hdb)
  cases pc with
  | idle =>
    cases e with
    | findById auth currentVersion iv =>
      cases ha
      exact hquiet rfl trivial
    | findByTenant currentVersion iv =>
      cases ha
      exact hquiet rfl trivial
    | update dto auth currentVersion iv =>
      cases ha
      exact hquiet rfl trivial
    | _ => cases ha
  | rotating write next =>
    cases e with
    | next health iv =>
      cases ha
      unfold RotatesCurrent Intact at *
      rw [openRow_store, hdb]
      exact eq_comm
    | abort error =>
      cases ha
      exact hquiet rfl trivial
    | _ => cases ha
  | updating dto existing currentVersion =>
    cases e with
    | next health iv => exact iff_of_true trivial (intact_runUpdate hdb (Option.some.inj ha))
    | abort error =>
      cases ha
      exact hquiet rfl trivial
    | _ => cases ha
  | rereading currentVersion =>
    cases e with
    | next health iv =>
      cases ha
      exact hquiet rfl trivial
    | abort error =>
      cases ha
      exact hquiet rfl trivial
    | _ => cases ha
  | finished error => cases e <;> cases ha

theorem intact_step_iff {w w' : World} {l : ℕ × Event} (hw : Intact aes keys w.db)
    (hs : step aes keys w l = some w') :
    Run.Before (RotatesCurrent aes keys) w l w' ↔ Intact aes keys w'.db := by
  obtain ⟨db', pc', ha, rfl⟩ := Run.interleave_cases hs
  exact intact_act_iff hw ha

/-! ### Runs -/

/-- The stored pair opens to the last update after every step of a run if and only if every
rotation writes what the row still holds; a run of such rotations that has come to rest
has lost no update. -/
theorem rotation_keeps_update (aes : AesGcm) (keys : Keys) (row : ConnectorCredential)
    (original : Bytes) (events : List (ℕ × Event)) (hrow : openRow aes keys row = .ok original) :
    (Run.All (step aes keys) (Run.Before (RotatesCurrent aes keys))
        ⟨⟨row, original⟩, fun _ => .idle⟩ events ↔
      Run.All (step aes keys) (fun _ _ w' => openRow aes keys w'.db.row = .ok w'.db.lastUpdate)
        ⟨⟨row, original⟩, fun _ => .idle⟩ events) ∧
    (Run.All (step aes keys) (Run.Before (RotatesCurrent aes keys))
        ⟨⟨row, original⟩, fun _ => .idle⟩ events →
      ∀ w, Run.final (step aes keys) ⟨⟨row, original⟩, fun _ => .idle⟩ events = some w →
        Settled w → openRow aes keys w.db.row = .ok w.db.lastUpdate) := by
  constructor
  · refine Run.all_iff_of_invariant (fun w => Intact aes keys w.db) ?_ ?_ hrow
    · intro w l w' hw hs
      exact intact_step_iff hw hs
    · intro w l w' hw hs hc
      exact (intact_step_iff hw hs).mp hc
  · intro hrun w hfinal _
    refine Run.final_of_invariant (fun w : World => Intact aes keys w.db) ?_ ?_ hrun hfinal
    · intro w l w' hw hs hc
      exact (intact_step_iff hw hs).mp hc
    · exact hrow

/-! ### A read that overlaps an update -/

/-- No secrecy: the payload is the plaintext behind a zero tag. -/
def plainAes : AesGcm where
  cipher _ _ plaintext := (plaintext, List.replicate authTagLength 0)
  decipher _ _ _ encrypted := some encrypted
  authTag_length _ _ _ := List.length_replicate
  decipher_cipher _ _ _ := rfl

def noKeys : Keys := fun _ => []

def zeroIv : Iv := ⟨List.replicate ivLength 0, List.length_replicate⟩

def storedRow (credentials : Bytes) : ConnectorCredential :=
  let encrypted := encrypt plainAes noKeys 1 zeroIv credentials
  ⟨"c", "t", .credo, encrypted.ciphertext, "https://agent.example.com", true,
    encrypted.keyVersion⟩

def admin : AuthContext := ⟨"u", .user, some "t", ["admin"], ["connections:manage"]⟩

def newCredentials : UpdateConnectorCredentialDto := { credentials := .value [2] }

/-- The read has loaded the row; the update writes; the read rotates what it loaded. -/
def readOverUpdate : List (ℕ × Event) :=
  [(0, .findByTenant 2 zeroIv), (1, .update newCredentials admin 2 zeroIv),
    (1, .next .healthy zeroIv), (1, .next .healthy zeroIv), (1, .next .healthy zeroIv),
    (0, .next .healthy zeroIv)]

def readThenUpdate : List (ℕ × Event) :=
  [(0, .findByTenant 2 zeroIv), (0, .next .healthy zeroIv),
    (1, .update newCredentials admin 2 zeroIv), (1, .next .healthy zeroIv),
    (1, .next .healthy zeroIv)]

theorem rotation_keeps_update_in_turn :
    Run.All (step plainAes noKeys)
      (fun _ _ w' => openRow plainAes noKeys w'.db.row = .ok w'.db.lastUpdate)
      ⟨⟨storedRow [1], [1]⟩, fun _ => .idle⟩ readThenUpdate := by
  refine (rotation_keeps_update plainAes noKeys (storedRow [1]) [1] readThenUpdate
    (by decide)).1.mp ?_
  exact ⟨_, rfl, trivial, _, rfl, by rfl, _, rfl, trivial, _, rfl, trivial, _, rfl, trivial,
    trivial⟩

theorem rotation_loses_update : ¬ ∀ (aes : AesGcm) (keys : Keys) (row : ConnectorCredential)
    (original : Bytes) (events : List (ℕ × Event)), openRow aes keys row = .ok original →
    ∀ w, Run.final (step aes keys) ⟨⟨row, original⟩, fun _ => .idle⟩ events = some w →
      Settled w → openRow aes keys w.db.row = .ok w.db.lastUpdate := by
  intro hall
  have hlast := hall plainAes noKeys (storedRow [1]) [1] readOverUpdate (by decide) _ rfl ?_
  · revert hlast
    decide
  · intro i
    match i with
    | 0 => exact Or.inr ⟨none, rfl⟩
    | 1 => exact Or.inr ⟨none, rfl⟩
    | i + 2 => exact Or.inl rfl

end VcCommonService.Connectors
