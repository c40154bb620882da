import VcCommonService.Auth.Scopes
import VcCommonService.Lib.Run

/-!
# Connector credentials (`encryption.service.ts`, `connector-credential.service.ts`)

One row of `connector_credential` and the database steps of the calls that read or
update it. Every read may write: a row whose key version is not the reader's current
one is decrypted, encrypted again and stored, whatever the row holds by then. Replicas
share the keys and may differ in the version they call current. A plaintext is the
UTF-8 text of `JSON.stringify(credentials)`, which `JSON.parse` gives back.
-/

namespace VcCommonService.Connectors
open Lib Auth

abbrev Bytes := List UInt8

/-! ### `EncryptionService` -/

def ivLength : ℕ := 12
def authTagLength : ℕ := 16

/-- `aes-256-gcm` of the platform: what `cipher` returns, with its tag, `decipher` opens
under the same key and nonce. -/
structure AesGcm where
  cipher : (key iv plaintext : Bytes) → Bytes × Bytes
  decipher : (key iv authTag encrypted : Bytes) → Option Bytes
  authTag_length : ∀ key iv plaintext, (cipher key iv plaintext).2.length = authTagLength
  decipher_cipher : ∀ key iv plaintext,
    decipher key iv (cipher key iv plaintext).2 (cipher key iv plaintext).1 = some plaintext

abbrev Iv := { iv : Bytes // iv.length = ivLength }

structure EncryptionResult where
  ciphertext : Bytes
  keyVersion : ℕ
  deriving Repr, DecidableEq

/-- The configured keys, one for each version. -/
abbrev Keys := ℕ → Bytes

def encrypt (aes : AesGcm) (keys : Keys) (currentVersion : ℕ) (iv : Iv) (plaintext : Bytes) :
    EncryptionResult :=
  let (encrypted, authTag) := aes.cipher (keys currentVersion) iv.1 plaintext
  ⟨iv.1 ++ authTag ++ encrypted, currentVersion⟩

def decrypt (aes : AesGcm) (keys : Keys) (ciphertext : Bytes) (keyVersion : ℕ) :
    Except ServiceError Bytes :=
  if ciphertext.length < ivLength + authTagLength then
    .error (.error "Invalid encrypted payload.")
  else
    let iv := ciphertext.take ivLength
    let authTag := (ciphertext.drop ivLength).take authTagLength
    let encrypted := ciphertext.drop (ivLength + authTagLength)
    match aes.decipher (keys keyVersion) iv authTag encrypted with
    | none => .error (.error "Unsupported state or unable to authenticate data")
    | some plaintext => .ok plaintext

def requiresRotation (currentVersion keyVersion : ℕ) : Bool := keyVersion ≠ currentVersion

/-- The three parts of a stored payload are found again by their lengths. -/
theorem frame_parts {iv authTag : Bytes} (hiv : iv.length = ivLength)
    (htag : authTag.length = authTagLength) (encrypted : Bytes) :
    ¬ (iv ++ authTag ++ encrypted).length < ivLength + authTagLength ∧
      (iv ++ authTag ++ encrypted).take ivLength = iv ∧
      ((iv ++ authTag ++ encrypted).drop ivLength).take authTagLength = authTag ∧
      (iv ++ authTag ++ encrypted).drop (ivLength + authTagLength) = encrypted := by
  refine ⟨?_, ?_, ?_, ?_⟩
  · simp only [List.length_append]
    omega
  · rw [List.append_assoc, ← hiv, List.take_left]
  · rw [List.append_assoc, ← hiv, List.drop_left, ← htag, List.take_left]
  · rw [← hiv, ← htag, ← List.length_append, List.drop_left]

theorem decrypt_frame (aes : AesGcm) (keys : Keys) (keyVersion : ℕ) {iv authTag : Bytes}
    (encrypted : Bytes) (hiv : iv.length = ivLength) (htag : authTag.length = authTagLength)
    {plaintext : Bytes}
    (hopen : aes.decipher (keys keyVersion) iv authTag encrypted = some plaintext) :
    decrypt aes keys (iv ++ authTag ++ encrypted) keyVersion = .ok plaintext := by
  obtain ⟨hlong, hfirst, hsecond, hrest⟩ := frame_parts hiv htag encrypted
  simp only [decrypt, if_neg hlong, hfirst, hsecond, hrest, hopen]

@[simp] theorem decrypt_encrypt (aes : AesGcm) (keys : Keys) (currentVersion : ℕ) (iv : Iv)
    (plaintext : Bytes) :
    decrypt aes keys (encrypt aes keys currentVersion iv plaintext).ciphertext
      (encrypt aes keys currentVersion iv plaintext).keyVersion = .ok plaintext :=
  decrypt_frame aes keys currentVersion _ iv.2 (aes.authTag_length _ _ _)
    (aes.decipher_cipher _ _ _)

/-! ### The row and the calls -/

inductive ConnectorType where
  | traction
  | credo
  deriving Repr, DecidableEq

structure ConnectorCredential where
  id : String
  tenantId : TenantId
  connectorType : ConnectorType
  credentialsEncrypted : Bytes
  endpointUrl : String
  active : Bool
  keyVersion : ℕ
  deriving Repr, DecidableEq

structure UpdateConnectorCredentialDto where
  endpointUrl : Js.Field String := .undefined
  credentials : Js.Field Bytes := .undefined
  deriving Repr, DecidableEq

/-- The row with, as history, the credentials of the last write of an `update` that
carried credentials. -/
structure Store where
  row : ConnectorCredential
  lastUpdate : Bytes
  deriving Repr, DecidableEq

inductive Call where
  | idle
  | rotating (write : EncryptionResult) (next : Call)
  | updating (dto : UpdateConnectorCredentialDto) (existing : ConnectorCredential)
      (currentVersion : ℕ)
  | rereading (currentVersion : ℕ)
  | finished (error : Option ServiceError)
  deriving Repr, DecidableEq

/-- `ConnectorHealthCheckResult`: the status and the message of an unhealthy one. -/
inductive Health where
  | healthy
  | unhealthy (message : Option String)
  deriving Repr, DecidableEq

/-- A call runs on a replica with this current version. The three reads by tenant take the
same steps on a row and check no caller. -/
inductive Event where
  | findById (auth : Option AuthContext) (currentVersion : ℕ) (iv : Iv)
  | findByTenant (currentVersion : ℕ) (iv : Iv)
  | update (dto : UpdateConnectorCredentialDto) (auth : AuthContext) (currentVersion : ℕ) (iv : Iv)
  | next (health : Health) (iv : Iv)
  | abort (error : ServiceError)
  deriving DecidableEq

section Calls

variable (aes : AesGcm) (keys : Keys)

def openRow (row : ConnectorCredential) : Except ServiceError Bytes :=
  decrypt aes keys row.credentialsEncrypted row.keyVersion

def ConnectorCredential.store (row : ConnectorCredential) (encrypted : EncryptionResult) :
    ConnectorCredential :=
  { row with credentialsEncrypted := encrypted.ciphertext, keyVersion := encrypted.keyVersion }

/-- Decides on the loaded row; the `UPDATE` of the two columns is the next step. -/
def lazyRotateKeyIfNeeded (currentVersion : ℕ) (iv : Iv) (credential : ConnectorCredential)
    (next : ConnectorCredential → Call) : Call :=
  if requiresRotation currentVersion credential.keyVersion then
    match openRow aes keys credential with
    | .error e => .finished (some e)
    | .ok decrypted =>
      let encrypted := encrypt aes keys currentVersion iv decrypted
      .rotating encrypted (next (credential.store encrypted))
  else next credential

def notFoundMessage (id : String) : String :=
  "Connector credential with ID '" ++ id ++ "' was not found."

def findById (row : ConnectorCredential) (auth : Option AuthContext) (currentVersion : ℕ) (iv : Iv)
    (next : ConnectorCredential → Call) : Call :=
  match assertResourceTenantOrNotFound auth row.tenantId (notFoundMessage row.id) with
  | .error e => .finished (some e)
  | .ok () => lazyRotateKeyIfNeeded aes keys currentVersion iv row next

def assertHealthy : Health → Except ServiceError Unit
  | .healthy => .ok ()
  | .unhealthy message => .error (.unprocessableEntity
      ("Could not verify connectivity to the connector endpoint: " ++
        message.getD "unknown error"))

/-- The credentials that `update` writes, if any. `credentials: null` reaches the health
check, which reads a property of it: inside its `try` for one connector type only. -/
def buildUpdates (dto : UpdateConnectorCredentialDto) (existing : ConnectorCredential)
    (health : Health) : Except ServiceError (Option Bytes) := do
  match dto.credentials with
  | .value credentials =>
    assertHealthy health
    return some credentials
  | .null =>
    match existing.connectorType with
    | .traction => throw .typeError
    | .credo =>
      assertHealthy (.unhealthy (some "Cannot read properties of null (reading 'apiKey')"))
      return none
  | .undefined =>
    if dto.endpointUrl.isDefined then
      let _ ← openRow aes keys existing
      assertHealthy health
      return none
    else throw (.badRequest "At least one of endpoint_url or credentials must be provided.")

/-- The `UPDATE` of `update`; a `null` endpoint violates its column. -/
def runUpdate (db : Store) (dto : UpdateConnectorCredentialDto) (existing : ConnectorCredential)
    (currentVersion : ℕ) (health : Health) (iv : Iv) : Store × Call :=
  match buildUpdates aes keys dto existing health, dto.endpointUrl.assign db.row.endpointUrl with
  | .error e, _ => (db, .finished (some e))
  | .ok _, none => (db, .finished (some (.constraint "not_null")))
  | .ok none, some endpointUrl =>
    ({ db with row := { db.row with endpointUrl } }, .rereading currentVersion)
  | .ok (some credentials), some endpointUrl =>
    let encrypted := encrypt aes keys currentVersion iv credentials
    ({ row := { db.row.store encrypted with endpointUrl }, lastUpdate := credentials },
      .rereading currentVersion)

def act (db : Store) : Call → Event → Option (Store × Call)
  | .idle, .findById auth currentVersion iv =>
    some (db, findById aes keys db.row auth currentVersion iv fun _ => .finished none)
  | .idle, .findByTenant currentVersion iv =>
    some (db, lazyRotateKeyIfNeeded aes keys currentVersion iv db.row fun _ => .finished none)
  | .idle, .update dto auth currentVersion iv =>
    some (db, findById aes keys db.row (some auth) currentVersion iv
      fun existing => .updating dto existing currentVersion)
  | .rotating write next, .next _ _ => some ({ db with row := db.row.store write }, next)
  | .updating dto existing currentVersion, .next health iv =>
    some (runUpdate aes keys db dto existing currentVersion health iv)
  | .rereading currentVersion, .next _ iv =>
    some (db, lazyRotateKeyIfNeeded aes keys currentVersion iv db.row fun _ => .finished none)
  | .rotating _ _, .abort e => some (db, .finished (some e))
  | .updating _ _ _, .abort e => some (db, .finished (some e))
  | .rereading _, .abort e => some (db, .finished (some e))
  | _, _ => none

abbrev World := Run.World Store Call

def step : World → ℕ × Event → Option World := Run.interleave (act aes keys)

end Calls

end VcCommonService.Connectors
