import VcCommonService.Connector.KeyRing
import VcCommonService.Connector.Rotation
import VcCommonService.Lib.JsonRoundTrip
import VcCommonService.Lib.Utf8

/-!
# Encrypted values across key rotations (`encryption.service.ts`)

A value is stored as the UTF-8 text of its JSON, encrypted under the current key of a ring: nonce,
tag and ciphertext, one after the other, and the version of the key beside them. Rings come and go
with restarts; a read under a newer current key decrypts the value and encrypts it again.
-/

namespace VcCommonService.Connectors.Encryption
open Lib

/-! ### `KeyProviderService` -/

structure EncryptionKey where
  version : Number
  key : Bytes
  deriving Repr, DecidableEq

def getCurrentKey (ring : KeyRing) : Except ServiceError EncryptionKey :=
  match ring.keys ring.currentVersion with
  | none => .error (.error
      ("Current encryption key version " ++ versionText ring.currentVersion ++ " is not available."))
  | some key => .ok ⟨ring.currentVersion, key⟩

def getKey (ring : KeyRing) (version : Number) : Except ServiceError EncryptionKey :=
  match ring.keys version with
  | none => .error (.error
      ("Encryption key version " ++ versionText version ++ " is not configured."))
  | some key => .ok ⟨version, key⟩

/-! ### `EncryptionService` -/

/-- The cipher, and the messages of `JSON.parse`. -/
structure Platform where
  aes : AesGcm
  syntaxError : String → String

structure EncryptionResult where
  ciphertext : Bytes
  keyVersion : Number
  deriving Repr, DecidableEq

/-- `Buffer.from(text, 'utf8')`. -/
def bufferOfText (text : String) : Bytes := (Utf8.encode text).map UInt8.ofNat

/-- `buffer.toString('utf8')`. -/
def textOfBuffer (buffer : Bytes) : String := Utf8.decode (buffer.map UInt8.toNat)

section Service

variable (platform : Platform)

def createCipheriv (key iv : Bytes) : Except ServiceError (Bytes → Bytes × Bytes) :=
  if key.length ≠ keyLength then .error (.error "Invalid key length")
  else .ok (platform.aes.cipher key iv)

def createDecipheriv (key iv : Bytes) : Except ServiceError (Bytes → Bytes → Option Bytes) :=
  if key.length ≠ keyLength then .error (.error "Invalid key length")
  else .ok (platform.aes.decipher key iv)

/-- `decipher.final()` throws when the tag does not fit. -/
def final (decrypted : Option Bytes) : Except ServiceError Bytes :=
  match decrypted with
  | none => .error (.error "Unsupported state or unable to authenticate data")
  | some plaintext => .ok plaintext

def jsonParse (text : String) : Except ServiceError Json :=
  match JsonText.parse text with
  | none => .error (.error (platform.syntaxError text))
  | some value => .ok value

def encrypt (ring : KeyRing) (iv : Iv) (value : Json) : Except ServiceError EncryptionResult := do
  let current ← getCurrentKey ring
  let cipher ← createCipheriv platform current.key iv.1
  let plaintext := bufferOfText (JsonText.stringify value)
  let (encrypted, authTag) := cipher plaintext
  return ⟨iv.1 ++ authTag ++ encrypted, current.version⟩

def decrypt (ring : KeyRing) (ciphertext : Bytes) (keyVersion : Number) :
    Except ServiceError Json := do
  let found ← getKey ring keyVersion
  if ciphertext.length < ivLength + authTagLength then
    .error (.error "Invalid encrypted payload.")
  else
    let iv := ciphertext.take ivLength
    let authTag := (ciphertext.drop ivLength).take authTagLength
    let encrypted := ciphertext.drop (ivLength + authTagLength)
    let decipher ← createDecipheriv platform found.key iv
    let decrypted ← final (decipher authTag encrypted)
    jsonParse platform (textOfBuffer decrypted)

def decryptWithKey (ciphertext key : Bytes) : Except ServiceError Json :=
  if ciphertext.length < ivLength + authTagLength then
    .error (.error "Invalid encrypted payload.")
  else do
    let iv := ciphertext.take ivLength
    let authTag := (ciphertext.drop ivLength).take authTagLength
    let encrypted := ciphertext.drop (ivLength + authTagLength)
    let decipher ← createDecipheriv platform key iv
    let decrypted ← final (decipher authTag encrypted)
    jsonParse platform (textOfBuffer decrypted)

def requiresRotation (ring : KeyRing) (keyVersion : Number) : Except ServiceError Bool := do
  let current ← getCurrentKey ring
  return !Number.strictEquals keyVersion current.version

/-! ### `lazyRotateKeyIfNeeded` -/

/-- The encrypted columns of a connector. -/
structure StoredCredential where
  credentialsEncrypted : Bytes
  keyVersion : Number
  deriving Repr, DecidableEq

/-- The columns that the rotation writes, if it writes. -/
def reencrypt (ring : KeyRing) (iv : Iv) (credential : StoredCredential) :
    Except ServiceError (Option StoredCredential) := do
  let required ← requiresRotation ring credential.keyVersion
  if required then
    let decrypted ← decrypt platform ring credential.credentialsEncrypted credential.keyVersion
    let encrypted ← encrypt platform ring iv decrypted
    return some ⟨encrypted.ciphertext, encrypted.keyVersion⟩
  else return none

/-- The row after the call, and the credential it leaves in the hands of the caller. `fault` is what
the repository throws, if the update fails. -/
def lazyRotateKeyIfNeeded (ring : KeyRing) (iv : Iv) (fault : Option ServiceError)
    (credential : StoredCredential) : StoredCredential × Except ServiceError StoredCredential :=
  match reencrypt platform ring iv credential with
  | .error e => (credential, .error e)
  | .ok none => (credential, .ok credential)
  | .ok (some rotated) =>
    match fault with
    | some e => (credential, .error e)
    | none => (rotated, .ok rotated)

end Service

/-! ### Loaded keys -/

/-- A ring that `loadKeys` has installed. -/
abbrev Provider := { ring : KeyRing // ∃ runtime, loadKeys runtime = .ok ring }

theorem setKeys_length {runtime : KeyRuntime} {keys keys' : Number → Option Bytes}
    {entries : KeyEntries} (h : setKeys runtime keys entries = .ok keys')
    (hkeys : ∀ version key, keys version = some key → key.length = keyLength) :
    ∀ version key, keys' version = some key → key.length = keyLength := by
  induction entries generalizing keys with
  | nil =>
    cases h
    exact hkeys
  | cons m entries ih =>
    obtain ⟨key, -, hlength, hrest⟩ := setKeys_cons h
    refine ih hrest fun version key' hkey' => ?_
    rw [Function.update_apply] at hkey'
    split at hkey'
    · exact Option.some.inj hkey' ▸ hlength
    · exact hkeys version key' hkey'

theorem key_length (provider : Provider) {version : Number} {key : Bytes}
    (h : provider.1.keys version = some key) : key.length = keyLength := by
  obtain ⟨ring, runtime, hload⟩ := provider
  obtain ⟨entries, -, -, -, hkeys⟩ := loadKeys_eq_ok_iff.mp hload
  exact setKeys_length hkeys nofun version key h

theorem currentVersion_ne_nan (provider : Provider) : provider.1.currentVersion ≠ .nan := by
  obtain ⟨ring, runtime, hload⟩ := provider
  obtain ⟨entries, -, hversion, -⟩ := loadKeys_eq_ok_iff.mp hload
  exact hversion.2

section Keys

variable {platform : Platform} {ring : KeyRing}

theorem getKey_of_keys {version : Number} {key : Bytes} (h : ring.keys version = some key) :
    getKey ring version = .ok ⟨version, key⟩ := by
  rw [getKey, h]

theorem exists_getCurrentKey (ring : KeyRing) :
    ∃ key, ring.keys ring.currentVersion = some key ∧
      getCurrentKey ring = .ok ⟨ring.currentVersion, key⟩ := by
  obtain ⟨key, hkey⟩ := Option.isSome_iff_exists.mp ring.keys_current
  exact ⟨key, hkey, by rw [getCurrentKey, hkey]⟩

theorem requiresRotation_eq (ring : KeyRing) (keyVersion : Number) :
    requiresRotation ring keyVersion = .ok !Number.strictEquals keyVersion ring.currentVersion := by
  obtain ⟨key, -, hcurrent⟩ := exists_getCurrentKey ring
  rw [requiresRotation, hcurrent]
  rfl

theorem requiresRotation_current (provider : Provider) :
    requiresRotation provider.1 provider.1.currentVersion = .ok false := by
  rw [requiresRotation_eq]
  simp [Number.strictEquals, currentVersion_ne_nan provider]

/-- The two functions agree on every payload. -/
theorem decryptWithKey_eq {version : Number} {key : Bytes} (h : ring.keys version = some key)
    (ciphertext : Bytes) :
    decryptWithKey platform ciphertext key = decrypt platform ring ciphertext version := by
  rw [decrypt, getKey_of_keys h, ok_bind]
  rfl

/-- Of a ring, only the key of the version matters. -/
theorem decrypt_of_keys {later : KeyRing} {version : Number}
    (h : later.keys version = ring.keys version) (ciphertext : Bytes) :
    decrypt platform later ciphertext version = decrypt platform ring ciphertext version := by
  unfold decrypt getKey
  rw [h]

theorem decryptWithKey_short {ciphertext : Bytes}
    (h : ciphertext.length < ivLength + authTagLength) (key : Bytes) :
    decryptWithKey platform ciphertext key = .error (.error "Invalid encrypted payload.") :=
  if_pos h

theorem decrypt_refused {ciphertext : Bytes} {version : Number}
    (h : ciphertext.length < ivLength + authTagLength ∨ ring.keys version = none) :
    ∃ e, decrypt platform ring ciphertext version = .error e := by
  cases hkey : ring.keys version with
  | none =>
    refine ⟨.error ("Encryption key version " ++ versionText version ++ " is not configured."), ?_⟩
    rw [decrypt, getKey, hkey]
    rfl
  | some key =>
    have hshort : ciphertext.length < ivLength + authTagLength := h.resolve_right (by simp [hkey])
    exact ⟨_, by rw [← decryptWithKey_eq hkey, decryptWithKey_short hshort]⟩

end Keys

/-! ### What was encrypted opens -/

theorem textOfBuffer_bufferOfText (text : String) : textOfBuffer (bufferOfText text) = text := by
  have hbytes : ((Utf8.encode text).map UInt8.ofNat).map UInt8.toNat = Utf8.encode text := by
    rw [List.map_map]
    refine List.map_congr_left (g := id) ?_ |>.trans (List.map_id _)
    intro b hb
    exact UInt8.toNat_ofNat_of_lt' (Utf8.encode_lt text b hb)
  rw [textOfBuffer, bufferOfText, hbytes, Utf8.decode_encode]

section Opens

variable (platform : Platform)

theorem encrypt_eq (provider : Provider) (iv : Iv) (value : Json) :
    ∃ key, provider.1.keys provider.1.currentVersion = some key ∧
      encrypt platform provider.1 iv value = .ok
        ⟨iv.1 ++ (platform.aes.cipher key iv.1 (bufferOfText (JsonText.stringify value))).2 ++
          (platform.aes.cipher key iv.1 (bufferOfText (JsonText.stringify value))).1,
          provider.1.currentVersion⟩ := by
  obtain ⟨key, hkey, hcurrent⟩ := exists_getCurrentKey provider.1
  have hcipher : createCipheriv platform key iv.1 = .ok (platform.aes.cipher key iv.1) :=
    if_neg (not_not.mpr (key_length provider hkey))
  refine ⟨key, hkey, ?_⟩
  rw [encrypt, hcurrent, ok_bind, hcipher]
  rfl

theorem decryptWithKey_cipher {key : Bytes} (hkey : key.length = keyLength) (iv : Iv) {value : Json}
    (hvalue : JsonText.IsValue value) :
    decryptWithKey platform
      (iv.1 ++ (platform.aes.cipher key iv.1 (bufferOfText (JsonText.stringify value))).2 ++
        (platform.aes.cipher key iv.1 (bufferOfText (JsonText.stringify value))).1) key =
      .ok value := by
  obtain ⟨hlong, hfirst, hsecond, hrest⟩ := frame_parts iv.2 (platform.aes.authTag_length key iv.1
    (bufferOfText (JsonText.stringify value)))
    (platform.aes.cipher key iv.1 (bufferOfText (JsonText.stringify value))).1
  have hdecipher : createDecipheriv platform key iv.1 = .ok (platform.aes.decipher key iv.1) :=
    if_neg (not_not.mpr hkey)
  rw [decryptWithKey, if_neg hlong]
  dsimp only
  rw [hfirst, hsecond, hrest, hdecipher, ok_bind, platform.aes.decipher_cipher, final, ok_bind,
    textOfBuffer_bufferOfText, jsonParse, JsonText.parse_stringify hvalue]

/-- What one ring has encrypted, every ring that keeps the version opens. -/
theorem exists_encrypt (provider : Provider) (iv : Iv) {value : Json}
    (hvalue : JsonText.IsValue value) :
    ∃ encrypted, encrypt platform provider.1 iv value = .ok encrypted ∧
      encrypted.keyVersion = provider.1.currentVersion ∧
      ∀ later : KeyRing, later.keys encrypted.keyVersion = provider.1.keys encrypted.keyVersion →
        decrypt platform later encrypted.ciphertext encrypted.keyVersion = .ok value := by
  obtain ⟨key, hkey, hencrypt⟩ := encrypt_eq platform provider iv value
  refine ⟨_, hencrypt, rfl, fun later hkeeps => ?_⟩
  rw [decrypt_of_keys hkeeps, ← decryptWithKey_eq hkey]
  exact decryptWithKey_cipher platform (key_length provider hkey) iv hvalue

end Opens

/-! ### Rotations -/

/-- A stored row, and the keys of the process that reads it. -/
structure Vault where
  provider : Provider
  row : StoredCredential

/-- The process is restarted with another key file, or reads the row. -/
inductive VaultEvent where
  | restart (later : Provider)
  | read (iv : Iv) (fault : Option ServiceError)

/-- A later ring has the key of the row. -/
def step (platform : Platform) (s : Vault) : VaultEvent → Option Vault
  | .restart later =>
    if later.1.keys s.row.keyVersion = s.provider.1.keys s.row.keyVersion then
      some { s with provider := later }
    else none
  | .read iv fault =>
    some { s with row := (lazyRotateKeyIfNeeded platform s.provider.1 iv fault s.row).1 }

def Vault.Opens (platform : Platform) (value : Json) (s : Vault) : Prop :=
  decrypt platform s.provider.1 s.row.credentialsEncrypted s.row.keyVersion = .ok value

/-- The row still opens to the value, and after a read that the repository did not fail it is
encrypted under the current key. -/
structure Kept (platform : Platform) (value : Json) (s : Vault) (e : VaultEvent) (s' : Vault) :
    Prop where
  opens : s'.Opens platform value
  rotated : ∀ iv, e = .read iv none →
    (lazyRotateKeyIfNeeded platform s.provider.1 iv none s.row).2 = .ok s'.row ∧
      requiresRotation s'.provider.1 s'.row.keyVersion = .ok false

section Rotations

variable {platform : Platform} {value : Json} (hvalue : JsonText.IsValue value)
include hvalue

/-- A row that opens is left alone, or encrypted again so that it opens. -/
theorem reencrypt_cases (provider : Provider) (iv : Iv) {row : StoredCredential}
    (hopens : Vault.Opens platform value ⟨provider, row⟩) :
    requiresRotation provider.1 row.keyVersion = .ok false ∧
        reencrypt platform provider.1 iv row = .ok none ∨
      ∃ rotated, reencrypt platform provider.1 iv row = .ok (some rotated) ∧
        Vault.Opens platform value ⟨provider, rotated⟩ ∧
        requiresRotation provider.1 rotated.keyVersion = .ok false := by
  have hrequired := requiresRotation_eq provider.1 row.keyVersion
  cases hsame : Number.strictEquals row.keyVersion provider.1.currentVersion with
  | true =>
    rw [hsame] at hrequired
    refine Or.inl ⟨hrequired, ?_⟩
    rw [reencrypt, hrequired]
    rfl
  | false =>
    rw [hsame] at hrequired
    obtain ⟨encrypted, hencrypt, hversion, hdecrypt⟩ := exists_encrypt platform provider iv hvalue
    refine Or.inr ⟨⟨encrypted.ciphertext, encrypted.keyVersion⟩, ?_, hdecrypt provider.1 rfl, ?_⟩
    · have hdecrypted : decrypt platform provider.1 row.credentialsEncrypted row.keyVersion =
          .ok value := hopens
      rw [reencrypt, hrequired, ok_bind, Bool.not_false, if_pos rfl, hdecrypted, ok_bind, hencrypt]
      rfl
    · dsimp only
      rw [hversion]
      exact requiresRotation_current provider

theorem kept_step {s s' : Vault} {e : VaultEvent} (hopens : s.Opens platform value)
    (hs : step platform s e = some s') : Kept platform value s e s' := by
  cases e with
  | restart later =>
    simp only [step] at hs
    split at hs
    next hkeeps =>
      cases hs
      exact ⟨(decrypt_of_keys hkeeps _).trans hopens, nofun⟩
    next => cases hs
  | read iv fault =>
    cases hs
    rcases reencrypt_cases hvalue s.provider iv hopens with
      ⟨hcurrent, hsame⟩ | ⟨rotated, hrotated, hrotatedOpens, hcurrent⟩
    · have hresult : lazyRotateKeyIfNeeded platform s.provider.1 iv fault s.row = (s.row, .ok s.row) := by
        rw [lazyRotateKeyIfNeeded, hsame]
      rw [hresult]
      refine ⟨hopens, fun iv' hread => ?_⟩
      cases hread
      rw [hresult]
      exact ⟨rfl, hcurrent⟩
    · cases fault with
      | some error =>
        have hresult : lazyRotateKeyIfNeeded platform s.provider.1 iv (some error) s.row =
            (s.row, .error error) := by
          rw [lazyRotateKeyIfNeeded, hrotated]
        rw [hresult]
        exact ⟨hopens, nofun⟩
      | none =>
        have hresult : lazyRotateKeyIfNeeded platform s.provider.1 iv none s.row =
            (rotated, .ok rotated) := by
          rw [lazyRotateKeyIfNeeded, hrotated]
        rw [hresult]
        refine ⟨hrotatedOpens, fun iv' hread => ?_⟩
        cases hread
        rw [hresult]
        exact ⟨rfl, hcurrent⟩

theorem kept_run {s : Vault} (hopens : s.Opens platform value) {events : List VaultEvent}
    (hrun : Run.Enabled (step platform) s events) :
    Run.All (step platform) (Kept platform value) s events := by
  refine Run.all_of_invariant (Vault.Opens platform value) (fun s e s' hs hstep _ => ?_) hopens hrun
  have hkept := kept_step hvalue hs hstep
  exact ⟨hkept.opens, hkept⟩

end Rotations

/-- What is encrypted opens under every later ring that keeps its version and after every run of
restarts and rotations; the two decryptions agree; short payloads and unknown versions are errors. -/
theorem stored_values_decrypt (platform : Platform) (provider : Provider) (iv : Iv) (value : Json)
    (hvalue : JsonText.IsValue value) :
    (∃ encrypted, encrypt platform provider.1 iv value = .ok encrypted ∧
      (∀ later : Provider,
        later.1.keys encrypted.keyVersion = provider.1.keys encrypted.keyVersion →
          decrypt platform later.1 encrypted.ciphertext encrypted.keyVersion = .ok value) ∧
      ∀ events,
        Run.Enabled (step platform) ⟨provider, encrypted.ciphertext, encrypted.keyVersion⟩ events →
          Run.All (step platform) (Kept platform value)
            ⟨provider, encrypted.ciphertext, encrypted.keyVersion⟩ events) ∧
    (∀ (ring : Provider) version key ciphertext, ring.1.keys version = some key →
      decryptWithKey platform ciphertext key = decrypt platform ring.1 ciphertext version) ∧
    (∀ (ring : Provider) version ciphertext,
      ciphertext.length < 28 ∨ ring.1.keys version = none →
        ∃ e, decrypt platform ring.1 ciphertext version = .error e) ∧
    ∀ ciphertext key, ciphertext.length < 28 →
      ∃ e, decryptWithKey platform ciphertext key = .error e := by
  obtain ⟨encrypted, hencrypt, -, hdecrypt⟩ := exists_encrypt platform provider iv hvalue
  have hstart : Vault.Opens platform value
      ⟨provider, encrypted.ciphertext, encrypted.keyVersion⟩ := hdecrypt provider.1 rfl
  refine ⟨⟨encrypted, hencrypt, fun later => hdecrypt later.1, fun events => ?_⟩, ?_, ?_, ?_⟩
  · exact kept_run hvalue hstart
  · exact fun ring version key ciphertext hkey => decryptWithKey_eq hkey ciphertext
  · exact fun ring version ciphertext h => decrypt_refused h
  · exact fun ciphertext key h => ⟨_, decryptWithKey_short h key⟩

/-! ### One key -/

def keyFileRuntime : KeyRuntime where
  configPath := some "/run/keys.json"
  file _ := some (.ok
    ("\x7b\"currentVersion\":1,\"keys\":\x7b\"1\":\"" ++ keyDigits ++ "\"\x7d\x7d"))
  syntaxError _ := ""
  bufferFrom _ := none

theorem exists_provider : ∃ provider : Provider, provider.1.currentVersion = .finite 1 := by
  have hconfigured : Configured keyFileRuntime (.finite 1) [("1", .str keyDigits)] :=
    ⟨"/run/keys.json", _,
      [("currentVersion", .num (.finite 1)), ("keys", .obj [("1", .str keyDigits)])], rfl, by decide,
      rfl, by decide +kernel, rfl, by decide +kernel⟩
  have hkey : BeginsWithKey keyFileRuntime (.str keyDigits) := by
    refine beginsWithKey_iff.mpr ⟨_, rfl, ?_⟩
    decide +kernel
  have hpasses : Passes keyFileRuntime (.finite 1) [("1", .str keyDigits)] :=
    ⟨by decide, List.cons_ne_nil _ _, List.forall_mem_singleton.mpr hkey,
      _, List.mem_singleton_self _, by decide +kernel⟩
  obtain ⟨ring, hload, hversion⟩ := exists_loadKeys hconfigured hpasses
  exact ⟨⟨ring, keyFileRuntime, hload⟩, hversion⟩

def plainPlatform : Platform := ⟨plainAes, fun _ => ""⟩

def apiKeyCredentials : Json := .obj (JsonText.stringMembers [("apiKey", "k")])

theorem stored_values_decrypt_apiKey :
    ∃ (provider : Provider) (encrypted : EncryptionResult),
      encrypt plainPlatform provider.1 zeroIv apiKeyCredentials = .ok encrypted ∧
      decrypt plainPlatform provider.1 encrypted.ciphertext encrypted.keyVersion =
        .ok apiKeyCredentials ∧
      Run.All (step plainPlatform) (Kept plainPlatform apiKeyCredentials)
        ⟨provider, encrypted.ciphertext, encrypted.keyVersion⟩ [.read zeroIv none] ∧
      ∃ e, decryptWithKey plainPlatform (List.replicate 27 0) (List.replicate 32 0) = .error e := by
  obtain ⟨provider, -⟩ := exists_provider
  have hvalue : JsonText.IsValue apiKeyCredentials :=
    JsonText.isValue_stringMembers (List.nodup_singleton _)
      (List.forall_mem_singleton.mpr (by decide +kernel))
  obtain ⟨⟨encrypted, hencrypt, hdecrypt, hruns⟩, -, -, hshort⟩ :=
    stored_values_decrypt plainPlatform provider zeroIv apiKeyCredentials hvalue
  exact ⟨provider, encrypted, hencrypt, hdecrypt provider rfl,
    hruns [.read zeroIv none] ⟨_, rfl, trivial, trivial⟩, hshort _ _ (by decide)⟩

end VcCommonService.Connectors.Encryption
