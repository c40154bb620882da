import VcCommonService.Connector.Service
import VcCommonService.Lib.Hex
import VcCommonService.Lib.NumberText
import VcCommonService.Lib.Stringify

/-!
# Loading the encryption keys (`key-provider.service.ts`)

The key file is JSON: a current version and a key for each version, in hexadecimal. The versions
are property names, read as numbers; the keys go through a decoder that stops at the first text
that is not a byte and reports nothing. What comes out is checked by its length alone. The decoder
sees code units, so the strings of the file are read with one character for each.
-/

namespace VcCommonService.Connectors
open Lib NumberText

/-! ### `KeyProviderService` -/

/-- The configured path, the files (`none` where there is none, a message where one cannot be
read), and the platform: messages of `JSON.parse`, and `Buffer.from(value, 'hex')` of values that
are not strings (`none` where it throws). -/
structure KeyRuntime where
  configPath : Option String
  file : String → Option (Except String String)
  syntaxError : String → String
  bufferFrom : Json → Option Bytes

abbrev KeyEntries := List (String × Json)

/-- The loaded state: a `Map` from versions to keys that has the current one. -/
structure KeyRing where
  currentVersion : Number
  keys : Number → Option Bytes
  keys_current : (keys currentVersion).isSome = true

def keyLength : ℕ := 32

def parseConfig (runtime : KeyRuntime) (contents : String) : Except ServiceError Json :=
  match JsonText.parseUnits contents with
  | some config => .ok config
  | none => .error (.error
      ("Unable to load encryption key configuration: " ++ runtime.syntaxError contents))

def readConfig (runtime : KeyRuntime) : Except ServiceError Json :=
  match Js.truthy runtime.configPath with
  | none => .error (.error "CONNECTOR_ENCRYPTION_KEYS_PATH is not configured.")
  | some configPath =>
    match runtime.file configPath with
    | none => .error (.error ("Encryption key file does not exist: " ++ configPath))
    | some (.error message) =>
      .error (.error ("Unable to load encryption key configuration: " ++ message))
    | some (.ok contents) => parseConfig runtime contents

/-- A property of the parsed file; only an object has those of the configuration. -/
def configField (config : Json) (name : String) : Option Json :=
  match config with
  | .obj members => Json.get members name
  | _ => none

/-- A number that is not falsy. -/
def numericVersion : Option Json → Option Number
  | some (.num version) => if version = .finite 0 ∨ version = .nan then none else some version
  | _ => none

/-- `Object.entries`; an array is an object whose names are its indices. -/
def keyEntries : Option Json → Option KeyEntries
  | some (.obj members) => some (JsonText.ownOrder (Json.entries members))
  | some (.arr elements) => some (elements.zipIdx.map fun element => (toString element.2, element.1))
  | _ => none

/-- The two fields, once they are checked. -/
def validateConfig (config : Json) : Except ServiceError (Number × KeyEntries) :=
  if config = .null then .error .typeError
  else
    match numericVersion (configField config "currentVersion") with
    | none => .error (.error "Encryption configuration requires a numeric currentVersion.")
    | some currentVersion =>
      match keyEntries (configField config "keys") with
      | none => .error (.error "Encryption configuration requires a keys object.")
      | some entries =>
        if entries.isEmpty then .error (.error "Encryption configuration contains no keys.")
        else .ok (currentVersion, entries)

def bufferFromHex (runtime : KeyRuntime) : Json → Option Bytes
  | .str text => some (Hex.decode text.toList)
  | value => runtime.bufferFrom value

def versionText (version : Number) : String := String.ofList (JsonText.numberText version)

def decodeKey (runtime : KeyRuntime) (value : Json) (version : Number) :
    Except ServiceError Bytes :=
  match bufferFromHex runtime value with
  | none => .error (.error
      ("Encryption key version " ++ versionText version ++ " is not valid hexadecimal."))
  | some key =>
    if key.length ≠ keyLength then .error (.error
      ("Encryption key version " ++ versionText version ++ " must be exactly 32 bytes (256 bits)."))
    else .ok key

def setKeys (runtime : KeyRuntime) (keys : Number → Option Bytes) :
    KeyEntries → Except ServiceError (Number → Option Bytes)
  | [] => .ok keys
  | (version, encodedKey) :: entries => do
    let numericVersion := stringToNumber version
    let key ← decodeKey runtime encodedKey numericVersion
    setKeys runtime (Function.update keys numericVersion (some key)) entries

def loadKeys (runtime : KeyRuntime) : Except ServiceError KeyRing := do
  let config ← readConfig runtime
  let (currentVersion, entries) ← validateConfig config
  let keys ← setKeys runtime (fun _ => none) entries
  if h : (keys currentVersion).isSome = true then return ⟨currentVersion, keys, h⟩
  else .error (.error
    ("Current encryption key version " ++ versionText currentVersion ++ " is not defined."))

/-! ### What a key file says -/

/-- The file is JSON with these two fields. -/
def Configured (runtime : KeyRuntime) (currentVersion : Number) (entries : KeyEntries) : Prop :=
  ∃ configPath contents members, runtime.configPath = some configPath ∧ configPath ≠ "" ∧
    runtime.file configPath = some (.ok contents) ∧ JsonText.parseUnits contents = some (.obj members) ∧
    Json.get members "currentVersion" = some (.num currentVersion) ∧
    keyEntries (Json.get members "keys") = some entries

def IntegerName (name : String) (n : ℤ) : Prop :=
  name = integerText n ∧ Number.ofRat n = .finite n

/-- Every entry is installed under its own version, with the bytes it spells in 64 digits. -/
structure Faithful (currentVersion : Number) (entries : KeyEntries) (ring : KeyRing) : Prop where
  installed : ∀ m ∈ entries, ∃ n text key, IntegerName m.1 n ∧ m.2 = .str text ∧
    Hex.Spells text.toList key ∧ key.length = keyLength ∧ ring.keys (.finite n) = some key
  distinct : (entries.map fun m => stringToNumber m.1).Nodup
  only : ∀ version, (ring.keys version).isSome = true →
    ∃ m ∈ entries, stringToNumber m.1 = version
  current : ring.currentVersion = currentVersion

/-- The low bytes have 64 digits at the front, and no further byte behind them. -/
def BeginsWithKey (runtime : KeyRuntime) : Json → Prop
  | .str text => ∃ digits rest, text.toList.map Hex.lowByte = digits ++ rest ∧
      digits.length = 2 * keyLength ∧ Hex.AllHex digits ∧ Hex.startsByte rest = false
  | value => ∃ key, runtime.bufferFrom value = some key ∧ key.length = keyLength

/-- What the loader asks of a file, and no more. -/
structure Passes (runtime : KeyRuntime) (currentVersion : Number) (entries : KeyEntries) :
    Prop where
  nonzero : currentVersion ≠ .finite 0 ∧ currentVersion ≠ .nan
  nonempty : entries ≠ []
  values : ∀ m ∈ entries, BeginsWithKey runtime m.2
  current : ∃ m ∈ entries, stringToNumber m.1 = currentVersion

/-- A decimal integer that is a number, with a text of 64 digits. -/
def WellFormed (m : String × Json) : Prop :=
  (∃ n, IntegerName m.1 n) ∧
    ∃ text, m.2 = .str text ∧ text.length = 2 * keyLength ∧ Hex.AllHex text.toList

section Load

variable {runtime : KeyRuntime}

/-! ### One key -/

theorem decodeKey_eq_ok_iff {value : Json} {version : Number} {key : Bytes} :
    decodeKey runtime value version = .ok key ↔
      bufferFromHex runtime value = some key ∧ key.length = keyLength := by
  unfold decodeKey
  split
  next hnone => simp [hnone]
  next key' hsome =>
    rw [hsome, Option.some_inj]
    split
    next hlength =>
      refine iff_of_false nofun ?_
      rintro ⟨rfl, hkey⟩
      exact hlength hkey
    next hlength =>
      rw [Except.ok.injEq]
      constructor
      · rintro rfl
        exact ⟨rfl, not_not.mp hlength⟩
      · exact And.left

theorem beginsWithKey_iff {value : Json} : BeginsWithKey runtime value ↔
    ∃ key, bufferFromHex runtime value = some key ∧ key.length = keyLength := by
  cases value with
  | str text =>
    have hbuffer : (∃ key, bufferFromHex runtime (.str text) = some key ∧ key.length = keyLength) ↔
        (Hex.decode text.toList).length = keyLength := by
      simp [bufferFromHex]
    rw [hbuffer, Hex.decode, Hex.length_decodePrefix_iff]
    rfl
  | _ => rfl

/-- Digits are read as what they spell. -/
theorem spells_of_allHex (runtime : KeyRuntime) {text : String}
    (hlength : text.length = 2 * keyLength) (hhex : Hex.AllHex text.toList) :
    ∃ key, Hex.Spells text.toList key ∧ key.length = keyLength ∧
      bufferFromHex runtime (.str text) = some key := by
  obtain ⟨key, hkey⟩ := Hex.exists_spells ((String.length_toList ..).trans hlength) hhex
  have hread : Hex.decodePrefix (text.toList ++ []) = key := Hex.decodePrefix_append hkey rfl
  rw [List.append_nil, ← hhex.lowByte] at hread
  refine ⟨key, hkey, ?_, congrArg some hread⟩
  have := hkey.length
  rw [String.length_toList] at this
  omega

/-! ### All keys -/

section SetKeys

variable {keys keys' : Number → Option Bytes} {entries : KeyEntries}

theorem setKeys_cons {m : String × Json} (h : setKeys runtime keys (m :: entries) = .ok keys') :
    ∃ key, bufferFromHex runtime m.2 = some key ∧ key.length = keyLength ∧
      setKeys runtime (Function.update keys (stringToNumber m.1) (some key)) entries = .ok keys' := by
  obtain ⟨key, hkey, hrest⟩ := bind_eq_ok.mp h
  obtain ⟨hbuffer, hlength⟩ := decodeKey_eq_ok_iff.mp hkey
  exact ⟨key, hbuffer, hlength, hrest⟩

theorem exists_setKeys (keys : Number → Option Bytes)
    (h : ∀ m ∈ entries, BeginsWithKey runtime m.2) : ∃ keys', setKeys runtime keys entries = .ok keys' := by
  induction entries generalizing keys with
  | nil => exact ⟨keys, rfl⟩
  | cons m entries ih =>
    obtain ⟨key, hkey⟩ := beginsWithKey_iff.mp (h m (List.mem_cons_self ..))
    obtain ⟨keys', hrest⟩ := ih (Function.update keys (stringToNumber m.1) (some key))
      fun m' hm' => h m' (List.mem_cons_of_mem _ hm')
    refine ⟨keys', ?_⟩
    have hdecode : decodeKey runtime m.2 (stringToNumber m.1) = .ok key :=
      decodeKey_eq_ok_iff.mpr hkey
    rw [setKeys, hdecode, ok_bind, hrest]

theorem setKeys_values (h : setKeys runtime keys entries = .ok keys') :
    ∀ m ∈ entries, BeginsWithKey runtime m.2 := by
  induction entries generalizing keys with
  | nil => exact nofun
  | cons m entries ih =>
    obtain ⟨key, hbuffer, hlength, hrest⟩ := setKeys_cons h
    intro m' hm'
    rcases List.mem_cons.mp hm' with rfl | hm'
    · exact beginsWithKey_iff.mpr ⟨key, hbuffer, hlength⟩
    · exact ih hrest m' hm'

theorem setKeys_other (h : setKeys runtime keys entries = .ok keys') {version : Number}
    (hversion : ∀ m ∈ entries, stringToNumber m.1 ≠ version) : keys' version = keys version := by
  induction entries generalizing keys with
  | nil =>
    cases h
    rfl
  | cons m entries ih =>
    obtain ⟨key, -, -, hrest⟩ := setKeys_cons h
    rw [ih hrest fun m' hm' => hversion m' (List.mem_cons_of_mem _ hm'),
      Function.update_of_ne (hversion m (List.mem_cons_self ..)).symm]

theorem setKeys_isSome (h : setKeys runtime keys entries = .ok keys') {version : Number} :
    (keys' version).isSome = true ↔
      (keys version).isSome = true ∨ ∃ m ∈ entries, stringToNumber m.1 = version := by
  induction entries generalizing keys with
  | nil =>
    cases h
    simp
  | cons m entries ih =>
    obtain ⟨key, -, -, hrest⟩ := setKeys_cons h
    rw [ih hrest, List.exists_mem_cons_iff, Function.update_apply]
    by_cases heq : version = stringToNumber m.1
    · simp [heq]
    · simp [heq, Ne.symm heq]

/-- Versions that differ do not overwrite each other. -/
theorem setKeys_at (h : setKeys runtime keys entries = .ok keys')
    (hdistinct : (entries.map fun m => stringToNumber m.1).Nodup) {m : String × Json}
    (hm : m ∈ entries) {key : Bytes} (hkey : bufferFromHex runtime m.2 = some key) :
    keys' (stringToNumber m.1) = some key := by
  induction entries generalizing keys with
  | nil => cases hm
  | cons first entries ih =>
    obtain ⟨firstKey, hfirst, -, hrest⟩ := setKeys_cons h
    obtain ⟨hnew, hdistinct⟩ := List.nodup_cons.mp hdistinct
    rcases List.mem_cons.mp hm with rfl | hm
    · have hother : ∀ m' ∈ entries, stringToNumber m'.1 ≠ stringToNumber m.1 :=
        fun m' hm' heq => hnew (List.mem_map.mpr ⟨m', hm', heq⟩)
      rw [setKeys_other hrest hother, Function.update_self, ← hfirst, hkey]
    · exact ih hrest hdistinct hm

end SetKeys

/-! ### A file -/

variable {currentVersion : Number} {entries : KeyEntries}

theorem readConfig_eq_ok_iff {config : Json} : readConfig runtime = .ok config ↔
    ∃ configPath contents, runtime.configPath = some configPath ∧ configPath ≠ "" ∧
      runtime.file configPath = some (.ok contents) ∧ JsonText.parseUnits contents = some config := by
  have hparse : ∀ contents, parseConfig runtime contents = .ok config ↔
      JsonText.parseUnits contents = some config := by
    intro contents
    unfold parseConfig
    split <;> simp_all
  constructor
  · intro h
    unfold readConfig at h
    split at h
    next => cases h
    next configPath hpath =>
      have hsome := Option.filter_eq_some_iff.mp hpath
      split at h
      next => cases h
      next => cases h
      next contents hfile =>
        exact ⟨configPath, contents, hsome.1, of_decide_eq_true hsome.2, hfile, (hparse _).mp h⟩
  · rintro ⟨configPath, contents, hpath, hne, hfile, hconfig⟩
    rw [readConfig, hpath, Js.truthy_some hne]
    dsimp only
    rw [hfile]
    exact (hparse contents).mpr hconfig

theorem numericVersion_eq_some_iff {value : Option Json} {version : Number} :
    numericVersion value = some version ↔
      value = some (.num version) ∧ version ≠ .finite 0 ∧ version ≠ .nan := by
  unfold numericVersion
  split
  next version' =>
    simp only [Option.some.injEq, Json.num.injEq]
    split
    next hfalsy =>
      refine iff_of_false nofun ?_
      rintro ⟨rfl, hnonzero⟩
      exact not_or.mpr hnonzero hfalsy
    next htruthy =>
      rw [Option.some_inj]
      constructor
      · rintro rfl
        exact ⟨rfl, not_or.mp htruthy⟩
      · exact And.left
  next hnot =>
    refine iff_of_false nofun ?_
    rintro ⟨rfl, -⟩
    exact hnot version rfl

theorem validateConfig_eq_ok_iff {config : Json} :
    validateConfig config = .ok (currentVersion, entries) ↔
      (∃ members, config = .obj members ∧
        Json.get members "currentVersion" = some (.num currentVersion) ∧
        keyEntries (Json.get members "keys") = some entries) ∧
      (currentVersion ≠ .finite 0 ∧ currentVersion ≠ .nan) ∧ entries ≠ [] := by
  constructor
  · intro h
    unfold validateConfig at h
    split at h
    next => cases h
    next =>
      split at h
      next => cases h
      next version hversion =>
        obtain ⟨hfield, hnonzero⟩ := numericVersion_eq_some_iff.mp hversion
        cases config with
        | obj members =>
          split at h
          next => cases h
          next entries' hentries =>
            split at h
            next => cases h
            next hne =>
              cases h
              exact ⟨⟨members, rfl, hfield, hentries⟩, hnonzero, fun hnil => hne (by rw [hnil]; rfl)⟩
        | _ => cases hfield
  · rintro ⟨⟨members, rfl, hversion, hentries⟩, hnonzero, hne⟩
    have hnumeric := numericVersion_eq_some_iff.mpr ⟨hversion, hnonzero⟩
    have hempty : entries.isEmpty = false := List.isEmpty_eq_false_iff.mpr hne
    simp [validateConfig, configField, hnumeric, hentries, hempty]

/-- What has been loaded was configured and passed the checks. -/
theorem loadKeys_eq_ok_iff {ring : KeyRing} : loadKeys runtime = .ok ring ↔
    ∃ entries, Configured runtime ring.currentVersion entries ∧
      (ring.currentVersion ≠ .finite 0 ∧ ring.currentVersion ≠ .nan) ∧ entries ≠ [] ∧
      setKeys runtime (fun _ => none) entries = .ok ring.keys := by
  constructor
  · intro h
    obtain ⟨config, hconfig, hafter⟩ := bind_eq_ok.mp h
    obtain ⟨⟨currentVersion, entries⟩, hvalid, hafter⟩ := bind_eq_ok.mp hafter
    obtain ⟨keys, hkeys, hring⟩ := bind_eq_ok.mp hafter
    obtain ⟨configPath, contents, hpath, hne, hfile, hparse⟩ := readConfig_eq_ok_iff.mp hconfig
    obtain ⟨⟨members, rfl, hversion, hentries⟩, hnonzero, hnonempty⟩ :=
      validateConfig_eq_ok_iff.mp hvalid
    split at hring
    · cases hring
      exact ⟨entries, ⟨configPath, contents, members, hpath, hne, hfile, hparse, hversion, hentries⟩,
        hnonzero, hnonempty, hkeys⟩
    · cases hring
  · rintro ⟨entries, ⟨configPath, contents, members, hpath, hne, hfile, hparse, hversion, hentries⟩,
      hnonzero, hnonempty, hkeys⟩
    have hconfig : readConfig runtime = .ok (.obj members) :=
      readConfig_eq_ok_iff.mpr ⟨configPath, contents, hpath, hne, hfile, hparse⟩
    have hvalid : validateConfig (.obj members) = .ok (ring.currentVersion, entries) :=
      validateConfig_eq_ok_iff.mpr ⟨⟨members, rfl, hversion, hentries⟩, hnonzero, hnonempty⟩
    rw [loadKeys, hconfig, ok_bind, hvalid, ok_bind]
    dsimp only
    rw [hkeys, ok_bind, dif_pos ring.keys_current]
    rfl

theorem toString_injective {i j : ℕ} (h : toString i = toString j) : i = j := by
  have hvalue : ∀ n : ℕ, JsonText.digitsValue (toString n).toList = n := by
    intro n
    rw [Nat.toString_eq_ofList_toDigits, String.toList_ofList]
    exact digitsValue_toDigits n
  rw [← hvalue i, h, hvalue j]

/-- An object has one property of a name. -/
theorem nodup_names {keysField : Option Json} (h : keyEntries keysField = some entries) :
    (entries.map Prod.fst).Nodup := by
  unfold keyEntries at h
  split at h
  next members =>
    cases h
    exact ((JsonText.perm_ownOrder _).map Prod.fst).nodup_iff.mpr (Json.nodup_entries members)
  next elements =>
    cases h
    have hnames : (elements.zipIdx.map fun element => (toString element.2, element.1)).map Prod.fst =
        (List.range' 0 elements.length).map toString := by
      rw [List.map_map, ← List.zipIdx_map_snd 0 elements, List.map_map]
      rfl
    rw [hnames]
    exact (List.nodup_range' 1).map fun i j => toString_injective
  next => cases h

/-! ### Faithful loading -/

theorem Faithful.wellFormed {ring : KeyRing} (h : Faithful currentVersion entries ring) :
    ∀ m ∈ entries, WellFormed m := by
  intro m hm
  obtain ⟨n, text, key, hname, htext, hspells, hlength, -⟩ := h.installed m hm
  refine ⟨⟨n, hname⟩, text, htext, ?_, hspells.allHex⟩
  rw [← String.length_toList, hspells.length, hlength]

theorem stringToNumber_of_integerName {name : String} {n : ℤ} (h : IntegerName name n) :
    stringToNumber name = .finite n := by
  rw [h.1, stringToNumber_integerText, h.2]

/-- Integer names that differ are different versions. -/
theorem nodup_versions (hnames : (entries.map Prod.fst).Nodup)
    (h : ∀ m ∈ entries, ∃ n, IntegerName m.1 n) :
    (entries.map fun m => stringToNumber m.1).Nodup := by
  have hversions : (entries.map fun m => stringToNumber m.1) =
      (entries.map Prod.fst).map stringToNumber := by
    rw [List.map_map, Function.comp_def]
  rw [hversions]
  refine hnames.map_on ?_
  intro name hname name' hname' heq
  obtain ⟨m, hm, rfl⟩ := List.mem_map.mp hname
  obtain ⟨m', hm', rfl⟩ := List.mem_map.mp hname'
  obtain ⟨n, hn⟩ := h m hm
  obtain ⟨n', hn'⟩ := h m' hm'
  rw [stringToNumber_of_integerName hn, stringToNumber_of_integerName hn'] at heq
  have hint : n = n' := by exact_mod_cast Number.finite.inj heq
  rw [hn.1, hn'.1, hint]

theorem faithful_of_wellFormed {ring : KeyRing} (hnames : (entries.map Prod.fst).Nodup)
    (hkeys : setKeys runtime (fun _ => none) entries = .ok ring.keys)
    (h : ∀ m ∈ entries, WellFormed m) : Faithful ring.currentVersion entries ring where
  installed m hm := by
    obtain ⟨⟨n, hname⟩, text, htext, hlength, hhex⟩ := h m hm
    obtain ⟨key, hspells, hkey, hbuffer⟩ := spells_of_allHex runtime hlength hhex
    have hat := setKeys_at hkeys (nodup_versions hnames fun m hm => (h m hm).1) hm
      (by rw [htext, hbuffer])
    rw [stringToNumber_of_integerName hname] at hat
    exact ⟨n, text, key, hname, htext, hspells, hkey, hat⟩
  distinct := nodup_versions hnames fun m hm => (h m hm).1
  only version hversion := by
    rcases (setKeys_isSome hkeys).mp hversion with hnone | hentry
    · cases hnone
    · exact hentry
  current := rfl

theorem exists_loadKeys (hconfigured : Configured runtime currentVersion entries)
    (hpasses : Passes runtime currentVersion entries) :
    ∃ ring, loadKeys runtime = .ok ring ∧ ring.currentVersion = currentVersion := by
  obtain ⟨keys, hkeys⟩ := exists_setKeys (fun _ => none) hpasses.values
  have hcurrent := (setKeys_isSome hkeys).mpr (Or.inr hpasses.current)
  refine ⟨⟨currentVersion, keys, hcurrent⟩, ?_, rfl⟩
  exact loadKeys_eq_ok_iff.mpr ⟨entries, hconfigured, hpasses.nonzero, hpasses.nonempty, hkeys⟩

theorem configured_unique {currentVersion' : Number} {entries' : KeyEntries}
    (h : Configured runtime currentVersion entries)
    (h' : Configured runtime currentVersion' entries') :
    currentVersion = currentVersion' ∧ entries = entries' := by
  obtain ⟨configPath, contents, members, hpath, -, hfile, hparse, hversion, hentries⟩ := h
  obtain ⟨_, _, _, hpath', -, hfile', hparse', hversion', hentries'⟩ := h'
  rw [hpath] at hpath'
  cases hpath'
  rw [hfile] at hfile'
  cases hfile'
  rw [hparse] at hparse'
  cases hparse'
  rw [hversion] at hversion'
  rw [hentries] at hentries'
  exact ⟨Json.num.inj (Option.some.inj hversion'), Option.some.inj hentries'⟩

/-- Whatever is loaded is the file's key ring, exactly if a file that passes has integer names
and keys of 64 digits. -/
theorem key_ring_faithful_iff (runtime : KeyRuntime) :
    (∀ ring, loadKeys runtime = .ok ring → ∃ currentVersion entries,
      Configured runtime currentVersion entries ∧ Faithful currentVersion entries ring) ↔
    ∀ currentVersion entries, Configured runtime currentVersion entries →
      Passes runtime currentVersion entries → ∀ m ∈ entries, WellFormed m := by
  constructor
  · intro hfaithful currentVersion entries hconfigured hpasses
    obtain ⟨ring, hring, -⟩ := exists_loadKeys hconfigured hpasses
    obtain ⟨currentVersion', entries', hconfigured', hring'⟩ := hfaithful ring hring
    obtain ⟨rfl, rfl⟩ := configured_unique hconfigured hconfigured'
    exact hring'.wellFormed
  · intro hwellFormed ring hring
    obtain ⟨entries, hconfigured, hnonzero, hnonempty, hkeys⟩ := loadKeys_eq_ok_iff.mp hring
    have hcurrent : ∃ m ∈ entries, stringToNumber m.1 = ring.currentVersion := by
      rcases (setKeys_isSome hkeys).mp ring.keys_current with hnone | hentry
      · cases hnone
      · exact hentry
    have hall := hwellFormed _ _ hconfigured ⟨hnonzero, hnonempty, setKeys_values hkeys, hcurrent⟩
    have hnames : (entries.map Prod.fst).Nodup := by
      obtain ⟨_, _, members, _, _, _, _, _, hentries⟩ := hconfigured
      exact nodup_names hentries
    exact ⟨_, _, hconfigured, faithful_of_wellFormed hnames hkeys hall⟩

end Load

/-! ### A key with text behind it -/

def keyDigits : String := "000102030405060708090a0b0c0d0e0f101112131415161718191a1b1c1d1e1f"

/-- 66 characters, of which the decoder reads 64. -/
def longKey : String := keyDigits ++ "zz"

def longKeyRuntime : KeyRuntime where
  configPath := some "/run/keys.json"
  file _ := some (.ok ("\x7b\"currentVersion\":1,\"keys\":\x7b\"1\":\"" ++ longKey ++ "\"\x7d\x7d"))
  syntaxError _ := ""
  bufferFrom _ := none

theorem longKey_configured : Configured longKeyRuntime (.finite 1) [("1", .str longKey)] :=
  ⟨"/run/keys.json", _, [("currentVersion", .num (.finite 1)), ("keys", .obj [("1", .str longKey)])],
    rfl, by decide, rfl, by decide +kernel, rfl, by decide +kernel⟩

theorem longKey_passes : Passes longKeyRuntime (.finite 1) [("1", .str longKey)] where
  nonzero := by decide
  nonempty := List.cons_ne_nil _ _
  values := by
    intro m hm
    rw [List.mem_singleton.mp hm]
    have hhex : keyDigits.toList.all (fun c => (Uri.hexValue c).isSome) = true := by decide +kernel
    exact ⟨keyDigits.toList, ['z', 'z'], by decide +kernel, by decide +kernel,
      List.all_eq_true.mp hhex, by decide⟩
  current := ⟨_, List.mem_singleton_self _, by decide +kernel⟩

theorem key_ring_not_faithful : ¬ ∀ (runtime : KeyRuntime) (ring : KeyRing),
    loadKeys runtime = .ok ring → ∃ currentVersion entries,
      Configured runtime currentVersion entries ∧ Faithful currentVersion entries ring := by
  intro hall
  obtain ⟨ring, hring, -⟩ := exists_loadKeys longKey_configured longKey_passes
  obtain ⟨currentVersion, entries, hconfigured, hfaithful⟩ := hall longKeyRuntime ring hring
  obtain ⟨rfl, rfl⟩ := configured_unique longKey_configured hconfigured
  obtain ⟨-, text, htext, hlength, -⟩ := hfaithful.wellFormed _ (List.mem_singleton_self _)
  rw [← Json.str.inj htext] at hlength
  revert hlength
  decide +kernel

end VcCommonService.Connectors
