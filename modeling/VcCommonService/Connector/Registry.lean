import VcCommonService.Connector.Rotation
import VcCommonService.Credential.Validators
import VcCommonService.Lib.Select

/-!
# Adapter resolution (`adapter-registry.service.ts`)

The registry picks a connector of a tenant and the adapter that implements its type. A list of the
tenant's connectors is read for every rule, and each connector of it that is encrypted under an
older key is decrypted and encrypted again on the way. The table is listed newest row first.
-/

namespace VcCommonService.Connectors.Registry
open Lib
open Credentials (CredentialFormat)

/-! ### Keys (`key-provider.service.ts`) -/

/-- The loaded keys; `loadKeys` refuses a configuration without the current one. -/
structure KeyProvider where
  keys : ℕ → Option Bytes
  currentVersion : ℕ
  currentKey : Bytes
  keys_current : keys currentVersion = some currentKey

def getKey (provider : KeyProvider) (version : ℕ) : Except ServiceError Bytes :=
  match provider.keys version with
  | none => .error (.error ("Encryption key version " ++ toString version ++ " is not configured."))
  | some key => .ok key

section Read

variable (aes : AesGcm) (provider : KeyProvider)

def decryptRow (row : ConnectorCredential) : Except ServiceError Bytes := do
  let key ← getKey provider row.keyVersion
  decrypt aes (fun _ => key) row.credentialsEncrypted row.keyVersion

/-- The entity after `lazyRotateKeyIfNeeded`. -/
def lazyRotateKeyIfNeeded (iv : Iv) (row : ConnectorCredential) :
    Except ServiceError ConnectorCredential :=
  if requiresRotation provider.currentVersion row.keyVersion then do
    let decrypted ← decryptRow aes provider row
    return row.store
      (encrypt aes (fun _ => provider.currentKey) provider.currentVersion iv decrypted)
  else return row

/-- `findByTenant` draws a nonce for each row; the first row that fails rejects the whole read. -/
def findByTenant (iv : String → Iv) (rows : List ConnectorCredential) (tenantId : TenantId) :
    Except ServiceError (List ConnectorCredential) :=
  (rows.filter fun row => decide (row.tenantId = tenantId)).mapM fun row =>
    lazyRotateKeyIfNeeded aes provider (iv row.id) row

end Read

/-! ### Adapters -/

inductive PortConnectorType where
  | traction
  | credo
  deriving Repr, DecidableEq

def PortConnectorType.value : PortConnectorType → String
  | .traction => "traction"
  | .credo => "credo"

def connectorTypeValue : ConnectorType → String
  | .traction => "traction"
  | .credo => "credo"

def portConnectorTypes : List PortConnectorType := [.traction, .credo]

def toPortConnectorType (connectorType : ConnectorType) : Option PortConnectorType :=
  portConnectorTypes.find? fun value => decide (value.value = connectorTypeValue connectorType)

/-- An adapter with the port methods `μ`; its formats are listed with the preferred one first. -/
structure AgentAdapter (μ : Type) where
  connectorType : PortConnectorType
  supportedFormats : List CredentialFormat
  methods : μ

/-- The registered adapters: one for a type, each with a format. -/
structure Adapters (μ : Type) where
  registered : List (AgentAdapter μ)
  nodup : (registered.map AgentAdapter.connectorType).Nodup
  supported : ∀ adapter ∈ registered, adapter.supportedFormats ≠ []

section Registry

variable {μ : Type}

def register (adapters : Adapters μ) (adapter : AgentAdapter μ) :
    Except ServiceError (Adapters μ) :=
  if hnew : adapter.connectorType ∈ adapters.registered.map AgentAdapter.connectorType then
    .error (.error ("An adapter is already registered for connector type '" ++
      adapter.connectorType.value ++ "'"))
  else if hformats : adapter.supportedFormats = [] then
    .error (.error ("Adapter for connector type '" ++ adapter.connectorType.value ++
      "' declares no supported formats"))
  else .ok
    { registered := adapters.registered ++ [adapter]
      nodup := by
        rw [List.map_append, List.nodup_append]
        refine ⟨adapters.nodup, List.nodup_singleton _, fun t ht t' ht' heq => hnew ?_⟩
        rw [List.map_singleton, List.mem_singleton] at ht'
        exact ht' ▸ heq ▸ ht
      supported := by
        intro other hother
        rcases List.mem_append.mp hother with hother | hother
        · exact adapters.supported other hother
        · rw [List.mem_singleton.mp hother]
          exact hformats }

/-- Errors of the registry: two of the adapter family, the gate's, and those of the services. -/
inductive RegistryError where
  | connectorUnavailable (message : String)
  | formatNotSupported (message : String)
  | forbidden (message : String)
  | service (error : ServiceError)
  deriving Repr, DecidableEq

structure ResolveOptions where
  connectorId : Option String := none
  adapterOverride : Option PortConnectorType := none
  isPlatformAdmin : Bool := false
  deriving Repr, DecidableEq

structure ConnectorContext where
  connectorId : String
  tenantId : TenantId
  endpointUrl : String
  credentials : Bytes
  deriving Repr, DecidableEq

structure ResolvedAdapter (μ : Type) where
  adapter : AgentAdapter μ
  connector : ConnectorCredential
  context : ConnectorContext
  format : Option CredentialFormat

/-- What the registry reads: the keys, the table, the configurations of the tenants, the adapters
and `ADAPTER_OVERRIDE_ENABLED`, a boolean or a text. -/
structure Env (μ : Type) where
  aes : AesGcm
  provider : KeyProvider
  iv : String → Iv
  rows : List ConnectorCredential
  tenants : TenantId → Option Json.Members
  adapters : Adapters μ
  overrideSetting : Option (Bool ⊕ String)

def getByConnectorType (adapters : Adapters μ) (connectorType : PortConnectorType) :
    Except RegistryError (AgentAdapter μ) :=
  match adapters.registered.find? fun adapter => decide (adapter.connectorType = connectorType) with
  | none => .error (.connectorUnavailable ("No adapter is registered for connector type '" ++
      connectorType.value ++ "'"))
  | some adapter => .ok adapter

def overrideEnabled : Option (Bool ⊕ String) → Bool
  | some (.inl enabled) => enabled
  | some (.inr text) => decide (text = "true")
  | none => false

def resolveOverride (setting : Option (Bool ⊕ String)) (options : ResolveOptions) :
    Except RegistryError (Option PortConnectorType) :=
  match options.adapterOverride with
  | none => .ok none
  | some connectorType =>
    if !overrideEnabled setting then .error (.forbidden "Adapter override is disabled")
    else if !options.isPlatformAdmin then
      .error (.forbidden "Adapter override requires the platform-admin role")
    else .ok (some connectorType)

variable (env : Env μ)

def connectorsOf (tenantId : TenantId) : Except RegistryError (List ConnectorCredential) :=
  (findByTenant env.aes env.provider env.iv env.rows tenantId).mapError .service

def buildContext (connector : ConnectorCredential) : Except RegistryError ConnectorContext := do
  let credentials ← (decryptRow env.aes env.provider connector).mapError .service
  return ⟨connector.id, connector.tenantId, connector.endpointUrl, credentials⟩

/-- The default of a configuration, if it is a text that is not empty. -/
def defaultConnector (config : Json.Members) : Option String :=
  match Json.get config "default_connector" with
  | some (.str configured) => Js.truthy (some configured)
  | _ => none

def readDefaultConnector (tenantId : TenantId) : Except RegistryError (Option String) :=
  match env.tenants tenantId with
  | none => .error (.service (.notFound "Tenant not found"))
  | some config => .ok (defaultConnector config)

def isCandidate (connectorType : Option PortConnectorType) (connector : ConnectorCredential) :
    Bool :=
  connector.active && connectorType.all fun wanted =>
    decide (toPortConnectorType connector.connectorType = some wanted)

def noActiveMessage (tenantId : TenantId) (connectorType : Option PortConnectorType) : String :=
  "Tenant '" ++ tenantId ++ "' has no active connector" ++
    match connectorType with
    | some connectorType => " of type '" ++ connectorType.value ++ "'"
    | none => ""

def ambiguousMessage (tenantId : TenantId) (connectorType : Option PortConnectorType) (n : ℕ) :
    String :=
  match connectorType with
  | some connectorType => "Tenant '" ++ tenantId ++ "' has " ++ toString n ++
      " active connectors of type '" ++ connectorType.value ++ "'"
  | none => "Tenant '" ++ tenantId ++ "' has " ++ toString n ++
      " active connectors and no default_connector configured"

def findSoleActiveConnector (tenantId : TenantId) (connectorType : Option PortConnectorType) :
    Except RegistryError ConnectorCredential := do
  match (← connectorsOf env tenantId).filter (isCandidate connectorType) with
  | [] => .error (.connectorUnavailable (noActiveMessage tenantId connectorType))
  | [connector] => .ok connector
  | connectors => .error (.connectorUnavailable
      (ambiguousMessage tenantId connectorType connectors.length))

def findExplicitConnector (tenantId : TenantId) (explicitId : String) :
    Except RegistryError ConnectorCredential := do
  match (← connectorsOf env tenantId).find? fun candidate => decide (candidate.id = explicitId) with
  | none => .error (.connectorUnavailable
      ("Connector '" ++ explicitId ++ "' was not found for tenant '" ++ tenantId ++ "'"))
  | some connector =>
    if connector.active then .ok connector
    else .error (.connectorUnavailable ("Connector '" ++ explicitId ++ "' is not active"))

/-- `connectorId ?? (await readDefaultConnector(tenantId))`. -/
def explicitIdOf (tenantId : TenantId) (connectorId : Option String) :
    Except RegistryError (Option String) :=
  match connectorId with
  | some id => .ok (some id)
  | none => readDefaultConnector env tenantId

def findConnector (tenantId : TenantId) (connectorId : Option String) :
    Except RegistryError ConnectorCredential := do
  match Js.truthy (← explicitIdOf env tenantId connectorId) with
  | none => findSoleActiveConnector env tenantId none
  | some explicitId => findExplicitConnector env tenantId explicitId

def selectFormat (adapter : AgentAdapter μ) (format : Option CredentialFormat) :
    Except RegistryError (Option CredentialFormat) :=
  match format with
  | none => .ok adapter.supportedFormats.head?
  | some format =>
    if adapter.supportedFormats.contains format then .ok (some format)
    else .error (.formatNotSupported ("Credential format not supported: " ++ format.value))

def resolveWith (adapter : AgentAdapter μ) (connector : ConnectorCredential)
    (format : Option CredentialFormat) : Except RegistryError (ResolvedAdapter μ) := do
  let context ← buildContext env connector
  let format ← selectFormat adapter format
  return { adapter, connector, context, format }

def resolve (tenantId : TenantId) (format : Option CredentialFormat) (options : ResolveOptions) :
    Except RegistryError (ResolvedAdapter μ) := do
  match ← resolveOverride env.overrideSetting options with
  | some override =>
    let adapter ← getByConnectorType env.adapters override
    let connector ← findSoleActiveConnector env tenantId (some override)
    resolveWith env adapter connector format
  | none =>
    let connector ← findConnector env tenantId options.connectorId
    match toPortConnectorType connector.connectorType with
    | none => .error (.connectorUnavailable
        ("Unknown connector type '" ++ connectorTypeValue connector.connectorType ++ "'"))
    | some connectorType =>
      let adapter ← getByConnectorType env.adapters connectorType
      resolveWith env adapter connector format

end Registry

/-! ### Rotation keeps the connector -/

section Rotation

variable (aes : AesGcm) (provider : KeyProvider)

/-- The row can be read in a list: it is current, or it decrypts. -/
def Rotates (row : ConnectorCredential) : Prop :=
  requiresRotation provider.currentVersion row.keyVersion = true →
    ∃ plaintext, decryptRow aes provider row = .ok plaintext

/-- Every row of the tenant can be read in a list. -/
def Readable (rows : List ConnectorCredential) (tenantId : TenantId) : Prop :=
  ∀ row ∈ rows, row.tenantId = tenantId → Rotates aes provider row

/-- The row as a list read returns it. -/
def rotated (iv : Iv) (row : ConnectorCredential) : ConnectorCredential :=
  match lazyRotateKeyIfNeeded aes provider iv row with
  | .ok row' => row'
  | .error _ => row

theorem lazyRotateKeyIfNeeded_cases (iv : Iv) (row : ConnectorCredential) :
    (∃ e, lazyRotateKeyIfNeeded aes provider iv row = .error e ∧
      requiresRotation provider.currentVersion row.keyVersion = true ∧
      decryptRow aes provider row = .error e) ∨
    (lazyRotateKeyIfNeeded aes provider iv row = .ok row ∧ Rotates aes provider row) ∨
    ∃ plaintext, decryptRow aes provider row = .ok plaintext ∧
      lazyRotateKeyIfNeeded aes provider iv row = .ok (row.store
        (encrypt aes (fun _ => provider.currentKey) provider.currentVersion iv plaintext)) := by
  unfold lazyRotateKeyIfNeeded Rotates
  cases hrequired : requiresRotation provider.currentVersion row.keyVersion with
  | false => exact .inr (.inl ⟨rfl, nofun⟩)
  | true =>
    cases hdecrypt : decryptRow aes provider row with
    | error e => exact .inl ⟨e, rfl, rfl, rfl⟩
    | ok plaintext => exact .inr (.inr ⟨plaintext, rfl, rfl⟩)

variable {aes provider}

/-- A row stored under the current key decrypts to what was stored. -/
theorem decryptRow_store (iv : Iv) (row : ConnectorCredential) (plaintext : Bytes) :
    decryptRow aes provider (row.store
      (encrypt aes (fun _ => provider.currentKey) provider.currentVersion iv plaintext)) =
        .ok plaintext := by
  have hkey : getKey provider provider.currentVersion = .ok provider.currentKey := by
    rw [getKey, provider.keys_current]
  unfold decryptRow
  change (getKey provider provider.currentVersion >>= _) = _
  rw [hkey, ok_bind]
  exact decrypt_encrypt aes (fun _ => provider.currentKey) provider.currentVersion iv plaintext

/-- What a list read leaves alone. -/
structure SameConnector (row row' : ConnectorCredential) : Prop where
  id : row'.id = row.id
  tenantId : row'.tenantId = row.tenantId
  connectorType : row'.connectorType = row.connectorType
  endpointUrl : row'.endpointUrl = row.endpointUrl
  active : row'.active = row.active

theorem sameConnector_rotated (iv : Iv) (row : ConnectorCredential) :
    SameConnector row (rotated aes provider iv row) := by
  unfold rotated
  rcases lazyRotateKeyIfNeeded_cases aes provider iv row with ⟨e, h, -⟩ | ⟨h, -⟩ | ⟨plaintext, -, h⟩
  · rw [h]
    exact ⟨rfl, rfl, rfl, rfl, rfl⟩
  · rw [h]
    exact ⟨rfl, rfl, rfl, rfl, rfl⟩
  · rw [h]
    exact ⟨rfl, rfl, rfl, rfl, rfl⟩

theorem decryptRow_rotated (iv : Iv) (row : ConnectorCredential) :
    decryptRow aes provider (rotated aes provider iv row) = decryptRow aes provider row := by
  unfold rotated
  rcases lazyRotateKeyIfNeeded_cases aes provider iv row with ⟨e, h, -⟩ | ⟨h, -⟩ | ⟨plaintext, hp, h⟩
  · rw [h]
  · rw [h]
  · rw [h, hp]
    exact decryptRow_store iv row plaintext

theorem lazyRotateKeyIfNeeded_ok_iff (iv : Iv) (row : ConnectorCredential) :
    lazyRotateKeyIfNeeded aes provider iv row = .ok (rotated aes provider iv row) ↔
      Rotates aes provider row := by
  unfold rotated
  rcases lazyRotateKeyIfNeeded_cases aes provider iv row with
    ⟨e, h, hrequired, herror⟩ | ⟨h, hrotates⟩ | ⟨plaintext, hp, h⟩
  · rw [h]
    refine iff_of_false nofun fun hrotates => ?_
    obtain ⟨plaintext, hplaintext⟩ := hrotates hrequired
    rw [herror] at hplaintext
    cases hplaintext
  · rw [h]
    exact iff_of_true rfl hrotates
  · rw [h]
    exact iff_of_true rfl fun _ => ⟨plaintext, hp⟩

theorem findByTenant_ok {iv : String → Iv} {rows : List ConnectorCredential} {tenantId : TenantId}
    (h : Readable aes provider rows tenantId) :
    findByTenant aes provider iv rows tenantId =
      .ok ((rows.filter fun row => decide (row.tenantId = tenantId)).map fun row =>
        rotated aes provider (iv row.id) row) := by
  refine mapM_ok fun row hrow => (lazyRotateKeyIfNeeded_ok_iff _ row).mpr ?_
  obtain ⟨hmem, htenant⟩ := List.mem_filter.mp hrow
  exact h row hmem (of_decide_eq_true htenant)

/-- A list read that returns has read every row of the tenant. -/
theorem readable_of_findByTenant {iv : String → Iv} {rows found : List ConnectorCredential}
    {tenantId : TenantId} (h : findByTenant aes provider iv rows tenantId = .ok found) :
    Readable aes provider rows tenantId := by
  intro row hrow htenant
  obtain ⟨row', hrotate⟩ := ok_of_mapM h row (List.mem_filter.mpr ⟨hrow, decide_eq_true htenant⟩)
  refine (lazyRotateKeyIfNeeded_ok_iff (iv row.id) row).mp ?_
  rw [rotated, hrotate]

end Rotation

/-! ### The rules -/

inductive Rule where
  | override (connectorType : PortConnectorType)
  | byId (id : String)
  | sole
  deriving Repr, DecidableEq

/-- The active connectors of the tenant that a rule may pick. -/
def Rule.admits (tenantId : TenantId) (connector : ConnectorCredential) : Rule → Bool
  | .override connectorType => decide (connector.tenantId = tenantId) &&
      isCandidate (some connectorType) connector
  | .byId id => decide (connector.id = id) &&
      (decide (connector.tenantId = tenantId) && connector.active)
  | .sole => decide (connector.tenantId = tenantId) && isCandidate none connector

section Rules

variable {μ : Type} (env : Env μ) (tenantId : TenantId)

/-- The first rule that applies, in the documented order; without the tenant there is no default
to read. -/
def firstRule (options : ResolveOptions) : Option Rule :=
  match options.adapterOverride, options.connectorId with
  | some connectorType, _ => some (.override connectorType)
  | none, some id => some (.byId id)
  | none, none => (env.tenants tenantId).map fun config =>
      match defaultConnector config with
      | some id => .byId id
      | none => .sole

def idRule (explicitId : Option String) : Rule :=
  match Js.truthy explicitId with
  | none => .sole
  | some id => .byId id

/-- The rule that `resolve` follows. -/
def followedRule (options : ResolveOptions) : Except RegistryError Rule := do
  match ← resolveOverride env.overrideSetting options with
  | some connectorType => return .override connectorType
  | none => return idRule (← explicitIdOf env tenantId options.connectorId)

def pick : Rule → Except RegistryError ConnectorCredential
  | .override connectorType => findSoleActiveConnector env tenantId (some connectorType)
  | .byId id => findExplicitConnector env tenantId id
  | .sole => findSoleActiveConnector env tenantId none

/-- The rows as a list read returns them. -/
def Env.read (row : ConnectorCredential) : ConnectorCredential :=
  rotated env.aes env.provider (env.iv row.id) row

variable {env tenantId}

theorem connectorsOf_ok
    (h : Readable env.aes env.provider env.rows tenantId) :
    connectorsOf env tenantId =
      .ok ((env.rows.filter fun row => decide (row.tenantId = tenantId)).map env.read) := by
  rw [connectorsOf, findByTenant_ok h]
  rfl

theorem sameConnector_read (row : ConnectorCredential) : SameConnector row (env.read row) :=
  sameConnector_rotated _ row

theorem isCandidate_read (connectorType : Option PortConnectorType) (row : ConnectorCredential) :
    isCandidate connectorType (env.read row) = isCandidate connectorType row := by
  have hsame : SameConnector row (env.read row) := sameConnector_read row
  unfold isCandidate
  rw [hsame.active, hsame.connectorType]

theorem findSoleActiveConnector_ok_iff
    (h : Readable env.aes env.provider env.rows tenantId)
    (connectorType : Option PortConnectorType) (connector : ConnectorCredential) :
    findSoleActiveConnector env tenantId connectorType = .ok connector ↔
      ∃ c, (env.rows.filter fun row => decide (row.tenantId = tenantId) &&
        isCandidate connectorType row) = [c] ∧ connector = env.read c := by
  have hfilter : ((env.rows.filter fun row => decide (row.tenantId = tenantId)).map env.read).filter
      (isCandidate connectorType) = (env.rows.filter fun row =>
        decide (row.tenantId = tenantId) && isCandidate connectorType row).map env.read := by
    rw [List.filter_map, List.filter_filter]
    refine congrArg (List.map env.read) (List.filter_congr fun row _ => ?_)
    rw [Function.comp_apply, isCandidate_read, Bool.and_comm]
  rw [findSoleActiveConnector, connectorsOf_ok h, ok_bind, hfilter]
  cases hrows : env.rows.filter fun row =>
      decide (row.tenantId = tenantId) && isCandidate connectorType row with
  | nil => simp
  | cons c rest =>
    cases rest with
    | nil => simp [eq_comm]
    | cons d rest => simp

theorem findExplicitConnector_ok_iff
    (h : Readable env.aes env.provider env.rows tenantId)
    (hu : Table.UniqueKeys ConnectorCredential.id env.rows) (id : String)
    (connector : ConnectorCredential) :
    findExplicitConnector env tenantId id = .ok connector ↔
      ∃ c, (env.rows.filter fun row => decide (row.id = id) &&
        (decide (row.tenantId = tenantId) && row.active)) = [c] ∧ connector = env.read c := by
  have hfind : ((env.rows.filter fun row => decide (row.tenantId = tenantId)).map env.read).find?
      (fun candidate => decide (candidate.id = id)) =
        ((Table.lookup ConnectorCredential.id id env.rows).filter fun row =>
          decide (row.tenantId = tenantId)).map env.read := by
    rw [List.find?_map, ← List.head?_filter, List.filter_filter]
    have hcomp : ((fun candidate : ConnectorCredential => decide (candidate.id = id)) ∘ env.read) =
        fun row => decide (row.id = id) :=
      funext fun row => by rw [Function.comp_apply, (sameConnector_read row).id]
    rw [hcomp, Table.filter_key hu]
    cases (Table.lookup ConnectorCredential.id id env.rows).filter _ <;> rfl
  rw [findExplicitConnector, connectorsOf_ok h, ok_bind, hfind, Table.filter_key hu]
  cases Table.lookup ConnectorCredential.id id env.rows with
  | none => simp
  | some c =>
    have hread : (env.read c).active = c.active := (sameConnector_read c).active
    rw [Option.filter_some, Option.filter_some]
    by_cases htenant : c.tenantId = tenantId
    · rw [if_pos (decide_eq_true htenant), decide_eq_true htenant, Bool.true_and, Option.map_some]
      dsimp only
      rw [hread]
      cases c.active with
      | false => simp
      | true => simp [eq_comm]
    · rw [if_neg (by simpa using htenant), decide_eq_false htenant, Bool.false_and]
      simp

theorem pick_ok_iff
    (h : Readable env.aes env.provider env.rows tenantId)
    (hu : Table.UniqueKeys ConnectorCredential.id env.rows) (rule : Rule)
    (connector : ConnectorCredential) :
    pick env tenantId rule = .ok connector ↔
      ∃ c, (env.rows.filter fun row => rule.admits tenantId row) = [c] ∧ connector = env.read c := by
  cases rule with
  | override connectorType => exact findSoleActiveConnector_ok_iff h _ connector
  | byId id => exact findExplicitConnector_ok_iff h hu id connector
  | sole => exact findSoleActiveConnector_ok_iff h _ connector

end Rules

/-! ### The adapter and the format -/

section Adapter

variable {μ : Type} {env : Env μ} {tenantId : TenantId}

/-- The two enumerations carry the same texts. -/
theorem exists_portConnectorType (connectorType : ConnectorType) :
    ∃ port, toPortConnectorType connectorType = some port := by
  cases connectorType with
  | traction => exact ⟨.traction, by decide⟩
  | credo => exact ⟨.credo, by decide⟩

theorem getByConnectorType_ok_iff (adapters : Adapters μ) (connectorType : PortConnectorType)
    (adapter : AgentAdapter μ) :
    getByConnectorType adapters connectorType = .ok adapter ↔
      adapter ∈ adapters.registered ∧ adapter.connectorType = connectorType := by
  rw [← Table.lookup_eq_some_iff adapters.nodup]
  unfold getByConnectorType Table.lookup
  cases adapters.registered.find? fun adapter => decide (adapter.connectorType = connectorType) with
  | none => simp
  | some found => simp

/-- The requested format if the adapter supports it, else the preferred one if none is requested. -/
def IsFormat (adapter : AgentAdapter μ) (format selected : Option CredentialFormat) : Prop :=
  ∃ f ∈ adapter.supportedFormats, selected = some f ∧
    match format with
    | none => adapter.supportedFormats.head? = some f
    | some wanted => f = wanted

theorem selectFormat_ok_iff (adapters : Adapters μ) {adapter : AgentAdapter μ}
    (hadapter : adapter ∈ adapters.registered) (format selected : Option CredentialFormat) :
    selectFormat adapter format = .ok selected ↔ IsFormat adapter format selected := by
  unfold selectFormat IsFormat
  cases format with
  | none =>
    cases hformats : adapter.supportedFormats with
    | nil => exact absurd hformats (adapters.supported adapter hadapter)
    | cons primary rest => simp [eq_comm]
  | some wanted =>
    by_cases hwanted : wanted ∈ adapter.supportedFormats
    · simp [hwanted, eq_comm]
    · simp [hwanted]

theorem resolveWith_ok_iff {adapter : AgentAdapter μ} {connector : ConnectorCredential}
    (hadapter : adapter ∈ env.adapters.registered) (format : Option CredentialFormat)
    (r : ResolvedAdapter μ) :
    resolveWith env adapter connector format = .ok r ↔
      r.adapter = adapter ∧ r.connector = connector ∧ IsFormat adapter format r.format ∧
        ∃ credentials, decryptRow env.aes env.provider connector = .ok credentials ∧
          r.context = ⟨connector.id, connector.tenantId, connector.endpointUrl, credentials⟩ := by
  unfold resolveWith buildContext
  constructor
  · intro h
    obtain ⟨context, hcontext, h⟩ := bind_eq_ok.mp h
    obtain ⟨credentials, hcredentials, hcontext⟩ := bind_eq_ok.mp hcontext
    obtain ⟨selected, hselected, h⟩ := bind_eq_ok.mp h
    cases hcontext
    cases h
    exact ⟨rfl, rfl, (selectFormat_ok_iff env.adapters hadapter format selected).mp hselected,
      credentials, mapError_eq_ok.mp hcredentials, rfl⟩
  · rintro ⟨rfl, rfl, hformat, credentials, hcredentials, hcontext⟩
    have hselected := (selectFormat_ok_iff env.adapters hadapter format r.format).mpr hformat
    refine bind_eq_ok.mpr ⟨_, bind_eq_ok.mpr ⟨credentials, mapError_eq_ok.mpr hcredentials, rfl⟩,
      bind_eq_ok.mpr ⟨r.format, hselected, ?_⟩⟩
    rw [← hcontext]
    rfl

theorem findConnector_eq (env : Env μ) (tenantId : TenantId) (connectorId : Option String) :
    findConnector env tenantId connectorId =
      explicitIdOf env tenantId connectorId >>= fun id => pick env tenantId (idRule id) := by
  unfold findConnector
  refine bind_congr fun id => ?_
  unfold idRule
  cases Js.truthy id <;> rfl

theorem mem_of_chosen {rule : Rule} {c : ConnectorCredential}
    (h : (env.rows.filter fun row => rule.admits tenantId row) = [c]) :
    c ∈ env.rows ∧ rule.admits tenantId c = true := by
  have hmem : c ∈ env.rows.filter fun row => rule.admits tenantId row := by
    rw [h]
    exact List.mem_singleton_self c
  exact List.mem_filter.mp hmem

theorem portType_of_override {connectorType : PortConnectorType} {c : ConnectorCredential}
    (h : (env.rows.filter fun row => (Rule.override connectorType).admits tenantId row) = [c]) :
    toPortConnectorType c.connectorType = some connectorType := by
  have hadmits := (mem_of_chosen h).2
  simp only [Rule.admits, isCandidate, Option.all_some, Bool.and_eq_true, decide_eq_true_eq] at hadmits
  exact hadmits.2.2

/-- `resolve` follows one rule and takes the adapter of the connector's type. -/
theorem resolve_ok_iff
    (h : Readable env.aes env.provider env.rows tenantId)
    (hu : Table.UniqueKeys ConnectorCredential.id env.rows) (format : Option CredentialFormat)
    (options : ResolveOptions) (r : ResolvedAdapter μ) :
    resolve env tenantId format options = .ok r ↔
      ∃ rule c, followedRule env tenantId options = .ok rule ∧
        (env.rows.filter fun row => rule.admits tenantId row) = [c] ∧
        r.adapter ∈ env.adapters.registered ∧
        toPortConnectorType c.connectorType = some r.adapter.connectorType ∧
        resolveWith env r.adapter (env.read c) format = .ok r := by
  have hadapter : ∀ {adapter connector}, adapter ∈ env.adapters.registered →
      resolveWith env adapter connector format = .ok r → r.adapter = adapter :=
    fun hregistered hr => ((resolveWith_ok_iff hregistered format r).mp hr).1
  unfold resolve followedRule
  cases resolveOverride env.overrideSetting options with
  | error e => simp [bind, Except.bind]
  | ok override =>
    rw [ok_bind, ok_bind]
    cases override with
    | some connectorType =>
      dsimp only
      constructor
      · intro hr
        obtain ⟨adapter, hget, hr⟩ := bind_eq_ok.mp hr
        obtain ⟨connector, hpick, hr⟩ := bind_eq_ok.mp hr
        obtain ⟨hregistered, htype⟩ := (getByConnectorType_ok_iff _ _ adapter).mp hget
        obtain ⟨c, hchosen, rfl⟩ := (findSoleActiveConnector_ok_iff h _ connector).mp hpick
        obtain rfl := hadapter hregistered hr
        exact ⟨.override connectorType, c, rfl, hchosen, hregistered,
          htype ▸ portType_of_override hchosen, hr⟩
      · rintro ⟨rule, c, hrule, hchosen, hregistered, htype, hr⟩
        cases hrule
        have hsame : r.adapter.connectorType = connectorType := by
          rw [portType_of_override hchosen] at htype
          exact (Option.some.inj htype).symm
        exact bind_eq_ok.mpr ⟨r.adapter, (getByConnectorType_ok_iff _ _ _).mpr ⟨hregistered, hsame⟩,
          bind_eq_ok.mpr ⟨env.read c,
            (findSoleActiveConnector_ok_iff h _ _).mpr ⟨c, hchosen, rfl⟩, hr⟩⟩
    | none =>
      have htypes : ∀ c, (env.read c).connectorType = c.connectorType :=
        fun c => (sameConnector_read c).connectorType
      dsimp only
      rw [findConnector_eq]
      constructor
      · intro hr
        obtain ⟨connector, hpick, hr⟩ := bind_eq_ok.mp hr
        obtain ⟨id, hid, hpick⟩ := bind_eq_ok.mp hpick
        obtain ⟨c, hchosen, rfl⟩ := (pick_ok_iff h hu _ connector).mp hpick
        obtain ⟨port, hport⟩ := exists_portConnectorType c.connectorType
        rw [htypes, hport] at hr
        obtain ⟨adapter, hget, hr⟩ := bind_eq_ok.mp hr
        obtain ⟨hregistered, htype⟩ := (getByConnectorType_ok_iff _ _ adapter).mp hget
        obtain rfl := hadapter hregistered hr
        exact ⟨idRule id, c, bind_eq_ok.mpr ⟨id, hid, rfl⟩, hchosen, hregistered, htype ▸ hport, hr⟩
      · rintro ⟨rule, c, hrule, hchosen, hregistered, htype, hr⟩
        obtain ⟨id, hid, hrule⟩ := bind_eq_ok.mp hrule
        cases hrule
        refine bind_eq_ok.mpr ⟨env.read c, bind_eq_ok.mpr ⟨id, hid,
          (pick_ok_iff h hu _ _).mpr ⟨c, hchosen, rfl⟩⟩, ?_⟩
        rw [htypes, htype]
        exact bind_eq_ok.mpr ⟨r.adapter, (getByConnectorType_ok_iff _ _ _).mpr ⟨hregistered, rfl⟩, hr⟩

end Adapter

/-! ### The documented order -/

section Order

variable {μ : Type}

/-- What a resolution has to return. -/
structure Correct (env : Env μ) (tenantId : TenantId) (format : Option CredentialFormat)
    (options : ResolveOptions) (r : ResolvedAdapter μ) : Prop where
  tenant : r.connector.tenantId = tenantId
  active : r.connector.active = true
  registered : r.adapter ∈ env.adapters.registered
  connectorType : toPortConnectorType r.connector.connectorType = some r.adapter.connectorType
  context : ∃ credentials, decryptRow env.aes env.provider r.connector = .ok credentials ∧
    r.context = ⟨r.connector.id, r.connector.tenantId, r.connector.endpointUrl, credentials⟩
  format : ∃ f ∈ r.adapter.supportedFormats, r.format = some f ∧
    ∀ wanted, format = some wanted → f = wanted
  permitted : options.adapterOverride ≠ none →
    overrideEnabled env.overrideSetting = true ∧ options.isPlatformAdmin = true
  /-- The first rule that applies admits exactly one stored connector, and it is this one. -/
  rule : ∃ rule c, firstRule env tenantId options = some rule ∧
    (env.rows.filter fun row => rule.admits tenantId row) = [c] ∧ SameConnector c r.connector ∧
    decryptRow env.aes env.provider r.connector = decryptRow env.aes env.provider c

/-- The tenant has a sole active connector, whose type has an adapter for the format. -/
def SoleUsable (env : Env μ) (tenantId : TenantId) (format : Option CredentialFormat) : Prop :=
  ∃ c, ∃ adapter ∈ env.adapters.registered,
    (env.rows.filter fun row => Rule.sole.admits tenantId row) = [c] ∧
    toPortConnectorType c.connectorType = some adapter.connectorType ∧
    ∀ wanted, format = some wanted → wanted ∈ adapter.supportedFormats

variable {env : Env μ} {tenantId : TenantId} {format : Option CredentialFormat}
  {options : ResolveOptions}

theorem resolveOverride_ok {override : Option PortConnectorType}
    (h : resolveOverride env.overrideSetting options = .ok override) :
    override = options.adapterOverride ∧ (options.adapterOverride ≠ none →
      overrideEnabled env.overrideSetting = true ∧ options.isPlatformAdmin = true) := by
  unfold resolveOverride at h
  split at h
  next hnone =>
    cases h
    exact ⟨hnone.symm, fun hsome => absurd hnone hsome⟩
  next connectorType hsome =>
    split at h
    · cases h
    next henabled =>
      split at h
      · cases h
      next hadmin =>
        cases h
        exact ⟨hsome.symm, fun _ => ⟨by simpa using henabled, by simpa using hadmin⟩⟩

theorem truthy_defaultConnector (config : Json.Members) :
    Js.truthy (defaultConnector config) = defaultConnector config := by
  unfold defaultConnector
  split
  · exact Js.truthy_truthy _
  · rfl

/-- The rule that is followed is the documented one, except for an empty explicit id. -/
theorem firstRule_of_followed {rule : Rule} (h : followedRule env tenantId options = .ok rule) :
    (options.adapterOverride ≠ none →
      overrideEnabled env.overrideSetting = true ∧ options.isPlatformAdmin = true) ∧
    (firstRule env tenantId options = some rule ∨
      (options.adapterOverride = none ∧ options.connectorId = some "" ∧ rule = .sole)) := by
  obtain ⟨override, hoverride, h⟩ := bind_eq_ok.mp h
  obtain ⟨hsame, hpermitted⟩ := resolveOverride_ok hoverride
  refine ⟨hpermitted, ?_⟩
  unfold firstRule
  cases override with
  | some connectorType =>
    cases h
    rw [← hsame]
    exact .inl rfl
  | none =>
    obtain ⟨id, hid, h⟩ := bind_eq_ok.mp h
    cases h
    rw [← hsame]
    cases hconnector : options.connectorId with
    | some explicit =>
      unfold explicitIdOf at hid
      rw [hconnector] at hid
      cases hid
      by_cases hempty : explicit = ""
      · rw [hempty]
        exact .inr ⟨rfl, rfl, rfl⟩
      · rw [idRule, Js.truthy_some hempty]
        exact .inl rfl
    | none =>
      unfold explicitIdOf readDefaultConnector at hid
      rw [hconnector] at hid
      cases htenant : env.tenants tenantId with
      | none =>
        rw [htenant] at hid
        cases hid
      | some config =>
        rw [htenant] at hid
        cases hid
        refine .inl (congrArg some ?_)
        rw [idRule, truthy_defaultConnector]
        dsimp only
        cases defaultConnector config <;> rfl

theorem correct_of_resolved {r : ResolvedAdapter μ} {rule : Rule} {c : ConnectorCredential}
    (hpermitted : options.adapterOverride ≠ none →
      overrideEnabled env.overrideSetting = true ∧ options.isPlatformAdmin = true)
    (hrule : firstRule env tenantId options = some rule)
    (hchosen : (env.rows.filter fun row => rule.admits tenantId row) = [c])
    (hregistered : r.adapter ∈ env.adapters.registered)
    (htype : toPortConnectorType c.connectorType = some r.adapter.connectorType)
    (hr : resolveWith env r.adapter (env.read c) format = .ok r) :
    Correct env tenantId format options r := by
  obtain ⟨-, hconnector, ⟨f, hf, hselected, hwanted⟩, credentials, hcredentials, hcontext⟩ :=
    (resolveWith_ok_iff hregistered format r).mp hr
  have hsame : SameConnector c r.connector := hconnector ▸ sameConnector_read c
  have hadmits : rule.admits tenantId c = true := (mem_of_chosen hchosen).2
  have hbelongs : c.tenantId = tenantId ∧ c.active = true := by
    cases rule <;> simp_all [Rule.admits, isCandidate]
  refine ⟨hsame.tenantId.trans hbelongs.1, hsame.active.trans hbelongs.2, hregistered, ?_,
    ⟨credentials, hconnector ▸ hcredentials, hconnector ▸ hcontext⟩, ⟨f, hf, hselected, ?_⟩,
    hpermitted, rule, c, hrule, hchosen, hsame, ?_⟩
  · rw [hsame.connectorType]
    exact htype
  · rintro wanted rfl
    exact hwanted
  · rw [hconnector]
    exact decryptRow_rotated _ c

theorem exists_isFormat {adapter : AgentAdapter μ} (hregistered : adapter ∈ env.adapters.registered)
    (h : ∀ wanted, format = some wanted → wanted ∈ adapter.supportedFormats) :
    ∃ selected, IsFormat adapter format selected := by
  cases format with
  | some wanted => exact ⟨some wanted, wanted, h wanted rfl, rfl, rfl⟩
  | none =>
    cases hformats : adapter.supportedFormats with
    | nil => exact absurd hformats (env.adapters.supported adapter hregistered)
    | cons primary rest =>
      refine ⟨some primary, primary, ?_, rfl, ?_⟩
      · rw [hformats]
        exact List.mem_cons_self ..
      · rw [hformats]
        rfl

/-- A connector that decrypts, with an adapter for the format, is resolved. -/
theorem exists_resolveWith {adapter : AgentAdapter μ} {c : ConnectorCredential}
    (hregistered : adapter ∈ env.adapters.registered)
    (hformats : ∀ wanted, format = some wanted → wanted ∈ adapter.supportedFormats)
    (hdecrypts : ∃ plaintext, decryptRow env.aes env.provider c = .ok plaintext) :
    ∃ r, r.adapter = adapter ∧ resolveWith env adapter (env.read c) format = .ok r := by
  obtain ⟨plaintext, hplaintext⟩ := hdecrypts
  obtain ⟨selected, hselected⟩ := exists_isFormat hregistered hformats
  refine ⟨⟨adapter, env.read c,
    ⟨(env.read c).id, (env.read c).tenantId, (env.read c).endpointUrl, plaintext⟩, selected⟩, rfl, ?_⟩
  exact (resolveWith_ok_iff hregistered format _).mpr ⟨rfl, rfl, hselected, plaintext,
    (decryptRow_rotated _ c).trans hplaintext, rfl⟩

/-- The empty text skips the default and picks the sole connector. -/
theorem followedRule_empty (hoverride : options.adapterOverride = none)
    (hempty : options.connectorId = some "") : followedRule env tenantId options = .ok .sole := by
  have hnone : resolveOverride env.overrideSetting options = .ok none := by
    unfold resolveOverride
    rw [hoverride]
  unfold followedRule
  rw [hnone, ok_bind]
  dsimp only
  rw [hempty]
  rfl

/-- A resolution is correct whenever it returns, unless it is asked for the connector with the
empty id and the tenant has a sole connector to fall through to. -/
theorem resolve_correct_iff (env : Env μ) (tenantId : TenantId) (format : Option CredentialFormat)
    (options : ResolveOptions)
    (hdecrypts : ∀ row ∈ env.rows, row.tenantId = tenantId →
      ∃ plaintext, decryptRow env.aes env.provider row = .ok plaintext)
    (hunique : Table.UniqueKeys ConnectorCredential.id env.rows)
    (hids : ∀ row ∈ env.rows, row.id ≠ "") :
    (∀ r, resolve env tenantId format options = .ok r → Correct env tenantId format options r) ↔
      (options.adapterOverride = none → options.connectorId = some "" →
        ¬ SoleUsable env tenantId format) := by
  have hreadable : Readable env.aes env.provider env.rows tenantId :=
    fun row hrow htenant _ => hdecrypts row hrow htenant
  constructor
  · rintro hcorrect hoverride hempty ⟨c, adapter, hregistered, hchosen, htype, hformats⟩
    obtain ⟨hrow, hadmits⟩ := mem_of_chosen hchosen
    have htenant : c.tenantId = tenantId := by
      simp only [Rule.admits, Bool.and_eq_true, decide_eq_true_eq] at hadmits
      exact hadmits.1
    obtain ⟨r, rfl, hr⟩ := exists_resolveWith hregistered hformats (hdecrypts c hrow htenant)
    have hresolved : resolve env tenantId format options = .ok r :=
      (resolve_ok_iff hreadable hunique format options r).mpr
        ⟨.sole, c, followedRule_empty hoverride hempty, hchosen, hregistered, htype, hr⟩
    -- no stored connector has the empty id
    obtain ⟨rule, other, hrule, hother, -⟩ := (hcorrect r hresolved).rule
    rw [firstRule, hoverride, hempty] at hrule
    cases hrule
    obtain ⟨hmem, hbyId⟩ := mem_of_chosen hother
    simp only [Rule.admits, Bool.and_eq_true, decide_eq_true_eq] at hbyId
    exact hids other hmem hbyId.1
  · intro hcondition r hr
    obtain ⟨rule, c, hfollowed, hchosen, hregistered, htype, hr⟩ :=
      (resolve_ok_iff hreadable hunique format options r).mp hr
    obtain ⟨hpermitted, hrule | ⟨hoverride, hempty, rfl⟩⟩ := firstRule_of_followed hfollowed
    · exact correct_of_resolved hpermitted hrule hchosen hregistered htype hr
    · refine absurd ⟨c, r.adapter, hregistered, hchosen, htype, ?_⟩ (hcondition hoverride hempty)
      obtain ⟨-, -, ⟨f, hf, -, hwanted⟩, -⟩ := (resolveWith_ok_iff hregistered format r).mp hr
      rintro wanted rfl
      exact hwanted ▸ hf

end Order

/-! ### A tenant with two connectors -/

def currentKey : KeyProvider where
  keys := fun version => if version = 1 then some [] else none
  currentVersion := 1
  currentKey := []
  keys_current := rfl

def connectorRow (id : String) (connectorType : ConnectorType) (active : Bool) :
    ConnectorCredential :=
  ⟨id, "t", connectorType, (encrypt plainAes noKeys 1 zeroIv [7]).ciphertext, "https://agent.example",
    active, 1⟩

def tractionAdapter : AgentAdapter Unit := ⟨.traction, [.anonCreds], ()⟩

def oneAdapter : Adapters Unit where
  registered := [tractionAdapter]
  nodup := by decide
  supported := by decide

/-- Only `k1` is active; the default names `k2`. -/
def twoConnectors : Env Unit where
  aes := plainAes
  provider := currentKey
  iv := fun _ => zeroIv
  rows := [connectorRow "k1" .traction true, connectorRow "k2" .credo false]
  tenants := fun _ => some [("default_connector", .str "k2")]
  adapters := oneAdapter
  overrideSetting := none

theorem twoConnectors_decrypt : ∀ row ∈ twoConnectors.rows, row.tenantId = "t" →
    ∃ plaintext, decryptRow twoConnectors.aes twoConnectors.provider row = .ok plaintext := by
  intro row hrow _
  refine ⟨[7], ?_⟩
  rcases List.mem_pair.mp hrow with rfl | rfl <;> decide +kernel

theorem resolve_correct_explicit :
    (∃ r, resolve twoConnectors "t" none { connectorId := some "k1" } = .ok r) ∧
      ∀ r, resolve twoConnectors "t" none { connectorId := some "k1" } = .ok r →
        Correct twoConnectors "t" none { connectorId := some "k1" } r := by
  refine ⟨⟨_, rfl⟩, (resolve_correct_iff twoConnectors "t" none { connectorId := some "k1" }
    twoConnectors_decrypt (by decide) (by decide)).mpr ?_⟩
  intro _ hempty
  exact absurd hempty (by decide)

/-- With the empty id `k1` is returned: no rule before the last one picks it. -/
theorem resolve_falls_through :
    ¬ ∀ (env : Env Unit) (tenantId : TenantId) (format : Option CredentialFormat)
      (options : ResolveOptions),
      (∀ row ∈ env.rows, row.tenantId = tenantId →
        ∃ plaintext, decryptRow env.aes env.provider row = .ok plaintext) →
      Table.UniqueKeys ConnectorCredential.id env.rows → (∀ row ∈ env.rows, row.id ≠ "") →
      ∀ r, resolve env tenantId format options = .ok r →
        Correct env tenantId format options r := by
  intro hall
  obtain ⟨r, hr⟩ : ∃ r, resolve twoConnectors "t" none { connectorId := some "" } = .ok r := ⟨_, rfl⟩
  obtain ⟨rule, c, hrule, hchosen, -⟩ := (hall twoConnectors "t" none { connectorId := some "" }
    twoConnectors_decrypt (by decide) (by decide) r hr).rule
  cases hrule
  have hnone : (twoConnectors.rows.filter fun row => (Rule.byId "").admits "t" row) = [] := by decide
  rw [hnone] at hchosen
  cases hchosen

end VcCommonService.Connectors.Registry
