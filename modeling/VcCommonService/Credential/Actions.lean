import VcCommonService.Credential.Definitions
import VcCommonService.Lib.Select
import VcCommonService.Lib.Transaction
import VcCommonService.Operation.Calls

/-!
# Accepting, rejecting and revoking (`credential-action.service.ts`, `credential-revoke.service.ts`)

Each of the three calls stores an operation, asks the registry for an adapter and the adapter for
the action, and records the outcome in the operation. The `catch` block records the errors of the
adapter family; any other error is thrown again, and the operation stays as it was created.
-/

namespace VcCommonService.Credentials.Actions
open Lib Transaction Operations

/-! ### What the adapters answer -/

inductive CredentialExchangeState where
  | proposalSent
  | offerSent
  | offerReceived
  | requestSent
  | requestReceived
  | credentialIssued
  | credentialReceived
  | done
  | abandoned
  deriving Repr, DecidableEq

def CredentialExchangeState.value : CredentialExchangeState → String
  | .proposalSent => "proposal-sent"
  | .offerSent => "offer-sent"
  | .offerReceived => "offer-received"
  | .requestSent => "request-sent"
  | .requestReceived => "request-received"
  | .credentialIssued => "credential-issued"
  | .credentialReceived => "credential-received"
  | .done => "done"
  | .abandoned => "abandoned"

structure CredentialExchange where
  id : String
  externalId : Option String := none
  connectionId : Option String := none
  state : CredentialExchangeState
  format : CredentialFormat
  attributes : List CredentialAttribute
  createdAt : String
  updatedAt : String
  error : Option String := none
  deriving Repr, DecidableEq

structure RevocationResult where
  credentialId : String
  revoked : Bool
  revokedAt : Option String := none
  error : Option String := none
  deriving Repr, DecidableEq

/-- A member that is left out when it is `undefined`. -/
def optional (key : String) (value : Option String) : Json.Members :=
  (value.map fun v => (key, Json.str v)).toList

/-- `{ ...exchange }` as the column stores it. -/
def CredentialExchange.spread (e : CredentialExchange) : Json :=
  .obj ([("id", .str e.id)] ++ optional "externalId" e.externalId ++
    optional "connectionId" e.connectionId ++
    [("state", .str e.state.value), ("format", .str e.format.value),
      ("attributes", .arr (e.attributes.map fun a =>
        .obj [("name", .str a.name), ("value", .str a.value)])),
      ("createdAt", .str e.createdAt), ("updatedAt", .str e.updatedAt)] ++
    optional "error" e.error)

def RevocationResult.spread (r : RevocationResult) : Json :=
  .obj ([("credentialId", .str r.credentialId), ("revoked", .bool r.revoked)] ++
    optional "revokedAt" r.revokedAt ++ optional "error" r.error)

/-- An error of the registry or of an adapter: one of the classes that extend `AdapterError`, or
anything else. -/
inductive AgentError where
  | adapterError (code message : String)
  | other (message : String)
  deriving Repr, DecidableEq

/-- The adapter of a connector, with the context that the registry built for it. -/
structure Adapter where
  acceptOffer : String → Except AgentError CredentialExchange
  rejectOffer : String → Except AgentError Unit
  revoke : String → Except AgentError RevocationResult

/-- `resolve(tenantId, undefined, { connectorId })`. -/
abbrev Registry := TenantId → Option String → Except AgentError Adapter

/-! ### Records -/

inductive CredentialState where
  | offered
  | issued
  | revoked
  | expired
  deriving Repr, DecidableEq

structure Credential where
  id : String
  tenantId : TenantId
  connectorId : String
  externalId : Option String
  format : CredentialDefinitionFormat
  state : CredentialState
  issuedAt : Option Time
  revokedAt : Option Time
  deriving Repr, DecidableEq

structure Db where
  operations : List Operation
  credentials : List Credential
  tenants : TenantId → Option Json.Members

/-- The statements of a call. -/
inductive Statement where
  | findOffer
  | findCredential
  | findTenant
  | insertOperation
  | findOperation
  | findOperationTenant
  | saveOperation
  | updateCredential
  deriving Repr, DecidableEq

inductive Thrown where
  | exception (error : ServiceError)
  | database (statement : Statement)
  | agent (error : AgentError)
  deriving Repr, DecidableEq

abbrev Action := Transaction.Action Thrown Db

/-- The clock and the database's own values during a call: `now` when the operation is created,
`revokedNow` for `new Date()` at the revocation, and the instant that a `timestamptz` column
holds for `new Date(text)`, if it holds one. -/
structure Clock where
  now : Time
  operationId : String
  createdAt : Time
  revokedNow : Time
  timestamptz : String → Option Time

section Service

variable (fault : Option Statement) (clock : Clock) (registry : Registry)

/-- A statement that the database may refuse, without effect then. -/
def statement {α : Type} (name : Statement) (f : Db → Option (α × Db)) : Action α :=
  attempt .database fault name (refusable (.database name) f)

def select {α : Type} (name : Statement) (f : Db → α) : Action α :=
  statement fault name fun db => some (f db, db)

def throwing {α : Type} (e : Thrown) : Action α := check (.error e)

/-! ### `OperationService` -/

def insertOperation (operation : Operation) (db : Db) : Option (Operation × Db) :=
  if (Table.lookup Operation.id operation.id db.operations).isSome then none
  else some (operation, { db with operations := Table.save Operation.id operation db.operations })

def insertNew (input : CreateOperationInput) (config : Json.Members) (db : Db) :
    Option (Operation × Db) :=
  match Operations.createOperation input config clock.now clock.operationId clock.createdAt with
  | .error _ => none
  | .ok operation => insertOperation operation db

def createOperation (input : CreateOperationInput) : Action Operation := do
  match ← select fault .findTenant fun db => db.tenants input.tenantId with
  | none => throwing (.exception (.notFound "Tenant not found"))
  | some config => statement fault .insertOperation (insertNew clock input config)

/-- The columns of `UPDATE`; an invalid date and a result with U+0000 are refused. -/
def transitionedRow (operation : Operation) (state : OperationState) (result : Option Json)
    (config : Json.Members) : Option Operation :=
  if result.all Json.storable then
    (computeOperationExpiresAt state operation.createdAt operation.viewedAt (some config)).map
      fun expiresAt => { operation with state, result, expiresAt }
  else none

def saveTransition (operation : Operation) (state : OperationState) (result : Option Json)
    (config : Json.Members) (db : Db) : Option (Operation × Db) :=
  (transitionedRow operation state result config).map fun saved =>
    (saved, { db with operations := Table.save Operation.id saved db.operations })

/-- `transitionState` with a result or `null`. -/
def transitionState (id : String) (state : OperationState) (result : Option Json) :
    Action Operation := do
  match ← select fault .findOperation fun db => Table.lookup Operation.id id db.operations with
  | none => throwing (.exception (.notFound "Operation not found"))
  | some operation =>
    match ← select fault .findOperationTenant fun db => db.tenants operation.tenantId with
    | none => throwing (.exception (.notFound "Tenant not found"))
    | some config => statement fault .saveOperation (saveTransition operation state result config)

def apiBasePath : String := "/api/v1"

def postRequest (path : String) : Json :=
  .obj [("method", .str "POST"), ("path", .str path), ("body", .obj [])]

def failure (code message : String) : Json := .obj [("code", .str code), ("message", .str message)]

/-- The `catch` blocks: an adapter error ends the operation, any other error is thrown again. -/
def recordFailure (operationId : String) : Thrown → Action Operation
  | .agent (.adapterError code message) =>
    transitionState fault operationId .failed (some (failure code message))
  | e => throwing e

/-! ### `CredentialActionService` -/

inductive CredentialHolderAction where
  | accept
  | reject
  deriving Repr, DecidableEq

def CredentialHolderAction.value : CredentialHolderAction → String
  | .accept => "accept"
  | .reject => "reject"

def CredentialHolderAction.operationType : CredentialHolderAction → String
  | .accept => "credential.accept"
  | .reject => "credential.reject"

structure ActionOutcome where
  state : OperationState
  result : Option Json

def completeAccept (adapter : Adapter) (externalId : String) : Except AgentError ActionOutcome := do
  let exchange ← adapter.acceptOffer externalId
  if exchange.state = .done then return ⟨.completed, some exchange.spread⟩
  else return ⟨.processing, none⟩

def completeReject (adapter : Adapter) (externalId : String) : Except AgentError ActionOutcome := do
  adapter.rejectOffer externalId
  return ⟨.completed, some (.obj [])⟩

/-- The registry, then the adapter. -/
def holderOutcome (action : CredentialHolderAction) (tenantId : TenantId) (externalId : String) :
    Except AgentError ActionOutcome := do
  let adapter ← registry tenantId none
  match action with
  | .accept => completeAccept adapter externalId
  | .reject => completeReject adapter externalId

/-- The agent's exchange id of an offer that the tenant can act on. -/
def offeredExchange (tenantId : TenantId) (exchangeId : String) (db : Db) : Option String :=
  ((Table.lookup Operation.id exchangeId db.operations).filter fun offer =>
    decide (offer.tenantId = tenantId ∧ offer.type = "credential.offer")).bind fun offer =>
      Js.truthy offer.externalId

def perform (action : CredentialHolderAction) (tenantId : TenantId) (exchangeId : String) :
    Action Operation := do
  match ← select fault .findOffer (offeredExchange tenantId exchangeId) with
  | none =>
    throwing (.exception (.notFound ("Credential offer '" ++ exchangeId ++ "' was not found")))
  | some externalId =>
    let actionOperation ← createOperation fault clock
      { tenantId, type := action.operationType
        request := postRequest (apiBasePath ++ "/tenants/" ++ tenantId ++ "/credentials/" ++
          exchangeId ++ "/" ++ action.value)
        externalId := some externalId }
    rescue (do
        let outcome ← check ((holderOutcome registry action tenantId externalId).mapError .agent)
        transitionState fault actionOperation.id outcome.state outcome.result)
      (recordFailure fault actionOperation.id)

/-! ### `CredentialRevokeService` -/

def findCredential (tenantId : TenantId) (credentialId : String) (db : Db) : Option Credential :=
  (Table.lookup Credential.id credentialId db.credentials).filter fun c =>
    decide (c.tenantId = tenantId)

def revocableFormats : List CredentialDefinitionFormat := [.anoncreds]

/-- The checks before the operation is created; the credential comes with its external id. -/
def assertRevocable (credentialId : String) (found : Option Credential) :
    Except ServiceError (Credential × String) :=
  match found with
  | none => .error (.notFound ("Credential '" ++ credentialId ++ "' was not found"))
  | some credential =>
    if !revocableFormats.contains credential.format then
      .error (.badRequest ("Credential format '" ++ credential.format.value ++
        "' does not support revocation"))
    else
      match Js.truthy credential.externalId with
      | none => .error (.badRequest ("Credential '" ++ credentialId ++
          "' has no adapter-assigned identifier to revoke"))
      | some externalId => .ok (credential, externalId)

def revocation (tenantId : TenantId) (connectorId externalId : String) :
    Except AgentError RevocationResult := do
  let adapter ← registry tenantId (some connectorId)
  adapter.revoke externalId

/-- `result.revokedAt ? new Date(result.revokedAt) : new Date()`. -/
def revokedAtOf (result : RevocationResult) : Option Time :=
  match Js.truthy result.revokedAt with
  | some text => clock.timestamptz text
  | none => some clock.revokedNow

/-- `updateState(credentialId, REVOKED, { revokedAt })`; an invalid date is refused. -/
def markRevoked (credentialId : String) (revokedAt : Option Time) (db : Db) : Option (Unit × Db) :=
  revokedAt.map fun instant =>
    ((), { db with
      credentials := Table.updateWhere (fun c => decide (c.id = credentialId))
        (fun c => { c with state := .revoked, revokedAt := some instant }) db.credentials })

def recordRevocation (credentialId operationId : String) (result : RevocationResult) :
    Action Operation :=
  if !result.revoked then
    transitionState fault operationId .failed
      (some (failure "REVOCATION_FAILED" (result.error.getD "Revocation was not applied")))
  else do
    statement fault .updateCredential (markRevoked credentialId (revokedAtOf clock result))
    transitionState fault operationId .completed (some result.spread)

def revokeInput (tenantId : TenantId) (credentialId externalId : String) : CreateOperationInput where
  tenantId := tenantId
  type := "credential.revoke"
  request := postRequest (apiBasePath ++ "/tenants/" ++ tenantId ++ "/credentials/" ++ credentialId ++
    "/revoke")
  externalId := some externalId

def revoke (tenantId : TenantId) (credentialId : String) : Action Operation := do
  let found ← select fault .findCredential (findCredential tenantId credentialId)
  let (credential, externalId) ← check ((assertRevocable credentialId found).mapError .exception)
  let operation ← createOperation fault clock (revokeInput tenantId credentialId externalId)
  rescue (do
      let result ← check ((revocation registry tenantId credential.connectorId externalId).mapError .agent)
      recordRevocation fault clock credentialId operation.id result)
    (recordFailure fault operation.id)

end Service

/-! ### Outcomes of the statements -/

section Outcomes

variable {fault : Option Statement} {clock : Clock} {registry : Registry} {db : Db}

theorem statement_ensures {α : Type} {name : Statement} {f : Db → Option (α × Db)}
    {Q : Except Thrown α → Store Db → Prop} (hrefused : Q (.error (.database name)) ⟨db, none⟩)
    (hdone : ∀ a db', f db = some (a, db') → Q (.ok a) ⟨db', none⟩) :
    Ensures (statement fault name f) ⟨db, none⟩ Q := by
  refine Ensures.attempt ?_ hrefused
  unfold Ensures refusable
  dsimp only
  cases hf : f db with
  | none => exact hrefused
  | some r => exact hdone r.1 r.2 hf

/-- A query is refused, or the computation goes on with what it found. -/
theorem select_bind {α β : Type} {name : Statement} {f : Db → α} {g : α → Action β}
    {Q : Except Thrown β → Store Db → Prop} (hrefused : Q (.error (.database name)) ⟨db, none⟩)
    (hfound : Ensures (g (f db)) ⟨db, none⟩ Q) :
    Ensures (select fault name f >>= g) ⟨db, none⟩ Q := by
  unfold select statement attempt
  by_cases hfault : fault = some name
  · rw [if_pos hfault]
    exact hrefused
  · rw [if_neg hfault]
    exact hfound

/-- The row that `createOperation` inserts. -/
theorem insertNew_some {input : CreateOperationInput} {config : Json.Members}
    {operation : Operation} {stored : Db}
    (h : insertNew clock input config db = some (operation, stored)) :
    operation.id = clock.operationId ∧ operation.state = .pending ∧
      operation.tenantId = input.tenantId ∧ operation.createdAt = clock.createdAt ∧
      operation.viewedAt = none ∧
      stored = { db with operations := Table.save Operation.id operation db.operations } := by
  unfold insertNew Operations.createOperation at h
  cases hexpires : computeOperationExpiresAt .pending clock.now none (some config) with
  | none => simp [hexpires] at h
  | some expiresAt =>
    simp only [hexpires, insertOperation] at h
    split at h
    · cases h
    · cases h
      exact ⟨rfl, rfl, rfl, rfl, rfl, rfl⟩

/-- The operation is stored as pending, or nothing is. -/
def Created (id : String) (db : Db) (r : Except Thrown Operation) (s : Store Db) : Prop :=
  match r with
  | .error e => s = ⟨db, none⟩ ∧ ∀ error, e ≠ .agent error
  | .ok operation => operation.id = id ∧ operation.state = .pending ∧
      (db.tenants operation.tenantId).isSome = true ∧
      s = ⟨{ db with operations := Table.save Operation.id operation db.operations }, none⟩

theorem createOperation_ensures (input : CreateOperationInput) :
    Ensures (createOperation fault clock input) ⟨db, none⟩ (Created clock.operationId db) := by
  have hrefused : ∀ name, Created clock.operationId db (.error (.database name)) ⟨db, none⟩ :=
    fun name => ⟨rfl, fun _ => Thrown.noConfusion⟩
  refine select_bind (hrefused _) ?_
  cases htenant : db.tenants input.tenantId with
  | none => exact ⟨rfl, fun _ => Thrown.noConfusion⟩
  | some config =>
    refine statement_ensures (hrefused _) fun operation db' hinsert => ?_
    obtain ⟨hid, hstate, htenantId, -, -, rfl⟩ := insertNew_some hinsert
    exact ⟨hid, hstate, by simp [htenantId, htenant], rfl⟩

/-- The operation has the new state, or a statement was refused. -/
def Transitioned (id : String) (state : OperationState) (r : Except Thrown Operation)
    (s : Store Db) : Prop :=
  match r with
  | .error e => ∃ name, e = .database name
  | .ok operation => operation.state = state ∧
      Table.lookup Operation.id id s.committed.operations = some operation

theorem transitionedRow_some {operation saved : Operation} {state : OperationState}
    {result : Option Json} {config : Json.Members}
    (h : transitionedRow operation state result config = some saved) :
    saved.id = operation.id ∧ saved.state = state := by
  unfold transitionedRow at h
  split at h
  · obtain ⟨expiresAt, -, rfl⟩ := Option.map_eq_some_iff.mp h
    exact ⟨rfl, rfl⟩
  · cases h

theorem transitionState_ensures {id : String} {operation : Operation} (state : OperationState)
    (result : Option Json) (hfound : Table.lookup Operation.id id db.operations = some operation)
    (htenant : (db.tenants operation.tenantId).isSome = true) :
    Ensures (transitionState fault id state result) ⟨db, none⟩ (Transitioned id state) := by
  have hid : operation.id = id := (Table.mem_of_lookup hfound).2
  obtain ⟨config, hconfig⟩ := Option.isSome_iff_exists.mp htenant
  refine select_bind ⟨_, rfl⟩ ?_
  rw [hfound]
  refine select_bind ⟨_, rfl⟩ ?_
  rw [hconfig]
  refine statement_ensures ⟨_, rfl⟩ fun saved db' hsave => ?_
  obtain ⟨row, hrow, hsaved⟩ := Option.map_eq_some_iff.mp hsave
  cases hsaved
  obtain ⟨hsavedId, hstate⟩ := transitionedRow_some hrow
  refine ⟨hstate, ?_⟩
  rw [Table.lookup_save, if_pos (hsavedId.trans hid)]

/-! ### The three calls -/

inductive Request where
  | perform (action : CredentialHolderAction) (tenantId : TenantId) (exchangeId : String)
  | revoke (tenantId : TenantId) (credentialId : String)
  deriving Repr, DecidableEq

def handle (fault : Option Statement) (clock : Clock) (registry : Registry) : Request → Action Operation
  | .perform action tenantId exchangeId => perform fault clock registry action tenantId exchangeId
  | .revoke tenantId credentialId => revoke fault clock registry tenantId credentialId

def errorOf {α : Type} : Except AgentError α → Option AgentError
  | .error e => some e
  | .ok _ => none

/-- What the registry or the adapter throws in a call, if the call comes to them and they throw. -/
def thrownByAgent (registry : Registry) (db : Db) : Request → Option AgentError
  | .perform action tenantId exchangeId =>
    (offeredExchange tenantId exchangeId db).bind fun externalId =>
      errorOf (holderOutcome registry action tenantId externalId)
  | .revoke tenantId credentialId =>
    match assertRevocable credentialId (findCredential tenantId credentialId db) with
    | .error _ => none
    | .ok (credential, externalId) =>
      errorOf (revocation registry tenantId credential.connectorId externalId)

/-- How a call may end, given what the registry or the adapter throws. -/
inductive Ending (id : String) (db : Db) (thrown : Option AgentError)
    (r : Except Thrown Operation) (s : Store Db) : Prop where
  | notCreated (h : s.committed.operations = db.operations)
  | refused (name : Statement) (h : r = .error (.database name))
  | recorded (operation : Operation)
      (hstored : Table.lookup Operation.id id s.committed.operations = some operation)
      (hstate : operation.state ≠ .pending) (hthrown : ∀ message, thrown ≠ some (.other message))
  | thrownAgain (operation : Operation) (message : String)
      (hstored : Table.lookup Operation.id id s.committed.operations = some operation)
      (hstate : operation.state = .pending) (hthrown : thrown = some (.other message))
      (h : r = .error (.agent (.other message)))

theorem ending_of_transitioned {id : String} {state : OperationState} {thrown : Option AgentError}
    {r : Except Thrown Operation} {s : Store Db} (h : Transitioned id state r s)
    (hstate : state ≠ .pending) (hthrown : ∀ message, thrown ≠ some (.other message)) :
    Ending id db thrown r s := by
  cases r with
  | error e =>
    obtain ⟨name, rfl⟩ := h
    exact .refused name rfl
  | ok operation =>
    obtain ⟨hsame, hstored⟩ := h
    exact .recorded operation hstored (hsame ▸ hstate) hthrown

/-- The `try` block and its `catch`, after the operation is created: `answer` is what the registry
and the adapter say. -/
theorem rescue_ensures {α : Type} {operation : Operation} {answer : Except AgentError α}
    {record : α → Action Operation} {stored : Db}
    (hstored : Table.lookup Operation.id operation.id stored.operations = some operation)
    (hpending : operation.state = .pending)
    (htenant : (stored.tenants operation.tenantId).isSome = true)
    (hrecord : ∀ a, answer = .ok a → Ensures (record a) ⟨stored, none⟩ fun r s =>
      ∃ state, state ≠ .pending ∧ Transitioned operation.id state r s) :
    Ensures (rescue (do
        let a ← check (answer.mapError .agent)
        record a) (recordFailure fault operation.id)) ⟨stored, none⟩
      (Ending operation.id db (errorOf answer)) := by
  cases answer with
  | ok a =>
    have hnone : ∀ message, errorOf (.ok a : Except AgentError α) ≠ some (.other message) := nofun
    refine Ensures.rescue (x := record a) (hrecord a rfl) ?_ ?_
    · rintro saved s ⟨state, hstate, htransitioned⟩
      exact ending_of_transitioned htransitioned hstate hnone
    · rintro e s ⟨state, -, name, rfl⟩
      exact .refused name rfl
  | error e =>
    cases e with
    | adapterError code message =>
      exact Ensures.weaken (transitionState_ensures .failed _ hstored htenant) fun r s h =>
        ending_of_transitioned h (by decide) nofun
    | other message => exact .thrownAgain operation message hstored hpending rfl rfl

/-- The operation that `createOperation` returns is the stored one, and its tenant exists. -/
theorem stored_of_created {operation : Operation} {s : Store Db}
    (h : Created clock.operationId db (.ok operation) s) :
    ∃ stored, s = ⟨stored, none⟩ ∧
      Table.lookup Operation.id operation.id stored.operations = some operation ∧
      (stored.tenants operation.tenantId).isSome = true ∧ stored.credentials = db.credentials := by
  obtain ⟨-, -, htenant, rfl⟩ := h
  exact ⟨_, rfl, by rw [Table.lookup_save, if_pos rfl], htenant, rfl⟩

/-- `createOperation`, then the `try` block. -/
theorem created_bind {thrown : Option AgentError} (input : CreateOperationInput)
    {body : Operation → Action Operation}
    (hbody : ∀ operation stored,
      Table.lookup Operation.id operation.id stored.operations = some operation →
      operation.state = .pending → (stored.tenants operation.tenantId).isSome = true →
      Ensures (body operation) ⟨stored, none⟩ (Ending operation.id db thrown)) :
    Ensures (createOperation fault clock input >>= body) ⟨db, none⟩
      (Ending clock.operationId db thrown) := by
  refine Ensures.bind (createOperation_ensures input) (fun operation s hcreated => ?_)
    (fun e s herror => ?_)
  · obtain ⟨stored, rfl, hstored, htenant, -⟩ := stored_of_created hcreated
    obtain ⟨hid, hpending, -⟩ := hcreated
    rw [← hid]
    exact hbody operation stored hstored hpending htenant
  · obtain ⟨rfl, -⟩ := herror
    exact .notCreated rfl

theorem holderOutcome_state {action : CredentialHolderAction} {tenantId : TenantId}
    {externalId : String} {outcome : ActionOutcome}
    (h : holderOutcome registry action tenantId externalId = .ok outcome) :
    outcome.state ≠ .pending := by
  obtain ⟨adapter, -, h⟩ := bind_eq_ok.mp h
  cases action with
  | accept =>
    obtain ⟨exchange, -, h⟩ := bind_eq_ok.mp h
    split at h
    · cases h
      exact nofun
    · cases h
      exact nofun
  | reject =>
    obtain ⟨_, -, h⟩ := bind_eq_ok.mp h
    cases h
    exact nofun

theorem perform_ensures (action : CredentialHolderAction) (tenantId : TenantId)
    (exchangeId : String) :
    Ensures (perform fault clock registry action tenantId exchangeId) ⟨db, none⟩
      (Ending clock.operationId db
        (thrownByAgent registry db (.perform action tenantId exchangeId))) := by
  refine select_bind (.refused _ rfl) ?_
  dsimp only [thrownByAgent]
  cases offeredExchange tenantId exchangeId db with
  | none => exact .notCreated rfl
  | some externalId =>
    refine created_bind _ fun operation stored hstored hpending htenant => ?_
    refine rescue_ensures hstored hpending htenant fun outcome houtcome => ?_
    exact Ensures.weaken (transitionState_ensures _ _ hstored htenant) fun r s h =>
      ⟨outcome.state, holderOutcome_state houtcome, h⟩

theorem recordRevocation_ensures {operation : Operation} {stored : Db} (credentialId : String)
    (result : RevocationResult)
    (hstored : Table.lookup Operation.id operation.id stored.operations = some operation)
    (htenant : (stored.tenants operation.tenantId).isSome = true) :
    Ensures (recordRevocation fault clock credentialId operation.id result) ⟨stored, none⟩
      fun r s => ∃ state, state ≠ .pending ∧ Transitioned operation.id state r s := by
  unfold recordRevocation
  split
  · exact Ensures.weaken (transitionState_ensures .failed _ hstored htenant) fun r s h =>
      ⟨.failed, by decide, h⟩
  · -- the update leaves the operations and the tenants alone
    refine Ensures.bind
      (P := fun r s => match r with
        | .error e => ∃ name, e = .database name
        | .ok _ => s.working = none ∧ s.committed.operations = stored.operations ∧
            s.committed.tenants = stored.tenants)
      (statement_ensures ⟨_, rfl⟩ fun _ db' hupdate => ?_) (fun _ s h => ?_) (fun e s h => ?_)
    · obtain ⟨instant, -, heq⟩ := Option.map_eq_some_iff.mp hupdate
      cases heq
      exact ⟨rfl, rfl, rfl⟩
    · obtain ⟨updated, working⟩ := s
      obtain ⟨rfl, hoperations, htenants⟩ := h
      exact Ensures.weaken (transitionState_ensures .completed _ (hoperations ▸ hstored)
        (htenants ▸ htenant)) fun r s h => ⟨.completed, nofun, h⟩
    · exact ⟨.completed, nofun, h⟩

theorem revoke_ensures (tenantId : TenantId) (credentialId : String) :
    Ensures (revoke fault clock registry tenantId credentialId) ⟨db, none⟩
      (Ending clock.operationId db (thrownByAgent registry db (.revoke tenantId credentialId))) := by
  refine select_bind (.refused _ rfl) ?_
  dsimp only [thrownByAgent]
  cases assertRevocable credentialId (findCredential tenantId credentialId db) with
  | error e => exact .notCreated rfl
  | ok found =>
    refine created_bind _ fun operation stored hstored hpending htenant => ?_
    exact rescue_ensures hstored hpending htenant fun result _ =>
      recordRevocation_ensures credentialId result hstored htenant

/-- After a call in which every statement succeeds its operation is pending if and only if the
registry or the adapter threw something that is not an adapter error; that error is thrown again. -/
theorem operation_pending_iff (fault : Option Statement) (clock : Clock) (registry : Registry)
    (request : Request) (db : Db) (operation : Operation)
    (hbefore : Table.lookup Operation.id clock.operationId db.operations = none)
    (hafter : Table.lookup Operation.id clock.operationId
      (handle fault clock registry request ⟨db, none⟩).2.committed.operations = some operation)
    (hstatements : ∀ name,
      (handle fault clock registry request ⟨db, none⟩).1 ≠ .error (.database name)) :
    (operation.state = .pending ↔
      ∃ message, thrownByAgent registry db request = some (.other message)) ∧
    ∀ message, thrownByAgent registry db request = some (.other message) →
      (handle fault clock registry request ⟨db, none⟩).1 = .error (.agent (.other message)) := by
  have hending : Ending clock.operationId db (thrownByAgent registry db request)
      (handle fault clock registry request ⟨db, none⟩).1
      (handle fault clock registry request ⟨db, none⟩).2 := by
    cases request with
    | perform action tenantId exchangeId => exact perform_ensures action tenantId exchangeId
    | revoke tenantId credentialId => exact revoke_ensures tenantId credentialId
  cases hending with
  | notCreated h =>
    rw [h, hbefore] at hafter
    cases hafter
  | refused name h => exact absurd h (hstatements name)
  | recorded stored hstored hstate hthrown =>
    rw [hstored] at hafter
    cases hafter
    refine ⟨⟨fun h => absurd h hstate, ?_⟩, fun message h => absurd h (hthrown message)⟩
    rintro ⟨message, h⟩
    exact absurd h (hthrown message)
  | thrownAgain stored message hstored hstate hthrown h =>
    rw [hstored] at hafter
    cases hafter
    refine ⟨iff_of_true hstate ⟨message, hthrown⟩, fun other hother => ?_⟩
    rw [hthrown] at hother
    cases hother
    exact h

end Outcomes

/-! ### An offer that is accepted -/

def offered : Operation where
  id := "x"
  tenantId := "t"
  batchId := none
  type := "credential.offer"
  state := .processing
  request := postRequest "/api/v1/tenants/t/credentials/offer"
  result := none
  externalId := some "agent-x"
  viewedAt := none
  expiresAt := 259200000
  createdAt := 0

def offeredDb : Db where
  operations := [offered]
  credentials := []
  tenants := fun _ => some []

def noon : Clock where
  now := 1000
  operationId := "y"
  createdAt := 1001
  revokedNow := 1002
  timestamptz := fun _ => none

/-- An adapter that answers every acceptance with `result`. -/
def accepting (result : Except AgentError CredentialExchange) : Registry := fun _ _ =>
  .ok ⟨fun _ => result, fun _ => .ok (), fun externalId => .ok ⟨externalId, true, none, none⟩⟩

def acceptX : Request := .perform .accept "t" "x"

def acceptedX : CredentialExchange where
  id := "agent-x"
  state := .done
  format := .anonCreds
  attributes := []
  createdAt := "2026-01-01T00:00:00.000Z"
  updatedAt := "2026-01-01T00:00:00.000Z"

theorem operation_pending_iff_accepted :
    ∃ operation, Table.lookup Operation.id "y"
      (handle none noon (accepting (.ok acceptedX)) acceptX ⟨offeredDb, none⟩).2.committed.operations =
        some operation ∧ operation.state ≠ .pending := by
  have hstored : ((Table.lookup Operation.id "y" (handle none noon (accepting (.ok acceptedX)) acceptX
      ⟨offeredDb, none⟩).2.committed.operations).map Operation.state).isSome = true := by
    decide +kernel
  have hresult : ((handle none noon (accepting (.ok acceptedX)) acceptX
      ⟨offeredDb, none⟩).1.map Operation.state).isOk = true := by decide +kernel
  obtain ⟨operation, hoperation⟩ := Option.isSome_iff_exists.mp (Option.isSome_map ▸ hstored)
  refine ⟨operation, hoperation, fun hpending => ?_⟩
  have hstatements : ∀ name, (handle none noon (accepting (.ok acceptedX)) acceptX
      ⟨offeredDb, none⟩).1 ≠ .error (.database name) := by
    intro name herror
    rw [herror] at hresult
    cases hresult
  have hboth := operation_pending_iff none noon (accepting (.ok acceptedX)) acceptX offeredDb
    operation (by decide +kernel) hoperation hstatements
  obtain ⟨message, hthrown⟩ := hboth.1.mp hpending
  cases hthrown

/-- The adapter throws an error of its own: the call throws it again, and its operation stays
pending. -/
theorem operation_stays_pending :
    ¬ ∀ (fault : Option Statement) (clock : Clock) (registry : Registry) (request : Request)
      (db : Db) (operation : Operation),
      Table.lookup Operation.id clock.operationId db.operations = none →
      Table.lookup Operation.id clock.operationId
        (handle fault clock registry request ⟨db, none⟩).2.committed.operations = some operation →
      (∀ name, (handle fault clock registry request ⟨db, none⟩).1 ≠ .error (.database name)) →
      operation.state ≠ .pending := by
  intro hall
  have hstored : (Table.lookup Operation.id "y" (handle none noon
      (accepting (.error (.other "boom"))) acceptX ⟨offeredDb, none⟩).2.committed.operations).map
        Operation.state = some .pending := by decide +kernel
  have hresult : (handle none noon (accepting (.error (.other "boom"))) acceptX
      ⟨offeredDb, none⟩).1.map Operation.state = .error (.agent (.other "boom")) := by
    decide +kernel
  obtain ⟨operation, hoperation, hpending⟩ := Option.map_eq_some_iff.mp hstored
  refine hall none noon (accepting (.error (.other "boom"))) acceptX offeredDb operation
    (by decide +kernel) hoperation (fun name herror => ?_) hpending
  rw [herror] at hresult
  cases hresult

end VcCommonService.Credentials.Actions
