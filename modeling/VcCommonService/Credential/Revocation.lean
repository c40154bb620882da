import VcCommonService.Credential.Actions
import VcCommonService.Lib.Run

/-!
# Repeated revocations

A run of `revoke` calls, with statements that the database carries out unless a timestamp is
invalid or a result has U+0000 in it. A call that the adapter answers with `revoked: true` parses
the date of the answer and writes it over the one that may be stored already.
-/

namespace VcCommonService.Credentials.Actions
open Lib Transaction Operations

/-! ### Without faults -/

section Calls

variable {clock : Clock} {registry : Registry} {db : Db}

theorem statement_some {α : Type} {name : Statement} {f : Db → Option (α × Db)} {a : α} {db' : Db}
    (h : f db = some (a, db')) : statement none name f ⟨db, none⟩ = (.ok a, ⟨db', none⟩) := by
  rw [statement, attempt_none, refusable_some h]

theorem statement_none {α : Type} {name : Statement} {f : Db → Option (α × Db)} (h : f db = none) :
    statement none name f ⟨db, none⟩ = (.error (.database name), ⟨db, none⟩) := by
  rw [statement, attempt_none, refusable_none h]

theorem select_next {α β : Type} (name : Statement) (f : Db → α) (g : α → Action β) :
    (select none name f >>= g) ⟨db, none⟩ = g (f db) ⟨db, none⟩ := by
  rw [Action.bind_apply, select, statement_some rfl, Action.next_ok]

theorem createOperation_inserted {input : CreateOperationInput} {config : Json.Members}
    {operation : Operation} {stored : Db} (htenant : db.tenants input.tenantId = some config)
    (hinsert : insertNew clock input config db = some (operation, stored)) :
    createOperation none clock input ⟨db, none⟩ = (.ok operation, ⟨stored, none⟩) := by
  rw [createOperation, select_next, htenant]
  exact statement_some hinsert

theorem createOperation_refused {input : CreateOperationInput}
    (h : ∀ config, db.tenants input.tenantId = some config → insertNew clock input config db = none) :
    ∃ e, createOperation none clock input ⟨db, none⟩ = (.error e, ⟨db, none⟩) := by
  rw [createOperation, select_next]
  cases htenant : db.tenants input.tenantId with
  | none => exact ⟨_, rfl⟩
  | some config => exact ⟨_, statement_none (h config htenant)⟩

/-- How a call leaves the credentials and its operation; what it throws itself is no adapter
error. -/
structure After (id : String) (credentials : List Credential) (state : OperationState)
    (r : Except Thrown Operation) (s : Store Db) : Prop where
  thrown : ∀ e, r = .error e → ∃ name, e = .database name
  credentials : s.committed.credentials = credentials
  operation : ∃ stored, Table.lookup Operation.id id s.committed.operations = some stored ∧
    stored.state = state

/-- The operation can expire, and its result can be stored. -/
def canEnd (config : Json.Members) (createdAt : Time) (state : OperationState) (result : Json) :
    Bool :=
  result.storable && (computeOperationExpiresAt state createdAt none (some config)).isSome

def ended (config : Json.Members) (createdAt : Time) (state : OperationState) (result : Json) :
    OperationState :=
  if canEnd config createdAt state result then state else .pending

theorem isSome_transitionedRow {operation : Operation} {state : OperationState} {result : Json}
    {config : Json.Members} (hviewed : operation.viewedAt = none) :
    (transitionedRow operation state (some result) config).isSome =
      canEnd config operation.createdAt state result := by
  unfold transitionedRow canEnd
  rw [hviewed, Option.all_some]
  cases result.storable with
  | true => simp
  | false => rfl

theorem transitionState_after {id : String} {operation : Operation} {config : Json.Members}
    (state : OperationState) (result : Json)
    (hfound : Table.lookup Operation.id id db.operations = some operation)
    (hpending : operation.state = .pending) (hviewed : operation.viewedAt = none)
    (hconfig : db.tenants operation.tenantId = some config) :
    Ensures (transitionState none id state (some result)) ⟨db, none⟩
      (After id db.credentials (ended config operation.createdAt state result)) := by
  have hid : operation.id = id := (Table.mem_of_lookup hfound).2
  have heq : transitionState none id state (some result) ⟨db, none⟩ =
      statement none .saveOperation (saveTransition operation state (some result) config)
        ⟨db, none⟩ := by
    rw [transitionState, select_next, hfound]
    dsimp only
    rw [select_next, hconfig]
  unfold Ensures ended
  rw [heq, ← isSome_transitionedRow hviewed]
  cases hrow : transitionedRow operation state (some result) config with
  | none =>
    have hsave : saveTransition operation state (some result) config db = none := by
      rw [saveTransition, hrow]
      rfl
    rw [statement_none hsave]
    exact ⟨fun e h => ⟨_, (Except.error.inj h).symm⟩, rfl, operation, hfound, hpending⟩
  | some saved =>
    have hsave : saveTransition operation state (some result) config db =
        some (saved, { db with operations := Table.save Operation.id saved db.operations }) := by
      rw [saveTransition, hrow]
      rfl
    obtain ⟨hsavedId, hstate⟩ := transitionedRow_some hrow
    rw [statement_some hsave]
    refine ⟨nofun, rfl, saved, ?_, hstate⟩
    rw [Table.lookup_save, if_pos (hsavedId.trans hid)]

/-- What is thrown in the `try` block and is no adapter error leaves it as it is. -/
theorem rescue_after {id : String} {credentials : List Credential} {state : OperationState}
    {x : Action Operation} {s : Store Db} (h : Ensures x s (After id credentials state)) :
    Ensures (rescue x (recordFailure none id)) s (After id credentials state) := by
  refine Ensures.rescue h (fun _ _ hafter => hafter) fun e s' hafter => ?_
  obtain ⟨name, rfl⟩ := hafter.thrown e rfl
  exact hafter

end Calls

/-! ### One call -/

/-- A call of `revoke`, with the configurations of the tenants while it runs. -/
structure RevokeCall where
  clock : Clock
  registry : Registry
  tenants : TenantId → Option Json.Members
  tenantId : TenantId
  credentialId : String

/-- What a call has when its operation is stored: the credential, the configuration of the tenant,
and what the registry and the adapter will say. -/
structure Entered where
  credential : Credential
  config : Json.Members
  answer : Except AgentError RevocationResult

namespace RevokeCall

variable (call : RevokeCall) (db : Db)

def before : Db := { db with tenants := call.tenants }

def run : Except Thrown Operation × Store Db :=
  revoke none call.clock call.registry call.tenantId call.credentialId ⟨call.before db, none⟩

def entered : Option Entered :=
  match assertRevocable call.credentialId (findCredential call.tenantId call.credentialId db) with
  | .error _ => none
  | .ok (credential, externalId) =>
    (call.tenants call.tenantId).bind fun config =>
      (insertNew call.clock (revokeInput call.tenantId call.credentialId externalId) config
        (call.before db)).map fun _ =>
          ⟨credential, config,
            revocation call.registry call.tenantId credential.connectorId externalId⟩

def revokedRows (instant : Time) (credentials : List Credential) : List Credential :=
  Table.updateWhere (fun c => decide (c.id = call.credentialId))
    (fun c => { c with state := .revoked, revokedAt := some instant }) credentials

/-- What the call makes of the credentials and of its operation, as one function of the answer. -/
def effect (e : Entered) (credentials : List Credential) : List Credential × OperationState :=
  match e.answer with
  | .error (.adapterError code message) =>
    (credentials, ended e.config call.clock.createdAt .failed (failure code message))
  | .error (.other _) => (credentials, .pending)
  | .ok result =>
    if !result.revoked then (credentials, ended e.config call.clock.createdAt .failed
      (failure "REVOCATION_FAILED" (result.error.getD "Revocation was not applied")))
    else
      match revokedAtOf call.clock result with
      | none => (credentials, .pending)
      | some instant => (call.revokedRows instant credentials,
          ended e.config call.clock.createdAt .completed result.spread)

end RevokeCall

section Effect

variable {call : RevokeCall} {db : Db}

theorem recordRevocation_after {operation : Operation} {stored : Db} {config : Json.Members}
    (result : RevocationResult)
    (hfound : Table.lookup Operation.id operation.id stored.operations = some operation)
    (hpending : operation.state = .pending) (hviewed : operation.viewedAt = none)
    (hcreated : operation.createdAt = call.clock.createdAt)
    (hconfig : stored.tenants operation.tenantId = some config) (credential : Credential) :
    Ensures (recordRevocation none call.clock call.credentialId operation.id result) ⟨stored, none⟩
      (After operation.id (call.effect ⟨credential, config, .ok result⟩ stored.credentials).1
        (call.effect ⟨credential, config, .ok result⟩ stored.credentials).2) := by
  unfold recordRevocation RevokeCall.effect
  dsimp only
  rw [← hcreated]
  split
  · exact transitionState_after .failed _ hfound hpending hviewed hconfig
  · cases hdate : revokedAtOf call.clock result with
    | none =>
      refine Ensures.bind (P := fun r s => r = .error (.database .updateCredential) ∧ s = ⟨stored, none⟩)
        ?_ nofun ?_
      · unfold Ensures
        rw [statement_none (by rfl)]
        exact ⟨rfl, rfl⟩
      · rintro e s ⟨he, rfl⟩
        exact ⟨fun e' h => ⟨_, (Except.error.inj h) ▸ Except.error.inj he⟩, rfl, operation, hfound,
          hpending⟩
    | some instant =>
      let updated : Db := { stored with credentials := call.revokedRows instant stored.credentials }
      have hupdate : markRevoked call.credentialId (some instant) stored = some ((), updated) := rfl
      refine Ensures.bind (P := fun r s => r = .ok () ∧ s = ⟨updated, none⟩) ?_ ?_ nofun
      · unfold Ensures
        rw [statement_some hupdate]
        exact ⟨rfl, rfl⟩
      · rintro _ s ⟨-, rfl⟩
        have hstored : Table.lookup Operation.id operation.id updated.operations = some operation :=
          hfound
        exact transitionState_after .completed _ hstored hpending hviewed hconfig

theorem body_after {operation : Operation} {stored : Db} (e : Entered)
    (hfound : Table.lookup Operation.id operation.id stored.operations = some operation)
    (hpending : operation.state = .pending) (hviewed : operation.viewedAt = none)
    (hcreated : operation.createdAt = call.clock.createdAt)
    (hconfig : stored.tenants operation.tenantId = some e.config) :
    Ensures (rescue (do
        let result ← check (e.answer.mapError .agent)
        recordRevocation none call.clock call.credentialId operation.id result)
      (recordFailure none operation.id)) ⟨stored, none⟩
      (fun _ s => s.committed.credentials = (call.effect e stored.credentials).1 ∧
        ∃ saved, Table.lookup Operation.id operation.id s.committed.operations = some saved ∧
          saved.state = (call.effect e stored.credentials).2) := by
  obtain ⟨credential, config, answer⟩ := e
  cases answer with
  | ok result =>
    exact Ensures.weaken (rescue_after (x := recordRevocation none call.clock call.credentialId
      operation.id result) (recordRevocation_after result hfound hpending hviewed hcreated hconfig
        credential)) fun r s h => ⟨h.credentials, h.operation⟩
  | error e =>
    cases e with
    | adapterError code message =>
      refine Ensures.weaken (transitionState_after .failed _ hfound hpending hviewed hconfig)
        fun r s h => ⟨h.credentials, ?_⟩
      rw [hcreated] at h
      exact h.operation
    | other message => exact ⟨rfl, operation, hfound, hpending⟩

/-- The call after its checks. -/
theorem run_eq {credential : Credential} {externalId : String}
    (h : assertRevocable call.credentialId (findCredential call.tenantId call.credentialId db) =
      .ok (credential, externalId)) :
    call.run db = (createOperation none call.clock
        (revokeInput call.tenantId call.credentialId externalId) >>= fun operation =>
      rescue (do
          let result ← check
            ((revocation call.registry call.tenantId credential.connectorId externalId).mapError .agent)
          recordRevocation none call.clock call.credentialId operation.id result)
        (recordFailure none operation.id)) ⟨call.before db, none⟩ := by
  rw [RevokeCall.run, revoke, select_next, Action.bind_apply]
  change Action.next (((assertRevocable call.credentialId
    (findCredential call.tenantId call.credentialId db)).mapError Thrown.exception), _) _ = _
  rw [h]
  rfl

/-- A call that stores its operation has the effect of its answer. -/
theorem run_entered {e : Entered} (h : call.entered db = some e) :
    (call.run db).2.committed.credentials = (call.effect e db.credentials).1 ∧
      ∃ saved, Table.lookup Operation.id call.clock.operationId
        (call.run db).2.committed.operations = some saved ∧
        saved.state = (call.effect e db.credentials).2 := by
  unfold RevokeCall.entered at h
  cases hrevocable : assertRevocable call.credentialId
      (findCredential call.tenantId call.credentialId db) with
  | error _ => simp [hrevocable] at h
  | ok found =>
    obtain ⟨credential, externalId⟩ := found
    simp only [hrevocable, Option.bind_eq_some_iff, Option.map_eq_some_iff] at h
    obtain ⟨config, htenant, ⟨operation, stored⟩, hinsert, rfl⟩ := h
    obtain ⟨hid, hpending, htenantId, hcreated, hviewed, rfl⟩ := insertNew_some hinsert
    have hcreate : createOperation none call.clock
        (revokeInput call.tenantId call.credentialId externalId) ⟨call.before db, none⟩ = _ :=
      createOperation_inserted htenant hinsert
    rw [run_eq hrevocable, Action.bind_apply, hcreate, Action.next_ok, ← hid]
    have hconfig : (call.before db).tenants operation.tenantId = some config := htenantId ▸ htenant
    refine body_after ⟨credential, config, _⟩ ?_ hpending hviewed hcreated hconfig
    rw [Table.lookup_save, if_pos rfl]

theorem run_not_entered (h : call.entered db = none) :
    (call.run db).2.committed.credentials = db.credentials ∧
      (call.run db).2.committed.operations = db.operations := by
  unfold RevokeCall.entered at h
  cases hrevocable : assertRevocable call.credentialId
      (findCredential call.tenantId call.credentialId db) with
  | error e =>
    have hrun : call.run db = (.error (.exception e), ⟨call.before db, none⟩) := by
      rw [RevokeCall.run, revoke, select_next, Action.bind_apply]
      change Action.next (((assertRevocable call.credentialId
        (findCredential call.tenantId call.credentialId db)).mapError Thrown.exception), _) _ = _
      rw [hrevocable]
      rfl
    rw [hrun]
    exact ⟨rfl, rfl⟩
  | ok found =>
    obtain ⟨credential, externalId⟩ := found
    simp only [hrevocable, Option.bind_eq_none_iff, Option.map_eq_none_iff] at h
    obtain ⟨e, hrefused⟩ : ∃ e, createOperation none call.clock
        (revokeInput call.tenantId call.credentialId externalId) ⟨call.before db, none⟩ =
          (.error e, ⟨call.before db, none⟩) := createOperation_refused h
    rw [run_eq hrevocable, Action.bind_apply, hrefused, Action.next_error]
    exact ⟨rfl, rfl⟩

end Effect

/-! ### Runs of calls -/

def step (db : Db) (call : RevokeCall) : Option Db := some (call.run db).2.committed

/-- What `adapter.revoke` resolves with, if the call comes to it. -/
def RevokeCall.resolved (call : RevokeCall) (db : Db) : Option (Credential × RevocationResult) :=
  (call.entered db).bind fun e =>
    match e.answer with
    | .ok result => some (e.credential, result)
    | .error _ => none

/-- The bookkeeping of one call. -/
structure Consistent (db : Db) (call : RevokeCall) (db' : Db) : Prop where
  revoked : ∀ credential result, call.resolved db = some (credential, result) →
    result.revoked = true →
      (∃ c, Table.lookup Credential.id call.credentialId db'.credentials = some c ∧
        c.state = .revoked ∧ c.revokedAt.isSome = true) ∧
      ∃ operation, Table.lookup Operation.id call.clock.operationId db'.operations =
        some operation ∧ operation.state = .completed
  failed : ∀ operation, Table.lookup Operation.id call.clock.operationId db.operations = none →
    Table.lookup Operation.id call.clock.operationId db'.operations = some operation →
      operation.state = .failed → db'.credentials = db.credentials
  kept : ∀ id c, Table.lookup Credential.id id db.credentials = some c → c.state = .revoked →
    ∃ c', Table.lookup Credential.id id db'.credentials = some c' ∧ c'.state = .revoked ∧
      c'.revokedAt = c.revokedAt

/-- The operation can be completed with the answer: its expiry is a date, and no text of the answer
has U+0000. -/
def RevokeCall.completes (call : RevokeCall) (result : RevocationResult) : Bool :=
  (call.tenants call.tenantId).any fun config =>
    canEnd config call.clock.createdAt .completed result.spread

/-- A revocation that the adapter confirms has a date that the column holds, its operation can be
completed, and the credential has no other date. -/
def Datable (db : Db) (call : RevokeCall) : Prop :=
  ∀ credential result, call.resolved db = some (credential, result) → result.revoked = true →
    call.completes result = true ∧ ∃ instant, revokedAtOf call.clock result = some instant ∧
      (credential.state = .revoked → credential.revokedAt = some instant)

section Step

variable {call : RevokeCall} {db : Db}

theorem entered_some {e : Entered} (h : call.entered db = some e) :
    Table.lookup Credential.id call.credentialId db.credentials = some e.credential ∧
      call.tenants call.tenantId = some e.config := by
  unfold RevokeCall.entered at h
  cases hrevocable : assertRevocable call.credentialId
      (findCredential call.tenantId call.credentialId db) with
  | error _ => simp [hrevocable] at h
  | ok found =>
    simp only [hrevocable, Option.bind_eq_some_iff, Option.map_eq_some_iff] at h
    obtain ⟨config, htenant, stored, -, rfl⟩ := h
    refine ⟨?_, htenant⟩
    cases hfound : findCredential call.tenantId call.credentialId db with
    | none =>
      rw [hfound] at hrevocable
      cases hrevocable
    | some credential =>
      have hsame : found.1 = credential := by
        rw [hfound, assertRevocable] at hrevocable
        split at hrevocable
        · cases hrevocable
        · split at hrevocable
          · cases hrevocable
          · cases hrevocable
            rfl
      rw [hsame]
      exact (Option.filter_eq_some_iff.mp hfound).1

theorem consistent_of_unchanged {db' : Db} (hcredentials : db'.credentials = db.credentials)
    (hresolved : ∀ credential result, call.resolved db = some (credential, result) →
      result.revoked = false) : Consistent db call db' where
  revoked credential result h hrevoked := by
    rw [hresolved credential result h] at hrevoked
    cases hrevoked
  failed _ _ _ _ := hcredentials
  kept id c hc hstate := ⟨c, hcredentials ▸ hc, hstate, rfl⟩

theorem ended_completed_iff {config : Json.Members} {result : RevocationResult}
    (h : call.tenants call.tenantId = some config) :
    ended config call.clock.createdAt .completed result.spread = .completed ↔
      call.completes result = true := by
  unfold ended RevokeCall.completes
  rw [h, Option.any_some]
  cases canEnd config call.clock.createdAt .completed result.spread <;> decide

theorem lookup_revokedRows (instant : Time) (id : String) (credentials : List Credential) :
    Table.lookup Credential.id id (call.revokedRows instant credentials) =
      (Table.lookup Credential.id id credentials).map fun c =>
        if c.id = call.credentialId then { c with state := .revoked, revokedAt := some instant }
        else c := by
  have hid : ∀ c : Credential,
      ({ c with state := .revoked, revokedAt := some instant } : Credential).id = c.id :=
    fun _ => rfl
  rw [RevokeCall.revokedRows, Table.lookup_updateWhere _ hid]
  simp only [decide_eq_true_eq]

/-- A confirmed revocation with a date that the column holds. -/
theorem consistent_revoked_iff {db' : Db} {credential : Credential} {result : RevocationResult}
    {instant : Time} {operation : Operation}
    (hresolved : call.resolved db = some (credential, result)) (hrevoked : result.revoked = true)
    (hfound : Table.lookup Credential.id call.credentialId db.credentials = some credential)
    (hcredentials : db'.credentials = call.revokedRows instant db.credentials)
    (hoperation : Table.lookup Operation.id call.clock.operationId db'.operations = some operation)
    (hfailed : operation.state ≠ .failed) :
    Consistent db call db' ↔ operation.state = .completed ∧
      (credential.state = .revoked → credential.revokedAt = some instant) := by
  have hid : credential.id = call.credentialId := (Table.mem_of_lookup hfound).2
  have hrow : Table.lookup Credential.id call.credentialId db'.credentials =
      some { credential with state := .revoked, revokedAt := some instant } := by
    rw [hcredentials, lookup_revokedRows, hfound, Option.map_some, if_pos hid]
  constructor
  · intro h
    obtain ⟨-, stored, hstored, hcompleted⟩ := h.revoked credential result hresolved hrevoked
    rw [hoperation] at hstored
    cases hstored
    refine ⟨hcompleted, fun hstate => ?_⟩
    obtain ⟨c, hc, -, hdate⟩ := h.kept call.credentialId credential hfound hstate
    rw [hrow] at hc
    cases hc
    exact hdate.symm
  · rintro ⟨hcompleted, hdate⟩
    refine ⟨fun _ _ _ _ => ⟨⟨_, hrow, rfl, rfl⟩, operation, hoperation, hcompleted⟩, ?_, ?_⟩
    · intro stored _ hstored hstate
      rw [hoperation] at hstored
      cases hstored
      exact absurd hstate hfailed
    · intro id c hc hstate
      have hkey : c.id = id := (Table.mem_of_lookup hc).2
      by_cases hsame : id = call.credentialId
      · rw [hsame] at hc ⊢
        rw [hfound] at hc
        cases hc
        exact ⟨_, hrow, rfl, (hdate hstate).symm⟩
      · refine ⟨c, ?_, hstate, rfl⟩
        rw [hcredentials, lookup_revokedRows, hc, Option.map_some, if_neg (hkey ▸ hsame)]

/-- A call that the adapter does not confirm is consistent and has nothing to date. -/
theorem consistent_iff_of_unconfirmed {db' : Db} (hcredentials : db'.credentials = db.credentials)
    (hresolved : ∀ credential result, call.resolved db = some (credential, result) →
      result.revoked = false) : Consistent db call db' ↔ Datable db call := by
  refine iff_of_true (consistent_of_unchanged hcredentials hresolved) fun credential result h ht => ?_
  rw [hresolved credential result h] at ht
  cases ht

theorem consistent_iff_of_confirmed {credential : Credential} {config : Json.Members}
    {result : RevocationResult} (hentered : call.entered db = some ⟨credential, config, .ok result⟩)
    (hrevoked : result.revoked = true) :
    Consistent db call (call.run db).2.committed ↔ call.completes result = true ∧ ∃ instant,
      revokedAtOf call.clock result = some instant ∧
        (credential.state = .revoked → credential.revokedAt = some instant) := by
  have hresolved : call.resolved db = some (credential, result) := by
    rw [RevokeCall.resolved, hentered]
    rfl
  obtain ⟨hfound, htenant⟩ := entered_some hentered
  obtain ⟨hcredentials, operation, hoperation, hstate⟩ := run_entered hentered
  cases hdate : revokedAtOf call.clock result with
  | none =>
    -- the update is refused, and the operation is left as it was created
    have hpending : operation.state = .pending := by
      simp [hstate, RevokeCall.effect, hrevoked, hdate]
    refine iff_of_false (fun h => ?_) (by simp)
    obtain ⟨-, stored, hstored, hcompleted⟩ := h.revoked credential result hresolved hrevoked
    rw [hoperation] at hstored
    cases hstored
    rw [hpending] at hcompleted
    cases hcompleted
  | some instant =>
    have heffect : call.effect ⟨credential, config, .ok result⟩ db.credentials =
        (call.revokedRows instant db.credentials,
          ended config call.clock.createdAt .completed result.spread) := by
      simp [RevokeCall.effect, hrevoked, hdate]
    rw [heffect] at hcredentials hstate
    have hfailed : operation.state ≠ .failed := by
      rw [hstate, ended]
      split <;> exact nofun
    rw [consistent_revoked_iff hresolved hrevoked hfound hcredentials hoperation hfailed, hstate,
      ended_completed_iff htenant]
    simp

theorem consistent_iff (db : Db) (call : RevokeCall) :
    Consistent db call (call.run db).2.committed ↔ Datable db call := by
  cases hentered : call.entered db with
  | none =>
    refine consistent_iff_of_unconfirmed (run_not_entered hentered).1 fun _ _ h => ?_
    rw [RevokeCall.resolved, hentered] at h
    cases h
  | some e =>
    obtain ⟨hcredentials, -⟩ := run_entered hentered
    obtain ⟨credential, config, answer⟩ := e
    cases answer with
    | error e =>
      refine consistent_iff_of_unconfirmed ?_ fun _ _ h => ?_
      · rw [hcredentials]
        cases e <;> rfl
      · rw [RevokeCall.resolved, hentered] at h
        cases h
    | ok result =>
      have hresolved : call.resolved db = some (credential, result) := by
        rw [RevokeCall.resolved, hentered]
        rfl
      cases hrevoked : result.revoked with
      | false =>
        refine consistent_iff_of_unconfirmed ?_ fun _ _ h => ?_
        · simp [hcredentials, RevokeCall.effect, hrevoked]
        · rw [hresolved] at h
          cases h
          exact hrevoked
      | true =>
        rw [consistent_iff_of_confirmed hentered hrevoked]
        constructor
        · intro h _ _ hother _
          rw [hresolved] at hother
          cases hother
          exact h
        · exact fun h => h credential result hresolved hrevoked

end Step

def issuedCredential : Credential where
  id := "c"
  tenantId := "t"
  connectorId := "k"
  externalId := some "agent-c"
  format := .anoncreds
  state := .issued
  issuedAt := some 0
  revokedAt := none

def issuedDb : Db where
  operations := []
  credentials := [issuedCredential]
  tenants := fun _ => some []

/-- The adapter confirms the revocation and dates it with a text that is no date. -/
def undated : RevokeCall where
  clock := noon
  registry := fun _ _ => .ok ⟨fun _ => .error (.other ""), fun _ => .ok (),
    fun externalId => .ok ⟨externalId, true, some "not a date", none⟩⟩
  tenants := fun _ => some []
  tenantId := "t"
  credentialId := "c"

end VcCommonService.Credentials.Actions
