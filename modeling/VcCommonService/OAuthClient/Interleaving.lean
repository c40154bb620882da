import VcCommonService.OAuthClient.Effects

/-!
# Client operations, statement by statement

`update` and `rotateSecret` check a snapshot and then `save` the entity: the save reads the
row once more and writes every column in which the entity differs from it. `revokeClient`
reads and then issues one `UPDATE`, `revokeAllForTenant` is one `UPDATE`. Between any two
statements other calls may move; with nobody in between, the statements do what the
operations of the service do.
-/

namespace VcCommonService.OAuthClients
open Lib Auth
open Table (written written_self)

/-! ### The operations up to their save -/

def prepareUpdate (env : Env) (clients : List OAuthClient) (tenantId : TenantId)
    (clientId : String) (dto : UpdateOAuthClientDto) (auth : Option AuthContext) :
    Except ServiceError OAuthClient := do
  let caller ← requireCaller auth
  assertSupportedGrantTypes env (dto.grantTypes.assign [])
  let client ← requireTenantClient clients tenantId clientId true
  checkUpdate env client dto caller
  match applyUpdate dto client with
  | none => throw (.constraint "not_null")
  | some entity => return entity

def prepareRotation (env : Env) (clients : List OAuthClient) (tenantId : TenantId)
    (clientId clientSecret salt : String) : Except ServiceError OAuthClient := do
  let client ← requireTenantClient clients tenantId clientId true
  return { client with clientSecretHash := some (env.hash salt clientSecret) }

/-! ### `save` as a read and a write -/

/-- The row `current` after the columns are written in which `entity` differs from `row`. -/
def writeColumns (row entity current : OAuthClient) : OAuthClient :=
  { id := current.id
    tenantId := written row.tenantId entity.tenantId current.tenantId
    clientId := written row.clientId entity.clientId current.clientId
    clientSecretHash :=
      written row.clientSecretHash entity.clientSecretHash current.clientSecretHash
    isPublic := written row.isPublic entity.isPublic current.isPublic
    name := written row.name entity.name current.name
    scopes := written row.scopes entity.scopes current.scopes
    roles := written row.roles entity.roles current.roles
    redirectUris := written row.redirectUris entity.redirectUris current.redirectUris
    grantTypes := written row.grantTypes entity.grantTypes current.grantTypes
    createdBy := written row.createdBy entity.createdBy current.createdBy
    refreshTokenTtlSeconds := written row.refreshTokenTtlSeconds
      entity.refreshTokenTtlSeconds current.refreshTokenTtlSeconds
    revokedAt := written row.revokedAt entity.revokedAt current.revokedAt
    revokedReason := written row.revokedReason entity.revokedReason current.revokedReason
    postLogoutRedirectUris := written row.postLogoutRedirectUris
      entity.postLogoutRedirectUris current.postLogoutRedirectUris }

def findById (clients : List OAuthClient) (id : String) : Option OAuthClient :=
  clients.find? fun c => decide (c.id = id)

/-- The table and, as history of one client: how many rotations have stored a hash, and
which of them the stored hash is from. -/
structure ClientStore where
  clients : List OAuthClient
  generation : ℕ := 0
  rotations : ℕ := 0
  deriving Repr, DecidableEq

/-- Where a call is: its entity is ready to be saved, the save has read the row, or a
revocation has found the client active. -/
inductive ClientCall where
  | idle
  | prepared (rotates : Bool) (entity : OAuthClient) (generation : ℕ)
  | saving (rotates : Bool) (entity : OAuthClient) (generation : ℕ) (row : OAuthClient)
  | revoking (id : String)
  deriving Repr, DecidableEq

inductive ClientEvent where
  | update (tenantId : TenantId) (clientId : String) (dto : UpdateOAuthClientDto)
      (auth : Option AuthContext)
  | rotateSecret (tenantId : TenantId) (clientId clientSecret salt : String)
  | revokeClient (tenantId : TenantId) (clientId : String)
  | revokeAllForTenant (tenantId : TenantId) (now : Time)
  | select
  | write
  | revoke (now : Time)
  deriving Repr, DecidableEq

/-- The store after a save: a rotation that writes the hash column of the client is the
next generation, another save that writes it brings the generation of its snapshot back. -/
def ClientStore.saved (db : ClientStore) (id : String) (rotates : Bool) (entity : OAuthClient)
    (generation : ℕ) (row : OAuthClient) (clients : List OAuthClient) : ClientStore :=
  if entity.id = id ∧ entity.clientSecretHash ≠ row.clientSecretHash then
    if rotates then ⟨clients, db.rotations + 1, db.rotations + 1⟩
    else ⟨clients, generation, db.rotations⟩
  else { db with clients }

/-- One statement of one call. No statement deletes a row, so a save finds its row. -/
def clientAct (env : Env) (id : String) (db : ClientStore) :
    ClientCall → ClientEvent → Option (ClientStore × ClientCall)
  | .idle, .update tenantId clientId dto auth =>
    match prepareUpdate env db.clients tenantId clientId dto auth with
    | .error _ => some (db, .idle)
    | .ok entity => some (db, .prepared false entity db.generation)
  | .idle, .rotateSecret tenantId clientId clientSecret salt =>
    match prepareRotation env db.clients tenantId clientId clientSecret salt with
    | .error _ => some (db, .idle)
    | .ok entity => some (db, .prepared true entity db.generation)
  | .idle, .revokeClient tenantId clientId =>
    match requireTenantClient db.clients tenantId clientId false with
    | .error _ => some (db, .idle)
    | .ok client =>
      if client.revokedAt.isSome then some (db, .idle) else some (db, .revoking client.id)
  | .idle, .revokeAllForTenant tenantId now =>
    some ({ db with clients := revokeAllForTenant db.clients tenantId now }, .idle)
  | .prepared rotates entity generation, .select =>
    match findById db.clients entity.id with
    | none => none
    | some row => some (db, .saving rotates entity generation row)
  | .saving rotates entity generation row, .write =>
    match findById db.clients entity.id with
    | none => none
    | some current =>
      match saveClient db.clients (writeColumns row entity current) with
      | .error _ => some (db, .idle)
      | .ok clients => some (db.saved id rotates entity generation row clients, .idle)
  | .revoking id', .revoke now =>
    some ({ db with clients := revoke db.clients id' now }, .idle)
  | _, _ => none

def clientStep (env : Env) (id : String) :
    Run.World ClientStore ClientCall → ℕ × ClientEvent → Option (Run.World ClientStore ClientCall) :=
  Run.interleave (clientAct env id)

/-! ### A save with nobody in between -/

theorem update_eq (env : Env) (clients : List OAuthClient) (tenantId : TenantId)
    (clientId : String) (dto : UpdateOAuthClientDto) (auth : Option AuthContext) :
    update env clients tenantId clientId dto auth =
      (do
        let entity ← prepareUpdate env clients tenantId clientId dto auth
        let clients ← saveClient clients entity
        return (clients, entity)) := by
  simp only [update, prepareUpdate, bind_assoc]
  refine bind_congr fun caller => bind_congr fun _ => bind_congr fun client =>
    bind_congr fun _ => ?_
  cases applyUpdate dto client with
  | none => rfl
  | some entity => rfl

theorem rotateSecret_eq (env : Env) (clients : List OAuthClient) (tenantId : TenantId)
    (clientId clientSecret salt : String) :
    rotateSecret env clients tenantId clientId clientSecret salt =
      (do
        let entity ← prepareRotation env clients tenantId clientId clientSecret salt
        let clients ← saveClient clients entity
        return (clients, entity)) := by
  simp only [rotateSecret, prepareRotation, bind_assoc, pure_bind]

theorem writeColumns_self {row entity : OAuthClient} (hid : entity.id = row.id) :
    writeColumns row entity row = entity := by
  cases entity
  simp only [writeColumns, written_self, ← hid]

theorem findById_some {clients : List OAuthClient} {id : String} {client : OAuthClient}
    (h : findById clients id = some client) : client ∈ clients ∧ client.id = id := by
  have hp := List.find?_some h
  exact ⟨List.mem_of_find?_eq_some h, of_decide_eq_true hp⟩

theorem findById_of_mem {clients : List OAuthClient} (hu : Table.UniqueKeys OAuthClient.id clients)
    {client : OAuthClient} (h : client ∈ clients) : findById clients client.id = some client := by
  cases hf : findById clients client.id with
  | none =>
    have hnone := List.find?_eq_none.mp hf client h
    simp at hnone
  | some found =>
    obtain ⟨hmem, hid⟩ := findById_some hf
    rw [Table.eq_of_key hu hmem h hid]

theorem prepareUpdate_ok {env : Env} {clients : List OAuthClient} {tenantId : TenantId}
    {clientId : String} {dto : UpdateOAuthClientDto} {auth : Option AuthContext}
    {entity : OAuthClient} (h : prepareUpdate env clients tenantId clientId dto auth = .ok entity) :
    ∃ client ∈ clients, client.revokedAt = none ∧ applyUpdate dto client = some entity := by
  unfold prepareUpdate at h
  obtain ⟨caller, -, h⟩ := bind_eq_ok.mp h
  obtain ⟨_, -, h⟩ := bind_eq_ok.mp h
  obtain ⟨client, hclient, h⟩ := bind_eq_ok.mp h
  obtain ⟨_, -, h⟩ := bind_eq_ok.mp h
  obtain ⟨hfind, hactive⟩ := requireTenantClient_ok hclient
  refine ⟨client, (findByTenantAndClientId_some hfind).1, hactive rfl, ?_⟩
  split at h
  · cases h
  next e he =>
    cases h
    exact he

theorem prepareRotation_ok {env : Env} {clients : List OAuthClient} {tenantId : TenantId}
    {clientId clientSecret salt : String} {entity : OAuthClient}
    (h : prepareRotation env clients tenantId clientId clientSecret salt = .ok entity) :
    ∃ client ∈ clients, client.revokedAt = none ∧
      entity = { client with clientSecretHash := some (env.hash salt clientSecret) } := by
  unfold prepareRotation at h
  obtain ⟨client, hclient, h⟩ := bind_eq_ok.mp h
  obtain ⟨hfind, hactive⟩ := requireTenantClient_ok hclient
  cases h
  exact ⟨client, (findByTenantAndClientId_some hfind).1, hactive rfl, rfl⟩

@[simp] theorem saved_clients (db : ClientStore) (id : String) (rotates : Bool)
    (entity : OAuthClient) (generation : ℕ) (row : OAuthClient) (clients : List OAuthClient) :
    (db.saved id rotates entity generation row clients).clients = clients := by
  unfold ClientStore.saved
  split
  · split <;> rfl
  · rfl

theorem save_uninterrupted (env : Env) (id : String) {db : ClientStore} {calls : ℕ → ClientCall}
    (hu : Table.UniqueKeys OAuthClient.id db.clients) {i : ℕ} {rotates : Bool}
    {row entity : OAuthClient} {generation : ℕ}
    (hcall : calls i = .prepared rotates entity generation)
    (hrow : row ∈ db.clients) (hid : entity.id = row.id)
    {clients' : List OAuthClient} (hsave : saveClient db.clients entity = .ok clients') :
    ∃ w', Run.final (clientStep env id) ⟨db, calls⟩ [(i, .select), (i, .write)] = some w' ∧
      w'.db.clients = clients' := by
  have hfind : findById db.clients entity.id = some row := hid ▸ findById_of_mem hu hrow
  refine ⟨⟨db.saved id rotates entity generation row clients',
    Function.update (Function.update calls i (.saving rotates entity generation row)) i .idle⟩,
    ?_, saved_clients ..⟩
  simp only [Run.final, clientStep, Run.interleave, hcall, clientAct, hfind, Option.map_some,
    Option.bind_some, Function.update_self, writeColumns_self hid, hsave]

/-- With nobody in between, the statements of an update are `update`. -/
theorem update_uninterrupted (env : Env) (id : String) {w : Run.World ClientStore ClientCall}
    (hu : Table.UniqueKeys OAuthClient.id w.db.clients) {i : ℕ} (hidle : w.calls i = .idle)
    {tenantId : TenantId} {clientId : String} {dto : UpdateOAuthClientDto}
    {auth : Option AuthContext} {clients' : List OAuthClient} {entity : OAuthClient}
    (h : update env w.db.clients tenantId clientId dto auth = .ok (clients', entity)) :
    ∃ w', Run.final (clientStep env id) w
        [(i, .update tenantId clientId dto auth), (i, .select), (i, .write)] = some w' ∧
      w'.db.clients = clients' := by
  rw [update_eq] at h
  obtain ⟨entity, hprepare, h⟩ := bind_eq_ok.mp h
  obtain ⟨rows, hsave, h⟩ := bind_eq_ok.mp h
  cases h
  obtain ⟨client, hclient, -, hentity⟩ := prepareUpdate_ok hprepare
  have hstep : clientStep env id w (i, .update tenantId clientId dto auth) =
      some ⟨w.db, Function.update w.calls i (.prepared false entity w.db.generation)⟩ := by
    simp only [clientStep, Run.interleave, hidle, clientAct, hprepare, Option.map_some]
  rw [Run.final, hstep, Option.bind_some]
  exact save_uninterrupted env id hu (Function.update_self ..) hclient
    (applyUpdate_some hentity).1 hsave

theorem rotateSecret_uninterrupted (env : Env) (id : String)
    {w : Run.World ClientStore ClientCall} (hu : Table.UniqueKeys OAuthClient.id w.db.clients)
    {i : ℕ} (hidle : w.calls i = .idle) {tenantId : TenantId}
    {clientId clientSecret salt : String} {clients' : List OAuthClient} {entity : OAuthClient}
    (h : rotateSecret env w.db.clients tenantId clientId clientSecret salt =
      .ok (clients', entity)) :
    ∃ w', Run.final (clientStep env id) w
        [(i, .rotateSecret tenantId clientId clientSecret salt), (i, .select), (i, .write)] =
          some w' ∧ w'.db.clients = clients' := by
  rw [rotateSecret_eq] at h
  obtain ⟨entity, hprepare, h⟩ := bind_eq_ok.mp h
  obtain ⟨rows, hsave, h⟩ := bind_eq_ok.mp h
  cases h
  obtain ⟨client, hclient, -, hentity⟩ := prepareRotation_ok hprepare
  have hstep : clientStep env id w (i, .rotateSecret tenantId clientId clientSecret salt) =
      some ⟨w.db, Function.update w.calls i (.prepared true entity w.db.generation)⟩ := by
    simp only [clientStep, Run.interleave, hidle, clientAct, hprepare, Option.map_some]
  have hid : entity.id = client.id := by rw [hentity]
  rw [Run.final, hstep, Option.bind_some]
  exact save_uninterrupted env id hu (Function.update_self ..) hclient hid hsave

end VcCommonService.OAuthClients
