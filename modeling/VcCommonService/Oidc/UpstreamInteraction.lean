import VcCommonService.Common
import VcCommonService.Lib.Select

/-!
# Upstream login transactions (`oidc-upstream.service.ts`, `oidc-upstream-interaction.repository.ts`)

One row of `oidc_upstream_interaction` for each interaction of `oidc-provider` that was
sent to the upstream provider. A row is found by its state when the upstream provider
calls back and by its interaction uid when the browser returns.
-/

namespace VcCommonService.Oidc
open Lib
open Table (written)

abbrev Browser := ℕ

/-- The `oidc_upstream_interaction` row (`oidc-upstream-interaction.entity.ts`). The last
field is history: the browser whose callback wrote `tenantUserId`. -/
structure OidcUpstreamInteraction where
  id : String
  state : String
  nonce : String
  interactionUid : String
  codeVerifier : String
  tenantId : TenantId
  tenantUserId : Option String := none
  createdAt : Time
  expiresAt : Time
  consumedAt : Option Time := none
  storedBy : Option Browser := none
  deriving Repr, DecidableEq

/-- What `initiateUpstreamLogin` and the database draw for one login. -/
structure Draw where
  codeVerifier : String
  state : String
  nonce : String
  id : String
  deriving Repr, DecidableEq

/-! ### Repository -/

/-- `interactionUid` is unique, so the order of the query picks nothing. -/
def findByInteractionUid (rows : List OidcUpstreamInteraction) (uid : String) :
    Option OidcUpstreamInteraction :=
  rows.find? fun r => decide (r.interactionUid = uid)

def findByState (rows : List OidcUpstreamInteraction) (state : String) :
    Option OidcUpstreamInteraction :=
  rows.find? fun r => decide (r.state = state)

def duplicateKey (constraint : String) : String :=
  "duplicate key value violates unique constraint \"" ++ constraint ++ "\""

/-- The row `entity` in the place of the row with its id, or behind all others. -/
def putInteraction (rows : List OidcUpstreamInteraction) (entity : OidcUpstreamInteraction) :
    Except String (List OidcUpstreamInteraction) :=
  let others := rows.filter fun r => decide (r.id ≠ entity.id)
  if others.any fun r => decide (r.state = entity.state) then
    .error (duplicateKey "oidc_upstream_interaction_state_key")
  else if others.any fun r => decide (r.interactionUid = entity.interactionUid) then
    .error (duplicateKey "oidc_upstream_interaction_interaction_uid_key")
  else .ok (Table.save OidcUpstreamInteraction.id entity rows)

/-- The row `current` after the columns are written in which `entity` differs from `row`. -/
def writeColumns (row entity current : OidcUpstreamInteraction) : OidcUpstreamInteraction :=
  { id := current.id
    state := written row.state entity.state current.state
    nonce := written row.nonce entity.nonce current.nonce
    interactionUid := written row.interactionUid entity.interactionUid current.interactionUid
    codeVerifier := written row.codeVerifier entity.codeVerifier current.codeVerifier
    tenantId := written row.tenantId entity.tenantId current.tenantId
    tenantUserId := written row.tenantUserId entity.tenantUserId current.tenantUserId
    createdAt := written row.createdAt entity.createdAt current.createdAt
    expiresAt := written row.expiresAt entity.expiresAt current.expiresAt
    consumedAt := written row.consumedAt entity.consumedAt current.consumedAt
    storedBy :=
      if entity.tenantUserId = row.tenantUserId then current.storedBy else entity.storedBy }

/-- The second statement of `repository.save(entity)`: its first one has read `row`, and an
entity without a row is inserted. -/
def saveInteraction (rows : List OidcUpstreamInteraction) (entity : OidcUpstreamInteraction) :
    Option OidcUpstreamInteraction → Except String (List OidcUpstreamInteraction)
  | none =>
    if rows.any fun r => decide (r.id = entity.id) then
      .error (duplicateKey "oidc_upstream_interaction_pkey")
    else putInteraction rows entity
  | some row =>
    match Table.lookup OidcUpstreamInteraction.id entity.id rows with
    | none => .ok rows
    | some current => putInteraction rows (writeColumns row entity current)

/-- The row of a login that starts or starts again; the latter keeps `id` and `createdAt`. -/
def upsertedRow (rows : List OidcUpstreamInteraction) (draw : Draw) (interactionUid : String)
    (tenantId : TenantId) (expiresAt now : Time) : OidcUpstreamInteraction :=
  let old := findByInteractionUid rows interactionUid
  { id := (old.map OidcUpstreamInteraction.id).getD draw.id
    state := draw.state, nonce := draw.nonce, interactionUid, codeVerifier := draw.codeVerifier
    tenantId, expiresAt
    createdAt := (old.map OidcUpstreamInteraction.createdAt).getD now }

def upsertByInteractionUid (rows : List OidcUpstreamInteraction) (draw : Draw)
    (interactionUid : String) (tenantId : TenantId) (expiresAt now : Time) :
    Except String (List OidcUpstreamInteraction) :=
  if interactionUid = "" then
    .error "interactionUid is required for upsertByInteractionUid"
  else putInteraction rows (upsertedRow rows draw interactionUid tenantId expiresAt now)

def purgeExpiredUpstreamInteractionsBatch (rows : List OidcUpstreamInteraction) (limit : ℕ)
    (now : Time) : List OidcUpstreamInteraction :=
  let expired := rows.filter fun r => decide (r.expiresAt < now)
  let batch := (Table.orderBy OidcUpstreamInteraction.expiresAt expired).take (max 1 limit)
  Table.deleteWhere (fun r => (batch.map OidcUpstreamInteraction.id).contains r.id) rows

/-! ### Service -/

def interactionTtl : Time := 15 * 60 * 1000

def storeInteraction (rows : List OidcUpstreamInteraction) (draw : Draw) (interactionUid : String)
    (tenantId : TenantId) (now : Time) : Except String (List OidcUpstreamInteraction) :=
  upsertByInteractionUid rows draw interactionUid tenantId (now + interactionTtl) now

def validateInteraction (rows : List OidcUpstreamInteraction) (state : String) (now : Time) :
    Except String OidcUpstreamInteraction :=
  match findByState rows state with
  | none => .error ("Interaction not found for state: " ++ state)
  | some r =>
    if r.expiresAt < now then .error ("Interaction has expired for state: " ++ state)
    else .ok r

def consumeInteraction (rows : List OidcUpstreamInteraction) (state : String) (now : Time) :
    Except String OidcUpstreamInteraction := do
  let r ← validateInteraction rows state now
  return { r with consumedAt := some now }

def setTenantUserIdForInteraction (rows : List OidcUpstreamInteraction) (state : String)
    (tenantUserId : String) (browser : Browser) (now : Time) :
    Except String OidcUpstreamInteraction := do
  let r ← validateInteraction rows state now
  return { r with tenantUserId := some tenantUserId, storedBy := some browser }

/-! ### What the operations return -/

variable {rows rows' : List OidcUpstreamInteraction} {r entity : OidcUpstreamInteraction}
  {state uid tenantUserId : String} {now : Time} {browser : Browser}

theorem findByInteractionUid_some (h : findByInteractionUid rows uid = some r) :
    r ∈ rows ∧ r.interactionUid = uid :=
  ⟨List.mem_of_find?_eq_some h, by simpa using List.find?_some h⟩

theorem validateInteraction_ok (h : validateInteraction rows state now = .ok r) :
    r ∈ rows ∧ r.state = state := by
  unfold validateInteraction at h
  split at h
  · cases h
  next found hf =>
    split at h
    · cases h
    · cases h
      exact ⟨List.mem_of_find?_eq_some hf, by simpa using List.find?_some hf⟩

theorem consumeInteraction_ok (h : consumeInteraction rows state now = .ok entity) :
    ∃ r ∈ rows, r.state = state ∧ entity = { r with consumedAt := some now } := by
  obtain ⟨r, hr, he⟩ := bind_eq_ok.mp h
  obtain ⟨hmem, hstate⟩ := validateInteraction_ok hr
  cases he
  exact ⟨r, hmem, hstate, rfl⟩

theorem setTenantUserIdForInteraction_ok
    (h : setTenantUserIdForInteraction rows state tenantUserId browser now = .ok entity) :
    ∃ r ∈ rows, r.state = state ∧
      entity = { r with tenantUserId := some tenantUserId, storedBy := some browser } := by
  obtain ⟨r, hr, he⟩ := bind_eq_ok.mp h
  obtain ⟨hmem, hstate⟩ := validateInteraction_ok hr
  cases he
  exact ⟨r, hmem, hstate, rfl⟩

theorem putInteraction_ok (h : putInteraction rows entity = .ok rows') (hr : r ∈ rows') :
    r = entity ∨ r ∈ rows := by
  unfold putInteraction at h
  dsimp only at h
  split at h
  · cases h
  · split at h
    · cases h
    · cases h
      exact Table.eq_or_mem_of_mem_save hr

theorem saveInteraction_ok {row : Option OidcUpstreamInteraction}
    (h : saveInteraction rows entity row = .ok rows') (hr : r ∈ rows') :
    r ∈ rows ∨ (row = none ∧ r = entity) ∨
      ∃ read, row = some read ∧ ∃ current ∈ rows, current.id = entity.id ∧
        r = writeColumns read entity current := by
  cases row with
  | none =>
    simp only [saveInteraction] at h
    split at h
    · cases h
    · rcases putInteraction_ok h hr with rfl | hr
      · exact Or.inr (Or.inl ⟨rfl, rfl⟩)
      · exact Or.inl hr
  | some read =>
    simp only [saveInteraction] at h
    split at h
    · cases h
      exact Or.inl hr
    next current hcurrent =>
      obtain ⟨hmem, hid⟩ := Table.mem_of_lookup hcurrent
      rcases putInteraction_ok h hr with rfl | hr
      · exact Or.inr (Or.inr ⟨read, rfl, current, hmem, hid, rfl⟩)
      · exact Or.inl hr

theorem storeInteraction_ok {draw : Draw} {tenantId : TenantId}
    (h : storeInteraction rows draw uid tenantId now = .ok rows') (hr : r ∈ rows') :
    r ∈ rows ∨ r = upsertedRow rows draw uid tenantId (now + interactionTtl) now := by
  unfold storeInteraction upsertByInteractionUid at h
  split at h
  · cases h
  · exact (putInteraction_ok h hr).symm

/-- A login that starts again keeps the id of its row. -/
theorem upsertedRow_id (rows : List OidcUpstreamInteraction) (draw : Draw) (uid : String)
    (tenantId : TenantId) (expiresAt now : Time) :
    (upsertedRow rows draw uid tenantId expiresAt now).id = draw.id ∨
      ∃ old ∈ rows, old.interactionUid = uid ∧
        (upsertedRow rows draw uid tenantId expiresAt now).id = old.id := by
  unfold upsertedRow
  cases hold : findByInteractionUid rows uid with
  | none => exact Or.inl rfl
  | some old =>
    obtain ⟨hmem, huid⟩ := findByInteractionUid_some hold
    exact Or.inr ⟨old, hmem, huid, rfl⟩

theorem mem_of_mem_purge {limit : ℕ}
    (hr : r ∈ purgeExpiredUpstreamInteractionsBatch rows limit now) : r ∈ rows :=
  ((Table.mem_deleteWhere _ _ _).mp hr).1

end VcCommonService.Oidc
