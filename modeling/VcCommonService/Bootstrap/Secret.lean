import VcCommonService.Bootstrap.Service

/-!
# The administration secret

Whatever processes and requests interleave, wherever a process dies: the provider accepts for the
administration client the secret whose hash was stored last, while the client is active, and a
process returns no secret that was not stored.
-/

namespace VcCommonService.Bootstrap
open Lib Auth OAuthClients Tenants
open Table (written)

/-! ### What holds of the tables -/

/-- The hash of the row is of the last stored secret; before the first one is stored, it is the
one that the environment began with. -/
def HashOk (env : Env) (initial : List OAuthClient) (stored : List String) (c : OAuthClient) :
    Prop :=
  match stored.getLast? with
  | some secret => ∃ salt, c.clientSecretHash = some (env.hash salt secret)
  | none => ∃ old ∈ initial, old.clientId = adminClientId ∧
      old.clientSecretHash = c.clientSecretHash

def LastStored (env : Env) (initial : List OAuthClient) (stored : List String) (secret : String) :
    Prop :=
  match stored.getLast? with
  | some last => secret = last
  | none => ∃ old ∈ initial, old.clientId = adminClientId ∧
      ∃ hash, old.clientSecretHash = some hash ∧ env.verify hash secret = true

/-- The secret has been stored, in this run or before it. -/
def HasBeenStored (env : Env) (initial : List OAuthClient) (stored : List String)
    (secret : String) : Prop :=
  secret ∈ stored ∨ ∃ old ∈ initial, old.clientId = adminClientId ∧
    ∃ salt, old.clientSecretHash = some (env.hash salt secret)

def TenantOk (conf : Settings) (tenants : List Tenant) (tenantId : TenantId) : Prop :=
  ∃ t ∈ tenants, t.slug = conf.slug ∧ t.id = tenantId

/-- Both clients of the environment, if they exist, are in its tenant, and the administration
client is confidential. -/
structure Placed (conf : Settings) (tenants : List Tenant) (clients : List OAuthClient) : Prop where
  constraints : Constraints clients
  slugs : Table.UniqueKeys Tenant.slug tenants
  tenant : ∀ c ∈ clients, c.clientId = uiClientId ∨ c.clientId = adminClientId →
    TenantOk conf tenants c.tenantId
  confidential : ∀ c ∈ clients, c.clientId = adminClientId → c.isPublic = false

structure Good (env : Env) (conf : Settings) (initial : List OAuthClient) (db : Db) : Prop extends
    Placed conf db.tenants db.clients where
  hash : ∀ c ∈ db.clients, c.clientId = adminClientId → HashOk env initial db.stored c

/-! ### What a process knows -/

def UiEntity (tenantId : TenantId) (entity : OAuthClient) : Prop :=
  entity.clientId = uiClientId ∧ entity.tenantId = tenantId

structure AdminEntity (env : Env) (tenantId : TenantId) (secret : String) (entity : OAuthClient) :
    Prop where
  clientId : entity.clientId = adminClientId
  tenantId : entity.tenantId = tenantId
  confidential : entity.isPublic = false
  hash : ∃ salt, entity.clientSecretHash = some (env.hash salt secret)

def Present (clients : List OAuthClient) (entity : OAuthClient) : Prop :=
  ∃ c ∈ clients, c.id = entity.id ∧ c.clientId = entity.clientId

/-- What the save has read of the hash was stored. -/
def RowStored (env : Env) (initial : List OAuthClient) (stored : List String) (row : OAuthClient) :
    Prop :=
  row.clientId = adminClientId → ∀ salt secret,
    row.clientSecretHash = some (env.hash salt secret) → HasBeenStored env initial stored secret

def SaveOk (env : Env) (initial : List OAuthClient) (db : Db) (entityOk : OAuthClient → Prop) :
    Save → Prop
  | .insert entity => entityOk entity
  | .select entity => entityOk entity ∧ Present db.clients entity
  | .write entity row => entityOk entity ∧ Present db.clients entity ∧
      row.clientId = entity.clientId ∧ RowStored env initial db.stored row

def ProcessOk (env : Env) (conf : Settings) (initial : List OAuthClient) (db : Db) : Process → Prop
  | .findUi _ tenantId | .lookAdmin tenantId | .findAdmin tenantId =>
    TenantOk conf db.tenants tenantId
  | .saveUi _ tenantId save =>
    TenantOk conf db.tenants tenantId ∧ SaveOk env initial db (UiEntity tenantId) save
  | .saveAdmin tenantId secret save =>
    TenantOk conf db.tenants tenantId ∧ SaveOk env initial db (AdminEntity env tenantId secret) save
  | .returned result => TenantOk conf db.tenants result.tenantId ∧
      ∀ secret, result.adminClientSecret = some secret →
        HasBeenStored env initial db.stored secret
  | .idle | .findTenant _ | .createTenant _ | .failed _ => True

/-- What no statement takes back. -/
structure Later (db db' : Db) : Prop where
  tenants : ∀ t ∈ db.tenants, t ∈ db'.tenants
  clients : ∀ c ∈ db.clients, ∃ c' ∈ db'.clients, c'.id = c.id ∧ c'.clientId = c.clientId
  stored : ∀ secret ∈ db.stored, secret ∈ db'.stored

variable {env : Env} {conf : Settings} {initial clients clients' : List OAuthClient} {db db' : Db}

theorem later_refl (db : Db) : Later db db :=
  ⟨fun _ ht => ht, fun c hc => ⟨c, hc, rfl, rfl⟩, fun _ hs => hs⟩

theorem TenantOk.later {tenants tenants' : List Tenant} {tenantId : TenantId}
    (h : ∀ t ∈ tenants, t ∈ tenants') (ht : TenantOk conf tenants tenantId) :
    TenantOk conf tenants' tenantId := by
  obtain ⟨t, hmem, hslug, hid⟩ := ht
  exact ⟨t, h t hmem, hslug, hid⟩

theorem HasBeenStored.later {stored stored' : List String} {secret : String}
    (h : ∀ s ∈ stored, s ∈ stored') (hs : HasBeenStored env initial stored secret) :
    HasBeenStored env initial stored' secret :=
  hs.imp_left (h secret)

theorem Present.later (h : Later db db') {entity : OAuthClient} (hp : Present db.clients entity) :
    Present db'.clients entity := by
  obtain ⟨c, hc, hid, hclientId⟩ := hp
  obtain ⟨c', hc', hid', hclientId'⟩ := h.clients c hc
  exact ⟨c', hc', hid'.trans hid, hclientId'.trans hclientId⟩

theorem saveOk_later (h : Later db db') {entityOk : OAuthClient → Prop} {save : Save}
    (hs : SaveOk env initial db entityOk save) : SaveOk env initial db' entityOk save := by
  cases save with
  | insert entity => exact hs
  | select entity => exact ⟨hs.1, hs.2.later h⟩
  | write entity row =>
    obtain ⟨hentity, hpresent, hrow, hstored⟩ := hs
    refine ⟨hentity, hpresent.later h, hrow, ?_⟩
    intro hadmin salt secret hhash
    exact (hstored hadmin salt secret hhash).later h.stored

theorem processOk_later (h : Later db db') {process : Process}
    (hp : ProcessOk env conf initial db process) : ProcessOk env conf initial db' process := by
  cases process with
  | findUi rotate tenantId => exact TenantOk.later h.tenants hp
  | lookAdmin tenantId => exact TenantOk.later h.tenants hp
  | findAdmin tenantId => exact TenantOk.later h.tenants hp
  | saveUi rotate tenantId save => exact ⟨hp.1.later h.tenants, saveOk_later h hp.2⟩
  | saveAdmin tenantId secret save => exact ⟨hp.1.later h.tenants, saveOk_later h hp.2⟩
  | returned result =>
    refine ⟨hp.1.later h.tenants, ?_⟩
    intro secret hsecret
    exact (hp.2 secret hsecret).later h.stored
  | idle => trivial
  | findTenant rotate => trivial
  | createTenant rotate => trivial
  | failed e => trivial

/-! ### The statements of a save -/

/-- A statement wrote the row of one client id and no other. -/
structure Wrote (clients clients' : List OAuthClient) (row : OAuthClient) : Prop where
  mem : ∀ c, c ∈ clients' ↔ c = row ∨ (c ∈ clients ∧ c.clientId ≠ row.clientId)
  id : ∀ c ∈ clients, c.clientId = row.clientId → row.id = c.id
  constraints : Constraints clients'

/-- The row that a save writes. -/
def Written (clients : List OAuthClient) (id : String) : Save → OAuthClient → Prop
  | .insert entity, row => row = { entity with id }
  | .select _, _ => False
  | .write entity read, row =>
    ∃ current ∈ clients, current.id = entity.id ∧ row = writeColumns read entity current

theorem wrote_insert (hk : Constraints clients) {entity : OAuthClient}
    (h : insertClient clients entity = .ok clients') : Wrote clients clients' entity := by
  obtain ⟨hrow, hid, hclientId, rfl⟩ := insertClient_ok h
  refine ⟨?_, fun c hc he => absurd he (hclientId c hc), ?_⟩
  · intro c
    rw [List.mem_append, List.mem_singleton]
    constructor
    · rintro (hc | rfl)
      · exact Or.inr ⟨hc, hclientId c hc⟩
      · exact Or.inl rfl
    · rintro (rfl | ⟨hc, -⟩)
      · exact Or.inr rfl
      · exact Or.inl hc
  · refine ⟨Table.uniqueKeys_append hk.id hid, Table.uniqueKeys_append hk.clientId hclientId, ?_⟩
    intro c hc
    rcases List.mem_append.mp hc with hc | hc
    · exact hk.row c hc
    · rw [List.mem_singleton.mp hc]
      exact hrow

theorem wrote_save (hk : Constraints clients) {current entity : OAuthClient}
    (hcurrent : current ∈ clients) (hid : entity.id = current.id)
    (hclientId : entity.clientId = current.clientId)
    (h : saveClient clients entity = .ok clients') : Wrote clients clients' entity := by
  obtain ⟨hrow, rfl⟩ := saveClient_ok h
  refine ⟨?_, ?_, constraints_save hk hcurrent hid hclientId hrow⟩
  · intro c
    rw [Table.mem_save hk.id c]
    refine or_congr_right (and_congr_right fun hc => not_congr ?_)
    rw [hid, hclientId]
    constructor
    · intro he
      rw [Table.eq_of_key hk.id hc hcurrent he]
    · intro he
      rw [Table.eq_of_key hk.clientId hc hcurrent he]
  · intro c hc he
    have hc' := Table.eq_of_key hk.clientId hc hcurrent (he.trans hclientId)
    rw [hc', hid]

theorem written_eq {α : Type} [DecidableEq α] {row entity current x : α} (hentity : entity = x)
    (hcurrent : current = x) : written row entity current = x := by
  unfold written
  split
  · exact hcurrent
  · exact hentity

theorem saveStep_cases (hk : Constraints db.clients) {id : String} {save : Save}
    {next : Option Save} {entityOk : OAuthClient → Prop} (hok : SaveOk env initial db entityOk save)
    (h : saveStep db.clients id save = some (.ok (clients', next))) :
    (clients' = db.clients ∧ ∃ entity row, save = .select entity ∧
      next = some (.write entity row) ∧ row ∈ db.clients ∧ row.id = entity.id) ∨
    (next = none ∧ ∃ row, Written db.clients id save row ∧ Wrote db.clients clients' row) := by
  unfold saveStep at h
  split at h
  next entity =>
    split at h
    · cases h
    next rows hinsert =>
      cases h
      exact Or.inr ⟨rfl, _, rfl, wrote_insert hk hinsert⟩
  next entity =>
    split at h
    · cases h
    next row hrow =>
      cases h
      obtain ⟨hmem, hid⟩ := findById_some hrow
      exact Or.inl ⟨rfl, entity, row, rfl, rfl, hmem, hid⟩
  next entity read =>
    split at h
    · cases h
    next current hcurrent =>
    split at h
    · cases h
    next rows hsave =>
      cases h
      obtain ⟨hmem, hid⟩ := findById_some hcurrent
      obtain ⟨-, ⟨c, hc, hcid, hclientId⟩, -, -⟩ := hok
      have hsame := Table.eq_of_key hk.id hc hmem (hcid.trans hid.symm)
      rw [hsame] at hclientId
      refine Or.inr ⟨rfl, _, ⟨current, hmem, hid, rfl⟩, wrote_save hk hmem rfl ?_ hsave⟩
      exact written_eq hclientId.symm rfl

theorem Wrote.later {row : OAuthClient} (hw : Wrote clients clients' row) :
    ∀ c ∈ clients, ∃ c' ∈ clients', c'.id = c.id ∧ c'.clientId = c.clientId := by
  intro c hc
  by_cases he : c.clientId = row.clientId
  · exact ⟨row, (hw.mem row).mpr (Or.inl rfl), hw.id c hc he, he.symm⟩
  · exact ⟨c, (hw.mem c).mpr (Or.inr ⟨hc, he⟩), rfl, rfl⟩

/-- A statement that writes one of both clients. -/
theorem good_wrote (hg : Good env conf initial db) {row : OAuthClient} {stored : List String}
    (hw : Wrote db.clients clients' row) (htenant : TenantOk conf db.tenants row.tenantId)
    (hconfidential : row.clientId = adminClientId → row.isPublic = false)
    (hhash : row.clientId = adminClientId → HashOk env initial stored row)
    (hother : row.clientId ≠ adminClientId → stored = db.stored) :
    Good env conf initial ⟨db.tenants, clients', stored⟩ := by
  refine ⟨⟨hw.constraints, hg.slugs, ?_, ?_⟩, ?_⟩
  · intro c hc hown
    rcases (hw.mem c).mp hc with rfl | ⟨hc, -⟩
    · exact htenant
    · exact hg.tenant c hc hown
  · intro c hc hadmin
    rcases (hw.mem c).mp hc with rfl | ⟨hc, -⟩
    · exact hconfidential hadmin
    · exact hg.confidential c hc hadmin
  · intro c hc hadmin
    rcases (hw.mem c).mp hc with rfl | ⟨hc, hne⟩
    · exact hhash hadmin
    · show HashOk env initial stored c
      rw [hother fun he => hne (hadmin.trans he.symm)]
      exact hg.hash c hc hadmin

/-- A loaded row as a save sees it: of the client of the entity, with a stored hash. -/
theorem rowStored_of_mem (hargon : Argon2 env) (hg : Good env conf initial db) {row : OAuthClient}
    (hrow : row ∈ db.clients) : RowStored env initial db.stored row := by
  intro hadmin salt secret hhash
  have hok := hg.hash row hrow hadmin
  unfold HashOk at hok
  split at hok
  next last hlast =>
    obtain ⟨salt', hsame⟩ := hok
    rw [hhash] at hsame
    have hverify := (hargon.verify_hash salt secret secret).mpr rfl
    rw [Option.some.inj hsame] at hverify
    rw [(hargon.verify_hash salt' last secret).mp hverify]
    exact Or.inl (List.mem_of_getLast? hlast)
  next =>
    obtain ⟨old, hold, hid, hsame⟩ := hok
    exact Or.inr ⟨old, hold, hid, salt, hsame.trans hhash⟩

theorem saveOk_selected (hargon : Argon2 env) (hg : Good env conf initial db)
    {entityOk : OAuthClient → Prop} {entity row : OAuthClient}
    (hok : SaveOk env initial db entityOk (.select entity)) (hrow : row ∈ db.clients)
    (hid : row.id = entity.id) : SaveOk env initial db entityOk (.write entity row) := by
  obtain ⟨hentity, c, hc, hcid, hclientId⟩ := hok
  have hsame : c = row := Table.eq_of_key hg.constraints.id hc hrow (hcid.trans hid.symm)
  exact ⟨hentity, ⟨c, hc, hcid, hclientId⟩, hsame ▸ hclientId, rowStored_of_mem hargon hg hrow⟩

/-- What is written of the client id and the tenant. -/
theorem written_place (hg : Good env conf initial db) {entityOk : OAuthClient → Prop} {id : String}
    {clientId : String} {tenantId : TenantId} {save : Save} {row : OAuthClient}
    (hown : clientId = uiClientId ∨ clientId = adminClientId)
    (hentity : ∀ entity, entityOk entity → entity.clientId = clientId ∧ entity.tenantId = tenantId)
    (htenant : TenantOk conf db.tenants tenantId) (hok : SaveOk env initial db entityOk save)
    (hrow : Written db.clients id save row) :
    row.clientId = clientId ∧ TenantOk conf db.tenants row.tenantId := by
  cases save with
  | select entity => exact hrow.elim
  | insert entity =>
    obtain ⟨hid, ht⟩ := hentity entity hok
    rw [show row = { entity with id } from hrow]
    exact ⟨hid, ht ▸ htenant⟩
  | write entity read =>
    obtain ⟨current, hcurrent, hcid, rfl⟩ := hrow
    obtain ⟨he, ⟨c, hc, hcid', hclientId⟩, -, -⟩ := hok
    obtain ⟨hid, ht⟩ := hentity entity he
    have hsame := Table.eq_of_key hg.constraints.id hc hcurrent (hcid'.trans hcid.symm)
    have hcurrentId : current.clientId = clientId := by rw [← hsame, hclientId, hid]
    refine ⟨written_eq hid hcurrentId, ?_⟩
    show TenantOk conf db.tenants (written read.tenantId entity.tenantId current.tenantId)
    unfold written
    split
    · exact hg.tenant current hcurrent (hcurrentId ▸ hown)
    · exact ht ▸ htenant

theorem getLast?_stored (stored : List String) (secret : String) :
    (stored ++ [secret]).getLast? = some secret := by simp

/-- The row of a finished save of the administration client. -/
theorem written_admin (hg : Good env conf initial db) {tenantId : TenantId} {secret id : String}
    {save : Save} {row : OAuthClient}
    (hok : SaveOk env initial db (AdminEntity env tenantId secret) save)
    (hrow : Written db.clients id save row) (hadmin : row.clientId = adminClientId) :
    row.isPublic = false ∧
      HashOk env initial (if save.writesHash then db.stored ++ [secret] else db.stored) row ∧
      HasBeenStored env initial (if save.writesHash then db.stored ++ [secret] else db.stored)
        secret := by
  have hnew : HasBeenStored env initial (db.stored ++ [secret]) secret :=
    Or.inl (List.mem_append_right _ (List.mem_singleton_self _))
  cases save with
  | select entity => exact hrow.elim
  | insert entity =>
    obtain ⟨salt, hhash⟩ := hok.hash
    rw [show row = { entity with id } from hrow]
    refine ⟨hok.confidential, ?_, hnew⟩
    simp only [Save.writesHash, if_true, HashOk, getLast?_stored]
    exact ⟨salt, hhash⟩
  | write entity read =>
    obtain ⟨current, hcurrent, hcid, rfl⟩ := hrow
    obtain ⟨he, ⟨c, hc, hcid', hclientId⟩, hread, hstored⟩ := hok
    have hsame := Table.eq_of_key hg.constraints.id hc hcurrent (hcid'.trans hcid.symm)
    have hcurrentId : current.clientId = adminClientId := by rw [← hsame, hclientId, he.clientId]
    refine ⟨written_eq he.confidential (hg.confidential current hcurrent hcurrentId), ?_⟩
    obtain ⟨salt, hhash⟩ := he.hash
    by_cases hwrites : entity.clientSecretHash = read.clientSecretHash
    · -- the row as read had the hash of this very secret, and the column is left alone
      have hfalse : (Save.write entity read).writesHash = false := by
        simp [Save.writesHash, hwrites]
      rw [hfalse]
      refine ⟨?_, hstored (hread.trans he.clientId) salt secret (hwrites ▸ hhash)⟩
      have hkeep : (writeColumns read entity current).clientSecretHash = current.clientSecretHash :=
        if_pos hwrites
      unfold HashOk
      rw [hkeep]
      exact hg.hash current hcurrent hcurrentId
    · have htrue : (Save.write entity read).writesHash = true := by simp [Save.writesHash, hwrites]
      rw [htrue]
      refine ⟨?_, hnew⟩
      have hput : (writeColumns read entity current).clientSecretHash = entity.clientSecretHash :=
        if_neg hwrites
      simp only [if_true, HashOk, getLast?_stored, hput]
      exact ⟨salt, hhash⟩

/-! ### The other writers -/

/-- The row is the one of the same client as before. -/
structure SameClient (c c' : OAuthClient) : Prop where
  id : c'.id = c.id
  clientId : c'.clientId = c.clientId
  tenantId : c'.tenantId = c.tenantId
  isPublic : c'.isPublic = c.isPublic

def Descends (clients clients' : List OAuthClient) : Prop :=
  (∀ c ∈ clients, ∃ c' ∈ clients', SameClient c c') ∧
  ∀ c' ∈ clients', (∃ c ∈ clients, SameClient c c') ∨
    ∃ randomId, c'.clientId = oauthClientIdPrefix ++ randomId

theorem descends_save (hk : Constraints clients) {old entity : OAuthClient} (hold : old ∈ clients)
    (hs : SameClient old entity) : Descends clients (Table.save OAuthClient.id entity clients) := by
  constructor
  · intro c hc
    by_cases hid : c.id = entity.id
    · have hsame : c = old := Table.eq_of_key hk.id hc hold (hid.trans hs.id)
      exact ⟨entity, Table.mem_save_self _ _ _, hsame ▸ hs⟩
    · exact ⟨c, (Table.mem_save hk.id c).mpr (Or.inr ⟨hc, hid⟩), rfl, rfl, rfl, rfl⟩
  · intro c hc
    rcases Table.eq_or_mem_of_mem_save hc with rfl | hc
    · exact Or.inl ⟨old, hold, hs⟩
    · exact Or.inl ⟨c, hc, rfl, rfl, rfl, rfl⟩

theorem descends_updateWhere {p : OAuthClient → Bool} {f : OAuthClient → OAuthClient}
    (hf : ∀ c, SameClient c (f c)) : Descends clients (Table.updateWhere p f clients) := by
  have hrow : ∀ c, SameClient c (if p c then f c else c) := by
    intro c
    split
    · exact hf c
    · exact ⟨rfl, rfl, rfl, rfl⟩
  constructor
  · intro c hc
    exact ⟨_, (Table.mem_updateWhere _ _ _ _).mpr ⟨c, hc, rfl⟩, hrow c⟩
  · intro c hc
    obtain ⟨q, hq, rfl⟩ := (Table.mem_updateWhere _ _ _ _).mp hc
    exact Or.inl ⟨q, hq, hrow q⟩

theorem descends_effect (hk : Constraints clients) {auth : Option AuthContext}
    {call : OAuthClients.Call} {response : Response}
    (he : OAuthClients.Effect env clients auth call clients' response) :
    Descends clients clients' := by
  have hrefl : ∀ c, SameClient c c := fun c => ⟨rfl, rfl, rfl, rfl⟩
  cases he with
  | createClient tenantId dto fresh =>
    constructor
    · intro c hc
      exact ⟨c, List.mem_append_left _ hc, hrefl c⟩
    · intro c hc
      rcases List.mem_append.mp hc with hc | hc
      · exact Or.inl ⟨c, hc, hrefl c⟩
      · rw [List.mem_singleton.mp hc]
        exact Or.inr ⟨fresh.randomId, rfl⟩
  | update tenantId clientId dto caller hcaller old entity hold hactive hentity =>
    obtain ⟨hid, htenant, hclientId, -⟩ := applyUpdate_some hentity
    have hpublic : entity.isPublic = old.isPublic := by
      simp only [OAuthClients.applyUpdate, Option.bind_eq_bind, Option.bind_eq_some_iff,
        Option.pure_def, Option.some.injEq] at hentity
      obtain ⟨name, -, scopes, -, roles, -, uris, -, grants, -, rfl⟩ := hentity
      rfl
    exact descends_save hk (findByTenantAndClientId_some hold).1
      ⟨hid, hclientId, htenant, hpublic⟩
  | rotateSecret tenantId clientId clientSecret salt old hold =>
    exact descends_save hk (findByTenantAndClientId_some hold).1 ⟨rfl, rfl, rfl, rfl⟩
  | revokeAgain => exact ⟨fun c hc => ⟨c, hc, hrefl c⟩, fun c hc => Or.inl ⟨c, hc, hrefl c⟩⟩
  | revokeClient => exact descends_updateWhere fun c => ⟨rfl, rfl, rfl, rfl⟩
  | revokeAllForTenant => exact descends_updateWhere fun c => ⟨rfl, rfl, rfl, rfl⟩
  | restoreAllForTenant => exact descends_updateWhere fun c => ⟨rfl, rfl, rfl, rfl⟩

/-- The ids that the API gives out are none of the ids of the environment. -/
theorem prefix_ne {randomId clientId : String} (h : clientId = oauthClientIdPrefix ++ randomId) :
    clientId ≠ uiClientId ∧ clientId ≠ adminClientId := by
  have hhead : clientId.toList.take 3 = ['d', 't', 'c'] := by
    rw [h, String.toList_append]
    rfl
  constructor
  · rintro rfl
    exact absurd hhead (by decide)
  · rintro rfl
    exact absurd hhead (by decide)

theorem good_request (hg : Good env conf initial db) {request : Request} {response : Response}
    (he : OAuthClients.Effect env db.clients request.auth request.call clients' response) :
    Good env conf initial ⟨db.tenants, clients',
      db.stored ++ (issuedSecret adminClientId (request, response)).toList⟩ := by
  have hrows := (descends_effect hg.constraints he).2
  have hone : SecretInv env db.clients ⟨db.clients, []⟩ :=
    ⟨hg.constraints, fun c hc => ⟨c, hc, rfl, rfl⟩⟩
  have hhash := secretInv_effect hone he
  refine ⟨⟨constraints_effect hg.constraints he, hg.slugs, ?_, ?_⟩, ?_⟩
  · intro c hc hown
    rcases hrows c hc with ⟨old, hold, hs⟩ | ⟨randomId, hclientId⟩
    · rw [hs.clientId] at hown
      rw [hs.tenantId]
      exact hg.tenant old hold hown
    · obtain ⟨hui, hadmin⟩ := prefix_ne hclientId
      exact absurd hown (not_or.mpr ⟨hui, hadmin⟩)
  · intro c hc hadmin
    rcases hrows c hc with ⟨old, hold, hs⟩ | ⟨randomId, hclientId⟩
    · rw [hs.isPublic]
      exact hg.confidential old hold (hs.clientId.symm.trans hadmin)
    · exact absurd hadmin (prefix_ne hclientId).2
  · intro c hc hadmin
    have hlast := hhash c hc
    unfold HashOfLast at hlast
    rw [lastSecret_append, hadmin] at hlast
    show HashOk env initial (db.stored ++ _) c
    cases hissued : issuedSecret adminClientId (request, response) with
    | some secret =>
      rw [hissued] at hlast
      simp only [Option.toList_some, HashOk, getLast?_stored]
      exact hlast
    | none =>
      rw [hissued] at hlast
      obtain ⟨old, hold, hid, hsame⟩ := hlast
      have hok := hg.hash old hold hid
      unfold HashOk at hok ⊢
      rw [hsame] at hok
      simpa using hok

theorem insertTenant_ok {tenants tenants' : List Tenant} {tenant : Tenant}
    (h : insertTenant tenants tenant = .ok tenants') :
    tenants' = tenants ++ [tenant] ∧ ∀ t ∈ tenants, t.slug ≠ tenant.slug := by
  unfold insertTenant at h
  split at h
  · cases h
  · split at h
    · cases h
    next hslug =>
      refine ⟨(Except.ok.inj h).symm, ?_⟩
      intro t ht he
      exact hslug (List.any_eq_true.mpr ⟨t, ht, decide_eq_true he⟩)

theorem good_insertTenant (hg : Good env conf initial db) {tenants' : List Tenant} {tenant : Tenant}
    (h : insertTenant db.tenants tenant = .ok tenants') :
    Good env conf initial { db with tenants := tenants' } ∧
      Later db { db with tenants := tenants' } := by
  obtain ⟨rfl, hslug⟩ := insertTenant_ok h
  have hmore : ∀ t ∈ db.tenants, t ∈ db.tenants ++ [tenant] := fun t ht =>
    List.mem_append_left _ ht
  refine ⟨⟨⟨hg.constraints, Table.uniqueKeys_append hg.slugs hslug, ?_, hg.confidential⟩, hg.hash⟩,
    hmore, fun c hc => ⟨c, hc, rfl, rfl⟩, fun _ hs => hs⟩
  intro c hc hown
  exact (hg.tenant c hc hown).later hmore

/-! ### Every statement -/

theorem upsert_ok {clientId : String} {assign : OAuthClient → OAuthClient}
    {entityOk : OAuthClient → Prop} (hnew : entityOk (assign newOAuthClient))
    (hloaded : ∀ c ∈ db.clients, c.clientId = clientId → entityOk (assign c))
    (hid : ∀ c, (assign c).id = c.id) (hclientId : ∀ c, (assign c).clientId = clientId) :
    SaveOk env initial db entityOk (upsertClient db.clients clientId assign) := by
  unfold upsertClient
  split
  · exact hnew
  next c hfind =>
    obtain ⟨hc, he⟩ := findByClientId_some hfind
    exact ⟨hloaded c hc he, c, hc, (hid c).symm, he.trans (hclientId c).symm⟩

/-- What every move of a process keeps. -/
structure Kept (env : Env) (conf : Settings) (initial : List OAuthClient) (db db' : Db)
    (process' : Process) : Prop where
  good : Good env conf initial db'
  process : ProcessOk env conf initial db' process'
  later : Later db db'

/-- Only both clients of the environment are written. -/
def OthersKept (clients clients' : List OAuthClient) : Prop :=
  ∀ c, c.clientId ≠ uiClientId → c.clientId ≠ adminClientId → (c ∈ clients' ↔ c ∈ clients)

theorem Wrote.others {row : OAuthClient} (hw : Wrote clients clients' row)
    (hown : row.clientId = uiClientId ∨ row.clientId = adminClientId) :
    OthersKept clients clients' := by
  intro c hui hadmin
  have hne : c.clientId ≠ row.clientId := by
    rcases hown with h | h
    · exact h ▸ hui
    · exact h ▸ hadmin
  rw [hw.mem]
  constructor
  · rintro (rfl | ⟨hc, -⟩)
    · exact absurd rfl hne
    · exact hc
  · exact fun hc => Or.inr ⟨hc, hne⟩

theorem othersKept_refl (clients : List OAuthClient) : OthersKept clients clients :=
  fun _ _ _ => Iff.rfl

theorem findBySlug_some {tenants : List Tenant} {slug : String} {t : Tenant}
    (h : findBySlug tenants slug = some t) : t ∈ tenants ∧ t.slug = slug := by
  have hslug := List.find?_some h
  exact ⟨List.mem_of_find?_eq_some h, of_decide_eq_true hslug⟩

theorem kept_of_read (hg : Good env conf initial db) {process' : Process}
    (hp : ProcessOk env conf initial db process') : Kept env conf initial db db process' :=
  ⟨hg, hp, later_refl db⟩

theorem saveUi_kept (hargon : Argon2 env) (hg : Good env conf initial db) {rotate : Bool}
    {tenantId : TenantId} {save : Save} {next : Option Save} {id : String}
    (hp : ProcessOk env conf initial db (.saveUi rotate tenantId save))
    (h : saveStep db.clients id save = some (.ok (clients', next))) :
    Kept env conf initial db { db with clients := clients' }
        (match next with
        | some save => .saveUi rotate tenantId save
        | none => afterUi rotate tenantId) ∧
      OthersKept db.clients clients' := by
  obtain ⟨htenant, hok⟩ := hp
  rcases saveStep_cases hg.constraints hok h with
    ⟨rfl, entity, row, rfl, rfl, hrow, hid⟩ | ⟨rfl, row, hwritten, hw⟩
  · exact ⟨kept_of_read hg ⟨htenant, saveOk_selected hargon hg hok hrow hid⟩,
      othersKept_refl _⟩
  · obtain ⟨hui, hplace⟩ := written_place hg (Or.inl rfl) (fun _ he => he) htenant hok hwritten
    have hne : row.clientId ≠ adminClientId := by
      rw [hui]
      decide
    refine ⟨⟨?_, ?_, fun _ ht => ht, hw.later, fun _ hs => hs⟩, hw.others (Or.inl hui)⟩
    · exact good_wrote hg hw hplace (fun he => absurd he hne) (fun he => absurd he hne)
        fun _ => rfl
    · show ProcessOk env conf initial _ (afterUi rotate tenantId)
      cases rotate with
      | true => exact htenant
      | false => exact htenant

theorem saveAdmin_kept (hargon : Argon2 env) (hg : Good env conf initial db) {tenantId : TenantId}
    {secret id : String} {save : Save} {next : Option Save}
    (hp : ProcessOk env conf initial db (.saveAdmin tenantId secret save))
    (h : saveStep db.clients id save = some (.ok (clients', next))) :
    (match next with
      | some save => Kept env conf initial db { db with clients := clients' }
          (.saveAdmin tenantId secret save)
      | none => Kept env conf initial db
          ⟨db.tenants, clients', if save.writesHash then db.stored ++ [secret] else db.stored⟩
          (.returned ⟨tenantId, conf.redirectUris, some secret⟩)) ∧
      OthersKept db.clients clients' := by
  obtain ⟨htenant, hok⟩ := hp
  rcases saveStep_cases hg.constraints hok h with
    ⟨rfl, entity, row, rfl, rfl, hrow, hid⟩ | ⟨rfl, row, hwritten, hw⟩
  · exact ⟨kept_of_read hg ⟨htenant, saveOk_selected hargon hg hok hrow hid⟩,
      othersKept_refl _⟩
  · obtain ⟨hadmin, hplace⟩ := written_place hg (Or.inr rfl)
      (fun _ he => ⟨he.clientId, he.tenantId⟩) htenant hok hwritten
    obtain ⟨hpublic, hhash, hstored⟩ := written_admin hg hok hwritten hadmin
    refine ⟨⟨?_, ⟨htenant, ?_⟩, fun _ ht => ht, hw.later, ?_⟩, hw.others (Or.inr hadmin)⟩
    · exact good_wrote hg hw hplace (fun _ => hpublic) (fun _ => hhash)
        fun hne => absurd hadmin hne
    · intro s hs
      cases hs
      exact hstored
    · intro s hs
      show s ∈ (if save.writesHash then db.stored ++ [secret] else db.stored)
      split
      · exact List.mem_append_left _ hs
      · exact hs

theorem statement_kept (hargon : Argon2 env) (hg : Good env conf initial db) {drawn : Drawn}
    {process process' : Process} (hp : ProcessOk env conf initial db process)
    (h : statement env conf db drawn process = some (db', process')) :
    Kept env conf initial db db' process' ∧ OthersKept db.clients db'.clients := by
  cases process with
  | idle => cases h
  | returned result => cases h
  | failed e => cases h
  | findTenant rotate =>
    simp only [statement] at h
    split at h
    next t hfind =>
      cases h
      obtain ⟨ht, hslug⟩ := findBySlug_some hfind
      exact ⟨kept_of_read hg ⟨t, ht, hslug, rfl⟩, othersKept_refl _⟩
    · cases h
      exact ⟨kept_of_read hg trivial, othersKept_refl _⟩
  | createTenant rotate =>
    simp only [statement] at h
    split at h
    · cases h
      exact ⟨kept_of_read hg trivial, othersKept_refl _⟩
    next tenants hinsert =>
      cases h
      obtain ⟨hgood, hlater⟩ := good_insertTenant hg hinsert
      obtain ⟨rfl, -⟩ := insertTenant_ok hinsert
      refine ⟨⟨hgood, ⟨newTenant conf drawn.id, ?_, rfl, rfl⟩, hlater⟩, othersKept_refl _⟩
      exact List.mem_append_right _ (List.mem_singleton_self _)
  | findUi rotate tenantId =>
    cases h
    refine ⟨kept_of_read hg ⟨hp, ?_⟩, othersKept_refl _⟩
    exact upsert_ok ⟨rfl, rfl⟩ (fun _ _ _ => ⟨rfl, rfl⟩) (fun _ => rfl) fun _ => rfl
  | saveUi rotate tenantId save =>
    simp only [statement] at h
    split at h
    · cases h
    · cases h
      exact ⟨kept_of_read hg trivial, othersKept_refl _⟩
    next clients save' hsave =>
      cases h
      exact saveUi_kept hargon hg hp hsave
    next clients hsave =>
      cases h
      exact saveUi_kept hargon hg hp hsave
  | lookAdmin tenantId =>
    simp only [statement] at h
    split at h
    · cases h
      exact ⟨kept_of_read hg ⟨hp, nofun⟩, othersKept_refl _⟩
    · cases h
      exact ⟨kept_of_read hg hp, othersKept_refl _⟩
  | findAdmin tenantId =>
    cases h
    refine ⟨kept_of_read hg ⟨hp, ?_⟩, othersKept_refl _⟩
    refine upsert_ok ⟨rfl, rfl, rfl, _, rfl⟩ (fun c hc hadmin => ?_) (fun _ => rfl) fun _ => rfl
    exact ⟨rfl, rfl, hg.confidential c hc hadmin, _, rfl⟩
  | saveAdmin tenantId secret save =>
    simp only [statement] at h
    split at h
    · cases h
    · cases h
      exact ⟨kept_of_read hg trivial, othersKept_refl _⟩
    next clients save' hsave =>
      cases h
      exact saveAdmin_kept hargon hg hp hsave
    next clients hsave =>
      cases h
      exact saveAdmin_kept hargon hg hp hsave

theorem act_kept (hargon : Argon2 env) (hg : Good env conf initial db) {process process' : Process}
    {e : Event} (hp : ProcessOk env conf initial db process)
    (h : processAct env conf db process e = some (db', process')) :
    Kept env conf initial db db' process' ∧
      ((∀ request, e ≠ .request request) → OthersKept db.clients db'.clients) := by
  unfold processAct at h
  split at h
  · cases h
    exact ⟨kept_of_read hg trivial, fun _ => othersKept_refl _⟩
  next request =>
    split at h
    · cases h
      exact ⟨kept_of_read hg trivial, fun _ => othersKept_refl _⟩
    next clients response hexec =>
      cases h
      have heffect := exec_effect hexec
      refine ⟨⟨good_request hg heffect, trivial, fun _ ht => ht, ?_, fun _ hs => ?_⟩,
        fun hne => absurd rfl (hne request)⟩
      · intro c hc
        obtain ⟨c', hc', hs⟩ := (descends_effect hg.constraints heffect).1 c hc
        exact ⟨c', hc', hs.id, hs.clientId⟩
      · exact List.mem_append_left _ hs
  next tenant =>
    split at h
    · cases h
      exact ⟨kept_of_read hg trivial, fun _ => othersKept_refl _⟩
    next tenants hinsert =>
      cases h
      obtain ⟨hgood, hlater⟩ := good_insertTenant hg hinsert
      exact ⟨⟨hgood, trivial, hlater⟩, fun _ => othersKept_refl _⟩
  next drawn =>
    obtain ⟨hkept, hothers⟩ := statement_kept hargon hg hp h
    exact ⟨hkept, fun _ => hothers⟩
  · cases h
    exact ⟨kept_of_read hg trivial, fun _ => othersKept_refl _⟩
  · cases h

/-! ### Runs -/

theorem accepts_iff (hargon : Argon2 env) (hinitial : Table.UniqueKeys OAuthClient.clientId initial)
    (hg : Good env conf initial db) (secret : String) :
    providerAccepts env db.clients adminClientId secret = true ↔
      Active db.clients adminClientId ∧ LastStored env initial db.stored secret := by
  rw [providerAccepts_iff hargon hg.constraints]
  have hrow : ∀ c ∈ db.clients, c.clientId = adminClientId →
      ((∃ hash, c.clientSecretHash = some hash ∧ env.verify hash secret = true) ↔
        LastStored env initial db.stored secret) := by
    intro c hc hadmin
    have hok := hg.hash c hc hadmin
    unfold HashOk at hok
    unfold LastStored
    split at hok
    next last hlast =>
      obtain ⟨salt, hhash⟩ := hok
      rw [hhash]
      simp [hargon.verify_hash]
    next =>
      obtain ⟨old, hold, hid, hsame⟩ := hok
      rw [← hsame]
      constructor
      · exact fun hverify => ⟨old, hold, hid, hverify⟩
      · rintro ⟨old', hold', hid', hverify⟩
        rw [Table.eq_of_key hinitial hold hold' (hid.trans hid'.symm)]
        exact hverify
  constructor
  · rintro ⟨c, hc, hid, hactive, hverify⟩
    exact ⟨⟨c, hc, hid, hactive⟩, (hrow c hc hid).mp hverify⟩
  · rintro ⟨⟨c, hc, hid, hactive⟩, hlast⟩
    exact ⟨c, hc, hid, hactive, (hrow c hc hid).mpr hlast⟩

/-- The tables as a deployment begins with them. -/
def begin (tenants : List Tenant) (clients : List OAuthClient) : World :=
  ⟨{ tenants, clients }, fun _ => .idle⟩

structure SecretOk (env : Env) (conf : Settings) (initial : List OAuthClient) (w : World)
    (l : ℕ × Event) (w' : World) : Prop where
  accepts : ∀ secret, providerAccepts env w'.db.clients adminClientId secret = true ↔
    Active w'.db.clients adminClientId ∧ LastStored env initial w'.db.stored secret
  returned : ∀ i result, w'.calls i = .returned result →
    TenantOk conf w'.db.tenants result.tenantId ∧
      ∀ secret, result.adminClientSecret = some secret →
        HasBeenStored env initial w'.db.stored secret
  others : (∀ request, l.2 ≠ .request request) → OthersKept w.db.clients w'.db.clients

def Sound (env : Env) (conf : Settings) (initial : List OAuthClient) : World → Prop :=
  Run.Holds (Good env conf initial) (ProcessOk env conf initial)

theorem sound_begin {tenants : List Tenant} (h : Placed conf tenants initial) :
    Sound env conf initial (begin tenants initial) := by
  refine ⟨⟨h, ?_⟩, fun _ => trivial⟩
  exact fun c hc hadmin => ⟨c, hc, hadmin, rfl⟩

theorem sound_step (hargon : Argon2 env) {w w' : World} {l : ℕ × Event}
    (hw : Sound env conf initial w) (hs : step env conf w l = some w') :
    Sound env conf initial w' := by
  refine Run.holds_interleave (C := fun _ _ _ => True) ?_ ?_ hw hs trivial
  · intro db process e db' process' hg hp ha _
    have hkept := (act_kept hargon hg hp ha).1
    exact ⟨hkept.good, hkept.process⟩
  · intro db process e db' process' other hg hp hother ha _
    exact processOk_later (act_kept hargon hg hp ha).1.later hother

theorem admin_secret_current (env : Env) (conf : Settings) (hargon : Argon2 env)
    (tenants : List Tenant) (clients : List OAuthClient) (h : Placed conf tenants clients)
    (events : List (ℕ × Event))
    (hrun : Run.Enabled (step env conf) (begin tenants clients) events) :
    Run.All (step env conf) (SecretOk env conf clients) (begin tenants clients) events := by
  refine Run.all_of_invariant (Sound env conf clients) ?_ (sound_begin h) hrun
  intro w l w' hw hs _
  have hw' := sound_step hargon hw hs
  refine ⟨hw', accepts_iff hargon h.constraints.clientId hw'.1, ?_, ?_⟩
  · intro i result hreturned
    have hprocess := hw'.2 i
    rw [hreturned] at hprocess
    exact hprocess
  · obtain ⟨db', process', ha, rfl⟩ := Run.interleave_cases hs
    exact (act_kept hargon hw.1 (hw.2 l.1) ha).2

def acme : Settings := ⟨"acme", "Acme", "https://dtsc.example.com"⟩

/-- A run over empty tables, up to its result. -/
def firstRun : List (ℕ × Event) :=
  [(0, .run false), (0, .statement ⟨"", "", ""⟩), (0, .statement ⟨"t", "", ""⟩),
    (0, .statement ⟨"", "", ""⟩), (0, .statement ⟨"c1", "", ""⟩), (0, .statement ⟨"", "", ""⟩),
    (0, .statement ⟨"", "lost", ""⟩), (0, .statement ⟨"c2", "", ""⟩)]

/-- Another process rotates the secret, and an administrator revokes the client. -/
def thenRotated : List (ℕ × Event) :=
  [(1, .run true), (1, .statement ⟨"", "", ""⟩), (1, .statement ⟨"", "", ""⟩),
    (1, .statement ⟨"", "", ""⟩), (0, .exit), (1, .statement ⟨"", "", ""⟩),
    (1, .statement ⟨"", "new", ""⟩), (1, .statement ⟨"", "", ""⟩), (1, .statement ⟨"", "", ""⟩),
    (2, .request ⟨none, .revokeClient "t" adminClientId 7⟩)]

theorem placed_empty : Placed acme [] [] := by
  refine ⟨⟨List.nodup_nil, List.nodup_nil, ?_⟩, List.nodup_nil, ?_, ?_⟩
  · exact List.forall_mem_nil _
  · exact List.forall_mem_nil _
  · exact List.forall_mem_nil _

theorem admin_secret_current_rotated :
    Run.All (step unsaltedEnv acme) (SecretOk unsaltedEnv acme []) (begin [] [])
      (firstRun ++ thenRotated) :=
  admin_secret_current unsaltedEnv acme unsaltedEnv_argon2 [] [] placed_empty _
    (Run.enabled_of_final (by decide +kernel))

end VcCommonService.Bootstrap
