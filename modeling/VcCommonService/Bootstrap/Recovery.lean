import VcCommonService.Bootstrap.Secret

/-!
# Recovery

Wherever the processes before it have died, a run that nobody disturbs ends; with rotation, or
where there is no administration client, it returns a secret that the provider accepts. Run
again, it changes nothing.
-/

namespace VcCommonService.Bootstrap
open Lib Auth OAuthClients Tenants

/-! ### A process that moves alone -/

/-- Within `n` statements the process gets to a state with `P`. -/
def Within (env : Env) (conf : Settings) (n : ℕ) (ds : List Drawn) (s : Db × Process)
    (P : Db × Process → Prop) : Prop :=
  ∃ k ≤ n, ∃ s', Run.final (fun (s : Db × Process) e => processAct env conf s.1 s.2 e) s
    ((ds.take k).map .statement) = some s' ∧ P s'

variable {env : Env} {conf : Settings} {initial clients clients' : List OAuthClient} {db db' : Db}
  {n : ℕ} {d : Drawn} {ds : List Drawn} {s s' : Db × Process} {P : Db × Process → Prop}

theorem within_now (h : P s) : Within env conf n ds s P :=
  ⟨0, Nat.zero_le n, s, rfl, h⟩

theorem within_step {process : Process}
    (hs : statement env conf db d process = some s') (h : Within env conf n ds s' P) :
    Within env conf (n + 1) (d :: ds) (db, process) P := by
  obtain ⟨k, hk, t, hrun, hp⟩ := h
  have hact : processAct env conf db process (.statement d) = some s' := by
    cases process with
    | idle => cases hs
    | _ => exact hs
  refine ⟨k + 1, Nat.succ_le_succ hk, t, ?_, hp⟩
  rw [List.take_succ_cons, List.map_cons, Run.final]
  show (processAct env conf db process (.statement d)).bind _ = some t
  rw [hact]
  exact hrun

theorem within_le {m : ℕ} (hmn : m ≤ n) (h : Within env conf m ds s P) :
    Within env conf n ds s P := by
  obtain ⟨k, hk, hrest⟩ := h
  exact ⟨k, hk.trans hmn, hrest⟩

/-- The database has drawn none of the ids so far, and draws none of them twice. -/
structure Fresh (db : Db) (ds : List Drawn) : Prop where
  nodup : (ds.map Drawn.id).Nodup
  tenants : ∀ d ∈ ds, ∀ t ∈ db.tenants, t.id ≠ d.id
  clients : ∀ d ∈ ds, ∀ c ∈ db.clients, c.id ≠ d.id

theorem Fresh.next (h : Fresh db (d :: ds))
    (htenants : ∀ t ∈ db'.tenants, t.id = d.id ∨ ∃ old ∈ db.tenants, old.id = t.id)
    (hclients : ∀ c ∈ db'.clients, c.id = d.id ∨ ∃ old ∈ db.clients, old.id = c.id) :
    Fresh db' ds := by
  have hnodup := h.nodup
  rw [List.map_cons, List.nodup_cons] at hnodup
  have hne : ∀ e ∈ ds, d.id ≠ e.id := by
    intro e he heq
    exact hnodup.1 (List.mem_map.mpr ⟨e, he, heq.symm⟩)
  refine ⟨hnodup.2, ?_, ?_⟩
  · intro e he t ht
    rcases htenants t ht with heq | ⟨old, hold, heq⟩
    · rw [heq]
      exact hne e he
    · rw [← heq]
      exact h.tenants e (List.mem_cons_of_mem d he) old hold
  · intro e he c hc
    rcases hclients c hc with heq | ⟨old, hold, heq⟩
    · rw [heq]
      exact hne e he
    · rw [← heq]
      exact h.clients e (List.mem_cons_of_mem d he) old hold

theorem Fresh.tail (h : Fresh db (d :: ds)) : Fresh db ds :=
  h.next (fun t ht => Or.inr ⟨t, ht, rfl⟩) fun c hc => Or.inr ⟨c, hc, rfl⟩

/-! ### The tenant -/

theorem insertTenant_new {tenants : List Tenant} {tenant : Tenant}
    (hid : ∀ t ∈ tenants, t.id ≠ tenant.id) (hslug : findBySlug tenants tenant.slug = none) :
    insertTenant tenants tenant = .ok (tenants ++ [tenant]) := by
  unfold insertTenant
  rw [if_neg ?_, if_neg ?_]
  · intro hany
    obtain ⟨t, ht, he⟩ := List.any_eq_true.mp hany
    exact List.find?_eq_none.mp hslug t ht he
  · intro hany
    obtain ⟨t, ht, he⟩ := List.any_eq_true.mp hany
    exact hid t ht (of_decide_eq_true he)

/-- The tenants as they were where one has the slug, and otherwise the new one after them. -/
def tenantsAfter (conf : Settings) (tenants : List Tenant) (tenantId : TenantId) : List Tenant :=
  match findBySlug tenants conf.slug with
  | some _ => tenants
  | none => tenants ++ [newTenant conf tenantId]

/-- The tables with the tenant of the environment in place. -/
structure HasTenant (conf : Settings) (db db' : Db) (tenantId : TenantId) : Prop where
  clients : db'.clients = db.clients
  tenants : db'.tenants = tenantsAfter conf db.tenants tenantId
  tenantOk : TenantOk conf db'.tenants tenantId

theorem tenant_phase {rotate : Bool} (hfresh : Fresh db ds) (hlen : n + 2 ≤ ds.length)
    (hnext : ∀ db' ds' tenantId, HasTenant conf db db' tenantId → Fresh db' ds' →
      n ≤ ds'.length → Within env conf n ds' (db', .findUi rotate tenantId) P) :
    Within env conf (n + 2) ds (db, .findTenant rotate) P := by
  match ds, hlen with
  | d₁ :: d₂ :: ds, hlen =>
  simp only [List.length_cons] at hlen
  cases hfind : findBySlug db.tenants conf.slug with
  | some t =>
    obtain ⟨ht, hslug⟩ := findBySlug_some hfind
    have hs : statement env conf db d₁ (.findTenant rotate) = some (db, .findUi rotate t.id) := by
      simp only [statement, hfind]
    refine within_le (Nat.le_succ _) (within_step hs (hnext db _ t.id ?_ hfresh.tail ?_))
    · exact ⟨rfl, by simp only [tenantsAfter, hfind], t, ht, hslug, rfl⟩
    · simp only [List.length_cons]
      omega
  | none =>
    have hs : statement env conf db d₁ (.findTenant rotate) = some (db, .createTenant rotate) := by
      simp only [statement, hfind]
    have hinsert : insertTenant db.tenants (newTenant conf d₂.id) = .ok _ :=
      insertTenant_new (hfresh.tenants d₂ (by simp)) hfind
    have hs' : statement env conf db d₂ (.createTenant rotate) =
        some ({ db with tenants := db.tenants ++ [newTenant conf d₂.id] },
          .findUi rotate d₂.id) := by
      simp only [statement, hinsert]
    refine within_step hs (within_step hs' (hnext _ ds _ ?_ (hfresh.tail.next ?_ ?_) ?_))
    · refine ⟨rfl, by simp only [tenantsAfter, hfind], newTenant conf d₂.id, ?_, rfl, rfl⟩
      exact List.mem_append_right _ (List.mem_singleton_self _)
    · intro t ht
      rcases List.mem_append.mp ht with ht | ht
      · exact Or.inr ⟨t, ht, rfl⟩
      · rw [List.mem_singleton.mp ht]
        exact Or.inl rfl
    · exact fun c hc => Or.inr ⟨c, hc, rfl⟩
    · omega

/-! ### A client -/

theorem insertClient_new {client : OAuthClient} (hrow : checkRow client = .ok ())
    (hid : ∀ c ∈ clients, c.id ≠ client.id)
    (hfind : findByClientId clients client.clientId = none) :
    insertClient clients client = .ok (clients ++ [client]) := by
  unfold insertClient
  rw [hrow, ok_bind, if_neg ?_, if_neg ?_]
  · rfl
  · intro hany
    obtain ⟨c, hc, he⟩ := List.any_eq_true.mp hany
    exact List.find?_eq_none.mp hfind c hc he
  · intro hany
    obtain ⟨c, hc, he⟩ := List.any_eq_true.mp hany
    exact hid c hc (of_decide_eq_true he)

/-- What an upsert does when nobody comes in between. -/
inductive Upsert (clients : List OAuthClient) (clientId id : String)
    (assign : OAuthClient → OAuthClient) (clients' : List OAuthClient) : Prop where
  | insert (hfind : findByClientId clients clientId = none)
      (hsave : saveStep clients id (.insert (assign newOAuthClient)) = some (.ok (clients', none)))
      (hwrote : Wrote clients clients' { assign newOAuthClient with id })
  | update (c : OAuthClient) (hfind : findByClientId clients clientId = some c)
      (hselect : ∀ id, saveStep clients id (.select (assign c)) =
        some (.ok (clients, some (.write (assign c) c))))
      (hwrite : ∀ id, saveStep clients id (.write (assign c) c) = some (.ok (clients', none)))
      (hwrote : Wrote clients clients' (assign c))

theorem upsert_alone (hk : Constraints clients) {clientId id : String}
    {assign : OAuthClient → OAuthClient} (hid : ∀ c, (assign c).id = c.id)
    (hclientId : ∀ c, (assign c).clientId = clientId) (hfresh : ∀ c ∈ clients, c.id ≠ id)
    (hnew : checkRow { assign newOAuthClient with id } = .ok ())
    (hold : ∀ c ∈ clients, c.clientId = clientId → checkRow (assign c) = .ok ()) :
    ∃ clients', Upsert clients clientId id assign clients' := by
  cases hfind : findByClientId clients clientId with
  | none =>
    have hinsert : insertClient clients { assign newOAuthClient with id } = .ok _ :=
      insertClient_new hnew hfresh ((hclientId newOAuthClient).symm ▸ hfind)
    refine ⟨_, .insert hfind ?_ (wrote_insert hk hinsert)⟩
    simp only [saveStep, hinsert]
  | some c =>
    obtain ⟨hc, he⟩ := findByClientId_some hfind
    have hrow : findById clients (assign c).id = some c := by
      rw [hid]
      exact findById_of_mem hk.id hc
    have hsave : saveClient clients (assign c) =
        .ok (Table.save OAuthClient.id (assign c) clients) := by
      unfold saveClient
      rw [hold c hc he]
      rfl
    have hwrote := wrote_save hk hc (hid c) ((hclientId c).trans he.symm) hsave
    refine ⟨_, .update c hfind ?_ ?_ hwrote⟩
    · intro _
      simp only [saveStep, hrow]
    · intro _
      simp only [saveStep, hrow, OAuthClients.writeColumns_self (hid c), hsave]

/-- The row of the client with the fields assigned, or a new row with nothing else in it. -/
def Assigned (clients : List OAuthClient) (clientId : String) (assign : OAuthClient → OAuthClient)
    (row : OAuthClient) : Prop :=
  match findByClientId clients clientId with
  | some client => row = assign client
  | none => ∃ id, row = { assign newOAuthClient with id }

/-- The row that an upsert has written, in the table that it leaves. -/
structure Upserted (db : Db) (clientId : String) (assign : OAuthClient → OAuthClient)
    (clients' : List OAuthClient) (row : OAuthClient) : Prop where
  origin : Assigned db.clients clientId assign row
  wrote : Wrote db.clients clients' row
  clientId : row.clientId = clientId
  assigned : assign row = row

theorem Upsert.upserted {clientId id : String} {assign : OAuthClient → OAuthClient}
    (h : Upsert db.clients clientId id assign clients')
    (hclientId : ∀ c, (assign c).clientId = clientId) (hagain : ∀ c, assign (assign c) = assign c)
    (hassignId : ∀ c, assign { assign c with id } = { assign c with id }) :
    ∃ row, Upserted db clientId assign clients' row ∧
      ∀ c ∈ clients', c.id = id ∨ ∃ old ∈ db.clients, old.id = c.id := by
  have hids : ∀ {row : OAuthClient}, Wrote db.clients clients' row →
      (row.id = id ∨ ∃ old ∈ db.clients, old.id = row.id) →
      ∀ c ∈ clients', c.id = id ∨ ∃ old ∈ db.clients, old.id = c.id := by
    intro row hw hrow c hc
    rcases (hw.mem c).mp hc with rfl | ⟨hc, -⟩
    · exact hrow
    · exact Or.inr ⟨c, hc, rfl⟩
  cases h with
  | insert hfind hsave hwrote =>
    refine ⟨_, ⟨?_, hwrote, hclientId newOAuthClient, hassignId newOAuthClient⟩,
      hids hwrote (Or.inl rfl)⟩
    rw [Assigned, hfind]
    exact ⟨id, rfl⟩
  | update c hfind hselect hwrite hwrote =>
    obtain ⟨hc, he⟩ := findByClientId_some hfind
    refine ⟨_, ⟨?_, hwrote, hclientId c, hagain c⟩, hids hwrote (Or.inr ⟨c, hc, ?_⟩)⟩
    · rw [Assigned, hfind]
    · exact (hwrote.id c hc (he.trans (hclientId c).symm)).symm

theorem checkRow_uiFields {c : OAuthClient} {tenantId : TenantId} (h : checkRow c = .ok ()) :
    checkRow (uiFields conf tenantId c) = .ok () := by
  unfold checkRow at h ⊢
  split at h
  · cases h
  · split at h
    · cases h
    next httl => simp [uiFields, httl]

theorem checkRow_adminFields {c : OAuthClient} {tenantId : TenantId} {secret salt : String}
    (hconfidential : c.isPublic = false) (h : checkRow c = .ok ()) :
    checkRow (adminFields env tenantId secret salt c) = .ok () := by
  unfold checkRow at h ⊢
  split at h
  · cases h
  · split at h
    · cases h
    next httl => simp [adminFields, hconfidential, httl]

theorem ui_phase {rotate : Bool} {tenantId : TenantId} (hk : Constraints db.clients)
    (hfresh : Fresh db ds) (hlen : n + 3 ≤ ds.length)
    (hnext : ∀ clients' ds' row,
      Upserted db uiClientId (uiFields conf tenantId) clients' row →
      Fresh { db with clients := clients' } ds' → n ≤ ds'.length →
      Within env conf n ds' ({ db with clients := clients' }, afterUi rotate tenantId) P) :
    Within env conf (n + 3) ds (db, .findUi rotate tenantId) P := by
  match ds, hlen with
  | d₁ :: d₂ :: d₃ :: ds, hlen =>
  simp only [List.length_cons] at hlen
  have hui : ∃ clients', Upsert db.clients uiClientId d₂.id (uiFields conf tenantId) clients' :=
    upsert_alone hk (fun _ => rfl) (fun _ => rfl) (hfresh.clients d₂ (by simp)) rfl
      fun c hc _ => checkRow_uiFields (hk.row c hc)
  obtain ⟨clients', h⟩ := hui
  obtain ⟨row, hrow, hids⟩ := h.upserted (fun _ => rfl) (fun _ => rfl) fun _ => rfl
  have hfresh' : Fresh { db with clients := clients' } (d₃ :: ds) :=
    hfresh.tail.next (fun t ht => Or.inr ⟨t, ht, rfl⟩) hids
  have hs : statement env conf db d₁ (.findUi rotate tenantId) = some (db, .saveUi rotate tenantId
      (upsertClient db.clients uiClientId (uiFields conf tenantId))) := rfl
  cases h with
  | insert hfind hsave =>
    rw [upsertClient, hfind] at hs
    have hs' : statement env conf db d₂ (.saveUi rotate tenantId
        (.insert (uiFields conf tenantId newOAuthClient))) =
        some ({ db with clients := clients' }, afterUi rotate tenantId) := by
      simp only [statement, hsave]
    refine within_le (Nat.le_succ _) (within_step hs (within_step hs' ?_))
    refine hnext clients' _ row hrow hfresh' ?_
    simp only [List.length_cons]
    omega
  | update c hfind hselect hwrite =>
    rw [upsertClient, hfind] at hs
    have hs' : statement env conf db d₂ (.saveUi rotate tenantId
        (.select (uiFields conf tenantId c))) =
        some (db, .saveUi rotate tenantId (.write (uiFields conf tenantId c) c)) := by
      simp only [statement, hselect]
    have hs'' : statement env conf db d₃ (.saveUi rotate tenantId
        (.write (uiFields conf tenantId c) c)) =
        some ({ db with clients := clients' }, afterUi rotate tenantId) := by
      simp only [statement, hwrite]
    refine within_step hs (within_step hs' (within_step hs'' ?_))
    exact hnext clients' _ row hrow hfresh'.tail (by omega)

theorem statement_saveAdmin {tenantId : TenantId} {secret : String} {save : Save}
    (h : saveStep db.clients d.id save = some (.ok (clients', none))) :
    statement env conf db d (.saveAdmin tenantId secret save) =
      some (⟨db.tenants, clients', if save.writesHash then db.stored ++ [secret] else db.stored⟩,
        .returned ⟨tenantId, conf.redirectUris, some secret⟩) := by
  simp only [statement, h]

theorem admin_phase {tenantId : TenantId} (hk : Constraints db.clients)
    (hconfidential : ∀ c ∈ db.clients, c.clientId = adminClientId → c.isPublic = false)
    (hfresh : Fresh db ds) (hlen : 3 ≤ ds.length)
    (hdone : ∀ clients' row secret salt stored,
      Upserted db adminClientId (adminFields env tenantId secret salt) clients' row →
      P (⟨db.tenants, clients', stored⟩,
        .returned ⟨tenantId, conf.redirectUris, some secret⟩)) :
    Within env conf 3 ds (db, .findAdmin tenantId) P := by
  match ds, hlen with
  | d₁ :: d₂ :: d₃ :: ds, _ =>
  have hadmin : ∃ clients', Upsert db.clients adminClientId d₂.id
      (adminFields env tenantId d₁.secret d₁.salt) clients' :=
    upsert_alone hk (fun _ => rfl) (fun _ => rfl) (hfresh.clients d₂ (by simp)) rfl
      fun c hc he => checkRow_adminFields (hconfidential c hc he) (hk.row c hc)
  obtain ⟨clients', h⟩ := hadmin
  obtain ⟨row, hrow, -⟩ := h.upserted (fun _ => rfl) (fun _ => rfl) fun _ => rfl
  have hs : statement env conf db d₁ (.findAdmin tenantId) = some (db, .saveAdmin tenantId d₁.secret
      (upsertClient db.clients adminClientId (adminFields env tenantId d₁.secret d₁.salt))) := rfl
  cases h with
  | insert hfind hsave =>
    rw [upsertClient, hfind] at hs
    exact within_le (Nat.le_succ _) (within_step hs (within_step (statement_saveAdmin hsave)
      (within_now (hdone clients' row _ _ _ hrow))))
  | update c hfind hselect hwrite =>
    rw [upsertClient, hfind] at hs
    have hs' : statement env conf db d₂ (.saveAdmin tenantId d₁.secret
        (.select (adminFields env tenantId d₁.secret d₁.salt c))) =
        some (db, .saveAdmin tenantId d₁.secret
          (.write (adminFields env tenantId d₁.secret d₁.salt c) c)) := by
      simp only [statement, hselect]
    exact within_step hs (within_step hs' (within_step (statement_saveAdmin (hwrite d₃.id))
      (within_now (hdone clients' row _ _ _ hrow))))

/-! ### A whole run -/

/-- What a run leaves behind that nobody has disturbed. -/
structure Recovered (env : Env) (conf : Settings) (rotate : Bool) (db db' : Db)
    (result : BootstrapResult) : Prop where
  tenant : TenantOk conf db'.tenants result.tenantId
  redirectUris : result.redirectUris = conf.redirectUris
  tenants : db'.tenants = tenantsAfter conf db.tenants result.tenantId
  ui : ∃ c ∈ db'.clients, c.clientId = uiClientId ∧ uiFields conf result.tenantId c = c ∧
    Assigned db.clients uiClientId (uiFields conf result.tenantId) c
  minted : result.adminClientSecret = none ↔
    rotate = false ∧ ∃ c ∈ db.clients, c.clientId = adminClientId
  admin : ∀ secret, result.adminClientSecret = some secret →
    (∃ salt, ∃ c ∈ db'.clients, c.clientId = adminClientId ∧
      adminFields env result.tenantId secret salt c = c ∧
      Assigned db.clients adminClientId (adminFields env result.tenantId secret salt) c) ∧
    ∀ actual, providerAccepts env db'.clients adminClientId actual = true ↔ actual = secret
  untouched : result.adminClientSecret = none →
    ∀ c, c.clientId ≠ uiClientId → (c ∈ db'.clients ↔ c ∈ db.clients)
  others : OthersKept db.clients db'.clients

theorem accepts_upserted (hargon : Argon2 env) {tenantId : TenantId} {secret salt : String}
    {row : OAuthClient}
    (h : Upserted db adminClientId (adminFields env tenantId secret salt) clients' row)
    (actual : String) :
    providerAccepts env clients' adminClientId actual = true ↔ actual = secret := by
  have hmem : row ∈ clients' := (h.wrote.mem row).mpr (Or.inl rfl)
  have hhash : row.clientSecretHash = some (env.hash salt secret) := by
    rw [← h.assigned]
    rfl
  have hactive : row.revokedAt = none := by
    rw [← h.assigned]
    rfl
  rw [providerAccepts_iff hargon h.wrote.constraints]
  constructor
  · rintro ⟨c, hc, hid, -, hash, hsome, hverify⟩
    have hsame := Table.eq_of_key h.wrote.constraints.clientId hc hmem (hid.trans h.clientId.symm)
    rw [hsame, hhash] at hsome
    cases hsome
    exact (hargon.verify_hash salt secret actual).mp hverify
  · rintro rfl
    refine ⟨row, hmem, h.clientId, hactive, _, hhash, ?_⟩
    exact (hargon.verify_hash salt actual actual).mpr rfl

theorem admin_ne_ui : adminClientId ≠ uiClientId := by decide

section Run

variable {db₁ : Db} {tenantId : TenantId} {clients₁ : List OAuthClient} {ui : OAuthClient}
  {rotate : Bool}

theorem mem_of_other (ht : HasTenant conf db db₁ tenantId)
    (hui : Upserted db₁ uiClientId (uiFields conf tenantId) clients₁ ui) {c : OAuthClient}
    (hne : c.clientId ≠ uiClientId) : c ∈ clients₁ ↔ c ∈ db.clients := by
  rw [hui.wrote.mem, ht.clients, hui.clientId]
  constructor
  · rintro (rfl | ⟨hc, -⟩)
    · exact absurd hui.clientId hne
    · exact hc
  · exact fun hc => Or.inr ⟨hc, hne⟩

theorem find_other (ht : HasTenant conf db db₁ tenantId)
    (hui : Upserted db₁ uiClientId (uiFields conf tenantId) clients₁ ui) {clientId : String}
    (hne : clientId ≠ uiClientId) :
    findByClientId clients₁ clientId = findByClientId db.clients clientId := by
  cases hfind : findByClientId db.clients clientId with
  | some c =>
    obtain ⟨hc, he⟩ := findByClientId_some hfind
    rw [← he]
    exact findByClientId_of_mem hui.wrote.constraints.clientId
      ((mem_of_other ht hui (he.symm ▸ hne)).mpr hc)
  | none =>
    cases hfind' : findByClientId clients₁ clientId with
    | none => rfl
    | some c =>
      obtain ⟨hc, he⟩ := findByClientId_some hfind'
      have hold := (mem_of_other ht hui (he.symm ▸ hne)).mp hc
      exact absurd (decide_eq_true he) (List.find?_eq_none.mp hfind c hold)

/-- Once the interface client is in place, with a secret for the administration client. -/
theorem recovered_minted (hargon : Argon2 env) (ht : HasTenant conf db db₁ tenantId)
    (hui : Upserted db₁ uiClientId (uiFields conf tenantId) clients₁ ui)
    (hminted : ¬(rotate = false ∧ ∃ c ∈ db.clients, c.clientId = adminClientId))
    {secret salt : String} {stored : List String} {row : OAuthClient}
    (h : Upserted { db₁ with clients := clients₁ } adminClientId
      (adminFields env tenantId secret salt) clients' row) :
    Recovered env conf rotate db ⟨db₁.tenants, clients', stored⟩
      ⟨tenantId, conf.redirectUris, some secret⟩ := by
  have huiMem : ui ∈ clients₁ := (hui.wrote.mem ui).mpr (Or.inl rfl)
  have horigin := h.origin
  have huiOrigin := hui.origin
  rw [ht.clients] at huiOrigin
  rw [Assigned, find_other ht hui admin_ne_ui] at horigin
  refine ⟨ht.tenantOk, rfl, ht.tenants, ⟨ui, ?_, hui.clientId, hui.assigned, huiOrigin⟩, ?_, ?_,
    nofun, ?_⟩
  · refine (h.wrote.mem ui).mpr (Or.inr ⟨huiMem, ?_⟩)
    rw [hui.clientId, h.clientId]
    exact admin_ne_ui.symm
  · exact ⟨nofun, fun hnone => absurd hnone hminted⟩
  · intro s hs
    cases hs
    refine ⟨⟨salt, row, (h.wrote.mem row).mpr (Or.inl rfl), h.clientId, h.assigned, horigin⟩, ?_⟩
    exact accepts_upserted hargon h
  · intro c hcui hcadmin
    exact (h.wrote.others (Or.inr h.clientId) c hcui hcadmin).trans (mem_of_other ht hui hcui)

theorem recovered_known (ht : HasTenant conf db db₁ tenantId)
    (hui : Upserted db₁ uiClientId (uiFields conf tenantId) clients₁ ui)
    (hknown : ∃ c ∈ db.clients, c.clientId = adminClientId) :
    Recovered env conf false db { db₁ with clients := clients₁ }
      ⟨tenantId, conf.redirectUris, none⟩ := by
  have huiMem : ui ∈ clients₁ := (hui.wrote.mem ui).mpr (Or.inl rfl)
  have huiOrigin := hui.origin
  rw [ht.clients] at huiOrigin
  refine ⟨ht.tenantOk, rfl, ht.tenants, ⟨ui, huiMem, hui.clientId, hui.assigned, huiOrigin⟩,
    ⟨fun _ => ⟨rfl, hknown⟩, fun _ => rfl⟩, nofun, fun _ c hne => mem_of_other ht hui hne, ?_⟩
  exact fun c hne _ => mem_of_other ht hui hne

/-- A run from any tables that keep the constraints. -/
theorem run_alone (hargon : Argon2 env) (h : Placed conf db.tenants db.clients)
    (hfresh : Fresh db ds) (hlen : 9 ≤ ds.length) :
    Within env conf 9 ds (db, .findTenant rotate) (fun s => ∃ result,
      s.2 = .returned result ∧ Recovered env conf rotate db s.1 result) := by
  refine tenant_phase (n := 7) hfresh hlen ?_
  intro db₁ ds₁ tenantId ht hfresh₁ hlen₁
  have hk₁ : Constraints db₁.clients := ht.clients ▸ h.constraints
  refine ui_phase (n := 4) hk₁ hfresh₁ hlen₁ ?_
  intro clients₁ ds₂ ui hui hfresh₂ hlen₂
  have hk₂ : Constraints clients₁ := hui.wrote.constraints
  have hconfidential : ∀ c ∈ clients₁, c.clientId = adminClientId → c.isPublic = false :=
    by
    intro c hc hadmin
    exact h.confidential c ((mem_of_other ht hui (hadmin ▸ admin_ne_ui)).mp hc) hadmin
  cases rotate with
  | true =>
    refine within_le (Nat.le_succ 3) (admin_phase hk₂ hconfidential hfresh₂ (by omega) ?_)
    intro clients₂ row secret salt stored hrow
    refine ⟨_, rfl, recovered_minted hargon ht hui ?_ hrow⟩
    rintro ⟨hfalse, -⟩
    cases hfalse
  | false =>
    match ds₂, hlen₂ with
    | d :: ds₃, hlen₂ =>
    cases hfind : findByClientId clients₁ adminClientId with
    | some c =>
      obtain ⟨hc, hadmin⟩ := findByClientId_some hfind
      have hs : statement env conf { db₁ with clients := clients₁ } d (.lookAdmin tenantId) =
          some ({ db₁ with clients := clients₁ },
            .returned ⟨tenantId, conf.redirectUris, none⟩) := by
        simp only [statement, hfind]
      refine within_step hs (within_now ⟨_, rfl, recovered_known ht hui ?_⟩)
      exact ⟨c, (mem_of_other ht hui (hadmin ▸ admin_ne_ui)).mp hc, hadmin⟩
    | none =>
      have hs : statement env conf { db₁ with clients := clients₁ } d (.lookAdmin tenantId) =
          some ({ db₁ with clients := clients₁ }, .findAdmin tenantId) := by
        simp only [statement, hfind]
      refine within_step hs (admin_phase hk₂ hconfidential hfresh₂.tail ?_ ?_)
      · simpa using hlen₂
      · intro clients₂ row secret salt stored hrow
        refine ⟨_, rfl, recovered_minted hargon ht hui ?_ hrow⟩
        rintro ⟨-, c, hc, hadmin⟩
        have hin := (mem_of_other ht hui (hadmin ▸ admin_ne_ui)).mpr hc
        exact List.find?_eq_none.mp hfind c hin (decide_eq_true hadmin)

end Run

/-- A run over tables that a run has left. -/
theorem rerun_alone {tenantId : TenantId} (hk : Constraints db.clients)
    (hslugs : Table.UniqueKeys Tenant.slug db.tenants) (ht : TenantOk conf db.tenants tenantId)
    {ui : OAuthClient} (hc : ui ∈ db.clients) (hcid : ui.clientId = uiClientId)
    (hsame : uiFields conf tenantId ui = ui)
    (hadmin : ∃ c ∈ db.clients, c.clientId = adminClientId) (hlen : 5 ≤ ds.length) :
    Within env conf 5 ds (db, .findTenant false)
      (fun s => s = (db, .returned ⟨tenantId, conf.redirectUris, none⟩)) := by
  match ds, hlen with
  | d₁ :: d₂ :: d₃ :: d₄ :: d₅ :: ds, _ =>
  obtain ⟨t, ht, hslug, rfl⟩ := ht
  obtain ⟨admin, hadminMem, hadminId⟩ := hadmin
  have hrow : findById db.clients ui.id = some ui := findById_of_mem hk.id hc
  have hsave : saveClient db.clients ui = .ok db.clients := by
    unfold saveClient
    rw [hk.row ui hc, Table.save_self hk.id hc]
    rfl
  have h₁ : statement env conf db d₁ (.findTenant false) = some (db, .findUi false t.id) := by
    have hfind : findBySlug db.tenants conf.slug = some t := by
      cases hfind : findBySlug db.tenants conf.slug with
      | none => exact absurd (decide_eq_true hslug) (List.find?_eq_none.mp hfind t ht)
      | some t' =>
        obtain ⟨ht', hslug'⟩ := findBySlug_some hfind
        rw [Table.eq_of_key hslugs ht' ht (hslug'.trans hslug.symm)]
    simp only [statement, hfind]
  have h₂ : statement env conf db d₂ (.findUi false t.id) =
      some (db, .saveUi false t.id (.select ui)) := by
    have hfind := findByClientId_of_mem hk.clientId hc
    rw [hcid] at hfind
    simp only [statement, upsertClient, hfind, hsame]
  have h₃ : statement env conf db d₃ (.saveUi false t.id (.select ui)) =
      some (db, .saveUi false t.id (.write ui ui)) := by
    simp only [statement, saveStep, hrow]
  have h₄ : statement env conf db d₄ (.saveUi false t.id (.write ui ui)) =
      some (db, .lookAdmin t.id) := by
    simp only [statement, saveStep, hrow, OAuthClients.writeColumns_self, hsave]
    rfl
  have h₅ : statement env conf db d₅ (.lookAdmin t.id) =
      some (db, .returned ⟨t.id, conf.redirectUris, none⟩) := by
    have hfind := findByClientId_of_mem hk.clientId hadminMem
    rw [hadminId] at hfind
    simp only [statement, hfind]
  exact within_step h₁ (within_step h₂ (within_step h₃ (within_step h₄ (within_step h₅
    (within_now rfl)))))

/-! ### In a world of processes -/

/-- The events of one process that starts and is given `k` statements. -/
def processRun (i : ℕ) (rotate : Bool) (ds : List Drawn) : List (ℕ × Event) :=
  (i, .run rotate) :: ds.map fun d => (i, .statement d)

theorem within_world {w : World} {i : ℕ} {rotate : Bool} (hidle : w.calls i = .idle)
    (h : Within env conf n ds (w.db, .findTenant rotate) P) :
    ∃ k ≤ n, ∃ s', Run.final (step env conf) w (processRun i rotate (ds.take k)) =
      some ⟨s'.1, Function.update w.calls i s'.2⟩ ∧ P s' := by
  obtain ⟨k, hk, s', hrun, hp⟩ := h
  refine ⟨k, hk, s', ?_, hp⟩
  have halone := @Run.final_alone _ _ _ (processAct env conf) i
    (.run rotate :: (ds.take k).map .statement) w
  rw [hidle] at halone
  have hevents : processRun i rotate (ds.take k) =
      (Event.run rotate :: (ds.take k).map .statement).map fun e => (i, e) := by
    rw [processRun, List.map_cons, List.map_map]
    rfl
  rw [hevents, step, halone, Run.final]
  show (Run.final _ (w.db, Process.findTenant rotate) _).map _ = _
  rw [hrun]
  rfl

theorem sound_final (hargon : Argon2 env) {w w' : World} {events : List (ℕ × Event)}
    (hw : Sound env conf initial w) (hrun : Run.final (step env conf) w events = some w') :
    Sound env conf initial w' := by
  have henabled : Run.Enabled (step env conf) w events :=
    Run.enabled_of_final (by rw [hrun]; rfl)
  exact Run.final_of_invariant (Sound env conf initial)
    (fun _ _ _ h hs _ => sound_step hargon h hs) hw henabled hrun

/-- A run after which everything is in place, and after which a further run changes nothing. -/
theorem bootstrap_recovers (env : Env) (conf : Settings) (hargon : Argon2 env)
    (tenants : List Tenant) (clients : List OAuthClient) (h : Placed conf tenants clients)
    (events : List (ℕ × Event)) (w : World)
    (hrun : Run.final (step env conf) (begin tenants clients) events = some w) (i : ℕ)
    (hidle : w.calls i = .idle) (rotate : Bool) (ds : List Drawn) (hfresh : Fresh w.db ds)
    (hlen : 9 ≤ ds.length) :
    ∃ k ≤ 9, ∃ w' result, Run.final (step env conf) w (processRun i rotate (ds.take k)) = some w' ∧
      w'.calls i = .returned result ∧ Recovered env conf rotate w.db w'.db result ∧
      ∀ j, w'.calls j = .idle → ∀ ds' : List Drawn, 5 ≤ ds'.length → ∃ k' ≤ 5, ∃ w'',
        Run.final (step env conf) w' (processRun j false (ds'.take k')) = some w'' ∧
        w''.db = w'.db ∧
        w''.calls j = .returned ⟨result.tenantId, result.redirectUris, none⟩ := by
  have hw := sound_final hargon (sound_begin h) hrun
  obtain ⟨k, hk, s', hfinal, result, hreturned, hrecovered⟩ :=
    within_world hidle (run_alone hargon hw.1.toPlaced hfresh hlen)
  refine ⟨k, hk, _, result, hfinal, ?_, hrecovered, ?_⟩
  · exact (Function.update_self ..).trans hreturned
  · intro j hj ds' hlen'
    have hgood := (sound_final hargon hw hfinal).1
    have hadmin : ∃ c ∈ s'.1.clients, c.clientId = adminClientId := by
      cases hsecret : result.adminClientSecret with
      | some secret =>
        obtain ⟨⟨salt, c, hc, hid, -, -⟩, -⟩ := hrecovered.admin secret hsecret
        exact ⟨c, hc, hid⟩
      | none =>
        obtain ⟨-, c, hc, hid⟩ := hrecovered.minted.mp hsecret
        exact ⟨c, (hrecovered.untouched hsecret c (hid ▸ admin_ne_ui)).mpr hc, hid⟩
    obtain ⟨ui, hmem, hid, hsame, -⟩ := hrecovered.ui
    obtain ⟨k', hk', s'', hagain, hs''⟩ := within_world hj
      (rerun_alone hgood.constraints hgood.slugs hrecovered.tenant hmem hid hsame hadmin hlen')
    cases hs''
    refine ⟨k', hk', _, hagain, rfl, (Function.update_self ..).trans ?_⟩
    rw [hrecovered.redirectUris]

def newSecrets : List Drawn :=
  [⟨"r1", "s1", ""⟩, ⟨"r2", "s2", ""⟩, ⟨"r3", "s3", ""⟩, ⟨"r4", "s4", ""⟩, ⟨"r5", "s5", ""⟩,
    ⟨"r6", "s6", ""⟩, ⟨"r7", "s7", ""⟩, ⟨"r8", "s8", ""⟩, ⟨"r9", "s9", ""⟩]

/-- The first run has stored a secret and dies before it shows it. -/
theorem bootstrap_recovers_lost :
    ∃ w, Run.final (step unsaltedEnv acme) (begin [] []) (firstRun ++ [(0, .exit)]) = some w ∧
      ∃ k ≤ 9, ∃ w' result, Run.final (step unsaltedEnv acme) w
        (processRun 0 true (newSecrets.take k)) = some w' ∧
        w'.calls 0 = .returned result ∧
        Recovered unsaltedEnv acme true w.db w'.db result := by
  refine ⟨_, rfl, ?_⟩
  obtain ⟨k, hk, w', result, hfinal, hreturned, hrecovered, -⟩ :=
    bootstrap_recovers unsaltedEnv acme unsaltedEnv_argon2 [] [] placed_empty
      (firstRun ++ [(0, .exit)]) _ rfl 0 rfl true newSecrets
      ⟨by decide, by decide, by decide⟩ (by decide)
  exact ⟨k, hk, w', result, hfinal, hreturned, hrecovered⟩

end VcCommonService.Bootstrap
