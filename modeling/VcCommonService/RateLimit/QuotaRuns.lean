import VcCommonService.RateLimit.TenantQuota

/-!
# Rate limits, statement by statement

Requests, resets and the prune worker over the shared table. A count and the insert after it are
statements of their own, and a `DELETE` takes away, when it commits, the rows that were there when
it began. However they interleave, what the tier guard counts for a tenant are the hits of the
tenant's own requests, less what a reset of the tenant and the worker have removed.
-/

namespace VcCommonService.RateLimits
open Lib Auth Tenants

/-! ### The table -/

/-- A row, with the number of rows that were inserted before it. -/
structure StoredHit extends RateLimitHit where
  seq : ℕ
  deriving Repr, DecidableEq

/-- `deleteForTenant` and `pruneOlderThan`. -/
inductive Deletion where
  | forTenant (tenantId : TenantId)
  | olderThan (cutoff : Time)
  deriving Repr, DecidableEq

def Deletion.selects : Deletion → RateLimitHit → Bool
  | .forTenant tenantId, h => decide (h.bucket.tracker = tenantId)
  | .olderThan cutoff, h => decide (h.hitAt < cutoff)

/-- A row that was not inserted yet when the `DELETE` began stays. -/
def Deletion.removes (d : Deletion) (upTo : ℕ) (h : StoredHit) : Bool :=
  d.selects h.toRateLimitHit && decide (h.seq < upTo)

inductive Entry where
  | passed (tenantId : TenantId) (r : RouteRequest)
  | recorded (h : StoredHit) (r : RouteRequest)
  | ordered (d : Deletion)
  | removed (d : Deletion) (upTo : ℕ)

/-- The tenant tables, the hits and how many have been inserted, and as history which requests came
to the tier guard for a tenant, what it inserted, and which deletions were ordered and committed,
newest first. -/
structure RateStore where
  tables : TenantTables
  hits : List StoredHit
  inserted : ℕ
  log : List Entry

def RateStore.rows (db : RateStore) : List RateLimitHit := db.hits.map StoredHit.toRateLimitHit

inductive Guard where
  | address
  | tier (tenantId : TenantId)
  deriving Repr, DecidableEq

def RateStore.recordHit (db : RateStore) (r : RouteRequest) (guard : Guard) (bucket : Bucket)
    (now : Time) : RateStore :=
  let h : StoredHit := { bucket, hitAt := now, seq := db.inserted }
  { db with
    hits := h :: db.hits
    inserted := db.inserted + 1
    log := match guard with
      | .address => db.log
      | .tier _ => .recorded h r :: db.log }

def RateStore.order (db : RateStore) (d : Deletion) : RateStore :=
  { db with log := .ordered d :: db.log }

def RateStore.delete (db : RateStore) (d : Deletion) (upTo : ℕ) : RateStore :=
  { db with hits := Table.deleteWhere (d.removes upTo) db.hits, log := .removed d upTo :: db.log }

/-! ### Calls -/

/-- The retention that the worker uses for the configured one. -/
def retention (minutes : ℤ) : ℤ := if 0 < minutes then minutes else 5

/-- What a run of the worker deletes. -/
def pruneJob (retentionMinutes : ℤ) (now : Time) : Deletion :=
  .olderThan (now - retention retentionMinutes * 60 * 1000)

/-- Where a request, a reset or a run of the worker is. -/
inductive RateCall where
  | idle
  | counting (r : RouteRequest) (guard : Guard) (c : Increment) (since : Time)
  | recording (r : RouteRequest) (guard : Guard) (c : Increment) (existingHits : ℕ)
  | authorizing (r : RouteRequest)
  | readingTier (r : RouteRequest) (tenantId : TenantId)
  | answered (outcome : Except Refusal Unit)
  | deleting (d : Deletion)
  | committing (d : Deletion) (upTo : ℕ)
  | ended

/-- `next` is the next statement, with the clock that the code after it reads; a reset whose audit
entry is refused rolls back, and any statement may fail. -/
inductive RateEvent where
  | request (r : RouteRequest) (now : Time)
  | reset (tenantId : TenantId)
  | prune (retentionMinutes : ℤ) (now : Time)
  | changeTenants (tables : TenantTables)
  | next (now : Time)
  | rollback
  | fail (e : ServiceError)

/-- `increment` up to its count. -/
def beginIncrement (r : RouteRequest) (guard : Guard) (key : String) (ttl : ℤ) (limit : ℕ)
    (now : Time) : RateCall :=
  match parseRateLimitKey key with
  | .error e => .answered (.error (.service e))
  | .ok bucket => .counting r guard ⟨bucket, ttl, limit, ttl⟩ (now - ttl)

/-- What the guard makes of the record. -/
def afterIncrement (r : RouteRequest) (guard : Guard) (record : RateLimitStorageRecord) :
    RateCall :=
  match refused record with
  | .error refusal => .answered (.error refusal)
  | .ok _ =>
    match guard with
    | .address => .authorizing r
    | .tier _ => .answered (.ok ())

def rateStatement (config : RateConfig) (db : RateStore) :
    RateCall → RateEvent → Option (RateStore × RateCall)
  | .idle, .request r now =>
    some (db, if config.enabled then
      beginIncrement r .address r.addressKey config.windowMs config.globalPerMinute now
      else .authorizing r)
  | .counting r guard c since, .next _ =>
    let existingHits := countSince c.bucket since db.rows
    some (db, if c.alreadyBlocked existingHits then afterIncrement r guard (c.record existingHits)
      else .recording r guard c existingHits)
  | .recording r guard c existingHits, .next now =>
    some (db.recordHit r guard c.bucket now, afterIncrement r guard (c.record existingHits))
  | .authorizing r, .next _ =>
    match authorize db.tables r with
    | .error refusal => some (db, .answered (.error refusal))
    | .ok tenantId =>
      match Js.truthy tenantId with
      | none => some (db, .answered (.ok ()))
      | some tenantId =>
        if config.enabled then
          some ({ db with log := .passed tenantId r :: db.log }, .readingTier r tenantId)
        else some (db, .answered (.ok ()))
  | .readingTier r tenantId, .next now =>
    some (db, beginIncrement r (.tier tenantId) (buildRateLimitKey tenantId r.routeKey)
      config.windowMs (config.tierLimit (tierOf db.tables tenantId)) now)
  | .idle, .reset tenantId =>
    match findTenant db.tables tenantId with
    | none => some (db, .answered (.error (.service (.notFound findByIdMessage))))
    | some _ => some (db.order (.forTenant tenantId), .deleting (.forTenant tenantId))
  | .idle, .prune retentionMinutes now =>
    some (db.order (pruneJob retentionMinutes now), .deleting (pruneJob retentionMinutes now))
  | .deleting d, .next _ => some (db, .committing d db.inserted)
  | .committing d upTo, .next _ => some (db.delete d upTo, .ended)
  | .committing _ _, .rollback => some (db, .ended)
  | .idle, .changeTenants tables => some ({ db with tables }, .ended)
  | .idle, .fail _ | .answered _, .fail _ | .ended, .fail _ => none
  | _, .fail e => some (db, .answered (.error (.service e)))
  | _, _ => none

abbrev RateWorld := Run.World RateStore RateCall

def rateStep (config : RateConfig) : RateWorld → ℕ × RateEvent → Option RateWorld :=
  Run.interleave (rateStatement config)

def emptyStore (tables : TenantTables) : RateStore := ⟨tables, [], 0, []⟩

/-! ### A request that is alone -/

section Alone

variable {config : RateConfig} {db db' db'' : RateStore} {pc pc' pc'' : RateCall}

def Reaches (config : RateConfig) (db : RateStore) (pc : RateCall) (db' : RateStore)
    (pc' : RateCall) : Prop :=
  ∃ events, Run.final (fun (s : RateStore × RateCall) e => rateStatement config s.1 s.2 e) (db, pc)
    events = some (db', pc')

theorem reaches_refl : Reaches config db pc db pc := ⟨[], rfl⟩

theorem reaches_step {e : RateEvent} (h : rateStatement config db pc e = some (db', pc'))
    (hrest : Reaches config db' pc' db'' pc'') : Reaches config db pc db'' pc'' := by
  obtain ⟨events, hfinal⟩ := hrest
  refine ⟨e :: events, ?_⟩
  rw [Run.final]
  show (rateStatement config db pc e).bind _ = _
  rw [h]
  exact hfinal

theorem beginIncrement_build (r : RouteRequest) (guard : Guard) (tracker routeKey : String)
    (ttl : ℤ) (limit : ℕ) (now : Time) :
    beginIncrement r guard (buildRateLimitKey tracker routeKey) ttl limit now =
      .counting r guard ⟨⟨tracker, routeKey⟩, ttl, limit, ttl⟩ (now - ttl) := by
  rw [beginIncrement, parse_build]

theorem reaches_trans (h : Reaches config db pc db' pc')
    (hrest : Reaches config db' pc' db'' pc'') : Reaches config db pc db'' pc'' := by
  obtain ⟨events, hfinal⟩ := h
  induction events generalizing db pc with
  | nil =>
    cases hfinal
    exact hrest
  | cons e events ih =>
    obtain ⟨⟨db₁, pc₁⟩, hstep, hfinal⟩ := Run.final_cons hfinal
    exact reaches_step hstep (ih hfinal)

theorem increment_ok (ledger : Ledger) {c : IncrementCall} {b : Bucket}
    (hkey : c.key = buildRateLimitKey b.tracker b.routeKey) :
    ∃ ledger' record, increment ledger c = .ok (ledger', record) := by
  obtain ⟨ledger', hincrement, -⟩ := increment_key ledger hkey
  exact ⟨ledger', _, hincrement⟩

variable (config db) in
/-- The statements of an `increment` do what it does in one go. -/
theorem reaches_increment (r : RouteRequest) (guard : Guard) {b : Bucket} {c : IncrementCall}
    (hkey : c.key = buildRateLimitKey b.tracker b.routeKey) (hblock : c.blockDuration = c.ttl)
    {ledger ledger' : Ledger} {record : RateLimitStorageRecord} (hrows : ledger.hits = db.rows)
    (h : increment ledger c = .ok (ledger', record)) :
    ∃ db', Reaches config db (beginIncrement r guard c.key c.ttl c.limit c.calledAt) db'
      (afterIncrement r guard record) ∧ db'.rows = ledger'.hits ∧ db'.tables = db.tables := by
  obtain ⟨bucket, hparse, h⟩ := bind_eq_ok.mp h
  rw [hkey, parse_build] at hparse
  cases hparse
  cases h
  rw [hkey, beginIncrement_build, hblock, hrows]
  have hcounted : rateStatement config db
      (.counting r guard ⟨b, c.ttl, c.limit, c.ttl⟩ (c.calledAt - c.ttl)) (.next c.calledAt) =
    some (db, if c.limit < countSince b (c.calledAt - c.ttl) db.rows then
      afterIncrement r guard (Increment.record ⟨b, c.ttl, c.limit, c.ttl⟩
        (countSince b (c.calledAt - c.ttl) db.rows))
      else .recording r guard ⟨b, c.ttl, c.limit, c.ttl⟩
        (countSince b (c.calledAt - c.ttl) db.rows)) := by
    simp [rateStatement, Increment.alreadyBlocked]
  by_cases hblocked : c.limit < countSince b (c.calledAt - c.ttl) db.rows
  · rw [if_pos hblocked] at hcounted
    refine ⟨db, reaches_step hcounted reaches_refl, ?_, rfl⟩
    simp [Increment.alreadyBlocked, hblocked]
  · rw [if_neg hblocked] at hcounted
    have hrecorded : rateStatement config db (.recording r guard ⟨b, c.ttl, c.limit, c.ttl⟩
        (countSince b (c.calledAt - c.ttl) db.rows)) (.next c.recordedAt) =
      some (db.recordHit r guard b c.recordedAt, afterIncrement r guard (Increment.record
        ⟨b, c.ttl, c.limit, c.ttl⟩ (countSince b (c.calledAt - c.ttl) db.rows))) := rfl
    refine ⟨_, reaches_step hcounted (reaches_step hrecorded reaches_refl), ?_, rfl⟩
    dsimp only
    rw [if_neg (by simpa [Increment.alreadyBlocked] using hblocked)]
    rfl

theorem afterIncrement_address (r : RouteRequest) (record : RateLimitStorageRecord) :
    (∃ refusal, refused record = .error refusal ∧
      afterIncrement r .address record = .answered (.error refusal)) ∨
    (refused record = .ok () ∧ afterIncrement r .address record = .authorizing r) := by
  unfold afterIncrement
  cases refused record with
  | error refusal => exact Or.inl ⟨refusal, rfl, rfl⟩
  | ok _ => exact Or.inr ⟨rfl, rfl⟩

theorem afterIncrement_tier (r : RouteRequest) (tenantId : TenantId)
    (record : RateLimitStorageRecord) :
    afterIncrement r (.tier tenantId) record = .answered (refused record) := by
  unfold afterIncrement
  cases refused record with
  | error refusal => rfl
  | ok _ => rfl

variable (config db) in
theorem tierGuard_alone (henabled : config.enabled = true) (r : TimedRequest) (tenantId : TenantId)
    {s : RateService} (htables : s.tables = db.tables) (hrows : s.ledger.hits = db.rows) :
    ∃ db', Reaches config db (.readingTier r.toRouteRequest tenantId) db'
        (.answered (tierGuard config s tenantId r).2) ∧
      db'.rows = (tierGuard config s tenantId r).1.ledger.hits := by
  obtain ⟨ledger, record, hincrement⟩ := increment_ok s.ledger
    (c := quotaCall config s.tables tenantId r) (b := ⟨tenantId, r.routeKey⟩) rfl
  obtain ⟨db', hreaches, hrows', -⟩ := reaches_increment config db r.toRouteRequest
    (.tier tenantId) (b := ⟨tenantId, r.routeKey⟩) rfl rfl hrows hincrement
  have hread : rateStatement config db (.readingTier r.toRouteRequest tenantId)
      (.next r.quotaAt) = some (db, beginIncrement r.toRouteRequest (.tier tenantId)
        (quotaCall config s.tables tenantId r).key (quotaCall config s.tables tenantId r).ttl
        (quotaCall config s.tables tenantId r).limit
        (quotaCall config s.tables tenantId r).calledAt) := by
    rw [rateStatement, ← htables]
    rfl
  have hguard : tierGuard config s tenantId r = ({ s with ledger }, refused record) := by
    rw [tierGuard, if_neg (by simp [henabled]), hincrement]
  rw [afterIncrement_tier] at hreaches
  rw [hguard]
  exact ⟨db', reaches_step hread hreaches, hrows'⟩

variable (config db) in
theorem controllerGuards_alone (r : TimedRequest) {s : RateService} (htables : s.tables = db.tables)
    (hrows : s.ledger.hits = db.rows) :
    ∃ db', Reaches config db (.authorizing r.toRouteRequest) db'
        (.answered (controllerGuards config s r).2) ∧
      db'.rows = (controllerGuards config s r).1.ledger.hits := by
  cases hauthorize : authorize db.tables r.toRouteRequest with
  | error refusal =>
    have hguards : controllerGuards config s r = (s, .error refusal) := by
      simp only [controllerGuards, htables, hauthorize]
    rw [hguards]
    refine ⟨db, reaches_step (e := .next 0) ?_ reaches_refl, hrows.symm⟩
    simp only [rateStatement, hauthorize]
  | ok stamped =>
    cases htruthy : Js.truthy stamped with
    | none =>
      have hguards : controllerGuards config s r = (s, .ok ()) := by
        simp only [controllerGuards, htables, hauthorize, htruthy]
      rw [hguards]
      refine ⟨db, reaches_step (e := .next 0) ?_ reaches_refl, hrows.symm⟩
      simp only [rateStatement, hauthorize, htruthy]
    | some tenantId =>
      have hguards : controllerGuards config s r = tierGuard config s tenantId r := by
        simp only [controllerGuards, htables, hauthorize, htruthy]
      rw [hguards]
      cases henabled : config.enabled with
      | false =>
        have htier : tierGuard config s tenantId r = (s, .ok ()) := by
          rw [tierGuard, if_pos (by simp [henabled])]
        rw [htier]
        refine ⟨db, reaches_step (e := .next 0) ?_ reaches_refl, hrows.symm⟩
        simp [rateStatement, hauthorize, htruthy, henabled]
      | true =>
        have hpassed : rateStatement config db (.authorizing r.toRouteRequest) (.next 0) =
            some ({ db with log := .passed tenantId r.toRouteRequest :: db.log },
              .readingTier r.toRouteRequest tenantId) := by
          simp [rateStatement, hauthorize, htruthy, henabled]
        obtain ⟨db', hreaches, hrows'⟩ := tierGuard_alone config
          { db with log := .passed tenantId r.toRouteRequest :: db.log } henabled r tenantId
          htables hrows
        exact ⟨db', reaches_step hpassed hreaches, hrows'⟩

/-- The statements of a request that is alone do what it does in one go. -/
theorem handle_alone (config : RateConfig) (db : RateStore) (r : TimedRequest) (clock : Time)
    (served : List Served) :
    let s : RateService := ⟨db.tables, ⟨db.rows, clock, served⟩⟩
    ∃ db', Reaches config db .idle db' (.answered (handle config s r).2) ∧
      db'.rows = (handle config s r).1.ledger.hits := by
  intro s
  unfold handle
  cases henabled : config.enabled with
  | false =>
    have haddress : addressGuard config s r = (s, .ok ()) := by
      rw [addressGuard, if_pos (by simp [henabled])]
    obtain ⟨db', hreaches, hrows⟩ := controllerGuards_alone config db r
      (s := s) rfl rfl
    rw [haddress]
    refine ⟨db', reaches_step (e := .request r.toRouteRequest r.addressAt) ?_ hreaches, hrows⟩
    simp [rateStatement, henabled]
  | true =>
    obtain ⟨ledger, record, hincrement⟩ := increment_ok s.ledger (c := addressCall config r)
      (b := ⟨r.ip.getD "unknown", r.routeKey⟩) rfl
    obtain ⟨db₁, hreaches, hrows, htables⟩ := reaches_increment config db
      r.toRouteRequest .address (b := ⟨r.ip.getD "unknown", r.routeKey⟩) rfl rfl rfl hincrement
    have hbegun : rateStatement config db .idle (.request r.toRouteRequest r.addressAt) =
        some (db, beginIncrement r.toRouteRequest .address (addressCall config r).key
          (addressCall config r).ttl (addressCall config r).limit
          (addressCall config r).calledAt) := by
      simp [rateStatement, henabled, addressCall]
    have haddress : addressGuard config s r = ({ s with ledger }, refused record) := by
      rw [addressGuard, if_neg (by simp [henabled]), hincrement]
    rw [haddress]
    rcases afterIncrement_address r.toRouteRequest record with ⟨refusal, hrefused, hafter⟩ |
      ⟨hopen, hafter⟩
    · rw [hafter] at hreaches
      rw [hrefused]
      exact ⟨db₁, reaches_step hbegun hreaches, hrows⟩
    · rw [hafter] at hreaches
      rw [hopen]
      obtain ⟨db', hrest, hrows'⟩ := controllerGuards_alone config db₁ r
        (s := { s with ledger }) htables.symm hrows.symm
      exact ⟨db', reaches_step hbegun (reaches_trans hreaches hrest), hrows'⟩

end Alone

/-! ### The quota of one tenant -/

/-- The hits of a tenant, going by the history alone. -/
def ownHits (tenantId : TenantId) : List Entry → List StoredHit
  | [] => []
  | .recorded h _ :: older =>
    if h.bucket.tracker = tenantId then h :: ownHits tenantId older else ownHits tenantId older
  | .removed d upTo :: older => Table.deleteWhere (d.removes upTo) (ownHits tenantId older)
  | .passed _ _ :: older | .ordered _ :: older => ownHits tenantId older

/-- What a count of the tier guard for the tenant finds. -/
def ownCount (tenantId : TenantId) (routeKey : String) (since : Time) (log : List Entry) : ℕ :=
  countSince ⟨tenantId, routeKey⟩ since ((ownHits tenantId log).map StoredHit.toRateLimitHit)

def verdict (c : Increment) (existingHits : ℕ) : Except Refusal Unit :=
  if c.limit ≤ existingHits then .error (.throttled (c.record existingHits).timeToBlockExpire)
  else .ok ()

/-- The tier guard decides a request of the tenant by the tenant's own hits. Those come from requests
that passed the guards before it, which are entitled, and go by an order to reset or to prune. -/
structure QuotaKept (config : RateConfig) (tenantId : TenantId) (w : RateWorld)
    (l : ℕ × RateEvent) (w' : RateWorld) : Prop where
  hits : w'.db.hits.filter (fun h => decide (h.bucket.tracker = tenantId)) =
    ownHits tenantId w'.db.log
  passed : ∀ r, w'.db.log = .passed tenantId r :: w.db.log → Entitled w.db.tables r tenantId
  recorded : ∀ h r, w'.db.log = .recorded h r :: w.db.log → h.bucket.tracker = tenantId →
    .passed tenantId r ∈ w.db.log ∧ h.bucket.routeKey = r.routeKey
  limited : ∀ r now, w.calls l.1 = .readingTier r tenantId → l.2 = .next now →
    w'.calls l.1 = .counting r (.tier tenantId) ⟨⟨tenantId, r.routeKey⟩, config.windowMs,
      config.tierLimit (tierOf w.db.tables tenantId), config.windowMs⟩ (now - config.windowMs)
  counted : ∀ r c since now, w.calls l.1 = .counting r (.tier tenantId) c since →
    l.2 = .next now → w'.calls l.1 =
      if c.limit < ownCount tenantId r.routeKey since w.db.log then
        .answered (verdict c (ownCount tenantId r.routeKey since w.db.log))
      else .recording r (.tier tenantId) c (ownCount tenantId r.routeKey since w.db.log)
  answered : ∀ r c existingHits now, w.calls l.1 = .recording r (.tier tenantId) c existingHits →
    l.2 = .next now → w'.calls l.1 = .answered (verdict c existingHits) ∧
      w'.db.log = .recorded ⟨⟨⟨tenantId, r.routeKey⟩, now⟩, w.db.inserted⟩ r :: w.db.log
  removed : ∀ d upTo, w'.db.log = .removed d upTo :: w.db.log → .ordered d ∈ w.db.log
  ordered : ∀ d, w'.db.log = .ordered d :: w.db.log →
    (∃ id, l.2 = .reset id ∧ d = .forTenant id) ∨
      ∃ minutes now, l.2 = .prune minutes now ∧ d = pruneJob minutes now

/-- No request gives the id of the tenant for its address. -/
def ForeignAddress (tenantId : TenantId) : RateEvent → Prop
  | .request r _ => r.ip.getD "unknown" ≠ tenantId
  | _ => True

/-! ### The invariant -/

structure QuotaInv (tenantId : TenantId) (db : RateStore) : Prop where
  own : db.hits.filter (fun h => decide (h.bucket.tracker = tenantId)) = ownHits tenantId db.log

def CallOk (tenantId : TenantId) (db : RateStore) : RateCall → Prop
  | .counting _ .address c _ | .recording _ .address c _ => c.bucket.tracker ≠ tenantId
  | .counting r (.tier id) c _ | .recording r (.tier id) c _ =>
    c.bucket = ⟨id, r.routeKey⟩ ∧ .passed id r ∈ db.log
  | .readingTier r id => .passed id r ∈ db.log
  | .deleting d | .committing d _ => .ordered d ∈ db.log
  | _ => True

section Invariant

variable {config : RateConfig} {tenantId : TenantId} {db db' : RateStore} {pc pc' : RateCall}
  {e : RateEvent}

theorem refused_record (c : Increment) (existingHits : ℕ) :
    refused (c.record existingHits) = verdict c existingHits := by
  unfold refused verdict
  rw [isBlocked_record]
  simp

/-- The hits of a tenant in the table are counted as those that the history gives it. -/
theorem QuotaInv.countSince_rows (h : QuotaInv tenantId db) (routeKey : String) (since : Time) :
    countSince ⟨tenantId, routeKey⟩ since db.rows = ownCount tenantId routeKey since db.log := by
  unfold ownCount RateStore.rows countSince
  rw [← h.own, List.countP_map, List.countP_map, List.countP_filter]
  refine List.countP_congr fun hit _ => ?_
  simp only [Function.comp_apply, Bool.and_eq_true, decide_eq_true_eq]
  constructor
  · intro hin
    exact ⟨hin, congrArg Bucket.tracker hin.1⟩
  · exact And.left

theorem QuotaInv.delete (h : QuotaInv tenantId db) (d : Deletion) (upTo : ℕ) :
    QuotaInv tenantId (db.delete d upTo) := by
  constructor
  unfold RateStore.delete Table.deleteWhere
  rw [ownHits, ← h.own, List.filter_filter, Table.deleteWhere, List.filter_filter]
  exact List.filter_congr fun hit _ => Bool.and_comm _ _

theorem QuotaInv.recordHit (h : QuotaInv tenantId db) {r : RouteRequest} {guard : Guard}
    {bucket : Bucket} {now : Time} (hforeign : guard = .address → bucket.tracker ≠ tenantId) :
    QuotaInv tenantId (db.recordHit r guard bucket now) := by
  constructor
  unfold RateStore.recordHit
  cases guard with
  | address =>
    rw [List.filter_cons_of_neg (by simpa using hforeign rfl)]
    exact h.own
  | tier id =>
    dsimp only
    rw [ownHits, List.filter_cons, h.own]
    simp only [decide_eq_true_eq]

theorem callOk_afterIncrement {r : RouteRequest} {guard : Guard}
    {record : RateLimitStorageRecord} : CallOk tenantId db (afterIncrement r guard record) := by
  unfold afterIncrement
  split
  · trivial
  · split <;> trivial

/-- What a statement adds to the history. -/
theorem log_statement (h : rateStatement config db pc e = some (db', pc')) :
    db'.log = db.log ∨
    (∃ r id, authorize db.tables r = .ok (some id) ∧ db'.log = .passed id r :: db.log) ∨
    (∃ r id c existingHits hit, pc = .recording r (.tier id) c existingHits ∧
      hit.bucket = c.bucket ∧ db'.log = .recorded hit r :: db.log) ∨
    (∃ d upTo, pc = .committing d upTo ∧ db'.log = .removed d upTo :: db.log) ∨
    ∃ d, ((∃ id, e = .reset id ∧ d = .forTenant id) ∨
      ∃ minutes now, e = .prune minutes now ∧ d = pruneJob minutes now) ∧
      db'.log = .ordered d :: db.log := by
  unfold rateStatement at h
  split at h
  case h_3 r guard c existingHits now =>
    cases h
    cases guard with
    | address => exact Or.inl rfl
    | tier id => exact Or.inr (Or.inr (Or.inl ⟨r, id, c, existingHits, _, rfl, rfl, rfl⟩))
  case h_4 r now =>
    split at h
    · cases h
      exact Or.inl rfl
    next stamped hauthorize =>
      split at h
      · cases h
        exact Or.inl rfl
      next id hid =>
        split at h
        · cases h
          rw [(Js.truthy_eq_some hid).1] at hauthorize
          exact Or.inr (Or.inl ⟨r, id, hauthorize, rfl⟩)
        · cases h
          exact Or.inl rfl
  case h_6 id =>
    split at h
    · cases h
      exact Or.inl rfl
    · cases h
      exact Or.inr (Or.inr (Or.inr (Or.inr ⟨_, Or.inl ⟨id, rfl, rfl⟩, rfl⟩)))
  case h_7 minutes now =>
    cases h
    exact Or.inr (Or.inr (Or.inr (Or.inr ⟨_, Or.inr ⟨minutes, now, rfl, rfl⟩, rfl⟩)))
  case h_9 d upTo now =>
    cases h
    exact Or.inr (Or.inr (Or.inr (Or.inl ⟨d, upTo, rfl, rfl⟩)))
  all_goals cases h
  all_goals exact Or.inl rfl

theorem log_grows (h : rateStatement config db pc e = some (db', pc')) :
    ∃ more, db'.log = more ++ db.log := by
  rcases log_statement h with hsame | ⟨r, id, -, hnew⟩ | ⟨r, id, c, n, hit, -, -, hnew⟩ |
    ⟨d, upTo, -, hnew⟩ | ⟨d, -, hnew⟩
  · exact ⟨[], hsame⟩
  all_goals exact ⟨[_], hnew⟩

theorem callOk_grow (hlog : ∃ more, db'.log = more ++ db.log) (h : CallOk tenantId db pc) :
    CallOk tenantId db' pc := by
  obtain ⟨more, hmore⟩ := hlog
  have hmem : ∀ entry ∈ db.log, entry ∈ db'.log := by
    intro entry hentry
    rw [hmore]
    exact List.mem_append_right more hentry
  cases pc with
  | counting r guard c since =>
    cases guard with
    | address => exact h
    | tier id => exact ⟨h.1, hmem _ h.2⟩
  | recording r guard c existingHits =>
    cases guard with
    | address => exact h
    | tier id => exact ⟨h.1, hmem _ h.2⟩
  | readingTier r id => exact hmem _ h
  | deleting d => exact hmem _ h
  | committing d upTo => exact hmem _ h
  | _ => trivial

theorem rateInv_statement (hi : QuotaInv tenantId db) (hl : CallOk tenantId db pc)
    (h : rateStatement config db pc e = some (db', pc')) (hforeign : ForeignAddress tenantId e) :
    QuotaInv tenantId db' ∧ CallOk tenantId db' pc' := by
  unfold rateStatement at h
  split at h
  case h_1 r now =>
    cases h
    refine ⟨hi, ?_⟩
    split
    · rw [RouteRequest.addressKey, beginIncrement_build]
      exact hforeign
    · trivial
  case h_2 r guard c since now =>
    cases h
    refine ⟨hi, ?_⟩
    split
    · exact callOk_afterIncrement
    · cases guard with
      | address => exact hl
      | tier id => exact hl
  case h_3 r guard c existingHits now =>
    cases h
    refine ⟨hi.recordHit ?_, callOk_afterIncrement⟩
    intro hguard
    subst hguard
    exact hl
  case h_4 r now =>
    split at h
    · cases h
      exact ⟨hi, trivial⟩
    · split at h
      · cases h
        exact ⟨hi, trivial⟩
      · split at h
        · cases h
          exact ⟨⟨hi.own⟩, List.mem_cons_self ..⟩
        · cases h
          exact ⟨hi, trivial⟩
  case h_5 r id now =>
    cases h
    refine ⟨hi, ?_⟩
    rw [beginIncrement_build]
    exact ⟨rfl, hl⟩
  case h_6 id =>
    split at h
    · cases h
      exact ⟨hi, trivial⟩
    · cases h
      exact ⟨⟨hi.own⟩, List.mem_cons_self ..⟩
  case h_7 minutes now =>
    cases h
    exact ⟨⟨hi.own⟩, List.mem_cons_self ..⟩
  case h_8 d now =>
    cases h
    exact ⟨hi, hl⟩
  case h_9 d upTo now =>
    cases h
    exact ⟨hi.delete d upTo, trivial⟩
  case h_11 tables =>
    cases h
    exact ⟨⟨hi.own⟩, trivial⟩
  all_goals cases h
  all_goals exact ⟨hi, trivial⟩

theorem passed_statement (h : rateStatement config db pc e = some (db', pc')) {r : RouteRequest}
    (hlog : db'.log = .passed tenantId r :: db.log) : Entitled db.tables r tenantId := by
  have hcases := log_statement h
  rw [hlog] at hcases
  rcases hcases with hsame | ⟨r', id, hauthorize, hnew⟩ | ⟨_, _, _, _, _, -, -, hnew⟩ |
    ⟨_, _, -, hnew⟩ | ⟨_, -, hnew⟩
  · exact absurd hsame (List.cons_ne_self _ _)
  · cases hnew
    exact authorize_entitled hauthorize
  all_goals cases hnew

theorem recorded_statement (hl : CallOk tenantId db pc)
    (h : rateStatement config db pc e = some (db', pc')) {hit : StoredHit} {r : RouteRequest}
    (hlog : db'.log = .recorded hit r :: db.log) (htracker : hit.bucket.tracker = tenantId) :
    .passed tenantId r ∈ db.log ∧ hit.bucket.routeKey = r.routeKey := by
  have hcases := log_statement h
  rw [hlog] at hcases
  rcases hcases with hsame | ⟨_, _, -, hnew⟩ | ⟨r', id, c, n, hit', hpc, hbucket, hnew⟩ |
    ⟨_, _, -, hnew⟩ | ⟨_, -, hnew⟩
  · exact absurd hsame (List.cons_ne_self _ _)
  · cases hnew
  · cases hnew
    rw [hpc] at hl
    obtain ⟨hc, hpassed⟩ := hl
    rw [hbucket, hc] at htracker
    rw [hbucket, hc]
    exact ⟨htracker ▸ hpassed, rfl⟩
  all_goals cases hnew

theorem removed_statement (hl : CallOk tenantId db pc)
    (h : rateStatement config db pc e = some (db', pc')) {d : Deletion} {upTo : ℕ}
    (hlog : db'.log = .removed d upTo :: db.log) : .ordered d ∈ db.log := by
  have hcases := log_statement h
  rw [hlog] at hcases
  rcases hcases with hsame | ⟨_, _, -, hnew⟩ | ⟨_, _, _, _, _, -, -, hnew⟩ |
    ⟨d', upTo', hpc, hnew⟩ | ⟨_, -, hnew⟩
  · exact absurd hsame (List.cons_ne_self _ _)
  · cases hnew
  · cases hnew
  · cases hnew
    rw [hpc] at hl
    exact hl
  · cases hnew

theorem ordered_statement (h : rateStatement config db pc e = some (db', pc')) {d : Deletion}
    (hlog : db'.log = .ordered d :: db.log) : (∃ id, e = .reset id ∧ d = .forTenant id) ∨
      ∃ minutes now, e = .prune minutes now ∧ d = pruneJob minutes now := by
  have hcases := log_statement h
  rw [hlog] at hcases
  rcases hcases with hsame | ⟨_, _, -, hnew⟩ | ⟨_, _, _, _, _, -, -, hnew⟩ | ⟨_, _, -, hnew⟩ |
    ⟨d', horder, hnew⟩
  · exact absurd hsame (List.cons_ne_self _ _)
  · cases hnew
  · cases hnew
  · cases hnew
  · cases hnew
    exact horder

end Invariant

/-! ### Runs -/

section Runs

variable {config : RateConfig} {tenantId : TenantId} {w w' : RateWorld} {l : ℕ × RateEvent}

def RateInv (tenantId : TenantId) : RateWorld → Prop :=
  Run.Holds (QuotaInv tenantId) (CallOk tenantId)

theorem rateInv_step (hw : RateInv tenantId w) (hs : rateStep config w l = some w')
    (hforeign : ForeignAddress tenantId l.2) : RateInv tenantId w' :=
  Run.holds_interleave (C := fun _ _ e => ForeignAddress tenantId e)
    (fun _ _ _ _ _ hg hl ha hc => rateInv_statement hg hl ha hc)
    (fun _ _ _ _ _ _ _ _ ho ha _ => callOk_grow (log_grows ha) ho) hw hs hforeign

theorem rateInv_empty (tables : TenantTables) :
    RateInv tenantId ⟨emptyStore tables, fun _ => .idle⟩ :=
  ⟨⟨rfl⟩, fun _ => trivial⟩

theorem quotaKept_step (hw : RateInv tenantId w) (hs : rateStep config w l = some w')
    (hforeign : ForeignAddress tenantId l.2) : QuotaKept config tenantId w l w' := by
  have hw' := rateInv_step hw hs hforeign
  obtain ⟨db', pc', ha, he⟩ := Run.interleave_cases hs
  have hcall : w'.calls l.1 = pc' := by
    rw [he]
    exact Function.update_self ..
  have hlog : w'.db.log = db'.log := by rw [he]
  refine ⟨hw'.1.own, fun r hnew => passed_statement ha (hlog ▸ hnew),
    fun h r hnew htracker => recorded_statement (hw.2 l.1) ha (hlog ▸ hnew) htracker, ?_, ?_, ?_,
    fun d upTo hnew => removed_statement (hw.2 l.1) ha (hlog ▸ hnew),
    fun d hnew => ordered_statement ha (hlog ▸ hnew)⟩
  · intro r now hpc hnext
    rw [hpc, hnext] at ha
    cases ha
    rw [hcall, beginIncrement_build]
  · intro r c since now hpc hnext
    have hl := hw.2 l.1
    rw [hpc] at hl
    rw [hpc, hnext] at ha
    cases ha
    rw [hcall, hl.1, hw.1.countSince_rows, afterIncrement_tier, refused_record]
    unfold Increment.alreadyBlocked
    simp only [decide_eq_true_eq]
  · intro r c existingHits now hpc hnext
    have hl := hw.2 l.1
    rw [hpc] at hl
    rw [hpc, hnext] at ha
    cases ha
    rw [hcall, hlog, afterIncrement_tier, refused_record, hl.1]
    exact ⟨rfl, rfl⟩

/-- Two requests of the tenant and one of another under way together, and a reset in between. -/
def quotaEvents : List (ℕ × RateEvent) :=
  [(0, .request (routeRequest "10.0.0.1" "t") 0), (1, .request (routeRequest "10.0.0.2" "t") 0),
    (2, .request (routeRequest "10.0.0.1" "u") 0), (0, .next 1), (2, .next 1), (0, .next 2),
    (1, .next 2), (1, .next 3), (2, .next 3), (0, .next 4), (2, .next 4), (1, .next 4),
    (0, .next 5), (1, .next 5), (0, .next 6), (3, .reset "t"), (1, .next 6), (0, .next 7),
    (3, .next 7), (1, .next 8), (3, .next 8)]

theorem quotaEvents_foreign : ∀ l ∈ quotaEvents, ForeignAddress "t" l.2 := by
  simp [quotaEvents, ForeignAddress, routeRequest]

theorem quotaEvents_enabled :
    Run.Enabled (rateStep smallConfig) ⟨emptyStore quotaTenants, fun _ => .idle⟩ quotaEvents :=
  Run.enabled_of_final (by decide +kernel)

end Runs

/-! ### After a reset -/

section Reset

variable {config : RateConfig} {tenantId : TenantId}

/-- The hits that tier guards have inserted. -/
def recordedHits : List Entry → List StoredHit
  | [] => []
  | .recorded h _ :: older => h :: recordedHits older
  | _ :: older => recordedHits older

/-- Those of them that the last reset of the tenant could not see any more. -/
def recordedSinceReset (tenantId : TenantId) : List Entry → List StoredHit
  | [] => []
  | .recorded h _ :: older => h :: recordedSinceReset tenantId older
  | .removed (.forTenant id) upTo :: older =>
    if id = tenantId then (recordedHits older).filter fun h => decide (upTo ≤ h.seq)
    else recordedSinceReset tenantId older
  | .removed (.olderThan _) _ :: older => recordedSinceReset tenantId older
  | .passed _ _ :: older | .ordered _ :: older => recordedSinceReset tenantId older

def usedSinceReset (tenantId : TenantId) (routeKey : String) (log : List Entry) : ℕ :=
  (recordedSinceReset tenantId log).countP fun h => decide (h.bucket = ⟨tenantId, routeKey⟩)

/-- A reset sees the hits that are there when it begins to delete, and a request of the tenant that is
counted after it has its way as long as fewer hits than its limit have been recorded since. -/
structure Restored (tenantId : TenantId) (w : RateWorld) (l : ℕ × RateEvent) (w' : RateWorld) :
    Prop where
  began : ∀ now, w.calls l.1 = .deleting (.forTenant tenantId) → l.2 = .next now →
    w'.calls l.1 = .committing (.forTenant tenantId) w.db.inserted
  committed : ∀ upTo now, w.calls l.1 = .committing (.forTenant tenantId) upTo → l.2 = .next now →
    w'.db.log = .removed (.forTenant tenantId) upTo :: w.db.log ∧
      w'.db.hits = w.db.hits.filter fun h =>
        decide (h.bucket.tracker = tenantId → upTo ≤ h.seq)
  counted : ∀ r c since now, w.calls l.1 = .counting r (.tier tenantId) c since →
    l.2 = .next now → usedSinceReset tenantId r.routeKey w.db.log < c.limit →
    ∃ existingHits < c.limit, w'.calls l.1 = .recording r (.tier tenantId) c existingHits
  answered : ∀ r c existingHits now, w.calls l.1 = .recording r (.tier tenantId) c existingHits →
    l.2 = .next now → existingHits < c.limit → w'.calls l.1 = .answered (.ok ())

theorem ownHits_tracker {log : List Entry} {h : StoredHit} (hmem : h ∈ ownHits tenantId log) :
    h.bucket.tracker = tenantId := by
  induction log with
  | nil => cases hmem
  | cons entry log ih =>
    cases entry with
    | passed id r => exact ih hmem
    | ordered d => exact ih hmem
    | recorded hit r =>
      rw [ownHits] at hmem
      split at hmem
      next htracker =>
        rcases List.mem_cons.mp hmem with heq | hmem
        · rw [heq, htracker]
        · exact ih hmem
      next => exact ih hmem
    | removed d upTo => exact ih (List.mem_filter.mp hmem).1

theorem ownHits_sublist (tenantId : TenantId) (log : List Entry) :
    (ownHits tenantId log).Sublist (recordedHits log) := by
  induction log with
  | nil => exact List.Sublist.refl _
  | cons entry log ih =>
    cases entry with
    | passed id r => exact ih
    | ordered d => exact ih
    | recorded h r =>
      rw [ownHits, recordedHits]
      split
      · exact ih.cons_cons h
      · exact ih.cons h
    | removed d upTo => exact List.filter_sublist.trans ih

theorem ownHits_since (tenantId : TenantId) (log : List Entry) :
    (ownHits tenantId log).Sublist (recordedSinceReset tenantId log) := by
  induction log with
  | nil => exact List.Sublist.refl _
  | cons entry log ih =>
    cases entry with
    | passed id r => exact ih
    | ordered d => exact ih
    | recorded h r =>
      rw [ownHits, recordedSinceReset]
      split
      · exact ih.cons_cons h
      · exact ih.cons h
    | removed d upTo =>
      cases d with
      | olderThan cutoff => exact List.filter_sublist.trans ih
      | forTenant id =>
        rw [ownHits, recordedSinceReset]
        split
        next hid =>
          -- the reset leaves of the tenant's hits those that it did not see
          have hkept : Table.deleteWhere ((Deletion.forTenant id).removes upTo)
              (ownHits tenantId log) =
                (ownHits tenantId log).filter fun h => decide (upTo ≤ h.seq) := by
            refine List.filter_congr fun h hmem => ?_
            have htracker := ownHits_tracker hmem
            simp only [Deletion.removes, Deletion.selects, htracker, hid, decide_true,
              Bool.true_and]
            by_cases hseen : h.seq < upTo
            · simp [hseen]
            · simp [hseen, Nat.le_of_not_lt hseen]
          rw [hkept]
          exact (ownHits_sublist tenantId log).filter _
        next => exact List.filter_sublist.trans ih

theorem ownCount_le (tenantId : TenantId) (routeKey : String) (since : Time) (log : List Entry) :
    ownCount tenantId routeKey since log ≤ usedSinceReset tenantId routeKey log := by
  unfold ownCount countSince usedSinceReset
  rw [List.countP_map]
  calc (ownHits tenantId log).countP _
      ≤ (ownHits tenantId log).countP fun h => decide (h.bucket = ⟨tenantId, routeKey⟩) := by
        refine List.countP_mono_left fun h _ hin => ?_
        exact decide_eq_true (of_decide_eq_true hin).1
    _ ≤ _ := (ownHits_since tenantId log).countP_le

theorem delete_forTenant (db : RateStore) (tenantId : TenantId) (upTo : ℕ) :
    (db.delete (.forTenant tenantId) upTo).hits = db.hits.filter fun h =>
      decide (h.bucket.tracker = tenantId → upTo ≤ h.seq) := by
  refine List.filter_congr fun h _ => ?_
  simp only [Deletion.removes, Deletion.selects]
  by_cases htracker : h.bucket.tracker = tenantId
  · by_cases hseen : h.seq < upTo
    · simp [htracker, hseen]
    · simp [htracker, hseen, Nat.le_of_not_lt hseen]
  · simp [htracker]

theorem restored_step {w w' : RateWorld} {l : ℕ × RateEvent}
    (hs : rateStep config w l = some w') (h : QuotaKept config tenantId w l w') :
    Restored tenantId w l w' := by
  obtain ⟨db', pc', ha, he⟩ := Run.interleave_cases hs
  have hcall : w'.calls l.1 = pc' := by
    rw [he]
    exact Function.update_self ..
  refine ⟨?_, ?_, ?_, ?_⟩
  · intro now hpc hnext
    rw [hpc, hnext] at ha
    cases ha
    exact hcall
  · intro upTo now hpc hnext
    rw [hpc, hnext] at ha
    cases ha
    rw [he]
    exact ⟨rfl, delete_forTenant w.db tenantId upTo⟩
  · intro r c since now hpc hnext hused
    have hle := ownCount_le tenantId r.routeKey since w.db.log
    have hopen : ¬ c.limit < ownCount tenantId r.routeKey since w.db.log := by omega
    refine ⟨ownCount tenantId r.routeKey since w.db.log, by omega, ?_⟩
    rw [h.counted r c since now hpc hnext, if_neg hopen]
  · intro r c existingHits now hpc hnext hlt
    rw [(h.answered r c existingHits now hpc hnext).1, verdict, if_neg (by omega)]

end Reset

end VcCommonService.RateLimits
