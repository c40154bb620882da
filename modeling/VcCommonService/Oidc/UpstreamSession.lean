import VcCommonService.Common
import VcCommonService.Lib.Run
import VcCommonService.Lib.Table

/-!
# Upstream sessions (`oidc-upstream.service.ts`, `oidc-upstream-session.repository.ts`)

A callback stages the id token of its login as a pending row of the user. When the provider
has saved a session, `finalizeUpstreamSessionForOidcSession` binds the latest pending row of the
session's user to it. Nothing else connects the two, so a session carries the token of its own
login as long as each of these lookups finds the row that its login has staged.
-/

namespace VcCommonService.Oidc
open Lib

structure OidcUpstreamSession where
  id : String
  oidcModelId : Option String := none
  oidcSessionUid : Option String := none
  tenantUserId : String
  upstreamSubject : String
  upstreamIdToken : String
  createdAt : Time
  expiresAt : Option Time
  deriving Repr, DecidableEq

/-- The columns of an `oidc_model` row of the model `Session` that finalization reads. -/
structure SessionModel where
  id : String
  uid : String
  createdAt : Time
  deriving Repr, DecidableEq

/-- The tables and, as history: the tokens staged by callbacks, the sessions with the token of
the login that created them, the session of each model row, and the tokens that were sent to the
end-session endpoint with the session they were sent for. -/
structure UpstreamStore where
  rows : List OidcUpstreamSession := []
  models : List SessionModel := []
  staged : List String := []
  created : List (String × String) := []
  modelUids : List (String × String) := []
  ended : List (String × String) := []
  deriving Repr, DecidableEq

/-! ### Repository -/

def isPending (tenantUserId : String) (now : Time) (r : OidcUpstreamSession) : Bool :=
  decide (r.tenantUserId = tenantUserId ∧ r.oidcModelId = none) &&
    r.expiresAt.all fun t => decide (now < t)

/-- `found` is what `ORDER BY createdAt DESC LIMIT 1` returns; rows of the same time may come
in any order. -/
def isLatest {ρ : Type} [DecidableEq ρ] (createdAt : ρ → Time) (p : ρ → Bool) (rows : List ρ) :
    Option ρ → Bool
  | none => rows.all fun r => !p r
  | some found => decide (found ∈ rows) && p found &&
      rows.all fun r => !p r || decide (createdAt r ≤ createdAt found)

def findByOidcSessionUid (rows : List OidcUpstreamSession) (uid : String) :
    Option OidcUpstreamSession :=
  rows.find? fun r => decide (r.oidcSessionUid = some uid)

def findByOidcModelId (rows : List OidcUpstreamSession) (oidcModelId : String) :
    Option OidcUpstreamSession :=
  rows.find? fun r => decide (r.oidcModelId = some oidcModelId)

/-- `repository.save`, with the unique columns and the reference to `oidc_model`. -/
def saveUpstreamSession (db : UpstreamStore) (entity : OidcUpstreamSession) :
    Except String (List OidcUpstreamSession) :=
  let others := db.rows.filter fun r => decide (r.id ≠ entity.id)
  if others.any fun r => r.oidcModelId.isSome && decide (r.oidcModelId = entity.oidcModelId) then
    .error "uq_oidc_upstream_session_model"
  else if others.any fun r =>
      r.oidcSessionUid.isSome && decide (r.oidcSessionUid = entity.oidcSessionUid) then
    .error "uq_oidc_upstream_session_uid"
  else if entity.oidcModelId.any fun id => !db.models.any fun m => decide (m.id = id) then
    .error "oidc_upstream_session_oidc_model_id_fkey"
  else .ok (Table.save OidcUpstreamSession.id entity db.rows)

/-! ### Service -/

/-- Where a call stands: `finalizeUpstreamSessionForOidcSession` before each of its statements,
or a logout that waits for the answer of the upstream provider. -/
inductive UpstreamCall where
  | idle
  | locating (model : SessionModel) (tenantUserId : String)
  | comparing (model : SessionModel) (pending : OidcUpstreamSession)
  | updating (existing : OidcUpstreamSession) (pendingId : String)
  | discarding (pendingId : String)
  | binding (pending : OidcUpstreamSession)
  | ending (id : String)
  deriving Repr, DecidableEq

/-- `stage` is the callback of a login and `createSession` the first save of the session that
the login ends in; `persist`, `destroy` and `remove` are the other writers of the two tables. -/
inductive UpstreamEvent where
  | stage (id tenantUserId upstreamSubject upstreamIdToken : String) (expiresAt : Option Time)
      (now : Time)
  | createSession (model : SessionModel) (upstreamIdToken : String)
  | persist (model : SessionModel)
  | destroy (modelId : String)
  | remove (ids : List String)
  | sessionSaved (uid accountId : String) (found : Option SessionModel)
  | findLatestPending (now : Time) (found : Option OidcUpstreamSession)
  | logout (model : SessionModel)
  | next
  | abort
  deriving Repr, DecidableEq

def takeOver (existing pending : OidcUpstreamSession) (model : SessionModel) :
    OidcUpstreamSession :=
  { existing with
    oidcModelId := some model.id
    tenantUserId := pending.tenantUserId
    upstreamSubject := pending.upstreamSubject
    upstreamIdToken := pending.upstreamIdToken
    expiresAt := pending.expiresAt }

def bindTo (pending : OidcUpstreamSession) (model : SessionModel) : OidcUpstreamSession :=
  { pending with oidcModelId := some model.id, oidcSessionUid := some model.uid }

def afterPending (model : SessionModel) : Option OidcUpstreamSession → UpstreamCall
  | none => .idle
  | some pending => .comparing model pending

def afterSessionModel (accountId : String) : Option SessionModel → UpstreamCall
  | none => .idle
  | some model => .locating model accountId

def afterExisting (model : SessionModel) (pending : OidcUpstreamSession) :
    Option OidcUpstreamSession → UpstreamCall
  | none => .binding (bindTo pending model)
  | some existing =>
    if existing.id ≠ pending.id then .updating (takeOver existing pending model) pending.id
    else .binding (bindTo pending model)

def addModel (db : UpstreamStore) (model : SessionModel) : UpstreamStore :=
  { db with models := model :: db.models, modelUids := (model.id, model.uid) :: db.modelUids }

def saveThen (db : UpstreamStore) (entity : OidcUpstreamSession) (k : UpstreamCall) :
    UpstreamStore × UpstreamCall :=
  match saveUpstreamSession db entity with
  | .error _ => (db, .idle)
  | .ok rows => ({ db with rows }, k)

def beginLogout (db : UpstreamStore) (model : SessionModel) : UpstreamStore × UpstreamCall :=
  match findByOidcModelId db.rows model.id with
  | none => (db, .idle)
  | some r => ({ db with ended := (model.uid, r.upstreamIdToken) :: db.ended }, .ending r.id)

def deleteRow (db : UpstreamStore) (id : String) : UpstreamStore :=
  { db with rows := Table.deleteWhere (fun r => decide (r.id = id)) db.rows }

/-- One statement of one call. The id token of a login carries the nonce of its request and is
new; ids are drawn by the database, uids by the provider. -/
def upstreamAct (db : UpstreamStore) :
    UpstreamCall → UpstreamEvent → Option (UpstreamStore × UpstreamCall)
  | .idle, .stage id tenantUserId upstreamSubject upstreamIdToken expiresAt now =>
    if upstreamIdToken ∈ db.staged ∨ db.rows.any fun r => decide (r.id = id) then none
    else some
      ({ db with
          rows := { id, tenantUserId, upstreamSubject, upstreamIdToken, createdAt := now,
                    expiresAt } :: db.rows
          staged := upstreamIdToken :: db.staged }, .idle)
  | .idle, .createSession model upstreamIdToken =>
    if (db.modelUids.any fun m => decide (m.1 = model.id)) ∨ upstreamIdToken ∉ db.staged ∨
        db.created.any fun c => decide (c.1 = model.uid ∨ c.2 = upstreamIdToken) then none
    else some
      ({ addModel db model with created := (model.uid, upstreamIdToken) :: db.created }, .idle)
  | .idle, .persist model =>
    if db.modelUids.any fun m => decide (m.1 = model.id) then none
    else some (addModel db model, .idle)
  | .idle, .destroy modelId =>
    some ({ db with
            models := Table.deleteWhere (fun m => decide (m.id = modelId)) db.models
            rows := Table.deleteWhere (fun r => decide (r.oidcModelId = some modelId)) db.rows },
      .idle)
  | .idle, .remove ids =>
    some ({ db with rows := Table.deleteWhere (fun r => ids.contains r.id) db.rows }, .idle)
  | .idle, .sessionSaved uid accountId found =>
    if uid = "" ∨ accountId = "" then some (db, .idle)
    else if isLatest SessionModel.createdAt (fun m => decide (m.uid = uid)) db.models found then
      some (db, afterSessionModel accountId found)
    else none
  | .locating model tenantUserId, .findLatestPending now found =>
    if isLatest OidcUpstreamSession.createdAt (isPending tenantUserId now) db.rows found then
      some (db, afterPending model found)
    else none
  | .comparing model pending, .next =>
    some (db, afterExisting model pending (findByOidcSessionUid db.rows model.uid))
  | .updating existing pendingId, .next => some (saveThen db existing (.discarding pendingId))
  | .discarding pendingId, .next => some (deleteRow db pendingId, .idle)
  | .binding pending, .next => some (saveThen db pending .idle)
  | .idle, .logout model => if model ∈ db.models then some (beginLogout db model) else none
  | .ending id, .next => some (deleteRow db id, .idle)
  | _, .abort => some (db, .idle)
  | _, _ => none

abbrev UpstreamWorld := Run.World UpstreamStore UpstreamCall

def upstreamStep : UpstreamWorld → ℕ × UpstreamEvent → Option UpstreamWorld :=
  Run.interleave upstreamAct

/-! ### Own tokens -/

/-- Every bound row carries the token of the login that created its session, no two sessions
share one, and a logout has ended the upstream session of that login. -/
structure OwnTokens (db : UpstreamStore) : Prop where
  bound : ∀ r ∈ db.rows, ∀ uid, r.oidcSessionUid = some uid →
    (uid, r.upstreamIdToken) ∈ db.created
  distinct : ∀ r ∈ db.rows, ∀ r' ∈ db.rows, ∀ uid uid', r.oidcSessionUid = some uid →
    r'.oidcSessionUid = some uid' → uid ≠ uid' → r.upstreamIdToken ≠ r'.upstreamIdToken
  ended : ∀ e ∈ db.ended, e ∈ db.created

/-- A lookup for a session finds the row that the login of the session has staged, or none. -/
def FindsOwnPending (db : UpstreamStore) : UpstreamCall → UpstreamEvent → Prop
  | .locating model _, .findLatestPending _ (some found) =>
    (model.uid, found.upstreamIdToken) ∈ db.created
  | _, _ => True

/-! ### Invariant -/

structure RowOwn (db : UpstreamStore) (r : OidcUpstreamSession) : Prop where
  token : ∀ uid, r.oidcSessionUid = some uid → (uid, r.upstreamIdToken) ∈ db.created
  model : ∀ m, r.oidcModelId = some m →
    ∃ uid, r.oidcSessionUid = some uid ∧ (m, uid) ∈ db.modelUids

structure UpstreamInv (db : UpstreamStore) : Prop where
  rows : ∀ r ∈ db.rows, RowOwn db r
  models : ∀ m ∈ db.models, (m.id, m.uid) ∈ db.modelUids
  modelIds : Table.UniqueKeys Prod.fst db.modelUids
  tokens : Table.UniqueKeys Prod.snd db.created
  ended : ∀ e ∈ db.ended, e ∈ db.created

def CallOwn (db : UpstreamStore) : UpstreamCall → Prop
  | .locating model _ => (model.id, model.uid) ∈ db.modelUids
  | .comparing model pending => (model.id, model.uid) ∈ db.modelUids ∧
      (model.uid, pending.upstreamIdToken) ∈ db.created
  | .updating existing _ => RowOwn db existing
  | .binding pending => RowOwn db pending
  | _ => True

theorem ownTokens_of_inv {db : UpstreamStore} (hi : UpstreamInv db) : OwnTokens db := by
  refine ⟨fun r hr => (hi.rows r hr).token, fun r hr r' hr' uid uid' hu hu' hne htoken => ?_,
    hi.ended⟩
  have hc := (hi.rows r hr).token uid hu
  have hc' := (hi.rows r' hr').token uid' hu'
  exact hne (congrArg Prod.fst (Table.eq_of_key hi.tokens hc hc' htoken))

section Step

variable {db db' : UpstreamStore} {pc pc' : UpstreamCall} {e : UpstreamEvent}

/-! Sessions and their model rows are only added to the history. -/

structure Extends (db db' : UpstreamStore) : Prop where
  created : db.created ⊆ db'.created
  modelUids : db.modelUids ⊆ db'.modelUids

theorem rowOwn_mono {r : OidcUpstreamSession} (h : RowOwn db r) (hx : Extends db db') :
    RowOwn db' r := by
  refine ⟨fun uid hu => hx.created (h.token uid hu), fun m hm => ?_⟩
  obtain ⟨uid, hu, hmem⟩ := h.model m hm
  exact ⟨uid, hu, hx.modelUids hmem⟩

theorem callOwn_mono (h : CallOwn db pc) (hx : Extends db db') : CallOwn db' pc := by
  cases pc with
  | locating model tenantUserId => exact hx.modelUids h
  | comparing model pending => exact ⟨hx.modelUids h.1, hx.created h.2⟩
  | updating existing pendingId => exact rowOwn_mono h hx
  | binding pending => exact rowOwn_mono h hx
  | _ => trivial

theorem extends_refl (db : UpstreamStore) : Extends db db := ⟨fun _ h => h, fun _ h => h⟩

structure StepOwn (db db' : UpstreamStore) (pc' : UpstreamCall) : Prop where
  inv : UpstreamInv db'
  call : CallOwn db' pc'
  history : Extends db db'

/-! What a step makes of the tables. -/

theorem inv_rows (hi : UpstreamInv db) {rows : List OidcUpstreamSession}
    (hrows : ∀ r ∈ rows, RowOwn db r) : UpstreamInv { db with rows } :=
  ⟨fun r hr => rowOwn_mono (hrows r hr) ⟨fun _ h => h, fun _ h => h⟩, hi.models, hi.modelIds,
    hi.tokens, hi.ended⟩

theorem inv_deleteWhere (hi : UpstreamInv db) (p : OidcUpstreamSession → Bool) :
    UpstreamInv { db with rows := Table.deleteWhere p db.rows } :=
  inv_rows hi fun r hr => hi.rows r ((Table.mem_deleteWhere _ _ _).mp hr).1

theorem inv_saveThen (hi : UpstreamInv db) {entity : OidcUpstreamSession}
    (hentity : RowOwn db entity) (k : UpstreamCall) (hk : CallOwn db k)
    (h : saveThen db entity k = (db', pc')) : StepOwn db db' pc' := by
  unfold saveThen at h
  split at h
  · cases h
    exact ⟨hi, trivial, extends_refl db⟩
  next rows hsave =>
    cases h
    refine ⟨inv_rows hi fun r hr => ?_, callOwn_mono hk ⟨fun _ h => h, fun _ h => h⟩,
      fun _ h => h, fun _ h => h⟩
    have hrows : rows = Table.save OidcUpstreamSession.id entity db.rows := by
      simp only [saveUpstreamSession] at hsave
      repeat
        split at hsave
        · cases hsave
      exact (Except.ok.inj hsave).symm
    rw [hrows] at hr
    rcases Table.eq_or_mem_of_mem_save hr with rfl | hr
    · exact hentity
    · exact hi.rows r hr

theorem inv_addModel (hi : UpstreamInv db) {model : SessionModel}
    (hnew : ∀ m ∈ db.modelUids, m.1 ≠ model.id) : UpstreamInv (addModel db model) := by
  have hx : Extends db (addModel db model) := ⟨fun _ h => h, List.subset_cons_self _ _⟩
  refine ⟨fun r hr => rowOwn_mono (hi.rows r hr) hx, fun m hm => ?_, ?_, hi.tokens, hi.ended⟩
  · rcases List.mem_cons.mp hm with rfl | hm
    · exact List.mem_cons_self ..
    · exact List.mem_cons_of_mem _ (hi.models m hm)
  · refine List.nodup_cons.mpr ⟨fun hmem => ?_, hi.modelIds⟩
    obtain ⟨m, hm, he⟩ := List.mem_map.mp hmem
    exact hnew m hm he

theorem inv_create (hi : UpstreamInv db) {uid token : String}
    (hnew : ∀ c ∈ db.created, c.2 ≠ token) :
    UpstreamInv { db with created := (uid, token) :: db.created } := by
  have hx : Extends db { db with created := (uid, token) :: db.created } :=
    ⟨List.subset_cons_self _ _, fun _ h => h⟩
  refine ⟨fun r hr => rowOwn_mono (hi.rows r hr) hx, hi.models, hi.modelIds, ?_,
    fun c hc => List.mem_cons_of_mem _ (hi.ended c hc)⟩
  refine List.nodup_cons.mpr ⟨fun hmem => ?_, hi.tokens⟩
  obtain ⟨c, hc, he⟩ := List.mem_map.mp hmem
  exact hnew c hc he

/-- The session of the row that a logout finds is the session that is logged out. -/
theorem inv_beginLogout (hi : UpstreamInv db) {model : SessionModel} (hmodel : model ∈ db.models)
    (h : beginLogout db model = (db', pc')) : StepOwn db db' pc' := by
  unfold beginLogout at h
  split at h
  · cases h
    exact ⟨hi, trivial, extends_refl db⟩
  next r hfind =>
    cases h
    have hr := List.mem_of_find?_eq_some hfind
    have hid : r.oidcModelId = some model.id := by simpa using List.find?_some hfind
    obtain ⟨uid, hu, hmem⟩ := (hi.rows r hr).model model.id hid
    have huid : uid = model.uid :=
      congrArg Prod.snd (Table.eq_of_key hi.modelIds hmem (hi.models model hmodel) rfl)
    refine ⟨⟨fun r hr => rowOwn_mono (hi.rows r hr) ⟨fun _ h => h, fun _ h => h⟩, hi.models,
      hi.modelIds, hi.tokens, fun c hc => ?_⟩, trivial, fun _ h => h, fun _ h => h⟩
    rcases List.mem_cons.mp hc with rfl | hc
    · exact (hi.rows r hr).token model.uid (huid ▸ hu)
    · exact hi.ended c hc

theorem rowOwn_bindTo {model : SessionModel} {pending : OidcUpstreamSession}
    (hl : CallOwn db (.comparing model pending)) : RowOwn db (bindTo pending model) := by
  refine ⟨fun uid hu => ?_, fun m hm => ⟨model.uid, rfl, ?_⟩⟩
  · rw [← Option.some.inj hu]
    exact hl.2
  · rw [← Option.some.inj hm]
    exact hl.1

theorem callOwn_afterExisting {model : SessionModel} {pending : OidcUpstreamSession}
    (hl : CallOwn db (.comparing model pending)) :
    CallOwn db (afterExisting model pending (findByOidcSessionUid db.rows model.uid)) := by
  cases hfind : findByOidcSessionUid db.rows model.uid with
  | none => exact rowOwn_bindTo hl
  | some existing =>
    have huid : existing.oidcSessionUid = some model.uid := by
      simpa using List.find?_some hfind
    unfold afterExisting
    dsimp only
    split
    · refine ⟨fun uid hu => ?_, fun m hm => ⟨model.uid, huid, ?_⟩⟩
      · have he : model.uid = uid := Option.some.inj (huid.symm.trans hu)
        rw [← he]
        exact hl.2
      · rw [← Option.some.inj hm]
        exact hl.1
    · exact rowOwn_bindTo hl

theorem inv_act (hi : UpstreamInv db) (hl : CallOwn db pc)
    (h : upstreamAct db pc e = some (db', pc')) (hc : FindsOwnPending db pc e) :
    StepOwn db db' pc' := by
  unfold upstreamAct at h
  split at h
  next id tenantUserId upstreamSubject upstreamIdToken expiresAt now =>
    split at h
    · cases h
    · cases h
      refine ⟨⟨fun r hr => ?_, hi.models, hi.modelIds, hi.tokens, hi.ended⟩, trivial,
        fun _ h => h, fun _ h => h⟩
      rcases List.mem_cons.mp hr with rfl | hr
      · exact ⟨nofun, nofun⟩
      · exact rowOwn_mono (hi.rows r hr) ⟨fun _ h => h, fun _ h => h⟩
  next model upstreamIdToken =>
    split at h
    · cases h
    next hnew =>
      cases h
      simp only [List.any_eq_true, decide_eq_true_eq, not_or, not_exists, not_and] at hnew
      obtain ⟨hid, -, hcreated⟩ := hnew
      exact ⟨inv_create (inv_addModel hi hid) fun c hc => (hcreated c hc).2, trivial,
        List.subset_cons_self _ _, List.subset_cons_self _ _⟩
  next model =>
    split at h
    · cases h
    next hnew =>
      cases h
      simp only [List.any_eq_true, decide_eq_true_eq, not_exists, not_and] at hnew
      exact ⟨inv_addModel hi hnew, trivial, fun _ h => h, List.subset_cons_self _ _⟩
  next modelId =>
    cases h
    refine ⟨⟨fun r hr => ?_, fun m hm => ?_, hi.modelIds, hi.tokens, hi.ended⟩, trivial,
      fun _ h => h, fun _ h => h⟩
    · have hrow := hi.rows r ((Table.mem_deleteWhere _ _ _).mp hr).1
      exact rowOwn_mono hrow ⟨fun _ h => h, fun _ h => h⟩
    · exact hi.models m ((Table.mem_deleteWhere _ _ _).mp hm).1
  next ids =>
    cases h
    exact ⟨inv_deleteWhere hi _, trivial, fun _ h => h, fun _ h => h⟩
  next uid accountId found =>
    split at h
    · cases h
      exact ⟨hi, trivial, extends_refl db⟩
    · split at h
      next hlatest =>
        cases h
        refine ⟨hi, ?_, extends_refl db⟩
        cases found with
        | none => trivial
        | some model =>
          simp only [isLatest, Bool.and_eq_true, decide_eq_true_eq] at hlatest
          exact hi.models model hlatest.1.1
      · cases h
  next model tenantUserId now found =>
    split at h
    · cases h
      refine ⟨hi, ?_, extends_refl db⟩
      cases found with
      | none => trivial
      | some pending => exact ⟨hl, hc⟩
    · cases h
  next model pending =>
    cases h
    exact ⟨hi, callOwn_afterExisting hl, extends_refl db⟩
  next existing pendingId =>
    exact inv_saveThen hi hl (.discarding pendingId) trivial (Option.some.inj h)
  next pendingId =>
    cases h
    exact ⟨inv_deleteWhere hi _, trivial, fun _ h => h, fun _ h => h⟩
  next pending => exact inv_saveThen hi hl .idle trivial (Option.some.inj h)
  next model =>
    split at h
    next hmodel => exact inv_beginLogout hi hmodel (Option.some.inj h)
    · cases h
  next id =>
    cases h
    exact ⟨inv_deleteWhere hi _, trivial, fun _ h => h, fun _ h => h⟩
  next =>
    cases h
    exact ⟨hi, trivial, extends_refl db⟩
  · cases h

end Step

/-! ### Interleavings -/

/-- As long as every lookup for a session finds the row that the session's own login has
staged, every session carries the token of its login and no other. -/
theorem own_upstream_token (events : List (ℕ × UpstreamEvent))
    (hown : Run.All upstreamStep (Run.Before FindsOwnPending) ⟨{}, fun _ => .idle⟩ events) :
    Run.All upstreamStep (fun _ _ w' => OwnTokens w'.db) ⟨{}, fun _ => .idle⟩ events := by
  refine Run.all_of_invariant (Run.Holds UpstreamInv CallOwn) ?_ ⟨?_, fun _ => trivial⟩ hown
  · intro w l w' hw hs hc
    have hw' : Run.Holds UpstreamInv CallOwn w' := by
      refine Run.holds_interleave (C := FindsOwnPending) ?_ ?_ hw hs hc
      · intro db pc e db' pc' hi hl ha hc
        have hstep := inv_act hi hl ha hc
        exact ⟨hstep.inv, hstep.call⟩
      · intro db pc e db' pc' other hi hl ho ha hc
        exact callOwn_mono ho (inv_act hi hl ha hc).history
    exact ⟨hw', ownTokens_of_inv hw'.1⟩
  · exact ⟨by simp, by simp, List.nodup_nil, List.nodup_nil, by simp⟩

/-! ### Two browsers of one user -/

def stageLogin (n : ℕ) (token : String) (now : Time) : ℕ × UpstreamEvent :=
  (n, .stage token "u" "sub" token none now)

def pendingRow (token : String) (now : Time) : OidcUpstreamSession :=
  { id := token, tenantUserId := "u", upstreamSubject := "sub", upstreamIdToken := token
    createdAt := now, expiresAt := none }

def firstModel : SessionModel := ⟨"m1", "s1", 3⟩

theorem own_upstream_token_one_browser :
    Run.All upstreamStep (fun _ _ w' => OwnTokens w'.db) ⟨{}, fun _ => .idle⟩
      [stageLogin 0 "token-1" 1, (0, .createSession firstModel "token-1"),
        (1, .sessionSaved "s1" "u" (some firstModel)),
        (1, .findLatestPending 4 (some (pendingRow "token-1" 1))), (1, .next), (1, .next)] := by
  refine own_upstream_token _ ?_
  exact ⟨_, rfl, trivial, _, rfl, trivial, _, rfl, trivial, _, rfl, List.mem_cons_self ..,
    _, rfl, trivial, _, rfl, trivial, trivial⟩

/-- Both logins have staged their tokens when the session of the first one is saved. -/
theorem upstream_token_swapped : ¬ ∀ events : List (ℕ × UpstreamEvent),
    Run.Enabled upstreamStep ⟨{}, fun _ => .idle⟩ events →
    Run.All upstreamStep (fun _ _ w' => OwnTokens w'.db) ⟨{}, fun _ => .idle⟩ events := by
  intro hall
  have hrun := hall ([stageLogin 0 "token-1" 1, stageLogin 1 "token-2" 2,
    (0, .createSession firstModel "token-1"), (2, .sessionSaved "s1" "u" (some firstModel)),
    (2, .findLatestPending 4 (some (pendingRow "token-2" 2))), (2, .next)] ++ [(2, .next)])
    (Run.enabled_of_final (by decide))
  obtain ⟨w, w', hown, hq⟩ := Run.all_last hrun
    (fun _ w' => decide (w'.db.created = [("s1", "token-1")] ∧
      ∃ r ∈ w'.db.rows, r.oidcSessionUid = some "s1" ∧ r.upstreamIdToken = "token-2"))
    (by decide)
  obtain ⟨hcreated, r, hr, huid, htoken⟩ := of_decide_eq_true hq
  have hmem := hown.bound r hr "s1" huid
  rw [hcreated, htoken] at hmem
  revert hmem
  decide

end VcCommonService.Oidc
