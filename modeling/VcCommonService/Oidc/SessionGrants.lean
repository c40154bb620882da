import Mathlib.Data.String.Basic
import VcCommonService.Lib.Json
import VcCommonService.Oidc.AccountSession
import VcCommonService.Oidc.SessionLimit

/-!
# Grants that sessions share

A session names its grants in the `authorizations` of its payload, one for each client. A login
gives each session grants of its own, but a tenant switch writes one grant into every session of
the account. An eviction deletes by grant id, and so takes what other sessions still use.
-/

namespace VcCommonService.Oidc
open Lib

/-- A row of `oidc_model` with its payload. -/
structure StoredModel extends OidcModel where
  payload : Json.Members := []
  createdAt : Time
  expiresAt : Option Time := none
  deriving DecidableEq

def StoredModel.key (m : StoredModel) : String × String := m.toOidcModel.key

/-- `authorization && typeof authorization === 'object' ? authorization.grantId : undefined`. -/
def grantIdOf : Json → Option String
  | .obj members =>
    match Json.get members "grantId" with
    | some (.str grantId) => some grantId
    | _ => none
  | _ => none

def extractGrantIds (payload : Json.Members) : List String :=
  match Json.get payload "authorizations" with
  | some (.obj authorizations) => (Json.entries authorizations).filterMap fun a => grantIdOf a.2
  | some (.arr authorizations) => authorizations.filterMap grantIdOf
  | _ => []

/-- The columns that the account queries read. -/
def StoredModel.account (m : StoredModel) : AccountRow :=
  { modelName := m.modelName
    oidcId := m.oidcId
    accountId := m.accountId
    grantId := m.grantId
    createdAt := m.createdAt
    expiresAt := m.expiresAt
    grantIds := extractGrantIds m.payload }

abbrev ModelTable := List StoredModel

/-! ### `enforce` -/

section Enforce

variable {κ : Type} [LinearOrder κ] (collate : String → κ)

/-- The sessions that `claimSurplusSessions` deletes and returns. -/
def surplusSessions (rows : ModelTable) (accountId : String) (limit : ℕ)
    (newSessionId : Option String) (now : Time) : ModelTable :=
  (Table.orderBy (fun m : StoredModel => OrderDual.toDual (newness collate m.account))
    (rows.filter fun m => isCandidate accountId newSessionId now m.account)).drop
      (keep limit newSessionId)

def claimSurplusSessions (rows : ModelTable) (accountId : String) (limit : ℕ)
    (newSessionId : Option String) (now : Time) : ModelTable × ModelTable :=
  let evicted := surplusSessions collate rows accountId limit newSessionId now
  (evicted, Table.deleteWhere (fun m => decide (m.modelName = "Session") &&
    (evicted.map fun e => e.oidcId).contains m.oidcId) rows)

def deleteSessions (sessions rows : ModelTable) : ModelTable :=
  if sessions.isEmpty then rows
  else Table.deleteWhere (fun m => isDerived (sessions.map StoredModel.account) m.account) rows

/-- The count and the deletion each read the clock of the database. -/
def enforce (rows : ModelTable) (accountId : String) (limit : ℕ) (newSessionId : Option String)
    (countedAt now : Time) : SessionLimitResult × ModelTable :=
  if limit = 0 then (⟨0, 0, limit⟩, rows)
  else
    let priorSessionCount := countActiveSessions (rows.map StoredModel.account) accountId countedAt
    let (evicted, left) := claimSurplusSessions collate rows accountId limit newSessionId now
    if evicted.isEmpty then (⟨priorSessionCount, 0, limit⟩, left)
    else (⟨priorSessionCount, evicted.length, limit⟩, deleteSessions evicted left)

end Enforce

/-! ### Logins and tenant switches -/

def saveModel (row : StoredModel) (rows : ModelTable) : ModelTable :=
  Table.save StoredModel.key row rows

/-- `payload` after `rebindSessionsToAccount`. -/
def rebindPayload (toAccountId clientId grantId : String) (payload : Json.Members) : Json.Members :=
  let rebound := Json.set payload "accountId" (.str toAccountId)
  match Json.get rebound "authorizations" with
  | some (.obj authorizations) =>
    match Json.get authorizations clientId with
    | some (.obj current) =>
      Json.set rebound "authorizations"
        (.obj (Json.set authorizations clientId (.obj (Json.set current "grantId" (.str grantId)))))
    | _ => rebound
  | _ => rebound

def rebindSessions (fromAccountId toAccountId clientId grantId : String) (rows : ModelTable) :
    ModelTable :=
  Table.updateWhere
    (fun m => decide (m.modelName = "Session") && decide (m.accountId = some fromAccountId))
    (fun m => { m with
      accountId := some toAccountId
      payload := rebindPayload toAccountId clientId grantId m.payload })
    rows

/-- The provider notes the grant of a client in the session. -/
def authorizeClient (clientId grantId : String) (payload : Json.Members) : Json.Members :=
  let authorizations :=
    match Json.get payload "authorizations" with
    | some (.obj members) => members
    | _ => []
  let current :=
    match Json.get authorizations clientId with
    | some (.obj members) => members
    | _ => []
  Json.set payload "authorizations"
    (.obj (Json.set authorizations clientId (.obj (Json.set current "grantId" (.str grantId)))))

/-- `revokeGrant`; a grant that has expired is not found and stays. -/
def revokePrevious (previousGrantId : Option String) (grantId : String) (now : Time)
    (rows : ModelTable) : ModelTable :=
  match previousGrantId with
  | none => rows
  | some previous =>
    if previous = grantId then rows
    else Table.deleteWhere (fun m =>
      (decide (m.key = ("Grant", previous)) && m.expiresAt.all fun t => decide (now < t)) ||
      decide ((m.modelName = "AccessToken" ∨ m.modelName = "RefreshToken") ∧
        m.grantId = some previous)) rows

def deleteAccount (accountId : String) (rows : ModelTable) : ModelTable :=
  Table.deleteWhere
    (fun m => boundTo (rows.map StoredModel.toOidcModel) [accountId] m.toOidcModel) rows

/-- The steps of the provider, of `AuthService.switchTenant` and of the cap after a login. -/
inductive ModelEvent where
  | login (sessionId accountId : String) (createdAt : Time) (expiresAt : Option Time)
  | consent (sessionId clientId grantId : String) (createdAt : Time)
  | issue (modelName tokenId grantId : String) (createdAt : Time)
  | switchTenant (fromAccountId toAccountId clientId : String) (previousGrantId : Option String)
      (grantId accessTokenId refreshTokenId : String) (createdAt : Time)
  | enforce (accountId : String) (limit : ℕ) (newSessionId : Option String) (countedAt now : Time)

def hasModel (rows : ModelTable) (modelName oidcId : String) : Bool :=
  rows.any fun m => decide (m.key = (modelName, oidcId))

def grantRow (grantId : String) (accountId : Option String) (createdAt : Time) : StoredModel :=
  { modelName := "Grant", oidcId := grantId, accountId := accountId, grantId := none
    createdAt := createdAt }

def tokenRow (modelName tokenId grantId : String) (accountId : Option String) (createdAt : Time) :
    StoredModel :=
  { modelName := modelName, oidcId := tokenId, accountId := accountId, grantId := some grantId
    createdAt := createdAt }

def tokenModels : List String :=
  ["AccessToken", "RefreshToken", "AuthorizationCode", "DeviceCode",
    "BackchannelAuthenticationRequest"]

/-- The provider draws ids that are not in the table. -/
def modelStep {κ : Type} [LinearOrder κ] (collate : String → κ) (rows : ModelTable) :
    ModelEvent → Option ModelTable
  | .login sessionId accountId createdAt expiresAt =>
    if hasModel rows "Session" sessionId || decide (sessionId = "") then none
    else some (saveModel
      { modelName := "Session", oidcId := sessionId, accountId := some accountId, grantId := none
        payload := [("accountId", .str accountId)], createdAt := createdAt
        expiresAt := expiresAt } rows)
  | .consent sessionId clientId grantId createdAt =>
    if hasModel rows "Grant" grantId then none
    else (Table.lookup StoredModel.key ("Session", sessionId) rows).map fun session =>
      saveModel { session with payload := authorizeClient clientId grantId session.payload }
        (saveModel (grantRow grantId session.accountId createdAt) rows)
  | .issue modelName tokenId grantId createdAt =>
    if !tokenModels.contains modelName || hasModel rows modelName tokenId then none
    else (Table.lookup StoredModel.key ("Grant", grantId) rows).map fun grant =>
      saveModel (tokenRow modelName tokenId grantId grant.accountId createdAt) rows
  | .switchTenant fromAccountId toAccountId clientId previousGrantId grantId accessTokenId
      refreshTokenId createdAt =>
    if hasModel rows "Grant" grantId || hasModel rows "AccessToken" accessTokenId ||
        hasModel rows "RefreshToken" refreshTokenId then none
    else
      let account := some toAccountId
      let issued :=
        saveModel (tokenRow "RefreshToken" refreshTokenId grantId account createdAt)
          (saveModel (tokenRow "AccessToken" accessTokenId grantId account createdAt)
            (saveModel (grantRow grantId account createdAt) rows))
      let rebound := rebindSessions fromAccountId toAccountId clientId grantId
        (revokePrevious previousGrantId grantId createdAt issued)
      some (if fromAccountId = toAccountId then rebound else deleteAccount fromAccountId rebound)
  | .enforce accountId limit newSessionId countedAt now =>
    some (enforce collate rows accountId limit newSessionId countedAt now).2

/-! ### Reachable tables -/

/-- The primary key, and what the provider never writes: a session or a grant that hangs off a
grant, and an empty session id. -/
structure TableOk (rows : ModelTable) : Prop where
  unique : Table.UniqueKeys StoredModel.key rows
  noGrantId : ∀ m ∈ rows, m.modelName = "Session" ∨ m.modelName = "Grant" → m.grantId = none
  sessionId : ∀ m ∈ rows, m.modelName = "Session" → m.oidcId ≠ ""

section Reachable

variable {rows : ModelTable}

theorem tableOk_saveModel (h : TableOk rows) {row : StoredModel}
    (hgrant : row.modelName = "Session" ∨ row.modelName = "Grant" → row.grantId = none)
    (hid : row.modelName = "Session" → row.oidcId ≠ "") : TableOk (saveModel row rows) := by
  refine ⟨Table.uniqueKeys_save row h.unique, fun m hm => ?_, fun m hm => ?_⟩
  · rcases Table.eq_or_mem_of_mem_save hm with rfl | hm
    · exact hgrant
    · exact h.noGrantId m hm
  · rcases Table.eq_or_mem_of_mem_save hm with rfl | hm
    · exact hid
    · exact h.sessionId m hm

theorem tableOk_deleteWhere (h : TableOk rows) (p : StoredModel → Bool) :
    TableOk (Table.deleteWhere p rows) :=
  ⟨Table.uniqueKeys_deleteWhere p h.unique,
    fun m hm => h.noGrantId m ((Table.mem_deleteWhere p rows m).mp hm).1,
    fun m hm => h.sessionId m ((Table.mem_deleteWhere p rows m).mp hm).1⟩

theorem tableOk_grantRow (h : TableOk rows) (grantId : String) (accountId : Option String)
    (createdAt : Time) : TableOk (saveModel (grantRow grantId accountId createdAt) rows) :=
  tableOk_saveModel h (fun _ => rfl) fun hname => by simp [grantRow] at hname

theorem tableOk_tokenRow (h : TableOk rows) {modelName : String}
    (hmodel : modelName ∈ tokenModels) (tokenId grantId : String) (accountId : Option String)
    (createdAt : Time) :
    TableOk (saveModel (tokenRow modelName tokenId grantId accountId createdAt) rows) := by
  have hsession : modelName ≠ "Session" := by
    rintro rfl
    revert hmodel
    decide
  have hgrant : modelName ≠ "Grant" := by
    rintro rfl
    revert hmodel
    decide
  refine tableOk_saveModel h ?_ fun hname => absurd hname hsession
  rintro (hname | hname)
  · exact absurd hname hsession
  · exact absurd hname hgrant

theorem tableOk_rebindSessions (h : TableOk rows) (fromAccountId toAccountId clientId grantId : String) :
    TableOk (rebindSessions fromAccountId toAccountId clientId grantId rows) := by
  refine ⟨?_, ?_, ?_⟩
  · unfold rebindSessions
    refine Table.uniqueKeys_updateWhere ?_ h.unique
    exact fun _ => rfl
  · exact Table.forall_updateWhere (fun m hm _ => h.noGrantId m hm) fun m hm _ => h.noGrantId m hm
  · exact Table.forall_updateWhere (fun m hm _ => h.sessionId m hm) fun m hm _ => h.sessionId m hm

theorem tableOk_revokePrevious (h : TableOk rows) (previousGrantId : Option String)
    (grantId : String) (now : Time) : TableOk (revokePrevious previousGrantId grantId now rows) := by
  unfold revokePrevious
  split
  · exact h
  · split
    · exact h
    · exact tableOk_deleteWhere h _

variable {κ : Type} [LinearOrder κ] {collate : String → κ}

theorem enforce_rows {limit : ℕ} (hlimit : limit ≠ 0) (rows : ModelTable) (accountId : String)
    (newSessionId : Option String) (countedAt now : Time) :
    (enforce collate rows accountId limit newSessionId countedAt now).2 =
      deleteSessions (surplusSessions collate rows accountId limit newSessionId now)
        (claimSurplusSessions collate rows accountId limit newSessionId now).2 := by
  unfold enforce
  rw [if_neg hlimit]
  simp only [claimSurplusSessions, deleteSessions]
  by_cases hnone : (surplusSessions collate rows accountId limit newSessionId now).isEmpty = true
  · simp only [hnone, if_true]
  · simp only [hnone, Bool.false_eq_true, if_false]

theorem tableOk_enforce (h : TableOk rows) (accountId : String) (limit : ℕ)
    (newSessionId : Option String) (countedAt now : Time) :
    TableOk (enforce collate rows accountId limit newSessionId countedAt now).2 := by
  by_cases hlimit : limit = 0
  · rw [enforce, if_pos hlimit]
    exact h
  · rw [enforce_rows hlimit]
    unfold deleteSessions
    split
    · exact tableOk_deleteWhere h _
    · exact tableOk_deleteWhere (tableOk_deleteWhere h _) _

theorem tableOk_modelStep {rows' : ModelTable} {e : ModelEvent} (h : TableOk rows)
    (hs : modelStep collate rows e = some rows') : TableOk rows' := by
  cases e with
  | login sessionId accountId createdAt expiresAt =>
    simp only [modelStep, Bool.or_eq_true, decide_eq_true_eq] at hs
    split at hs
    · cases hs
    next hnew =>
      cases hs
      exact tableOk_saveModel h (fun _ => rfl) fun _ hid => hnew (Or.inr hid)
  | consent sessionId clientId grantId createdAt =>
    simp only [modelStep] at hs
    split at hs
    · cases hs
    · obtain ⟨session, hfind, rfl⟩ := Option.map_eq_some_iff.mp hs
      have hmem := List.mem_of_find?_eq_some hfind
      exact tableOk_saveModel (tableOk_grantRow h _ _ _) (h.noGrantId session hmem)
        (h.sessionId session hmem)
  | issue modelName tokenId grantId createdAt =>
    simp only [modelStep] at hs
    split at hs
    · cases hs
    next hnew =>
      obtain ⟨grant, -, rfl⟩ := Option.map_eq_some_iff.mp hs
      simp only [Bool.or_eq_true, Bool.not_eq_true', not_or] at hnew
      exact tableOk_tokenRow h (by simpa using hnew.1) _ _ _ _
  | switchTenant fromAccountId toAccountId clientId previousGrantId grantId accessTokenId
      refreshTokenId createdAt =>
    simp only [modelStep] at hs
    split at hs
    · cases hs
    · cases hs
      have hgrant := tableOk_grantRow h grantId (some toAccountId) createdAt
      have haccess := tableOk_tokenRow hgrant (by decide : "AccessToken" ∈ tokenModels)
        accessTokenId grantId (some toAccountId) createdAt
      have hissued := tableOk_tokenRow haccess (by decide : "RefreshToken" ∈ tokenModels)
        refreshTokenId grantId (some toAccountId) createdAt
      have hrebound := tableOk_rebindSessions
        (tableOk_revokePrevious hissued previousGrantId grantId createdAt)
        fromAccountId toAccountId clientId grantId
      split
      · exact hrebound
      · exact tableOk_deleteWhere hrebound _
  | enforce accountId limit newSessionId countedAt now =>
    cases hs
    exact tableOk_enforce h accountId limit newSessionId countedAt now

theorem tableOk_reachable {events : List ModelEvent}
    (h : Run.final (modelStep collate) [] events = some rows) : TableOk rows := by
  have hstart : TableOk [] := ⟨List.nodup_nil, by simp, by simp⟩
  refine Run.final_of_invariant TableOk (fun _ _ _ hok hs _ => tableOk_modelStep hok hs) hstart
    (Run.enabled_of_final ?_) h
  rw [h]
  rfl

end Reachable

/-! ### The property and its condition -/

def hangsOff (grantId : String) (m : StoredModel) : Bool :=
  decide (m.key = ("Grant", grantId)) || decide (m.grantId = some grantId)

section Claim

variable {κ : Type} [LinearOrder κ] (collate : String → κ)

/-- At most `limit` unexpired sessions are left and the new one is among them, those removed are
the oldest of the others, and what hangs off a grant of a session that is left is still there. -/
structure HarmsOnlyEvicted (accountId : String) (limit : ℕ) (newSessionId : String) (now : Time)
    (rows left : ModelTable) : Prop where
  capped : countActiveSessions (left.map StoredModel.account) accountId now ≤ limit
  survives : ∀ m ∈ rows, m.key = ("Session", newSessionId) → m ∈ left
  oldest : ∀ m ∈ rows, m.modelName = "Session" → m ∉ left →
    isCandidate accountId (some newSessionId) now m.account = true ∧
      ∀ other ∈ left, isCandidate accountId (some newSessionId) now other.account = true →
        newness collate m.account < newness collate other.account
  grants : ∀ s ∈ left, s.modelName = "Session" → ∀ grantId ∈ extractGrantIds s.payload,
    ∀ m ∈ rows, hangsOff grantId m = true → m ∈ left

/-- An unexpired session of the account, other than the new one, with at least as many newer ones
among these as are kept. -/
def IsSurplus (rows : ModelTable) (accountId : String) (limit : ℕ) (newSessionId : String)
    (now : Time) (m : StoredModel) : Prop :=
  isCandidate accountId (some newSessionId) now m.account = true ∧
    keep limit (some newSessionId) ≤ rows.countP fun other =>
      isCandidate accountId (some newSessionId) now other.account &&
        decide (newness collate m.account < newness collate other.account)

/-- No grant off which anything hangs is named by a surplus session and by one that is not. -/
def NoSharedGrant (rows : ModelTable) (accountId : String) (limit : ℕ) (newSessionId : String)
    (now : Time) : Prop :=
  ∀ e ∈ rows, IsSurplus collate rows accountId limit newSessionId now e →
    ∀ s ∈ rows, s.modelName = "Session" →
      ¬ IsSurplus collate rows accountId limit newSessionId now s →
      ∀ grantId ∈ extractGrantIds e.payload, grantId ∈ extractGrantIds s.payload →
        ∀ m ∈ rows, hangsOff grantId m = false

end Claim

section Proof

variable {κ : Type} [LinearOrder κ] {collate : String → κ} {rows : ModelTable}
  {accountId newSessionId : String} {limit : ℕ} {now : Time}

theorem isCandidate_session {m : StoredModel}
    (h : isCandidate accountId (some newSessionId) now m.account = true) :
    m.modelName = "Session" ∧ m.oidcId ≠ newSessionId := by
  simp only [isCandidate, isActiveSession, Bool.and_eq_true, decide_eq_true_eq] at h
  exact ⟨h.1.1.1, of_decide_eq_true h.2⟩

omit [LinearOrder κ] in
/-- The order of sessions has no ties. -/
theorem newness_inj (hcollate : Function.Injective collate) (hu : Table.UniqueKeys StoredModel.key rows)
    {m m' : StoredModel} (hm : m ∈ rows) (hm' : m' ∈ rows) (hsession : m.modelName = "Session")
    (hsession' : m'.modelName = "Session")
    (h : newness collate m.account = newness collate m'.account) : m = m' := by
  refine Table.eq_of_key hu hm hm' ?_
  have hid : m.oidcId = m'.oidcId := hcollate (congrArg (fun x => (ofLex x).2) h)
  exact Prod.ext (hsession.trans hsession'.symm) hid

variable (collate rows accountId newSessionId now) in
/-- The sessions that may be evicted, newest first. -/
def candidates : ModelTable :=
  Table.orderBy (fun m : StoredModel => OrderDual.toDual (newness collate m.account))
    (rows.filter fun m => isCandidate accountId (some newSessionId) now m.account)

theorem surplusSessions_eq :
    surplusSessions collate rows accountId limit (some newSessionId) now =
      (candidates collate rows accountId newSessionId now).drop (keep limit (some newSessionId)) :=
  rfl

theorem isOrdered_candidates :
    Table.IsOrdered (fun m : StoredModel => OrderDual.toDual (newness collate m.account))
      (fun m => isCandidate accountId (some newSessionId) now m.account) rows
      (candidates collate rows accountId newSessionId now) :=
  Table.isOrdered_orderBy (fun _ _ h => h) _ _

theorem mem_surplusSessions (hcollate : Function.Injective collate)
    (hu : Table.UniqueKeys StoredModel.key rows) (m : StoredModel) :
    m ∈ surplusSessions collate rows accountId limit (some newSessionId) now ↔
      m ∈ rows ∧ IsSurplus collate rows accountId limit newSessionId now m := by
  have horder : Table.IsOrdered _ _ rows (candidates collate rows accountId newSessionId now) :=
    isOrdered_candidates
  have hnodup := horder.1.nodup_iff.mpr ((List.Nodup.of_map _ hu).filter _)
  have hdrop := fun hm => Table.mem_drop_iff (r := m) (n := keep limit (some newSessionId)) horder.2
    hnodup (fun x hx y hy heq => by
      obtain ⟨hx, hcx⟩ := (horder.mem_iff x).mp hx
      obtain ⟨hy, hcy⟩ := (horder.mem_iff y).mp hy
      exact newness_inj hcollate hu hx hy (isCandidate_session hcx).1 (isCandidate_session hcy).1
        (OrderDual.toDual.injective heq)) ((horder.mem_iff m).mpr hm)
  rw [surplusSessions_eq]
  constructor
  · intro hm
    have hmem := (horder.mem_iff m).mp (List.mem_of_mem_drop hm)
    have hcount := (hdrop hmem).mp hm
    rw [horder.countP_eq] at hcount
    exact ⟨hmem.1, hmem.2, hcount⟩
  · rintro ⟨hm, hcandidate, hcount⟩
    refine (hdrop ⟨hm, hcandidate⟩).mpr ?_
    rw [horder.countP_eq]
    exact hcount

theorem isDerived_iff (evicted : ModelTable) (m : StoredModel) :
    isDerived (evicted.map StoredModel.account) m.account = true ↔
      (m.modelName = "Session" ∧ ∃ e ∈ evicted, e.oidcId = m.oidcId) ∨
        ∃ e ∈ evicted, ∃ grantId ∈ extractGrantIds e.payload, hangsOff grantId m = true := by
  have hids : (evicted.map StoredModel.account).map AccountRow.oidcId =
      evicted.map fun e => e.oidcId := by
    rw [List.map_map]
    rfl
  have hgrants : ∀ g, g ∈ (evicted.map StoredModel.account).flatMap AccountRow.grantIds ↔
      ∃ e ∈ evicted, g ∈ extractGrantIds e.payload := by
    intro g
    simp [StoredModel.account]
  simp only [isDerived, hids, Bool.or_eq_true, Bool.and_eq_true, decide_eq_true_eq,
    List.contains_iff_mem, Option.any_eq_true, hgrants, List.mem_map, hangsOff, StoredModel.key,
    OidcModel.key, Prod.mk.injEq, or_assoc]
  refine or_congr_right ⟨?_, ?_⟩
  · rintro (⟨g, hg, e, he, hmem⟩ | ⟨hname, e, he, hmem⟩)
    · exact ⟨e, he, g, hmem, Or.inr hg⟩
    · exact ⟨e, he, m.oidcId, hmem, Or.inl ⟨hname, rfl⟩⟩
  · rintro ⟨e, he, g, hmem, ⟨hname, rfl⟩ | hg⟩
    · exact Or.inr ⟨hname, e, he, hmem⟩
    · exact Or.inl ⟨g, hg, e, he, hmem⟩

/-- What `enforce` leaves: neither a surplus session nor what hangs off a grant of one. -/
theorem mem_enforce (hcollate : Function.Injective collate) (hok : TableOk rows) (hlimit : 1 ≤ limit)
    (countedAt : Time) (m : StoredModel) :
    m ∈ (enforce collate rows accountId limit (some newSessionId) countedAt now).2 ↔
      m ∈ rows ∧ ¬ IsSurplus collate rows accountId limit newSessionId now m ∧
        ∀ e ∈ rows, IsSurplus collate rows accountId limit newSessionId now e →
          ∀ grantId ∈ extractGrantIds e.payload, hangsOff grantId m = false := by
  have hsurplus : ∀ e, e ∈ surplusSessions collate rows accountId limit (some newSessionId) now ↔
      e ∈ rows ∧ IsSurplus collate rows accountId limit newSessionId now e :=
    mem_surplusSessions hcollate hok.unique
  generalize hevicted : surplusSessions collate rows accountId limit (some newSessionId) now =
    evicted at hsurplus
  have hderived : m ∈ (enforce collate rows accountId limit (some newSessionId) countedAt now).2 ↔
      m ∈ rows ∧ ¬ isDerived (evicted.map StoredModel.account) m.account = true := by
    rw [enforce_rows (by omega), claimSurplusSessions, hevicted, deleteSessions]
    have hclaimed : (decide (m.modelName = "Session") &&
        (evicted.map fun e => e.oidcId).contains m.oidcId) = true →
          isDerived (evicted.map StoredModel.account) m.account = true := by
      intro h
      simp only [Bool.and_eq_true, decide_eq_true_eq, List.contains_iff_mem, List.mem_map] at h
      exact (isDerived_iff evicted m).mpr (Or.inl h)
    split
    next hnone =>
      rw [List.isEmpty_iff.mp hnone]
      simp [isDerived]
    · rw [Table.mem_deleteWhere, Table.mem_deleteWhere, ← Bool.not_eq_true, ← Bool.not_eq_true]
      exact ⟨fun h => ⟨h.1.1, h.2⟩, fun h => ⟨⟨h.1, fun hc => h.2 (hclaimed hc)⟩, h.2⟩⟩
  rw [hderived, isDerived_iff]
  refine and_congr_right fun hm => ?_
  rw [not_or]
  refine and_congr (not_congr ⟨?_, fun h => ?_⟩) ?_
  · rintro ⟨hsession, e, he, hid⟩
    obtain ⟨hmem, hs⟩ := (hsurplus e).mp he
    have hkey : e.key = m.key := Prod.ext ((isCandidate_session hs.1).1.trans hsession.symm) hid
    exact Table.eq_of_key hok.unique hmem hm hkey ▸ hs
  · exact ⟨(isCandidate_session h.1).1, m, (hsurplus m).mpr ⟨hm, h⟩, rfl⟩
  · simp only [hsurplus, not_exists, not_and, Bool.not_eq_true]
    exact ⟨fun h e he hs g hg => h e ⟨he, hs⟩ g hg, fun h e he g hg => h e he.1 he.2 g hg⟩

/-- Nothing hangs off a grant in a session row. -/
theorem hangsOff_session (hok : TableOk rows) {m : StoredModel} (hm : m ∈ rows)
    (hsession : m.modelName = "Session") (grantId : String) : hangsOff grantId m = false := by
  have hnone := hok.noGrantId m hm (Or.inl hsession)
  simp [hangsOff, StoredModel.key, OidcModel.key, hsession, hnone]

theorem session_left_iff (hcollate : Function.Injective collate) (hok : TableOk rows)
    (hlimit : 1 ≤ limit) (countedAt : Time) {m : StoredModel} (hsession : m.modelName = "Session") :
    m ∈ (enforce collate rows accountId limit (some newSessionId) countedAt now).2 ↔
      m ∈ rows ∧ ¬ IsSurplus collate rows accountId limit newSessionId now m := by
  rw [mem_enforce hcollate hok hlimit]
  refine and_congr_right fun hm => and_iff_left ?_
  exact fun _ _ _ grantId _ => hangsOff_session hok hm hsession grantId

/-- A row hangs off one grant. -/
theorem hangsOff_inj (hok : TableOk rows) {m : StoredModel} (hm : m ∈ rows) {g g' : String}
    (h : hangsOff g m = true) (h' : hangsOff g' m = true) : g = g' := by
  have hgrant : m.modelName = "Grant" → m.grantId = none := fun hname =>
    hok.noGrantId m hm (Or.inr hname)
  simp only [hangsOff, StoredModel.key, OidcModel.key, Bool.or_eq_true, decide_eq_true_eq,
    Prod.mk.injEq] at h h'
  rcases h with ⟨hname, hid⟩ | hid
  · rcases h' with ⟨-, hid'⟩ | hid'
    · exact hid.symm.trans hid'
    · rw [hgrant hname] at hid'
      cases hid'
  · rcases h' with ⟨hname, -⟩ | hid'
    · rw [hgrant hname] at hid
      cases hid
    · exact Option.some.inj (hid.symm.trans hid')

/-- Older than a surplus session is surplus. -/
theorem isSurplus_of_le {m other : StoredModel}
    (hother : isCandidate accountId (some newSessionId) now other.account = true)
    (hle : newness collate other.account ≤ newness collate m.account)
    (h : IsSurplus collate rows accountId limit newSessionId now m) :
    IsSurplus collate rows accountId limit newSessionId now other := by
  refine ⟨hother, h.2.trans (List.countP_mono_left fun x _ hx => ?_)⟩
  simp only [Bool.and_eq_true, decide_eq_true_eq] at hx ⊢
  exact ⟨hx.1, lt_of_le_of_lt hle hx.2⟩

/-- A candidate that is not surplus is one of those that are kept. -/
theorem mem_take_of_not_surplus (hcollate : Function.Injective collate) (hok : TableOk rows)
    {m : StoredModel} (hm : m ∈ rows)
    (hcandidate : isCandidate accountId (some newSessionId) now m.account = true)
    (h : ¬ IsSurplus collate rows accountId limit newSessionId now m) :
    m ∈ (candidates collate rows accountId newSessionId now).take
      (keep limit (some newSessionId)) := by
  have hmem : m ∈ candidates collate rows accountId newSessionId now :=
    (isOrdered_candidates.mem_iff m).mpr ⟨hm, hcandidate⟩
  rw [← List.take_append_drop (keep limit (some newSessionId)) (candidates ..)] at hmem
  rcases List.mem_append.mp hmem with htake | hdrop
  · exact htake
  · exact absurd ((mem_surplusSessions hcollate hok.unique m).mp hdrop).2 h

theorem capped_enforce (hcollate : Function.Injective collate) (hok : TableOk rows)
    (hlimit : 1 ≤ limit) (countedAt : Time) {new : StoredModel} (hnew : new ∈ rows)
    (hkey : new.key = ("Session", newSessionId)) :
    countActiveSessions ((enforce collate rows accountId limit (some newSessionId) countedAt
      now).2.map StoredModel.account) accountId now ≤ limit := by
  have hok' : TableOk (enforce collate rows accountId limit (some newSessionId) countedAt now).2 :=
    tableOk_enforce hok accountId limit (some newSessionId) countedAt now
  have hsession : ∀ m : StoredModel, isActiveSession accountId now m.account = true →
      m.modelName = "Session" := by
    intro m hactive
    simp only [isActiveSession, Bool.and_eq_true, decide_eq_true_eq] at hactive
    exact hactive.1.1
  have hid : newSessionId ≠ "" := by
    have h := hok.sessionId new hnew (congrArg Prod.fst hkey)
    rwa [show new.oidcId = newSessionId from congrArg Prod.snd hkey] at h
  have hkeep : keep limit (some newSessionId) = limit - 1 := by
    simp [keep, hid]
  unfold countActiveSessions
  rw [List.countP_map, List.countP_eq_length_filter]
  -- each of them is the new session or one of those kept
  have hsub : (enforce collate rows accountId limit (some newSessionId) countedAt now).2.filter
      (isActiveSession accountId now ∘ StoredModel.account) ⊆
      new :: (candidates collate rows accountId newSessionId now).take
        (keep limit (some newSessionId)) := by
    intro m hm
    obtain ⟨hleft, hactive⟩ := List.mem_filter.mp hm
    have hname := hsession m hactive
    obtain ⟨hrows, hnot⟩ := (session_left_iff hcollate hok hlimit countedAt hname).mp hleft
    by_cases hsame : m.oidcId = newSessionId
    · have hmkey : m.key = new.key := (Prod.ext hname hsame : m.key = ("Session", newSessionId)).trans hkey.symm
      exact Table.eq_of_key hok.unique hrows hnew hmkey ▸ List.mem_cons_self ..
    · refine List.mem_cons_of_mem _ (mem_take_of_not_surplus hcollate hok hrows ?_ hnot)
      exact Bool.and_eq_true_iff.mpr ⟨hactive, decide_eq_true hsame⟩
  have hlength := (List.subperm_of_subset ((List.Nodup.of_map _ hok'.unique).filter _) hsub).length_le
  have htake := List.length_take_le (keep limit (some newSessionId))
    (candidates collate rows accountId newSessionId now)
  rw [List.length_cons] at hlength
  omega

end Proof

/-- In every reachable table an eviction harms only the evicted sessions if and only if no grant in
use is named both by a surplus session and by one that is not. -/
theorem eviction_harmless_iff {κ : Type} [LinearOrder κ] (collate : String → κ)
    (hcollate : Function.Injective collate) (events : List ModelEvent) (rows : ModelTable)
    (hreach : Run.final (modelStep collate) [] events = some rows) (accountId : String) (limit : ℕ)
    (hlimit : 1 ≤ limit) (newSessionId : String)
    (hnew : ∃ m ∈ rows, m.key = ("Session", newSessionId)) (countedAt now : Time) :
    HarmsOnlyEvicted collate accountId limit newSessionId now rows
        (enforce collate rows accountId limit (some newSessionId) countedAt now).2 ↔
      NoSharedGrant collate rows accountId limit newSessionId now := by
  have hok := tableOk_reachable hreach
  obtain ⟨new, hmem, hkey⟩ := hnew
  constructor
  · intro h e he hsurplus s hs hsession hnot grantId hg hg' m hm
    by_contra hhangs
    have hleft := h.grants s ((session_left_iff hcollate hok hlimit countedAt hsession).mpr
      ⟨hs, hnot⟩) hsession grantId hg' m hm (by simpa using hhangs)
    exact hhangs (((mem_enforce hcollate hok hlimit countedAt m).mp hleft).2.2 e he hsurplus
      grantId hg)
  · intro h
    refine ⟨capped_enforce hcollate hok hlimit countedAt hmem hkey, ?_, ?_, ?_⟩
    · intro m hm hmkey
      refine (session_left_iff hcollate hok hlimit countedAt (congrArg Prod.fst hmkey)).mpr
        ⟨hm, fun hs => ?_⟩
      exact (isCandidate_session hs.1).2 (congrArg Prod.snd hmkey)
    · intro m hm hsession hgone
      have hsurplus : IsSurplus collate rows accountId limit newSessionId now m := by
        by_contra hnot
        exact hgone ((session_left_iff hcollate hok hlimit countedAt hsession).mpr ⟨hm, hnot⟩)
      refine ⟨hsurplus.1, fun other hother hcandidate => ?_⟩
      have hleft := (mem_enforce hcollate hok hlimit countedAt other).mp hother
      by_contra hle
      exact hleft.2.1 (isSurplus_of_le hcandidate (not_lt.mp hle) hsurplus)
    · intro s hs hsession grantId hg m hm hhangs
      obtain ⟨hrows, hnot⟩ := (session_left_iff hcollate hok hlimit countedAt hsession).mp hs
      refine (mem_enforce hcollate hok hlimit countedAt m).mpr ⟨hm, fun hsurplus => ?_, ?_⟩
      · rw [hangsOff_session hok hm (isCandidate_session hsurplus.1).1] at hhangs
        cases hhangs
      · intro e he hsurplus g hge
        by_contra hg'
        have heq := hangsOff_inj hok hm (by simpa using hg') hhangs
        rw [h e he hsurplus s hrows hsession hnot g hge (heq ▸ hg) m hm] at hg'
        exact hg' rfl

/-! ### Two logins and a switch -/

def secondLogin : List ModelEvent :=
  [.login "s1" "u1" 1 none, .consent "s1" "ui" "g1" 2, .login "s2" "u1" 3 none,
    .consent "s2" "ui" "g2" 4]

/-- The switch writes its grant into both sessions, and a third login follows. -/
def loginAfterSwitch : List ModelEvent :=
  secondLogin ++ [.switchTenant "u1" "u2" "ui" (some "g2") "g3" "a3" "r3" 5, .login "s3" "u2" 6 none]

def rowsAfter (events : List ModelEvent) : ModelTable :=
  (Run.final (modelStep String.toList) [] events).getD []

theorem eviction_harmless_two_logins :
    HarmsOnlyEvicted String.toList "u1" 1 "s2" 9 (rowsAfter secondLogin)
      (enforce String.toList (rowsAfter secondLogin) "u1" 1 (some "s2") 8 9).2 := by
  refine (eviction_harmless_iff String.toList (fun _ _ => String.toList_inj.mp) secondLogin
    (rowsAfter secondLogin) (by decide +kernel) "u1" 1 le_rfl "s2" (by decide +kernel) 8 9).mpr ?_
  unfold NoSharedGrant IsSurplus
  decide +kernel

/-- Evicting the oldest session deletes the grant and the tokens of the one that stays. -/
theorem eviction_harms_survivor :
    ¬ ∀ (events : List ModelEvent) (rows : ModelTable),
      Run.final (modelStep String.toList) [] events = some rows →
      ∀ (accountId : String) (limit : ℕ), 1 ≤ limit → ∀ newSessionId,
        (∃ m ∈ rows, m.key = ("Session", newSessionId)) → ∀ countedAt now,
          HarmsOnlyEvicted String.toList accountId limit newSessionId now rows
            (enforce String.toList rows accountId limit (some newSessionId) countedAt now).2 := by
  intro hall
  have hharmless := hall loginAfterSwitch (rowsAfter loginAfterSwitch) (by decide +kernel) "u2" 2
    (by decide) "s3" (by decide +kernel) 8 9
  have hgrants := hharmless.grants
  revert hgrants
  decide +kernel

end VcCommonService.Oidc
