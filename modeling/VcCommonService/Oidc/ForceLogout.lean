import VcCommonService.Oidc.AccountSession
import VcCommonService.Lib.Run

/-!
# Force-logout and requests in flight

`revokeSessions` deletes every record of an account and writes an audit entry, in one transaction.
A `DELETE` chooses its rows when it begins, takes those of them that it still finds when it ends,
and nobody sees them gone before the `COMMIT`. A request of the provider loads records with `find`
and stores them, or new ones for the same account, with `upsert`, which creates the row again when
it is gone. An account stays logged out as long as no request that loaded one of its records
before the logout writes after it, and as the logout commits over no record of the account that
its `DELETE` has not taken.
-/

namespace VcCommonService.Oidc
open Lib Auth TenantUsers

/-! ### The rows -/

/-- A row of `oidc_model`: a record that is deleted and stored again has a row of its own. -/
structure StoredRow where
  id : ℕ
  record : OidcModel
  deriving Repr, DecidableEq

/-- The rows, those of them that open transactions have deleted, and as history for one account:
how many logouts of it have committed, and whether it is logged out, that is, no login for it has
started since the last one. -/
structure LogoutStore where
  rows : List StoredRow
  nextId : ℕ
  deleting : List ℕ := []
  logouts : ℕ := 0
  loggedOut : Bool := false
  deriving Repr, DecidableEq

/-- What a query sees. -/
def LogoutStore.records (db : LogoutStore) : List OidcModel := db.rows.map StoredRow.record

/-- An upsert waits for a transaction that has deleted its row. -/
def LogoutStore.waits (db : LogoutStore) (row : OidcModel) : Bool :=
  db.rows.any fun r => decide (r.record.key = row.key) && db.deleting.contains r.id

/-- `INSERT … ON CONFLICT (model_name, oidc_id) DO UPDATE`; a row that is updated keeps its id. -/
def LogoutStore.upsert (db : LogoutStore) (row : OidcModel) : LogoutStore :=
  let old := db.rows.find? fun r => decide (r.record.key = row.key)
  { db with
    rows := Table.save (fun r => r.record.key) ⟨(old.map StoredRow.id).getD db.nextId, row⟩ db.rows
    nextId := db.nextId + 1 }

inductive DeleteStatement where
  | destroy (modelName oidcId : String)
  | revokeByGrantId (modelName grantId : String)
  | deleteAllForAccount (accountId : String) (targeted : List String)
  deriving Repr, DecidableEq

/-- `WHERE`; the grants of the account are those of the query that the statement begins with. -/
def DeleteStatement.selects : DeleteStatement → OidcModel → Bool
  | .destroy modelName oidcId, m => decide (m.key = (modelName, oidcId))
  | .revokeByGrantId modelName grantId, m =>
    decide (m.modelName = modelName ∧ m.grantId = some grantId)
  | .deleteAllForAccount accountId targeted, m =>
    (accountBoundModels.contains m.modelName && m.accountId.any ([accountId].contains ·)) ||
      m.grantId.any (targeted.contains ·)

/-- The rows that a statement chooses. -/
def LogoutStore.selected (db : LogoutStore) (statement : DeleteStatement) : List ℕ :=
  (db.rows.filter fun r => statement.selects r.record).map StoredRow.id

/-- Of the chosen rows, those that are still there and still match. -/
def LogoutStore.found (db : LogoutStore) (statement : DeleteStatement) (chosen : List ℕ) :
    List ℕ :=
  (db.selected statement).filter fun id => chosen.contains id

def LogoutStore.without (db : LogoutStore) (ids : List ℕ) : LogoutStore :=
  { db with
    rows := Table.deleteWhere (fun r => ids.contains r.id) db.rows
    deleting := db.deleting.filter fun id => !ids.contains id }

/-! ### The adapter and the logout as steps -/

/-- The account that a record belongs to, if its model is bound to one. -/
def accountOf (m : OidcModel) : Option String :=
  if accountBoundModels.contains m.modelName then m.accountId else none

def ofAccount (account : String) (m : OidcModel) : Bool := decide (accountOf m = some account)

/-- A record that a request has loaded, or the login that it is: its account, and the number of
logouts before. -/
structure Source where
  account : Option String
  logouts : ℕ
  deriving Repr, DecidableEq

/-- The statement of a deletion that a request is at. -/
inductive Running where
  | idle
  | deleting (statement : DeleteStatement) (chosen : List ℕ)
  | auditing (accountId : String) (deleted : List ℕ)
  | committing (accountId : String) (deleted : List ℕ)
  deriving Repr, DecidableEq

structure ProviderCall where
  sources : List Source := []
  running : Running := .idle
  deriving Repr, DecidableEq

/-- `next` ends the statement that is running, `fail` is its error. -/
inductive ProviderEvent where
  | startLogin (accountId : String)
  | find (modelName oidcId : String) (live : Bool)
  | upsert (row : OidcModel) (source : ℕ)
  | destroy (modelName oidcId : String)
  | revokeByGrantId (modelName grantId : String)
  | revokeSessions (accountId : String)
  | next
  | fail
  deriving Repr, DecidableEq

/-- What a request stores has no account, or the one of its source. -/
def derivedFrom (row : OidcModel) (source : Source) : Bool :=
  decide (row.accountId = none ∨ row.accountId = source.account)

def beginDelete (db : LogoutStore) (call : ProviderCall) (statement : DeleteStatement) :
    Option (LogoutStore × ProviderCall) :=
  if call.running = .idle then
    some (db, { call with running := .deleting statement (db.selected statement) })
  else none

/-- The end of a `DELETE`: it waits for rows that other transactions have deleted. Inside the
transaction of a logout the rows are gone for the others only after the `COMMIT`. -/
def endDelete (db : LogoutStore) (call : ProviderCall) (statement : DeleteStatement)
    (chosen : List ℕ) : Option (LogoutStore × ProviderCall) :=
  let ids := db.found statement chosen
  if ids.any db.deleting.contains then none
  else match statement with
    | .deleteAllForAccount accountId _ =>
      some ({ db with deleting := db.deleting ++ ids },
        { call with running := .auditing accountId ids })
    | _ => some (db.without ids, { call with running := .idle })

def commit (account : String) (db : LogoutStore) (accountId : String) (deleted : List ℕ) :
    LogoutStore :=
  if accountId = account then
    { db.without deleted with logouts := db.logouts + 1, loggedOut := true }
  else db.without deleted

def rollback (db : LogoutStore) (deleted : List ℕ) : LogoutStore :=
  { db with deleting := db.deleting.filter fun id => !deleted.contains id }

def runNext (account : String) (db : LogoutStore) (call : ProviderCall) :
    Running → Option (LogoutStore × ProviderCall)
  | .idle => none
  | .deleting statement chosen => endDelete db call statement chosen
  | .auditing accountId deleted =>
    some (db, { call with running := .committing accountId deleted })
  | .committing accountId deleted =>
    some (commit account db accountId deleted, { call with running := .idle })

def runFail (db : LogoutStore) (call : ProviderCall) :
    Running → Option (LogoutStore × ProviderCall)
  | .idle => none
  | .deleting _ _ => some (db, { call with running := .idle })
  | .auditing _ deleted => some (rollback db deleted, { call with running := .idle })
  | .committing _ deleted => some (rollback db deleted, { call with running := .idle })

/-- One step of one request. -/
def providerAct (account : String) (db : LogoutStore) (call : ProviderCall) :
    ProviderEvent → Option (LogoutStore × ProviderCall)
  | .startLogin accountId =>
    some ({ db with loggedOut := db.loggedOut && decide (accountId ≠ account) },
      { call with sources := call.sources ++ [⟨some accountId, db.logouts⟩] })
  | .find modelName oidcId live =>
    match findModel (fun _ => live) db.records modelName oidcId with
    | none => some (db, call)
    | some record =>
      some (db, { call with sources := call.sources ++ [⟨accountOf record, db.logouts⟩] })
  | .upsert row source =>
    match call.sources[source]? with
    | none => none
    | some origin =>
      if derivedFrom row origin && !db.waits row then some (db.upsert row, call) else none
  | .destroy modelName oidcId => beginDelete db call (.destroy modelName oidcId)
  | .revokeByGrantId modelName grantId => beginDelete db call (.revokeByGrantId modelName grantId)
  | .revokeSessions accountId =>
    beginDelete db call (.deleteAllForAccount accountId (grantsOf db.records [accountId]))
  | .next => runNext account db call call.running
  | .fail => runFail db call call.running

def providerStep (account : String) :
    Run.World LogoutStore ProviderCall → ℕ × ProviderEvent →
      Option (Run.World LogoutStore ProviderCall) :=
  Run.interleave (providerAct account)

/-! ### Statements that nobody disturbs -/

section Alone

variable {db : LogoutStore}

theorem found_selected (statement : DeleteStatement) :
    db.found statement (db.selected statement) = db.selected statement :=
  List.filter_eq_self.mpr fun _ hid => List.contains_iff_mem.mpr hid

/-- With rows of different ids, the chosen ones are those that match. -/
theorem records_without_selected (hids : Table.UniqueKeys StoredRow.id db.rows)
    (statement : DeleteStatement) :
    (db.without (db.selected statement)).records =
      Table.deleteWhere statement.selects db.records := by
  have hrows : (db.without (db.selected statement)).rows =
      Table.deleteWhere (fun r => statement.selects r.record) db.rows := by
    refine List.filter_congr fun r hr => congrArg Bool.not (Bool.eq_iff_iff.mpr ?_)
    rw [List.contains_iff_mem, LogoutStore.selected, List.mem_map]
    constructor
    · rintro ⟨q, hq, hid⟩
      obtain ⟨hqmem, hmatch⟩ := List.mem_filter.mp hq
      exact Table.eq_of_key hids hqmem hr hid ▸ hmatch
    · exact fun hmatch => ⟨r, List.mem_filter.mpr ⟨hr, hmatch⟩, rfl⟩
  rw [LogoutStore.records, hrows, Table.deleteWhere, Table.deleteWhere, LogoutStore.records,
    List.filter_map]
  rfl

/-- The statements of a logout, one right after the other, delete what `deleteAllForAccount`
deletes. -/
theorem revokeSessions_alone (account : String) {call : ProviderCall}
    (hids : Table.UniqueKeys StoredRow.id db.rows) (hnone : db.deleting = [])
    (hidle : call.running = .idle) :
    ∃ db', Run.final (fun (s : LogoutStore × ProviderCall) e => providerAct account s.1 s.2 e)
        (db, call) [.revokeSessions account, .next, .next, .next] = some (db', call) ∧
      db'.records = (deleteAllForAccount db.records account).1 ∧ db'.loggedOut = true := by
  set statement := DeleteStatement.deleteAllForAccount account (grantsOf db.records [account])
    with hstatement
  set ids := db.selected statement with hidsdef
  have hbegin : providerAct account db call (.revokeSessions account) =
      some (db, { call with running := .deleting statement ids }) := if_pos hidle
  have hend : endDelete db { call with running := .deleting statement ids } statement ids =
      some ({ db with deleting := db.deleting ++ ids },
        { call with running := .auditing account ids }) := by
    have hfree : ids.any db.deleting.contains = false := by simp [hnone]
    unfold endDelete
    rw [found_selected, ← hidsdef, if_neg (by simp [hfree])]
  have hcall : { call with running := .idle } = call := by rw [← hidle]
  refine ⟨commit account { db with deleting := db.deleting ++ ids } account ids, ?_, ?_, ?_⟩
  · rw [Run.final, hbegin, Option.bind_some, Run.final]
    change (endDelete db _ statement ids).bind _ = _
    rw [hend, Option.bind_some]
    change some (commit account _ account ids, { call with running := .idle }) = _
    rw [hcall]
  · have hrecords := records_without_selected hids statement
    simp only [commit, if_true]
    exact hrecords
  · simp only [commit, if_true]

end Alone

/-! ### Staying logged out -/

def StaysLoggedOut (account : String) (db : LogoutStore) : Prop :=
  db.loggedOut = true → ∀ r ∈ db.rows, ofAccount account r.record = false

/-- While the account is logged out, whoever stores a record of it has loaded its source after
the logout; and a logout commits when it has deleted every record of the account that is stored. -/
def LogoutRespected (account : String) (db : LogoutStore) (call : ProviderCall) :
    ProviderEvent → Prop
  | .upsert row source => db.loggedOut = true → ofAccount account row = true →
    ∀ origin, call.sources[source]? = some origin → origin.logouts = db.logouts
  | .next => ∀ deleted, call.running = .committing account deleted →
    ∀ r ∈ db.rows, ofAccount account r.record = true → r.id ∈ deleted
  | _ => True

/-- A source since the last logout is not one of the account. -/
def SourcesOk (account : String) (db : LogoutStore) (call : ProviderCall) : Prop :=
  ∀ source ∈ call.sources, source.logouts ≤ db.logouts ∧
    (db.loggedOut = true → source.logouts = db.logouts → source.account ≠ some account)

section Step

variable {account : String} {db db' : LogoutStore} {call call' : ProviderCall}
  {e : ProviderEvent}

theorem staysLoggedOut_of_subset (h : StaysLoggedOut account db)
    (hsub : ∀ r ∈ db'.rows, r ∈ db.rows) (hout : db'.loggedOut = db.loggedOut) :
    StaysLoggedOut account db' :=
  fun h' r hr => h (hout ▸ h') r (hsub r hr)

theorem staysLoggedOut_upsert_iff (h : StaysLoggedOut account db) (row : OidcModel) :
    StaysLoggedOut account (db.upsert row) ↔
      (db.loggedOut = true → ofAccount account row = false) := by
  constructor
  · exact fun hafter hout => hafter hout _ (Table.mem_save_self _ _ _)
  · intro hrow hout r hr
    rcases Table.eq_or_mem_of_mem_save hr with rfl | hr
    · exact hrow hout
    · exact h hout r hr

theorem account_source {row : OidcModel} {source : Source} (hrow : ofAccount account row = true)
    (hderived : derivedFrom row source = true) : source.account = some account := by
  have haccount : row.accountId = some account := by
    have hof : accountOf row = some account := of_decide_eq_true hrow
    unfold accountOf at hof
    split at hof
    · exact hof
    · cases hof
  rcases of_decide_eq_true hderived with hnone | hsame
  · rw [haccount] at hnone
    cases hnone
  · exact hsame.symm.trans haccount

/-- Everything a step can do. -/
inductive ProviderEffect (account : String) (db : LogoutStore) (call : ProviderCall) :
    ProviderEvent → LogoutStore → ProviderCall → Prop
  | shrinks {e : ProviderEvent} {db' : LogoutStore} {call' : ProviderCall}
      (hsub : ∀ r ∈ db'.rows, r ∈ db.rows) (hlogouts : db'.logouts = db.logouts)
      (hout : db'.loggedOut = db.loggedOut) (hsources : call'.sources = call.sources)
      (hquiet : LogoutRespected account db call e) : ProviderEffect account db call e db' call'
  | logsIn (accountId : String) :
      ProviderEffect account db call (.startLogin accountId)
        { db with loggedOut := db.loggedOut && decide (accountId ≠ account) }
        { call with sources := call.sources ++ [⟨some accountId, db.logouts⟩] }
  | loads {e : ProviderEvent} {r : StoredRow} (hr : r ∈ db.rows)
      (hquiet : LogoutRespected account db call e) :
      ProviderEffect account db call e db
        { call with sources := call.sources ++ [⟨accountOf r.record, db.logouts⟩] }
  | stores {row : OidcModel} {source : ℕ} {origin : Source}
      (hsource : call.sources[source]? = some origin) (hderived : derivedFrom row origin = true) :
      ProviderEffect account db call (.upsert row source) (db.upsert row) call
  | commits {deleted : List ℕ} (hrunning : call.running = .committing account deleted) :
      ProviderEffect account db call .next
        { db.without deleted with logouts := db.logouts + 1, loggedOut := true }
        { call with running := .idle }

theorem mem_without {ids : List ℕ} {r : StoredRow} :
    r ∈ (db.without ids).rows ↔ r ∈ db.rows ∧ r.id ∉ ids := by
  rw [LogoutStore.without, Table.mem_deleteWhere, ← Bool.not_eq_true, List.contains_iff_mem]

theorem effect_beginDelete {statement : DeleteStatement}
    (hquiet : LogoutRespected account db call e)
    (h : beginDelete db call statement = some (db', call')) :
    ProviderEffect account db call e db' call' := by
  unfold beginDelete at h
  split at h
  · cases h
    exact .shrinks (fun _ hr => hr) rfl rfl rfl hquiet
  · cases h

theorem effect_endDelete {statement : DeleteStatement} {chosen : List ℕ}
    (hquiet : LogoutRespected account db call e)
    (h : endDelete db call statement chosen = some (db', call')) :
    ProviderEffect account db call e db' call' := by
  unfold endDelete at h
  dsimp only at h
  split at h
  · cases h
  · cases statement with
    | deleteAllForAccount accountId targeted =>
      cases h
      exact .shrinks (fun _ hr => hr) rfl rfl rfl hquiet
    | destroy modelName oidcId =>
      cases h
      exact .shrinks (fun _ hr => (mem_without.mp hr).1) rfl rfl rfl hquiet
    | revokeByGrantId modelName grantId =>
      cases h
      exact .shrinks (fun _ hr => (mem_without.mp hr).1) rfl rfl rfl hquiet

theorem effect_next (h : runNext account db call call.running = some (db', call')) :
    ProviderEffect account db call .next db' call' := by
  cases hrunning : call.running with
  | idle =>
    rw [hrunning] at h
    cases h
  | deleting statement chosen =>
    rw [hrunning] at h
    exact effect_endDelete (fun _ heq => by rw [hrunning] at heq; cases heq) h
  | auditing accountId deleted =>
    rw [hrunning] at h
    cases h
    exact .shrinks (fun _ hr => hr) rfl rfl rfl fun _ heq => by rw [hrunning] at heq; cases heq
  | committing accountId deleted =>
    rw [hrunning] at h
    cases h
    unfold commit
    split
    next haccount =>
      subst haccount
      exact .commits hrunning
    next hother =>
      refine .shrinks (fun _ hr => (mem_without.mp hr).1) rfl rfl rfl fun _ heq => ?_
      rw [hrunning] at heq
      cases heq
      exact absurd rfl hother

theorem effect_fail (h : runFail db call call.running = some (db', call')) :
    ProviderEffect account db call .fail db' call' := by
  cases hrunning : call.running with
  | idle =>
    rw [hrunning] at h
    cases h
  | deleting statement chosen =>
    rw [hrunning] at h
    cases h
    exact .shrinks (fun _ hr => hr) rfl rfl rfl trivial
  | auditing accountId deleted =>
    rw [hrunning] at h
    cases h
    exact .shrinks (fun _ hr => hr) rfl rfl rfl trivial
  | committing accountId deleted =>
    rw [hrunning] at h
    cases h
    exact .shrinks (fun _ hr => hr) rfl rfl rfl trivial

theorem providerAct_effect (ha : providerAct account db call e = some (db', call')) :
    ProviderEffect account db call e db' call' := by
  cases e with
  | startLogin accountId =>
    cases ha
    exact .logsIn accountId
  | find modelName oidcId live =>
    simp only [providerAct] at ha
    split at ha
    · cases ha
      exact .shrinks (fun _ hr => hr) rfl rfl rfl trivial
    next record hfound =>
      cases ha
      obtain ⟨hfind, -⟩ := Option.filter_eq_some_iff.mp hfound
      obtain ⟨r, hr, rfl⟩ := List.mem_map.mp (List.mem_of_find?_eq_some hfind)
      exact .loads hr trivial
  | upsert row source =>
    simp only [providerAct] at ha
    split at ha
    · cases ha
    next origin hsource =>
      split at ha
      next hallowed =>
        cases ha
        exact .stores hsource (Bool.and_eq_true_iff.mp hallowed).1
      · cases ha
  | destroy modelName oidcId => exact effect_beginDelete trivial ha
  | revokeByGrantId modelName grantId => exact effect_beginDelete trivial ha
  | revokeSessions accountId => exact effect_beginDelete trivial ha
  | next => exact effect_next ha
  | fail => exact effect_fail ha

/-- A store brings the account back if it is a late one, and a logout leaves it where it has not
deleted all of its records. -/
theorem provider_step_iff (hg : StaysLoggedOut account db) (hl : SourcesOk account db call)
    (h : ProviderEffect account db call e db' call') :
    LogoutRespected account db call e ↔ StaysLoggedOut account db' := by
  cases h with
  | shrinks hsub _ hout _ hquiet =>
    exact iff_of_true hquiet (staysLoggedOut_of_subset hg hsub hout)
  | logsIn accountId =>
    exact iff_of_true trivial fun hout => hg (Bool.and_eq_true_iff.mp hout).1
  | loads _ hquiet => exact iff_of_true hquiet hg
  | @stores row source origin hsource hderived =>
    rw [staysLoggedOut_upsert_iff hg]
    have hentry := hl origin (List.mem_of_getElem? hsource)
    constructor
    · intro hc hout
      by_contra hrow
      have hrow' := Bool.eq_true_of_not_eq_false hrow
      exact hentry.2 hout (hc hout hrow' origin hsource) (account_source hrow' hderived)
    · intro h hout hrow
      rw [h hout] at hrow
      cases hrow
  | @commits deleted hrunning =>
    constructor
    · intro hall _ r hr
      obtain ⟨hmem, hid⟩ := mem_without.mp hr
      by_contra hof
      exact hid (hall deleted hrunning r hmem (Bool.eq_true_of_not_eq_false hof))
    · intro hstays other heq r hr hof
      rw [hrunning] at heq
      cases heq
      by_contra hid
      rw [hstays rfl r (mem_without.mpr ⟨hr, hid⟩)] at hof
      cases hof

theorem sourcesOk_same {call : ProviderCall} (hl : SourcesOk account db call)
    (hlogouts : db'.logouts = db.logouts)
    (hout : db'.loggedOut = true → db.loggedOut = true) : SourcesOk account db' call := by
  intro source hsource
  obtain ⟨hle, hfresh⟩ := hl source hsource
  exact ⟨hlogouts ▸ hle, fun h heq => hfresh (hout h) (hlogouts ▸ heq)⟩

theorem sourcesOk_frame {other : ProviderCall} (ho : SourcesOk account db other)
    (h : ProviderEffect account db call e db' call') : SourcesOk account db' other := by
  cases h with
  | shrinks _ hlogouts hout => exact sourcesOk_same ho hlogouts fun h => hout ▸ h
  | logsIn accountId => exact sourcesOk_same ho rfl fun h => (Bool.and_eq_true_iff.mp h).1
  | loads => exact ho
  | stores => exact sourcesOk_same ho rfl id
  | commits =>
    -- nothing has been loaded since the logout that has just committed
    intro source hsource
    obtain ⟨hle, -⟩ := ho source hsource
    exact ⟨Nat.le_succ_of_le hle, fun _ heq => absurd heq (by dsimp only; omega)⟩

theorem sourcesOk_append (hl : SourcesOk account db call) {source : Source}
    (hlogouts : source.logouts = db.logouts)
    (haccount : db.loggedOut = true → source.account ≠ some account) :
    SourcesOk account db { call with sources := call.sources ++ [source] } := by
  intro s hs
  rcases List.mem_append.mp hs with hold | hnew
  · exact hl s hold
  · rw [List.mem_singleton.mp hnew]
    exact ⟨le_of_eq hlogouts, fun hout _ => haccount hout⟩

theorem sourcesOk_own (hg : StaysLoggedOut account db) (hl : SourcesOk account db call)
    (h : ProviderEffect account db call e db' call') : SourcesOk account db' call' := by
  have hframe := sourcesOk_frame hl h
  cases h with
  | shrinks _ _ _ hsources => exact fun source hsource => hframe source (hsources ▸ hsource)
  | logsIn accountId =>
    refine sourcesOk_append hframe rfl fun hout heq => ?_
    have hother := of_decide_eq_true (Bool.and_eq_true_iff.mp hout).2
    exact hother (Option.some.inj heq)
  | @loads _ r hr _ =>
    refine sourcesOk_append hl rfl fun hout => ?_
    exact of_decide_eq_false (hg hout r hr)
  | stores => exact hframe
  | commits => exact hframe

end Step

/-! ### Runs -/

/-- In every interleaving the account stays logged out after each logout, until a login for it
starts, if and only if no request stores a record of it that comes from before the logout, and each
logout has deleted every record of it that is stored at the `COMMIT`. -/
theorem logout_stands_iff (account : String) (rows : List StoredRow) (nextId : ℕ)
    (events : List (ℕ × ProviderEvent)) :
    Run.All (providerStep account) (fun _ _ w' => StaysLoggedOut account w'.db)
        ⟨{ rows, nextId }, fun _ => {}⟩ events ↔
      Run.All (providerStep account) (Run.Before (LogoutRespected account))
        ⟨{ rows, nextId }, fun _ => {}⟩ events := by
  symm
  refine Run.all_iff_of_invariant
    (Run.Holds (StaysLoggedOut account) (SourcesOk account)) ?_ ?_ ?_
  · intro w l w' hw hs
    obtain ⟨db', call', ha, rfl⟩ := Run.interleave_cases hs
    exact provider_step_iff hw.1 (hw.2 l.1) (providerAct_effect ha)
  · intro w l w' hw hs hc
    refine Run.holds_interleave (C := LogoutRespected account) ?_ ?_ hw hs hc
    · intro db call e db' call' hg hl ha hc
      have heffect := providerAct_effect ha
      exact ⟨(provider_step_iff hg hl heffect).mp hc, sourcesOk_own hg hl heffect⟩
    · intro db call e db' call' other _ _ ho ha _
      exact sourcesOk_frame ho (providerAct_effect ha)
  · exact ⟨fun hout => absurd hout Bool.false_ne_true, fun i source hsource => by cases hsource⟩

/-! ### A session that is saved once more -/

def aliceSession : OidcModel := ⟨"Session", "s1", some "alice", none⟩

def aliceRows : List StoredRow := [⟨0, aliceSession⟩]

def saveOverLogout : List (ℕ × ProviderEvent) :=
  [(0, .find "Session" "s1" true), (1, .revokeSessions "alice"), (1, .next), (1, .next), (1, .next)]

theorem logout_undone : ¬ ∀ (account : String) (rows : List StoredRow) (nextId : ℕ)
    (events : List (ℕ × ProviderEvent)),
    Run.Enabled (providerStep account) ⟨{ rows, nextId }, fun _ => {}⟩ events →
    Run.All (providerStep account) (fun _ _ w' => StaysLoggedOut account w'.db)
      ⟨{ rows, nextId }, fun _ => {}⟩ events := by
  intro hall
  have hrun := hall "alice" aliceRows 1 (saveOverLogout ++ [(0, .upsert aliceSession 0)])
    (Run.enabled_of_final (by decide +kernel))
  obtain ⟨w, w', hout, hq⟩ := Run.all_last hrun
    (fun _ w' => decide (w'.db.loggedOut = true ∧ w'.db.rows = [⟨1, aliceSession⟩]))
    (by decide +kernel)
  obtain ⟨hlogged, hrows⟩ := of_decide_eq_true hq
  have hgone := hout hlogged ⟨1, aliceSession⟩ (hrows ▸ List.mem_singleton_self _)
  revert hgone
  decide

end VcCommonService.Oidc
