import VcCommonService.Common
import VcCommonService.Lib.Run
import VcCommonService.Lib.Select

/-!
# The session cap (`session-limit.service.ts`, `oidc-account-session.repository.ts`)

After a login `SessionLimitService.enforce` brings the account back within its limit: one
`DELETE` picks the sessions beyond the newest ones, and a second statement removes what hangs
off them. The `DELETE` reads a snapshot and goes through it newest first. It locks each row it
meets, passes over as many as are to be kept and marks the others; a row that another running
statement has locked is skipped. What it has marked is gone when it ends.
-/

namespace VcCommonService.Oidc
open Lib

/-- The columns of `oidc_model` that the account queries read; `grantIds` are the grants in the
`authorizations` of a session's payload. -/
structure AccountRow where
  modelName : String
  oidcId : String
  accountId : Option String
  grantId : Option String := none
  createdAt : Time
  expiresAt : Option Time := none
  grantIds : List String := []
  deriving Repr, DecidableEq

def AccountRow.key (r : AccountRow) : String × String := (r.modelName, r.oidcId)

structure SessionLimitResult where
  priorSessionCount : ℕ
  evictedSessionCount : ℕ
  limit : ℕ
  deriving Repr, DecidableEq

/-! ### Repository -/

def isActiveSession (accountId : String) (now : Time) (r : AccountRow) : Bool :=
  decide (r.modelName = "Session" ∧ r.accountId = some accountId) &&
    r.expiresAt.all fun t => decide (now < t)

def countActiveSessions (rows : List AccountRow) (accountId : String) (now : Time) : ℕ :=
  rows.countP (isActiveSession accountId now)

/-- `newSessionId` is an optional string, and an empty one takes no slot of the limit. -/
def keep (limit : ℕ) (newSessionId : Option String) : ℕ :=
  if newSessionId.any fun id => decide (id ≠ "") then limit - 1 else limit

def isCandidate (accountId : String) (newSessionId : Option String) (now : Time)
    (r : AccountRow) : Bool :=
  isActiveSession accountId now r && newSessionId.all fun id => decide (r.oidcId ≠ id)

section Order

variable {κ : Type} [LinearOrder κ] (collate : String → κ)

/-- `collate` stands for the collation of the database. -/
def newness (r : AccountRow) : Time ×ₗ κ := toLex (r.createdAt, collate r.oidcId)

/-- `ORDER BY created_at DESC, oidc_id DESC`. -/
def newestFirst (rows : List AccountRow) : List AccountRow :=
  Table.orderBy (fun r => OrderDual.toDual (newness collate r)) rows

end Order

/-- What `deleteSessions` deletes for these sessions. -/
def isDerived (sessions : List AccountRow) (r : AccountRow) : Bool :=
  let oidcIds := sessions.map AccountRow.oidcId
  let grantIds := sessions.flatMap AccountRow.grantIds
  (decide (r.modelName = "Session") && oidcIds.contains r.oidcId) ||
    r.grantId.any (grantIds.contains ·) ||
    (decide (r.modelName = "Grant") && grantIds.contains r.oidcId)

/-! ### Calls -/

inductive Phase where
  | persisted
  | counted
  | claiming
  | deleting
  | returned (result : SessionLimitResult)
  deriving Repr, DecidableEq

/-- A login: its session, how far its call of `enforce` has come, and what the claiming statement
has still to visit, has passed over and has marked. -/
structure EnforceCall where
  session : AccountRow
  phase : Phase := .persisted
  priorSessionCount : ℕ := 0
  pending : List String := []
  passed : List String := []
  claimed : List String := []
  evicted : List AccountRow := []
  deriving Repr, DecidableEq

def EnforceCall.sid (c : EnforceCall) : String := c.session.oidcId

def EnforceCall.mentions (c : EnforceCall) (id : String) : Bool :=
  decide (c.sid = id) || c.pending.contains id || c.passed.contains id || c.claimed.contains id

/-- The statement that claims sessions holds its locks while it runs. -/
def EnforceCall.locks (c : EnforceCall) (id : String) : Bool :=
  decide (c.phase = .claiming) && (c.passed.contains id || c.claimed.contains id)

/-- `latest` is history: the login whose claiming statement began last. -/
structure SessionWorld where
  rows : List AccountRow
  calls : List EnforceCall := []
  latest : Option String := none
  deriving Repr, DecidableEq

inductive EnforceEvent where
  | persist (row : AccountRow)
  | count (now : Time)
  | beginClaim (now : Time)
  | fetch
  | finish
  | deleteSessions
  deriving Repr, DecidableEq

def isClaimed (c : EnforceCall) (r : AccountRow) : Bool :=
  decide (r.modelName = "Session") && c.claimed.contains r.oidcId

def lockedByOther (w : SessionWorld) (sid id : String) : Bool :=
  w.calls.any fun d => decide (d.sid ≠ sid) && d.locks id

/-- `FOR UPDATE SKIP LOCKED` on the next row of the snapshot. A row that was deleted meanwhile
is skipped too. -/
def fetchRow (limit : ℕ) (w : SessionWorld) (c : EnforceCall) (id : String) (rest : List String) :
    EnforceCall :=
  if (!w.rows.any fun r => decide (r.key = ("Session", id))) || lockedByOther w c.sid id then
    { c with pending := rest }
  else if c.passed.length < keep limit (some c.sid) then
    { c with pending := rest, passed := c.passed ++ [id] }
  else { c with pending := rest, claimed := c.claimed ++ [id] }

/-- `evicted` are the rows that the statement returns. -/
def finishCall (limit : ℕ) (c : EnforceCall) (evicted : List AccountRow) : EnforceCall :=
  if evicted = [] then { c with phase := .returned ⟨c.priorSessionCount, 0, limit⟩ }
  else { c with phase := .deleting, evicted }

section Step

variable {κ : Type} [LinearOrder κ] (collate : String → κ) (accountId : String) (limit : ℕ)

/-- One statement of `enforce`, or one part of the claiming statement. -/
def callStep (w : SessionWorld) (c : EnforceCall) :
    Phase → EnforceEvent → Option (List AccountRow × EnforceCall)
  | .persisted, .count now =>
    if limit = 0 then some (w.rows, { c with phase := .returned ⟨0, 0, limit⟩ })
    else some (w.rows,
      { c with phase := .counted, priorSessionCount := countActiveSessions w.rows accountId now })
  | .counted, .beginClaim now =>
    let candidates := w.rows.filter (isCandidate accountId (some c.sid) now)
    some (w.rows, { c with
      phase := .claiming, pending := (newestFirst collate candidates).map AccountRow.oidcId })
  | .claiming, .fetch =>
    match c.pending with
    | [] => none
    | id :: rest => some (w.rows, fetchRow limit w c id rest)
  | .claiming, .finish =>
    if c.pending ≠ [] then none
    else
      some (Table.deleteWhere (isClaimed c) w.rows,
        finishCall limit c (w.rows.filter (isClaimed c)))
  | .deleting, .deleteSessions =>
    some (Table.deleteWhere (isDerived c.evicted) w.rows,
      { c with phase := .returned ⟨c.priorSessionCount, c.evicted.length, limit⟩ })
  | _, _ => none

/-- The id of a session is drawn by the provider and new; its payload names no grant of its own. -/
def isNewSession (w : SessionWorld) (sid : String) (row : AccountRow) : Bool :=
  decide (row.key = ("Session", sid) ∧ row.accountId = some accountId ∧ row.grantId = none ∧
    sid ≠ "") &&
    (!w.rows.any fun r => decide (r.key = row.key)) && !w.calls.any fun c => c.mentions sid

def latestAfter (latest : Option String) (sid : String) : EnforceEvent → Option String
  | .beginClaim _ => some sid
  | _ => latest

def enforceStep (w : SessionWorld) (l : String × EnforceEvent) : Option SessionWorld :=
  match l.2 with
  | .persist row =>
    if isNewSession accountId w l.1 row then
      some { w with rows := row :: w.rows, calls := { session := row } :: w.calls }
    else none
  | e =>
    (Table.lookup EnforceCall.sid l.1 w.calls).bind fun c =>
      (callStep collate accountId limit w c c.phase e).map fun r =>
        { rows := r.1, calls := Table.save EnforceCall.sid r.2 w.calls
          latest := latestAfter w.latest l.1 e }

/-! ### What a step does -/

/-- The statements of `enforce` when the cap is not disabled. -/
inductive CallMove (w : SessionWorld) (c : EnforceCall) :
    EnforceEvent → List AccountRow → EnforceCall → Prop where
  | counted (now : Time) (hphase : c.phase = .persisted) :
    CallMove w c (.count now) w.rows
      { c with phase := .counted, priorSessionCount := countActiveSessions w.rows accountId now }
  | begun (now : Time) (hphase : c.phase = .counted) :
    CallMove w c (.beginClaim now) w.rows
      { c with
        phase := .claiming
        pending := (newestFirst collate
          (w.rows.filter (isCandidate accountId (some c.sid) now))).map AccountRow.oidcId }
  | fetched (id : String) (rest : List String) (hphase : c.phase = .claiming)
      (hpending : c.pending = id :: rest) :
    CallMove w c .fetch w.rows (fetchRow limit w c id rest)
  | finished (hphase : c.phase = .claiming) (hpending : c.pending = []) :
    CallMove w c .finish (Table.deleteWhere (isClaimed c) w.rows)
      (finishCall limit c (w.rows.filter (isClaimed c)))
  | deleted (hphase : c.phase = .deleting) :
    CallMove w c .deleteSessions (Table.deleteWhere (isDerived c.evicted) w.rows)
      { c with phase := .returned ⟨c.priorSessionCount, c.evicted.length, limit⟩ }

variable {collate accountId limit} {w w' : SessionWorld} {l : String × EnforceEvent}

theorem callMove_of_callStep (hlimit : 1 ≤ limit) {c c' : EnforceCall} {e : EnforceEvent}
    {rows : List AccountRow}
    (h : callStep collate accountId limit w c c.phase e = some (rows, c')) :
    CallMove collate accountId limit w c e rows c' := by
  generalize hphase : c.phase = phase at h
  unfold callStep at h
  split at h
  · rw [if_neg (by omega)] at h
    cases h
    exact .counted _ hphase
  · cases h
    exact .begun _ hphase
  · split at h
    · cases h
    next id rest hpending =>
      cases h
      exact .fetched id rest hphase hpending
  · split at h
    · cases h
    next hpending =>
      cases h
      exact .finished hphase (not_not.mp hpending)
  · cases h
    exact .deleted hphase
  · cases h

theorem enforceStep_cases (hlimit : 1 ≤ limit)
    (h : enforceStep collate accountId limit w l = some w') :
    (∃ row, isNewSession accountId w l.1 row = true ∧
      w' = { w with rows := row :: w.rows, calls := { session := row } :: w.calls }) ∨
    ∃ c ∈ w.calls, c.sid = l.1 ∧ ∃ rows c', CallMove collate accountId limit w c l.2 rows c' ∧
      w' = { rows, calls := Table.save EnforceCall.sid c' w.calls
             latest := latestAfter w.latest l.1 l.2 } := by
  unfold enforceStep at h
  split at h
  next row he =>
    split at h
    next hnew =>
      cases h
      exact Or.inl ⟨row, hnew, rfl⟩
    next => cases h
  next he =>
    obtain ⟨c, hc, h⟩ := Option.bind_eq_some_iff.mp h
    obtain ⟨⟨rows, c'⟩, hstep, rfl⟩ := Option.map_eq_some_iff.mp h
    exact Or.inr ⟨c, List.mem_of_find?_eq_some hc, by simpa using List.find?_some hc, rows, c',
      callMove_of_callStep hlimit hstep, rfl⟩

end Step

end VcCommonService.Oidc
