import VcCommonService.Oidc.BrowserBinding

/-!
# Upstream login transactions are used once

`consumeInteraction` marks the row of a login, and a new login of the same interaction
clears the mark under a fresh state. Nothing reads the mark: a callback is checked for its state
and the expiry only, and a save writes what differs from the row as the save itself has read it.
So a consumed row keeps its user exactly as long as every save of a callback that still has
something to write finds the row open, with the callback's own state, when it writes.
-/

namespace VcCommonService.Oidc
open Lib Auth TenantUsers OAuthClients

/-- The columns of the table. -/
def OidcUpstreamInteraction.columns (r : OidcUpstreamInteraction) : OidcUpstreamInteraction :=
  { r with storedBy := none }

def LoginCall.callbackState : LoginCall → Option String
  | .exchanging request _ => some request.state
  | .resolving request _ _ => some request.state
  | .settingUser request _ _ => some request.state
  | .savingUser request _ _ => some request.state
  | .writingUser request _ _ _ => some request.state
  | .consuming request _ => some request.state
  | .savingConsumed request _ _ => some request.state
  | .writingConsumed request _ _ _ => some request.state
  | _ => none

def Reinitiates (uid : String) : LoginCall → LoginEvent → Prop
  | .initiating details _, .initiate _ _ => details.uid = uid
  | _, _ => False

/-- The state is that of a consumed row, or its interaction has another state by now. -/
def Spent (db : LoginStore) (state : String) : Prop :=
  (∃ r ∈ db.rows, r.state = state ∧ r.consumedAt ≠ none) ∨
    ∃ r ∈ db.rows, (state, r.interactionUid) ∈ db.issued ∧ r.state ≠ state

/-- A consumed row keeps its user and the time of its consumption until its interaction is
initiated again, and a callback with a spent state changes nothing. -/
def KeepsConsumed (db : LoginStore) (pc : LoginCall) (e : LoginEvent) (db' : LoginStore) : Prop :=
  (∀ r ∈ db.rows, r.consumedAt ≠ none → ¬ Reinitiates r.interactionUid pc e →
    ∀ r' ∈ db'.rows, r'.interactionUid = r.interactionUid →
      r'.tenantUserId = r.tenantUserId ∧ r'.consumedAt = r.consumedAt) ∧
  ∀ state, pc.callbackState = some state → Spent db state →
    db'.rows.map OidcUpstreamInteraction.columns = db.rows.map OidcUpstreamInteraction.columns

/-- Every column in which the entity differs from the row that its save has read has the
entity's value already. -/
structure HasWritten (row entity current : OidcUpstreamInteraction) : Prop where
  state : entity.state ≠ row.state → current.state = entity.state
  nonce : entity.nonce ≠ row.nonce → current.nonce = entity.nonce
  interactionUid : entity.interactionUid ≠ row.interactionUid →
    current.interactionUid = entity.interactionUid
  codeVerifier : entity.codeVerifier ≠ row.codeVerifier →
    current.codeVerifier = entity.codeVerifier
  tenantId : entity.tenantId ≠ row.tenantId → current.tenantId = entity.tenantId
  tenantUserId : entity.tenantUserId ≠ row.tenantUserId →
    current.tenantUserId = entity.tenantUserId
  createdAt : entity.createdAt ≠ row.createdAt → current.createdAt = entity.createdAt
  expiresAt : entity.expiresAt ≠ row.expiresAt → current.expiresAt = entity.expiresAt
  consumedAt : entity.consumedAt ≠ row.consumedAt → current.consumedAt = entity.consumedAt

/-- The row that the save is about to update is open and has the state of the callback, or
there is nothing left to write. -/
def FindsOpen (db : LoginStore) (entity : OidcUpstreamInteraction)
    (row : Option OidcUpstreamInteraction) : Prop :=
  ∀ read, row = some read → ∀ current ∈ db.rows, current.id = entity.id →
    (current.consumedAt = none ∧ current.state = entity.state) ∨ HasWritten read entity current

def SavesOpen (db : LoginStore) : LoginCall → LoginEvent → Prop
  | .writingUser _ _ entity row, .next _ => FindsOpen db entity row
  | .writingConsumed _ _ entity row, .next _ => FindsOpen db entity row
  | _, _ => True

theorem hasWritten_iff {row entity current : OidcUpstreamInteraction} :
    HasWritten row entity current ↔
      (writeColumns row entity current).columns = current.columns := by
  simp only [OidcUpstreamInteraction.columns, writeColumns, Table.written_eq_current,
    OidcUpstreamInteraction.mk.injEq, true_and, and_true]
  constructor
  · intro h
    exact ⟨h.state, h.nonce, h.interactionUid, h.codeVerifier, h.tenantId, h.tenantUserId,
      h.createdAt, h.expiresAt, h.consumedAt⟩
  · intro ⟨hstate, hnonce, huid, hverifier, htenant, huser, hcreated, hexpires, hconsumed⟩
    exact ⟨hstate, hnonce, huid, hverifier, htenant, huser, hcreated, hexpires, hconsumed⟩

/-! ### Invariant -/

structure RowsInv (db : LoginStore) : Prop where
  ids : Table.UniqueKeys OidcUpstreamInteraction.id db.rows
  rowStates : Table.UniqueKeys OidcUpstreamInteraction.state db.rows
  rowUids : Table.UniqueKeys OidcUpstreamInteraction.interactionUid db.rows
  rows : ∀ r ∈ db.rows, Drawn db r
  states : Table.UniqueKeys Prod.fst db.issued
  drawnIds : Table.UniqueKeys Prod.fst db.drawnIds

structure Read (db : LoginStore) (request : CallbackRequest) (entity : OidcUpstreamInteraction) :
    Prop extends Drawn db entity where
  state : entity.state = request.state

/-- Also, what the save has read under the id of the entity. -/
structure ReadAgain (db : LoginStore) (request : CallbackRequest)
    (entity : OidcUpstreamInteraction) (row : Option OidcUpstreamInteraction) : Prop
    extends Read db request entity where
  row : ∀ read, row = some read → Drawn db read ∧ read.id = entity.id

def CallRead (db : LoginStore) : LoginCall → Prop
  | .savingUser request _ entity => Read db request entity
  | .writingUser request _ entity row => ReadAgain db request entity row
  | .savingConsumed request _ entity => Read db request entity
  | .writingConsumed request _ entity row => ReadAgain db request entity row
  | _ => True

section Step

variable {challenge : String → String} {db db' : LoginStore} {pc pc' : LoginCall} {e : LoginEvent}
  {rows' : List OidcUpstreamInteraction} {entity current read r r' : OidcUpstreamInteraction}
  {row : Option OidcUpstreamInteraction} {request : CallbackRequest}

theorem putInteraction_saved (h : putInteraction db.rows entity = .ok rows') :
    rows' = Table.save OidcUpstreamInteraction.id entity db.rows ∧
      ∀ r ∈ db.rows, r.id ≠ entity.id →
        r.state ≠ entity.state ∧ r.interactionUid ≠ entity.interactionUid := by
  unfold putInteraction at h
  dsimp only at h
  split at h
  · cases h
  next hstate =>
    split at h
    · cases h
    next huid =>
      simp only [List.any_filter, List.any_eq_true, Bool.and_eq_true, decide_eq_true_eq,
        not_exists, not_and] at hstate huid
      exact ⟨(Except.ok.inj h).symm, fun r hr hid => ⟨hstate r hr hid, huid r hr hid⟩⟩

theorem putInteraction_eq_ok (h : ∀ r ∈ db.rows, r.id ≠ entity.id →
      r.state ≠ entity.state ∧ r.interactionUid ≠ entity.interactionUid) :
    putInteraction db.rows entity =
      .ok (Table.save OidcUpstreamInteraction.id entity db.rows) := by
  unfold putInteraction
  rw [if_neg, if_neg]
  · simp only [List.any_filter, List.any_eq_true, Bool.and_eq_true, decide_eq_true_eq,
      not_exists, not_and]
    exact fun r hr hid => (h r hr hid).2
  · simp only [List.any_filter, List.any_eq_true, Bool.and_eq_true, decide_eq_true_eq,
      not_exists, not_and]
    exact fun r hr hid => (h r hr hid).1

theorem mem_put (hi : RowsInv db) (h : putInteraction db.rows entity = .ok rows')
    (hr : r ∈ db.rows) (hr' : r' ∈ rows') (huid : r'.interactionUid = r.interactionUid) :
    r' = r ∨ (r' = entity ∧ r.id = entity.id ∧ r.interactionUid = entity.interactionUid) := by
  obtain ⟨hrows, hother⟩ := putInteraction_saved h
  rw [hrows] at hr'
  rcases Table.eq_or_mem_of_mem_save hr' with rfl | hmem
  · by_cases hid : r.id = r'.id
    · exact Or.inr ⟨rfl, hid, huid.symm⟩
    · exact absurd huid.symm (hother r hr hid).2
  · exact Or.inl (Table.eq_of_key hi.rowUids hmem hr huid)

theorem rowsInv_put (hi : RowsInv db) {issued drawnIds : List (String × String)}
    (hissued : ∀ i ∈ db.issued, i ∈ issued) (hstates : Table.UniqueKeys Prod.fst issued)
    (hdrawn : ∀ i ∈ db.drawnIds, i ∈ drawnIds) (hids : Table.UniqueKeys Prod.fst drawnIds)
    (hstate : (entity.state, entity.interactionUid) ∈ issued)
    (hid : (entity.id, entity.interactionUid) ∈ drawnIds)
    (hput : putInteraction db.rows entity = .ok rows') :
    RowsInv { db with rows := rows', issued, drawnIds } := by
  obtain ⟨hrows, hother⟩ := putInteraction_saved hput
  subst hrows
  refine ⟨Table.uniqueKeys_save entity hi.ids,
    Table.uniqueKeys_save_col hi.ids hi.rowStates fun r hr hid => (hother r hr hid).1,
    Table.uniqueKeys_save_col hi.ids hi.rowUids fun r hr hid => (hother r hr hid).2,
    fun r hr => ?_, hstates, hids⟩
  rcases Table.eq_or_mem_of_mem_save hr with rfl | hmem
  · exact ⟨hstate, hid⟩
  · exact ⟨hissued _ (hi.rows r hmem).issued, hdrawn _ (hi.rows r hmem).drawn⟩

/-! ### The save of a callback -/

/-- Every row with the state of the callback is one of its interaction. -/
theorem eq_of_read (hi : RowsInv db) (hread : Read db request entity) (hcurrent : current ∈ db.rows)
    (hid : current.id = entity.id) (hr : r ∈ db.rows)
    (hissued : (request.state, r.interactionUid) ∈ db.issued) : r = current := by
  have huid : current.interactionUid = entity.interactionUid :=
    uid_of_id hi.drawnIds (hi.rows current hcurrent) hread.toDrawn hid
  have hentity := hread.issued
  rw [hread.state, ← huid] at hentity
  exact Table.eq_of_key hi.rowUids hr hcurrent
    (congrArg Prod.snd (Table.eq_of_key hi.states hissued hentity rfl))

theorem spent_iff (hi : RowsInv db) (hread : Read db request entity) (hcurrent : current ∈ db.rows)
    (hid : current.id = entity.id) :
    Spent db request.state ↔ ¬ (current.consumedAt = none ∧ current.state = entity.state) := by
  constructor
  · rintro (⟨r, hr, hstate, hconsumed⟩ | ⟨r, hr, hissued, hstate⟩) ⟨hnone, hcurrentState⟩
    · have hissued := (hi.rows r hr).issued
      rw [hstate] at hissued
      exact hconsumed (eq_of_read hi hread hcurrent hid hr hissued ▸ hnone)
    · rw [eq_of_read hi hread hcurrent hid hr hissued] at hstate
      exact hstate (hcurrentState.trans hread.state)
  · intro hclosed
    by_cases hstate : current.state = request.state
    · exact Or.inl ⟨current, hcurrent, hstate, fun hnone =>
        hclosed ⟨hnone, hstate.trans hread.state.symm⟩⟩
    · have hissued := hread.issued
      rw [hread.state, ← uid_of_id hi.drawnIds (hi.rows current hcurrent) hread.toDrawn hid]
        at hissued
      exact Or.inr ⟨current, hcurrent, hissued, hstate⟩

/-- An update of the row of a callback breaks no constraint. -/
theorem put_writeColumns (hi : RowsInv db) (hread : ReadAgain db request entity (some read))
    (hcurrent : current ∈ db.rows) (hid : current.id = entity.id) :
    Drawn db (writeColumns read entity current) ∧
      putInteraction db.rows (writeColumns read entity current) =
        .ok (Table.save OidcUpstreamInteraction.id (writeColumns read entity current) db.rows) := by
  obtain ⟨hrow, hreadId⟩ := hread.row read rfl
  have hnew : Drawn db (writeColumns read entity current) :=
    drawn_writeColumns hi.drawnIds hrow hread.toDrawn (hi.rows current hcurrent) hreadId hid
  obtain ⟨huid, hnewUid⟩ := writeColumns_uid hi.drawnIds hrow hread.toDrawn
    (hi.rows current hcurrent) hreadId hid
  refine ⟨hnew, putInteraction_eq_ok fun r hr hne => ?_⟩
  have hother : r.interactionUid ≠ (writeColumns read entity current).interactionUid := by
    intro he
    rw [hnewUid, ← huid] at he
    have hsame : r = current := Table.eq_of_key hi.rowUids hr hcurrent he
    rw [hsame] at hne
    exact hne rfl
  refine ⟨fun hstate => hother ?_, hother⟩
  have hissued := (hi.rows r hr).issued
  rw [hstate] at hissued
  exact congrArg Prod.snd (Table.eq_of_key hi.states hissued hnew.issued rfl)

theorem update_iff (hi : RowsInv db) (hread : ReadAgain db request entity (some read))
    (hstate : pc.callbackState = some request.state) (hcurrent : current ∈ db.rows)
    (hid : current.id = entity.id) :
    ((current.consumedAt = none ∧ current.state = entity.state) ∨ HasWritten read entity current) ↔
      KeepsConsumed db pc e { db with
        rows := Table.save OidcUpstreamInteraction.id (writeColumns read entity current) db.rows } := by
  obtain ⟨-, hput⟩ := put_writeColumns hi hread hcurrent hid
  have hspent := spent_iff hi hread.toRead hcurrent hid
  have hcolumns : (Table.save OidcUpstreamInteraction.id (writeColumns read entity current)
        db.rows).map OidcUpstreamInteraction.columns = db.rows.map OidcUpstreamInteraction.columns ↔
      (writeColumns read entity current).columns = current.columns :=
    Table.map_save_eq_iff hi.ids hcurrent rfl
  constructor
  · intro hopen
    refine ⟨fun r hr hconsumed _ r' hr' huid => ?_, fun state hs hsp => ?_⟩
    · rcases mem_put hi hput hr hr' huid with rfl | ⟨rfl, hrid, -⟩
      · exact ⟨rfl, rfl⟩
      · obtain rfl : r = current := Table.eq_of_key hi.ids hr hcurrent hrid
        have hleft := hopen.resolve_left fun h => hconsumed h.1
        exact ⟨Table.written_eq_current.mpr hleft.tenantUserId,
          Table.written_eq_current.mpr hleft.consumedAt⟩
    · rw [hstate, Option.some.injEq] at hs
      have hclosed := hspent.mp (hs ▸ hsp)
      exact hcolumns.mpr (hasWritten_iff.mp (hopen.resolve_left hclosed))
  · intro hkeeps
    by_cases hopen : current.consumedAt = none ∧ current.state = entity.state
    · exact Or.inl hopen
    · exact Or.inr (hasWritten_iff.mpr (hcolumns.mp
        (hkeeps.2 request.state hstate (hspent.mpr hopen))))

/-- An entity whose row is gone is inserted only where the interaction has no row. -/
theorem insert_keeps (hi : RowsInv db) (hread : Read db request entity)
    (hstate : pc.callbackState = some request.state)
    (hnew : ∀ r ∈ db.rows, r.id ≠ entity.id)
    (hput : putInteraction db.rows entity = .ok rows') :
    KeepsConsumed db pc e { db with rows := rows' } := by
  obtain ⟨-, hother⟩ := putInteraction_saved hput
  refine ⟨fun r hr _ _ r' hr' huid => ?_, fun state hs hspent => ?_⟩
  · rcases mem_put hi hput hr hr' huid with rfl | ⟨-, hid, -⟩
    · exact ⟨rfl, rfl⟩
    · exact absurd hid (hnew r hr)
  · rw [hstate, Option.some.injEq] at hs
    subst hs
    have hissued := hread.issued
    rw [hread.state] at hissued
    rcases hspent with ⟨r, hr, hrstate, -⟩ | ⟨r, hr, hrissued, -⟩
    · exact absurd (hrstate.trans hread.state.symm) (hother r hr (hnew r hr)).1
    · exact absurd (congrArg Prod.snd (Table.eq_of_key hi.states hrissued hissued rfl))
        (hother r hr (hnew r hr)).2

theorem quiet_keeps (hi : RowsInv db) (hrows : db'.rows = db.rows) : KeepsConsumed db pc e db' := by
  refine ⟨fun r hr _ _ r' hr' huid => ?_, fun _ _ _ => by rw [hrows]⟩
  rw [hrows] at hr'
  rw [Table.eq_of_key hi.rowUids hr' hr huid]
  exact ⟨rfl, rfl⟩

theorem findsOpen_iff (hi : RowsInv db) (hread : ReadAgain db request entity row)
    (hstate : pc.callbackState = some request.state)
    (hsave : saveInteraction db.rows entity row = .ok rows') :
    FindsOpen db entity row ↔ KeepsConsumed db pc e { db with rows := rows' } := by
  cases row with
  | none =>
    simp only [saveInteraction] at hsave
    split at hsave
    · cases hsave
    next hnew =>
      simp only [List.any_eq_true, decide_eq_true_eq, not_exists, not_and] at hnew
      exact ⟨fun _ => insert_keeps hi hread.toRead hstate hnew hsave, fun _ _ hrow => by cases hrow⟩
  | some read =>
    simp only [saveInteraction] at hsave
    split at hsave
    next hgone =>
      cases hsave
      refine ⟨fun _ => quiet_keeps hi rfl, fun _ read' _ current hcurrent hid => ?_⟩
      exact absurd (Table.lookup_eq_some_iff hi.ids |>.mpr ⟨hcurrent, hid⟩) (by simp [hgone])
    next current hlookup =>
      obtain ⟨hcurrent, hid⟩ := Table.mem_of_lookup hlookup
      have hiff := update_iff (e := e) hi hread hstate hcurrent hid
      rw [(put_writeColumns hi hread hcurrent hid).2] at hsave
      cases hsave
      refine ⟨fun hopen => hiff.mp (hopen read rfl current hcurrent hid), fun hkeeps => ?_⟩
      intro read' hread' current' hcurrent' hid'
      cases hread'
      rw [Table.eq_of_key hi.ids hcurrent' hcurrent (hid'.trans hid.symm)]
      exact hiff.mpr hkeeps

/-- Only the insert of an entity can fail. -/
theorem findsOpen_of_error (hi : RowsInv db) (hread : ReadAgain db request entity row)
    {message : String} (hsave : saveInteraction db.rows entity row = .error message) :
    FindsOpen db entity row := by
  intro read hrow current hcurrent hid
  subst hrow
  have hlookup := (Table.lookup_eq_some_iff hi.ids).mpr ⟨hcurrent, hid⟩
  simp only [saveInteraction, hlookup, (put_writeColumns hi hread hcurrent hid).2] at hsave
  cases hsave

theorem rowsInv_save (hi : RowsInv db) (hread : ReadAgain db request entity row)
    (hsave : saveInteraction db.rows entity row = .ok rows') :
    RowsInv { db with rows := rows' } := by
  cases row with
  | none =>
    simp only [saveInteraction] at hsave
    split at hsave
    · cases hsave
    · exact rowsInv_put hi (fun _ h => h) hi.states (fun _ h => h) hi.drawnIds hread.issued
        hread.drawn hsave
  | some read =>
    simp only [saveInteraction] at hsave
    split at hsave
    · cases hsave
      exact ⟨hi.ids, hi.rowStates, hi.rowUids, fun r hr => ⟨(hi.rows r hr).issued,
        (hi.rows r hr).drawn⟩, hi.states, hi.drawnIds⟩
    next current hlookup =>
      obtain ⟨hcurrent, hid⟩ := Table.mem_of_lookup hlookup
      have hnew := (put_writeColumns hi hread hcurrent hid).1
      exact rowsInv_put hi (fun _ h => h) hi.states (fun _ h => h) hi.drawnIds hnew.issued
        hnew.drawn hsave

/-! ### Every step -/

theorem keepsConsumed_initiate (hi : RowsInv db) {details : InteractionDetails}
    {tenantId : TenantId} {draw : Draw} {now : Time} {issued drawnIds : List (String × String)}
    (hstore : storeInteraction db.rows draw details.uid tenantId now = .ok rows') :
    KeepsConsumed db (.initiating details tenantId) (.initiate draw now)
      { db with rows := rows', issued, drawnIds } := by
  refine ⟨fun r hr _ hother r' hr' huid => ?_, fun state hs => by cases hs⟩
  unfold storeInteraction upsertByInteractionUid at hstore
  split at hstore
  · cases hstore
  · rcases mem_put hi hstore hr hr' huid with rfl | ⟨rfl, -, huid'⟩
    · exact ⟨rfl, rfl⟩
    · exact absurd huid'.symm hother

theorem rowsInv_initiate (hi : RowsInv db) {uid : String} {tenantId : TenantId} {draw : Draw}
    {now : Time} (hnew : ∀ i ∈ db.issued, i.1 ≠ draw.state)
    (hnewId : ∀ i ∈ db.drawnIds, i.1 ≠ draw.id)
    (hstore : storeInteraction db.rows draw uid tenantId now = .ok rows') :
    RowsInv { db with
      rows := rows'
      issued := (draw.state, uid) :: db.issued
      drawnIds := (draw.id, uid) :: db.drawnIds } := by
  have hid : ((upsertedRow db.rows draw uid tenantId (now + interactionTtl) now).id, uid) ∈
      (draw.id, uid) :: db.drawnIds := by
    rcases upsertedRow_id db.rows draw uid tenantId (now + interactionTtl) now with
      hid | ⟨old, hold, huid, hid⟩
    · rw [hid]
      exact List.mem_cons_self ..
    · rw [hid, ← huid]
      exact List.mem_cons_of_mem _ (hi.rows old hold).drawn
  unfold storeInteraction upsertByInteractionUid at hstore
  split at hstore
  · cases hstore
  · exact rowsInv_put hi (fun i h => List.mem_cons_of_mem _ h) (uniqueKeys_cons hi.states hnew)
      (fun i h => List.mem_cons_of_mem _ h) (uniqueKeys_cons hi.drawnIds hnewId)
      (List.mem_cons_self ..) hid hstore

theorem rowsInv_purge (hi : RowsInv db) (limit : ℕ) (now : Time) :
    RowsInv { db with rows := purgeExpiredUpstreamInteractionsBatch db.rows limit now } :=
  ⟨Table.uniqueKeys_deleteWhere _ hi.ids, Table.uniqueKeys_deleteWhere _ hi.rowStates,
    Table.uniqueKeys_deleteWhere _ hi.rowUids, fun r hr =>
      ⟨(hi.rows r (mem_of_mem_purge hr)).issued, (hi.rows r (mem_of_mem_purge hr)).drawn⟩,
    hi.states, hi.drawnIds⟩

theorem rowsInv_of_rows (hi : RowsInv db) (hrows : db'.rows = db.rows)
    (hissued : db'.issued = db.issued) (hdrawn : db'.drawnIds = db.drawnIds) : RowsInv db' := by
  refine ⟨hrows ▸ hi.ids, hrows ▸ hi.rowStates, hrows ▸ hi.rowUids, fun r hr => ?_,
    hissued ▸ hi.states, hdrawn ▸ hi.drawnIds⟩
  have hold := hi.rows r (hrows ▸ hr)
  exact ⟨hissued ▸ hold.issued, hdrawn ▸ hold.drawn⟩

theorem quiet_step (hi : RowsInv db) (hrows : db'.rows = db.rows)
    (hissued : db'.issued = db.issued) (hdrawn : db'.drawnIds = db.drawnIds) :
    KeepsConsumed db pc e db' ∧ RowsInv db' :=
  ⟨quiet_keeps hi hrows, rowsInv_of_rows hi hrows hissued hdrawn⟩

theorem saving_step (hi : RowsInv db) (hread : ReadAgain db request entity row)
    (hstate : pc.callbackState = some request.state)
    (hsave : saveInteraction db.rows entity row = .ok rows') (hopen : FindsOpen db entity row) :
    KeepsConsumed db pc e { db with rows := rows' } ∧ RowsInv { db with rows := rows' } :=
  ⟨(findsOpen_iff hi hread hstate hsave).mp hopen, rowsInv_save hi hread hsave⟩

theorem effect_keeps (hi : RowsInv db) (hl : CallRead db pc)
    (h : LoginEffect challenge db pc e db' pc') (hc : SavesOpen db pc e) :
    KeepsConsumed db pc e db' ∧ RowsInv db' := by
  cases h with
  | purge limit now =>
    refine ⟨⟨fun r hr _ _ r' hr' huid => ?_, nofun⟩, rowsInv_purge hi limit now⟩
    rw [Table.eq_of_key hi.rowUids (mem_of_mem_purge hr') hr huid]
    exact ⟨rfl, rfl⟩
  | initiate details tenantId draw now hnew hnewId rows hstore response =>
    exact ⟨keepsConsumed_initiate hi hstore, rowsInv_initiate hi hnew hnewId hstore⟩
  | saveUser request loaded entity row now rows hsave => exact saving_step hi hl rfl hsave hc
  | saveConsumed request loaded entity row now rows hsave response =>
    exact saving_step hi hl rfl hsave hc
  | _ => exact quiet_step hi rfl rfl rfl

theorem findsOpen_of_saved (hi : RowsInv db) (hread : ReadAgain db request entity row)
    (hstate : pc.callbackState = some request.state) {k : LoginCall}
    (ha : saveEntity db entity row k = (db', pc')) (hkeeps : KeepsConsumed db pc e db') :
    FindsOpen db entity row := by
  cases hsave : saveInteraction db.rows entity row with
  | error message => exact findsOpen_of_error hi hread hsave
  | ok rows =>
    simp only [saveEntity, hsave] at ha
    cases ha
    exact (findsOpen_iff hi hread hstate hsave).mpr hkeeps

theorem savesOpen_of_keeps (hi : RowsInv db) (hl : CallRead db pc)
    (ha : loginAct challenge db pc e = some (db', pc')) (hkeeps : KeepsConsumed db pc e db') :
    SavesOpen db pc e := by
  cases pc with
  | writingUser request loaded entity row =>
    cases e with
    | next now => exact findsOpen_of_saved hi hl rfl (Option.some.inj ha) hkeeps
    | _ => trivial
  | writingConsumed request loaded entity row =>
    cases e with
    | next now => exact findsOpen_of_saved hi hl rfl (Option.some.inj ha) hkeeps
    | _ => trivial
  | _ => trivial

theorem readAgain_findSaved (hi : RowsInv db) (h : Read db request entity) :
    ReadAgain db request entity (findSaved db entity) := by
  refine ⟨h, fun read hread => ?_⟩
  obtain ⟨hmem, hid⟩ := Table.mem_of_lookup hread
  exact ⟨hi.rows read hmem, hid⟩

theorem callRead_effect (hi : RowsInv db) (hl : CallRead db pc)
    (h : LoginEffect challenge db pc e db' pc') : CallRead db' pc' := by
  cases h with
  | setUser request loaded tenantUserId now entity hentity =>
    obtain ⟨r, hr, hstate, rfl⟩ := setTenantUserIdForInteraction_ok hentity
    exact ⟨⟨(hi.rows r hr).issued, (hi.rows r hr).drawn⟩, hstate⟩
  | consume request loaded now entity hentity =>
    obtain ⟨r, hr, hstate, rfl⟩ := consumeInteraction_ok hentity
    exact ⟨⟨(hi.rows r hr).issued, (hi.rows r hr).drawn⟩, hstate⟩
  | readUser request loaded entity now => exact readAgain_findSaved hi hl
  | readConsumed request loaded entity now => exact readAgain_findSaved hi hl
  | _ => trivial

theorem read_mono (hg : Grows db db') (h : Read db request entity) : Read db' request entity :=
  ⟨drawn_mono hg h.toDrawn, h.state⟩

theorem readAgain_mono (hg : Grows db db') (h : ReadAgain db request entity row) :
    ReadAgain db' request entity row :=
  ⟨read_mono hg h.toRead, fun read hread =>
    ⟨drawn_mono hg (h.row read hread).1, (h.row read hread).2⟩⟩

theorem callRead_mono (hg : Grows db db') (h : CallRead db pc) : CallRead db' pc := by
  cases pc with
  | savingUser request loaded entity => exact read_mono hg h
  | writingUser request loaded entity row => exact readAgain_mono hg h
  | savingConsumed request loaded entity => exact read_mono hg h
  | writingConsumed request loaded entity row => exact readAgain_mono hg h
  | _ => trivial

end Step

/-! ### Runs -/

def KeepsConsumedAt (w : LoginWorld) (l : ℕ × LoginEvent) (w' : LoginWorld) : Prop :=
  KeepsConsumed w.db (w.calls l.1) l.2 w'.db

/-- In every run, consumed logins are final and spent states are without effect if and only
if every update of a callback finds its row open and with its own state, or has nothing left
to write. -/
theorem single_use_iff (calculatePKCECodeChallenge : String → String)
    (events : List (ℕ × LoginEvent)) :
    Run.All (loginStep calculatePKCECodeChallenge) KeepsConsumedAt ⟨{}, fun _ => .idle⟩ events ↔
      Run.All (loginStep calculatePKCECodeChallenge) (Run.Before SavesOpen) ⟨{}, fun _ => .idle⟩
        events := by
  symm
  refine Run.all_iff_of_invariant (Run.Holds RowsInv CallRead) ?_ ?_ ⟨?_, fun _ => trivial⟩
  · intro w l w' hw hs
    obtain ⟨db', pc', ha, rfl⟩ := Run.interleave_cases hs
    have hl := hw.2 l.1
    exact ⟨fun hc => (effect_keeps hw.1 hl (loginAct_effect ha) hc).1,
      savesOpen_of_keeps hw.1 hl ha⟩
  · intro w l w' hw hs hc
    refine Run.holds_interleave (C := SavesOpen) ?_ ?_ hw hs hc
    · intro db pc e db' pc' hi hl ha hc
      have heffect := loginAct_effect ha
      exact ⟨(effect_keeps hi hl heffect hc).2, callRead_effect hi hl heffect⟩
    · intro db pc e db' pc' other _ _ ho ha _
      exact callRead_mono (effect_grows (loginAct_effect ha)) ho
  · exact ⟨List.nodup_nil, List.nodup_nil, List.nodup_nil, by simp, List.nodup_nil,
      List.nodup_nil⟩

/-! ### A second code for a consumed login -/

def secondUser : TenantUser := { signedInUser with id := "v", externalUserId := some "sub-2" }

def twoUsersPort : OidcTenantUserPort :=
  { tenantUserPort with
    findActiveByExternalUserId := fun sub =>
      if sub = "sub" then [signedInUser] else [secondUser] }

/-- One authorization URL, visited by two users: the first callback consumes the login, and
the second one carries the same state with a code of its own. -/
def replayedLogin : List (ℕ × LoginEvent) :=
  [(0, .authorize
      { uid := "i", browser := 0, prompt := .login, clientId := some "spa", accountId := none
        promptDetails := { missingOIDCScope := some ["openid"] } }),
    (1, .interaction 0 "i"),
    (1, .findActiveClient (some spaClient)),
    (1, .initiate ⟨"dBjftJeZ4CVP-mB92K27uhbUJU1p1r_wW1gFWFOEjXk", "s", "n", "r"⟩ 0),
    (2, .upstreamLogin 0 ⟨"s", "n", "E9Melhoa2OwvFrEMTJguCHaoeK1t8URWbuGJSstw_cM"⟩ "c"
      ⟨"sub", none, none⟩),
    (2, .upstreamLogin 1 ⟨"s", "n", "E9Melhoa2OwvFrEMTJguCHaoeK1t8URWbuGJSstw_cM"⟩ "d"
      ⟨"sub-2", none, none⟩),
    (3, .callback { browser := 0, code := some "c", state := some "s" } 1000),
    (3, .exchange "invalid_grant"),
    (3, .resolve twoUsersPort),
    (3, .next 1000), (3, .next 1000), (3, .next 1000), (3, .next 1000), (3, .next 1000),
    (3, .next 1000),
    (4, .callback { browser := 1, code := some "d", state := some "s" } 2000),
    (4, .exchange "invalid_grant"),
    (4, .resolve twoUsersPort),
    (4, .next 2000), (4, .next 2000)]

theorem consumed_login_changed : ¬ ∀ (calculatePKCECodeChallenge : String → String)
    (events : List (ℕ × LoginEvent)),
    Run.Enabled (loginStep calculatePKCECodeChallenge) ⟨{}, fun _ => .idle⟩ events →
    Run.All (loginStep calculatePKCECodeChallenge) KeepsConsumedAt ⟨{}, fun _ => .idle⟩
      events := by
  intro hall
  have hrun := hall s256 (replayedLogin ++ [(4, .next 2000)])
    (Run.enabled_of_final (by decide +kernel))
  obtain ⟨w, w', hkeeps, hq⟩ := Run.all_last hrun
    (fun w w' => decide (∃ r ∈ w.db.rows, ∃ r' ∈ w'.db.rows,
      r.consumedAt = some 1000 ∧ r'.interactionUid = r.interactionUid ∧
        r.tenantUserId = some "u" ∧ r'.tenantUserId = some "v"))
    (by decide +kernel)
  obtain ⟨r, hr, r', hr', hconsumed, huid, huser, huser'⟩ := of_decide_eq_true hq
  have hnext : ¬ Reinitiates r.interactionUid (w.calls 4) (.next 2000) := by
    cases w.calls 4 <;> exact id
  have hsame := (hkeeps.1 r hr (by simp [hconsumed]) hnext r' hr' huid).1
  rw [huser, huser'] at hsame
  revert hsame
  decide

end VcCommonService.Oidc
