import VcCommonService.Oidc.SessionLimit

/-!
# The session cap under concurrent logins

The statement that begins last sees every session of the account. What is left when it has ended
are its own session, the rows it has passed over, and the rows it had to skip; a skipped row goes
when the statement that holds it has marked it, and stays when that statement has passed over it.
The newest session is the first row of every other snapshot and is passed over, if anything is.
So the cap and the newest session are kept while no statement meets a row that another one has
passed over, and the newest session of the logins is among the rows that a statement keeps.
-/

namespace VcCommonService.Oidc
open Lib

section Cap

variable {κ : Type} [LinearOrder κ] (collate : String → κ) (accountId : String) (limit : ℕ)

/-! ### The property and its condition -/

def sessionsOf (w : SessionWorld) : List AccountRow := w.calls.map EnforceCall.session

structure IsNewest (s : AccountRow) (sessions : List AccountRow) : Prop where
  mem : s ∈ sessions
  newest : ∀ r ∈ sessions, r ≠ s → newness collate r < newness collate s

/-- The newest session of the logins is no candidate of the statement that begins, or fewer
candidates come before it than the statement keeps. -/
def KeepsNewest (w : SessionWorld) (sid : String) (now : Time) : Prop :=
  ∀ s ∈ sessionsOf w, (∀ r ∈ sessionsOf w, r ≠ s → newness collate r < newness collate s) →
    isCandidate accountId (some sid) now s = true →
    (w.rows.countP fun r => isCandidate accountId (some sid) now r &&
      (decide (r ≠ s) && decide (newness collate s ≤ newness collate r))) < limit - 1

/-- The next row of the statement is not one that another running statement has passed over. -/
def MeetsNoPassed (w : SessionWorld) (sid : String) : Prop :=
  ∀ c ∈ w.calls, c.sid = sid → ∀ d ∈ w.calls, d.sid ≠ sid → d.phase = .claiming →
    ∀ id ∈ c.pending.head?, id ∉ d.passed

def Undisturbed (w : SessionWorld) (l : String × EnforceEvent) (_ : SessionWorld) : Prop :=
  (∀ now, l.2 = .beginClaim now → KeepsNewest collate accountId limit w l.1 now) ∧
    (l.2 = .fetch → MeetsNoPassed w l.1)

def AllReturned (w : SessionWorld) : Prop :=
  w.calls ≠ [] ∧ ∀ c ∈ w.calls, ∃ result, c.phase = .returned result

/-- At time `t` the account is within its limit, and the newest session of the logins is there. -/
structure Capped (t : Time) (w : SessionWorld) : Prop where
  cap : countActiveSessions w.rows accountId t ≤ limit
  newest : ∀ s, IsNewest collate s (sessionsOf w) → s ∈ w.rows

/-- Logins that have all returned, in any overlap of their statements. The database keeps the
primary key, and the provider stores no `grantId` in the payload of a session. -/
structure CompletedLogins (rows : List AccountRow) (t : Time)
    (events : List (String × EnforceEvent)) (w : SessionWorld) : Prop where
  keys : Table.UniqueKeys AccountRow.key rows
  grants : ∀ r ∈ rows, r.modelName = "Session" → r.grantId = none
  run : Run.final (enforceStep collate accountId limit) { rows } events = some w
  times : ∀ l ∈ events, ∀ now, l.2 = .beginClaim now → now ≤ t
  returned : AllReturned w

/-! ### Invariant -/

def Phase.begun : Phase → Bool
  | .persisted | .counted => false
  | _ => true

structure CallOk (c : EnforceCall) : Prop where
  model : c.session.modelName = "Session"
  named : c.sid ≠ ""
  idle : c.phase.begun = false → c.passed = []
  quiet : c.phase ≠ .claiming → c.pending = []
  nodup : c.pending.Nodup
  passed : c.passed.length ≤ limit - 1
  evicted : ∀ r ∈ c.evicted, r.oidcId ∈ c.claimed

/-- The session with this id is not marked, and will be passed over or skipped. -/
structure Spares (id : String) (c : EnforceCall) : Prop where
  claimed : id ∉ c.claimed
  pending : id ∈ c.pending → id ∈ c.pending.take (limit - 1 - c.passed.length)

/-- Where a session stands that the latest statement `c` may leave. -/
def Accounted (calls : List EnforceCall) (c : EnforceCall) (id : String) : Prop :=
  id = c.sid ∨ id ∈ c.pending ∨ id ∈ c.passed ∨
    (∃ d ∈ calls, d.phase = .claiming ∧ id ∈ d.claimed) ∨
    ∃ d ∈ calls, d.phase.begun = false ∧ d.sid = id

structure SessionInv (t : Time) (w : SessionWorld) : Prop where
  keys : Table.UniqueKeys AccountRow.key w.rows
  grants : ∀ r ∈ w.rows, r.modelName = "Session" → r.grantId = none
  sids : Table.UniqueKeys EnforceCall.sid w.calls
  calls : ∀ c ∈ w.calls, CallOk limit c
  begun : ∀ c ∈ w.calls, c.phase.begun = true → w.latest ≠ none
  latest : ∀ sid, w.latest = some sid → sid ∈ w.calls.map EnforceCall.sid
  cover : ∀ c ∈ w.calls, w.latest = some c.sid → ∀ r ∈ w.rows,
    isActiveSession accountId t r = true → Accounted w.calls c r.oidcId
  newest : ∀ s, IsNewest collate s (sessionsOf w) →
    s ∈ w.rows ∧ ∀ c ∈ w.calls, Spares limit s.oidcId c

variable {collate accountId limit} {w w' : SessionWorld} {c c' : EnforceCall} {e : EnforceEvent}
  {rows : List AccountRow} {id : String}

/-! ### One statement -/

theorem fetchRow_cases (w : SessionWorld) (hc : CallOk limit c) (id : String) (rest : List String) :
    (fetchRow limit w c id rest = { c with pending := rest } ∧
      ((∀ r ∈ w.rows, r.key ≠ ("Session", id)) ∨
        ∃ d ∈ w.calls, d.sid ≠ c.sid ∧ d.phase = .claiming ∧ (id ∈ d.passed ∨ id ∈ d.claimed))) ∨
    (fetchRow limit w c id rest = { c with pending := rest, passed := c.passed ++ [id] } ∧
      c.passed.length < limit - 1) ∨
    (fetchRow limit w c id rest = { c with pending := rest, claimed := c.claimed ++ [id] } ∧
      limit - 1 ≤ c.passed.length) := by
  have hkeep : keep limit (some c.sid) = limit - 1 := by simp [keep, hc.named]
  unfold fetchRow
  rw [hkeep]
  split
  next hskip =>
    refine Or.inl ⟨rfl, ?_⟩
    rcases Bool.or_eq_true_iff.mp hskip with hgone | hlocked
    · refine Or.inl fun r hr => ?_
      simp only [Bool.not_eq_true', List.any_eq_false, decide_eq_true_eq] at hgone
      exact hgone r hr
    · obtain ⟨d, hd, hlock⟩ := List.any_eq_true.mp hlocked
      simp only [EnforceCall.locks, Bool.and_eq_true, decide_eq_true_eq, Bool.or_eq_true,
        List.contains_iff_mem] at hlock
      exact Or.inr ⟨d, hd, hlock.1, hlock.2.1, hlock.2.2⟩
  · split
    next hlt => exact Or.inr (Or.inl ⟨rfl, hlt⟩)
    next hge => exact Or.inr (Or.inr ⟨rfl, Nat.not_lt.mp hge⟩)

theorem finishCall_eq (limit : ℕ) (c : EnforceCall) (evicted : List AccountRow) :
    ∃ phase evicted', finishCall limit c evicted = { c with phase, evicted := evicted' } ∧
      phase.begun = true ∧ phase ≠ .claiming ∧ (evicted' = c.evicted ∨ evicted' = evicted) := by
  unfold finishCall
  split
  · exact ⟨_, _, rfl, rfl, nofun, Or.inl rfl⟩
  · exact ⟨_, _, rfl, rfl, nofun, Or.inr rfl⟩

theorem callMove_session (hc : CallOk limit c)
    (h : CallMove collate accountId limit w c e rows c') : c'.session = c.session := by
  cases h with
  | counted now hphase => rfl
  | begun now hphase => rfl
  | fetched id rest hphase hpending =>
    rcases fetchRow_cases w hc id rest with ⟨h, -⟩ | ⟨h, -⟩ | ⟨h, -⟩ <;> rw [h]
  | finished hphase hpending =>
    obtain ⟨phase, evicted, h, -⟩ := finishCall_eq limit c (w.rows.filter (isClaimed c))
    rw [h]
  | deleted hphase => rfl

theorem callMove_sid (hc : CallOk limit c)
    (h : CallMove collate accountId limit w c e rows c') : c'.sid = c.sid :=
  congrArg AccountRow.oidcId (callMove_session hc h)

/-- Sessions have different ids. -/
theorem nodup_oidcIds (hkeys : Table.UniqueKeys AccountRow.key w.rows) {p : AccountRow → Bool}
    (hp : ∀ r, p r = true → r.modelName = "Session") :
    ((w.rows.filter p).map AccountRow.oidcId).Nodup := by
  refine List.Nodup.map_on (fun r hr q hq hid => ?_) ((List.Nodup.of_map _ hkeys).filter _)
  obtain ⟨hr, hpr⟩ := List.mem_filter.mp hr
  obtain ⟨hq, hpq⟩ := List.mem_filter.mp hq
  exact Table.eq_of_key hkeys hr hq (Prod.ext ((hp r hpr).trans (hp q hpq).symm) hid)

theorem isSession_of_isActive {t : Time} {r : AccountRow}
    (h : isActiveSession accountId t r = true) : r.modelName = "Session" := by
  simp only [isActiveSession, Bool.and_eq_true, decide_eq_true_eq] at h
  exact h.1.1

theorem isActive_of_isCandidate {newSessionId : Option String} {now : Time} {r : AccountRow}
    (h : isCandidate accountId newSessionId now r = true) :
    isActiveSession accountId now r = true := (Bool.and_eq_true_iff.mp h).1

theorem callOk_begun (hkeys : Table.UniqueKeys AccountRow.key w.rows) (hc : CallOk limit c)
    (hphase : c.phase = .counted) (now : Time) :
    CallOk limit { c with
      phase := .claiming
      pending := (newestFirst collate
        (w.rows.filter (isCandidate accountId (some c.sid) now))).map AccountRow.oidcId } := by
  have hpassed : c.passed = [] := hc.idle (by rw [hphase]; rfl)
  refine ⟨hc.model, hc.named, nofun, fun h => absurd rfl h, ?_, hc.passed, hc.evicted⟩
  have hperm := (Table.perm_orderBy (fun r => OrderDual.toDual (newness collate r))
    (w.rows.filter (isCandidate accountId (some c.sid) now))).map AccountRow.oidcId
  exact hperm.nodup_iff.mpr
    (nodup_oidcIds hkeys fun r hr => isSession_of_isActive (isActive_of_isCandidate hr))

theorem callOk_move (hkeys : Table.UniqueKeys AccountRow.key w.rows) (hc : CallOk limit c)
    (h : CallMove collate accountId limit w c e rows c') : CallOk limit c' := by
  cases h with
  | counted now hphase =>
    have hidle : c.phase.begun = false := by rw [hphase]; rfl
    have hquiet : c.pending = [] := hc.quiet (by rw [hphase]; nofun)
    exact ⟨hc.model, hc.named, fun _ => hc.idle hidle, fun _ => hquiet, hc.nodup, hc.passed,
      hc.evicted⟩
  | begun now hphase => exact callOk_begun hkeys hc hphase now
  | fetched id rest hphase hpending =>
    have hnodup : rest.Nodup := (List.nodup_cons.mp (hpending ▸ hc.nodup)).2
    rcases fetchRow_cases w hc id rest with ⟨h, -⟩ | ⟨h, hlt⟩ | ⟨h, -⟩
    · rw [h]
      exact ⟨hc.model, hc.named, hc.idle, fun hne => absurd hphase hne, hnodup, hc.passed,
        hc.evicted⟩
    · rw [h]
      have hidle : c.phase.begun ≠ false := by rw [hphase]; nofun
      refine ⟨hc.model, hc.named, fun hb => absurd hb hidle, fun hne => absurd hphase hne, hnodup,
        ?_, hc.evicted⟩
      rw [List.length_append, List.length_singleton]
      exact hlt
    · rw [h]
      exact ⟨hc.model, hc.named, hc.idle, fun hne => absurd hphase hne, hnodup, hc.passed,
        fun r hr => List.mem_append_left _ (hc.evicted r hr)⟩
  | finished hphase hpending =>
    obtain ⟨phase, evicted, h, hbegun, -, hevicted⟩ :=
      finishCall_eq limit c (w.rows.filter (isClaimed c))
    rw [h]
    refine ⟨hc.model, hc.named, fun hb => absurd (hbegun.symm.trans hb) nofun, fun _ => hpending,
      hc.nodup, hc.passed, fun r hr => ?_⟩
    rcases hevicted with rfl | rfl
    · exact hc.evicted r hr
    · have hclaimed := (List.mem_filter.mp hr).2
      simp only [isClaimed, Bool.and_eq_true, List.contains_iff_mem] at hclaimed
      exact hclaimed.2
  | deleted hphase =>
    have hquiet : c.pending = [] := hc.quiet (by rw [hphase]; nofun)
    exact ⟨hc.model, hc.named, nofun, fun _ => hquiet, hc.nodup, hc.passed, hc.evicted⟩

/-! ### The newest session -/

theorem isSession_of_isNewest {t : Time} {s : AccountRow}
    (hi : SessionInv collate accountId limit t w) (hs : IsNewest collate s (sessionsOf w)) :
    s.modelName = "Session" := by
  obtain ⟨d, hd, rfl⟩ := List.mem_map.mp hs.mem
  exact (hi.calls d hd).model

theorem spares_fetched (hc : CallOk limit c) {x : String} {rest : List String}
    (hpending : c.pending = x :: rest) (hs : Spares limit id c) :
    Spares limit id (fetchRow limit w c x rest) := by
  obtain ⟨hclaimed, htake⟩ := hs
  have hnot : id ∈ rest → id ≠ x := fun hid he =>
    (List.nodup_cons.mp (hpending ▸ hc.nodup)).1 (he ▸ hid)
  rw [hpending] at htake
  -- the place of the session moves up with each row that is passed over
  have hrest : id ∈ rest → id ∈ rest.take (limit - 1 - c.passed.length - 1) ∧
      0 < limit - 1 - c.passed.length := by
    intro hid
    have hmem := htake (List.mem_cons_of_mem _ hid)
    cases hk : limit - 1 - c.passed.length with
    | zero => rw [hk] at hmem; cases hmem
    | succ k =>
      rw [hk, List.take_succ_cons] at hmem
      exact ⟨(List.mem_cons.mp hmem).resolve_left (hnot hid), Nat.succ_pos k⟩
  rcases fetchRow_cases w hc x rest with ⟨h, -⟩ | ⟨h, hlt⟩ | ⟨h, hge⟩
  · rw [h]
    refine ⟨hclaimed, fun hid => ?_⟩
    exact (List.take_subset_take_left _ (Nat.sub_le _ _)) (hrest hid).1
  · rw [h]
    refine ⟨hclaimed, fun hid => ?_⟩
    rw [List.length_append, List.length_singleton, ← Nat.sub_sub]
    exact (hrest hid).1
  · rw [h]
    have hzero : limit - 1 - c.passed.length = 0 := Nat.sub_eq_zero_of_le hge
    rw [hzero] at htake
    have hx : id ≠ x := fun he => nomatch htake (he ▸ List.mem_cons_self ..)
    refine ⟨?_, fun hid => absurd (hzero ▸ (hrest hid).2) (Nat.lt_irrefl 0)⟩
    simp only [List.mem_append, List.mem_singleton, not_or]
    exact ⟨hclaimed, hx⟩

theorem spares_begun {t now : Time} (hi : SessionInv collate accountId limit t w)
    (hc : c ∈ w.calls) (hphase : c.phase = .counted)
    (hkeeps : KeepsNewest collate accountId limit w c.sid now) {s : AccountRow}
    (hs : IsNewest collate s (sessionsOf w)) :
    Spares limit s.oidcId { c with
      phase := .claiming
      pending := (newestFirst collate
        (w.rows.filter (isCandidate accountId (some c.sid) now))).map AccountRow.oidcId } := by
  obtain ⟨hrow, hspares⟩ := hi.newest s hs
  have hpassed : c.passed = [] := (hi.calls c hc).idle (by rw [hphase]; rfl)
  refine ⟨(hspares c hc).claimed, fun hpending => ?_⟩
  have hsession := isSession_of_isNewest hi hs
  -- the snapshot has the session itself under its id
  obtain ⟨r, hr, hid⟩ := List.mem_map.mp hpending
  obtain ⟨hr, hcandidate⟩ := List.mem_filter.mp ((Table.mem_orderBy _ _ _).mp hr)
  have hmodel := isSession_of_isActive (isActive_of_isCandidate hcandidate)
  obtain rfl : r = s := Table.eq_of_key hi.keys hr hrow (Prod.ext (hmodel.trans hsession.symm) hid)
  have horder : Table.IsOrdered (fun r => OrderDual.toDual (newness collate r))
      (isCandidate accountId (some c.sid) now) w.rows (newestFirst collate
        (w.rows.filter (isCandidate accountId (some c.sid) now))) :=
    Table.isOrdered_orderBy (fun _ _ h => h) _ _
  have hfew := hkeeps r hs.mem hs.newest hcandidate
  have htake := (Table.forall_mem_take_iff (.of_map _ hi.keys) hrow hcandidate).mpr hfew _ horder
  rw [hpassed, List.length_nil, Nat.sub_zero, ← List.map_take]
  exact List.mem_map_of_mem htake

theorem spares_move {t : Time} {w' : SessionWorld} (hi : SessionInv collate accountId limit t w)
    (hc : c ∈ w.calls) (h : CallMove collate accountId limit w c e rows c')
    (hu : Undisturbed collate accountId limit w (c.sid, e) w') {s : AccountRow}
    (hs : IsNewest collate s (sessionsOf w)) : Spares limit s.oidcId c' := by
  have hspares := (hi.newest s hs).2 c hc
  cases h with
  | counted now hphase => exact ⟨hspares.claimed, hspares.pending⟩
  | begun now hphase => exact spares_begun hi hc hphase (hu.1 now rfl) hs
  | fetched id rest hphase hpending => exact spares_fetched (hi.calls c hc) hpending hspares
  | finished hphase hpending =>
    obtain ⟨phase, evicted, h, -⟩ := finishCall_eq limit c (w.rows.filter (isClaimed c))
    rw [h]
    exact ⟨hspares.claimed, hspares.pending⟩
  | deleted hphase => exact ⟨hspares.claimed, hspares.pending⟩

theorem newest_kept {t : Time} (hi : SessionInv collate accountId limit t w) (hc : c ∈ w.calls)
    (h : CallMove collate accountId limit w c e rows c') {s : AccountRow}
    (hs : IsNewest collate s (sessionsOf w)) : s ∈ rows := by
  obtain ⟨hrow, hspares⟩ := hi.newest s hs
  have hclaimed := (hspares c hc).claimed
  have hsession := isSession_of_isNewest hi hs
  cases h with
  | counted now hphase => exact hrow
  | begun now hphase => exact hrow
  | fetched id rest hphase hpending => exact hrow
  | finished hphase hpending =>
    refine (Table.mem_deleteWhere _ _ _).mpr ⟨hrow, ?_⟩
    simp [isClaimed, hclaimed]
  | deleted hphase =>
    refine (Table.mem_deleteWhere _ _ _).mpr ⟨hrow, ?_⟩
    have hnot : s.oidcId ∉ c.evicted.map AccountRow.oidcId := by
      intro hmem
      obtain ⟨r, hr, hid⟩ := List.mem_map.mp hmem
      exact hclaimed (hid ▸ (hi.calls c hc).evicted r hr)
    have hgrant := hi.grants s hrow hsession
    simp [isDerived, hsession, hgrant, hnot]

/-! ### The rows that the latest statement may leave -/

theorem mem_save_of_ne {d : EnforceCall} (hsids : Table.UniqueKeys EnforceCall.sid w.calls)
    (hd : d ∈ w.calls) (hne : d.sid ≠ c'.sid) : d ∈ Table.save EnforceCall.sid c' w.calls :=
  (Table.mem_save hsids d).mpr (Or.inr ⟨hd, hne⟩)

theorem rows_subset_of_move (h : CallMove collate accountId limit w c e rows c') :
    ∀ r ∈ rows, r ∈ w.rows := by
  cases h with
  | finished hphase hpending => exact fun r hr => ((Table.mem_deleteWhere _ _ _).mp hr).1
  | deleted hphase => exact fun r hr => ((Table.mem_deleteWhere _ _ _).mp hr).1
  | _ => exact fun r hr => hr

theorem marked_move (hi : Table.UniqueKeys EnforceCall.sid w.calls) (hc : c ∈ w.calls)
    (hok : CallOk limit c) (h : CallMove collate accountId limit w c e rows c') {r : AccountRow}
    (hr : r ∈ rows) (hsession : r.modelName = "Session")
    (hmarked : ∃ d ∈ w.calls, d.phase = .claiming ∧ r.oidcId ∈ d.claimed) :
    ∃ d ∈ Table.save EnforceCall.sid c' w.calls, d.phase = .claiming ∧ r.oidcId ∈ d.claimed := by
  obtain ⟨d, hd, hphase, hid⟩ := hmarked
  have hsid := callMove_sid hok h
  by_cases hdc : d.sid = c.sid
  · obtain rfl : d = c := Table.eq_of_key hi hd hc hdc
    refine ⟨c', Table.mem_save_self _ _ _, ?_⟩
    cases h with
    | counted now hcounted => exact absurd (hphase.symm.trans hcounted) nofun
    | begun now hcounted => exact absurd (hphase.symm.trans hcounted) nofun
    | fetched x rest _ hpending =>
      rcases fetchRow_cases w hok x rest with ⟨h, -⟩ | ⟨h, -⟩ | ⟨h, -⟩ <;> rw [h]
      · exact ⟨hphase, hid⟩
      · exact ⟨hphase, hid⟩
      · exact ⟨hphase, List.mem_append_left _ hid⟩
    | finished _ hpending =>
      -- the row would be gone
      have hkept := ((Table.mem_deleteWhere _ _ _).mp hr).2
      simp [isClaimed, hsession, hid] at hkept
    | deleted hdeleting => exact absurd (hphase.symm.trans hdeleting) nofun
  · exact ⟨d, mem_save_of_ne hi hd (hsid ▸ hdc), hphase, hid⟩

theorem unbegun_move (hi : Table.UniqueKeys EnforceCall.sid w.calls) (hc : c ∈ w.calls)
    (hok : CallOk limit c) (h : CallMove collate accountId limit w c e rows c')
    (hbegin : ∀ now, e ≠ .beginClaim now) {id : String}
    (hidle : ∃ d ∈ w.calls, d.phase.begun = false ∧ d.sid = id) :
    ∃ d ∈ Table.save EnforceCall.sid c' w.calls, d.phase.begun = false ∧ d.sid = id := by
  obtain ⟨d, hd, hphase, hid⟩ := hidle
  have hsid := callMove_sid hok h
  by_cases hdc : d.sid = c.sid
  · obtain rfl : d = c := Table.eq_of_key hi hd hc hdc
    refine ⟨c', Table.mem_save_self _ _ _, ?_, hsid.trans hid⟩
    cases h with
    | counted now hcounted => rfl
    | begun now hcounted => exact absurd rfl (hbegin now)
    | fetched x rest hclaiming hpending => rw [hclaiming] at hphase; cases hphase
    | finished hclaiming hpending => rw [hclaiming] at hphase; cases hphase
    | deleted hdeleting => rw [hdeleting] at hphase; cases hphase
  · exact ⟨d, mem_save_of_ne hi hd (hsid ▸ hdc), hphase, hid⟩

theorem passed_move (hok : CallOk limit c) (h : CallMove collate accountId limit w c e rows c')
    (hid : id ∈ c.passed) : id ∈ c'.passed := by
  cases h with
  | counted now hphase => exact hid
  | begun now hphase => exact hid
  | fetched x rest hphase hpending =>
    rcases fetchRow_cases w hok x rest with ⟨h, -⟩ | ⟨h, -⟩ | ⟨h, -⟩ <;> rw [h]
    · exact hid
    · exact List.mem_append_left _ hid
    · exact hid
  | finished hphase hpending =>
    obtain ⟨phase, evicted, h, -⟩ := finishCall_eq limit c (w.rows.filter (isClaimed c))
    rw [h]
    exact hid
  | deleted hphase => exact hid

/-- What becomes of a row that the statement had still to visit. -/
theorem pending_move {t : Time} {w' : SessionWorld} (hi : SessionInv collate accountId limit t w)
    (hc : c ∈ w.calls) (h : CallMove collate accountId limit w c e rows c')
    (hbegin : ∀ now, e ≠ .beginClaim now)
    (hu : Undisturbed collate accountId limit w (c.sid, e) w') {r : AccountRow}
    (hr : r ∈ w.rows) (hsession : r.modelName = "Session") (hid : r.oidcId ∈ c.pending) :
    Accounted (Table.save EnforceCall.sid c' w.calls) c' r.oidcId := by
  have hok := hi.calls c hc
  have hsid := callMove_sid hok h
  cases h with
  | counted now hphase => exact Or.inr (Or.inl hid)
  | begun now hphase => exact absurd rfl (hbegin now)
  | fetched x rest hphase hpending =>
    rw [hpending] at hid
    rcases fetchRow_cases w hok x rest with ⟨h, hskip⟩ | ⟨h, -⟩ | ⟨h, -⟩
    · rw [h] at hsid ⊢
      rcases List.mem_cons.mp hid with rfl | hid
      · rcases hskip with hgone | ⟨d, hd, hother, hclaiming, hlock⟩
        · have hkey : r.key = ("Session", r.oidcId) := Prod.ext hsession rfl
          exact absurd hkey (hgone r hr)
        · -- the other statement has marked it: it has not passed over it
          have hfree := hu.2 rfl c hc rfl d hd hother hclaiming r.oidcId (by simp [hpending])
          exact Or.inr (Or.inr (Or.inr (Or.inl ⟨d, mem_save_of_ne hi.sids hd hother, hclaiming,
            hlock.resolve_left hfree⟩)))
      · exact Or.inr (Or.inl hid)
    · rw [h]
      rcases List.mem_cons.mp hid with rfl | hid
      · exact Or.inr (Or.inr (Or.inl (List.mem_append_right _ (List.mem_singleton.mpr rfl))))
      · exact Or.inr (Or.inl hid)
    · rw [h]
      rcases List.mem_cons.mp hid with rfl | hid
      · exact Or.inr (Or.inr (Or.inr (Or.inl ⟨_, Table.mem_save_self _ _ _, hphase,
          List.mem_append_right _ (List.mem_singleton.mpr rfl)⟩)))
      · exact Or.inr (Or.inl hid)
  | finished hphase hpending =>
    rw [hpending] at hid
    cases hid
  | deleted hphase => exact Or.inr (Or.inl hid)

theorem accounted_move {t : Time} {w' : SessionWorld} (hi : SessionInv collate accountId limit t w)
    (hc : c ∈ w.calls) (h : CallMove collate accountId limit w c e rows c')
    (hbegin : ∀ now, e ≠ .beginClaim now)
    (hu : Undisturbed collate accountId limit w (c.sid, e) w')
    {d : EnforceCall} (hd : d ∈ Table.save EnforceCall.sid c' w.calls) (hds : w.latest = some d.sid)
    {r : AccountRow} (hr : r ∈ rows) (hactive : isActiveSession accountId t r = true) :
    Accounted (Table.save EnforceCall.sid c' w.calls) d r.oidcId := by
  have hok := hi.calls c hc
  have hsid := callMove_sid hok h
  have hrow := rows_subset_of_move h r hr
  have hsession := isSession_of_isActive hactive
  have hmarked := marked_move hi.sids hc hok h hr hsession
  rcases (Table.mem_save hi.sids d).mp hd with rfl | ⟨hd, -⟩
  · rw [hsid] at hds
    rcases hi.cover c hc hds r hrow hactive with h1 | h2 | h3 | h4 | h5
    · exact Or.inl (h1.trans hsid.symm)
    · exact pending_move hi hc h hbegin hu hrow hsession h2
    · exact Or.inr (Or.inr (Or.inl (passed_move hok h h3)))
    · exact Or.inr (Or.inr (Or.inr (Or.inl (hmarked h4))))
    · exact Or.inr (Or.inr (Or.inr (Or.inr (unbegun_move hi.sids hc hok h hbegin h5))))
  · rcases hi.cover d hd hds r hrow hactive with h1 | h2 | h3 | h4 | h5
    · exact Or.inl h1
    · exact Or.inr (Or.inl h2)
    · exact Or.inr (Or.inr (Or.inl h3))
    · exact Or.inr (Or.inr (Or.inr (Or.inl (hmarked h4))))
    · exact Or.inr (Or.inr (Or.inr (Or.inr (unbegun_move hi.sids hc hok h hbegin h5))))

/-- The statement that begins sees every session of the account. -/
theorem accounted_begun {t now : Time} (hnow : now ≤ t) {calls : List EnforceCall} {r : AccountRow}
    (hr : r ∈ w.rows) (hactive : isActiveSession accountId t r = true) :
    Accounted calls { c with
      phase := .claiming
      pending := (newestFirst collate
        (w.rows.filter (isCandidate accountId (some c.sid) now))).map AccountRow.oidcId }
      r.oidcId := by
  by_cases hown : r.oidcId = c.sid
  · exact Or.inl hown
  · refine Or.inr (Or.inl (List.mem_map_of_mem ((Table.mem_orderBy _ _ _).mpr ?_)))
    refine List.mem_filter.mpr ⟨hr, ?_⟩
    simp only [isActiveSession, Bool.and_eq_true, decide_eq_true_eq] at hactive
    have hexpires : (r.expiresAt.all fun t => decide (now < t)) = true := by
      cases he : r.expiresAt with
      | none => rfl
      | some expiresAt =>
        have hlater := hactive.2
        rw [he] at hlater
        simp only [Option.all_some, decide_eq_true_eq] at hlater ⊢
        exact lt_of_le_of_lt hnow hlater
    simp [isCandidate, isActiveSession, hactive.1, hexpires, hown]

/-! ### Steps -/

theorem latestAfter_of_ne (hbegin : ∀ now, e ≠ .beginClaim now) (latest : Option String)
    (sid : String) : latestAfter latest sid e = latest := by
  cases e with
  | beginClaim now => exact absurd rfl (hbegin now)
  | _ => rfl

theorem begun_of_move (h : CallMove collate accountId limit w c e rows c')
    (hbegin : ∀ now, e ≠ .beginClaim now) (hbegun : c'.phase.begun = true) :
    c.phase.begun = true := by
  cases h with
  | counted now hphase => cases hbegun
  | begun now hphase => exact absurd rfl (hbegin now)
  | fetched id rest hphase hpending => rw [hphase]; rfl
  | finished hphase hpending => rw [hphase]; rfl
  | deleted hphase => rw [hphase]; rfl

theorem inv_move {t : Time} (hi : SessionInv collate accountId limit t w) (hc : c ∈ w.calls)
    (h : CallMove collate accountId limit w c e rows c')
    (hu : Undisturbed collate accountId limit w (c.sid, e) w')
    (htime : ∀ now, e = .beginClaim now → now ≤ t) :
    SessionInv collate accountId limit t
      { rows, calls := Table.save EnforceCall.sid c' w.calls
        latest := latestAfter w.latest c.sid e } := by
  have hok := hi.calls c hc
  have hsession := callMove_session hok h
  have hsid := callMove_sid hok h
  have hsessions : (Table.save EnforceCall.sid c' w.calls).map EnforceCall.session = sessionsOf w :=
    (Table.map_save_eq_iff hi.sids hc hsid.symm).mpr hsession
  have hids : (Table.save EnforceCall.sid c' w.calls).map EnforceCall.sid =
      w.calls.map EnforceCall.sid := (Table.map_save_eq_iff hi.sids hc hsid.symm).mpr hsid
  have hsubset := rows_subset_of_move h
  refine ⟨?_, fun r hr => hi.grants r (hsubset r hr), Table.uniqueKeys_save _ hi.sids,
    fun d hd => ?_, fun d hd hbegun => ?_, fun sid hlatest => ?_,
    fun d hd hds r hr hactive => ?_, fun s hs => ?_⟩
  · cases h with
    | finished hphase hpending => exact Table.uniqueKeys_deleteWhere _ hi.keys
    | deleted hphase => exact Table.uniqueKeys_deleteWhere _ hi.keys
    | _ => exact hi.keys
  · rcases (Table.mem_save hi.sids d).mp hd with rfl | ⟨hd, -⟩
    · exact callOk_move hi.keys hok h
    · exact hi.calls d hd
  · by_cases hbegin : ∃ now, e = .beginClaim now
    · obtain ⟨now, rfl⟩ := hbegin
      nofun
    · rw [not_exists] at hbegin
      rw [latestAfter_of_ne hbegin]
      rcases (Table.mem_save hi.sids d).mp hd with rfl | ⟨hd, -⟩
      · exact hi.begun c hc (begun_of_move h hbegin hbegun)
      · exact hi.begun d hd hbegun
  · rw [hids]
    by_cases hbegin : ∃ now, e = .beginClaim now
    · obtain ⟨now, rfl⟩ := hbegin
      cases hlatest
      exact List.mem_map_of_mem hc
    · rw [latestAfter_of_ne (not_exists.mp hbegin)] at hlatest
      exact hi.latest sid hlatest
  · by_cases hbegin : ∃ now, e = .beginClaim now
    · obtain ⟨now, rfl⟩ := hbegin
      have hd' : d = c' := by
        rcases (Table.mem_save hi.sids d).mp hd with rfl | ⟨-, hne⟩
        · rfl
        · exact absurd ((Option.some.inj hds).symm.trans hsid.symm) hne
      subst hd'
      cases h with
      | begun now hphase => exact accounted_begun (htime now rfl) hr hactive
    · rw [not_exists] at hbegin
      rw [latestAfter_of_ne hbegin] at hds
      exact accounted_move hi hc h hbegin hu hd hds hr hactive
  · have hs' : IsNewest collate s (sessionsOf w) := by
      rw [← hsessions]
      exact hs
    refine ⟨newest_kept hi hc h hs', fun d hd => ?_⟩
    rcases (Table.mem_save hi.sids d).mp hd with rfl | ⟨hd, -⟩
    · exact spares_move hi hc h hu hs'
    · exact (hi.newest s hs').2 d hd

theorem accounted_mono {calls calls' : List EnforceCall} (hsub : calls ⊆ calls')
    (h : Accounted calls c id) : Accounted calls' c id := by
  rcases h with h | h | h | ⟨d, hd, h⟩ | ⟨d, hd, h⟩
  · exact Or.inl h
  · exact Or.inr (Or.inl h)
  · exact Or.inr (Or.inr (Or.inl h))
  · exact Or.inr (Or.inr (Or.inr (Or.inl ⟨d, hsub hd, h⟩)))
  · exact Or.inr (Or.inr (Or.inr (Or.inr ⟨d, hsub hd, h⟩)))

theorem inv_persist {t : Time} (hi : SessionInv collate accountId limit t w) {sid : String}
    {row : AccountRow} (h : isNewSession accountId w sid row = true) :
    SessionInv collate accountId limit t
      { w with rows := row :: w.rows, calls := { session := row } :: w.calls } := by
  simp only [isNewSession, Bool.and_eq_true, decide_eq_true_eq, Bool.not_eq_true',
    List.any_eq_false] at h
  obtain ⟨⟨⟨hkey, -, hgrant, hname⟩, hrows⟩, hcalls⟩ := h
  obtain ⟨hmodel, rfl⟩ : row.modelName = "Session" ∧ row.oidcId = sid := Prod.ext_iff.mp hkey
  have hnew : ∀ c ∈ w.calls, c.sid ≠ row.oidcId ∧ row.oidcId ∉ c.pending ∧
      row.oidcId ∉ c.claimed := by
    intro c hc
    have hnot := hcalls c hc
    simp only [EnforceCall.mentions, Bool.or_eq_true, decide_eq_true_eq, List.contains_iff_mem,
      not_or] at hnot
    exact ⟨hnot.1.1.1, hnot.1.1.2, hnot.2⟩
  have hsids : row.oidcId ∉ w.calls.map EnforceCall.sid := by
    intro hmem
    obtain ⟨c, hc, he⟩ := List.mem_map.mp hmem
    exact (hnew c hc).1 he
  refine ⟨?_, ?_, List.nodup_cons.mpr ⟨hsids, hi.sids⟩, ?_, ?_, ?_, ?_, fun s hs => ?_⟩
  · refine List.nodup_cons.mpr ⟨fun hmem => ?_, hi.keys⟩
    obtain ⟨r, hr, he⟩ := List.mem_map.mp hmem
    exact hrows r hr he
  · exact List.forall_mem_cons.mpr ⟨fun _ => hgrant, hi.grants⟩
  · exact List.forall_mem_cons.mpr ⟨⟨hmodel, hname, fun _ => rfl, fun _ => rfl, List.nodup_nil,
      Nat.zero_le _, nofun⟩, hi.calls⟩
  · exact List.forall_mem_cons.mpr ⟨nofun, hi.begun⟩
  · exact fun sid hlatest => List.mem_cons_of_mem _ (hi.latest sid hlatest)
  · intro c hc hlatest r hr hactive
    rcases List.mem_cons.mp hc with rfl | hc
    · exact absurd (hi.latest _ hlatest) hsids
    · rcases List.mem_cons.mp hr with rfl | hr
      · exact Or.inr (Or.inr (Or.inr (Or.inr ⟨_, List.mem_cons_self .., rfl, rfl⟩)))
      · exact accounted_mono (List.subset_cons_self _ _) (hi.cover c hc hlatest r hr hactive)
  · rcases List.mem_cons.mp hs.mem with rfl | hmem
    · refine ⟨List.mem_cons_self .., List.forall_mem_cons.mpr ⟨⟨nofun, nofun⟩, fun c hc => ?_⟩⟩
      exact ⟨(hnew c hc).2.2, fun hp => absurd hp (hnew c hc).2.1⟩
    · have hs' : IsNewest collate s (sessionsOf w) :=
        ⟨hmem, fun r hr => hs.newest r (List.mem_cons_of_mem _ hr)⟩
      obtain ⟨hrow, hspares⟩ := hi.newest s hs'
      exact ⟨List.mem_cons_of_mem _ hrow, List.forall_mem_cons.mpr ⟨⟨nofun, nofun⟩, hspares⟩⟩

theorem inv_step {t : Time} (hlimit : 1 ≤ limit) (hi : SessionInv collate accountId limit t w)
    {l : String × EnforceEvent} (h : enforceStep collate accountId limit w l = some w')
    (hu : Undisturbed collate accountId limit w l w')
    (htime : ∀ now, l.2 = .beginClaim now → now ≤ t) :
    SessionInv collate accountId limit t w' := by
  rcases enforceStep_cases hlimit h with ⟨row, hnew, rfl⟩ | ⟨c, hc, hsid, rows, c', hmove, rfl⟩
  · exact inv_persist hi hnew
  · rw [← hsid]
    have hl : l = (c.sid, l.2) := Prod.ext hsid.symm rfl
    rw [hl] at hu
    exact inv_move hi hc hmove hu htime

theorem inv_start {t : Time} {rows : List AccountRow}
    (hkeys : Table.UniqueKeys AccountRow.key rows)
    (hgrants : ∀ r ∈ rows, r.modelName = "Session" → r.grantId = none) :
    SessionInv collate accountId limit t { rows } :=
  ⟨hkeys, hgrants, List.nodup_nil, nofun, nofun, nofun, nofun, fun _ hs => nomatch hs.mem⟩

/-! ### When all calls have returned -/

theorem capped_of_inv {t : Time} (hlimit : 1 ≤ limit)
    (hi : SessionInv collate accountId limit t w) (hreturned : AllReturned w) :
    Capped collate accountId limit t w := by
  refine ⟨?_, fun s hs => (hi.newest s hs).1⟩
  obtain ⟨hsome, hall⟩ := hreturned
  have hbegun : ∀ d ∈ w.calls, d.phase.begun = true ∧ d.phase ≠ .claiming := by
    intro d hd
    obtain ⟨result, h⟩ := hall d hd
    rw [h]
    exact ⟨rfl, nofun⟩
  obtain ⟨d, hd⟩ := List.exists_mem_of_ne_nil _ hsome
  obtain ⟨sid, hlatest⟩ := Option.ne_none_iff_exists'.mp (hi.begun d hd (hbegun d hd).1)
  obtain ⟨c, hc, rfl⟩ := List.mem_map.mp (hi.latest sid hlatest)
  have hsub : (w.rows.filter (isActiveSession accountId t)).map AccountRow.oidcId ⊆
      c.sid :: c.passed := by
    intro id hid
    obtain ⟨r, hr, rfl⟩ := List.mem_map.mp hid
    obtain ⟨hr, hactive⟩ := List.mem_filter.mp hr
    have hpending : c.pending = [] := (hi.calls c hc).quiet (hbegun c hc).2
    rcases hi.cover c hc hlatest r hr hactive with h | h | h | ⟨d, hd, h, -⟩ | ⟨d, hd, h, -⟩
    · exact List.mem_cons.mpr (Or.inl h)
    · rw [hpending] at h
      cases h
    · exact List.mem_cons_of_mem _ h
    · exact absurd h (hbegun d hd).2
    · exact absurd ((hbegun d hd).1.symm.trans h) nofun
  have hnodup := nodup_oidcIds hi.keys fun r (hr : isActiveSession accountId t r = true) =>
    isSession_of_isActive hr
  have hlength := (List.subperm_of_subset hnodup hsub).length_le
  rw [List.length_map, ← List.countP_eq_length_filter, List.length_cons] at hlength
  have hpassed := (hi.calls c hc).passed
  unfold countActiveSessions
  omega

/-- In every run of logins whose statements are undisturbed, the account ends within its limit
and the newest session of the logins is there. -/
theorem session_cap_kept {rows : List AccountRow} {t : Time} {events : List (String × EnforceEvent)}
    (hlimit : 1 ≤ limit) (hlogins : CompletedLogins collate accountId limit rows t events w)
    (hundisturbed : Run.All (enforceStep collate accountId limit)
      (Undisturbed collate accountId limit) { rows } events) :
    Capped collate accountId limit t w := by
  have hinv : SessionInv collate accountId limit t w :=
    Run.final_of_invariant (SessionInv collate accountId limit t)
      (fun _ _ _ hi h hc => inv_step hlimit hi h hc.1 hc.2)
      (inv_start hlogins.keys hlogins.grants)
      (Run.all_labels hlogins.times hundisturbed) hlogins.run
  exact capped_of_inv hlimit hinv hlogins.returned

end Cap

/-! ### Instances -/

def sessionAt (oidcId : String) (createdAt : Time) : AccountRow :=
  { modelName := "Session", oidcId, accountId := some "u", createdAt }

def returnedCall (session : AccountRow) (result : SessionLimitResult) (passed claimed : List String)
    (evicted : List AccountRow) : EnforceCall :=
  { session, phase := .returned result, priorSessionCount := result.priorSessionCount
    passed, claimed, evicted }

def oneLogin : List (String × EnforceEvent) :=
  [("a", .persist (sessionAt "a" 1)), ("a", .count 2), ("a", .beginClaim 3), ("a", .fetch),
    ("a", .finish), ("a", .deleteSessions)]

def oneLoginWorld : SessionWorld :=
  { rows := [sessionAt "a" 1]
    calls := [returnedCall (sessionAt "a" 1) ⟨2, 1, 1⟩ [] ["o"] [sessionAt "o" 0]]
    latest := some "a" }

theorem oneLogin_completed :
    CompletedLogins String.length "u" 1 [sessionAt "o" 0] 9 oneLogin oneLoginWorld := by
  refine ⟨by decide, by decide, rfl, ?_, nofun, ?_⟩
  · simp [oneLogin]
  · simp [oneLoginWorld, returnedCall]

/-- With a limit of one the session from before goes and the new one stays. -/
theorem session_cap_one_login : Capped String.length "u" 1 9 oneLoginWorld := by
  refine session_cap_kept le_rfl oneLogin_completed ?_
  refine ⟨_, rfl, ⟨nofun, nofun⟩, _, rfl, ⟨nofun, nofun⟩, _, rfl, ⟨fun now hnow => ?_, nofun⟩,
    _, rfl, ⟨nofun, fun _ => ?_⟩, _, rfl, ⟨nofun, nofun⟩, _, rfl, ⟨nofun, nofun⟩, trivial⟩
  · cases hnow
    unfold KeepsNewest
    decide
  · unfold MeetsNoPassed
    decide

def olderLoginLast : List (String × EnforceEvent) :=
  [("a", .persist (sessionAt "a" 1)), ("b", .persist (sessionAt "b" 2)), ("a", .count 3),
    ("a", .beginClaim 4), ("a", .fetch), ("a", .finish), ("a", .deleteSessions), ("b", .count 5),
    ("b", .beginClaim 6), ("b", .fetch), ("b", .finish), ("b", .deleteSessions)]

def olderLoginLastWorld : SessionWorld :=
  { rows := []
    calls := [returnedCall (sessionAt "b" 2) ⟨1, 1, 1⟩ [] ["a"] [sessionAt "a" 1],
      returnedCall (sessionAt "a" 1) ⟨2, 1, 1⟩ [] ["b"] [sessionAt "b" 2]]
    latest := some "b" }

def overlappingLogins : List (String × EnforceEvent) :=
  [("a", .persist (sessionAt "a" 3)), ("a", .count 4), ("a", .beginClaim 5), ("a", .fetch),
    ("a", .fetch), ("b", .persist (sessionAt "b" 6)), ("b", .count 7), ("b", .beginClaim 8),
    ("b", .fetch), ("b", .fetch), ("b", .fetch), ("b", .finish), ("a", .finish),
    ("a", .deleteSessions)]

def overlappingLoginsWorld : SessionWorld :=
  { rows := [sessionAt "b" 6, sessionAt "a" 3, sessionAt "p" 2]
    calls := [returnedCall (sessionAt "b" 6) ⟨4, 0, 2⟩ ["a"] [] [],
      returnedCall (sessionAt "a" 3) ⟨3, 1, 2⟩ ["p"] ["o"] [sessionAt "o" 1]]
    latest := some "b" }

/-- With a limit of one the older of two logins evicts the session of the newer one; with a limit
of two the statement of one login skips the row that the other has passed over, and three
sessions are left. -/
theorem session_cap_broken :
    (¬ ∀ limit rows t events w, 1 ≤ limit →
      CompletedLogins String.length "u" limit rows t events w →
      ∀ s, IsNewest String.length s (sessionsOf w) → s ∈ w.rows) ∧
    ¬ ∀ limit rows t events w, 1 ≤ limit →
      CompletedLogins String.length "u" limit rows t events w →
      countActiveSessions w.rows "u" t ≤ limit := by
  constructor
  · intro hall
    have hlogins : CompletedLogins String.length "u" 1 [] 9 olderLoginLast olderLoginLastWorld := by
      refine ⟨by decide, by decide, rfl, ?_, nofun, ?_⟩
      · simp [olderLoginLast]
      · simp [olderLoginLastWorld, returnedCall]
    have hnewest : IsNewest String.length (sessionAt "b" 2) (sessionsOf olderLoginLastWorld) :=
      ⟨by decide, by decide⟩
    exact absurd (hall 1 _ _ _ _ le_rfl hlogins _ hnewest) List.not_mem_nil
  · intro hall
    have hlogins : CompletedLogins String.length "u" 2 [sessionAt "o" 1, sessionAt "p" 2] 9
        overlappingLogins overlappingLoginsWorld := by
      refine ⟨by decide, by decide, rfl, ?_, nofun, ?_⟩
      · simp [overlappingLogins]
      · simp [overlappingLoginsWorld, returnedCall]
    exact absurd (hall 2 _ _ _ _ (by decide) hlogins) (by decide)

end VcCommonService.Oidc
