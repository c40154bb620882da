import Mathlib.Data.List.Basic
import Mathlib.Data.List.Nodup

/-!
# Paging by cursor

A reader asks for the first page and follows the cursor of each page until there is none. A page
has up to `limit` rows; its cursor is made from its last row, and the next page is cut from the rows
that the cursor admits. The rows come out once and in order exactly if every cursor admits the row
after the page and not the last one of it.
-/

namespace VcCommonService.Lib.Paging

variable {ρ κ ε : Type*}

structure Page (ρ κ : Type*) where
  items : List ρ
  nextCursor : Option κ
  hasMore : Bool
  deriving Repr, DecidableEq

/-- One page from a query for a row more than the page has. -/
def pageOf (limit : ℕ) (cursorOf : ρ → Except ε κ) (rows : List ρ) : Except ε (Page ρ κ) :=
  let hasMore := decide (limit < rows.length)
  let items := if hasMore then rows.take limit else rows
  match items.getLast? with
  | some last =>
    if hasMore then (cursorOf last).map fun cursor => ⟨items, some cursor, hasMore⟩
    else .ok ⟨items, none, hasMore⟩
  | none => .ok ⟨items, none, hasMore⟩

/-- The pages that a reader gets from a cursor on, up to the one without a cursor. -/
inductive Follows (fetch : Option κ → Except ε (Page ρ κ)) : Option κ → List (List ρ) → Prop
  | last {cursor page} : fetch cursor = .ok page → page.nextCursor = none →
      Follows fetch cursor [page.items]
  | next {cursor page cursor' pages} : fetch cursor = .ok page →
      page.nextCursor = some cursor' → Follows fetch (some cursor') pages →
      Follows fetch cursor (page.items :: pages)

/-- A reader comes to a page without a cursor, and has seen each row once and in order. -/
def Enumerates (fetch : Option κ → Except ε (Page ρ κ)) (rows : List ρ) : Prop :=
  ∃ pages, Follows fetch none pages ∧ pages.flatten = rows

/-- `last` ends a full page and `next` comes after it. -/
def Boundary (limit : ℕ) (rows : List ρ) (last next : ρ) : Prop :=
  ∃ m, 0 < m ∧ limit ∣ m ∧ rows[m - 1]? = some last ∧ rows[m]? = some next

theorem boundary_pair {limit : ℕ} {a b last next : ρ} (h : Boundary limit [a, b] last next) :
    last = a ∧ next = b := by
  obtain ⟨m, hm, -, hlast, hnext⟩ := h
  obtain ⟨hlt, -⟩ := List.getElem?_eq_some_iff.mp hnext
  rw [List.length_cons, List.length_singleton] at hlt
  obtain rfl : m = 1 := by omega
  exact ⟨(Option.some.inj hlast).symm, (Option.some.inj hnext).symm⟩

/-- What the requests answer: `after` is the condition that the database makes of the cursor of a
row, if it accepts that cursor. -/
structure Serves (fetch : Option κ → Except ε (Page ρ κ)) (limit : ℕ) (cursorOf : ρ → Except ε κ)
    (after : ρ → Option (ρ → Bool)) (rows : List ρ) : Prop where
  first : fetch none = pageOf limit cursorOf (rows.take (limit + 1))
  next : ∀ r ∈ rows, ∀ p, after r = some p → ∃ cursor, cursorOf r = .ok cursor ∧
    fetch (some cursor) = pageOf limit cursorOf ((rows.filter p).take (limit + 1))
  stuck : ∀ r ∈ rows, after r = none → ∀ cursor, cursorOf r = .ok cursor →
    ∀ page, fetch (some cursor) ≠ .ok page
  suffix : ∀ r p, after r = some p → rows.Pairwise fun a b => p a = true → p b = true

/-! ### Pages -/

theorem pageOf_last {limit : ℕ} {cursorOf : ρ → Except ε κ} {found : List ρ}
    (h : found.length ≤ limit) :
    pageOf limit cursorOf (found.take (limit + 1)) = .ok ⟨found, none, false⟩ := by
  have hfound : found.take (limit + 1) = found := List.take_of_length_le (by omega)
  have hmore : ¬ limit < found.length := by omega
  unfold pageOf
  rw [hfound]
  simp only [decide_eq_false hmore, Bool.false_eq_true, if_false]
  split <;> rfl

theorem pageOf_more {limit : ℕ} (hlimit : 0 < limit) {cursorOf : ρ → Except ε κ} {found : List ρ}
    {last : ρ} (h : limit < found.length) (hlast : found[limit - 1]? = some last) :
    pageOf limit cursorOf (found.take (limit + 1)) =
      (cursorOf last).map fun cursor => ⟨found.take limit, some cursor, true⟩ := by
  have hlength : limit < (found.take (limit + 1)).length := by
    rw [List.length_take]
    omega
  have htake : (found.take (limit + 1)).take limit = found.take limit := by
    rw [List.take_take, Nat.min_eq_left (by omega)]
  have hgetLast : (found.take limit).getLast? = some last := by
    rw [List.getLast?_eq_getElem?, List.length_take, Nat.min_eq_left (Nat.le_of_lt h),
      List.getElem?_take_of_lt (by omega), hlast]
  unfold pageOf
  simp only [decide_eq_true hlength, if_true, htake, hgetLast]

/-! ### Suffixes -/

/-- A condition that stays true along a list keeps an end of it. -/
theorem exists_filter_eq_drop {p : ρ → Bool} {rows : List ρ}
    (h : rows.Pairwise fun a b => p a = true → p b = true) :
    ∃ j, j ≤ rows.length ∧ rows.filter p = rows.drop j := by
  induction rows with
  | nil => exact ⟨0, Nat.le_refl 0, rfl⟩
  | cons r rows ih =>
    obtain ⟨hr, hrows⟩ := List.pairwise_cons.mp h
    by_cases hp : p r = true
    · refine ⟨0, Nat.zero_le _, ?_⟩
      rw [List.drop_zero, List.filter_eq_self]
      intro a ha
      rcases List.mem_cons.mp ha with rfl | ha
      · exact hp
      · exact hr a ha hp
    · obtain ⟨j, hj, heq⟩ := ih hrows
      exact ⟨j + 1, Nat.succ_le_succ hj, by rw [List.filter_cons_of_neg hp, heq, List.drop_succ_cons]⟩

theorem filter_eq_drop_iff {p : ρ → Bool} {rows : List ρ} (hnodup : rows.Nodup)
    (h : rows.Pairwise fun a b => p a = true → p b = true) {m : ℕ} (hm : 0 < m) {last next : ρ}
    (hlast : rows[m - 1]? = some last) (hnext : rows[m]? = some next) :
    rows.filter p = rows.drop m ↔ p last = false ∧ p next = true := by
  obtain ⟨hmlt, rfl⟩ := List.getElem?_eq_some_iff.mp hnext
  obtain ⟨hlt, rfl⟩ := List.getElem?_eq_some_iff.mp hlast
  constructor
  · intro heq
    have hnextMem : rows[m] ∈ rows.filter p := by
      rw [heq, List.mem_iff_getElem?]
      exact ⟨0, by rw [List.getElem?_drop, Nat.add_zero, hnext]⟩
    refine ⟨?_, (List.mem_filter.mp hnextMem).2⟩
    by_contra hp
    have hlastMem : rows[m - 1] ∈ rows.drop m := by
      rw [← heq]
      exact List.mem_filter.mpr ⟨List.getElem_mem hlt, by simpa using hp⟩
    obtain ⟨i, hi, heq'⟩ := List.mem_iff_getElem.mp hlastMem
    rw [List.getElem_drop] at heq'
    have hindex := (hnodup.getElem_inj_iff).mp heq'
    omega
  · rintro ⟨hlastp, hnextp⟩
    obtain ⟨j, hj, heq⟩ := exists_filter_eq_drop h
    have hle : j ≤ m := by
      have hmem : rows[m] ∈ rows.drop j := by
        rw [← heq]
        exact List.mem_filter.mpr ⟨List.getElem_mem hmlt, hnextp⟩
      obtain ⟨i, hi, heq'⟩ := List.mem_iff_getElem.mp hmem
      rw [List.getElem_drop] at heq'
      have hindex := (hnodup.getElem_inj_iff).mp heq'
      omega
    have hge : m ≤ j := by
      by_contra hlt'
      have hmem : rows[m - 1] ∈ rows.drop j := by
        rw [List.mem_iff_getElem?]
        exact ⟨m - 1 - j, by rw [List.getElem?_drop, Nat.add_sub_cancel' (by omega), hlast]⟩
      rw [← heq] at hmem
      rw [(List.mem_filter.mp hmem).2] at hlastp
      cases hlastp
    rw [heq, Nat.le_antisymm hle hge]

/-! ### Following cursors -/

section Follow

variable {fetch : Option κ → Except ε (Page ρ κ)} {limit : ℕ} {cursorOf : ρ → Except ε κ}
  {after : ρ → Option (ρ → Bool)} {rows : List ρ}

/-- The page for a cursor is cut from the rows from `j` on. -/
def FetchesFrom (fetch : Option κ → Except ε (Page ρ κ)) (limit : ℕ) (cursorOf : ρ → Except ε κ)
    (rows : List ρ) (cursor : Option κ) (j : ℕ) : Prop :=
  fetch cursor = pageOf limit cursorOf ((rows.drop j).take (limit + 1))

/-- The cursor of `last` admits what comes after it and nothing else. -/
def Resumes (after : ρ → Option (ρ → Bool)) (last next : ρ) : Prop :=
  ∃ p, after last = some p ∧ p last = false ∧ p next = true

theorem getElem?_of_lt {m : ℕ} (h : m < rows.length) : ∃ r ∈ rows, rows[m]? = some r :=
  ⟨rows[m], List.getElem_mem h, List.getElem?_eq_getElem h⟩

/-- A page that was fetched is the last one, or a full one with the cursor of its last row. -/
theorem fetched_cases (hlimit : 0 < limit) {cursor : Option κ} {j : ℕ}
    (hfetch : FetchesFrom fetch limit cursorOf rows cursor j) {page : Page ρ κ}
    (hpage : fetch cursor = .ok page) :
    (rows.length ≤ j + limit ∧ page = ⟨rows.drop j, none, false⟩) ∨
      (j + limit < rows.length ∧ ∃ last c, rows[j + limit - 1]? = some last ∧
        cursorOf last = .ok c ∧ page = ⟨(rows.drop j).take limit, some c, true⟩) := by
  unfold FetchesFrom at hfetch
  by_cases hfits : (rows.drop j).length ≤ limit
  · rw [pageOf_last hfits, hpage] at hfetch
    rw [List.length_drop] at hfits
    exact Or.inl ⟨by omega, Except.ok.inj hfetch⟩
  · have hmore := Nat.lt_of_not_le hfits
    have hlastLt : limit - 1 < (rows.drop j).length := by omega
    obtain ⟨last, -, hlast⟩ := getElem?_of_lt hlastLt
    rw [pageOf_more hlimit hmore hlast, hpage] at hfetch
    have hindex : rows[j + limit - 1]? = some last := by
      rw [← hlast, List.getElem?_drop]
      exact congrArg (rows[·]?) (by omega)
    rw [List.length_drop] at hmore
    cases hcursor : cursorOf last with
    | error e =>
      rw [hcursor] at hfetch
      cases hfetch
    | ok c =>
      rw [hcursor] at hfetch
      exact Or.inr ⟨by omega, last, c, hindex, hcursor, Except.ok.inj hfetch⟩

/-- The pages from the row `j` on, where every later boundary is resumed. -/
theorem follows_of_resumes (h : Serves fetch limit cursorOf after rows) (hlimit : 0 < limit)
    (hnodup : rows.Nodup)
    (hresumes : ∀ last next, Boundary limit rows last next → Resumes after last next)
    {j : ℕ} (hj : limit ∣ j) {cursor : Option κ}
    (hfetch : FetchesFrom fetch limit cursorOf rows cursor j) :
    ∃ pages, Follows fetch cursor pages ∧ pages.flatten = rows.drop j := by
  induction hleft : rows.length - j using Nat.strongRecOn generalizing j cursor with
  | ind left ih =>
    unfold FetchesFrom at hfetch
    by_cases hfits : (rows.drop j).length ≤ limit
    · rw [pageOf_last hfits] at hfetch
      exact ⟨_, Follows.last hfetch rfl, List.flatten_singleton⟩
    · have hmore : j + limit < rows.length := by
        rw [List.length_drop] at hfits
        omega
      have hdvd : limit ∣ j + limit := (Nat.dvd_add_right hj).mpr (Nat.dvd_refl limit)
      have hlastLt : j + limit - 1 < rows.length := by omega
      obtain ⟨last, hlastMem, hlast⟩ := getElem?_of_lt hlastLt
      obtain ⟨next, -, hnext⟩ := getElem?_of_lt hmore
      obtain ⟨p, hafter, hp⟩ := hresumes last next ⟨j + limit, by omega, hdvd, hlast, hnext⟩
      obtain ⟨cursor', hcursor, hnextFetch⟩ := h.next last hlastMem p hafter
      have hdrop := (filter_eq_drop_iff hnodup (h.suffix last p hafter) (by omega) hlast hnext).mpr hp
      rw [hdrop] at hnextFetch
      have hpageLast : (rows.drop j)[limit - 1]? = some last := by
        rw [List.getElem?_drop, ← hlast]
        exact congrArg (rows[·]?) (by omega)
      rw [pageOf_more hlimit (Nat.lt_of_not_le hfits) hpageLast, hcursor] at hfetch
      obtain ⟨pages, hpages, hflatten⟩ :=
        ih (rows.length - (j + limit)) (by omega) hdvd hnextFetch rfl
      refine ⟨_, Follows.next hfetch rfl hpages, ?_⟩
      rw [List.flatten_cons, hflatten, ← List.drop_drop, List.take_append_drop]

/-- What a reader gets begins with the rows from `j` on, if there are any. -/
theorem Follows.head?_flatten (hlimit : 0 < limit) {cursor : Option κ} {pages : List (List ρ)}
    (hfollows : Follows fetch cursor pages) {j : ℕ}
    (hfetch : FetchesFrom fetch limit cursorOf rows cursor j) :
    pages.flatten.head? = rows[j]? := by
  have hdrop : (rows.drop j).head? = rows[j]? := List.head?_drop ..
  have htake : ((rows.drop j).take limit).head? = rows[j]? := by
    rw [List.head?_take, if_neg (by omega), hdrop]
  cases hfollows with
  | last hpage hnone =>
    rcases fetched_cases hlimit hfetch hpage with ⟨-, rfl⟩ | ⟨-, _, _, -, -, rfl⟩
    · rw [List.flatten_singleton, hdrop]
    · cases hnone
  | next hpage hsome hrest =>
    rcases fetched_cases hlimit hfetch hpage with ⟨-, rfl⟩ | ⟨hmore, _, _, -, -, rfl⟩
    · cases hsome
    · rw [List.flatten_cons, List.head?_append, htake, List.getElem?_eq_getElem (by omega)]
      rfl

theorem resumes_of_follows (h : Serves fetch limit cursorOf after rows) (hlimit : 0 < limit)
    (hnodup : rows.Nodup) {cursor : Option κ} {pages : List (List ρ)}
    (hfollows : Follows fetch cursor pages) {j : ℕ} (hj : limit ∣ j)
    (hfetch : FetchesFrom fetch limit cursorOf rows cursor j) (hall : pages.flatten = rows.drop j)
    {m : ℕ} (hm : j < m) (hdvd : limit ∣ m) {last next : ρ} (hlast : rows[m - 1]? = some last)
    (hnext : rows[m]? = some next) : Resumes after last next := by
  have hmlt : m < rows.length := (List.getElem?_eq_some_iff.mp hnext).1
  have hstep : j + limit ≤ m := by
    obtain ⟨a, rfl⟩ := hj
    obtain ⟨b, rfl⟩ := hdvd
    have hab : a < b := Nat.lt_of_mul_lt_mul_left hm
    calc limit * a + limit = limit * (a + 1) := (Nat.mul_succ limit a).symm
      _ ≤ limit * b := Nat.mul_le_mul_left limit hab
  induction hfollows generalizing j with
  | @last cursor page hpage hnone =>
    rcases fetched_cases hlimit hfetch hpage with ⟨hend, -⟩ | ⟨-, _, _, -, -, rfl⟩
    · omega
    · cases hnone
  | @next cursor page cursor' pages hpage hsome hrest ih =>
    rcases fetched_cases hlimit hfetch hpage with ⟨-, rfl⟩ | ⟨hmore, pageLast, c, hpageLast, hc, rfl⟩
    · cases hsome
    obtain rfl := Option.some.inj hsome
    have hlastMem : pageLast ∈ rows := List.mem_of_getElem? hpageLast
    -- the reader went on, so the database took the cursor
    have hfetched : ∃ page, fetch (some c) = .ok page := by
      cases hrest with
      | last hpage' _ => exact ⟨_, hpage'⟩
      | next hpage' _ _ => exact ⟨_, hpage'⟩
    cases hafter : after pageLast with
    | none =>
      obtain ⟨page', hpage'⟩ := hfetched
      exact absurd hpage' (h.stuck pageLast hlastMem hafter c hc page')
    | some p =>
      obtain ⟨c', hc', hnextFetch⟩ := h.next pageLast hlastMem p hafter
      obtain rfl := Except.ok.inj (hc.symm.trans hc')
      obtain ⟨j', -, hsuffix⟩ := exists_filter_eq_drop (h.suffix pageLast p hafter)
      rw [hsuffix] at hnextFetch
      have hrestAll : pages.flatten = rows.drop (j + limit) := by
        have hsplit : (rows.drop j).take limit ++ (rows.drop j).drop limit = rows.drop j :=
          List.take_append_drop limit (rows.drop j)
        rw [List.flatten_cons] at hall
        rw [List.append_cancel_left (hall.trans hsplit.symm), List.drop_drop]
      -- what follows starts at the row `j'` and at the row `j + limit`
      have hhead := hrest.head?_flatten hlimit hnextFetch
      rw [hrestAll, List.head?_drop, List.getElem?_eq_getElem hmore] at hhead
      obtain ⟨hlt', heq'⟩ := List.getElem?_eq_some_iff.mp hhead.symm
      have hj' : j' = j + limit := hnodup.getElem_inj_iff.mp heq'
      subst hj'
      rcases Nat.eq_or_lt_of_le hstep with rfl | hlt
      · obtain rfl := Option.some.inj (hpageLast.symm.trans hlast)
        exact ⟨p, hafter, (filter_eq_drop_iff hnodup (h.suffix pageLast p hafter) (by omega)
          hlast hnext).mp hsuffix⟩
      · have hdvd' : limit ∣ j + limit := (Nat.dvd_add_right hj).mpr (Nat.dvd_refl limit)
        refine ih hdvd' hnextFetch hrestAll hlt ?_
        have hrem := (Nat.dvd_sub hdvd hdvd')
        have hle := Nat.le_of_dvd (by omega) hrem
        omega

/-- The rows come out once and in order exactly if every boundary is resumed. -/
theorem enumerates_iff (h : Serves fetch limit cursorOf after rows) (hlimit : 0 < limit)
    (hnodup : rows.Nodup) :
    Enumerates fetch rows ↔ ∀ last next, Boundary limit rows last next → Resumes after last next := by
  have hfirst : FetchesFrom fetch limit cursorOf rows none 0 := h.first
  constructor
  · rintro ⟨pages, hfollows, hall⟩ last next ⟨m, hm, hdvd, hlast, hnext⟩
    exact resumes_of_follows h hlimit hnodup hfollows (Nat.dvd_zero limit) hfirst hall hm hdvd hlast
      hnext
  · intro hresumes
    exact follows_of_resumes h hlimit hnodup hresumes (Nat.dvd_zero limit) hfirst

end Follow

end VcCommonService.Lib.Paging
