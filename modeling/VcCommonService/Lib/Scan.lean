import VcCommonService.Lib.Select

/-!
# Reading a table by its last row

A reader asks for the first rows in the order of a key, then again for rows past the last one it
has got, until nothing comes. The key need not tell rows apart: the database may answer with ties
in any order, so what a request answers is a relation. A bound made from the key of the last
row says what is past it. All rows come out once exactly if at each end of a page the bound is there and
lies before the next row.
-/

namespace VcCommonService.Lib.Scan
open Table

variable {ρ κ γ ε : Type*}

/-- Whatever the requests answer, a reader who has gathered these rows comes to an empty page, and has
gathered each row once then. -/
inductive Completes (finds : Option γ → Except ε (List ρ) → Prop) (cursorOf : ρ → γ)
    (rows : List ρ) : Option γ → List ρ → Prop
  | intro {cursor gathered} (answers : ∀ error, ¬ finds cursor (.error error))
      (ends : finds cursor (.ok []) → gathered.Perm rows)
      (goes : ∀ page last, finds cursor (.ok page) → page.getLast? = some last →
        Completes finds cursorOf rows (some (cursorOf last)) (gathered ++ page)) :
      Completes finds cursorOf rows cursor gathered

/-- `last` is the key at the end of a page, `next` the key after it. -/
def PageEnd (limit : ℕ) (keys : List κ) (last : κ) (next : Option κ) : Prop :=
  ∃ m, 0 < m ∧ (limit ∣ m ∨ m = keys.length) ∧ keys[m - 1]? = some last ∧ keys[m]? = next

theorem pageEnd_pair {limit : ℕ} {a b last : κ} {next : Option κ} (h : PageEnd limit [a, b] last next) :
    (last = a ∧ next = some b) ∨ (last = b ∧ next = none) := by
  obtain ⟨m, hm, -, hlast, rfl⟩ := h
  have hlt := (List.getElem?_eq_some_iff.mp hlast).1
  rw [List.length_cons, List.length_singleton] at hlt
  rcases (by omega : m = 1 ∨ m = 2) with rfl | rfl
  · exact Or.inl ⟨(Option.some.inj hlast).symm, rfl⟩
  · exact Or.inr ⟨(Option.some.inj hlast).symm, rfl⟩

variable [LinearOrder κ]

/-- A request that finds `rest`. -/
def Finds (finds : Option γ → Except ε (List ρ) → Prop) (limit : ℕ) (rank : ρ → κ) (rest : List ρ)
    (cursor : Option γ) : Prop :=
  ∀ answer, finds cursor answer ↔
    ∃ order : List ρ, order.Perm rest ∧ (order.Pairwise fun a b => rank a ≤ rank b) ∧
      answer = .ok (order.take limit)

structure Serves (finds : Option γ → Except ε (List ρ) → Prop) (cursorOf : ρ → γ) (limit : ℕ)
    (rank : ρ → κ) (bound : κ → Option κ) (rows : List ρ) : Prop where
  first : Finds finds limit rank rows none
  next : ∀ r ∈ rows, ∀ b, bound (rank r) = some b →
    Finds finds limit rank (rows.filter fun r => decide (b < rank r)) (some (cursorOf r))
  stuck : ∀ r ∈ rows, bound (rank r) = none → ∃ error, finds (some (cursorOf r)) (.error error)
  le_bound : ∀ k b, bound k = some b → k ≤ b

def keys (rank : ρ → κ) (rows : List ρ) : List κ := (orderBy rank rows).map rank

section Keys

variable {rank : ρ → κ} {rows : List ρ}

/-- The keys come out in the same order whatever the ties do. -/
theorem map_eq_keys {order : List ρ} (hperm : order.Perm rows)
    (hsorted : order.Pairwise fun a b => rank a ≤ rank b) : order.map rank = keys rank rows := by
  have hpermKeys : (order.map rank).Perm (keys rank rows) :=
    (hperm.trans (perm_orderBy rank rows).symm).map rank
  have hkeys : (keys rank rows).Pairwise (· ≤ ·) :=
    List.pairwise_map.mpr (sorted_orderBy rank rows)
  exact hpermKeys.eq_of_pairwise (fun _ _ _ _ => le_antisymm) (List.pairwise_map.mpr hsorted) hkeys

theorem length_keys : (keys rank rows).length = rows.length := by
  rw [keys, List.length_map]
  exact (perm_orderBy rank rows).length_eq

end Keys

section Reader

variable {finds : Option γ → Except ε (List ρ) → Prop} {cursorOf : ρ → γ} {limit : ℕ} {rank : ρ → κ}
  {bound : κ → Option κ} {rows : List ρ}

/-- A reader who has gathered some rows, with the rest to come. -/
structure At (finds : Option γ → Except ε (List ρ) → Prop) (limit : ℕ) (rank : ρ → κ)
    (rows : List ρ) (cursor : Option γ) (gathered rest : List ρ) : Prop where
  left : Finds finds limit rank rest cursor
  perm : (gathered ++ rest).Perm rows
  le : ∀ a ∈ gathered, ∀ r ∈ rest, rank a ≤ rank r

namespace At

variable {cursor : Option γ} {gathered rest order : List ρ}

theorem map_order (h : At finds limit rank rows cursor gathered rest) (hperm : order.Perm rest)
    (hsorted : order.Pairwise fun a b => rank a ≤ rank b) :
    order.map rank = (keys rank rows).drop gathered.length := by
  have hgathered := perm_orderBy rank gathered
  have hall : (orderBy rank gathered ++ order).Perm rows := (hgathered.append hperm).trans h.perm
  have hallSorted : (orderBy rank gathered ++ order).Pairwise fun a b => rank a ≤ rank b := by
    refine List.pairwise_append.mpr ⟨sorted_orderBy rank gathered, hsorted, fun a ha b hb => ?_⟩
    exact h.le a (hgathered.mem_iff.mp ha) b (hperm.mem_iff.mp hb)
  rw [← map_eq_keys hall hallSorted, List.map_append, List.drop_left']
  rw [List.length_map, hgathered.length_eq]

/-- The page that is read next, and the keys at its end. -/
theorem getLast_page (h : At finds limit rank rows cursor gathered rest)
    (hperm : order.Perm rest) (hsorted : order.Pairwise fun a b => rank a ≤ rank b) {last : ρ}
    (hlast : (order.take limit).getLast? = some last) :
    ∃ m, m = gathered.length + (order.take limit).length ∧ gathered.length < m ∧
      m = min (gathered.length + limit) rows.length ∧
      (keys rank rows)[m - 1]? = some (rank last) ∧
      (keys rank rows)[m]? = ((order.drop limit).map rank).head? := by
  have hkeys := h.map_order hperm hsorted
  have hlength : gathered.length + order.length = rows.length := by
    rw [← h.perm.length_eq, List.length_append, hperm.length_eq]
  have hne : 0 < (order.take limit).length :=
    List.length_pos_iff.mpr (List.ne_nil_of_mem (List.mem_of_getLast? hlast))
  have htake := List.length_take (i := limit) (l := order)
  refine ⟨_, rfl, Nat.lt_add_of_pos_right hne, by omega, ?_, ?_⟩
  · have hindex : order[(order.take limit).length - 1]? = some last := by
      rw [List.getLast?_eq_getElem?, List.getElem?_take_of_lt (by omega)] at hlast
      exact hlast
    have hkey : (order.map rank)[(order.take limit).length - 1]? = some (rank last) := by
      rw [List.getElem?_map, hindex]
      rfl
    rw [hkeys, List.getElem?_drop] at hkey
    rw [← hkey]
    exact congrArg ((keys rank rows)[·]?) (by omega)
  · rw [List.map_drop, hkeys, List.head?_drop, List.getElem?_drop]
    by_cases hall : limit ≤ order.length
    · exact congrArg ((keys rank rows)[·]?) (by omega)
    · have hend : (keys rank rows).length = rows.length := length_keys
      rw [List.getElem?_eq_none (by omega), List.getElem?_eq_none (by omega)]

/-- A bound between the page and the rest of the rows moves the reader on. -/
theorem advance (h : At finds limit rank rows cursor gathered rest)
    (hserves : Serves finds cursorOf limit rank bound rows) (hperm : order.Perm rest)
    (hsorted : order.Pairwise fun a b => rank a ≤ rank b) {last : ρ}
    (hlast : (order.take limit).getLast? = some last) {b : κ} (hbound : bound (rank last) = some b)
    (hnext : ∀ k ∈ ((order.drop limit).map rank).head?, b < k) :
    At finds limit rank rows (some (cursorOf last)) (gathered ++ order.take limit)
      (order.drop limit) := by
  have hsplit : order.take limit ++ order.drop limit = order := List.take_append_drop limit order
  have hperm' : (gathered ++ order.take limit ++ order.drop limit).Perm rows := by
    rw [List.append_assoc, hsplit]
    exact (hperm.append_left gathered).trans h.perm
  have hlastMem : last ∈ order.take limit := List.mem_of_getLast? hlast
  have hmem : last ∈ rows := hperm'.mem_iff.mp
    (List.mem_append_left _ (List.mem_append_right _ hlastMem))
  rw [← hsplit] at hsorted
  obtain ⟨hpageSorted, hrestSorted, hcross⟩ := List.pairwise_append.mp hsorted
  have hpageLast : ∀ a ∈ order.take limit, rank a ≤ rank last := by
    obtain ⟨init, hinit⟩ := List.getLast?_eq_some_iff.mp hlast
    intro a ha
    rw [hinit] at ha hpageSorted
    rcases List.mem_append.mp ha with ha | ha
    · exact (List.pairwise_append.mp hpageSorted).2.2 a ha last (List.mem_singleton_self last)
    · rw [List.mem_singleton.mp ha]
  have hgatheredLast : ∀ a ∈ gathered, rank a ≤ rank last := fun a ha =>
    h.le a ha last (hperm.mem_iff.mp (List.mem_of_mem_take hlastMem))
  have hbefore : ∀ a ∈ gathered ++ order.take limit, ¬ b < rank a := by
    intro a ha
    refine not_lt.mpr ((?_ : rank a ≤ rank last).trans (hserves.le_bound _ _ hbound))
    rcases List.mem_append.mp ha with ha | ha
    · exact hgatheredLast a ha
    · exact hpageLast a ha
  have hafter : ∀ r ∈ order.drop limit, b < rank r := by
    intro r hr
    cases hdrop : order.drop limit with
    | nil =>
      rw [hdrop] at hr
      cases hr
    | cons first tail =>
      rw [hdrop] at hr hnext hrestSorted
      have hfirst : b < rank first := hnext (rank first) rfl
      rcases List.mem_cons.mp hr with rfl | hr
      · exact hfirst
      · exact hfirst.trans_le ((List.pairwise_cons.mp hrestSorted).1 r hr)
  have hfilter : (rows.filter fun r => decide (b < rank r)).Perm (order.drop limit) := by
    refine (hperm'.symm.filter _).trans ?_
    rw [List.filter_append, List.filter_eq_nil_iff.mpr fun a ha => by simpa using hbefore a ha,
      List.filter_eq_self.mpr fun r hr => by simpa using hafter r hr, List.nil_append]
  refine ⟨?_, hperm', ?_⟩
  · intro answer
    refine (hserves.next last hmem b hbound answer).trans (exists_congr fun order' => ?_)
    exact and_congr_left fun _ => ⟨fun hp => hp.trans hfilter, fun hp => hp.trans hfilter.symm⟩
  · intro a ha r hr
    exact (not_lt.mp (hbefore a ha)).trans (hafter r hr).le

end At

theorem At.start (hserves : Serves finds cursorOf limit rank bound rows) :
    At finds limit rank rows none [] rows where
  left := hserves.first
  perm := List.Perm.refl rows
  le := nofun

/-- With a bound at every page end that is still to come, the reader gets all rows. -/
theorem At.completes (hserves : Serves finds cursorOf limit rank bound rows) (hlimit : 0 < limit)
    (hbounds : ∀ last next, PageEnd limit (keys rank rows) last next →
      ∃ b, bound last = some b ∧ ∀ k ∈ next, b < k)
    {cursor : Option γ} {gathered rest : List ρ}
    (h : At finds limit rank rows cursor gathered rest)
    (hdvd : limit ∣ gathered.length ∨ rest = []) :
    Completes finds cursorOf rows cursor gathered := by
  induction hsize : rest.length using Nat.strongRecOn generalizing cursor gathered rest with
  | ind size ih =>
    refine Completes.intro ?_ ?_ ?_
    · intro error herror
      obtain ⟨_, -, -, hanswer⟩ := (h.left _).mp herror
      cases hanswer
    · intro hempty
      obtain ⟨order, hperm, -, hanswer⟩ := (h.left _).mp hempty
      have hnil : order = [] := by
        rcases List.take_eq_nil_iff.mp (Except.ok.inj hanswer).symm with hzero | hnil
        · omega
        · exact hnil
      have hrest : rest = [] := List.Perm.eq_nil (hnil ▸ hperm.symm)
      have hgathered := h.perm
      rwa [hrest, List.append_nil] at hgathered
    · intro page last hpage hlast
      obtain ⟨order, hperm, hsorted, hanswer⟩ := (h.left _).mp hpage
      obtain rfl := Except.ok.inj hanswer
      obtain ⟨m, hm, hlt, hend, hkey, hnext⟩ := h.getLast_page hperm hsorted hlast
      have hdvd : limit ∣ gathered.length := by
        rcases hdvd with hdvd | rfl
        · exact hdvd
        · rw [List.perm_nil.mp hperm, List.take_nil] at hlast
          cases hlast
      have hpageEnd : PageEnd limit (keys rank rows) (rank last)
          ((order.drop limit).map rank).head? := by
        refine ⟨m, by omega, ?_, hkey, hnext⟩
        rw [length_keys]
        rcases le_total (gathered.length + limit) rows.length with hfull | hshort
        · rw [hend, Nat.min_eq_left hfull]
          exact Or.inl ((Nat.dvd_add_right hdvd).mpr (Nat.dvd_refl limit))
        · exact Or.inr (hend.trans (Nat.min_eq_right hshort))
      obtain ⟨b, hbound, hbefore⟩ := hbounds _ _ hpageEnd
      have hadvance := h.advance hserves hperm hsorted hlast hbound hbefore
      have hlength := hadvance.perm.length_eq
      rw [List.length_append, List.length_append, ← hm] at hlength
      refine ih (order.drop limit).length ?_ hadvance ?_ rfl
      · have horder := hperm.length_eq
        have htake := List.length_take (i := limit) (l := order)
        rw [List.length_drop]
        omega
      · rw [List.length_append, ← hm]
        rcases le_total (gathered.length + limit) rows.length with hfull | hshort
        · rw [hend, Nat.min_eq_left hfull]
          exact Or.inl ((Nat.dvd_add_right hdvd).mpr (Nat.dvd_refl limit))
        · exact Or.inr (List.eq_nil_of_length_eq_zero (by omega))

/-- A row that is not past the bound is never read any more. -/
theorem Completes.mem_gathered (hserves : Serves finds cursorOf limit rank bound rows)
    {cursor : Option γ} {gathered : List ρ}
    (hcompletes : Completes finds cursorOf rows cursor gathered) {last x : ρ} (hlast : last ∈ rows)
    (hcursor : cursor = some (cursorOf last)) {b : κ} (hbound : bound (rank last) = some b)
    (hx : x ∈ rows) (hle : rank x ≤ b) : x ∈ gathered := by
  induction hcompletes generalizing last b with
  | intro answers ends goes ih =>
    subst hcursor
    have hfinds := hserves.next last hlast b hbound
    obtain ⟨order, horder⟩ : ∃ order, order =
        orderBy rank (rows.filter fun r => decide (b < rank r)) := ⟨_, rfl⟩
    have hperm : order.Perm (rows.filter fun r => decide (b < rank r)) := horder ▸ perm_orderBy _ _
    have hpage := (hfinds (.ok (order.take limit))).mpr
      ⟨order, hperm, horder ▸ sorted_orderBy _ _, rfl⟩
    have hpast : ∀ r ∈ order, r ∈ rows ∧ b < rank r := fun r hr => by
      simpa using hperm.mem_iff.mp hr
    cases hlast' : (order.take limit).getLast? with
    | none =>
      rw [List.getLast?_eq_none_iff.mp hlast'] at hpage
      exact (ends hpage).mem_iff.mpr hx
    | some last' =>
      have hmem' := hpast last' (List.mem_of_mem_take (List.mem_of_getLast? hlast'))
      cases hbound' : bound (rank last') with
      | none =>
        obtain ⟨error, herror⟩ := hserves.stuck last' hmem'.1 hbound'
        obtain ⟨hnext, -, -⟩ := goes _ last' hpage hlast'
        exact absurd herror (hnext error)
      | some b' =>
        have hle' := hserves.le_bound _ _ hbound'
        have hx' := ih _ last' hpage hlast' hmem'.1 rfl hbound' (hle.trans (hmem'.2.le.trans hle'))
        rcases List.mem_append.mp hx' with hx' | hx'
        · exact hx'
        · exact absurd (hpast x (List.mem_of_mem_take hx')).2 (not_lt.mpr hle)

/-- A reader who gets all rows finds a bound at every page end that is still to come. -/
theorem At.bounds (hserves : Serves finds cursorOf limit rank bound rows) (hlimit : 0 < limit)
    (hnodup : rows.Nodup) {cursor : Option γ} {gathered rest : List ρ}
    (hcompletes : Completes finds cursorOf rows cursor gathered)
    (h : At finds limit rank rows cursor gathered rest) (hdvd : limit ∣ gathered.length)
    {m : ℕ} (hm : gathered.length < m) (hend : limit ∣ m ∨ m = rows.length) {last : κ}
    (hlast : (keys rank rows)[m - 1]? = some last) :
    ∃ b, bound last = some b ∧ ∀ k ∈ (keys rank rows)[m]?, b < k := by
  induction hcompletes generalizing rest with
  | @intro cursor gathered answers ends goes ih =>
    have hmle : m ≤ rows.length := by
      have hlt := (List.getElem?_eq_some_iff.mp hlast).1
      rw [length_keys] at hlt
      omega
    obtain ⟨order, horder⟩ : ∃ order, order = orderBy rank rest := ⟨_, rfl⟩
    have hperm : order.Perm rest := horder ▸ perm_orderBy rank rest
    have hsorted : order.Pairwise fun a b => rank a ≤ rank b := horder ▸ sorted_orderBy rank rest
    have hpage := (h.left (.ok (order.take limit))).mpr ⟨order, hperm, hsorted, rfl⟩
    have hne : order.take limit ≠ [] := by
      intro hnil
      have hall := h.perm.length_eq
      have hlength := hperm.length_eq
      rcases List.take_eq_nil_iff.mp hnil with hzero | hnil
      · omega
      · rw [hnil, List.length_nil] at hlength
        rw [List.length_append] at hall
        omega
    have hlast' := List.getLast?_eq_some_getLast hne
    obtain ⟨m₀, hm₀, hlt₀, hend₀, hkey, hnext⟩ := h.getLast_page hperm hsorted hlast'
    have hmem : (order.take limit).getLast hne ∈ rows := h.perm.mem_iff.mp (List.mem_append_right _
      (hperm.mem_iff.mp (List.mem_of_mem_take (List.getLast_mem hne))))
    have hgoes := goes _ _ hpage hlast'
    cases hbound : bound (rank ((order.take limit).getLast hne)) with
    | none =>
      obtain ⟨error, herror⟩ := hserves.stuck _ hmem hbound
      obtain ⟨hnone, -, -⟩ := hgoes
      exact absurd herror (hnone error)
    | some b =>
      have hbefore : ∀ k ∈ ((order.drop limit).map rank).head?, b < k := by
        intro k hk
        by_contra hle
        rw [List.head?_map, Option.mem_map] at hk
        obtain ⟨x, hx, rfl⟩ := hk
        have hxDrop : x ∈ order.drop limit := List.mem_of_mem_head? hx
        have hsplit : (gathered ++ order.take limit ++ order.drop limit).Perm rows := by
          rw [List.append_assoc, List.take_append_drop]
          exact (hperm.append_left gathered).trans h.perm
        have hxRows : x ∈ rows := hsplit.mem_iff.mp (List.mem_append_right _ hxDrop)
        have hxGathered := hgoes.mem_gathered hserves hmem rfl hbound hxRows (not_lt.mp hle)
        have hdisjoint := List.disjoint_of_nodup_append (hsplit.nodup_iff.mpr hnodup)
        exact hdisjoint hxGathered hxDrop
      have hle : m₀ ≤ m := by
        rcases hend with hdvd' | rfl
        · have hrem := Nat.le_of_dvd (Nat.sub_pos_of_lt hm) (Nat.dvd_sub hdvd' hdvd)
          omega
        · omega
      rcases hle.lt_or_eq with hlt | rfl
      · have hm₀' : m₀ = gathered.length + limit := by omega
        have hgathered : (gathered ++ order.take limit).length = m₀ := by
          rw [List.length_append, ← hm₀]
        refine ih _ _ hpage hlast' (h.advance hserves hperm hsorted hlast' hbound hbefore) ?_ ?_
        · rw [hgathered, hm₀']
          exact (Nat.dvd_add_right hdvd).mpr (Nat.dvd_refl limit)
        · rwa [hgathered]
      · obtain rfl := Option.some.inj (hlast.symm.trans hkey)
        rw [hnext]
        exact ⟨b, hbound, hbefore⟩

/-- Each row is read once, whatever the ties do, exactly if every page end has a bound that
lies before the next key. -/
theorem completes_iff (hserves : Serves finds cursorOf limit rank bound rows) (hlimit : 0 < limit)
    (hnodup : rows.Nodup) :
    Completes finds cursorOf rows none [] ↔
      ∀ last next, PageEnd limit (keys rank rows) last next →
        ∃ b, bound last = some b ∧ ∀ k ∈ next, b < k := by
  constructor
  · rintro hcompletes last next ⟨m, hm, hend, hlast, rfl⟩
    rw [length_keys] at hend
    exact At.bounds hserves hlimit hnodup hcompletes (At.start hserves) (Nat.dvd_zero limit) hm hend
      hlast
  · intro hbounds
    exact (At.start hserves).completes hserves hlimit hbounds (Or.inl (Nat.dvd_zero limit))

end Reader

end VcCommonService.Lib.Scan
