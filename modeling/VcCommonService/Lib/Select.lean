import Mathlib.Data.Prod.Lex
import VcCommonService.Lib.Table

/-!
# Reading tables

A row is looked up by its key; after a write the lookup says what became of the row. A
query with `ORDER BY` may return rows of equal rank in any order, and one with `LIMIT` takes the
first rows of such an order.
-/

namespace VcCommonService.Lib.Table

variable {ρ κ : Type*}

/-! ### Lookup by key -/

section Lookup

variable [DecidableEq κ]

def lookup (key : ρ → κ) (k : κ) (t : List ρ) : Option ρ := t.find? fun r => decide (key r = k)

variable {key : ρ → κ} {t : List ρ}

theorem mem_of_lookup {k : κ} {r : ρ} (h : lookup key k t = some r) : r ∈ t ∧ key r = k :=
  ⟨List.mem_of_find?_eq_some h, by simpa using List.find?_some h⟩

theorem lookup_eq_some_iff (hu : UniqueKeys key t) {k : κ} {r : ρ} :
    lookup key k t = some r ↔ r ∈ t ∧ key r = k := by
  refine ⟨mem_of_lookup, ?_⟩
  rintro ⟨hr, hk⟩
  cases hfind : lookup key k t with
  | none =>
    have hnot := List.find?_eq_none.mp hfind r hr
    simp [hk] at hnot
  | some q =>
    obtain ⟨hmem, hq⟩ := mem_of_lookup hfind
    rw [eq_of_key hu hmem hr (hq.trans hk.symm)]

theorem lookup_eq_of_iff {t' : List ρ} {k : κ} {found : Option ρ} (hu : UniqueKeys key t')
    (h : ∀ r, found = some r ↔ r ∈ t' ∧ key r = k) : lookup key k t' = found := by
  ext r
  rw [lookup_eq_some_iff hu, h]

theorem lookup_save (row : ρ) (k : κ) (t : List ρ) :
    lookup key k (save key row t) = if key row = k then some row else lookup key k t := by
  unfold lookup
  induction t with
  | nil => by_cases hk : key row = k <;> simp [save, hk]
  | cons q qs ih =>
    by_cases hq : key q = key row
    · by_cases hk : key row = k
      · simp [save, hq, hk]
      · simp [save, hq, hk]
    · by_cases hqk : key q = k
      · have hk : key row ≠ k := fun hk => hq (hqk.trans hk.symm)
        simp [save, hqk, hk, Ne.symm hk]
      · simp [save, hq, hqk, ih]

theorem lookup_updateWhere (p : ρ → Bool) {f : ρ → ρ} (hf : ∀ r, key (f r) = key r) (k : κ)
    (t : List ρ) :
    lookup key k (updateWhere p f t) = (lookup key k t).map fun r => if p r then f r else r := by
  have hkey : ∀ r, key (if p r then f r else r) = key r := by
    intro r
    split
    · exact hf r
    · rfl
  unfold lookup updateWhere
  rw [List.find?_map]
  refine congrArg (Option.map _) (congrArg (List.find? · t) (funext fun r => ?_))
  rw [Function.comp_apply, hkey]

theorem lookup_deleteWhere (hu : UniqueKeys key t) (p : ρ → Bool) (k : κ) :
    lookup key k (deleteWhere p t) = (lookup key k t).filter fun r => !p r := by
  refine lookup_eq_of_iff (uniqueKeys_deleteWhere p hu) fun r => ?_
  rw [mem_deleteWhere, Option.filter_eq_some_iff, lookup_eq_some_iff hu, Bool.not_eq_true']
  exact and_right_comm

theorem lookup_deleteWhere_some (hu : UniqueKeys key t) (p : ρ → Bool) {k : κ} {r : ρ}
    (h : lookup key k t = some r) :
    lookup key k (deleteWhere p t) = if p r then none else some r := by
  rw [lookup_deleteWhere hu, h]
  cases hp : p r <;> simp [hp]

/-- The rows with a key that satisfy a condition: the row of the key, if it does. -/
theorem filter_key (hu : UniqueKeys key t) (k : κ) (q : ρ → Bool) :
    (t.filter fun r => decide (key r = k) && q r) = ((lookup key k t).filter q).toList := by
  unfold lookup
  induction t with
  | nil => rfl
  | cons r t ih =>
    have hrest : UniqueKeys key t := (List.nodup_cons.mp hu).2
    by_cases hk : key r = k
    · have hnone : (t.filter fun r => decide (key r = k) && q r) = [] := by
        refine List.filter_eq_nil_iff.mpr fun r' hr' hboth => ?_
        rw [Bool.and_eq_true, decide_eq_true_eq] at hboth
        have hmem : key r ∈ t.map key := hk ▸ hboth.1 ▸ List.mem_map_of_mem hr'
        exact (List.nodup_cons.mp hu).1 hmem
      rw [List.filter_cons, hnone]
      cases hq : q r <;> simp [hk, Option.filter_some, hq]
    · rw [List.filter_cons, List.find?_cons]
      simpa [hk] using ih hrest

end Lookup

/-! ### `ORDER BY` with ties in any order -/

section Ordered

variable [LinearOrder κ]

/-- `order` is a result of `SELECT … WHERE p ORDER BY rank`. -/
def IsOrdered (rank : ρ → κ) (p : ρ → Bool) (t order : List ρ) : Prop :=
  order.Perm (t.filter p) ∧ order.Pairwise fun a b => rank a ≤ rank b

instance [DecidableEq ρ] (rank : ρ → κ) (p : ρ → Bool) (t order : List ρ) :
    Decidable (IsOrdered rank p t order) :=
  inferInstanceAs (Decidable (_ ∧ _))

theorem IsOrdered.mem_iff {rank : ρ → κ} {p : ρ → Bool} {t order : List ρ}
    (h : IsOrdered rank p t order) (r : ρ) : r ∈ order ↔ r ∈ t ∧ p r = true := by
  rw [h.1.mem_iff, List.mem_filter]

variable {rank : ρ → κ} {p : ρ → Bool} {t order : List ρ} {n : ℕ} {r : ρ}

theorem IsOrdered.countP_eq (h : IsOrdered rank p t order) (q : ρ → Bool) :
    order.countP q = t.countP fun x => p x && q x := by
  rw [h.1.countP_eq, List.countP_filter]
  congr 1
  funext x
  exact Bool.and_comm ..

theorem isOrdered_orderBy {ι : Type*} [LinearOrder ι] {rank' : ρ → ι}
    (hrank : ∀ a b, rank' a ≤ rank' b → rank a ≤ rank b) (p : ρ → Bool) (t : List ρ) :
    IsOrdered rank p t (orderBy rank' (t.filter p)) :=
  ⟨perm_orderBy rank' _, (sorted_orderBy rank' _).imp (hrank _ _)⟩

/-! ### `LIMIT` -/

theorem countP_lt_of_mem_take (hsorted : order.Pairwise fun a b => rank a ≤ rank b)
    (hr : r ∈ order.take n) : order.countP (fun x => decide (rank x < rank r)) < n := by
  obtain ⟨before, after, htake⟩ := List.append_of_mem hr
  have horder : order = before ++ r :: (after ++ order.drop n) := by
    rw [← List.cons_append, ← List.append_assoc, ← htake, List.take_append_drop]
  have hlength : before.length < n := by
    have h := List.length_take_le n order
    rw [htake, List.length_append, List.length_cons] at h
    omega
  -- nothing from `r` on is below it
  rw [horder] at hsorted
  have hrest := (List.pairwise_append.mp hsorted).2.1
  have hnone : (r :: (after ++ order.drop n)).countP (fun x => decide (rank x < rank r)) = 0 := by
    refine List.countP_eq_zero.mpr fun x hx => ?_
    have hle : rank r ≤ rank x := by
      rcases List.mem_cons.mp hx with rfl | hx
      · exact le_rfl
      · exact (List.pairwise_cons.mp hrest).1 x hx
    simpa using hle
  rw [horder, List.countP_append, hnone, Nat.add_zero]
  exact (List.countP_le_length ..).trans_lt hlength

theorem mem_take_of_countP_lt [DecidableEq ρ]
    (hsorted : order.Pairwise fun a b => rank a ≤ rank b) (hnodup : order.Nodup) (hr : r ∈ order)
    (hfew : order.countP (fun x => decide (x ≠ r) && decide (rank x ≤ rank r)) < n) :
    r ∈ order.take n := by
  obtain ⟨before, after, rfl⟩ := List.append_of_mem hr
  have hbefore : ∀ x ∈ before, x ≠ r ∧ rank x ≤ rank r := by
    intro x hx
    have hne := (List.nodup_append.mp hnodup).2.2 x hx r (List.mem_cons_self ..)
    exact ⟨hne, (List.pairwise_append.mp hsorted).2.2 x hx r (List.mem_cons_self ..)⟩
  have hcount : before.countP (fun x => decide (x ≠ r) && decide (rank x ≤ rank r)) =
      before.length := List.countP_eq_length.mpr fun x hx => by simpa using hbefore x hx
  rw [List.countP_append, hcount] at hfew
  have hlength : before.length < n := by omega
  obtain ⟨k, rfl⟩ := Nat.exists_eq_add_of_lt hlength
  rw [Nat.add_assoc, List.take_length_add_append, List.take_succ_cons]
  exact List.mem_append_right _ (List.mem_cons_self ..)

/-- Without ties, what comes after the first `n` rows has `n` rows before it. -/
theorem mem_drop_iff [DecidableEq ρ] (hsorted : order.Pairwise fun a b => rank a ≤ rank b)
    (hnodup : order.Nodup) (hties : ∀ x ∈ order, ∀ y ∈ order, rank x = rank y → x = y)
    (hr : r ∈ order) :
    r ∈ order.drop n ↔ n ≤ order.countP fun x => decide (rank x < rank r) := by
  have hcases : r ∈ order.take n ∨ r ∈ order.drop n := by
    rwa [← List.mem_append, List.take_append_drop]
  constructor
  · intro hdrop
    by_contra hfew
    have hbefore : order.countP (fun x => decide (x ≠ r) && decide (rank x ≤ rank r)) ≤
        order.countP fun x => decide (rank x < rank r) := by
      refine List.countP_mono_left fun x hx h => ?_
      simp only [Bool.and_eq_true, decide_eq_true_eq] at h ⊢
      exact lt_of_le_of_ne h.2 fun heq => h.1 (hties x hx r hr heq)
    have htake := mem_take_of_countP_lt hsorted hnodup hr (hbefore.trans_lt (not_le.mp hfew))
    have hdisjoint := List.disjoint_take_drop hnodup (le_refl n)
    exact hdisjoint htake hdrop
  · intro hmany
    rcases hcases with htake | hdrop
    · exact absurd (countP_lt_of_mem_take hsorted htake) (not_lt.mpr hmany)
    · exact hdrop

section Ties

variable [DecidableEq ρ]

/-- A row may be among the first `n` when fewer than `n` rows come before it in every order. -/
theorem exists_mem_take_iff (hnodup : t.Nodup) (hr : r ∈ t) (hp : p r = true) :
    (∃ order, IsOrdered rank p t order ∧ r ∈ order.take n) ↔
      (t.countP fun x => p x && decide (rank x < rank r)) < n := by
  constructor
  · rintro ⟨order, horder, hmem⟩
    rw [← horder.countP_eq]
    exact countP_lt_of_mem_take horder.2 hmem
  · intro hfew
    -- the order in which `r` is the first of its rank
    let first : ρ → κ ×ₗ ℕ := fun x => toLex (rank x, if x = r then 0 else 1)
    have hrank : ∀ a b, first a ≤ first b → rank a ≤ rank b := fun a b h =>
      Prod.Lex.monotone_fst _ _ h
    have horder := isOrdered_orderBy hrank p t
    have hsorted := sorted_orderBy first (t.filter p)
    refine ⟨_, horder, mem_take_of_countP_lt hsorted ?_ ((horder.mem_iff r).mpr ⟨hr, hp⟩) ?_⟩
    · exact (perm_orderBy first _).nodup_iff.mpr (hnodup.filter p)
    · rw [horder.countP_eq]
      refine lt_of_le_of_lt (List.countP_mono_left fun x _ hx => ?_) hfew
      simp only [Bool.and_eq_true, decide_eq_true_eq] at hx ⊢
      obtain ⟨hpx, hne, hle⟩ := hx
      refine ⟨hpx, ?_⟩
      rcases Prod.Lex.toLex_le_toLex.mp hle with hlt | ⟨-, hle⟩
      · exact hlt
      · simp [hne] at hle

/-- A row is among the first `n` in every order when fewer than `n` others can precede it. -/
theorem forall_mem_take_iff (hnodup : t.Nodup) (hr : r ∈ t) (hp : p r = true) :
    (∀ order, IsOrdered rank p t order → r ∈ order.take n) ↔
      (t.countP fun x => p x && (decide (x ≠ r) && decide (rank x ≤ rank r))) < n := by
  constructor
  · intro hall
    -- the order in which `r` is the last of its rank
    let last : ρ → κ ×ₗ ℕ := fun x => toLex (rank x, if x = r then 1 else 0)
    have hrank : ∀ a b, last a ≤ last b → rank a ≤ rank b := fun a b h =>
      Prod.Lex.monotone_fst _ _ h
    have horder := isOrdered_orderBy hrank p t
    refine lt_of_le_of_lt ?_ (countP_lt_of_mem_take (sorted_orderBy last _) (hall _ horder))
    rw [horder.countP_eq]
    refine List.countP_mono_left fun x _ hx => ?_
    simp only [Bool.and_eq_true, decide_eq_true_eq] at hx ⊢
    obtain ⟨hpx, hne, hle⟩ := hx
    refine ⟨hpx, Prod.Lex.toLex_lt_toLex.mpr ?_⟩
    rcases hle.lt_or_eq with hlt | heq
    · exact Or.inl hlt
    · exact Or.inr ⟨heq, by simp [hne]⟩
  · intro hfew order horder
    refine mem_take_of_countP_lt horder.2 (horder.1.nodup_iff.mpr (hnodup.filter p))
      ((horder.mem_iff r).mpr ⟨hr, hp⟩) ?_
    rw [horder.countP_eq]
    exact hfew

end Ties

end Ordered

/-! ### `DELETE … WHERE key IN (SELECT key … LIMIT n)` -/

section Batch

variable [DecidableEq κ] {key : ρ → κ} {p : ρ → Bool} {t batch : List ρ}

theorem mem_keys_iff (hu : UniqueKeys key t) (hbatch : ∀ r ∈ batch, r ∈ t) {r : ρ} (hr : r ∈ t) :
    (batch.map key).contains (key r) = true ↔ r ∈ batch := by
  rw [List.contains_iff_mem, List.mem_map]
  constructor
  · rintro ⟨q, hq, hk⟩
    rw [← eq_of_key hu (hbatch q hq) hr hk]
    exact hq
  · exact fun h => ⟨r, h, rfl⟩

theorem perm_deleted (hu : UniqueKeys key t) (hbatch : ∀ r ∈ batch, r ∈ t)
    (hnodup : batch.Nodup) :
    (t.filter fun r => (batch.map key).contains (key r)).Perm batch := by
  refine (List.perm_ext_iff_of_nodup ((List.Nodup.of_map key hu).filter _) hnodup).mpr fun r => ?_
  rw [List.mem_filter]
  constructor
  · exact fun h => (mem_keys_iff hu hbatch h.1).mp h.2
  · exact fun h => ⟨hbatch r h, (mem_keys_iff hu hbatch (hbatch r h)).mpr h⟩

/-- A batch takes `n` of the rows that match, or all of them. -/
theorem countP_deleteBatch (hu : UniqueKeys key t) {order : List ρ}
    (horder : order.Perm (t.filter p)) (n : ℕ) :
    (deleteWhere (fun r => ((order.take n).map key).contains (key r)) t).countP p =
      t.countP p - n := by
  have hnodup : order.Nodup := horder.nodup_iff.mpr ((List.Nodup.of_map key hu).filter p)
  have hmem : ∀ r ∈ order.take n, r ∈ t ∧ p r = true := fun r hr =>
    List.mem_filter.mp (horder.mem_iff.mp (List.mem_of_mem_take hr))
  have hdeleted := perm_deleted hu (fun r hr => (hmem r hr).1)
    (hnodup.sublist (List.take_sublist n order))
  have hsplit : t.countP p =
      (t.filter fun r => ((order.take n).map key).contains (key r)).countP p +
        (deleteWhere (fun r => ((order.take n).map key).contains (key r)) t).countP p :=
    List.countP_eq_countP_filter_add t p _
  have hall : (order.take n).countP p = (order.take n).length :=
    List.countP_eq_length.mpr fun r hr => (hmem r hr).2
  have hlength : order.length = t.countP p := by
    rw [horder.length_eq, List.countP_eq_length_filter]
  rw [hdeleted.countP_eq, hall, List.length_take, hlength] at hsplit
  omega

end Batch

theorem filter_deleteWhere {p q : ρ → Bool} {t : List ρ}
    (h : ∀ r ∈ t, p r = true → q r = false) : (deleteWhere q t).filter p = t.filter p := by
  rw [deleteWhere, List.filter_filter]
  refine List.filter_congr fun r hr => ?_
  by_cases hp : p r = true
  · simp [hp, h r hr hp]
  · simp [hp]

end VcCommonService.Lib.Table
