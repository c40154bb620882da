import Mathlib.Data.List.Nodup
import Mathlib.Data.List.Count
import Mathlib.Data.List.Sort
import Mathlib.Order.Lattice
import Mathlib.Algebra.GroupWithZero.Nat

/-!
# Tables as lists of rows

A table is the list of its rows; a primary key is a function that is injective on
them (`UniqueKeys`). The writes are those of an ORM: an `UPDATE … WHERE`, a
`DELETE … WHERE`, and `save`, which replaces the row with the entity's key or
inserts the entity when there is none. A `save` reads the row first and writes the columns in
which the entity differs from it. A grouped count keeps the keys in the order in
which they first appear, and `ORDER BY` leaves rows of equal rank in table
order.
-/

namespace VcCommonService.Lib.Table

variable {ρ κ : Type*}

/-- `UPDATE … SET f WHERE p`. -/
def updateWhere (p : ρ → Bool) (f : ρ → ρ) (t : List ρ) : List ρ :=
  t.map fun r => if p r then f r else r

/-- `DELETE … WHERE p`. -/
def deleteWhere (p : ρ → Bool) (t : List ρ) : List ρ := t.filter fun r => !p r

def UniqueKeys (key : ρ → κ) (t : List ρ) : Prop := (t.map key).Nodup

instance [DecidableEq κ] (key : ρ → κ) (t : List ρ) : Decidable (UniqueKeys key t) :=
  inferInstanceAs (Decidable (t.map key).Nodup)

theorem eq_of_key {key : ρ → κ} {t : List ρ} (hu : UniqueKeys key t) {r r' : ρ}
    (hr : r ∈ t) (hr' : r' ∈ t) (hk : key r = key r') : r = r' :=
  List.inj_on_of_nodup_map hu hr hr' hk

theorem uniqueKeys_append {key : ρ → κ} {t : List ρ} (hu : UniqueKeys key t) {row : ρ}
    (hnew : ∀ r ∈ t, key r ≠ key row) : UniqueKeys key (t ++ [row]) := by
  unfold UniqueKeys
  rw [List.map_append]
  refine List.nodup_append.mpr ⟨hu, List.nodup_singleton _, ?_⟩
  intro a ha b hb
  obtain ⟨r, hr, rfl⟩ := List.mem_map.mp ha
  rw [List.mem_singleton.mp hb]
  exact hnew r hr

/-! ### `UPDATE … WHERE` -/

theorem mem_updateWhere (p : ρ → Bool) (f : ρ → ρ) (t : List ρ) (r : ρ) :
    r ∈ updateWhere p f t ↔ ∃ q ∈ t, (if p q then f q else q) = r := by
  simp [updateWhere]

theorem forall_updateWhere {p : ρ → Bool} {f : ρ → ρ} {Q : ρ → Prop} {t : List ρ}
    (hupdated : ∀ r ∈ t, p r = true → Q (f r)) (hother : ∀ r ∈ t, p r = false → Q r) :
    ∀ r ∈ updateWhere p f t, Q r := by
  intro r hr
  obtain ⟨q, hq, rfl⟩ := (mem_updateWhere p f t r).mp hr
  by_cases hp : p q = true
  · rw [if_pos hp]
    exact hupdated q hq hp
  · rw [if_neg hp]
    exact hother q hq (Bool.eq_false_iff.mpr hp)

theorem map_updateWhere (key : ρ → κ) (p : ρ → Bool) (f : ρ → ρ) (hf : ∀ r, key (f r) = key r)
    (t : List ρ) : (updateWhere p f t).map key = t.map key := by
  simp only [updateWhere, List.map_map]
  apply List.map_congr_left
  intro r _
  simp only [Function.comp_apply]
  split
  · exact hf r
  · rfl

theorem uniqueKeys_updateWhere {key : ρ → κ} {p : ρ → Bool} {f : ρ → ρ}
    (hf : ∀ r, key (f r) = key r) {t : List ρ} (hu : UniqueKeys key t) :
    UniqueKeys key (updateWhere p f t) := by
  unfold UniqueKeys
  rw [map_updateWhere key p f hf]
  exact hu

theorem filter_updateWhere {p q : ρ → Bool} {f : ρ → ρ} {t : List ρ}
    (h : ∀ r ∈ t, p r = true → q (f r) = q r) :
    (updateWhere p f t).filter q = updateWhere p f (t.filter q) := by
  induction t with
  | nil => rfl
  | cons r t ih =>
    obtain ⟨hr, ht⟩ := List.forall_mem_cons.mp h
    have hhead : q (if p r then f r else r) = q r := by
      split
      next hp => exact hr hp
      next => rfl
    unfold updateWhere at ih ⊢
    rw [List.map_cons, List.filter_cons, hhead, List.filter_cons, ih ht]
    split
    · rw [List.map_cons]
    · rfl

/-! ### `DELETE … WHERE` -/

@[simp] theorem mem_deleteWhere (p : ρ → Bool) (t : List ρ) (r : ρ) :
    r ∈ deleteWhere p t ↔ r ∈ t ∧ p r = false := by
  simp [deleteWhere]

theorem uniqueKeys_deleteWhere {key : ρ → κ} {t : List ρ} (p : ρ → Bool) (hu : UniqueKeys key t) :
    UniqueKeys key (deleteWhere p t) :=
  hu.sublist (List.filter_sublist.map key)

/-! ### `save` -/

section Save

variable [DecidableEq κ]

/-- Replaces the row with the entity's key, or appends the entity. -/
def save (key : ρ → κ) (row : ρ) : List ρ → List ρ
  | [] => [row]
  | r :: rs => if key r = key row then row :: rs else r :: save key row rs

theorem eq_or_mem_of_mem_save {key : ρ → κ} {row : ρ} {t : List ρ} {r : ρ}
    (h : r ∈ save key row t) : r = row ∨ r ∈ t := by
  induction t with
  | nil => exact Or.inl (List.mem_singleton.mp h)
  | cons q qs ih =>
    simp only [save] at h
    split at h
    · rcases List.mem_cons.mp h with h | h
      · exact Or.inl h
      · exact Or.inr (List.mem_cons_of_mem _ h)
    · rcases List.mem_cons.mp h with rfl | h
      · exact Or.inr (List.mem_cons_self ..)
      · exact (ih h).imp_right (List.mem_cons_of_mem _)

theorem mem_save_self (key : ρ → κ) (row : ρ) (t : List ρ) : row ∈ save key row t := by
  induction t with
  | nil => exact List.mem_singleton.mpr rfl
  | cons q qs ih =>
    simp only [save]
    split
    · exact List.mem_cons_self
    · exact List.mem_cons_of_mem _ ih

theorem mem_save {key : ρ → κ} {row : ρ} {t : List ρ} (hu : UniqueKeys key t) (r : ρ) :
    r ∈ save key row t ↔ r = row ∨ (r ∈ t ∧ key r ≠ key row) := by
  induction t with
  | nil => simp [save]
  | cons q qs ih =>
    have hq : UniqueKeys key qs := (List.nodup_cons.mp hu).2
    have hnot : ∀ x ∈ qs, key x ≠ key q := fun x hx he =>
      (List.nodup_cons.mp hu).1 (he ▸ List.mem_map_of_mem hx)
    simp only [save]
    split
    next hk =>
      simp only [List.mem_cons]
      constructor
      · rintro (h | h)
        · exact Or.inl h
        · exact Or.inr ⟨Or.inr h, fun he => hnot r h (he.trans hk.symm)⟩
      · rintro (h | ⟨h | h, hne⟩)
        · exact Or.inl h
        · exact absurd (h ▸ hk) hne
        · exact Or.inr h
    next hk =>
      simp only [List.mem_cons, ih hq]
      constructor
      · rintro (h | h | ⟨h, hne⟩)
        · exact Or.inr ⟨Or.inl h, h ▸ hk⟩
        · exact Or.inl h
        · exact Or.inr ⟨Or.inr h, hne⟩
      · rintro (h | ⟨h | h, hne⟩)
        · exact Or.inr (Or.inl h)
        · exact Or.inl h
        · exact Or.inr (Or.inr ⟨h, hne⟩)

theorem uniqueKeys_save {key : ρ → κ} {t : List ρ} (row : ρ) (hu : UniqueKeys key t) :
    UniqueKeys key (save key row t) := by
  induction t with
  | nil => simp [save, UniqueKeys]
  | cons q qs ih =>
    obtain ⟨hnot, hq⟩ := List.nodup_cons.mp hu
    simp only [save]
    split
    next hk => exact List.nodup_cons.mpr ⟨hk ▸ hnot, hq⟩
    next hk =>
      refine List.nodup_cons.mpr ⟨?_, ih hq⟩
      intro hmem
      obtain ⟨x, hx, hxk⟩ := List.mem_map.mp hmem
      rcases (mem_save hq x).mp hx with rfl | ⟨hxq, _⟩
      · exact hk hxk.symm
      · exact hnot (hxk ▸ List.mem_map_of_mem hxq)

/-- One column of a `save` that has read `row`: it is written when the entity differs there. -/
def written {α : Type*} [DecidableEq α] (row entity current : α) : α :=
  if entity = row then current else entity

theorem written_self {α : Type*} [DecidableEq α] (row entity : α) :
    written row entity row = entity := by
  unfold written
  split
  next h => exact h.symm
  · rfl

theorem written_of_eq {α : Type*} [DecidableEq α] {row entity : α} (h : entity = row)
    (current : α) : written row entity current = current := if_pos h

theorem written_of_ne {α : Type*} [DecidableEq α] {row entity : α} (h : entity ≠ row)
    (current : α) : written row entity current = entity := if_neg h

theorem written_eq_current {α : Type*} [DecidableEq α] {row entity current : α} :
    written row entity current = current ↔ (entity ≠ row → current = entity) := by
  unfold written
  split
  next h => simp [h]
  next h => simp [h, eq_comm]

/-- A column that is left out only where the row has kept its value. -/
theorem written_eq_entity {α : Type*} [DecidableEq α] {row entity current : α}
    (h : entity = row → current = row) : written row entity current = entity := by
  by_cases he : entity = row
  · rw [written_of_eq he, h he, he]
  · exact written_of_ne he _

theorem save_new {key : ρ → κ} {row : ρ} {t : List ρ} (hnew : ∀ r ∈ t, key r ≠ key row) :
    save key row t = t ++ [row] := by
  induction t with
  | nil => rfl
  | cons q qs ih =>
    have hq : key q ≠ key row := hnew q (List.mem_cons_self ..)
    have hrest := ih fun r hr => hnew r (List.mem_cons_of_mem _ hr)
    rw [save, if_neg hq, hrest, List.cons_append]

/-- Saving a changed copy of a row is an update of that row. -/
theorem save_self {key : ρ → κ} {row : ρ} {t : List ρ} (hu : UniqueKeys key t) (h : row ∈ t) :
    save key row t = t := by
  induction t with
  | nil => cases h
  | cons q qs ih =>
    obtain ⟨hnot, hq⟩ := List.nodup_cons.mp hu
    simp only [save]
    rcases List.mem_cons.mp h with rfl | h
    · rw [if_pos rfl]
    · have hne : key q ≠ key row := fun he => hnot (he ▸ List.mem_map_of_mem h)
      rw [if_neg hne, ih hq h]

theorem save_old {key : ρ → κ} [DecidableEq ρ] {f : ρ → ρ} (hf : ∀ r, key (f r) = key r) {old : ρ}
    {t : List ρ} (hu : UniqueKeys key t) (hold : old ∈ t) :
    save key (f old) t = updateWhere (fun r => decide (r = old)) f t := by
  induction t with
  | nil => cases hold
  | cons q qs ih =>
    obtain ⟨hnot, hqs⟩ := List.nodup_cons.mp hu
    unfold updateWhere at ih ⊢
    rw [save, hf, List.map_cons]
    by_cases hq : q = old
    · subst hq
      have hrest : qs.map (fun r => if decide (r = q) = true then f r else r) = qs := by
        refine (List.map_congr_left fun r hr => ?_).trans (List.map_id qs)
        have hne : r ≠ q := by
          rintro rfl
          exact hnot (List.mem_map_of_mem hr)
        simp [hne]
      rw [hrest]
      simp
    · have hmem : old ∈ qs := (List.mem_cons.mp hold).resolve_left (Ne.symm hq)
      have hkey : key q ≠ key old := fun heq => hnot (heq ▸ List.mem_map_of_mem hmem)
      rw [if_neg hkey, ih hqs hmem]
      simp [hq]

/-- Saving changed copies of some rows, one after the other. -/
theorem foldl_save_old {key : ρ → κ} [DecidableEq ρ] {f : ρ → ρ} (hf : ∀ r, key (f r) = key r)
    {t rows : List ρ} (hu : UniqueKeys key t) (hrows : UniqueKeys key rows)
    (hsub : ∀ r ∈ rows, r ∈ t) :
    rows.foldl (fun t r => save key (f r) t) t = updateWhere (fun r => decide (r ∈ rows)) f t := by
  induction rows generalizing t with
  | nil => simp [updateWhere]
  | cons old rows ih =>
    obtain ⟨hnot, hrest⟩ := List.nodup_cons.mp hrows
    have hold := hsub old (List.mem_cons_self ..)
    have hne : ∀ r ∈ rows, r ≠ old := by
      rintro r hr rfl
      exact hnot (List.mem_map_of_mem hr)
    rw [List.foldl_cons, save_old hf hu hold, ih (uniqueKeys_updateWhere hf hu) hrest]
    · unfold updateWhere
      rw [List.map_map]
      refine List.map_congr_left fun r _ => ?_
      by_cases hr : r = old
      · subst hr
        have hgone : f r ∉ rows := fun hmem => hnot (hf r ▸ List.mem_map_of_mem hmem)
        simp [hgone]
      · simp [hr]
    · intro r hr
      refine (mem_updateWhere _ _ _ _).mpr ⟨r, hsub r (List.mem_cons_of_mem _ hr), ?_⟩
      simp [hne r hr]

/-- A save leaves alone the rows that satisfy `p`, if neither the saved row nor the one it replaces
does. -/
theorem filter_save {key : ρ → κ} {p : ρ → Bool} {row : ρ} {t : List ρ} (hrow : p row = false)
    (hold : ∀ r ∈ t, key r = key row → p r = false) : (save key row t).filter p = t.filter p := by
  induction t with
  | nil => simp [save, hrow]
  | cons q qs ih =>
    rw [save]
    by_cases hk : key q = key row
    · rw [if_pos hk, List.filter_cons_of_neg (by simp [hrow]),
        List.filter_cons_of_neg (by simp [hold q (List.mem_cons_self ..) hk])]
    · rw [if_neg hk, List.filter_cons, List.filter_cons,
        ih fun r hr => hold r (List.mem_cons_of_mem _ hr)]

/-- A save that replaces a row keeps a column exactly when the new row has the old value in it. -/
theorem map_save_eq_iff {β : Type*} {key : ρ → κ} {col : ρ → β} {row old : ρ} {t : List ρ}
    (hu : UniqueKeys key t) (hold : old ∈ t) (hk : key old = key row) :
    (save key row t).map col = t.map col ↔ col row = col old := by
  induction t with
  | nil => simp at hold
  | cons q qs ih =>
    by_cases hqk : key q = key row
    · have he : old = q := eq_of_key hu hold (List.mem_cons_self ..) (hk.trans hqk.symm)
      simp [save, hqk, he]
    · have hin : old ∈ qs := by
        rcases List.mem_cons.mp hold with rfl | hmem
        · exact absurd hk hqk
        · exact hmem
      simp [save, hqk, ih (List.nodup_cons.mp hu).2 hin]

/-- A unique column other than the key stays unique when no other row has the saved value. -/
theorem uniqueKeys_save_col {β : Type*} {key : ρ → κ} {col : ρ → β} {row : ρ} {t : List ρ}
    (hk : UniqueKeys key t) (hcol : UniqueKeys col t)
    (hother : ∀ r ∈ t, key r ≠ key row → col r ≠ col row) :
    UniqueKeys col (save key row t) := by
  induction t with
  | nil => simp [save, UniqueKeys]
  | cons q qs ih =>
    obtain ⟨hqk, hk'⟩ := List.nodup_cons.mp hk
    obtain ⟨hqc, hcol'⟩ := List.nodup_cons.mp hcol
    have hother' := fun r hr => hother r (List.mem_cons_of_mem _ hr)
    simp only [save]
    split
    next he =>
      refine List.nodup_cons.mpr ⟨fun hmem => ?_, hcol'⟩
      obtain ⟨r, hr, hrc⟩ := List.mem_map.mp hmem
      refine hother' r hr (fun hrk => hqk ?_) hrc
      rw [he, ← hrk]
      exact List.mem_map_of_mem hr
    next hne =>
      refine List.nodup_cons.mpr ⟨fun hmem => ?_, ih hk' hcol' hother'⟩
      obtain ⟨r, hr, hrc⟩ := List.mem_map.mp hmem
      rcases eq_or_mem_of_mem_save hr with rfl | hr
      · exact hother q (List.mem_cons_self ..) hne hrc.symm
      · exact hqc (hrc ▸ List.mem_map_of_mem hr)

theorem countP_save_new {key : ρ → κ} (p : ρ → Bool) {row : ρ} {t : List ρ}
    (hnew : ∀ r ∈ t, key r ≠ key row) :
    (save key row t).countP p = t.countP p + if p row then 1 else 0 := by
  induction t with
  | nil => simp [save, List.countP_cons]
  | cons q qs ih =>
    have hq : key q ≠ key row := hnew q (List.mem_cons_self ..)
    have hqs := ih fun r hr => hnew r (List.mem_cons_of_mem _ hr)
    simp only [save, if_neg hq, List.countP_cons, hqs]
    omega

theorem countP_save_old {key : ρ → κ} (p : ρ → Bool) {row old : ρ} {t : List ρ}
    (hu : UniqueKeys key t) (hold : old ∈ t) (hk : key old = key row) :
    (save key row t).countP p + (if p old then 1 else 0) =
      t.countP p + if p row then 1 else 0 := by
  induction t with
  | nil => simp at hold
  | cons q qs ih =>
    obtain ⟨hnot, hq⟩ := List.nodup_cons.mp hu
    by_cases hqk : key q = key row
    · have he : old = q := eq_of_key hu hold (List.mem_cons_self ..) (hk.trans hqk.symm)
      subst he
      simp only [save, if_pos hqk, List.countP_cons]
      omega
    · have hin : old ∈ qs := by
        rcases List.mem_cons.mp hold with rfl | h
        · exact absurd hk hqk
        · exact h
      have hqs := ih hq hin
      simp only [save, if_neg hqk, List.countP_cons]
      omega

end Save

theorem countP_deleteWhere_key [DecidableEq κ] {key : ρ → κ} (p : ρ → Bool) {old : ρ}
    {t : List ρ} (hu : UniqueKeys key t) (hold : old ∈ t) :
    (deleteWhere (fun r => decide (key r = key old)) t).countP p + (if p old then 1 else 0) =
      t.countP p := by
  induction t with
  | nil => simp at hold
  | cons q qs ih =>
    obtain ⟨hnot, hq⟩ := List.nodup_cons.mp hu
    by_cases hqk : key q = key old
    · have he : q = old := eq_of_key hu (List.mem_cons_self ..) hold hqk
      subst he
      have hrest : deleteWhere (fun r => decide (key r = key q)) qs = qs := by
        refine List.filter_eq_self.mpr fun r hr => ?_
        have hne : key r ≠ key q := fun he => hnot (he ▸ List.mem_map_of_mem hr)
        simp [hne]
      have hcons : deleteWhere (fun r => decide (key r = key q)) (q :: qs) = qs := by
        simpa [deleteWhere] using hrest
      rw [hcons, List.countP_cons]
    · have hin : old ∈ qs := by
        rcases List.mem_cons.mp hold with rfl | h
        · exact absurd rfl hqk
        · exact h
      have hcons : deleteWhere (fun r => decide (key r = key old)) (q :: qs) =
          q :: deleteWhere (fun r => decide (key r = key old)) qs := by
        simp [deleteWhere, hqk]
      have hqs := ih hq hin
      rw [hcons, List.countP_cons, List.countP_cons]
      omega

/-! ### `GROUP BY` with a count -/

section GroupBy

variable [DecidableEq κ]

def bump (k : κ) (n : ℕ) : List (κ × ℕ) → List (κ × ℕ)
  | [] => [(k, n)]
  | (k', m) :: counts => if k' = k then (k', m + n) :: counts else (k', m) :: bump k n counts

def total (counts : List (κ × ℕ)) : ℕ := (counts.map Prod.snd).sum

/-- `SELECT key, COUNT(*) … GROUP BY key`. -/
def countBy (key : ρ → κ) (rows : List ρ) : List (κ × ℕ) :=
  rows.foldl (fun counts row => bump (key row) 1 counts) []

theorem total_bump (k : κ) (n : ℕ) (counts : List (κ × ℕ)) :
    total (bump k n counts) = total counts + n := by
  induction counts with
  | nil => simp [bump, total]
  | cons c counts ih =>
    simp only [bump]
    split
    · simp only [total, List.map_cons, List.sum_cons]
      omega
    · simp only [total, List.map_cons, List.sum_cons] at ih ⊢
      omega

theorem total_countBy (key : ρ → κ) (rows : List ρ) : total (countBy key rows) = rows.length := by
  have hfold : ∀ (rows : List ρ) (counts : List (κ × ℕ)),
      total (rows.foldl (fun counts row => bump (key row) 1 counts) counts) =
        total counts + rows.length := by
    intro rows
    induction rows with
    | nil => simp
    | cons row rows ih =>
      intro counts
      rw [List.foldl_cons, ih, total_bump, List.length_cons]
      omega
  have h : total (countBy key rows) = total [] + rows.length := hfold rows []
  rw [h]
  simp [total]

theorem lookup_bump (k k' : κ) (n : ℕ) (counts : List (κ × ℕ)) :
    ((bump k n counts).lookup k').getD 0 =
      (counts.lookup k').getD 0 + if k' = k then n else 0 := by
  induction counts with
  | nil =>
    by_cases h : k' = k
    · simp [bump, h]
    · simp [bump, List.lookup_cons, beq_eq_false_iff_ne.mpr h, h]
  | cons c counts ih =>
    obtain ⟨k₀, m⟩ := c
    simp only [bump]
    by_cases h₀ : k₀ = k
    · subst h₀
      by_cases h : k' = k₀
      · simp [h]
      · simp [List.lookup_cons, beq_eq_false_iff_ne.mpr h, h]
    · rw [if_neg h₀, List.lookup_cons, List.lookup_cons]
      by_cases h : k' = k₀
      · subst h
        simp [h₀]
      · simpa [beq_eq_false_iff_ne.mpr h] using ih

theorem lookup_countBy (key : ρ → κ) (rows : List ρ) (k : κ) :
    ((countBy key rows).lookup k).getD 0 = rows.countP fun row => decide (key row = k) := by
  have hfold : ∀ (rows : List ρ) (counts : List (κ × ℕ)),
      ((rows.foldl (fun counts row => bump (key row) 1 counts) counts).lookup k).getD 0 =
        (counts.lookup k).getD 0 + rows.countP fun row => decide (key row = k) := by
    intro rows
    induction rows with
    | nil => simp
    | cons row rows ih =>
      intro counts
      rw [List.foldl_cons, ih, lookup_bump, List.countP_cons]
      by_cases h : key row = k
      · simp [h]
        omega
      · simp [h, Ne.symm h]
  rw [countBy, hfold]
  simp

end GroupBy

/-! ### `ORDER BY` -/

section OrderBy

variable [LinearOrder κ]

/-- `ORDER BY rank`. -/
def orderBy (rank : ρ → κ) (t : List ρ) : List ρ := t.insertionSort fun a b => rank a ≤ rank b

theorem mem_orderBy (rank : ρ → κ) (t : List ρ) (r : ρ) : r ∈ orderBy rank t ↔ r ∈ t :=
  List.mem_insertionSort _

theorem perm_orderBy (rank : ρ → κ) (t : List ρ) : (orderBy rank t).Perm t :=
  List.perm_insertionSort _ t

theorem sorted_orderBy (rank : ρ → κ) (t : List ρ) :
    (orderBy rank t).Pairwise fun a b => rank a ≤ rank b := by
  have : Std.Total fun a b : ρ => rank a ≤ rank b := ⟨fun a b => le_total (rank a) (rank b)⟩
  have : IsTrans ρ fun a b => rank a ≤ rank b := ⟨fun _ _ _ => le_trans⟩
  exact List.pairwise_insertionSort _ t

theorem orderBy_pair {rank : ρ → κ} {a b : ρ} (h : rank a ≤ rank b) : orderBy rank [a, b] = [a, b] :=
  if_pos h

/-- Where no two values share a rank, the order of the rows does not matter. -/
theorem orderBy_perm {rank : ρ → κ} (hrank : Function.Injective rank) {t t' : List ρ}
    (h : t.Perm t') : orderBy rank t = orderBy rank t' := by
  have hperm : (orderBy rank t).Perm (orderBy rank t') :=
    (perm_orderBy rank t).trans (h.trans (perm_orderBy rank t').symm)
  refine List.Perm.eq_of_pairwise (fun a b _ _ hab hba => hrank (le_antisymm hab hba))
    (sorted_orderBy rank t) (sorted_orderBy rank t') hperm

theorem filter_orderedInsert_pos {rank : ρ → κ} {p : ρ → Bool} {a : ρ} (ha : p a = true)
    {t : List ρ} (ht : t.Pairwise fun a b => rank a ≤ rank b) :
    (t.orderedInsert (fun a b => rank a ≤ rank b) a).filter p =
      (t.filter p).orderedInsert (fun a b => rank a ≤ rank b) a := by
  induction t with
  | nil => simp [ha]
  | cons b t ih =>
    obtain ⟨hb, ht'⟩ := List.pairwise_cons.mp ht
    by_cases hab : rank a ≤ rank b
    · -- every later row is at or above `a` as well, so `a` stays in front
      have hall : ∀ x ∈ (b :: t).filter p, rank a ≤ rank x := by
        intro x hx
        rcases List.mem_cons.mp (List.mem_of_mem_filter hx) with rfl | hxt
        · exact hab
        · exact hab.trans (hb x hxt)
      rw [List.orderedInsert_cons, if_pos hab, List.filter_cons_of_pos ha]
      cases hf : (b :: t).filter p with
      | nil => rfl
      | cons x xs =>
        have hx : rank a ≤ rank x := hall x (hf ▸ List.mem_cons_self ..)
        rw [List.orderedInsert_cons, if_pos hx]
    · rw [List.orderedInsert_cons, if_neg hab]
      by_cases hpb : p b = true
      · rw [List.filter_cons_of_pos hpb, List.filter_cons_of_pos hpb, ih ht',
          List.orderedInsert_cons, if_neg hab]
      · rw [List.filter_cons_of_neg hpb, List.filter_cons_of_neg hpb, ih ht']

theorem filter_orderedInsert_neg {rank : ρ → κ} {p : ρ → Bool} {a : ρ} (ha : ¬ p a = true)
    (t : List ρ) :
    (t.orderedInsert (fun a b => rank a ≤ rank b) a).filter p = t.filter p := by
  induction t with
  | nil => simp [ha]
  | cons b t ih =>
    rw [List.orderedInsert_cons]
    split
    · rw [List.filter_cons_of_neg ha]
    · rw [List.filter_cons, List.filter_cons, ih]

theorem filter_orderBy (rank : ρ → κ) (p : ρ → Bool) (t : List ρ) :
    (orderBy rank t).filter p = orderBy rank (t.filter p) := by
  induction t with
  | nil => rfl
  | cons a t ih =>
    have hcons : orderBy rank (a :: t) =
        (orderBy rank t).orderedInsert (fun a b => rank a ≤ rank b) a := rfl
    rw [hcons]
    by_cases ha : p a = true
    · rw [filter_orderedInsert_pos ha (sorted_orderBy rank t), ih, List.filter_cons_of_pos ha]
      rfl
    · rw [filter_orderedInsert_neg ha, ih, List.filter_cons_of_neg ha]

end OrderBy

end VcCommonService.Lib.Table
