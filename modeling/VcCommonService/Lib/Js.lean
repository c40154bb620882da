import Mathlib.Data.List.Sort
import Mathlib.Data.List.Lex
import Mathlib.Data.Nat.Basic

/-!
# ECMAScript collections

Insertion-ordered sets as duplicate-free lists, the default comparison of
`Array.prototype.sort` (UTF-16 code units), strings in conditions, and request fields
that may be absent or `null`.
-/

namespace VcCommonService.Lib.Js

variable {α : Type*}

/-! ### Insertion-ordered sets -/

section OrderedSet

variable [DecidableEq α]

/-- `Set.prototype.add`: a new element goes to the end. -/
def add (s : List α) (a : α) : List α := if a ∈ s then s else s ++ [a]

def addAll (s xs : List α) : List α := xs.foldl add s

def setOf (xs : List α) : List α := addAll [] xs

theorem mem_add (s : List α) (a b : α) : b ∈ add s a ↔ b ∈ s ∨ b = a := by
  unfold add
  split
  next h =>
    constructor
    · exact Or.inl
    · rintro (hb | rfl)
      · exact hb
      · exact h
  next => simp

theorem nodup_add (s : List α) (a : α) (h : s.Nodup) : (add s a).Nodup := by
  unfold add
  split
  · exact h
  next ha => exact List.nodup_append.mpr ⟨h, List.nodup_singleton a, by
      intro x hx y hy hxy
      rw [List.mem_singleton.mp hy] at hxy
      exact ha (hxy ▸ hx)⟩

@[simp] theorem mem_addAll (s xs : List α) (b : α) : b ∈ addAll s xs ↔ b ∈ s ∨ b ∈ xs := by
  induction xs generalizing s with
  | nil => simp [addAll]
  | cons x xs ih =>
    have hstep : addAll s (x :: xs) = addAll (add s x) xs := rfl
    rw [hstep, ih, mem_add, List.mem_cons, or_assoc]

theorem nodup_addAll (s xs : List α) (h : s.Nodup) : (addAll s xs).Nodup := by
  induction xs generalizing s with
  | nil => exact h
  | cons x xs ih => exact ih (add s x) (nodup_add s x h)

@[simp] theorem mem_setOf (xs : List α) (b : α) : b ∈ setOf xs ↔ b ∈ xs := by
  simp [setOf]

theorem nodup_setOf (xs : List α) : (setOf xs).Nodup :=
  nodup_addAll [] xs List.nodup_nil

end OrderedSet

/-! ### Maps -/

/-- `new Map(entries).get(k)`, and the same for `Object.fromEntries`: the last entry of a key
counts. -/
def mapGet {κ β : Type*} [DecidableEq κ] (entries : List (κ × β)) (k : κ) : Option β :=
  (entries.reverse.find? fun entry => decide (entry.1 = k)).map Prod.snd

theorem mapGet_eq_some_iff {κ β : Type*} [DecidableEq κ] {entries : List (κ × β)} {k : κ}
    (hunique : ∀ b b', (k, b) ∈ entries → (k, b') ∈ entries → b = b') {b : β} :
    mapGet entries k = some b ↔ (k, b) ∈ entries := by
  have hfound : ∀ entry, (entries.reverse.find? fun entry => decide (entry.1 = k)) = some entry →
      (k, entry.2) ∈ entries := by
    intro entry hfind
    have hk : entry.1 = k := by simpa using List.find?_some hfind
    rw [← hk]
    exact List.mem_reverse.mp (List.mem_of_find?_eq_some hfind)
  unfold mapGet
  cases hfind : entries.reverse.find? fun entry => decide (entry.1 = k) with
  | none =>
    refine iff_of_false nofun fun hmem => ?_
    have hnot := List.find?_eq_none.mp hfind (k, b) (List.mem_reverse.mpr hmem)
    simp at hnot
  | some entry =>
    rw [Option.map_some, Option.some_inj]
    constructor
    · rintro rfl
      exact hfound entry hfind
    · exact fun hmem => hunique _ _ (hfound entry hfind) hmem

/-! ### Sorting by code units -/

def charUnits (c : Char) : List ℕ :=
  if c.toNat < 0x10000 then [c.toNat]
  else [0xD800 + (c.toNat - 0x10000) / 0x400, 0xDC00 + (c.toNat - 0x10000) % 0x400]

def codeUnits (s : String) : List ℕ := s.toList.flatMap charUnits

/-- The comparison of `sort()` without a comparator. -/
def UnitLe (a b : String) : Prop := codeUnits a ≤ codeUnits b

instance : DecidableRel UnitLe := fun a b => inferInstanceAs (Decidable (codeUnits a ≤ codeUnits b))

instance : IsTrans String UnitLe := ⟨fun _ _ _ => le_trans⟩

instance : Std.Total UnitLe := ⟨fun a b => le_total (codeUnits a) (codeUnits b)⟩

def sort (xs : List String) : List String := xs.insertionSort UnitLe

@[simp] theorem mem_sort (xs : List String) (b : String) : b ∈ sort xs ↔ b ∈ xs :=
  List.mem_insertionSort UnitLe

theorem sorted_sort (xs : List String) : (sort xs).Pairwise UnitLe :=
  List.pairwise_insertionSort UnitLe xs

theorem nodup_sort (xs : List String) (h : xs.Nodup) : (sort xs).Nodup :=
  (List.perm_insertionSort UnitLe xs).nodup_iff.mpr h

/-- Units of characters are read back one character at a time: a surrogate is never a
character of its own. -/
theorem charUnits_append_inj {c d : Char} {xs ys : List ℕ}
    (h : charUnits c ++ xs = charUnits d ++ ys) : c = d ∧ xs = ys := by
  have hc : c.toNat < 0xD800 ∨ 0xDFFF < c.toNat ∧ c.toNat < 0x110000 := c.valid
  have hd : d.toNat < 0xD800 ∨ 0xDFFF < d.toNat ∧ d.toNat < 0x110000 := d.valid
  have hchar : c.toNat = d.toNat → c = d := Char.toNat_inj.mp
  unfold charUnits at h
  split at h
  next hsmall =>
    split at h
    next =>
      simp only [List.cons_append, List.nil_append, List.cons.injEq] at h
      exact ⟨hchar h.1, h.2⟩
    next =>
      simp only [List.cons_append, List.nil_append, List.cons.injEq] at h
      omega
  next hlarge =>
    split at h
    next =>
      simp only [List.cons_append, List.nil_append, List.cons.injEq] at h
      omega
    next =>
      simp only [List.cons_append, List.nil_append, List.cons.injEq] at h
      obtain ⟨hhigh, hlow, htail⟩ := h
      exact ⟨hchar (by omega), htail⟩

theorem codeUnits_injective {s t : String} (h : codeUnits s = codeUnits t) : s = t := by
  have hne : ∀ c : Char, charUnits c ≠ [] := by
    intro c
    unfold charUnits
    split <;> simp
  have hlists : ∀ cs ds : List Char, cs.flatMap charUnits = ds.flatMap charUnits → cs = ds := by
    intro cs
    induction cs with
    | nil =>
      intro ds heq
      cases ds with
      | nil => rfl
      | cons d ds => simp [hne] at heq
    | cons c cs ih =>
      intro ds heq
      cases ds with
      | nil => simp [hne] at heq
      | cons d ds =>
        rw [List.flatMap_cons, List.flatMap_cons] at heq
        obtain ⟨rfl, htail⟩ := charUnits_append_inj heq
        rw [ih ds htail]
  exact String.toList_injective (hlists _ _ h)

instance : Std.Antisymm UnitLe := ⟨fun _ _ h h' => codeUnits_injective (le_antisymm h h')⟩

/-- `[...new Set(xs)].sort()` forgets the order and the repetitions of `xs`. -/
theorem sort_setOf_congr {xs ys : List String} (h : ∀ x, x ∈ xs ↔ x ∈ ys) :
    sort (setOf xs) = sort (setOf ys) := by
  have hperm : (sort (setOf xs)).Perm (sort (setOf ys)) := by
    refine (List.perm_ext_iff_of_nodup (nodup_sort _ (nodup_setOf _))
      (nodup_sort _ (nodup_setOf _))).mpr fun x => ?_
    rw [mem_sort, mem_sort, mem_setOf, mem_setOf, h x]
  exact hperm.eq_of_pairwise' (sorted_sort _) (sorted_sort _)

/-! ### Strings as conditions -/

/-- A string in a condition: `undefined` and `''` count as absent. -/
def truthy (s : Option String) : Option String := s.filter fun s => decide (s ≠ "")

theorem truthy_some {s : String} (h : s ≠ "") : truthy (some s) = some s := by
  rw [truthy, Option.filter_some, if_pos (decide_eq_true h)]

theorem truthy_eq_some {s : Option String} {t : String} (h : truthy s = some t) :
    s = some t ∧ t ≠ "" := by
  obtain ⟨hs, ht⟩ := Option.filter_eq_some_iff.mp h
  exact ⟨hs, of_decide_eq_true ht⟩

@[simp] theorem truthy_truthy (s : Option String) : truthy (truthy s) = truthy s := by
  cases s with
  | none => rfl
  | some s =>
    by_cases h : s = ""
    · rw [h]
      rfl
    · rw [truthy_some h, truthy_some h]

def whitespace : List ℕ :=
  [0x9, 0xA, 0xB, 0xC, 0xD, 0x20, 0xA0, 0x1680, 0x2000, 0x2001, 0x2002, 0x2003, 0x2004, 0x2005,
    0x2006, 0x2007, 0x2008, 0x2009, 0x200A, 0x2028, 0x2029, 0x202F, 0x205F, 0x3000, 0xFEFF]

def isWhitespace (c : Char) : Bool := whitespace.contains c.toNat

def trim (s : String) : String :=
  String.ofList (((s.toList.dropWhile isWhitespace).reverse.dropWhile isWhitespace).reverse)

/-! ### Optional request fields -/

/-- A property of a request body: absent, `null`, or a value. -/
inductive Field (α : Type*) where
  | undefined
  | null
  | value (a : α)
  deriving Repr, DecidableEq

def Field.getD (f : Field α) (d : α) : α :=
  match f with
  | .undefined => d
  | .null => d
  | .value a => a

def Field.isDefined (f : Field α) : Bool :=
  match f with
  | .undefined => false
  | _ => true

/-- A required column after `if (dto.x !== undefined) entity.x = dto.x`; `none` when it
became `null`. -/
def Field.assign (f : Field α) (old : α) : Option α :=
  match f with
  | .undefined => some old
  | .null => none
  | .value a => some a

/-- The column holds the value of the request, or the field was left out. -/
theorem Field.assign_cases {f : Field α} {old new : α} (h : f.assign old = some new) :
    f = .value new ∨ (f = .undefined ∧ new = old) := by
  cases f with
  | undefined => exact Or.inr ⟨rfl, (Option.some.inj h).symm⟩
  | null => cases h
  | value a => exact Or.inl (congrArg Field.value (Option.some.inj h))

def Field.assignNullable (f : Field α) (old : Option α) : Option α :=
  match f with
  | .undefined => old
  | .null => none
  | .value a => some a

end VcCommonService.Lib.Js
