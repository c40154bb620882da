import VcCommonService.Lib.Number
import VcCommonService.Lib.Varchar

/-!
# JSON values

Values as `JSON.parse` returns them; an object is the list of its members in order,
the first one of a name counting. Two values are the same for the database, and for the
comparison of an ORM, when they differ in the order of members only: `canon` brings the members
of every object into one order.
-/

namespace VcCommonService.Lib

inductive Json where
  | null
  | bool (b : Bool)
  | num (n : Number)
  | str (s : String)
  | arr (elements : List Json)
  | obj (members : List (String × Json))
  deriving Repr

namespace Json

abbrev Members := List (String × Json)

def get (members : Members) (key : String) : Option Json := members.lookup key

def set (members : Members) (key : String) (value : Json) : Members :=
  match members with
  | [] => [(key, value)]
  | m :: ms => if m.1 = key then (key, value) :: ms else m :: set ms key value

theorem get_set (members : Members) (key : String) (value : Json) (k : String) :
    get (set members key value) k = if k = key then some value else get members k := by
  unfold get
  induction members with
  | nil =>
    by_cases h : k = key
    · simp [set, h]
    · simp [set, List.lookup_cons, beq_eq_false_iff_ne.mpr h, h]
  | cons m ms ih =>
    obtain ⟨name, v⟩ := m
    by_cases hname : name = key
    · subst hname
      by_cases h : k = name
      · simp [set, h]
      · simp [set, List.lookup_cons, beq_eq_false_iff_ne.mpr h, h]
    · by_cases h : k = name
      · subst h
        simp [set, hname]
      · simp [set, List.lookup_cons, beq_eq_false_iff_ne.mpr h, hname, ih]

/-! ### `Object.entries` -/

/-- Of members of one name the first counts. -/
def entries : Members → Members
  | [] => []
  | m :: ms => m :: (entries ms).filter fun other => decide (other.1 ≠ m.1)

theorem nodup_entries (members : Members) : ((entries members).map Prod.fst).Nodup := by
  induction members with
  | nil => exact List.nodup_nil
  | cons m ms ih =>
    rw [entries, List.map_cons, List.nodup_cons]
    constructor
    · simp
    · exact ih.sublist (List.filter_sublist.map Prod.fst)

/-! ### `jsonb` -/

mutual
/-- A `jsonb` column has no text with U+0000. -/
def storable : Json → Bool
  | .str s => Varchar.isText s
  | .arr elements => storableElements elements
  | .obj members => storableMembers members
  | .null | .bool _ | .num _ => true

def storableElements : List Json → Bool
  | [] => true
  | e :: es => storable e && storableElements es

def storableMembers : List (String × Json) → Bool
  | [] => true
  | (key, value) :: ms => Varchar.isText key && (storable value && storableMembers ms)
end

/-! ### Equality -/

mutual
def beq : Json → Json → Bool
  | .null, .null => true
  | .bool a, .bool b => decide (a = b)
  | .num a, .num b => decide (a = b)
  | .str a, .str b => decide (a = b)
  | .arr as, .arr bs => beqElements as bs
  | .obj as, .obj bs => beqMembers as bs
  | _, _ => false

def beqElements : List Json → List Json → Bool
  | [], [] => true
  | a :: as, b :: bs => beq a b && beqElements as bs
  | _, _ => false

def beqMembers : List (String × Json) → List (String × Json) → Bool
  | [], [] => true
  | (k, a) :: as, (l, b) :: bs => decide (k = l) && (beq a b && beqMembers as bs)
  | _, _ => false
end

mutual
theorem beq_iff (a b : Json) : beq a b = true ↔ a = b := by
  cases a <;> cases b <;> simp [beq, beqElements_iff, beqMembers_iff]

theorem beqElements_iff (as bs : List Json) : beqElements as bs = true ↔ as = bs := by
  cases as with
  | nil => cases bs <;> simp [beqElements]
  | cons a as =>
    cases bs with
    | nil => simp [beqElements]
    | cons b bs => simp [beqElements, beq_iff a b, beqElements_iff as bs]

theorem beqMembers_iff (as bs : List (String × Json)) : beqMembers as bs = true ↔ as = bs := by
  cases as with
  | nil => cases bs <;> simp [beqMembers]
  | cons a as =>
    cases bs with
    | nil => simp [beqMembers]
    | cons b bs =>
      obtain ⟨k, a⟩ := a
      obtain ⟨l, b⟩ := b
      simp [beqMembers, beq_iff a b, beqMembers_iff as bs, and_assoc]
end

instance : DecidableEq Json := fun a b => decidable_of_iff (beq a b = true) (beq_iff a b)

/-! ### Order of members -/

/-- Insertion by name; a member of the same name is replaced. -/
def insertMember (key : String) (value : Json) : Members → Members
  | [] => [(key, value)]
  | m :: ms =>
    if key < m.1 then (key, value) :: m :: ms
    else if key = m.1 then (key, value) :: ms
    else m :: insertMember key value ms

mutual
def canon : Json → Json
  | .null => .null
  | .bool b => .bool b
  | .num n => .num n
  | .str s => .str s
  | .arr elements => .arr (canonElements elements)
  | .obj members => .obj (canonMembers members)

def canonElements : List Json → List Json
  | [] => []
  | e :: es => canon e :: canonElements es

def canonMembers : List (String × Json) → List (String × Json)
  | [] => []
  | (key, value) :: ms => insertMember key (canon value) (canonMembers ms)
end

/-- `deepCompare` of two objects. -/
def deepCompare (a b : Members) : Bool := decide (canonMembers a = canonMembers b)

/-- What an object holds under a key, up to the order of members. -/
def read (members : Members) (key : String) : Option Json := (get members key).map canon

theorem get_insertMember (members : Members) (key : String) (value : Json) (k : String) :
    get (insertMember key value members) k = if k = key then some value else get members k := by
  unfold get
  induction members with
  | nil =>
    by_cases h : k = key
    · simp [insertMember, h]
    · simp [insertMember, List.lookup_cons, beq_eq_false_iff_ne.mpr h, h]
  | cons m ms ih =>
    obtain ⟨name, v⟩ := m
    unfold insertMember
    split
    · by_cases h : k = key
      · simp [h]
      · simp [List.lookup_cons, beq_eq_false_iff_ne.mpr h, h]
    · split
      next hname =>
        simp only at hname
        subst hname
        by_cases h : k = key
        · simp [h]
        · simp [List.lookup_cons, beq_eq_false_iff_ne.mpr h, h]
      next hname =>
        by_cases h : k = name
        · subst h
          simp [Ne.symm hname]
        · simp [List.lookup_cons, beq_eq_false_iff_ne.mpr h, ih]

theorem get_canonMembers (members : Members) (key : String) :
    get (canonMembers members) key = read members key := by
  induction members with
  | nil => rfl
  | cons m ms ih =>
    obtain ⟨name, value⟩ := m
    rw [canonMembers, get_insertMember, ih]
    by_cases h : key = name
    · simp [read, get, h]
    · simp [read, get, List.lookup_cons, beq_eq_false_iff_ne.mpr h, h]

theorem read_of_deepCompare {a b : Members} (h : deepCompare a b = true) (key : String) :
    read a key = read b key := by
  rw [← get_canonMembers, ← get_canonMembers, of_decide_eq_true h]

theorem read_set (members : Members) (key : String) (value : Json) (k : String) :
    read (set members key value) k = if k = key then some (canon value) else read members k := by
  rw [read, get_set]
  split <;> rfl

end Json

end VcCommonService.Lib
