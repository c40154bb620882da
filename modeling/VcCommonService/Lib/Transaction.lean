import Mathlib.Logic.Basic

/-!
# Statements, transactions and exceptions

A statement runs on the committed database or, through the manager of an open transaction, on
the transaction's working copy. An exception leaves what was done so far in place; only the end
of a transaction decides what becomes of its working copy.
-/

namespace VcCommonService.Lib.Transaction

variable {ε δ α β : Type}

structure Store (δ : Type) where
  committed : δ
  working : Option δ := none

def Action (ε δ α : Type) := Store δ → Except ε α × Store δ

namespace Action

/-- What follows a computation: its exception ends the sequence where it stands. -/
def next (r : Except ε α × Store δ) (f : α → Action ε δ β) : Except ε β × Store δ :=
  match r.1 with
  | .ok a => f a r.2
  | .error e => (.error e, r.2)

instance : Monad (Action ε δ) where
  pure a := fun s => (.ok a, s)
  bind x f := fun s => next (x s) f

@[simp] theorem pure_apply (a : α) (s : Store δ) :
    (pure a : Action ε δ α) s = (.ok a, s) := rfl

@[simp] theorem bind_apply (x : Action ε δ α) (f : α → Action ε δ β) (s : Store δ) :
    (x >>= f) s = next (x s) f := rfl

@[simp] theorem next_ok (a : α) (s : Store δ) (f : α → Action ε δ β) :
    next (.ok a, s) f = f a s := rfl

@[simp] theorem next_error (e : ε) (s : Store δ) (f : α → Action ε δ β) :
    next (.error e, s) f = (.error e, s) := rfl

theorem bind_assoc {γ : Type} (x : Action ε δ α) (f : α → Action ε δ β) (g : β → Action ε δ γ) :
    (x >>= f) >>= g = x >>= fun a => f a >>= g := by
  funext s
  simp only [bind_apply]
  cases x s with
  | mk r s' => cases r <;> rfl

end Action

/-- Who runs a statement: the manager of the open transaction, or a connection of its own. -/
inductive Runner where
  | manager
  | dataSource
  deriving Repr, DecidableEq

def query (runner : Runner) (f : δ → α × δ) : Action ε δ α := fun s =>
  match runner, s.working with
  | .manager, some db => (.ok (f db).1, { s with working := some (f db).2 })
  | _, _ => (.ok (f s.committed).1, { s with committed := (f s.committed).2 })

/-- A check that does not touch the database. -/
def check (r : Except ε α) : Action ε δ α := fun s => (r, s)

/-- The end of a transaction: commit when its body returns, roll back when it throws. -/
def finish (r : Except ε α × Store δ) : Except ε α × Store δ :=
  match r.1 with
  | .ok a => (.ok a, ⟨r.2.working.getD r.2.committed, none⟩)
  | .error e => (.error e, { r.2 with working := none })

def transaction (body : Action ε δ α) : Action ε δ α := fun s =>
  finish (body { s with working := some s.committed })

@[simp] theorem query_manager (f : δ → α × δ) (committed db : δ) :
    (query .manager f : Action ε δ α) ⟨committed, some db⟩ =
      (.ok (f db).1, ⟨committed, some (f db).2⟩) := rfl

@[simp] theorem query_dataSource (f : δ → α × δ) (committed : δ) (working : Option δ) :
    (query .dataSource f : Action ε δ α) ⟨committed, working⟩ =
      (.ok (f committed).1, ⟨(f committed).2, working⟩) := rfl

@[simp] theorem check_apply (r : Except ε α) (s : Store δ) :
    (check r : Action ε δ α) s = (r, s) := rfl

/-- A body that returns commits its working copy. -/
theorem transaction_ok {body : Action ε δ α} {db db' : δ} {a : α}
    (h : body ⟨db, some db⟩ = (.ok a, ⟨db, some db'⟩)) :
    transaction body ⟨db, none⟩ = (.ok a, ⟨db', none⟩) := by
  unfold transaction
  dsimp only
  rw [h]
  rfl

/-- A body that throws leaves the database as it was, whatever it wrote through the manager. -/
theorem transaction_error {body : Action ε δ α} {db db' : δ} {e : ε}
    (h : body ⟨db, some db⟩ = (.error e, ⟨db, some db'⟩)) :
    transaction body ⟨db, none⟩ = (.error e, ⟨db, none⟩) := by
  unfold transaction
  dsimp only
  rw [h]
  rfl

/-! ### Statements that may throw

A sequence of statements on the committed database, each at a point where it may throw. A statement
that throws has done nothing, and what comes after it is not run. -/

section Faults

variable {ι : Type}

def readOnly (f : δ → Except ε α) : Action ε δ α := fun s => (f s.committed, s)

def applied (statements : List (ι × (δ → δ))) (db : δ) : δ :=
  statements.foldl (fun db statement => statement.2 db) db

@[simp] theorem readOnly_apply (f : δ → Except ε α) (s : Store δ) :
    readOnly f s = (f s.committed, s) := rfl

@[simp] theorem applied_nil (db : δ) : applied ([] : List (ι × (δ → δ))) db = db := rfl

@[simp] theorem applied_cons (statement : ι × (δ → δ)) (statements : List (ι × (δ → δ))) (db : δ) :
    applied (statement :: statements) db = applied statements (statement.2 db) := rfl

theorem applied_append (xs ys : List (ι × (δ → δ))) (db : δ) :
    applied (xs ++ ys) db = applied ys (applied xs db) := List.foldl_append

variable [DecidableEq ι] (thrown : ι → ε) (fault : Option ι)

/-- `fault` is the point that throws, if one does. -/
def attempt (point : ι) (x : Action ε δ α) : Action ε δ α :=
  if fault = some point then check (.error (thrown point)) else x

/-- A statement that the database may refuse; it has no effect then. -/
def refusable (refused : ε) (f : δ → Option (α × δ)) : Action ε δ α := fun s =>
  match f s.committed with
  | none => (.error refused, s)
  | some (a, db) => (.ok a, { s with committed := db })

def sequence : List (ι × (δ → δ)) → Action ε δ Unit
  | [] => pure ()
  | (point, f) :: statements => do
    attempt thrown fault point (query .dataSource fun db => ((), f db))
    sequence statements

/-- A query for something the next statements depend on. -/
def find (point : ι) (g : δ → α) : Action ε δ α :=
  attempt thrown fault point (query .dataSource fun db => (g db, db))

variable {thrown fault}

@[simp] theorem attempt_none (thrown : ι → ε) (point : ι) (x : Action ε δ α) :
    attempt thrown none point x = x := if_neg nofun

omit [DecidableEq ι] in
theorem refusable_some {refused : ε} {f : δ → Option (α × δ)} {db db' : δ} {a : α}
    {working : Option δ} (h : f db = some (a, db')) :
    refusable refused f ⟨db, working⟩ = (.ok a, ⟨db', working⟩) := by
  simp only [refusable, h]

omit [DecidableEq ι] in
theorem refusable_none {refused : ε} {f : δ → Option (α × δ)} {db : δ} {working : Option δ}
    (h : f db = none) : refusable refused f ⟨db, working⟩ = (.error refused, ⟨db, working⟩) := by
  simp only [refusable, h]

/-- No statement is at the point that throws. -/
theorem sequence_ok {statements : List (ι × (δ → δ))}
    (h : ∀ statement ∈ statements, fault ≠ some statement.1) (db : δ) :
    sequence thrown fault statements ⟨db, none⟩ = (.ok (), ⟨applied statements db, none⟩) := by
  induction statements generalizing db with
  | nil => rfl
  | cons statement statements ih =>
    have hhead := h statement (List.mem_cons_self ..)
    rw [sequence, Action.bind_apply, attempt, if_neg hhead, query_dataSource, Action.next_ok,
      ih (fun st hst => h st (List.mem_cons_of_mem _ hst))]
    rfl

/-- What was done before the statement that throws stays. -/
theorem sequence_error {point : ι} {f : δ → δ} {before after : List (ι × (δ → δ))}
    (h : ∀ statement ∈ before, statement.1 ≠ point) (db : δ) :
    sequence thrown (some point) (before ++ (point, f) :: after) ⟨db, none⟩ =
      (.error (thrown point), ⟨applied before db, none⟩) := by
  induction before generalizing db with
  | nil =>
    rw [List.nil_append, sequence, Action.bind_apply, attempt, if_pos rfl]
    rfl
  | cons statement before ih =>
    have hhead : some point ≠ some statement.1 :=
      fun heq => h statement (List.mem_cons_self ..) (Option.some.inj heq).symm
    rw [List.cons_append, sequence, Action.bind_apply, attempt, if_neg hhead, query_dataSource,
      Action.next_ok, ih (fun st hst => h st (List.mem_cons_of_mem _ hst))]
    rfl

/-- A computation that goes on like a sequence after a sequence is their concatenation. -/
theorem sequence_bind {xs ys : List (ι × (δ → δ))} {rest : Action ε δ Unit} {db : δ}
    (h : rest ⟨applied xs db, none⟩ = sequence thrown fault ys ⟨applied xs db, none⟩) :
    (sequence thrown fault xs >>= fun _ => rest) ⟨db, none⟩ =
      sequence thrown fault (xs ++ ys) ⟨db, none⟩ := by
  induction xs generalizing db with
  | nil => exact h
  | cons statement xs ih =>
    rw [List.cons_append, sequence, sequence]
    by_cases hfault : fault = some statement.1
    · rw [attempt, if_pos hfault]
      rfl
    · rw [attempt, if_neg hfault]
      exact ih h

theorem find_bind {point : ι} {g : δ → α} {ys : List (ι × (δ → δ))} {rest : α → Action ε δ Unit}
    {db : δ} (h : rest (g db) ⟨db, none⟩ = sequence thrown fault ys ⟨db, none⟩) :
    (find thrown fault point g >>= rest) ⟨db, none⟩ =
      sequence thrown fault ((point, id) :: ys) ⟨db, none⟩ := by
  unfold find
  rw [sequence]
  by_cases hfault : fault = some point
  · rw [attempt, if_pos hfault, attempt, if_pos hfault]
    rfl
  · rw [attempt, if_neg hfault, attempt, if_neg hfault]
    exact h

end Faults

/-! ### Outcomes

`try`/`catch`, and rules for what a computation may come to: its postcondition speaks of both
endings. -/

section Outcomes

/-- `try { x } catch (e) { handler(e) }`. -/
def rescue (x : Action ε δ α) (handler : ε → Action ε δ α) : Action ε δ α := fun s =>
  match x s with
  | (.ok a, s') => (.ok a, s')
  | (.error e, s') => handler e s'

/-- The outcome of `x` in `s` satisfies `Q`. -/
def Ensures (x : Action ε δ α) (s : Store δ) (Q : Except ε α → Store δ → Prop) : Prop :=
  Q (x s).1 (x s).2

variable {x : Action ε δ α} {s : Store δ} {P : Except ε α → Store δ → Prop}

theorem Ensures.bind {f : α → Action ε δ β} {Q : Except ε β → Store δ → Prop}
    (hx : Ensures x s P) (hok : ∀ a s', P (.ok a) s' → Ensures (f a) s' Q)
    (herror : ∀ e s', P (.error e) s' → Q (.error e) s') : Ensures (x >>= f) s Q := by
  unfold Ensures at hx ⊢
  rw [Action.bind_apply]
  cases hr : x s with
  | mk r s' =>
    rw [hr] at hx
    cases r with
    | ok a => exact hok a s' hx
    | error e => exact herror e s' hx

theorem Ensures.rescue {handler : ε → Action ε δ α} {Q : Except ε α → Store δ → Prop}
    (hx : Ensures x s P) (hok : ∀ a s', P (.ok a) s' → Q (.ok a) s')
    (herror : ∀ e s', P (.error e) s' → Ensures (handler e) s' Q) :
    Ensures (rescue x handler) s Q := by
  unfold Ensures at hx ⊢
  unfold Transaction.rescue
  cases hr : x s with
  | mk r s' =>
    rw [hr] at hx
    cases r with
    | ok a => exact hok a s' hx
    | error e => exact herror e s' hx

theorem Ensures.weaken {Q : Except ε α → Store δ → Prop} (hx : Ensures x s P)
    (h : ∀ r s', P r s' → Q r s') : Ensures x s Q := h _ _ hx

/-- A fault before the computation, or the computation. -/
theorem Ensures.attempt {ι : Type} [DecidableEq ι] {thrown : ι → ε} {fault : Option ι} {point : ι}
    (hx : Ensures x s P) (hthrown : P (.error (thrown point)) s) :
    Ensures (attempt thrown fault point x) s P := by
  unfold Transaction.attempt
  split
  · exact hthrown
  · exact hx

end Outcomes

end VcCommonService.Lib.Transaction
