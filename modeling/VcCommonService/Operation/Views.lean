import VcCommonService.Operation.Calls

/-!
# Durability of the first view

`markFirstView` is conditional, so views cannot race with each other. The save of
`transitionState` writes the view it loaded over another one that it reads, so a view is
durable exactly in the runs where each such save has read the view that its call loaded.
-/

namespace VcCommonService.Operations
open Lib
open Table (written_of_eq written_of_ne)

/-- A stored view stays as it is, and `markFirstView` has updated the row at most once. -/
def ViewKept (db db' : Store) : Prop :=
  (∀ viewedAt, db.operation.viewedAt = some viewedAt →
    db'.operation.viewedAt = some viewedAt) ∧ db'.firstViews ≤ 1

/-- The row that a save of `transitionState` has read has the view that its call loaded. -/
def FreshView (_ : Store) : Call → Event → Prop
  | .writing loaded _ _ (some _) row, .next => loaded.viewedAt = row.viewedAt
  | _, _ => True

/-! ### Invariant -/

def ViewsCounted (db : Store) : Prop :=
  db.firstViews ≤ 1 ∧ (db.firstViews = 1 → db.operation.viewedAt.isSome = true)

def LoadedViewStored (db : Store) : Call → Prop
  | .transitioning loaded _ _ =>
    ∀ viewedAt, loaded.viewedAt = some viewedAt → db.operation.viewedAt = some viewedAt
  | .saving loaded _ _ _ =>
    ∀ viewedAt, loaded.viewedAt = some viewedAt → db.operation.viewedAt = some viewedAt
  | .writing loaded _ _ _ row =>
    (∀ viewedAt, loaded.viewedAt = some viewedAt → row.viewedAt = some viewedAt) ∧
      ∀ viewedAt, row.viewedAt = some viewedAt → db.operation.viewedAt = some viewedAt
  | _ => True

theorem loadedViewStored_mono {db db' : Store} {pc : Call}
    (h : ∀ v, db.operation.viewedAt = some v → db'.operation.viewedAt = some v)
    (hl : LoadedViewStored db pc) : LoadedViewStored db' pc := by
  cases pc with
  | transitioning loaded state result => exact fun v hv => h v (hl v hv)
  | saving loaded state result expiresAt => exact fun v hv => h v (hl v hv)
  | writing loaded state result expiresAt row => exact ⟨hl.1, fun v hv => h v (hl.2 v hv)⟩
  | _ => trivial

theorem loadedViewStored_moved {db : Store} {pc pc' : Call} (hm : Moved db pc pc')
    (hl : LoadedViewStored db pc) : LoadedViewStored db pc' := by
  cases hm with
  | load loaded hload pc' hpc =>
    rcases hpc with rfl | ⟨state, result, rfl⟩
    · trivial
    · intro v hv
      rw [← hload]
      exact hv
  | view loaded now config hconfig => trivial
  | transition loaded state result config hconfig => exact hl
  | read loaded state result expiresAt => exact ⟨hl, fun _ hv => hv⟩
  | settle pc result => trivial
  | reread pc id => trivial

theorem freshView_of_not_save {db : Store} {pc : Call} {e : Event}
    (h : ∀ loaded state result expiresAt row,
      pc = .writing loaded state result (some expiresAt) row → e ≠ .next) :
    FreshView db pc e := by
  unfold FreshView
  split
  · exact absurd rfl (h _ _ _ _ _ rfl)
  · trivial

theorem wrote_view_iff {db db' : Store} {pc : Call} (hw : Wrote db pc db') (hg : ViewsCounted db)
    (hl : LoadedViewStored db pc) :
    (FreshView db pc .next ↔ ViewKept db db') ∧ (ViewKept db db' → ViewsCounted db') := by
  cases hw with
  | view loaded viewedAt expiresAt hid hnone =>
    have hzero : db.firstViews = 0 := by
      have hone : db.firstViews ≠ 1 := fun h => by
        have hsome := hg.2 h
        rw [hnone] at hsome
        cases hsome
      have := hg.1
      omega
    have hkept : ViewKept db { db with
        operation := { db.operation with viewedAt := some viewedAt, expiresAt }
        firstViews := db.firstViews + 1 } := by
      refine ⟨fun v hv => ?_, by simp [hzero]⟩
      rw [hnone] at hv
      cases hv
    exact ⟨iff_of_true trivial hkept, fun _ => ⟨hkept.2, fun _ => rfl⟩⟩
  | save loaded state result expiresAt row =>
    obtain ⟨hloaded, hrow⟩ := hl
    refine ⟨⟨fun hfresh => ⟨fun v hv => ?_, hg.1⟩, fun hkept => ?_⟩, fun hkept => ⟨hg.1, fun h => ?_⟩⟩
    · -- the column is left out
      exact (written_of_eq hfresh _).trans hv
    · show loaded.viewedAt = row.viewedAt
      cases hv : row.viewedAt with
      | some v =>
        by_contra hne
        have hwritten : loaded.viewedAt = some v :=
          (written_of_ne (hv ▸ hne) _).symm.trans (hkept.1 v (hrow v hv))
        exact hne hwritten
      | none =>
        -- a loaded view would be in the row, so nothing was loaded either
        cases hlv : loaded.viewedAt with
        | none => rfl
        | some v =>
          have hread := hloaded v hlv
          rw [hv] at hread
          cases hread
    · obtain ⟨v, hv⟩ := Option.isSome_iff_exists.mp (hg.2 h)
      rw [hkept.1 v hv]
      rfl

theorem act_view_iff {db db' : Store} {pc pc' : Call} {e : Event} (hg : ViewsCounted db)
    (hl : LoadedViewStored db pc) (ha : act db pc e = some (db', pc')) :
    (FreshView db pc e ↔ ViewKept db db') ∧
      (ViewKept db db' → ViewsCounted db' ∧ LoadedViewStored db' pc') := by
  rcases act_cases ha with ⟨hw, rfl, result, rfl⟩ | ⟨config, rfl, rfl, rfl⟩ | ⟨rfl, hm, hns⟩
  · obtain ⟨hiff, hcount⟩ := wrote_view_iff hw hg hl
    exact ⟨hiff, fun hkept => ⟨hcount hkept, trivial⟩⟩
  · exact ⟨iff_of_true trivial ⟨fun _ hv => hv, hg.1⟩, fun _ => ⟨hg, trivial⟩⟩
  · exact ⟨iff_of_true (freshView_of_not_save hns) ⟨fun _ hv => hv, hg.1⟩,
      fun _ => ⟨hg, loadedViewStored_moved hm hl⟩⟩

/-! ### Runs -/

/-- In every run from a row whose first view has not been stamped by `markFirstView`
yet, views are durable if and only if every save of `transitionState` is fresh. -/
theorem viewedAt_durable_iff (operation : Operation) (config : Option Json.Members)
    (history : List Json.Members) (events : List (ℕ × Event)) :
    Run.All step (Run.Across ViewKept) ⟨⟨operation, config, history, 0⟩, fun _ => .idle⟩ events ↔
      Run.All step (Run.Before FreshView) ⟨⟨operation, config, history, 0⟩, fun _ => .idle⟩
        events := by
  symm
  refine Run.all_iff_of_invariant (Run.Holds ViewsCounted LoadedViewStored) ?_ ?_
    ⟨⟨by simp, by simp⟩, fun _ => trivial⟩
  · intro w l w' hw hs
    obtain ⟨db', pc', ha, rfl⟩ := Run.interleave_cases hs
    exact (act_view_iff hw.1 (hw.2 l.1) ha).1
  · intro w l w' hw hs hc
    refine Run.holds_interleave (C := FreshView) ?_ ?_ hw hs hc
    · intro db pc e db' pc' hg hl ha hc
      obtain ⟨hiff, hkeep⟩ := act_view_iff hg hl ha
      exact hkeep (hiff.mp hc)
    · intro db pc e db' pc' other hg hl ho ha hc
      have hkept : ViewKept db db' := (act_view_iff hg hl ha).1.mp hc
      exact loadedViewStored_mono hkept.1 ho

/-! ### A poll during a transition -/

def completedOperation : Operation :=
  { id := "op", tenantId := "t", batchId := none, type := "issuance", state := .completed
    request := .obj [], result := none, externalId := none, viewedAt := none
    expiresAt := 259200000, createdAt := 0 }

def pollDuringTransition : List (ℕ × Event) :=
  [(0, .transitionState "op" .failed none), (0, .readTenant 1000), (1, .getForTenant "t" "op"),
    (1, .readTenant 2000), (1, .next), (0, .next)]

theorem viewedAt_cleared : ¬ ∀ (operation : Operation) (config : Option Json.Members)
    (history : List Json.Members) (events : List (ℕ × Event)),
    Run.Enabled step ⟨⟨operation, config, history, 0⟩, fun _ => .idle⟩ events →
    Run.All step (Run.Across ViewKept) ⟨⟨operation, config, history, 0⟩, fun _ => .idle⟩
      events := by
  intro hall
  have hrun := hall completedOperation (some []) [[]] (pollDuringTransition ++ [(0, .next)])
    (Run.enabled_of_final (by decide +kernel))
  obtain ⟨w, w', hkept, hq⟩ := Run.all_last hrun
    (fun w w' => decide (w.db.operation.viewedAt = some 2000 ∧ w'.db.operation.viewedAt = none))
    (by decide +kernel)
  obtain ⟨hviewed, hcleared⟩ := of_decide_eq_true hq
  have hstill : w'.db.operation.viewedAt = some 2000 := hkept.1 2000 hviewed
  rw [hcleared] at hstill
  cases hstill

end VcCommonService.Operations
