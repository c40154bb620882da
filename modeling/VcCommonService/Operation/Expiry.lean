import VcCommonService.Operation.Calls

/-!
# The stored expiry and the stored state

`transitionState` computes the expiry of its state and of the view it loaded, and its save
writes each of the three columns only where it differs from the row that the save has read.
`markFirstView` writes an expiry that was computed from the state it loaded. The row stays
consistent in every run in which that state is still the stored one whenever the update
succeeds, and in which what a save leaves out is still stored as it was read.
-/

namespace VcCommonService.Operations
open Lib
open Table (written_of_eq written_eq_entity)

/-- The expiry is the one of the stored state and view, under a configuration the
tenant has had. -/
def ExpiryMatches (db : Store) : Prop :=
  ∃ config ∈ db.configHistory,
    computeOperationExpiresAt db.operation.state db.operation.createdAt db.operation.viewedAt
      (some config) = some db.operation.expiresAt

/-- State, view and expiry are still the inserted ones, where the expiry was computed from the
service clock. -/
structure AsCreated (created : Operation) (config : Json.Members) (now : Time) (db : Store) :
    Prop where
  state : db.operation.state = .pending
  viewedAt : db.operation.viewedAt = none
  expiresAt : db.operation.expiresAt = created.expiresAt
  computed : computeOperationExpiresAt .pending now none (some config) = some created.expiresAt

/-- The save writes none of the three columns. -/
def LeavesAllOut (entity row : Operation) : Prop :=
  entity.state = row.state ∧ entity.viewedAt = row.viewedAt ∧ entity.expiresAt = row.expiresAt

/-- What the save leaves out of the three columns is stored as it was read. The view counts
only for the terminal states. -/
structure LeftOutStored (entity row current : Operation) : Prop where
  state : entity.state = row.state → current.state = row.state
  expiresAt : entity.expiresAt = row.expiresAt → current.expiresAt = row.expiresAt
  viewedAt : isTerminalOperationState entity.state = true →
    entity.viewedAt = row.viewedAt → current.viewedAt = row.viewedAt

/-- A view that is about to be stamped was computed for the stored state; and a save that
writes some of the three columns finds the others as it has read them. -/
def FreshState (db : Store) : Call → Event → Prop
  | .marking loaded _ (some _), .next =>
    db.operation.viewedAt = none → loaded.state = db.operation.state
  | .writing loaded state result computed row, .next => ∀ expiresAt, computed = some expiresAt →
    LeavesAllOut (transitioned loaded state result expiresAt) row ∨
      LeftOutStored (transitioned loaded state result expiresAt) row db.operation
  | _, _ => True

/-! ### Invariant -/

section Invariant

variable (created : Operation) (config : Json.Members) (now : Time)

structure ExpiryInv (db : Store) : Prop where
  createdAt : db.operation.createdAt = created.createdAt
  history : ∀ c, db.tenantConfig = some c → c ∈ db.configHistory
  expiry : AsCreated created config now db ∨ ExpiryMatches db

def ComputedFrom (db : Store) : Call → Prop
  | .viewing loaded => loaded.createdAt = created.createdAt
  | .transitioning loaded _ _ => loaded.createdAt = created.createdAt
  | .marking loaded viewedAt expiresAt =>
    loaded.createdAt = created.createdAt ∧ ∃ c ∈ db.configHistory,
      computeOperationExpiresAt loaded.state loaded.createdAt (some viewedAt) (some c) = expiresAt
  | .saving loaded state _ expiresAt | .writing loaded state _ expiresAt _ =>
    loaded.createdAt = created.createdAt ∧ ∃ c ∈ db.configHistory,
      computeOperationExpiresAt state loaded.createdAt loaded.viewedAt (some c) = expiresAt
  | _ => True

variable {created config now}

theorem computedFrom_mono {db db' : Store} {pc : Call}
    (h : ∀ c ∈ db.configHistory, c ∈ db'.configHistory) (hc : ComputedFrom created db pc) :
    ComputedFrom created db' pc := by
  cases pc with
  | marking loaded viewedAt expiresAt =>
    obtain ⟨hcreated, c, hmem, heq⟩ := hc
    exact ⟨hcreated, c, h c hmem, heq⟩
  | saving loaded state result expiresAt =>
    obtain ⟨hcreated, c, hmem, heq⟩ := hc
    exact ⟨hcreated, c, h c hmem, heq⟩
  | writing loaded state result expiresAt row =>
    obtain ⟨hcreated, c, hmem, heq⟩ := hc
    exact ⟨hcreated, c, h c hmem, heq⟩
  | viewing loaded => exact hc
  | transitioning loaded state result => exact hc
  | _ => trivial

theorem computedFrom_moved {db : Store} {pc pc' : Call} (hi : ExpiryInv created config now db)
    (hm : Moved db pc pc') (hc : ComputedFrom created db pc) : ComputedFrom created db pc' := by
  cases hm with
  | load loaded hload pc' hpc =>
    have hcreated : loaded.createdAt = created.createdAt := by rw [hload, hi.createdAt]
    rcases hpc with rfl | ⟨state, result, rfl⟩
    · exact hcreated
    · exact hcreated
  | view loaded now c hconfig => exact ⟨hc, c, hi.history c hconfig, rfl⟩
  | transition loaded state result c hconfig => exact ⟨hc, c, hi.history c hconfig, rfl⟩
  | read loaded state result expiresAt => exact hc
  | settle pc result => trivial
  | reread pc id => trivial

theorem createdAt_writeColumns {row entity current : Operation}
    (h : entity.createdAt = current.createdAt) :
    (writeColumns row entity current).createdAt = current.createdAt := by
  show Table.written row.createdAt entity.createdAt current.createdAt = current.createdAt
  unfold Table.written
  split
  · rfl
  · exact h

/-- A save that leaves the three columns out keeps what was said of them. -/
theorem expiry_leavesAllOut {db : Store} {entity row : Operation}
    (hentity : entity.createdAt = db.operation.createdAt) (hout : LeavesAllOut entity row)
    (h : AsCreated created config now db ∨ ExpiryMatches db) :
    AsCreated created config now (save db entity row) ∨ ExpiryMatches (save db entity row) := by
  obtain ⟨hstate, hviewedAt, hexpiresAt⟩ := hout
  have hstate' : (save db entity row).operation.state = db.operation.state :=
    written_of_eq hstate _
  have hviewedAt' : (save db entity row).operation.viewedAt = db.operation.viewedAt :=
    written_of_eq hviewedAt _
  have hexpiresAt' : (save db entity row).operation.expiresAt = db.operation.expiresAt :=
    written_of_eq hexpiresAt _
  have hcreatedAt' : (save db entity row).operation.createdAt = db.operation.createdAt :=
    createdAt_writeColumns hentity
  rcases h with h | ⟨c, hmem, heq⟩
  · exact Or.inl ⟨hstate'.trans h.state, hviewedAt'.trans h.viewedAt,
      hexpiresAt'.trans h.expiresAt, h.computed⟩
  · refine Or.inr ⟨c, hmem, ?_⟩
    rw [hstate', hviewedAt', hexpiresAt', hcreatedAt', heq]

/-- Where what is left out has been kept, the row has the three columns of the entity; only the
view of a state that is not terminal may be another one. -/
theorem expiry_leftOutStored {db : Store} {entity row : Operation} {c : Json.Members}
    (hentity : entity.createdAt = db.operation.createdAt)
    (hkept : LeftOutStored entity row db.operation)
    (heq : computeOperationExpiresAt entity.state entity.createdAt entity.viewedAt (some c) =
      some entity.expiresAt) :
    computeOperationExpiresAt (save db entity row).operation.state
      (save db entity row).operation.createdAt (save db entity row).operation.viewedAt (some c) =
      some (save db entity row).operation.expiresAt := by
  have hstate : (save db entity row).operation.state = entity.state :=
    written_eq_entity hkept.state
  have hexpiresAt : (save db entity row).operation.expiresAt = entity.expiresAt :=
    written_eq_entity hkept.expiresAt
  have hcreatedAt : (save db entity row).operation.createdAt = entity.createdAt :=
    (createdAt_writeColumns hentity).trans hentity.symm
  rw [hstate, hexpiresAt, hcreatedAt, ← heq]
  cases hterminal : isTerminalOperationState entity.state with
  | true =>
    have hviewedAt : (save db entity row).operation.viewedAt = entity.viewedAt :=
      written_eq_entity (hkept.viewedAt hterminal)
    rw [hviewedAt]
  | false =>
    rw [computeOperationExpiresAt_not_terminal hterminal,
      ← computeOperationExpiresAt_not_terminal hterminal _ entity.viewedAt]

theorem expiryInv_wrote {db db' : Store} {pc : Call} (hi : ExpiryInv created config now db)
    (hc : ComputedFrom created db pc) (hw : Wrote db pc db') (hfresh : FreshState db pc .next) :
    ExpiryInv created config now db' := by
  cases hw with
  | view loaded viewedAt expiresAt hid hnone =>
    obtain ⟨hcreated, c, hmem, heq⟩ := hc
    refine ⟨hi.createdAt, hi.history, Or.inr ⟨c, hmem, ?_⟩⟩
    have hstate : loaded.state = db.operation.state := hfresh hnone
    rw [← heq, hstate, hcreated, ← hi.createdAt]
  | save loaded state result expiresAt row =>
    obtain ⟨hcreated, c, hmem, heq⟩ := hc
    have hentity : (transitioned loaded state result expiresAt).createdAt =
        db.operation.createdAt := hcreated.trans hi.createdAt.symm
    refine ⟨(createdAt_writeColumns hentity).trans hi.createdAt, hi.history, ?_⟩
    rcases hfresh expiresAt rfl with hout | hkept
    · exact expiry_leavesAllOut hentity hout hi.expiry
    · exact Or.inr ⟨c, hmem, expiry_leftOutStored hentity hkept heq⟩

theorem expiryInv_configure {db : Store} (hi : ExpiryInv created config now db)
    (c' : Option Json.Members) : ExpiryInv created config now (configure db c') := by
  refine ⟨hi.createdAt, fun c hc => ?_, ?_⟩
  · have hc' : c' = some c := hc
    simp [configure, hc']
  · rcases hi.expiry with hcreated | ⟨c, hmem, heq⟩
    · exact Or.inl ⟨hcreated.state, hcreated.viewedAt, hcreated.expiresAt, hcreated.computed⟩
    · exact Or.inr ⟨c, List.mem_append_left _ hmem, heq⟩

theorem configHistory_grows {db db' : Store} {pc pc' : Call} {e : Event}
    (ha : act db pc e = some (db', pc')) : ∀ c ∈ db.configHistory, c ∈ db'.configHistory := by
  intro c hmem
  rcases act_cases ha with ⟨hw, -, -⟩ | ⟨c', rfl, -, -⟩ | ⟨rfl, -, -⟩
  · cases hw with
    | view => exact hmem
    | save => exact hmem
  · exact List.mem_append_left _ hmem
  · exact hmem

theorem expiryInv_act {db db' : Store} {pc pc' : Call} {e : Event}
    (hi : ExpiryInv created config now db) (hc : ComputedFrom created db pc)
    (ha : act db pc e = some (db', pc')) (hfresh : FreshState db pc e) :
    ExpiryInv created config now db' ∧ ComputedFrom created db' pc' := by
  rcases act_cases ha with ⟨hw, rfl, result, rfl⟩ | ⟨c', rfl, rfl, rfl⟩ | ⟨rfl, hm, -⟩
  · exact ⟨expiryInv_wrote hi hc hw hfresh, trivial⟩
  · exact ⟨expiryInv_configure hi c', trivial⟩
  · exact ⟨hi, computedFrom_moved hi hm hc⟩

theorem asCreated_createOperation {input : CreateOperationInput} {id : String} {createdAt : Time}
    (h : createOperation input config now id createdAt = .ok created) (history : List Json.Members) :
    AsCreated created config now ⟨created, some config, history, 0⟩ := by
  unfold createOperation at h
  split at h
  · cases h
  next expiresAt heq =>
    cases h
    exact ⟨rfl, rfl, rfl, heq⟩

end Invariant

/-! ### Runs -/

/-- After any run from the creation of an operation in which views are stamped only on the
state they were computed for, and saves find what they leave out as they have read it, the
row is as created or its expiry matches. -/
theorem expiresAt_matches (input : CreateOperationInput) (config : Json.Members) (now : Time)
    (id : String) (createdAt : Time) (created : Operation) (events : List (ℕ × Event))
    (hcreate : createOperation input config now id createdAt = .ok created)
    (hrun : Run.All step (Run.Before FreshState)
      ⟨⟨created, some config, [config], 0⟩, fun _ => .idle⟩ events) :
    Run.All step (fun _ _ w' => AsCreated created config now w'.db ∨ ExpiryMatches w'.db)
      ⟨⟨created, some config, [config], 0⟩, fun _ => .idle⟩ events := by
  refine Run.all_of_invariant
    (Run.Holds (ExpiryInv created config now) (ComputedFrom created)) ?_ ?_ hrun
  · intro w l w' hw hs hc
    have hkeep := Run.holds_interleave (C := FreshState)
      (fun _ _ _ _ _ hg hl ha hc => expiryInv_act hg hl ha hc)
      (fun _ _ _ _ _ _ _ _ ho ha _ => computedFrom_mono (configHistory_grows ha) ho) hw hs hc
    exact ⟨hkeep, hkeep.1.expiry⟩
  · refine ⟨⟨rfl, ?_, Or.inl (asCreated_createOperation hcreate [config])⟩, fun _ => trivial⟩
    intro c hc
    exact List.mem_singleton.mpr (Option.some.inj hc).symm

/-! ### A view computed before a transition -/

def issuanceInput : CreateOperationInput :=
  { tenantId := "t", type := "issuance", request := .obj [] }

def pendingOperation : Operation :=
  { id := "op", tenantId := "t", batchId := none, type := "issuance", state := .pending
    request := .obj [], result := none, externalId := none, viewedAt := none
    expiresAt := 86400000, createdAt := 0 }

/-- `markViewed` computes the expiry of a pending operation, and the operation completes. -/
def completionDuringView : List (ℕ × Event) :=
  [(0, .markViewed "op"), (0, .readTenant 1000), (1, .transitionState "op" .completed none),
    (1, .readTenant 2000), (1, .next), (1, .next)]

theorem createOperation_issuanceInput :
    createOperation issuanceInput [] 0 "op" 0 = .ok pendingOperation := by
  have hexp : computeOperationExpiresAt .pending 0 none (some []) = some 86400000 := by
    decide +kernel
  simp only [createOperation, hexp]
  rfl

theorem expiresAt_matches_completion :
    Run.All step (fun _ _ w' => AsCreated pendingOperation [] 0 w'.db ∨ ExpiryMatches w'.db)
      ⟨⟨pendingOperation, some [], [[]], 0⟩, fun _ => .idle⟩
      [(1, .transitionState "op" .completed none), (1, .readTenant 2000), (1, .next),
        (1, .next)] := by
  refine expiresAt_matches issuanceInput [] 0 "op" 0 pendingOperation _
    createOperation_issuanceInput ?_
  exact ⟨_, rfl, trivial, _, rfl, trivial, _, rfl, trivial, _, rfl,
    fun _ _ => Or.inr ⟨fun _ => rfl, fun _ => rfl, fun _ _ => rfl⟩, trivial⟩

theorem expiresAt_mismatch : ¬ ∀ (input : CreateOperationInput) (config : Json.Members)
    (now : Time) (id : String) (createdAt : Time) (created : Operation)
    (events : List (ℕ × Event)),
    createOperation input config now id createdAt = .ok created →
    Run.Enabled step ⟨⟨created, some config, [config], 0⟩, fun _ => .idle⟩ events →
    Run.All step (fun _ _ w' => AsCreated created config now w'.db ∨ ExpiryMatches w'.db)
      ⟨⟨created, some config, [config], 0⟩, fun _ => .idle⟩ events := by
  intro hall
  have hrun := hall issuanceInput [] 0 "op" 0 pendingOperation
    (completionDuringView ++ [(0, .next)]) createOperation_issuanceInput
    (Run.enabled_of_final (by decide +kernel))
  obtain ⟨w, w', hmatch, hq⟩ := Run.all_last hrun
    (fun _ w' => decide ((∀ c ∈ w'.db.configHistory, c.length = 0) ∧
      w'.db.operation.state = .completed ∧ w'.db.operation.createdAt = 0 ∧
      w'.db.operation.viewedAt = some 1000 ∧ w'.db.operation.expiresAt = 86400000))
    (by decide +kernel)
  obtain ⟨hhistory, hstate, hcreatedAt, hviewedAt, hexpiresAt⟩ := of_decide_eq_true hq
  rcases hmatch with hcreated | ⟨c, hc, heq⟩
  · rw [hcreated.state] at hstate
    cases hstate
  · rw [List.length_eq_zero_iff.mp (hhistory c hc), hstate, hcreatedAt, hviewedAt,
      hexpiresAt] at heq
    revert heq
    decide +kernel

end VcCommonService.Operations
