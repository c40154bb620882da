import VcCommonService.Tenant.Model

/-!
# Concurrent merges of the tenant configuration

`updateConfig` merges its keys into the configuration it has loaded and saves the result as one
value. The save reads the row again and writes the columns that differ from it, so a key that
another call has stored since the load is taken back with the whole value.
-/

namespace VcCommonService.Tenants
open Lib Auth

/-! ### Calls -/

/-- Where a call is: not begun, waiting for the connector, about to save, or with the row that
its save has read. -/
inductive MergeCall where
  | ready (dto : UpdateTenantConfigDto)
  | checkingConnector (dto : UpdateTenantConfigDto) (loaded : Tenant) (auth : Option AuthContext)
      (connectorId : String)
  | saving (dto : UpdateTenantConfigDto) (loaded : Tenant)
  | writing (dto : UpdateTenantConfigDto) (loaded row : Tenant)
  | publishing (dto : UpdateTenantConfigDto) (saved : Tenant)
  | done (dto : UpdateTenantConfigDto) (result : Except ServiceError Tenant)

def MergeCall.dto : MergeCall → UpdateTenantConfigDto
  | .ready dto | .checkingConnector dto _ _ _ | .saving dto _ | .writing dto _ _
  | .publishing dto _ | .done dto _ => dto

inductive MergeEvent where
  | updateConfig (id : TenantId) (auth : Option AuthContext)
  | connector (found : Option ConnectorCredential)
  | next
  | abort (error : ServiceError)

def mergedTenant (dto : UpdateTenantConfigDto) (loaded : Tenant) : Tenant :=
  { loaded with config := mergeConfig dto loaded.config }

def beginMerge (dto : UpdateTenantConfigDto) (auth : Option AuthContext) (loaded : Tenant) :
    MergeCall :=
  match dto.defaultConnector with
  | .value connectorId => .checkingConnector dto loaded auth connectorId
  | _ => .saving dto loaded

/-- One statement of one call. A failed publication is only logged. -/
def mergeAct (db : Store) : MergeCall → MergeEvent → Option (Store × MergeCall)
  | .ready dto, .updateConfig id auth =>
    match findById db id with
    | none => some (db, .done dto (.error (.notFound findByIdMessage)))
    | some loaded => some (db, beginMerge dto auth loaded)
  | .checkingConnector dto loaded auth connectorId, .connector found =>
    match checkConnector loaded auth connectorId found with
    | .error e => some (db, .done dto (.error e))
    | .ok () => some (db, .saving dto loaded)
  | .saving dto loaded, .next => some (db, .writing dto loaded db.tenant)
  | .writing dto loaded row, .next =>
    some ({ db with tenant := writeColumns row (mergedTenant dto loaded) db.tenant },
      .publishing dto (mergedTenant dto loaded))
  | .publishing dto saved, .next =>
    some ({ db with configJobs := db.configJobs ++ [⟨saved.id, saved.config⟩] },
      .done dto (.ok saved))
  | .publishing dto saved, .abort _ => some (db, .done dto (.ok saved))
  | .checkingConnector dto _ _ _, .abort e => some (db, .done dto (.error e))
  | .saving dto _, .abort e => some (db, .done dto (.error e))
  | .writing dto _ _, .abort e => some (db, .done dto (.error e))
  | _, _ => none

abbrev MergeWorld := Run.World Store MergeCall

def mergeStep : MergeWorld → ℕ × MergeEvent → Option MergeWorld := Run.interleave mergeAct

def mergeStart (db : Store) (dtos : ℕ → UpdateTenantConfigDto) : MergeWorld :=
  ⟨db, fun i => .ready (dtos i)⟩

/-! ### The property and its condition -/

def MergeCall.returned : MergeCall → Bool
  | .ready _ | .done _ _ => true
  | _ => false

def MergeCall.succeeded : MergeCall → Bool
  | .done _ (.ok _) => true
  | _ => false

/-- When all calls have returned, the keys they have set are stored and the others unchanged. -/
structure NoKeyLost (initial : Json.Members) (w : MergeWorld) : Prop where
  kept : ∀ i, (w.calls i).succeeded = true → ∀ s ∈ settings (w.calls i).dto,
    Json.read w.db.tenant.config s.1 = some (Json.canon s.2)
  unchanged : ∀ key, (∀ i, (w.calls i).succeeded = true → key ∉ keysOf (w.calls i).dto) →
    Json.read w.db.tenant.config key = Json.read initial key

/-- An `UPDATE` of the configuration finds the keys that its request leaves out as they were
loaded. -/
def FreshMerge (db : Store) : MergeCall → MergeEvent → Prop
  | .writing dto loaded row, .next =>
    Json.deepCompare (mergedTenant dto loaded).config row.config = false → ∀ key ∉ keysOf dto,
      Json.read loaded.config key = Json.read db.tenant.config key
  | _, _ => True

/-! ### Invariant -/

def MergeCall.saved : MergeCall → Bool
  | .publishing _ _ | .done _ (.ok _) => true
  | _ => false

def Stored (dto : UpdateTenantConfigDto) (config : Json.Members) : Prop :=
  ∀ s ∈ settings dto, Json.read config s.1 = some (Json.canon s.2)

/-- What a call has written is there; a call that will write nothing has found it there. -/
def CallStored (config : Json.Members) : MergeCall → Prop
  | .writing dto loaded row =>
    Json.deepCompare (mergedTenant dto loaded).config row.config = true → Stored dto config
  | .publishing dto _ | .done dto (.ok _) => Stored dto config
  | _ => True

structure MergeInv (initial : Json.Members) (dtos : ℕ → UpdateTenantConfigDto) (w : MergeWorld) :
    Prop where
  requests : ∀ i, (w.calls i).dto = dtos i
  stored : ∀ i, CallStored w.db.tenant.config (w.calls i)
  unchanged : ∀ key, Json.read w.db.tenant.config key = Json.read initial key ∨
    ∃ i, (w.calls i).saved = true ∧ key ∈ keysOf (dtos i)

/-- What a statement does to the configuration: nothing, or the keys of its own request. -/
structure MergeEffect (db db' : Store) (pc pc' : MergeCall) : Prop where
  dto : pc'.dto = pc.dto
  stored : CallStored db'.tenant.config pc'
  others : ∀ key ∉ keysOf pc.dto,
    Json.read db'.tenant.config key = Json.read db.tenant.config key
  saved : pc.saved = true → pc'.saved = true
  own : db'.tenant.config = db.tenant.config ∨ pc'.saved = true

section Step

variable {db db' : Store} {pc pc' : MergeCall} {e : MergeEvent}

theorem stored_of_deepCompare {dto : UpdateTenantConfigDto} {loaded row : Tenant}
    (h : Json.deepCompare (mergedTenant dto loaded).config row.config = true) :
    Stored dto row.config := by
  intro s hs
  rw [← Json.read_of_deepCompare h]
  exact read_mergeConfig_set dto loaded.config s hs

theorem mergeEffect_quiet (hdto : pc'.dto = pc.dto) (hstored : CallStored db.tenant.config pc')
    (hsaved : pc.saved = true → pc'.saved = true) : MergeEffect db db pc pc' :=
  ⟨hdto, hstored, fun _ _ => rfl, hsaved, Or.inl rfl⟩

theorem mergeEffect_write {dto : UpdateTenantConfigDto} {loaded row : Tenant}
    (hstored : CallStored db.tenant.config (.writing dto loaded row))
    (hfresh : FreshMerge db (.writing dto loaded row) .next) :
    MergeEffect db { db with tenant := writeColumns row (mergedTenant dto loaded) db.tenant }
      (.writing dto loaded row) (.publishing dto (mergedTenant dto loaded)) := by
  cases hsame : Json.deepCompare (mergedTenant dto loaded).config row.config with
  | true =>
    have hconfig : (writeColumns row (mergedTenant dto loaded) db.tenant).config =
        db.tenant.config := if_pos hsame
    refine ⟨rfl, ?_, fun key _ => ?_, nofun, Or.inr rfl⟩
    · simp only [CallStored, hconfig]
      exact hstored hsame
    · simp only [hconfig]
  | false =>
    have hconfig : (writeColumns row (mergedTenant dto loaded) db.tenant).config =
        mergeConfig dto loaded.config := if_neg (by rw [hsame]; nofun)
    refine ⟨rfl, ?_, fun key hkey => ?_, nofun, Or.inr rfl⟩
    · simp only [CallStored, hconfig]
      exact read_mergeConfig_set dto loaded.config
    · simp only [hconfig]
      rw [read_mergeConfig_other dto loaded.config hkey]
      exact hfresh hsame key hkey

theorem mergeEffect_of_act (ha : mergeAct db pc e = some (db', pc'))
    (hstored : CallStored db.tenant.config pc) (hfresh : FreshMerge db pc e) :
    MergeEffect db db' pc pc' := by
  cases pc with
  | ready dto =>
    cases e with
    | updateConfig id auth =>
      simp only [mergeAct] at ha
      split at ha
      · cases ha
        exact mergeEffect_quiet rfl trivial nofun
      next loaded =>
        cases ha
        unfold beginMerge
        split
        · exact mergeEffect_quiet rfl trivial nofun
        · exact mergeEffect_quiet rfl trivial nofun
    | _ => cases ha
  | checkingConnector dto loaded auth connectorId =>
    cases e with
    | connector found =>
      simp only [mergeAct] at ha
      split at ha
      · cases ha
        exact mergeEffect_quiet rfl trivial nofun
      · cases ha
        exact mergeEffect_quiet rfl trivial nofun
    | abort error =>
      cases ha
      exact mergeEffect_quiet rfl trivial nofun
    | _ => cases ha
  | saving dto loaded =>
    cases e with
    | next =>
      cases ha
      exact mergeEffect_quiet rfl stored_of_deepCompare nofun
    | abort error =>
      cases ha
      exact mergeEffect_quiet rfl trivial nofun
    | _ => cases ha
  | writing dto loaded row =>
    cases e with
    | next =>
      cases ha
      exact mergeEffect_write hstored hfresh
    | abort error =>
      cases ha
      exact mergeEffect_quiet rfl trivial nofun
    | _ => cases ha
  | publishing dto saved =>
    cases e with
    | next =>
      cases ha
      exact ⟨rfl, hstored, fun _ _ => rfl, fun _ => rfl, Or.inl rfl⟩
    | abort error =>
      cases ha
      exact mergeEffect_quiet rfl hstored fun _ => rfl
    | _ => cases ha
  | done dto result => cases e <;> cases ha

/-- What the other calls have written stays, for their keys are not among those of this one. -/
theorem callStored_frame {config config' : Json.Members}
    (h : ∀ key ∈ keysOf pc.dto, Json.read config' key = Json.read config key)
    (hstored : CallStored config pc) : CallStored config' pc := by
  have hframe : Stored pc.dto config → Stored pc.dto config' := by
    intro hs s hmem
    rw [h s.1 (List.mem_map_of_mem hmem)]
    exact hs s hmem
  cases pc with
  | writing dto loaded row => exact fun hsame => hframe (hstored hsame)
  | publishing dto saved => exact hframe hstored
  | done dto result =>
    cases result with
    | ok saved => exact hframe hstored
    | error error => trivial
  | _ => trivial

end Step

theorem mergeInv_step {initial : Json.Members} {dtos : ℕ → UpdateTenantConfigDto}
    (hdisjoint : ∀ i j, i ≠ j → List.Disjoint (keysOf (dtos i)) (keysOf (dtos j)))
    {w w' : MergeWorld} {l : ℕ × MergeEvent} (hi : MergeInv initial dtos w)
    (hs : mergeStep w l = some w') (hfresh : Run.Before FreshMerge w l w') :
    MergeInv initial dtos w' := by
  obtain ⟨db', pc', ha, rfl⟩ := Run.interleave_cases hs
  have heffect := mergeEffect_of_act ha (hi.stored l.1) hfresh
  have hdto : pc'.dto = dtos l.1 := heffect.dto.trans (hi.requests l.1)
  refine ⟨?_, ?_, fun key => ?_⟩
  · exact (Function.forall_update_iff w.calls fun i pc => pc.dto = dtos i).mpr
      ⟨hdto, fun i _ => hi.requests i⟩
  · refine (Function.forall_update_iff w.calls fun _ pc => CallStored db'.tenant.config pc).mpr
      ⟨heffect.stored, fun i h => ?_⟩
    refine callStored_frame (fun key hkey => heffect.others key fun hown => ?_) (hi.stored i)
    rw [hi.requests] at hkey hown
    exact hdisjoint i l.1 h hkey hown
  · by_cases hown : pc'.saved = true ∧ key ∈ keysOf (dtos l.1)
    · refine Or.inr ⟨l.1, ?_, hown.2⟩
      simpa only [Function.update_self] using hown.1
    · have hsame : Json.read db'.tenant.config key = Json.read w.db.tenant.config key := by
        rcases heffect.own with hconfig | hsaved
        · rw [hconfig]
        · exact heffect.others key fun hkey => hown ⟨hsaved, hi.requests l.1 ▸ hkey⟩
      rcases hi.unchanged key with h | ⟨i, hsaved, hkey⟩
      · exact Or.inl (hsame.trans h)
      · refine Or.inr ⟨i, ?_, hkey⟩
        by_cases h : i = l.1
        · subst h
          simpa only [Function.update_self] using heffect.saved hsaved
        · simpa only [Function.update_of_ne h] using hsaved

theorem mergeInv_start (db : Store) (dtos : ℕ → UpdateTenantConfigDto) :
    MergeInv db.tenant.config dtos (mergeStart db dtos) :=
  ⟨fun _ => rfl, fun _ => trivial, fun _ => Or.inl rfl⟩

/-- When all calls have returned in a run whose saves are fresh, no key is lost. -/
theorem config_merge_kept (db : Store) (dtos : ℕ → UpdateTenantConfigDto)
    (hdisjoint : ∀ i j, i ≠ j → List.Disjoint (keysOf (dtos i)) (keysOf (dtos j)))
    (events : List (ℕ × MergeEvent)) (w : MergeWorld)
    (hrun : Run.final mergeStep (mergeStart db dtos) events = some w)
    (hreturned : ∀ i, (w.calls i).returned = true)
    (hfresh : Run.All mergeStep (Run.Before FreshMerge) (mergeStart db dtos) events) :
    NoKeyLost db.tenant.config w := by
  have hinv : MergeInv db.tenant.config dtos w :=
    Run.final_of_invariant (MergeInv db.tenant.config dtos)
      (fun _ _ _ hi hs hc => mergeInv_step hdisjoint hi hs hc)
      (mergeInv_start db dtos) hfresh hrun
  have hsucceeded : ∀ i, (w.calls i).saved = true → (w.calls i).succeeded = true := by
    intro i hsaved
    have hret := hreturned i
    revert hsaved hret
    cases w.calls i with
    | publishing dto saved => nofun
    | done dto result => cases result <;> exact fun hsaved _ => hsaved
    | _ => exact fun hsaved _ => hsaved
  constructor
  · intro i hdone
    have hstored := hinv.stored i
    revert hdone hstored
    cases w.calls i with
    | done dto result =>
      cases result with
      | ok saved => exact fun _ hstored => hstored
      | error error => nofun
    | _ => nofun
  · intro key hnone
    rcases hinv.unchanged key with h | ⟨i, hsaved, hkey⟩
    · exact h
    · exact absurd (hinv.requests i ▸ hkey) (hnone i (hsucceeded i hsaved))

/-! ### Two requests -/

/-- One call sets the formats, one the features, and all others nothing. -/
def twoRequests : ℕ → UpdateTenantConfigDto
  | 0 => { allowedFormats := .value ["mdl"] }
  | 1 => { features := .value [] }
  | _ => {}

theorem twoRequests_disjoint (i j : ℕ) (h : i ≠ j) :
    List.Disjoint (keysOf (twoRequests i)) (keysOf (twoRequests j)) := by
  have hnone : ∀ k, keysOf (twoRequests (k + 2)) = [] := fun _ => rfl
  match i, j with
  | 0, 0 => exact absurd rfl h
  | 1, 1 => exact absurd rfl h
  | 0, 1 => simp [keysOf, settings, setting, twoRequests]
  | 1, 0 => simp [keysOf, settings, setting, twoRequests]
  | i + 2, j => rw [hnone]; exact List.disjoint_nil_left _
  | i, j + 2 => rw [hnone]; exact List.disjoint_nil_right _

def mergeStore : Store :=
  ⟨⟨"t", "Acme", "acme", none, .active, [("theme", .str "dark")], none⟩, [], []⟩

def mergesInTurn : List (ℕ × MergeEvent) :=
  [(0, .updateConfig "t" none), (0, .next), (0, .next), (0, .next),
    (1, .updateConfig "t" none), (1, .next), (1, .next), (1, .next)]

def mergesOverlapping : List (ℕ × MergeEvent) :=
  [(0, .updateConfig "t" none), (1, .updateConfig "t" none), (0, .next), (0, .next), (0, .next),
    (1, .next), (1, .next), (1, .next)]

theorem config_merge_in_turn :
    ∃ w, Run.final mergeStep (mergeStart mergeStore twoRequests) mergesInTurn = some w ∧
      NoKeyLost mergeStore.tenant.config w := by
  refine ⟨_, rfl, config_merge_kept mergeStore twoRequests twoRequests_disjoint mergesInTurn _ rfl
    (fun i => ?_) ?_⟩
  · match i with
    | 0 => rfl
    | 1 => rfl
    | i + 2 => rfl
  · refine ⟨_, rfl, trivial, _, rfl, trivial, _, rfl, fun _ _ _ => rfl, _, rfl, trivial, _, rfl,
      trivial, _, rfl, trivial, _, rfl, fun _ _ _ => rfl, _, rfl, trivial, trivial⟩

/-- Both calls load the same configuration, and the second one takes back what the first one has
stored. -/
theorem config_merge_loses : ¬ ∀ (db : Store) (dtos : ℕ → UpdateTenantConfigDto),
    (∀ i j, i ≠ j → List.Disjoint (keysOf (dtos i)) (keysOf (dtos j))) →
    ∀ (events : List (ℕ × MergeEvent)) (w : MergeWorld),
      Run.final mergeStep (mergeStart db dtos) events = some w →
      (∀ i, (w.calls i).returned = true) → NoKeyLost db.tenant.config w := by
  intro hall
  have hlost := hall mergeStore twoRequests twoRequests_disjoint mergesOverlapping _ rfl fun i =>
    match i with
    | 0 => rfl
    | 1 => rfl
    | i + 2 => rfl
  have hformats := hlost.kept 0 rfl ("allowed_formats", .arr [.str "mdl"])
    (List.mem_cons_self ..)
  revert hformats
  decide

end VcCommonService.Tenants
