import VcCommonService.Lib.Run
import VcCommonService.Lib.SingleFlight
import VcCommonService.Oidc.SigningKeys

/-!
# The server and its key file (`oidc-keys.service.ts`)

The providers of a server ask for the signing keys in no fixed order; the first one starts the
load, which in development makes a key where there is no file. A server may stop and start again
at any time, and the file may be changed from outside.
-/

namespace VcCommonService.OidcKeys

open Lib Lib.JsonText SingleFlight

inductive KeyFile where
  | missing
  | unreadable
  | text (content : String)

/-- The path as configured, and the cause of a failed read as the runtime words it. -/
structure KeyConfig where
  keysPath : String
  cause : Option String → String

abbrev Loaded : Type := Except String Json

abbrev Loading : Type := Flight Unit Loaded

/-- `loadOrGenerateKeys` up to its first `await`, which is that of `generateKeys`. -/
def loadOrGenerateKeys (config : KeyConfig) (isProduction : Bool) : KeyFile → Loading
  | .text content => .returned (readAndValidate config.cause (some content))
  | .unreadable => .returned (readAndValidate config.cause none)
  | .missing =>
    if isProduction then
      .returned (.error ("OIDC signing key file does not exist: " ++ config.keysPath ++
        ". Generate one before starting in production."))
    else .running ()

def generateKeys (jwk : PrivateJwk) (kid : Uuid) : Json :=
  jwksDocument [generateSigningKey jwk kid]

def persistKeys (jwks : Json) : KeyFile := .text (pretty "  " jwks)

inductive Caller where
  | waiting (flight : ℕ)
  | done (outcome : Loaded)

structure KeysService where
  isProduction : Bool
  file : KeyFile
  jwks : Option Json
  loading : Cell Unit Loaded
  callers : List Caller

inductive KeysEvent where
  | ensureLoaded
  | generated (flight : ℕ) (jwk : PrivateJwk) (kid : Uuid)
  | failed (flight : ℕ) (error : String) (file : KeyFile)
  | settle (flight : ℕ)
  | resume (caller : ℕ)
  | outside (file : KeyFile)
  | restart (isProduction : Bool)

def ensureLoaded (config : KeyConfig) (s : KeysService) : KeysService :=
  let joined := s.loading.join (loadOrGenerateKeys config s.isProduction s.file)
  { s with loading := joined.1, callers := s.callers ++ [.waiting joined.2] }

def getJwks (s : KeysService) : Loaded :=
  match s.jwks with
  | none => .error "OIDC signing keys have not been loaded yet."
  | some jwks => .ok jwks

/-- The handler of the promise: `this.jwks = jwks`. -/
def assign (jwks : Option Json) : Loaded → Option Json
  | .ok loaded => some loaded
  | .error _ => jwks

def startServer (isProduction : Bool) (file : KeyFile) : KeysService :=
  ⟨isProduction, file, none, Cell.empty, []⟩

/-- A failed generation or write leaves some file behind. -/
def keysStep (config : KeyConfig) (s : KeysService) : KeysEvent → Option KeysService
  | .ensureLoaded => some (ensureLoaded config s)
  | .generated f jwk kid =>
    match s.loading.flights[f]? with
    | some (.running _) => some { s with
        file := persistKeys (generateKeys jwk kid)
        loading := s.loading.set f (.returned (.ok (generateKeys jwk kid))) }
    | _ => none
  | .failed f error file =>
    match s.loading.flights[f]? with
    | some (.running _) => some { s with
        file := file
        loading := s.loading.set f (.returned (.error error)) }
    | _ => none
  | .settle f =>
    match s.loading.flights[f]? with
    | some (.returned outcome) =>
      (s.loading.settle (fun _ => false) f).map fun loading =>
        { s with loading, jwks := assign s.jwks outcome }
    | _ => none
  | .resume i =>
    match s.callers[i]? with
    | some (.waiting f) =>
      match s.loading.flights[f]? with
      | some (.settled outcome) => some { s with callers := s.callers.set i (.done outcome) }
      | _ => none
    | _ => none
  | .outside file => some { s with file }
  | .restart isProduction => some (startServer isProduction s.file)

/-! ### One load -/

def outcome? : Loading → Option Loaded
  | .running _ => none
  | .returned outcome => some outcome
  | .settled outcome => some outcome

def CallerOk (loading : Cell Unit Loaded) : Caller → Prop
  | .waiting f => f < loading.flights.length
  | .done outcome => ∃ f : ℕ, loading.flights[f]? = some (.settled outcome)

structure LoadInv (s : KeysService) : Prop where
  cell : s.loading.Wf fun _ => false
  valid : ∀ (f : ℕ) (x : Loading), s.loading.flights[f]? = some x →
    ∀ jwks, outcome? x = some (.ok jwks) → validate jwks = .ok ()
  callers : ∀ c ∈ s.callers, CallerOk s.loading c
  jwks : ∀ doc, s.jwks = some doc ↔ ∃ f : ℕ, s.loading.flights[f]? = some (.settled (.ok doc))

theorem loadInv_start (isProduction : Bool) (file : KeyFile) :
    LoadInv (startServer isProduction file) where
  cell := Cell.wf_empty
  valid := nofun
  callers := nofun
  jwks := by
    intro doc
    constructor
    · exact nofun
    · rintro ⟨f, hf⟩
      cases hf

theorem validate_of_read {cause : Option String → String} {content : Option String} {doc : Json}
    (h : readAndValidate cause content = .ok doc) : validate doc = .ok () := by
  unfold readAndValidate at h
  split at h
  · cases h
  next parsed _ =>
  cases hvalid : validate parsed with
  | error message =>
    rw [hvalid] at h
    cases h
  | ok u =>
    rw [hvalid] at h
    cases h
    exact hvalid

theorem validate_generateKeys (jwk : PrivateJwk) (kid : Uuid) :
    validate (generateKeys jwk kid) = .ok () := by
  have hsigning := signingKey_generated jwk kid
  refine (validate_iff (keysOf_jwksDocument (List.cons_ne_nil _ _)) ?_).mpr ?_
  · exact List.forall_mem_singleton.mpr hsigning.value
  · exact List.forall_mem_singleton.mpr hsigning

theorem validate_of_load {config : KeyConfig} {isProduction : Bool} {file : KeyFile} {doc : Json}
    (h : outcome? (loadOrGenerateKeys config isProduction file) = some (.ok doc)) :
    validate doc = .ok () := by
  cases file with
  | text content => exact validate_of_read (Option.some.inj h)
  | unreadable => exact validate_of_read (Option.some.inj h)
  | missing => cases isProduction <;> cases h

theorem loadOrGenerateKeys_open (config : KeyConfig) (isProduction : Bool) (file : KeyFile) :
    (loadOrGenerateKeys config isProduction file).Open := by
  cases file with
  | missing => cases isProduction <;> trivial
  | _ => trivial

/-- A generated key set is read back from its file. -/
theorem readAndValidate_persisted (cause : Option String → String) (jwk : PrivateJwk)
    (kid : Uuid) :
    readAndValidate cause (some (pretty "  " (generateKeys jwk kid))) =
      .ok (generateKeys jwk kid) := by
  have hindent : Blank "  ".toList := by decide
  have hvalue : IsValue (generateKeys jwk kid) :=
    isValue_jwksDocument (List.forall_mem_singleton.mpr (signingKey_generated jwk kid).value)
  have hending : Blank "".toList := nofun
  have hparse := parse_pretty hindent hvalue hending
  rw [String.append_empty] at hparse
  rw [readAndValidate, readJson, Option.bind_some, hparse]
  dsimp only
  rw [validate_generateKeys]
  rfl

section Steps

variable {config : KeyConfig} {s s' : KeysService}

theorem LoadInv.ensureLoaded (h : LoadInv s) : LoadInv (ensureLoaded config s) where
  cell := h.cell.join (loadOrGenerateKeys_open ..)
  valid := by
    intro f x hf
    rcases Cell.join_cases hf with hf | rfl
    · exact h.valid f x hf
    · exact fun doc => validate_of_load
  callers := by
    intro c hc
    rcases List.mem_append.mp hc with hc | hc
    · have hok := h.callers c hc
      cases c with
      | waiting f =>
        have hf := List.getElem?_eq_getElem hok
        exact (List.getElem?_eq_some_iff.mp (Cell.join_getElem? hf)).1
      | done outcome =>
        obtain ⟨f, hf⟩ := hok
        exact ⟨f, Cell.join_getElem? hf⟩
    · rw [List.mem_singleton.mp hc]
      exact Cell.join_lt h.cell
  jwks := by
    intro doc
    rw [OidcKeys.ensureLoaded, h.jwks doc]
    constructor
    · rintro ⟨f, hf⟩
      exact ⟨f, Cell.join_getElem? hf⟩
    · rintro ⟨f, hf⟩
      rcases Cell.join_cases hf with hf | hstart
      · exact ⟨f, hf⟩
      · have hopen := loadOrGenerateKeys_open config s.isProduction s.file
        rw [← hstart] at hopen
        exact absurd hopen id

/-- A load that goes on or returns. -/
theorem LoadInv.set (h : LoadInv s) {f : ℕ} {old x : Loading} {file : KeyFile}
    (hf : s.loading.flights[f]? = some old) (hold : old.Open) (hopen : x.Open)
    (hvalid : ∀ doc, outcome? x = some (.ok doc) → validate doc = .ok ()) :
    LoadInv { s with file, loading := s.loading.set f x } where
  cell := h.cell.set hf hold hopen
  valid := by
    intro g y hg
    rcases Cell.getElem?_set hf hg with ⟨-, rfl⟩ | ⟨-, hg⟩
    · exact hvalid
    · exact h.valid g y hg
  callers := by
    intro c hc
    have hok := h.callers c hc
    cases c with
    | waiting g => exact Nat.lt_of_lt_of_eq hok (List.length_set ..).symm
    | done outcome =>
      obtain ⟨g, hg⟩ := hok
      exact ⟨g, Cell.set_settled hf hold hg⟩
  jwks := by
    intro doc
    rw [h.jwks doc]
    constructor
    · rintro ⟨g, hg⟩
      exact ⟨g, Cell.set_settled hf hold hg⟩
    · rintro ⟨g, hg⟩
      rcases Cell.getElem?_set hf hg with ⟨-, rfl⟩ | ⟨-, hg⟩
      · exact absurd hopen id
      · exact ⟨g, hg⟩

theorem LoadInv.settle (h : LoadInv s) {f : ℕ} {outcome : Loaded} {loading : Cell Unit Loaded}
    (hf : s.loading.flights[f]? = some (.returned outcome))
    (hs : s.loading.settle (fun _ => false) f = some loading) :
    LoadInv { s with loading, jwks := assign s.jwks outcome } where
  cell := h.cell.settle hs
  valid := by
    obtain ⟨o, ho, rfl⟩ := Cell.settle_cases hs
    intro g y hg
    rcases Cell.getElem?_set ho hg with ⟨-, rfl⟩ | ⟨-, hg⟩
    · have hreturned := h.valid f _ ho
      exact hreturned
    · exact h.valid g y hg
  callers := by
    intro c hc
    have hok := h.callers c hc
    cases c with
    | waiting g =>
      obtain ⟨o, -, rfl⟩ := Cell.settle_cases hs
      exact Nat.lt_of_lt_of_eq hok (List.length_set ..).symm
    | done outcome =>
      obtain ⟨g, hg⟩ := hok
      exact ⟨g, Cell.settle_settled hs hg⟩
  jwks := by
    -- the only load there is has not been settled before
    have hnone : ∀ doc, s.jwks = some doc → False := by
      intro doc hdoc
      obtain ⟨g, hg⟩ := (h.jwks doc).mp hdoc
      cases h.cell.eq_of_keep hf hg
      cases hf.symm.trans hg
    obtain ⟨o, ho, rfl⟩ := Cell.settle_cases hs
    cases hf.symm.trans ho
    have hlt := (List.getElem?_eq_some_iff.mp hf).1
    have hsettled : (s.loading.flights.set f (.settled outcome))[f]? =
        some (.settled outcome) := List.getElem?_set_self hlt
    intro doc
    constructor
    · intro hdoc
      cases outcome with
      | ok loaded =>
        cases hdoc
        exact ⟨f, hsettled⟩
      | error message => exact absurd hdoc (hnone doc)
    · rintro ⟨g, hg⟩
      rcases Cell.getElem?_set hf hg with ⟨-, hdoc⟩ | ⟨-, hg⟩
      · cases hdoc
        rfl
      · exact absurd ((h.jwks doc).mpr ⟨g, hg⟩) (hnone doc)

theorem LoadInv.step (h : LoadInv s) {e : KeysEvent} (hs : keysStep config s e = some s') :
    LoadInv s' := by
  cases e with
  | ensureLoaded =>
    cases hs
    exact h.ensureLoaded
  | generated f jwk kid =>
    simp only [keysStep] at hs
    split at hs
    next hf =>
      cases hs
      refine h.set hf trivial trivial fun doc hdoc => ?_
      cases hdoc
      exact validate_generateKeys jwk kid
    · cases hs
  | failed f error file =>
    simp only [keysStep] at hs
    split at hs
    next hf =>
      cases hs
      exact h.set hf trivial trivial nofun
    · cases hs
  | settle f =>
    simp only [keysStep] at hs
    split at hs
    next outcome hf =>
      obtain ⟨loading, hloading, rfl⟩ := Option.map_eq_some_iff.mp hs
      exact h.settle hf hloading
    · cases hs
  | resume i =>
    simp only [keysStep] at hs
    split at hs
    next f hi =>
      split at hs
      next outcome hf =>
        cases hs
        refine ⟨h.cell, h.valid, ?_, h.jwks⟩
        intro c hc
        rcases List.mem_or_eq_of_mem_set hc with hc | rfl
        · exact h.callers c hc
        · exact ⟨f, hf⟩
      · cases hs
    · cases hs
  | outside file =>
    cases hs
    exact ⟨h.cell, h.valid, h.callers, h.jwks⟩
  | restart isProduction =>
    cases hs
    exact loadInv_start isProduction s.file

/-- All callers of one server, and all readers of the loaded keys, see the outcome of one load. -/
theorem one_load (isProduction : Bool) (file : KeyFile) (es : List KeysEvent)
    (hrun : Run.final (keysStep config) (startServer isProduction file) es = some s) :
    (∀ outcome outcome', .done outcome ∈ s.callers → .done outcome' ∈ s.callers →
      outcome = outcome') ∧
    (∀ doc, .done (.ok doc) ∈ s.callers → getJwks s = .ok doc) ∧
    (∀ message, .done (.error message) ∈ s.callers →
      getJwks s = .error "OIDC signing keys have not been loaded yet.") ∧
    (∀ doc, getJwks s = .ok doc → validate doc = .ok ()) ∧ s.loading.flights.length ≤ 1 := by
  have h : LoadInv s := Run.final_of_invariant LoadInv (fun _ _ _ h hs _ => h.step hs)
    (loadInv_start isProduction file) (Run.enabled_of_final (by rw [hrun]; rfl)) hrun
  have hagree : ∀ (f g : ℕ) (x y : Loading), s.loading.flights[f]? = some x →
      s.loading.flights[g]? = some y → x = y := by
    intro f g x y hf hg
    cases h.cell.eq_of_keep hf hg
    exact Option.some.inj (hf.symm.trans hg)
  have hget : ∀ doc, getJwks s = .ok doc ↔ s.jwks = some doc := by
    intro doc
    rw [getJwks]
    cases s.jwks with
    | none => exact ⟨nofun, nofun⟩
    | some jwks => exact ⟨fun he => by cases he; rfl, fun he => by cases he; rfl⟩
  refine ⟨?_, ?_, ?_, ?_, ?_⟩
  · intro outcome outcome' hc hc'
    obtain ⟨f, hf⟩ := h.callers _ hc
    obtain ⟨g, hg⟩ := h.callers _ hc'
    cases hagree f g _ _ hf hg
    rfl
  · intro doc hc
    exact (hget doc).mpr ((h.jwks doc).mpr (h.callers _ hc))
  · intro message hc
    obtain ⟨f, hf⟩ := h.callers _ hc
    have hnone : s.jwks = none := by
      refine Option.eq_none_iff_forall_ne_some.mpr fun doc hdoc => ?_
      obtain ⟨g, hg⟩ := (h.jwks doc).mp hdoc
      cases hagree f g _ _ hf hg
    rw [getJwks, hnone]
  · intro doc hdoc
    obtain ⟨f, hf⟩ := (h.jwks doc).mp ((hget doc).mp hdoc)
    exact h.valid f _ hf doc rfl
  · cases hflights : s.loading.flights with
    | nil => exact Nat.zero_le 1
    | cons x rest =>
      cases rest with
      | nil => exact Nat.le_refl 1
      | cons y rest =>
        have hfirst : s.loading.flights[0]? = some x := by rw [hflights]; rfl
        have hsecond : s.loading.flights[1]? = some y := by rw [hflights]; rfl
        cases h.cell.eq_of_keep hfirst hsecond

/-! ### Keys across restarts -/

/-- No one else changes the file, and a load that fails leaves none. -/
def Quiet : KeysEvent → Prop
  | .outside _ => False
  | .failed _ _ file => file = .missing
  | _ => True

/-- There is no file, and nothing was loaded. -/
structure Fresh (s : KeysService) : Prop where
  file : s.file = .missing
  loads : ∀ (f : ℕ) (x : Loading), s.loading.flights[f]? = some x →
    ∀ doc, outcome? x ≠ some (.ok doc)

/-- There is a file, and every load has read it, or written it. -/
structure Stored (config : KeyConfig) (r : Loaded) (s : KeysService) : Prop where
  file : ∀ isProduction, loadOrGenerateKeys config isProduction s.file = .returned r
  loads : ∀ (f : ℕ) (x : Loading), s.loading.flights[f]? = some x → outcome? x = some r

/-- The key sets that the server has given to a caller or shows now. -/
def Gives (s : KeysService) (doc : Json) : Prop :=
  getJwks s = .ok doc ∨ .done (.ok doc) ∈ s.callers

theorem LoadInv.gives (h : LoadInv s) {doc : Json} (hdoc : Gives s doc) :
    ∃ f : ℕ, s.loading.flights[f]? = some (.settled (.ok doc)) := by
  rcases hdoc with hget | hdone
  · refine (h.jwks doc).mp ?_
    rw [getJwks] at hget
    split at hget
    · cases hget
    next jwks hjwks =>
      cases hget
      exact hjwks
  · exact h.callers _ hdone

theorem stored_step {r : Loaded} (h : Stored config r s) {e : KeysEvent} (hquiet : Quiet e)
    (hs : keysStep config s e = some s') : Stored config r s' := by
  -- nothing runs, so that nothing is generated
  have hidle : ∀ f : ℕ, s.loading.flights[f]? ≠ some (.running ()) := by
    intro f hf
    cases h.loads f _ hf
  cases e with
  | ensureLoaded =>
    cases hs
    refine ⟨h.file, fun f x hf => ?_⟩
    rcases Cell.join_cases hf with hf | rfl
    · exact h.loads f x hf
    · rw [h.file]
      rfl
  | generated f jwk kid =>
    simp only [keysStep] at hs
    split at hs
    next hf => exact absurd hf (hidle f)
    · cases hs
  | failed f error file =>
    simp only [keysStep] at hs
    split at hs
    next hf => exact absurd hf (hidle f)
    · cases hs
  | settle f =>
    simp only [keysStep] at hs
    split at hs
    next outcome hf =>
      obtain ⟨loading, hloading, rfl⟩ := Option.map_eq_some_iff.mp hs
      obtain ⟨o, ho, rfl⟩ := Cell.settle_cases hloading
      refine ⟨h.file, fun g x hg => ?_⟩
      rcases Cell.getElem?_set ho hg with ⟨-, rfl⟩ | ⟨-, hg⟩
      · have hreturned := h.loads f _ ho
        exact hreturned
      · exact h.loads g x hg
    · cases hs
  | resume i =>
    simp only [keysStep] at hs
    split at hs
    · split at hs
      · cases hs
        exact ⟨h.file, h.loads⟩
      · cases hs
    · cases hs
  | outside file => exact absurd hquiet id
  | restart isProduction =>
    cases hs
    exact ⟨h.file, nofun⟩

theorem fresh_step (hinv : LoadInv s) (h : Fresh s) {e : KeysEvent} (hquiet : Quiet e)
    (hs : keysStep config s e = some s') : Fresh s' ∨ ∃ keys, Stored config (.ok keys) s' := by
  cases e with
  | ensureLoaded =>
    cases hs
    refine Or.inl ⟨h.file, fun f x hf => ?_⟩
    rcases Cell.join_cases hf with hf | rfl
    · exact h.loads f x hf
    · rw [h.file]
      intro doc hdoc
      cases hp : s.isProduction <;> rw [hp] at hdoc <;> cases hdoc
  | generated f jwk kid =>
    simp only [keysStep] at hs
    split at hs
    next hf =>
      cases hs
      refine Or.inr ⟨generateKeys jwk kid, ?_, fun g x hg => ?_⟩
      · intro isProduction
        exact congrArg Flight.returned (readAndValidate_persisted config.cause jwk kid)
      · rcases Cell.getElem?_set hf hg with ⟨-, rfl⟩ | ⟨hne, hg⟩
        · rfl
        · exact absurd (hinv.cell.eq_of_keep hg hf) hne
    · cases hs
  | failed f error file =>
    simp only [keysStep] at hs
    split at hs
    next hf =>
      cases hs
      refine Or.inl ⟨hquiet, fun g x hg => ?_⟩
      rcases Cell.getElem?_set hf hg with ⟨-, rfl⟩ | ⟨-, hg⟩
      · exact nofun
      · exact h.loads g x hg
    · cases hs
  | settle f =>
    simp only [keysStep] at hs
    split at hs
    next outcome hf =>
      obtain ⟨loading, hloading, rfl⟩ := Option.map_eq_some_iff.mp hs
      obtain ⟨o, ho, rfl⟩ := Cell.settle_cases hloading
      refine Or.inl ⟨h.file, fun g x hg => ?_⟩
      rcases Cell.getElem?_set ho hg with ⟨-, rfl⟩ | ⟨-, hg⟩
      · have hreturned := h.loads f _ ho
        exact hreturned
      · exact h.loads g x hg
    · cases hs
  | resume i =>
    simp only [keysStep] at hs
    split at hs
    · split at hs
      · cases hs
        exact Or.inl ⟨h.file, h.loads⟩
      · cases hs
    · cases hs
  | outside file => exact absurd hquiet id
  | restart isProduction =>
    cases hs
    exact Or.inl ⟨h.file, nofun⟩

/-- Once there is a file, its keys are the only ones. -/
theorem stored_run {keys : Json} {r : Loaded} (hr : ∀ doc, r = .ok doc → doc = keys)
    {es : List KeysEvent} (hinv : LoadInv s) (h : Stored config r s) (hquiet : ∀ e ∈ es, Quiet e)
    (hrun : Run.Enabled (keysStep config) s es) :
    Run.All (keysStep config) (fun _ _ s' => ∀ doc, Gives s' doc → doc = keys) s es := by
  refine Run.all_of_invariant (fun s => LoadInv s ∧ Stored config r s) ?_ ⟨hinv, h⟩
    (Run.all_labels hquiet hrun)
  rintro s e s' ⟨hinv, h⟩ hs ⟨-, he⟩
  have hinv' := hinv.step hs
  have h' := stored_step h he hs
  refine ⟨⟨hinv', h'⟩, fun doc hdoc => hr doc ?_⟩
  obtain ⟨f, hf⟩ := hinv'.gives hdoc
  exact (Option.some.inj (h'.loads f _ hf)).symm

theorem fresh_run {es : List KeysEvent} (hinv : LoadInv s) (h : Fresh s)
    (hquiet : ∀ e ∈ es, Quiet e) (hrun : Run.Enabled (keysStep config) s es) :
    ∃ keys, Run.All (keysStep config) (fun _ _ s' => ∀ doc, Gives s' doc → doc = keys) s es := by
  induction es generalizing s with
  | nil => exact ⟨.null, trivial⟩
  | cons e es ih =>
    obtain ⟨s', hs, -, hrest⟩ := hrun
    obtain ⟨he, hes⟩ := List.forall_mem_cons.mp hquiet
    have hinv' := hinv.step hs
    rcases fresh_step hinv h he hs with hfresh | ⟨keys, hstored⟩
    · obtain ⟨keys, hkeys⟩ := ih hinv' hfresh hes hrest
      refine ⟨keys, s', hs, fun doc hdoc => ?_, hkeys⟩
      obtain ⟨f, hf⟩ := hinv'.gives hdoc
      exact absurd rfl (hfresh.loads f _ hf doc)
    · have hkeys : ∀ doc, (Except.ok keys : Loaded) = .ok doc → doc = keys := by
        intro doc hdoc
        cases hdoc
        rfl
      refine ⟨keys, s', hs, fun doc hdoc => ?_, stored_run hkeys hinv' hstored hes hrest⟩
      obtain ⟨f, hf⟩ := hinv'.gives hdoc
      exact hkeys doc (Option.some.inj (hstored.loads f _ hf)).symm

theorem keys_survive_restarts (isProduction : Bool) (file : KeyFile) (es : List KeysEvent)
    (hquiet : ∀ e ∈ es, Quiet e)
    (hrun : Run.Enabled (keysStep config) (startServer isProduction file) es) :
    ∃ keys, Run.All (keysStep config) (fun _ _ s' => ∀ doc, Gives s' doc → doc = keys)
      (startServer isProduction file) es := by
  have hinv := loadInv_start isProduction file
  have hread : ∀ r : Loaded, (∀ b, loadOrGenerateKeys config b file = .returned r) →
      ∃ keys, Run.All (keysStep config) (fun _ _ s' => ∀ doc, Gives s' doc → doc = keys)
        (startServer isProduction file) es := by
    intro r hr
    have hstored : Stored config r (startServer isProduction file) := ⟨hr, nofun⟩
    cases r with
    | ok keys =>
      refine ⟨keys, stored_run ?_ hinv hstored hquiet hrun⟩
      intro doc hdoc
      cases hdoc
      rfl
    | error message =>
      refine ⟨.null, stored_run ?_ hinv hstored hquiet hrun⟩
      intro doc hdoc
      cases hdoc
  cases file with
  | missing => exact fresh_run hinv ⟨rfl, nofun⟩ hquiet hrun
  | unreadable => exact hread _ fun _ => rfl
  | text content => exact hread _ fun _ => rfl

end Steps

/-! ### A first start in development -/

def devJwk : PrivateJwk := ⟨"n", "AQAB", "d", "p", "q", "dp", "dq", "qi", by decide⟩

def devConfig : KeyConfig := ⟨"keys.json", fun _ => "Unexpected end of JSON input"⟩

/-- Two providers ask, one key is made, and the server is started again in production. -/
def devStart : List KeysEvent :=
  [.ensureLoaded, .ensureLoaded, .generated 0 devJwk Uuid.max, .settle 0, .resume 1, .resume 0,
    .restart true]

theorem devStart_final :
    (Run.final (keysStep devConfig) (startServer false .missing) devStart).isSome = true := rfl

theorem one_load_devStart : ∃ s, Run.final (keysStep devConfig) (startServer false .missing)
    (devStart.take 6) = some s ∧ s.loading.flights.length ≤ 1 :=
  ⟨_, rfl, (one_load false .missing (devStart.take 6) rfl).2.2.2.2⟩

theorem keys_survive_restarts_devStart :
    ∃ keys, Run.All (keysStep devConfig) (fun _ _ s' => ∀ doc, Gives s' doc → doc = keys)
      (startServer false .missing) devStart :=
  keys_survive_restarts false .missing devStart
    (by simp only [devStart, List.forall_mem_cons, Quiet]; simp)
    (Run.enabled_of_final devStart_final)

end VcCommonService.OidcKeys
