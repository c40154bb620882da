import VcCommonService.Credential.Definitions

/-!
# What is checked at registration

`validateSchemaDefinition` finds the validator of a format by comparing the values of two
enumerations. Those of `anoncreds` and `mdl` agree; `sd-jwt` and `w3c-vc` name no port format, so a
schema of theirs is stored as it comes although a validator is registered.
-/

namespace VcCommonService.Credentials
open Lib

/-- The port format that a stored format stands for. -/
def portFormatOf : CredentialDefinitionFormat → CredentialFormat
  | .anoncreds => .anonCreds
  | .sdJwt => .sdJwtVc
  | .mdl => .mdl
  | .w3cVc => .jsonLd

/-- The validator that is registered for the format of the definition finds no issue. -/
def AcceptedByValidator (d : CredentialDefinition) : Prop :=
  ∀ v, resolve (portFormatOf d.format) = some v → v.validateSchema d.schemaDefinition = .ok []

/-- The only formats for which the two enumerations have the same value. -/
theorem toPortCredentialFormat_eq (format : CredentialDefinitionFormat) :
    toPortCredentialFormat format =
      if format = .anoncreds ∨ format = .mdl then some (portFormatOf format) else none := by
  cases format <;> decide

theorem validateSchemaDefinition_ok_iff {format : CredentialDefinitionFormat}
    (hformat : format = .anoncreds ∨ format = .mdl) (schema : Json.Members) :
    validateSchemaDefinition format schema = .ok () ↔
      ∀ v, resolve (portFormatOf format) = some v → v.validateSchema schema = .ok [] := by
  unfold validateSchemaDefinition
  rw [toPortCredentialFormat_eq, if_pos hformat, Option.bind_some]
  cases resolve (portFormatOf format) with
  | none => simp
  | some validator =>
    simp only [Option.some.injEq, forall_eq']
    cases validator.validateSchema schema with
    | error message => simp
    | ok issues => cases issues <;> simp

theorem validateSchemaDefinition_skipped {format : CredentialDefinitionFormat}
    (hformat : ¬ (format = .anoncreds ∨ format = .mdl)) (schema : Json.Members) :
    validateSchemaDefinition format schema = .ok () := by
  unfold validateSchemaDefinition
  rw [toPortCredentialFormat_eq, if_neg hformat, Option.bind_none]

/-- Every stored AnonCreds definition passes its validator. -/
def AnonCredsAccepted (db : Definitions) : Prop :=
  ∀ d ∈ db, d.format = .anoncreds → AcceptedByValidator d

theorem anonCredsAccepted_change {db db' : Definitions} {pc : DefinitionCall} (hu : UniqueIds db)
    (hcall : CallTracked db pc) (hchange : Change db pc db') (h : AnonCredsAccepted db) :
    AnonCredsAccepted db' := by
  cases hchange with
  | quiet => exact h
  | insert tenantId dto newId hnew =>
    intro d hd hformat
    rcases List.mem_append.mp hd with hd | hd
    · exact h d hd hformat
    · rw [List.mem_singleton.mp hd] at hformat ⊢
      exact (validateSchemaDefinition_ok_iff (Or.inl hformat) dto.schemaDefinition).mp hcall
  | write entity row current hcurrent hfree =>
    obtain ⟨-, hid, hentity, hrow⟩ := hcall
    refine Table.forall_updateWhere (fun d hd hp hformat => ?_) fun d hd _ => h d hd
    have hd' : d.id = entity.id := of_decide_eq_true hp
    obtain ⟨hsame, hschema⟩ :=
      writeDefinition_schema (hentity.eq hu hd hd') (hrow.eq hu hd (hd'.trans hid.symm))
    unfold AcceptedByValidator
    rw [hsame, hschema]
    exact h d hd (hsame ▸ hformat)
  | deactivate id =>
    exact Table.forall_updateWhere (fun d hd _ hformat => h d hd hformat) fun d hd _ => h d hd

/-- However the statements of the calls alternate, every stored AnonCreds definition passes its
validator, and no schema of an SD-JWT or W3C VC definition is refused. -/
theorem registered_definitions_accepted (db : Definitions) (hu : UniqueIds db)
    (hdb : AnonCredsAccepted db) (events : List (ℕ × DefinitionEvent))
    (hrun : Run.Enabled definitionStep (definitionStart db) events) :
    Run.All definitionStep (fun _ _ w' => AnonCredsAccepted w'.db) (definitionStart db) events ∧
      ∀ format, format = .sdJwt ∨ format = .w3cVc → ∀ schema,
        validateSchemaDefinition format schema = .ok () := by
  constructor
  · refine Run.all_of_invariant
      (fun w => Run.Holds UniqueIds CallTracked w ∧ AnonCredsAccepted w.db)
      (fun w l w' hi hs _ => ?_) ⟨tracked_start hu, hdb⟩ hrun
    have hkept := tracked_step hi.1 hs
    obtain ⟨db', pc', ha, rfl⟩ := Run.interleave_cases hs
    have haccepted := anonCredsAccepted_change hi.1.1 (hi.1.2 l.1) (change_of_act ha) hi.2
    exact ⟨⟨hkept, haccepted⟩, haccepted⟩
  · rintro format hformat schema
    refine validateSchemaDefinition_skipped ?_ schema
    rcases hformat with rfl | rfl <;> decide

/-! ### Registrations on an empty table -/

def operator : Auth.AuthContext := ⟨"op", .user, some "t", [], []⟩

def registration (format : CredentialDefinitionFormat) (schema : Json.Members) :
    CreateCredentialDefinitionDto :=
  ⟨"Person", format, schema, "ext", .traction, none⟩

def register (format : CredentialDefinitionFormat) (schema : Json.Members) :
    List (ℕ × DefinitionEvent) :=
  [(0, .create "t" (registration format schema) operator), (0, .next "d1")]

def anonCredsSchema : Json.Members :=
  [("attr_names", .arr [.str "name"]), ("schema_name", .str "person"),
    ("schema_version", .str "1.0")]

theorem registered_definitions_accepted_anonCreds :
    Run.All definitionStep (fun _ _ w' => AnonCredsAccepted w'.db) (definitionStart [])
      (register .anoncreds anonCredsSchema) :=
  (registered_definitions_accepted [] List.nodup_nil nofun (register .anoncreds anonCredsSchema)
    ⟨_, rfl, trivial, _, rfl, trivial, trivial⟩).1

/-- An SD-JWT definition with an empty schema is stored. -/
theorem registered_without_validation :
    ¬ ∀ (events : List (ℕ × DefinitionEvent)),
      Run.Enabled definitionStep (definitionStart []) events →
      Run.All definitionStep
        (fun _ _ w' => ∀ d ∈ w'.db, d.format = .anoncreds ∨ d.format = .sdJwt ∨ d.format = .w3cVc →
          AcceptedByValidator d)
        (definitionStart []) events := by
  intro hall
  obtain ⟨_, h1, -, _, h2, hstored, -⟩ :=
    hall (register .sdJwt []) ⟨_, rfl, trivial, _, rfl, trivial, trivial⟩
  cases h1
  cases h2
  have haccepted := hstored (newDefinition "d1" "t" (registration .sdJwt []))
    (List.mem_singleton.mpr rfl) (Or.inr (Or.inl rfl)) sdJwtFormatValidator rfl
  exact absurd haccepted (by decide)

end VcCommonService.Credentials
