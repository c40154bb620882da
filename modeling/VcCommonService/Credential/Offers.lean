import VcCommonService.Credential.ExactAttributes

/-!
# Offers against a registered schema

A schema is checked when a definition is registered, the shape of a request and its attributes when
a credential is offered. The three checks agree on what a name is only where it has text: a blank
name passes the first one, but no request may use it.
-/

namespace VcCommonService.Credentials
open Lib

structure OfferCredentialRequest where
  format : CredentialFormat
  attributes : List CredentialAttribute
  deriving Repr

structure ValidationError where
  issues : List String
  deriving Repr, DecidableEq

/-- The request and its attributes are objects by their type. -/
def validateOfferCredentialRequest (req : OfferCredentialRequest) : Option ValidationError :=
  let issues :=
    (if credentialFormats.contains req.format then [] else ["format is required/invalid"]) ++
    (if req.attributes.isEmpty then ["attributes must not be empty"]
      else req.attributes.filterMap fun offered =>
        if hasText offered.name then none else some "attribute name must not be empty")
  if issues.isEmpty then none else some ⟨issues⟩

theorem validateOfferCredentialRequest_eq_none_iff (req : OfferCredentialRequest) :
    validateOfferCredentialRequest req = none ↔
      req.attributes ≠ [] ∧ ∀ a ∈ req.attributes, hasText a.name = true := by
  obtain ⟨format, attributes⟩ := req
  have hformat : credentialFormats.contains format = true := by cases format <;> rfl
  unfold validateOfferCredentialRequest
  rw [if_pos hformat, List.nil_append]
  cases attributes with
  | nil => simp
  | cons a as => simp [List.filterMap_eq_nil_iff]

/-! ### AnonCreds -/

/-- The names that must be given have text, and one that may be given has. -/
def AnonCredsNamesHaveText (schema : Json.Members) (names : List String) : Prop :=
  (∀ name ∈ names, name ∉ AnonCreds.optionalNames schema → hasText name = true) ∧
    ∃ name ∈ names, hasText name = true

theorem anonCreds_offer_iff {schema : Json.Members} {names : List String}
    (hnames : AnonCreds.attributeNames (Json.get schema "attr_names") = some names)
    (hnodup : names.Nodup) :
    (∃ a, validateOfferCredentialRequest ⟨.anonCreds, a⟩ = none ∧
      AnonCreds.validateAttributes schema a = []) ↔ AnonCredsNamesHaveText schema names := by
  simp only [validateOfferCredentialRequest_eq_none_iff, ← AnonCreds.validateOffered_strings,
    AnonCreds.validateOffered_eq_nil_iff, AnonCredsNamesHaveText, AnonCreds.mem_optionalNames_iff]
  constructor
  · rintro ⟨a, ⟨hne, htext⟩, names', h⟩
    have hsame : names' = names := by
      have h' := (AnonCreds.attributeNames_eq_some_iff _ _).mpr ⟨h.attrNames, h.nonempty⟩
      exact Option.some.inj (h'.symm.trans hnames)
    subst hsame
    constructor
    · intro name hname hoptional
      obtain ⟨offered, hoffered, rfl⟩ := h.required name hname hoptional
      obtain ⟨x, hx, rfl⟩ := List.mem_map.mp hoffered
      exact htext x hx
    · obtain ⟨x, hx⟩ := List.exists_mem_of_ne_nil a hne
      exact ⟨x.name, h.known _ (List.mem_map_of_mem hx), htext x hx⟩
  · rintro ⟨hall, name, hname, htext⟩
    obtain ⟨hattrNames, hnonempty⟩ := (AnonCreds.attributeNames_eq_some_iff _ _).mp hnames
    -- offer every name that has text
    let offer : String → CredentialAttribute := fun n => ⟨n, ""⟩
    have hoffered : (((names.filter hasText).map offer).map AnonCreds.ofRequest).map
        AnonCreds.OfferedAttribute.name = names.filter hasText := by
      rw [List.map_map, List.map_map]
      exact List.map_id'' (fun _ => rfl) _
    refine ⟨(names.filter hasText).map offer, ⟨?_, ?_⟩, names, hattrNames, hnonempty, ?_, ?_, ?_, ?_⟩
    · exact List.ne_nil_of_mem (List.mem_map_of_mem (List.mem_filter.mpr ⟨hname, htext⟩))
    · intro x hx
      obtain ⟨n, hn, rfl⟩ := List.mem_map.mp hx
      exact (List.mem_filter.mp hn).2
    · rw [hoffered]
      exact hnodup.filter _
    · intro x hx
      have hmem := List.mem_map_of_mem (f := AnonCreds.OfferedAttribute.name) hx
      rw [hoffered] at hmem
      exact (List.mem_filter.mp hmem).1
    · intro x hx
      obtain ⟨y, -, rfl⟩ := List.mem_map.mp hx
      exact ⟨y.value, rfl⟩
    · intro n hn hoptional
      have hmem : n ∈ names.filter hasText := List.mem_filter.mpr ⟨hn, hall n hn hoptional⟩
      rw [← hoffered] at hmem
      exact List.mem_map.mp hmem

/-! ### Declared claims -/

/-- A text of each type. -/
def sample : ClaimType → String
  | .string => ""
  | .number => "0"
  | .boolean => "true"
  | .array => "[]"
  | .object => "\x7b\x7d"

theorem matchesClaimType_sample (type : ClaimType) : matchesClaimType (sample type) type = true := by
  cases type <;> decide +kernel

/-- Declared claims can be offered if and only if every name has text. -/
theorem declared_offer_iff (w : Wording) (format : CredentialFormat)
    {declarations : List (String × ClaimType)} (hne : declarations ≠ [])
    (hnodup : (declarations.map Prod.fst).Nodup) :
    (∃ a, validateOfferCredentialRequest ⟨format, a⟩ = none ∧
      validateDeclared w declarations a = []) ↔
        ∀ name ∈ declarations.map Prod.fst, hasText name = true := by
  have hduplicate : ∀ a, declaredEntry w declarations a true ≠ none := by simp [declaredEntry]
  simp only [validateOfferCredentialRequest_eq_none_iff, validateDeclared, attributeIssues_eq,
    List.append_eq_nil_iff, issuesByName_eq_nil_iff hduplicate, missingIssues_eq_nil_iff]
  constructor
  · rintro ⟨a, ⟨-, htext⟩, -, hmissing⟩ name hname
    obtain ⟨x, hx, rfl⟩ := List.mem_map.mp (hmissing name hname)
    exact htext x hx
  · intro hall
    have hoffered : (declarations.map fun d => (⟨d.1, sample d.2⟩ : CredentialAttribute)).map
        CredentialAttribute.name = declarations.map Prod.fst := by
      rw [List.map_map]
      rfl
    refine ⟨declarations.map fun d => ⟨d.1, sample d.2⟩, ⟨by simpa using hne, ?_⟩, ?_, ?_⟩
    · intro x hx
      obtain ⟨d, hd, rfl⟩ := List.mem_map.mp hx
      exact hall d.1 (List.mem_map_of_mem hd)
    · refine ⟨fun x hx => ?_, hoffered ▸ hnodup, fun _ _ => List.not_mem_nil⟩
      obtain ⟨d, hd, rfl⟩ := List.mem_map.mp hx
      refine (declaredEntry_eq_none_iff w hnodup _).mpr ⟨d.2, hd, ?_⟩
      exact (matchesClaimType_iff _ _).mp (matchesClaimType_sample d.2)
    · rw [hoffered]
      exact fun _ => id

theorem validateClaims_declared {claims : Option Json} (h : SdJwt.validateClaims claims = []) :
    declarationsOf claims ≠ [] ∧ ∀ d ∈ declarationsOf claims, (declaredType d.2).isSome = true := by
  unfold SdJwt.validateClaims at h
  split at h
  · cases h
  next members hmembers =>
    refine declared_of_members hmembers fun d hd => ?_
    have hdeclaration := List.flatMap_eq_nil_iff.mp h d hd
    unfold SdJwt.validateClaimDeclaration at hdeclaration
    cases hobject : plainObject (some d.2) with
    | none => simp [hobject] at hdeclaration
    | some inner =>
      simp only [hobject, List.append_eq_nil_iff] at hdeclaration
      by_cases htype : (claimType (Json.get inner "type")).isSome = true
      · simpa [declaredType, hobject] using htype
      · simp [htype] at hdeclaration

theorem validateCredentialSubject_declared {value : Option Json}
    (h : W3cVc.validateCredentialSubject value = []) :
    declarationsOf value ≠ [] ∧ ∀ d ∈ declarationsOf value, (declaredType d.2).isSome = true := by
  unfold W3cVc.validateCredentialSubject at h
  split at h
  · cases h
  next members hmembers =>
    refine declared_of_members hmembers fun d hd => ?_
    have hdeclaration := List.filterMap_eq_nil_iff.mp h d hd
    unfold W3cVc.validateCredentialSubjectDeclaration at hdeclaration
    by_cases htype : (declaredType d.2).isSome = true
    · exact htype
    · simp [htype] at hdeclaration

/-! ### Every registered schema -/

/-- The formats whose validator answers. -/
inductive CheckedFormat where
  | anonCreds
  | sdJwtVc
  | jsonLd
  deriving Repr, DecidableEq

def CheckedFormat.validator : CheckedFormat → FormatValidator
  | .anonCreds => anonCredsFormatValidator
  | .sdJwtVc => sdJwtFormatValidator
  | .jsonLd => w3cVcFormatValidator

/-- Some request of this format passes both checks of an offer. -/
def CanBeOffered (v : FormatValidator) (schema : Json.Members) : Prop :=
  ∃ a, validateOfferCredentialRequest ⟨v.format, a⟩ = none ∧ v.validateAttributes schema a = .ok []

/-- The names an offer has to use are not blank. -/
def NamesHaveText : CheckedFormat → Json.Members → Prop
  | .anonCreds, schema =>
    AnonCredsNamesHaveText schema ((stringArray (Json.get schema "attr_names")).getD [])
  | .sdJwtVc, schema =>
    ∀ d ∈ declarationsOf (Json.get schema "claims"), hasText d.1 = true
  | .jsonLd, schema =>
    ∀ d ∈ declarationsOf (Json.get schema "credentialSubject"), hasText d.1 = true

theorem declarations_offer_iff (w : Wording) (format : CredentialFormat) {value : Option Json}
    (hne : declarationsOf value ≠ [])
    (htypes : ∀ d ∈ declarationsOf value, (declaredType d.2).isSome = true)
    {fallback : List FormatValidationIssue} :
    (∃ a, validateOfferCredentialRequest ⟨format, a⟩ = none ∧
      (match readDeclarations value with
        | none => fallback
        | some ds => validateDeclared w ds a) = []) ↔
        ∀ d ∈ declarationsOf value, hasText d.1 = true := by
  obtain ⟨ds, hds, hnames⟩ := readDeclarations_eq_some hne htypes
  have hnodup : (ds.map Prod.fst).Nodup := by
    rw [hnames]
    exact Json.nodup_entries _
  have hdsne : ds ≠ [] := by
    rintro rfl
    exact hne (List.map_eq_nil_iff.mp hnames.symm)
  simp only [hds]
  rw [declared_offer_iff w format hdsne hnodup, hnames]
  simp

/-- A registered schema can be offered if and only if the names an offer has to use have text. -/
theorem offer_iff_names_have_text (f : CheckedFormat) (schema : Json.Members)
    (hschema : f.validator.validateSchema schema = .ok []) :
    CanBeOffered f.validator schema ↔ NamesHaveText f schema := by
  cases f with
  | anonCreds =>
    obtain ⟨names, hnames, hnodup⟩ := AnonCreds.exists_names_of_validateSchema (Except.ok.inj hschema)
    have hnames' : (stringArray (Json.get schema "attr_names")).getD [] = names := by
      rw [(Option.filter_eq_some_iff.mp hnames).1, Option.getD_some]
    rw [NamesHaveText, hnames', ← anonCreds_offer_iff hnames hnodup]
    simp [CanBeOffered, CheckedFormat.validator, anonCredsFormatValidator]
  | sdJwtVc =>
    have h := Except.ok.inj hschema
    unfold SdJwt.validateSchema at h
    obtain ⟨hne, htypes⟩ := validateClaims_declared (List.append_eq_nil_iff.mp h).2
    rw [NamesHaveText, ← declarations_offer_iff SdJwt.wording .sdJwtVc hne htypes]
    simp only [CanBeOffered, CheckedFormat.validator, sdJwtFormatValidator, Except.ok.injEq]
    rfl
  | jsonLd =>
    have h := Except.ok.inj hschema
    unfold W3cVc.validateSchema at h
    obtain ⟨hne, htypes⟩ := validateCredentialSubject_declared (List.append_eq_nil_iff.mp h).2
    rw [NamesHaveText, ← declarations_offer_iff W3cVc.wording .jsonLd hne htypes]
    simp only [CanBeOffered, CheckedFormat.validator, w3cVcFormatValidator, Except.ok.injEq]
    rfl

theorem offer_iff_names_have_text_person :
    anonCredsFormatValidator.validateSchema (personSchema ["name"]) = .ok [] ∧
      CanBeOffered anonCredsFormatValidator (personSchema ["name"]) := by
  have hschema : anonCredsFormatValidator.validateSchema (personSchema ["name"]) = .ok [] := by
    decide
  refine ⟨hschema, (offer_iff_names_have_text .anonCreds (personSchema ["name"]) hschema).mpr ?_⟩
  exact ⟨by decide, "name", by decide, by decide⟩

/-- A blank attribute name is registered, required and refused in every offer. -/
theorem registered_not_offered : ¬ ∀ (f : CheckedFormat) (schema : Json.Members),
    f.validator.validateSchema schema = .ok [] → CanBeOffered f.validator schema := by
  intro hall
  obtain ⟨a, hrequest, hattributes⟩ := hall .anonCreds (personSchema [" "]) (by decide)
  have hnames : AnonCreds.attributeNames (Json.get (personSchema [" "]) "attr_names") =
      some [" "] := by decide
  have htext := (anonCreds_offer_iff hnames (by decide)).mp
    ⟨a, hrequest, Except.ok.inj hattributes⟩
  exact absurd (htext.1 " " (by decide) (by decide)) (by decide)

end VcCommonService.Credentials
