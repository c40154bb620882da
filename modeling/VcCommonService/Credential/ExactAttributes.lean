import VcCommonService.Credential.Validators

/-!
# What the attribute checks accept

The loops of the validators find nothing exactly on the offers that their documentation describes:
every declared name once, no other name, and values of the declared kind. The SD-JWT and the W3C
VC validator accept the same offers for the same declarations.
-/

namespace VcCommonService.Credentials
open Lib

/-! ### The loop -/

section Loop

variable {α : Type}

/-- The loop over the attributes, whatever an attribute holds besides its name. -/
def issuesByName (name : α → String) (entry : α → Bool → Option FormatValidationIssue) :
    List String → List α → List FormatValidationIssue
  | _, [] => []
  | seenNames, offered :: attributes =>
    (entry offered (seenNames.contains (name offered))).toList ++
      issuesByName name entry (Js.add seenNames (name offered)) attributes

variable {name : α → String} {entry : α → Bool → Option FormatValidationIssue}

theorem issuesByName_eq_nil_iff (hduplicate : ∀ a, entry a true ≠ none) (seen : List String)
    (as : List α) :
    issuesByName name entry seen as = [] ↔
      (∀ a ∈ as, entry a false = none) ∧ (as.map name).Nodup ∧ ∀ a ∈ as, name a ∉ seen := by
  induction as generalizing seen with
  | nil => simp [issuesByName]
  | cons a as ih =>
    rw [issuesByName, List.append_eq_nil_iff, Option.toList_eq_nil_iff, ih, List.map_cons,
      List.nodup_cons, List.forall_mem_cons, List.forall_mem_cons]
    have hhead : entry a (seen.contains (name a)) = none ↔ entry a false = none ∧ name a ∉ seen := by
      by_cases hseen : name a ∈ seen
      · simp [hseen, hduplicate a]
      · simp [hseen]
    have htail : (∀ b ∈ as, name b ∉ Js.add seen (name a)) ↔
        name a ∉ as.map name ∧ ∀ b ∈ as, name b ∉ seen := by
      constructor
      · intro hnew
        constructor
        · intro hmem
          obtain ⟨b, hb, hname⟩ := List.mem_map.mp hmem
          exact hnew b hb ((Js.mem_add _ _ _).mpr (Or.inr hname))
        · exact fun b hb hmem => hnew b hb ((Js.mem_add _ _ _).mpr (Or.inl hmem))
      · rintro ⟨hfresh, hnew⟩ b hb hmem
        rcases (Js.mem_add _ _ _).mp hmem with h | h
        · exact hnew b hb h
        · exact hfresh (List.mem_map.mpr ⟨b, hb, h⟩)
    rw [hhead, htail]
    tauto

end Loop

theorem attributeIssues_eq (entry : CredentialAttribute → Bool → Option FormatValidationIssue)
    (seen : List String) (as : List CredentialAttribute) :
    attributeIssues entry seen as = issuesByName CredentialAttribute.name entry seen as := by
  induction as generalizing seen with
  | nil => rfl
  | cons a as ih => rw [attributeIssues, issuesByName, ih]

theorem missingIssues_eq_nil_iff (noun : String) (required seen : List String) :
    missingIssues noun required (Js.setOf seen) = [] ↔ ∀ name ∈ required, name ∈ seen := by
  simp [missingIssues, List.filter_eq_nil_iff]

/-! ### Declared claims -/

theorem lookup_of_mem {declarations : List (String × ClaimType)} {d : String × ClaimType}
    (hnodup : (declarations.map Prod.fst).Nodup) (hd : d ∈ declarations) :
    declarations.lookup d.1 = some d.2 := by
  obtain ⟨before, after, rfl⟩ := List.append_of_mem hd
  refine List.lookup_eq_some_iff.mpr ⟨before, after, rfl, fun p hp => ?_⟩
  rw [List.map_append, List.nodup_append] at hnodup
  have hne := hnodup.2.2 p.1 (List.mem_map_of_mem hp) d.1 (by simp)
  simpa using hne.symm

/-- The members of a well-formed declaration. -/
def declarationsOf (value : Option Json) : Json.Members := Json.entries ((plainObject value).getD [])

theorem readDeclarations_eq_some {value : Option Json} (hne : declarationsOf value ≠ [])
    (h : ∀ d ∈ declarationsOf value, (declaredType d.2).isSome = true) :
    ∃ ds, readDeclarations value = some ds ∧
      ds.map Prod.fst = (declarationsOf value).map Prod.fst := by
  have hmapM : ∀ ms : Json.Members, (∀ d ∈ ms, (declaredType d.2).isSome = true) →
      ∃ ds : List (String × ClaimType), (ms.mapM fun d => do
        let type ← declaredType d.2
        return (d.1, type)) = some ds ∧ ds.map Prod.fst = ms.map Prod.fst := by
    intro ms
    induction ms with
    | nil => exact fun _ => ⟨[], rfl, rfl⟩
    | cons m ms ih =>
      intro hall
      obtain ⟨type, htype⟩ := Option.isSome_iff_exists.mp (hall m (List.mem_cons_self ..))
      obtain ⟨ds, hds, hnames⟩ := ih fun d hd => hall d (List.mem_cons_of_mem _ hd)
      refine ⟨(m.1, type) :: ds, ?_, by rw [List.map_cons, List.map_cons, hnames]⟩
      rw [List.mapM_cons, hds, htype]
      rfl
  obtain ⟨ds, hds, hnames⟩ := hmapM _ h
  refine ⟨ds, ?_, hnames⟩
  unfold declarationsOf at hne hds
  unfold readDeclarations
  cases hobject : plainObject value with
  | none => simp [hobject, Json.entries] at hne
  | some members =>
    have hmembers : members ≠ [] := by
      rintro rfl
      simp [hobject, Json.entries] at hne
    rw [hobject] at hds
    simpa [hmembers] using hds

theorem declared_of_members {value : Option Json} {members : Json.Members}
    (hmembers : ((plainObject value).filter fun members => !members.isEmpty) = some members)
    (hall : ∀ d ∈ Json.entries members, (declaredType d.2).isSome = true) :
    declarationsOf value ≠ [] ∧ ∀ d ∈ declarationsOf value, (declaredType d.2).isSome = true := by
  obtain ⟨hobject, hne⟩ := Option.filter_eq_some_iff.mp hmembers
  rw [declarationsOf, hobject, Option.getD_some]
  refine ⟨?_, hall⟩
  cases members with
  | nil => cases hne
  | cons m ms => exact List.cons_ne_nil _ _

/-- The text is a JSON literal of this type, whatever number it denotes. -/
def IsLiteral : ClaimType → String → Prop
  | .string, _ => True
  | .number, raw => ∃ n, JsonText.parse raw = some (.num n)
  | .boolean, raw => ∃ b, JsonText.parse raw = some (.bool b)
  | .array, raw => ∃ elements, JsonText.parse raw = some (.arr elements)
  | .object, raw => ∃ members, JsonText.parse raw = some (.obj members)

/-- A literal whose number, if it is one, is not too large for a number of the language. -/
def IsFiniteLiteral : ClaimType → String → Prop
  | .number, raw => ∃ q, JsonText.parse raw = some (.num (.finite q))
  | type, raw => IsLiteral type raw

theorem matchesClaimType_iff (raw : String) (type : ClaimType) :
    matchesClaimType raw type = true ↔ IsFiniteLiteral type raw := by
  cases type with
  | string => simp [matchesClaimType, IsFiniteLiteral, IsLiteral]
  | number =>
    simp only [matchesClaimType, IsFiniteLiteral]
    cases JsonText.parse raw with
    | none => simp
    | some value =>
      cases value with
      | num n => cases n <;> simp [Number.isFinite]
      | _ => simp
  | boolean =>
    simp only [matchesClaimType, IsFiniteLiteral, IsLiteral]
    cases JsonText.parse raw with
    | none => simp
    | some value => cases value <;> simp
  | array =>
    simp only [matchesClaimType, IsFiniteLiteral, IsLiteral]
    cases JsonText.parse raw with
    | none => simp
    | some value => cases value <;> simp
  | object =>
    simp only [matchesClaimType, IsFiniteLiteral, IsLiteral]
    cases JsonText.parse raw with
    | none => simp
    | some value => cases value <;> simp

/-- The declaration is an object that names this type. -/
def Declares (declaration : Json) (type : ClaimType) : Prop :=
  ∃ fields, declaration = .obj fields ∧ Json.get fields "type" = some (.str type.value)

theorem declaredType_eq_some_iff (declaration : Json) (type : ClaimType) :
    declaredType declaration = some type ↔ Declares declaration type := by
  have hvalue : ∀ value : Option Json, claimType value = some type ↔
      value = some (.str type.value) := by
    intro value
    constructor
    · intro h
      unfold claimType at h
      split at h
      next s =>
        have hs : type.value = s := by simpa using List.find?_some h
        rw [hs]
      next => cases h
    · rintro rfl
      cases type <;> rfl
  unfold declaredType Declares
  cases declaration <;> simp [plainObject, hvalue]

theorem Declares.unique {declaration : Json} {type type' : ClaimType}
    (h : Declares declaration type) (h' : Declares declaration type') : type = type' :=
  Option.some.inj (((declaredType_eq_some_iff _ _).mpr h).symm.trans
    ((declaredType_eq_some_iff _ _).mpr h'))

/-- An offer of exactly the declared claims: `members` are the declarations, `literal` says which
texts a type takes. -/
structure OffersExactly (literal : ClaimType → String → Prop) (members : Json.Members)
    (attributes : List CredentialAttribute) : Prop where
  nonempty : members ≠ []
  supported : ∀ d ∈ Json.entries members, ∃ type, Declares d.2 type
  once : ∀ d ∈ Json.entries members, (attributes.map CredentialAttribute.name).count d.1 = 1
  declared : ∀ a ∈ attributes, ∃ d ∈ Json.entries members, d.1 = a.name
  literals : ∀ a ∈ attributes, ∀ d ∈ Json.entries members, d.1 = a.name → ∀ type,
    Declares d.2 type → literal type a.value

theorem mem_of_mapM {β γ : Type} {f : β → Option γ} {xs : List β} {ys : List γ}
    (h : xs.mapM f = some ys) :
    (∀ x ∈ xs, ∃ y ∈ ys, f x = some y) ∧ ∀ y ∈ ys, ∃ x ∈ xs, f x = some y := by
  induction xs generalizing ys with
  | nil =>
    cases h
    simp
  | cons x xs ih =>
    rw [List.mapM_cons] at h
    obtain ⟨y, hy, h⟩ := Option.bind_eq_some_iff.mp h
    obtain ⟨zs, hzs, h⟩ := Option.bind_eq_some_iff.mp h
    cases h
    obtain ⟨hleft, hright⟩ := ih hzs
    constructor
    · intro x' hx'
      rcases List.mem_cons.mp hx' with rfl | hx'
      · exact ⟨y, List.mem_cons_self, hy⟩
      · obtain ⟨z, hz, hfz⟩ := hleft x' hx'
        exact ⟨z, List.mem_cons_of_mem _ hz, hfz⟩
    · intro z hz
      rcases List.mem_cons.mp hz with rfl | hz
      · exact ⟨x, List.mem_cons_self, hy⟩
      · obtain ⟨x', hx', hfz⟩ := hright z hz
        exact ⟨x', List.mem_cons_of_mem _ hx', hfz⟩

/-- The declarations that were read are those of the schema, name by name. -/
structure ReadFrom (members : Json.Members) (ds : List (String × ClaimType)) : Prop where
  nonempty : members ≠ []
  nodup : (ds.map Prod.fst).Nodup
  read : ∀ d ∈ Json.entries members, ∃ type, Declares d.2 type ∧ (d.1, type) ∈ ds
  written : ∀ e ∈ ds, ∃ d ∈ Json.entries members, d.1 = e.1 ∧ Declares d.2 e.2

theorem readDeclarations_readFrom {m : Json} {ds : List (String × ClaimType)}
    (h : readDeclarations (some m) = some ds) : ∃ members, m = .obj members ∧ ReadFrom members ds := by
  have hread := h
  obtain ⟨members, hobject, h⟩ := Option.bind_eq_some_iff.mp h
  have hm : m = .obj members := by
    cases m <;> simp_all [plainObject]
  split at h
  · cases h
  next hempty =>
    have hne : members ≠ [] := by simpa using hempty
    obtain ⟨hleft, hright⟩ := mem_of_mapM h
    have hpair : ∀ (d : String × Json) (e : String × ClaimType), (do
        let type ← declaredType d.2
        return (d.1, type)) = some e ↔ d.1 = e.1 ∧ Declares d.2 e.2 := by
      intro d e
      obtain ⟨name, type⟩ := e
      rw [← declaredType_eq_some_iff]
      cases declaredType d.2 <;> simp
    have hentries : ∀ d ∈ Json.entries members, ∃ type, Declares d.2 type ∧ (d.1, type) ∈ ds := by
      intro d hd
      obtain ⟨e, he, hde⟩ := hleft d hd
      obtain ⟨hname, htype⟩ := (hpair d e).mp hde
      exact ⟨e.2, htype, hname ▸ he⟩
    -- the names were read in the order of the entries
    have hnames : ds.map Prod.fst = (Json.entries members).map Prod.fst := by
      have htypes : ∀ d ∈ Json.entries members, (declaredType d.2).isSome = true := by
        intro d hd
        obtain ⟨type, htype, -⟩ := hentries d hd
        exact Option.isSome_of_eq_some ((declaredType_eq_some_iff _ _).mpr htype)
      have hfilter : ((plainObject (some m)).filter fun members => !members.isEmpty) =
          some members := by
        rw [hobject]
        simpa using hne
      obtain ⟨hnonempty, hall⟩ := declared_of_members hfilter htypes
      obtain ⟨ds', hds', hnames⟩ := readDeclarations_eq_some hnonempty hall
      rw [hread, Option.some_inj] at hds'
      rw [hds', hnames, declarationsOf, hobject, Option.getD_some]
    refine ⟨members, hm, hne, hnames ▸ Json.nodup_entries members, hentries, fun e he => ?_⟩
    obtain ⟨d, hd, hde⟩ := hright e he
    exact ⟨d, hd, (hpair d e).mp hde⟩

theorem exists_readDeclarations {members : Json.Members} (hne : members ≠ [])
    (hall : ∀ d ∈ Json.entries members, ∃ type, Declares d.2 type) :
    ∃ ds, readDeclarations (some (.obj members)) = some ds := by
  have htypes : ∀ d ∈ Json.entries members, (declaredType d.2).isSome = true := by
    intro d hd
    obtain ⟨type, htype⟩ := hall d hd
    exact Option.isSome_of_eq_some ((declaredType_eq_some_iff _ _).mpr htype)
  have hfilter : ((plainObject (some (.obj members))).filter fun members => !members.isEmpty) =
      some members := by simpa [plainObject] using hne
  obtain ⟨hnonempty, hdeclared⟩ := declared_of_members hfilter htypes
  obtain ⟨ds, hds, -⟩ := readDeclarations_eq_some hnonempty hdeclared
  exact ⟨ds, hds⟩

theorem ReadFrom.type_eq {members : Json.Members} {ds : List (String × ClaimType)}
    (h : ReadFrom members ds) {d : String × Json} {type type' : ClaimType}
    (hd : d ∈ Json.entries members) (htype : Declares d.2 type) (hmem : (d.1, type') ∈ ds) :
    type = type' := by
  obtain ⟨read, hread, hmem'⟩ := h.read d hd
  have hlookup := lookup_of_mem h.nodup hmem
  rw [lookup_of_mem h.nodup hmem'] at hlookup
  exact (htype.unique hread).trans (Option.some.inj hlookup)

theorem declaredEntry_eq_none_iff (w : Wording) {ds : List (String × ClaimType)}
    (hnodup : (ds.map Prod.fst).Nodup) (a : CredentialAttribute) :
    declaredEntry w ds a false = none ↔
      ∃ type, (a.name, type) ∈ ds ∧ IsFiniteLiteral type a.value := by
  unfold declaredEntry
  simp only [Bool.false_eq_true, if_false]
  constructor
  · intro h
    split at h
    · cases h
    next type hlookup =>
      obtain ⟨before, after, rfl, -⟩ := List.lookup_eq_some_iff.mp hlookup
      split at h
      next hmatches => exact ⟨type, by simp, (matchesClaimType_iff _ _).mp hmatches⟩
      next => cases h
  · rintro ⟨type, hmem, hliteral⟩
    rw [lookup_of_mem hnodup hmem]
    simp [(matchesClaimType_iff _ _).mpr hliteral]

theorem validateDeclared_eq_nil_iff (w : Wording) {members : Json.Members}
    {ds : List (String × ClaimType)} (hread : ReadFrom members ds)
    (attributes : List CredentialAttribute) :
    validateDeclared w ds attributes = [] ↔ OffersExactly IsFiniteLiteral members attributes := by
  have hduplicate : ∀ a, declaredEntry w ds a true ≠ none := by simp [declaredEntry]
  rw [validateDeclared, List.append_eq_nil_iff, missingIssues_eq_nil_iff, attributeIssues_eq,
    issuesByName_eq_nil_iff hduplicate]
  simp only [declaredEntry_eq_none_iff w hread.nodup]
  constructor
  · rintro ⟨⟨hentries, hnodup, -⟩, hmissing⟩
    refine ⟨hread.nonempty, ?_, ?_, ?_, ?_⟩
    · intro d hd
      obtain ⟨type, htype, -⟩ := hread.read d hd
      exact ⟨type, htype⟩
    · intro d hd
      obtain ⟨type, -, hmem⟩ := hread.read d hd
      exact List.count_eq_one_of_mem hnodup (hmissing d.1 (List.mem_map.mpr ⟨_, hmem, rfl⟩))
    · intro a ha
      obtain ⟨type, hmem, -⟩ := hentries a ha
      obtain ⟨d, hd, hname, -⟩ := hread.written _ hmem
      exact ⟨d, hd, hname⟩
    · intro a ha d hd hname type htype
      obtain ⟨type', hmem, hliteral⟩ := hentries a ha
      rw [hread.type_eq hd htype (hname ▸ hmem)]
      exact hliteral
  · intro h
    refine ⟨⟨?_, ?_, fun _ _ => List.not_mem_nil⟩, ?_⟩
    · intro a ha
      obtain ⟨d, hd, hname⟩ := h.declared a ha
      obtain ⟨type, htype, hmem⟩ := hread.read d hd
      exact ⟨type, hname ▸ hmem, h.literals a ha d hd hname type htype⟩
    · refine List.nodup_iff_count_le_one.mpr fun name => ?_
      by_cases hmem : name ∈ attributes.map CredentialAttribute.name
      · obtain ⟨a, ha, rfl⟩ := List.mem_map.mp hmem
        obtain ⟨d, hd, hname⟩ := h.declared a ha
        exact hname ▸ (h.once d hd).le
      · rw [List.count_eq_zero_of_not_mem hmem]
        exact Nat.zero_le 1
    · intro name hname
      obtain ⟨e, he, rfl⟩ := List.mem_map.mp hname
      obtain ⟨d, hd, hname, -⟩ := hread.written e he
      have hone := h.once d hd
      rw [hname] at hone
      exact List.count_pos_iff.mp (by omega)

/-- Both validators: the check fails on declarations that cannot be read. -/
theorem readAndValidate_eq_nil_iff (w : Wording) {fallback : List FormatValidationIssue}
    (hfallback : fallback ≠ []) (m : Json) (attributes : List CredentialAttribute) :
    (match readDeclarations (some m) with
      | none => fallback
      | some ds => validateDeclared w ds attributes) = [] ↔
      ∃ members, m = .obj members ∧ OffersExactly IsFiniteLiteral members attributes := by
  cases hread : readDeclarations (some m) with
  | none =>
    refine iff_of_false hfallback ?_
    rintro ⟨members, rfl, h⟩
    obtain ⟨ds, hds⟩ := exists_readDeclarations h.nonempty h.supported
    rw [hds] at hread
    cases hread
  | some ds =>
    obtain ⟨members, rfl, hfrom⟩ := readDeclarations_readFrom hread
    simp only [Json.obj.injEq, exists_eq_left', validateDeclared_eq_nil_iff w hfrom]

theorem offersExactly_perm {literal : ClaimType → String → Prop} {members : Json.Members}
    {as bs : List CredentialAttribute} (hperm : as.Perm bs)
    (h : OffersExactly literal members as) : OffersExactly literal members bs where
  nonempty := h.nonempty
  supported := h.supported
  once := fun d hd => (hperm.map CredentialAttribute.name).count_eq d.1 ▸ h.once d hd
  declared := fun a ha => h.declared a (hperm.mem_iff.mpr ha)
  literals := fun a ha => h.literals a (hperm.mem_iff.mpr ha)

/-- The SD-JWT and the W3C VC validator accept the same offers: those of exactly the declared
claims, in any order. -/
theorem declaredAttributes_exact (m : Json) (attributes : List CredentialAttribute) :
    (SdJwt.validateAttributes [("claims", m)] attributes = [] ↔
        W3cVc.validateAttributes [("credentialSubject", m)] attributes = []) ∧
      (W3cVc.validateAttributes [("credentialSubject", m)] attributes = [] ↔
        ∃ members, m = .obj members ∧ OffersExactly IsFiniteLiteral members attributes) ∧
      ∀ others : List CredentialAttribute, attributes.Perm others →
        (SdJwt.validateAttributes [("claims", m)] others = [] ↔
          SdJwt.validateAttributes [("claims", m)] attributes = []) ∧
        (W3cVc.validateAttributes [("credentialSubject", m)] others = [] ↔
          W3cVc.validateAttributes [("credentialSubject", m)] attributes = []) := by
  have hsdJwt : ∀ as, SdJwt.validateAttributes [("claims", m)] as = [] ↔
      ∃ members, m = .obj members ∧ OffersExactly IsFiniteLiteral members as :=
    readAndValidate_eq_nil_iff SdJwt.wording (List.cons_ne_nil _ _) m
  have hw3c : ∀ as, W3cVc.validateAttributes [("credentialSubject", m)] as = [] ↔
      ∃ members, m = .obj members ∧ OffersExactly IsFiniteLiteral members as :=
    readAndValidate_eq_nil_iff W3cVc.wording (List.cons_ne_nil _ _) m
  have hperm : ∀ as bs : List CredentialAttribute, as.Perm bs →
      ((∃ members, m = .obj members ∧ OffersExactly IsFiniteLiteral members bs) ↔
        ∃ members, m = .obj members ∧ OffersExactly IsFiniteLiteral members as) :=
    fun as bs h => exists_congr fun members => and_congr_right fun _ =>
      ⟨offersExactly_perm h.symm, offersExactly_perm h⟩
  refine ⟨(hsdJwt _).trans (hw3c _).symm, hw3c _, fun others h => ⟨?_, ?_⟩⟩
  · rw [hsdJwt, hsdJwt, hperm _ _ h]
  · rw [hw3c, hw3c, hperm _ _ h]

/-- `1e999` is a JSON number, but too large for a number of the language. -/
theorem declaredAttributes_reject_large_number :
    ¬ ∀ (m : Json) (attributes : List CredentialAttribute),
      SdJwt.validateAttributes [("claims", m)] attributes = [] ↔
        ∃ members, m = .obj members ∧ OffersExactly IsLiteral members attributes := by
  intro hall
  have hiff := hall (.obj [("n", .obj [("type", .str "number")])]) [⟨"n", "1e999"⟩]
  have hrejected : SdJwt.validateAttributes
      [("claims", .obj [("n", .obj [("type", .str "number")])])] [⟨"n", "1e999"⟩] ≠ [] := by
    decide +kernel
  have hnumber : JsonText.parse "1e999" = some (.num (.infinite false)) := by decide +kernel
  refine hrejected (hiff.mpr ⟨_, rfl, by simp, ?_, ?_, ?_, ?_⟩)
  · intro d hd
    cases List.mem_singleton.mp hd
    exact ⟨.number, _, rfl, rfl⟩
  · intro d hd
    cases List.mem_singleton.mp hd
    rfl
  · intro a ha
    cases List.mem_singleton.mp ha
    exact ⟨_, List.mem_singleton_self _, rfl⟩
  · intro a ha d hd hname type htype
    cases List.mem_singleton.mp ha
    cases List.mem_singleton.mp hd
    have hdeclared : Declares (.obj [("type", .str "number")]) .number := ⟨_, rfl, rfl⟩
    cases htype.unique hdeclared
    exact ⟨_, hnumber⟩

/-! ### AnonCreds -/

def personSchema (attrNames : List String) : Json.Members :=
  [("attr_names", .arr (attrNames.map .str)), ("schema_name", .str "person"),
    ("schema_version", .str "1.0")]

namespace AnonCreds

/-- An attribute as it may arrive: its value need not be a string, or be there. -/
structure OfferedAttribute where
  name : String
  value : Option Json

def ofRequest (a : CredentialAttribute) : OfferedAttribute :=
  ⟨a.name, some (.str a.value)⟩

def isString : Option Json → Bool
  | some (.str _) => true
  | _ => false

/-- `validateAttributeEntry` with the check of the value's type. -/
def validateOfferedEntry (names : List String) (offered : OfferedAttribute) (isDuplicate : Bool) :
    Option FormatValidationIssue :=
  if isDuplicate then some (duplicateIssue "Attribute" "duplicate attribute" offered.name)
  else if !names.contains offered.name then
    some (undeclaredIssue "Attribute" "credential definition schema" offered.name names)
  else if !isString offered.value then some
    { field := offered.name
      expected := "a string value"
      actual := .described offered.value
      message := "AnonCreds attribute values must be strings; ACA-Py encodes predicate values as " ++
        "strings internally" }
  else none

def attrNamesInvalid (schema : Json.Members) : FormatValidationIssue :=
  { field := "attr_names"
    expected := "a non-empty array of attribute name strings"
    actual := .described (Json.get schema "attr_names")
    message := "Cannot validate attributes: AnonCreds schema attr_names is missing or invalid" }

/-- `validateAttributes` on attributes whose values have any type. -/
def validateOffered (schema : Json.Members) (attributes : List OfferedAttribute) :
    List FormatValidationIssue :=
  match attributeNames (Json.get schema "attr_names") with
  | none => [attrNamesInvalid schema]
  | some names =>
    issuesByName OfferedAttribute.name (validateOfferedEntry names) [] attributes ++
      missingIssues "attribute" (requiredNames schema names)
        (Js.setOf (attributes.map OfferedAttribute.name))

/-- On the attributes of a request the two are the same check. -/
theorem validateOffered_strings (schema : Json.Members) (attributes : List CredentialAttribute) :
    validateOffered schema (attributes.map ofRequest) =
      validateAttributes schema attributes := by
  have hentry : ∀ names a isDuplicate,
      validateOfferedEntry names (ofRequest a) isDuplicate =
        validateAttributeEntry names a isDuplicate := by
    intro names a isDuplicate
    simp [validateOfferedEntry, validateAttributeEntry, ofRequest, isString]
  have hloop : ∀ names seen,
      issuesByName OfferedAttribute.name (validateOfferedEntry names) seen
          (attributes.map ofRequest) =
        attributeIssues (validateAttributeEntry names) seen attributes := by
    intro names
    induction attributes with
    | nil => exact fun _ => rfl
    | cons a as ih =>
      intro seen
      rw [List.map_cons, issuesByName, attributeIssues, hentry, ih]
      rfl
  have hnames : (attributes.map ofRequest).map OfferedAttribute.name =
      attributes.map CredentialAttribute.name := by
    rw [List.map_map]
    rfl
  unfold validateOffered validateAttributes
  cases attributeNames (Json.get schema "attr_names") with
  | none => rfl
  | some names => simp only [hloop, hnames]

def IsStringArray (value : Option Json) (strings : List String) : Prop :=
  value = some (.arr (strings.map .str))

theorem stringArray_eq_some_iff (value : Option Json) (strings : List String) :
    stringArray value = some strings ↔ IsStringArray value strings := by
  have hmapM : ∀ (elements : List Json) (strings : List String),
      elements.mapM stringOf = some strings ↔ elements = strings.map .str := by
    intro elements
    induction elements with
    | nil =>
      intro strings
      cases strings <;> simp
    | cons e es ih =>
      intro strings
      cases e with
      | str s =>
        have hcons : (Json.str s :: es).mapM stringOf = (es.mapM stringOf).map (s :: ·) := by
          rw [List.mapM_cons]
          cases es.mapM stringOf <;> rfl
        rw [hcons, Option.map_eq_some_iff]
        simp only [ih]
        constructor
        · rintro ⟨ss, rfl, rfl⟩
          rfl
        · intro h
          cases strings with
          | nil => cases h
          | cons t ss =>
            rw [List.map_cons, List.cons.injEq, Json.str.injEq] at h
            exact ⟨ss, h.2, by rw [h.1]⟩
      | _ => cases strings <;> simp [stringOf]
  unfold stringArray IsStringArray
  split
  next elements => simp [hmapM]
  next hother =>
    refine iff_of_false nofun fun h => ?_
    exact hother _ h

theorem attributeNames_eq_some_iff (value : Option Json) (names : List String) :
    attributeNames value = some names ↔ IsStringArray value names ∧ names ≠ [] := by
  rw [attributeNames, Option.filter_eq_some_iff, stringArray_eq_some_iff]
  simp

/-- The schema lists the name among its optional attributes; a list that is no string array
counts as empty. -/
def IsOptional (schema : Json.Members) (name : String) : Prop :=
  ∃ optional, IsStringArray (Json.get schema "optional_attributes") optional ∧ name ∈ optional

theorem mem_optionalNames_iff (schema : Json.Members) (name : String) :
    name ∈ optionalNames schema ↔ IsOptional schema name := by
  unfold optionalNames IsOptional
  simp only [← stringArray_eq_some_iff]
  cases stringArray (Json.get schema "optional_attributes") <;> simp

/-- An offer that the schema describes: `names` are its `attr_names`. -/
structure OffersNames (schema : Json.Members) (names : List String)
    (attributes : List OfferedAttribute) : Prop where
  attrNames : IsStringArray (Json.get schema "attr_names") names
  nonempty : names ≠ []
  distinct : (attributes.map OfferedAttribute.name).Nodup
  known : ∀ a ∈ attributes, a.name ∈ names
  strings : ∀ a ∈ attributes, ∃ s, a.value = some (.str s)
  required : ∀ name ∈ names, ¬ IsOptional schema name → ∃ a ∈ attributes, a.name = name

theorem validateOfferedEntry_eq_none_iff (names : List String) (a : OfferedAttribute) :
    validateOfferedEntry names a false = none ↔
      a.name ∈ names ∧ ∃ s, a.value = some (.str s) := by
  have hstring : isString a.value = true ↔ ∃ s, a.value = some (.str s) := by
    cases a.value with
    | none => simp [isString]
    | some value => cases value <;> simp [isString]
  rw [← hstring]
  unfold validateOfferedEntry
  by_cases hname : a.name ∈ names
  · cases isString a.value <;> simp [hname]
  · simp [hname]

theorem validateOffered_eq_nil_iff (schema : Json.Members) (attributes : List OfferedAttribute) :
    validateOffered schema attributes = [] ↔ ∃ names, OffersNames schema names attributes := by
  unfold validateOffered
  cases hnames : attributeNames (Json.get schema "attr_names") with
  | none =>
    refine iff_of_false (List.cons_ne_nil _ _) ?_
    rintro ⟨names, h⟩
    rw [(attributeNames_eq_some_iff _ _).mpr ⟨h.attrNames, h.nonempty⟩] at hnames
    cases hnames
  | some names =>
    have hduplicate : ∀ a, validateOfferedEntry names a true ≠ none := by
      simp [validateOfferedEntry]
    have hrequired : ∀ name, name ∈ requiredNames schema names ↔
        name ∈ names ∧ ¬ IsOptional schema name := by
      intro name
      rw [← mem_optionalNames_iff]
      simp [requiredNames]
    simp only [List.append_eq_nil_iff, missingIssues_eq_nil_iff,
      issuesByName_eq_nil_iff hduplicate, validateOfferedEntry_eq_none_iff, hrequired]
    constructor
    · rintro ⟨⟨hentries, hdistinct, -⟩, hmissing⟩
      obtain ⟨hattrNames, hnonempty⟩ := (attributeNames_eq_some_iff _ _).mp hnames
      exact ⟨names, hattrNames, hnonempty, hdistinct, fun a ha => (hentries a ha).1,
        fun a ha => (hentries a ha).2,
        fun name hname hoptional => List.mem_map.mp (hmissing name ⟨hname, hoptional⟩)⟩
    · rintro ⟨names', h⟩
      have hsame : names' = names := by
        have h' := (attributeNames_eq_some_iff _ _).mpr ⟨h.attrNames, h.nonempty⟩
        exact Option.some.inj (h'.symm.trans hnames)
      subst hsame
      exact ⟨⟨fun a ha => ⟨h.known a ha, h.strings a ha⟩, h.distinct, fun _ _ => List.not_mem_nil⟩,
        fun name hname => List.mem_map.mpr (h.required name hname.1 hname.2)⟩

/-! What an accepted schema rules out. -/

theorem message_of_issuesByName {α : Type} {name : α → String}
    {entry : α → Bool → Option FormatValidationIssue} {P : FormatValidationIssue → Prop}
    (hentry : ∀ a isDuplicate issue, entry a isDuplicate = some issue → P issue)
    (seen : List String) (as : List α) : ∀ issue ∈ issuesByName name entry seen as, P issue := by
  induction as generalizing seen with
  | nil => simp [issuesByName]
  | cons a as ih =>
    intro issue hissue
    rw [issuesByName, List.mem_append, Option.mem_toList] at hissue
    rcases hissue with h | h
    · exact hentry _ _ _ h
    · exact ih _ issue h

/-- Only the message about the schema starts so. -/
theorem message_ne_invalid {names : List String} (schema : Json.Members)
    (required : List String) (attributes : List OfferedAttribute) :
    ∀ issue ∈ issuesByName OfferedAttribute.name (validateOfferedEntry names) [] attributes ++
        missingIssues "attribute" required (Js.setOf (attributes.map OfferedAttribute.name)),
      issue.message ≠ (attrNamesInvalid schema).message := by
  have hfirst : ∀ s t : String, s.toList.head? ≠ t.toList.head? → s ≠ t := by
    rintro s t hne rfl
    exact hne rfl
  intro issue hissue
  rcases List.mem_append.mp hissue with h | h
  · refine message_of_issuesByName
      (P := fun issue => issue.message ≠ (attrNamesInvalid schema).message)
      (fun a isDuplicate issue hentry => ?_) _ _ issue h
    unfold validateOfferedEntry at hentry
    split at hentry
    · cases hentry
      exact hfirst _ _ (by simp [duplicateIssue, attrNamesInvalid])
    · split at hentry
      · cases hentry
        exact hfirst _ _ (by simp [undeclaredIssue, attrNamesInvalid])
      · split at hentry
        · cases hentry
          exact hfirst _ _ (by simp [attrNamesInvalid])
        · cases hentry
  · obtain ⟨name, -, rfl⟩ := List.mem_map.mp h
    exact hfirst _ _ (by simp [attrNamesInvalid])

theorem optional_declared {schema : Json.Members} {names : List String}
    (hnames : attributeNames (Json.get schema "attr_names") = some names)
    (h : validateOptionalAttributes (Json.get schema "optional_attributes")
      (Json.get schema "attr_names") = []) {name : String} (hoptional : IsOptional schema name) :
    name ∈ names := by
  obtain ⟨optional, hlist, hname⟩ := hoptional
  have harray := (stringArray_eq_some_iff _ _).mpr hlist
  unfold IsStringArray at hlist
  rw [hlist] at h harray
  simp only [validateOptionalAttributes, harray, hnames, List.map_eq_nil_iff,
    List.filter_eq_nil_iff] at h
  simpa using h name hname

theorem nodup_of_validateAttrNames {attrNames : Option Json} {names : List String}
    (hnames : attributeNames attrNames = some names)
    (h : validateAttrNames attrNames = none) : names.Nodup := by
  unfold validateAttrNames at h
  rw [hnames] at h
  simp only at h
  split at h
  · cases h
  next hlength =>
    have hperm : List.Subperm (Js.setOf names) names :=
      List.subperm_of_subset (Js.nodup_setOf names) fun n hn => (Js.mem_setOf names n).mp hn
    exact (hperm.perm_of_length_le (not_not.mp hlength).ge).nodup_iff.mp (Js.nodup_setOf names)

theorem exists_names_of_validateSchema {schema : Json.Members}
    (h : validateSchema schema = []) :
    ∃ names, attributeNames (Json.get schema "attr_names") = some names ∧
      names.Nodup := by
  unfold validateSchema at h
  simp only [List.append_eq_nil_iff, Option.toList_eq_nil_iff] at h
  obtain ⟨⟨hattr, -⟩, -⟩ := h
  cases hnames : attributeNames (Json.get schema "attr_names") with
  | none => simp [validateAttrNames, hnames] at hattr
  | some names => exact ⟨names, rfl, nodup_of_validateAttrNames hnames hattr⟩

/-- The check of the attributes is exact for every schema; for a schema that was accepted it never
blames the schema, and the optional attributes are declared ones. -/
theorem validateOffered_exact (schema : Json.Members) :
    (∀ attributes, validateOffered schema attributes = [] ↔
        ∃ names, OffersNames schema names attributes) ∧
      (validateSchema schema = [] →
        (∀ attributes, ∀ issue ∈ validateOffered schema attributes,
          issue.message ≠ (attrNamesInvalid schema).message) ∧
        ∃ names, IsStringArray (Json.get schema "attr_names") names ∧
          ∀ name, IsOptional schema name → name ∈ names) := by
  refine ⟨validateOffered_eq_nil_iff schema, fun haccepted => ?_⟩
  obtain ⟨names, hnames, -⟩ := exists_names_of_validateSchema haccepted
  constructor
  · intro attributes
    unfold validateOffered
    rw [hnames]
    exact message_ne_invalid schema _ attributes
  · refine ⟨names, ((attributeNames_eq_some_iff _ _).mp hnames).1, fun name hoptional => ?_⟩
    unfold validateSchema at haccepted
    exact optional_declared hnames (List.append_eq_nil_iff.mp haccepted).2 hoptional

theorem validateOffered_exact_person :
    validateSchema (personSchema ["name"]) = [] ∧
      (∀ attributes, ∀ issue ∈ validateOffered (personSchema ["name"]) attributes,
        issue.message ≠ (attrNamesInvalid (personSchema ["name"])).message) ∧
      (validateOffered (personSchema ["name"]) [⟨"name", some (.str "Ada")⟩] = [] ↔
        ∃ names, OffersNames (personSchema ["name"]) names [⟨"name", some (.str "Ada")⟩]) := by
  have haccepted : validateSchema (personSchema ["name"]) = [] := by decide +kernel
  exact ⟨haccepted, ((validateOffered_exact _).2 haccepted).1, (validateOffered_exact _).1 _⟩

end AnonCreds

end VcCommonService.Credentials
