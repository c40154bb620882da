import VcCommonService.Common
import VcCommonService.Lib.Js
import VcCommonService.Lib.JsonText

/-!
# Format validators

Each credential format has a validator for the schema of a definition and for the attributes of an
offer. An issue names its field, what was expected and what was found there.
-/

namespace VcCommonService.Credentials
open Lib

inductive CredentialFormat where
  | anonCreds
  | jsonLd
  | sdJwtVc
  | mdl
  deriving Repr, DecidableEq

def CredentialFormat.value : CredentialFormat → String
  | .anonCreds => "anoncreds"
  | .jsonLd => "jsonld"
  | .sdJwtVc => "sd-jwt-vc"
  | .mdl => "mdl"

/-- `Object.values(CredentialFormat)`. -/
def credentialFormats : List CredentialFormat := [.anonCreds, .jsonLd, .sdJwtVc, .mdl]

/-- A text, or the value whose JSON text `describeValue` gives. -/
inductive Actual where
  | text (s : String)
  | described (value : Option Json)
  deriving DecidableEq

structure FormatValidationIssue where
  field : String
  expected : String
  actual : Actual
  message : String
  deriving DecidableEq

structure CredentialAttribute where
  name : String
  value : String
  deriving Repr, DecidableEq

/-! ### Values of unknown type -/

def hasText (s : String) : Bool := decide (Js.trim s ≠ "")

def isNonEmptyText : Option Json → Bool
  | some (.str s) => hasText s
  | _ => false

def stringOf : Json → Option String
  | .str s => some s
  | _ => none

def stringArray : Option Json → Option (List String)
  | some (.arr elements) => elements.mapM stringOf
  | _ => none

def plainObject : Option Json → Option Json.Members
  | some (.obj members) => some members
  | _ => none

/-! ### The loop over the offered attributes -/

/-- `entry` is told whether the name was seen before. -/
def attributeIssues (entry : CredentialAttribute → Bool → Option FormatValidationIssue) :
    List String → List CredentialAttribute → List FormatValidationIssue
  | _, [] => []
  | seenNames, offered :: attributes =>
    (entry offered (seenNames.contains offered.name)).toList ++
      attributeIssues entry (Js.add seenNames offered.name) attributes

def missingIssues (noun : String) (requiredNames seenNames : List String) :
    List FormatValidationIssue :=
  (requiredNames.filter fun name => !seenNames.contains name).map fun name =>
    { field := name
      expected := "a value"
      actual := .text "missing"
      message := "Required " ++ noun ++ " '" ++ name ++ "' was not supplied" }

def duplicateIssue (noun actual name : String) : FormatValidationIssue :=
  { field := name
    expected := "a single value"
    actual := .text actual
    message := noun ++ " '" ++ name ++ "' was supplied more than once" }

def undeclaredIssue (noun place name : String) (names : List String) : FormatValidationIssue :=
  { field := name
    expected := "one of: " ++ commaJoin names
    actual := .text name
    message := noun ++ " '" ++ name ++ "' is not declared in the " ++ place }

/-! ### AnonCreds -/

namespace AnonCreds

/-- `isNonEmptyStringArray`. -/
def attributeNames (attrNames : Option Json) : Option (List String) :=
  (stringArray attrNames).filter fun names => !names.isEmpty

def validateAttrNames (attrNames : Option Json) : Option FormatValidationIssue :=
  match attributeNames attrNames with
  | none => some
    { field := "attr_names"
      expected := "a non-empty array of attribute name strings"
      actual := .described attrNames
      message := "AnonCreds schema must declare attr_names as a non-empty array of strings" }
  | some names =>
    if (Js.setOf names).length ≠ names.length then some
      { field := "attr_names"
        expected := "unique attribute names"
        actual := .described attrNames
        message := "AnonCreds schema attr_names must not contain duplicates" }
    else none

def validateSchemaNameAndVersion (schema : Json.Members) : List FormatValidationIssue :=
  ["schema_name", "schema_version"].filterMap fun field =>
    if isNonEmptyText (Json.get schema field) then none
    else some
      { field := field
        expected := "a non-empty string"
        actual := .described (Json.get schema field)
        message := "AnonCreds schema must declare a non-empty " ++ field }

def validateOptionalAttributes (optionalAttributes attrNames : Option Json) :
    List FormatValidationIssue :=
  match optionalAttributes with
  | none => []
  | some value =>
    match stringArray (some value) with
    | none =>
      [{ field := "optional_attributes"
         expected := "an array of attribute name strings"
         actual := .described (some value)
         message := "AnonCreds schema optional_attributes must be a string array" }]
    | some optionalNames =>
      match attributeNames attrNames with
      | none => []
      | some names =>
        (optionalNames.filter fun name => !names.contains name).map fun name =>
          { field := "optional_attributes"
            expected := "one of: " ++ commaJoin names
            actual := .text name
            message := "optional_attributes entry '" ++ name ++ "' is not declared in attr_names" }

def validateSchema (schema : Json.Members) : List FormatValidationIssue :=
  let attrNames := Json.get schema "attr_names"
  (validateAttrNames attrNames).toList ++ validateSchemaNameAndVersion schema ++
    validateOptionalAttributes (Json.get schema "optional_attributes") attrNames

/-- The values are strings by the type of the request, so the check that they are is left out. -/
def validateAttributeEntry (names : List String) (offered : CredentialAttribute)
    (isDuplicate : Bool) : Option FormatValidationIssue :=
  if isDuplicate then some (duplicateIssue "Attribute" "duplicate attribute" offered.name)
  else if !names.contains offered.name then
    some (undeclaredIssue "Attribute" "credential definition schema" offered.name names)
  else none

def optionalNames (schema : Json.Members) : List String :=
  (stringArray (Json.get schema "optional_attributes")).getD []

def requiredNames (schema : Json.Members) (names : List String) : List String :=
  Js.setOf (names.filter fun name => !(optionalNames schema).contains name)

def validateAttributes (schema : Json.Members) (attributes : List CredentialAttribute) :
    List FormatValidationIssue :=
  match attributeNames (Json.get schema "attr_names") with
  | none =>
    [{ field := "attr_names"
       expected := "a non-empty array of attribute name strings"
       actual := .described (Json.get schema "attr_names")
       message :=
        "Cannot validate attributes: AnonCreds schema attr_names is missing or invalid" }]
  | some names =>
    attributeIssues (validateAttributeEntry names) [] attributes ++
      missingIssues "attribute" (requiredNames schema names)
        (Js.setOf (attributes.map CredentialAttribute.name))

end AnonCreds

/-! ### Claim types -/

inductive ClaimType where
  | string
  | number
  | boolean
  | array
  | object
  deriving Repr, DecidableEq

def ClaimType.value : ClaimType → String
  | .string => "string"
  | .number => "number"
  | .boolean => "boolean"
  | .array => "array"
  | .object => "object"

def claimTypes : List ClaimType := [.string, .number, .boolean, .array, .object]

/-- The claim type that a value names (`isClaimType`). -/
def claimType : Option Json → Option ClaimType
  | some (.str s) => claimTypes.find? fun type => decide (type.value = s)
  | _ => none

def matchesClaimType (rawValue : String) (type : ClaimType) : Bool :=
  match type with
  | .string => true
  | type =>
    match JsonText.parse rawValue, type with
    | some (.num n), .number => n.isFinite
    | some (.bool _), .boolean => true
    | some (.arr _), .array => true
    | some (.obj _), .object => true
    | _, _ => false

def declaredType (declaration : Json) : Option ClaimType := do
  let members ← plainObject (some declaration)
  claimType (Json.get members "type")

/-- The types of all declarations of a nonempty object. -/
def readDeclarations (value : Option Json) : Option (List (String × ClaimType)) := do
  let members ← plainObject value
  if members.isEmpty then none
  else (Json.entries members).mapM fun (name, declaration) => do
    let type ← declaredType declaration
    return (name, type)

/-- How a validator words its issues about attributes. -/
structure Wording where
  noun : String
  duplicate : String
  place : String
  required : String

def declaredEntry (w : Wording) (declarations : List (String × ClaimType))
    (offered : CredentialAttribute) (isDuplicate : Bool) : Option FormatValidationIssue :=
  if isDuplicate then some (duplicateIssue w.noun w.duplicate offered.name)
  else
    match declarations.lookup offered.name with
    | none =>
      some (undeclaredIssue w.noun w.place offered.name (declarations.map Prod.fst))
    | some type =>
      if matchesClaimType offered.value type then none
      else some
        { field := offered.name
          expected := "a " ++ type.value ++ " value"
          actual := .described (some (.str offered.value))
          message := w.noun ++ " '" ++ offered.name ++ "' does not match its declared type '" ++
            type.value ++ "'" }

def validateDeclared (w : Wording) (declarations : List (String × ClaimType))
    (attributes : List CredentialAttribute) : List FormatValidationIssue :=
  attributeIssues (declaredEntry w declarations) [] attributes ++
    missingIssues w.required (declarations.map Prod.fst)
      (Js.setOf (attributes.map CredentialAttribute.name))

/-! ### SD-JWT VC -/

namespace SdJwt

def validateVct (vct : Option Json) : Option FormatValidationIssue :=
  if isNonEmptyText vct then none
  else some
    { field := "vct"
      expected := "a non-empty string"
      actual := .described vct
      message := "SD-JWT schema must declare a non-empty vct (credential type)" }

def isOptionalBoolean : Option Json → Bool
  | none | some (.bool _) => true
  | _ => false

def validateClaimDeclaration (name : String) (declaration : Json) : List FormatValidationIssue :=
  let field := "claims." ++ name
  match plainObject (some declaration) with
  | none =>
    [{ field := field
       expected := "an object with a `type` field"
       actual := .described (some declaration)
       message := "SD-JWT claim '" ++ name ++ "' must declare its type as an object" }]
  | some members =>
    let type := Json.get members "type"
    let disclosable := Json.get members "disclosable"
    (if (claimType type).isSome then []
      else
        [{ field := field ++ ".type"
           expected := "one of: string, number, boolean, array, object"
           actual := .described type
           message := "SD-JWT claim '" ++ name ++ "' declares an unsupported type" }]) ++
    (if isOptionalBoolean disclosable then []
      else
        [{ field := field ++ ".disclosable"
           expected := "a boolean"
           actual := .described disclosable
           message := "SD-JWT claim '" ++ name ++ "' disclosable flag must be a boolean" }])

def validateClaims (claims : Option Json) : List FormatValidationIssue :=
  match (plainObject claims).filter fun members => !members.isEmpty with
  | none =>
    [{ field := "claims"
       expected := "a non-empty object mapping claim names to declarations"
       actual := .described claims
       message := "SD-JWT schema must declare at least one claim" }]
  | some members =>
    (Json.entries members).flatMap fun (name, declaration) => validateClaimDeclaration name declaration

def validateSchema (schema : Json.Members) : List FormatValidationIssue :=
  (validateVct (Json.get schema "vct")).toList ++ validateClaims (Json.get schema "claims")

def wording : Wording :=
  { noun := "Claim"
    duplicate := "duplicate claim"
    place := "SD-JWT schema"
    required := "claim" }

/-- Without `disclosable`, which nothing reads. -/
def readValidClaims (schema : Json.Members) : Option (List (String × ClaimType)) :=
  readDeclarations (Json.get schema "claims")

def validateAttributes (schema : Json.Members) (attributes : List CredentialAttribute) :
    List FormatValidationIssue :=
  match readValidClaims schema with
  | none =>
    [{ field := "claims"
       expected := "a non-empty object mapping claim names to declarations"
       actual := .described (Json.get schema "claims")
       message := "Cannot validate claims: SD-JWT schema claims is missing or invalid" }]
  | some claims => validateDeclared wording claims attributes

end SdJwt

/-! ### W3C VC -/

namespace W3cVc

def baseContexts : List String :=
  ["https://www.w3.org/2018/credentials/v1", "https://www.w3.org/ns/credentials/v2"]

def allowedContexts : List String :=
  baseContexts ++
    ["https://www.w3.org/2018/credentials/examples/v1",
      "https://w3id.org/security/suites/ed25519-2020/v1",
      "https://w3id.org/security/suites/jws-2020/v1",
      "https://w3id.org/citizenship/v1"]

def baseType : String := "VerifiableCredential"

/-- `isNonEmptyStringArray`: here every string has text. -/
def texts (value : Option Json) : Option (List String) :=
  (stringArray value).filter fun strings => !strings.isEmpty && strings.all hasText

def validateContext (context : Option Json) : List FormatValidationIssue :=
  match texts context with
  | none =>
    [{ field := "@context"
       expected := "a non-empty array of context URL strings"
       actual := .described context
       message := "W3C VC schema must declare a non-empty @context array" }]
  | some urls =>
    let disallowed := urls.filter fun url => !allowedContexts.contains url
    (if disallowed.isEmpty then []
      else
        [{ field := "@context"
           expected := "each URL to be one of: " ++ commaJoin allowedContexts
           actual := .described (some (.arr (disallowed.map .str)))
           message := "W3C VC schema @context contains a URL that is not in the allowed list" }]) ++
    (if urls.any fun url => baseContexts.contains url then []
      else
        [{ field := "@context"
           expected := "at least one of: " ++ commaJoin baseContexts
           actual := .described context
           message := "W3C VC schema @context must include the base VC context" }])

def validateType (type : Option Json) : List FormatValidationIssue :=
  match texts type with
  | none =>
    [{ field := "type"
       expected := "a non-empty array of type strings"
       actual := .described type
       message := "W3C VC schema must declare a non-empty type array" }]
  | some types =>
    (if types.contains baseType then []
      else
        [{ field := "type"
           expected := "an array including '" ++ baseType ++ "'"
           actual := .described type
           message :=
            "W3C VC schema type array must include the base '" ++ baseType ++ "' type" }]) ++
    (if types.any fun value => value ≠ baseType then []
      else
        [{ field := "type"
           expected :=
            "an array including a specific type in addition to '" ++ baseType ++ "'"
           actual := .described type
           message := "W3C VC schema type array must include a specific type from the " ++
            "credential definition" }])

def validateCredentialSubjectDeclaration (name : String) (declaration : Json) :
    Option FormatValidationIssue :=
  if (declaredType declaration).isSome then none
  else some
    { field := "credentialSubject." ++ name
      expected := "an object whose `type` is one of: string, number, boolean, array, object"
      actual := .described (some declaration)
      message := "W3C VC credentialSubject field '" ++ name ++ "' must declare a supported type" }

def validateCredentialSubject (credentialSubject : Option Json) : List FormatValidationIssue :=
  match (plainObject credentialSubject).filter fun members => !members.isEmpty with
  | none =>
    [{ field := "credentialSubject"
       expected := "a non-empty object mapping field names to declarations"
       actual := .described credentialSubject
       message := "W3C VC schema must declare at least one credentialSubject field" }]
  | some members =>
    (Json.entries members).filterMap fun (name, declaration) =>
      validateCredentialSubjectDeclaration name declaration

def validateSchema (schema : Json.Members) : List FormatValidationIssue :=
  validateContext (Json.get schema "@context") ++ validateType (Json.get schema "type") ++
    validateCredentialSubject (Json.get schema "credentialSubject")

def wording : Wording :=
  { noun := "Attribute"
    duplicate := "duplicate attribute"
    place := "W3C VC credentialSubject schema"
    required := "attribute" }

def readValidCredentialSubject (schema : Json.Members) : Option (List (String × ClaimType)) :=
  readDeclarations (Json.get schema "credentialSubject")

def validateAttributes (schema : Json.Members) (attributes : List CredentialAttribute) :
    List FormatValidationIssue :=
  match readValidCredentialSubject schema with
  | none =>
    [{ field := "credentialSubject"
       expected := "a non-empty object mapping field names to declarations"
       actual := .described (Json.get schema "credentialSubject")
       message := "Cannot validate attributes: W3C VC schema credentialSubject is missing or " ++
        "invalid" }]
  | some fields => validateDeclared wording fields attributes

end W3cVc

/-! ### The registry -/

/-- The two methods of a validator; an error is a `NotImplementedException`. -/
structure FormatValidator where
  format : CredentialFormat
  validateSchema : Json.Members → Except String (List FormatValidationIssue)
  validateAttributes :
    Json.Members → List CredentialAttribute → Except String (List FormatValidationIssue)

def anonCredsFormatValidator : FormatValidator :=
  { format := .anonCreds
    validateSchema := fun schema => .ok (AnonCreds.validateSchema schema)
    validateAttributes := fun schema attributes =>
      .ok (AnonCreds.validateAttributes schema attributes) }

def sdJwtFormatValidator : FormatValidator :=
  { format := .sdJwtVc
    validateSchema := fun schema => .ok (SdJwt.validateSchema schema)
    validateAttributes := fun schema attributes =>
      .ok (SdJwt.validateAttributes schema attributes) }

def w3cVcFormatValidator : FormatValidator :=
  { format := .jsonLd
    validateSchema := fun schema => .ok (W3cVc.validateSchema schema)
    validateAttributes := fun schema attributes =>
      .ok (W3cVc.validateAttributes schema attributes) }

def mdlPending (what : String) : String :=
  "mDL " ++ what ++ " validation is not yet implemented (ISO/IEC 18013-5 namespace " ++
    "and doctype rules are pending a capability decision)"

def mdlFormatValidator : FormatValidator :=
  { format := .mdl
    validateSchema := fun _ => .error (mdlPending "schema")
    validateAttributes := fun _ _ => .error (mdlPending "attribute") }

/-- What `CredentialPortsModule.onModuleInit` registers. -/
def formatValidatorRegistry : List FormatValidator :=
  [anonCredsFormatValidator, sdJwtFormatValidator, w3cVcFormatValidator, mdlFormatValidator]

/-- `has` and `resolve`. -/
def resolve (format : CredentialFormat) : Option FormatValidator :=
  formatValidatorRegistry.find? fun validator => decide (validator.format = format)

end VcCommonService.Credentials
