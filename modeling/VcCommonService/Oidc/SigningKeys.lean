import VcCommonService.Auth.Token
import VcCommonService.Lib.Pretty
import VcCommonService.Lib.Uuid

/-!
# Signing keys

The key set that the provider boots from, and the script that writes it. What the script writes
passes the checks of the server and its own.
-/

namespace VcCommonService.OidcKeys

open Lib Lib.JsonText

/-! ### JSON web keys -/

/-- What the export of an RSA private key has besides `kty`. -/
structure PrivateJwk where
  n : String
  e : String
  d : String
  p : String
  q : String
  dp : String
  dq : String
  qi : String
  private_part : d ≠ ""

def PrivateJwk.members (jwk : PrivateJwk) : List (String × String) :=
  [("kty", "RSA"), ("n", jwk.n), ("e", jwk.e), ("d", jwk.d), ("p", jwk.p), ("q", jwk.q),
    ("dp", jwk.dp), ("dq", jwk.dq), ("qi", jwk.qi)]

def generateSigningKey (jwk : PrivateJwk) (kid : Uuid) : Json :=
  .obj (stringMembers (jwk.members ++ [("kid", kid.1), ("alg", "RS256"), ("use", "sig")]))

def member : Json → String → Option Json
  | .obj members, name => Json.get members name
  | _, _ => none

/-- The array `keys` of a document, where it has one that is not empty. -/
def keysOf (doc : Json) : Option (List Json) :=
  match member doc "keys" with
  | some (.arr (key :: keys)) => some (key :: keys)
  | _ => none

/-! ### `OidcKeysService` -/

def validateKey (key : Json) : Except String Unit :=
  if key = .null then .error "Cannot read properties of null (reading 'kid')"
  else
    match member key "kid" with
    | some (.str kid) =>
      if kid = "" then .error "Every OIDC signing key must have a \"kid\"."
      else if member key "kty" ≠ some (.str "RSA") then
        .error ("Unsupported OIDC signing key type \"" ++
          ((member key "kty").map Auth.textOf).getD "undefined" ++
          "\"; only RSA (RS256) keys are supported.")
      else
        match Js.truthy ((member key "d").bind Auth.asString) with
        | some _ => .ok ()
        | none => .error ("Every OIDC signing key must include private key material " ++
            "(the \"d\" parameter); a public-only JWKS cannot sign tokens.")
    | _ => .error "Every OIDC signing key must have a \"kid\"."

def validate (jwks : Json) : Except String Unit :=
  match keysOf jwks with
  | none => .error "OIDC JWKS file must contain a non-empty \"keys\" array."
  | some keys => forM keys validateKey

/-- `JSON.parse(readFileSync(path, 'utf8'))`; the text of the error is the runtime's. -/
def readJson (cause : Option String → String) (content : Option String) : Except String Json :=
  match content.bind parse with
  | some doc => .ok doc
  | none => .error (cause content)

def readAndValidate (cause : Option String → String) (content : Option String) :
    Except String Json :=
  match readJson cause content with
  | .error message => .error ("Unable to parse OIDC JWKS file: " ++ message)
  | .ok doc => (validate doc).map fun _ => doc

/-! ### `generate-oidc-keys.mjs` -/

structure Args where
  append : Bool
  path : Option String
deriving DecidableEq

def parseArg (args : Args) (arg : String) : Except String Args :=
  if arg = "--append" then .ok { args with append := true }
  else if "--".toList.isPrefixOf arg.toList then .error ("Unknown flag: " ++ arg)
  else
    match args.path with
    | none => .ok { args with path := some arg }
    | some _ => .error ("Unexpected extra argument: " ++ arg)

def parseArgs (argv : List String) : Except String Args := argv.foldlM parseArg ⟨false, none⟩

def checkKeys (path : String) (seenKids : List String) : List Json → Except String Unit
  | [] => .ok ()
  | key :: keys =>
    match member key "kid", member key "d" with
    | some (.str kid), some (.str _) =>
      if kid ∈ seenKids then
        .error ("--append target \"" ++ path ++ "\" already contains duplicate kid \"" ++ kid ++
          "\".")
      else checkKeys path (Js.add seenKids kid) keys
    | _, _ => .error ("--append target \"" ++ path ++ "\" contains a key without private " ++
        "material (each key needs a \"kid\" and a \"d\"); it looks like a public JWKS.")

def readExistingKeys (path : String) (document : Except String Json) :
    Except String (List Json) :=
  match document with
  | .error message => .error ("--append requires an existing JWKS at \"" ++ path ++
      "\", but it could not be read: " ++ message)
  | .ok parsed =>
    match keysOf parsed with
    | none => .error ("--append target \"" ++ path ++
        "\" is not a valid JWKS (expected a non-empty \"keys\" array).")
    | some keys => (checkKeys path [] keys).map fun _ => keys

def kids (keys : List Json) : List (Option Json) := keys.map fun key => member key "kid"

def hasKid (keys : List Json) (kid : Uuid) : Bool := decide (some (.str kid.1) ∈ kids keys)

/-- The keys that a run is going to write. -/
def newKeys (args : Args) (newKey : Json) (kid : Uuid) (document : Except String Json) :
    Except String (List Json) :=
  if args.append then
    match Js.truthy args.path with
    | none => .error "--append requires a JWKS file path to read and update."
    | some path =>
      match readExistingKeys path document with
      | .error message => .error message
      | .ok existing =>
        if hasKid existing kid then
          .error "Generated kid collided with an existing key; re-run."
        else .ok (newKey :: existing)
  else .ok [newKey]

def jwksDocument (keys : List Json) : Json := .obj [("keys", .arr keys)]

/-- The text of a key set that `generate-oidc-keys.mjs` writes. -/
def jwksText (keys : List Json) : String := pretty "  " (jwksDocument keys) ++ "\n"

/-! ### Key sets -/

structure SigningKey (key : Json) : Prop where
  value : IsValue key
  kid : ∃ kid, member key "kid" = some (.str kid) ∧ kid ≠ ""
  kty : member key "kty" = some (.str "RSA")
  d : ∃ d, member key "d" = some (.str d) ∧ d ≠ ""

structure KeySet (keys : List Json) : Prop where
  nonempty : keys ≠ []
  signing : ∀ key ∈ keys, SigningKey key
  nodup : (kids keys).Nodup

theorem signingKey_generated (jwk : PrivateJwk) (kid : Uuid) :
    SigningKey (generateSigningKey jwk kid) where
  value := by
    refine isValue_stringMembers ?_ ?_
    · simp [PrivateJwk.members]
    · simp only [PrivateJwk.members, List.cons_append, List.nil_append, List.forall_mem_cons]
      decide
  kid := ⟨kid.1, rfl, kid.ne_empty⟩
  kty := rfl
  d := ⟨jwk.d, rfl, jwk.private_part⟩

theorem asString_eq_some {v : Json} {s : String} (h : Auth.asString v = some s) : v = .str s := by
  cases v with
  | str t => exact congrArg Json.str (Option.some.inj h)
  | _ => cases h

theorem validateKey_iff {key : Json} (hvalue : IsValue key) :
    validateKey key = .ok () ↔ SigningKey key := by
  constructor
  · intro h
    unfold validateKey at h
    split at h
    · cases h
    split at h
    · next kid hkid =>
      split at h
      · cases h
      next hne =>
      split at h
      · cases h
      next hkty =>
      split at h
      · next d hd =>
        obtain ⟨htext, hdne⟩ := Js.truthy_eq_some hd
        obtain ⟨v, hv, hs⟩ := Option.bind_eq_some_iff.mp htext
        exact ⟨hvalue, ⟨kid, hkid, hne⟩, not_not.mp hkty, ⟨d, asString_eq_some hs ▸ hv, hdne⟩⟩
      · cases h
    · cases h
  · rintro ⟨-, ⟨kid, hkid, hne⟩, hkty, ⟨d, hd, hdne⟩⟩
    have hnull : key ≠ .null := by
      rintro rfl
      cases hkid
    have htext : Js.truthy ((member key "d").bind Auth.asString) = some d := by
      rw [hd]
      exact Js.truthy_some hdne
    rw [validateKey, if_neg hnull, hkid]
    dsimp only
    rw [if_neg hne, if_neg (not_not.mpr hkty), htext]

theorem validate_iff {doc : Json} {keys : List Json} (hkeys : keysOf doc = some keys)
    (hvalues : ∀ key ∈ keys, IsValue key) :
    validate doc = .ok () ↔ ∀ key ∈ keys, SigningKey key := by
  rw [validate, hkeys]
  dsimp only
  clear hkeys
  induction keys with
  | nil => exact ⟨fun _ => nofun, fun _ => rfl⟩
  | cons key keys ih =>
    obtain ⟨hvalue, hvalues⟩ := List.forall_mem_cons.mp hvalues
    rw [List.forall_mem_cons, ← ih hvalues, ← validateKey_iff hvalue, List.forM_cons]
    cases validateKey key with
    | error message => exact ⟨nofun, fun h => nomatch h.1⟩
    | ok u => exact ⟨fun h => ⟨rfl, h⟩, fun h => h.2⟩

theorem checkKeys_ok (path : String) {keys : List Json} {seen : List String}
    (hkeys : ∀ key ∈ keys, SigningKey key) (hnodup : (kids keys).Nodup)
    (hseen : ∀ kid ∈ seen, some (.str kid) ∉ kids keys) : checkKeys path seen keys = .ok () := by
  induction keys generalizing seen with
  | nil => rfl
  | cons key keys ih =>
    obtain ⟨⟨-, ⟨kid, hkid, -⟩, -, ⟨d, hd, -⟩⟩, hkeys⟩ := List.forall_mem_cons.mp hkeys
    obtain ⟨hnew, hnodup⟩ := List.nodup_cons.mp hnodup
    have hmem : kid ∉ seen := by
      intro h
      refine hseen kid h ?_
      rw [← hkid]
      exact List.mem_cons_self ..
    have htail : ∀ kid' ∈ Js.add seen kid, some (.str kid') ∉ kids keys := by
      intro kid' hmem'
      rcases (Js.mem_add seen kid kid').mp hmem' with h | rfl
      · exact fun hin => hseen kid' h (List.mem_cons_of_mem _ hin)
      · rw [← hkid]
        exact hnew
    rw [checkKeys, hkid, hd]
    dsimp only
    rw [if_neg hmem]
    exact ih hkeys hnodup htail

/-! ### What is written can be read -/

theorem allValues_of_forall {keys : List Json} (h : ∀ key ∈ keys, IsValue key) :
    AllValues keys := by
  induction keys with
  | nil => trivial
  | cons key keys ih =>
    obtain ⟨hkey, hkeys⟩ := List.forall_mem_cons.mp h
    exact ⟨hkey, ih hkeys⟩

theorem isValue_jwksDocument {keys : List Json} (h : ∀ key ∈ keys, IsValue key) :
    IsValue (jwksDocument keys) := by
  have horder : ownOrder [("keys", Json.arr keys)] = [("keys", Json.arr keys)] := by
    refine ownOrder_of_names fun m hm => ?_
    have hindex : arrayIndex "keys" = none := by decide
    rw [List.mem_singleton.mp hm]
    exact hindex
  exact ⟨List.nodup_singleton _, horder, allValues_of_forall h, trivial⟩

theorem parse_jwksText {keys : List Json} (h : ∀ key ∈ keys, IsValue key) :
    parse (jwksText keys) = some (jwksDocument keys) := by
  have hindent : Blank "  ".toList := by decide
  have hending : Blank "\n".toList := by decide
  exact parse_pretty hindent (isValue_jwksDocument h) hending

theorem keysOf_jwksDocument {keys : List Json} (h : keys ≠ []) :
    keysOf (jwksDocument keys) = some keys := by
  cases keys with
  | nil => exact absurd rfl h
  | cons key keys => rfl

end VcCommonService.OidcKeys
