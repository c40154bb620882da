import VcCommonService.Auth.Scopes
import VcCommonService.Lib.Stringify
import VcCommonService.Lib.Words

/-!
# From the header to the request context (`jwt-validation.service.ts`, `guards/`)

`extractBearerToken` reads the header, `normalizeAuthPayload` turns the verified payload into
the context that `ScopeGuard` and `TenantGuard` decide on. Verifying the signature is left to
the library `jose`.
-/

namespace VcCommonService.Auth
open Lib

/-! ### `extractBearerToken` -/

/-- `split(/\s+/)`. -/
def splitSpaces (s : String) : List String :=
  (Words.splitRuns Js.isWhitespace false s.toList).map String.ofList

/-- `toLowerCase`, of which only the ASCII letters matter for a comparison with `bearer`. -/
def toLowerCase (s : String) : String := String.ofList (s.toList.map Char.toLower)

def extractBearerToken (authorizationHeader : Option String) : Except ServiceError String :=
  match Js.truthy authorizationHeader with
  | none => .error (.authenticationRequired "invalid_request" "Authorization header is required")
  | some header =>
    match splitSpaces (Js.trim header) with
    | [scheme, token] =>
      if toLowerCase scheme ≠ "bearer" ∨ token = "" then
        .error (.authenticationRequired "invalid_request"
          "Authorization header must use Bearer scheme")
      else .ok token
    | _ => .error (.authenticationRequired "invalid_request"
        "Authorization header must use Bearer scheme")

/-! ### `normalizeAuthPayload` -/

mutual
/-- `String(value)`. -/
def textOf : Json → String
  | .null => "null"
  | .bool b => if b then "true" else "false"
  | .num n => String.ofList (JsonText.numberText n)
  | .str s => s
  | .arr elements => String.intercalate "," (textsOf elements)
  | .obj _ => "[object Object]"

/-- Elements of a joined array; `null` is joined as the empty string. -/
def textsOf : List Json → List String
  | [] => []
  | .null :: elements => "" :: textsOf elements
  | element :: elements => textOf element :: textsOf elements
end

/-- `value ?? ''`. -/
def orEmpty : Option Json → Json
  | none | some .null => .str ""
  | some value => value

def isUuidPatternChar (i : ℕ) (c : Char) : Bool :=
  if i = 8 || i = 13 || i = 18 || i = 23 then c = '-'
  else if i = 14 then '1' ≤ c && c ≤ '8'
  else if i = 19 then ['8', '9', 'a', 'b', 'A', 'B'].contains c
  else ('0' ≤ c && c ≤ '9') || ('a' ≤ c && c ≤ 'f') || ('A' ≤ c && c ≤ 'F')

/-- `UUID_PATTERN`. -/
def isUuidPattern (s : String) : Bool :=
  s.toList.length = 36 && s.toList.zipIdx.all fun (c, i) => isUuidPatternChar i c

def clientSubPrefix : String := "client:"

def resolveTokenType (sub : String) : AuthTokenType :=
  if clientSubPrefix.toList.isPrefixOf sub.toList then .client
  else if isUuidPattern sub then .user
  else .client

def deriveClientIdFromSub (sub : String) : String :=
  if clientSubPrefix.toList.isPrefixOf sub.toList then
    String.ofList (sub.toList.drop clientSubPrefix.length)
  else sub

def asString : Json → Option String
  | .str s => some s
  | _ => none

def readOptionalString (value : Option Json) : Option String := Js.truthy (value.bind asString)

def stringElements (elements : List Json) : List String := elements.filterMap asString

def readScope : Option Json → String
  | some (.str s) => s
  | some (.arr elements) => String.intercalate " " (stringElements elements)
  | _ => ""

def readRoles : Option Json → List String
  | some (.arr elements) => stringElements elements
  | _ => []

/-- `scope.split(/\s+/).filter(Boolean)`. -/
def scopeWords (scope : String) : List String :=
  (Words.words Js.isWhitespace scope.toList).map String.ofList

/-- The claims that the guards and services read, with the client id and the raw scope. -/
structure NormalizedAuth extends AuthContext where
  clientId : Option String
  scope : String
  deriving Repr, DecidableEq

def normalizeAuthPayload (payload : Json.Members) : Except ServiceError NormalizedAuth :=
  let sub := textOf (orEmpty (Json.get payload "sub"))
  if sub = "" then
    .error (.authenticationRequired "invalid_token" "Token is missing sub claim")
  else
    let explicitClientId := readOptionalString (Json.get payload "client_id")
    let tokenType := resolveTokenType sub
    let scope := readScope (Json.get payload "scope")
    .ok
      { sub, tokenType
        clientId := explicitClientId.or
          (if tokenType = .client then some (deriveClientIdFromSub sub) else none)
        tenantId := readOptionalString (Json.get payload "tenant_id")
        roles := readRoles (Json.get payload "roles")
        scope
        scopes := if scope = "" then [] else scopeWords scope }

/-! ### `JwtGuard` -/

/-- What `jwtVerify` or the key lookup throws. -/
inductive VerifyError where
  | authenticationRequired (code message : String)
  | expired
  | other (message : String)
  deriving Repr, DecidableEq

def includes (s searchString : String) : Bool :=
  s.toList.tails.any fun tail => searchString.toList.isPrefixOf tail

def mapJoseError : VerifyError → ServiceError
  | .authenticationRequired code message => .authenticationRequired code message
  | .expired => .authenticationRequired "invalid_token" "Token has expired"
  | .other message =>
    let lowerMessage := toLowerCase message
    if includes lowerMessage "signature" || includes lowerMessage "invalid" ||
        includes lowerMessage "jws" then
      .authenticationRequired "invalid_token" message
    else .authenticationRequired "invalid_token" "Token validation failed"

/-- `JwtGuard.canActivate` with `validateAuthorizationHeader`; `verifyAccessToken` is the check of
signature, issuer, audience and lifetime. -/
def jwtGuard (verifyAccessToken : String → Except VerifyError Json.Members)
    (authorizationHeader : Option String) : Except ServiceError NormalizedAuth := do
  let token ← extractBearerToken authorizationHeader
  let payload ← (verifyAccessToken token).mapError mapJoseError
  normalizeAuthPayload payload

/-! ### `ScopeGuard` and `TenantGuard` -/

inductive GuardException where
  | authenticationRequired (code message : String)
  | insufficientRoles (message : String) (requiredRoles : List String)
  | insufficientScopes (message : String) (requiredScopes : List String)
  | tenantAccessDenied (denied : TenantAccessDenied)
  deriving Repr, DecidableEq

def missingContext : GuardException :=
  .authenticationRequired "invalid_token" "Authenticated request context is missing"

def hasRequiredRoles (tokenRoles requiredRoles : List String) : Bool :=
  requiredRoles.all fun role => tokenRoles.contains role

def hasRequiredScopes (tokenScopes requiredScopes : List String) : Bool :=
  requiredScopes.all fun scope => (expandEffectiveScopes tokenScopes).contains scope

/-- `ScopeGuard.canActivate`; absent metadata of handler and class is `none`. -/
def scopeGuard (auth : Option AuthContext) (requiredRoles requiredScopes : Option (List String)) :
    Except GuardException Unit :=
  match auth with
  | none => .error missingContext
  | some auth =>
    if isPlatformAdmin auth.roles then .ok ()
    else
      let roles := requiredRoles.getD []
      let scopes := requiredScopes.getD []
      if roles = [] ∧ scopes = [] then .ok ()
      else if roles ≠ [] ∧ hasRequiredRoles auth.roles roles = false then
        .error (.insufficientRoles ("Token missing required role: " ++ commaJoin roles) roles)
      else if scopes ≠ [] ∧ hasRequiredScopes auth.scopes scopes = false then
        .error (.insufficientScopes ("Token missing required scope: " ++ commaJoin scopes) scopes)
      else .ok ()

/-- `TenantGuard.canActivate`: the tenant stamped on the request, or the exception. -/
def tenantGuard (auth : Option AuthContext) (param : Option String) :
    Except GuardException (Option TenantId) :=
  match auth with
  | none => .error missingContext
  | some auth =>
    match param.bind fun raw => Js.truthy (some (Js.trim raw)) with
    | none => .ok none
    | some routeTenantId =>
      if isPlatformAdmin auth.roles then .ok (some routeTenantId)
      else
        match Js.truthy auth.tenantId with
        | none => .error (.tenantAccessDenied
            ⟨"Token is missing a tenant_id claim", routeTenantId, none⟩)
        | some tokenTenantId =>
          if tokenTenantId ≠ routeTenantId then
            .error (.tenantAccessDenied
              ⟨"Token tenant_id does not match the requested tenant", routeTenantId,
                some tokenTenantId⟩)
          else .ok (some routeTenantId)

/-! ### The bearer header -/

def Spaces (s : String) : Prop := Words.AllSep Js.isWhitespace s.toList

def NoSpace (s : String) : Prop := Words.Free Js.isWhitespace s.toList

theorem trim_toList (s : String) :
    (Js.trim s).toList = Words.trimSep Js.isWhitespace s.toList := by
  rw [Js.trim, String.toList_ofList, Words.trimSep]

theorem splitSpaces_eq_pair {s a b : String} : splitSpaces s = [a, b] ↔
    ∃ run, s = a ++ run ++ b ∧ NoSpace a ∧ NoSpace b ∧ run ≠ "" ∧ Spaces run := by
  have hmap : splitSpaces s = [a, b] ↔
      Words.splitRuns Js.isWhitespace false s.toList = [a.toList, b.toList] := by
    unfold splitSpaces
    constructor
    · intro h
      have hback := congrArg (List.map String.toList) h
      simpa [Function.comp_def] using hback
    · intro h
      rw [h]
      simp
  rw [hmap, Words.splitRuns_eq_pair]
  constructor
  · rintro ⟨run, htext, ha, hb, hne, hrun⟩
    refine ⟨String.ofList run, ?_, ha, hb, ?_, ?_⟩
    · rw [← String.toList_inj, htext]
      simp
    · intro hnil
      apply hne
      have hlist := congrArg String.toList hnil
      simpa using hlist
    · rw [Spaces, String.toList_ofList]
      exact hrun
  · rintro ⟨run, rfl, ha, hb, hne, hrun⟩
    refine ⟨run.toList, by simp, ha, hb, ?_, hrun⟩
    intro hnil
    exact hne (String.toList_inj.mp hnil)

theorem toLower_whitespace {c : Char} (h : Js.isWhitespace c = true) : c.toLower = c := by
  have hall : ∀ n ∈ Js.whitespace, (Char.ofNat n).toLower = Char.ofNat n := by decide
  have hmem : c.toNat ∈ Js.whitespace := List.contains_iff_mem.mp h
  have heq := hall c.toNat hmem
  rwa [Char.ofNat_toNat] at heq

/-- A word that lowercases to one without whitespace has none itself. -/
theorem noSpace_of_toLower {s t : String} (h : toLowerCase s = t) (ht : NoSpace t) : NoSpace s := by
  intro c hc
  by_contra hspace
  have hc' : Js.isWhitespace c = true := by simpa using hspace
  have hmem : c ∈ t.toList := by
    rw [← h, toLowerCase, String.toList_ofList, List.mem_map]
    exact ⟨c, hc, toLower_whitespace hc'⟩
  rw [ht c hmem] at hc'
  cases hc'

theorem trimmed_pair {a b : List Char} (run : List Char) (ha : Words.Free Js.isWhitespace a) (hane : a ≠ [])
    (hb : Words.Free Js.isWhitespace b) (hbne : b ≠ []) :
    Words.Trimmed Js.isWhitespace (a ++ run ++ b) := by
  constructor
  · intro c hc
    rw [List.append_assoc, List.head?_append_of_ne_nil a hane] at hc
    exact ha c (List.mem_of_mem_head? hc)
  · intro c hc
    rw [List.getLast?_append_of_ne_nil _ hbne] at hc
    exact hb c (List.mem_of_mem_getLast? hc)

/-- A header is accepted exactly when it is the word `bearer`, in any case, and one token, set
off by white space and with any amount of it around; the token is returned as it stands. -/
theorem bearer_accepted_iff (header : Option String) (token : String) :
    extractBearerToken header = .ok token ↔
      ∃ pre scheme run post, header = some (pre ++ scheme ++ run ++ token ++ post) ∧
        Spaces pre ∧ Spaces run ∧ Spaces post ∧ run ≠ "" ∧ toLowerCase scheme = "bearer" ∧
        token ≠ "" ∧ NoSpace token := by
  unfold extractBearerToken
  constructor
  · intro h
    split at h
    · cases h
    next text htext =>
      split at h
      next scheme word hsplit =>
        split at h
        · cases h
        next haccept =>
          rw [not_or, not_not] at haccept
          have hword : word = token := Except.ok.inj h
          subst hword
          obtain ⟨run, hpair, -, htoken, hne, hrun⟩ := splitSpaces_eq_pair.mp hsplit
          obtain ⟨pre, post, hdecompose, hpre, hpost⟩ :=
            Words.trimSep_spec Js.isWhitespace text.toList
          refine ⟨String.ofList pre, scheme, run, String.ofList post, ?_, ?_, hrun, ?_, hne,
            haccept.1, haccept.2, htoken⟩
          · rw [(Js.truthy_eq_some htext).1, Option.some_inj, ← String.toList_inj, hdecompose,
              ← trim_toList, hpair]
            simp
          · rw [Spaces, String.toList_ofList]
            exact hpre
          · rw [Spaces, String.toList_ofList]
            exact hpost
      · cases h
  · rintro ⟨pre, scheme, run, post, rfl, hpre, hrun, hpost, hne, hscheme, htoken, hfree⟩
    have hbearer : NoSpace "bearer" := by
      unfold NoSpace
      decide
    have hschemeFree := noSpace_of_toLower hscheme hbearer
    have hschemeNe : scheme.toList ≠ [] := by
      intro hnil
      rw [String.toList_eq_nil_iff.mp hnil] at hscheme
      revert hscheme
      decide
    have htokenNe : token.toList ≠ [] := mt String.toList_eq_nil_iff.mp htoken
    have htrim : Js.trim (pre ++ scheme ++ run ++ token ++ post) = scheme ++ run ++ token := by
      rw [← String.toList_inj, trim_toList]
      have hmid := Words.trimSep_append hpre hpost
        (trimmed_pair run.toList hschemeFree hschemeNe hfree htokenNe) (by simp [htokenNe])
      simpa using hmid
    have htruthy : Js.truthy (some (pre ++ scheme ++ run ++ token ++ post)) =
        some (pre ++ scheme ++ run ++ token ++ post) := by
      apply Js.truthy_some
      intro hempty
      have hlist := congrArg String.toList hempty
      simp [htokenNe] at hlist
    have hsplit : splitSpaces (scheme ++ run ++ token) = [scheme, token] :=
      splitSpaces_eq_pair.mpr ⟨run, rfl, hschemeFree, hfree, hne, hrun⟩
    rw [htruthy]
    simp [htrim, hsplit, hscheme, htoken]

end VcCommonService.Auth
