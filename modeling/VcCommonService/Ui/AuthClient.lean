import VcCommonService.Lib.Base64
import VcCommonService.Lib.JsonText
import VcCommonService.Lib.Run

/-!
# The auth client of the browser (`oidc-auth.ts`)

The client that `createOidcAuthClient` returns. A call runs until it waits for the library or for a
request; what is then settled, and in which order, is up to the environment. Silent renews and the
store phase of a tenant switch take turns through `serialize`: each takes a ticket, and the one
whose ticket is served runs. Signing out takes none.
-/

namespace VcCommonService.Ui
open Lib

/-! ### Users and tokens -/

/-- `User` of the library. -/
structure User where
  accessToken : String
  refreshToken : Option String
  tokenType : String
  expiresAt : Option ℤ
  profile : Json.Members
  idToken : Option String
  sessionState : Option String
  scope : Option String
  deriving DecidableEq

structure AuthUser where
  sub : String
  name : Option String
  email : Option String
  tenantId : Option String
  roles : List String
  deriving Repr, DecidableEq

inductive AuthStatus where
  | loading
  | authenticated
  | unauthenticated
  deriving Repr, DecidableEq

structure AuthState where
  status : AuthStatus
  user : Option AuthUser
  deriving Repr, DecidableEq

def stringClaim (profile : Json.Members) (claim : String) : Option String :=
  match Json.get profile claim with
  | some (.str s) => some s
  | _ => none

def toRoles (profile : Json.Members) : List String :=
  match Json.get profile "roles" with
  | some (.arr roles) => roles.filterMap fun
    | .str role => some role
    | _ => none
  | _ => (stringClaim profile "tenant_role").toList

def toAuthUser (user : User) : AuthUser :=
  { sub := (stringClaim user.profile "sub").getD ""
    name := stringClaim user.profile "name"
    email := stringClaim user.profile "email"
    tenantId := stringClaim user.profile "tenant_id"
    roles := toRoles user.profile }

/-- `token.split('.')[1]`. -/
def payloadSegment (token : String) : String :=
  String.ofList (((token.toList.dropWhile fun c => c ≠ '.').drop 1).takeWhile fun c => c ≠ '.')

/-- `padEnd` to a multiple of four. -/
def padBase64 (segment : String) : String :=
  segment ++ String.ofList (List.replicate ((4 - segment.length % 4) % 4) '=')

/-- A payload that is no object contributes no claims. -/
def decodeJwtPayload (token : String) : Json.Members :=
  let standard := String.ofList ((payloadSegment token).toList.map fun c =>
    if c = '-' then '+' else if c = '_' then '/' else c)
  match (Base64.atob (padBase64 standard)).bind JsonText.parse with
  | some (.obj members) => members
  | _ => []

/-- `{ ...base, ...more }`. -/
def spread (base more : Json.Members) : Json.Members :=
  more.reverse.foldl (fun members m => Json.set members m.1 m.2) base

/-- The response of `switch-tenant`. -/
structure SwitchTokens where
  accessToken : String
  refreshToken : String
  tokenType : String
  expiresIn : ℤ
  deriving Repr, DecidableEq

/-- The user that a switch stores; `now` in seconds. -/
def switchedUser (currentUser : Option User) (tokens : SwitchTokens) (now : ℤ) : User :=
  { accessToken := tokens.accessToken
    refreshToken := some tokens.refreshToken
    tokenType := tokens.tokenType
    expiresAt := some (now + tokens.expiresIn)
    profile := spread ((currentUser.map User.profile).getD []) (decodeJwtPayload tokens.accessToken)
    idToken := currentUser.bind User.idToken
    sessionState := currentUser.bind User.sessionState
    scope := currentUser.bind User.scope }

/-! ### The client -/

/-- `stored` is the user in the session storage. Of the queue only `served`, the ticket whose turn
it is, and `tickets`, the next one, matter. `signedOut` is history: a sign-out has resolved and no
login has been completed since. -/
structure Client where
  currentUser : Option User := none
  currentState : AuthState := ⟨.loading, none⟩
  stored : Option User
  served : ℕ := 0
  tickets : ℕ := 0
  switchStorePending : Option ℕ := none
  switchInFlight : Bool := false
  signedOut : Bool := false
  deriving DecidableEq

def stateOf : Option User → AuthState
  | some user => ⟨.authenticated, some (toAuthUser user)⟩
  | none => ⟨.unauthenticated, none⟩

def Client.setCurrentUser (c : Client) (user : Option User) : Client :=
  { c with currentUser := user, currentState := stateOf user }

def Client.getAccessToken (c : Client) : Option String := c.currentUser.map User.accessToken

/-- The library stores a user and raises `userLoaded`. -/
def Client.load (c : Client) (user : User) : Client :=
  { c.setCurrentUser (some user) with stored := some user }

/-- `removeUser` clears the storage and raises `userUnloaded`. -/
def Client.removeUser (c : Client) : Client := { c.setCurrentUser none with stored := none }

/-- What `signinSilent` settles with. -/
inductive RenewOutcome where
  | user (u : User)
  | null
  | rejected
  deriving DecidableEq

def Client.renew (c : Client) : RenewOutcome → Client
  | .user u => c.load u
  | .null => c.setCurrentUser none
  | .rejected => c

/-- The token of a renew; an empty one counts as none. -/
def RenewOutcome.token : RenewOutcome → Option String
  | .user u => if u.accessToken = "" then none else some u.accessToken
  | _ => none

/-! ### Calls -/

/-- Where a call is. The restoration of the stored user at the start is one of them. -/
inductive Call where
  | idle
  | restoring (found : Option User)
  | restored
  | renewQueued (ticket : ℕ)
  | renewing (ticket : ℕ) (refreshToken : Option String)
  | renewWaiting (switch : ℕ)
  | renewed (token : Option String)
  | switchRequested (tenantId : String)
  | storeQueued (ticket : ℕ) (tokens : SwitchTokens)
  | storing (ticket : ℕ) (next : User)
  | switched
  | switchFailed
  | revoking
  | signingOut
  | redirecting
  | clearing
  | signedOut
  | completing
  | completed
  | loginFailed
  deriving DecidableEq

/-- What a caller does, and what the environment settles. -/
inductive Event where
  | refresh
  | switchTenant (tenantId : String)
  | logout
  | clearSession
  | completeLogin
  | settle
  | start (now : ℤ)
  | renewSettled (outcome : RenewOutcome)
  | switchResponse (tokens : Option SwitchTokens)
  | storeSettled (ok : Bool)
  | revokeSettled (reloaded : Option User)
  | signoutSettled (ok : Bool)
  | loginSettled (user : Option User)
  deriving DecidableEq

/-- The end of `refresh` after its turn. The check of `switchStorePending` is made before the next
operation in the queue begins. -/
def afterRenew (c : Client) (outcome : RenewOutcome) : Call :=
  match outcome.token with
  | some token => .renewed (some token)
  | none =>
    match c.switchStorePending with
    | some switch => .renewWaiting switch
    | none => .renewed none

def Client.endSwitch (c : Client) : Client :=
  { c with switchStorePending := none, switchInFlight := false }

def Client.signOut (c : Client) : Client := { c with signedOut := true }

def act (c : Client) : Call → Event → Option (Client × Call)
  | .restoring found, .settle => some (c.setCurrentUser found, .restored)
  | .idle, .refresh => some ({ c with tickets := c.tickets + 1 }, .renewQueued c.tickets)
  | .renewQueued ticket, .start _ =>
    if c.served = ticket then some (c, .renewing ticket (c.stored.bind User.refreshToken))
    else none
  | .renewing ticket _, .renewSettled outcome =>
    let renewed := { c.renew outcome with served := ticket + 1 }
    some (renewed, afterRenew renewed outcome)
  | .renewWaiting switch, .settle =>
    if switch < c.served then some (c, .renewed c.getAccessToken) else none
  | .idle, .switchTenant tenantId =>
    -- 'A tenant switch is already in progress'
    if c.switchInFlight then some (c, .switchFailed)
    else some ({ c with switchInFlight := true }, .switchRequested tenantId)
  | .switchRequested _, .switchResponse none =>
    some ({ c with switchInFlight := false }, .switchFailed)
  | .switchRequested _, .switchResponse (some tokens) =>
    some ({ c with tickets := c.tickets + 1, switchStorePending := some c.tickets },
      .storeQueued c.tickets tokens)
  | .storeQueued ticket tokens, .start now =>
    if c.served = ticket then some (c, .storing ticket (switchedUser c.currentUser tokens now))
    else none
  | .storing ticket next, .storeSettled true =>
    some ({ (c.load next).endSwitch with served := ticket + 1 }, .switched)
  | .storing ticket _, .storeSettled false =>
    some ({ c.endSwitch with served := ticket + 1 }, .switchFailed)
  | .idle, .logout => some (c, .revoking)
  | .revoking, .revokeSettled reloaded =>
    -- a failure is only logged
    some (match reloaded with
      | some user => c.load user
      | none => c, .signingOut)
  | .signingOut, .settle => some (c.removeUser, .redirecting)
  | .signingOut, .signoutSettled false => some (c.removeUser.signOut, .signedOut)
  | .redirecting, .signoutSettled true => some (c.signOut, .signedOut)
  | .redirecting, .signoutSettled false => some (c.removeUser.signOut, .signedOut)
  | .idle, .clearSession => some (c, .clearing)
  | .clearing, .settle => some (c.removeUser.signOut, .signedOut)
  | .idle, .completeLogin => some (c, .completing)
  | .completing, .loginSettled (some user) =>
    some ({ c.load user with signedOut := false }, .completed)
  | .completing, .loginSettled none => some (c, .loginFailed)
  | _, _ => none

abbrev World := Run.World Client Call

def step : World → ℕ × Event → Option World := Run.interleave act

/-- The client as it is created over a session storage; call 0 is its restoration. -/
def created (stored : Option User) : World :=
  ⟨{ stored := stored }, fun i => if i = 0 then .restoring stored else .idle⟩

end VcCommonService.Ui
