import VcCommonService.Common
import VcCommonService.Lib.Js
import VcCommonService.Lib.Json

/-!
# Time to live of operations (`operation-ttl.util.ts`)

The system defaults, the per-tenant overrides under `config.operation_ttl`, and the
expiry of an operation as a function of its state and of its first view. Durations
are ECMAScript numbers, so a product or a sum rounds and may overflow.
-/

namespace VcCommonService.Operations
open Lib

inductive OperationState where
  | pending
  | processing
  | completed
  | failed
  deriving Repr, DecidableEq

def hourMs : ℚ := 60 * 60 * 1000
def dayMs : ℚ := 24 * hourMs

inductive OperationTtlKey where
  | completedViewed
  | completedUnviewed
  | failedViewed
  | failedUnviewed
  | pendingStale
  deriving Repr, DecidableEq

def defaultOperationTtlMs : OperationTtlKey → Number
  | .completedViewed => .finite (1 * hourMs)
  | .completedUnviewed => .finite (72 * hourMs)
  | .failedViewed => .finite (24 * hourMs)
  | .failedUnviewed => .finite (7 * dayMs)
  | .pendingStale => .finite (24 * hourMs)

/-- `DEFAULT_CREATED_TTL_MS`, which no tenant can override. -/
def defaultCreatedTtlMs : Number := .finite (72 * hourMs)

def configKey : OperationTtlKey → String
  | .completedViewed => "completed_viewed"
  | .completedUnviewed => "completed_unviewed"
  | .failedViewed => "failed_viewed"
  | .failedUnviewed => "failed_unviewed"
  | .pendingStale => "pending_stale"

/-! ### `parseDurationMs` -/

/-- `UNIT_TO_MS` on the lower-cased unit; the pattern admits exactly these units. -/
def unitToMs (unit : List Char) : Option ℚ :=
  match unit.map Char.toLower with
  | ['m', 's'] => some 1
  | ['s'] => some 1000
  | ['m'] => some (60 * 1000)
  | ['h'] => some hourMs
  | ['d'] => some dayMs
  | _ => none

def digitsValue (digits : List Char) : ℕ :=
  digits.foldl (fun n c => 10 * n + (c.toNat - '0'.toNat)) 0

/-- `DURATION_PATTERN`: digits, optionally a point and more digits, then a unit. The
result is the amount as written and the milliseconds of the unit. -/
def durationPattern (s : List Char) : Option (ℚ × ℚ) :=
  let whole := s.takeWhile Char.isDigit
  if whole = [] then none
  else match s.dropWhile Char.isDigit with
    | '.' :: rest =>
      let fraction := rest.takeWhile Char.isDigit
      if fraction = [] then none
      else do
        let multiplier ← unitToMs (rest.dropWhile Char.isDigit)
        return (digitsValue whole + digitsValue fraction / 10 ^ fraction.length, multiplier)
    | rest => do
      let multiplier ← unitToMs rest
      return (digitsValue whole, multiplier)

def parseDurationMs : Json → Option Number
  | .num value => if value.isFinite && value.isPositive then some value else none
  | .str value => do
    let (written, multiplier) ← durationPattern (Js.trim value).toList
    let amount := Number.ofRat written
    if amount.isFinite && amount.isPositive then some (amount.mul (.finite multiplier)) else none
  | _ => none

example : parseDurationMs (.str " 1.5H ") = some (.finite 5400000) := by decide +kernel

/-! ### `resolveOperationTtlMs` and `computeOperationExpiresAt` -/

/-- Own members of `operation_ttl`; an array has none of the keys that are read. -/
def rawOverrides (tenantConfig : Option Json.Members) : Json.Members :=
  match tenantConfig.bind (Json.get · "operation_ttl") with
  | some (.obj members) => members
  | _ => []

def resolveOperationTtlMs (tenantConfig : Option Json.Members) (key : OperationTtlKey) : Number :=
  ((Json.get (rawOverrides tenantConfig) (configKey key)).bind parseDurationMs).getD
    (defaultOperationTtlMs key)

def isTerminalOperationState (state : OperationState) : Bool :=
  decide (state = .completed ∨ state = .failed)

def plusMs (date : Time) (ms : Number) : Date := Date.ofNumber ((Date.getTime (some date)).add ms)

def computeOperationExpiresAt (state : OperationState) (createdAt : Time) (viewedAt : Option Time)
    (tenantConfig : Option Json.Members) : Date :=
  let ttl := resolveOperationTtlMs tenantConfig
  match state with
  | .pending => plusMs createdAt (ttl .pendingStale)
  | .processing => plusMs createdAt defaultCreatedTtlMs
  | .completed => match viewedAt with
    | some viewedAt => plusMs viewedAt (ttl .completedViewed)
    | none => plusMs createdAt (ttl .completedUnviewed)
  | .failed => match viewedAt with
    | some viewedAt => plusMs viewedAt (ttl .failedViewed)
    | none => plusMs createdAt (ttl .failedUnviewed)

theorem computeOperationExpiresAt_not_terminal {state : OperationState}
    (h : isTerminalOperationState state = false) (createdAt : Time) (viewedAt : Option Time)
    (tenantConfig : Option Json.Members) :
    computeOperationExpiresAt state createdAt viewedAt tenantConfig =
      computeOperationExpiresAt state createdAt none tenantConfig := by
  cases state with
  | pending => rfl
  | processing => rfl
  | completed => simp [isTerminalOperationState] at h
  | failed => simp [isTerminalOperationState] at h

end VcCommonService.Operations
