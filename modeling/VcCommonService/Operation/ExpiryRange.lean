import VcCommonService.Lib.Calendar
import VcCommonService.Lib.Rounding
import VcCommonService.Operation.Calls

/-!
# Whether an expiry is a date

The parser of durations bounds no duration, a `Date` ends at `8.64e15`. The sum of the two is
rounded to a number first, so that the half of a millisecond past the end still comes down to it.
-/

namespace VcCommonService.Operations
open Lib Calendar

/-! ### Which duration is counted from when -/

def countedFrom (state : OperationState) (createdAt : Time) (viewedAt : Option Time) : Time :=
  if isTerminalOperationState state then viewedAt.getD createdAt else createdAt

def ttlKey (state : OperationState) (viewed : Bool) : Option OperationTtlKey :=
  match state with
  | .pending => some .pendingStale
  | .processing => none
  | .completed => some (if viewed then .completedViewed else .completedUnviewed)
  | .failed => some (if viewed then .failedViewed else .failedUnviewed)

/-- What the configuration says under the key of the state, or the default. -/
def durationMs (tenantConfig : Option Json.Members) (state : OperationState) (viewed : Bool) : Number :=
  match ttlKey state viewed with
  | none => defaultCreatedTtlMs
  | some key => resolveOperationTtlMs tenantConfig key

theorem computeOperationExpiresAt_eq (state : OperationState) (createdAt : Time)
    (viewedAt : Option Time) (tenantConfig : Option Json.Members) :
    computeOperationExpiresAt state createdAt viewedAt tenantConfig =
      plusMs (countedFrom state createdAt viewedAt)
        (durationMs tenantConfig state viewedAt.isSome) := by
  cases state with
  | pending => rfl
  | processing => rfl
  | completed => cases viewedAt <;> rfl
  | failed => cases viewedAt <;> rfl

/-! ### No duration is negative -/

theorem unitToMs_pos {unit : List Char} {multiplier : ℚ} (h : unitToMs unit = some multiplier) :
    0 < multiplier := by
  unfold unitToMs at h
  split at h
  case h_6 => cases h
  all_goals
    obtain rfl := Option.some.inj h
    norm_num [hourMs, dayMs]

theorem durationPattern_pos {s : List Char} {written multiplier : ℚ}
    (h : durationPattern s = some (written, multiplier)) : 0 < multiplier := by
  unfold durationPattern at h
  dsimp only at h
  split at h
  · cases h
  · split at h
    · split at h
      · cases h
      · obtain ⟨m, hm, heq⟩ := Option.bind_eq_some_iff.mp h
        obtain ⟨-, rfl⟩ := Prod.mk.inj (Option.some.inj heq)
        exact unitToMs_pos hm
    · obtain ⟨m, hm, heq⟩ := Option.bind_eq_some_iff.mp h
      obtain ⟨-, rfl⟩ := Prod.mk.inj (Option.some.inj heq)
      exact unitToMs_pos hm

theorem nonneg_of_ofRat {q r : ℚ} (hq : 0 ≤ q) (h : Number.ofRat q = .finite r) : 0 ≤ r := by
  unfold Number.ofRat at h
  split at h
  · obtain rfl := Number.finite.inj h
    exact Number.nearest_nonneg hq
  · cases h

theorem parseDurationMs_nonneg {value : Json} {d : ℚ} (h : parseDurationMs value = some (.finite d)) :
    0 ≤ d := by
  unfold parseDurationMs at h
  split at h
  next value =>
    split at h
    next hvalid =>
      obtain rfl := Option.some.inj h
      exact (of_decide_eq_true (Bool.and_eq_true_iff.mp hvalid).2 : 0 < d).le
    next => cases h
  next value =>
    obtain ⟨⟨written, multiplier⟩, hpattern, h⟩ := Option.bind_eq_some_iff.mp h
    dsimp only at h
    split at h
    next hvalid =>
      obtain ⟨hfinite, hpositive⟩ := Bool.and_eq_true_iff.mp hvalid
      cases hamount : Number.ofRat written with
      | finite amount =>
        rw [hamount] at h hpositive
        have hpos : 0 < amount := of_decide_eq_true hpositive
        have hproduct : 0 ≤ amount * multiplier := (mul_pos hpos (durationPattern_pos hpattern)).le
        exact nonneg_of_ofRat hproduct (Option.some.inj h)
      | infinite negative =>
        rw [hamount] at hfinite
        cases hfinite
      | nan =>
        rw [hamount] at hfinite
        cases hfinite
    next => cases h
  next => cases h

theorem defaultOperationTtlMs_nonneg (key : OperationTtlKey) {d : ℚ}
    (h : defaultOperationTtlMs key = .finite d) : 0 ≤ d := by
  cases key <;>
  · obtain rfl := Number.finite.inj h
    norm_num [hourMs, dayMs]

theorem durationMs_nonneg {tenantConfig : Option Json.Members} {state : OperationState} {viewed : Bool}
    {d : ℚ} (h : durationMs tenantConfig state viewed = .finite d) : 0 ≤ d := by
  unfold durationMs resolveOperationTtlMs at h
  split at h
  next =>
    obtain rfl := Number.finite.inj h
    norm_num [hourMs]
  next key _ =>
    cases hparsed : (Json.get (rawOverrides tenantConfig) (configKey key)).bind parseDurationMs with
    | none =>
      rw [hparsed] at h
      exact defaultOperationTtlMs_nonneg key h
    | some parsed =>
      rw [hparsed] at h
      obtain ⟨value, -, hvalue⟩ := Option.bind_eq_some_iff.mp hparsed
      obtain rfl : parsed = .finite d := h
      exact parseDurationMs_nonneg hvalue

/-! ### When the sum is a date -/

/-- A valid date that is not before `start`. -/
def Usable (start : Time) (expiresAt : Date) : Prop :=
  ∃ t, expiresAt = some t ∧ start ≤ t ∧ IsTime t

/-- A duration that ends no later than half a millisecond after the last date. -/
def Fits (start : Time) (duration : Number) : Prop :=
  ∃ d, duration = .finite d ∧ (start : ℚ) + d ≤ 8640000000000000 + 1 / 2

theorem ofNumber_finite {q : ℚ} {start : Time} (hstart : IsTime start) (hle : (start : ℚ) ≤ q)
    (hq : q ≤ 8640000000000000) : Usable start (Date.ofNumber (.finite q)) := by
  obtain ⟨hlow, hhigh⟩ := hstart
  unfold maxTime at hlow hhigh
  have hlow' : (-8640000000000000 : ℚ) ≤ start := by exact_mod_cast hlow
  have hvalid : |q| ≤ 8640000000000000 := abs_le.mpr ⟨hlow'.trans hle, hq⟩
  refine ⟨_, if_pos hvalid, ?_⟩
  unfold IsTime maxTime
  split
  next hnonneg =>
    have hfloor : start ≤ ⌊q⌋ := Int.le_floor.mpr hle
    have hupper : ⌊q⌋ ≤ 8640000000000000 := by exact_mod_cast (Int.floor_le q).trans hq
    exact ⟨hfloor, hlow.trans hfloor, hupper⟩
  next hneg =>
    have hceil : start ≤ ⌈q⌉ := by exact_mod_cast hle.trans (Int.le_ceil q)
    have hupper : ⌈q⌉ ≤ 8640000000000000 := Int.ceil_le.mpr (by exact_mod_cast hq)
    exact ⟨hceil, hlow.trans hceil, hupper⟩

theorem ofNumber_ofRat {q : ℚ} {t : ℤ} (h : Date.ofNumber (Number.ofRat q) = some t) :
    Number.nearest q ≤ 8640000000000000 := by
  unfold Number.ofRat at h
  split at h
  · unfold Date.ofNumber at h
    dsimp only at h
    split at h
    next hvalid => exact (abs_le.mp hvalid).2
    next => cases h
  · cases h

/-- The last date is even among the doubles next to it, so the half above it rounds down. -/
theorem nearest_le_maxTime_iff (q : ℚ) :
    Number.nearest q ≤ 8640000000000000 ↔ q ≤ 8640000000000000 + 1 / 2 := by
  rcases le_or_gt 0 q with hpos | hneg
  · exact_mod_cast Number.nearest_le_iff (n := 8640000000000000) (by norm_num) (by norm_num)
      (by decide) hpos
  · have hzero : Number.nearest q ≤ 0 := Number.nearest_nonpos hneg.le
    exact iff_of_true (by linarith) (by linarith)

theorem fits_of_plusMs {start t : Time} {duration : Number}
    (h : plusMs start duration = some t) : Fits start duration := by
  cases duration with
  | infinite negative => cases h
  | nan => cases h
  | finite d => exact ⟨d, rfl, (nearest_le_maxTime_iff _).mp (ofNumber_ofRat h)⟩

section Sum

variable {start : Time} (hstart : IsTime start)
include hstart

theorem le_nearest_sum {d : ℚ} (hd : 0 ≤ d) : (start : ℚ) ≤ Number.nearest (start + d) := by
  have hlow : (-8640000000000000 : ℚ) ≤ start := by exact_mod_cast hstart.1
  have hhigh : (start : ℚ) ≤ 8640000000000000 := by exact_mod_cast hstart.2
  refine Number.le_nearest ?_ (le_add_of_nonneg_right hd)
  rw [abs_lt]
  constructor <;> linarith

variable {duration : Number} (hnonneg : ∀ d, duration = .finite d → 0 ≤ d)
include hnonneg

theorem usable_plusMs (h : Fits start duration) : Usable start (plusMs start duration) := by
  obtain ⟨d, rfl, hfits⟩ := h
  have hle := le_nearest_sum hstart (hnonneg d rfl)
  have hupper := (nearest_le_maxTime_iff _).mpr hfits
  have hlow : (-8640000000000000 : ℚ) ≤ start := by exact_mod_cast hstart.1
  have hfinite : |Number.nearest (start + d)| < 2 ^ 1024 :=
    calc |Number.nearest (start + d)| ≤ 8640000000000000 := abs_le.mpr ⟨hlow.trans hle, hupper⟩
      _ < 2 ^ 53 := by norm_num
      _ ≤ 2 ^ 1024 := pow_le_pow_right₀ one_le_two (by decide)
  change Usable start (Date.ofNumber (Number.ofRat (start + d)))
  rw [Number.ofRat, if_pos hfinite]
  exact ofNumber_finite hstart hle hupper

theorem plusMs_usable_iff : Usable start (plusMs start duration) ↔ Fits start duration :=
  ⟨fun ⟨_, h, _⟩ => fits_of_plusMs h, usable_plusMs hstart hnonneg⟩

theorem plusMs_eq_none_iff : plusMs start duration = none ↔ ¬ Fits start duration := by
  constructor
  · rintro hnone hfits
    obtain ⟨t, ht, -⟩ := usable_plusMs hstart hnonneg hfits
    rw [hnone] at ht
    cases ht
  · intro hunfit
    by_contra hsome
    obtain ⟨t, ht⟩ := Option.ne_none_iff_exists'.mp hsome
    exact hunfit (fits_of_plusMs ht)

end Sum

/-! ### Calls -/

def WriteRefused (pc : Call) : Prop := ∀ db, act db pc .next = some (db, invalidTimestamp)

/-- The call computes an expiry that it cannot write: with its next statement, or with the one
after it where a save reads the row first. -/
def Refused (db : Store) (pc : Call) (now : Time) : Prop :=
  ∃ pc', act db pc (.readTenant now) = some (db, pc') ∧
    (WriteRefused pc' ∨ ∀ db', ∃ pc'', act db' pc' .next = some (db', pc'') ∧ WriteRefused pc'')

section Calls

variable {db : Store} {config : Json.Members} (hconfig : db.tenantConfig = some config)

theorem createOperation_ok_iff (input : CreateOperationInput) {now : Time} (hnow : IsTime now)
    (id : String) (createdAt : Time) :
    (∃ op, createOperation input config now id createdAt = .ok op) ↔
      Fits now (durationMs (some config) .pending false) := by
  have hnone := plusMs_eq_none_iff hnow fun d =>
    @durationMs_nonneg (some config) .pending false d
  have hexpires : computeOperationExpiresAt .pending now none (some config) =
      plusMs now (durationMs (some config) .pending false) := computeOperationExpiresAt_eq ..
  unfold createOperation
  rw [hexpires]
  cases hexpiry : plusMs now (durationMs (some config) .pending false) with
  | none =>
    refine iff_of_false ?_ (hnone.mp hexpiry)
    rintro ⟨op, hop⟩
    cases hop
  | some expiresAt =>
    refine iff_of_true ⟨_, rfl⟩ ?_
    by_contra hunfit
    rw [hnone.mpr hunfit] at hexpiry
    cases hexpiry

/-- A view with a date is stamped, or the row is read again. -/
theorem runMarkFirstView_accepted (db : Store) (loaded : Operation) (viewedAt expiresAt : Time) :
    (∃ op, (runMarkFirstView db loaded viewedAt (some expiresAt)).2 = .done (.ok op)) ∨
      (runMarkFirstView db loaded viewedAt (some expiresAt)).2 = .rereading loaded.id := by
  unfold runMarkFirstView
  dsimp only
  split
  · exact Or.inl ⟨_, rfl⟩
  · exact Or.inr rfl

theorem reread_accepted (db : Store) (id : String) :
    act db (.rereading id) .next ≠ some (db, invalidTimestamp) := by
  intro h
  have hread : reread db id = invalidTimestamp := congrArg Prod.snd (Option.some.inj h)
  unfold reread at hread
  split at hread
  · cases hread
  · cases hread

theorem writeRefused_marking_iff (db : Store) (loaded : Operation) (viewedAt : Time) (expiresAt : Date) :
    WriteRefused (.marking loaded viewedAt expiresAt) ↔ expiresAt = none := by
  constructor
  · intro hrefused
    cases expiresAt with
    | none => rfl
    | some expiresAt =>
      exfalso
      have hmark := congrArg Prod.snd (Option.some.inj (hrefused db))
      rcases runMarkFirstView_accepted db loaded viewedAt expiresAt with ⟨op, hop⟩ | hreread
      · cases hop.symm.trans hmark
      · cases hreread.symm.trans hmark
  · rintro rfl db'
    rfl

theorem writeRefused_writing_iff (db : Store) (loaded : Operation) (state : OperationState)
    (result : Option Json) (expiresAt : Date) (row : Operation) :
    WriteRefused (.writing loaded state result expiresAt row) ↔ expiresAt = none := by
  constructor
  · intro hrefused
    cases expiresAt with
    | none => rfl
    | some expiresAt => cases congrArg Prod.snd (Option.some.inj (hrefused db))
  · rintro rfl db'
    rfl

include hconfig

theorem refused_viewing_iff (loaded : Operation) (now : Time) :
    Refused db (.viewing loaded) now ↔
      computeOperationExpiresAt loaded.state loaded.createdAt (some now) (some config) = none := by
  have hcompute : act db (.viewing loaded) (.readTenant now) = some (db, .marking loaded now
      (computeOperationExpiresAt loaded.state loaded.createdAt (some now) (some config))) := by
    change some (db, computeView db loaded now) = _
    rw [computeView, hconfig]
  unfold Refused
  rw [hcompute, ← writeRefused_marking_iff db loaded now]
  constructor
  · rintro ⟨_, hpc, hrefused | hread⟩
    · obtain ⟨-, rfl⟩ := Prod.mk.inj (Option.some.inj hpc)
      exact hrefused
    · obtain ⟨-, rfl⟩ := Prod.mk.inj (Option.some.inj hpc)
      -- no statement of the same call follows the stamp but the one that reads the row again
      obtain ⟨pc'', hnext, hrefused⟩ := hread db
      rw [writeRefused_marking_iff db]
      cases hexpiry : computeOperationExpiresAt loaded.state loaded.createdAt (some now)
        (some config) with
      | none => rfl
      | some expiresAt =>
        rw [hexpiry] at hnext
        have hmark : (runMarkFirstView db loaded now (some expiresAt)).2 = pc'' :=
          congrArg Prod.snd (Option.some.inj hnext)
        rcases runMarkFirstView_accepted db loaded now expiresAt with ⟨op, hop⟩ | hreread
        · rw [← hmark, hop] at hrefused
          cases hrefused db
        · rw [← hmark, hreread] at hrefused
          exact absurd (hrefused db) (reread_accepted db loaded.id)
  · exact fun hrefused => ⟨_, rfl, Or.inl hrefused⟩

theorem refused_transitioning_iff (loaded : Operation) (state : OperationState)
    (result : Option Json) (now : Time) :
    Refused db (.transitioning loaded state result) now ↔
      computeOperationExpiresAt state loaded.createdAt loaded.viewedAt (some config) = none := by
  have hcompute : act db (.transitioning loaded state result) (.readTenant now) =
      some (db, .saving loaded state result
        (computeOperationExpiresAt state loaded.createdAt loaded.viewedAt (some config))) := by
    change some (db, computeTransition db loaded state result) = _
    rw [computeTransition, hconfig]
  unfold Refused
  rw [hcompute, ← writeRefused_writing_iff db loaded state result _ db.operation]
  constructor
  · rintro ⟨_, hpc, hrefused | hread⟩
    · obtain ⟨-, rfl⟩ := Prod.mk.inj (Option.some.inj hpc)
      cases hrefused db
    · obtain ⟨-, rfl⟩ := Prod.mk.inj (Option.some.inj hpc)
      obtain ⟨_, hnext, hrefused⟩ := hread db
      cases hnext
      exact hrefused
  · exact fun hrefused => ⟨_, rfl, Or.inr fun db' => ⟨_, rfl, fun db'' =>
      (writeRefused_writing_iff db loaded state result _ db'.operation).mpr
        ((writeRefused_writing_iff db loaded state result _ _).mp hrefused) db''⟩⟩

end Calls

theorem countedFrom_isTime {state : OperationState} {createdAt : Time} {viewedAt : Option Time}
    (hcreated : IsTime createdAt) (hviewed : ∀ v ∈ viewedAt, IsTime v) :
    IsTime (countedFrom state createdAt viewedAt) := by
  unfold countedFrom
  split
  · cases viewedAt with
    | none => exact hcreated
    | some v => exact hviewed v rfl
  · exact hcreated

/-- The expiry is a date not before the instant it is counted from exactly if the configured duration
ends within the dates; otherwise creating, viewing or completing the operation is refused. -/
theorem operation_expiry_usable_iff (config : Json.Members) {createdAt : Time}
    (hcreated : IsTime createdAt) {viewedAt : Option Time} (hviewed : ∀ v ∈ viewedAt, IsTime v) :
    (∀ tenantConfig state,
      Usable (countedFrom state createdAt viewedAt)
          (computeOperationExpiresAt state createdAt viewedAt tenantConfig) ↔
        Fits (countedFrom state createdAt viewedAt)
          (durationMs tenantConfig state viewedAt.isSome)) ∧
      (∀ input id stored, (∃ op, createOperation input config createdAt id stored = .ok op) ↔
        Fits createdAt (durationMs (some config) .pending false)) ∧
      (∀ db loaded, db.tenantConfig = some config → loaded.createdAt = createdAt →
        ∀ now ∈ viewedAt, Refused db (.viewing loaded) now ↔
          ¬ Fits (countedFrom loaded.state createdAt viewedAt)
            (durationMs (some config) loaded.state true)) ∧
      ∀ db loaded state result now, db.tenantConfig = some config → loaded.createdAt = createdAt →
        loaded.viewedAt = viewedAt →
        (Refused db (.transitioning loaded state result) now ↔
          ¬ Fits (countedFrom state createdAt viewedAt)
            (durationMs (some config) state viewedAt.isSome)) := by
  have hstart := fun state => @countedFrom_isTime state createdAt viewedAt hcreated hviewed
  have hnonneg := fun tenantConfig state viewed d => @durationMs_nonneg tenantConfig state viewed d
  refine ⟨?_, ?_, ?_, ?_⟩
  · intro tenantConfig state
    rw [computeOperationExpiresAt_eq]
    exact plusMs_usable_iff (hstart state) (hnonneg tenantConfig state _)
  · intro input id stored
    exact createOperation_ok_iff input hcreated id stored
  · rintro db loaded hconfig rfl now hnow
    obtain rfl := Option.mem_def.mp hnow
    rw [refused_viewing_iff hconfig, computeOperationExpiresAt_eq]
    exact plusMs_eq_none_iff (hstart loaded.state) (hnonneg (some config) loaded.state true)
  · rintro db loaded state result now hconfig rfl rfl
    rw [refused_transitioning_iff hconfig, computeOperationExpiresAt_eq]
    exact plusMs_eq_none_iff (hstart state) (hnonneg (some config) state _)

def pendingStaleConfig (ms : Number) : Json.Members :=
  [("operation_ttl", .obj [("pending_stale", .num ms)])]

/-- An hour from November 2023 on. -/
theorem operation_expiry_usable_hour :
    Usable 1700000000000 (computeOperationExpiresAt .pending 1700000000000 none
      (some (pendingStaleConfig (.finite 3600000)))) := by
  have hcreated : IsTime 1700000000000 := by decide
  have hviewed : ∀ v ∈ (none : Option Time), IsTime v := nofun
  have hfits : Fits 1700000000000 (.finite 3600000) := ⟨3600000, rfl, by norm_num⟩
  have hduration : durationMs (some (pendingStaleConfig (.finite 3600000))) .pending false =
      .finite 3600000 := by
    decide +kernel
  refine ((operation_expiry_usable_iff (pendingStaleConfig (.finite 3600000)) hcreated hviewed).1 _
    .pending).mpr ?_
  rw [Option.isSome_none, hduration]
  exact hfits

/-- `pending_stale: 1e16` -/
theorem operation_expiry_not_usable :
    ¬ ∀ (tenantConfig : Option Json.Members) (state : OperationState) (createdAt : Time)
      (viewedAt : Option Time), IsTime createdAt → (∀ v ∈ viewedAt, IsTime v) →
      Usable (countedFrom state createdAt viewedAt)
        (computeOperationExpiresAt state createdAt viewedAt tenantConfig) := by
  intro h
  have hcreated : IsTime 1700000000000 := by decide
  obtain ⟨t, ht, -⟩ := h (some (pendingStaleConfig (.finite 10000000000000000))) .pending
    1700000000000 none hcreated nofun
  have hinvalid : computeOperationExpiresAt .pending 1700000000000 none
      (some (pendingStaleConfig (.finite 10000000000000000))) = none := by
    decide +kernel
  rw [hinvalid] at ht
  cases ht

end VcCommonService.Operations
