import VcCommonService.Oidc.ModelAdapter

/-!
# Refresh tokens of a public client

A rotated token of a public client lives for at most the seconds that the token before it has left
(`resolveRefreshTokenTtl`). The provider counts these from the beginning of the current second to
the `exp` of the payload, while the adapter counts a lifetime from the instant of its upsert, and
stores one that is not positive as a record without an expiry. So the chain is bounded by its first
token exactly as long as each rotation finds a second left and the lifetime in force, or the seconds
left, end within the first token's expiry when they are counted from the upsert.
-/

namespace VcCommonService.Oidc
open Lib

variable {π : Type}

/-! ### Lifetimes -/

/-- `getPositiveInt` refuses any other value of `OIDC_REFRESH_TOKEN_TTL_SECONDS`. -/
abbrev PositiveInt := { n : ℤ // 0 < n }

structure RefreshTokenTtlClient where
  refreshTokenTtlSeconds : Option ℤ
  clientAuthMethod : Option String
  deriving Repr, DecidableEq

/-- `remainingTTL` is that of the token that is rotated, if one is. -/
def resolveRefreshTokenTtl (defaultTtlSeconds : PositiveInt)
    (client : Option RefreshTokenTtlClient) (remainingTTL : Option ℤ) : ℤ :=
  let configured := client.bind RefreshTokenTtlClient.refreshTokenTtlSeconds
  let ttlSeconds := (configured.filter fun ttl => decide (0 < ttl)).getD defaultTtlSeconds
  match remainingTTL with
  | some remaining =>
    if client.bind RefreshTokenTtlClient.clientAuthMethod = some "none" then
      min ttlSeconds remaining
    else ttlSeconds
  | none => ttlSeconds

def publicClient (refreshTokenTtlSeconds : Option ℤ) : RefreshTokenTtlClient :=
  ⟨refreshTokenTtlSeconds, some "none"⟩

/-- `0 < ttl` and `ttl ≤ remaining` where a token is rotated. -/
theorem resolveRefreshTokenTtl_public (defaultTtl : PositiveInt) (configured : Option ℤ) :
    ∃ ttl : ℤ, 0 < ttl ∧
      resolveRefreshTokenTtl defaultTtl (some (publicClient configured)) none = ttl ∧
      ∀ remaining, resolveRefreshTokenTtl defaultTtl (some (publicClient configured))
        (some remaining) = min ttl remaining := by
  refine ⟨(configured.filter fun ttl => decide (0 < ttl)).getD defaultTtl, ?_, rfl, fun _ => rfl⟩
  cases hfilter : configured.filter fun ttl => decide (0 < ttl) with
  | none => exact defaultTtl.2
  | some ttl =>
    have hpositive := (Option.filter_eq_some_iff.mp hfilter).2
    exact of_decide_eq_true hpositive

/-! ### The chain -/

/-- What the payload of a token carries: the second in which it expires, and the rest. -/
structure TokenPayload (π : Type) where
  exp : ℤ
  rest : π
  deriving Repr, DecidableEq

/-- The records of the provider and the ids of the tokens of one chain, the newest first. -/
structure Chain (π : Type) where
  rows : List (ModelRow (TokenPayload π))
  current : String
  earlier : List String

def Chain.tokens (s : Chain π) : List String := s.current :: s.earlier

def Chain.row (s : Chain π) (id : String) : Option (ModelRow (TokenPayload π)) :=
  Table.lookup ModelRow.key ("RefreshToken", id) s.rows

/-- `Math.floor(Date.now() / 1000)` of the provider. -/
def epochTime (now : Time) : ℤ := now / 1000

/-- A token that the provider stores: its id and payload, the lifetimes in force, and the instants
at which its lifetime is resolved, its payload stamped and its record stored. -/
structure Issue (π : Type) where
  rowId : String
  id : String
  payload : AdapterPayload π
  defaultTtl : PositiveInt
  configured : Option ℤ
  resolvedAt : Time
  stampedAt : Time
  storedAt : Time

def Issue.ttl (i : Issue π) (remainingTTL : Option ℤ) : ℤ :=
  resolveRefreshTokenTtl i.defaultTtl (some (publicClient i.configured)) remainingTTL

def Issue.stamped (i : Issue π) (ttl : ℤ) : AdapterPayload (TokenPayload π) where
  grantId := i.payload.grantId
  userCode := i.payload.userCode
  uid := i.payload.uid
  accountId := i.payload.accountId
  consumed := i.payload.consumed
  rest := ⟨epochTime i.stampedAt + ttl, i.payload.rest⟩

def Issue.store (i : Issue π) (rows : List (ModelRow (TokenPayload π)))
    (remainingTTL : Option ℤ) : List (ModelRow (TokenPayload π)) :=
  let ttl := i.ttl remainingTTL
  upsertModel rows i.rowId "RefreshToken" i.id (i.stamped ttl) ttl i.storedAt

def firstToken (rows : List (ModelRow (TokenPayload π))) (i : Issue π) : Chain π :=
  ⟨i.store rows none, i.id, []⟩

/-- A rotation: the token is found, consumed and replaced. -/
structure Rotation (π : Type) where
  foundAt : Time
  consumedAt : Time
  issue : Issue π

def Rotation.InOrder (r : Rotation π) : Prop :=
  r.foundAt ≤ r.consumedAt ∧ r.consumedAt ≤ r.issue.resolvedAt ∧
    r.issue.resolvedAt ≤ r.issue.stampedAt ∧ r.issue.stampedAt ≤ r.issue.storedAt

instance (r : Rotation π) : Decidable r.InOrder := inferInstanceAs (Decidable (_ ∧ _))

/-- `remainingTTL` of the provider. -/
def remainingTTL (exp : ℤ) (now : Time) : ℤ := exp - epochTime now

/-- The provider rotates a token that `find` returns and whose `exp` is still to come. -/
def rotate (s : Chain π) (r : Rotation π) : Option (Chain π) := do
  let payload ← find s.rows "RefreshToken" s.current r.foundAt
  if r.InOrder ∧ epochTime r.foundAt < payload.rest.exp then
    let consumed := consumeModel s.rows "RefreshToken" s.current r.consumedAt
    some ⟨r.issue.store consumed (some (remainingTTL payload.rest.exp r.issue.resolvedAt)),
      r.issue.id, s.tokens⟩
  else none

def Chain.expiry (s : Chain π) (id : String) : Option Time := (s.row id).bind ModelRow.expiresAt

def Chain.exp (s : Chain π) (id : String) : Option ℤ := (s.row id).map fun r => r.payload.rest.exp

/-- Every token of the chain has an expiry, and none after `first`. -/
def BoundedBy (first : Time) (s : Chain π) : Prop :=
  ∀ id ∈ s.tokens, ∃ expiresAt, s.expiry id = some expiresAt ∧ expiresAt ≤ first

/-- The lifetime of a token that is not rotated. -/
def Issue.lifetime (i : Issue π) : ℤ := i.ttl none

/-- The token has a second left when its lifetime is resolved; and the lifetime in force, or the
seconds left, are over by `first` when they are counted from the upsert. -/
def EndsWithin (first : Time) (s : Chain π) (r : Rotation π) : Prop :=
  ∀ exp, s.exp s.current = some exp →
    1 ≤ remainingTTL exp r.issue.resolvedAt ∧
      (r.issue.storedAt + r.issue.lifetime * 1000 ≤ first ∨
        r.issue.storedAt + remainingTTL exp r.issue.resolvedAt * 1000 ≤ first)

/-! ### One token -/

theorem lookup_store (i : Issue π) (rows : List (ModelRow (TokenPayload π))) (left : Option ℤ)
    (id : String) :
    (Table.lookup ModelRow.key ("RefreshToken", id) (i.store rows left)).bind ModelRow.expiresAt =
      if id = i.id then expiryOf (i.ttl left) i.storedAt
      else (Table.lookup ModelRow.key ("RefreshToken", id) rows).bind ModelRow.expiresAt := by
  unfold Issue.store upsertModel
  rw [Table.lookup_save, upsertedModel_key]
  by_cases h : id = i.id
  · subst h
    simp [upsertedModel]
  · simp [h, Ne.symm h]

/-- Consuming a token leaves its expiry. -/
theorem expiresAt_consumeModel (rows : List (ModelRow (TokenPayload π))) (current id : String)
    (now : Time) :
    (Table.lookup ModelRow.key ("RefreshToken", id)
        (consumeModel rows "RefreshToken" current now)).bind ModelRow.expiresAt =
      (Table.lookup ModelRow.key ("RefreshToken", id) rows).bind ModelRow.expiresAt := by
  have hkey : ∀ r : ModelRow (TokenPayload π), { r with consumedAt := some now }.key = r.key :=
    fun _ => rfl
  rw [consumeModel, Table.lookup_updateWhere _ hkey]
  cases Table.lookup ModelRow.key ("RefreshToken", id) rows with
  | none => rfl
  | some r =>
    rw [Option.map_some, Option.bind_some, Option.bind_some]
    split <;> rfl

theorem find_some {rows : List (ModelRow (TokenPayload π))} {id : String} {now : Time}
    {payload : AdapterPayload (TokenPayload π)} (h : find rows "RefreshToken" id now = some payload) :
    ∃ row, Table.lookup ModelRow.key ("RefreshToken", id) rows = some row ∧
      row.payload.rest = payload.rest := by
  obtain ⟨row, hrow, rfl⟩ := Option.map_eq_some_iff.mp h
  refine ⟨row, (Option.filter_eq_some_iff.mp hrow).1, ?_⟩
  unfold withConsumed
  split <;> rfl

theorem rotate_cases {s s' : Chain π} {r : Rotation π} (h : rotate s r = some s') :
    ∃ exp, s.exp s.current = some exp ∧
      s' = ⟨r.issue.store (consumeModel s.rows "RefreshToken" s.current r.consumedAt)
        (some (remainingTTL exp r.issue.resolvedAt)), r.issue.id, s.tokens⟩ := by
  obtain ⟨payload, hfind, h⟩ := Option.bind_eq_some_iff.mp h
  obtain ⟨row, hrow, hrest⟩ := find_some hfind
  split at h
  · cases h
    exact ⟨payload.rest.exp, by rw [Chain.exp, Chain.row, hrow, Option.map_some, hrest], rfl⟩
  · cases h

theorem expiry_rotated {s : Chain π} {r : Rotation π} {left : ℤ} (id : String) :
    (⟨r.issue.store (consumeModel s.rows "RefreshToken" s.current r.consumedAt) (some left),
        r.issue.id, s.tokens⟩ : Chain π).expiry id =
      if id = r.issue.id then expiryOf (r.issue.ttl (some left)) r.issue.storedAt
      else s.expiry id := by
  rw [Chain.expiry, Chain.row, lookup_store, expiresAt_consumeModel]
  rfl

/-- The lifetime of a rotated token, from the instant of the upsert. -/
theorem expiryOf_rotated_iff {i : Issue π} {left : ℤ} {first : Time} :
    (∃ expiresAt, expiryOf (i.ttl (some left)) i.storedAt = some expiresAt ∧ expiresAt ≤ first) ↔
      1 ≤ left ∧ (i.storedAt + i.lifetime * 1000 ≤ first ∨ i.storedAt + left * 1000 ≤ first) := by
  obtain ⟨ttl, hpositive, hfirst, hmin⟩ := resolveRefreshTokenTtl_public i.defaultTtl i.configured
  have hlifetime : i.lifetime = ttl := hfirst
  have hrotated : i.ttl (some left) = min ttl left := hmin left
  rw [hlifetime, hrotated, expiryOf]
  by_cases hlife : 0 < min ttl left
  · have hleft : 1 ≤ left := hlife.trans_le (min_le_right ttl left)
    have hshorter : ∀ {a b : ℤ}, a ≤ b → i.storedAt + b * 1000 ≤ first →
        i.storedAt + a * 1000 ≤ first := fun hab h =>
      (Int.add_le_add_left (Int.mul_le_mul_of_nonneg_right hab (by decide)) _).trans h
    simp only [if_pos hlife, Option.some.injEq, exists_eq_left', hleft, true_and]
    constructor
    · intro h
      rcases le_total ttl left with hle | hle
      · exact Or.inl (min_eq_left hle ▸ h)
      · exact Or.inr (min_eq_right hle ▸ h)
    · rintro (h | h)
      · exact hshorter (min_le_left ttl left) h
      · exact hshorter (min_le_right ttl left) h
  · rw [if_neg hlife]
    refine iff_of_false nofun fun h => hlife (lt_min hpositive h.1)

/-- From a chain within its bound, the next token is within it if and only if it ends within. -/
theorem boundedBy_rotate_iff {first : Time} {s s' : Chain π} {r : Rotation π}
    (hi : BoundedBy first s) (h : rotate s r = some s') :
    EndsWithin first s r ↔ BoundedBy first s' := by
  obtain ⟨exp, hexp, rfl⟩ := rotate_cases h
  have hends : EndsWithin first s r ↔ ∃ expiresAt,
      expiryOf (r.issue.ttl (some (remainingTTL exp r.issue.resolvedAt))) r.issue.storedAt =
        some expiresAt ∧ expiresAt ≤ first := by
    rw [expiryOf_rotated_iff]
    constructor
    · exact fun hwithin => hwithin exp hexp
    · intro hwithin exp' hexp'
      rw [hexp, Option.some_inj] at hexp'
      exact hexp' ▸ hwithin
  rw [hends]
  constructor
  · intro hnew id hid
    rw [expiry_rotated]
    split
    next => exact hnew
    next hne =>
      rcases List.mem_cons.mp hid with rfl | hid
      · exact absurd rfl hne
      · exact hi id hid
  · intro hbounded
    obtain ⟨expiresAt, hnew, hle⟩ := hbounded r.issue.id (List.mem_cons_self ..)
    rw [expiry_rotated, if_pos rfl] at hnew
    exact ⟨expiresAt, hnew, hle⟩

/-! ### Every chain -/

/-- The first token has an expiry. Along every sequence of rotations, all tokens of the chain have
one that is no later, if and only if each rotation ends within the first token's expiry. -/
theorem refreshChain_bounded_iff (rows : List (ModelRow (TokenPayload π))) (issue : Issue π)
    (rotations : List (Rotation π)) :
    ∃ first, (firstToken rows issue).expiry issue.id = some first ∧
      (Run.All rotate (fun s r _ => EndsWithin first s r) (firstToken rows issue) rotations ↔
        Run.All rotate (fun _ _ s' => BoundedBy first s') (firstToken rows issue) rotations) := by
  obtain ⟨ttl, hpositive, hfirst, -⟩ :=
    resolveRefreshTokenTtl_public issue.defaultTtl issue.configured
  have hexpiry : (firstToken rows issue).expiry issue.id = some (issue.storedAt + ttl * 1000) := by
    rw [Chain.expiry, Chain.row, firstToken, lookup_store, if_pos rfl, Issue.ttl, hfirst, expiryOf,
      if_pos hpositive]
  refine ⟨issue.storedAt + ttl * 1000, hexpiry, ?_⟩
  refine Run.all_iff_of_invariant (BoundedBy _) (fun s r s' hi hs => boundedBy_rotate_iff hi hs)
    (fun s r s' hi hs hc => (boundedBy_rotate_iff hi hs).mp hc) ?_
  intro id hid
  cases List.mem_singleton.mp hid
  exact ⟨_, hexpiry, le_rfl⟩

def sampleIssue (id : String) (now : Time) : Issue Unit :=
  ⟨"row-" ++ id, id, { rest := () }, ⟨28800, by decide⟩, some 10, now, now, now⟩

/-- A token of ten seconds, found in its last one and rotated when the second is over. -/
theorem refreshChain_outlives_first :
    ¬ ∀ (rows : List (ModelRow (TokenPayload Unit))) (issue : Issue Unit)
      (rotations : List (Rotation Unit)),
      Run.Enabled rotate (firstToken rows issue) rotations →
      ∃ first, (firstToken rows issue).expiry issue.id = some first ∧
        Run.All rotate (fun _ _ s' => BoundedBy first s') (firstToken rows issue) rotations := by
  intro hall
  obtain ⟨first, -, _, hstep, hbounded, -⟩ := hall [] (sampleIssue "a" 0)
    [⟨9900, 9950, sampleIssue "b" 10000⟩] (Run.enabled_of_final (by decide))
  cases hstep
  obtain ⟨expiresAt, hexpires, -⟩ := hbounded "b" (List.mem_cons_self ..)
  cases hexpires

end VcCommonService.Oidc
