import VcCommonService.Lib.UriEncode
import VcCommonService.RateLimit.Quota

/-!
# Rate limit keys (`rate-limit-key.ts`)

Tracker and route key are escaped before they are joined, so no `:` is left in either and the first
`::` of a key is its separator, whatever stands in the two. Keys of different pairs then count apart.
-/

namespace VcCommonService.RateLimits
open Lib

def keySeparator : String := "::"

def buildRateLimitKey (tracker routeKey : String) : String :=
  Uri.encodeURIComponent tracker ++ keySeparator ++ Uri.encodeURIComponent routeKey

example : buildRateLimitKey "::ffff:127.0.0.1" "connector::test" =
    "%3A%3Affff%3A127.0.0.1::connector%3A%3Atest" := by decide +kernel

/-! ### The first separator -/

theorem splitAtSeparator_of_no_colon {before : List Char} (h : ∀ c ∈ before, c ≠ ':')
    (after : List Char) :
    splitAtSeparator (before ++ ':' :: ':' :: after) = some (before, after) := by
  induction before with
  | nil => rfl
  | cons c before ih =>
    have hc : c ≠ ':' := h c (List.mem_cons_self ..)
    rw [List.cons_append, splitAtSeparator]
    · rw [ih fun d hd => h d (List.mem_cons_of_mem _ hd)]
      rfl
    · exact fun rest heq => absurd heq hc

theorem encoded_no_colon (s : String) : ∀ c ∈ (Uri.encodeURIComponent s).toList, c ≠ ':' := by
  rintro c hc rfl
  rcases Uri.encoded_chars hc with hpercent | hplain
  · revert hpercent
    decide
  · revert hplain
    decide

theorem decode_encoded (s : String) :
    decode (Uri.encodeURIComponent s).toList = .ok s := by
  rw [decode, String.ofList_toList, Uri.decodeURIComponent_encodeURIComponent]

/-! ### Keys and counters -/

theorem parse_build (tracker routeKey : String) :
    parseRateLimitKey (buildRateLimitKey tracker routeKey) = .ok ⟨tracker, routeKey⟩ := by
  have hkey : (buildRateLimitKey tracker routeKey).toList =
      (Uri.encodeURIComponent tracker).toList ++
        ':' :: ':' :: (Uri.encodeURIComponent routeKey).toList := by
    rw [buildRateLimitKey, String.toList_append, String.toList_append, List.append_assoc]
    rfl
  rw [parseRateLimitKey, hkey, splitAtSeparator_of_no_colon (encoded_no_colon tracker)]
  dsimp only
  rw [decode_encoded, ok_bind, decode_encoded, ok_bind]
  rfl

theorem build_injective {b b' : Bucket}
    (h : buildRateLimitKey b.tracker b.routeKey = buildRateLimitKey b'.tracker b'.routeKey) :
    b = b' := by
  have hparse := parse_build b.tracker b.routeKey
  rw [h, parse_build] at hparse
  exact (Except.ok.inj hparse).symm

theorem countSince_other {bucket other : Bucket} (h : other ≠ bucket) (since hitAt : Time)
    (hits : List RateLimitHit) :
    countSince other since (⟨bucket, hitAt⟩ :: hits) = countSince other since hits := by
  rw [countSince_cons, if_neg, Nat.add_zero]
  rintro ⟨heq, -⟩
  exact h heq.symm

/-- A call with the key of a pair goes by the count of that pair. -/
theorem increment_build (db : Ledger) (c : IncrementCall) {b : Bucket}
    (hkey : c.key = buildRateLimitKey b.tracker b.routeKey) :
    ∃ db', increment db c = .ok (db', Increment.record ⟨b, c.ttl, c.limit, c.blockDuration⟩
        (countSince b (c.calledAt - c.ttl) db.hits)) ∧
      (db'.hits = db.hits ∨ db'.hits = ⟨b, c.recordedAt⟩ :: db.hits) := by
  refine ⟨_, by rw [increment, hkey, parse_build, ok_bind]; rfl, ?_⟩
  dsimp only
  split
  · exact Or.inl rfl
  · exact Or.inr rfl

/-- A key gives its pair back; other pairs have other keys, and a call leaves their counts alone. -/
theorem rate_limit_key_round_trip (b : Bucket) :
    parseRateLimitKey (buildRateLimitKey b.tracker b.routeKey) = .ok b ∧
    ∀ other, other ≠ b →
      buildRateLimitKey other.tracker other.routeKey ≠ buildRateLimitKey b.tracker b.routeKey ∧
      ∀ db c, c.key = buildRateLimitKey b.tracker b.routeKey →
        ∃ db', increment db c = .ok (db', Increment.record ⟨b, c.ttl, c.limit, c.blockDuration⟩
            (countSince b (c.calledAt - c.ttl) db.hits)) ∧
          ∀ since, countSince other since db'.hits = countSince other since db.hits := by
  refine ⟨parse_build _ _, fun other hother => ⟨fun h => hother (build_injective h), ?_⟩⟩
  intro db c hkey
  obtain ⟨db', hcall, hhits⟩ := increment_build db c hkey
  refine ⟨db', hcall, fun since => ?_⟩
  rcases hhits with hsame | hrecorded
  · rw [hsame]
  · rw [hrecorded, countSince_other hother]

theorem rate_limit_key_round_trip_ipv6 :
    parseRateLimitKey (buildRateLimitKey "::1" "a::%é") = .ok ⟨"::1", "a::%é"⟩ ∧
      buildRateLimitKey "" ":1::a::%é" ≠ buildRateLimitKey "::1" "a::%é" ∧
      ∃ db', increment (emptyLedger 0) ⟨buildRateLimitKey "::1" "a::%é", 60000, 5, 0, 1, 2⟩ =
          .ok (db', ⟨1, 60, false, 0⟩) ∧
        countSince ⟨"", ":1::a::%é"⟩ 0 db'.hits = 0 := by
  obtain ⟨hparse, hothers⟩ := rate_limit_key_round_trip ⟨"::1", "a::%é"⟩
  obtain ⟨hkeys, hcalls⟩ := hothers ⟨"", ":1::a::%é"⟩ (by decide)
  obtain ⟨db', hcall, hcount⟩ := hcalls (emptyLedger 0) ⟨_, 60000, 5, 0, 1, 2⟩ rfl
  exact ⟨hparse, hkeys, db', hcall, hcount 0⟩

end VcCommonService.RateLimits
