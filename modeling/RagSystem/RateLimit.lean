import RagSystem.SlidingWindows
import Mathlib.Data.List.Pairwise
import Mathlib.Data.Rat.Floor
import Mathlib.Logic.Function.Basic

/-!
# The rate limiter

A bucket of admitted times for each key. A check sweeps out the buckets that are
out of the window, at most once in a window, ages the bucket of its key, and
admits while the bucket is not full. Clock readings are exact.
-/

namespace RagSystem.RateLimit

open SlidingWindows

set_option autoImplicit false

/-- What the constructor is given; it refuses a limit below 1. -/
structure Limits where
  /-- `_limit`. -/
  limit : ℕ
  /-- `_window`. -/
  window : ℚ
  /-- "rate limit must be at least 1". -/
  positive : 1 ≤ limit

/-- `SlidingWindowRateLimiter`, what it keeps between checks. -/
structure SlidingWindowRateLimiter (K : Type) where
  /-- `_hits`. -/
  hits : K → Option (List ℚ)
  /-- `_last_prune`. -/
  lastPrune : ℚ

variable {K : Type}

/-- The constructor. -/
def opened (now : ℚ) : SlidingWindowRateLimiter K where
  hits _ := none
  lastPrune := now

/-- The times kept for a key. -/
def SlidingWindowRateLimiter.bucket (limiter : SlidingWindowRateLimiter K) (key : K) : List ℚ :=
  (limiter.hits key).getD []

/-- A bucket is stale when it is empty or its last entry is out of the window. -/
def stale (cutoff : ℚ) (bucket : List ℚ) : Bool := bucket.getLast?.all (· ≤ cutoff)

/-- `_prune`. -/
def SlidingWindowRateLimiter.prune (limiter : SlidingWindowRateLimiter K) (cutoff : ℚ) : K → Option (List ℚ) :=
  fun key => (limiter.hits key).filter fun bucket => !stale cutoff bucket

/-- `check`, the sweep: at most once in a window. -/
def SlidingWindowRateLimiter.swept (limits : Limits) (limiter : SlidingWindowRateLimiter K) (now : ℚ) :
    SlidingWindowRateLimiter K :=
  if limits.window ≤ now - limiter.lastPrune then ⟨limiter.prune (now - limits.window), now⟩ else limiter

/-- `int` of a number: towards zero. -/
def truncate (x : ℚ) : ℤ := if 0 ≤ x then ⌊x⌋ else ⌈x⌉

/-- The hint of a refusal, by the oldest time in the bucket. -/
def retryAfter (limits : Limits) (now oldest : ℚ) : ℤ :=
  max 1 (truncate (limits.window - (now - oldest) + 999 / 1000))

variable [DecidableEq K]

/-- A bucket is put back under its key. -/
def SlidingWindowRateLimiter.store (limiter : SlidingWindowRateLimiter K) (key : K) (bucket : List ℚ) :
    SlidingWindowRateLimiter K :=
  { limiter with hits := Function.update limiter.hits key (some bucket) }

/-- `check`, what is held under the lock: whether the attempt is allowed, and
when to retry. -/
def SlidingWindowRateLimiter.check (limits : Limits) (limiter : SlidingWindowRateLimiter K) (key : K) (now : ℚ) :
    (Bool × ℤ) × SlidingWindowRateLimiter K :=
  let limiter := limiter.swept limits now
  let bucket := ageOut (now - limits.window) (limiter.bucket key)
  if hfull : limits.limit ≤ bucket.length then
    have hne : bucket ≠ [] := List.ne_nil_of_length_pos (Nat.lt_of_lt_of_le limits.positive hfull)
    ((false, retryAfter limits now (bucket.head hne)), limiter.store key bucket)
  else ((true, 0), limiter.store key (bucket ++ [now]))

/-! ## What a check does -/

variable {limits : Limits} {limiter : SlidingWindowRateLimiter K} {key : K} {now : ℚ}

omit [DecidableEq K] in
@[simp] theorem opened_bucket (now : ℚ) (key : K) : (opened now : SlidingWindowRateLimiter K).bucket key = [] := rfl

@[simp] theorem store_lastPrune (bucket : List ℚ) : (limiter.store key bucket).lastPrune = limiter.lastPrune := rfl

@[simp] theorem store_bucket_self (bucket : List ℚ) : (limiter.store key bucket).bucket key = bucket := by
  simp [SlidingWindowRateLimiter.store, SlidingWindowRateLimiter.bucket]

@[simp] theorem store_store (first second : List ℚ) :
    (limiter.store key first).store key second = limiter.store key second := by
  simp [SlidingWindowRateLimiter.store]

theorem store_bucket_of_ne {other : K} (hne : other ≠ key) (bucket : List ℚ) :
    (limiter.store key bucket).bucket other = limiter.bucket other := by
  simp [SlidingWindowRateLimiter.store, SlidingWindowRateLimiter.bucket, Function.update_of_ne hne]

/-- The bucket of the checked key, swept and aged. -/
def SlidingWindowRateLimiter.aged (limits : Limits) (limiter : SlidingWindowRateLimiter K) (key : K) (now : ℚ) :
    List ℚ := ageOut (now - limits.window) ((limiter.swept limits now).bucket key)

/-- A check refuses when the aged bucket is full, and admits when it is not. -/
theorem check_cases (limits : Limits) (limiter : SlidingWindowRateLimiter K) (key : K) (now : ℚ) :
    (∃ hne : limiter.aged limits key now ≠ [], limits.limit ≤ (limiter.aged limits key now).length ∧
      limiter.check limits key now = ((false, retryAfter limits now ((limiter.aged limits key now).head hne)),
        (limiter.swept limits now).store key (limiter.aged limits key now))) ∨
      ((limiter.aged limits key now).length < limits.limit ∧ limiter.check limits key now =
        ((true, 0), (limiter.swept limits now).store key (limiter.aged limits key now ++ [now]))) := by
  by_cases hfull : limits.limit ≤ (limiter.aged limits key now).length
  · left
    have hne : limiter.aged limits key now ≠ [] :=
      List.ne_nil_of_length_pos (Nat.lt_of_lt_of_le limits.positive hfull)
    exact ⟨hne, hfull, dif_pos hfull⟩
  · right
    exact ⟨not_le.mp hfull, dif_neg hfull⟩

omit [DecidableEq K] in
/-- A sweep takes a bucket whole or leaves it; what it takes is out of the window
when the bucket is in order, and then the sweep is the last one. -/
theorem swept_split (limits : Limits) (limiter : SlidingWindowRateLimiter K) (now : ℚ) (key : K)
    (hsorted : (limiter.bucket key).Pairwise (· ≤ ·)) :
    ∃ gone, limiter.bucket key = gone ++ (limiter.swept limits now).bucket key ∧
      (∀ t ∈ gone, t ≤ now - limits.window) ∧
        (gone = [] ∨ (limiter.swept limits now).bucket key = [] ∧ (limiter.swept limits now).lastPrune = now) := by
  by_cases hdue : limits.window ≤ now - limiter.lastPrune
  · have hswept : limiter.swept limits now = ⟨limiter.prune (now - limits.window), now⟩ := if_pos hdue
    rw [hswept]
    cases hbucket : limiter.hits key with
    | none => exact ⟨[], by simp [SlidingWindowRateLimiter.bucket, SlidingWindowRateLimiter.prune, hbucket],
        fun t ht => absurd ht List.not_mem_nil, Or.inl rfl⟩
    | some bucket =>
      have hkept : limiter.bucket key = bucket := by rw [SlidingWindowRateLimiter.bucket, hbucket, Option.getD_some]
      rw [hkept] at hsorted ⊢
      by_cases hstale : stale (now - limits.window) bucket
      · have hgone : ∀ t ∈ bucket, t ≤ now - limits.window := by
          intro t ht
          have hne : bucket ≠ [] := List.ne_nil_of_mem ht
          have hlast : bucket.getLast hne ≤ now - limits.window := by
            rw [stale, List.getLast?_eq_some_getLast hne] at hstale
            simpa using hstale
          exact le_trans (hsorted.rel_getLast ht) hlast
        refine ⟨bucket, ?_, hgone, Or.inr ⟨?_, rfl⟩⟩ <;>
          simp [SlidingWindowRateLimiter.bucket, SlidingWindowRateLimiter.prune, hbucket, hstale, Option.filter]
      · refine ⟨[], ?_, fun t ht => absurd ht List.not_mem_nil, Or.inl rfl⟩
        simp [SlidingWindowRateLimiter.bucket, SlidingWindowRateLimiter.prune, hbucket, hstale, Option.filter]
  · have hswept : limiter.swept limits now = limiter := if_neg hdue
    rw [hswept]
    exact ⟨[], rfl, fun t ht => absurd ht List.not_mem_nil, Or.inl rfl⟩

omit [DecidableEq K] in
/-- The last sweep is this one or the one before. -/
theorem swept_lastPrune (limits : Limits) (limiter : SlidingWindowRateLimiter K) (now : ℚ) :
    (limiter.swept limits now).lastPrune = now ∨ (limiter.swept limits now).lastPrune = limiter.lastPrune := by
  unfold SlidingWindowRateLimiter.swept
  split
  · exact Or.inl rfl
  · exact Or.inr rfl

/-! ## The admitted attempts -/

/-- The readings of the admitted attempts of a key. -/
def readings (log : List (K × ℚ)) (key : K) : List ℚ := (log.filter (·.1 = key)).map (·.2)

/-- A check, and the attempt in the log if it is admitted. -/
def attempt (limits : Limits) (state : SlidingWindowRateLimiter K × List (K × ℚ)) (key : K) (now : ℚ) :
    SlidingWindowRateLimiter K × List (K × ℚ) :=
  let ((allowed, _), limiter) := state.1.check limits key now
  (limiter, if allowed then state.2 ++ [(key, now)] else state.2)

variable {log : List (K × ℚ)}

@[simp] theorem readings_nil (key : K) : readings [] key = [] := rfl

@[simp] theorem readings_admitted_self (log : List (K × ℚ)) (key : K) (now : ℚ) :
    readings (log ++ [(key, now)]) key = readings log key ++ [now] := by
  simp [readings]

theorem readings_admitted_of_ne {other : K} (hne : other ≠ key) (log : List (K × ℚ)) (now : ℚ) :
    readings (log ++ [(key, now)]) other = readings log other := by
  simp [readings, hne.symm]

/-- What an attempt leaves: its bucket is the aged one, with the attempt if it is admitted. -/
theorem attempt_cases (limits : Limits) (limiter : SlidingWindowRateLimiter K) (log : List (K × ℚ)) (key : K)
    (now : ℚ) :
    (limits.limit ≤ (limiter.aged limits key now).length ∧ attempt limits (limiter, log) key now =
        ((limiter.swept limits now).store key (limiter.aged limits key now), log)) ∨
      ((limiter.aged limits key now).length < limits.limit ∧ attempt limits (limiter, log) key now =
        ((limiter.swept limits now).store key (limiter.aged limits key now ++ [now]), log ++ [(key, now)])) := by
  have hcases := check_cases limits limiter key now
  cases hcases with
  | inl hrefused =>
    obtain ⟨hne, hfull, hcheck⟩ := hrefused
    left
    rw [attempt, hcheck]
    exact ⟨hfull, rfl⟩
  | inr hallowed =>
    obtain ⟨hfew, hcheck⟩ := hallowed
    right
    rw [attempt, hcheck]
    exact ⟨hfew, rfl⟩

end RagSystem.RateLimit
