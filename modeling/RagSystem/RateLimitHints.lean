import RagSystem.DocumentModels
import RagSystem.RateLimit
import Mathlib.Algebra.Order.Floor.Ring

/-!
# Refusals and their hints

One check after the other, a key is refused exactly when its window is full. The
hint of a refusal is the time until the oldest attempt is out of the window,
rounded to whole seconds, up but for less than a thousandth: then it is too short.
-/

namespace RagSystem.RateLimitHints

open SlidingWindows RateLimit DocumentModels

set_option autoImplicit false

section Dependency

/-- What the dependency reads of a request. -/
structure Request where
  /-- The header `X-Forwarded-For`. -/
  forwarded : Option String
  /-- The host of the socket's peer. -/
  client : Option String

/-- `_client_key`. -/
def clientKey (request : Request) : String :=
  match request.forwarded with
  | some forwarded =>
    if forwarded ≠ "" then strip (String.ofList (forwarded.toList.takeWhile (· ≠ ',')))
    else request.client.getD "unknown"
  | none => request.client.getD "unknown"

/-- What a route is answered by the dependency. -/
inductive Answer where
  /-- It goes on. -/
  | passed
  /-- `429`, with the header `Retry-After`. -/
  | tooManyRequests (retryAfter : String)
  deriving DecidableEq

/-- `rate_limit`, the dependency for a scope. -/
def dependency (limits : Limits) (scope : String) (limiter : SlidingWindowRateLimiter String) (request : Request)
    (now : ℚ) : Answer × SlidingWindowRateLimiter String :=
  let ((allowed, retryAfter), limiter) := limiter.check limits (scope ++ ":" ++ clientKey request) now
  (if allowed then .passed else .tooManyRequests (toString retryAfter), limiter)

/-- A route goes on exactly when the check allows it. -/
theorem dependency_passed_iff (limits : Limits) (scope : String) (limiter : SlidingWindowRateLimiter String)
    (request : Request) (now : ℚ) :
    (dependency limits scope limiter request now).1 = .passed ↔
      (limiter.check limits (scope ++ ":" ++ clientKey request) now).1.1 = true := by
  simp only [dependency]
  split
  · next hallowed => simp [hallowed]
  · next hrefused => simp [hrefused]

end Dependency

variable {K : Type} [DecidableEq K]

/-- Checks one after the other. -/
def serve (limits : Limits) : SlidingWindowRateLimiter K × List (K × ℚ) → List (K × ℚ) →
    SlidingWindowRateLimiter K × List (K × ℚ)
  | state, [] => state
  | state, (key, now) :: calls => serve limits (attempt limits state key now) calls

/-- The clock readings do not decrease. -/
def Sequential (start : ℚ) (calls : List (K × ℚ)) : Prop := (start :: calls.map (·.2)).Pairwise (· ≤ ·)

/-- The admitted attempts of a key in the last window. -/
def lastWindow (limits : Limits) (log : List (K × ℚ)) (key : K) (now : ℚ) : List ℚ :=
  (readings log key).filter fun t => now - limits.window < t ∧ t ≤ now

/-! ## The buckets and the history -/

/-- Up to a time, a bucket holds all of the log that is in the window, and never more than the limit. -/
structure UpToDate (limits : Limits) (limiter : SlidingWindowRateLimiter K) (time : ℚ) (key : K) (log : List ℚ) :
    Prop where
  /-- What is no longer in the bucket came first, and is out of the window. -/
  dropped : ∃ gone, log = gone ++ limiter.bucket key ∧ ∀ t ∈ gone, t ≤ time - limits.window
  /-- The log is in order. -/
  sorted : log.Pairwise (· ≤ ·)
  /-- All of it is past. -/
  past : ∀ t ∈ log, t ≤ time
  /-- The bucket is not over its limit. -/
  bounded : (limiter.bucket key).length ≤ limits.limit

variable {limits : Limits} {limiter : SlidingWindowRateLimiter K} {time now : ℚ} {key : K} {log : List ℚ}

omit [DecidableEq K] in
theorem UpToDate.bucket_sorted (h : UpToDate limits limiter time key log) : (limiter.bucket key).Pairwise (· ≤ ·) := by
  obtain ⟨gone, hlog, -⟩ := h.dropped
  have hsorted := h.sorted
  rw [hlog, List.pairwise_append] at hsorted
  exact hsorted.2.1

omit [DecidableEq K] in
/-- A later sweep keeps it. -/
theorem UpToDate.swept (h : UpToDate limits limiter time key log) (hnow : time ≤ now) :
    UpToDate limits (limiter.swept limits now) now key log := by
  obtain ⟨gone, hlog, hold⟩ := h.dropped
  obtain ⟨swept, hbucket, hout, -⟩ := swept_split limits limiter now key h.bucket_sorted
  have hlength := congrArg List.length hbucket
  rw [List.length_append] at hlength
  have hbounded := h.bounded
  refine ⟨⟨gone ++ swept, ?_, fun t ht => ?_⟩, h.sorted, fun t ht => (h.past t ht).trans hnow, by omega⟩
  · rw [List.append_assoc, ← hbucket]
    exact hlog
  · cases List.mem_append.mp ht with
    | inl hgone => exact (hold t hgone).trans (sub_le_sub_right hnow _)
    | inr hswept => exact hout t hswept

omit [DecidableEq K] in
/-- The aged bucket is what the log has in the window. -/
theorem UpToDate.aged_eq (h : UpToDate limits limiter time key log) (hnow : time ≤ now) :
    limiter.aged limits key now = later (now - limits.window) log := by
  have hswept := h.swept hnow
  obtain ⟨gone, hlog, hold⟩ := hswept.dropped
  have hbucket : later (now - limits.window) log =
      later (now - limits.window) ((limiter.swept limits now).bucket key) := by
    rw [hlog, later_append, later_eq_nil hold, List.nil_append]
  rw [hbucket]
  exact ageOut_eq_later hswept.bucket_sorted

theorem UpToDate.store_of_ne {other : K} (h : UpToDate limits limiter time other log) (hne : other ≠ key)
    (bucket : List ℚ) : UpToDate limits (limiter.store key bucket) time other log := by
  refine ⟨?_, h.sorted, h.past, ?_⟩
  · rw [store_bucket_of_ne hne]
    exact h.dropped
  · rw [store_bucket_of_ne hne]
    exact h.bounded

/-- The bucket that is put back, of which only what is out of the window is left out. -/
theorem UpToDate.store_aged (h : UpToDate limits limiter time key log) :
    UpToDate limits (limiter.store key (ageOut (time - limits.window) (limiter.bucket key))) time key log := by
  obtain ⟨gone, hlog, hold⟩ := h.dropped
  obtain ⟨aged, hbucket, hout⟩ := ageOut_split (time - limits.window) (limiter.bucket key)
  have hlength := congrArg List.length hbucket
  rw [List.length_append] at hlength
  have hbounded := h.bounded
  refine ⟨⟨gone ++ aged, ?_, fun t ht => ?_⟩, h.sorted, h.past, ?_⟩
  · rw [store_bucket_self, List.append_assoc, ← hbucket]
    exact hlog
  · cases List.mem_append.mp ht with
    | inl hgone => exact hold t hgone
    | inr haged => exact hout t haged
  · rw [store_bucket_self]
    omega

/-- An attempt more, in the log and in its bucket. -/
theorem UpToDate.enter (h : UpToDate limits limiter time key log)
    (hfew : (limiter.bucket key).length < limits.limit) :
    UpToDate limits (limiter.store key (limiter.bucket key ++ [time])) time key (log ++ [time]) := by
  obtain ⟨gone, hlog, hold⟩ := h.dropped
  refine ⟨⟨gone, ?_, hold⟩, ?_, fun t ht => ?_, ?_⟩
  · rw [store_bucket_self, ← List.append_assoc, ← hlog]
  · refine List.pairwise_append.mpr ⟨h.sorted, List.pairwise_singleton _ _, fun t ht s hs => ?_⟩
    rw [List.mem_singleton.mp hs]
    exact h.past t ht
  · cases List.mem_append.mp ht with
    | inl hbefore => exact h.past t hbefore
    | inr hlast => exact (List.mem_singleton.mp hlast).le
  · rw [store_bucket_self, List.length_append, List.length_singleton]
    exact hfew

/-- Up to a time, every bucket is. -/
def AllUpToDate (limits : Limits) (state : SlidingWindowRateLimiter K × List (K × ℚ)) (time : ℚ) : Prop :=
  ∀ key, UpToDate limits state.1 time key (readings state.2 key)

theorem allUpToDate_opened (limits : Limits) (start : ℚ) :
    AllUpToDate limits ((opened start, []) : SlidingWindowRateLimiter K × List (K × ℚ)) start := fun _ =>
  ⟨⟨[], rfl, fun _ ht => absurd ht List.not_mem_nil⟩, List.Pairwise.nil, fun _ ht => absurd ht List.not_mem_nil,
    Nat.zero_le _⟩

/-- A later attempt keeps all buckets up to date. -/
theorem allUpToDate_attempt {state : SlidingWindowRateLimiter K × List (K × ℚ)} (h : AllUpToDate limits state time)
    (hnow : time ≤ now) (key : K) : AllUpToDate limits (attempt limits state key now) now := by
  obtain ⟨limiter, log⟩ := state
  intro other
  have hswept : ∀ key, UpToDate limits (limiter.swept limits now) now key (readings log key) := fun key =>
    (h key).swept hnow
  cases attempt_cases limits limiter log key now with
  | inl hrefused =>
    rw [hrefused.2]
    by_cases hother : other = key
    · rw [hother]
      exact (hswept key).store_aged
    · exact (hswept other).store_of_ne hother _
  | inr hallowed =>
    rw [hallowed.2]
    by_cases hother : other = key
    · rw [hother, readings_admitted_self]
      have haged := (hswept key).store_aged
      have hentered := haged.enter (by rw [store_bucket_self]; exact hallowed.1)
      rw [store_bucket_self, store_store] at hentered
      exact hentered
    · rw [readings_admitted_of_ne hother]
      exact (hswept other).store_of_ne hother _

/-- And so do calls whose readings do not decrease, up to any time after them. -/
theorem allUpToDate_serve (calls : List (K × ℚ)) :
    ∀ state time, AllUpToDate limits state time → Sequential time calls → ∀ now, time ≤ now →
      (∀ call ∈ calls, call.2 ≤ now) → AllUpToDate limits (serve limits state calls) now := by
  induction calls with
  | nil =>
    intro state time h _ now hnow _ key
    have hkey := h key
    obtain ⟨gone, hlog, hold⟩ := hkey.dropped
    exact ⟨⟨gone, hlog, fun t ht => (hold t ht).trans (sub_le_sub_right hnow _)⟩, hkey.sorted,
      fun t ht => (hkey.past t ht).trans hnow, hkey.bounded⟩
  | cons call calls ih =>
    obtain ⟨key, at'⟩ := call
    intro state time h hcalls now _ hlater
    have hparts := List.pairwise_cons.mp hcalls
    have hfirst : time ≤ at' := hparts.1 at' List.mem_cons_self
    exact ih _ at' (allUpToDate_attempt h hfirst key) hparts.2 now (hlater _ List.mem_cons_self)
      fun other hother => hlater other (List.mem_cons_of_mem _ hother)

/-! ## Refusals -/

variable {state : SlidingWindowRateLimiter K × List (K × ℚ)}

/-- What is later than the window's start, of a log that is past, is in the window. -/
theorem lastWindow_eq (h : AllUpToDate limits state time) (hnow : time ≤ now) (key : K) :
    lastWindow limits state.2 key now = later (now - limits.window) (readings state.2 key) := by
  refine List.filter_congr fun t ht => ?_
  have hpast : t ≤ now := ((h key).past t ht).trans hnow
  simp [hpast]

theorem aged_eq_lastWindow (h : AllUpToDate limits state time) (hnow : time ≤ now) (key : K) :
    state.1.aged limits key now = lastWindow limits state.2 key now := by
  rw [lastWindow_eq h hnow, (h key).aged_eq hnow]

/-- The window never has more than the limit. -/
theorem length_lastWindow_le (h : AllUpToDate limits state time) (hnow : time ≤ now) (key : K) :
    (lastWindow limits state.2 key now).length ≤ limits.limit := by
  have hswept := (h key).swept hnow
  obtain ⟨aged, hbucket, -⟩ := ageOut_split (now - limits.window) ((state.1.swept limits now).bucket key)
  have hlength := congrArg List.length hbucket
  rw [List.length_append] at hlength
  have hbounded := hswept.bounded
  rw [← aged_eq_lastWindow h hnow]
  have haged : (state.1.aged limits key now).length ≤ ((state.1.swept limits now).bucket key).length := by
    rw [SlidingWindowRateLimiter.aged]
    omega
  omega

/-- A check refuses exactly when the window is full. -/
theorem refused_iff (h : AllUpToDate limits state time) (hnow : time ≤ now) (key : K) :
    (state.1.check limits key now).1.1 = false ↔ (lastWindow limits state.2 key now).length = limits.limit := by
  have hle := length_lastWindow_le h hnow key
  have haged := aged_eq_lastWindow h hnow key
  cases check_cases limits state.1 key now with
  | inl hrefused =>
    obtain ⟨hne, hfull, hcheck⟩ := hrefused
    rw [hcheck]
    rw [haged] at hfull
    exact iff_of_true rfl (by omega)
  | inr hallowed =>
    obtain ⟨hfew, hcheck⟩ := hallowed
    rw [hcheck]
    rw [haged] at hfew
    exact iff_of_false (by simp) (by omega)

/-- The hint of a refusal is by the oldest attempt in the window. -/
theorem hint_eq (h : AllUpToDate limits state time) (hnow : time ≤ now) {key : K} {hint : ℤ}
    (hcheck : (state.1.check limits key now).1 = (false, hint)) :
    ∃ oldest rest, lastWindow limits state.2 key now = oldest :: rest ∧ hint = retryAfter limits now oldest := by
  have haged := aged_eq_lastWindow h hnow key
  cases check_cases limits state.1 key now with
  | inl hrefused =>
    obtain ⟨hne, -, heq⟩ := hrefused
    rw [heq] at hcheck
    refine ⟨(state.1.aged limits key now).head hne, (state.1.aged limits key now).tail, ?_, (Prod.mk.inj hcheck).2.symm⟩
    rw [← haged]
    exact (List.cons_head_tail hne).symm
  | inr hallowed =>
    rw [hallowed.2] at hcheck
    exact absurd (Prod.mk.inj hcheck).1 (by simp)

/-! ## Hints -/

/-- A time that is a second at most, or whole, or a thousandth at least over a whole second. -/
def Covered (waits : ℚ) : Prop := waits ≤ 1 ∨ Int.fract waits = 0 ∨ 1 / 1000 ≤ Int.fract waits

/-- The rounding of a hint does not fall short of such a time, and of no other. -/
theorem waits_le_hint_iff {waits : ℚ} (hpos : 0 < waits) :
    waits ≤ ((max 1 (truncate (waits + 999 / 1000)) : ℤ) : ℚ) ↔ Covered waits := by
  have hwhole : truncate (waits + 999 / 1000) = ⌊waits + 999 / 1000⌋ := if_pos (by linarith)
  have hparts := Int.floor_add_fract waits
  have hfract := Int.fract_nonneg waits
  have hlt := Int.fract_lt_one waits
  rw [hwhole, Int.cast_max, Int.cast_one, le_max_iff, Covered]
  refine or_congr_right ?_
  have hfloor : ⌊waits + 999 / 1000⌋ = ⌊waits⌋ + ⌊Int.fract waits + 999 / 1000⌋ := by
    rw [← Int.floor_intCast_add, ← add_assoc, hparts]
  by_cases hsmall : Int.fract waits + 999 / 1000 < 1
  · have hzero : ⌊Int.fract waits + 999 / 1000⌋ = 0 := by
      rw [Int.floor_eq_zero_iff]
      exact ⟨by linarith, hsmall⟩
    rw [hfloor, hzero, add_zero]
    constructor
    · intro hle
      left
      linarith
    · intro hor
      cases hor with
      | inl hnone => linarith
      | inr hmany => linarith
  · have hone : ⌊Int.fract waits + 999 / 1000⌋ = 1 := by
      rw [Int.floor_eq_iff]
      constructor
      · push_cast
        linarith
      · push_cast
        linarith
    rw [hfloor, hone]
    push_cast
    refine iff_of_true (by linarith) (Or.inr (by linarith))

/-- A hint is enough when every later check of the key after that time is allowed,
as long as none in between was. -/
def HintEnough (limits : Limits) (state : SlidingWindowRateLimiter K × List (K × ℚ)) (key : K) (now : ℚ) (hint : ℤ) :
    Prop :=
  ∀ calls, Sequential now calls →
    readings (serve limits (attempt limits state key now) calls).2 key = readings (attempt limits state key now).2 key →
      ∀ again, now + hint ≤ again → (∀ call ∈ calls, call.2 ≤ again) →
        ((serve limits (attempt limits state key now) calls).1.check limits key again).1.1 = true

/-- The wait that a refusal asks for covers the time until the oldest attempt is out of the window. -/
def HintCovers (limits : Limits) (log : List (K × ℚ)) (key : K) (now : ℚ) : Prop :=
  ∀ oldest, (lastWindow limits log key now).head? = some oldest → Covered (limits.window - (now - oldest))

/-- A refused attempt is not entered into the log. -/
theorem attempt_refused {hint : ℤ} (hcheck : (state.1.check limits key now).1 = (false, hint)) :
    (attempt limits state key now).2 = state.2 := by
  simp [attempt, hcheck]

/-- The window at a later time, while none more is admitted, is what has not left it. -/
theorem lastWindow_later {oldest : ℚ} {rest : List ℚ} (h : AllUpToDate limits state time) (hnow : time ≤ now)
    (hwindow : lastWindow limits state.2 key now = oldest :: rest) {again : ℚ} (hagain : now ≤ again) :
    later (again - limits.window) (readings state.2 key) = later (again - limits.window) (oldest :: rest) := by
  have hkept := lastWindow_eq h hnow key
  rw [← hwindow, hkept, later, later, later, List.filter_filter]
  refine List.filter_congr fun t _ => ?_
  have hle : now - limits.window ≤ again - limits.window := sub_le_sub_right hagain _
  by_cases hlt : again - limits.window < t
  · simp [hlt, lt_of_le_of_lt hle hlt]
  · simp [hlt]

/-- The hint of a refusal is enough exactly when it covers the wait. -/
theorem hintEnough_iff (h : AllUpToDate limits state time) (hnow : time ≤ now) {hint : ℤ}
    (hcheck : (state.1.check limits key now).1 = (false, hint)) :
    HintEnough limits state key now hint ↔ HintCovers limits state.2 key now := by
  obtain ⟨oldest, rest, hwindow, hhint⟩ := hint_eq h hnow hcheck
  have hlog := attempt_refused hcheck
  have hattempt := allUpToDate_attempt h hnow key
  have hfull : (oldest :: rest).length = limits.limit := by
    rw [← hwindow]
    exact (refused_iff h hnow key).mp (by rw [hcheck])
  have hoften : oldest ∈ lastWindow limits state.2 key now := hwindow ▸ List.mem_cons_self
  have hinside : now - limits.window < oldest := by
    have hmem := (List.mem_filter.mp hoften).2
    simp only [decide_eq_true_eq] at hmem
    exact hmem.1
  have hsorted : (oldest :: rest).Pairwise (· ≤ ·) := by
    rw [← hwindow, lastWindow]
    exact (h key).sorted.filter _
  have hcovers : HintCovers limits state.2 key now ↔ Covered (limits.window - (now - oldest)) := by
    simp [HintCovers, hwindow]
  have hrounds := waits_le_hint_iff (show 0 < limits.window - (now - oldest) by linarith)
  rw [hcovers, ← hrounds]
  rw [retryAfter] at hhint
  rw [← hhint]
  constructor
  · -- Too short a hint: the same check again at that time finds the window full.
    intro henough
    by_contra hshort
    have hshort' : (hint : ℚ) < limits.window - (now - oldest) := not_le.mp hshort
    have hpositive : (1 : ℤ) ≤ hint := hhint ▸ le_max_left _ _
    have hpositive' : (1 : ℚ) ≤ hint := by exact_mod_cast hpositive
    have hagain : now ≤ now + hint := by linarith
    have hallowed := henough [] (List.pairwise_singleton _ _) rfl (now + hint) le_rfl
      fun _ hcall => absurd hcall List.not_mem_nil
    have hrefused := (refused_iff hattempt hagain key).mpr
    have hall : ∀ t ∈ oldest :: rest, now + hint - limits.window < t := by
      intro t ht
      have hle : oldest ≤ t := by
        cases List.mem_cons.mp ht with
        | inl hhere => exact hhere.ge
        | inr hrest => exact (List.pairwise_cons.mp hsorted).1 t hrest
      linarith
    rw [lastWindow_eq hattempt hagain, hlog, lastWindow_later h hnow hwindow hagain, later_eq_self hall, hfull] at hrefused
    rw [serve, hrefused rfl] at hallowed
    cases hallowed
  · -- Long enough: the oldest attempt has left the window, and none has come.
    intro hcovered calls hcalls hnone again hlater hcallsLater
    have hwait : oldest ≤ again - limits.window := by linarith
    have hagain : now ≤ again := by linarith
    have hserved := allUpToDate_serve calls _ now hattempt hcalls again hagain hcallsLater
    have hrefused := refused_iff hserved le_rfl key
    have hgone : later (again - limits.window) (oldest :: rest) = later (again - limits.window) rest := by
      have hnot : ¬ again - limits.window < oldest := not_lt.mpr hwait
      simp [later, hnot]
    rw [lastWindow_eq hserved le_rfl, hnone, hlog, lastWindow_later h hnow hwindow hagain, hgone] at hrefused
    have hfewer : (later (again - limits.window) rest).length ≤ rest.length := List.length_filter_le _ _
    rw [List.length_cons] at hfull
    by_contra hnot
    have hlength := hrefused.mp (by simpa using hnot)
    omega

/-- Every check is refused exactly when the limit of admitted attempts is in the last
window; and the hint of a refusal is enough exactly when the time that the oldest of
them still has in the window is at most a second, or whole, or over a whole second by
a thousandth at least. -/
theorem refusals_and_hints (limits : Limits) (start : ℚ) (calls : List (K × ℚ)) (key : K) (now : ℚ)
    (hcalls : Sequential start (calls ++ [(key, now)])) :
    let state := serve limits (opened start, []) calls
    ((state.1.check limits key now).1.1 = false ↔ (lastWindow limits state.2 key now).length = limits.limit) ∧
      ∀ hint, (state.1.check limits key now).1 = (false, hint) →
        (HintEnough limits state key now hint ↔ HintCovers limits state.2 key now) := by
  intro state
  have hreadings : (start :: calls.map (·.2) ++ [now]).Pairwise (· ≤ ·) := by
    simpa [Sequential] using hcalls
  rw [List.pairwise_append] at hreadings
  have hbefore : ∀ t ∈ start :: calls.map (·.2), t ≤ now := fun t ht =>
    hreadings.2.2 t ht now (List.mem_singleton.mpr rfl)
  have hstate : AllUpToDate limits state now :=
    allUpToDate_serve calls _ start (allUpToDate_opened limits start) hreadings.1 now (hbefore start List.mem_cons_self)
      fun call hcall => hbefore call.2 (List.mem_cons_of_mem _ (List.mem_map_of_mem hcall))
  exact ⟨refused_iff hstate le_rfl key, fun hint hcheck => hintEnough_iff hstate le_rfl hcheck⟩

/-- One a minute. -/
def onePerMinute : Limits := ⟨1, 60, by decide⟩

theorem refusals_and_hints_sample :
    let state := serve onePerMinute (opened 0, []) [("login:a", 0)]
    ((state.1.check onePerMinute "login:a" 20).1.1 = false ↔
        (lastWindow onePerMinute state.2 "login:a" 20).length = onePerMinute.limit) ∧
      ∀ hint, (state.1.check onePerMinute "login:a" 20).1 = (false, hint) →
        (HintEnough onePerMinute state "login:a" 20 hint ↔ HintCovers onePerMinute state.2 "login:a" 20) := by
  have hcalls : Sequential 0 ([("login:a", (0 : ℚ))] ++ [("login:a", 20)]) := by
    simp only [Sequential, List.cons_append, List.nil_append, List.map_cons, List.map_nil]
    decide +kernel
  exact refusals_and_hints onePerMinute 0 [("login:a", 0)] "login:a" 20 hcalls

/-- With 1.0005 seconds to go the hint is one second, and a check after one second is refused. -/
theorem hint_too_short :
    let state := serve onePerMinute (opened 0, []) [("login:a", 0)]
    (state.1.check onePerMinute "login:a" (589995 / 10000)).1 = (false, 1) ∧
      ¬ HintEnough onePerMinute state "login:a" (589995 / 10000) 1 := by
  intro state
  have hcheck : (state.1.check onePerMinute "login:a" (589995 / 10000)).1 = (false, 1) := by decide +kernel
  refine ⟨hcheck, fun henough => ?_⟩
  have hallowed := henough [] (List.pairwise_singleton _ _) rfl (599995 / 10000) (by norm_num)
    fun _ hcall => absurd hcall List.not_mem_nil
  have hrefused : ((serve onePerMinute (attempt onePerMinute state "login:a" (589995 / 10000)) []).1.check
      onePerMinute "login:a" (599995 / 10000)).1.1 = false := by decide +kernel
  rw [hrefused] at hallowed
  cases hallowed

end RagSystem.RateLimitHints
