import RagSystem.RateLimit
import Mathlib.Data.NNRat.Defs

/-!
# Checks that overlap

A check reads the clock before it takes the lock, so the locked sections can come
in another order than their readings. The bound holds in every run in which no
section has a reading that is older than an attempt in its bucket or than the
last sweep, and fails in one where a section is late.
-/

namespace RagSystem.RateLimitOverlaps

open SlidingWindows RateLimit

set_option autoImplicit false

/-- A limiter and the checks under way. -/
structure Traffic (K : Type) where
  /-- `time.monotonic`. -/
  clock : ℚ
  /-- The checks that have read the clock and wait for the lock. -/
  waiting : List (K × ℚ)
  /-- The limiter. -/
  limiter : SlidingWindowRateLimiter K
  /-- The admitted attempts. -/
  admitted : List (K × ℚ)

/-- What can happen next. -/
inductive Action (K : Type) where
  /-- Time passes. -/
  | pass (time : ℚ≥0)
  /-- A check reads the clock. -/
  | read (key : K)
  /-- One of the waiting checks has the lock. -/
  | enter (check : ℕ)

variable {K : Type} [DecidableEq K]

/-- One step. -/
def step (limits : Limits) (traffic : Traffic K) : Action K → Traffic K
  | .pass time => { traffic with clock := traffic.clock + time }
  | .read key => { traffic with waiting := traffic.waiting ++ [(key, traffic.clock)] }
  | .enter check => match traffic.waiting[check]? with
    | some (key, now) =>
      let (limiter, admitted) := attempt limits (traffic.limiter, traffic.admitted) key now
      { traffic with waiting := traffic.waiting.eraseIdx check, limiter := limiter, admitted := admitted }
    | none => traffic

/-- A waiting check has the lock. -/
theorem step_enter {limits : Limits} {traffic : Traffic K} {check : ℕ} {key : K} {now : ℚ}
    (h : traffic.waiting[check]? = some (key, now)) :
    step limits traffic (.enter check) =
      { traffic with
        waiting := traffic.waiting.eraseIdx check
        limiter := (attempt limits (traffic.limiter, traffic.admitted) key now).1
        admitted := (attempt limits (traffic.limiter, traffic.admitted) key now).2 } := by
  rw [step, h]

/-- A run. -/
def run (limits : Limits) : Traffic K → List (Action K) → Traffic K
  | traffic, [] => traffic
  | traffic, action :: actions => run limits (step limits traffic action) actions

/-- A limiter as it is constructed. -/
def started (now : ℚ) : Traffic K := ⟨now, [], opened now, []⟩

/-- No window has more than the limit, whichever of its ends belongs to it. -/
def WithinLimit (limits : Limits) (admitted : List (K × ℚ)) : Prop :=
  ∀ key start,
    ((readings admitted key).filter fun t => start ≤ t ∧ t < start + limits.window).length ≤ limits.limit ∧
      ((readings admitted key).filter fun t => start < t ∧ t ≤ start + limits.window).length ≤ limits.limit

/-- A reading is no older than the attempts in its bucket and than the last sweep. -/
def InOrder (limiter : SlidingWindowRateLimiter K) (key : K) (now : ℚ) : Prop :=
  limiter.lastPrune ≤ now ∧ ∀ t ∈ limiter.bucket key, t ≤ now

/-- A step whose locked section, if it has one, is in order. -/
def Punctual (traffic : Traffic K) : Action K → Prop
  | .pass _ => True
  | .read _ => True
  | .enter check => ∀ key now, traffic.waiting[check]? = some (key, now) → InOrder traffic.limiter key now

/-- A run of such steps. -/
def PunctualRun (limits : Limits) : Traffic K → List (Action K) → Prop
  | _, [] => True
  | traffic, action :: actions => Punctual traffic action ∧ PunctualRun limits (step limits traffic action) actions

/-! ## What the bucket of a key has forgotten -/

/-- The log of a key is what its bucket has dropped, and the bucket. What was
dropped is a window older than the last sweep or than an attempt in the bucket,
unless the bucket is still full. -/
structure Held (limits : Limits) (limiter : SlidingWindowRateLimiter K) (key : K) (log : List ℚ) : Prop where
  /-- The log was admitted. -/
  admitted : Admitted limits.limit limits.window log
  /-- What was dropped came first. -/
  dropped : ∃ gone, log = gone ++ limiter.bucket key ∧
    ((∀ t ∈ gone, t ≤ limiter.lastPrune - limits.window ∨ ∃ s ∈ limiter.bucket key, t ≤ s - limits.window) ∨
      limits.limit ≤ (limiter.bucket key).length)

variable {limits : Limits} {limiter : SlidingWindowRateLimiter K} {key : K} {log : List ℚ} {now : ℚ}

omit [DecidableEq K] in
theorem Held.bucket_sorted (h : Held limits limiter key log) : (limiter.bucket key).Pairwise (· ≤ ·) := by
  obtain ⟨gone, hlog, -⟩ := h.dropped
  have hsorted := h.admitted.sorted
  rw [hlog, List.pairwise_append] at hsorted
  exact hsorted.2.1

omit [DecidableEq K] in
/-- What was dropped came before what is in the bucket. -/
theorem Held.gone_le {gone bucket : List ℚ} (h : Admitted limits.limit limits.window log)
    (hlog : log = gone ++ bucket) {t s : ℚ} (ht : t ∈ gone) (hs : s ∈ bucket) : t ≤ s := by
  have hsorted := h.sorted
  rw [hlog, List.pairwise_append] at hsorted
  exact hsorted.2.2 t ht s hs

omit [DecidableEq K] in
/-- A sweep keeps it. -/
theorem Held.swept (h : Held limits limiter key log) (hsweep : limiter.lastPrune ≤ now) :
    Held limits (limiter.swept limits now) key log := by
  have hsplit := swept_split limits limiter now key h.bucket_sorted
  obtain ⟨gone, hlog, hforgotten⟩ := h.dropped
  obtain ⟨swept, hbucket, hold, hwhole⟩ := hsplit
  have hlater : limiter.lastPrune ≤ (limiter.swept limits now).lastPrune := by
    cases swept_lastPrune limits limiter now with
    | inl hnow => rw [hnow]; exact hsweep
    | inr hsame => exact hsame.ge
  refine ⟨h.admitted, gone ++ swept, ?_, ?_⟩
  · rw [List.append_assoc, ← hbucket]
    exact hlog
  · cases hwhole with
    | inl hnone =>
      -- Nothing was swept out of this bucket.
      rw [hnone, List.nil_append] at hbucket
      rw [hnone, List.append_nil, ← hbucket]
      refine hforgotten.imp_left fun hgone t ht => ?_
      exact (hgone t ht).imp_left fun hle => le_trans hle (sub_le_sub_right hlater _)
    | inr hall =>
      left
      intro t ht
      rw [hall.2]
      left
      cases List.mem_append.mp ht with
      | inr hswept => exact hold t hswept
      | inl hgone =>
        rw [hall.1, List.append_nil] at hbucket
        cases hforgotten with
        | inl hforgotten =>
          cases hforgotten t hgone with
          | inl hle => linarith
          | inr hin =>
            obtain ⟨s, hs, hle⟩ := hin
            have hts := Held.gone_le h.admitted hlog hgone hs
            exact le_trans hts (hold s (hbucket ▸ hs))
        | inr hfull =>
          have hpos : 0 < (limiter.bucket key).length := Nat.lt_of_lt_of_le limits.positive hfull
          obtain ⟨s, hs⟩ := List.exists_mem_of_length_pos hpos
          have hts := Held.gone_le h.admitted hlog hgone hs
          exact le_trans hts (hold s (hbucket ▸ hs))

omit [DecidableEq K] in
/-- An attempt whose reading is in order finds in its aged bucket all of the log that
is in its window. -/
theorem Held.later_eq (h : Held limits limiter key log) (horder : InOrder limiter key now)
    (hfew : (ageOut (now - limits.window) (limiter.bucket key)).length < limits.limit) :
    later (now - limits.window) log = ageOut (now - limits.window) (limiter.bucket key) := by
  obtain ⟨gone, hlog, hforgotten⟩ := h.dropped
  have hgone : ∀ t ∈ gone, t ≤ now - limits.window := by
    intro t ht
    cases hforgotten with
    | inl hforgotten =>
      cases hforgotten t ht with
      | inl hle => linarith [horder.1]
      | inr hin =>
        obtain ⟨s, hs, hle⟩ := hin
        linarith [horder.2 s hs]
    | inr hfull =>
      -- A full bucket has lost a time, which was later than all that had been dropped.
      obtain ⟨aged, hbucket, hold⟩ := ageOut_split (now - limits.window) (limiter.bucket key)
      have hlength := congrArg List.length hbucket
      rw [List.length_append] at hlength
      have hpos : 0 < aged.length := by omega
      obtain ⟨s, hs⟩ := List.exists_mem_of_length_pos hpos
      have hmem : s ∈ limiter.bucket key := hbucket ▸ List.mem_append_left _ hs
      exact le_trans (Held.gone_le h.admitted hlog ht hmem) (hold s hs)
  rw [hlog, later_append, later_eq_nil hgone, List.nil_append, ageOut_eq_later h.bucket_sorted]

omit [DecidableEq K] in
/-- A reading that is in order is so after the sweep. -/
theorem InOrder.swept (horder : InOrder limiter key now) (hsorted : (limiter.bucket key).Pairwise (· ≤ ·)) :
    InOrder (limiter.swept limits now) key now := by
  obtain ⟨gone, hbucket, -, -⟩ := swept_split limits limiter now key hsorted
  constructor
  · cases swept_lastPrune limits limiter now with
    | inl hnow => exact hnow.le
    | inr hsame => exact hsame.le.trans horder.1
  · intro t ht
    exact horder.2 t (hbucket ▸ List.mem_append_right _ ht)

/-- What is kept for another key stays when a bucket is put back. -/
theorem Held.store_of_ne {other : K} (h : Held limits limiter other log) (hne : other ≠ key) (bucket : List ℚ) :
    Held limits (limiter.store key bucket) other log := by
  refine ⟨h.admitted, ?_⟩
  rw [store_bucket_of_ne hne, store_lastPrune]
  exact h.dropped

/-- A refused attempt leaves a full bucket. -/
theorem Held.refused (h : Held limits limiter key log)
    (hfull : limits.limit ≤ (ageOut (now - limits.window) (limiter.bucket key)).length) :
    Held limits (limiter.store key (ageOut (now - limits.window) (limiter.bucket key))) key log := by
  obtain ⟨gone, hlog, -⟩ := h.dropped
  obtain ⟨aged, hbucket, -⟩ := ageOut_split (now - limits.window) (limiter.bucket key)
  refine ⟨h.admitted, gone ++ aged, ?_, Or.inr ?_⟩
  · rw [store_bucket_self, List.append_assoc, ← hbucket]
    exact hlog
  · rw [store_bucket_self]
    exact hfull

/-- An admitted attempt is entered into the log. -/
theorem Held.allowed (h : Held limits limiter key log) (hwindow : 0 ≤ limits.window) (horder : InOrder limiter key now)
    (hfew : (ageOut (now - limits.window) (limiter.bucket key)).length < limits.limit) :
    Held limits (limiter.store key (ageOut (now - limits.window) (limiter.bucket key) ++ [now])) key (log ++ [now]) := by
  have hlater := h.later_eq horder hfew
  have hlog : log = log.filter (· ≤ now - limits.window) ++ ageOut (now - limits.window) (limiter.bucket key) := by
    have hcut : ageOut (now - limits.window) log = ageOut (now - limits.window) (limiter.bucket key) := by
      rw [ageOut_eq_later h.admitted.sorted, hlater]
    obtain ⟨gone, hsplit, hgone⟩ := ageOut_split (now - limits.window) log
    have hfront : log.filter (· ≤ now - limits.window) = gone := by
      have hback : (ageOut (now - limits.window) log).filter (· ≤ now - limits.window) = [] := by
        rw [List.filter_eq_nil_iff]
        intro t ht
        have hlt := lt_of_mem_ageOut h.admitted.sorted ht
        simpa using hlt
      have hall : gone.filter (· ≤ now - limits.window) = gone := by
        rw [List.filter_eq_self]
        intro t ht
        simpa using hgone t ht
      rw [hsplit, List.filter_append, hback, hall, List.append_nil]
    rw [hfront, ← hcut]
    exact hsplit
  have hbefore : ∀ t ∈ log, t ≤ now := by
    intro t ht
    rw [hlog, List.mem_append] at ht
    cases ht with
    | inl hold =>
      have hle : t ≤ now - limits.window := by simpa using (List.mem_filter.mp hold).2
      linarith
    | inr hkept =>
      obtain ⟨aged, hbucket, -⟩ := ageOut_split (now - limits.window) (limiter.bucket key)
      exact horder.2 t (hbucket ▸ List.mem_append_right _ hkept)
  refine ⟨h.admitted.entered hbefore (hlater ▸ hfew), log.filter (· ≤ now - limits.window), ?_, Or.inl ?_⟩
  · rw [store_bucket_self, ← List.append_assoc, ← hlog]
  · intro t ht
    rw [store_bucket_self]
    have hle : t ≤ now - limits.window := by simpa using (List.mem_filter.mp ht).2
    exact Or.inr ⟨now, List.mem_append_right _ (List.mem_singleton.mpr rfl), hle⟩

/-- An attempt that is in order keeps what is held for every key. -/
theorem held_attempt {log : List (K × ℚ)} (h : ∀ key, Held limits limiter key (readings log key))
    (hwindow : 0 ≤ limits.window) (horder : InOrder limiter key now) (other : K) :
    Held limits (attempt limits (limiter, log) key now).1 other (readings (attempt limits (limiter, log) key now).2 other) := by
  have hswept : ∀ key, Held limits (limiter.swept limits now) key (readings log key) := fun key =>
    (h key).swept horder.1
  have hin : InOrder (limiter.swept limits now) key now := horder.swept (h key).bucket_sorted
  cases attempt_cases limits limiter log key now with
  | inl hrefused =>
    rw [hrefused.2]
    by_cases hother : other = key
    · rw [hother]
      exact (hswept key).refused hrefused.1
    · exact (hswept other).store_of_ne hother _
  | inr hallowed =>
    rw [hallowed.2]
    by_cases hother : other = key
    · rw [hother, readings_admitted_self]
      exact (hswept key).allowed hwindow hin hallowed.1
    · rw [readings_admitted_of_ne hother]
      exact (hswept other).store_of_ne hother _

/-! ## Runs -/

/-- What is held for every key of a limiter. -/
def HeldAll (limits : Limits) (traffic : Traffic K) : Prop :=
  ∀ key, Held limits traffic.limiter key (readings traffic.admitted key)

theorem heldAll_started (limits : Limits) (now : ℚ) : HeldAll limits (started now : Traffic K) := fun _ =>
  ⟨Admitted.nil, [], rfl, Or.inl fun _ ht => absurd ht List.not_mem_nil⟩

theorem heldAll_step {traffic : Traffic K} {action : Action K} (h : HeldAll limits traffic)
    (hwindow : 0 ≤ limits.window) (hpunctual : Punctual traffic action) : HeldAll limits (step limits traffic action) := by
  cases action with
  | pass time => exact h
  | read key => exact h
  | enter check =>
    cases hcheck : traffic.waiting[check]? with
    | none => simpa only [step, hcheck] using h
    | some entry =>
      obtain ⟨key, now⟩ := entry
      have horder : InOrder traffic.limiter key now := hpunctual key now hcheck
      rw [step_enter hcheck]
      exact held_attempt h hwindow horder

theorem heldAll_run (hwindow : 0 ≤ limits.window) (actions : List (Action K)) :
    ∀ traffic, HeldAll limits traffic → PunctualRun limits traffic actions → HeldAll limits (run limits traffic actions) := by
  induction actions with
  | nil => exact fun traffic h _ => h
  | cons action actions ih => exact fun traffic h hrun => ih _ (heldAll_step h hwindow hrun.1) hrun.2

theorem withinLimit_of_heldAll {traffic : Traffic K} (h : HeldAll limits traffic) :
    WithinLimit limits traffic.admitted := fun key start =>
  ⟨(h key).admitted.length_within_le (within_Ico start limits.window),
    (h key).admitted.length_within_le (within_Ioc start limits.window)⟩

/-- A window without length has nothing in it. -/
theorem withinLimit_of_neg (hwindow : limits.window < 0) (admitted : List (K × ℚ)) : WithinLimit limits admitted := by
  intro key start
  have hnone : ∀ among : ℚ → Prop, ∀ [DecidablePred among], (∀ t, ¬ among t) →
      ((readings admitted key).filter among).length ≤ limits.limit := by
    intro among _ hamong
    rw [List.filter_eq_nil_iff.mpr fun t _ => by simpa using hamong t]
    exact Nat.zero_le _
  constructor
  · refine hnone _ fun t ht => ?_
    linarith [ht.1, ht.2]
  · refine hnone _ fun t ht => ?_
    linarith [ht.1, ht.2]

theorem punctualRun_take {actions : List (Action K)} :
    ∀ {traffic}, PunctualRun limits traffic actions → ∀ n, PunctualRun limits traffic (actions.take n) := by
  induction actions with
  | nil =>
    intro traffic h n
    rw [List.take_nil]
    exact h
  | cons action actions ih =>
    intro traffic h n
    cases n with
    | zero => trivial
    | succ n => exact ⟨h.1, ih h.2 n⟩

/-- In a run all of whose locked sections are in order no window has more than the
limit, in every state it reaches. -/
theorem limit_kept_in_order (limits : Limits) (now : ℚ) (actions : List (Action K))
    (hrun : PunctualRun limits (started now) actions) (n : ℕ) :
    WithinLimit limits (run limits (started now) (actions.take n)).admitted := by
  by_cases hwindow : 0 ≤ limits.window
  · have hheld := heldAll_run hwindow (actions.take n) (started now) (heldAll_started limits now) (punctualRun_take hrun n)
    exact withinLimit_of_heldAll hheld
  · exact withinLimit_of_neg (not_le.mp hwindow) _

/-! ## Checks in turn -/

/-- The next reading and those that wait, the longest waiting one first. -/
def Traffic.ahead (traffic : Traffic K) : List ℚ := traffic.waiting.map (·.2) ++ [traffic.clock]

/-- The readings that wait are in order, and nothing in the limiter is newer. -/
structure Queued (traffic : Traffic K) : Prop where
  /-- The readings are in order. -/
  sorted : traffic.ahead.Pairwise (· ≤ ·)
  /-- No section that waits is late. -/
  inOrder : ∀ now ∈ traffic.ahead, ∀ key, InOrder traffic.limiter key now

/-- A step in which the check that has waited longest has the lock. -/
def InTurn : Action K → Prop
  | .pass _ => True
  | .read _ => True
  | .enter check => check = 0

/-- Nothing in a limiter is newer than what is checked last, when that is in order. -/
theorem inOrder_attempt {log : List (K × ℚ)} {later : ℚ} (hkeys : ∀ key, InOrder limiter key now)
    (hsorted : ∀ key, (limiter.bucket key).Pairwise (· ≤ ·)) (hlater : now ≤ later) (other : K) :
    InOrder (attempt limits (limiter, log) key now).1 other later := by
  have hswept : ∀ key, InOrder (limiter.swept limits now) key now := fun key => (hkeys key).swept (hsorted key)
  have haged : ∀ t ∈ limiter.aged limits key now, t ≤ now := by
    intro t ht
    obtain ⟨gone, hbucket, -⟩ := ageOut_split (now - limits.window) ((limiter.swept limits now).bucket key)
    have hmem : t ∈ (limiter.swept limits now).bucket key := hbucket ▸ List.mem_append_right _ ht
    exact (hswept key).2 t hmem
  have hstored : ∀ bucket : List ℚ, (∀ t ∈ bucket, t ≤ now) →
      InOrder ((limiter.swept limits now).store key bucket) other later := by
    intro bucket hbucket
    refine ⟨(hswept key).1.trans hlater, fun t ht => ?_⟩
    by_cases hother : other = key
    · rw [hother, store_bucket_self] at ht
      exact (hbucket t ht).trans hlater
    · rw [store_bucket_of_ne hother] at ht
      exact ((hswept other).2 t ht).trans hlater
  cases attempt_cases limits limiter log key now with
  | inl hrefused =>
    rw [hrefused.2]
    exact hstored _ haged
  | inr hallowed =>
    rw [hallowed.2]
    refine hstored _ fun t ht => ?_
    cases List.mem_append.mp ht with
    | inl hkept => exact haged t hkept
    | inr hlast => exact (List.mem_singleton.mp hlast).le

omit [DecidableEq K] in
theorem queued_started (now : ℚ) : Queued (started now : Traffic K) where
  sorted := List.pairwise_singleton _ _
  inOrder t ht key := by
    have hnow : t = now := List.mem_singleton.mp ht
    exact ⟨hnow.ge, fun s hs => absurd hs List.not_mem_nil⟩

/-- Steps in turn keep the queue, and are in order. -/
theorem queued_step {traffic : Traffic K} {action : Action K} (h : Queued traffic) (hheld : HeldAll limits traffic)
    (hturn : InTurn action) : Queued (step limits traffic action) ∧ Punctual traffic action := by
  cases action with
  | pass time =>
    have htime : (0 : ℚ) ≤ time := time.2
    have hclock : traffic.clock ∈ traffic.ahead := List.mem_append_right _ (List.mem_singleton.mpr rfl)
    have hparts := List.pairwise_append.mp h.sorted
    refine ⟨⟨?_, fun now hnow key => ?_⟩, trivial⟩
    · refine List.pairwise_append.mpr ⟨hparts.1, List.pairwise_singleton _ _, fun t ht s hs => ?_⟩
      have hbefore := hparts.2.2 t ht traffic.clock (List.mem_singleton.mpr rfl)
      have hs' : s = traffic.clock + time := List.mem_singleton.mp hs
      linarith
    · cases List.mem_append.mp hnow with
      | inl hwaits => exact h.inOrder now (List.mem_append_left _ hwaits) key
      | inr hlast =>
        have hin := h.inOrder traffic.clock hclock key
        have hlater : traffic.clock ≤ now := by
          have hnow' : now = traffic.clock + time := List.mem_singleton.mp hlast
          linarith
        exact ⟨hin.1.trans hlater, fun t ht => (hin.2 t ht).trans hlater⟩
  | read key =>
    have hahead : (step limits traffic (.read key)).ahead = traffic.ahead ++ [traffic.clock] := by
      simp [step, Traffic.ahead]
    have hclock : ∀ now ∈ traffic.ahead, now ≤ traffic.clock := by
      intro now hnow
      cases List.mem_append.mp hnow with
      | inl hwaits => exact (List.pairwise_append.mp h.sorted).2.2 now hwaits _ (List.mem_singleton.mpr rfl)
      | inr hlast => exact (List.mem_singleton.mp hlast).le
    refine ⟨⟨?_, fun now hnow other => ?_⟩, trivial⟩
    · rw [hahead]
      refine List.pairwise_append.mpr ⟨h.sorted, List.pairwise_singleton _ _, fun t ht s hs => ?_⟩
      rw [List.mem_singleton.mp hs]
      exact hclock t ht
    · rw [hahead] at hnow
      cases List.mem_append.mp hnow with
      | inl hahead => exact h.inOrder now hahead other
      | inr hlast =>
        rw [List.mem_singleton.mp hlast]
        exact h.inOrder traffic.clock (List.mem_append_right _ (List.mem_singleton.mpr rfl)) other
  | enter check =>
    have hzero : check = 0 := hturn
    rw [hzero]
    cases hwaiting : traffic.waiting with
    | nil =>
      have hnone : traffic.waiting[0]? = none := by rw [hwaiting]; rfl
      refine ⟨by simpa only [step, hnone] using h, fun key now hcheck => ?_⟩
      rw [hnone] at hcheck
      cases hcheck
    | cons first rest =>
      obtain ⟨key, now⟩ := first
      have hfirst : traffic.waiting[0]? = some (key, now) := by rw [hwaiting]; rfl
      have hahead : traffic.ahead = now :: (rest.map (·.2) ++ [traffic.clock]) := by rw [Traffic.ahead, hwaiting]; rfl
      have hsorted := h.sorted
      rw [hahead, List.pairwise_cons] at hsorted
      have hnow : ∀ other, InOrder traffic.limiter other now := h.inOrder now (hahead ▸ List.mem_cons_self)
      have hrest : (step limits traffic (.enter 0)).ahead = rest.map (·.2) ++ [traffic.clock] := by
        rw [step_enter hfirst, Traffic.ahead, hwaiting]
        rfl
      refine ⟨⟨?_, fun later hlater other => ?_⟩, fun other time hcheck => ?_⟩
      · rw [hrest]
        exact hsorted.2
      · rw [hrest] at hlater
        rw [step_enter hfirst]
        exact inOrder_attempt hnow (fun key => (hheld key).bucket_sorted) (hsorted.1 later hlater) other
      · rw [hfirst, Option.some.injEq, Prod.mk.injEq] at hcheck
        rw [← hcheck.1, ← hcheck.2]
        exact hnow key

/-- Checks that have the lock in the order of their readings are all in order. -/
theorem punctualRun_in_turn (hwindow : 0 ≤ limits.window) (actions : List (Action K)) :
    ∀ traffic, Queued traffic → HeldAll limits traffic → (∀ action ∈ actions, InTurn action) →
      PunctualRun limits traffic actions := by
  induction actions with
  | nil => exact fun _ _ _ _ => trivial
  | cons action actions ih =>
    intro traffic hqueued hheld hturn
    have hstep := queued_step hqueued hheld (hturn action List.mem_cons_self)
    have hnext := heldAll_step hheld hwindow hstep.2
    exact ⟨hstep.2, ih _ hstep.1 hnext fun a ha => hturn a (List.mem_cons_of_mem _ ha)⟩

/-- Two a minute. -/
def twoPerMinute : Limits := ⟨2, 60, by decide⟩

/-- Three checks; the first two wait at once, then the last two, and they have the lock in the order of their readings. -/
def inTurn : List (Action String) :=
  [.read "login:a", .pass 30, .read "login:a", .enter 0, .pass 20, .read "login:a", .enter 0, .enter 0]

/-- The third is refused, and the limit is kept. -/
theorem limit_kept_in_turn : readings (run twoPerMinute (started 0) (inTurn.take 8)).admitted "login:a" = [0, 30] ∧
    WithinLimit twoPerMinute (run twoPerMinute (started 0) (inTurn.take 8)).admitted := by
  have hwindow : 0 ≤ twoPerMinute.window := by decide +kernel
  have hturn : ∀ action ∈ inTurn, InTurn action := by simp [inTurn, InTurn]
  have hrun : PunctualRun twoPerMinute (started 0) inTurn :=
    punctualRun_in_turn hwindow inTurn _ (queued_started 0) (heldAll_started twoPerMinute 0) hturn
  exact ⟨by decide +kernel, limit_kept_in_order twoPerMinute 0 inTurn hrun 8⟩

/-- The check that reads 59 has the lock after the one that reads 62. -/
def lateSection : List (Action String) :=
  [.read "login:a", .enter 0, .pass 1, .read "login:a", .enter 0, .pass 58, .read "login:a", .pass (1 + 1 + 1),
    .read "login:a", .enter 1, .enter 0]

/-- Attempts at 0, 1 and 59 are admitted, three in a minute. -/
theorem late_section_admitted : ¬ WithinLimit twoPerMinute (run twoPerMinute (started 0) lateSection).admitted := by
  intro h
  have hreadings : readings (run twoPerMinute (started 0) lateSection).admitted "login:a" = [0, 1, 62, 59] := by
    decide +kernel
  have hwindow := (h "login:a" 0).1
  rw [hreadings] at hwindow
  exact absurd hwindow (by decide +kernel)

end RagSystem.RateLimitOverlaps
