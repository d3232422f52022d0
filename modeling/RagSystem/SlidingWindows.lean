import Mathlib.Algebra.Order.Group.Basic
import Mathlib.Algebra.Order.Group.Defs
import Mathlib.Data.List.Basic
import Mathlib.Data.List.TakeWhile

/-!
# Sliding windows

Times are entered into a log as long as fewer than a limit of the entered ones
are in the window that ends now. When the times come in order, no window of that
length ever has more than the limit in it.
-/

namespace RagSystem.SlidingWindows

set_option autoImplicit false

variable {T : Type} [LinearOrder T]

/-- The times later than a cutoff. -/
def later (cutoff : T) (log : List T) : List T := log.filter (cutoff < ·)

/-- The times up to a cutoff are taken off the front, until one is later. -/
def ageOut (cutoff : T) (bucket : List T) : List T := bucket.dropWhile (· ≤ cutoff)

variable {cutoff : T} {bucket dropped log : List T}

@[simp] theorem later_append (cutoff : T) (front back : List T) :
    later cutoff (front ++ back) = later cutoff front ++ later cutoff back := List.filter_append front back

@[simp] theorem mem_later {t : T} : t ∈ later cutoff log ↔ t ∈ log ∧ cutoff < t := by
  simp [later]

/-- Nothing is later than a cutoff that all have reached. -/
theorem later_eq_nil (h : ∀ t ∈ log, t ≤ cutoff) : later cutoff log = [] := by
  rw [later, List.filter_eq_nil_iff]
  intro t ht hlater
  have hlt : cutoff < t := by simpa using hlater
  exact absurd (h t ht) (not_le.mpr hlt)

theorem later_eq_self (h : ∀ t ∈ log, cutoff < t) : later cutoff log = log := by
  rw [later, List.filter_eq_self]
  intro t ht
  simpa using h t ht

/-- What is aged out is up to the cutoff. -/
theorem ageOut_split (cutoff : T) (bucket : List T) :
    ∃ gone, bucket = gone ++ ageOut cutoff bucket ∧ ∀ t ∈ gone, t ≤ cutoff := by
  have hgone : ∀ t ∈ bucket.takeWhile (· ≤ cutoff), t ≤ cutoff := by
    intro t ht
    have hle := List.mem_takeWhile_imp ht
    simpa using hle
  exact ⟨bucket.takeWhile (· ≤ cutoff), List.takeWhile_append_dropWhile.symm, hgone⟩

/-- Of times in order, all that are left are later. -/
theorem lt_of_mem_ageOut (hsorted : bucket.Pairwise (· ≤ ·)) {t : T} (ht : t ∈ ageOut cutoff bucket) : cutoff < t := by
  induction bucket with
  | nil => exact absurd ht List.not_mem_nil
  | cons first rest ih =>
    have hparts := List.pairwise_cons.mp hsorted
    by_cases hfirst : first ≤ cutoff
    · have hdrop : ageOut cutoff (first :: rest) = ageOut cutoff rest := List.dropWhile_cons_of_pos (by simpa using hfirst)
      rw [hdrop] at ht
      exact ih hparts.2 ht
    · have hkeep : ageOut cutoff (first :: rest) = first :: rest := List.dropWhile_cons_of_neg (by simpa using hfirst)
      rw [hkeep] at ht
      have hlt : cutoff < first := not_le.mp hfirst
      cases List.mem_cons.mp ht with
      | inl hhere => rw [hhere]; exact hlt
      | inr hrest => exact lt_of_lt_of_le hlt (hparts.1 t hrest)

/-- What is left of times in order is what is later. -/
theorem ageOut_eq_later (hsorted : bucket.Pairwise (· ≤ ·)) : ageOut cutoff bucket = later cutoff bucket := by
  have hsplit := ageOut_split cutoff bucket
  obtain ⟨gone, hbucket, hgone⟩ := hsplit
  have hlater : later cutoff bucket = later cutoff gone ++ later cutoff (ageOut cutoff bucket) := by
    rw [← later_append, ← hbucket]
  rw [hlater, later_eq_nil hgone, later_eq_self fun t ht => lt_of_mem_ageOut hsorted ht, List.nil_append]

section Log

variable [AddCommGroup T] {limit : ℕ} {window : T}

/-- A log in order, every time of which found fewer than the limit in the window before it. -/
inductive Admitted (limit : ℕ) (window : T) : List T → Prop
  /-- Nothing is entered yet. -/
  | nil : Admitted limit window []
  /-- One more is entered. -/
  | entered {log : List T} {now : T} (hlog : Admitted limit window log) (horder : ∀ t ∈ log, t ≤ now)
      (hfew : (later (now - window) log).length < limit) : Admitted limit window (log ++ [now])

theorem Admitted.sorted (h : Admitted limit window log) : log.Pairwise (· ≤ ·) := by
  induction h with
  | nil => exact List.Pairwise.nil
  | entered hlog horder hfew ih =>
    rw [List.pairwise_append]
    refine ⟨ih, List.pairwise_singleton _ _, fun t ht s hs => ?_⟩
    rw [List.mem_singleton.mp hs]
    exact horder t ht

/-- Times of which no two are a window apart. -/
def Within (window : T) (among : T → Prop) : Prop := ∀ s t, among s → among t → t - window < s

theorem within_Ico [IsOrderedAddMonoid T] (start window : T) : Within window fun t => start ≤ t ∧ t < start + window := by
  intro s t hs ht
  have hlt : t - window < start := sub_lt_iff_lt_add.mpr ht.2
  exact lt_of_lt_of_le hlt hs.1

theorem within_Ioc [IsOrderedAddMonoid T] (start window : T) : Within window fun t => start < t ∧ t ≤ start + window := by
  intro s t hs ht
  have hle : t - window ≤ start := sub_le_iff_le_add.mpr ht.2
  exact lt_of_le_of_lt hle hs.1

/-- At most the limit are within a window. -/
theorem Admitted.length_within_le (h : Admitted limit window log) {among : T → Prop} [DecidablePred among]
    (hamong : Within window among) : (log.filter among).length ≤ limit := by
  induction h with
  | nil => exact Nat.zero_le _
  | @entered log now hlog horder hfew ih =>
    by_cases hnow : among now
    · -- The others in the window are later than where the one of `now` begins.
      have hsub : (log.filter among).length ≤ (later (now - window) log).length := by
        refine (List.monotone_filter_right log fun t ht => ?_).length_le
        have hwithin : among t := by simpa using ht
        simpa using hamong t now hwithin hnow
      have hlast : [now].filter among = [now] := by simp [hnow]
      rw [List.filter_append, hlast, List.length_append, List.length_singleton]
      omega
    · have hlast : [now].filter among = [] := by simp [hnow]
      rw [List.filter_append, hlast, List.append_nil]
      exact ih

end Log

end RagSystem.SlidingWindows
