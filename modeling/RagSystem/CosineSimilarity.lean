import Mathlib.Analysis.InnerProductSpace.PiL2
import Mathlib.Algebra.BigOperators.Fin

/-!
# Cosine similarity of two lists

The lists are compared as far as both go. The similarity is never below -1, and
is -1 exactly for a vector and a negative multiple of it.
-/

namespace RagSystem.CosineSimilarity

set_option autoImplicit false

/-- The inner product of two lists, as far as both go. -/
def dot (pairs : List (ℝ × ℝ)) : ℝ := (pairs.map fun pair => pair.1 * pair.2).sum

/-- The square of the length of the first. -/
def normLeft (pairs : List (ℝ × ℝ)) : ℝ := (pairs.map fun pair => pair.1 * pair.1).sum

/-- The square of the length of the second. -/
def normRight (pairs : List (ℝ × ℝ)) : ℝ := (pairs.map fun pair => pair.2 * pair.2).sum

/-- The cosine of the angle between two lists, zero for a zero vector. -/
noncomputable def cosineSimilarity (a b : List ℝ) : ℝ :=
  let pairs := a.zip b
  if normLeft pairs ≤ 0 ∨ normRight pairs ≤ 0 then 0
  else dot pairs / (Real.sqrt (normLeft pairs) * Real.sqrt (normRight pairs))

/-- As far as both go, the first is not zero and the second is a negative multiple of it. -/
def Opposite (a b : List ℝ) : Prop :=
  (∃ pair ∈ a.zip b, pair.1 ≠ 0) ∧ ∃ r < 0, ∀ pair ∈ a.zip b, pair.2 = r * pair.1

variable (pairs : List (ℝ × ℝ))

/-- The first of two lists as a vector. -/
noncomputable def left : EuclideanSpace ℝ (Fin pairs.length) := WithLp.toLp 2 fun i => pairs[i].1

/-- The second. -/
noncomputable def right : EuclideanSpace ℝ (Fin pairs.length) := WithLp.toLp 2 fun i => pairs[i].2

theorem inner_eq_dot : inner ℝ (left pairs) (right pairs) = dot pairs := by
  rw [PiLp.inner_apply, dot, ← Fin.sum_univ_fun_getElem]
  refine Finset.sum_congr rfl fun i _ => ?_
  simp [left, right, mul_comm]

theorem norm_left_eq : ‖left pairs‖ = Real.sqrt (normLeft pairs) := by
  rw [EuclideanSpace.norm_eq, normLeft, ← Fin.sum_univ_fun_getElem]
  congr 1
  refine Finset.sum_congr rfl fun i _ => ?_
  simp [left, sq]

theorem norm_right_eq : ‖right pairs‖ = Real.sqrt (normRight pairs) := by
  rw [EuclideanSpace.norm_eq, normRight, ← Fin.sum_univ_fun_getElem]
  congr 1
  refine Finset.sum_congr rfl fun i _ => ?_
  simp [right, sq]

/-- The similarity is the inner product over the lengths, also for a zero vector. -/
theorem cosineSimilarity_eq (a b : List ℝ) :
    cosineSimilarity a b =
      inner ℝ (left (a.zip b)) (right (a.zip b)) / (‖left (a.zip b)‖ * ‖right (a.zip b)‖) := by
  rw [inner_eq_dot, norm_left_eq, norm_right_eq, cosineSimilarity]
  split
  · next hzero =>
    cases hzero with
    | inl hleft => rw [Real.sqrt_eq_zero_of_nonpos hleft, zero_mul, div_zero]
    | inr hright => rw [Real.sqrt_eq_zero_of_nonpos hright, mul_zero, div_zero]
  · rfl

theorem neg_one_le_cosineSimilarity (a b : List ℝ) : -1 ≤ cosineSimilarity a b := by
  rw [cosineSimilarity_eq]
  exact (abs_le.mp (abs_real_inner_div_norm_mul_norm_le_one _ _)).1

theorem left_eq_zero_iff : left pairs = 0 ↔ ∀ pair ∈ pairs, pair.1 = 0 := by
  constructor
  · intro hzero pair hpair
    obtain ⟨i, hi, hget⟩ := List.getElem_of_mem hpair
    have hcoord := congrArg (fun v : EuclideanSpace ℝ (Fin pairs.length) => v ⟨i, hi⟩) hzero
    simpa [left, hget] using hcoord
  · intro hall
    ext i
    simpa [left] using hall _ (List.getElem_mem i.2)

theorem right_eq_smul_iff (r : ℝ) : right pairs = r • left pairs ↔ ∀ pair ∈ pairs, pair.2 = r * pair.1 := by
  constructor
  · intro heq pair hpair
    obtain ⟨i, hi, hget⟩ := List.getElem_of_mem hpair
    have hcoord := congrArg (fun v : EuclideanSpace ℝ (Fin pairs.length) => v ⟨i, hi⟩) heq
    simpa [left, right, hget] using hcoord
  · intro hall
    ext i
    simpa [left, right] using hall _ (List.getElem_mem i.2)

/-- The similarity is -1 exactly for opposite vectors. -/
theorem cosineSimilarity_eq_neg_one_iff (a b : List ℝ) : cosineSimilarity a b = -1 ↔ Opposite a b := by
  have hnonzero : left (a.zip b) ≠ 0 ↔ ∃ pair ∈ a.zip b, pair.1 ≠ 0 := by
    simp only [Ne, left_eq_zero_iff, not_forall, exists_prop]
  rw [cosineSimilarity_eq, real_inner_div_norm_mul_norm_eq_neg_one_iff, Opposite, hnonzero]
  refine and_congr_right fun _ => exists_congr fun r => ?_
  rw [right_eq_smul_iff]

/-- Above -1 is every pair of vectors that are not opposite. -/
theorem neg_one_lt_cosineSimilarity_iff (a b : List ℝ) : -1 < cosineSimilarity a b ↔ ¬ Opposite a b := by
  rw [← cosineSimilarity_eq_neg_one_iff]
  constructor
  · exact fun hlt heq => absurd heq hlt.ne'
  · exact fun hne => lt_of_le_of_ne (neg_one_le_cosineSimilarity a b) fun heq => hne heq.symm

end RagSystem.CosineSimilarity
