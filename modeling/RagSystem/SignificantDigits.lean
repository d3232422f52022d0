import Mathlib.Data.Int.Log
import Mathlib.Data.Rat.Floor
import RagSystem.Doubles

/-!
# Numbers with so many significant digits

The general format writes a number with at most so many significant digits, in
fixed or scientific notation, without trailing zeros. What is read back is the
number rounded to these digits, which is the number itself exactly where it has
no more.
-/

namespace RagSystem.SignificantDigits

open Doubles

set_option autoImplicit false

section Format

/-- The layout of the general format: digits, of which `point` stand before the point, with an exponent when the point
is too far off. -/
def generalLayout (precision : ℕ) (negative : Bool) (digits : List ℕ) (point : ℤ) : List Char :=
  if point ≤ -4 ∨ precision < point then numeralText negative (digits.take 1) (digits.drop 1) (some (point - 1))
  else if point ≤ 0 then numeralText negative [0] (List.replicate (-point).toNat 0 ++ digits) none
  else if digits.length ≤ point then
    numeralText negative (digits ++ List.replicate (point.toNat - digits.length) 0) (List.replicate 0 0) none
  else numeralText negative (digits.take point.toNat) (digits.drop point.toNat) none

/-- The power of ten of the last significant digit. -/
def lastPower (precision : ℕ) (value : ℚ) : ℤ := Int.log 10 |value| - (precision - 1 : ℕ)

/-- A number in units of its last significant digit. -/
def scaled (precision : ℕ) (value : ℚ) : ℚ := |value| / 10 ^ lastPower precision value

/-- A number other than zero, rounded to its significant digits, ties to even. -/
def significant (precision : ℕ) (value : ℚ) : Decimal :=
  ⟨value < 0, roundHalfEven (scaled precision value).num.natAbs (scaled precision value).den, lastPower precision value⟩

/-- A decimal in the general layout, without trailing zeros. -/
def generalText (precision : ℕ) (decimal : Decimal) : List Char :=
  let stripped := stripZeros (digitsOf decimal.coefficient).length decimal.coefficient decimal.exponent
  generalLayout precision decimal.negative (digitsOf stripped.1) (stripped.2 + (digitsOf stripped.1).length)

/-- The general format, of at least one digit. -/
def formatGeneral (precision : ℕ) (value : ℚ) : List Char :=
  if value = 0 then numeralText false [0] [] none else generalText precision (significant precision value)

/-- The number a decimal is. -/
def signed (decimal : Decimal) : ℚ := (if decimal.negative then -1 else 1) * decimal.magnitude

/-- A number rounded to its significant digits. -/
def rounded (precision : ℕ) (value : ℚ) : ℚ := if value = 0 then 0 else signed (significant precision value)

/-- A number has so many significant digits at most. -/
def HasDigits (precision : ℕ) (value : ℚ) : Prop := ∃ (m e : ℤ), |m| < 10 ^ precision ∧ value = m * 10 ^ e

end Format

section Reading

variable {precision : ℕ} {value : ℚ}

/-- The general layout's numeral has the value of the digits. -/
theorem spells_generalLayout (precision : ℕ) (negative : Bool) {digits : List ℕ} (point : ℤ) (hd : AllDigits digits)
    (hne : digits ≠ []) (hlead : digits.head? ≠ some 0) :
    Spells negative (generalLayout precision negative digits point) (natOf digits * 10 ^ (point - digits.length)) := by
  unfold generalLayout
  split
  · exact spells_scientific negative point hd hne hlead
  · split
    · exact spells_small negative hd (by omega)
    · split
      · exact spells_whole negative 0 hd hne hlead (by omega)
      · exact spells_within negative hd hlead (by omega) (by omega)

/-- The number a numeral spells is read. -/
theorem signed_of_spells {negative : Bool} {text : List Char} {value : ℚ} (hs : Spells negative text value) :
    ∃ decimal, readNumeral text = some decimal ∧ signed decimal = (if negative then -1 else 1) * value := by
  obtain ⟨whole, fraction, exponent, rfl, hw, hne, hlead, hf, rfl⟩ := hs
  exact ⟨_, readNumeral_text negative exponent hw hne hlead hf, rfl⟩

theorem scaled_bounds (precision : ℕ) (hvalue : value ≠ 0) :
    (10 : ℚ) ^ (precision - 1) ≤ scaled precision value ∧ scaled precision value < 10 ^ (precision - 1 + 1) := by
  have habs : 0 < |value| := abs_pos.mpr hvalue
  have hpos : (0 : ℚ) < 10 ^ lastPower precision value := zpow_pos (by norm_num) _
  have hlow := Int.zpow_log_le_self (b := 10) (by norm_num) habs
  have hhigh := Int.lt_zpow_succ_log_self (b := 10) (by norm_num) |value|
  push_cast at hlow hhigh
  have hten : (10 : ℚ) ≠ 0 := by norm_num
  rw [scaled, le_div_iff₀ hpos, div_lt_iff₀ hpos, ← zpow_natCast, ← zpow_natCast, ← zpow_add₀ hten, ← zpow_add₀ hten]
  have hfirst : ((precision - 1 : ℕ) : ℤ) + lastPower precision value = Int.log 10 |value| := by
    rw [lastPower]
    omega
  have hsecond : ((precision - 1 + 1 : ℕ) : ℤ) + lastPower precision value = Int.log 10 |value| + 1 := by
    rw [lastPower]
    omega
  rw [hfirst, hsecond]
  exact ⟨hlow, hhigh⟩

/-- A quotient is rounded by one at most. -/
theorem div_le_roundHalfEven (a b : ℕ) : a / b ≤ roundHalfEven a b := by
  unfold roundHalfEven
  split <;> omega

theorem coefficient_bounds (precision : ℕ) (hvalue : value ≠ 0) : 0 < (significant precision value).coefficient ∧
    (significant precision value).coefficient ≤ 10 ^ (precision - 1 + 1) := by
  obtain ⟨hlow, hhigh⟩ := scaled_bounds precision hvalue
  have hden : (0 : ℚ) < (scaled precision value).den := by exact_mod_cast (scaled precision value).den_pos
  have hnonneg : 0 ≤ scaled precision value := le_trans (by positivity) hlow
  have hquotient : scaled precision value = ((scaled precision value).num.natAbs : ℚ) / (scaled precision value).den := by
    have hnum : (((scaled precision value).num.natAbs : ℤ) : ℚ) = (scaled precision value).num := by
      rw [Int.natAbs_of_nonneg (Rat.num_nonneg.mpr hnonneg)]
    rw [← Int.cast_natCast, hnum]
    exact (Rat.num_div_den _).symm
  have hone : (1 : ℚ) ≤ 10 ^ (precision - 1) := one_le_pow₀ (by norm_num)
  have hle : (scaled precision value).den ≤ (scaled precision value).num.natAbs := by
    have hscaled := hone.trans hlow
    rw [hquotient, le_div_iff₀ hden, one_mul] at hscaled
    exact_mod_cast hscaled
  have hlt : (scaled precision value).num.natAbs < 10 ^ (precision - 1 + 1) * (scaled precision value).den := by
    rw [hquotient, div_lt_iff₀ hden] at hhigh
    exact_mod_cast hhigh
  have hfirst : 0 < (scaled precision value).num.natAbs / (scaled precision value).den :=
    Nat.div_pos hle (scaled precision value).den_pos
  have hsecond : (scaled precision value).num.natAbs / (scaled precision value).den < 10 ^ (precision - 1 + 1) :=
    (Nat.div_lt_iff_lt_mul (scaled precision value).den_pos).mpr hlt
  have hdown := div_le_roundHalfEven (scaled precision value).num.natAbs (scaled precision value).den
  have hup := roundHalfEven_le (scaled precision value).num.natAbs (scaled precision value).den
  rw [significant]
  dsimp only
  omega

/-- A decimal in the general layout is a numeral of its magnitude. -/
theorem spells_generalText (precision : ℕ) {decimal : Decimal} (hc : decimal.coefficient ≠ 0) :
    Spells decimal.negative (generalText precision decimal) decimal.magnitude := by
  have hvalue := stripZeros_value (digitsOf decimal.coefficient).length decimal.coefficient decimal.exponent
  have hne := stripZeros_ne_zero (digitsOf decimal.coefficient).length decimal.exponent hc
  set stripped := stripZeros (digitsOf decimal.coefficient).length decimal.coefficient decimal.exponent with hs
  have hl := spells_generalLayout precision decimal.negative (stripped.2 + (digitsOf stripped.1).length)
    (allDigits_digitsOf stripped.1) (digitsOf_ne_nil stripped.1) (digitsOf_head hne)
  rw [natOf_digitsOf, add_sub_cancel_right, hvalue] at hl
  exact hl

/-- What is written is a numeral of the rounded number. -/
theorem spells_formatGeneral (precision : ℕ) (value : ℚ) : ∃ negative magnitude,
    Spells negative (formatGeneral precision value) magnitude ∧
      (if negative then -1 else 1) * magnitude = rounded precision value := by
  rw [formatGeneral, rounded]
  by_cases hzero : value = 0
  · rw [if_pos hzero, if_pos hzero]
    refine ⟨false, 0, ⟨[0], [], none, rfl, by simp [AllDigits], by simp, by simp, by simp [AllDigits], ?_⟩, by simp⟩
    have hnone : natOf ([0] ++ []) = 0 := natOf_replicate_zero 1
    rw [hnone, Nat.cast_zero, zero_mul]
  · rw [if_neg hzero, if_neg hzero]
    have hspells := spells_generalText precision (coefficient_bounds precision hzero).1.ne'
    exact ⟨_, _, hspells, rfl⟩

/-- What is written is read as the rounded number. -/
theorem readNumeral_formatGeneral (precision : ℕ) (value : ℚ) :
    ∃ decimal, readNumeral (formatGeneral precision value) = some decimal ∧ signed decimal = rounded precision value := by
  obtain ⟨negative, magnitude, hspells, hvalue⟩ := spells_formatGeneral precision value
  obtain ⟨decimal, hread, hsigned⟩ := signed_of_spells hspells
  exact ⟨decimal, hread, hsigned.trans hvalue⟩

end Reading

section Exact

variable {precision : ℕ} {value : ℚ}

theorem sign_mul_abs (value : ℚ) : (if (decide (value < 0)) = true then -1 else 1) * |value| = value := by
  by_cases hneg : value < 0
  · simp [hneg, abs_of_neg hneg]
  · simp [hneg, abs_of_nonneg (not_lt.mp hneg)]

/-- A rounded number has no more than the significant digits. -/
theorem hasDigits_rounded (hprecision : precision ≠ 0) (value : ℚ) : HasDigits precision (rounded precision value) := by
  have hten : (1 : ℤ) < 10 ^ precision := one_lt_pow₀ (by norm_num) hprecision
  rw [rounded]
  by_cases hzero : value = 0
  · rw [if_pos hzero]
    exact ⟨0, 0, by rw [abs_zero]; omega, by simp⟩
  · rw [if_neg hzero]
    obtain ⟨-, hhigh⟩ := coefficient_bounds precision hzero
    obtain ⟨fewer, rfl⟩ : ∃ fewer, precision = fewer + 1 := ⟨precision - 1, by omega⟩
    rw [Nat.add_sub_cancel] at hhigh
    have hsign : ∃ sign : ℤ, |sign| = 1 ∧
        ((if (significant (fewer + 1) value).negative = true then -1 else 1 : ℚ)) = sign := by
      cases (significant (fewer + 1) value).negative with
      | true => exact ⟨-1, by simp, by simp⟩
      | false => exact ⟨1, by simp, by simp⟩
    obtain ⟨sign, habs, hsign⟩ := hsign
    rw [signed, hsign, Decimal.magnitude]
    rcases Nat.lt_or_eq_of_le hhigh with hlt | heq
    · refine ⟨sign * (significant (fewer + 1) value).coefficient, (significant (fewer + 1) value).exponent, ?_, ?_⟩
      · rw [abs_mul, habs, one_mul, Nat.abs_cast]
        exact_mod_cast hlt
      · push_cast
        ring
    · -- all digits were rounded up
      refine ⟨sign, (fewer + 1 : ℕ) + (significant (fewer + 1) value).exponent, by rw [habs]; exact hten, ?_⟩
      have hne : (10 : ℚ) ≠ 0 := by norm_num
      rw [heq, zpow_add₀ hne, zpow_natCast]
      push_cast
      ring

/-- A number with no more than the significant digits is not rounded. -/
theorem rounded_of_hasDigits (h : HasDigits precision value) : rounded precision value = value := by
  rw [rounded]
  by_cases hzero : value = 0
  · rw [if_pos hzero, hzero]
  · rw [if_neg hzero]
    obtain ⟨m, e, hm, rfl⟩ := h
    have hten : (10 : ℚ) ≠ 0 := by norm_num
    have habs : |(m : ℚ) * 10 ^ e| = |(m : ℚ)| * 10 ^ e := by
      rw [abs_mul, abs_of_pos (zpow_pos (by norm_num : (0 : ℚ) < 10) e)]
    have hpos : 0 < |(m : ℚ) * 10 ^ e| := abs_pos.mpr hzero
    -- the last significant digit stands no higher than the last digit there is
    have hplace : lastPower precision ((m : ℚ) * 10 ^ e) ≤ e := by
      have hlt : |(m : ℚ) * 10 ^ e| < 10 ^ ((precision : ℤ) + e) := by
        rw [habs, zpow_add₀ hten, zpow_natCast]
        have hcast : |(m : ℚ)| < 10 ^ precision := by exact_mod_cast hm
        exact mul_lt_mul_of_pos_right hcast (zpow_pos (by norm_num) e)
      have hlog := (Int.lt_zpow_iff_log_lt (b := 10) (by norm_num) hpos).mp (by exact_mod_cast hlt)
      rw [lastPower]
      omega
    obtain ⟨k, hk⟩ : ∃ k : ℕ, e = lastPower precision ((m : ℚ) * 10 ^ e) + k :=
      ⟨(e - lastPower precision ((m : ℚ) * 10 ^ e)).toNat, by omega⟩
    have hscaled : scaled precision ((m : ℚ) * 10 ^ e) = ((m.natAbs * 10 ^ k : ℕ) : ℚ) := by
      have hpower : (10 : ℚ) ^ e = 10 ^ lastPower precision ((m : ℚ) * 10 ^ e) * 10 ^ k := by
        conv_lhs => rw [hk]
        rw [zpow_add₀ hten, zpow_natCast]
      rw [scaled, div_eq_iff (zpow_ne_zero _ hten), habs]
      conv_lhs => rw [hpower]
      push_cast
      rw [Nat.cast_natAbs, Int.cast_abs]
      ring
    have hcoefficient : ((significant precision ((m : ℚ) * 10 ^ e)).coefficient : ℚ) = scaled precision ((m : ℚ) * 10 ^ e) := by
      rw [significant]
      dsimp only
      rw [hscaled, Rat.num_natCast, Rat.den_natCast, Int.natAbs_natCast]
      have hexact := roundHalfEven_mul (m := m.natAbs * 10 ^ k) Nat.one_pos
      rw [Nat.mul_one] at hexact
      rw [hexact]
    rw [signed, Decimal.magnitude, hcoefficient, scaled]
    dsimp only [significant]
    rw [div_mul_cancel₀ _ (zpow_ne_zero _ hten)]
    exact sign_mul_abs _

/-- A number is read back exactly where it has no more than the significant digits. -/
theorem rounded_eq_iff (hprecision : precision ≠ 0) : rounded precision value = value ↔ HasDigits precision value := by
  constructor
  · intro h
    rw [← h]
    exact hasDigits_rounded hprecision value
  · exact rounded_of_hasDigits

/-- A whole number that does not end in zero has its digits. -/
theorem hasDigits_natCast {n : ℕ} (hn : ¬ 10 ∣ n) : HasDigits precision (n : ℚ) ↔ n < 10 ^ precision := by
  constructor
  · rintro ⟨m, e, hm, hvalue⟩
    have hten : (10 : ℚ) ≠ 0 := by norm_num
    rcases le_or_gt e 0 with hle | hgt
    · obtain ⟨k, rfl⟩ : ∃ k : ℕ, e = -(k : ℤ) := ⟨(-e).toNat, by omega⟩
      have hwhole : (n : ℤ) * 10 ^ k = m := by
        rw [zpow_neg, zpow_natCast, ← div_eq_mul_inv, eq_div_iff (pow_ne_zero k hten)] at hvalue
        exact_mod_cast hvalue
      have hle : (n : ℤ) ≤ n * 10 ^ k := le_mul_of_one_le_right (by omega) (one_le_pow₀ (by norm_num))
      have hlt : (n : ℤ) < 10 ^ precision := by
        rw [← hwhole, abs_of_nonneg (by positivity)] at hm
        omega
      exact_mod_cast hlt
    · obtain ⟨k, rfl⟩ : ∃ k : ℕ, e = k + 1 := ⟨(e - 1).toNat, by omega⟩
      have hwhole : (n : ℤ) = m * 10 ^ k * 10 := by
        have hpower : (10 : ℚ) ^ ((k : ℤ) + 1) = 10 ^ k * 10 := by rw [zpow_add_one₀ hten, zpow_natCast]
        rw [hpower, ← mul_assoc] at hvalue
        exact_mod_cast hvalue
      have hdvd : (10 : ℤ) ∣ n := ⟨m * 10 ^ k, by rw [hwhole]; ring⟩
      exact absurd (by exact_mod_cast hdvd) hn
  · intro hlt
    refine ⟨n, 0, ?_, by simp⟩
    rw [Nat.abs_cast]
    exact_mod_cast hlt

end Exact

end RagSystem.SignificantDigits
