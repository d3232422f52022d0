import Mathlib.Algebra.Order.Field.Rat
import Mathlib.Data.Nat.Digits.Lemmas
import Mathlib.Tactic.FieldSimp
import Mathlib.Tactic.Positivity
import Mathlib.Tactic.Ring

/-!
# Doubles and their decimal texts

The numbers of IEEE 754's 64-bit format. A finite one is a sign and a whole
number of units of `2 ^ -1074`, with at most 53 significant bits. A decimal
numeral reads as the nearest double, ties to even. A double is written as
Python's `repr` writes it, with the fewest digits that read back.
-/

namespace RagSystem.Doubles

set_option autoImplicit false

/-! ## The numbers -/

/-- The unit is two to minus this power. -/
def unitPower : ℕ := 1074

/-- One is this many units. -/
def unitsOfOne : ℕ := 2 ^ unitPower

/-- What rounds to this many units, `2 ^ 1024`, or more is infinite. -/
def overflow : ℕ := 2 ^ 2098

/-- What the last of 53 bits is worth. -/
def lastPlace (n : ℕ) : ℕ := 2 ^ (n.log2 - 52)

/-- What a double's magnitude can be, in units. -/
def IsMagnitude (n : ℕ) : Prop := lastPlace n ∣ n ∧ n < overflow

instance : DecidablePred IsMagnitude := fun _ => inferInstanceAs (Decidable (_ ∧ _))

/-- A double. -/
inductive Double where
  /-- Not a number. -/
  | nan
  /-- An infinity. -/
  | infinity (negative : Bool)
  /-- A finite number, zeros signed. -/
  | finite (negative : Bool) (magnitude : { n : ℕ // IsMagnitude n })
  deriving DecidableEq

theorem unitsOfOne_pos : 0 < unitsOfOne := pow_pos Nat.two_pos unitPower

/-- Whether a double is a finite number. -/
def Double.isFinite : Double → Bool
  | .finite _ _ => true
  | _ => false

/-- The rational number a finite double is. -/
def Double.value? : Double → Option ℚ
  | .finite negative n => some ((if negative then -1 else 1) * (n.val / unitsOfOne))
  | _ => none

/-- A quotient rounded to the nearest whole number, ties to even. -/
def roundHalfEven (a b : ℕ) : ℕ :=
  if 2 * (a % b) < b ∨ 2 * (a % b) = b ∧ a / b % 2 = 0 then a / b else a / b + 1

/-- Nothing is rounded when the division leaves nothing. -/
theorem roundHalfEven_mul {m b : ℕ} (hb : 0 < b) : roundHalfEven (m * b) b = m := by
  simp [roundHalfEven, hb]

/-- Rounding adds at most one. -/
theorem roundHalfEven_le (a b : ℕ) : roundHalfEven a b ≤ a / b + 1 := by
  unfold roundHalfEven
  split <;> omega

/-- Rounded at the last of 53 bits, a number has at most 53 bits. -/
theorem isMagnitude_rounded {a b : ℕ}
    (hs : roundHalfEven a (b * lastPlace (a / b)) * lastPlace (a / b) < overflow) :
    IsMagnitude (roundHalfEven a (b * lastPlace (a / b)) * lastPlace (a / b)) := by
  refine ⟨?_, hs⟩
  set place := (a / b).log2 - 52 with hplace
  set rounded := roundHalfEven a (b * lastPlace (a / b)) with hrounded
  have hunit : lastPlace (a / b) = 2 ^ place := rfl
  have hquotient : a / (b * 2 ^ place) < 2 ^ 53 := by
    have hlog : a / b < 2 ^ ((a / b).log2 + 1) := Nat.lt_log2_self
    have hpow : 2 ^ ((a / b).log2 + 1) ≤ 2 ^ (53 + place) := Nat.pow_le_pow_right (by omega) (by omega)
    rw [← Nat.div_div_eq_div_mul, Nat.div_lt_iff_lt_mul (Nat.two_pow_pos place), ← pow_add]
    omega
  have hle : rounded ≤ 2 ^ 53 := by
    have hr := roundHalfEven_le a (b * lastPlace (a / b))
    rw [hunit] at hr
    rw [hrounded, hunit]
    omega
  rw [hunit]
  by_cases htop : rounded = 2 ^ 53
  · rw [htop, ← pow_add, lastPlace, Nat.log2_two_pow]
    exact Nat.pow_dvd_pow 2 (by omega)
  · by_cases hzero : rounded = 0
    · simp [hzero]
    · have hpos : rounded * 2 ^ place ≠ 0 := Nat.mul_ne_zero hzero (Nat.two_pow_pos place).ne'
      have hlog : (rounded * 2 ^ place).log2 < 53 + place := by
        rw [Nat.log2_lt hpos, pow_add]
        exact Nat.mul_lt_mul_of_pos_right (by omega) (Nat.two_pow_pos place)
      exact Dvd.dvd.mul_left (Nat.pow_dvd_pow 2 (by omega)) rounded

/-- The double nearest to a magnitude, ties to even; past the largest, infinity. -/
def nearest (negative : Bool) (value : ℚ) : Double :=
  let scaled := value.num.natAbs * unitsOfOne
  let place := lastPlace (scaled / value.den)
  if h : roundHalfEven scaled (value.den * place) * place < overflow then
    .finite negative ⟨_, isMagnitude_rounded h⟩
  else .infinity negative

/-- A double's own magnitude is not rounded. -/
theorem nearest_exact {negative : Bool} {value : ℚ} {n : ℕ} (hn : IsMagnitude n) (hv : value * unitsOfOne = n) :
    nearest negative value = .finite negative ⟨n, hn⟩ := by
  have hnonneg : 0 ≤ value := by
    have hp : (0 : ℚ) < unitsOfOne := Nat.cast_pos.mpr unitsOfOne_pos
    have hm : 0 ≤ value * unitsOfOne := (Nat.cast_nonneg n).trans_eq hv.symm
    exact nonneg_of_mul_nonneg_left hm hp
  have hnum : (value.num.natAbs : ℚ) = value.num := by
    have hz := Int.natAbs_of_nonneg (Rat.num_nonneg.mpr hnonneg)
    simpa only [Int.cast_natCast] using congrArg (fun z : ℤ => (z : ℚ)) hz
  have hscaled : value.num.natAbs * unitsOfOne = n * value.den := by
    have hvalue : (value.num : ℚ) = value * value.den := (Rat.mul_den_eq_num value).symm
    have hq : (value.num.natAbs : ℚ) * unitsOfOne = n * value.den := by
      rw [hnum, hvalue, ← hv]
      ring
    exact_mod_cast hq
  have hquotient : n * value.den / value.den = n := Nat.mul_div_cancel n value.den_pos
  have hplace : 0 < lastPlace n := Nat.two_pow_pos _
  have hm := hn.1
  have hrounded : roundHalfEven (n * value.den) (value.den * lastPlace n) * lastPlace n = n := by
    have hsplit : n * value.den = n / lastPlace n * (value.den * lastPlace n) := by
      calc n * value.den = n / lastPlace n * lastPlace n * value.den := by rw [Nat.div_mul_cancel hm]
        _ = n / lastPlace n * (value.den * lastPlace n) := by ring
    rw [hsplit, roundHalfEven_mul (Nat.mul_pos value.den_pos hplace)]
    exact Nat.div_mul_cancel hm
  simp only [nearest, hscaled, hquotient, hrounded, hn.2, dite_true]

/-! ## Decimal numerals -/

/-- The digits of a number, most significant first; zero has one. -/
def digitsOf (n : ℕ) : List ℕ := if n = 0 then [0] else (Nat.digits 10 n).reverse

/-- The number that digits spell. -/
def natOf (digits : List ℕ) : ℕ := Nat.ofDigits 10 digits.reverse

/-- Digits as text. -/
def digitText (digits : List ℕ) : List Char := digits.map Nat.digitChar

/-- The digit a character is. -/
def digitValue (c : Char) : ℕ := c.toNat - 48

/-- The digits at the front of a text, and the rest of it. -/
def spanDigits (text : List Char) : List ℕ × List Char :=
  ((text.takeWhile Char.isDigit).map digitValue, text.dropWhile Char.isDigit)

/-- Only digits of base ten. -/
def AllDigits (digits : List ℕ) : Prop := ∀ d ∈ digits, d < 10

/-- A text that does not go on with a digit. -/
def NoDigitNext (text : List Char) : Prop := ∀ c ∈ text.head?, c.isDigit = false

theorem natOf_digitsOf (n : ℕ) : natOf (digitsOf n) = n := by
  unfold natOf digitsOf
  split
  · simp [*]
  · rw [List.reverse_reverse, Nat.ofDigits_digits]

theorem allDigits_digitsOf (n : ℕ) : AllDigits (digitsOf n) := by
  intro d hd
  unfold digitsOf at hd
  split at hd
  · simp at hd
    omega
  · rw [List.mem_reverse] at hd
    exact Nat.digits_lt_base (by omega) hd

theorem digitsOf_ne_nil (n : ℕ) : digitsOf n ≠ [] := by
  unfold digitsOf
  split
  · simp
  · rename_i hn
    simp [Nat.digits_ne_nil_iff_ne_zero.mpr hn]

/-- A positive number does not start with a zero. -/
theorem digitsOf_head {n : ℕ} (hn : n ≠ 0) : (digitsOf n).head? ≠ some 0 := by
  have hl := Nat.getLast_digit_ne_zero 10 hn
  have hne : Nat.digits 10 n ≠ [] := Nat.digits_ne_nil_iff_ne_zero.mpr hn
  simp only [digitsOf, hn, if_false, List.head?_reverse, List.getLast?_eq_some_getLast hne, ne_eq, Option.some.injEq]
  exact hl

theorem natOf_append (front back : List ℕ) :
    natOf (front ++ back) = natOf front * 10 ^ back.length + natOf back := by
  simp only [natOf, List.reverse_append, Nat.ofDigits_append, List.length_reverse]
  ring

@[simp] theorem natOf_replicate_zero (k : ℕ) : natOf (List.replicate k 0) = 0 := by
  simp only [natOf, List.reverse_replicate, Nat.ofDigits_replicate_zero]

@[simp] theorem natOf_zero_cons (digits : List ℕ) : natOf (0 :: digits) = natOf digits := by
  have ha := natOf_append [0] digits
  have hz : natOf [0] = 0 := natOf_replicate_zero 1
  rw [List.singleton_append, hz] at ha
  omega

theorem digitValue_digitChar {d : ℕ} (hd : d < 10) : digitValue d.digitChar = d := by
  interval_cases d <;> rfl

/-- Written digits are read back, up to what is not a digit. -/
theorem spanDigits_append {digits : List ℕ} {rest : List Char} (hd : AllDigits digits) (hr : NoDigitNext rest) :
    spanDigits (digitText digits ++ rest) = (digits, rest) := by
  have hall : ∀ c ∈ digitText digits, c.isDigit = true := by
    intro c hc
    obtain ⟨d, hm, rfl⟩ := List.mem_map.mp hc
    simp [Nat.isDigit_digitChar, hd d hm]
  have htake : rest.takeWhile Char.isDigit = [] := by
    cases rest with
    | nil => rfl
    | cons c rest => simp [hr c (by simp)]
  have hdrop : rest.dropWhile Char.isDigit = rest := by
    cases rest with
    | nil => rfl
    | cons c rest => simp [hr c (by simp)]
  have hvalues : (digitText digits).map digitValue = digits := by
    rw [digitText, List.map_map]
    calc digits.map (digitValue ∘ Nat.digitChar) = digits.map id :=
          List.map_congr_left fun d hm => digitValue_digitChar (hd d hm)
      _ = digits := List.map_id digits
  rw [spanDigits, List.takeWhile_append_of_pos hall, List.dropWhile_append_of_pos hall, htake, hdrop,
    List.append_nil, hvalues]

/-- A decimal number: a sign, a whole number and a power of ten. -/
structure Decimal where
  /-- Whether it has a minus sign. -/
  negative : Bool
  /-- The digits, read as a whole number. -/
  coefficient : ℕ
  /-- The power of ten. -/
  exponent : ℤ

/-- The magnitude. -/
def Decimal.magnitude (decimal : Decimal) : ℚ := decimal.coefficient * 10 ^ decimal.exponent

/-- The double a decimal number is read as. -/
def Decimal.toDouble (decimal : Decimal) : Double := nearest decimal.negative decimal.magnitude

/-- The fraction of a numeral: a point and at least one digit, or nothing. -/
def readFraction : List Char → Option (List ℕ × List Char)
  | '.' :: text => if (spanDigits text).1 = [] then none else some (spanDigits text)
  | text => some ([], text)

/-- The digits of an exponent, to the end of the numeral. -/
def readExponentDigits (text : List Char) : Option ℕ :=
  if (spanDigits text).1 = [] ∨ (spanDigits text).2 ≠ [] then none else some (natOf (spanDigits text).1)

/-- The exponent of a numeral, which ends it. -/
def readExponent : List Char → Option ℤ
  | [] => some 0
  | mark :: text =>
    if mark = 'e' ∨ mark = 'E' then
      match text with
      | '+' :: text => (readExponentDigits text).map Int.ofNat
      | '-' :: text => (readExponentDigits text).map fun n => -(n : ℤ)
      | text => (readExponentDigits text).map Int.ofNat
    else none

/-- A numeral without its sign: a whole number without leading zeros, then fraction and exponent. -/
def readUnsigned (negative : Bool) (text : List Char) : Option Decimal :=
  let whole := spanDigits text
  if whole.1 = [] ∨ whole.1.head? = some 0 ∧ whole.1 ≠ [0] then none
  else
    (readFraction whole.2).bind fun fraction =>
      (readExponent fraction.2).map fun exponent =>
        ⟨negative, natOf (whole.1 ++ fraction.1), exponent - fraction.1.length⟩

/-- A numeral of JSON. -/
def readNumeral : List Char → Option Decimal
  | '-' :: text => readUnsigned true text
  | text => readUnsigned false text

/-- The text of an exponent, of at least two digits. -/
def exponentText : Option ℤ → List Char
  | none => []
  | some exponent =>
    let digits := digitsOf exponent.natAbs
    'e' :: (if exponent < 0 then '-' else '+') :: digitText (if digits.length < 2 then 0 :: digits else digits)

/-- The text of a fraction. -/
def fractionText : List ℕ → List Char
  | [] => []
  | digits => '.' :: digitText digits

/-- A numeral from its parts. -/
def numeralText (negative : Bool) (whole fraction : List ℕ) (exponent : Option ℤ) : List Char :=
  (if negative then ['-'] else []) ++ digitText whole ++ fractionText fraction ++ exponentText exponent

theorem noDigitNext_exponentText (exponent : Option ℤ) : NoDigitNext (exponentText exponent) := by
  cases exponent with
  | none => intro c hc; simp [exponentText] at hc
  | some exponent =>
    intro c hc
    simp only [exponentText, List.head?_cons, Option.mem_def, Option.some.injEq] at hc
    rw [← hc]
    rfl

theorem noDigitNext_fractionText (fraction : List ℕ) {tail : List Char} (ht : NoDigitNext tail) :
    NoDigitNext (fractionText fraction ++ tail) := by
  cases fraction with
  | nil => exact ht
  | cons d digits =>
    intro c hc
    simp only [fractionText, List.cons_append, List.head?_cons, Option.mem_def, Option.some.injEq] at hc
    rw [← hc]
    rfl

/-- The digits of an exponent are read. -/
theorem readExponentDigits_digits {digits : List ℕ} (hd : AllDigits digits) (hne : digits ≠ []) :
    readExponentDigits (digitText digits) = some (natOf digits) := by
  have hs : spanDigits (digitText digits ++ []) = (digits, []) := spanDigits_append hd fun c hc => by simp at hc
  rw [List.append_nil] at hs
  simp [readExponentDigits, hs, hne]

/-- The exponent's digits spell it. -/
theorem readExponentDigits_text (n : ℕ) :
    readExponentDigits (digitText (if (digitsOf n).length < 2 then 0 :: digitsOf n else digitsOf n)) = some n := by
  have hall := allDigits_digitsOf n
  split
  · have hzero : AllDigits (0 :: digitsOf n) := by
      intro d hd
      cases List.mem_cons.mp hd with
      | inl hz => omega
      | inr hm => exact hall d hm
    rw [readExponentDigits_digits hzero (List.cons_ne_nil _ _), natOf_zero_cons, natOf_digitsOf]
  · rw [readExponentDigits_digits hall (digitsOf_ne_nil n), natOf_digitsOf]

/-- A written exponent is read back. -/
theorem readExponent_text (exponent : Option ℤ) : readExponent (exponentText exponent) = some (exponent.getD 0) := by
  cases exponent with
  | none => rfl
  | some exponent =>
    have hr := readExponentDigits_text exponent.natAbs
    by_cases hn : exponent < 0
    · have hneg : -(exponent.natAbs : ℤ) = exponent := by omega
      simp only [exponentText, hn, if_true, readExponent, true_or, hr]
      simpa using hneg
    · have hpos : (exponent.natAbs : ℤ) = exponent := by omega
      simp only [exponentText, hn, if_false, readExponent, true_or, if_true, hr]
      simpa using hpos

/-- A written fraction is read, to what follows it. -/
theorem readFraction_parts {fraction : List ℕ} {tail : List Char} (hf : AllDigits fraction) (hdigit : NoDigitNext tail)
    (hpoint : tail.head? ≠ some '.') : readFraction (fractionText fraction ++ tail) = some (fraction, tail) := by
  cases fraction with
  | nil =>
    cases tail with
    | nil => rfl
    | cons c tail =>
      have hc : c ≠ '.' := by simpa using hpoint
      rw [fractionText, List.nil_append, readFraction.eq_2 _ (by simpa using hc)]
  | cons d digits =>
    have hs := spanDigits_append hf hdigit
    simp only [fractionText, List.cons_append, readFraction, hs, List.cons_ne_nil, if_false]

/-- A numeral is read from its parts, whatever text its exponent has. -/
theorem readNumeral_parts (negative : Bool) {whole fraction : List ℕ} {tail : List Char} {exponent : ℤ}
    (hw : AllDigits whole) (hne : whole ≠ []) (hlead : whole.head? = some 0 → whole = [0]) (hf : AllDigits fraction)
    (hdigit : NoDigitNext tail) (hpoint : tail.head? ≠ some '.') (hr : readExponent tail = some exponent) :
    readNumeral ((if negative then ['-'] else []) ++ digitText whole ++ fractionText fraction ++ tail) =
      some ⟨negative, natOf (whole ++ fraction), exponent - fraction.length⟩ := by
  have hunsigned : ∀ sign, readUnsigned sign (digitText whole ++ (fractionText fraction ++ tail)) =
      some ⟨sign, natOf (whole ++ fraction), exponent - fraction.length⟩ := by
    intro sign
    have hs := spanDigits_append hw (noDigitNext_fractionText fraction hdigit)
    have hc : ¬(whole = [] ∨ whole.head? = some 0 ∧ whole ≠ [0]) := by
      rintro (hnil | ⟨hz, hnz⟩)
      · exact hne hnil
      · exact hnz (hlead hz)
    simp only [readUnsigned, hs, hc, if_false, readFraction_parts hf hdigit hpoint, Option.bind_some, hr, Option.map_some]
  cases negative with
  | true => simpa [readNumeral] using hunsigned true
  | false =>
    cases hcons : digitText whole with
    | nil => simp [digitText] at hcons; exact absurd hcons hne
    | cons c text =>
      -- a digit is no minus sign
      have hminus : c ≠ '-' := by
        intro hc
        have hmem : c ∈ digitText whole := by rw [hcons]; simp
        obtain ⟨d, hm, hdc⟩ := List.mem_map.mp hmem
        have hdigit : d.digitChar.isDigit = true := by simp [Nat.isDigit_digitChar, hw d hm]
        rw [hdc, hc] at hdigit
        exact absurd hdigit (by decide)
      have hu := hunsigned false
      rw [hcons] at hu
      simp only [Bool.false_eq_true, if_false, List.nil_append, List.append_assoc, List.cons_append] at hu ⊢
      rw [readNumeral.eq_2 _ (by simpa using hminus)]
      exact hu

/-- A numeral is read back from its parts. -/
theorem readNumeral_text (negative : Bool) {whole fraction : List ℕ} (exponent : Option ℤ) (hw : AllDigits whole)
    (hne : whole ≠ []) (hlead : whole.head? = some 0 → whole = [0]) (hf : AllDigits fraction) :
    readNumeral (numeralText negative whole fraction exponent) =
      some ⟨negative, natOf (whole ++ fraction), exponent.getD 0 - fraction.length⟩ := by
  have hpoint : (exponentText exponent).head? ≠ some '.' := by cases exponent <;> simp [exponentText]
  exact readNumeral_parts negative hw hne hlead hf (noDigitNext_exponentText exponent) hpoint (readExponent_text exponent)

/-- A text that is a numeral of this sign and magnitude. -/
def Spells (negative : Bool) (text : List Char) (value : ℚ) : Prop :=
  ∃ whole fraction exponent, text = numeralText negative whole fraction exponent ∧ AllDigits whole ∧ whole ≠ [] ∧
    (whole.head? = some 0 → whole = [0]) ∧ AllDigits fraction ∧
      (natOf (whole ++ fraction) : ℚ) * 10 ^ (exponent.getD 0 - fraction.length) = value

/-- A numeral is read as the double nearest to it. -/
theorem Spells.read {negative : Bool} {text : List Char} {value : ℚ} (hs : Spells negative text value) :
    ∃ decimal, readNumeral text = some decimal ∧ decimal.toDouble = nearest negative value := by
  obtain ⟨whole, fraction, exponent, rfl, hw, hne, hlead, hf, rfl⟩ := hs
  exact ⟨_, readNumeral_text negative exponent hw hne hlead hf, rfl⟩

/-! ## How Python writes a double -/

/-- Drop trailing zeros of a coefficient, at most `fuel`. -/
def stripZeros : ℕ → ℕ → ℤ → ℕ × ℤ
  | 0, coefficient, exponent => (coefficient, exponent)
  | fuel + 1, coefficient, exponent =>
    if coefficient % 10 = 0 then stripZeros fuel (coefficient / 10) (exponent + 1) else (coefficient, exponent)

/-- Dropping zeros leaves the number. -/
theorem stripZeros_value (fuel coefficient : ℕ) (exponent : ℤ) :
    ((stripZeros fuel coefficient exponent).1 : ℚ) * 10 ^ (stripZeros fuel coefficient exponent).2 =
      coefficient * 10 ^ exponent := by
  induction fuel generalizing coefficient exponent with
  | zero => rfl
  | succ fuel ih =>
    unfold stripZeros
    split
    · rename_i hten
      have hc : coefficient = coefficient / 10 * 10 := by omega
      rw [ih, zpow_add_one₀ (by norm_num)]
      conv_rhs => rw [hc]
      push_cast
      ring
    · rfl

theorem stripZeros_ne_zero (fuel : ℕ) {coefficient : ℕ} (exponent : ℤ) (hc : coefficient ≠ 0) :
    (stripZeros fuel coefficient exponent).1 ≠ 0 := by
  induction fuel generalizing coefficient exponent with
  | zero => exact hc
  | succ fuel ih =>
    unfold stripZeros
    split
    · exact ih (exponent + 1) (by omega)
    · exact hc

/-- The layout of `float.__repr__`: digits, of which `point` stand before the
point, with an exponent when the point is too far off. -/
def layout (negative : Bool) (digits : List ℕ) (point : ℤ) : List Char :=
  if point ≤ -4 ∨ 16 < point then numeralText negative (digits.take 1) (digits.drop 1) (some (point - 1))
  else if point ≤ 0 then numeralText negative [0] (List.replicate (-point).toNat 0 ++ digits) none
  else if digits.length ≤ point then
    numeralText negative (digits ++ List.replicate (point.toNat - digits.length) 0) [0] none
  else numeralText negative (digits.take point.toNat) (digits.drop point.toNat) none

/-- The whole numbers on either side of `exact / place`, the nearer first, ties to even. -/
def neighbours (exact place : ℕ) : List ℕ :=
  if roundHalfEven exact place = exact / place then [exact / place, exact / place + 1]
  else [exact / place + 1, exact / place]

/-- The decimals next to `exact` units, those of fewest digits first. -/
def candidates (negative : Bool) (exact : ℕ) : List Decimal :=
  (List.range (digitsOf exact).length).flatMap fun k =>
    let dropped := (digitsOf exact).length - (k + 1)
    (neighbours exact (10 ^ dropped)).map fun coefficient => ⟨negative, coefficient, dropped - unitPower⟩

/-- Whether a decimal reads as this double. -/
def readsAs (double : Double) (decimal : Decimal) : Bool := decimal.toDouble = double

/-- All the digits of a magnitude. -/
def exactDecimal (negative : Bool) (n : ℕ) : Decimal := ⟨negative, n * 5 ^ unitPower, -unitPower⟩

/-- The decimal of fewest digits that reads as this double; of two, the nearer. -/
def shortest (negative : Bool) (n : { n : ℕ // IsMagnitude n }) : Decimal :=
  ((candidates negative (exactDecimal negative n).coefficient).find? (readsAs (.finite negative n))).getD
    (exactDecimal negative n)

/-- A decimal in the layout, without trailing zeros. -/
def decimalText (decimal : Decimal) : List Char :=
  let stripped := stripZeros (digitsOf decimal.coefficient).length decimal.coefficient decimal.exponent
  layout decimal.negative (digitsOf stripped.1) (stripped.2 + (digitsOf stripped.1).length)

/-- `float.__repr__`, and what JSON's encoder writes for what is not finite. -/
def floatText : Double → List Char
  | .nan => "NaN".toList
  | .infinity negative => if negative then "-Infinity".toList else "Infinity".toList
  | .finite negative n => if n.val = 0 then numeralText negative [0] [0] none else decimalText (shortest negative n)

/-- A power of a half in decimal. -/
theorem halves_decimal (n k : ℕ) : ((n * 5 ^ k : ℕ) : ℚ) * 10 ^ (-(k : ℤ)) * (2 ^ k : ℕ) = n := by
  have hten : (10 : ℚ) ^ k = 5 ^ k * 2 ^ k := by rw [← mul_pow]; norm_num
  rw [zpow_neg, zpow_natCast, hten]
  push_cast
  field_simp

/-- All the digits of a double read as the double. -/
theorem exactDecimal_toDouble (negative : Bool) (n : { n : ℕ // IsMagnitude n }) :
    (exactDecimal negative n).toDouble = .finite negative n :=
  nearest_exact n.property (halves_decimal n.val unitPower)

theorem candidates_negative (negative : Bool) (exact : ℕ) {decimal : Decimal}
    (hd : decimal ∈ candidates negative exact) : decimal.negative = negative := by
  obtain ⟨k, -, hk⟩ := List.mem_flatMap.mp hd
  obtain ⟨coefficient, -, rfl⟩ := List.mem_map.mp hk
  rfl

/-- What the search finds, or else the default, passes the test. -/
theorem find?_getD {α : Type} {test : α → Bool} {P : α → Prop} {items : List α} {default : α}
    (ht : test default = true) (hd : P default) (hi : ∀ item ∈ items, P item) :
    test ((items.find? test).getD default) = true ∧ P ((items.find? test).getD default) := by
  cases hf : items.find? test with
  | none => exact ⟨ht, hd⟩
  | some item => exact ⟨List.find?_some hf, hi item (List.mem_of_find?_eq_some hf)⟩

/-- What was found reads as the double. -/
theorem shortest_toDouble (negative : Bool) (n : { n : ℕ // IsMagnitude n }) :
    (shortest negative n).negative = negative ∧ (shortest negative n).toDouble = .finite negative n := by
  have hread : readsAs (.finite negative n) (exactDecimal negative n) = true :=
    decide_eq_true (exactDecimal_toDouble negative n)
  have hsign : (exactDecimal negative n).negative = negative := rfl
  have hfound := find?_getD hread hsign
    fun _ => candidates_negative negative (exactDecimal negative n).coefficient
  exact ⟨hfound.2, of_decide_eq_true hfound.1⟩

theorem isMagnitude_zero : IsMagnitude 0 := ⟨dvd_zero _, pow_pos Nat.two_pos 2098⟩

/-- A zero coefficient reads as zero. -/
theorem shortest_ne_zero (negative : Bool) {n : { n : ℕ // IsMagnitude n }} (hn : n.val ≠ 0) :
    (shortest negative n).coefficient ≠ 0 := by
  intro hz
  have hs := shortest_toDouble negative n
  have hr : nearest (shortest negative n).negative (shortest negative n).magnitude =
      .finite (shortest negative n).negative ⟨0, isMagnitude_zero⟩ := by
    apply nearest_exact
    rw [Decimal.magnitude, hz, Nat.cast_zero, zero_mul, zero_mul]
  have he := hs.2.symm.trans hr
  simp only [Double.finite.injEq] at he
  exact hn (congrArg Subtype.val he.2)

theorem AllDigits.append {front back : List ℕ} (hf : AllDigits front) (hb : AllDigits back) : AllDigits (front ++ back) := by
  intro d hm
  cases List.mem_append.mp hm with
  | inl hm => exact hf d hm
  | inr hm => exact hb d hm

theorem allDigits_zeros (k : ℕ) : AllDigits (List.replicate k 0) := by
  intro d hm
  have hz := List.eq_of_mem_replicate hm
  omega

section Layouts

variable (negative : Bool) {digits : List ℕ}

/-- Digits with the point in or behind them. -/
theorem spells_cut (exponent : Option ℤ) {k : ℕ} (hd : AllDigits digits) (hlead : digits.head? ≠ some 0) (hk : 0 < k)
    (hle : k ≤ digits.length) :
    Spells negative (numeralText negative (digits.take k) (digits.drop k) exponent)
      (natOf digits * 10 ^ (exponent.getD 0 + k - digits.length)) := by
  have htake : AllDigits (digits.take k) := fun d hm => hd d (List.mem_of_mem_take hm)
  have hdrop : AllDigits (digits.drop k) := fun d hm => hd d (List.mem_of_mem_drop hm)
  have hcut : digits.take k ≠ [] ∧ ((digits.take k).head? = some 0 → digits.take k = [0]) := by
    cases digits with
    | nil =>
      rw [List.length_nil] at hle
      omega
    | cons d digits =>
      cases k with
      | zero => omega
      | succ k => exact ⟨by simp, fun hz => absurd (by simpa using hz) hlead⟩
  refine ⟨_, _, exponent, rfl, htake, hcut.1, hcut.2, hdrop, ?_⟩
  rw [List.take_append_drop, List.length_drop]
  congr 2
  omega

/-- Digits in scientific notation, the first before the point. -/
theorem spells_scientific (point : ℤ) (hd : AllDigits digits) (hne : digits ≠ []) (hlead : digits.head? ≠ some 0) :
    Spells negative (numeralText negative (digits.take 1) (digits.drop 1) (some (point - 1)))
      (natOf digits * 10 ^ (point - digits.length)) := by
  have hcut := spells_cut negative (some (point - 1)) hd hlead Nat.one_pos (List.length_pos_iff.mpr hne)
  have hpower : (some (point - 1)).getD 0 + ((1 : ℕ) : ℤ) - digits.length = point - digits.length := by
    rw [Option.getD_some]
    omega
  rwa [hpower] at hcut

/-- Digits with the point among them. -/
theorem spells_within {point : ℤ} (hd : AllDigits digits) (hlead : digits.head? ≠ some 0) (hpos : 0 < point)
    (hle : point ≤ digits.length) :
    Spells negative (numeralText negative (digits.take point.toNat) (digits.drop point.toNat) none)
      (natOf digits * 10 ^ (point - digits.length)) := by
  have hcut := spells_cut negative none hd hlead (show 0 < point.toNat by omega) (by omega)
  have hpower : (none : Option ℤ).getD 0 + (point.toNat : ℤ) - digits.length = point - digits.length := by
    rw [Option.getD_none]
    omega
  rwa [hpower] at hcut

/-- Digits behind zeros behind the point. -/
theorem spells_small {point : ℤ} (hd : AllDigits digits) (hpoint : point ≤ 0) :
    Spells negative (numeralText negative [0] (List.replicate (-point).toNat 0 ++ digits) none)
      (natOf digits * 10 ^ (point - digits.length)) := by
  refine ⟨[0], _, none, rfl, allDigits_zeros 1, by simp, by simp, (allDigits_zeros _).append hd, ?_⟩
  simp only [List.singleton_append, natOf_zero_cons, natOf_append, natOf_replicate_zero, Nat.zero_mul, Nat.zero_add,
    Option.getD_none, List.length_append, List.length_replicate]
  congr 2
  push_cast
  omega

/-- Digits before zeros, and zeros behind the point. -/
theorem spells_whole (zeros : ℕ) {point : ℤ} (hd : AllDigits digits) (hne : digits ≠ [])
    (hlead : digits.head? ≠ some 0) (hpoint : digits.length ≤ point) :
    Spells negative
      (numeralText negative (digits ++ List.replicate (point.toNat - digits.length) 0) (List.replicate zeros 0) none)
      (natOf digits * 10 ^ (point - digits.length)) := by
  have hpower : point - digits.length = ((point.toNat - digits.length : ℕ) : ℤ) := by omega
  rw [hpower]
  generalize point.toNat - digits.length = k
  have hlead' : (digits ++ List.replicate k 0).head? = some 0 → digits ++ List.replicate k 0 = [0] := by
    intro hz
    cases digits with
    | nil => exact absurd rfl hne
    | cons d digits => exact absurd (by simpa using hz) hlead
  refine ⟨_, _, none, rfl, hd.append (allDigits_zeros k), by simp [hne], hlead', allDigits_zeros zeros, ?_⟩
  have hten : (10 : ℚ) ≠ 0 := by norm_num
  rw [natOf_append, natOf_append, natOf_replicate_zero, natOf_replicate_zero, List.length_replicate, List.length_replicate,
    Option.getD_none, Nat.add_zero, Nat.add_zero, zero_sub, zpow_neg, zpow_natCast, zpow_natCast]
  push_cast
  field_simp

/-- The layout's numeral has the value of the digits. -/
theorem spells_layout (point : ℤ) (hd : AllDigits digits) (hne : digits ≠ [])
    (hlead : digits.head? ≠ some 0) :
    Spells negative (layout negative digits point) (natOf digits * 10 ^ (point - digits.length)) := by
  unfold layout
  split
  · exact spells_scientific negative point hd hne hlead
  · split
    · exact spells_small negative hd (by omega)
    · split
      · exact spells_whole negative 1 hd hne hlead (by omega)
      · exact spells_within negative hd hlead (by omega) (by omega)

end Layouts

/-- A decimal's text is a numeral of its magnitude. -/
theorem spells_decimalText {decimal : Decimal} (hc : decimal.coefficient ≠ 0) :
    Spells decimal.negative (decimalText decimal) decimal.magnitude := by
  have hvalue := stripZeros_value (digitsOf decimal.coefficient).length decimal.coefficient decimal.exponent
  have hne := stripZeros_ne_zero (digitsOf decimal.coefficient).length decimal.exponent hc
  set stripped := stripZeros (digitsOf decimal.coefficient).length decimal.coefficient decimal.exponent with hs
  have hl := spells_layout decimal.negative (stripped.2 + (digitsOf stripped.1).length)
    (allDigits_digitsOf stripped.1) (digitsOf_ne_nil stripped.1) (digitsOf_head hne)
  rw [natOf_digitsOf, add_sub_cancel_right, hvalue] at hl
  exact hl

/-- A finite double's text is a numeral that the double is nearest to. -/
theorem spells_floatText (negative : Bool) (n : { n : ℕ // IsMagnitude n }) :
    ∃ value, Spells negative (floatText (.finite negative n)) value ∧ nearest negative value = .finite negative n := by
  simp only [floatText]
  by_cases hn : n.val = 0
  · rw [if_pos hn]
    have hzero : AllDigits [0] := by simp [AllDigits]
    have hsum : natOf ([0] ++ [0]) = 0 := natOf_replicate_zero 2
    have hm : (0 : ℚ) * unitsOfOne = n.val := by rw [hn, Nat.cast_zero, zero_mul]
    refine ⟨0, ⟨[0], [0], none, rfl, hzero, by simp, by simp, hzero, ?_⟩, nearest_exact n.property hm⟩
    rw [hsum, Nat.cast_zero, zero_mul]
  · rw [if_neg hn]
    have hs := shortest_toDouble negative n
    have hspells := spells_decimalText (shortest_ne_zero negative hn)
    have hread := hs.2
    rw [hs.1] at hspells
    rw [Decimal.toDouble, hs.1] at hread
    exact ⟨_, hspells, hread⟩

end RagSystem.Doubles
