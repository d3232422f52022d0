import RagSystem.Doubles
import RagSystem.JsonText

/-!
# Python's numbers in JSON, read as JavaScript's

Python has whole numbers of any size and doubles; JavaScript has doubles. A
finite double is read back as itself, since Python writes enough digits. A whole
number is read as the double nearest to it. What Python's encoder writes for a
number that is not finite is not JSON.
-/

namespace RagSystem.PythonNumbers

set_option autoImplicit false

attribute [local instance (2000)] List.decidableBAll

open Doubles JsonText

/-- A number of Python. -/
inductive PyNumber where
  /-- An `int`. -/
  | int (value : ℤ)
  /-- A `float`. -/
  | float (value : Double)

/-- `int.__repr__`. -/
def intText (value : ℤ) : List Char := numeralText (value < 0) (digitsOf value.natAbs) [] none

/-- What `json.dumps` writes. -/
def PyNumber.text : PyNumber → List Char
  | .int value => intText value
  | .float value => floatText value

/-- The characters of a numeral. -/
def isNumeral (c : Char) : Bool := c.isDigit || c = '-' || c = '+' || c = '.' || c = 'e' || c = 'E'

/-- `JSON.parse` on a number: as long a numeral as there is, read as the nearest double. -/
def scanNumber (text : List Char) : Option (Double × List Char) :=
  (readNumeral (text.takeWhile isNumeral)).map fun decimal => (decimal.toDouble, text.dropWhile isNumeral)

/-- What JavaScript makes of a number's text. -/
def PyNumber.received : PyNumber → Option Double
  | .int value => some (nearest (value < 0) value.natAbs)
  | .float (.finite negative n) => some (.finite negative n)
  | .float _ => none

/-- The double equal to a number, if there is one. -/
def PyNumber.exactly : PyNumber → Option Double
  | .int value =>
    if h : IsMagnitude (value.natAbs * unitsOfOne) then some (.finite (value < 0) ⟨_, h⟩) else none
  | .float value => some value

/-- A number that JavaScript receives as it is: a finite double, or a whole number that is exactly a double. -/
def PyNumber.Carried : PyNumber → Prop
  | .int value => IsMagnitude (value.natAbs * unitsOfOne)
  | .float value => value.isFinite = true

/-- A number is received as the double equal to it exactly when it is carried. -/
theorem agree_iff_carried (number : PyNumber) : Agree number.received number.exactly ↔ number.Carried := by
  cases number with
  | int value =>
    simp only [PyNumber.received, PyNumber.exactly, PyNumber.Carried]
    constructor
    · rintro ⟨double, -, hd⟩
      split at hd
      · assumption
      · simp at hd
    · intro h
      have hv : (value.natAbs : ℚ) * unitsOfOne = (value.natAbs * unitsOfOne : ℕ) := by push_cast; rfl
      refine ⟨.finite (value < 0) ⟨_, h⟩, ?_, by rw [dif_pos h]⟩
      rw [nearest_exact h hv]
  | float value =>
    cases value with
    | nan => simp [PyNumber.received, PyNumber.exactly, PyNumber.Carried, Agree, Double.isFinite]
    | infinity negative => simp [PyNumber.received, PyNumber.exactly, PyNumber.Carried, Agree, Double.isFinite]
    | finite negative n => simp [PyNumber.received, PyNumber.exactly, PyNumber.Carried, Agree, Double.isFinite]

/-! ## The texts of numbers -/

/-- A text of the characters of numerals, and not empty. -/
def NumeralText (text : List Char) : Prop := text ≠ [] ∧ ∀ c ∈ text, isNumeral c = true

theorem digitText_numeral {digits : List ℕ} (hd : AllDigits digits) : ∀ c ∈ digitText digits, isNumeral c = true := by
  intro c hc
  obtain ⟨d, hm, rfl⟩ := List.mem_map.mp hc
  simp [isNumeral, Nat.isDigit_digitChar, hd d hm]

/-- A numeral has the characters of numerals. -/
theorem numeralText_of_spells {negative : Bool} {text : List Char} {value : ℚ} (hs : Spells negative text value) :
    NumeralText text := by
  obtain ⟨whole, fraction, exponent, rfl, hw, hne, -, hf, -⟩ := hs
  have hwhole := digitText_numeral hw
  have hsign : ∀ c ∈ (if negative then ['-'] else []), isNumeral c = true := by cases negative <;> simp [isNumeral]
  have hfraction : ∀ c ∈ fractionText fraction, isNumeral c = true := by
    cases fraction with
    | nil => simp [fractionText]
    | cons d digits => exact List.forall_mem_cons.mpr ⟨by decide, digitText_numeral hf⟩
  have hexponent : ∀ c ∈ exponentText exponent, isNumeral c = true := by
    cases exponent with
    | none => simp [exponentText]
    | some exponent =>
      have hall := allDigits_digitsOf exponent.natAbs
      have hdigits : AllDigits (if (digitsOf exponent.natAbs).length < 2 then 0 :: digitsOf exponent.natAbs
          else digitsOf exponent.natAbs) := by
        split
        · exact List.forall_mem_cons.mpr ⟨by omega, hall⟩
        · exact hall
      refine List.forall_mem_cons.mpr ⟨by decide, List.forall_mem_cons.mpr ⟨?_, digitText_numeral hdigits⟩⟩
      split <;> decide
  constructor
  · simp [numeralText, digitText, hne]
  · simp only [numeralText, List.forall_mem_append]
    exact ⟨⟨⟨hsign, hwhole⟩, hfraction⟩, hexponent⟩

/-- A whole number's text is a numeral of it. -/
theorem spells_intText (value : ℤ) : Spells (value < 0) (intText value) value.natAbs := by
  have hlead : (digitsOf value.natAbs).head? = some 0 → digitsOf value.natAbs = [0] := by
    intro hz
    by_cases hn : value.natAbs = 0
    · simp [digitsOf, hn]
    · exact absurd hz (digitsOf_head hn)
  refine ⟨digitsOf value.natAbs, [], none, rfl, allDigits_digitsOf _, digitsOf_ne_nil _, hlead, by simp [AllDigits], ?_⟩
  rw [List.append_nil, natOf_digitsOf]
  simp

theorem not_mem_marks {c : Char} (hc : isNumeral c = true) : c ∉ marks := by
  have hm : ∀ m ∈ marks, isNumeral m = false := by decide
  intro hin
  rw [hm c hin] at hc
  exact absurd hc (by decide)

theorem plain_numeral {c : Char} (hc : isNumeral c = true) : 32 ≤ c.toNat := by
  simp only [isNumeral, Bool.or_eq_true, decide_eq_true_eq] at hc
  rcases hc with ((((hd | rfl) | rfl) | rfl) | rfl) | rfl
  · simp only [Char.isDigit, Bool.and_eq_true, decide_eq_true_eq] at hd
    have hle : ('0' : Char).toNat ≤ c.toNat := hd.1
    have hzero : ('0' : Char).toNat = 48 := rfl
    omega
  all_goals decide

/-- A numeral ends where the value does. -/
theorem takeWhile_numeral {text rest : List Char} (ht : ∀ c ∈ text, isNumeral c = true) (hr : Delimited rest) :
    (text ++ rest).takeWhile isNumeral = text ∧ (text ++ rest).dropWhile isNumeral = rest := by
  have hstop : rest.takeWhile isNumeral = [] ∧ rest.dropWhile isNumeral = rest := by
    cases rest with
    | nil => exact ⟨rfl, rfl⟩
    | cons c rest =>
      have hc : isNumeral c = false := by
        rcases hr c (by simp) with rfl | rfl | rfl <;> decide
      simp [hc]
  rw [List.takeWhile_append_of_pos ht, List.dropWhile_append_of_pos ht, hstop.1, hstop.2, List.append_nil]
  exact ⟨rfl, rfl⟩

/-- A numeral is scanned to its end. -/
theorem scanNumber_spells {negative : Bool} {text rest : List Char} {value : ℚ} (hs : Spells negative text value)
    (hr : Delimited rest) : scanNumber (text ++ rest) = some (nearest negative value, rest) := by
  obtain ⟨decimal, hread, hd⟩ := hs.read
  have hrun := takeWhile_numeral (numeralText_of_spells hs).2 hr
  rw [scanNumber, hrun.1, hrun.2, hread, Option.map_some, hd]

/-- What a numeral starts with. -/
theorem head_of_spells {negative : Bool} {text : List Char} {value : ℚ} (hs : Spells negative text value) :
    ∃ c rest, text = c :: rest ∧ c ∉ marks := by
  have hn := numeralText_of_spells hs
  cases text with
  | nil => exact absurd rfl hn.1
  | cons c rest => exact ⟨c, rest, rfl, not_mem_marks (hn.2 c (by simp))⟩

/-- What the texts of non-finite floats start with is scanned as no number. -/
theorem scanNumber_nonfinite (double : Double) (hd : double.isFinite = false) (rest : List Char) :
    scanNumber (floatText double ++ rest) = none := by
  cases double with
  | nan => simp [floatText, scanNumber, isNumeral, readNumeral, readUnsigned, spanDigits]
  | infinity negative =>
    cases negative <;> simp [floatText, scanNumber, isNumeral, readNumeral, readUnsigned, spanDigits]
  | finite negative n => simp [Double.isFinite] at hd

/-- Python's numbers, and how JavaScript reads them. -/
def numbers : NumberText PyNumber Double where
  write := PyNumber.text
  scan := scanNumber
  received := PyNumber.received
  write_head := by
    intro n
    cases n with
    | int value => exact head_of_spells (spells_intText value)
    | float value =>
      cases value with
      | nan => exact ⟨'N', "aN".toList, rfl, by decide⟩
      | infinity negative =>
        cases negative with
        | false => exact ⟨'I', "nfinity".toList, rfl, by decide⟩
        | true => exact ⟨'-', "Infinity".toList, rfl, by decide⟩
      | finite negative n =>
        obtain ⟨value, hs, -⟩ := spells_floatText negative n
        exact head_of_spells hs
  write_plain := by
    have hspells : ∀ {negative text value}, Spells negative text value → ∀ c ∈ text, 32 ≤ c.toNat :=
      fun hs c hc => plain_numeral ((numeralText_of_spells hs).2 c hc)
    intro n
    cases n with
    | int value => exact hspells (spells_intText value)
    | float value =>
      cases value with
      | nan => simp [PyNumber.text, floatText]
      | infinity negative => cases negative <;> simp [PyNumber.text, floatText]
      | finite negative n =>
        obtain ⟨value, hs, -⟩ := spells_floatText negative n
        exact hspells hs
  scan_write := by
    intro n rest hr
    cases n with
    | int value => exact scanNumber_spells (spells_intText value) hr
    | float value =>
      cases value with
      | nan => exact scanNumber_nonfinite .nan rfl rest
      | infinity negative => exact scanNumber_nonfinite (.infinity negative) rfl rest
      | finite negative n =>
        obtain ⟨value, hs, hv⟩ := spells_floatText negative n
        have hscan := scanNumber_spells hs hr
        rw [hv] at hscan
        exact hscan

/-! ## Whole numbers, read as such -/

/-- The whole number of a numeral that has neither fraction nor exponent. -/
def wholeOf (text : List Char) : Option ℤ :=
  if text.all fun c => c.isDigit || c = '-' then
    (readNumeral text).map fun decimal => if decimal.negative then -(decimal.coefficient : ℤ) else decimal.coefficient
  else none

/-- The text of a whole number is read as that number. -/
theorem wholeOf_intText (value : ℤ) : wholeOf (intText value) = some value := by
  have hdigits : ∀ c ∈ digitText (digitsOf value.natAbs), c.isDigit = true := by
    intro c hc
    obtain ⟨d, hd, rfl⟩ := List.mem_map.mp hc
    simp [Nat.isDigit_digitChar, allDigits_digitsOf _ d hd]
  have hwhole : (intText value).all (fun c => c.isDigit || c = '-') = true := by
    have hsign : ∀ c ∈ (if value < 0 then ['-'] else []), (c.isDigit || c = '-') = true := by split <;> simp
    simp only [intText, numeralText, fractionText, exponentText, List.append_nil, List.all_append, Bool.and_eq_true,
      List.all_eq_true, decide_eq_true_eq]
    exact ⟨hsign, fun c hc => by simp [hdigits c hc]⟩
  have hlead : (digitsOf value.natAbs).head? = some 0 → digitsOf value.natAbs = [0] := by
    intro hz
    by_cases hn : value.natAbs = 0
    · simp [digitsOf, hn]
    · exact absurd hz (digitsOf_head hn)
  have hread := readNumeral_text (value < 0) none (allDigits_digitsOf value.natAbs) (digitsOf_ne_nil _) hlead
    (show AllDigits [] by simp [AllDigits])
  rw [wholeOf, if_pos hwhole, intText, hread, List.append_nil, natOf_digitsOf]
  by_cases hn : value < 0
  · have habs : (value.natAbs : ℤ) = -value := by omega
    simp [hn, habs]
  · have habs : (value.natAbs : ℤ) = value := by omega
    simp [hn, habs]

/-- Whole numbers of any size. -/
def wholeNumbers : NumberText ℤ ℤ where
  write := intText
  scan text := (wholeOf (text.takeWhile isNumeral)).map fun value => (value, text.dropWhile isNumeral)
  received := some
  write_head value := head_of_spells (spells_intText value)
  write_plain value c hc := plain_numeral ((numeralText_of_spells (spells_intText value)).2 c hc)
  scan_write value rest hr := by
    have hrun := takeWhile_numeral (numeralText_of_spells (spells_intText value)).2 hr
    rw [hrun.1, hrun.2, wholeOf_intText, Option.map_some]

end RagSystem.PythonNumbers
