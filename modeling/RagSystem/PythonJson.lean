import Mathlib.Data.List.TakeWhile
import RagSystem.JsonLexing
import RagSystem.PythonNumbers

/-!
# Python's JSON, read by Python

What `json.dumps` writes for a number, `json.loads` reads as that number: a
whole number as such, unless it has more digits than the interpreter converts, a
double from its shortest numeral, and the names of what is not finite.
-/

namespace RagSystem.PythonJson

set_option autoImplicit false

attribute [local instance (2000)] List.decidableBEx List.decidableBAll

open Doubles JsonText PythonNumbers

/-- `sys.int_info.default_max_str_digits`. -/
def maxStrDigits : ℕ := 4300

/-- A numeral with a point or an exponent. -/
def isFloatNumeral (numeral : List Char) : Bool := numeral.any fun c => c = '.' || c = 'e' || c = 'E'

/-- What Python makes of a numeral: `none` where it raises. -/
def numberOf (numeral : List Char) : Option PyNumber :=
  if isFloatNumeral numeral then (readNumeral numeral).map fun decimal => .float decimal.toDouble
  else if maxStrDigits < (numeral.filter Char.isDigit).length then none
  else (wholeOf numeral).map .int

/-- A number taken off the front of a text. -/
def scanPython (text : List Char) : Option (PyNumber × List Char) :=
  if "NaN".toList.isPrefixOf text then some (.float .nan, text.drop 3)
  else if "Infinity".toList.isPrefixOf text then some (.float (.infinity false), text.drop 8)
  else if "-Infinity".toList.isPrefixOf text then some (.float (.infinity true), text.drop 9)
  else (numberOf (text.takeWhile isNumeral)).map fun number => (number, text.dropWhile isNumeral)

/-- A number that is written at all: not a whole number of too many digits. -/
def readBack : PyNumber → Option PyNumber
  | .int value => if maxStrDigits < (digitsOf value.natAbs).length then none else some (.int value)
  | .float value => some (.float value)

/-! ## Texts of floats -/

theorem isFloatNumeral_fraction (negative : Bool) (whole : List ℕ) {fraction : List ℕ} (hf : fraction ≠ [])
    (exponent : Option ℤ) : isFloatNumeral (numeralText negative whole fraction exponent) = true := by
  cases fraction with
  | nil => exact absurd rfl hf
  | cons d fraction => simp [isFloatNumeral, numeralText, fractionText]

theorem isFloatNumeral_exponent (negative : Bool) (whole fraction : List ℕ) (exponent : ℤ) :
    isFloatNumeral (numeralText negative whole fraction (some exponent)) = true := by
  simp [isFloatNumeral, numeralText, exponentText]

/-- A double is laid out with a point or an exponent. -/
theorem isFloatNumeral_layout (negative : Bool) (digits : List ℕ) (hne : digits ≠ []) (point : ℤ) :
    isFloatNumeral (layout negative digits point) = true := by
  unfold layout
  split
  · exact isFloatNumeral_exponent _ _ _ _
  · split
    · exact isFloatNumeral_fraction _ _ (by simp [hne]) _
    · split
      · exact isFloatNumeral_fraction _ _ (by simp) _
      · refine isFloatNumeral_fraction _ _ ?_ _
        rw [ne_eq, List.drop_eq_nil_iff]
        omega

theorem isFloatNumeral_floatText (negative : Bool) (n : { n : ℕ // IsMagnitude n }) :
    isFloatNumeral (floatText (.finite negative n)) = true := by
  simp only [floatText]
  split
  · exact isFloatNumeral_fraction _ _ (by simp) _
  · exact isFloatNumeral_layout _ _ (digitsOf_ne_nil _) _

/-! ## Texts of whole numbers -/

theorem isDigit_digitText {digits : List ℕ} (hd : AllDigits digits) : ∀ c ∈ digitText digits, c.isDigit = true := by
  intro c hc
  obtain ⟨d, hm, rfl⟩ := List.mem_map.mp hc
  simp [Nat.isDigit_digitChar, hd d hm]

/-- A whole number is its sign and its digits. -/
theorem intText_eq (value : ℤ) :
    intText value = (if value < 0 then ['-'] else []) ++ digitText (digitsOf value.natAbs) := by
  simp [intText, numeralText, fractionText, exponentText]

theorem isFloatNumeral_intText (value : ℤ) : isFloatNumeral (intText value) = false := by
  have hdigits := isDigit_digitText (allDigits_digitsOf value.natAbs)
  have hnone : ∀ c ∈ intText value, (c = '.' || c = 'e' || c = 'E') = false := by
    rw [intText_eq]
    refine List.forall_mem_append.mpr ⟨?_, fun c hc => ?_⟩
    · split <;> simp
    · have hdigit := hdigits c hc
      by_contra hbad
      simp only [Bool.or_eq_false_iff, decide_eq_false_iff_not, not_and_or, not_not] at hbad
      rcases hbad with (rfl | rfl) | rfl <;> exact absurd hdigit (by decide)
  simpa [isFloatNumeral] using hnone

/-- Its digits are counted without the sign. -/
theorem digits_intText (value : ℤ) : ((intText value).filter Char.isDigit).length = (digitsOf value.natAbs).length := by
  have hdigits := isDigit_digitText (allDigits_digitsOf value.natAbs)
  have hsign : (if value < 0 then ['-'] else []).filter Char.isDigit = [] := by split <;> rfl
  rw [intText_eq, List.filter_append, hsign, List.nil_append, List.filter_eq_self.mpr hdigits]
  simp [digitText]

theorem numberOf_intText (value : ℤ) : numberOf (intText value) = readBack (.int value) := by
  rw [numberOf, if_neg (by simp [isFloatNumeral_intText]), digits_intText, wholeOf_intText, readBack]
  rfl

/-! ## What is written is read back -/

/-- A numeral starts no name. -/
theorem not_prefix_of_numeral (name : List Char) {text : List Char} (hname : ∃ c ∈ name, isNumeral c = false)
    (ht : ∀ c ∈ text, isNumeral c = true) {rest : List Char} (hr : Delimited rest)
    (hmarks : ∀ c ∈ name, c ≠ ',' ∧ c ≠ ']' ∧ c ≠ '\x7d') : name.isPrefixOf (text ++ rest) = false := by
  by_contra hhead
  rw [Bool.not_eq_false, List.isPrefixOf_iff_prefix] at hhead
  induction name generalizing text with
  | nil => simp at hname
  | cons c name ih =>
    have hmark := List.forall_mem_cons.mp hmarks
    cases text with
    | nil =>
      obtain ⟨more, hmore⟩ := hhead
      rw [List.nil_append, List.cons_append] at hmore
      have hstop := hr c (by rw [← hmore]; simp)
      rcases hstop with rfl | rfl | rfl
      · exact hmark.1.1 rfl
      · exact hmark.1.2.1 rfl
      · exact hmark.1.2.2 rfl
    | cons d text =>
      rw [List.cons_append, List.cons_prefix_cons] at hhead
      have hnumeral := List.forall_mem_cons.mp ht
      obtain ⟨x, hx, hfalse⟩ := hname
      rcases List.mem_cons.mp hx with rfl | hx
      · rw [hhead.1, hnumeral.1] at hfalse
        exact absurd hfalse (by decide)
      · exact ih ⟨x, hx, hfalse⟩ hnumeral.2 hmark.2 hhead.2

/-- A numeral is read to its end. -/
theorem scanPython_numeral {text rest : List Char} (ht : ∀ c ∈ text, isNumeral c = true) (hr : Delimited rest) :
    scanPython (text ++ rest) = (numberOf text).map fun number => (number, rest) := by
  have hrun := takeWhile_numeral ht hr
  have hnan := not_prefix_of_numeral "NaN".toList (by decide) ht hr (by decide)
  have hpositive := not_prefix_of_numeral "Infinity".toList (by decide) ht hr (by decide)
  have hnegative := not_prefix_of_numeral "-Infinity".toList (by decide) ht hr (by decide)
  rw [scanPython, hnan, hpositive, hnegative, hrun.1, hrun.2]
  rfl

/-- Python's numbers, read back by Python. -/
def pythonNumbers : NumberText PyNumber PyNumber where
  write := PyNumber.text
  scan := scanPython
  received := readBack
  write_head := numbers.write_head
  write_plain := numbers.write_plain
  scan_write := by
    intro n rest hr
    cases n with
    | int value =>
      have hnumeral := (numeralText_of_spells (spells_intText value)).2
      rw [PyNumber.text, scanPython_numeral hnumeral hr, numberOf_intText]
    | float value =>
      cases value with
      | nan => rfl
      | infinity negative => cases negative <;> rfl
      | finite negative n =>
        obtain ⟨magnitude, hs, hnearest⟩ := spells_floatText negative n
        obtain ⟨decimal, hread, hdouble⟩ := hs.read
        rw [PyNumber.text, scanPython_numeral (numeralText_of_spells hs).2 hr, numberOf,
          if_pos (isFloatNumeral_floatText negative n), hread, Option.map_some, hdouble, hnearest]
        rfl

/-! ## What a number is taken from -/

/-- Of the characters of numerals and names of numbers. -/
def isNumberChar (c : Char) : Bool := isNumeral c || c ∈ "NaInfity".toList

/-- A number is taken off the front of the text. -/
theorem scanPython_split {text rest : List Char} {number : PyNumber} (h : scanPython text = some (number, rest)) :
    ∃ used, text = used ++ rest ∧ ∀ c ∈ used, isNumberChar c = true := by
  have hname : ∀ {name : List Char} {k : ℕ}, name.isPrefixOf text = true → k = name.length →
      (∀ c ∈ name, isNumberChar c = true) → ∃ used, text = used ++ text.drop k ∧ ∀ c ∈ used, isNumberChar c = true := by
    intro name k hhead hk hchars
    obtain ⟨more, rfl⟩ := List.isPrefixOf_iff_prefix.mp hhead
    exact ⟨name, by rw [hk, List.drop_left], hchars⟩
  unfold scanPython at h
  split at h
  · next hhead =>
    cases h
    exact hname hhead rfl (by decide)
  · split at h
    · next hhead =>
      cases h
      exact hname hhead rfl (by decide)
    · split at h
      · next hhead =>
        cases h
        exact hname hhead rfl (by decide)
      · obtain ⟨n, -, he⟩ := Option.map_eq_some_iff.mp h
        cases he
        refine ⟨text.takeWhile isNumeral, List.takeWhile_append_dropWhile.symm, fun c hc => ?_⟩
        have hnumeral := List.mem_takeWhile_imp hc
        simp [isNumberChar, hnumeral]

/-- None of it is a mark of strings. -/
theorem scanPython_unmarked : NumbersUnmarked scanPython := by
  intro text number rest h
  obtain ⟨used, hused, hchars⟩ := scanPython_split h
  refine ⟨used, hused, fun c hc => ?_⟩
  have hnumber := hchars c hc
  refine ⟨?_, ?_, ?_⟩ <;> rintro rfl <;> exact absurd hnumber (by decide)

end RagSystem.PythonJson
