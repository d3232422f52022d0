import RagSystem.Doubles

/-!
# Values of JavaScript

What `JSON.parse` returns, and what `typeof` and `String` make of it. Strings are
code units. The members of an object have distinct names; values are equal as JSON
values whatever the order of an object's members and the sign of a zero.
-/

namespace RagSystem.JavaScriptValues

open Doubles

set_option autoImplicit false

/-! ## Texts of numbers -/

/-- The text of an exponent, without leading zeros. -/
def jsExponentText (exponent : ℤ) : List Char :=
  'e' :: (if exponent < 0 then '-' else '+') :: digitText (digitsOf exponent.natAbs)

/-- A numeral from its parts. -/
def jsNumeral (negative : Bool) (whole fraction : List ℕ) (exponent : Option ℤ) : List Char :=
  (if negative then ['-'] else []) ++ digitText whole ++ fractionText fraction ++ (exponent.map jsExponentText).getD []

/-- The layout of `Number.prototype.toString`: digits, of which `point` stand before the
point, with an exponent when the point is too far off. -/
def jsLayout (negative : Bool) (digits : List ℕ) (point : ℤ) : List Char :=
  if digits.length ≤ point ∧ point ≤ 21 then
    jsNumeral negative (digits ++ List.replicate (point.toNat - digits.length) 0) [] none
  else if 0 < point ∧ point ≤ 21 then jsNumeral negative (digits.take point.toNat) (digits.drop point.toNat) none
  else if -6 < point ∧ point ≤ 0 then jsNumeral negative [0] (List.replicate (-point).toNat 0 ++ digits) none
  else jsNumeral negative (digits.take 1) (digits.drop 1) (some (point - 1))

/-- A decimal in the layout, without trailing zeros. -/
def jsDecimalText (decimal : Decimal) : List Char :=
  let stripped := stripZeros (digitsOf decimal.coefficient).length decimal.coefficient decimal.exponent
  jsLayout decimal.negative (digitsOf stripped.1) (stripped.2 + (digitsOf stripped.1).length)

/-- `Number.prototype.toString`: a zero has no sign. -/
def numberText : Double → List Char
  | .nan => "NaN".toList
  | .infinity negative => if negative then "-Infinity".toList else "Infinity".toList
  | .finite negative n => if n.val = 0 then jsNumeral false [0] [] none else jsDecimalText (shortest negative n)

/-- The number that a double is: the zeros are one. -/
def unsignedZero : Double → Double
  | .finite negative n => if n.val = 0 then .finite false n else .finite negative n
  | double => double

theorem readExponent_jsText (exponent : Option ℤ) :
    readExponent ((exponent.map jsExponentText).getD []) = some (exponent.getD 0) := by
  cases exponent with
  | none => rfl
  | some exponent =>
    have hr := readExponentDigits_digits (allDigits_digitsOf exponent.natAbs) (digitsOf_ne_nil exponent.natAbs)
    rw [natOf_digitsOf] at hr
    by_cases hn : exponent < 0
    · have hneg : -(exponent.natAbs : ℤ) = exponent := by omega
      simp only [jsExponentText, hn, if_true, Option.map_some, Option.getD_some, readExponent, true_or, hr]
      simpa using hneg
    · have hpos : (exponent.natAbs : ℤ) = exponent := by omega
      simp only [jsExponentText, hn, if_false, Option.map_some, Option.getD_some, readExponent, true_or, if_true, hr]
      simpa using hpos

/-- A numeral is read from its parts. -/
theorem readNumeral_jsNumeral (negative : Bool) {whole fraction : List ℕ} (exponent : Option ℤ) (hw : AllDigits whole)
    (hne : whole ≠ []) (hlead : whole.head? = some 0 → whole = [0]) (hf : AllDigits fraction) :
    readNumeral (jsNumeral negative whole fraction exponent) =
      some ⟨negative, natOf (whole ++ fraction), exponent.getD 0 - fraction.length⟩ := by
  have hdigit : NoDigitNext ((exponent.map jsExponentText).getD []) := by
    cases exponent with
    | none => intro c hc; simp at hc
    | some exponent =>
      intro c hc
      have hsame : 'e' = c := by simpa [jsExponentText] using hc
      rw [← hsame]
      rfl
  have hpoint : ((exponent.map jsExponentText).getD []).head? ≠ some '.' := by cases exponent <;> simp [jsExponentText]
  exact readNumeral_parts negative hw hne hlead hf hdigit hpoint (readExponent_jsText exponent)

/-- The layout's numeral is read as the digits with their point. -/
theorem readNumeral_jsLayout (negative : Bool) {digits : List ℕ} (point : ℤ) (hd : AllDigits digits) (hne : digits ≠ [])
    (hlead : digits.head? ≠ some 0) :
    ∃ decimal, readNumeral (jsLayout negative digits point) = some decimal ∧ decimal.negative = negative ∧
      decimal.magnitude = natOf digits * 10 ^ (point - digits.length) := by
  have htake : ∀ k, AllDigits (digits.take k) := fun k d hm => hd d (List.mem_of_mem_take hm)
  have hdrop : ∀ k, AllDigits (digits.drop k) := fun k d hm => hd d (List.mem_of_mem_drop hm)
  have hfront : ∀ front : List ℕ, front <+: digits → front ≠ [] → front.head? = some 0 → front = [0] := by
    intro front hfront hnil hzero
    obtain ⟨back, hback⟩ := hfront
    rw [← hback, List.head?_append_of_ne_nil _ hnil] at hlead
    exact absurd hzero hlead
  have hzeros : ∀ k, AllDigits (List.replicate k 0) := by
    intro k d hm
    have hz := List.eq_of_mem_replicate hm
    omega
  have hboth : ∀ {front back}, AllDigits front → AllDigits back → AllDigits (front ++ back) := by
    intro front back hf hb d hm
    cases List.mem_append.mp hm with
    | inl hm => exact hf d hm
    | inr hm => exact hb d hm
  have hlength : 0 < digits.length := List.length_pos_iff.mpr hne
  have htaken : ∀ k, 0 < k → digits.take k ≠ [] := by
    intro k hk hnil
    have hlen := congrArg List.length hnil
    rw [List.length_take, List.length_nil] at hlen
    omega
  unfold jsLayout
  split
  · have hlead' : (digits ++ List.replicate (point.toNat - digits.length) 0).head? = some 0 →
        digits ++ List.replicate (point.toNat - digits.length) 0 = [0] := by
      rw [List.head?_append_of_ne_nil _ hne]
      exact fun hz => absurd hz hlead
    refine ⟨_, readNumeral_jsNumeral negative none (hboth hd (hzeros _)) (by simp [hne]) hlead' (hzeros 0), rfl, ?_⟩
    have hpow : point - digits.length = ((point.toNat - digits.length : ℕ) : ℤ) := by omega
    rw [Decimal.magnitude, hpow, zpow_natCast, List.append_nil, natOf_append, natOf_replicate_zero, List.length_replicate]
    simp
  · split
    · refine ⟨_, readNumeral_jsNumeral negative none (htake _) (htaken _ (by omega))
        (hfront _ (List.take_prefix _ _) (htaken _ (by omega))) (hdrop _), rfl, ?_⟩
      simp only [Decimal.magnitude, List.take_append_drop, Option.getD_none, List.length_drop]
      congr 2
      omega
    · split
      · refine ⟨_, readNumeral_jsNumeral negative none (hzeros 1) (by simp) (by simp) (hboth (hzeros _) hd), rfl, ?_⟩
        simp only [Decimal.magnitude, List.singleton_append, natOf_zero_cons, natOf_append, natOf_replicate_zero, Nat.zero_mul,
          Nat.zero_add, Option.getD_none, List.length_append, List.length_replicate]
        congr 2
        omega
      · refine ⟨_, readNumeral_jsNumeral negative _ (htake 1) (htaken 1 one_pos)
          (hfront _ (List.take_prefix _ _) (htaken 1 one_pos)) (hdrop 1), rfl, ?_⟩
        simp only [Decimal.magnitude, List.take_append_drop, Option.getD_some, List.length_drop]
        congr 2
        omega

/-- The text of a finite number is read as the number. -/
theorem readNumeral_numberText (negative : Bool) (n : { n : ℕ // IsMagnitude n }) :
    ∃ decimal, readNumeral (numberText (.finite negative n)) = some decimal ∧
      decimal.toDouble = unsignedZero (.finite negative n) := by
  simp only [numberText, unsignedZero]
  by_cases hn : n.val = 0
  · rw [if_pos hn, if_pos hn]
    have hm : (natOf ([0] ++ []) * 10 ^ ((none : Option ℤ).getD 0 - ([] : List ℕ).length) : ℚ) * unitsOfOne = n.val := by
      rw [hn, List.append_nil, show natOf [0] = 0 from natOf_replicate_zero 1, Nat.cast_zero, zero_mul, zero_mul]
    refine ⟨_, readNumeral_jsNumeral false none (by simp [AllDigits]) (by simp) (by simp) (by simp [AllDigits]), ?_⟩
    exact nearest_exact n.property hm
  · rw [if_neg hn, if_neg hn]
    have hread := shortest_toDouble negative n
    have hc := shortest_ne_zero negative hn
    have hvalue := stripZeros_value (digitsOf (shortest negative n).coefficient).length (shortest negative n).coefficient
      (shortest negative n).exponent
    have hne := stripZeros_ne_zero (digitsOf (shortest negative n).coefficient).length (shortest negative n).exponent hc
    obtain ⟨decimal, hdecimal, hsign, hmagnitude⟩ := readNumeral_jsLayout (shortest negative n).negative
      ((stripZeros (digitsOf (shortest negative n).coefficient).length (shortest negative n).coefficient
        (shortest negative n).exponent).2 + (digitsOf (stripZeros (digitsOf (shortest negative n).coefficient).length
          (shortest negative n).coefficient (shortest negative n).exponent).1).length)
      (allDigits_digitsOf _) (digitsOf_ne_nil _) (digitsOf_head hne)
    refine ⟨decimal, hdecimal, ?_⟩
    rw [natOf_digitsOf, add_sub_cancel_right, hvalue] at hmagnitude
    rw [Decimal.toDouble, hsign, hmagnitude]
    exact hread.2

theorem numberText_unsignedZero (a : Double) : numberText (unsignedZero a) = numberText a := by
  cases a with
  | finite negative n =>
    rw [unsignedZero]
    split
    · next hn => simp only [numberText, if_pos hn]
    · rfl
  | _ => rfl

/-- Numbers with one text are one number. -/
theorem numberText_inj {a b : Double} : numberText a = numberText b ↔ unsignedZero a = unsignedZero b := by
  constructor
  · intro h
    have hread : ∀ {double : Double}, double.isFinite = true →
        (readNumeral (numberText double)).map Decimal.toDouble = some (unsignedZero double) := by
      intro double hfinite
      cases double with
      | finite negative n =>
        obtain ⟨decimal, hdecimal, hdouble⟩ := readNumeral_numberText negative n
        rw [hdecimal, Option.map_some, hdouble]
      | _ => cases hfinite
    -- the other texts are no numerals
    have hnamed : ∀ {double : Double}, double.isFinite = false → readNumeral (numberText double) = none := by
      intro double hnamed
      cases double with
      | nan => rfl
      | infinity negative => cases negative <;> rfl
      | finite negative n => cases hnamed
    cases ha : a.isFinite with
    | true =>
      cases hb : b.isFinite with
      | true => exact Option.some.inj ((hread ha).symm.trans (h ▸ hread hb))
      | false =>
        have hnone := hread ha
        rw [h, hnamed hb] at hnone
        cases hnone
    | false =>
      cases hb : b.isFinite with
      | true =>
        have hnone := hread hb
        rw [← h, hnamed ha] at hnone
        cases hnone
      | false =>
        rcases a with _ | (_ | _) | ⟨negative, n⟩ <;> rcases b with _ | (_ | _) | ⟨negative', n'⟩ <;>
          first | rfl | (cases ha; done) | (cases hb; done) | exact absurd h (by decide)
  · intro h
    rw [← numberText_unsignedZero a, h, numberText_unsignedZero]

/-! ## Values -/

/-- A string: its code units. -/
abbrev JsString := List ℕ

/-- The string of some characters. -/
def units (text : List Char) : JsString := text.map Char.toNat

/-- A string constant. -/
def js (text : String) : JsString := units text.toList

theorem units_inj {a b : List Char} : units a = units b ↔ a = b := List.map_inj_right fun _ _ h => Char.toNat_inj.mp h

/-- A value of parsed JSON, or `undefined`. -/
inductive JsValue where
  | undefined
  | null
  | boolean (value : Bool)
  | number (value : Double)
  | string (text : JsString)
  | array (items : List JsValue)
  | object (members : List (JsString × JsValue))

/-- What `typeof` tells. -/
inductive JsType where
  | undefined | boolean | number | string | object
  deriving DecidableEq

/-- `typeof`: null and arrays are objects. -/
def JsValue.typeof : JsValue → JsType
  | .undefined => .undefined
  | .boolean _ => .boolean
  | .number _ => .number
  | .string _ => .string
  | _ => .object

/-- Its name. -/
def JsType.name : JsType → JsString
  | .undefined => js "undefined"
  | .boolean => js "boolean"
  | .number => js "number"
  | .string => js "string"
  | .object => js "object"

/-- `null` or `undefined`. -/
def JsValue.nullish : JsValue → Bool
  | .undefined => true
  | .null => true
  | _ => false

/-- An object has a member. -/
def hasMember (members : List (JsString × JsValue)) (name : String) : Bool := members.any fun member => member.1 = js name

mutual

/-- `String(value)`; none is a `TypeError`. -/
def stringOf : JsValue → Option JsString
  | .undefined => some (js "undefined")
  | .null => some (js "null")
  | .boolean value => some (js (if value then "true" else "false"))
  | .number value => some (units (numberText value))
  | .string text => some text
  | .array items => (elementTexts items).map (List.intercalate (js ","))
  -- a member `toString` of parsed JSON is no function, and neither is what follows it
  | .object members => if hasMember members "toString" then none else some (js "[object Object]")

/-- The texts that `Array.prototype.join` joins: nothing for what is nullish. -/
def elementTexts : List JsValue → Option (List JsString)
  | [] => some []
  | item :: items =>
    (if item.nullish then some [] else stringOf item).bind fun text => (elementTexts items).map (text :: ·)

end

/-! ## Equal values -/

/-- Members in the order of their names. -/
def byName (a b : JsString × JsValue) : Bool := decide (a.1 ≤ b.1)

mutual

/-- A value with its members in order and its zeros without signs. -/
def canonical : JsValue → JsValue
  | .undefined => .undefined
  | .null => .null
  | .boolean value => .boolean value
  | .number value => .number (unsignedZero value)
  | .string text => .string text
  | .array items => .array (canonicalItems items)
  | .object members => .object ((canonicalMembers members).mergeSort byName)

/-- The items of an array. -/
def canonicalItems : List JsValue → List JsValue
  | [] => []
  | item :: items => canonical item :: canonicalItems items

/-- The members of an object. -/
def canonicalMembers : List (JsString × JsValue) → List (JsString × JsValue)
  | [] => []
  | (name, value) :: members => (name, canonical value) :: canonicalMembers members

end

/-- Equal as JSON values. -/
def Same (a b : JsValue) : Prop := canonical a = canonical b

theorem Same.refl (a : JsValue) : Same a a := rfl

theorem typeof_canonical (a : JsValue) : (canonical a).typeof = a.typeof := by
  cases a <;> rw [canonical] <;> rfl

theorem nullish_canonical (a : JsValue) : (canonical a).nullish = a.nullish := by
  cases a <;> rw [canonical] <;> rfl

theorem hasMember_canonical (members : List (JsString × JsValue)) (name : String) :
    hasMember ((canonicalMembers members).mergeSort byName) name = hasMember members name := by
  have hnames : (canonicalMembers members).map Prod.fst = members.map Prod.fst := by
    induction members with
    | nil => rw [canonicalMembers]
    | cons member members ih => rw [canonicalMembers, List.map_cons, List.map_cons, ih]
  have hany : ∀ members : List (JsString × JsValue),
      hasMember members name = true ↔ js name ∈ members.map Prod.fst := by
    intro members
    rw [hasMember, List.any_eq_true, List.mem_map]
    exact ⟨fun ⟨member, hmem, hname⟩ => ⟨member, hmem, of_decide_eq_true hname⟩,
      fun ⟨member, hmem, hname⟩ => ⟨member, hmem, decide_eq_true hname⟩⟩
  have hperm := ((List.mergeSort_perm (canonicalMembers members) byName).map Prod.fst).mem_iff (a := js name)
  rw [Bool.eq_iff_iff, hany, hany, ← hnames]
  exact hperm

mutual

theorem stringOf_canonical (a : JsValue) : stringOf (canonical a) = stringOf a := by
  cases a with
  | number value => rw [canonical, stringOf, stringOf, numberText_unsignedZero]
  | array items => rw [canonical, stringOf, stringOf, elementTexts_canonical items]
  | object members => rw [canonical, stringOf, stringOf, hasMember_canonical]
  | _ => rw [canonical]

theorem elementTexts_canonical (items : List JsValue) : elementTexts (canonicalItems items) = elementTexts items := by
  cases items with
  | nil => rw [canonicalItems]
  | cons item items =>
    rw [canonicalItems, elementTexts, elementTexts, nullish_canonical, stringOf_canonical item, elementTexts_canonical items]

end

theorem Same.typeof {a b : JsValue} (h : Same a b) : a.typeof = b.typeof := by
  rw [← typeof_canonical a, h, typeof_canonical]

theorem Same.nullish {a b : JsValue} (h : Same a b) : a.nullish = b.nullish := by
  rw [← nullish_canonical a, h, nullish_canonical]

/-- Equal values have one string. -/
theorem Same.stringOf {a b : JsValue} (h : Same a b) : stringOf a = stringOf b := by
  rw [← stringOf_canonical a, h, stringOf_canonical]

/-- Values that are no objects are told apart by their types and strings. -/
theorem same_of_string {a b : JsValue} (htype : a.typeof = b.typeof) (hplain : a.typeof ≠ .object)
    (hstring : stringOf a = stringOf b) : Same a b := by
  cases a with
  | undefined => cases b <;> first | rfl | cases htype
  | null => exact absurd rfl hplain
  | array items => exact absurd rfl hplain
  | object members => exact absurd rfl hplain
  | boolean value =>
    cases b with
    | boolean other =>
      rw [stringOf, stringOf] at hstring
      cases value <;> cases other <;> first | rfl | exact absurd hstring (by decide)
    | _ => cases htype
  | number value =>
    cases b with
    | number other =>
      rw [stringOf, stringOf] at hstring
      have htext := units_inj.mp (Option.some.inj hstring)
      rw [Same, canonical, canonical, numberText_inj.mp htext]
    | _ => cases htype
  | string text =>
    cases b with
    | string other =>
      rw [stringOf, stringOf] at hstring
      rw [Option.some.inj hstring]
      exact Same.refl _
    | _ => cases htype

end RagSystem.JavaScriptValues
