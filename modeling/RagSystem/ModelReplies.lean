import RagSystem.TolerantJson

/-!
# Values read from a model's reply

What `json.loads` makes of a reply, whatever the reply is: any value, an error
that its callers catch, or the interpreter's stack limit. Strings are code
points, so that a surrogate can stand alone in one.
-/

namespace RagSystem.ModelReplies

open Doubles DocumentModels
open JsonText (Json)
open PythonNumbers (PyNumber)

set_option autoImplicit false

/-- A string: its code points. -/
abbrev PyStr := List ℕ

/-- A string of characters. -/
def py (text : String) : PyStr := text.toList.map Char.toNat

/-- The string of these code points; there is none if one of them is a surrogate. -/
def ofCodes (codes : PyStr) : Option String :=
  if ∀ code ∈ codes, code.isValidChar then some (String.ofList (codes.map Char.ofNat)) else none

theorem isValidChar_toNat (c : Char) : c.toNat.isValidChar := c.valid

/-- A string is read off its code points. -/
@[simp] theorem ofCodes_py (text : String) : ofCodes (py text) = some text := by
  have hvalid : ∀ code ∈ py text, code.isValidChar := by
    intro code hcode
    obtain ⟨c, -, rfl⟩ := List.mem_map.mp hcode
    exact isValidChar_toNat c
  have hback : (py text).map Char.ofNat = text.toList := by
    rw [py, List.map_map]
    conv_rhs => rw [← List.map_id text.toList]
    exact List.map_congr_left fun c _ => Char.ofNat_toNat c
  rw [ofCodes, if_pos hvalid, hback, String.ofList_toList]

/-- And has them. -/
theorem py_of_ofCodes {codes : PyStr} {text : String} (h : ofCodes codes = some text) : py text = codes := by
  unfold ofCodes at h
  split at h
  · next hvalid =>
    cases h
    rw [py, String.toList_ofList, List.map_map]
    conv_rhs => rw [← List.map_id codes]
    refine List.map_congr_left fun code hcode => ?_
    have hcode := hvalid code hcode
    rw [Function.comp_apply, id_eq, Char.ofNat, dif_pos hcode]
    rfl
  · cases h

theorem py_inj {a b : String} : py a = py b ↔ a = b := by
  constructor
  · intro h
    exact Option.some.inj (by rw [← ofCodes_py a, h, ofCodes_py])
  · exact fun h => h ▸ rfl

/-- What `json.loads` returns; a dict has the last of the members of one name. -/
inductive Value where
  | none
  | bool (value : Bool)
  | int (value : ℤ)
  | float (value : Double)
  | str (text : PyStr)
  | list (items : List Value)
  | dict (members : List (PyStr × Value))

/-- How `json.loads` ends. -/
inductive Loaded where
  /-- It returns. -/
  | value (value : Value)
  /-- `JSONDecodeError`, or another `ValueError`. -/
  | refused
  /-- `RecursionError`. -/
  | exhausted

/-- What is raised. -/
inductive PyError where
  | attributeError
  | typeError
  | valueError
  | overflowError
  | recursionError
  | keyError
  /-- A model's constructor refuses, which is a `ValueError` too. -/
  | validationError
  deriving DecidableEq

/-- What returns after a first step returned of the first. -/
theorem bind_eq_ok {ε α β : Type} {first : Except ε α} {rest : α → Except ε β} {b : β} :
    (first >>= rest) = .ok b ↔ ∃ a, first = .ok a ∧ rest a = .ok b := by
  cases first with
  | error error => simp [bind, Except.bind]
  | ok a => simp [bind, Except.bind]

/-- The runtime, and what pydantic takes for text. -/
structure Python where
  /-- `json.loads`. -/
  loads : List Char → Loaded
  /-- `str` of what is no string. -/
  str : Value → PyStr
  /-- `str.lower`. -/
  lower : PyStr → PyStr
  /-- `float` of a string; none where it raises. -/
  floatOfText : PyStr → Option Double
  /-- Whether a field for strings takes one. -/
  acceptsText : PyStr → Bool

/-- `payload.get`. -/
def get (members : List (PyStr × Value)) (name : String) : Option Value := members.lookup (py name)

/-- `str`. -/
def Python.textOf (python : Python) : Value → PyStr
  | .str text => text
  | value => python.str value

/-- A code point that `str.strip` removes. -/
def isSpaceCode (code : ℕ) : Bool := isSpace (Char.ofNat code)

/-- `str.strip`. -/
def stripStr (text : PyStr) : PyStr := ((text.dropWhile isSpaceCode).reverse.dropWhile isSpaceCode).reverse

/-- `float` of a whole number; none where it is too large. -/
@[irreducible] def floatOfInt (value : ℤ) : Option Double :=
  match nearest (value < 0) value.natAbs with
  | .finite negative n => some (.finite negative n)
  | _ => Option.none

/-- The truth of a value. -/
def truthy : Value → Bool
  | .none => false
  | .bool value => value
  | .int value => value ≠ 0
  | .float (.finite _ n) => n.val ≠ 0
  | .float _ => true
  | .str text => text ≠ []
  | .list items => !items.isEmpty
  | .dict members => !members.isEmpty

/-- `_extract_json_object`, of the judge and of the trace investigator. -/
def extractJsonObject (python : Python) (raw : List Char) : Except PyError (Option (List (PyStr × Value))) :=
  if TolerantJson.strip raw = [] then .ok Option.none
  else
    match python.loads (TolerantJson.unwrapped raw) with
    | .value (.dict members) => .ok (some members)
    | .value _ => .ok Option.none
    | .refused => .ok Option.none
    | .exhausted => .error .recursionError

/-! ## A runtime -/

/-- A member more: in the place of the one of its name, or last. -/
def putMember (members : List (PyStr × Value)) (member : PyStr × Value) : List (PyStr × Value) :=
  match members with
  | [] => [member]
  | first :: rest => if first.1 = member.1 then member :: rest else first :: putMember rest member

mutual

/-- A value as it is read. -/
def valueOf : Json PyNumber → Value
  | .null => .none
  | .bool value => .bool value
  | .num (.int value) => .int value
  | .num (.float value) => .float value
  | .str text => .str (py text)
  | .arr items => .list (itemsOf items)
  | .obj members => .dict ((membersOf members).foldl putMember [])

/-- The items of an array. -/
def itemsOf : List (Json PyNumber) → List Value
  | [] => []
  | item :: items => valueOf item :: itemsOf items

/-- The members of an object. -/
def membersOf : List (String × Json PyNumber) → List (PyStr × Value)
  | [] => []
  | (name, value) :: members => (py name, valueOf value) :: membersOf members

end

/-- A runtime for replies in ASCII that are not nested too deeply and escape no
surrogate; a field takes any string. -/
def plainPython : Python where
  loads text := match JsonText.parse PythonJson.scanPython text with
    | some json => .value (valueOf json)
    | none => .refused
  str _ := py "None"
  lower text := text.map fun code => if 65 ≤ code ∧ code ≤ 90 then code + 32 else code
  floatOfText _ := none
  acceptsText _ := true

/-- What is written without fences and braces around it is read as its object. -/
theorem loads_plain {text : List Char} {members : TolerantJson.Members}
    (hs : TolerantJson.Serialises text members) :
    plainPython.loads text = .value (.dict ((membersOf members).foldl putMember [])) := by
  simp only [plainPython, hs.read, valueOf]

/-! ## Doubles in order -/

/-- A double in signed units. -/
def signedUnits (negative : Bool) (n : ℕ) : ℤ := if negative then -n else n

/-- `<`. -/
def less : Double → Double → Bool
  | .nan, _ => false
  | _, .nan => false
  | _, .infinity true => false
  | .infinity true, _ => true
  | .infinity false, _ => false
  | _, .infinity false => true
  | .finite a m, .finite b n => signedUnits a m.val < signedUnits b n.val

/-- `0.0`. -/
def zero : Double := .finite false ⟨0, isMagnitude_zero⟩

theorem isMagnitude_one : IsMagnitude unitsOfOne := by
  have hlast : lastPlace unitsOfOne = 2 ^ (unitPower - 52) := by rw [lastPlace, unitsOfOne, Nat.log2_two_pow]
  refine ⟨?_, ?_⟩
  · rw [hlast, unitsOfOne]
    exact Nat.pow_dvd_pow 2 (Nat.sub_le _ _)
  · have hlt : unitPower < 2098 := by decide
    rw [unitsOfOne, overflow]
    exact pow_lt_pow_right₀ one_lt_two hlt

/-- `1.0`. -/
def one : Double := .finite false ⟨unitsOfOne, isMagnitude_one⟩

/-- From 0 to 1. -/
def InUnit (double : Double) : Prop := ∃ q, double.value? = some q ∧ 0 ≤ q ∧ q ≤ 1

theorem inUnit_zero : InUnit zero := by
  have hvalue : zero.value? = some 0 := by
    rw [zero, Double.value?, Nat.cast_zero, zero_div, mul_zero]
  exact ⟨0, hvalue, le_rfl, zero_le_one⟩

theorem inUnit_one : InUnit one := by
  have hunits : (unitsOfOne : ℚ) ≠ 0 := by exact_mod_cast unitsOfOne_pos.ne'
  have hvalue : one.value? = some 1 := by
    rw [one, Double.value?, div_self hunits, if_neg Bool.false_ne_true, one_mul]
  exact ⟨1, hvalue, zero_le_one, le_rfl⟩

/-- A finite double between zero and one, in units, is from 0 to 1. -/
theorem inUnit_finite {negative : Bool} {n : { n : ℕ // IsMagnitude n }} (hlow : 0 ≤ signedUnits negative n.val)
    (hhigh : signedUnits negative n.val ≤ unitsOfOne) : InUnit (.finite negative n) := by
  have hpos : (0 : ℚ) < unitsOfOne := by exact_mod_cast unitsOfOne_pos
  have hvalue : (if negative then -1 else 1) * ((n.val : ℚ) / unitsOfOne) = (signedUnits negative n.val : ℚ) / unitsOfOne := by
    cases negative
    · rw [signedUnits, if_neg Bool.false_ne_true, if_neg Bool.false_ne_true, one_mul, Int.cast_natCast]
    · rw [signedUnits, if_pos rfl, if_pos rfl, neg_one_mul, Int.cast_neg, Int.cast_natCast, neg_div]
  have hlow' : (0 : ℚ) ≤ signedUnits negative n.val := by exact_mod_cast hlow
  have hhigh' : (signedUnits negative n.val : ℚ) ≤ unitsOfOne := by exact_mod_cast hhigh
  refine ⟨(signedUnits negative n.val : ℚ) / unitsOfOne, ?_, div_nonneg hlow' hpos.le, (div_le_one hpos).mpr hhigh'⟩
  rw [Double.value?, hvalue]

/-- `min` of two: the first, unless the second is less. -/
def pyMin (a b : Double) : Double := if less b a then b else a

/-- `max` of two: the first, unless the second is more. -/
def pyMax (a b : Double) : Double := if less a b then b else a

/-- `max(0.0, min(1.0, x))`. -/
@[irreducible] def clampUnit (x : Double) : Double := pyMax zero (pyMin one x)

theorem pyMin_cases (a b : Double) : (pyMin a b = b ∧ less b a = true) ∨ pyMin a b = a := by
  unfold pyMin
  split
  · next hless => exact Or.inl ⟨rfl, hless⟩
  · exact Or.inr rfl

theorem pyMax_cases (a b : Double) : (pyMax a b = b ∧ less a b = true) ∨ pyMax a b = a := by
  unfold pyMax
  split
  · next hless => exact Or.inl ⟨rfl, hless⟩
  · exact Or.inr rfl

theorem less_finite (a b : Bool) (m n : { n : ℕ // IsMagnitude n }) :
    less (.finite a m) (.finite b n) = true ↔ signedUnits a m.val < signedUnits b n.val := by
  simp [less]

/-- Between zero and one a double is from 0 to 1. -/
theorem inUnit_of_less {x : Double} (hlow : less zero x = true) (hhigh : less x one = true) : InUnit x := by
  cases x with
  | nan => simp [zero, less] at hlow
  | infinity negative => cases negative <;> simp [zero, one, less] at hlow hhigh
  | finite negative n =>
    rw [zero, less_finite] at hlow
    rw [one, less_finite] at hhigh
    simp only [signedUnits, Bool.false_eq_true, if_false, Nat.cast_zero] at hlow hhigh
    exact inUnit_finite hlow.le hhigh.le

/-- It is from 0 to 1, whatever double it is of. -/
theorem inUnit_clampUnit (x : Double) : InUnit (clampUnit x) := by
  rw [clampUnit]
  cases pyMax_cases zero (pyMin one x) with
  | inr hzero =>
    rw [hzero]
    exact inUnit_zero
  | inl hpositive =>
    rw [hpositive.1]
    cases pyMin_cases one x with
    | inr hone =>
      rw [hone]
      exact inUnit_one
    | inl hsmall =>
      rw [hsmall.1]
      exact inUnit_of_less (hsmall.1 ▸ hpositive.2) hsmall.2

end RagSystem.ModelReplies
