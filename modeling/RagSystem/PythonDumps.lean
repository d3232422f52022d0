import RagSystem.ModelReplies

/-!
# Python's strings, dumped and encoded

A Python string is code points, and a surrogate may stand alone in one. What
`json.dumps` writes with characters past ASCII kept is again such a string. It
has an encoding in UTF-8 exactly if no text of the value has a surrogate, and
then it is what a value with texts of characters is written as.
-/

namespace RagSystem.PythonDumps

open Doubles PythonNumbers ModelReplies
open JsonText (Json)

set_option autoImplicit false

section Writing

/-- How a string's code point is written; a surrogate is left as it is. -/
def escapeCode (code : ℕ) : PyStr :=
  if code.isValidChar then (JsonText.escape (Char.ofNat code)).map Char.toNat else [code]

/-- A string in quotes. -/
def quote (text : PyStr) : PyStr := py "\"" ++ (text.flatMap escapeCode ++ py "\"")

mutual

/-- `json.dumps(value, ensure_ascii=False)`. -/
def dumps : Value → PyStr
  | .none => py "null"
  | .bool true => py "true"
  | .bool false => py "false"
  | .int value => (intText value).map Char.toNat
  | .float value => (floatText value).map Char.toNat
  | .str text => quote text
  | .list [] => py "[]"
  | .list (item :: items) => py "[" ++ (dumps item ++ dumpsItems items)
  | .dict [] => py "\x7b\x7d"
  | .dict ((key, value) :: members) => py "\x7b" ++ (quote key ++ (py ": " ++ (dumps value ++ dumpsMembers members)))

/-- The items after the first, and the bracket. -/
def dumpsItems : List Value → PyStr
  | [] => py "]"
  | item :: items => py ", " ++ (dumps item ++ dumpsItems items)

/-- The members after the first, and the brace. -/
def dumpsMembers : List (PyStr × Value) → PyStr
  | [] => py "\x7d"
  | (key, value) :: members => py ", " ++ (quote key ++ (py ": " ++ (dumps value ++ dumpsMembers members)))

end

/-- `str.encode("utf-8")`; none where it raises `UnicodeEncodeError`. -/
def encodeUtf8 (text : PyStr) : Option (List UInt8) :=
  (ofCodes text).map fun text => text.toList.flatMap String.utf8EncodeChar

end Writing

section Characters

mutual

/-- A value with texts of characters; none where a text has a surrogate. -/
def charsOf : Value → Option (Json PyNumber)
  | .none => some .null
  | .bool value => some (.bool value)
  | .int value => some (.num (.int value))
  | .float value => some (.num (.float value))
  | .str text => (ofCodes text).map .str
  | .list items => (charsOfItems items).map .arr
  | .dict members => (charsOfMembers members).map .obj

/-- The items of a list. -/
def charsOfItems : List Value → Option (List (Json PyNumber))
  | [] => some []
  | item :: items =>
    match charsOf item, charsOfItems items with
    | some item, some items => some (item :: items)
    | _, _ => none

/-- The members of a dict. -/
def charsOfMembers : List (PyStr × Value) → Option (List (String × Json PyNumber))
  | [] => some []
  | (key, value) :: members =>
    match ofCodes key, charsOf value, charsOfMembers members with
    | some key, some value, some members => some ((key, value) :: members)
    | _, _, _ => none

end

/-- The code points of characters. -/
abbrev codes (text : List Char) : PyStr := text.map Char.toNat

/-- `text` is how `chars` is written, or it has no encoding and there are none. -/
def Writes (text : PyStr) (chars : Option (List Char)) : Prop :=
  match chars with
  | some chars => text = codes chars
  | none => ofCodes text = none

/-- Characters, and code points. -/
theorem ofCodes_codes (text : List Char) : ofCodes (codes text) = some (String.ofList text) := by
  have hpy : codes text = py (String.ofList text) := by rw [py, String.toList_ofList]
  rw [hpy, ofCodes_py]

/-- A text has characters exactly if each of its code points is one. -/
theorem ofCodes_eq_none {text : PyStr} : ofCodes text = none ↔ ∃ code ∈ text, ¬ code.isValidChar := by
  unfold ofCodes
  split
  · next hvalid =>
    refine ⟨nofun, ?_⟩
    rintro ⟨code, hcode, hinvalid⟩
    exact absurd (hvalid code hcode) hinvalid
  · next hvalid =>
    refine ⟨fun _ => ?_, fun _ => rfl⟩
    simpa only [not_forall, exists_prop] using hvalid

/-- A part without encoding leaves the whole without. -/
theorem ofCodes_append_none {first second : PyStr} :
    ofCodes (first ++ second) = none ↔ ofCodes first = none ∨ ofCodes second = none := by
  simp only [ofCodes_eq_none, List.mem_append, or_and_right, exists_or]

/-- Parts are written one after the other. -/
theorem Writes.append {first second : PyStr} {a b : Option (List Char)} (ha : Writes first a) (hb : Writes second b) :
    Writes (first ++ second) (a.bind fun a => b.map fun b => a ++ b) := by
  cases a with
  | none => exact ofCodes_append_none.mpr (.inl ha)
  | some a =>
    cases b with
    | none => exact ofCodes_append_none.mpr (.inr hb)
    | some b =>
      have ha : first = codes a := ha
      have hb : second = codes b := hb
      show first ++ second = codes (a ++ b)
      rw [ha, hb]
      exact List.map_append.symm

/-- Characters are written as they are. -/
theorem writes_codes (text : List Char) : Writes (codes text) (some text) := rfl

/-- A string in quotes. -/
theorem writes_quote (text : PyStr) : Writes (quote text) ((ofCodes text).map JsonText.quote) := by
  have hbody : Writes (text.flatMap escapeCode) ((ofCodes text).map fun text => text.toList.flatMap JsonText.escape) := by
    cases hc : ofCodes text with
    | none =>
      obtain ⟨code, hcode, hinvalid⟩ := ofCodes_eq_none.mp hc
      have hescaped : escapeCode code = [code] := if_neg hinvalid
      exact ofCodes_eq_none.mpr ⟨code, List.mem_flatMap.mpr ⟨code, hcode, by simp [hescaped]⟩, hinvalid⟩
    | some chars =>
      have hescape : ∀ c : Char, escapeCode c.toNat = codes (JsonText.escape c) := by
        intro c
        rw [escapeCode, if_pos (isValidChar_toNat c), Char.ofNat_toNat]
      show text.flatMap escapeCode = codes (chars.toList.flatMap JsonText.escape)
      rw [← py_of_ofCodes hc, py, List.flatMap_map, codes, List.map_flatMap]
      exact List.flatMap_congr fun c _ => hescape c
  have hquoted := (writes_codes ['"']).append (hbody.append (writes_codes ['"']))
  cases hc : ofCodes text with
  | none =>
    rw [hc] at hquoted
    exact hquoted
  | some chars =>
    rw [hc] at hquoted
    exact hquoted

mutual

/-- What a value is written as is what it is with texts of characters, or has no
encoding. -/
theorem writes_dumps : ∀ value : Value, Writes (dumps value) ((charsOf value).map (JsonText.dumps PyNumber.text))
  | .none => rfl
  | .bool true => rfl
  | .bool false => rfl
  | .int _ => rfl
  | .float _ => rfl
  | .str text => by
    have hquoted := writes_quote text
    rw [dumps, charsOf]
    cases hc : ofCodes text with
    | none =>
      rw [hc] at hquoted
      exact hquoted
    | some chars =>
      rw [hc] at hquoted
      exact hquoted
  | .list [] => rfl
  | .list (item :: items) => by
    have hlist := (writes_codes ['[']).append ((writes_dumps item).append (writes_dumpsItems items))
    rw [dumps, charsOf, charsOfItems]
    cases hitem : charsOf item with
    | none =>
      rw [hitem] at hlist
      exact hlist
    | some first =>
      cases hitems : charsOfItems items with
      | none =>
        rw [hitem, hitems] at hlist
        exact hlist
      | some rest =>
        rw [hitem, hitems] at hlist
        exact hlist
  | .dict [] => rfl
  | .dict ((key, value) :: members) => by
    have hdict := (writes_codes ['\x7b']).append ((writes_quote key).append ((writes_codes [':', ' ']).append
      ((writes_dumps value).append (writes_dumpsMembers members))))
    rw [dumps, charsOf, charsOfMembers]
    cases hkey : ofCodes key with
    | none =>
      rw [hkey] at hdict
      exact hdict
    | some name =>
      cases hvalue : charsOf value with
      | none =>
        rw [hkey, hvalue] at hdict
        exact hdict
      | some first =>
        cases hmembers : charsOfMembers members with
        | none =>
          rw [hkey, hvalue, hmembers] at hdict
          exact hdict
        | some rest =>
          rw [hkey, hvalue, hmembers] at hdict
          exact hdict

theorem writes_dumpsItems : ∀ items : List Value,
    Writes (dumpsItems items) ((charsOfItems items).map (JsonText.dumpsItems PyNumber.text))
  | [] => rfl
  | item :: items => by
    have hlist := (writes_codes [',', ' ']).append ((writes_dumps item).append (writes_dumpsItems items))
    rw [dumpsItems, charsOfItems]
    cases hitem : charsOf item with
    | none =>
      rw [hitem] at hlist
      exact hlist
    | some first =>
      cases hitems : charsOfItems items with
      | none =>
        rw [hitem, hitems] at hlist
        exact hlist
      | some rest =>
        rw [hitem, hitems] at hlist
        exact hlist

theorem writes_dumpsMembers : ∀ members : List (PyStr × Value),
    Writes (dumpsMembers members) ((charsOfMembers members).map (JsonText.dumpsMembers PyNumber.text))
  | [] => rfl
  | (key, value) :: members => by
    have hdict := (writes_codes [',', ' ']).append ((writes_quote key).append ((writes_codes [':', ' ']).append
      ((writes_dumps value).append (writes_dumpsMembers members))))
    rw [dumpsMembers, charsOfMembers]
    cases hkey : ofCodes key with
    | none =>
      rw [hkey] at hdict
      exact hdict
    | some name =>
      cases hvalue : charsOf value with
      | none =>
        rw [hkey, hvalue] at hdict
        exact hdict
      | some first =>
        cases hmembers : charsOfMembers members with
        | none =>
          rw [hkey, hvalue, hmembers] at hdict
          exact hdict
        | some rest =>
          rw [hkey, hvalue, hmembers] at hdict
          exact hdict

end

end Characters

end RagSystem.PythonDumps
