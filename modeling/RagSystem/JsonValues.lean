import Mathlib.Data.Int.Notation

/-!
# JSON values

What Python's `json.loads` gives: the values, what counts as false, and the
texts `str` and `repr` make of them. A float is kept as its `repr`; how a
string is quoted is a parameter.
-/

namespace RagSystem.JsonValues

set_option autoImplicit false

/-- A value read from JSON. -/
inductive JsonValue where
  /-- `None`. -/
  | null
  /-- A `bool`. -/
  | bool (value : Bool)
  /-- An `int`. -/
  | int (value : ℤ)
  /-- A `float`, by its `repr`, and whether it is zero. -/
  | float (text : String) (zero : Bool)
  /-- A `str`. -/
  | str (value : String)
  /-- A `list`. -/
  | list (items : List JsonValue)
  /-- A `dict`, its keys distinct and in the order they were set. -/
  | dict (entries : List (String × JsonValue))

/-- How reading JSON fails. -/
inductive LoadsError where
  /-- `JSONDecodeError`: the text is not JSON. -/
  | jsonDecode
  /-- Another exception: nested too deep, or an integer with too many digits. -/
  | raised (message : String)
  deriving DecidableEq

/-- The truth of a value. -/
def JsonValue.truthy : JsonValue → Bool
  | .null => false
  | .bool value => value
  | .int value => value ≠ 0
  | .float _ zero => !zero
  | .str value => value ≠ ""
  | .list items => !items.isEmpty
  | .dict entries => !entries.isEmpty

mutual

/-- `repr`. -/
def JsonValue.repr (quoted : String → String) : JsonValue → String
  | .null => "None"
  | .bool value => if value then "True" else "False"
  | .int value => toString value
  | .float text _ => text
  | .str value => quoted value
  | .list items => "[" ++ ", ".intercalate (reprItems quoted items) ++ "]"
  | .dict entries => "\x7b" ++ ", ".intercalate (reprEntries quoted entries) ++ "\x7d"

/-- Of the items of a list. -/
def reprItems (quoted : String → String) : List JsonValue → List String
  | [] => []
  | item :: items => item.repr quoted :: reprItems quoted items

/-- Of the entries of a dict. -/
def reprEntries (quoted : String → String) : List (String × JsonValue) → List String
  | [] => []
  | (key, value) :: entries => (quoted key ++ ": " ++ value.repr quoted) :: reprEntries quoted entries

end

/-- `str`: of a string itself, of anything else its `repr`. -/
def JsonValue.text (quoted : String → String) : JsonValue → String
  | .str value => value
  | value => value.repr quoted

/-- `payload.get(key)`. -/
def get (payload : List (String × JsonValue)) (key : String) : Option JsonValue := payload.lookup key

/-- `payload.get(key)`, with `None` for a missing key. -/
def getOrNull (payload : List (String × JsonValue)) (key : String) : JsonValue := (get payload key).getD .null

/-- `str(value or default)`. -/
def textOr (quoted : String → String) (value : JsonValue) (default : String) : String :=
  if value.truthy then value.text quoted else default

end RagSystem.JsonValues
