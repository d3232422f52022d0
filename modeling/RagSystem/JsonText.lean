import Mathlib.Data.Nat.Notation
import Mathlib.Tactic.Common
import Mathlib.Tactic.IntervalCases

/-!
# JSON text, written in one language and read in another

Values are written as Python's `json.dumps` writes them, characters past ASCII
kept, and read as JavaScript's `JSON.parse` reads them. How numbers are written
and read is a parameter, and the two sides need not have the same numbers. What
is read is the value written, with each number as the reader receives it; a
number the reader does not take makes the whole text unreadable.
-/

namespace RagSystem.JsonText

set_option autoImplicit false

attribute [local instance (2000)] List.decidableBAll

/-- A JSON value over some numbers. The members of an object stand in the order
of the text. -/
inductive Json (N : Type) where
  /-- `null`. -/
  | null
  /-- `true` or `false`. -/
  | bool (value : Bool)
  /-- A number. -/
  | num (value : N)
  /-- A string. -/
  | str (value : String)
  /-- An array. -/
  | arr (items : List (Json N))
  /-- An object. -/
  | obj (members : List (String × Json N))

variable {N M : Type}

mutual

/-- Induction over values: of an array over its items, of an object over its members' values. -/
theorem Json.induct {P : Json N → Prop} (hnull : P .null) (hbool : ∀ value, P (.bool value))
    (hnum : ∀ value, P (.num value)) (hstr : ∀ value, P (.str value))
    (harr : ∀ items, (∀ item ∈ items, P item) → P (.arr items))
    (hobj : ∀ members : List (String × Json N), (∀ member ∈ members, P member.2) → P (.obj members)) :
    ∀ value, P value
  | .null => hnull
  | .bool value => hbool value
  | .num value => hnum value
  | .str value => hstr value
  | .arr items => harr items (Json.induct_items hnull hbool hnum hstr harr hobj items)
  | .obj members => hobj members (Json.induct_members hnull hbool hnum hstr harr hobj members)

theorem Json.induct_items {P : Json N → Prop} (hnull : P .null) (hbool : ∀ value, P (.bool value))
    (hnum : ∀ value, P (.num value)) (hstr : ∀ value, P (.str value))
    (harr : ∀ items, (∀ item ∈ items, P item) → P (.arr items))
    (hobj : ∀ members : List (String × Json N), (∀ member ∈ members, P member.2) → P (.obj members)) :
    ∀ items : List (Json N), ∀ item ∈ items, P item
  | [] => fun _ hi => absurd hi List.not_mem_nil
  | first :: items =>
    List.forall_mem_cons.mpr
      ⟨Json.induct hnull hbool hnum hstr harr hobj first, Json.induct_items hnull hbool hnum hstr harr hobj items⟩

theorem Json.induct_members {P : Json N → Prop} (hnull : P .null) (hbool : ∀ value, P (.bool value))
    (hnum : ∀ value, P (.num value)) (hstr : ∀ value, P (.str value))
    (harr : ∀ items, (∀ item ∈ items, P item) → P (.arr items))
    (hobj : ∀ members : List (String × Json N), (∀ member ∈ members, P member.2) → P (.obj members)) :
    ∀ members : List (String × Json N), ∀ member ∈ members, P member.2
  | [] => fun _ hm => absurd hm List.not_mem_nil
  | (_, value) :: members =>
    List.forall_mem_cons.mpr
      ⟨Json.induct hnull hbool hnum hstr harr hobj value, Json.induct_members hnull hbool hnum hstr harr hobj members⟩

end

/-! ## Writing -/

/-- A hexadecimal digit. -/
def hexDigit (n : ℕ) : Char := n.digitChar

/-- How a string's character is written. -/
def escape (c : Char) : List Char :=
  if c = '"' then ['\\', '"']
  else if c = '\\' then ['\\', '\\']
  else if c = '\n' then ['\\', 'n']
  else if c = '\r' then ['\\', 'r']
  else if c = '\t' then ['\\', 't']
  else if c = '\x08' then ['\\', 'b']
  else if c = '\x0c' then ['\\', 'f']
  else if c.toNat < 32 then ['\\', 'u', '0', '0', hexDigit (c.toNat / 16), hexDigit (c.toNat % 16)]
  else [c]

/-- A string in quotes. -/
def quote (text : String) : List Char := '"' :: (text.toList.flatMap escape ++ ['"'])

mutual

/-- `json.dumps(value, ensure_ascii=False)`. -/
def dumps (write : N → List Char) : Json N → List Char
  | .null => "null".toList
  | .bool true => "true".toList
  | .bool false => "false".toList
  | .num value => write value
  | .str value => quote value
  | .arr [] => ['[', ']']
  | .arr (item :: items) => '[' :: (dumps write item ++ dumpsItems write items)
  | .obj [] => ['\x7b', '\x7d']
  | .obj ((key, value) :: members) =>
    '\x7b' :: (quote key ++ ':' :: ' ' :: (dumps write value ++ dumpsMembers write members))

/-- The items after the first, and the bracket. -/
def dumpsItems (write : N → List Char) : List (Json N) → List Char
  | [] => [']']
  | item :: items => ',' :: ' ' :: (dumps write item ++ dumpsItems write items)

/-- The members after the first, and the brace. -/
def dumpsMembers (write : N → List Char) : List (String × Json N) → List Char
  | [] => ['\x7d']
  | (key, value) :: members =>
    ',' :: ' ' :: (quote key ++ ':' :: ' ' :: (dumps write value ++ dumpsMembers write members))

end

/-! ## Reading -/

/-- The white space of JSON. -/
def isSpace (c : Char) : Bool := c = ' ' ∨ c = '\t' ∨ c = '\n' ∨ c = '\r'

/-- The text from its first character that is not white space. -/
def skipSpace (text : List Char) : List Char := text.dropWhile isSpace

/-- A hexadecimal digit's value. -/
def hexValue (c : Char) : Option ℕ :=
  if '0' ≤ c ∧ c ≤ '9' then some (c.toNat - 48)
  else if 'a' ≤ c ∧ c ≤ 'f' then some (c.toNat - 87)
  else if 'A' ≤ c ∧ c ≤ 'F' then some (c.toNat - 55)
  else none

/-- Four hexadecimal digits: a code unit. -/
def codeUnit (a b c d : Char) : Option ℕ := do
  let a ← hexValue a
  let b ← hexValue b
  let c ← hexValue c
  let d ← hexValue d
  return ((a * 16 + b) * 16 + c) * 16 + d

/-- A high surrogate's character, when the low one follows. A surrogate alone
stands for no character, and a text with one is left out of this model. -/
def parseLowSurrogate (high : ℕ) : List Char → Option (Char × List Char)
  | '\\' :: 'u' :: a :: b :: c :: d :: text => do
    let low ← codeUnit a b c d
    if 0xDC00 ≤ low ∧ low < 0xE000 then
      some (Char.ofNat (0x10000 + (high - 0xD800) * 0x400 + (low - 0xDC00)), text)
    else none
  | _ => none

/-- The character of an escape, after its backslash. -/
@[grind =] def parseEscape : List Char → Option (Char × List Char)
  | '"' :: text => some ('"', text)
  | '\\' :: text => some ('\\', text)
  | '/' :: text => some ('/', text)
  | 'b' :: text => some ('\x08', text)
  | 'f' :: text => some ('\x0c', text)
  | 'n' :: text => some ('\n', text)
  | 'r' :: text => some ('\r', text)
  | 't' :: text => some ('\t', text)
  | 'u' :: a :: b :: c :: d :: text => do
    let unit ← codeUnit a b c d
    if 0xD800 ≤ unit ∧ unit < 0xDC00 then parseLowSurrogate unit text
    else if 0xDC00 ≤ unit ∧ unit < 0xE000 then none
    else some (Char.ofNat unit, text)
  | _ => none

/-- A string, after its first quote. -/
@[grind =] def parseString : ℕ → List Char → Option (List Char × List Char)
  | 0, _ => none
  | _ + 1, [] => none
  | fuel + 1, c :: text =>
    if c = '"' then some ([], text)
    else if c = '\\' then
      (parseEscape text).bind fun escaped =>
        (parseString fuel escaped.2).map fun later => (escaped.1 :: later.1, later.2)
    else if c.toNat < 32 then none
    else (parseString fuel text).map fun later => (c :: later.1, later.2)

/-- A member's name and its colon. -/
def parseKey (text : List Char) : Option (String × List Char) :=
  match skipSpace text with
  | '"' :: text =>
    (parseString (text.length + 1) text).bind fun key =>
      match skipSpace key.2 with
      | ':' :: rest => some (String.ofList key.1, rest)
      | _ => none
  | _ => none

mutual

/-- A value, at most `fuel` calls deep. -/
def parseValue (scan : List Char → Option (M × List Char)) : ℕ → List Char → Option (Json M × List Char)
  | 0, _ => none
  | fuel + 1, text =>
    match skipSpace text with
    | '"' :: text => (parseString (text.length + 1) text).map fun read => (.str (String.ofList read.1), read.2)
    | '[' :: text =>
      match skipSpace text with
      | ']' :: text => some (.arr [], text)
      | _ => (parseItems scan fuel text).map fun read => (.arr read.1, read.2)
    | '\x7b' :: text =>
      match skipSpace text with
      | '\x7d' :: text => some (.obj [], text)
      | _ => (parseMembers scan fuel text).map fun read => (.obj read.1, read.2)
    | 't' :: 'r' :: 'u' :: 'e' :: text => some (.bool true, text)
    | 'f' :: 'a' :: 'l' :: 's' :: 'e' :: text => some (.bool false, text)
    | 'n' :: 'u' :: 'l' :: 'l' :: text => some (.null, text)
    | text => (scan text).map fun read => (.num read.1, read.2)

/-- The items of an array, at least one, and the bracket. -/
def parseItems (scan : List Char → Option (M × List Char)) : ℕ → List Char → Option (List (Json M) × List Char)
  | 0, _ => none
  | fuel + 1, text =>
    (parseValue scan fuel text).bind fun item =>
      match skipSpace item.2 with
      | ',' :: text => (parseItems scan fuel text).map fun later => (item.1 :: later.1, later.2)
      | ']' :: text => some ([item.1], text)
      | _ => none

/-- The members of an object, at least one, and the brace. -/
def parseMembers (scan : List Char → Option (M × List Char)) :
    ℕ → List Char → Option (List (String × Json M) × List Char)
  | 0, _ => none
  | fuel + 1, text =>
    (parseKey text).bind fun key =>
      (parseValue scan fuel key.2).bind fun value =>
        match skipSpace value.2 with
        | ',' :: text => (parseMembers scan fuel text).map fun later => ((key.1, value.1) :: later.1, later.2)
        | '\x7d' :: text => some ([(key.1, value.1)], text)
        | _ => none

end

attribute [grind =] parseValue parseItems parseMembers

/-- `JSON.parse`: `none` where it throws. -/
def parse (scan : List Char → Option (M × List Char)) (text : List Char) : Option (Json M) :=
  (parseValue scan (2 * text.length + 1) text).bind fun read => if skipSpace read.2 = [] then some read.1 else none

/-! ## Numbers, and what is received -/

/-- A text before which a number has ended. -/
def Delimited (rest : List Char) : Prop := ∀ c ∈ rest.head?, c = ',' ∨ c = ']' ∨ c = '\x7d'

/-- What no number starts with. -/
def marks : List Char := ['"', '[', ']', '\x7b', 't', 'f', 'n', ' ', '\t', '\n', '\r']

/-- How one side's numbers are written and the other side's are read. -/
structure NumberText (N M : Type) where
  /-- The text written. -/
  write : N → List Char
  /-- A number taken off the front of a text. -/
  scan : List Char → Option (M × List Char)
  /-- What the reader makes of what was written. -/
  received : N → Option M
  /-- A number is written as something, and not like another value. -/
  write_head : ∀ n, ∃ c text, write n = c :: text ∧ c ∉ marks
  /-- No control characters. -/
  write_plain : ∀ n, ∀ c ∈ write n, 32 ≤ c.toNat
  /-- The reader takes the whole text written, or nothing. -/
  scan_write : ∀ n rest, Delimited rest → scan (write n ++ rest) = (received n).map fun m => (m, rest)

mutual

/-- A value with each number as it is received, when every one is. -/
def receive (received : N → Option M) : Json N → Option (Json M)
  | .null => some .null
  | .bool value => some (.bool value)
  | .num value => (received value).map .num
  | .str value => some (.str value)
  | .arr items => (receiveItems received items).map .arr
  | .obj members => (receiveMembers received members).map .obj

/-- Of the items of an array. -/
def receiveItems (received : N → Option M) : List (Json N) → Option (List (Json M))
  | [] => some []
  | item :: items =>
    (receive received item).bind fun item => (receiveItems received items).map fun items => item :: items

/-- Of the members of an object. -/
def receiveMembers (received : N → Option M) : List (String × Json N) → Option (List (String × Json M))
  | [] => some []
  | (key, value) :: members =>
    (receive received value).bind fun value =>
      (receiveMembers received members).map fun members => (key, value) :: members

end

attribute [grind =] receive receiveItems receiveMembers

mutual

/-- The numbers of a value. -/
def Json.numbers : Json N → List N
  | .num value => [value]
  | .arr items => itemNumbers items
  | .obj members => memberNumbers members
  | _ => []

/-- Of the items of an array. -/
def itemNumbers : List (Json N) → List N
  | [] => []
  | item :: items => item.numbers ++ itemNumbers items

/-- Of the members of an object. -/
def memberNumbers : List (String × Json N) → List N
  | [] => []
  | (_, value) :: members => value.numbers ++ memberNumbers members

end

/-- Two ways of receiving agree on something. -/
def Agree {α : Type} (first second : Option α) : Prop := ∃ a, first = some a ∧ second = some a

theorem agree_map {α β : Type} {f : α → β} (hf : Function.Injective f) {first second : Option α} :
    Agree (first.map f) (second.map f) ↔ Agree first second := by
  constructor
  · rintro ⟨b, hfirst, hsecond⟩
    obtain ⟨a, ha, rfl⟩ := Option.map_eq_some_iff.mp hfirst
    obtain ⟨a', ha', he⟩ := Option.map_eq_some_iff.mp hsecond
    exact ⟨a, ha, by rw [ha', hf he]⟩
  · rintro ⟨a, rfl, rfl⟩
    exact ⟨f a, rfl, rfl⟩

theorem agree_bind {α β γ : Type} {f : α → β → γ} (hf : ∀ a a' b b', f a b = f a' b' → a = a' ∧ b = b')
    {first second : Option α} {later later' : Option β} :
    Agree (first.bind fun a => later.map (f a)) (second.bind fun a => later'.map (f a)) ↔
      Agree first second ∧ Agree later later' := by
  constructor
  · rintro ⟨c, hfirst, hsecond⟩
    obtain ⟨a, rfl, ha⟩ := Option.bind_eq_some_iff.mp hfirst
    obtain ⟨b, rfl, rfl⟩ := Option.map_eq_some_iff.mp ha
    obtain ⟨a', rfl, ha'⟩ := Option.bind_eq_some_iff.mp hsecond
    obtain ⟨b', rfl, he⟩ := Option.map_eq_some_iff.mp ha'
    have hs := hf a' a b' b he
    exact ⟨⟨a, rfl, by rw [hs.1]⟩, ⟨b, rfl, by rw [hs.2]⟩⟩
  · rintro ⟨⟨a, rfl, rfl⟩, ⟨b, rfl, rfl⟩⟩
    exact ⟨f a b, rfl, rfl⟩

/-- Two ways of receiving agree on a value exactly when they agree on each of its numbers. -/
theorem receive_agree (received exactly : N → Option M) (value : Json N) :
    Agree (receive received value) (receive exactly value) ↔ ∀ n ∈ value.numbers, Agree (received n) (exactly n) := by
  induction value using Json.induct with
  | hnull => simp [receive, Json.numbers, Agree]
  | hbool value => simp [receive, Json.numbers, Agree]
  | hstr value => simp [receive, Json.numbers, Agree]
  | hnum value =>
    simp only [receive, Json.numbers, List.mem_singleton, forall_eq]
    exact agree_map fun _ _ h => Json.num.inj h
  | harr items hi =>
    have hitems : Agree (receiveItems received items) (receiveItems exactly items) ↔
        ∀ n ∈ itemNumbers items, Agree (received n) (exactly n) := by
      induction items with
      | nil => simp [receiveItems, itemNumbers, Agree]
      | cons item items ih =>
        have hfirst := List.forall_mem_cons.mp hi
        simp only [receiveItems, itemNumbers, List.forall_mem_append]
        rw [agree_bind (fun _ _ _ _ h => List.cons.inj h), hfirst.1, ih hfirst.2]
    simp only [receive, Json.numbers]
    rw [agree_map fun _ _ h => Json.arr.inj h, hitems]
  | hobj members hm =>
    have hmembers : Agree (receiveMembers received members) (receiveMembers exactly members) ↔
        ∀ n ∈ memberNumbers members, Agree (received n) (exactly n) := by
      induction members with
      | nil => simp [receiveMembers, memberNumbers, Agree]
      | cons member members ih =>
        have hfirst := List.forall_mem_cons.mp hm
        simp only [receiveMembers, memberNumbers, List.forall_mem_append]
        rw [agree_bind (fun _ _ _ _ h => by simpa using h), hfirst.1, ih hfirst.2]
    simp only [receive, Json.numbers]
    rw [agree_map fun _ _ h => Json.obj.inj h, hmembers]

/-! ## Strings are read back -/

@[simp] theorem skipSpace_cons {c : Char} {text : List Char} (hc : isSpace c = false) :
    skipSpace (c :: text) = c :: text := by simp [skipSpace, hc]

@[simp] theorem skipSpace_space (text : List Char) : skipSpace (' ' :: text) = skipSpace text := by
  simp [skipSpace, isSpace]

/-- The escape of a control character is read back. -/
theorem parseEscape_control {n : ℕ} (hn : n < 32) (rest : List Char) :
    parseEscape ('u' :: '0' :: '0' :: hexDigit (n / 16) :: hexDigit (n % 16) :: rest) = some (Char.ofNat n, rest) := by
  interval_cases n <;> rfl

/-- A written character is read back. -/
theorem parseString_escape (fuel : ℕ) (c : Char) (rest : List Char) :
    parseString (fuel + 1) (escape c ++ rest) = (parseString fuel rest).map fun later => (c :: later.1, later.2) := by
  unfold escape
  split
  · subst_vars; simp [parseString, parseEscape]
  split
  · subst_vars; simp [parseString, parseEscape]
  split
  · subst_vars; simp [parseString, parseEscape]
  split
  · subst_vars; simp [parseString, parseEscape]
  split
  · subst_vars; simp [parseString, parseEscape]
  split
  · subst_vars; simp [parseString, parseEscape]
  split
  · subst_vars; simp [parseString, parseEscape]
  split
  · rename_i hcontrol
    have he := parseEscape_control hcontrol rest
    rw [Char.ofNat_toNat] at he
    simp [parseString, he]
  · rename_i hquote hback _ _ _ _ _ hplain
    simp [parseString, hquote, hback, hplain]

/-! ## Layouts -/

/-- How values are laid out: how the characters of a string are written, and the
white space after commas and colons. -/
structure Layout where
  /-- A character of a string. -/
  escape : Char → List Char
  /-- What stands after a comma. -/
  afterComma : List Char
  /-- What stands after a colon. -/
  afterColon : List Char
  /-- A written character is read back. -/
  read_escape : ∀ fuel c rest, parseString (fuel + 1) (escape c ++ rest) =
    (parseString fuel rest).map fun later => (c :: later.1, later.2)
  /-- After a comma there is only white space. -/
  space_afterComma : ∀ c ∈ afterComma, isSpace c = true
  /-- So there is after a colon. -/
  space_afterColon : ∀ c ∈ afterColon, isSpace c = true

theorem isSpace_of_mem_nil : ∀ c ∈ ([] : List Char), isSpace c = true := fun _ hc => absurd hc List.not_mem_nil

/-- The layout of `json.dumps`. -/
def pythonLayout : Layout where
  escape := escape
  afterComma := [' ']
  afterColon := [' ']
  read_escape := parseString_escape
  space_afterComma := by simp [isSpace]
  space_afterColon := by simp [isSpace]

variable (layout : Layout)

/-- A string in quotes. -/
def Layout.quote (text : String) : List Char := '"' :: (text.toList.flatMap layout.escape ++ ['"'])

mutual

/-- The text of a value. -/
def written (write : N → List Char) : Json N → List Char
  | .null => "null".toList
  | .bool true => "true".toList
  | .bool false => "false".toList
  | .num value => write value
  | .str value => layout.quote value
  | .arr [] => ['[', ']']
  | .arr (item :: items) => '[' :: (written write item ++ writtenItems write items)
  | .obj [] => ['\x7b', '\x7d']
  | .obj ((key, value) :: members) =>
    '\x7b' :: (layout.quote key ++ ':' :: (layout.afterColon ++ (written write value ++ writtenMembers write members)))

/-- The items after the first, and the bracket. -/
def writtenItems (write : N → List Char) : List (Json N) → List Char
  | [] => [']']
  | item :: items => ',' :: (layout.afterComma ++ (written write item ++ writtenItems write items))

/-- The members after the first, and the brace. -/
def writtenMembers (write : N → List Char) : List (String × Json N) → List Char
  | [] => ['\x7d']
  | (key, value) :: members =>
    ',' :: (layout.afterComma ++
      (layout.quote key ++ ':' :: (layout.afterColon ++ (written write value ++ writtenMembers write members))))

end

attribute [grind =] written writtenItems writtenMembers

/-- `json.dumps` writes in its layout. -/
theorem written_pythonLayout (write : N → List Char) (value : Json N) :
    written pythonLayout write value = dumps write value := by
  have hcomma : pythonLayout.afterComma = [' '] := rfl
  have hcolon : pythonLayout.afterColon = [' '] := rfl
  have hquote : ∀ key : String, pythonLayout.quote key = quote key := fun _ => rfl
  induction value using Json.induct with
  | hnull => rfl
  | hbool value => cases value <;> rfl
  | hnum value => rfl
  | hstr value => rfl
  | harr items hi =>
    have hmore : ∀ items : List (Json N), (∀ item ∈ items, written pythonLayout write item = dumps write item) →
        writtenItems pythonLayout write items = dumpsItems write items := by
      intro items
      induction items with
      | nil => intro _; rfl
      | cons item items ih =>
        intro hi
        have hitem := List.forall_mem_cons.mp hi
        simp only [writtenItems, dumpsItems, hitem.1, ih hitem.2, hcomma, List.singleton_append]
    cases items with
    | nil => rfl
    | cons item items =>
      have hitem := List.forall_mem_cons.mp hi
      simp only [written, dumps, hitem.1, hmore items hitem.2]
  | hobj members hm =>
    have hmore : ∀ members : List (String × Json N),
        (∀ member ∈ members, written pythonLayout write member.2 = dumps write member.2) →
          writtenMembers pythonLayout write members = dumpsMembers write members := by
      intro members
      induction members with
      | nil => intro _; rfl
      | cons member members ih =>
        intro hm
        have hfirst := List.forall_mem_cons.mp hm
        simp only [writtenMembers, dumpsMembers, hfirst.1, ih hfirst.2, hquote, hcomma, hcolon, List.singleton_append]
    cases members with
    | nil => rfl
    | cons member members =>
      have hfirst := List.forall_mem_cons.mp hm
      simp only [written, dumps, hfirst.1, hmore members hfirst.2, hquote, hcolon, List.singleton_append]

/-! ## Strings in a layout -/

/-- White space in front does not matter. -/
theorem skipSpace_append {gap : List Char} (hgap : ∀ c ∈ gap, isSpace c = true) (text : List Char) :
    skipSpace (gap ++ text) = skipSpace text := List.dropWhile_append_of_pos hgap

/-- A written character is something. -/
theorem Layout.escape_length (c : Char) : 0 < (layout.escape c).length := by
  have hread := layout.read_escape 1 c ['"']
  cases hescape : layout.escape c with
  | nil =>
    rw [hescape] at hread
    simp [parseString] at hread
  | cons first text => simp

/-- A written string is read back, to its closing quote. -/
theorem parseString_quoted (text rest : List Char) (fuel : ℕ) (hf : text.length < fuel) :
    parseString fuel (text.flatMap layout.escape ++ '"' :: rest) = some (text, rest) := by
  induction text generalizing fuel with
  | nil =>
    cases fuel with
    | zero => simp at hf
    | succ fuel => simp [parseString]
  | cons c text ih =>
    cases fuel with
    | zero => simp at hf
    | succ fuel =>
      have hi := ih fuel (by simpa using hf)
      rw [List.flatMap_cons, List.append_assoc, layout.read_escape, hi]
      rfl

/-- Escaping does not shorten. -/
theorem length_le_escaped (text : List Char) : text.length ≤ (text.flatMap layout.escape).length := by
  induction text with
  | nil => simp
  | cons c text ih =>
    have he := layout.escape_length c
    simp only [List.flatMap_cons, List.length_append, List.length_cons]
    omega

/-- A quoted string, read from after its quote with fuel of the whole text. -/
theorem parseString_quote (text : String) (rest : List Char) :
    ∃ after, layout.quote text ++ rest = '"' :: after ∧
      parseString (after.length + 1) after = some (text.toList, rest) := by
  refine ⟨text.toList.flatMap layout.escape ++ '"' :: rest, by simp [Layout.quote], ?_⟩
  have hshort := length_le_escaped layout text.toList
  exact parseString_quoted _ _ _ _ (by simp only [List.length_append]; omega)

/-- A member's name is read back. -/
theorem parseKey_quote (key : String) (rest : List Char) :
    parseKey (layout.quote key ++ ':' :: rest) = some (key, rest) := by
  obtain ⟨after, hq, hp⟩ := parseString_quote layout key (':' :: rest)
  have hspace : skipSpace ('"' :: after) = '"' :: after := skipSpace_cons (by decide)
  rw [hq, parseKey, hspace]
  simp only [hp, Option.bind_some, skipSpace_cons (show isSpace ':' = false by decide), String.ofList_toList]

/-! ## Values are read as received -/

variable (numbers : NumberText N M)

/-- What a value starts with. -/
theorem written_head (value : Json N) :
    ∃ c text, written layout numbers.write value = c :: text ∧ isSpace c = false ∧ c ≠ ']' := by
  cases value with
  | num value =>
    obtain ⟨c, text, hw, hc⟩ := numbers.write_head value
    refine ⟨c, text, by rw [written, hw], ?_, ?_⟩
    · simp [marks] at hc
      simp [isSpace, hc]
    · simp [marks] at hc
      exact hc.2.2.1
  | bool value => cases value <;> exact ⟨_, _, rfl, by decide, by decide⟩
  | arr items => cases items <;> exact ⟨_, _, rfl, by decide, by decide⟩
  | obj members =>
    cases members with
    | nil => exact ⟨_, _, rfl, by decide, by decide⟩
    | cons member members => exact ⟨_, _, rfl, by decide, by decide⟩
  | null => exact ⟨_, _, rfl, by decide, by decide⟩
  | str value => exact ⟨_, _, rfl, by decide, by decide⟩

/-- A number is scanned, nothing else. -/
theorem parseValue_number (fuel : ℕ) (value : N) {rest : List Char} (hr : Delimited rest) :
    parseValue numbers.scan (fuel + 1) (numbers.write value ++ rest) =
      (numbers.received value).map fun m => (.num m, rest) := by
  obtain ⟨c, text, hw, hc⟩ := numbers.write_head value
  have hscan := numbers.scan_write value rest hr
  have hspace : isSpace c = false := by
    simp [marks] at hc
    simp [isSpace, hc]
  rw [hw, List.cons_append] at hscan ⊢
  unfold parseValue
  rw [skipSpace_cons hspace]
  split
  -- no other value starts like a number
  all_goals try (rename_i hstart; have hmark := (List.cons.inj hstart).1; simp [marks, hmark] at hc)
  rw [hscan, Option.map_map]
  rfl

/-- A value's text reads as the value received, whatever follows it. -/
def ReadsAsReceived (value : Json N) : Prop :=
  ∀ fuel rest, 2 * (written layout numbers.write value).length ≤ fuel → Delimited rest →
    parseValue numbers.scan fuel (written layout numbers.write value ++ rest) =
      (receive numbers.received value).map fun value => (value, rest)

theorem delimited_comma (rest : List Char) : Delimited (',' :: rest) := by simp [Delimited]

theorem delimited_bracket (rest : List Char) : Delimited (']' :: rest) := by simp [Delimited]

theorem delimited_brace (rest : List Char) : Delimited ('\x7d' :: rest) := by simp [Delimited]

/-- Leading white space is skipped before a value, an item and a member. -/
theorem parseValue_gap {gap : List Char} (hgap : ∀ c ∈ gap, isSpace c = true) (fuel : ℕ) (text : List Char) :
    parseValue numbers.scan fuel (gap ++ text) = parseValue numbers.scan fuel text := by
  cases fuel with
  | zero => rfl
  | succ fuel => simp only [parseValue, skipSpace_append hgap]

theorem parseItems_gap {gap : List Char} (hgap : ∀ c ∈ gap, isSpace c = true) (fuel : ℕ) (text : List Char) :
    parseItems numbers.scan fuel (gap ++ text) = parseItems numbers.scan fuel text := by
  cases fuel with
  | zero => rfl
  | succ fuel => simp only [parseItems, parseValue_gap numbers hgap]

theorem parseMembers_gap {gap : List Char} (hgap : ∀ c ∈ gap, isSpace c = true) (fuel : ℕ) (text : List Char) :
    parseMembers numbers.scan fuel (gap ++ text) = parseMembers numbers.scan fuel text := by
  cases fuel with
  | zero => rfl
  | succ fuel =>
    have hk : parseKey (gap ++ text) = parseKey text := by simp only [parseKey, skipSpace_append hgap]
    simp only [parseMembers, hk]

/-- Items are read to the bracket, one after the other. -/
theorem parseItems_written (item : Json N) (items : List (Json N))
    (hi : ∀ value ∈ item :: items, ReadsAsReceived layout numbers value) (fuel : ℕ) (rest : List Char)
    (hf : 2 * ((written layout numbers.write item).length + (writtenItems layout numbers.write items).length) ≤ fuel) :
    parseItems numbers.scan fuel
        (written layout numbers.write item ++ (writtenItems layout numbers.write items ++ rest)) =
      (receiveItems numbers.received (item :: items)).map fun items => (items, rest) := by
  induction items generalizing item fuel with
  | nil =>
    cases fuel with
    | zero => simp [writtenItems] at hf
    | succ fuel =>
      simp only [writtenItems, List.length_singleton] at hf
      have hv := hi item (by simp) fuel (']' :: rest) (by omega) (delimited_bracket rest)
      have hspace : skipSpace (']' :: rest) = ']' :: rest := skipSpace_cons (by decide)
      simp only [parseItems, writtenItems, List.singleton_append, hv, receiveItems]
      cases receive numbers.received item with
      | none => rfl
      | some value => simp [hspace]
  | cons next items ih =>
    cases fuel with
    | zero => simp [writtenItems] at hf
    | succ fuel =>
      simp only [writtenItems, List.length_cons, List.length_append] at hf
      have hv := hi item (by simp) fuel
        (',' :: (layout.afterComma ++ (written layout numbers.write next ++
          (writtenItems layout numbers.write items ++ rest)))) (by omega) (delimited_comma _)
      have hlater := ih next (fun value hm => hi value (List.mem_cons_of_mem _ hm)) fuel (by omega)
      have hspace : ∀ text, skipSpace (',' :: text) = ',' :: text := fun text => skipSpace_cons (by decide)
      simp only [parseItems, writtenItems, List.cons_append, List.append_assoc, hv]
      conv_rhs => rw [receiveItems]
      cases receive numbers.received item with
      | none => rfl
      | some value =>
        simp only [Option.map_some, Option.bind_some, hspace, parseItems_gap numbers layout.space_afterComma, hlater,
          Option.map_map]
        rfl

/-- Members are read to the brace, one after the other. -/
theorem parseMembers_written (key : String) (value : Json N) (members : List (String × Json N))
    (hm : ∀ member ∈ (key, value) :: members, ReadsAsReceived layout numbers member.2) (fuel : ℕ) (rest : List Char)
    (hf : 2 * ((written layout numbers.write value).length +
      (writtenMembers layout numbers.write members).length) ≤ fuel) :
    parseMembers numbers.scan fuel (layout.quote key ++ ':' :: (layout.afterColon ++
        (written layout numbers.write value ++ (writtenMembers layout numbers.write members ++ rest)))) =
      (receiveMembers numbers.received ((key, value) :: members)).map fun members => (members, rest) := by
  induction members generalizing key value fuel with
  | nil =>
    cases fuel with
    | zero => simp [writtenMembers] at hf
    | succ fuel =>
      simp only [writtenMembers, List.length_singleton] at hf
      have hself : ReadsAsReceived layout numbers value := hm (key, value) (by simp)
      have hv := hself fuel ('\x7d' :: rest) (by omega) (delimited_brace rest)
      have hspace : skipSpace ('\x7d' :: rest) = '\x7d' :: rest := skipSpace_cons (by decide)
      simp only [parseMembers, writtenMembers, List.singleton_append, parseKey_quote, Option.bind_some,
        parseValue_gap numbers layout.space_afterColon, hv, receiveMembers]
      cases receive numbers.received value with
      | none => rfl
      | some value => simp [hspace]
  | cons next members ih =>
    cases fuel with
    | zero => simp [writtenMembers] at hf
    | succ fuel =>
      simp only [writtenMembers, List.length_cons, List.length_append] at hf
      have hself : ReadsAsReceived layout numbers value := hm (key, value) (by simp)
      have hv := hself fuel
        (',' :: (layout.afterComma ++ (layout.quote next.1 ++ ':' :: (layout.afterColon ++
          (written layout numbers.write next.2 ++ (writtenMembers layout numbers.write members ++ rest))))))
        (by omega) (delimited_comma _)
      have hlater := ih next.1 next.2 (fun member hin => hm member (List.mem_cons_of_mem _ hin)) fuel (by omega)
      have hspace : ∀ text, skipSpace (',' :: text) = ',' :: text := fun text => skipSpace_cons (by decide)
      simp only [parseMembers, writtenMembers, List.cons_append, List.append_assoc, parseKey_quote, Option.bind_some,
        parseValue_gap numbers layout.space_afterColon, hv]
      conv_rhs => rw [receiveMembers]
      cases receive numbers.received value with
      | none => rfl
      | some value =>
        simp only [Option.map_some, Option.bind_some, hspace, parseMembers_gap numbers layout.space_afterComma, hlater,
          Option.map_map]
        rfl

/-- Every value's text reads as the value received. -/
theorem readsAsReceived (value : Json N) : ReadsAsReceived layout numbers value := by
  induction value using Json.induct with
  | hnull =>
    intro fuel rest hf _
    cases fuel with
    | zero => simp [written] at hf
    | succ fuel => simp [written, parseValue, receive, isSpace]
  | hbool value =>
    intro fuel rest hf _
    cases fuel with
    | zero => cases value <;> simp [written] at hf
    | succ fuel => cases value <;> simp [written, parseValue, receive, isSpace]
  | hnum value =>
    intro fuel rest hf hr
    cases fuel with
    | zero =>
      obtain ⟨c, text, hw, -⟩ := numbers.write_head value
      simp [written, hw] at hf
    | succ fuel =>
      rw [written, parseValue_number numbers fuel value hr, receive, Option.map_map]
      rfl
  | hstr value =>
    intro fuel rest hf _
    cases fuel with
    | zero => simp [written, Layout.quote] at hf
    | succ fuel =>
      obtain ⟨after, hq, hp⟩ := parseString_quote layout value rest
      have hspace : skipSpace ('"' :: after) = '"' :: after := skipSpace_cons (by decide)
      rw [written, hq, parseValue, hspace]
      simp [hp, receive]
  | harr items hi =>
    intro fuel rest hf _
    cases fuel with
    | zero => cases items <;> simp [written] at hf
    | succ fuel =>
      have hopen : ∀ text, skipSpace ('[' :: text) = '[' :: text := fun text => skipSpace_cons (by decide)
      cases items with
      | nil =>
        have hclose : skipSpace (']' :: rest) = ']' :: rest := skipSpace_cons (by decide)
        simp [written, parseValue, hopen, hclose, receive, receiveItems]
      | cons item items =>
        have hread := parseItems_written layout numbers item items hi fuel rest (by
          simp only [written, List.length_cons, List.length_append] at hf
          omega)
        obtain ⟨c, text, hd, hc, hbracket⟩ := written_head layout numbers item
        rw [hd, List.cons_append] at hread
        simp only [written, hd, List.cons_append, List.append_assoc, parseValue, hopen, skipSpace_cons hc, hread,
          receive, Option.map_map]
        split
        · rename_i hstart
          exact absurd (List.cons.inj hstart).1 hbracket
        · rfl
  | hobj members hm =>
    intro fuel rest hf _
    cases fuel with
    | zero =>
      cases members with
      | nil => simp [written] at hf
      | cons member members => simp [written] at hf
    | succ fuel =>
      have hopen : ∀ text, skipSpace ('\x7b' :: text) = '\x7b' :: text := fun text => skipSpace_cons (by decide)
      cases members with
      | nil =>
        have hclose : skipSpace ('\x7d' :: rest) = '\x7d' :: rest := skipSpace_cons (by decide)
        simp [written, parseValue, hopen, hclose, receive, receiveMembers]
      | cons member members =>
        have hread := parseMembers_written layout numbers member.1 member.2 members hm fuel rest (by
          simp only [written, List.length_cons, List.length_append] at hf
          omega)
        have hquote : ∀ text, skipSpace ('"' :: text) = '"' :: text := fun text => skipSpace_cons (by decide)
        rw [Layout.quote, List.cons_append, List.append_assoc] at hread
        simp only [written, Layout.quote, List.cons_append, List.append_assoc, parseValue, hopen, hquote, receive,
          Option.map_map] at hread ⊢
        rw [hread, Option.map_map]
        rfl

/-- What a reader makes of a written value. -/
theorem parse_written (value : Json N) :
    parse numbers.scan (written layout numbers.write value) = receive numbers.received value := by
  have hr := readsAsReceived layout numbers value (2 * (written layout numbers.write value).length + 1) [] (by omega)
    (by simp [Delimited])
  rw [List.append_nil] at hr
  rw [parse, hr]
  cases receive numbers.received value with
  | none => rfl
  | some value => rfl

/-- A value whose numbers are all received as they are is. -/
theorem receive_some (value : Json N) : receive some value = some value := by
  induction value using Json.induct with
  | hnull => rfl
  | hbool value => rfl
  | hnum value => rfl
  | hstr value => rfl
  | harr items hi =>
    have hitems : receiveItems some items = some items := by
      induction items with
      | nil => rfl
      | cons item items ih =>
        have hitem := List.forall_mem_cons.mp hi
        simp [receiveItems, hitem.1, ih hitem.2]
    simp [receive, hitems]
  | hobj members hm =>
    have hmembers : receiveMembers some members = some members := by
      induction members with
      | nil => rfl
      | cons member members ih =>
        have hfirst := List.forall_mem_cons.mp hm
        simp [receiveMembers, hfirst.1, ih hfirst.2]
    simp [receive, hmembers]

/-- What `JSON.parse` makes of what `json.dumps` wrote. -/
theorem parse_dumps (value : Json N) :
    parse numbers.scan (dumps numbers.write value) = receive numbers.received value := by
  rw [← written_pythonLayout, parse_written]

/-! ## The characters of the text -/

mutual

/-- The strings of a value, names of members included. -/
def Json.strings : Json N → List String
  | .str value => [value]
  | .arr items => itemStrings items
  | .obj members => memberStrings members
  | _ => []

/-- Of the items of an array. -/
def itemStrings : List (Json N) → List String
  | [] => []
  | item :: items => item.strings ++ itemStrings items

/-- Of the members of an object. -/
def memberStrings : List (String × Json N) → List String
  | [] => []
  | (key, value) :: members => key :: (value.strings ++ memberStrings members)

end

/-- The characters around strings and numbers. -/
def punctuation : List Char :=
  ['"', ',', ':', '[', ']', '\x7b', '\x7d', 'a', 'e', 'f', 'l', 'n', 'r', 's', 't', 'u']

/-- All that is written for the characters of a string is as `P` says. -/
def Layout.Spelled (P : Char → Prop) (text : String) : Prop := ∀ c ∈ text.toList, ∀ d ∈ layout.escape c, P d

/-- What is true of the marks, the white space and the texts of the numbers is
true of the whole text exactly when it is of what is written for its strings. -/
theorem forall_mem_written {P : Char → Prop} {layout : Layout} {write : N → List Char} (value : Json N)
    (hmarks : ∀ c ∈ punctuation, P c) (hcomma : ∀ c ∈ layout.afterComma, P c) (hcolon : ∀ c ∈ layout.afterColon, P c)
    (hwrite : ∀ n, ∀ c ∈ write n, P c) :
    (∀ c ∈ written layout write value, P c) ↔ ∀ text ∈ value.strings, layout.Spelled P text := by
  simp only [punctuation, List.forall_mem_cons] at hmarks
  have hquote : ∀ text : String, (∀ c ∈ layout.quote text, P c) ↔ layout.Spelled P text := by
    intro text
    have hnone : ∀ c ∈ ([] : List Char), P c := fun _ hc => absurd hc List.not_mem_nil
    simp only [Layout.quote, Layout.Spelled, List.forall_mem_cons, List.forall_mem_append, List.forall_mem_flatMap, hmarks,
      true_and, and_iff_left hnone, and_true]
  induction value using Json.induct with
  | hnull => simp [written, Json.strings, hmarks]
  | hbool value => cases value <;> simp [written, Json.strings, hmarks]
  | hnum value => simpa [written, Json.strings] using hwrite value
  | hstr value => simp [written, Json.strings, hquote]
  | harr items hi =>
    have hmore : ∀ items : List (Json N),
        (∀ item ∈ items, (∀ c ∈ written layout write item, P c) ↔ ∀ text ∈ item.strings, layout.Spelled P text) →
          ((∀ c ∈ writtenItems layout write items, P c) ↔ ∀ text ∈ itemStrings items, layout.Spelled P text) := by
      intro items
      induction items with
      | nil =>
        intro _
        simp [writtenItems, itemStrings, hmarks]
      | cons item items ih =>
        intro hi
        have hitem := List.forall_mem_cons.mp hi
        simp only [writtenItems, itemStrings, List.forall_mem_cons, List.forall_mem_append, hmarks, hitem.1,
          ih hitem.2, true_and, and_iff_right hcomma]
    cases items with
    | nil => simp [written, Json.strings, itemStrings, hmarks]
    | cons item items =>
      have hitem := List.forall_mem_cons.mp hi
      simp only [written, Json.strings, itemStrings, List.forall_mem_cons, List.forall_mem_append, hmarks, hitem.1,
        hmore items hitem.2, true_and]
  | hobj members hm =>
    have hmore : ∀ members : List (String × Json N),
        (∀ member ∈ members, (∀ c ∈ written layout write member.2, P c) ↔
          ∀ text ∈ member.2.strings, layout.Spelled P text) →
          ((∀ c ∈ writtenMembers layout write members, P c) ↔
            ∀ text ∈ memberStrings members, layout.Spelled P text) := by
      intro members
      induction members with
      | nil =>
        intro _
        simp [writtenMembers, memberStrings, hmarks]
      | cons member members ih =>
        intro hm
        have hfirst := List.forall_mem_cons.mp hm
        simp only [writtenMembers, memberStrings, List.forall_mem_cons, List.forall_mem_append, hmarks, hquote,
          hfirst.1, ih hfirst.2, true_and, and_iff_right hcomma, and_iff_right hcolon]
    cases members with
    | nil => simp [written, Json.strings, memberStrings, hmarks]
    | cons member members =>
      have hfirst := List.forall_mem_cons.mp hm
      simp only [written, Json.strings, memberStrings, List.forall_mem_cons, List.forall_mem_append, hmarks, hquote,
        hfirst.1, hmore members hfirst.2, true_and, and_iff_right hcolon]

/-- A text without control characters. -/
def Plain (text : List Char) : Prop := ∀ c ∈ text, 32 ≤ c.toNat

theorem plain_cons {c : Char} {text : List Char} (hc : 32 ≤ c.toNat) (ht : Plain text) : Plain (c :: text) :=
  List.forall_mem_cons.mpr ⟨hc, ht⟩

theorem plain_nil : Plain [] := fun _ hc => absurd hc List.not_mem_nil

theorem hexDigit_plain {n : ℕ} (hn : n < 16) : 32 ≤ (hexDigit n).toNat := by
  interval_cases n <;> decide

theorem plain_escape (c : Char) : Plain (escape c) := by
  unfold escape
  by_cases hcontrol : c.toNat < 32
  · have hhigh := hexDigit_plain (show c.toNat / 16 < 16 by omega)
    have hlow := hexDigit_plain (show c.toNat % 16 < 16 by omega)
    rw [if_pos hcontrol]
    repeat' split
    all_goals simp [Plain, hhigh, hlow]
  · have hself : Plain [c] := plain_cons (by omega) plain_nil
    rw [if_neg hcontrol]
    repeat' split
    all_goals first
      | exact hself
      | simp [Plain]

/-- Control characters are always escaped: no line ends inside a value's text. -/
theorem plain_dumps (value : Json N) : Plain (dumps numbers.write value) := by
  rw [← written_pythonLayout]
  refine (forall_mem_written value (by decide) (by decide) (by decide) numbers.write_plain).mpr ?_
  exact fun text _ c _ => plain_escape c

/-- An object's text is in braces. -/
theorem written_obj (write : N → List Char) (members : List (String × Json N)) :
    ∃ text, written layout write (.obj members) = '\x7b' :: (text ++ ['\x7d']) := by
  have hmore : ∀ members : List (String × Json N), ∃ text, writtenMembers layout write members = text ++ ['\x7d'] := by
    intro members
    induction members with
    | nil => exact ⟨[], rfl⟩
    | cons member members ih =>
      obtain ⟨text, ht⟩ := ih
      exact ⟨',' :: (layout.afterComma ++ (layout.quote member.1 ++ ':' :: (layout.afterColon ++
        (written layout write member.2 ++ text)))), by simp [writtenMembers, ht]⟩
  cases members with
  | nil => exact ⟨[], rfl⟩
  | cons member members =>
    obtain ⟨text, ht⟩ := hmore members
    exact ⟨layout.quote member.1 ++ ':' :: (layout.afterColon ++ (written layout write member.2 ++ text)),
      by simp [written, ht]⟩

theorem dumps_obj (write : N → List Char) (members : List (String × Json N)) :
    ∃ text, dumps write (.obj members) = '\x7b' :: (text ++ ['\x7d']) := by
  rw [← written_pythonLayout]
  exact written_obj pythonLayout write members

end RagSystem.JsonText
