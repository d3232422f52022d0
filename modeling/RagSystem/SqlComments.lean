import RagSystem.DocumentModels

/-!
# The comment stripper

The scanner both SQL guards use: it copies a text, leaves quoted regions as
they are and puts one space for every comment. What the guards then look at is
that copy without white space and semicolons at its ends.
-/

namespace RagSystem.SqlComments

open DocumentModels

set_option autoImplicit false

/-- What the scanner is in. -/
inductive ScanMode where
  /-- Code. -/
  | code
  /-- A region quoted by this character. -/
  | quoted (quote : Char)
  /-- A line comment. -/
  | lineComment
  /-- Block comments this deep. -/
  | blockComment (depth : ℕ)
deriving DecidableEq

/-- A quote character opens a quoted region. -/
def codeMode (c : Char) : ScanMode := if c = '\'' ∨ c = '"' then .quoted c else .code

/-- One `*/` closes the innermost of some block comments. -/
def closeBlock (depth : ℕ) : ScanMode := if depth ≤ 1 then .code else .blockComment (depth - 1)

/-- The loops of the scanner. -/
@[grind =] def scan : ScanMode → List Char → List Char
  | _, [] => []
  | .code, '-' :: '-' :: rest => ' ' :: scan .lineComment rest
  | .code, '/' :: '*' :: rest => ' ' :: scan (.blockComment 1) rest
  | .code, c :: rest => c :: scan (codeMode c) rest
  | .quoted _, [c] => [c]
  | .quoted q, c :: c' :: rest =>
    if c = q then
      -- A doubled quote is an escape and stays inside.
      if c' = q then c :: c' :: scan (.quoted q) rest else c :: scan .code (c' :: rest)
    else c :: scan (.quoted q) (c' :: rest)
  | .lineComment, c :: rest => if c = '\n' then c :: scan .code rest else scan .lineComment rest
  | .blockComment depth, '/' :: '*' :: rest => scan (.blockComment (depth + 1)) rest
  | .blockComment depth, '*' :: '/' :: rest => scan (closeBlock depth) rest
  | .blockComment depth, _ :: rest => scan (.blockComment depth) rest

/-- `_strip_sql_comments`. -/
def stripSqlComments (sql : String) : String := String.ofList (scan .code sql.toList)

/-- `str.rstrip(";")`. -/
def rstripSemicolons (text : String) : String :=
  String.ofList (text.toList.reverse.dropWhile fun c => c = ';').reverse

/-- The text a guard parses. -/
def normalized (sql : String) : String := strip (rstripSemicolons (strip (stripSqlComments sql)))

/-- `str.strip`, of characters. -/
def stripChars (text : List Char) : List Char := ((text.dropWhile isSpace).reverse.dropWhile isSpace).reverse

/-- The characters of that text. -/
def normalizedChars (sql : List Char) : List Char :=
  stripChars ((stripChars (scan .code sql)).reverse.dropWhile fun c => c = ';').reverse

theorem normalized_eq (sql : String) : normalized sql = String.ofList (normalizedChars sql.toList) := by
  simp only [normalized, stripSqlComments, rstripSemicolons, strip, String.toList_ofList, normalizedChars, stripChars]

/-- A text without comments, margins and semicolons is parsed as it is. -/
theorem normalized_eq_self {sql : String} (h : normalizedChars sql.toList = sql.toList) : normalized sql = sql := by
  rw [normalized_eq, h, String.ofList_toList]

example : normalized "SELECT 'a--b' -- c\n FROM t /* x /* y */ z */ ; " = "SELECT 'a--b'  \n FROM t" := by
  decide +kernel

end RagSystem.SqlComments
