import RagSystem.KeyedTrees
import RagSystem.DocumentModels

/-!
# Syntax trees of parsed SQL

What the SQL parser hands to the guards: expression nodes of its classes, with
the texts they carry and their arguments, and the properties the guards read
off them (`name`, `table`, `alias`). The parser itself is a parameter.
-/

namespace RagSystem.SqlSyntax

open KeyedTrees DocumentModels

set_option autoImplicit false

section Nodes

/-- The classes of expression nodes. Those nothing here tells apart from
others keep their name only. -/
inductive NodeKind where
  | select
  | insert
  | update
  | delete
  | merge
  | truncateTable
  | create
  | alter
  | drop
  | grant
  | revoke
  | copy
  | set
  | command
  | into
  | lock
  | multitableInserts
  | comment
  | loadData
  | cache
  | uncache
  | refresh
  | withClause
  | cte
  | subquery
  | union
  | except
  | intersect
  | window
  | fromClause
  | join
  | table
  | tableAlias
  | lateral
  | unnest
  | values
  | column
  | pseudocolumn
  | identifier
  | literal
  | var
  | star
  | null
  | dot
  | alias
  | pivotAlias
  | anonymous
  | aggFunc (className : String)
  | func (className : String)
  | group
  | groupingSets
  | cube
  | rollup
  | order
  | ordered
  | paren
  | tuple
  | limit
  | distinct
  | other (className : String)
deriving DecidableEq

/-- The names of arguments. -/
inductive ArgKey where
  | this
  | expression
  | expressions
  | withClause
  | distinct
  | into
  | fromClause
  | joins
  | laterals
  | whereClause
  | group
  | having
  | order
  | limit
  | locks
  | table
  | db
  | catalog
  | alias
  | columns
  | on
  | using
  | method
  | groupingSets
  | cube
  | rollup
  | other (name : String)
deriving DecidableEq

/-- A node without its children: its class, the arguments that are texts, and
whether an identifier was quoted or a literal is a string. -/
structure Node where
  /-- The class. -/
  kind : NodeKind
  /-- The arguments that are texts. -/
  texts : List (ArgKey × String) := []
  /-- An identifier in quotes; a literal that is a string. -/
  quoted : Bool := false
deriving DecidableEq

/-- An expression tree. -/
abbrev Expression := Tree Node ArgKey

/-- The class of an expression. -/
def kind (e : Expression) : NodeKind := e.label.kind

/-- The class name, as `type(node).__name__` gives it. -/
def NodeKind.className : NodeKind → String
  | .select => "Select"
  | .insert => "Insert"
  | .update => "Update"
  | .delete => "Delete"
  | .merge => "Merge"
  | .truncateTable => "TruncateTable"
  | .create => "Create"
  | .alter => "Alter"
  | .drop => "Drop"
  | .grant => "Grant"
  | .revoke => "Revoke"
  | .copy => "Copy"
  | .set => "Set"
  | .command => "Command"
  | .into => "Into"
  | .lock => "Lock"
  | .multitableInserts => "MultitableInserts"
  | .comment => "Comment"
  | .loadData => "LoadData"
  | .cache => "Cache"
  | .uncache => "Uncache"
  | .refresh => "Refresh"
  | .withClause => "With"
  | .cte => "CTE"
  | .subquery => "Subquery"
  | .union => "Union"
  | .except => "Except"
  | .intersect => "Intersect"
  | .window => "Window"
  | .fromClause => "From"
  | .join => "Join"
  | .table => "Table"
  | .tableAlias => "TableAlias"
  | .lateral => "Lateral"
  | .unnest => "Unnest"
  | .values => "Values"
  | .column => "Column"
  | .pseudocolumn => "Pseudocolumn"
  | .identifier => "Identifier"
  | .literal => "Literal"
  | .var => "Var"
  | .star => "Star"
  | .null => "Null"
  | .dot => "Dot"
  | .alias => "Alias"
  | .pivotAlias => "PivotAlias"
  | .anonymous => "Anonymous"
  | .aggFunc className => className
  | .func className => className
  | .group => "Group"
  | .groupingSets => "GroupingSets"
  | .cube => "Cube"
  | .rollup => "Rollup"
  | .order => "Order"
  | .ordered => "Ordered"
  | .paren => "Paren"
  | .tuple => "Tuple"
  | .limit => "Limit"
  | .distinct => "Distinct"
  | .other className => className

/-- `isinstance(node, exp.Column)`. -/
def isColumn (e : Expression) : Bool := kind e = .column || kind e = .pseudocolumn

/-- `isinstance(node, exp.Alias)`. -/
def isAlias (e : Expression) : Bool := kind e = .alias || kind e = .pivotAlias

/-- `isinstance(node, exp.AggFunc)`. -/
def isAggFunc (e : Expression) : Bool :=
  match kind e with
  | .aggFunc _ => true
  | _ => false

/-- `isinstance(node, exp.Func)`. -/
def isFunc (e : Expression) : Bool :=
  match kind e with
  | .aggFunc _ => true
  | .func _ => true
  | .anonymous => true
  | _ => false

/-- The argument of a name that is one node. -/
def argument (e : Expression) (k : ArgKey) : Option Expression := (e.under k).head?

/-- The argument of a name that is a text. -/
def textArgument (e : Expression) (k : ArgKey) : Option String := e.label.texts.lookup k

/-- `Expression.text`: the text of an argument that is a text or a leaf. -/
def text (e : Expression) (k : ArgKey) : String :=
  match argument e k with
  | none => (textArgument e k).getD ""
  | some field =>
    match kind field with
    | .identifier => (textArgument field .this).getD ""
    | .literal => (textArgument field .this).getD ""
    | .var => (textArgument field .this).getD ""
    | .star => "*"
    | .null => "NULL"
    | _ => ""

/-- `name` of most expressions. -/
def name (e : Expression) : String :=
  match kind e with
  | .star => "*"
  | .null => "NULL"
  | _ => text e .this

/-- `Table.name`: a table function has none. -/
def tableName (e : Expression) : String :=
  match argument e .this with
  | none => ""
  | some this => if isFunc this then "" else name this

/-- `Anonymous.name`. -/
def functionName (e : Expression) : String :=
  match argument e .this with
  | none => (textArgument e .this).getD ""
  | some this => name this

/-- `Column.table`. -/
def columnTable (e : Expression) : String := text e .table

/-- `Expression.alias`. -/
def aliasName (e : Expression) : String :=
  match argument e .alias with
  | some a => if kind a = .tableAlias then name a else text e .alias
  | none => text e .alias

/-- An identifier with its text, quoted or not. -/
def identifier (text : String) (quoted : Bool) : Expression := .node ⟨.identifier, [(.this, text)], quoted⟩ []

/-- The name of a table whose last part is an identifier is the identifier's
text, whatever else the reference says. -/
theorem tableName_eq {e : Expression} {text : String} {quoted : Bool}
    (h : argument e .this = some (identifier text quoted)) : tableName e = text := by
  have hfunc : isFunc (identifier text quoted) = false := rfl
  have hname : name (identifier text quoted) = text := rfl
  simp only [tableName, h, hfunc, hname, Bool.false_eq_true, if_false]

/-- So is a column's qualifier. -/
theorem columnTable_eq {e : Expression} {text : String} {quoted : Bool}
    (h : argument e .table = some (identifier text quoted)) : columnTable e = text := by
  have hkind : kind (identifier text quoted) = .identifier := rfl
  have htext : textArgument (identifier text quoted) .this = some text := rfl
  simp only [columnTable, SqlSyntax.text, h, hkind, htext, Option.getD_some]

end Nodes

section Parser

/-- What the parser raises. -/
inductive ParserError where
  /-- `SqlglotError`. -/
  | sqlglotError (message : String)
  /-- Another exception. -/
  | other (message : String)
deriving DecidableEq

/-- The SQL parser for PostgreSQL: the statements of a text, an empty one
being none, or its complaint, and a `SELECT` with its limit replaced, as text. -/
structure SqlParser where
  /-- `sqlglot.parse(sql, read="postgres")`. -/
  parse : String → Except ParserError (List (Option Expression))
  /-- `statement.limit(n).sql(dialect="postgres")`. -/
  limitSql : Expression → Int → String

/-- `str.lower` and `str.upper`. -/
structure Casing where
  /-- `str.lower`. -/
  lower : String → String
  /-- `str.upper`. -/
  upper : String → String
  /-- A text does not vanish in lower case. -/
  lower_eq_empty : ∀ text, lower text = "" → text = ""
  /-- Lower case stays as it is. -/
  lower_lower : ∀ text, lower (lower text) = lower text

/-- The statements of a text that are some. -/
def statements (parser : SqlParser) (sql : String) : Except ParserError (List Expression) :=
  match parser.parse sql with
  | .error e => .error e
  | .ok parsed => .ok (parsed.filterMap id)

/-- Only a capital letter has another lower case. -/
theorem toLower_of_not_capital {c : Char} (h : ¬ (c.val ≥ 'A'.val ∧ c.val ≤ 'Z'.val)) : c.toLower = c := by
  unfold Char.toLower
  rw [dif_neg h]

/-- The lower case of a capital letter is none. -/
theorem toLower_toLower (c : Char) : c.toLower.toLower = c.toLower := by
  apply toLower_of_not_capital
  by_cases h : c.val ≥ 'A'.val ∧ c.val ≤ 'Z'.val
  · have hval : c.toLower.val = c.val + ('a'.val - 'A'.val) := by
      unfold Char.toLower
      rw [dif_pos h]
    have hd : ('a'.val - 'A'.val).toNat = 32 := by decide
    have hA : 'A'.val.toNat = 65 := by decide
    have hZ : 'Z'.val.toNat = 90 := by decide
    rw [hval]
    simp only [ge_iff_le, UInt32.le_iff_toNat_le, UInt32.toNat_add] at h ⊢
    omega
  · rw [toLower_of_not_capital h]
    exact h

theorem toList_toLower (text : String) : text.toLower.toList = text.toList.map Char.toLower := String.toList_map

/-- Lower and upper case of ASCII letters. -/
def asciiCasing : Casing where
  lower := String.toLower
  upper := String.toUpper
  lower_eq_empty text h := by
    have hl : text.toLower.toList = [] := by
      rw [h]
      rfl
    simpa [toList_toLower] using hl
  lower_lower text := by
    apply String.toList_injective
    rw [toList_toLower, toList_toLower, List.map_map]
    exact List.map_congr_left fun c _ => toLower_toLower c

end Parser

section DeniedFunctions

/-- `_DENIED_SQL_FUNCTIONS`. -/
def deniedSqlFunctions : List String :=
  ["pg_sleep", "pg_sleep_for", "pg_sleep_until", "current_setting", "set_config", "pg_read_file",
    "pg_read_binary_file", "pg_ls_dir", "pg_stat_file", "query_to_xml", "dblink", "dblink_exec"]

/-- `_DENIED_SQL_FUNCTION_PREFIXES`. -/
def deniedSqlFunctionPrefixes : List String := ["lo_", "dblink", "pg_read", "pg_ls", "pg_logical"]

/-- The name is denied, or begins like a denied family. -/
def deniedName (name : String) : Bool :=
  decide (name ∈ deniedSqlFunctions) ||
    deniedSqlFunctionPrefixes.any fun family => family.toList.isPrefixOf name.toList

/-- The call of a function the parser does not know, if it is denied. -/
def deniedCall (casing : Casing) (e : Expression) : Option String :=
  let name := casing.lower (functionName e)
  if kind e = .anonymous ∧ name ≠ "" ∧ deniedName name = true then some name else none

/-- `find_denied_function`. -/
def findDeniedFunction (casing : Casing) (statement : Expression) : Option String :=
  statement.walk.findSome? (deniedCall casing)

/-- No denied function was found: no node calls one. -/
theorem findDeniedFunction_eq_none {casing : Casing} {statement : Expression} :
    findDeniedFunction casing statement = none ↔ ∀ e, Within e statement → deniedCall casing e = none := by
  simp only [findDeniedFunction, List.findSome?_eq_none_iff, mem_walk]

/-- The check both guards make of it: the error names the function that was found. -/
def refuseDenied {ε : Type} (casing : Casing) (error : String → ε) (statement : Expression) : Except ε Unit :=
  match findDeniedFunction casing statement with
  | none => pure ()
  | some function => throw (error function)

/-- What passes it calls no denied function. -/
theorem refuseDenied_passed {ε : Type} {casing : Casing} {error : String → ε} {statement : Expression} :
    refuseDenied casing error statement = .ok () ↔ ∀ e, Within e statement → deniedCall casing e = none := by
  rw [← findDeniedFunction_eq_none, refuseDenied]
  cases findDeniedFunction casing statement with
  | none => exact iff_of_true rfl rfl
  | some function => exact iff_of_false (fun h => nomatch h) (fun h => nomatch h)

end DeniedFunctions

/-- Two checks passed in sequence were both passed. -/
theorem passed_andThen {ε : Type} {x y : Except ε Unit} (h : (x >>= fun _ => y) = .ok ()) : x = .ok () ∧ y = .ok () := by
  cases x with
  | error e => cases h
  | ok u => exact ⟨rfl, h⟩

end RagSystem.SqlSyntax
