import RagSystem.SqlSyntax

/-!
# How PostgreSQL resolves column references

What a column reference of a `SELECT` tree reads, by PostgreSQL's rules: the
tables of the `FROM` clauses around it with their aliases and renamed columns,
the innermost first; the schemas tables and qualifiers name; output names in
`ORDER BY`, `GROUP BY` and `DISTINCT ON`; whole rows, functions of a row, and
the columns `USING` and `NATURAL` compare. What the database holds is a
parameter.
-/

namespace RagSystem.ColumnResolution

open KeyedTrees SqlSyntax

set_option autoImplicit false

section Database

/-- A table of the database. -/
structure TableName where
  /-- Its schema. -/
  schema : String
  /-- Its name in the schema. -/
  name : String
deriving DecidableEq

/-- The tables of the database. -/
structure Database where
  /-- The schema a name without one is found in: the first on the search path
  that has the table. -/
  home : String → String
  /-- The columns of a table. -/
  columns : TableName → List String
  /-- The functions that take a row of a table, which a qualified name may
  call. -/
  rowFunctions : TableName → List String

/-- The table a name without a schema is of. -/
def Database.named (database : Database) (name : String) : TableName := ⟨database.home name, name⟩

/-- A column that is read: its table, if it comes from one, and its name. -/
abbrev BaseColumn := Option TableName × String

/-- An item of a `FROM` clause: the name it is referred to by, its table if it
is one, and its columns, each under the name it is visible by. -/
structure FromItem where
  /-- The name of the item. -/
  refName : String
  /-- The name is an alias. -/
  aliased : Bool
  /-- The table. -/
  table : Option TableName
  /-- The visible names with the columns. -/
  columns : List (String × String)
deriving DecidableEq

/-- The columns of an item. -/
def FromItem.wholeRow (item : FromItem) : List BaseColumn := item.columns.map fun c => (item.table, c.2)

/-- The columns of an item that are visible by a name. -/
def FromItem.column (item : FromItem) (name : String) : List BaseColumn :=
  (item.columns.filter fun c => c.1 = name).map fun c => (item.table, c.2)

/-- The item has a column visible by that name. -/
def FromItem.has (item : FromItem) (name : String) : Bool := item.columns.any fun c => c.1 = name

/-- No column of the item is renamed. -/
def FromItem.plain (item : FromItem) : Bool := item.columns.all fun c => c.1 = c.2

end Database

section Scopes

/-- An identifier as PostgreSQL compares it: quoted as it is, else in lower
case. -/
def folded (casing : Casing) (identifier : Expression) : String :=
  let text := (textArgument identifier .this).getD ""
  if identifier.label.quoted = true then text else casing.lower text

/-- The identifier of an argument, folded. -/
def foldedArgument (casing : Casing) (e : Expression) (k : ArgKey) : String :=
  match argument e k with
  | some identifier => if kind identifier = .identifier then folded casing identifier else ""
  | none => ""

/-- The classes of nodes that are items of a `FROM` clause. -/
def fromKinds : List NodeKind := [.table, .unnest, .lateral, .values]

/-- The table a `Table` node names: of the schema it is qualified with, or else
of the search path. A name of three parts is of the database at hand. -/
def namedTable (casing : Casing) (database : Database) (e : Expression) : Option TableName :=
  let name := if kind e = .table then foldedArgument casing e .this else ""
  let schema := foldedArgument casing e .db
  if name = "" then none else if schema ≠ "" then some ⟨schema, name⟩ else some (database.named name)

/-- The item a node of a `FROM` clause is. A column alias renames the column at
its place. -/
def fromItem (casing : Casing) (database : Database) (e : Expression) : FromItem :=
  let table := namedTable casing database e
  let aliasNode := argument e .alias
  let aliasText := (aliasNode.map fun a => foldedArgument casing a .this).getD ""
  let renamed := (aliasNode.map fun a => (a.under .columns).map (folded casing)).getD []
  let held := (table.map database.columns).getD renamed
  { refName := if aliasText ≠ "" then aliasText else (table.map TableName.name).getD ""
    aliased := decide (aliasText ≠ "")
    table := table
    columns := (renamed ++ held.drop renamed.length).zip held }

/-- The nodes of a `SELECT`'s own `FROM` clause. -/
def fromNodes (select : Expression) : List Expression :=
  (select.under .fromClause ++ select.under .joins ++ select.under .laterals).flatMap fun e =>
    e.walkUntil fun d => decide (kind d = .select)

/-- The items of a `SELECT`'s `FROM` clause. -/
def fromItems (casing : Casing) (database : Database) (select : Expression) : List FromItem :=
  ((fromNodes select).filter fun e => kind e ∈ fromKinds).map (fromItem casing database)

/-- A way through the tree, the last step first. -/
abbrev Way := List (Expression × ArgKey)

/-- The `SELECT`s around a place, the innermost first. -/
def enclosingSelects (way : Way) : List Expression :=
  (way.map Prod.fst).filter fun e => kind e = .select

/-- Their `FROM` clauses. -/
def scopes (casing : Casing) (database : Database) (way : Way) : List (List FromItem) :=
  (enclosingSelects way).map (fromItems casing database)

end Scopes

section OutputNames

/-- The clauses of a `SELECT` in which a name may be an output name. -/
def outputClauses : List ArgKey := [.order, .group, .distinct]

/-- The nodes a name may stand below and still be an item of its clause. -/
def clauseKinds : ArgKey → List NodeKind
  | .order => [.order, .ordered, .paren]
  | .group => [.group, .groupingSets, .cube, .rollup, .paren, .tuple]
  | .distinct => [.distinct, .paren, .tuple]
  | _ => []

/-- The `SELECT` and the clause a place is an item of, if it is one of a clause
with output names. -/
def outputClause (way : Way) : Option (Expression × ArgKey) :=
  match way.find? fun p => kind p.1 = .select with
  | none => none
  | some (select, clause) =>
    if clause ∈ outputClauses ∧
        ∀ e ∈ (way.map Prod.fst).takeWhile (fun e => decide (kind e ≠ .select)), kind e ∈ clauseKinds clause then
      some (select, clause)
    else none

/-- The output names a `SELECT` gives. -/
def outputNames (casing : Casing) (select : Expression) : List String :=
  ((select.under .expressions).filter fun e => isAlias e = true).map fun e => foldedArgument casing e .alias

/-- The reference is to an output name. In `GROUP BY` a column of the `FROM`
clause goes before. -/
def isOutputReference (casing : Casing) (database : Database) (way : Way) (column : Expression) : Bool :=
  match outputClause way with
  | none => false
  | some (select, clause) =>
    let name := foldedArgument casing column .this
    decide (foldedArgument casing column .table = "") && decide (name ∈ outputNames casing select) &&
      (decide (clause ≠ .group) || !(fromItems casing database select).any fun item => item.has name)

end OutputNames

section Reading

/-- The names the joins of a `SELECT` compare by `USING`. -/
def usingNames (casing : Casing) (select : Expression) : List String :=
  ((fromNodes select).filter fun e => kind e = .join).flatMap fun e => (e.under .using).map (folded casing)

/-- The join is natural. -/
def isNatural (e : Expression) : Bool := decide (kind e = .join) && decide (textArgument e .method = some "NATURAL")

/-- The columns of one name that several items have are one column of the join. -/
def isMerged (casing : Casing) (select : Expression) (name : String) : Bool :=
  decide (name ∈ usingNames casing select) || (fromNodes select).any isNatural

/-- A qualifier names the item. One with a schema names a table of that schema
that has no alias. -/
def FromItem.answers (item : FromItem) (schema qualifier : String) : Bool :=
  decide (item.refName = qualifier) &&
    (decide (schema = "") || (!item.aliased && decide (item.table.map TableName.schema = some schema)))

/-- The item a qualifier names: of the innermost `FROM` clause that has one. Two
of one name are an error. -/
def qualified (schema qualifier : String) : List (List FromItem) → Option FromItem
  | [] => none
  | items :: rest =>
    match items.filter fun item => item.answers schema qualifier with
    | [] => qualified schema qualifier rest
    | [item] => some item
    | _ => none

/-- What a qualified name reads of its item: its column, or the whole row for a
function of the row. -/
def readQualified (database : Database) (item : FromItem) (name : String) : List BaseColumn :=
  if item.has name = true then item.column name
  else if name ∈ (item.table.map database.rowFunctions).getD [] then item.wholeRow
  else []

/-- What an unqualified name reads as a column: of the innermost `SELECT` with
such a column. Several of its items are an error, unless the name is merged. -/
def readColumn (casing : Casing) (database : Database) (name : String) : List Expression → Option (List BaseColumn)
  | [] => none
  | select :: rest =>
    match (fromItems casing database select).filter fun item => item.has name = true with
    | [] => readColumn casing database name rest
    | [item] => some (item.column name)
    | items => some (if isMerged casing select name = true then items.flatMap fun item => item.column name else [])

/-- What a column reference reads; nothing where PostgreSQL rejects it. -/
def reads (casing : Casing) (database : Database) (way : Way) (column : Expression) : List BaseColumn :=
  let name := foldedArgument casing column .this
  let qualifier := foldedArgument casing column .table
  let star := (argument column .this).map kind = some .star
  if qualifier ≠ "" then
    match qualified (foldedArgument casing column .db) qualifier (scopes casing database way) with
    | none => []
    | some item => if star then item.wholeRow else readQualified database item name
  else if star then ((scopes casing database way).headD []).flatMap FromItem.wholeRow
  else
    match readColumn casing database name (enclosingSelects way) with
    | some columns => columns
    -- No column has the name: it may be a whole row.
    | none => ((qualified "" name (scopes casing database way)).map FromItem.wholeRow).getD []

/-- What a name after `USING` reads: the columns of that name of its `SELECT`. -/
def readsUsing (casing : Casing) (database : Database) (way : Way) (identifier : Expression) : List BaseColumn :=
  ((scopes casing database way).headD []).flatMap fun item => item.column (folded casing identifier)

/-- What a natural join reads: the columns whose name several items of its
`SELECT` have. -/
def readsNatural (casing : Casing) (database : Database) (way : Way) : List BaseColumn :=
  let items := (scopes casing database way).headD []
  items.flatMap fun item => (item.columns.filter fun c =>
    1 < (items.filter fun other => other.has c.1 = true).length).map fun c => (item.table, c.2)

end Reading

end RagSystem.ColumnResolution
