import Mathlib.Data.List.Dedup
import RagSystem.SqlSyntax
import RagSystem.SqlComments

/-!
# The copilot SQL guard

The checks SQL written by the copilot's model passes before it is executed:
one aggregating `SELECT` over approved tables and columns, with a row limit.
Tables and columns are looked up by name in a catalog; the guard resolves names
by hand, over the whole tree at once.
-/

namespace RagSystem.CopilotGuard

open KeyedTrees SqlSyntax SqlComments DocumentModels

set_option autoImplicit false

section Catalog

/-- `CopilotTable`: a table with the approved columns. -/
structure CopilotTable where
  /-- Its name. -/
  name : String
  /-- The columns' names. -/
  columns : List String

/-- `CopilotSchemaCatalog`. -/
structure CopilotSchemaCatalog where
  /-- The approved tables. -/
  tables : List CopilotTable

/-- `table_names`. -/
def tableNames (casing : Casing) (catalog : CopilotSchemaCatalog) : List String :=
  catalog.tables.map fun table => casing.lower table.name

/-- `column_names_for`. -/
def columnNamesFor (casing : Casing) (catalog : CopilotSchemaCatalog) (tableName : String) : List String :=
  match catalog.tables.find? fun table => casing.lower table.name = casing.lower tableName with
  | some table => table.columns.map casing.lower
  | none => []

/-- The catalog looks tables up in lower case. -/
theorem columnNamesFor_lower (casing : Casing) (catalog : CopilotSchemaCatalog) (tableName : String) :
    columnNamesFor casing catalog (casing.lower tableName) = columnNamesFor casing catalog tableName := by
  rw [columnNamesFor, columnNamesFor, casing.lower_lower]

end Catalog

section Guard

/-- `SqlValidationError`, or what the parser raises besides. -/
inductive ValidationError where
  /-- `SqlValidationError`. -/
  | rejected (message : String)
  /-- Another exception of the parser. -/
  | raised (message : String)
deriving DecidableEq

/-- `CopilotSqlGuard`: its catalog and row limit. -/
structure Guard where
  /-- The catalog. -/
  catalog : CopilotSchemaCatalog
  /-- The most rows a query may return. -/
  maxRows : Int

/-- `_FORBIDDEN_NODES`. -/
def forbiddenNodes : List NodeKind :=
  [.insert, .update, .delete, .drop, .create, .command, .merge, .window, .withClause, .subquery, .union]

/-- `_parse`. -/
def parse (parser : SqlParser) (sql : String) : Except ValidationError Expression :=
  match statements parser sql with
  | .error (.sqlglotError exc) => throw (.rejected s!"Could not parse SQL: {exc}")
  | .error (.other exc) => throw (.raised exc)
  | .ok [statement] =>
    if kind statement = .select then pure statement else throw (.rejected "Only SELECT queries are allowed.")
  | .ok _ => throw (.rejected "Only one SQL statement is allowed.")

/-- No node of the forbidden classes anywhere. -/
def checkForbidden (statement : Expression) : Except ValidationError Unit :=
  if (statement.findAll fun e => decide (kind e ∈ forbiddenNodes)).head?.isSome = true then
    throw (.rejected
      "Write, administrative, subquery, CTE, set-operation, and window SQL is not allowed.")
  else pure ()

/-- No call of a denied function. -/
def checkFunctions (casing : Casing) (statement : Expression) : Except ValidationError Unit :=
  refuseDenied casing (fun function => .rejected s!"Disallowed function: {function}() is not permitted.") statement

/-- A projection that is a star: bare, of one table, or under an alias. -/
def isStarProjection (projection : Expression) : Bool :=
  let target := if isAlias projection = true then argument projection .this else some projection
  match target with
  | none => false
  | some target => decide (kind target = .star) ||
      (isColumn target && decide ((argument target .this).map kind = some .star))

/-- `_reject_star`. -/
def rejectStar (statement : Expression) : Except ValidationError Unit :=
  if ((statement.findAll fun e => decide (kind e = .select)).any fun select =>
      (select.under .expressions).any isStarProjection) = true then
    throw (.rejected "SELECT * is not allowed; select explicit columns.")
  else pure ()

/-- At least one aggregate. -/
def checkAggregate (statement : Expression) : Except ValidationError Unit :=
  if (statement.findAll isAggFunc).head?.isSome = true then pure ()
  else throw (.rejected "SQL must aggregate results to protect the database.")

/-- The tables of the tree. -/
def tables (statement : Expression) : List Expression := statement.findAll fun e => decide (kind e = .table)

/-- The key a table has in the alias map: its alias, or its name. -/
def aliasKey (casing : Casing) (table : Expression) : String :=
  casing.lower (if aliasName table ≠ "" then aliasName table else tableName table)

/-- `alias_to_table`: the entries in the order they are made. A later entry
replaces an earlier one of its key. -/
def aliasToTable (casing : Casing) (statement : Expression) : List (String × String) :=
  (tables statement).map fun table => (aliasKey casing table, casing.lower (tableName table))

/-- `alias_to_table.get`. -/
def resolveQualifier (casing : Casing) (statement : Expression) (qualifier : String) : Option String :=
  (aliasToTable casing statement).reverse.lookup qualifier

/-- `referenced_tables`. -/
def referencedTables (casing : Casing) (statement : Expression) : List String :=
  ((tables statement).map fun table => casing.lower (tableName table)).dedup

/-- The referenced tables are some, and approved. -/
def checkTables (guard : Guard) (casing : Casing) (statement : Expression) : Except ValidationError Unit :=
  if referencedTables casing statement = [] then
    throw (.rejected "Query must read from at least one approved table.")
  else
    match (referencedTables casing statement).filter fun name => name ∉ tableNames casing guard.catalog with
    | [] => pure ()
    | unknownTables =>
      let names := ", ".intercalate (unknownTables.mergeSort fun a b => decide (a ≤ b))
      throw (.rejected s!"Unapproved table(s): {names}")

/-- `output_aliases`. -/
def outputAliases (casing : Casing) (statement : Expression) : List String :=
  ((statement.findAll isAlias).filter fun e => aliasName e ≠ "").map fun e => casing.lower (aliasName e)

/-- What is wrong with a column. -/
def columnProblem (guard : Guard) (casing : Casing) (statement column : Expression) : Option String :=
  let name := casing.lower (SqlSyntax.name column)
  let qualifier := casing.lower (columnTable column)
  let columnTable := columnTable column
  let columnName := SqlSyntax.name column
  if qualifier ≠ "" then
    match resolveQualifier casing statement qualifier with
    | none => some s!"Unknown table qualifier: {columnTable}"
    | some real =>
      if name ∈ columnNamesFor casing guard.catalog real then none
      else some s!"Unapproved column: {columnTable}.{columnName}"
  else if name ∈ outputAliases casing statement then none
  else if ∃ table ∈ referencedTables casing statement, name ∈ columnNamesFor casing guard.catalog table then none
  else some s!"Unapproved column: {columnName}"

/-- `_validate_columns`. -/
def validateColumns (guard : Guard) (casing : Casing) (statement : Expression) : Except ValidationError Unit :=
  match (statement.findAll isColumn).findSome? (columnProblem guard casing statement) with
  | none => pure ()
  | some message => throw (.rejected message)

/-- `_limit_value`. -/
def limitValue (limitNode : Expression) : Option Int :=
  match argument limitNode .expression with
  | none => none
  | some expression =>
    if kind expression = .literal ∧ expression.label.quoted = false then (SqlSyntax.name expression).toInt? else none

/-- `_apply_limit`. -/
def applyLimit (guard : Guard) (parser : SqlParser) (sql : String) (statement : Expression) : String :=
  let maxRows := guard.maxRows
  match argument statement .limit with
  | some limitNode =>
    match limitValue limitNode with
    | some value => if value ≤ maxRows then sql else parser.limitSql statement maxRows
    | none => parser.limitSql statement maxRows
  | none => if (argument statement .group).isSome = true then s!"{sql}\nLIMIT {maxRows}" else sql

/-- The checks of the parsed statement. -/
def checkStatement (guard : Guard) (casing : Casing) (statement : Expression) : Except ValidationError Unit := do
  checkForbidden statement
  checkFunctions casing statement
  rejectStar statement
  checkAggregate statement
  checkTables guard casing statement
  validateColumns guard casing statement

/-- `CopilotSqlGuard.validate`. -/
def validate (guard : Guard) (parser : SqlParser) (casing : Casing) (sql : String) : Except ValidationError String :=
  if normalized sql = "" then throw (.rejected "SQL is empty.")
  else
    match parse parser (normalized sql) with
    | .error e => throw e
    | .ok statement =>
      match checkStatement guard casing statement with
      | .error e => throw e
      | .ok _ => .ok (applyLimit guard parser (normalized sql) statement)

end Guard

section Accepted

variable {guard : Guard} {parser : SqlParser} {casing : Casing} {statement : Expression} {sql text : String}

/-- What a statement that passed all checks is. -/
structure Passed (guard : Guard) (casing : Casing) (statement : Expression) : Prop where
  /-- A `SELECT`. -/
  root : kind statement = .select
  /-- Without forbidden nodes. -/
  forbidden : ∀ e, Within e statement → kind e ∉ forbiddenNodes
  /-- Without denied calls. -/
  functions : ∀ e, Within e statement → deniedCall casing e = none
  /-- Without star projections. -/
  stars : ∀ select, Within select statement → kind select = .select → ∀ projection ∈ select.under .expressions,
    isStarProjection projection = false
  /-- Over approved tables. -/
  tables : ∀ e, Within e statement → kind e = .table → casing.lower (tableName e) ∈ tableNames casing guard.catalog
  /-- Over columns without a problem. -/
  columns : ∀ e, Within e statement → isColumn e = true → columnProblem guard casing statement e = none

/-- A passed tree has no node of the forbidden classes. -/
theorem checkForbidden_passed (h : checkForbidden statement = .ok ()) :
    ∀ e, Within e statement → kind e ∉ forbiddenNodes := by
  unfold checkForbidden at h
  split at h
  · cases h
  · next hnone =>
    have hall := head?_findAll_eq_none.mp (Option.not_isSome_iff_eq_none.mp hnone)
    intro e he
    simpa using hall e he

/-- None of its projections is a star. -/
theorem rejectStar_passed (h : rejectStar statement = .ok ()) : ∀ select, Within select statement →
    kind select = .select → ∀ projection ∈ select.under .expressions, isStarProjection projection = false := by
  unfold rejectStar at h
  split at h
  · cases h
  · next hnone =>
    intro select hselect hkind projection hprojection
    by_contra hstar
    have hfound : select ∈ statement.findAll fun e => decide (kind e = .select) :=
      mem_findAll.mpr ⟨hselect, by simpa using hkind⟩
    have hany : (select.under .expressions).any isStarProjection = true :=
      List.any_eq_true.mpr ⟨projection, hprojection, by simpa using hstar⟩
    exact hnone (List.any_eq_true.mpr ⟨select, hfound, hany⟩)

/-- Its tables are approved. -/
theorem checkTables_passed (h : checkTables guard casing statement = .ok ()) : ∀ e, Within e statement →
    kind e = .table → casing.lower (tableName e) ∈ tableNames casing guard.catalog := by
  unfold checkTables at h
  split at h
  · cases h
  · split at h
    · next hnone =>
      intro e he hkind
      by_contra hunknown
      have htable : e ∈ tables statement := mem_findAll.mpr ⟨he, by simpa using hkind⟩
      have hreferenced : casing.lower (tableName e) ∈ referencedTables casing statement :=
        List.mem_dedup.mpr (List.mem_map.mpr ⟨e, htable, rfl⟩)
      have hin : casing.lower (tableName e) ∈
          (referencedTables casing statement).filter fun name => name ∉ tableNames casing guard.catalog :=
        List.mem_filter.mpr ⟨hreferenced, by simpa using hunknown⟩
      rw [hnone] at hin
      exact absurd hin List.not_mem_nil
    · cases h

/-- Its columns have no problem. -/
theorem validateColumns_passed (h : validateColumns guard casing statement = .ok ()) : ∀ e, Within e statement →
    isColumn e = true → columnProblem guard casing statement e = none := by
  unfold validateColumns at h
  split at h
  · next hnone =>
    intro e he hcolumn
    exact List.findSome?_eq_none_iff.mp hnone e (mem_findAll.mpr ⟨he, hcolumn⟩)
  · cases h

/-- The checks of a `SELECT` establish all that. -/
theorem checkStatement_passed (hroot : kind statement = .select) (h : checkStatement guard casing statement = .ok ()) :
    Passed guard casing statement := by
  unfold checkStatement at h
  have hforbidden := passed_andThen h
  have hfunctions := passed_andThen hforbidden.2
  have hstars := passed_andThen hfunctions.2
  have haggregate := passed_andThen hstars.2
  have htables := passed_andThen haggregate.2
  exact ⟨hroot, checkForbidden_passed hforbidden.1, refuseDenied_passed.mp hfunctions.1, rejectStar_passed hstars.1,
    checkTables_passed htables.1, validateColumns_passed htables.2⟩

/-- What is parsed is one `SELECT`. -/
theorem parse_select (h : parse parser sql = .ok statement) :
    statements parser sql = .ok [statement] ∧ kind statement = .select := by
  unfold parse at h
  split at h
  · cases h
  · cases h
  · next parsed hparse =>
    split at h
    · next hkind =>
      have heq : parsed = statement := Except.ok.inj h
      rw [← heq]
      exact ⟨hparse, hkind⟩
    · cases h
  · cases h

/-- An accepted text is one statement that passed the checks. -/
theorem validate_accepted (h : validate guard parser casing sql = .ok text) :
    ∃ statement, statements parser (normalized sql) = .ok [statement] ∧ Passed guard casing statement ∧
      text = applyLimit guard parser (normalized sql) statement := by
  unfold validate at h
  split at h
  · cases h
  · split at h
    · cases h
    · next statement hparse =>
      split at h
      · cases h
      · next hchecks =>
        obtain ⟨hone, hroot⟩ := parse_select hparse
        exact ⟨statement, hone, checkStatement_passed hroot hchecks, (Except.ok.inj h).symm⟩

/-- One `SELECT` whose checks go through is accepted. -/
theorem validate_of_checked (hsql : normalized sql = sql) (hne : sql ≠ "") (hone : statements parser sql = .ok [statement])
    (hkind : kind statement = .select) (hchecks : checkStatement guard casing statement = .ok ()) :
    validate guard parser casing sql = .ok (applyLimit guard parser sql statement) := by
  have hparse : parse parser sql = .ok statement := by
    simp only [parse, hone, hkind, if_true]
    rfl
  simp only [validate, hsql, hne, if_false, hparse, hchecks]

end Accepted

end RagSystem.CopilotGuard
