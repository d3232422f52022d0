import RagSystem.CopilotGuard
import RagSystem.ColumnResolution

/-!
# The column allow-list

Which columns a query reads that the copilot guard accepts. A reference that
the guard checks as PostgreSQL reads it is a reference to an approved column.
The guard skips an unqualified name that is an alias anywhere, resolves names
over the whole tree and not scope by scope, and does not look at schemas, at
renamed columns and at the columns of joins; there a query may read anything.
-/

namespace RagSystem.ColumnAllowlist

open KeyedTrees SqlSyntax SqlComments CopilotGuard ColumnResolution

set_option autoImplicit false

section Statement

variable (casing : Casing) (database : Database) (catalog : CopilotSchemaCatalog)

/-- The catalog's names are of tables on the search path, in lower case as names
without quotes are. -/
def InCatalog (table : TableName) : Prop := table = database.named (casing.lower table.name)

/-- The catalog lists the column for its table. -/
def Approved : BaseColumn → Prop
  | (some table, column) => InCatalog casing database table ∧ column ∈ columnNamesFor casing catalog table.name
  | (none, _) => False

/-- The node is a name after `USING`. -/
def isUsingName (way : Way) : Bool :=
  match way with
  | (parent, .using) :: _ => decide (kind parent = .join)
  | _ => false

/-- What a node of the tree reads: a column reference, a name after `USING`, a
natural join. -/
def readsNode (way : Way) (e : Expression) : List BaseColumn :=
  if isColumn e = true then reads casing database way e
  else if isUsingName way = true then readsUsing casing database way e
  else if isNatural e = true then readsNatural casing database way
  else []

/-- The node refers to an output name of its `SELECT`, or reads approved
columns only. -/
def Resolves (way : Way) (e : Expression) : Prop :=
  (isColumn e = true ∧ isOutputReference casing database way e = true) ∨
    ∀ c ∈ readsNode casing database way e, Approved casing database catalog c

/-- The projection is a star: bare or of a table, perhaps under an alias. -/
def StarProjection (projection : Expression) : Prop :=
  ∃ target, (target = projection ∨ isAlias projection = true ∧ argument projection .this = some target) ∧
    (kind target = .star ∨ isColumn target = true ∧ (argument target .this).map kind = some .star)

/-- The query reads approved columns only, and no star. -/
structure ReadsApproved (statement : Expression) : Prop where
  /-- At any depth what is referred to is approved, or an output name. -/
  resolves : ∀ way e, Under statement way e → Resolves casing database catalog way e
  /-- No `SELECT` at any depth has a star. -/
  stars : ∀ select, Within select statement → kind select = .select → ∀ projection ∈ select.under .expressions,
    ¬ StarProjection projection

/-- The item is a table's the catalog may name, its columns under their own
names. -/
structure IsTable (item : FromItem) (table : TableName) : Prop where
  /-- Its table. -/
  table_eq : item.table = some table
  /-- On the search path, its name in lower case. -/
  inCatalog : InCatalog casing database table
  /-- No column is renamed. -/
  plain : item.plain = true

/-- The guard takes the qualified column for one of the table PostgreSQL reads
it from. -/
def CheckedQualified (statement : Expression) (way : Way) (column : Expression) : Prop :=
  ∃ item table,
    qualified (foldedArgument casing column .db) (foldedArgument casing column .table) (scopes casing database way) = some item ∧
    IsTable casing database item table ∧ item.has (foldedArgument casing column .this) = true ∧
    resolveQualifier casing statement (casing.lower (columnTable column)) = some (casing.lower table.name)

/-- The name is no alias, and a table of the reference's own `SELECT` has the
column and lists it. -/
def CheckedUnqualified (statement : Expression) (way : Way) (column : Expression) : Prop :=
  casing.lower (SqlSyntax.name column) ∉ outputAliases casing statement ∧
    ∃ select rest, enclosingSelects way = select :: rest ∧
      isMerged casing select (foldedArgument casing column .this) = false ∧
      ∃ item ∈ fromItems casing database select, ∃ table, IsTable casing database item table ∧
        item.has (foldedArgument casing column .this) = true ∧
        casing.lower (SqlSyntax.name column) ∈ columnNamesFor casing catalog table.name

/-- The column reference is a name in lower case, perhaps with a qualifier, that
the guard checks as PostgreSQL reads it. -/
def ReadAsChecked (statement : Expression) (way : Way) (column : Expression) : Prop :=
  isColumn column = true ∧ (argument column .this).map kind = some .identifier ∧
    casing.lower (foldedArgument casing column .this) = foldedArgument casing column .this ∧
    (((argument column .table).map kind = some .identifier ∧ foldedArgument casing column .table ≠ "" ∧
        CheckedQualified casing database statement way column) ∨
      (argument column .table = none ∧ CheckedUnqualified casing database catalog statement way column))

end Statement

section Checked

variable {casing : Casing} {database : Database} {guard : Guard} {parser : SqlParser} {statement e column : Expression}
  {way : Way} {item : FromItem} {table : TableName} {name sql text : String} {c : BaseColumn}

/-- The lower case of a folded identifier is that of its text. -/
theorem lower_folded (identifier : Expression) :
    casing.lower (folded casing identifier) = casing.lower ((textArgument identifier .this).getD "") := by
  simp only [folded]
  split
  · rfl
  · exact casing.lower_lower _

/-- A column that is an identifier has one name to the guard and to PostgreSQL,
up to case. -/
theorem lower_name (hcolumn : isColumn column = true) (h : (argument column .this).map kind = some .identifier) :
    casing.lower (foldedArgument casing column .this) = casing.lower (SqlSyntax.name column) := by
  obtain ⟨identifier, harg, hkind⟩ := Option.map_eq_some_iff.mp h
  have hname : SqlSyntax.name column = (textArgument identifier .this).getD "" := by
    have hcases : kind column = .column ∨ kind column = .pseudocolumn := by simpa [isColumn] using hcolumn
    rcases hcases with hc | hc <;> simp [SqlSyntax.name, SqlSyntax.text, hc, harg, hkind]
  rw [hname, foldedArgument, harg]
  simp only [hkind, if_true]
  exact lower_folded identifier

/-- A table's column under its own name. -/
theorem mem_column (hitem : IsTable casing database item table) (hc : c ∈ item.column name) : c = (some table, name) := by
  obtain ⟨⟨visible, actual⟩, hin, rfl⟩ := List.mem_map.mp hc
  obtain ⟨hin, hvisible⟩ := List.mem_filter.mp hin
  have hplain := List.all_eq_true.mp hitem.plain _ hin
  have hname : visible = name := by simpa using hvisible
  have hactual : visible = actual := by simpa using hplain
  rw [hitem.table_eq, ← hname, hactual]

/-- An unmerged name that an item of the innermost `SELECT` has is read from
that item, or is an error. -/
theorem readColumn_own {select : Expression} (rest : List Expression) (hitem : item ∈ fromItems casing database select)
    (hhas : item.has name = true) (hmerged : isMerged casing select name = false) :
    ∃ cs, readColumn casing database name (select :: rest) = some cs ∧ ∀ c ∈ cs, c ∈ item.column name := by
  have hmem : item ∈ (fromItems casing database select).filter fun item => item.has name = true :=
    List.mem_filter.mpr ⟨hitem, by simpa using hhas⟩
  rw [readColumn]
  split
  · next hnone =>
    rw [hnone] at hmem
    exact absurd hmem List.not_mem_nil
  · next only hone =>
    rw [hone] at hmem
    rw [List.mem_singleton.mp hmem]
    exact ⟨_, rfl, fun _ hc => hc⟩
  · rw [if_neg (by simp [hmerged])]
    exact ⟨[], rfl, fun _ hc => (nomatch hc)⟩

/-- A name that is an identifier is no star. -/
theorem not_star_of_identifier (h : (argument column .this).map kind = some .identifier) :
    ¬ (argument column .this).map kind = some .star := by
  rw [h]
  decide

/-- A qualified reference that is checked as it is read reads approved
columns. -/
theorem approved_of_qualified (hcolumn : isColumn column = true)
    (hname : (argument column .this).map kind = some .identifier)
    (hcase : casing.lower (foldedArgument casing column .this) = foldedArgument casing column .this)
    (hqualifier : (argument column .table).map kind = some .identifier) (hne : foldedArgument casing column .table ≠ "")
    (hchecked : CheckedQualified casing database statement way column)
    (hproblem : columnProblem guard casing statement column = none) :
    ∀ c ∈ reads casing database way column, Approved casing database guard.catalog c := by
  obtain ⟨item, table, hitem, htable, hhas, hresolve⟩ := hchecked
  have hreads : reads casing database way column = item.column (foldedArgument casing column .this) := by
    simp only [reads, hne, ne_eq, not_false_eq_true, if_true, hitem, not_star_of_identifier hname, if_false,
      readQualified, hhas]
  have hlisted : casing.lower (SqlSyntax.name column) ∈ columnNamesFor casing guard.catalog table.name := by
    have hsome : casing.lower (columnTable column) ≠ "" := by
      intro hempty
      obtain ⟨identifier, harg, hkind⟩ := Option.map_eq_some_iff.mp hqualifier
      have htext : columnTable column = (textArgument identifier .this).getD "" := by
        simp [columnTable, SqlSyntax.text, harg, hkind]
      have hfolded : foldedArgument casing column .table = folded casing identifier := by
        simp only [foldedArgument, harg, hkind, if_true]
      have hlower : casing.lower (folded casing identifier) = "" := by
        rw [lower_folded, ← htext]
        exact hempty
      exact hne (hfolded.trans (casing.lower_eq_empty _ hlower))
    simp only [columnProblem, hsome, ne_eq, not_false_eq_true, if_true, hresolve] at hproblem
    split at hproblem
    · next hin => rwa [columnNamesFor_lower] at hin
    · cases hproblem
  intro c hc
  rw [hreads] at hc
  rw [mem_column htable hc]
  rw [← lower_name hcolumn hname, hcase] at hlisted
  exact ⟨htable.inCatalog, hlisted⟩

/-- So does an unqualified one. -/
theorem approved_of_unqualified (hcolumn : isColumn column = true)
    (hname : (argument column .this).map kind = some .identifier)
    (hcase : casing.lower (foldedArgument casing column .this) = foldedArgument casing column .this)
    (hqualifier : argument column .table = none)
    (hchecked : CheckedUnqualified casing database guard.catalog statement way column) :
    ∀ c ∈ reads casing database way column, Approved casing database guard.catalog c := by
  obtain ⟨-, select, rest, hselects, hmerged, item, hitem, table, htable, hhas, hlisted⟩ := hchecked
  obtain ⟨cs, hread, hcs⟩ := readColumn_own rest hitem hhas hmerged
  have hempty : foldedArgument casing column .table = "" := by simp only [foldedArgument, hqualifier]
  have hreads : reads casing database way column = cs := by
    simp only [reads, hempty, ne_eq, not_true_eq_false, if_false, not_star_of_identifier hname, hselects, hread]
  intro c hc
  rw [hreads] at hc
  rw [mem_column htable (hcs c hc)]
  rw [← lower_name hcolumn hname, hcase] at hlisted
  exact ⟨htable.inCatalog, hlisted⟩

/-- A reference of an accepted query that is checked as it is read resolves. -/
theorem resolves_of_checked (hproblem : columnProblem guard casing statement column = none)
    (h : ReadAsChecked casing database guard.catalog statement way column) :
    Resolves casing database guard.catalog way column := by
  obtain ⟨hcolumn, hname, hcase, ⟨hqualifier, hne, hchecked⟩ | ⟨hqualifier, hchecked⟩⟩ := h
  · have hall := approved_of_qualified hcolumn hname hcase hqualifier hne hchecked hproblem
    exact .inr (by simpa only [readsNode, hcolumn, if_true] using hall)
  · have hall := approved_of_unqualified hcolumn hname hcase hqualifier hchecked
    exact .inr (by simpa only [readsNode, hcolumn, if_true] using hall)

/-- Star projections are found by the guard. -/
theorem not_starProjection (h : isStarProjection e = false) : ¬ StarProjection e := by
  rintro ⟨target, htarget, hstar⟩
  have hfound : (decide (kind target = .star) ||
      (isColumn target && decide ((argument target .this).map kind = some .star))) = true := by
    rcases hstar with hstar | ⟨hcolumn, hstar⟩
    · simp [hstar]
    · simp [hcolumn, hstar]
  rcases htarget with rfl | ⟨halias, harg⟩
  · have hnot : isAlias target = false := by
      by_contra ha
      have htrue : isAlias target = true := by simpa using ha
      have hcases : kind target = .alias ∨ kind target = .pivotAlias := by simpa [isAlias] using htrue
      rcases hstar with hstar | ⟨hcolumn, -⟩
      · rcases hcases with hk | hk <;> rw [hk] at hstar <;> cases hstar
      · rcases hcases with hk | hk <;> simp [isColumn, hk] at hcolumn
    simp only [isStarProjection, hnot, Bool.false_eq_true, if_false] at h
    rw [hfound] at h
    cases h
  · simp only [isStarProjection, halias, if_true, harg] at h
    rw [hfound] at h
    cases h

end Checked

section Samples

/-- A table with three columns. -/
def sampleDatabase : Database where
  home _ := "public"
  columns table := if table.name = "users" then ["id", "email", "password_hash"] else []
  rowFunctions _ := []

/-- A catalog that lists two of them. -/
def sampleGuard : Guard := ⟨⟨[⟨"users", ["id", "email"]⟩]⟩, 100⟩

/-- `SELECT max(password_hash) AS password_hash FROM users`, as parsed. -/
def maxAliased : Expression :=
  .node ⟨.select, [], false⟩
    [(.expressions, .node ⟨.alias, [], false⟩
      [(.this, .node ⟨.aggFunc "Max", [], false⟩
        [(.this, .node ⟨.column, [], false⟩ [(.this, identifier "password_hash" false)])]),
        (.alias, identifier "password_hash" false)]),
      (.fromClause, .node ⟨.fromClause, [], false⟩
        [(.this, .node ⟨.table, [], false⟩ [(.this, identifier "users" false)])])]

/-- A parser that knows that statement. -/
def sampleParser : SqlParser where
  parse text :=
    if text = "SELECT max(password_hash) AS password_hash FROM users" then .ok [some maxAliased]
    else .error (.sqlglotError "unknown")
  limitSql _ _ := ""

/-- The text is accepted. -/
theorem maxAliased_accepted : validate sampleGuard sampleParser asciiCasing
    "SELECT max(password_hash) AS password_hash FROM users" =
    .ok "SELECT max(password_hash) AS password_hash FROM users" := by
  have hsql : normalized "SELECT max(password_hash) AS password_hash FROM users" =
      "SELECT max(password_hash) AS password_hash FROM users" := by
    refine normalized_eq_self ?_
    rw [String.toList_ofList]
    decide +kernel
  have hone : statements sampleParser "SELECT max(password_hash) AS password_hash FROM users" = .ok [maxAliased] := rfl
  have hchecks : checkStatement sampleGuard asciiCasing maxAliased = .ok () := by decide +kernel
  exact validate_of_checked hsql (by decide) hone rfl hchecks

/-- `SELECT max(email) FROM hr.users`, as parsed. -/
def maxElsewhere : Expression :=
  .node ⟨.select, [], false⟩
    [(.expressions, .node ⟨.aggFunc "Max", [], false⟩
      [(.this, .node ⟨.column, [], false⟩ [(.this, identifier "email" false)])]),
      (.fromClause, .node ⟨.fromClause, [], false⟩
        [(.this, .node ⟨.table, [], false⟩ [(.this, identifier "users" false), (.db, identifier "hr" false)])])]

/-- The guard takes a table of another schema for the approved one of its name. -/
example : checkStatement sampleGuard asciiCasing maxElsewhere = .ok () ∧
    ¬ ReadsApproved asciiCasing sampleDatabase sampleGuard.catalog maxElsewhere := by
  refine ⟨by decide +kernel, fun h => ?_⟩
  have hmax := (Under.root (t := maxElsewhere)).step (k := .expressions) List.mem_cons_self
  have hcolumn := hmax.step (k := .this) List.mem_cons_self
  rcases h.resolves _ _ hcolumn with ⟨-, houtput⟩ | hall
  · exact absurd houtput (by decide +kernel)
  · have happroved := hall (some ⟨"hr", "users"⟩, "email") (by decide +kernel)
    have hhome : (⟨"hr", "users"⟩ : TableName) = sampleDatabase.named (asciiCasing.lower "users") := happroved.1
    exact absurd hhome (by decide +kernel)

end Samples

end RagSystem.ColumnAllowlist
