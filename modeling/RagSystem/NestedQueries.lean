import RagSystem.CopilotGuard

/-!
# Nested queries and the copilot guard

The guard admits no subquery: it refuses trees with nodes of the classes that
hold one, a derived table, a `WITH`, a set operation. A query that stands
directly under a node of another class, as in `EXISTS (SELECT ...)`, is not seen.
-/

namespace RagSystem.NestedQueries

open KeyedTrees SqlSyntax SqlComments CopilotGuard

set_option autoImplicit false

section Trees

variable {L K : Type}

/-- A node below the root has a parent in the tree. -/
theorem exists_parent {t c s : Tree L K} (hc : c ∈ t.children) (hs : Within s c) :
    ∃ parent, Within parent t ∧ s ∈ parent.children := by
  induction hs generalizing t with
  | root => exact ⟨t, .root, hc⟩
  | child hd _ ih =>
    obtain ⟨parent, hparent, hmem⟩ := ih hd
    exact ⟨parent, .child hc hparent, hmem⟩

/-- A list with a member is not empty. -/
theorem ne_nil_iff_mem {α : Type} {l : List α} : l ≠ [] ↔ ∃ x, x ∈ l :=
  ⟨List.exists_mem_of_ne_nil l, fun ⟨_, h⟩ => List.ne_nil_of_mem h⟩

end Trees

section Statement

/-- No `SELECT` but the root, at any depth. -/
def NoNestedSelect (statement : Expression) : Prop :=
  ∀ c ∈ statement.children, ∀ e, Within e c → kind e ≠ .select

/-- A `SELECT` stands directly under nodes of forbidden classes only. -/
def Wrapped (statement : Expression) : Prop :=
  ∀ e, Within e statement → ∀ c ∈ e.children, kind c = .select → kind e ∈ forbiddenNodes

/-- Nothing else about the statement is refused. -/
structure OtherwiseFine (guard : Guard) (casing : Casing) (statement : Expression) : Prop where
  /-- A `SELECT` without nodes of forbidden classes, denied calls and stars,
  over approved tables and columns. -/
  passed : Passed guard casing statement
  /-- With an aggregate. -/
  aggregate : ∃ e, Within e statement ∧ isAggFunc e = true
  /-- With a table. -/
  table : ∃ e, Within e statement ∧ kind e = .table

end Statement

section Checks

variable {guard : Guard} {parser : SqlParser} {casing : Casing} {statement : Expression} {sql text : String}

/-- Each check passes a statement that has nothing it looks for. -/
theorem checkForbidden_of (h : ∀ e, Within e statement → kind e ∉ forbiddenNodes) :
    checkForbidden statement = .ok () := by
  have hnone : (statement.findAll fun e => decide (kind e ∈ forbiddenNodes)).head? = none :=
    head?_findAll_eq_none.mpr fun e he => by simpa using h e he
  simp [checkForbidden, hnone]
  rfl

theorem checkFunctions_of (h : ∀ e, Within e statement → deniedCall casing e = none) :
    checkFunctions casing statement = .ok () := refuseDenied_passed.mpr h

theorem rejectStar_of (h : ∀ select, Within select statement → kind select = .select →
    ∀ projection ∈ select.under .expressions, isStarProjection projection = false) :
    rejectStar statement = .ok () := by
  have hnone : ((statement.findAll fun e => decide (kind e = .select)).any fun select =>
      (select.under .expressions).any isStarProjection) = false := by
    rw [List.any_eq_false]
    intro select hselect hstar
    obtain ⟨hwithin, hkind⟩ := mem_findAll.mp hselect
    obtain ⟨projection, hprojection, htrue⟩ := List.any_eq_true.mp hstar
    have hfalse := h select hwithin (by simpa using hkind) projection hprojection
    rw [hfalse] at htrue
    exact absurd htrue (by decide)
  simp [rejectStar, hnone]
  rfl

/-- The aggregate is looked for, not at. -/
theorem checkAggregate_iff :
    checkAggregate statement = .ok () ↔ ∃ e, Within e statement ∧ isAggFunc e = true := by
  have hfind : (statement.findAll isAggFunc).head?.isSome = true ↔ ∃ e, Within e statement ∧ isAggFunc e = true := by
    rw [List.isSome_head?, ne_nil_iff_mem]
    simp only [mem_findAll]
  unfold checkAggregate
  split
  · next hsome => exact iff_of_true rfl (hfind.mp hsome)
  · next hnone => exact iff_of_false (by simp) fun h => hnone (hfind.mpr h)

/-- Some table is referred to exactly when the tree has one. -/
theorem referencedTables_ne_nil :
    referencedTables casing statement ≠ [] ↔ ∃ e, Within e statement ∧ kind e = .table := by
  rw [referencedTables, ne_nil_iff_mem]
  simp only [List.mem_dedup, List.mem_map, CopilotGuard.tables, mem_findAll, decide_eq_true_eq]
  constructor
  · rintro ⟨-, e, he, -⟩
    exact ⟨e, he⟩
  · rintro ⟨e, he⟩
    exact ⟨_, e, he, rfl⟩

theorem checkTables_of (hsome : ∃ e, Within e statement ∧ kind e = .table)
    (h : ∀ e, Within e statement → kind e = .table → casing.lower (tableName e) ∈ tableNames casing guard.catalog) :
    checkTables guard casing statement = .ok () := by
  have hne : referencedTables casing statement ≠ [] := referencedTables_ne_nil.mpr hsome
  have hnone : (referencedTables casing statement).filter (fun name => name ∉ tableNames casing guard.catalog) = [] := by
    rw [List.filter_eq_nil_iff]
    intro name hname
    obtain ⟨e, he, rfl⟩ := List.mem_map.mp (List.mem_dedup.mp hname)
    obtain ⟨hwithin, hkind⟩ := mem_findAll.mp he
    simpa using h e hwithin (by simpa using hkind)
  unfold checkTables
  rw [if_neg hne, hnone]
  rfl

theorem validateColumns_of (h : ∀ e, Within e statement → isColumn e = true →
    columnProblem guard casing statement e = none) : validateColumns guard casing statement = .ok () := by
  have hnone : (statement.findAll isColumn).findSome? (columnProblem guard casing statement) = none := by
    rw [List.findSome?_eq_none_iff]
    intro e he
    obtain ⟨hwithin, hcolumn⟩ := mem_findAll.mp he
    exact h e hwithin hcolumn
  unfold validateColumns
  rw [hnone]
  rfl

/-- A `SELECT` passes the checks exactly when nothing in it is refused. -/
theorem checkStatement_iff (hroot : kind statement = .select) :
    checkStatement guard casing statement = .ok () ↔ OtherwiseFine guard casing statement := by
  constructor
  · intro h
    have hpassed := checkStatement_passed hroot h
    have hforbidden := passed_andThen h
    have hfunctions := passed_andThen hforbidden.2
    have hstars := passed_andThen hfunctions.2
    have haggregate := passed_andThen hstars.2
    have htables := passed_andThen haggregate.2
    have htable : referencedTables casing statement ≠ [] := by
      intro hnil
      have hchecked := htables.1
      simp [checkTables, hnil] at hchecked
    exact ⟨hpassed, checkAggregate_iff.mp haggregate.1, referencedTables_ne_nil.mp htable⟩
  · intro h
    simp only [checkStatement, checkForbidden_of h.passed.forbidden, checkFunctions_of h.passed.functions,
      rejectStar_of h.passed.stars, checkAggregate_iff.mpr h.aggregate, checkTables_of h.table h.passed.tables,
      validateColumns_of h.passed.columns]
    rfl

/-- The guard accepts a text of one statement exactly when the text is not empty
and nothing in the statement is refused. -/
theorem validate_iff (hone : statements parser (normalized sql) = .ok [statement]) :
    (∃ text, validate guard parser casing sql = .ok text) ↔
      normalized sql ≠ "" ∧ OtherwiseFine guard casing statement := by
  constructor
  · rintro ⟨text, h⟩
    have hne : normalized sql ≠ "" := by
      intro hempty
      simp [validate, hempty] at h
    obtain ⟨found, hfound, hpassed, -⟩ := validate_accepted h
    have hsame : [found] = [statement] := Except.ok.inj (hfound.symm.trans hone)
    have hparse : parse parser (normalized sql) = .ok statement := by
      have hroot := hpassed.root
      rw [List.cons.inj hsame |>.1] at hroot
      simp only [parse, hone, hroot, if_true]
      rfl
    simp only [validate, hne, if_false, hparse] at h
    cases hchecks : checkStatement guard casing statement with
    | error e =>
      rw [hchecks] at h
      cases h
    | ok _ => exact ⟨hne, (checkStatement_iff (parse_select hparse).2).mp hchecks⟩
  · rintro ⟨hne, hfine⟩
    have hparse : parse parser (normalized sql) = .ok statement := by
      simp only [parse, hone, hfine.passed.root, if_true]
      rfl
    have hchecks := (checkStatement_iff hfine.passed.root).mpr hfine
    exact ⟨applyLimit guard parser (normalized sql) statement, by simp only [validate, hne, if_false, hparse, hchecks]⟩

end Checks

section Law

variable {guard : Guard} {parser : SqlParser} {casing : Casing} {statement : Expression} {sql : String}

/-- Without forbidden nodes a wrapped statement has no nested `SELECT`. -/
theorem noNestedSelect_of_wrapped (hw : Wrapped statement)
    (hf : ∀ e, Within e statement → kind e ∉ forbiddenNodes) : NoNestedSelect statement := by
  intro c hc e he hkind
  obtain ⟨parent, hparent, hmem⟩ := exists_parent hc he
  exact hf parent hparent (hw parent hparent e hmem hkind)

/-- Without a nested `SELECT` there is none to wrap. -/
theorem wrapped_of_noNestedSelect (hn : NoNestedSelect statement) : Wrapped statement := by
  intro e he c hc hkind
  cases he with
  | root => exact absurd hkind (hn c hc c .root)
  | child hd he => exact absurd hkind (hn _ hd c ((Within.child hc .root).trans he))

/-- A text the guard accepts has no nested query, if and only if a query in it
stands under nodes of the forbidden classes only, or the text is refused anyhow:
it is empty, or something else in its statement is refused. -/
theorem admits_no_nested_iff (hone : statements parser (normalized sql) = .ok [statement]) :
    ((∃ text, validate guard parser casing sql = .ok text) → NoNestedSelect statement) ↔
      (Wrapped statement ∨ normalized sql = "" ∨ ¬ OtherwiseFine guard casing statement) := by
  rw [validate_iff hone]
  constructor
  · intro h
    by_cases hfine : normalized sql ≠ "" ∧ OtherwiseFine guard casing statement
    · exact .inl (wrapped_of_noNestedSelect (h hfine))
    · by_cases hempty : normalized sql = ""
      · exact .inr (.inl hempty)
      · exact .inr (.inr fun h => hfine ⟨hempty, h⟩)
  · rintro (hwrapped | hempty | hrefused) ⟨hne, hfine⟩
    · exact noNestedSelect_of_wrapped hwrapped hfine.passed.forbidden
    · exact absurd hempty hne
    · exact absurd hfine hrefused

end Law

section Samples

/-- A catalog with one table. -/
def ordersGuard : Guard := ⟨⟨[⟨"orders", ["id", "total"]⟩]⟩, 100⟩

/-- A column by its name. -/
def columnNode (name : String) : Expression := .node ⟨.column, [], false⟩ [(.this, identifier name false)]

/-- `FROM orders`. -/
def fromOrders : Expression :=
  .node ⟨.fromClause, [], false⟩ [(.this, .node ⟨.table, [], false⟩ [(.this, identifier "orders" false)])]

/-- `SELECT id FROM orders`. -/
def innerQuery : Expression :=
  .node ⟨.select, [], false⟩ [(.expressions, columnNode "id"), (.fromClause, fromOrders)]

/-- `SELECT sum(total) FROM orders WHERE EXISTS (SELECT id FROM orders)`. -/
def existsQuery : Expression :=
  .node ⟨.select, [], false⟩
    [(.expressions, .node ⟨.aggFunc "Sum", [], false⟩ [(.this, columnNode "total")]), (.fromClause, fromOrders),
      (.whereClause, .node ⟨.other "Where", [], false⟩
        [(.this, .node ⟨.func "Exists", [], false⟩ [(.this, innerQuery)])])]

/-- Its text. -/
def existsText : String := "SELECT sum(total) FROM orders WHERE EXISTS (SELECT id FROM orders)"

/-- A parser that knows that statement. -/
def existsParser : SqlParser where
  parse text := if text = existsText then .ok [some existsQuery] else .error (.sqlglotError "unknown")
  limitSql _ _ := ""

/-- The text is parsed as it is. -/
theorem normalized_existsText : normalized existsText = existsText := by
  refine normalized_eq_self ?_
  rw [existsText, String.toList_ofList]
  decide +kernel

/-- The parsed text of the sample. -/
theorem existsText_parsed : statements existsParser (normalized existsText) = .ok [existsQuery] := by
  rw [normalized_existsText]
  rfl

/-- The law at the sample. -/
theorem admits_no_nested_iff_sample :
    ((∃ text, validate ordersGuard existsParser asciiCasing existsText = .ok text) → NoNestedSelect existsQuery) ↔
      (Wrapped existsQuery ∨ normalized existsText = "" ∨ ¬ OtherwiseFine ordersGuard asciiCasing existsQuery) :=
  admits_no_nested_iff existsText_parsed

/-- The query in `EXISTS` is accepted. -/
theorem exists_query_accepted :
    validate ordersGuard existsParser asciiCasing existsText = .ok existsText ∧
      statements existsParser (normalized existsText) = .ok [existsQuery] ∧ ¬ NoNestedSelect existsQuery := by
  have hne : existsText ≠ "" := by decide
  have hparsed : statements existsParser existsText = .ok [existsQuery] := rfl
  have hchecks : checkStatement ordersGuard asciiCasing existsQuery = .ok () := by decide +kernel
  refine ⟨validate_of_checked normalized_existsText hne hparsed rfl hchecks, existsText_parsed, fun h => ?_⟩
  have hwhere : Within innerQuery (.node ⟨.other "Where", [], false⟩
      [(.this, .node ⟨.func "Exists", [], false⟩ [(.this, innerQuery)])]) :=
    .child (List.mem_singleton_self _) (.child (List.mem_singleton_self _) .root)
  exact h _ (List.mem_cons_of_mem _ (List.mem_cons_of_mem _ (List.mem_singleton_self _))) innerQuery hwhere rfl

end Samples

end RagSystem.NestedQueries
