import Mathlib.Data.List.Dedup
import RagSystem.SqlSyntax
import RagSystem.SqlComments

/-!
# The SQL Lab guard

The checks a submitted statement passes before it is executed, in their order
and with their messages. The tree-wide check goes by a deny-list of node
classes: what is accepted is one `SELECT` without a node of those classes and
without a denylisted table, but the list leaves out `SELECT ... INTO`, row
locks and some other writing nodes.
-/

namespace RagSystem.SqlLabGuard

open KeyedTrees SqlSyntax SqlComments DocumentModels

set_option autoImplicit false

section Guard

/-- `SqlLabValidationError`. -/
structure SqlLabValidationError where
  /-- The reason. -/
  message : String
deriving DecidableEq

/-- What `validate` raises. -/
inductive ValidateError where
  /-- `SqlLabValidationError`: the statement is rejected. -/
  | rejected (error : SqlLabValidationError)
  /-- An exception of the parser other than `SqlglotError` passes through. -/
  | raised (message : String)
deriving DecidableEq

/-- `SqlLabGuard`: its two settings. -/
structure Guard where
  /-- The denylisted tables, stripped and in lower case. -/
  sensitiveTables : List String
  /-- Whether a `WITH` clause is allowed. -/
  allowCte : Bool
  /-- Every denylisted table has a name. -/
  named : ∀ table ∈ sensitiveTables, table ≠ ""

/-- `SqlLabGuard(sensitive_tables, allow_cte)`. -/
def sqlLabGuard (casing : Casing) (sensitiveTables : List String) (allowCte : Bool) : Guard where
  sensitiveTables := (sensitiveTables.filter fun name => strip name ≠ "").map fun name => casing.lower (strip name)
  allowCte := allowCte
  named table htable := by
    obtain ⟨name, hname, rfl⟩ := List.mem_map.mp htable
    have hstripped : strip name ≠ "" := by simpa using (List.mem_filter.mp hname).2
    exact fun hempty => hstripped (casing.lower_eq_empty _ hempty)

/-- `_FORBIDDEN_NODES`. -/
def forbiddenNodes : List (NodeKind × String) :=
  [(.insert, "INSERT"), (.update, "UPDATE"), (.delete, "DELETE"), (.merge, "MERGE"), (.truncateTable, "TRUNCATE"),
    (.create, "CREATE"), (.alter, "ALTER"), (.drop, "DROP"), (.grant, "GRANT"), (.revoke, "REVOKE"),
    (.copy, "COPY"), (.set, "SET")]

/-- `_FORBIDDEN_TYPES`. -/
def forbiddenTypes : List NodeKind := forbiddenNodes.map Prod.fst ++ [.command]

/-- `_DATA_MODIFYING_TYPES`. -/
def dataModifyingTypes : List NodeKind := [.insert, .update, .delete, .merge, .truncateTable]

/-- `_operation_name`. -/
def operationName (casing : Casing) (e : Expression) : String :=
  match forbiddenNodes.lookup (kind e) with
  | some name => name
  | none =>
    if kind e = .command then
      let keyword := strip ((textArgument e .this).getD "")
      if keyword ≠ "" then casing.upper keyword else "administrative command"
    else casing.upper (kind e).className

/-- The denylisted name a node refers to: of a table, or of a column's
qualifier. -/
def sensitiveReference (guard : Guard) (casing : Casing) (e : Expression) : Option String :=
  let name := if isColumn e then casing.lower (columnTable e) else casing.lower (tableName e)
  if (kind e = .table ∨ isColumn e ∧ name ≠ "") ∧ name ∈ guard.sensitiveTables then some name else none

/-- `_referenced_sensitive_tables`. -/
def referencedSensitiveTables (guard : Guard) (casing : Casing) (statement : Expression) : List String :=
  (statement.walk.filterMap (sensitiveReference guard casing)).dedup

/-- The root must be a `SELECT`. -/
def checkRoot (casing : Casing) (statement : Expression) : Except SqlLabValidationError Unit :=
  if kind statement = .select then pure ()
  else
    let operation := operationName casing statement
    throw ⟨s!"Disallowed operation: {operation} statements are not allowed; only a single read-only SELECT is permitted."⟩

/-- No node of the forbidden classes anywhere. -/
def checkForbidden (casing : Casing) (statement : Expression) : Except SqlLabValidationError Unit :=
  match (statement.findAll fun e => decide (kind e ∈ forbiddenTypes)).head? with
  | none => pure ()
  | some forbidden =>
    let operation := operationName casing forbidden
    if kind forbidden ∈ dataModifyingTypes then
      throw ⟨s!"Disallowed operation: {operation} is a data-modifying operation, which is not permitted in a read-only query."⟩
    else throw ⟨s!"Disallowed operation: {operation} is not allowed in a read-only query."⟩

/-- No `WITH` clause, unless allowed. -/
def checkCte (guard : Guard) (statement : Expression) : Except SqlLabValidationError Unit :=
  if guard.allowCte = false ∧ (statement.findAll fun e => decide (kind e = .withClause)).head?.isSome = true then
    throw ⟨"WITH clause: common table expressions are not permitted in this version."⟩
  else pure ()

/-- No call of a denied function. -/
def checkFunctions (casing : Casing) (statement : Expression) : Except SqlLabValidationError Unit :=
  refuseDenied casing (fun function => ⟨s!"Disallowed function: {function}() is not permitted in a read-only query."⟩)
    statement

/-- No denylisted table. -/
def checkSensitive (guard : Guard) (casing : Casing) (statement : Expression) :
    Except SqlLabValidationError Unit :=
  match referencedSensitiveTables guard casing statement with
  | [] => pure ()
  | referenced =>
    let names := ", ".intercalate (referenced.mergeSort fun a b => decide (a ≤ b))
    throw ⟨s!"Sensitive-table reference: query references denylisted table(s): {names}."⟩

/-- The checks of the one parsed statement. -/
def checkStatement (guard : Guard) (casing : Casing) (statement : Expression) :
    Except SqlLabValidationError Unit := do
  checkRoot casing statement
  checkForbidden casing statement
  checkCte guard statement
  checkFunctions casing statement
  checkSensitive guard casing statement

/-- `SqlLabGuard.validate`. -/
def validate (guard : Guard) (parser : SqlParser) (casing : Casing) (sql : String) : Except ValidateError String :=
  if normalized sql = "" then
    throw (.rejected
      ⟨"Empty input: the statement is empty or contains only whitespace after comment removal."⟩)
  else
    match statements parser (normalized sql) with
    | .error (.sqlglotError exc) => throw (.rejected ⟨s!"Parse failure: could not parse SQL ({exc})."⟩)
    | .error (.other exc) => throw (.raised exc)
    | .ok [statement] =>
      match checkStatement guard casing statement with
      | .error e => throw (.rejected e)
      | .ok _ => pure (normalized sql)
    | .ok _ => throw (.rejected ⟨"Multiple statements: only a single SQL statement is allowed."⟩)

end Guard

section Accepted

variable {guard : Guard} {parser : SqlParser} {casing : Casing} {statement : Expression} {sql text : String}

/-- A passed root is a `SELECT`. -/
theorem checkRoot_passed (h : checkRoot casing statement = .ok ()) : kind statement = .select := by
  unfold checkRoot at h
  split at h
  · assumption
  · cases h

/-- A passed tree has no node of the forbidden classes. -/
theorem checkForbidden_passed (h : checkForbidden casing statement = .ok ()) :
    ∀ e, Within e statement → kind e ∉ forbiddenTypes := by
  unfold checkForbidden at h
  split at h
  · next hnone =>
    have hall := head?_findAll_eq_none.mp hnone
    intro e he
    simpa using hall e he
  · split at h <;> cases h

/-- It refers to no denylisted table. -/
theorem checkSensitive_passed (h : checkSensitive guard casing statement = .ok ()) :
    ∀ e, Within e statement → sensitiveReference guard casing e = none := by
  unfold checkSensitive at h
  split at h
  · next hnone =>
    intro e he
    rw [referencedSensitiveTables, List.dedup_eq_nil, List.filterMap_eq_nil_iff] at hnone
    exact hnone e (mem_walk.mpr he)
  · cases h

/-- What a statement that passed all checks is. -/
structure Passed (guard : Guard) (casing : Casing) (statement : Expression) : Prop where
  /-- A `SELECT`. -/
  root : kind statement = .select
  /-- Without forbidden nodes. -/
  forbidden : ∀ e, Within e statement → kind e ∉ forbiddenTypes
  /-- Without denied calls. -/
  functions : ∀ e, Within e statement → deniedCall casing e = none
  /-- Without denylisted tables. -/
  sensitive : ∀ e, Within e statement → sensitiveReference guard casing e = none

/-- The checks establish that. -/
theorem checkStatement_passed (h : checkStatement guard casing statement = .ok ()) : Passed guard casing statement := by
  unfold checkStatement at h
  have hroot := passed_andThen h
  have hforbidden := passed_andThen hroot.2
  have hcte := passed_andThen hforbidden.2
  have hfunctions := passed_andThen hcte.2
  exact ⟨checkRoot_passed hroot.1, checkForbidden_passed hforbidden.1, refuseDenied_passed.mp hfunctions.1,
    checkSensitive_passed hfunctions.2⟩

/-- An accepted text is returned normalized, and is one statement that passed
the checks. -/
theorem validate_accepted (h : validate guard parser casing sql = .ok text) :
    text = normalized sql ∧
      ∃ statement, statements parser (normalized sql) = .ok [statement] ∧ Passed guard casing statement := by
  unfold validate at h
  split at h
  · cases h
  · split at h
    · cases h
    · cases h
    · next statement hparse =>
      split at h
      · cases h
      · next hchecks =>
        have htext : normalized sql = text := Except.ok.inj h
        exact ⟨htext.symm, statement, hparse, checkStatement_passed hchecks⟩
    · cases h

end Accepted

section ReadOnly

/-- The node classes that write data or schema. -/
def writingTypes : List NodeKind :=
  [.insert, .update, .delete, .merge, .truncateTable, .create, .alter, .drop, .grant, .revoke, .copy, .command,
    .multitableInserts, .comment, .loadData, .cache, .uncache, .refresh]

/-- A call of a function that writes, by its name in lower case. -/
def callsWriter (casing : Casing) (writer : String → Bool) (e : Expression) : Prop :=
  kind e = .anonymous ∧ writer (casing.lower (functionName e)) = true

/-- The node writes data or schema, creates a table from the result, or takes
row locks. -/
def Unsafe (casing : Casing) (writer : String → Bool) (e : Expression) : Prop :=
  kind e ∈ writingTypes ∨ callsWriter casing writer e ∨ kind e = .into ∨ kind e = .lock

/-- The node is a table reference or a column whose table or qualifier is this
identifier, quoted or not, with or without a schema before it. -/
def Mentions (e : Expression) (text : String) : Prop :=
  ∃ quoted, (kind e = .table ∧ argument e .this = some (identifier text quoted)) ∨
    (isColumn e = true ∧ argument e .table = some (identifier text quoted))

/-- One `SELECT` that reads, outside the sensitive tables. -/
structure ReadOnly (guard : Guard) (casing : Casing) (writer : String → Bool) (statement : Expression) :
    Prop where
  /-- A `SELECT`. -/
  root : kind statement = .select
  /-- At any depth nothing is unsafe. -/
  safe : ∀ e, Within e statement → ¬ Unsafe casing writer e
  /-- At any depth no sensitive table is named, whatever the case. -/
  outside : ∀ e, Within e statement → ∀ text, Mentions e text → casing.lower text ∉ guard.sensitiveTables

/-- The unsafe node classes the deny-list leaves out. -/
def unlistedTypes : List NodeKind :=
  [.into, .lock, .multitableInserts, .comment, .loadData, .cache, .uncache, .refresh]

/-- The deny-list leaves the node out: by its class, or as the call of a
function that writes. -/
def Unlisted (casing : Casing) (writer : String → Bool) (e : Expression) : Prop :=
  kind e ∈ unlistedTypes ∨ callsWriter casing writer e

variable {guard : Guard} {parser : SqlParser} {casing : Casing} {writer : String → Bool}
  {statement e : Expression} {sql text : String}

/-- A writing class is listed or left out. -/
theorem forbidden_or_unlisted_of_writing : ∀ k ∈ writingTypes, k ∈ forbiddenTypes ∨ k ∈ unlistedTypes := by decide

/-- A class left out writes, selects into a table or locks rows. -/
theorem writing_of_unlisted : ∀ k ∈ unlistedTypes, k ∈ writingTypes ∨ k = .into ∨ k = .lock := by decide

/-- An unsafe node is listed or left out. -/
theorem forbidden_or_unlisted (h : Unsafe casing writer e) : kind e ∈ forbiddenTypes ∨ Unlisted casing writer e := by
  rcases h with h | h | h | h
  · exact (forbidden_or_unlisted_of_writing _ h).imp_right .inl
  · exact .inr (.inr h)
  · exact .inr (.inl (by simp [h, unlistedTypes]))
  · exact .inr (.inl (by simp [h, unlistedTypes]))

/-- What is left out is unsafe. -/
theorem unsafe_of_unlisted (h : Unlisted casing writer e) : Unsafe casing writer e := by
  rcases h with h | h
  · exact (writing_of_unlisted _ h).imp_right .inr
  · exact .inr (.inl h)

/-- A node that refers to no denylisted table mentions none. -/
theorem not_sensitive_of_mentions (h : sensitiveReference guard casing e = none) (hm : Mentions e text) :
    casing.lower text ∉ guard.sensitiveTables := by
  intro hin
  have hnamed := guard.named _ hin
  obtain ⟨quoted, ⟨hkind, harg⟩ | ⟨hcolumn, harg⟩⟩ := hm
  · have hcolumn : isColumn e = false := by simp [isColumn, hkind]
    simp [sensitiveReference, hcolumn, hkind, tableName_eq harg, hin] at h
  · simp [sensitiveReference, hcolumn, columnTable_eq harg, hin, hnamed] at h

/-- What passed all checks is read-only exactly if the deny-list leaves none of
its nodes out. -/
theorem Passed.readOnly_iff (h : Passed guard casing statement) :
    ReadOnly guard casing writer statement ↔ ∀ e, Within e statement → ¬ Unlisted casing writer e := by
  constructor
  · intro hr e he hu
    exact hr.safe e he (unsafe_of_unlisted hu)
  · intro hc
    refine ⟨h.root, fun e he hu => ?_, fun e he text hm => not_sensitive_of_mentions (h.sensitive e he) hm⟩
    rcases forbidden_or_unlisted hu with hf | hu
    · exact h.forbidden e he hf
    · exact hc e he hu

/-- What the guard accepts is one `SELECT` outside the sensitive tables, and it
is read-only exactly if none of its nodes selects into a table, locks rows, is
of another writing class the deny-list leaves out, or calls a writing function. -/
theorem accepted_readOnly_iff (h : validate guard parser casing sql = .ok text) :
    ∃ statement, statements parser text = .ok [statement] ∧ kind statement = .select ∧
      (∀ e, Within e statement → ∀ name, Mentions e name → casing.lower name ∉ guard.sensitiveTables) ∧
      (ReadOnly guard casing writer statement ↔ ∀ e, Within e statement → ¬ Unlisted casing writer e) := by
  obtain ⟨rfl, statement, hparse, hpassed⟩ := validate_accepted h
  have houtside : ∀ e, Within e statement → ∀ name, Mentions e name → casing.lower name ∉ guard.sensitiveTables :=
    fun e he name hm => not_sensitive_of_mentions (hpassed.sensitive e he) hm
  exact ⟨statement, hparse, hpassed.root, houtside, hpassed.readOnly_iff⟩

/-- `SELECT * INTO t2 FROM orders`, as parsed. -/
def selectInto : Expression :=
  .node ⟨.select, [], false⟩
    [(.expressions, .node ⟨.star, [], false⟩ []),
      (.into, .node ⟨.into, [], false⟩ [(.this, .node ⟨.table, [], false⟩ [(.this, identifier "t2" false)])]),
      (.fromClause, .node ⟨.fromClause, [], false⟩
        [(.this, .node ⟨.table, [], false⟩ [(.this, identifier "orders" false)])])]

/-- A parser that knows that statement. -/
def intoParser : SqlParser where
  parse text := if text = "SELECT * INTO t2 FROM orders" then .ok [some selectInto] else .error (.sqlglotError "unknown")
  limitSql _ _ := ""

/-- The guard as the service builds it, with one sensitive table. -/
def usersGuard : Guard := sqlLabGuard asciiCasing ["users"] false

/-- The statement is accepted. -/
theorem accepted_readOnly_iff_into :
    validate usersGuard intoParser asciiCasing "SELECT * INTO t2 FROM orders" = .ok "SELECT * INTO t2 FROM orders" ∧
      ∃ statement, statements intoParser "SELECT * INTO t2 FROM orders" = .ok [statement] ∧
        kind statement = .select ∧
        (∀ e, Within e statement → ∀ name, Mentions e name → asciiCasing.lower name ∉ usersGuard.sensitiveTables) ∧
        (ReadOnly usersGuard asciiCasing (fun _ => false) statement ↔
          ∀ e, Within e statement → ¬ Unlisted asciiCasing (fun _ => false) e) := by
  have haccepted : validate usersGuard intoParser asciiCasing "SELECT * INTO t2 FROM orders" =
      .ok "SELECT * INTO t2 FROM orders" := by decide +kernel
  exact ⟨haccepted, accepted_readOnly_iff haccepted⟩

/-- It creates a table. -/
theorem accepted_selectInto :
    validate usersGuard intoParser asciiCasing "SELECT * INTO t2 FROM orders" = .ok "SELECT * INTO t2 FROM orders" ∧
      statements intoParser "SELECT * INTO t2 FROM orders" = .ok [selectInto] ∧
      ¬ ReadOnly usersGuard asciiCasing (fun _ => false) selectInto := by
  have haccepted : validate usersGuard intoParser asciiCasing "SELECT * INTO t2 FROM orders" =
      .ok "SELECT * INTO t2 FROM orders" := by decide +kernel
  refine ⟨haccepted, rfl, fun h => ?_⟩
  have hinto : (selectInto.children[1]) ∈ selectInto.children := List.getElem_mem _
  exact h.safe _ (.child hinto .root) (.inr (.inr (.inl rfl)))

end ReadOnly

end RagSystem.SqlLabGuard
