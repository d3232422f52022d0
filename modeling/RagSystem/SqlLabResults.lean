import RagSystem.SqlLabAudit

/-!
# What a SQL Lab result keeps of the database's

The driver turns every row into a dict by column name, the columns are listed
by position, and a reader looks a cell up by its column's name. Two columns of
one name share a cell.
-/

namespace RagSystem.SqlLabResults

open AtomicProgram ProgramPaths ProgramContracts ProgramEndings SqlSyntax SqlComments SqlLabGuard SqlLabService
  SqlLabAudit ExecutedText

set_option autoImplicit false

section Rows

/-- `row[name] = value` on a dict row: a new name goes to the end, an old one
keeps its place. -/
def setItem : Row → String → Value → Row
  | [], name, value => [(name, value)]
  | (other, old) :: row, name, value =>
    if name = other then (other, value) :: row else (other, old) :: setItem row name value

/-- `dict(zip(names, values))`, the row of psycopg's `dict_row`. -/
def dictRow (names : List String) (values : List Value) : Row :=
  (names.zip values).foldl (fun row item => setItem row item.1 item.2) []

/-- `row[column]`, as `toCsv` looks a cell up. -/
def cell (row : Row) (column : String) : Option Value := row.lookup column

/-- The first item, or the rest. -/
theorem cell_cons (item : String × Value) (row : Row) (column : String) :
    cell (item :: row) column = if column = item.1 then some item.2 else cell row column := by
  obtain ⟨name, value⟩ := item
  by_cases hc : column = name
  · simp [cell, hc]
  · have hbeq : (column == name) = false := by simpa using hc
    simp [cell, List.lookup_cons, hc, hbeq]

/-- A set item is found, and no other changes. -/
theorem cell_setItem (row : Row) (name column : String) (value : Value) :
    cell (setItem row name value) column = if column = name then some value else cell row column := by
  induction row with
  | nil => simp [setItem, cell_cons]
  | cons item row ih =>
    obtain ⟨other, old⟩ := item
    by_cases hn : name = other
    · subst hn
      by_cases hc : column = name <;> simp [setItem, cell_cons, hc]
    · by_cases hc : column = other
      · have hname : column ≠ name := fun h => hn (h.symm.trans hc)
        have hname' : other ≠ name := fun h => hn h.symm
        simp [setItem, cell_cons, hn, hc, hname']
      · simp [setItem, cell_cons, hn, hc, ih]

/-- Setting items one after the other: the last of a name counts. -/
theorem cell_foldl (items : List (String × Value)) (row : Row) (column : String) :
    cell (items.foldl (fun row item => setItem row item.1 item.2) row) column =
      (cell items.reverse column).or (cell row column) := by
  induction items using List.reverseRecOn with
  | nil => simp [cell]
  | append_singleton items item ih =>
    rw [List.foldl_append, List.foldl_cons, List.foldl_nil, cell_setItem, ih, List.reverse_append,
      List.reverse_singleton, List.singleton_append, cell_cons]
    split <;> simp

/-- What a dict row has under a name comes from a column of that name. -/
theorem cell_dictRow {names : List String} {values : List Value} (hlength : values.length = names.length) {i : ℕ}
    {column : String} (hi : names[i]? = some column) :
    ∃ j : ℕ, names[j]? = some column ∧ cell (dictRow names values) column = values[j]? := by
  have hcell : cell (dictRow names values) column = cell (names.zip values).reverse column := by
    unfold dictRow
    rw [cell_foldl]
    simp [cell]
  have hkeys : (names.zip values).map Prod.fst = names := List.map_fst_zip (by omega)
  have hin : column ∈ (names.zip values).map Prod.fst := by
    rw [hkeys]
    exact List.mem_of_getElem? hi
  obtain ⟨item, hitem, hname⟩ := List.mem_map.mp hin
  have hfound : ((names.zip values).reverse.lookup column).isSome = true := by
    rw [List.lookup_isSome_iff]
    exact ⟨item, List.mem_reverse.mpr hitem, by simp [hname]⟩
  obtain ⟨value, hvalue⟩ := Option.isSome_iff_exists.mp hfound
  obtain ⟨before, after, hsplit, -⟩ := List.lookup_eq_some_iff.mp hvalue
  have hmem : (column, value) ∈ names.zip values := by
    rw [← List.mem_reverse, hsplit]
    simp
  obtain ⟨j, hj⟩ := List.mem_iff_getElem?.mp hmem
  obtain ⟨hcolumn, hposition⟩ := List.getElem?_zip_eq_some.mp hj
  refine ⟨j, hcolumn, ?_⟩
  rw [hcell, hposition]
  exact hvalue

/-- A dict row reads back exactly if columns of one name hold one value. -/
theorem dictRow_readBack_iff {names : List String} {values : List Value} (hlength : values.length = names.length) :
    (∀ (i : ℕ) column, names[i]? = some column → cell (dictRow names values) column = values[i]?) ↔
      ∀ i j : ℕ, names[i]? = names[j]? → values[i]? = values[j]? := by
  constructor
  · intro hread i j hsame
    cases hi : names[i]? with
    | none =>
      have hjn : names[j]? = none := by rw [← hsame, hi]
      rw [List.getElem?_eq_none_iff] at hi hjn
      have hvi : values[i]? = none := List.getElem?_eq_none (by omega)
      have hvj : values[j]? = none := List.getElem?_eq_none (by omega)
      rw [hvi, hvj]
    | some column =>
      have hj : names[j]? = some column := by rw [← hsame, hi]
      rw [← hread i column hi, hread j column hj]
  · intro hsame i column hi
    obtain ⟨j, hj, hcell⟩ := cell_dictRow hlength hi
    rw [hcell]
    exact hsame j i (by rw [hj, hi])

end Rows

section Results

/-- What the database returned for a statement. -/
structure DatabaseResult where
  /-- The column names, by position. -/
  columns : List String
  /-- The rows, by position. -/
  rows : List (List Value)
  /-- Every row has a value for every column. -/
  widths : ∀ values ∈ rows, values.length = columns.length

/-- The driver's answers about a statement with this result. -/
def Driven (found : DatabaseResult) (sql : String) : SqlLabEvent → Prop
  | ⟨.execute statement _, .ok names⟩ => statement = sql → names = found.columns
  | ⟨.fetchmany size, .ok rows⟩ => rows = (found.rows.take size).map (dictRow found.columns)
  | _ => True

/-- The result keeps the database's. -/
structure Faithful (found : DatabaseResult) (limit : ℕ) (result : SqlRunResult) : Prop where
  /-- The columns are the database's. -/
  columns : result.columns = found.columns
  /-- The first rows up to the limit, in order. -/
  rows : result.rows = (found.rows.take limit).map (dictRow found.columns)
  /-- As many as there are, or as the limit allows. -/
  count : result.rows.length = min found.rows.length limit
  /-- Truncated when there were more. -/
  truncated : result.truncated = true ↔ limit < found.rows.length
  /-- The number of the returned rows. -/
  rowCount : result.rowCount = result.rows.length
  /-- What the database had in a column of a returned row is read under the name
  listed for that column. -/
  readBack : ∀ (k : ℕ) row values, result.rows[k]? = some row → found.rows[k]? = some values →
    ∀ (i : ℕ) column, result.columns[i]? = some column → cell row column = values[i]?

/-- In every returned row, columns of one name hold one value. -/
def Unambiguous (found : DatabaseResult) (limit : ℕ) : Prop :=
  ∀ values ∈ found.rows.take limit, ∀ i j : ℕ, found.columns[i]? = found.columns[j]? → values[i]? = values[j]?

variable {found : DatabaseResult} {settings : SqlLabSettings} {guard : Guard} {parser : SqlParser} {casing : Casing}
  {sql user : String} {h : SqlLabHistory} {result : SqlRunResult}

/-- Against that driver, as a program's contract about what it returns. -/
abbrev Delivers {α : Type} (found : DatabaseResult) (sql : String) (P : α → Prop) : SqlLab α → SqlLabHistory → Prop :=
  Ensures (fun _ e => Driven found sql e) (fun _ _ => True) (Returns fun _ a => P a)

/-- A program of whose value nothing is said. -/
theorem delivers_any {α : Type} (p : SqlLab α) (h : SqlLabHistory) : Delivers found sql (fun _ => True) p h := by
  have hlasting := Ensures.of_lasting (T := fun _ e => Driven found sql e) (G := fun _ _ => True) (I := fun _ => True)
    (fun _ _ _ => trivial) (fun _ _ _ => trivial) p (h := h) trivial
  exact hlasting.ending fun _ _ _ _ _ => trivial

/-- One after the other. -/
theorem delivers_after {α β : Type} {P : β → Prop} {p : SqlLab α} {f : α → SqlLab β}
    (hf : ∀ h a, Delivers found sql P (f a) h) : Delivers found sql P (p.bind f) h :=
  (delivers_any p h).andThen fun h a _ => hf h a

/-- What the executor fetched. -/
def Fetched (found : DatabaseResult) (limit : ℕ) (fetched : List String × List Row) : Prop :=
  fetched.1 = found.columns ∧ fetched.2 = (found.rows.take (limit + 1)).map (dictRow found.columns)

/-- The statement's columns and rows come back. -/
theorem delivers_fetchRows : Delivers found sql (Fetched found settings.rowLimit) (fetchRows settings sql) h := by
  have hexecute : Delivers found sql (fun names => names = found.columns) (call (.execute sql [])) h := by
    refine Ensures.perform (B := SqlLabAnswer) (a := .execute sql []) fun r ht => ⟨trivial, fun names hr => ?_⟩
    subst hr
    exact ht rfl
  refine Ensures.andThen hexecute fun h names hnames => ?_
  have hfetch : Delivers found sql (fun rows => rows = (found.rows.take (settings.rowLimit + 1)).map (dictRow found.columns))
      (call (.fetchmany (settings.rowLimit + 1))) h := by
    refine Ensures.perform (B := SqlLabAnswer) (a := .fetchmany (settings.rowLimit + 1)) fun r ht =>
      ⟨trivial, fun rows hr => ?_⟩
    subst hr
    exact ht
  exact Ensures.andThen hfetch fun h rows hrows => .returns ⟨hnames names rfl, hrows rows rfl⟩

/-- A failure of the statement delivers nothing. -/
theorem delivers_statementFailure {α : Type} {P : α → Prop} (e : SqlLabFailure) :
    Delivers found sql P (statementFailure settings e) h := by
  have hrollback (e : SqlLabFailure) : Delivers found sql P (rollbackWith e) h := delivers_after fun _ _ => .raises
  cases e <;> first | exact hrollback _ | exact .raises

/-- The listed columns are the database's, also when the cursor lists none. -/
theorem extractColumns_dictRows (limit : ℕ) :
    extractColumns found.columns ((found.rows.take limit).map (dictRow found.columns)) = found.columns := by
  unfold extractColumns
  by_cases hc : found.columns = []
  · rw [hc]
    cases hrows : found.rows.take limit with
    | nil => simp
    | cons values rows => simp [dictRow]
  · rw [if_pos hc]

/-- What the executor returned. -/
def Executed (found : DatabaseResult) (limit : ℕ) (result : ExecutionResult) : Prop :=
  result.columns = found.columns ∧ result.rows = (found.rows.take (limit + 1)).map (dictRow found.columns)

/-- The transaction returns them. -/
theorem delivers_transaction : Delivers found sql (Executed found settings.rowLimit) (transaction settings sql) h := by
  refine delivers_after fun h _ => delivers_after fun h _ => delivers_after fun h start => ?_
  have hstatement : Delivers found sql (Fetched found settings.rowLimit)
      ((fetchRows settings sql).catchError (statementFailure settings)) h :=
    Ensures.catchError delivers_fetchRows (fun _ _ hq => hq) fun _ e _ => delivers_statementFailure e
  refine Ensures.andThen hstatement fun h fetched hfetched => ?_
  obtain ⟨hcolumns, hrows⟩ := hfetched fetched rfl
  refine delivers_after fun h stop => delivers_after fun h _ => .returns ⟨?_, hrows⟩
  rw [hcolumns, hrows]
  exact extractColumns_dictRows _

/-- Closing delivers what its body delivers. -/
theorem delivers_closing {α : Type} {P : α → Prop} {body : SqlLab α} (hbody : Delivers found sql P body h) :
    Delivers found sql P (closing body) h := by
  have hended : Delivers found sql (fun r : Except SqlLabFailure α => ∀ a, r = .ok a → P a)
      ((body.bind fun a => .done (.ok a)).catchError fun e => .done (.error e)) h := by
    have hok : Delivers found sql (fun r : Except SqlLabFailure α => ∀ a, r = .ok a → P a)
        (body.bind fun a => .done (.ok a)) h := by
      refine Ensures.andThen hbody fun h a ha => .returns fun a' heq => ?_
      injection heq with heq
      exact heq ▸ ha a rfl
    exact Ensures.catchError hok (fun _ _ hq => hq) fun _ e _ => .returns fun _ heq => (nomatch heq)
  refine Ensures.andThen hended fun h r hr => delivers_after fun h _ => ?_
  cases r with
  | ok a => exact .returns (hr _ rfl a rfl)
  | error e => exact .raises

/-- So does the executor. -/
theorem delivers_execute : Delivers found sql (Executed found settings.rowLimit) (execute settings sql) h :=
  delivers_after fun _ _ => delivers_after fun _ _ => delivers_closing delivers_transaction

/-- The service shapes the executor's result. -/
theorem delivers_run : Delivers found sql (fun result => ∃ executed, Executed found settings.rowLimit executed ∧
    result = shape settings sql executed) (run settings guard parser casing sql user) h := by
  unfold run
  split
  · exact delivers_after fun _ _ => .raises
  · exact .raises
  · refine delivers_after fun h start => ?_
    have hfailed (e : SqlLabFailure) (h : SqlLabHistory) :
        Delivers found sql (Executed found settings.rowLimit) (executionFailed user sql start e) h := by
      unfold executionFailed
      split
      · exact .raises
      · exact delivers_after fun _ _ => delivers_after fun _ _ => .raises
    have hexecuted : Delivers found sql (Executed found settings.rowLimit)
        ((execute settings sql).catchError (executionFailed user sql start)) h :=
      Ensures.catchError delivers_execute (fun _ _ hq => hq) fun h e _ => hfailed e h
    exact Ensures.andThen hexecuted fun h executed he => delivers_after fun h _ => .returns ⟨executed, he executed rfl, rfl⟩

/-- A result of the first rows under the database's columns. -/
theorem faithful_iff {limit : ℕ} (hcolumns : result.columns = found.columns)
    (hrows : result.rows = (found.rows.take limit).map (dictRow found.columns))
    (htruncated : result.truncated = true ↔ limit < found.rows.length) (hcount : result.rowCount = result.rows.length) :
    Faithful found limit result ↔ Unambiguous found limit := by
  have hrow (k : ℕ) (values : List Value) (hk : (found.rows.take limit)[k]? = some values) :
      result.rows[k]? = some (dictRow found.columns values) := by
    rw [hrows, List.getElem?_map, hk, Option.map_some]
  constructor
  · intro hfaithful values hvalues
    obtain ⟨k, hk⟩ := List.mem_iff_getElem?.mp hvalues
    have hfound : found.rows[k]? = some values := by
      rw [List.getElem?_take] at hk
      split at hk
      · exact hk
      · contradiction
    have hwidth := found.widths values (List.mem_of_getElem? hfound)
    have hread := hfaithful.readBack k _ values (hrow k values hk) hfound
    rw [hcolumns] at hread
    exact (dictRow_readBack_iff hwidth).mp hread
  · intro hsame
    refine ⟨hcolumns, hrows, ?count, htruncated, hcount, ?readBack⟩
    case count =>
      rw [hrows, List.length_map, List.length_take]
      omega
    case readBack =>
      intro k row values hk hfound
      have hshort : k < limit := by
        have hlong := (List.getElem?_eq_some_iff.mp hk).1
        rw [hrows, List.length_map, List.length_take] at hlong
        omega
      have htaken : (found.rows.take limit)[k]? = some values := by
        rw [List.getElem?_take, if_pos hshort, hfound]
      have hthis : row = dictRow found.columns values := by
        rw [hrow k values htaken, Option.some.injEq] at hk
        exact hk.symm
      have hwidth := found.widths values (List.mem_of_getElem? hfound)
      rw [hthis, hcolumns]
      exact (dictRow_readBack_iff hwidth).mpr (hsame values (List.mem_of_getElem? htaken))

/-- A request that returns a result returns the first rows up to the limit, in
order, says truly whether there were more and how many it returns, and every
value is read back under its column's name, exactly if in each returned row
columns of one name hold one value. -/
theorem results_faithful_iff (hends : Ends (run settings guard parser casing sql user) h (.ok result))
    (hdriven : ∀ e ∈ h, Driven found sql e) :
    Faithful found settings.rowLimit result ↔ Unambiguous found settings.rowLimit := by
  have halong := (delivers_run (h := [])).along hends fun h' e es' he => hdriven e (by rw [he]; simp)
  obtain ⟨executed, ⟨hcolumns, hrows⟩, hshape⟩ := halong.1.of_done result rfl
  have hlength : executed.rows.length = min (settings.rowLimit + 1) found.rows.length := by
    rw [hrows, List.length_map, List.length_take]
  rw [hshape]
  refine faithful_iff hcolumns ?_ ?_ rfl
  · simp [shape, hrows, ← List.map_take, List.take_take]
  · simp only [shape, hlength, decide_eq_true_eq]
    omega

end Results

section Samples

/-- A database whose answers are this result's. -/
def respondWith (found : DatabaseResult) : Behaviour SqlLabFailure SqlLabAnswer
  | .execute _ _ => .ok found.columns
  | .fetchmany size => .ok ((found.rows.take size).map (dictRow found.columns))
  | a => sampleDatabase a

/-- It drives every request. -/
theorem driven_respondWith (found : DatabaseResult) (sql : String) :
    ∀ e ∈ (answered (respondWith found) sql).1, Driven found sql e := by
  intro e he
  have hanswer := answer_against (respondWith found) (sampleRun sql) e he
  obtain ⟨a, x⟩ := e
  have hanswer : x = respondWith found a := hanswer
  subst hanswer
  cases a with
  | execute statement parameters => exact fun _ => rfl
  | fetchmany size => exact rfl
  | _ => trivial

/-- `SELECT id, name`: the names differ. -/
def named : DatabaseResult where
  columns := ["id", "name"]
  rows := [[.int 1, .text "a"], [.int 2, .null]]
  widths := by decide

/-- `SELECT a.id, b.id` over a row in which the two differ. -/
def joined : DatabaseResult where
  columns := ["id", "id"]
  rows := [[.int 1, .int 2]]
  widths := by decide

/-- What the service returns of each. -/
def namedResult : SqlRunResult :=
  ⟨["id", "name"], [[("id", .int 1), ("name", .text "a")], [("id", .int 2), ("name", .null)]], 2, 0, "SELECT 1", false⟩

def joinedResult : SqlRunResult := ⟨["id", "id"], [[("id", .int 2)]], 1, 0, "SELECT 1", false⟩

/-- A request that was answered with a result. -/
theorem ends_respondWith (found : DatabaseResult) (result : SqlRunResult)
    (hresult : (answered (respondWith found) "SELECT 1").2.toOption = some result) :
    Ends (sampleRun "SELECT 1") (answered (respondWith found) "SELECT 1").1 (.ok result) := by
  have hends := ends_against (respondWith found) (sampleRun "SELECT 1")
  have hok : (answered (respondWith found) "SELECT 1").2 = .ok result := by
    cases hr : (answered (respondWith found) "SELECT 1").2 with
    | ok returned =>
      rw [hr] at hresult
      exact congrArg _ (Option.some.inj hresult)
    | error e =>
      rw [hr] at hresult
      contradiction
  rwa [hok] at hends

theorem results_faithful_iff_sample : Ends (sampleRun "SELECT 1") (answered (respondWith named) "SELECT 1").1
    (.ok namedResult) ∧ (Faithful named 100 namedResult ↔ Unambiguous named 100) := by
  have hends := ends_respondWith named namedResult (by decide +kernel)
  exact ⟨hends, results_faithful_iff hends (driven_respondWith named "SELECT 1")⟩

/-- The first `id` of the join is lost: its only row says 2 under both. -/
theorem joined_loses_value : Ends (sampleRun "SELECT 1") (answered (respondWith joined) "SELECT 1").1
    (.ok joinedResult) ∧ (∀ e ∈ (answered (respondWith joined) "SELECT 1").1, Driven joined "SELECT 1" e) ∧
    joined.rows = [[.int 1, .int 2]] ∧ joinedResult.rows = [[("id", .int 2)]] ∧ ¬ Faithful joined 100 joinedResult := by
  have hends := ends_respondWith joined joinedResult (by decide +kernel)
  refine ⟨hends, driven_respondWith joined "SELECT 1", rfl, rfl, fun hfaithful => ?_⟩
  have hread := hfaithful.readBack 0 _ _ rfl rfl 0 "id" rfl
  simp [cell] at hread

end Samples

end RagSystem.SqlLabResults
