import Mathlib.Data.Rat.Floor
import RagSystem.ProgramContracts
import RagSystem.SqlLabGuard

/-!
# The SQL Lab service

One request: the guard, the read-only transaction on the viewer connection,
the shaped result and the audit record. What the database driver, the clock and
the audit store do is left open; every call of theirs may raise.
-/

namespace RagSystem.SqlLabService

open AtomicProgram ProgramPaths ProgramContracts SqlSyntax SqlComments SqlLabGuard

set_option autoImplicit false

section Models

/-- The exceptions of a request. -/
inductive SqlLabFailure where
  /-- `SqlLabValidationError`. -/
  | validation (message : String)
  /-- `SqlLabConfigError`. -/
  | config (message : String)
  /-- `SqlLabConnectionError`. -/
  | connection (message : String)
  /-- `SqlLabTimeoutError`. -/
  | timeout (message : String)
  /-- `SqlLabExecutionError`. -/
  | execution (message : String)
  /-- `SqlLabAuditError`. -/
  | audit (message : String)
  /-- `psycopg.errors.QueryCanceled`, an `OperationalError`. -/
  | queryCanceled (message : String)
  /-- Another `psycopg.OperationalError`. -/
  | operational (message : String)
  /-- Another `psycopg.Error`. -/
  | database (message : String)
  /-- Any other exception. -/
  | other (message : String)
deriving DecidableEq

/-- `isinstance(exc, SqlLabError)`, with `str(exc)`. -/
def sqlLabError : SqlLabFailure → Option String
  | .config message => some message
  | .connection message => some message
  | .timeout message => some message
  | .execution message => some message
  | .audit message => some message
  | _ => none

/-- A value of a result row. -/
inductive Value where
  | null
  | bool (b : Bool)
  | int (n : Int)
  | text (s : String)
  | other (repr : String)
deriving DecidableEq

/-- A dict row: names with values, no name twice. -/
abbrev Row := List (String × Value)

/-- The settings the service reads. -/
structure SqlLabSettings where
  /-- `SQL_VIEWER_DB_USER`. -/
  viewerDbUser : Option String
  /-- `SQL_VIEWER_DB_PASSWORD`. -/
  viewerDbPassword : Option String
  /-- `SQL_LAB_ROW_LIMIT`. -/
  rowLimit : ℕ
  /-- `SQL_LAB_STATEMENT_TIMEOUT_MS`. -/
  statementTimeoutMs : ℕ

/-- `ExecutionResult`. -/
structure ExecutionResult where
  columns : List String
  rows : List Row
  rowCount : ℕ
  durationMs : Int
  truncated : Bool
deriving DecidableEq

/-- `SqlRunResult`. -/
structure SqlRunResult where
  columns : List String
  rows : List Row
  rowCount : ℕ
  durationMs : Int
  sql : String
  truncated : Bool
deriving DecidableEq

/-- `AuditOutcome`. -/
inductive AuditOutcome where
  | success
  | error
  | rejected
deriving DecidableEq

/-- `SqlLabAuditRecord`. -/
structure SqlLabAuditRecord where
  id : String
  userIdentity : String
  sql : String
  createdAt : ℕ
  outcome : AuditOutcome
  durationMs : Option Int
  rowCount : Option ℕ
  errorDetail : Option String
deriving DecidableEq

/-- The calls. -/
inductive SqlLabCall where
  /-- `psycopg.connect` with the viewer's credentials. -/
  | connect (user password : String)
  /-- `conn.execute` of a statement with its parameters; the cursor's column
  names come back. -/
  | execute (statement : String) (parameters : List String)
  /-- `cur.fetchmany`. -/
  | fetchmany (size : ℕ)
  /-- `conn.rollback`. -/
  | rollback
  /-- `conn.close`. -/
  | close
  /-- `time.perf_counter`, in seconds. -/
  | perfCounter
  /-- `uuid.uuid4`. -/
  | uuid4
  /-- `datetime.now`. -/
  | utcnow
  /-- Insert an audit record in a transaction of its own. -/
  | insertAudit (record : SqlLabAuditRecord)
deriving DecidableEq

/-- What each call returns. -/
abbrev SqlLabAnswer : SqlLabCall → Type
  | .connect _ _ => Unit
  | .execute _ _ => List String
  | .fetchmany _ => List Row
  | .rollback => Unit
  | .close => Unit
  | .perfCounter => ℚ
  | .uuid4 => String
  | .utcnow => ℕ
  | .insertAudit _ => Unit

/-- A part of a request. -/
abbrev SqlLab := Program SqlLabFailure SqlLabAnswer

/-- One performed call. -/
abbrev SqlLabEvent := Event SqlLabFailure SqlLabAnswer

/-- Perform a call. -/
def call (a : SqlLabCall) : SqlLab (SqlLabAnswer a) := perform a

/-- The performed calls. -/
abbrev SqlLabHistory := History SqlLabFailure SqlLabAnswer

end Models

section Executor

/-- Run a part and then `conn.close`, however the part ends. -/
def closing {α : Type} (body : SqlLab α) : SqlLab α :=
  ((body.bind fun a => .done (.ok a)).catchError fun e => .done (.error e)).bind fun (r : Except SqlLabFailure α) =>
    (call .close).bind fun _ =>
      match r with
      | .ok a => .done a
      | .error e => .raise e

/-- The viewer's settings that are missing. -/
def missingCredentials (settings : SqlLabSettings) : List String :=
  (if settings.viewerDbUser.getD "" = "" then ["SQL_VIEWER_DB_USER"] else []) ++
    if settings.viewerDbPassword.getD "" = "" then ["SQL_VIEWER_DB_PASSWORD"] else []

/-- `require_sql_viewer_credentials`. -/
def requireSqlViewerCredentials (settings : SqlLabSettings) : SqlLab (String × String) :=
  match missingCredentials settings with
  | [] => .done (settings.viewerDbUser.getD "", settings.viewerDbPassword.getD "")
  | missing =>
    let names := ", ".intercalate missing
    .raise (.config s!"Missing SQL Lab configuration: {names}")

/-- `psycopg.connect`, a failure told without the credentials. -/
def connectViewer (user password : String) : SqlLab Unit :=
  (call (.connect user password)).catchError fun
    | .queryCanceled _ => .raise (.connection "Failed to connect to the SQL Lab viewer database.")
    | .operational _ => .raise (.connection "Failed to connect to the SQL Lab viewer database.")
    | e => .raise e

/-- `int((end - start) * 1000)`. -/
def elapsedMs (start stop : ℚ) : Int := ((stop - start) * 1000).floor

/-- Make the transaction read-only. -/
def setReadOnly : SqlLabCall := .execute "SET TRANSACTION READ ONLY" []

/-- Limit the statement's time in the transaction. -/
def setTimeout (settings : SqlLabSettings) : SqlLabCall :=
  .execute "SELECT set_config('statement_timeout', %s, true)" [toString settings.statementTimeoutMs]

/-- Execute the statement and fetch one row more than the limit. -/
def fetchRows (settings : SqlLabSettings) (sql : String) : SqlLab (List String × List Row) :=
  (call (.execute sql [])).bind fun description =>
  (call (.fetchmany (settings.rowLimit + 1))).bind fun fetched => .done (description, fetched)

/-- Roll back and raise what the service knows. -/
def rollbackWith {α : Type} (e : SqlLabFailure) : SqlLab α := (call .rollback).bind fun _ => .raise e

/-- What a database error of the statement becomes. -/
def statementFailure {α : Type} (settings : SqlLabSettings) : SqlLabFailure → SqlLab α
  | .queryCanceled _ =>
    let timeout := settings.statementTimeoutMs
    rollbackWith (.timeout s!"Query exceeded the statement timeout of {timeout} ms.")
  | .operational message => rollbackWith (.execution message)
  | .database message => rollbackWith (.execution message)
  | e => .raise e

/-- `_extract_columns`. -/
def extractColumns (description : List String) (rows : List Row) : List String :=
  if description ≠ [] then description else (rows.head?.map fun row => row.map Prod.fst).getD []

/-- The transaction. -/
def transaction (settings : SqlLabSettings) (sql : String) : SqlLab ExecutionResult :=
  (call setReadOnly).bind fun _ =>
  (call (setTimeout settings)).bind fun _ =>
  (call .perfCounter).bind fun start =>
  ((fetchRows settings sql).catchError (statementFailure settings)).bind fun fetched =>
  (call .perfCounter).bind fun stop =>
  (call .rollback).bind fun _ =>
  .done ⟨extractColumns fetched.1 fetched.2, fetched.2, fetched.2.length, elapsedMs start stop,
    decide (settings.rowLimit < fetched.2.length)⟩

/-- `SqlLabExecutor.execute`. -/
def execute (settings : SqlLabSettings) (sql : String) : SqlLab ExecutionResult :=
  (requireSqlViewerCredentials settings).bind fun credentials =>
  (connectViewer credentials.1 credentials.2).bind fun _ => closing (transaction settings sql)

end Executor

section Service

/-- `AUDIT_MAX_SQL_LENGTH`. -/
def auditMaxSqlLength : ℕ := 10000

/-- `SqlLabAuditStore.persist`: every failure is an audit failure. -/
def persist (record : SqlLabAuditRecord) : SqlLab Unit :=
  (call (.insertAudit record)).catchError fun
    | .audit message => .raise (.audit message)
    | _ => .raise (.audit "Failed to persist the SQL Lab audit record.")

/-- `_record`, with `SqlLabAuditRecord.create`. -/
def record (userIdentity sql : String) (outcome : AuditOutcome) (durationMs : Option Int) (rowCount : Option ℕ)
    (errorDetail : Option String) : SqlLab Unit :=
  (call .utcnow).bind fun stamped =>
  (call .uuid4).bind fun id =>
  persist ⟨id, userIdentity, String.ofList (sql.toList.take auditMaxSqlLength), stamped, outcome, durationMs, rowCount,
    errorDetail⟩

/-- What a failed execution leaves: an error record if the service knows the
exception. -/
def executionFailed {α : Type} (userIdentity sql : String) (start : ℚ) (e : SqlLabFailure) : SqlLab α :=
  match sqlLabError e with
  | none => .raise e
  | some detail =>
    (call .perfCounter).bind fun stop =>
    (record userIdentity sql .error (some (elapsedMs start stop)) none (some detail)).bind fun _ => .raise e

/-- The result as the service shapes it. -/
def shape (settings : SqlLabSettings) (sql : String) (result : ExecutionResult) : SqlRunResult :=
  let trimmedRows := result.rows.take settings.rowLimit
  ⟨result.columns, trimmedRows, trimmedRows.length, result.durationMs, sql,
    decide (settings.rowLimit < result.rows.length)⟩

/-- Execute an approved statement, record the outcome and return the result. -/
def runApproved (settings : SqlLabSettings) (sql userIdentity : String) : SqlLab SqlRunResult :=
  (call .perfCounter).bind fun start =>
  ((execute settings sql).catchError (executionFailed userIdentity sql start)).bind fun result =>
  let runResult := shape settings sql result
  (record userIdentity sql .success (some result.durationMs) (some runResult.rowCount) none).bind fun _ =>
  .done runResult

/-- `SqlLabService.run`. -/
def run (settings : SqlLabSettings) (guard : Guard) (parser : SqlParser) (casing : Casing) (sql userIdentity : String) :
    SqlLab SqlRunResult :=
  match validate guard parser casing sql with
  | .error (.rejected e) =>
    (record userIdentity sql .rejected none none (some e.message)).bind fun _ => .raise (.validation e.message)
  | .error (.raised message) => .raise (.other message)
  | .ok _ => runApproved settings sql userIdentity

end Service

section Executed

/-- The call hands a statement to the database: one of the session's, or this. -/
def Submits (settings : SqlLabSettings) (sql : String) : SqlLabCall → Prop
  | .execute statement parameters =>
    .execute statement parameters = setReadOnly ∨ .execute statement parameters = setTimeout settings ∨ statement = sql
  | _ => True

/-- The call is one of the executor's. -/
def ExecutorCall (settings : SqlLabSettings) (sql : String) : SqlLabCall → Prop
  | .connect _ _ | .fetchmany _ | .rollback | .close | .perfCounter => True
  | .execute statement parameters => Submits settings sql (.execute statement parameters)
  | _ => False

/-- The call hands no statement to the database. -/
def Silent : SqlLabCall → Prop
  | .execute _ _ => False
  | _ => True

variable {settings : SqlLabSettings} {guard : Guard} {parser : SqlParser} {casing : Casing} {sql user : String}
  {α : Type}

/-- A silent call submits nothing else. -/
theorem submits_of_silent (a : SqlLabCall) (h : Silent a) : Submits settings sql a := by
  cases a with
  | execute statement parameters => exact False.elim h
  | _ => trivial

/-- A call is used by itself. -/
theorem uses_call {S : SqlLabCall → Prop} {a : SqlLabCall} (h : S a) : (call a).Uses S := Program.uses_perform h

/-- Recording submits no statement. -/
theorem record_silent {outcome : AuditOutcome} {durationMs : Option Int} {rowCount : Option ℕ}
    {errorDetail : Option String} : (record user sql outcome durationMs rowCount errorDetail).Uses Silent := by
  have hpersist : ∀ r, (persist r).Uses Silent := by
    intro r
    have hinsert : (call (.insertAudit r)).Uses Silent := uses_call trivial
    exact hinsert.catchError fun e => by cases e <;> trivial
  have hnow : (call .utcnow).Uses Silent := uses_call trivial
  have hid : (call .uuid4).Uses Silent := uses_call trivial
  exact hnow.bind fun _ => hid.bind fun _ => hpersist _

/-- Nor does closing add one. -/
theorem closing_uses {S : SqlLabCall → Prop} {body : SqlLab α} (hbody : body.Uses S) (hclose : S .close) :
    (closing body).Uses S := by
  have hended : (body.bind fun a => .done (.ok a) : SqlLab (Except SqlLabFailure α)).Uses S :=
    hbody.bind fun _ => trivial
  have hcaught := hended.catchError (f := fun e => .done (.error e)) fun _ => trivial
  exact hcaught.bind fun r => (uses_call hclose).bind fun _ => by cases r <;> trivial

/-- The executor's calls submit the session's statements and its own. -/
theorem submits_of_executorCall (a : SqlLabCall) (h : ExecutorCall settings sql a) : Submits settings sql a := by
  cases a with
  | execute statement parameters => exact h
  | _ => trivial

/-- The handler of a failed statement rolls back at most. -/
theorem statementFailure_calls {e : SqlLabFailure} :
    (statementFailure settings e : SqlLab α).Uses (ExecutorCall settings sql) := by
  have hrollback : ∀ e', (rollbackWith e' : SqlLab α).Uses (ExecutorCall settings sql) :=
    fun e' => (uses_call trivial).bind fun _ => trivial
  cases e <;> first | trivial | exact hrollback _

/-- The transaction makes the executor's calls. -/
theorem transaction_calls : (transaction settings sql).Uses (ExecutorCall settings sql) := by
  have hreadOnly : (call setReadOnly).Uses (ExecutorCall settings sql) := uses_call (.inl rfl)
  have htimeout : (call (setTimeout settings)).Uses (ExecutorCall settings sql) := uses_call (.inr (.inl rfl))
  have hclock : (call .perfCounter).Uses (ExecutorCall settings sql) := uses_call trivial
  have hrollback : (call .rollback).Uses (ExecutorCall settings sql) := uses_call trivial
  have hstatement : (call (.execute sql [])).Uses (ExecutorCall settings sql) := uses_call (.inr (.inr rfl))
  have hfetch : (fetchRows settings sql).Uses (ExecutorCall settings sql) :=
    hstatement.bind fun _ => (uses_call trivial).bind fun _ => trivial
  have hcaught := hfetch.catchError (f := statementFailure settings) fun _ => statementFailure_calls
  exact hreadOnly.bind fun _ => htimeout.bind fun _ => hclock.bind fun _ => hcaught.bind fun _ =>
    hclock.bind fun _ => hrollback.bind fun _ => trivial

/-- So does the executor. -/
theorem execute_calls : (execute settings sql).Uses (ExecutorCall settings sql) := by
  have hcredentials : (requireSqlViewerCredentials settings).Uses (ExecutorCall settings sql) := by
    unfold requireSqlViewerCredentials
    split <;> trivial
  have hconnect : ∀ u p, (connectViewer u p).Uses (ExecutorCall settings sql) := by
    intro u p
    have hcall : (call (.connect u p)).Uses (ExecutorCall settings sql) := uses_call trivial
    exact hcall.catchError fun e => by cases e <;> trivial
  exact hcredentials.bind fun _ => (hconnect _ _).bind fun _ => closing_uses transaction_calls trivial

/-- Once approved, a statement is the only one submitted besides the session's. -/
theorem runApproved_submits : (runApproved settings sql user).Uses (Submits settings sql) := by
  have hclock : (call .perfCounter).Uses (Submits settings sql) := uses_call trivial
  have hrecord : ∀ o d c e, (record user sql o d c e).Uses (Submits settings sql) :=
    fun _ _ _ _ => record_silent.mono submits_of_silent
  have hfailed : ∀ start e, (executionFailed user sql start e : SqlLab ExecutionResult).Uses (Submits settings sql) := by
    intro start e
    unfold executionFailed
    split
    · trivial
    · exact hclock.bind fun _ => (hrecord _ _ _ _).bind fun _ => trivial
  have hexecute : (execute settings sql).Uses (Submits settings sql) := execute_calls.mono submits_of_executorCall
  exact hclock.bind fun _ => (hexecute.catchError (hfailed _)).bind fun _ =>
    (hrecord _ _ _ _).bind fun _ => trivial

/-- Every statement a request hands to the database is one of the session's, or
the submitted text, and then the guard accepted it. -/
theorem run_submits {h : SqlLabHistory} {p : SqlLab SqlRunResult}
    (hpath : Path (run settings guard parser casing sql user) h p) {e : SqlLabEvent} (he : e ∈ h)
    {statement : String} {parameters : List String} (hcall : e.action = .execute statement parameters)
    (hreadOnly : e.action ≠ setReadOnly) (htimeout : e.action ≠ setTimeout settings) :
    statement = sql ∧ ∃ text, validate guard parser casing sql = .ok text := by
  unfold run at hpath
  split at hpath
  · have hsilent := hpath.uses (record_silent.bind fun _ => trivial) e he
    rw [hcall] at hsilent
    exact False.elim hsilent
  · obtain ⟨rfl, -⟩ := Path.of_raise hpath
    exact absurd he List.not_mem_nil
  · next text haccepted =>
    have hsubmits := hpath.uses runApproved_submits e he
    rw [hcall] at hsubmits hreadOnly htimeout
    rcases hsubmits with h | h | h
    · exact absurd h hreadOnly
    · exact absurd h htimeout
    · exact ⟨h, text, haccepted⟩

end Executed

end RagSystem.SqlLabService
