import RagSystem.ProgramEndings
import RagSystem.ExecutedText

/-!
# The audit record of a request

A request attempts one audit record if whatever fails becomes one of the
service's own exceptions. The executor turns a failed connection and a failed
statement into those; the session's statements, the rollback and the closing of
the connection have no clause, and neither has a parser that breaks down.
-/

namespace RagSystem.SqlLabAudit

open AtomicProgram ProgramPaths ProgramContracts ProgramEndings SqlSyntax SqlComments SqlLabGuard SqlLabService ExecutedText

set_option autoImplicit false

section Answers

/-- `psycopg.OperationalError`. -/
def isOperationalError : SqlLabFailure → Bool
  | .queryCanceled _ => true
  | .operational _ => true
  | _ => false

/-- `psycopg.Error`. -/
def isDatabaseError : SqlLabFailure → Bool
  | .queryCanceled _ => true
  | .operational _ => true
  | .database _ => true
  | _ => false

/-- The clocks and the id source answer, and the driver raises none of the
service's own exceptions. The audit store may raise anything. -/
def Plausible : SqlLabEvent → Prop
  | ⟨.perfCounter, .error _⟩ => False
  | ⟨.uuid4, .error _⟩ => False
  | ⟨.utcnow, .error _⟩ => False
  | ⟨.insertAudit _, _⟩ => True
  | ⟨_, .error e⟩ => sqlLabError e = none
  | _ => True

/-- The call is an attempt to store an audit record. -/
def isAudit : SqlLabEvent → Bool
  | ⟨.insertAudit _, _⟩ => true
  | _ => false

/-- The call goes to the database of the statement. -/
def isDatabaseCall : SqlLabCall → Bool
  | .connect _ _ => true
  | .execute _ _ => true
  | .fetchmany _ => true
  | .rollback => true
  | .close => true
  | _ => false

/-- The call hands over a statement. -/
def isStatement : SqlLabEvent → Bool
  | ⟨.execute _ _, _⟩ => true
  | _ => false

/-- No clause of the executor is for this failure, after `n` statements. The
first two statements are the session's. -/
def unmapped (n : ℕ) : SqlLabEvent → Bool
  | ⟨.connect _ _, .error e⟩ => !isOperationalError e
  | ⟨.execute _ _, .error e⟩ => n < 2 || !isDatabaseError e
  | ⟨.fetchmany _, .error e⟩ => !isDatabaseError e
  | ⟨.rollback, .error _⟩ => true
  | ⟨.close, .error _⟩ => true
  | _ => false

/-- A failure of the driver passes through the executor as it is, after `n`
statements. -/
def escapes (n : ℕ) : SqlLabHistory → Bool
  | [] => false
  | e :: h => unmapped n e || escapes (if isStatement e then n + 1 else n) h

/-- What one part performed, then the next. -/
theorem escapes_append (n : ℕ) (h h' : SqlLabHistory) :
    escapes n (h ++ h') = (escapes n h || escapes (n + h.countP isStatement) h') := by
  induction h generalizing n with
  | nil => rfl
  | cons e h ih =>
    have hcount : (if isStatement e then n + 1 else n) + h.countP isStatement = n + (e :: h).countP isStatement := by
      rw [List.countP_cons]
      split
      · omega
      · omega
    simp only [List.cons_append, escapes, ih, hcount, Bool.or_assoc]

end Answers

section Executor

variable {α β : Type} {n : ℕ}

/-- The part, begun after `n` statements, ends in an exception the service does
not know exactly if a failure of the driver passed through it. -/
def Told (n : ℕ) (p : SqlLab α) : Prop :=
  ∀ h r, Ends p h r → (∀ e ∈ h, Plausible e) → (escapes n h = true ↔ ∃ e, r = .error e ∧ sqlLabError e = none)

/-- Returning. -/
theorem Told.done (a : α) : Told n (.done a) := by
  intro h r hends _
  obtain ⟨rfl, rfl⟩ := ends_done.mp hends
  constructor
  · intro he
    contradiction
  · rintro ⟨e, he, -⟩
    contradiction

/-- Raising one of the service's exceptions. -/
theorem Told.raise {e : SqlLabFailure} (he : (sqlLabError e).isSome = true) : Told n (.raise e : SqlLab α) := by
  intro h r hends _
  obtain ⟨rfl, rfl⟩ := ends_raise.mp hends
  constructor
  · intro hesc
    contradiction
  · rintro ⟨e', heq, hnone⟩
    injection heq with heq
    rw [heq, hnone] at he
    contradiction

/-- One part after another. -/
theorem Told.bind {p : SqlLab α} {f : α → SqlLab β} (hp : Told n p)
    (hf : ∀ a h, Ends p h (.ok a) → Told (n + h.countP isStatement) (f a)) : Told n (p.bind f) := by
  intro h r hends hsane
  rcases ends_bind.mp hends with ⟨a, h₁, h₂, rfl, hfirst, hsecond⟩ | ⟨e, rfl, hraised⟩
  · have hquiet : escapes n h₁ = false := by
      rw [← Bool.not_eq_true]
      intro hesc
      obtain ⟨e, he, -⟩ := (hp h₁ _ hfirst fun e he => hsane e (List.mem_append_left _ he)).mp hesc
      contradiction
    rw [escapes_append, hquiet, Bool.false_or]
    exact hf a h₁ hfirst h₂ r hsecond fun e he => hsane e (List.mem_append_right _ he)
  · have htold := hp h _ hraised hsane
    rw [htold]
    constructor
    · rintro ⟨e', heq, hnone⟩
      injection heq with heq
      exact ⟨e, rfl, heq ▸ hnone⟩
    · rintro ⟨e', heq, hnone⟩
      injection heq with heq
      exact ⟨e, rfl, heq ▸ hnone⟩

/-- A call whose failures have no clause. -/
theorem Told.call {a : SqlLabCall} (hok : ∀ x, unmapped n ⟨a, .ok x⟩ = false)
    (herror : ∀ e, Plausible ⟨a, .error e⟩ → unmapped n ⟨a, .error e⟩ = true ∧ sqlLabError e = none) :
    Told n (call a) := by
  intro h r hends hsane
  cases ends_perform.mp hends
  have hone := hsane _ (List.mem_singleton_self _)
  cases r with
  | ok x =>
    rw [escapes, hok x, Bool.false_or]
    constructor
    · intro hesc
      contradiction
    · rintro ⟨e, he, -⟩
      contradiction
  | error e =>
    obtain ⟨hunmapped, hnone⟩ := herror e hone
    rw [escapes, hunmapped, Bool.true_or]
    exact ⟨fun _ => ⟨e, rfl, hnone⟩, fun _ => rfl⟩

/-- How many statements one call is. -/
theorem countP_of_call {a : SqlLabCall} {x : SqlLabAnswer a} {h : SqlLabHistory} (hends : Ends (call a) h (.ok x)) :
    h.countP isStatement = if isStatement ⟨a, .ok x⟩ then 1 else 0 := by
  rw [ends_perform.mp hends, List.countP_singleton]

variable {settings : SqlLabSettings} {sql : String}

/-- Connecting. -/
theorem told_connectViewer (user password : String) : Told n (connectViewer user password) := by
  intro h r hends hsane
  rcases ends_catchError.mp hends with ⟨a, rfl, hok⟩ | ⟨e, h₁, h₂, rfl, hraised, hhandled⟩
  · rw [ends_perform.mp hok]
    constructor
    · intro hesc
      contradiction
    · rintro ⟨e, he, -⟩
      contradiction
  · rw [ends_perform.mp hraised] at hsane ⊢
    have hnone : sqlLabError e = none := hsane _ (List.mem_append_left _ (List.mem_singleton_self _))
    cases e with
    | queryCanceled m =>
      obtain ⟨rfl, rfl⟩ := ends_raise.mp hhandled
      simp [escapes, unmapped, isOperationalError, sqlLabError]
    | operational m =>
      obtain ⟨rfl, rfl⟩ := ends_raise.mp hhandled
      simp [escapes, unmapped, isOperationalError, sqlLabError]
    | _ =>
      obtain ⟨rfl, rfl⟩ := ends_raise.mp hhandled
      simp [escapes, unmapped, isOperationalError, hnone]

/-- Executing and fetching: nothing escapes a success, and a failure escapes if
it is not one of the database. -/
theorem escapes_fetchRows (hn : 2 ≤ n) {h : SqlLabHistory} {r : Except SqlLabFailure (List String × List Row)}
    (hends : Ends (fetchRows settings sql) h r) (hsane : ∀ e ∈ h, Plausible e) :
    (∀ x, r = .ok x → escapes n h = false) ∧
      ∀ e, r = .error e → escapes n h = !isDatabaseError e ∧ sqlLabError e = none := by
  have hlate : decide (n < 2) = false := decide_eq_false (by omega)
  rcases ends_perform_bind.mp hends with ⟨d, h₁, rfl, hfetch⟩ | ⟨e, rfl, rfl⟩
  · rcases ends_perform_bind.mp hfetch with ⟨rows, h₂, rfl, hdone⟩ | ⟨e, rfl, rfl⟩
    · obtain ⟨rfl, rfl⟩ := ends_done.mp hdone
      exact ⟨fun _ _ => rfl, fun _ he => (nomatch he)⟩
    · have hnone : sqlLabError e = none := hsane _ (List.mem_cons_of_mem _ (List.mem_singleton_self _))
      refine ⟨fun _ he => (nomatch he), fun e' he => ?_⟩
      injection he with he
      subst he
      simp [escapes, unmapped, hnone]
  · have hnone : sqlLabError e = none := hsane _ (List.mem_singleton_self _)
    refine ⟨fun _ he => (nomatch he), fun e' he => ?_⟩
    injection he with he
    subst he
    rw [escapes, escapes, unmapped, hlate, Bool.false_or, Bool.or_false]
    exact ⟨rfl, hnone⟩

/-- Rolling back for one of the service's exceptions. -/
theorem told_rollbackWith {e : SqlLabFailure} (he : (sqlLabError e).isSome = true) :
    Told n (rollbackWith e : SqlLab α) :=
  Told.bind (.call (fun _ => rfl) fun _ hp => ⟨rfl, hp⟩) fun _ _ _ => .raise he

/-- What becomes of a failure of the statement. -/
theorem told_statementFailure {e : SqlLabFailure} (he : isDatabaseError e = true) :
    Told n (statementFailure settings e : SqlLab α) := by
  cases e with
  | queryCanceled m => exact told_rollbackWith rfl
  | operational m => exact told_rollbackWith rfl
  | database m => exact told_rollbackWith rfl
  | _ => contradiction

/-- Another failure passes. -/
theorem statementFailure_eq_raise {e : SqlLabFailure} (he : isDatabaseError e = false) :
    (statementFailure settings e : SqlLab α) = .raise e := by
  cases e <;> first | rfl | contradiction

/-- The statement, past the session's. -/
theorem told_statement (hn : 2 ≤ n) : Told n ((fetchRows settings sql).catchError (statementFailure settings)) := by
  intro h r hends hsane
  rcases ends_catchError.mp hends with ⟨a, rfl, hok⟩ | ⟨e, h₁, h₂, rfl, hraised, hhandled⟩
  · rw [(escapes_fetchRows hn hok hsane).1 a rfl]
    constructor
    · intro hesc
      contradiction
    · rintro ⟨e, he, -⟩
      contradiction
  · have hfirst : ∀ e ∈ h₁, Plausible e := fun e he => hsane e (List.mem_append_left _ he)
    obtain ⟨hescapes, hnone⟩ := (escapes_fetchRows hn hraised hfirst).2 e rfl
    rw [escapes_append, hescapes]
    cases hdatabase : isDatabaseError e with
    | true =>
      rw [Bool.not_true, Bool.false_or]
      exact told_statementFailure hdatabase h₂ r hhandled fun e he => hsane e (List.mem_append_right _ he)
    | false =>
      rw [statementFailure_eq_raise hdatabase] at hhandled
      obtain ⟨-, rfl⟩ := ends_raise.mp hhandled
      rw [Bool.not_false, Bool.true_or]
      exact ⟨fun _ => ⟨e, rfl, hnone⟩, fun _ => rfl⟩

/-- The transaction. -/
theorem told_transaction (settings : SqlLabSettings) (sql : String) : Told 0 (transaction settings sql) := by
  have hclock (n : ℕ) : Told n (call .perfCounter) := .call (fun _ => rfl) fun _ hp => False.elim hp
  have hrollback (n : ℕ) : Told n (call .rollback) := .call (fun _ => rfl) fun _ hp => ⟨rfl, hp⟩
  have hsession (n : ℕ) (hn : n < 2) (statement : String) (parameters : List String) :
      Told n (call (.execute statement parameters)) := by
    refine .call (fun _ => rfl) fun e hp => ⟨?_, hp⟩
    simp [unmapped, hn]
  refine (hsession 0 (by omega) _ _).bind fun _ h₁ hend₁ => ?_
  rw [countP_of_call hend₁]
  refine (hsession 1 (by omega) _ _).bind fun _ h₂ hend₂ => ?_
  rw [countP_of_call hend₂]
  refine (hclock _).bind fun start h₃ hend₃ => ?_
  rw [countP_of_call hend₃]
  refine (told_statement (Nat.le_refl 2)).bind fun fetched h₄ _ => ?_
  refine (hclock _).bind fun stop h₅ _ => ?_
  exact (hrollback _).bind fun _ h₆ _ => .done _

/-- Closing the connection comes last, and its failure is what is raised. -/
theorem ends_closing {body : SqlLab α} {h : SqlLabHistory} {r : Except SqlLabFailure α}
    (hends : Ends (closing body) h r) :
    ∃ h₁ x, h = h₁ ++ [⟨.close, x⟩] ∧ ((Ends body h₁ r ∧ x = .ok ()) ∨ ∃ e, x = .error e ∧ r = .error e ∧
      ∃ r₁, Ends body h₁ r₁) := by
  have hbody : ∀ {h₁ : SqlLabHistory} {r₁ : Except SqlLabFailure α},
      Ends ((body.bind fun a => .done (.ok a)).catchError fun e => .done (.error e)) h₁ (.ok r₁) → Ends body h₁ r₁ := by
    intro h₁ r₁ hcaught
    rcases ends_catchError.mp hcaught with ⟨a, ha, hok⟩ | ⟨e, h₂, h₃, rfl, hraised, hhandled⟩
    · rcases ends_bind.mp hok with ⟨b, h₂, h₃, rfl, hfirst, hdone⟩ | ⟨e, he, -⟩
      · obtain ⟨rfl, hb⟩ := ends_done.mp hdone
        injection ha with ha
        injection hb with hb
        rw [List.append_nil, ha, hb]
        exact hfirst
      · contradiction
    · rcases ends_bind.mp hraised with ⟨b, h₄, h₅, rfl, -, hdone⟩ | ⟨e', he', hfirst⟩
      · exact nomatch (ends_done.mp hdone).2
      · obtain ⟨rfl, hr⟩ := ends_done.mp hhandled
        injection hr with hr
        injection he' with he'
        rw [List.append_nil, hr, he']
        exact hfirst
  rcases ends_bind.mp hends with ⟨r₁, h₁, h₂, rfl, hcaught, hlast⟩ | ⟨e, -, hcaught⟩
  · rcases ends_perform_bind.mp hlast with ⟨u, h₃, rfl, hdone⟩ | ⟨e, rfl, rfl⟩
    · refine ⟨h₁, .ok (), ?_, .inl ⟨?_, rfl⟩⟩
      · cases r₁ with
        | ok a => rw [(ends_done.mp hdone).1]
        | error e => rw [(ends_raise.mp hdone).1]
      · cases r₁ with
        | ok a =>
          rw [(ends_done.mp hdone).2]
          exact hbody hcaught
        | error e =>
          rw [(ends_raise.mp hdone).2]
          exact hbody hcaught
    · exact ⟨h₁, .error e, rfl, .inr ⟨e, rfl, rfl, r₁, hbody hcaught⟩⟩
  · rcases ends_catchError.mp hcaught with ⟨a, ha, -⟩ | ⟨e', h₁, h₂, -, -, hhandled⟩
    · contradiction
    · exact nomatch (ends_done.mp hhandled).2

/-- Closing. -/
theorem Told.closing {body : SqlLab α} (hbody : Told n body) : Told n (closing body) := by
  intro h r hends hsane
  obtain ⟨h₁, x, rfl, hcases⟩ := ends_closing hends
  rw [escapes_append]
  rcases hcases with ⟨hbodyends, rfl⟩ | ⟨e, rfl, rfl, -⟩
  · have hquiet (m : ℕ) : escapes m [⟨.close, .ok ()⟩] = false := rfl
    rw [hquiet, Bool.or_false]
    exact hbody h₁ r hbodyends fun e he => hsane e (List.mem_append_left _ he)
  · have hescapes (m : ℕ) : escapes m [⟨.close, .error e⟩] = true := rfl
    have hnone : sqlLabError e = none := hsane _ (List.mem_append_right _ (List.mem_singleton_self _))
    rw [hescapes, Bool.or_true]
    exact ⟨fun _ => ⟨e, rfl, hnone⟩, fun _ => rfl⟩

/-- The executor. -/
theorem told_execute (settings : SqlLabSettings) (sql : String) : Told 0 (execute settings sql) := by
  have hcredentials : Told 0 (requireSqlViewerCredentials settings) := by
    unfold requireSqlViewerCredentials
    split
    · exact .done _
    · exact .raise rfl
  refine hcredentials.bind fun credentials h₁ hends₁ => ?_
  have hnone : h₁.countP isStatement = 0 := by
    unfold requireSqlViewerCredentials at hends₁
    split at hends₁
    · rw [(ends_done.mp hends₁).1]
      rfl
    · exact nomatch (ends_raise.mp hends₁).2
  rw [hnone]
  refine (told_connectViewer _ _).bind fun u h₂ hends₂ => ?_
  have hnone₂ : h₂.countP isStatement = 0 := by
    rcases ends_catchError.mp hends₂ with ⟨a, -, hok⟩ | ⟨e, h₃, h₄, -, -, hhandled⟩
    · rw [ends_perform.mp hok]
      rfl
    · cases e <;> exact nomatch (ends_raise.mp hhandled).2
  rw [hnone₂]
  exact (told_transaction settings sql).closing

end Executor

section Request

variable {settings : SqlLabSettings} {guard : Guard} {parser : SqlParser} {casing : Casing} {sql user : String}
  {h : SqlLabHistory} {r : Except SqlLabFailure SqlRunResult}

/-- What happened to a request with this past. -/
def Happened (settings : SqlLabSettings) (guard : Guard) (parser : SqlParser) (casing : Casing) (sql : String)
    (h : SqlLabHistory) : AuditOutcome → Prop
  | .rejected => ∃ e, validate guard parser casing sql = .error (.rejected e)
  | .error => (∃ text, validate guard parser casing sql = .ok text) ∧
      ∃ pre hx post e, h = pre ++ hx ++ post ∧ Ends (execute settings sql) hx (.error e)
  | .success => (∃ text, validate guard parser casing sql = .ok text) ∧
      ∃ pre hx post result, h = pre ++ hx ++ post ∧ Ends (execute settings sql) hx (.ok result)

/-- What a request promises. -/
structure Audited (settings : SqlLabSettings) (guard : Guard) (parser : SqlParser) (casing : Casing) (sql : String)
    (h : SqlLabHistory) (r : Except SqlLabFailure SqlRunResult) : Prop where
  /-- One record is attempted, and it tells what happened. -/
  recorded : ∃ record answer, h.filter isAudit = [⟨.insertAudit record, answer⟩] ∧
    Happened settings guard parser casing sql h record.outcome
  /-- The database is asked only for an accepted text. -/
  approved : ∀ e ∈ h, isDatabaseCall e.action = true → ∃ text, validate guard parser casing sql = .ok text
  /-- Rows are returned only past the record of a success. -/
  reported : ∀ result, r = .ok result → ∃ record, record.outcome = .success ∧ ⟨.insertAudit record, .ok ()⟩ ∈ h

/-- Recording: the record is attempted, with this outcome, and a failure is an
audit failure. -/
theorem ends_record {outcome : AuditOutcome} {durationMs : Option Int} {rowCount : Option ℕ}
    {errorDetail : Option String} {x : Except SqlLabFailure Unit}
    (hends : Ends (record user sql outcome durationMs rowCount errorDetail) h x) (hsane : ∀ e ∈ h, Plausible e) :
    ∃ stamped id record answer, h = [⟨.utcnow, .ok stamped⟩, ⟨.uuid4, .ok id⟩, ⟨.insertAudit record, answer⟩] ∧
      record.outcome = outcome ∧ (x = .ok () → answer = .ok ()) := by
  rcases ends_perform_bind.mp hends with ⟨stamped, h₁, rfl, hid⟩ | ⟨e, rfl, rfl⟩
  · rcases ends_perform_bind.mp hid with ⟨id, h₂, rfl, hpersist⟩ | ⟨e, rfl, rfl⟩
    · rcases ends_catchError.mp hpersist with ⟨u, rfl, hok⟩ | ⟨e, h₃, h₄, rfl, hraised, hhandled⟩
      · rw [ends_perform.mp hok]
        exact ⟨stamped, id, _, .ok (), rfl, rfl, fun _ => rfl⟩
      · rw [ends_perform.mp hraised]
        cases e with
        | audit m =>
          obtain ⟨rfl, rfl⟩ := ends_raise.mp hhandled
          exact ⟨stamped, id, _, _, rfl, rfl, fun hx => (nomatch hx)⟩
        | _ =>
          obtain ⟨rfl, rfl⟩ := ends_raise.mp hhandled
          exact ⟨stamped, id, _, _, rfl, rfl, fun hx => (nomatch hx)⟩
    · exact False.elim (hsane ⟨.uuid4, .error e⟩ (List.mem_cons_of_mem _ (List.mem_singleton_self _)))
  · exact False.elim (hsane ⟨.utcnow, .error e⟩ (List.mem_singleton_self _))

/-- The executor attempts no record. -/
theorem filter_isAudit_execute {x : Except SqlLabFailure ExecutionResult} (hends : Ends (execute settings sql) h x) :
    h.filter isAudit = [] := by
  rw [List.filter_eq_nil_iff]
  intro e he haudit
  have hcall := Path.uses hends execute_calls e he
  obtain ⟨a, y⟩ := e
  cases a <;> first | exact hcall | exact absurd haudit (by simp [isAudit])

/-- What the service does about a rejected text. -/
theorem run_of_rejected {e : SqlLabValidationError} (hrejected : validate guard parser casing sql = .error (.rejected e)) :
    run settings guard parser casing sql user =
      (record user sql .rejected none none (some e.message)).bind fun _ => .raise (.validation e.message) := by
  unfold run
  rw [hrejected]

/-- What it does where the parser breaks down. -/
theorem run_of_raised {message : String} (hraised : validate guard parser casing sql = .error (.raised message)) :
    run settings guard parser casing sql user = .raise (.other message) := by
  unfold run
  rw [hraised]

/-- What it does about an accepted one. -/
theorem run_of_accepted {text : String} (haccepted : validate guard parser casing sql = .ok text) :
    run settings guard parser casing sql user = runApproved settings sql user := by
  unfold run
  rw [haccepted]

/-- A rejected request is audited. -/
theorem audited_of_rejected {e : SqlLabValidationError} (hrejected : validate guard parser casing sql = .error (.rejected e))
    (hends : Ends (run settings guard parser casing sql user) h r) (hsane : ∀ e ∈ h, Plausible e) :
    Audited settings guard parser casing sql h r ∧ escapes 0 h = false := by
  rw [run_of_rejected hrejected] at hends
  have hrecorded : ∃ stamped id record answer,
      h = [⟨.utcnow, .ok stamped⟩, ⟨.uuid4, .ok id⟩, ⟨.insertAudit record, answer⟩] ∧ record.outcome = .rejected ∧
        ∃ e', r = .error e' := by
    rcases ends_bind.mp hends with ⟨u, h₁, h₂, rfl, hrecord, hraise⟩ | ⟨e', rfl, hrecord⟩
    · obtain ⟨rfl, rfl⟩ := ends_raise.mp hraise
      rw [List.append_nil] at hsane ⊢
      obtain ⟨stamped, id, record, answer, rfl, houtcome, -⟩ := ends_record hrecord hsane
      exact ⟨stamped, id, record, answer, rfl, houtcome, _, rfl⟩
    · obtain ⟨stamped, id, record, answer, rfl, houtcome, -⟩ := ends_record hrecord hsane
      exact ⟨stamped, id, record, answer, rfl, houtcome, _, rfl⟩
  obtain ⟨stamped, id, record, answer, rfl, houtcome, e', rfl⟩ := hrecorded
  refine ⟨⟨⟨record, answer, rfl, ?_⟩, ?_, fun _ hr => (nomatch hr)⟩, rfl⟩
  · rw [houtcome]
    exact ⟨e, hrejected⟩
  · have hnone : ∀ e ∈ ([⟨.utcnow, .ok stamped⟩, ⟨.uuid4, .ok id⟩, ⟨.insertAudit record, answer⟩] : SqlLabHistory),
        isDatabaseCall e.action = false := by
      intro e he
      simp only [List.mem_cons, List.not_mem_nil, or_false] at he
      rcases he with rfl | rfl | rfl <;> rfl
    intro e he hcall
    rw [hnone e he] at hcall
    exact nomatch hcall

/-- A request whose execution ended in one of the service's exceptions is
audited. -/
theorem audited_of_failure {text : String} (start : ℚ) (haccepted : validate guard parser casing sql = .ok text)
    {hx h₂ : SqlLabHistory} {e : SqlLabFailure} {x : Except SqlLabFailure ExecutionResult}
    (hexecuted : Ends (execute settings sql) hx (.error e)) (hknown : (sqlLabError e).isSome = true)
    (hhandled : Ends (executionFailed user sql start e) h₂ x) (hsane : ∀ e ∈ h₂, Plausible e) {e' : SqlLabFailure} :
    Audited settings guard parser casing sql (⟨.perfCounter, .ok start⟩ :: (hx ++ h₂)) (.error e') ∧
      ∀ n, escapes n h₂ = false := by
  obtain ⟨detail, hdetail⟩ := Option.isSome_iff_exists.mp hknown
  unfold executionFailed at hhandled
  rw [hdetail] at hhandled
  rcases ends_perform_bind.mp hhandled with ⟨stop, h₃, rfl, hrest⟩ | ⟨e'', -, rfl⟩
  · have hsane₃ : ∀ e ∈ h₃, Plausible e := fun e he => hsane e (List.mem_cons_of_mem _ he)
    have hrecorded : ∃ stamped id record answer,
        h₃ = [⟨.utcnow, .ok stamped⟩, ⟨.uuid4, .ok id⟩, ⟨.insertAudit record, answer⟩] ∧ record.outcome = .error := by
      rcases ends_bind.mp hrest with ⟨u, h₄, h₅, rfl, hrecord, hraise⟩ | ⟨e'', -, hrecord⟩
      · obtain ⟨rfl, -⟩ := ends_raise.mp hraise
        rw [List.append_nil] at hsane₃ ⊢
        obtain ⟨stamped, id, record, answer, rfl, houtcome, -⟩ := ends_record hrecord hsane₃
        exact ⟨stamped, id, record, answer, rfl, houtcome⟩
      · obtain ⟨stamped, id, record, answer, rfl, houtcome, -⟩ := ends_record hrecord hsane₃
        exact ⟨stamped, id, record, answer, rfl, houtcome⟩
    obtain ⟨stamped, id, record, answer, rfl, houtcome⟩ := hrecorded
    refine ⟨⟨⟨record, answer, ?_, ?_⟩, fun _ _ _ => ⟨text, haccepted⟩, fun _ hr => (nomatch hr)⟩, fun _ => rfl⟩
    · rw [List.filter_cons_of_neg (by simp [isAudit]), List.filter_append, filter_isAudit_execute hexecuted]
      rfl
    · rw [houtcome]
      exact ⟨⟨text, haccepted⟩, [⟨.perfCounter, .ok start⟩], hx, _, e, rfl, hexecuted⟩
  · exact False.elim (hsane ⟨.perfCounter, .error e''⟩ (List.mem_singleton_self _))

/-- A failed execution is raised on. -/
theorem ends_executionFailed {start : ℚ} {e : SqlLabFailure} {x : Except SqlLabFailure ExecutionResult}
    (hhandled : Ends (executionFailed user sql start e) h x) : ∃ e', x = .error e' := by
  unfold executionFailed at hhandled
  cases hknown : sqlLabError e with
  | none =>
    rw [hknown] at hhandled
    exact ⟨e, (ends_raise.mp hhandled).2⟩
  | some detail =>
    rw [hknown] at hhandled
    rcases ends_perform_bind.mp hhandled with ⟨stop, h₁, rfl, hrest⟩ | ⟨e', rfl, -⟩
    · rcases ends_bind.mp hrest with ⟨u, h₂, h₃, rfl, -, hraise⟩ | ⟨e', rfl, -⟩
      · exact ⟨e, (ends_raise.mp hraise).2⟩
      · exact ⟨e', rfl⟩
    · exact ⟨e', rfl⟩

/-- A request whose execution ended in an exception the service does not know
is not audited. -/
theorem not_audited_of_escape {start : ℚ} {hx : SqlLabHistory} {x : Except SqlLabFailure ExecutionResult}
    (hexecuted : Ends (execute settings sql) hx x) :
    ¬ Audited settings guard parser casing sql (⟨.perfCounter, .ok start⟩ :: hx) r := by
  intro haudited
  obtain ⟨record, answer, hone, -⟩ := haudited.recorded
  rw [List.filter_cons_of_neg (by simp [isAudit]), filter_isAudit_execute hexecuted] at hone
  exact nomatch hone

/-- A request whose execution returned is audited. -/
theorem audited_of_result {text : String} (start : ℚ) (haccepted : validate guard parser casing sql = .ok text)
    {hx h₂ : SqlLabHistory} {result : ExecutionResult} (hexecuted : Ends (execute settings sql) hx (.ok result))
    (hrest : Ends ((record user sql .success (some result.durationMs) (some (shape settings sql result).rowCount) none).bind
      fun _ => .done (shape settings sql result)) h₂ r) (hsane : ∀ e ∈ h₂, Plausible e) :
    Audited settings guard parser casing sql (⟨.perfCounter, .ok start⟩ :: (hx ++ h₂)) r ∧
      ∀ n, escapes n h₂ = false := by
  have hrecorded : ∃ stamped id record answer,
      h₂ = [⟨.utcnow, .ok stamped⟩, ⟨.uuid4, .ok id⟩, ⟨.insertAudit record, answer⟩] ∧ record.outcome = .success ∧
        ∀ runResult, r = .ok runResult → answer = .ok () := by
    rcases ends_bind.mp hrest with ⟨u, h₃, h₄, rfl, hrecord, hdone⟩ | ⟨e, rfl, hrecord⟩
    · obtain ⟨rfl, rfl⟩ := ends_done.mp hdone
      rw [List.append_nil] at hsane ⊢
      obtain ⟨stamped, id, record, answer, rfl, houtcome, hanswer⟩ := ends_record hrecord hsane
      exact ⟨stamped, id, record, answer, rfl, houtcome, fun _ _ => hanswer rfl⟩
    · obtain ⟨stamped, id, record, answer, rfl, houtcome, -⟩ := ends_record hrecord hsane
      exact ⟨stamped, id, record, answer, rfl, houtcome, fun _ hr => (nomatch hr)⟩
  obtain ⟨stamped, id, record, answer, rfl, houtcome, hanswer⟩ := hrecorded
  refine ⟨⟨⟨record, answer, ?_, ?_⟩, fun _ _ _ => ⟨text, haccepted⟩, fun runResult hr => ?_⟩, fun _ => rfl⟩
  · rw [List.filter_cons_of_neg (by simp [isAudit]), List.filter_append, filter_isAudit_execute hexecuted]
    rfl
  · rw [houtcome]
    exact ⟨⟨text, haccepted⟩, [⟨.perfCounter, .ok start⟩], hx, _, result, rfl, hexecuted⟩
  · refine ⟨record, houtcome, ?_⟩
    rw [hanswer runResult hr]
    simp

/-- Past an execution that returned, nothing has escaped and the request is
audited. -/
theorem audited_iff_of_result {text : String} (haccepted : validate guard parser casing sql = .ok text) {start : ℚ}
    {hx h₂ : SqlLabHistory} {result : ExecutionResult} (hexecuted : Ends (execute settings sql) hx (.ok result))
    (hrest : Ends ((record user sql .success (some result.durationMs) (some (shape settings sql result).rowCount) none).bind
      fun _ => .done (shape settings sql result)) h₂ r) (hsane : ∀ e ∈ hx ++ h₂, Plausible e) :
    Audited settings guard parser casing sql (⟨.perfCounter, .ok start⟩ :: (hx ++ h₂)) r ↔ escapes 0 (hx ++ h₂) = false := by
  have htold := told_execute settings sql hx _ hexecuted fun e he => hsane e (List.mem_append_left _ he)
  have hnone : escapes 0 hx = false := by
    rw [← Bool.not_eq_true, htold]
    rintro ⟨e, he, -⟩
    exact nomatch he
  obtain ⟨haudited, hlast⟩ := audited_of_result start haccepted hexecuted hrest
    fun e he => hsane e (List.mem_append_right _ he)
  rw [escapes_append, hnone, hlast]
  exact ⟨fun _ => rfl, fun _ => haudited⟩

/-- Past one that raised, the request is audited if the service knows the
exception, and if it does not, a failure escaped. -/
theorem audited_iff_of_failure {text : String} (haccepted : validate guard parser casing sql = .ok text) {start : ℚ}
    {hx h₂ : SqlLabHistory} {e e' : SqlLabFailure} {x : Except SqlLabFailure ExecutionResult}
    (hexecuted : Ends (execute settings sql) hx (.error e)) (hhandled : Ends (executionFailed user sql start e) h₂ x)
    (hsane : ∀ e ∈ hx ++ h₂, Plausible e) :
    Audited settings guard parser casing sql (⟨.perfCounter, .ok start⟩ :: (hx ++ h₂)) (.error e') ↔
      escapes 0 (hx ++ h₂) = false := by
  have htold := told_execute settings sql hx _ hexecuted fun e he => hsane e (List.mem_append_left _ he)
  cases hknown : sqlLabError e with
  | none =>
    have hraised : executionFailed user sql start e = (.raise e : SqlLab ExecutionResult) := by
      unfold executionFailed
      rw [hknown]
    rw [hraised] at hhandled
    obtain ⟨rfl, -⟩ := ends_raise.mp hhandled
    rw [List.append_nil, htold.mpr ⟨e, rfl, hknown⟩]
    constructor
    · intro haudited
      exact absurd haudited (not_audited_of_escape hexecuted)
    · intro hcondition
      exact nomatch hcondition
  | some detail =>
    have hnone : escapes 0 hx = false := by
      rw [← Bool.not_eq_true, htold]
      rintro ⟨e₁, he₁, hunknown⟩
      injection he₁ with he₁
      rw [← he₁, hknown] at hunknown
      exact nomatch hunknown
    obtain ⟨haudited, hlast⟩ := audited_of_failure start haccepted hexecuted (by rw [hknown]; rfl)
      hhandled fun e he => hsane e (List.mem_append_right _ he)
    rw [escapes_append, hnone, hlast]
    exact ⟨fun _ => rfl, fun _ => haudited⟩

/-- A request attempts exactly one audit record, of what happened, asks the
database only for an accepted text, and returns rows only past the record of a
success, exactly if the parser did not break down and no failure of the driver
passed through the executor. -/
theorem audited_iff (hends : Ends (run settings guard parser casing sql user) h r) (hsane : ∀ e ∈ h, Plausible e) :
    Audited settings guard parser casing sql h r ↔
      (∀ message, validate guard parser casing sql ≠ .error (.raised message)) ∧ escapes 0 h = false := by
  cases hvalidate : validate guard parser casing sql with
  | error refusal =>
    cases refusal with
    | rejected e =>
      obtain ⟨haudited, hquiet⟩ := audited_of_rejected hvalidate hends hsane
      constructor
      · intro _
        exact ⟨fun _ hm => (nomatch hm), hquiet⟩
      · intro _
        exact haudited
    | raised message =>
      rw [run_of_raised hvalidate] at hends
      obtain ⟨rfl, -⟩ := ends_raise.mp hends
      constructor
      · intro haudited
        obtain ⟨record, answer, hone, -⟩ := haudited.recorded
        exact nomatch hone
      · intro hcondition
        exact absurd rfl (hcondition.1 message)
  | ok text =>
    rw [run_of_accepted hvalidate] at hends
    -- the executor is reached, and what it ended in decides
    rcases ends_perform_bind.mp hends with ⟨start, h₁, rfl, hrest⟩ | ⟨e, rfl, rfl⟩
    · have hsane₁ : ∀ e ∈ h₁, Plausible e := fun e he => hsane e (List.mem_cons_of_mem _ he)
      have hquiet : escapes 0 (⟨.perfCounter, .ok start⟩ :: h₁) = escapes 0 h₁ := rfl
      rw [hquiet]
      have hnever : ∀ message, (.ok text : Except ValidateError String) ≠ .error (.raised message) := fun _ hm => (nomatch hm)
      have hexact : Audited settings guard parser casing sql (⟨.perfCounter, .ok start⟩ :: h₁) r ↔ escapes 0 h₁ = false := by
        rcases ends_bind.mp hrest with ⟨result, h₂, h₃, rfl, hcaught, hsuccess⟩ | ⟨e, rfl, hcaught⟩
        · rcases ends_catchError.mp hcaught with ⟨a, ha, hexecuted⟩ | ⟨e, h₄, h₅, rfl, -, hhandled⟩
          · injection ha with ha
            exact audited_iff_of_result hvalidate (ha ▸ hexecuted) hsuccess hsane₁
          · obtain ⟨e', he'⟩ := ends_executionFailed hhandled
            exact nomatch he'
        · rcases ends_catchError.mp hcaught with ⟨a, ha, -⟩ | ⟨e₁, h₂, h₃, rfl, hexecuted, hhandled⟩
          · exact nomatch ha
          · exact audited_iff_of_failure hvalidate hexecuted hhandled hsane₁
      rw [hexact]
      exact ⟨fun hquiet => ⟨hnever, hquiet⟩, fun hcondition => hcondition.2⟩
    · exact False.elim (hsane ⟨.perfCounter, .error e⟩ (List.mem_singleton_self _))

/-- What a request performs against a database, and how it ends. -/
abbrev answered (respond : Behaviour SqlLabFailure SqlLabAnswer) (sql : String) :
    SqlLabHistory × Except SqlLabFailure SqlRunResult := Program.against respond (sampleRun sql)

/-- A database that always answers is plausible. -/
theorem plausible_sampleDatabase (sql : String) : ∀ e ∈ (answered sampleDatabase sql).1, Plausible e := by
  intro e he
  have hanswer := answer_against sampleDatabase (sampleRun sql) e he
  obtain ⟨a, x⟩ := e
  cases a <;> (simp only [sampleDatabase] at hanswer; subst hanswer; trivial)

theorem audited_iff_sample : validate usersGuard oneParser asciiCasing "SELECT 1" = .ok "SELECT 1" ∧
    Audited sampleViewer usersGuard oneParser asciiCasing "SELECT 1" (answered sampleDatabase "SELECT 1").1
      (answered sampleDatabase "SELECT 1").2 := by
  have haccepted : validate usersGuard oneParser asciiCasing "SELECT 1" = .ok "SELECT 1" := by decide +kernel
  have hquiet : escapes 0 (answered sampleDatabase "SELECT 1").1 = false := by decide +kernel
  have hends := ends_against sampleDatabase (sampleRun "SELECT 1")
  refine ⟨haccepted, (audited_iff hends (plausible_sampleDatabase "SELECT 1")).mpr ⟨fun message hm => ?_, hquiet⟩⟩
  rw [haccepted] at hm
  exact nomatch hm

/-- The same database, but the connection is lost before the first statement. -/
def lostSession : Behaviour SqlLabFailure SqlLabAnswer
  | .execute statement parameters =>
    if statement = "SET TRANSACTION READ ONLY" then .error (.operational "server closed the connection unexpectedly")
    else sampleDatabase (.execute statement parameters)
  | a => sampleDatabase a

/-- The accepted request is answered with the database's exception, and no
audit record is attempted. -/
theorem unaudited_session : validate usersGuard oneParser asciiCasing "SELECT 1" = .ok "SELECT 1" ∧
    Ends (sampleRun "SELECT 1") (answered lostSession "SELECT 1").1 (answered lostSession "SELECT 1").2 ∧
    (answered lostSession "SELECT 1").1.filter isAudit = [] ∧
    ¬ Audited sampleViewer usersGuard oneParser asciiCasing "SELECT 1" (answered lostSession "SELECT 1").1
      (answered lostSession "SELECT 1").2 := by
  have haccepted : validate usersGuard oneParser asciiCasing "SELECT 1" = .ok "SELECT 1" := by decide +kernel
  have hnone : ((answered lostSession "SELECT 1").1.any isAudit) = false := by decide +kernel
  have hfilter : (answered lostSession "SELECT 1").1.filter isAudit = [] := by
    rw [List.filter_eq_nil_iff]
    intro e he haudit
    have hsome := List.any_eq_true.mpr ⟨e, he, haudit⟩
    rw [hnone] at hsome
    exact nomatch hsome
  refine ⟨haccepted, ends_against lostSession (sampleRun "SELECT 1"), hfilter, fun haudited => ?_⟩
  obtain ⟨record, answer, hone, -⟩ := haudited.recorded
  rw [hfilter] at hone
  exact nomatch hone

end Request

end RagSystem.SqlLabAudit
