import Mathlib.Data.List.DropRight
import RagSystem.PostgresText
import RagSystem.SqlLabService

/-!
# The executed text and the validated text

The guard validates a copy of the submitted text without comments, the database
executes the text itself. The two say the same wherever the scanner that
drops comments and PostgreSQL's reader agree on what a comment is; a line
comment ended by a carriage return, an escape string or a dollar quote can make
them disagree, and then the database reads statements the guard never saw.
-/

namespace RagSystem.ExecutedText

open AtomicProgram ProgramPaths DocumentModels SqlSyntax SqlComments SqlLabGuard SqlLabService PostgresText

set_option autoImplicit false

section Agreement

/-- Where the scanner starts to drop a comment, the reader takes it for one
too. Block comments are closed. What a line comment holds after a carriage
return is blanks and comments to the reader, and is over when the line is. -/
def agrees : LexMode → ScanMode → List Char → Bool
  | m, .code, '-' :: '-' :: rest => decide ((step m '-').2 = .dash) && agrees .line .lineComment rest
  | m, .code, '/' :: '*' :: rest => decide ((step m '/').2 = .slash) && agrees (.block 1 none) (.blockComment 1) rest
  | m, .code, c :: rest => agrees (step m c).2 (codeMode c) rest
  | _, .code, [] => true
  | m, .quoted q, c :: c' :: rest =>
    if c = q then
      if c' = q then agrees (step (step m c).2 c').2 (.quoted q) rest else agrees (step m c).2 .code (c' :: rest)
    else agrees (step m c).2 (.quoted q) (c' :: rest)
  | _, .quoted _, _ => true
  | m, .lineComment, [] => decide (m = .line ∨ m = .plain)
  | m, .lineComment, c :: rest =>
    if c = '\n' then decide (m = .line ∨ m = .plain) && agrees .plain .code rest
    else (step m c).1.all (fun x => decide (x = .blank)) && agrees (step m c).2 .lineComment rest
  | _, .blockComment _, [] => false
  | m, .blockComment depth, '/' :: '*' :: rest =>
    agrees (step (step m '/').2 '*').2 (.blockComment (depth + 1)) rest
  | m, .blockComment depth, '*' :: '/' :: rest => agrees (step (step m '*').2 '/').2 (closeBlock depth) rest
  | m, .blockComment depth, c :: rest => agrees (step m c).2 (.blockComment depth) rest

/-- How the reader of the text and the reader of the stripped text go together
while the scanner is in a mode: alike in what is copied; in a comment, the
second one waits after its blank. -/
inductive Synced : LexMode → ScanMode → List Char → LexMode → Gap → Prop where
  /-- In code. -/
  | code (m : LexMode) (s : List Char) (g : Gap) : Synced m .code s m g
  /-- In a quoted region. -/
  | quoted (m : LexMode) (q : Char) (s : List Char) (g : Gap) : Synced m (.quoted q) s m g
  /-- In a line comment. -/
  | line {m : LexMode} {s : List Char} {g : Gap} (hg : g.afterBlank = g) : Synced m .lineComment s .plain g
  /-- In block comments; what was read last is no half of a pair. -/
  | block {depth : ℕ} {last : Option Char} {s : List Char} {g : Gap} (hg : g.afterBlank = g)
    (hstar : last = some '*' → s.head? ≠ some '/') (hslash : last = some '/' → s.head? ≠ some '*') :
      Synced (.block depth last) (.blockComment depth) s .plain g

variable {m m' : LexMode} {mode : ScanMode} {s : List Char} {g : Gap}

/-- Opening a comment reads like a blank. -/
theorem wordsFrom_open {c₁ c₂ : Char} {m₂ : LexMode} {rest X : List Char}
    (hblank : step m ' ' = ((step m c₁).1 ++ [.blank], .plain)) (hopen : step (step m c₁).2 c₂ = ([.blank], m₂))
    (hrest : wordsFrom (g.afterAll (step m c₁).1).afterBlank m₂ rest =
      wordsFrom (g.afterAll (step m c₁).1).afterBlank .plain X) :
    wordsFrom g m (c₁ :: c₂ :: rest) = wordsFrom g m (' ' :: X) := by
  have hgap : g.afterAll ((step m c₁).1 ++ [.blank]) = (g.afterAll (step m c₁).1).afterBlank := by
    simp [Gap.afterAll, Gap.after]
  have hlast : (g.afterAll (step m c₁).1).afterAll [.blank] = (g.afterAll (step m c₁).1).afterBlank := rfl
  have hsettle : ∀ g', settle g' [.blank] = [] := fun _ => rfl
  rw [wordsFrom_cons, wordsFrom_cons, hopen, wordsFrom_cons, hblank]
  simp only [hgap, hlast, hrest, hsettle, settle_append, List.append_nil, List.nil_append, Option.map_id']

/-- Inside block comments nothing is marked. -/
theorem wordsFrom_block {depth : ℕ} {last : Option Char} {c : Char} {rest : List Char} :
    wordsFrom g (.block depth last) (c :: rest) = wordsFrom g (readBlock depth last c) rest := by
  rw [wordsFrom_cons]
  simp [step, settle, Gap.afterAll]

/-- The end of a line comment. -/
theorem step_newline (h : m = .line ∨ m = .plain) : step m '\n' = ([.blank], .plain) := by
  rcases h with rfl | rfl <;> decide

/-- A reader of block comments after `/*` that is a pair. -/
theorem readBlock_open (depth : ℕ) {last : Option Char} (hlast : last ≠ some '*') :
    readBlock depth last '/' = .block depth (some '/') ∧ readBlock depth (some '/') '*' = .block (depth + 1) none := by
  simp [readBlock, hlast]

/-- And after `*/`. -/
theorem readBlock_close (depth : ℕ) {last : Option Char} (hlast : last ≠ some '/') :
    readBlock depth last '*' = .block depth (some '*') ∧
      readBlock depth (some '*') '/' = if depth ≤ 1 then .plain else .block (depth - 1) none := by
  simp [readBlock, hlast]

/-- After any other character. -/
theorem readBlock_other (depth : ℕ) {last : Option Char} {c : Char} (hstar : last = some '*' → c ≠ '/')
    (hslash : last = some '/' → c ≠ '*') : ∃ last', readBlock depth last c = .block depth last' ∧
      (last' = some '*' → c = '*') ∧ (last' = some '/' → c = '/') := by
  by_cases hs : c = '*'
  · have hlast : last ≠ some '/' := fun hl => hslash hl hs
    exact ⟨some '*', by simp [readBlock, hs, hlast], fun _ => hs, fun hl => by simp at hl⟩
  by_cases hd : c = '/'
  · have hlast : last ≠ some '*' := fun hl => hstar hl hd
    exact ⟨some '/', by simp [readBlock, hd, hlast], fun hl => by simp at hl, fun _ => hd⟩
  · exact ⟨none, by simp [readBlock, hs, hd], fun hl => (by cases hl), fun hl => (by cases hl)⟩

/-- Where the scanner and the reader agree, the text and the stripped text have
the same words. -/
theorem wordsFrom_scan (h : agrees m mode s = true) (hs : Synced m mode s m' g) :
    wordsFrom g m s = wordsFrom g m' (scan mode s) := by
  fun_induction agrees m mode s generalizing m' g with
  | case1 m rest ih =>
    simp only [Bool.and_eq_true, decide_eq_true_eq] at h
    cases hs
    have hopen : step (step m '-').2 '-' = ([.blank], .line) := by rw [h.1]; rfl
    exact wordsFrom_open (step_blank_of_dash h.1) hopen (ih h.2 (.line (Gap.afterBlank_afterBlank _)))
  | case2 m rest ih =>
    simp only [Bool.and_eq_true, decide_eq_true_eq] at h
    cases hs
    have hopen : step (step m '/').2 '*' = ([.blank], .block 1 none) := by rw [h.1]; rfl
    exact wordsFrom_open (step_blank_of_slash h.1) hopen
      (ih h.2 (.block (Gap.afterBlank_afterBlank _) (fun hl => (nomatch hl)) (fun hl => (nomatch hl))))
  | case3 m c rest hdash hslash ih =>
    cases hs
    have hcopy : scan .code (c :: rest) = c :: scan (codeMode c) rest := by rw [scan] <;> assumption
    rw [hcopy]
    exact wordsFrom_congr (ih h (by unfold codeMode; split; exact .quoted _ _ _ _; exact .code _ _ _))
  | case4 m =>
    cases hs
    rfl
  | case5 m c rest ih =>
    cases hs
    rw [scan, if_pos rfl, if_pos rfl]
    exact wordsFrom_congr (wordsFrom_congr (ih h (.quoted _ _ _ _)))
  | case6 m c c' rest hne ih =>
    cases hs
    rw [scan, if_pos rfl, if_neg hne]
    exact wordsFrom_congr (ih h (.code _ _ _))
  | case7 m q c c' rest hne ih =>
    cases hs
    rw [scan, if_neg hne]
    exact wordsFrom_congr (ih h (.quoted _ _ _ _))
  | case8 s m q hshort =>
    cases hs
    have hcopy : scan (.quoted q) s = s := by
      match s, hshort with
      | [], _ => rfl
      | [c], _ => rw [scan]
      | c :: c' :: rest, hshort => exact False.elim (hshort c c' rest rfl)
    rw [hcopy]
  | case9 m =>
    cases hs
    have hm : m = .line ∨ m = .plain := of_decide_eq_true h
    rcases hm with rfl | rfl <;> rfl
  | case10 m rest ih =>
    simp only [Bool.and_eq_true, decide_eq_true_eq] at h
    cases hs with
    | line hg =>
      have hrest := ih h.2 (.code .plain rest g)
      have hplain := step_newline (m := .plain) (.inr rfl)
      have hleft : ∀ x ∈ (step m '\n').1, x = Mark.blank := by simp [step_newline h.1]
      have hright : ∀ x ∈ (step .plain '\n').1, x = Mark.blank := by simp [hplain]
      rw [scan, if_pos rfl, wordsFrom_skip hg hleft, wordsFrom_skip hg hright, step_newline h.1, hplain]
      exact hrest
  | case11 m c rest hne ih =>
    simp only [Bool.and_eq_true, List.all_eq_true, decide_eq_true_eq] at h
    cases hs with
    | line hg =>
      rw [scan, if_neg hne, wordsFrom_skip hg h.1]
      exact ih h.2 (.line hg)
  | case12 => cases h
  | case13 m depth rest ih =>
    cases hs with
    | @block _ last _ _ hg hstar hslash =>
      have hlast : last ≠ some '*' := fun hl => hstar hl rfl
      obtain ⟨hfirst, hsecond⟩ := readBlock_open depth hlast
      simp only [step, hfirst, hsecond] at ih h
      rw [scan, wordsFrom_block, hfirst, wordsFrom_block, hsecond]
      exact ih h (.block hg (fun hl => (nomatch hl)) (fun hl => (nomatch hl)))
  | case14 m depth rest ih =>
    cases hs with
    | @block _ last _ _ hg hstar hslash =>
      have hlast : last ≠ some '/' := fun hl => hslash hl rfl
      obtain ⟨hfirst, hsecond⟩ := readBlock_close depth hlast
      simp only [step, hfirst, hsecond] at ih h
      rw [scan, wordsFrom_block, hfirst, wordsFrom_block, hsecond]
      by_cases hdepth : depth ≤ 1
      · simp only [closeBlock, if_pos hdepth] at ih h ⊢
        exact ih h (.code _ _ _)
      · simp only [closeBlock, if_neg hdepth] at ih h ⊢
        exact ih h (.block hg (fun hl => (nomatch hl)) (fun hl => (nomatch hl)))
  | case15 m depth c rest hopen hclose ih =>
    cases hs with
    | @block _ last _ _ hg hstar hslash =>
      have hone : last = some '*' → c ≠ '/' := fun hl hc => hstar hl (by rw [hc]; rfl)
      have htwo : last = some '/' → c ≠ '*' := fun hl hc => hslash hl (by rw [hc]; rfl)
      obtain ⟨last', hread, hafterStar, hafterSlash⟩ := readBlock_other depth hone htwo
      have hskip : scan (.blockComment depth) (c :: rest) = scan (.blockComment depth) rest := by rw [scan] <;> assumption
      simp only [step, hread] at ih h
      rw [hskip, wordsFrom_block, hread]
      have hnotSlash : last' = some '*' → rest.head? ≠ some '/' := by
        intro hl hr
        obtain ⟨rest', hrest⟩ := List.head?_eq_some_iff.mp hr
        exact hclose rest' (hafterStar hl) hrest
      have hnotStar : last' = some '/' → rest.head? ≠ some '*' := by
        intro hl hr
        obtain ⟨rest', hrest⟩ := List.head?_eq_some_iff.mp hr
        exact hopen rest' (hafterSlash hl) hrest
      exact ih h (.block hg hnotSlash hnotStar)

/-- From the beginning, where the two agree throughout, it has the same
statements. -/
theorem pgStatements_strip {sql : String} (h : agrees .plain .code sql.toList = true) :
    pgStatements sql = pgStatements (stripSqlComments sql) := by
  have hwords := wordsFrom_scan h (.code .plain sql.toList .start)
  apply pgStatements_congr
  rw [hwords, stripSqlComments, String.toList_ofList]

end Agreement

section Ends

/-- What normalizing drops before a text and after it. -/
def trimmed (text : List Char) : List Char × List Char :=
  let started := text.dropWhile isSpace
  let stripped := started.rdropWhile isSpace
  let terminated := stripped.rdropWhile fun c => c = ';'
  (text.takeWhile isSpace,
    terminated.rtakeWhile isSpace ++ (stripped.rtakeWhile fun c => c = ';') ++ started.rtakeWhile isSpace)

/-- What is dropped at the ends is white space and semicolons to the reader. -/
def endsAgree (text : List Char) : Bool := (trimmed text).1.all isBlank && (trimmed text).2.all isSeparator

/-- `strip` on characters. -/
theorem toList_strip (text : String) : (strip text).toList = (text.toList.dropWhile isSpace).rdropWhile isSpace := by
  simp only [strip, String.toList_ofList, List.rdropWhile]

/-- `rstrip` on characters. -/
theorem toList_rstripSemicolons (text : String) :
    (rstripSemicolons text).toList = text.toList.rdropWhile fun c => c = ';' := by
  simp only [rstripSemicolons, String.toList_ofList, List.rdropWhile]

/-- A part of the front of a text without leading white space has none. -/
theorem dropWhile_of_prefix {p : Char → Bool} {l s : List Char} (h : s <+: l.dropWhile p) : s.dropWhile p = s := by
  cases s with
  | nil => rfl
  | cons c rest =>
    obtain ⟨t, ht⟩ := h
    have hc : p c = false := by
      have hne : l.dropWhile p ≠ [] := by simp [← ht]
      have hhead := List.head_dropWhile_not p hne
      simpa [← ht] using hhead
    rw [List.dropWhile_cons, hc]
    rfl

/-- The normalized text is the stripped one without its ends. -/
theorem stripped_eq (sql : String) :
    (stripSqlComments sql).toList =
      (trimmed (stripSqlComments sql).toList).1 ++ (normalized sql).toList ++ (trimmed (stripSqlComments sql).toList).2 := by
  generalize hl : (stripSqlComments sql).toList = l
  have hmiddle : (normalized sql).toList =
      (((l.dropWhile isSpace).rdropWhile isSpace).rdropWhile fun c => c = ';').rdropWhile isSpace := by
    have hfront : (((l.dropWhile isSpace).rdropWhile isSpace).rdropWhile fun c => c = ';') <+: l.dropWhile isSpace :=
      (List.rdropWhile_prefix _ _).trans (List.rdropWhile_prefix _ _)
    rw [normalized, toList_strip, toList_rstripSemicolons, toList_strip, hl, dropWhile_of_prefix hfront]
  rw [hmiddle, trimmed]
  simp only [List.append_assoc]
  rw [← List.append_assoc (List.rdropWhile _ _) (List.rtakeWhile _ _), List.rdropWhile_append_rtakeWhile,
    ← List.append_assoc (List.rdropWhile _ _) (List.rtakeWhile _ _), List.rdropWhile_append_rtakeWhile,
    List.rdropWhile_append_rtakeWhile, List.takeWhile_append_dropWhile]

/-- Without its ends a text has the same statements, if the ends are white
space and semicolons to the reader. -/
theorem pgStatements_normalized {sql : String} (h : endsAgree (stripSqlComments sql).toList = true) :
    pgStatements (stripSqlComments sql) = pgStatements (normalized sql) := by
  simp only [endsAgree, Bool.and_eq_true, List.all_eq_true] at h
  apply pgStatements_congr
  rw [stripped_eq, wordsFrom_append h.2, wordsFrom_prepend h.1]

end Ends

section Executed

/-- PostgreSQL reads one statement from the executed text, the one the
validated text is. -/
def SameStatement (executed validated : String) : Prop :=
  ∃ statement, pgStatements executed = some [statement] ∧ pgStatements validated = some [statement]

/-- The parser takes the texts PostgreSQL can read, with as many statements. -/
def ReadsStatements (parser : SqlParser) : Prop :=
  ∀ text parsed, statements parser text = .ok parsed →
    ∃ read, pgStatements text = some read ∧ read.length = parsed.length

/-- The guard's scanner and PostgreSQL's reader go together on a text: on its
comments, and on the ends of what is left. -/
structure ReadAlike (sql : String) : Prop where
  /-- On comments. -/
  comments : agrees .plain .code sql.toList = true
  /-- On the ends. -/
  ends : endsAgree (stripSqlComments sql).toList = true

variable {settings : SqlLabSettings} {guard : Guard} {parser : SqlParser} {casing : Casing} {sql user text : String}

/-- An accepted text that is read alike is one statement, the validated one. -/
theorem sameStatement_of_accepted (hparser : ReadsStatements parser) (haccepted : validate guard parser casing sql = .ok text)
    (h : ReadAlike sql) : SameStatement sql text := by
  obtain ⟨rfl, statement, hparse, -⟩ := validate_accepted haccepted
  obtain ⟨read, hread, hlength⟩ := hparser _ _ hparse
  obtain ⟨one, rfl⟩ := List.length_eq_one_iff.mp hlength
  have hsame : pgStatements sql = pgStatements (normalized sql) :=
    (pgStatements_strip h.comments).trans (pgStatements_normalized h.ends)
  exact ⟨one, hsame.trans hread, hread⟩

/-- A parser that knows `SELECT 1`. -/
def oneParser : SqlParser where
  parse text :=
    if text = "SELECT 1" then
      .ok [some (.node ⟨.select, [], false⟩ [(.expressions, .node ⟨.literal, [(.this, "1")], false⟩ [])])]
    else .error (.sqlglotError "unknown")
  limitSql _ _ := ""

/-- It reads what PostgreSQL reads. -/
theorem oneParser_reads : ReadsStatements oneParser := by
  intro text parsed hparsed
  by_cases htext : text = "SELECT 1"
  · have hread : (pgStatements "SELECT 1").map List.length = some 1 := by decide +kernel
    obtain ⟨read, hsome, hlength⟩ := Option.map_eq_some_iff.mp hread
    have hone : parsed.length = 1 := by
      simp only [statements, oneParser, if_pos htext, Except.ok.injEq] at hparsed
      rw [← hparsed]
      rfl
    exact ⟨read, htext ▸ hsome, hlength.trans hone.symm⟩
  · simp [statements, oneParser, htext] at hparsed

/-- A database, clock and audit store that answer every call. -/
def sampleDatabase : ProgramContracts.Behaviour SqlLabFailure SqlLabAnswer
  | .connect _ _ => .ok ()
  | .execute _ _ => .ok ["?column?"]
  | .fetchmany _ => .ok [[("?column?", .int 1)]]
  | .rollback => .ok ()
  | .close => .ok ()
  | .perfCounter => .ok 0
  | .uuid4 => .ok "record-1"
  | .utcnow => .ok 0
  | .insertAudit _ => .ok ()

/-- Settings with the viewer's credentials. -/
def sampleViewer : SqlLabSettings := ⟨some "viewer", some "secret", 100, 5000⟩

/-- A request of a statement on that database. -/
def sampleRun (sql : String) : SqlLab SqlRunResult :=
  run sampleViewer usersGuard oneParser asciiCasing sql "user-1"

/-- The statement is executed. -/
def Executes (sql : String) : Prop :=
  ∃ e ∈ (ProgramContracts.Program.against sampleDatabase (sampleRun sql)).1, e.action = .execute sql []

/-- Which can be computed. -/
theorem executes_of_any {sql : String} (h : ((ProgramContracts.Program.against sampleDatabase (sampleRun sql)).1.any
    fun e => decide (e.action = .execute sql [])) = true) : Executes sql := by
  obtain ⟨e, he, hcall⟩ := List.any_eq_true.mp h
  exact ⟨e, he, of_decide_eq_true hcall⟩

end Executed

end RagSystem.ExecutedText
