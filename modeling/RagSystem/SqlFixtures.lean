import RagSystem.ProgramContracts
import RagSystem.SqlNormalization

/-!
# The rows a replay is given

SQL results are recorded under the key of their query. A replay that generates
a query is given the rows found under its key: those recorded for a query that
differs in white space, letter case and trailing semicolons at most, unless two
normal forms have one digest. Any number of processes record and replay.
-/

namespace RagSystem.SqlFixtures

open AtomicProgram ThreadPool ProgramContracts Storage VersionedCell CompareAndSwap ReplayRuns SqlNormalization

set_option autoImplicit false

section Statement

variable (settings : ReplaySettings) (Recorded : String → String → List String → Prop)

/-- `create_sql_fixture`. -/
def createSqlFixture (corpusSnapshotId sql : String) (rows : List String) : Prog SqlResultFixture := do
  let fixture : SqlResultFixture := ⟨sql, rows⟩
  createJson (P := Payload) (.sqlResultFixture corpusSnapshotId (normalizedSqlHash settings sql)) fixture
  pure fixture

/-- What the processes run, where `Recorded` says which rows are recorded for
which query of which snapshot. -/
inductive ServiceOperation where
  /-- An operation on replay runs. -/
  | replay (o : Operation)
  /-- Rows are recorded. -/
  | createSqlFixture (corpusSnapshotId sql : String) (rows : List String) (h : Recorded corpusSnapshotId sql rows)

/-- The program of each. -/
def serviceCode : ServiceOperation Recorded → Prog (Reply ⊕ SqlResultFixture)
  | .replay o => .inl <$> code settings o
  | .createSqlFixture corpusSnapshotId sql rows _ => .inr <$> createSqlFixture settings corpusSnapshotId sql rows

/-- Different normal forms have one digest. -/
def Collide (a b : String) : Prop :=
  normalizeSql settings a ≠ normalizeSql settings b ∧ normalizedSqlHash settings a = normalizedSqlHash settings b

/-- The rows were recorded for this query, or for one that is the same up to
white space, letter case and trailing semicolons, or for one that collides with
it. -/
def RowsFor (corpusSnapshotId sql : String) (rows : List String) : Prop :=
  ∃ sql', Recorded corpusSnapshotId sql' rows ∧ (SameQuery settings.casefold sql' sql ∨ Collide settings sql' sql)

/-- The process has loaded a snapshot and generated a query, and these are its
rows. -/
def Supplied (question : String) (config : AIConfigurationVersion) (rows : List String) (h : History Err Answer) : Prop :=
  ∃ corpusSnapshotId snapshot sql, ⟨.getJson (.corpusSnapshot corpusSnapshotId), .ok (some snapshot)⟩ ∈ h ∧
    ⟨.other (.generateSql question config), .ok sql⟩ ∈ h ∧ RowsFor settings Recorded corpusSnapshotId sql rows

/-- A fixture under the key of its query, with its rows. -/
def Filed (corpusSnapshotId fixtureId : String) (fixture : SqlResultFixture) : Prop :=
  Recorded corpusSnapshotId fixture.sql fixture.rows ∧ fixtureId = normalizedSqlHash settings fixture.sql

/-- All fixtures in the store are. -/
def AllFiled (w : World) : Prop :=
  ∀ corpusSnapshotId fixtureId fixture,
    (w.objects (.sqlResultFixture corpusSnapshotId fixtureId)).content = some fixture →
      Filed settings Recorded corpusSnapshotId fixtureId fixture

/-- What is found under the key of a fixture. -/
def Finds (e : CallEvent) : Prop :=
  match e with
  | ⟨.getJson (.sqlResultFixture corpusSnapshotId fixtureId), .ok (some fixture)⟩ =>
    Filed settings Recorded corpusSnapshotId fixtureId fixture
  | _ => True

/-- Fixtures are filed under their keys, and answers generated from rows that
were supplied. -/
def Proper (h : History Err Answer) (e : CallEvent) : Prop :=
  match e.action with
  | .putJson (.sqlResultFixture corpusSnapshotId fixtureId) fixture =>
    Filed settings Recorded corpusSnapshotId fixtureId fixture
  | .putJsonConditional (.sqlResultFixture corpusSnapshotId fixtureId) fixture _ =>
    Filed settings Recorded corpusSnapshotId fixtureId fixture
  | .other (.generateAnswer question config _ _ (some rows)) => Supplied settings Recorded question config rows h
  | _ => True

end Statement

section Aside

variable {settings : ReplaySettings} {Recorded : String → String → List String → Prop} {α β : Type}
  {h : History Err Answer}

/-- A call that files no fixture and generates nothing from rows. -/
def Aside : Action → Prop
  | .putJson (.sqlResultFixture _ _) _ => False
  | .putJsonConditional (.sqlResultFixture _ _) _ _ => False
  | .other (.generateAnswer _ _ _ _ (some _)) => False
  | _ => True

/-- In a store of filed fixtures, the program acts properly and ends so. -/
abbrev Serves (settings : ReplaySettings) (Recorded : String → String → List String → Prop)
    (Q : EndPredicate Err Answer α) (p : Prog α) (h : History Err Answer) : Prop :=
  Ensures (fun _ e => Finds settings Recorded e) (Proper settings Recorded) Q p h

/-- What happened has happened. -/
abbrev After (h : History Err Answer) : EndPredicate Err Answer α := fun h' _ => ∀ e ∈ h, e ∈ h'

/-- A call aside is proper. -/
theorem proper_of_aside {e : CallEvent} (haside : Aside e.action) : Proper settings Recorded h e := by
  obtain ⟨action, answer⟩ := e
  cases action with
  | getJson k => trivial
  | getJsonWithEtag k => trivial
  | putJson k v =>
    cases k with
    | sqlResultFixture snapshot fixture => exact False.elim haside
    | _ => trivial
  | putJsonConditional k v c =>
    cases k with
    | sqlResultFixture snapshot fixture => exact False.elim haside
    | _ => trivial
  | other x =>
    cases x with
    | generateAnswer question config route hits rows =>
      cases rows with
      | none => trivial
      | some rows => exact False.elim haside
    | _ => trivial

/-- A program of calls aside does nothing improper. -/
theorem serves_aside {p : Prog α} (hp : p.Uses Aside) : Serves settings Recorded (After h) p h := by
  refine Ensures.of_uses (I := fun h' => ∀ e ∈ h, e ∈ h') hp (fun h' e haside hpast _ => ⟨?_, ?_⟩) fun e he => he
  · exact proper_of_aside haside
  · exact fun e' he' => List.mem_append_left _ (hpast e' he')

/-- Then another program. -/
theorem serves_bind {P : History Err Answer → β → Prop} {p : Prog α} {f : α → Prog β} (hp : p.Uses Aside)
    (hf : ∀ h' a, (∀ e ∈ h, e ∈ h') → Serves settings Recorded (Returns P) (f a) h') :
    Serves settings Recorded (Returns P) (p.bind f) h :=
  Ensures.andThen (serves_aside hp) hf

/-- Where nothing need be known of what is returned. -/
theorem serves_uses {p : Prog α} (hp : p.Uses Aside) : Serves settings Recorded (Returns fun _ _ => True) p h :=
  (serves_aside hp).ending fun _ _ _ _ _ => trivial

variable (settings Recorded h) in
/-- One call aside: it is in the past, and what it found is as it is to be. -/
theorem serves_perform {a : Action} (haside : Aside a) :
    Serves settings Recorded
      (fun h' r => (∀ e ∈ h, e ∈ h') ∧ ⟨a, r⟩ ∈ h' ∧ Finds settings Recorded ⟨a, r⟩) (perform (B := Answer) a) h := by
  refine Ensures.perform (B := Answer) (a := a) fun r hfinds => ⟨proper_of_aside haside, ?_⟩
  exact ⟨fun e he => List.mem_append_left _ he, List.mem_append_right _ (List.mem_singleton_self _), hfinds⟩

end Aside

section Parts

variable {settings : ReplaySettings} {Recorded : String → String → List String → Prop} {h : History Err Answer}

theorem aside_getJson (k : ReplayKey) : (getJson k : Prog (Option (Payload k))).Uses Aside := Program.uses_perform trivial

theorem aside_loadAIConfigVersion (reference : String) : (loadAIConfigVersion reference).Uses Aside := by
  refine (aside_getJson _).bind fun payload => ?_
  cases payload <;> trivial

theorem aside_checkCancelled (run : ReplayRun) : (checkCancelled run).Uses Aside :=
  (aside_getJson _).bind fun _ => trivial

theorem aside_stageBoundary (run : ReplayRun) (start : ℚ) : (stageBoundary settings run start).Uses Aside := by
  have htimeout : (checkTimeout settings start).Uses Aside := by
    refine Program.Uses.bind (Program.uses_perform trivial) fun now => ?_
    split
    · trivial
    · trivial
  refine htimeout.bind fun _ => (aside_checkCancelled run).bind fun cancelled => ?_
  split
  · trivial
  · trivial

theorem aside_buildEvidence (items : List (Except String EvidenceModels.EvidenceItem)) :
    (buildEvidence items).Uses Aside := by
  induction items with
  | nil => trivial
  | cons item items ih =>
    cases item with
    | ok item => exact ih.bind fun _ => trivial
    | error e => trivial

theorem aside_transition (run : ReplayRun) : (transition run).Uses Aside :=
  uses_updateJsonCas trivial (fun _ _ _ _ => trivial) maxAttempts

theorem aside_recordFailure (run : ReplayRun) (e : Err) : (recordFailure settings run e).Uses Aside := by
  unfold recordFailure
  split
  · exact aside_transition _
  · exact aside_transition _
  · exact aside_transition _
  · exact aside_transition _

/-- The snapshot that was loaded is in the past. -/
theorem serves_loadSnapshot (snapshotId : String) :
    Serves settings Recorded
      (Returns fun h' _ => (∀ e ∈ h, e ∈ h') ∧ ∃ snapshot, ⟨.getJson (.corpusSnapshot snapshotId), .ok (some snapshot)⟩ ∈ h')
      (loadSnapshot snapshotId) h := by
  have hread := serves_perform settings Recorded h
    (a := .getJson (.corpusSnapshot snapshotId)) trivial
  refine Ensures.andThen hread fun h' payload hpast => ?_
  cases payload with
  | none => exact .raises
  | some snapshot => exact .returns ⟨hpast.1, snapshot, hpast.2.1⟩

/-- What was supplied stays supplied. -/
theorem Supplied.mono {question : String} {config : AIConfigurationVersion} {rows : List String} {h' : History Err Answer}
    (hsupplied : Supplied settings Recorded question config rows h) (hkept : ∀ e ∈ h, e ∈ h') :
    Supplied settings Recorded question config rows h' := by
  obtain ⟨id, snapshot, sql, hloaded, hgenerated, hrows⟩ := hsupplied
  exact ⟨id, snapshot, sql, hkept _ hloaded, hkept _ hgenerated, hrows⟩

/-- The rows of the SQL route are those recorded for the generated query. -/
theorem serves_replayRows {request : ReplayRunRequest} {config : AIConfigurationVersion} {route : String}
    (hsnapshot : ∃ snapshot, ⟨.getJson (.corpusSnapshot request.corpusSnapshotId), .ok (some snapshot)⟩ ∈ h) :
    Serves settings Recorded
      (Returns fun h' found => ∀ rows, found = some rows → Supplied settings Recorded request.question config rows h')
      (replayRows settings request config route) h := by
  unfold replayRows
  split
  · have hgenerate := serves_perform settings Recorded h
      (a := .other (.generateSql request.question config)) trivial
    refine Ensures.andThen hgenerate fun h₁ sql hgenerated => ?_
    have hlookup : Serves settings Recorded
        (Returns fun h' fixture => (∀ e ∈ h₁, e ∈ h') ∧
          Filed settings Recorded request.corpusSnapshotId (normalizedSqlHash settings sql) fixture)
        (lookupSqlFixture settings request.corpusSnapshotId sql) h₁ := by
      have hread := serves_perform settings Recorded h₁
        (a := .getJson (.sqlResultFixture request.corpusSnapshotId (normalizedSqlHash settings sql))) trivial
      refine Ensures.andThen hread fun h' payload hpast => ?_
      cases payload with
      | none => exact .raises
      | some fixture => exact .returns ⟨hpast.1, hpast.2.2⟩
    refine Ensures.andThen hlookup fun h₂ fixture hfixture => .returns fun rows hrows => ?_
    have hfound := hfixture fixture rfl
    injection hrows with hrows
    subst hrows
    obtain ⟨snapshot, hloaded⟩ := hsnapshot
    refine ⟨_, snapshot, sql, hfound.1 _ (hgenerated.1 _ hloaded), hfound.1 _ hgenerated.2.1, ?_⟩
    refine ⟨fixture.sql, hfound.2.1, ?_⟩
    by_cases hsame : normalizeSql settings fixture.sql = normalizeSql settings sql
    · exact .inl (sameQuery_of_normalizeSql hsame)
    · exact .inr ⟨hsame, hfound.2.2.symm⟩
  · exact .returns fun rows hrows => nomatch hrows

/-- An answer is generated from rows that were supplied. -/
theorem serves_executeWithTimeout (run : ReplayRun) (start : ℚ) :
    Serves settings Recorded (Returns fun _ _ => True) (executeWithTimeout settings run start) h := by
  refine serves_bind (aside_loadAIConfigVersion _) fun h config _ => ?_
  refine Ensures.andThen (serves_loadSnapshot _) fun h snapshot hpast => ?_
  obtain ⟨-, loaded, hloaded⟩ := hpast snapshot rfl
  refine serves_bind (aside_stageBoundary _ _) fun h₁ _ hkept => serves_bind (Program.uses_perform trivial) fun h₂ route hkept₂ => ?_
  refine serves_bind (aside_stageBoundary _ _) fun h₃ _ hkept₃ => serves_bind (Program.uses_perform trivial) fun h₄ retrieval hkept₄ => ?_
  refine serves_bind (aside_stageBoundary _ _) fun h₅ _ hkept₅ => ?_
  have hstill := hkept₅ _ (hkept₄ _ (hkept₃ _ (hkept₂ _ (hkept _ hloaded))))
  refine Ensures.andThen (serves_replayRows ⟨loaded, hstill⟩) fun h₆ rows hrows => ?_
  have hsupplied := hrows rows rfl
  refine serves_bind (aside_stageBoundary _ _) fun h₇ _ hkept₇ => ?_
  have hanswer : Serves settings Recorded (fun _ _ => True)
      (call (.generateAnswer run.request.question config route retrieval.hits rows)) h₇ := by
    refine Ensures.perform (B := Answer) (a := .other (.generateAnswer run.request.question config route retrieval.hits rows))
      fun r _ => ⟨?_, trivial⟩
    cases rows with
    | none => trivial
    | some rows => exact (hsupplied rows rfl).mono hkept₇
  refine Ensures.andThen hanswer fun h₈ output _ => ?_
  refine serves_uses (Program.Uses.bind (Program.uses_perform trivial) fun finished => ?_)
  exact (aside_buildEvidence _).bind fun _ => trivial

/-- A worker does nothing improper. -/
theorem serves_executeRun (runId : String) :
    Serves settings Recorded (Returns fun _ _ => True) (executeRun settings runId) h := by
  have hstarted : ∀ (run : ReplayRun) h, Serves settings Recorded (Returns fun _ _ => True) (executeStarted settings run) h := by
    intro run h
    refine serves_bind (Program.uses_perform trivial) fun h₁ start _ => ?_
    refine Ensures.catchError (Q := Returns fun _ _ => True) ?_ (fun _ _ _ _ _ => trivial) fun h₂ e _ => ?_
    · refine Ensures.andThen (serves_executeWithTimeout run start) fun h₂ result _ => ?_
      exact serves_uses (aside_transition _)
    · exact serves_uses (aside_recordFailure run e)
  refine serves_bind (aside_getJson _) fun h₁ loaded _ => ?_
  cases loaded with
  | none => exact .returns trivial
  | some run =>
    simp only
    split
    · exact .returns trivial
    · have hcancelled : (isCancelled run).Uses Aside := by
        unfold isCancelled
        split
        · trivial
        · exact aside_checkCancelled run
      refine serves_bind hcancelled fun h₂ stop _ => ?_
      split
      · exact serves_bind (aside_transition _) fun h₃ _ _ => .returns trivial
      · refine serves_bind (aside_transition _) fun h₃ persisted _ => ?_
        split
        · exact .returns trivial
        · exact Ensures.andThen (hstarted _ _) fun h₄ _ _ => .returns trivial

/-- Nor does any operation. -/
theorem serves_serviceCode (o : ServiceOperation Recorded) :
    Serves settings Recorded (Returns fun _ _ => True) (serviceCode settings Recorded o) [] := by
  cases o with
  | replay o =>
    refine Ensures.andThen (Q := Returns fun _ _ => True) ?_ fun h a _ => .returns trivial
    cases o with
    | executeRun runId => exact Ensures.andThen (serves_executeRun runId) fun h a _ => .returns trivial
    | cancelReplayRun id =>
      refine serves_uses (Program.Uses.bind (Program.Uses.bind (aside_getJson _) fun payload => ?_) fun _ => trivial)
      cases payload with
      | none => trivial
      | some run =>
        simp only
        split
        · trivial
        · exact uses_updateJsonCas trivial (fun _ _ _ _ => trivial) maxAttempts
    | transition target => exact serves_uses ((aside_transition _).bind fun _ => trivial)
  | createSqlFixture corpusSnapshotId sql rows hrecorded =>
    have hwrite : Serves settings Recorded (fun _ _ => True)
        (createJson (P := Payload) (.sqlResultFixture corpusSnapshotId (normalizedSqlHash settings sql)) ⟨sql, rows⟩) [] :=
      Ensures.perform (B := Answer)
        (a := .putJsonConditional (.sqlResultFixture corpusSnapshotId (normalizedSqlHash settings sql)) ⟨sql, rows⟩ .ifNoneMatch)
        fun r _ => ⟨⟨hrecorded, rfl⟩, trivial⟩
    refine Ensures.andThen (Q := Returns fun _ _ => True) ?_ fun h a _ => .returns trivial
    exact Ensures.andThen hwrite fun h _ _ => .returns trivial

end Parts

section Runs

variable {settings : ReplaySettings} {Recorded : String → String → List String → Prop}

/-- Writing a filed fixture, or anything else, keeps the fixtures filed. -/
theorem AllFiled.put {w : World} (hw : AllFiled settings Recorded w) {k : ReplayKey} {v : Payload k}
    (hv : ∀ h : History Err Answer, Proper settings Recorded h ⟨.putJson k v, .ok ()⟩) :
    AllFiled settings Recorded { w with objects := put w.objects k v } := by
  intro corpusSnapshotId fixtureId fixture hcontent
  by_cases hk : ReplayKey.sqlResultFixture corpusSnapshotId fixtureId = k
  · subst hk
    simp only [put_self, Cell.write_content, Option.some.injEq] at hcontent
    subst hcontent
    exact hv []
  · simp only [put_of_ne _ _ hk] at hcontent
    exact hw _ _ _ hcontent

/-- Proper calls keep the fixtures filed. -/
theorem AllFiled.exec {h : History Err Answer} {e : CallEvent} {w w' : World} (hw : AllFiled settings Recorded w)
    (he : replay.Exec e w w') (hproper : Proper settings Recorded h e) : AllFiled settings Recorded w' := by
  obtain ⟨action, answer⟩ := e
  cases action with
  | getJson k => rwa [(exec_getJson he).1]
  | getJsonWithEtag k => rwa [(exec_getJsonWithEtag he).1]
  | putJson k v =>
    rcases exec_putJson he with ⟨-, rfl⟩ | ⟨rfl, -⟩
    · refine hw.put fun h' => ?_
      cases k with
      | sqlResultFixture snapshot fixture => exact hproper
      | _ => trivial
    · exact hw
  | putJsonConditional k v c =>
    rcases exec_putJsonConditional he with ⟨-, -, rfl⟩ | ⟨rfl, -⟩
    · refine hw.put fun h' => ?_
      cases k with
      | sqlResultFixture snapshot fixture => exact hproper
      | _ => trivial
    · exact hw
  | other x =>
    obtain ⟨o, rest, -, rfl⟩ := exec_other he
    exact hw

/-- What is found among filed fixtures is filed. -/
theorem finds_of_exec {e : CallEvent} {w w' : World} (hw : AllFiled settings Recorded w) (he : replay.Exec e w w') :
    Finds settings Recorded e := by
  unfold Finds
  split
  · next snapshot fixtureId fixture =>
    rcases (exec_getJson he).2 with hfound | ⟨m, hraised⟩
    · injection hfound with hfound
      exact hw _ _ _ hfound.symm
    · contradiction
  · trivial

/-- Queries of one key differ in white space, letter case and trailing
semicolons at most, and in every run every answer that is generated from rows
is generated from rows recorded for such a query, or for one that collides with
it. -/
theorem fixtures_answer_queries (settings : ReplaySettings) (Recorded : String → String → List String → Prop) :
    (∀ a b, normalizeSql settings a = normalizeSql settings b → SameQuery settings.casefold a b) ∧
      ∀ {p q ms}, Run replay (serviceCode settings Recorded) p ms q → (∀ t, p.threads t = none) →
        AllFiled settings Recorded p.world → ∀ m ∈ ms, ∀ question config route hits rows,
          m.event.action = .other (.generateAnswer question config route hits (some rows)) →
            Supplied settings Recorded question config rows m.runner.past := by
  constructor
  · exact fun a b hsame => sameQuery_of_normalizeSql hsame
  · intro p q ms hrun hidle hfiled m hm question config route hits rows haction
    have hcontract := contracted_of_run hrun hidle (fun o => serves_serviceCode o) hfiled
      (fun h e w w' hw he => finds_of_exec hw he) (fun h e w w' hw he hproper => hw.exec he hproper)
    have hproper := (hcontract.moves m hm).2.2
    unfold Proper at hproper
    rw [haction] at hproper
    exact hproper

end Runs

section Sample

/-- Rows recorded for a query with a blank in a literal. -/
def OneBlank (corpusSnapshotId sql : String) (rows : List String) : Prop :=
  corpusSnapshotId = "s" ∧ sql = "select 'a b'" ∧ rows = ["1"]

/-- Every text of the sample is in lower case, and has this digest. -/
def plainSettings : ReplaySettings where
  timeoutS := 300
  pricingMap := fun _ => none
  casefold := fun text => text
  sha256Hex := fun _ => "2d5c19ad184bca50a855f095315f0388875fb8a8f83a31395ebafd38bcf90714"
  repr := fun text => "\"" ++ text ++ "\""

/-- The replay generates the query with two blanks. -/
def twoBlanks : Action → Choice Fate
  | .other (.classifyRoute _ _) => .other (.text "database")
  | .other (.generateSql _ _) => .other (.text "select 'a  b'")
  | a => calm a

/-- The rows are recorded, then a run is replayed. -/
def sampleTurns : List (Command (Choice Fate) (ServiceOperation OneBlank) Action) :=
  .start 0 (.createSqlFixture "s" "select 'a b'" ["1"] ⟨rfl, rfl, rfl⟩) :: .step 0 twoBlanks ::
    .start 1 (.replay (.executeRun "r")) :: List.replicate 21 (.step 1 twoBlanks)

/-- The store before. -/
abbrev idlePool : Pool World (ServiceOperation OneBlank) Err Answer (Reply ⊕ SqlResultFixture) := Pool.idle sampleWorld

/-- An answer is generated from the recorded rows. -/
def fromRows (e : CallEvent) : Bool :=
  match e.action with
  | .other (.generateAnswer _ _ _ _ (some rows)) => rows = ["1"]
  | _ => false

theorem of_fromRows {e : CallEvent} (he : fromRows e = true) :
    ∃ question config route hits, e.action = .other (.generateAnswer question config route hits (some ["1"])) := by
  unfold fromRows at he
  split at he
  · next question config route hits rows haction =>
    have hrows : rows = ["1"] := by simpa using he
    rw [hrows] at haction
    exact ⟨question, config, route, hits, haction⟩
  · contradiction

theorem fixtures_answer_sample : SameQuery plainSettings.casefold "select  1;" "select 1" ∧
    ∃ ms, Run replay (serviceCode plainSettings OneBlank) idlePool ms
        (idlePool.reached replay (serviceCode plainSettings OneBlank) sampleTurns) ∧
      ∃ m ∈ ms, ∃ question config, Supplied plainSettings OneBlank question config ["1"] m.runner.past := by
  have hboth := fixtures_answer_queries plainSettings OneBlank
  have hdriven : (idlePool.drive replay (serviceCode plainSettings OneBlank) sampleTurns).isSome = true := by decide +kernel
  have hrun := Run.reached hdriven
  have hgiven : ∃ m ∈ idlePool.moves replay (serviceCode plainSettings OneBlank) sampleTurns, fromRows m.event = true := by
    decide +kernel
  have hempty : AllFiled plainSettings OneBlank idlePool.world := fun _ _ _ hcontent => nomatch hcontent
  obtain ⟨m, hm, hrows⟩ := hgiven
  obtain ⟨question, config, route, hits, haction⟩ := of_fromRows hrows
  have hsupplied := hboth.2 hrun (fun _ => rfl) hempty m hm question config route hits ["1"] haction
  exact ⟨hboth.1 "select  1;" "select 1" (by decide +kernel), _, hrun, m, hm, question, config, hsupplied⟩

/-- The texts in quotes. -/
def quotedTexts : Option (Char × List Char) → List Char → List (List Char)
  | none, [] => []
  | some (_, text), [] => [text.reverse]
  | none, c :: sql => if c = '\'' ∨ c = '"' then quotedTexts (some (c, [])) sql else quotedTexts none sql
  | some (mark, text), c :: sql =>
    if c = mark then text.reverse :: quotedTexts none sql else quotedTexts (some (mark, c :: text)) sql

/-- Queries with one key differ in a literal, and the rows of the one answer
the other. -/
theorem literal_folded : normalizeSql plainSettings "select 'a b'" = normalizeSql plainSettings "select 'a  b'" ∧
    quotedTexts none "select 'a b'".toList ≠ quotedTexts none "select 'a  b'".toList ∧
      ∃ m ∈ idlePool.moves replay (serviceCode plainSettings OneBlank) sampleTurns, fromRows m.event = true := by
  decide +kernel

end Sample

end RagSystem.SqlFixtures
