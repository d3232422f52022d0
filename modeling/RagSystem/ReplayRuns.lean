import Mathlib.Data.Rat.Defs
import Mathlib.Algebra.Order.Ring.Rat
import RagSystem.CompareAndSwap
import RagSystem.EvidenceModels

/-!
# Replay runs

The replay worker and the cancellation of a run, as programs of store reads,
compare-and-swaps, clock readings and executor calls. The executor may answer
or raise anything. Logging and metrics are left out.
-/

namespace RagSystem.ReplayRuns

open AtomicProgram Storage VersionedCell DocumentModels EvidenceModels

set_option autoImplicit false

section Models

/-- `ReplayRunState`. -/
inductive ReplayRunState where
  | queued | running | completed | failed | cancelled
  deriving DecidableEq

/-- `_TERMINAL_REPLAY_STATES`. -/
def ReplayRunState.terminal : ReplayRunState → Bool
  | .completed | .failed | .cancelled => true
  | _ => false

/-- `ReplayRunRequest` with its retrieval parameters. -/
structure ReplayRunRequest where
  /-- The question. -/
  question : String
  /-- The configuration version to replay under. -/
  aiConfigurationVersionId : String
  /-- How many passages to retrieve. -/
  maxPassages : ℕ
  /-- The least score of a passage. -/
  minScore : ℚ
  /-- The corpus to replay against. -/
  corpusSnapshotId : String
  deriving DecidableEq

/-- `ReplayRunResult`. -/
structure ReplayRunResult where
  /-- The answer. -/
  answer : String
  /-- What it rests on. -/
  evidence : List EvidenceItem
  /-- The route taken. -/
  route : String
  /-- The scores of the passages, clamped to the unit interval. -/
  retrievalScores : List ℚ
  /-- How long the run took. -/
  latencyMs : ℚ
  /-- Tokens in. -/
  promptTokens : ℤ
  /-- Tokens out. -/
  completionTokens : ℤ
  /-- What it cost. -/
  cost : ℚ
  deriving DecidableEq

/-- `ReplayRun`. -/
structure ReplayRun where
  /-- The run. -/
  replayRunId : String
  /-- How far it has come. -/
  state : ReplayRunState
  /-- What was asked for. -/
  request : ReplayRunRequest
  /-- What it found. -/
  result : Option ReplayRunResult := none
  /-- Why it failed. -/
  failureReason : Option String := none
  /-- It is to stop. -/
  cancelRequested : Bool := false
  deriving DecidableEq

/-- `AIConfigurationVersion`, its settings as JSON text. -/
structure AIConfigurationVersion where
  /-- The configuration. -/
  configId : String
  /-- The version. -/
  versionId : String
  /-- The prompt. -/
  prompt : String
  /-- The model. -/
  model : String
  /-- The output schema. -/
  outputSchema : String
  /-- The router's threshold. -/
  routerThreshold : ℚ
  /-- The retrieval settings. -/
  retrievalSettings : String
  deriving DecidableEq

/-- `CorpusSnapshot`: the document versions a replay sees. -/
structure CorpusSnapshot where
  /-- The snapshot. -/
  corpusSnapshotId : String
  /-- Its document versions. -/
  manifest : List (DocumentId × Version)
  deriving DecidableEq

/-- `SqlResultFixture`, its rows as JSON text. -/
structure SqlResultFixture where
  /-- The query. -/
  sql : String
  /-- Its rows. -/
  rows : List String
  deriving DecidableEq

/-- `ModelPricing`. -/
structure ModelPricing where
  /-- Dollars for a thousand tokens in. -/
  promptUsdPer1k : ℚ
  /-- Dollars for a thousand tokens out. -/
  completionUsdPer1k : ℚ

/-- What a retrieval pass returned: the hits as JSON text, and their scores. -/
structure RetrievalResult where
  /-- The hits. -/
  hits : List String
  /-- Their scores. -/
  scores : List ℚ
  deriving DecidableEq

/-- What the executor generated. An evidence item that does not validate is the
text of its validation error. -/
structure GenerationOutput where
  /-- The answer. -/
  answer : Option String
  /-- The evidence. -/
  evidence : List (Except String EvidenceItem)
  /-- Tokens in. -/
  promptTokens : Option ℤ
  /-- Tokens out. -/
  completionTokens : Option ℤ

/-- What the worker takes from its configuration and from Python's library. -/
structure ReplaySettings where
  /-- `replay_job_timeout_s`. -/
  timeoutS : ℕ
  /-- The prices of the models. -/
  pricingMap : String → Option ModelPricing
  /-- `str.casefold`. -/
  casefold : String → String
  /-- `hashlib.sha256(..).hexdigest()`. -/
  sha256Hex : Bytes → String
  /-- `repr` of a string. -/
  repr : String → String

end Models

section Normalization

/-- `re.sub(r"\s+", " ", text)`: every run of white space becomes one blank. -/
def collapseSpace : List Char → List Char
  | [] => []
  | c :: cs =>
    match collapseSpace cs with
    | rest => if isSpace c then (if rest.head? = some ' ' then rest else ' ' :: rest) else c :: rest

/-- The loop that drops trailing semicolons, each with the white space before
it; the text is given back to front. It stops at the first other character. -/
def dropSemicolons (cs : List Char) : List Char :=
  if cs.head? = some ';' then cs.dropWhile fun c => c = ';' || isSpace c else cs

/-- `normalize_sql`. -/
def normalizeSql (settings : ReplaySettings) (sql : String) : String :=
  let collapsed := strip (String.ofList (collapseSpace sql.toList))
  settings.casefold (String.ofList (dropSemicolons collapsed.toList.reverse).reverse)

/-- `normalized_sql_hash`. -/
def normalizedSqlHash (settings : ReplaySettings) (sql : String) : String :=
  settings.sha256Hex (utf8 (normalizeSql settings sql))

end Normalization

section Store

/-- The objects a replay reads and writes. -/
inductive ReplayKey where
  /-- `replay_run_key`. -/
  | replayRun (replayRunId : String)
  /-- `ai_config_version_key`. -/
  | aiConfigVersion (configId versionId : String)
  /-- `corpus_snapshot_key`. -/
  | corpusSnapshot (corpusSnapshotId : String)
  /-- `sql_result_fixture_key`. -/
  | sqlResultFixture (corpusSnapshotId fixtureId : String)
  deriving DecidableEq

/-- What is stored under each key. -/
abbrev Payload : ReplayKey → Type
  | .replayRun _ => ReplayRun
  | .aiConfigVersion _ _ => AIConfigurationVersion
  | .corpusSnapshot _ => CorpusSnapshot
  | .sqlResultFixture _ _ => SqlResultFixture

/-- The exceptions the replay code raises itself. -/
inductive ReplayError where
  /-- `ReplayValidationError`. -/
  | validation (code detail : String)
  /-- `MissingFixtureError`. -/
  | missingFixture (message : String)
  /-- `_CancelledAtBoundary`. -/
  | cancelledAtBoundary
  /-- `_TimeoutExpired`. -/
  | timeoutExpired
  /-- Any other exception. -/
  | runtimeError (message : String)
  deriving DecidableEq

/-- Everything a call can raise. -/
abbrev Err := StoreError ReplayKey ReplayError

/-- The object key an exception about `k` shows. -/
def ReplayKey.path : ReplayKey → String
  | .replayRun id => "replays/" ++ id ++ ".json"
  | .aiConfigVersion c v => "ai_config/" ++ c ++ "/versions/" ++ v ++ ".json"
  | .corpusSnapshot s => "corpus_snapshots/" ++ s ++ ".json"
  | .sqlResultFixture s f => "corpus_snapshots/" ++ s ++ "/sql/" ++ f ++ ".json"

/-- `str(exc)`. -/
def message : Err → String
  | .preconditionFailed k => k.path
  | .raised m => m
  | .app (.validation _ detail) => detail
  | .app (.missingFixture m) => m
  | .app .cancelledAtBoundary => ""
  | .app .timeoutExpired => ""
  | .app (.runtimeError m) => m

/-- The calls outside the store. -/
inductive ReplayCall where
  /-- `time.monotonic()`. -/
  | monotonic
  /-- `classify_route`. -/
  | classifyRoute (question : String) (config : AIConfigurationVersion)
  /-- `retrieve_snapshot_scoped`. -/
  | retrieveSnapshotScoped (question : String) (config : AIConfigurationVersion)
      (manifest : List (DocumentId × Version)) (maxPassages : ℕ) (minScore : ℚ)
  /-- `generate_sql`. -/
  | generateSql (question : String) (config : AIConfigurationVersion)
  /-- `generate_answer`. -/
  | generateAnswer (question : String) (config : AIConfigurationVersion) (route : String) (hits : List String)
      (sqlRows : Option (List String))
  deriving DecidableEq

/-- What each of these calls returns. -/
abbrev ReplayAnswer : ReplayCall → Type
  | .monotonic => ℚ
  | .classifyRoute _ _ => String
  | .retrieveSnapshotScoped _ _ _ _ _ => RetrievalResult
  | .generateSql _ _ => String
  | .generateAnswer _ _ _ _ _ => GenerationOutput

/-- The store with the clock. -/
abbrev World := StoreState Payload ℚ

/-- A program of the replay code. -/
abbrev Prog (α : Type) := StoreProgram ReplayError Payload ReplayAnswer α

/-- One of its calls. -/
abbrev Action := StoreAction Payload ReplayCall

/-- What a call returns. -/
abbrev Answer : Action → Type := StoreAnswer (P := Payload) ReplayAnswer

/-- One performed call with its answer. -/
abbrev CallEvent := Event Err Answer

/-- What the environment decides about a call outside the store. -/
inductive Fate where
  /-- The clock shows this. -/
  | reading (time : ℚ)
  /-- The call raises. -/
  | raise (message : String)
  /-- The executor returns this text. -/
  | text (s : String)
  /-- The executor found this. -/
  | found (r : RetrievalResult)
  /-- The executor generated this. -/
  | generated (g : GenerationOutput)

/-- What a call outside the store does: the clock never goes back, the executor
answers anything. -/
def perform? : (x : ReplayCall) → Fate → World → Option (Except Err (ReplayAnswer x) × ℚ)
  | .monotonic, .reading t, w => if w.rest ≤ t then some (.ok t, t) else none
  | .classifyRoute _ _, .text s, w => some (.ok s, w.rest)
  | .retrieveSnapshotScoped _ _ _ _ _, .found r, w => some (.ok r, w.rest)
  | .generateSql _ _, .text s, w => some (.ok s, w.rest)
  | .generateAnswer _ _ _ _ _, .generated g, w => some (.ok g, w.rest)
  | .monotonic, _, _ => none
  | _, .raise m, w => some (.error (.raised m), w.rest)
  | _, _, _ => none

/-- What every call does. -/
def replay : Machine (Choice Fate) World Err Answer := machine perform?

/-- The stored run. -/
def World.run (w : World) (id : String) : Option ReplayRun := (w.objects (.replayRun id)).content

end Store

section Service

/-- A call outside the store. -/
def call (x : ReplayCall) : Prog (ReplayAnswer x) := perform (B := Answer) (StoreAction.other x)

/-- The `_mutate` of `cancel_replay_run`, which has read `run`. -/
def cancelRun (run : ReplayRun) : Option ReplayRun → ReplayRun
  | none => run
  | some cur =>
    if cur.state.terminal then cur
    else { cur with cancelRequested := true, state := .cancelled, result := none, failureReason := none }

/-- `cancel_replay_run`. What the holder keeps is what the last `_mutate`
returned. -/
def cancelReplayRun (replayRunId : String) : Prog ReplayRun := do
  let payload : Option ReplayRun ← getJson (P := Payload) (.replayRun replayRunId)
  match payload with
  | none => throw (.app (.validation "not_found" ("Replay run '" ++ replayRunId ++ "' not found.")))
  | some run =>
    if run.state.terminal then pure run
    else updateJsonCas (P := Payload) (.replayRun replayRunId) (fun current => .ok (cancelRun run current)) maxAttempts

end Service

section Worker

/-- `_load_run`. -/
def loadRun (runId : String) : Prog (Option ReplayRun) := getJson (P := Payload) (.replayRun runId)

/-- The `_mutate` of `_transition`. -/
def transitionTo (run : ReplayRun) : Option ReplayRun → ReplayRun
  | none => run
  | some cur =>
    if cur.state.terminal then cur
    else if cur.cancelRequested ∧ run.state ≠ .cancelled then
      { cur with state := .cancelled, result := none, failureReason := none }
    else
      { cur with
        state := run.state
        result := run.result
        failureReason := run.failureReason
        cancelRequested := cur.cancelRequested || run.state = .cancelled }

/-- `_transition`. -/
def transition (run : ReplayRun) : Prog ReplayRun :=
  updateJsonCas (P := Payload) (.replayRun run.replayRunId) (fun current => .ok (transitionTo run current)) maxAttempts

/-- `_check_cancelled`. -/
def checkCancelled (run : ReplayRun) : Prog Bool := do
  let reloaded ← loadRun run.replayRunId
  pure (reloaded.any ReplayRun.cancelRequested)

/-- The configuration and version of a reference: what stands before and after
the first colon, or the default configuration. -/
def splitConfigVersionId (reference : String) : String × String :=
  if ':' ∈ reference.toList then
    (String.ofList (reference.toList.takeWhile (· ≠ ':')),
      String.ofList ((reference.toList.dropWhile (· ≠ ':')).drop 1))
  else ("default", reference)

/-- `_load_ai_config_version`. -/
def loadAIConfigVersion (reference : String) : Prog AIConfigurationVersion := do
  let (configId, versionId) := splitConfigVersionId reference
  let payload : Option AIConfigurationVersion ← getJson (P := Payload) (.aiConfigVersion configId versionId)
  match payload with
  | none => throw (.app (.runtimeError ("AI configuration version '" ++ reference ++
      "' not found during replay execution.")))
  | some config => pure config

/-- `_load_snapshot`. -/
def loadSnapshot (snapshotId : String) : Prog CorpusSnapshot := do
  let payload : Option CorpusSnapshot ← getJson (P := Payload) (.corpusSnapshot snapshotId)
  match payload with
  | none => throw (.app (.runtimeError ("Corpus snapshot '" ++ snapshotId ++
      "' not found during replay execution.")))
  | some snapshot => pure snapshot

/-- `_lookup_sql_fixture`. -/
def lookupSqlFixture (settings : ReplaySettings) (corpusSnapshotId sql : String) : Prog SqlResultFixture := do
  let sqlHash := normalizedSqlHash settings sql
  let payload : Option SqlResultFixture ← getJson (P := Payload) (.sqlResultFixture corpusSnapshotId sqlHash)
  match payload with
  | none => throw (.app (.missingFixture ("SQL result fixture not found for corpus_snapshot_id='" ++
      corpusSnapshotId ++ "', normalized_sql_hash='" ++ sqlHash ++ "' (query: " ++ settings.repr sql ++
      "). A stored fixture is required for SQL-route replay.")))
  | some fixture => pure fixture

/-- `compute_replay_cost`. -/
def computeReplayCost (settings : ReplaySettings) (promptTokens completionTokens : ℤ) (modelId : String) : ℚ :=
  match settings.pricingMap modelId with
  | none => 0
  | some pricing =>
    promptTokens / 1000 * pricing.promptUsdPer1k + completionTokens / 1000 * pricing.completionUsdPer1k

/-- `_check_timeout`. -/
def checkTimeout (settings : ReplaySettings) (startTime : ℚ) : Prog Unit := do
  let now ← call .monotonic
  if settings.timeoutS ≤ now - startTime then throw (.app .timeoutExpired) else pure ()

/-- A stage boundary: the time limit, then the cancel flag. -/
def stageBoundary (settings : ReplaySettings) (run : ReplayRun) (startTime : ℚ) : Prog Unit := do
  checkTimeout settings startTime
  let cancelled ← checkCancelled run
  if cancelled then throw (.app .cancelledAtBoundary) else pure ()

/-- The rows of the SQL route, from the stored fixture. -/
def replayRows (settings : ReplaySettings) (request : ReplayRunRequest) (config : AIConfigurationVersion)
    (route : String) : Prog (Option (List String)) :=
  if route = "database" ∨ route = "sql" then do
    let sqlQuery ← call (.generateSql request.question config)
    let fixture ← lookupSqlFixture settings request.corpusSnapshotId sqlQuery
    pure (some fixture.rows)
  else pure none

/-- The evidence of a generation, or the exception of its first bad item. -/
def buildEvidence : List (Except String EvidenceItem) → Prog (List EvidenceItem)
  | [] => pure []
  | .ok item :: items => do
    let rest ← buildEvidence items
    pure (item :: rest)
  | .error e :: _ => throw (.app (.runtimeError e))

/-- `_execute_with_timeout`. -/
def executeWithTimeout (settings : ReplaySettings) (run : ReplayRun) (startTime : ℚ) : Prog ReplayRunResult := do
  let request := run.request
  let config ← loadAIConfigVersion request.aiConfigurationVersionId
  let snapshot ← loadSnapshot request.corpusSnapshotId
  stageBoundary settings run startTime
  let route ← call (.classifyRoute request.question config)
  stageBoundary settings run startTime
  let retrieval ← call (.retrieveSnapshotScoped request.question config snapshot.manifest request.maxPassages
    request.minScore)
  stageBoundary settings run startTime
  let sqlRows ← replayRows settings request config route
  stageBoundary settings run startTime
  let output ← call (.generateAnswer request.question config route retrieval.hits sqlRows)
  let finished ← call .monotonic
  let evidence ← buildEvidence output.evidence
  pure
    { answer := output.answer.getD ""
      evidence := evidence
      route := route
      retrievalScores := retrieval.scores.map fun s => max 0 (min 1 s)
      latencyMs := (finished - startTime) * 1000
      promptTokens := output.promptTokens.getD 0
      completionTokens := output.completionTokens.getD 0
      cost := computeReplayCost settings (output.promptTokens.getD 0) (output.completionTokens.getD 0) config.model }

/-- The run as a failure of this reason. -/
def failedRun (run : ReplayRun) (reason : String) : ReplayRun :=
  { run with state := .failed, result := none, failureReason := some reason }

/-- The run as cancelled. -/
def cancelledRun (run : ReplayRun) : ReplayRun :=
  { run with state := .cancelled, result := none, failureReason := none }

/-- The `except` clauses of `execute_run`. -/
def recordFailure (settings : ReplaySettings) (run : ReplayRun) : Err → Prog ReplayRun
  | .app .cancelledAtBoundary => transition (cancelledRun run)
  | .app .timeoutExpired =>
    transition (failedRun run ("Replay job timed out after " ++ toString settings.timeoutS ++ "s"))
  | .app (.missingFixture m) => transition (failedRun run m)
  | exc => transition (failedRun run ("Execution error: " ++ message exc))

/-- `execute_run` once the run has been persisted as running. -/
def executeStarted (settings : ReplaySettings) (run : ReplayRun) : Prog ReplayRun := do
  let startTime ← call .monotonic
  tryCatch
    (do
      let result ← executeWithTimeout settings run startTime
      transition { run with state := .completed, result := some result, failureReason := none })
    (recordFailure settings run)

/-- What `execute_run` returns: a run, or the record it makes up for an unknown
id (failed, no request, `Run not found`). -/
inductive RunReport where
  /-- A run. -/
  | run (r : ReplayRun)
  /-- The made-up record. -/
  | notFound (replayRunId : String)

/-- `run.cancel_requested or self._check_cancelled(run)`. -/
def isCancelled (run : ReplayRun) : Prog Bool :=
  if run.cancelRequested then pure true else checkCancelled run

/-- `execute_run`. -/
def executeRun (settings : ReplaySettings) (runId : String) : Prog RunReport := do
  let loaded ← loadRun runId
  match loaded with
  | none => pure (.notFound runId)
  | some run =>
    if run.state ≠ .queued then pure (.run run)
    else do
      let stop ← isCancelled run
      if stop then do
        let _ ← transition (cancelledRun run)
        pure (.run (cancelledRun run))
      else do
        let started := { run with state := .running }
        let persisted ← transition started
        if persisted.state ≠ .running then pure (.run persisted)
        else .run <$> executeStarted settings started

end Worker

section Operations

/-- An in-memory run the worker hands to `_transition`: past the queue, with a
result exactly when it is completed. -/
structure Target where
  /-- The run. -/
  run : ReplayRun
  /-- No transition leads back to the queue. -/
  started : run.state ≠ .queued
  /-- Only a completed run has a result. -/
  result_iff : run.result.isSome ↔ run.state = .completed
  deriving DecidableEq

/-- What the processes run. -/
inductive Operation where
  /-- A worker executes a run. -/
  | executeRun (runId : String)
  /-- A run is cancelled. -/
  | cancelReplayRun (replayRunId : String)
  /-- A worker makes a transition. -/
  | transition (target : Target)
  deriving DecidableEq

/-- What an operation returns. -/
inductive Reply where
  /-- A run. -/
  | run (r : ReplayRun)
  /-- What `execute_run` returns. -/
  | report (r : RunReport)

/-- The program of each operation. -/
def code (settings : ReplaySettings) : Operation → Prog Reply
  | .executeRun runId => .report <$> executeRun settings runId
  | .cancelReplayRun replayRunId => .run <$> cancelReplayRun replayRunId
  | .transition target => .run <$> transition target.run

end Operations

section Sample

/-- The settings of the sample runs. -/
def sampleSettings : ReplaySettings where
  timeoutS := 300
  pricingMap := fun _ => none
  casefold := String.toLower
  sha256Hex := fun _ => "e3b0c44298fc1c149afbf4c8996fb92427ae41e4649b934ca495991b7852b855"
  repr := fun text => "'" ++ text ++ "'"

/-- A queued run, as it is created. -/
def queuedRun : ReplayRun where
  replayRunId := "r"
  state := .queued
  request := ⟨"q", "v", 5, 0, "s"⟩

/-- The store with a queued run, its configuration and its snapshot. -/
def sampleWorld : World where
  objects
    | .replayRun id => if id = "r" then ⟨1, some queuedRun⟩ else ⟨0, none⟩
    | .aiConfigVersion _ _ => ⟨1, some ⟨"default", "v", "p", "m", "{}", 0, "{}"⟩⟩
    | .corpusSnapshot _ => ⟨1, some ⟨"s", [("d", "a")]⟩⟩
    | .sqlResultFixture _ _ => ⟨0, none⟩
  rest := 0

/-- Every call goes through; the executor routes to the documents, finds
nothing and answers nothing. -/
def calm : Action → Choice Fate
  | .other .monotonic => .other (.reading 0)
  | .other (.classifyRoute _ _) => .other (.text "rag")
  | .other (.generateSql _ _) => .other (.text "")
  | .other (.retrieveSnapshotScoped _ _ _ _ _) => .other (.found ⟨[], []⟩)
  | .other (.generateAnswer _ _ _ _ _) => .other (.generated ⟨none, [], none, none⟩)
  | _ => .proceed

/-- A turn of a scheduler. -/
abbrev Turn := ThreadPool.Command (Choice Fate) Operation Action

/-- Some turns of thread `t` in which every call goes through. -/
def turns (t n : ℕ) : List Turn := List.replicate n (.step t calm)

end Sample

end RagSystem.ReplayRuns
