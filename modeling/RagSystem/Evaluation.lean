import Mathlib.Data.List.Sort
import RagSystem.QueryTraces

/-!
# Evaluation runs

Every benchmark case is asked and its response checked; where the case has
relevance labels, the retrieval is measured on the hits of the stored query
trace. Sets are lists without repetitions, quotients are exact. Metrics, logs
and the scores of a judge are left out.
-/

namespace RagSystem.Evaluation

open AtomicProgram DocumentModels QueryModels FeedbackReview AskCalls QueryTraces

set_option autoImplicit false

section Retrieval

/-- `RetrievalMetrics`. -/
structure RetrievalMetrics where
  /-- `recall_at_k`. -/
  recallAtK : ℚ
  /-- `precision_at_k`. -/
  precisionAtK : ℚ
  /-- `mrr_at_k`. -/
  mrrAtK : ℚ
  /-- `depth`. -/
  depth : ℕ
  deriving DecidableEq

/-- `relevant_identifiers`: chunks and documents share one space of ids. -/
def relevantIdentifiers (labels : RelevanceLabels) : List String :=
  (labels.relevantChunkIds.map chunkIdText ++ labels.relevantDocumentIds ++
    ((labels.humanJudgments.filter fun judgment => 0 < judgment.2).map Prod.fst)).dedup

/-- `_rank_hits`: by falling score, hits of one score in their order. -/
def rankHits (hits : List RetrievalHit) : List RetrievalHit :=
  hits.insertionSort fun a b => b.score ≤ a.score

/-- `_hit_relevant_ids`. -/
def hitRelevantIds (hit : RetrievalHit) (relevant : List String) : List String :=
  [chunkIdText hit.chunk.id, hit.chunk.documentId].dedup.filter relevant.contains

/-- The position of the first relevant hit, counted from one. -/
def firstRelevantRank (hits : List RetrievalHit) (relevant : List String) : Option ℕ :=
  (hits.findIdx? fun hit => hitRelevantIds hit relevant ≠ []).map (· + 1)

/-- `compute_retrieval_metrics`. -/
def computeRetrievalMetrics (hits : List RetrievalHit) (labels : Option RelevanceLabels) (depth : ℤ) :
    Option RetrievalMetrics :=
  labels.map fun labels =>
    let k := depth.toNat
    let relevant := relevantIdentifiers labels
    let topHits := (rankHits hits).take k
    let matched := topHits.map fun hit => hitRelevantIds hit relevant
    let relevantHitCount := (matched.filter (· ≠ [])).length
    { recallAtK := if relevant = [] then 0 else (matched.flatten.dedup.length : ℚ) / relevant.length
      precisionAtK := if topHits = [] then 0 else (relevantHitCount : ℚ) / topHits.length
      mrrAtK := match firstRelevantRank topHits relevant with
        | some rank => 1 / (rank : ℚ)
        | none => 0
      depth := k }

/-- There are metrics exactly where there are labels. -/
@[simp] theorem isSome_computeRetrievalMetrics (hits : List RetrievalHit) (labels : Option RelevanceLabels) (depth : ℤ) :
    (computeRetrievalMetrics hits labels depth).isSome = labels.isSome := Option.isSome_map

end Retrieval

section Checks

/-- `DeterministicCheck`; the outcome is whether it passed. -/
structure DeterministicCheck where
  /-- The check. -/
  name : String
  /-- It passed. -/
  outcome : Bool
  deriving DecidableEq

/-- `BenchmarkResult`, without the scores of a judge. -/
structure BenchmarkResult where
  /-- The case. -/
  caseId : String
  /-- Its checks. -/
  deterministicChecks : List DeterministicCheck
  /-- Absent without relevance labels. -/
  retrievalMetrics : Option RetrievalMetrics := none
  deriving DecidableEq

/-- What an evaluation takes from the configuration and from Python's library. -/
structure EvaluationSettings where
  /-- The configuration of the questions. -/
  ask : AskSettings
  /-- `retrieval_metric_depth_k`. -/
  retrievalMetricDepthK : ℤ
  /-- `str.casefold`. -/
  casefold : String → String

/-- `needle in text`. -/
def occursIn (needle text : String) : Bool := text.toList.tails.any needle.toList.isPrefixOf

/-- The check of the citations. -/
def citationsOk (case : BenchmarkCase) (observed : QueryResponse) : Bool :=
  case.minCitations ≤ observed.citations.length &&
    case.maxCitations.all (fun most => (observed.citations.length : ℤ) ≤ most) &&
    case.requiredCitationChunkIds.all fun chunkId => (observed.citations.map Citation.chunkId).contains chunkId

/-- `run_deterministic_checks`. -/
def runDeterministicChecks (settings : EvaluationSettings) (case : BenchmarkCase) (observed : QueryResponse) :
    List DeterministicCheck :=
  let answer := settings.casefold observed.answer
  ⟨"citation_presence", citationsOk case observed⟩ ::
    case.requiredAnswerTerms.map (fun term => ⟨"required_fact:" ++ term, occursIn (settings.casefold term) answer⟩) ++
    [⟨"evidence_status", case.expectedEvidenceStatus.all fun expected => observed.evidenceStatus = expected⟩]

/-- `evaluate_benchmark_case`. -/
def evaluateBenchmarkCase (settings : EvaluationSettings) (case : BenchmarkCase) (observed : QueryResponse) :
    BenchmarkResult where
  caseId := case.id
  deterministicChecks := runDeterministicChecks settings case observed

/-- `ci_run_passed`. -/
def ciRunPassed (results : List BenchmarkResult) : Bool :=
  results.all fun result => result.deterministicChecks.all DeterministicCheck.outcome

end Checks

section Run

/-- `EvaluationRunDetail`. -/
structure EvaluationRunDetail where
  /-- The run. -/
  runId : String
  /-- When. -/
  createdAt : String
  /-- Every check passed. -/
  ciPassed : Bool
  /-- A result for each case. -/
  results : List BenchmarkResult
  deriving DecidableEq

/-- The calls of an evaluation. -/
inductive EvalCall where
  /-- A call of the ask pipeline. -/
  | ask (x : AskCall)
  /-- `list_benchmark_cases`. -/
  | listBenchmarkCases
  /-- `get_query_trace`. -/
  | getQueryTrace (traceId : String)
  /-- The time of the run. -/
  | now
  /-- `create_json` of the run. -/
  | createEvaluationRun (detail : EvaluationRunDetail)

/-- What each call returns. -/
abbrev EvalAnswer : EvalCall → Type
  | .ask x => AskAnswer x
  | .listBenchmarkCases => List BenchmarkCase
  | .getQueryTrace _ => Option QueryTraceRecord
  | .now => String
  | .createEvaluationRun _ => Unit

/-- A program of an evaluation. -/
abbrev Eval (α : Type) := Program AskError EvalAnswer α

/-- One performed call with its answer. -/
abbrev EvalEvent := Event AskError EvalAnswer

/-- The calls of an evaluation so far. -/
abbrev EvalHistory := History AskError EvalAnswer

/-- One call. -/
def evaluate (x : EvalCall) : Eval (EvalAnswer x) := perform x

/-- A program of the ask pipeline, as part of an evaluation. -/
def asking {α : Type} : Ask α → Eval α
  | .done a => .done a
  | .raise e => .raise e
  | .act x next => .act (.ask x) fun r => asking (next r)

/-- The text of `EvaluationSetValidationError`. -/
def noHumanReviewedCase : AskError :=
  .raised "Evaluation set must include at least one human-reviewed benchmark case."

/-- One case of the loop of `run_evaluation`. -/
def runCase (settings : EvaluationSettings) (case : BenchmarkCase) : Eval BenchmarkResult := do
  let request ← asking (queryRequest case.question case.documentIds)
  let response ← asking (ragQuery settings.ask request)
  let result := evaluateBenchmarkCase settings case response
  match case.relevanceLabels with
  | none => pure result
  | some labels => do
    let trace ← evaluate (.getQueryTrace response.traceId)
    match trace with
    | none => pure result
    | some trace =>
      pure { result with
        retrievalMetrics := computeRetrievalMetrics trace.retrievedHits (some labels) settings.retrievalMetricDepthK }

/-- The loop of `run_evaluation`. -/
def runCases (settings : EvaluationSettings) : List BenchmarkCase → Eval (List BenchmarkResult)
  | [] => pure []
  | case :: cases => do
    let result ← runCase settings case
    let results ← runCases settings cases
    pure (result :: results)

/-- `run_evaluation`. -/
def runEvaluation (settings : EvaluationSettings) : Eval EvaluationRunDetail := do
  let cases ← evaluate .listBenchmarkCases
  if cases.any BenchmarkCase.humanReviewed then do
    let results ← runCases settings cases
    let runId ← evaluate (.ask .uuid4)
    let createdAt ← evaluate .now
    let detail : EvaluationRunDetail := ⟨runId, createdAt, ciRunPassed results, results⟩
    evaluate (.createEvaluationRun detail)
    pure detail
  else throw noHumanReviewedCase

end Run

section Writer

/-- The store of traces and the background writer. -/
structure TraceWorld where
  /-- The stored traces. -/
  traces : Traces
  /-- The traces handed over and not written yet. -/
  pending : List QueryTraceRecord := []
  /-- Every trace the evaluation has handed over, oldest first. -/
  submitted : List QueryTraceRecord := []
  deriving DecidableEq

/-- A step in the background. -/
inductive Background where
  /-- A worker writes one of the pending traces. -/
  | write (index : ℕ)
  /-- The write of one fails, which is only logged. -/
  | fail (index : ℕ)
  /-- Another request's trace is written. -/
  | foreign (trace : QueryTraceRecord)

/-- What it does. -/
def TraceWorld.background (w : TraceWorld) : Background → TraceWorld
  | .write index => match w.pending[index]? with
    | some trace => { w with traces := writeQueryTrace w.traces trace, pending := w.pending.eraseIdx index }
    | none => w
  | .fail index => { w with pending := w.pending.eraseIdx index }
  | .foreign trace => { w with traces := writeQueryTrace w.traces trace }

/-- What becomes of a trace that is handed over. -/
inductive Handover where
  /-- It waits for a worker. -/
  | queued
  /-- The executor has shut down: it is written at once. -/
  | inline
  /-- It is to be written at once, and that fails. -/
  | lost
  deriving DecidableEq

/-- A trace is handed over. -/
def TraceWorld.submit (w : TraceWorld) (trace : QueryTraceRecord) : Handover → TraceWorld
  | .queued => { w with pending := w.pending ++ [trace], submitted := w.submitted ++ [trace] }
  | .inline => { w with traces := writeQueryTrace w.traces trace, submitted := w.submitted ++ [trace] }
  | .lost => { w with submitted := w.submitted ++ [trace] }

/-- What settles a call: what components answer, what becomes of a trace, and
what happens in the background before the next call. -/
structure EvalOracle where
  /-- The answers. -/
  answer : (x : EvalCall) → Except AskError (EvalAnswer x)
  /-- The trace. -/
  handover : Handover := .queued
  /-- The background. -/
  after : List Background := []

/-- The background until the next call. -/
def TraceWorld.settle (w : TraceWorld) (o : EvalOracle) : TraceWorld := o.after.foldl TraceWorld.background w

/-- A read of the store finds what is there, or fails. -/
def foundTrace (traces : Traces) (traceId : String) : Except AskError (Option QueryTraceRecord) →
    Except AskError (Option QueryTraceRecord)
  | .ok _ => .ok (getQueryTrace traces traceId)
  | .error e => .error e

/-- An evaluation under an ambient trace id, if there is one. Components answer
anything; the store of traces is what the writer made it. -/
def evaluationMachine (ambient : Option String) : Machine EvalOracle TraceWorld AskError EvalAnswer
  | .ask .getTraceId, o, w => some (.ok ambient, w.settle o)
  | .ask (.submitTrace trace), o, w => some (.ok (), (w.submit trace o.handover).settle o)
  | .getQueryTrace traceId, o, w => some (foundTrace w.traces traceId (o.answer (.getQueryTrace traceId)), w.settle o)
  | x, o, w => some (o.answer x, w.settle o)

end Writer

end RagSystem.Evaluation
