import RagSystem.AskCalls
import RagSystem.FeedbackReview

/-!
# Stored query traces

The traces the background writer stores, one under each trace id, and the
selection of the outcomes a knowledge-gap map is made of.
-/

namespace RagSystem.QueryTraces

open AtomicProgram DocumentModels QueryModels FeedbackReview AskCalls

set_option autoImplicit false

section Store

/-- The stored traces, each under its trace id. -/
abbrev Traces := List QueryTraceRecord

/-- `_write_query_trace`: what was stored under the trace id is replaced. -/
def writeQueryTrace (traces : Traces) (trace : QueryTraceRecord) : Traces :=
  traces.filter (fun other => other.traceId ≠ trace.traceId) ++ [trace]

/-- `get_query_trace`. -/
def getQueryTrace (traces : Traces) (traceId : String) : Option QueryTraceRecord :=
  traces.find? fun trace => trace.traceId = traceId

/-- Under its id, the trace that was written last. -/
@[simp] theorem getQueryTrace_writeQueryTrace (traces : Traces) (trace : QueryTraceRecord) :
    getQueryTrace (writeQueryTrace traces trace) trace.traceId = some trace := by
  have hnone : (traces.filter fun other => other.traceId ≠ trace.traceId).find? (fun other => other.traceId = trace.traceId) =
      none := by
    rw [List.find?_eq_none]
    intro other hother
    simpa using (List.mem_filter.mp hother).2
  rw [getQueryTrace, writeQueryTrace, List.find?_append, hnone]
  simp

/-- Under any other id, what was there. -/
theorem getQueryTrace_writeQueryTrace_of_ne (traces : Traces) {trace : QueryTraceRecord} {traceId : String}
    (hne : trace.traceId ≠ traceId) :
    getQueryTrace (writeQueryTrace traces trace) traceId = getQueryTrace traces traceId := by
  have hkept : (traces.filter fun other => other.traceId ≠ trace.traceId).find? (fun other => other.traceId = traceId) =
      traces.find? fun other => other.traceId = traceId := by
    rw [List.find?_filter]
    congr 1
    funext other
    by_cases hsame : other.traceId = traceId
    · simp [hsame, Ne.symm hne]
    · simp [hsame]
  rw [getQueryTrace, writeQueryTrace, List.find?_append, hkept]
  simp [hne, getQueryTrace]

/-- A trace with the id of the last write is that trace. -/
theorem eq_of_mem_writeQueryTrace {traces : Traces} {trace other : QueryTraceRecord}
    (hmem : other ∈ writeQueryTrace traces trace) (hid : other.traceId = trace.traceId) : other = trace := by
  rcases List.mem_append.mp hmem with hold | hnew
  · have hne := (List.mem_filter.mp hold).2
    simp [hid] at hne
  · exact List.mem_singleton.mp hnew

/-- The traces a history has handed to the writer and seen written, in order. -/
def written (h : AskHistory) : List QueryTraceRecord :=
  h.filterMap fun
    | ⟨.submitTrace trace, .ok _⟩ => some trace
    | _ => none

/-- The store once the background writes have drained. -/
def drained (traces : Traces) (h : AskHistory) : Traces := (written h).foldl writeQueryTrace traces

end Store

section KnowledgeGap

/-- `EligibleOutcome`. -/
structure EligibleOutcome where
  /-- The trace. -/
  traceId : String
  /-- The question. -/
  question : String
  /-- The numeric confidence. -/
  confidenceScore : Option ℚ := none
  /-- The confidence is below the threshold. -/
  lowConfidence : Bool := false
  /-- The question was not answered. -/
  abstained : Bool := false
  /-- A user rated the answer badly. -/
  negativelyRated : Bool := false
  /-- The documents searched. -/
  documentIds : List DocumentId := []
  /-- What the answer should have been. -/
  expectedAnswer : Option String := none
  deriving DecidableEq

/-- The outcome of a trace, if it is eligible. -/
def eligibleOutcome (feedbackItems : List FeedbackReviewRecord) (confidenceThreshold : ℚ) (trace : QueryTraceRecord) :
    Option EligibleOutcome :=
  let negativeTraceIds := (feedbackItems.filter fun item => isNegativeRating item.rating).map FeedbackReviewRecord.traceId
  let lowConfidence := trace.confidenceScore.any fun score => score < confidenceThreshold
  let abstained := trace.abstentionReasonCode.isSome
  let negativelyRated := negativeTraceIds.contains trace.traceId
  if lowConfidence || abstained || negativelyRated then
    some
      { traceId := trace.traceId
        question := trace.question
        confidenceScore := trace.confidenceScore
        lowConfidence
        abstained
        negativelyRated
        documentIds := trace.documentIds.getD [] }
  else none

/-- `select_eligible_outcomes`. -/
def selectEligibleOutcomes (traces : Traces) (feedbackItems : List FeedbackReviewRecord) (confidenceThreshold : ℚ) :
    List EligibleOutcome :=
  traces.filterMap (eligibleOutcome feedbackItems confidenceThreshold)

/-- The trace counts as unanswered. -/
def countsUnanswered (outcomes : List EligibleOutcome) (traceId : String) : Prop :=
  ∃ outcome ∈ outcomes, outcome.traceId = traceId ∧ outcome.abstained = true

/-- It does exactly when a trace under its id has an abstention code. -/
theorem countsUnanswered_iff {traces : Traces} {feedbackItems : List FeedbackReviewRecord} {confidenceThreshold : ℚ}
    {traceId : String} : countsUnanswered (selectEligibleOutcomes traces feedbackItems confidenceThreshold) traceId ↔
      ∃ trace ∈ traces, trace.traceId = traceId ∧ trace.abstentionReasonCode.isSome = true := by
  constructor
  · rintro ⟨outcome, hin, hid, habstained⟩
    obtain ⟨trace, htrace, heligible⟩ := List.mem_filterMap.mp hin
    simp only [eligibleOutcome] at heligible
    split at heligible
    · rw [← Option.some.inj heligible] at hid habstained
      exact ⟨trace, htrace, hid, habstained⟩
    · contradiction
  · rintro ⟨trace, htrace, hid, habstained⟩
    obtain ⟨outcome, heligible⟩ : ∃ outcome, eligibleOutcome feedbackItems confidenceThreshold trace = some outcome := by
      simp [eligibleOutcome, habstained]
    refine ⟨outcome, List.mem_filterMap.mpr ⟨trace, htrace, heligible⟩, ?_⟩
    simp only [eligibleOutcome, habstained, Bool.or_true, Bool.true_or, if_true, Option.some.injEq] at heligible
    rw [← heligible]
    exact ⟨hid, rfl⟩

end KnowledgeGap

end RagSystem.QueryTraces
