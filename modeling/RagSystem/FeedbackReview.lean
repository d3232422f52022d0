import RagSystem.QueryModels
import RagSystem.Storage

/-!
# Reviewed feedback and the evaluation set

Promoting a feedback item: an evaluation case is created from its question and
expected answer, and then the item is made to point to the case. Classifying
and resolving an item, logging and metrics are left out.
-/

namespace RagSystem.FeedbackReview

open AtomicProgram ThreadPool VersionedCell Storage DocumentModels EvidenceModels QueryModels

set_option autoImplicit false

section Models

/-- `FeedbackReviewRecord`, with the fields of the feedback it reviews. -/
structure FeedbackReviewRecord where
  /-- The rating, 1 to 5. -/
  rating : ℕ
  /-- The user's comment. -/
  comment : Option String := none
  /-- What the answer should have been. -/
  expectedAnswer : Option String := none
  /-- The trace the feedback is about. -/
  traceId : String
  /-- The feedback. -/
  feedbackId : String
  /-- When it was given. -/
  createdAt : String
  /-- `review_status`. -/
  reviewStatus : String := "unreviewed"
  /-- `failure_category`. -/
  failureCategory : Option String := none
  /-- Who reviewed it. -/
  reviewedBy : Option String := none
  /-- When it was reviewed. -/
  reviewedAt : Option String := none
  /-- The evaluation case made of it. -/
  promotedCaseId : Option String := none
  deriving DecidableEq

/-- `NEGATIVE_RATINGS`. -/
def negativeRatings : List ℕ := [1, 2]

/-- `is_negative_rating`. -/
def isNegativeRating (rating : ℕ) : Bool := rating ∈ negativeRatings

/-- `RelevanceLabels`. -/
structure RelevanceLabels where
  /-- The chunks that matter. -/
  relevantChunkIds : List ChunkId := []
  /-- The documents that matter. -/
  relevantDocumentIds : List DocumentId := []
  /-- Judgments by the id of a chunk or a document. -/
  humanJudgments : List (String × ℚ) := []
  deriving DecidableEq

/-- `BenchmarkCase`, with the fields of the golden case it extends. -/
structure BenchmarkCase where
  /-- The case. -/
  id : String
  /-- Its question. -/
  question : String
  /-- The documents to search; all of them if absent. -/
  documentIds : Option (List DocumentId) := none
  /-- The evidence status the answer should have. -/
  expectedEvidenceStatus : Option String := none
  /-- What the answer should say. -/
  requiredAnswerTerms : List String := []
  /-- What it should not. -/
  forbiddenAnswerTerms : List String := []
  /-- What it should cite. -/
  requiredCitationChunkIds : List ChunkId := []
  /-- The fewest citations. -/
  minCitations : ℤ := 0
  /-- The most citations. -/
  maxCitations : Option ℤ := none
  /-- The least confidence. -/
  minConfidence : Option String := none
  /-- What the reason for insufficient evidence should say. -/
  requiredInsufficientReasonTerms : List String := []
  /-- What retrieval is measured against. -/
  relevanceLabels : Option RelevanceLabels := none
  /-- A human has reviewed it. -/
  humanReviewed : Bool := false
  /-- The expected answer of the feedback it comes from. -/
  expectedAnswer : Option String := none
  deriving DecidableEq

/-- The exceptions of the inbox. -/
inductive FeedbackError where
  /-- `ExpectedAnswerRequiredError`. -/
  | expectedAnswerRequired (message : String)
  /-- `AlreadyInEvaluationSetError`. -/
  | alreadyInEvaluationSet (message : String)
  /-- `ValidationError`: no record to update. -/
  | validation (model : String)
  deriving DecidableEq

/-- `benchmark_case_id_for`. -/
def benchmarkCaseIdFor (feedbackId : String) : String := "feedback-" ++ feedbackId

/-- `build_benchmark_case`. -/
def buildBenchmarkCase (record : FeedbackReviewRecord) (question : String) : BenchmarkCase where
  id := benchmarkCaseIdFor record.feedbackId
  question := question
  expectedAnswer := record.expectedAnswer
  humanReviewed := true

/-- `AlreadyInEvaluationSetError` with its text. -/
def alreadyInSet : FeedbackError := .alreadyInEvaluationSet "Feedback_Item is already present in the Evaluation_Set."

/-- `ExpectedAnswerRequiredError` with its text. -/
def answerRequired : FeedbackError :=
  .expectedAnswerRequired "An expected answer is required to promote the Feedback_Item."

/-- `promote_feedback_record`. -/
def promoteFeedbackRecord (record : FeedbackReviewRecord) (question : String) :
    Except FeedbackError (FeedbackReviewRecord × BenchmarkCase) :=
  if record.promotedCaseId ≠ none then .error alreadyInSet
  else if strip (record.expectedAnswer.getD "") = "" then .error answerRequired
  else
    let case := buildBenchmarkCase record question
    .ok ({ record with promotedCaseId := some case.id }, case)

/-- An item that can be promoted. -/
def FeedbackReviewRecord.Promotable (record : FeedbackReviewRecord) : Prop :=
  record.promotedCaseId = none ∧ strip (record.expectedAnswer.getD "") ≠ ""

instance (record : FeedbackReviewRecord) : Decidable record.Promotable :=
  inferInstanceAs (Decidable (_ ∧ _))

/-- Such an item gets its case and its pointer. -/
theorem promoteFeedbackRecord_of_promotable {record : FeedbackReviewRecord} (h : record.Promotable) (question : String) :
    promoteFeedbackRecord record question =
      .ok ({ record with promotedCaseId := some (benchmarkCaseIdFor record.feedbackId) },
        buildBenchmarkCase record question) := by
  unfold promoteFeedbackRecord
  rw [if_neg (fun hne => hne h.1), if_neg h.2]
  rfl

/-- No other does. -/
theorem promoteFeedbackRecord_ok {record : FeedbackReviewRecord} {question : String}
    {result : FeedbackReviewRecord × BenchmarkCase} (h : promoteFeedbackRecord record question = .ok result) :
    record.Promotable ∧ result = ({ record with promotedCaseId := some (benchmarkCaseIdFor record.feedbackId) },
      buildBenchmarkCase record question) := by
  have hpromotable : record.Promotable := by
    unfold promoteFeedbackRecord at h
    split at h
    · contradiction
    · next hnone =>
      split at h
      · contradiction
      · next hanswer => exact ⟨not_not.mp hnone, hanswer⟩
  rw [promoteFeedbackRecord_of_promotable hpromotable] at h
  injection h with h
  exact ⟨hpromotable, h.symm⟩

end Models

section Store

/-- The objects a promotion touches. -/
inductive FeedbackKey where
  /-- `query_feedback_key`. -/
  | feedback (traceId feedbackId : String)
  /-- `query_trace_key`. -/
  | trace (traceId : String)
  /-- `evaluation_set_case_key`. -/
  | case (setId caseId : String)
  deriving DecidableEq

/-- What is stored under each key. -/
abbrev Payload : FeedbackKey → Type
  | .feedback _ _ => FeedbackReviewRecord
  | .trace _ => QueryTraceRecord
  | .case _ _ => BenchmarkCase

/-- The calls outside the single objects. -/
inductive FeedbackCall where
  /-- `list_feedback_record_keys`. -/
  | listFeedbackRecordKeys
  deriving DecidableEq

/-- What each of these calls returns: the trace and the feedback of each key. -/
abbrev FeedbackAnswer : FeedbackCall → Type
  | .listFeedbackRecordKeys => List (String × String)

/-- Everything a call can raise. -/
abbrev Err := StoreError FeedbackKey FeedbackError

/-- The store, with the keys of the feedback records in the order they are listed. -/
abbrev World := StoreState Payload (List (String × String))

/-- A program of the inbox. -/
abbrev Prog (α : Type) := StoreProgram FeedbackError Payload FeedbackAnswer α

/-- One of its calls. -/
abbrev Action := StoreAction Payload FeedbackCall

/-- What a call returns. -/
abbrev Answer : Action → Type := StoreAnswer (P := Payload) FeedbackAnswer

/-- One performed call with its answer. -/
abbrev CallEvent := Event Err Answer

/-- What the environment decides about a listing. -/
inductive Fate where
  /-- It goes through. -/
  | list
  /-- It raises. -/
  | raise (message : String)

/-- A listing shows the keys. -/
def answer? : (x : FeedbackCall) → Fate → World → Option (Except Err (FeedbackAnswer x) × List (String × String))
  | .listFeedbackRecordKeys, .list, w => some (.ok w.rest, w.rest)
  | _, .raise m, w => some (.error (.raised m), w.rest)

/-- What every call does. -/
def inbox : Machine (Choice Fate) World Err Answer := machine answer?

end Store

section Service

/-- The text of `query_feedback_key`. -/
def queryFeedbackKey (key : String × String) : String := "queries/" ++ key.1 ++ "/feedback/" ++ key.2 ++ ".json"

/-- `str.endswith`. -/
def endsWith (text suffix : String) : Bool := suffix.toList.isSuffixOf text.toList

/-- The first listed key of a feedback. -/
def keyFor (keys : List (String × String)) (feedbackId : String) : Option (String × String) :=
  keys.find? fun key => endsWith (queryFeedbackKey key) ("/feedback/" ++ feedbackId ++ ".json")

/-- `_feedback_key_for`. -/
def feedbackKeyFor (feedbackId : String) : Prog (Option (String × String)) := do
  let keys : List (String × String) ← perform (B := Answer) (StoreAction.other FeedbackCall.listFeedbackRecordKeys)
  pure (keyFor keys feedbackId)

/-- `get_feedback_review_record`. -/
def getFeedbackReviewRecord (feedbackId : String) : Prog (Option FeedbackReviewRecord) := do
  let key ← feedbackKeyFor feedbackId
  match key with
  | none => pure none
  | some key => getJson (P := Payload) (.feedback key.1 key.2)

/-- `get_query_trace`. -/
def getQueryTrace (traceId : String) : Prog (Option QueryTraceRecord) := getJson (P := Payload) (.trace traceId)

/-- The creation of the case, once only. -/
def createCase (setId : String) (case : BenchmarkCase) : Prog Unit :=
  tryCatch (createJson (P := Payload) (.case setId case.id) case) fun
    | .preconditionFailed _ => throw (.app alreadyInSet)
    | e => throw e

/-- The `mutate` of `promote_feedback`. -/
def pointToCase (question : String) : Option FeedbackReviewRecord → Except Err FeedbackReviewRecord
  | none => .error (.app (.validation "FeedbackReviewRecord"))
  | some record =>
    match promoteFeedbackRecord record question with
    | .error e => .error (.app e)
    | .ok (updated, _) => .ok updated

/-- `promote_feedback`, into the set `default_evaluation_set_id`. -/
def promoteFeedback (setId feedbackId : String) : Prog (Option BenchmarkCase) := do
  let key ← feedbackKeyFor feedbackId
  match key with
  | none => pure none
  | some key => do
    let record ← getFeedbackReviewRecord feedbackId
    match record with
    | none => pure none
    | some record => do
      let trace ← getQueryTrace record.traceId
      let question := (trace.map QueryTraceRecord.question).getD ""
      match promoteFeedbackRecord record question with
      | .error e => throw (.app e)
      | .ok (_, case) => do
        createCase setId case
        let _ ← updateJsonCas (P := Payload) (.feedback key.1 key.2) (pointToCase question) maxAttempts
        pure (some case)

end Service

section Runs

/-- A pool of promotions, each of the feedback with some id. -/
abbrev PromotionPool := Pool World String Err Answer (Option BenchmarkCase)

/-- A move of them. -/
abbrev PromotionMove := Move World String Err Answer (Option BenchmarkCase)

/-- A run of promotions into one set. -/
abbrev Promotes (setId : String) := Run (O := String) inbox (promoteFeedback setId)

end Runs

end RagSystem.FeedbackReview
