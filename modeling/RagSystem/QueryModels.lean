import Mathlib.Data.Rat.Floor
import RagSystem.EvidenceModels

/-!
# Questions and answers

Requests, responses and stored records of the ask endpoints. Fields the code
may set past the validators (`model_copy`) are plain; a score is a rational,
as every finite float is one. Data sources are kept as their JSON text, and so
is a result row that has one.
-/

namespace RagSystem.QueryModels

open DocumentModels EvidenceModels

set_option autoImplicit false

/-- `MAX_QUESTION_CHARS`. -/
def maxQuestionChars : ℕ := 16000

/-- `MAX_DOCUMENT_IDS`. -/
def maxDocumentIds : ℕ := 1000

/-- `Citation`. -/
structure Citation where
  /-- The document. -/
  documentId : DocumentId
  /-- The chunk. -/
  chunkId : ChunkId
  /-- Its first page. -/
  pageStart : Option ℤ := none
  /-- Its last page. -/
  pageEnd : Option ℤ := none
  /-- The title of the document. -/
  title : Option String := none
  deriving DecidableEq

/-- `QueryRequest`. -/
structure QueryRequest where
  /-- The question. -/
  question : String
  /-- The documents to search; all of them if absent. -/
  documentIds : Option (List DocumentId) := none
  deriving DecidableEq

/-- `QueryResponse`. -/
structure QueryResponse where
  /-- The answer. -/
  answer : String
  /-- What it cites. -/
  citations : List Citation
  /-- Whether it is grounded. -/
  evidenceStatus : String
  /-- The trace. -/
  traceId : String
  /-- The model's own label. -/
  confidence : Option String := none
  /-- The numeric confidence. -/
  confidenceScore : Option ℚ := none
  /-- Why the evidence was not enough. -/
  insufficientEvidenceReason : Option String := none
  /-- The claims of the answer with their evidence. -/
  claims : List Claim := []
  /-- The claims could not be told apart. -/
  claimDecompositionFailed : Bool := false
  /-- The scores of the passages it rests on. -/
  retrievalScores : List ℚ := []
  deriving DecidableEq

/-- `CopilotQueryRequest`. -/
structure CopilotQueryRequest where
  /-- The question. -/
  question : String
  /-- The caller wants to see the query. -/
  includeSql : Bool := false
  deriving DecidableEq

/-- A row of a query's result. -/
inductive ResultRow where
  /-- Its JSON text. -/
  | json (text : String)
  /-- pydantic cannot write it: bytes that are no text, say; by its `repr`. -/
  | unserializable (repr : String)
  deriving DecidableEq

/-- Pydantic can write the row. -/
def ResultRow.isJson : ResultRow → Bool
  | .json _ => true
  | .unserializable _ => false

/-- `CopilotQueryResponse`. -/
structure CopilotQueryResponse where
  /-- The answer. -/
  answer : String
  /-- Always `database`. -/
  mode : String
  /-- Whether there were rows. -/
  evidenceStatus : String
  /-- The trace. -/
  traceId : String
  /-- The numeric confidence. -/
  confidenceScore : Option ℚ := none
  /-- The query that ran. -/
  sql : Option String := none
  /-- Its rows. -/
  rows : List ResultRow := []
  /-- The tables and columns it read. -/
  dataSources : List String := []
  deriving DecidableEq

/-- `UnifiedQueryRequest`. -/
structure UnifiedQueryRequest where
  /-- The question. -/
  question : String
  /-- The documents to search; all of them if absent. -/
  documentIds : Option (List DocumentId) := none
  /-- The caller wants to see the query and its rows. -/
  includeSql : Bool := false
  /-- The conversation to continue. -/
  conversationId : Option String := none
  /-- Earlier turns do not count. -/
  forgetContext : Bool := false
  deriving DecidableEq

/-- `UnifiedQueryResponse`. -/
structure UnifiedQueryResponse where
  /-- The answer. -/
  answer : String
  /-- The route that produced it. -/
  route : String
  /-- Whether it is grounded. -/
  evidenceStatus : String
  /-- The trace. -/
  traceId : String
  /-- What it cites. -/
  citations : List Citation := []
  /-- The model's own label. -/
  confidence : Option String := none
  /-- The numeric confidence. -/
  confidenceScore : Option ℚ := none
  /-- Why the evidence was not enough. -/
  insufficientEvidenceReason : Option String := none
  /-- The query that ran. -/
  sql : Option String := none
  /-- Its rows. -/
  rows : List ResultRow := []
  /-- The tables and columns it read. -/
  dataSources : List String := []
  /-- Why this route. -/
  routingReasoning : Option String := none
  /-- The conversation it belongs to. -/
  conversationId : Option String := none
  /-- What a follow-up was rewritten into. -/
  rewrittenQuestion : Option String := none
  /-- The claims of the answer with their evidence. -/
  claims : List Claim := []
  /-- The claims could not be told apart. -/
  claimDecompositionFailed : Bool := false
  /-- The scores of the passages it rests on. -/
  retrievalScores : List ℚ := []
  deriving DecidableEq

/-- `ReasonCode`. -/
inductive ReasonCode where
  | lowConfidence | noEvidence | unsupportedClaims | conflictingEvidence | sqlNoRows | retrievalBelowThreshold
  deriving DecidableEq

/-- `AbstentionResponse`. -/
structure AbstentionResponse where
  /-- Why there is no answer. -/
  reasonCode : ReasonCode
  /-- What is missing, for the user. -/
  missingInformation : String
  /-- The trace. -/
  traceId : String
  /-- `min_length=1`. -/
  missingInformation_pos : 0 < missingInformation.length
  /-- `max_length=1000`. -/
  missingInformation_le : missingInformation.length ≤ 1000
  deriving DecidableEq

/-- `QueryRoute`. -/
inductive QueryRoute where
  | rag | database | hybrid
  deriving DecidableEq

/-- The value of a route. -/
def QueryRoute.value : QueryRoute → String
  | .rag => "rag"
  | .database => "database"
  | .hybrid => "hybrid"

/-- `RoutingDecision`. -/
structure RoutingDecision (Text : Type := String) where
  /-- The route. -/
  route : QueryRoute
  /-- Why. -/
  reasoning : Text
  /-- How sure the classifier is. -/
  confidence : ℚ := 1
  /-- The question needs a clarification first. -/
  ambiguous : Bool := false
  /-- It is the scope that is unclear. -/
  scopeAmbiguous : Bool := false
  /-- What to ask. -/
  clarificationQuestion : Option Text := none
  deriving DecidableEq

/-- `ConversationTurn`. -/
structure ConversationTurn where
  /-- The question as asked. -/
  question : String
  /-- The question as answered. -/
  standaloneQuestion : String
  /-- The answer. -/
  answer : String
  /-- The route. -/
  route : String
  /-- The trace. -/
  traceId : String
  /-- When. -/
  askedAt : ℕ
  deriving DecidableEq

/-- `ConversationRecord`. -/
structure ConversationRecord where
  /-- The conversation. -/
  conversationId : String
  /-- When it began. -/
  createdAt : ℕ
  /-- When it last changed. -/
  updatedAt : ℕ
  /-- The scope its turns inherit. -/
  documentIds : Option (List DocumentId) := none
  /-- Its turns, oldest first. -/
  turns : List ConversationTurn := []
  deriving DecidableEq

/-- `ClarificationRecord`. -/
structure ClarificationRecord where
  /-- The clarification. -/
  clarificationId : String
  /-- The turn it belongs to. -/
  conversationTurnId : String
  /-- The question that was unclear. -/
  originalQuestion : String
  /-- The documents to search. -/
  documentScope : Option (List DocumentId) := none
  /-- When it expires, as it is written. -/
  clarificationExpiry : String
  deriving DecidableEq

/-- `ClarificationPrompt`. -/
structure ClarificationPrompt where
  /-- What the user is asked. -/
  clarificationQuestion : String
  /-- The clarification to reply to. -/
  clarificationId : String
  /-- The turn it belongs to. -/
  conversationTurnId : String
  /-- When it expires, as it is written. -/
  clarificationExpiry : String
  /-- The documents to search. -/
  documentScope : Option (List DocumentId) := none
  deriving DecidableEq

/-- `ClarificationReplyRequest`. -/
structure ClarificationReplyRequest where
  /-- The clarification. -/
  clarificationId : String
  /-- The reply. -/
  reply : String
  /-- `min_length=1`. -/
  clarificationId_ne : clarificationId ≠ ""

/-- `QueryTraceRecord`, without timings and what is filled in later. -/
structure QueryTraceRecord where
  /-- The trace. -/
  traceId : String
  /-- The question. -/
  question : String
  /-- The route. -/
  route : String
  /-- The documents searched. -/
  documentIds : Option (List DocumentId) := none
  /-- The answer. -/
  answer : String
  /-- Whether it is grounded. -/
  evidenceStatus : String
  /-- The model's own label. -/
  confidence : Option String := none
  /-- The numeric confidence. -/
  confidenceScore : Option ℚ := none
  /-- Why the evidence was not enough. -/
  insufficientEvidenceReason : Option String := none
  /-- What the answer cites. -/
  citations : List Citation := []
  /-- The passages it was given. -/
  retrievedHits : List RetrievalHit := []
  /-- The query that ran. -/
  sql : Option String := none
  /-- The claims of the answer. -/
  claims : List Claim := []
  /-- Set when the turn abstained. -/
  abstentionReasonCode : Option ReasonCode := none
  /-- Set when the turn asked back. -/
  isClarification : Bool := false
  deriving DecidableEq

/-- `UserPublic`, as far as the scope of a question depends on it. -/
structure UserPublic where
  /-- The user. -/
  id : String
  /-- The address. -/
  email : String
  /-- The stored operator flag. -/
  isOperator : Bool := false
  deriving DecidableEq

/-- `hybrid_synthesis_mode`. -/
inductive SynthesisMode where
  | auto | always | never
  deriving DecidableEq

/-- What the ask endpoints take from the configuration and from Python's
library. Times are in microseconds. -/
structure AskSettings where
  /-- `auth_enabled`. -/
  authEnabled : Bool
  /-- `operator_emails`. -/
  operatorEmails : String
  /-- `sparse_enabled`. -/
  sparseEnabled : Bool
  /-- `retrieval_dense_top_k`. -/
  retrievalDenseTopK : ℕ
  /-- `context_top_k`. -/
  contextTopK : ℕ
  /-- `route_min_confidence`. -/
  routeMinConfidence : ℚ
  /-- `retrieval_score_threshold`. -/
  retrievalScoreThreshold : ℚ
  /-- `hybrid_synthesis_mode`. -/
  hybridSynthesisMode : SynthesisMode
  /-- `hybrid_overlap_threshold`. -/
  hybridOverlapThreshold : ℚ
  /-- `conversation_rewrite_enabled`. -/
  conversationRewriteEnabled : Bool
  /-- `conversation_max_turns`. -/
  conversationMaxTurns : ℕ
  /-- The configuration's validator asks for at least one. -/
  conversationMaxTurns_pos : 0 < conversationMaxTurns
  /-- `clarification_expiry_minutes`, in microseconds. -/
  clarificationExpiry : ℕ
  /-- `str.lower`. -/
  lower : String → String
  /-- `datetime.isoformat` of a UTC time. -/
  isoformat : ℕ → String
  /-- `datetime.fromisoformat`, a naive value taken as UTC. -/
  fromisoformat : String → Option ℕ
  /-- What was written is read back. -/
  fromisoformat_isoformat : ∀ t, fromisoformat (isoformat t) = some t

/-- A configuration with authentication and one operator. -/
def sampleSettings : AskSettings where
  authEnabled := true
  operatorEmails := "root@example.org"
  sparseEnabled := false
  retrievalDenseTopK := 60
  contextTopK := 12
  routeMinConfidence := 1 / 2
  retrievalScoreThreshold := 0
  hybridSynthesisMode := .never
  hybridOverlapThreshold := 1 / 2
  conversationRewriteEnabled := true
  conversationMaxTurns := 12
  conversationMaxTurns_pos := by decide
  clarificationExpiry := 60
  lower := fun s => s
  isoformat := fun t => String.ofList (List.replicate t '1')
  fromisoformat := fun s => some s.length
  fromisoformat_isoformat := fun t => by simp

/-- A user who is no operator. -/
def sampleUser : UserPublic := ⟨"1", "ada@example.org", false⟩

/-- What the ask endpoints can raise. -/
inductive AskError where
  /-- pydantic's `ValidationError`: the model, and each field with its error. -/
  | validation (model : String) (errors : List (String × String))
  /-- `ClarificationInvalidOrExpiredError`. -/
  | clarificationInvalidOrExpired (message : String)
  /-- `ClarificationReplyRequiredError`. -/
  | clarificationReplyRequired (message : String)
  /-- `FileNotFoundError`. -/
  | fileNotFound (message : String)
  /-- `RuntimeError`. -/
  | runtime (message : String)
  /-- `SqlValidationError`. -/
  | sqlValidation (message : String)
  /-- `HTTPException`. -/
  | http (statusCode : ℕ) (detail : String)
  /-- The reader of a stream went away. -/
  | generatorExit
  /-- `StopIteration`. -/
  | stopIteration
  /-- Any other exception of a component. -/
  | raised (message : String)
  deriving DecidableEq

end RagSystem.QueryModels
