import RagSystem.ProgramPaths
import RagSystem.QueryModels

/-!
# Calls of the ask pipeline

What the ask endpoints call: models, the vector index, the stores, the clock
and randomness, and the stream they write to. A store answers with what it
holds; a stored payload that does not validate is told apart from a missing
one. Retries are part of the call they repeat.
-/

namespace RagSystem.AskCalls

open AtomicProgram DocumentModels QueryModels

set_option autoImplicit false

/-- What a key of the store holds. -/
inductive Stored (α : Type) where
  /-- Nothing. -/
  | absent
  /-- A payload that does not validate. -/
  | invalid
  /-- A record. -/
  | valid (record : α)

/-- `list[float]`. -/
abbrev DenseVector := List ℚ

/-- Indices with their values. -/
abbrev SparseVector := List (ℕ × ℚ)

/-- What `query` returns. -/
inductive AskOutcome where
  /-- `UnifiedQueryResponse`. -/
  | answer (response : UnifiedQueryResponse)
  /-- `ClarificationPrompt`. -/
  | clarification (prompt : ClarificationPrompt)
  /-- `AbstentionResponse`. -/
  | abstention (response : AbstentionResponse)
  deriving DecidableEq

/-- One event of a stream. -/
inductive StreamEvent where
  /-- A stage begins. -/
  | status (stage : String)
  /-- The outcome; its kind is that of the payload. -/
  | terminal (payload : AskOutcome) (traceId : String) (conversationId : Option String)
  /-- The request failed. -/
  | error (detail : String)
  deriving DecidableEq

/-- The calls. -/
inductive AskCall where
  /-- `get_trace_id`. -/
  | getTraceId
  /-- `uuid.uuid4`. -/
  | uuid4
  /-- `secrets.token_urlsafe`. -/
  | tokenUrlsafe
  /-- `_utcnow`. -/
  | utcnow
  /-- `list_documents`. -/
  | listDocuments
  /-- `get_json` of a conversation. -/
  | getConversation (conversationId : String)
  /-- `put_json` of a conversation. -/
  | putConversation (record : ConversationRecord)
  /-- `get_json` of a clarification. -/
  | getClarification (clarificationId : String)
  /-- `create_json` of a clarification. -/
  | createClarification (record : ClarificationRecord)
  /-- `FollowUpRewriter.rewrite`. -/
  | rewrite (question : String) (priorTurns : List ConversationTurn)
  /-- `LlmQueryClassifier.classify`. -/
  | classify (question : String) (availableTables : List String)
  /-- `embed_query`. -/
  | embedQuery (question : String)
  /-- `encode_query`. -/
  | encodeQuery (question : String)
  /-- `query` of the vector index, with its document filter. -/
  | indexQuery (vector : DenseVector) (topK : ℕ) (filter : Option (List DocumentId))
      (sparseVector : Option SparseVector)
  /-- `_filter_to_active_versions`. -/
  | filterToActiveVersions (hits : List RetrievalHit)
  /-- `answer` of the generator. -/
  | generateAnswer (question : String) (hits : List RetrievalHit) (traceId : String)
  /-- `DatabaseCopilotService.query`. -/
  | copilotQuery (request : CopilotQueryRequest)
  /-- `_synthesize_hybrid`. -/
  | synthesizeHybrid (question ragAnswer dbAnswer : String)
  /-- Hand a trace to the background writer. -/
  | submitTrace (trace : QueryTraceRecord)
  /-- Yield an event of the stream. -/
  | emit (event : StreamEvent)
  deriving DecidableEq

/-- What each call returns. -/
abbrev AskAnswer : AskCall → Type
  | .getTraceId => Option String
  | .uuid4 => String
  | .tokenUrlsafe => String
  | .utcnow => ℕ
  | .listDocuments => List DocumentRecord
  | .getConversation _ => Stored ConversationRecord
  | .putConversation _ => Unit
  | .getClarification _ => Stored ClarificationRecord
  | .createClarification _ => Unit
  | .rewrite _ _ => String
  | .classify _ _ => RoutingDecision
  | .embedQuery _ => DenseVector
  | .encodeQuery _ => SparseVector
  | .indexQuery _ _ _ _ => List RetrievalHit
  | .filterToActiveVersions _ => List RetrievalHit
  | .generateAnswer _ _ _ => QueryResponse
  | .copilotQuery _ => CopilotQueryResponse
  | .synthesizeHybrid _ _ _ => String
  | .submitTrace _ => Unit
  | .emit _ => Unit

/-- A program of the ask pipeline. -/
abbrev Ask (α : Type) := Program AskError AskAnswer α

/-- One performed call with its answer. -/
abbrev AskEvent := Event AskError AskAnswer

/-- The calls of a request so far. -/
abbrev AskHistory := History AskError AskAnswer

/-- One call. -/
def call (x : AskCall) : Ask (AskAnswer x) := perform x

/-- `get_trace_id() or str(uuid.uuid4())`. -/
def currentTraceId : Ask String := do
  let traceId ← call .getTraceId
  match traceId.filter (· ≠ "") with
  | some traceId => pure traceId
  | none => call .uuid4

/-- What pydantic says of a question. -/
def questionErrors (question : String) : List (String × String) :=
  if question.length = 0 then [("question", "String should have at least 1 character")]
  else if maxQuestionChars < question.length then [("question", "String should have at most 16000 characters")]
  else []

/-- What pydantic says of a document scope. -/
def documentIdsErrors (documentIds : Option (List DocumentId)) : List (String × String) :=
  if documentIds.any fun ids => maxDocumentIds < ids.length then
    [("document_ids", "List should have at most 1000 items after validation")]
  else []

/-- Raise what a constructor's validation found. -/
def validated {α : Type} (model : String) (errors : List (String × String)) (value : α) : Ask α :=
  if errors = [] then pure value else throw (.validation model errors)

/-- The constructor `QueryRequest`. -/
def queryRequest (question : String) (documentIds : Option (List DocumentId)) : Ask QueryRequest :=
  validated "QueryRequest" (questionErrors question ++ documentIdsErrors documentIds) ⟨question, documentIds⟩

/-- The constructor `CopilotQueryRequest`. -/
def copilotQueryRequest (question : String) (includeSql : Bool) : Ask CopilotQueryRequest :=
  validated "CopilotQueryRequest" (questionErrors question) ⟨question, includeSql⟩

/-- The constructor `UnifiedQueryRequest`. -/
def unifiedQueryRequest (request : UnifiedQueryRequest) : Ask UnifiedQueryRequest :=
  validated "UnifiedQueryRequest" (questionErrors request.question ++ documentIdsErrors request.documentIds) request

/-- `_submit_trace_persist`: a trace that cannot be handed over is written at
once, and its failure is only logged. -/
def submitTracePersist (trace : QueryTraceRecord) : Ask Unit :=
  tryCatch (call (.submitTrace trace)) fun _ => pure ()

section Retrieval

/-- `PineconeHybridIndex.search`. -/
def search (queryVector : DenseVector) (topK : ℕ) (documentIds : Option (List DocumentId))
    (sparseVector : Option SparseVector) : Ask (List RetrievalHit) :=
  match documentIds with
  -- no scope requested: the whole index
  | none => call (.indexQuery queryVector topK none sparseVector)
  -- restricted to zero documents
  | some [] => pure []
  | some (id :: ids) => call (.indexQuery queryVector topK (some (id :: ids)) sparseVector)

/-- The sparse encoding of a question, where sparse search is on. -/
def encodeSparse (settings : AskSettings) (question : String) : Ask (Option SparseVector) :=
  if settings.sparseEnabled then do
    let sparse ← call (.encodeQuery question)
    pure (some sparse)
  else pure none

/-- `RagService._retrieve`. -/
def retrieve (settings : AskSettings) (request : QueryRequest) : Ask (List RetrievalHit) := do
  let queryVector ← call (.embedQuery request.question)
  let sparseQuery ← encodeSparse settings request.question
  let rawHits ← search queryVector settings.retrievalDenseTopK request.documentIds sparseQuery
  let hits ← call (.filterToActiveVersions rawHits)
  pure (hits.take settings.contextTopK)

/-- `_save_query_trace`. -/
def queryTrace (request : QueryRequest) (response : QueryResponse) (topHits : List RetrievalHit) :
    QueryTraceRecord where
  traceId := response.traceId
  question := request.question
  route := "rag"
  documentIds := request.documentIds
  answer := response.answer
  evidenceStatus := response.evidenceStatus
  confidence := response.confidence
  confidenceScore := response.confidenceScore
  insufficientEvidenceReason := response.insufficientEvidenceReason
  citations := response.citations
  retrievedHits := topHits

/-- `RagService.query`. -/
def ragQuery (settings : AskSettings) (request : QueryRequest) : Ask QueryResponse := do
  let traceId ← currentTraceId
  let topHits ← retrieve settings request
  let response ← call (.generateAnswer request.question topHits traceId)
  submitTracePersist (queryTrace request response topHits)
  pure response

/-- `persist_unified_query_trace`. -/
def persistUnifiedQueryTrace (question : String) (documentIds : Option (List DocumentId))
    (response : UnifiedQueryResponse) : Ask Unit :=
  submitTracePersist
    { traceId := response.traceId
      question := question
      route := response.route
      documentIds := documentIds
      answer := response.answer
      evidenceStatus := response.evidenceStatus
      confidence := response.confidence
      confidenceScore := response.confidenceScore
      insufficientEvidenceReason := response.insufficientEvidenceReason
      citations := response.citations
      sql := response.sql
      claims := response.claims }

end Retrieval

end RagSystem.AskCalls
