import RagSystem.Conversations
import RagSystem.HybridAnswers

/-!
# The query router and its endpoints

A question is classified and answered from the documents, the database or
both; then the abstention policy decides whether the answer is given. The
blocking and the streamed form, and the endpoints that confine the search to
what the caller may read.
-/

namespace RagSystem.AgenticRouter

open AtomicProgram DocumentModels EvidenceModels QueryModels Abstention HybridAnswers AskCalls Conversations

set_option autoImplicit false

/-- What an `AgenticRouter` was built with. -/
structure Router where
  /-- The configuration. -/
  settings : AskSettings
  /-- There is a database copilot. -/
  copilotAvailable : Bool
  /-- The tables it can query. -/
  tableNames : List String
  /-- Turns are recorded in conversations. -/
  conversations : Bool
  /-- There is a store for clarifications. -/
  clarificationStore : Bool

section Preparation

/-- `_prepare_conversation`: the effective request, and the turn if there is one. -/
def prepareConversation (router : Router) (request : UnifiedQueryRequest) :
    Ask (UnifiedQueryRequest × Option PreparedTurn) :=
  if router.conversations then do
    let prepared ← prepare router.settings request
    pure (prepared.effectiveRequest, some prepared)
  else pure (request, none)

/-- The turn a clarification is bound to. -/
def conversationTurnId (prepared : Option PreparedTurn) (traceId : String) : String :=
  match prepared with
  | some prepared =>
    prepared.conversation.conversationId ++ ":" ++ toString prepared.conversation.turns.length
  | none => traceId

/-- `_issue_clarification`: without a store, or when it fails, there is none. -/
def issueClarification (router : Router) (request : UnifiedQueryRequest) (decision : RoutingDecision)
    (turnId : String) : Ask (Option ClarificationPrompt) :=
  if router.clarificationStore then
    tryCatch (do
      let prompt ← issue router.settings request.question turnId
        (resolveClarificationQuestion decision.scopeAmbiguous decision.clarificationQuestion) request.documentIds
      pure (some prompt)) fun _ => pure none
  else pure none

/-- The ambiguity gate: the prompt that ends the request, if there is one. -/
def clarificationGate (router : Router) (allowed : Bool) (effective : UnifiedQueryRequest)
    (decision : RoutingDecision) (prepared : Option PreparedTurn) (traceId : String) :
    Ask (Option ClarificationPrompt) :=
  if allowed ∧ decision.ambiguous then
    issueClarification router effective decision (conversationTurnId prepared traceId)
  else pure none

/-- Without a copilot every question goes to the documents. -/
def withoutCopilot (router : Router) (decision : RoutingDecision) : RoutingDecision :=
  if decision.route ≠ .rag ∧ router.copilotAvailable = false then
    { route := .rag
      reasoning := "Copilot unavailable; original route was '" ++ decision.route.value ++
        "'. Falling back to document search."
      confidence := decision.confidence }
  else decision

end Preparation

section Routes

/-- `_route_rag`. -/
def routeRag (router : Router) (request : UnifiedQueryRequest) (decision : RoutingDecision) :
    Ask UnifiedQueryResponse := do
  let ragRequest ← queryRequest request.question request.documentIds
  let ragResponse ← ragQuery router.settings ragRequest
  pure
    { answer := ragResponse.answer
      route := "rag"
      evidenceStatus := ragResponse.evidenceStatus
      traceId := ragResponse.traceId
      citations := ragResponse.citations
      confidence := ragResponse.confidence
      confidenceScore := ragResponse.confidenceScore
      insufficientEvidenceReason := ragResponse.insufficientEvidenceReason
      routingReasoning := some decision.reasoning
      claims := ragResponse.claims
      claimDecompositionFailed := ragResponse.claimDecompositionFailed
      retrievalScores := ragResponse.retrievalScores }

/-- `_route_database`. -/
def routeDatabase (request : UnifiedQueryRequest) (decision : RoutingDecision) : Ask UnifiedQueryResponse := do
  let copilotRequest ← copilotQueryRequest request.question request.includeSql
  let copilotResponse ← call (.copilotQuery copilotRequest)
  let response : UnifiedQueryResponse :=
    { answer := copilotResponse.answer
      route := "database"
      evidenceStatus := copilotResponse.evidenceStatus
      traceId := copilotResponse.traceId
      confidenceScore := copilotResponse.confidenceScore
      sql := copilotResponse.sql
      rows := copilotResponse.rows
      dataSources := copilotResponse.dataSources
      routingReasoning := some decision.reasoning }
  persistUnifiedQueryTrace request.question request.documentIds response
  pure response

/-- The result of a future: an exception is kept until it is asked for. -/
def future {α : Type} (p : Ask α) : Ask (Except AskError α) :=
  tryCatch (do
    let value ← p
    pure (.ok value)) fun e => pure (.error e)

/-- `future.result()`. -/
def futureResult {α : Type} : Except AskError α → Ask α
  | .ok value => pure value
  | .error e => throw e

/-- The merged answer: synthesised when the two overlap, else in sections. -/
def mergedAnswer (router : Router) (question ragAnswer dbAnswer : String) : Ask String :=
  if shouldSynthesizeHybrid router.settings ragAnswer dbAnswer then
    call (.synthesizeHybrid question ragAnswer dbAnswer)
  else pure (composeHybridSections ragAnswer dbAnswer)

/-- `_route_hybrid`. The two lookups run in threads of their own and share
nothing; here they come one after the other. -/
def routeHybrid (router : Router) (request : UnifiedQueryRequest) (decision : RoutingDecision) (traceId : String) :
    Ask UnifiedQueryResponse := do
  let ragRequest ← queryRequest request.question request.documentIds
  let copilotRequest ← copilotQueryRequest request.question request.includeSql
  let ragFuture ← future (ragQuery router.settings ragRequest)
  let copilotFuture ← future (call (.copilotQuery copilotRequest))
  let ragResponse ← futureResult ragFuture
  let copilotResponse ← futureResult copilotFuture
  let answer ← mergedAnswer router request.question ragResponse.answer copilotResponse.answer
  pure
    { answer
      route := "hybrid"
      evidenceStatus := combineEvidenceStatus ragResponse.evidenceStatus copilotResponse.evidenceStatus
      traceId
      citations := ragResponse.citations
      confidence := ragResponse.confidence
      confidenceScore := combineConfidenceScores [ragResponse.confidenceScore, copilotResponse.confidenceScore]
      insufficientEvidenceReason := ragResponse.insufficientEvidenceReason
      sql := copilotResponse.sql
      rows := copilotResponse.rows
      dataSources := copilotResponse.dataSources
      routingReasoning := some decision.reasoning }

/-- The route the decision names. -/
def routeQuery (router : Router) (request : UnifiedQueryRequest) (decision : RoutingDecision) (traceId : String) :
    Ask UnifiedQueryResponse :=
  match decision.route with
  | .rag => routeRag router request decision
  | .database => routeDatabase request decision
  | .hybrid => routeHybrid router request decision traceId

end Routes

section Gate

/-- The signals a response carries for the abstention policy. -/
def responseSignals (settings : AskSettings) (response : UnifiedQueryResponse) : AbstentionSignals :=
  let conflictingIds := (response.claims.filter hasConflictingEvidence).map Claim.claimId
  { route := response.route
    retrievalScores := if response.route = "rag" then some response.retrievalScores else none
    retrievalScoreThreshold := settings.retrievalScoreThreshold
    confidenceScore := response.confidenceScore
    routeMinConfidence := settings.routeMinConfidence
    claims := response.claims
    conflictingClaimIds := if conflictingIds = [] then none else some conflictingIds
    sqlRowCount := if response.route = "database" then some response.rows.length else none }

/-- `_evaluate_abstention_for_response`. -/
def evaluateAbstentionForResponse (settings : AskSettings) (response : UnifiedQueryResponse) (traceId : String) :
    Option AbstentionResponse :=
  evaluateAbstention traceId (responseSignals settings response)

/-- The turn is recorded, where there is one. -/
def recordAnswered (router : Router) (prepared : Option PreparedTurn) (response : UnifiedQueryResponse) : Ask Unit :=
  match prepared with
  | some prepared => recordTurn router.settings prepared response.answer response.route response.traceId
  | none => pure ()

/-- The answer with the conversation it belongs to. -/
def inConversation (prepared : Option PreparedTurn) (response : UnifiedQueryResponse) : UnifiedQueryResponse :=
  { response with
    conversationId := prepared.map fun prepared => prepared.conversation.conversationId
    rewrittenQuestion := prepared.bind PreparedTurn.rewrittenQuestion }

/-- The query and its rows are withheld unless the caller asked for them. -/
def withheldSql (includeSql : Bool) (response : UnifiedQueryResponse) : UnifiedQueryResponse :=
  if includeSql then response else { response with sql := none, rows := [] }

end Gate

section Queries

/-- `AgenticRouter.query`. -/
def query (router : Router) (request : UnifiedQueryRequest) (allowClarification : Bool) : Ask AskOutcome := do
  let traceId ← currentTraceId
  let (effective, prepared) ← prepareConversation router request
  let decision ← call (.classify effective.question router.tableNames)
  let prompt ← clarificationGate router allowClarification effective decision prepared traceId
  match prompt with
  | some prompt => pure (.clarification prompt)
  | none => do
    let response ← routeQuery router effective (withoutCopilot router decision) traceId
    match evaluateAbstentionForResponse router.settings response traceId with
    | some abstention => pure (.abstention abstention)
    | none => do
      recordAnswered router prepared response
      pure (.answer (inConversation prepared response))

/-- Yield one event. -/
def emit (event : StreamEvent) : Ask Unit := call (.emit event)

/-- `response.model_dump(mode="json")`: a row may not be writable. -/
def modelDump (response : UnifiedQueryResponse) : Ask UnifiedQueryResponse :=
  if response.rows.all ResultRow.isJson then pure response
  else throw (.raised "PydanticSerializationError")

/-- What leaves a generator whose body raises: a `StopIteration` does not. -/
def leaving : AskError → AskError
  | .stopIteration => .runtime "generator raised StopIteration"
  | e => e

/-- A generator with this body. -/
def generator (body : Ask Unit) : Ask Unit := tryCatch body fun e => throw (leaving e)

/-- The events of `AgenticRouter.query_stream`. -/
def queryEvents (router : Router) (request : UnifiedQueryRequest) : Ask Unit := do
  let traceId ← currentTraceId
  let (effective, prepared) ← prepareConversation router request
  let conversationId := prepared.map fun prepared => prepared.conversation.conversationId
  emit (.status "classify")
  let decision ← call (.classify effective.question router.tableNames)
  let prompt ← clarificationGate router true effective decision prepared traceId
  match prompt with
  | some prompt => emit (.terminal (.clarification prompt) traceId conversationId)
  | none => do
    emit (.status "retrieve")
    emit (.status "generate")
    let response ← routeQuery router effective (withoutCopilot router decision) traceId
    emit (.status "verify")
    match evaluateAbstentionForResponse router.settings response traceId with
    | some abstention => emit (.terminal (.abstention abstention) traceId conversationId)
    | none => do
      recordAnswered router prepared response
      let payload ← modelDump (withheldSql effective.includeSql (inConversation prepared response))
      emit (.terminal (.answer payload) traceId conversationId)

/-- `AgenticRouter.query_stream`. -/
def queryStream (router : Router) (request : UnifiedQueryRequest) : Ask Unit := generator (queryEvents router request)

end Queries

section Endpoints

/-- `operator_emails_set`. -/
def operatorEmailsSet (settings : AskSettings) : List String :=
  (((settings.operatorEmails.toList.splitOn ',').map fun email => strip (String.ofList email)).filter
    (· ≠ "")).map settings.lower

/-- `resolve_is_operator`. -/
def resolveIsOperator (user : UserPublic) (settings : AskSettings) : Bool :=
  user.isOperator || (operatorEmailsSet settings).contains (settings.lower (strip user.email))

/-- The documents of a listing that the user owns. -/
def ownedIds (documents : List DocumentRecord) (user : UserPublic) : List DocumentId :=
  (documents.filter fun doc => doc.owner = some user.email).map DocumentRecord.id

/-- `sorted(set(ids))`. -/
def sortedSet (ids : List DocumentId) : List DocumentId := ids.dedup.mergeSort

/-- `_scoped_document_ids`. -/
def scopedDocumentIds (settings : AskSettings) (requested : Option (List DocumentId)) (user : UserPublic) :
    Ask (Option (List DocumentId)) :=
  if settings.authEnabled = false ∨ resolveIsOperator user settings then pure requested
  else do
    let documents ← call .listDocuments
    let owned := ownedIds documents user
    match requested with
    | some (id :: ids) => pure (some ((id :: ids).filter owned.contains))
    | _ => pure (some (sortedSet owned))

/-- `POST /ask`. -/
def ask (router : Router) (user : UserPublic) (request : UnifiedQueryRequest) : Ask AskOutcome := do
  let documentIds ← scopedDocumentIds router.settings request.documentIds user
  let request := { request with documentIds }
  tryCatch (do
    let result ← query router request true
    match result with
    | .answer response => pure (.answer (withheldSql request.includeSql response))
    | .clarification prompt => pure (.clarification prompt)
    | .abstention response => pure (.abstention response)) fun
    | .fileNotFound message => throw (.http 503 message)
    | .runtime message => throw (.http 503 message)
    | .sqlValidation message => throw (.http 400 message)
    | e => throw e

/-- `POST /ask/stream`: the producer of its events. -/
def askStream (router : Router) (user : UserPublic) (request : UnifiedQueryRequest) : Ask Unit := do
  let documentIds ← scopedDocumentIds router.settings request.documentIds user
  tryCatch (queryStream router { request with documentIds }) fun
    | .sqlValidation message => emit (.error message)
    | .fileNotFound message => emit (.error message)
    | .runtime message => emit (.error message)
    -- nobody reads the stream any more
    | .generatorExit => pure ()
    | _ => emit (.error "Internal error while streaming the answer.")

/-- `answer_path` of a clarification reply: no further clarification. -/
def answerPath (router : Router) (question : String) (documentScope : Option (List DocumentId)) : Ask AskOutcome := do
  let req ← unifiedQueryRequest { question, documentIds := documentScope }
  query router req false

/-- `POST /ask/clarify`. -/
def askClarify (router : Router) (request : ClarificationReplyRequest) : Ask AskOutcome :=
  tryCatch (process router.settings (answerPath router) request.clarificationId request.reply) fun
    | .clarificationInvalidOrExpired _ => throw (.http 400 "clarification_invalid_or_expired")
    | .clarificationReplyRequired _ => throw (.http 400 "clarification_reply_required")
    | e => throw e

/-- A request a user sends to the ask endpoints. -/
inductive AskRequest where
  /-- `POST /ask`. -/
  | ask (request : UnifiedQueryRequest)
  /-- `POST /ask/stream`. -/
  | askStream (request : UnifiedQueryRequest)
  /-- `POST /ask/clarify`. -/
  | askClarify (request : ClarificationReplyRequest)

/-- What an endpoint returns. -/
inductive AskReply where
  /-- The body of the response. -/
  | body (outcome : AskOutcome)
  /-- A stream, which has ended. -/
  | streamed
  deriving DecidableEq

/-- The endpoint of a request. -/
def serve (router : Router) (user : UserPublic) : AskRequest → Ask AskReply
  | .ask request => do
    let outcome ← ask router user request
    pure (.body outcome)
  | .askStream request => do
    askStream router user request
    pure .streamed
  | .askClarify request => do
    let outcome ← askClarify router request
    pure (.body outcome)

end Endpoints

end RagSystem.AgenticRouter
