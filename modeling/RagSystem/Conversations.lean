import RagSystem.AskCalls

/-!
# Conversations and clarifications

The stored state around a question: the conversation a turn belongs to, with
the scope it carries, and the clarifications the system has asked for.
-/

namespace RagSystem.Conversations

open AtomicProgram DocumentModels QueryModels AskCalls

set_option autoImplicit false

section Conversation

/-- `PreparedTurn`. -/
structure PreparedTurn where
  /-- The conversation as loaded. -/
  conversation : ConversationRecord
  /-- What is routed and retrieved. -/
  effectiveRequest : UnifiedQueryRequest
  /-- The question as asked. -/
  originalQuestion : String
  /-- The question as rewritten, if it was. -/
  rewrittenQuestion : Option String
  /-- Earlier turns are dropped. -/
  forget : Bool

/-- `ConversationManager.load`: a failing read counts as nothing stored. -/
def load (conversationId : String) : Ask (Option ConversationRecord) := do
  let payload ← tryCatch (call (.getConversation conversationId)) fun _ => pure .absent
  match payload with
  | .absent => pure none
  | .invalid => pure none
  | .valid record => pure (some record)

/-- The stored conversation a request names, if it names one. -/
def storedConversation (request : UnifiedQueryRequest) : Ask (Option ConversationRecord) :=
  match request.conversationId.filter (· ≠ "") with
  | some id => load id
  | none => pure none

/-- `request.conversation_id or uuid.uuid4().hex`. -/
def conversationIdOf (request : UnifiedQueryRequest) : Ask String :=
  match request.conversationId.filter (· ≠ "") with
  | some id => pure id
  | none => call .uuid4

/-- The conversation of a request: the stored one, or a new one under its id. -/
def conversationOf (request : UnifiedQueryRequest) : Ask ConversationRecord := do
  let found ← storedConversation request
  match found with
  | some conversation => pure conversation
  | none => do
    let now ← call .utcnow
    let conversationId ← conversationIdOf request
    pure { conversationId, createdAt := now, updatedAt := now, documentIds := request.documentIds }

/-- The standalone question of a follow-up, if the rewriter gave another one.
A failing rewriter counts as none. -/
def rewriteFollowUp (settings : AskSettings) (question : String) (priorTurns : List ConversationTurn) :
    Ask (Option String) :=
  if priorTurns = [] ∨ settings.conversationRewriteEnabled = false then pure none
  else do
    let raw ← tryCatch (call (.rewrite question priorTurns)) fun _ => pure ""
    let candidate := strip raw
    pure (if candidate ≠ "" ∧ candidate ≠ strip question then some candidate else none)

/-- `ConversationManager.prepare`. -/
def prepare (settings : AskSettings) (request : UnifiedQueryRequest) : Ask PreparedTurn := do
  let conversation ← conversationOf request
  let priorTurns := if request.forgetContext then [] else conversation.turns
  -- an explicit scope wins; otherwise the conversation's is inherited
  let documentIds := match request.documentIds with
    | some ids => some ids
    | none => conversation.documentIds
  let rewritten ← rewriteFollowUp settings request.question priorTurns
  let effective ← unifiedQueryRequest
    { question := rewritten.getD request.question
      documentIds
      includeSql := request.includeSql
      conversationId := some conversation.conversationId
      forgetContext := request.forgetContext }
  pure ⟨conversation, effective, request.question, rewritten, request.forgetContext⟩

/-- The conversation with one turn more, the oldest dropped first. -/
def recordedTurn (settings : AskSettings) (prepared : PreparedTurn) (answer route traceId : String)
    (askedAt updatedAt : ℕ) : ConversationRecord :=
  let conv := prepared.conversation
  let kept := if prepared.forget then [] else conv.turns
  let turns := kept ++
    [⟨prepared.originalQuestion, prepared.effectiveRequest.question, answer, route, traceId, askedAt⟩]
  { conv with
    turns := turns.drop (turns.length - settings.conversationMaxTurns)
    documentIds := prepared.effectiveRequest.documentIds
    updatedAt }

/-- `ConversationManager.record_turn`: a failing write is only logged. -/
def recordTurn (settings : AskSettings) (prepared : PreparedTurn) (answer route traceId : String) : Ask Unit := do
  let askedAt ← call .utcnow
  let updatedAt ← call .utcnow
  tryCatch (call (.putConversation (recordedTurn settings prepared answer route traceId askedAt updatedAt)))
    fun _ => pure ()

/-- `ConversationManager.forget`. -/
def forget (conversationId : String) : Ask (Option ConversationRecord) := do
  let found ← load conversationId
  match found with
  | none => pure none
  | some conv => do
    let now ← call .utcnow
    let conv := { conv with turns := [], updatedAt := now }
    call (.putConversation conv)
    pure (some conv)

end Conversation

section Clarification

/-- `SCOPE_CLARIFICATION_QUESTION`. -/
def scopeClarificationQuestion : String :=
  "Should I search only the documents you've selected, or the entire corpus?"

/-- `DEFAULT_CLARIFICATION_QUESTION`. -/
def defaultClarificationQuestion : String :=
  "Could you clarify what you're asking about so I can answer accurately?"

/-- `resolve_clarification_question`. -/
def resolveClarificationQuestion (scopeAmbiguous : Bool) (clarificationQuestion : Option String) : String :=
  if scopeAmbiguous then scopeClarificationQuestion
  else
    let question := strip (clarificationQuestion.getD "")
    if question ≠ "" then question else defaultClarificationQuestion

/-- `ClarificationStore.issue`. -/
def issue (settings : AskSettings) (originalQuestion conversationTurnId clarificationQuestion : String)
    (documentScope : Option (List DocumentId)) : Ask ClarificationPrompt := do
  let clarificationId ← call .tokenUrlsafe
  let now ← call .utcnow
  let expiry := settings.isoformat (now + settings.clarificationExpiry)
  call (.createClarification ⟨clarificationId, conversationTurnId, originalQuestion, documentScope, expiry⟩)
  pure ⟨clarificationQuestion, clarificationId, conversationTurnId, expiry, documentScope⟩

/-- `_is_expired`: what cannot be parsed has expired. -/
def isExpired (settings : AskSettings) (expiryIso : String) (now : ℕ) : Bool :=
  match settings.fromisoformat expiryIso with
  | none => true
  | some expiry => expiry ≤ now

/-- The text of `ClarificationInvalidOrExpiredError`. -/
def invalidOrExpired : AskError := .clarificationInvalidOrExpired "The clarification is invalid or has expired."

/-- `ClarificationStore.load`. The clock is read only for an expiry that parses. -/
def loadClarification (settings : AskSettings) (clarificationId : String) : Ask ClarificationRecord :=
  if clarificationId = "" then throw invalidOrExpired
  else do
    let payload ← call (.getClarification clarificationId)
    match payload with
    | .absent => throw invalidOrExpired
    | .invalid => throw invalidOrExpired
    | .valid record =>
      match settings.fromisoformat record.clarificationExpiry with
      | none => throw invalidOrExpired
      | some _ => do
        let now ← call .utcnow
        if isExpired settings record.clarificationExpiry now then throw invalidOrExpired
        else pure record

/-- `combine_question_and_reply`. -/
def combineQuestionAndReply (originalQuestion reply : String) : String :=
  strip originalQuestion ++ "\n\nClarification: " ++ strip reply

/-- `_UNRESOLVED_MISSING_INFORMATION`. -/
def unresolvedMissingInformation : String :=
  "Your reply did not resolve the ambiguity in the original question, so the system cannot answer it confidently. Try asking a more specific question."

/-- The description fits the response it is put into. -/
theorem unresolvedMissingInformation_fits :
    0 < unresolvedMissingInformation.length ∧ unresolvedMissingInformation.length ≤ 1000 := by
  have hlength : unresolvedMissingInformation.toList.length = 147 := by
    rw [unresolvedMissingInformation, String.toList_ofList]
    decide +kernel
  rw [String.length_toList] at hlength
  omega

/-- `get_trace_id() or trace_hint or str(uuid.uuid4())`. -/
def traceIdOr (current : Option String) (traceHint : String) : Ask String :=
  match current.filter (· ≠ "") with
  | some traceId => pure traceId
  | none => if traceHint ≠ "" then pure traceHint else call .uuid4

/-- `_unresolved_abstention`. -/
def unresolvedAbstention (traceHint : String) : Ask AskOutcome := do
  let current ← call .getTraceId
  let traceId ← traceIdOr current traceHint
  pure (.abstention ⟨.lowConfidence, unresolvedMissingInformation, traceId,
    unresolvedMissingInformation_fits.1, unresolvedMissingInformation_fits.2⟩)

/-- `ClarificationReplyProcessor.process`, over the answer path it is given. -/
def process (settings : AskSettings) (answerPath : String → Option (List DocumentId) → Ask AskOutcome)
    (clarificationId reply : String) : Ask AskOutcome := do
  let record ← loadClarification settings clarificationId
  if strip reply = "" then throw (.clarificationReplyRequired "A clarification reply is required.")
  else do
    let combinedQuestion := combineQuestionAndReply record.originalQuestion reply
    let outcome ← answerPath combinedQuestion record.documentScope
    match outcome with
    | .clarification prompt => unresolvedAbstention prompt.conversationTurnId
    | .answer response => pure (.answer response)
    | .abstention response => pure (.abstention response)

end Clarification

end RagSystem.Conversations
