import RagSystem.AgenticRouter
import RagSystem.ProgramContracts

/-!
# What each part of the router calls

The calls in three groups: the state and the models around a question, the
passage search, and the two lookups that answer. Every part but the lookups
themselves stays within the first two.
-/

namespace RagSystem.RouterCalls

open AtomicProgram DocumentModels QueryModels AskCalls Conversations AgenticRouter

set_option autoImplicit false

/-- The calls around a question: stores, clock, randomness, classifier and the like. -/
def Around : AskCall → Prop
  | .embedQuery _ => False
  | .encodeQuery _ => False
  | .indexQuery _ _ _ _ => False
  | .filterToActiveVersions _ => False
  | .generateAnswer _ _ _ => False
  | .copilotQuery _ => False
  | .emit _ => False
  | _ => True

/-- Those that hand over no trace. -/
def Aside (x : AskCall) : Prop := Around x ∧ ∀ trace, x ≠ .submitTrace trace

theorem around_of_aside (x : AskCall) (h : Aside x) : Around x := h.1

/-- The calls of the passage search. -/
def Searching : AskCall → Prop
  | .embedQuery _ => True
  | .encodeQuery _ => True
  | .indexQuery _ _ _ _ => True
  | .filterToActiveVersions _ => True
  | _ => False

section Parts

variable {α : Type}

/-- One call around a question. -/
theorem uses_call {S : AskCall → Prop} {x : AskCall} (h : S x) : (call x).Uses S := Program.uses_perform h

/-- A constructor calls nothing. -/
theorem uses_validated {S : AskCall → Prop} (model : String) (errors : List (String × String)) (value : α) :
    (validated model errors value).Uses S := by
  unfold validated
  split
  · trivial
  · trivial

theorem aside_currentTraceId : currentTraceId.Uses Aside := by
  refine Program.Uses.bind (uses_call ⟨trivial, fun _ => AskCall.noConfusion⟩) fun traceId => ?_
  split
  · trivial
  · exact uses_call ⟨trivial, fun _ => AskCall.noConfusion⟩

theorem uses_currentTraceId : currentTraceId.Uses Around :=
  aside_currentTraceId.mono around_of_aside

theorem uses_submitTracePersist (trace : QueryTraceRecord) : (submitTracePersist trace).Uses Around :=
  Program.Uses.catchError (uses_call trivial) fun _ => trivial

theorem aside_load (conversationId : String) : (load conversationId).Uses Aside := by
  refine Program.Uses.bind (.catchError (uses_call ⟨trivial, fun _ => AskCall.noConfusion⟩) fun _ => trivial) fun payload => ?_
  cases payload with
  | absent => trivial
  | invalid => trivial
  | valid record => trivial

theorem aside_conversationOf (request : UnifiedQueryRequest) : (conversationOf request).Uses Aside := by
  have hstored : (storedConversation request).Uses Aside := by
    unfold storedConversation
    split
    · exact aside_load _
    · trivial
  have hid : (conversationIdOf request).Uses Aside := by
    unfold conversationIdOf
    split
    · trivial
    · exact uses_call ⟨trivial, fun _ => AskCall.noConfusion⟩
  refine Program.Uses.bind hstored fun found => ?_
  cases found with
  | some conversation => trivial
  | none => exact Program.Uses.bind (uses_call ⟨trivial, fun _ => AskCall.noConfusion⟩) fun now => Program.Uses.bind hid fun id => trivial

theorem uses_conversationOf (request : UnifiedQueryRequest) : (conversationOf request).Uses Around :=
  (aside_conversationOf request).mono around_of_aside

theorem aside_rewriteFollowUp (settings : AskSettings) (question : String) (priorTurns : List ConversationTurn) :
    (rewriteFollowUp settings question priorTurns).Uses Aside := by
  unfold rewriteFollowUp
  split
  · trivial
  · exact Program.Uses.bind (.catchError (uses_call ⟨trivial, fun _ => AskCall.noConfusion⟩) fun _ => trivial) fun raw => trivial

theorem uses_rewriteFollowUp (settings : AskSettings) (question : String) (priorTurns : List ConversationTurn) :
    (rewriteFollowUp settings question priorTurns).Uses Around :=
  (aside_rewriteFollowUp settings question priorTurns).mono around_of_aside

theorem aside_prepare (settings : AskSettings) (request : UnifiedQueryRequest) :
    (prepare settings request).Uses Aside :=
  Program.Uses.bind (aside_conversationOf request) fun _ =>
    Program.Uses.bind (aside_rewriteFollowUp _ _ _) fun _ =>
      Program.Uses.bind (uses_validated _ _ _) fun _ => trivial

theorem aside_prepareConversation (router : Router) (request : UnifiedQueryRequest) :
    (prepareConversation router request).Uses Aside := by
  unfold prepareConversation
  split
  · exact Program.Uses.bind (aside_prepare _ _) fun _ => trivial
  · trivial

theorem uses_prepareConversation (router : Router) (request : UnifiedQueryRequest) :
    (prepareConversation router request).Uses Around :=
  (aside_prepareConversation router request).mono around_of_aside

theorem aside_clarificationGate (router : Router) (allowed : Bool) (effective : UnifiedQueryRequest)
    (decision : RoutingDecision) (prepared : Option PreparedTurn) (traceId : String) :
    (clarificationGate router allowed effective decision prepared traceId).Uses Aside := by
  unfold clarificationGate
  split
  · unfold issueClarification
    split
    · refine Program.Uses.catchError (Program.Uses.bind ?_ fun _ => trivial) fun _ => trivial
      exact Program.Uses.bind (uses_call ⟨trivial, fun _ => AskCall.noConfusion⟩) fun _ => Program.Uses.bind (uses_call ⟨trivial, fun _ => AskCall.noConfusion⟩) fun _ =>
        Program.Uses.bind (uses_call ⟨trivial, fun _ => AskCall.noConfusion⟩) fun _ => trivial
    · trivial
  · trivial

theorem uses_clarificationGate (router : Router) (allowed : Bool) (effective : UnifiedQueryRequest)
    (decision : RoutingDecision) (prepared : Option PreparedTurn) (traceId : String) :
    (clarificationGate router allowed effective decision prepared traceId).Uses Around :=
  (aside_clarificationGate router allowed effective decision prepared traceId).mono around_of_aside

theorem aside_recordAnswered (router : Router) (prepared : Option PreparedTurn) (response : UnifiedQueryResponse) :
    (recordAnswered router prepared response).Uses Aside := by
  cases prepared with
  | none => trivial
  | some prepared =>
    exact Program.Uses.bind (uses_call ⟨trivial, fun _ => AskCall.noConfusion⟩) fun _ => Program.Uses.bind (uses_call ⟨trivial, fun _ => AskCall.noConfusion⟩) fun _ =>
      Program.Uses.catchError (uses_call ⟨trivial, fun _ => AskCall.noConfusion⟩) fun _ => trivial

theorem uses_recordAnswered (router : Router) (prepared : Option PreparedTurn) (response : UnifiedQueryResponse) :
    (recordAnswered router prepared response).Uses Around :=
  (aside_recordAnswered router prepared response).mono around_of_aside

theorem aside_mergedAnswer (router : Router) (question ragAnswer dbAnswer : String) :
    (mergedAnswer router question ragAnswer dbAnswer).Uses Aside := by
  unfold mergedAnswer
  split
  · exact uses_call ⟨trivial, fun _ => AskCall.noConfusion⟩
  · trivial

theorem uses_mergedAnswer (router : Router) (question ragAnswer dbAnswer : String) :
    (mergedAnswer router question ragAnswer dbAnswer).Uses Around :=
  (aside_mergedAnswer router question ragAnswer dbAnswer).mono around_of_aside

theorem uses_scopedDocumentIds (settings : AskSettings) (requested : Option (List DocumentId)) (user : UserPublic) :
    (scopedDocumentIds settings requested user).Uses Around := by
  unfold scopedDocumentIds
  split
  · trivial
  · refine Program.Uses.bind (uses_call trivial) fun documents => ?_
    split
    · trivial
    · trivial

theorem uses_loadClarification (settings : AskSettings) (clarificationId : String) :
    (loadClarification settings clarificationId).Uses Around := by
  unfold loadClarification
  split
  · trivial
  · refine Program.Uses.bind (uses_call trivial) fun payload => ?_
    cases payload with
    | absent => trivial
    | invalid => trivial
    | valid record =>
      dsimp only
      split
      · trivial
      · refine Program.Uses.bind (uses_call trivial) fun now => ?_
        split
        · trivial
        · trivial

theorem uses_unresolvedAbstention (traceHint : String) : (unresolvedAbstention traceHint).Uses Around := by
  have htrace : ∀ current, (traceIdOr current traceHint).Uses Around := by
    intro current
    unfold traceIdOr
    split
    · trivial
    · split
      · trivial
      · exact uses_call trivial
  exact Program.Uses.bind (uses_call trivial) fun current => Program.Uses.bind (htrace current) fun _ => trivial

theorem uses_search (vector : DenseVector) (topK : ℕ) (documentIds : Option (List DocumentId))
    (sparseVector : Option SparseVector) : (search vector topK documentIds sparseVector).Uses Searching := by
  unfold search
  split
  · exact uses_call trivial
  · trivial
  · exact uses_call trivial

theorem uses_retrieve (settings : AskSettings) (request : QueryRequest) :
    (retrieve settings request).Uses Searching := by
  have hsparse : (encodeSparse settings request.question).Uses Searching := by
    unfold encodeSparse
    split
    · exact Program.Uses.bind (uses_call trivial) fun _ => trivial
    · trivial
  exact Program.Uses.bind (uses_call trivial) fun vector => Program.Uses.bind hsparse fun sparse =>
    Program.Uses.bind (uses_search _ _ _ _) fun hits => Program.Uses.bind (uses_call trivial) fun _ => trivial

end Parts

section Streams

open ProgramContracts

variable {T G : ActionPredicate AskError AskAnswer} {h : AskHistory}

/-- A payload that is dumped is the response. -/
theorem Ensures.dumped {α : Type} {P : AskHistory → α → Prop} {response : UnifiedQueryResponse}
    {f : UnifiedQueryResponse → Ask α} (hf : Ensures T G (Returns P) (f response) h) :
    Ensures T G (Returns P) ((modelDump response).bind f) h := by
  unfold modelDump
  split
  · exact hf
  · exact .raises

/-- A generator ends as its body does, or raises. -/
theorem Ensures.generator {P : AskHistory → Unit → Prop} {body : Ask Unit} (hbody : Ensures T G (Returns P) body h) :
    Ensures T G (Returns P) (generator body) h :=
  Ensures.catchError hbody (fun _ _ hq => hq) fun _ _ _ => .raises

end Streams

end RagSystem.RouterCalls
