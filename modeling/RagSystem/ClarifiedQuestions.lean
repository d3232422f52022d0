import RagSystem.AbstentionCoverage
import RagSystem.StreamAgreement

/-!
# Answered clarifications

What the clarification endpoint returns, beside what the ask endpoint returns
for the combined question. Both run against the same components, which work:
every call is answered. The two paths differ in the check of the combined
question, in the ambiguity gate and in the fields a response is stripped of.
-/

namespace RagSystem.ClarifiedQuestions

open AtomicProgram ProgramContracts DocumentModels EvidenceModels QueryModels Abstention HybridAnswers AskCalls
  Conversations AgenticRouter RouterCalls
open AbstentionCoverage hiding sampleRouter
open StreamAgreement (shown)

set_option autoImplicit false

section Statement

/-- Components that do not fail, and answer so. -/
def working (answers : (x : AskCall) → AskAnswer x) : Behaviour AskError AskAnswer := fun x => .ok (answers x)

variable (router : Router) (answers : (x : AskCall) → AskAnswer x)

/-- The clarification is stored under this id and has not expired. -/
def Unexpired (settings : AskSettings) (clarificationId : String) (record : ClarificationRecord) : Prop :=
  answers (.getClarification clarificationId) = .valid record ∧
    isExpired settings record.clarificationExpiry (answers .utcnow) = false

/-- The reply is turned away, and nothing was looked at but the clarification
and the clock. -/
def TurnedAway (request : ClarificationReplyRequest) : Prop :=
  result (working answers) (askClarify router request) = .error (.http 400 "clarification_invalid_or_expired") ∧
    ∀ e ∈ (Program.against (working answers) (askClarify router request)).1,
      e.action = .getClarification request.clarificationId ∨ e.action = .utcnow

/-- How the classifier takes a question. -/
def classified (question : String) : RoutingDecision := answers (.classify question router.tableNames)

/-- What the ask endpoint returns for a question in a scope. -/
def asked (user : UserPublic) (question : String) (scope : Option (List DocumentId)) : Except AskError AskOutcome :=
  result (working answers) (ask router user { question, documentIds := scope })

/-- A reply is answered as asking the combined question would be: by an
abstention if that is still ambiguous, else as the ask endpoint answers it to
whoever has the scope. -/
def AskedOnce (question : String) (scope : Option (List DocumentId)) (returned : Except AskError AskOutcome) : Prop :=
  ∃ outcome, returned = .ok outcome ∧ (∀ prompt, outcome ≠ .clarification prompt) ∧
    if (classified router answers question).ambiguous then IsAbstention outcome
    else ∀ user, result (working answers) (scopedDocumentIds router.settings scope user) = .ok scope →
      asked router answers user question scope = .ok outcome

/-- What the documents answer. -/
def documentsAnswer (question : String) (scope : Option (List DocumentId)) : Except AskError QueryResponse :=
  result (working answers) (ragQuery router.settings ⟨question, scope⟩)

/-- What the database answers to a caller who does not ask for the query. -/
def databaseAnswer (question : String) : CopilotQueryResponse := answers (.copilotQuery ⟨question, false⟩)

/-- The abstention policy refuses what the route of the question answers. -/
def Refused (question : String) (scope : Option (List DocumentId)) : Prop :=
  let database := databaseAnswer answers question
  match (withoutCopilot router (classified router answers question)).route with
  | .rag => ∃ r, documentsAnswer router answers question scope = .ok r ∧ RefusesDocuments router.settings r
  | .database =>
    isLowConfidence database.confidenceScore router.settings.routeMinConfidence = true ∨ database.rows = []
  | .hybrid => ∃ r, documentsAnswer router answers question scope = .ok r ∧
    isLowConfidence (combineConfidenceScores [r.confidenceScore, database.confidenceScore])
      router.settings.routeMinConfidence = true

/-- The route of the question brings no query and no rows. -/
def WithoutSql (question : String) : Prop :=
  (withoutCopilot router (classified router answers question)).route ≠ .rag →
    (databaseAnswer answers question).sql = none ∧ (databaseAnswer answers question).rows = []

/-- The combined question and the scope fit a request, and either the policy
refuses the answer, or the question is clear and there is nothing to withhold. -/
def Harmless (question : String) (scope : Option (List DocumentId)) : Prop :=
  questionErrors question = [] ∧ documentIdsErrors scope = [] ∧
    (Refused router answers question scope ∨
      (classified router answers question).ambiguous = false ∧ WithoutSql router answers question)

end Statement

section Parts

variable {router : Router} {answers : (x : AskCall) → AskAnswer x} {question : String} {scope : Option (List DocumentId)}

/-- A call is answered. -/
theorem result_call (answers : (x : AskCall) → AskAnswer x) (x : AskCall) :
    result (working answers) (call x) = .ok (answers x) := result_perform x

/-- What is valid is let through. -/
theorem result_validated {α : Type} (answers : (x : AskCall) → AskAnswer x) (model : String)
    {errors : List (String × String)} (value : α) (h : errors = []) :
    result (working answers) (validated model errors value) = .ok value := by
  rw [validated, if_pos h]
  rfl

/-- There is a trace id. -/
theorem result_currentTraceId (answers : (x : AskCall) → AskAnswer x) :
    ∃ traceId, result (working answers) currentTraceId = .ok traceId := by
  have hcall := result_call answers .getTraceId
  rw [currentTraceId, bind_eq, result_bind_of_ok hcall]
  split
  · next traceId _ => exact ⟨traceId, rfl⟩
  · exact ⟨_, result_call answers _⟩

/-- Handing over a trace never fails. -/
theorem result_submitTracePersist (answers : (x : AskCall) → AskAnswer x) (trace : QueryTraceRecord) :
    result (working answers) (submitTracePersist trace) = .ok () := result_catch_of_ok (result_call answers _)

/-- The passage search finds something, be it nothing. -/
theorem result_retrieve (answers : (x : AskCall) → AskAnswer x) (settings : AskSettings) (request : QueryRequest) :
    ∃ hits, result (working answers) (retrieve settings request) = .ok hits := by
  have hvector := result_call answers (.embedQuery request.question)
  obtain ⟨sparse, hsparse⟩ : ∃ sparse, result (working answers) (encodeSparse settings request.question) = .ok sparse := by
    unfold encodeSparse
    split
    · have hencoded := result_call answers (.encodeQuery request.question)
      rw [bind_eq, result_bind_of_ok hencoded]
      exact ⟨_, rfl⟩
    · exact ⟨none, rfl⟩
  obtain ⟨raw, hraw⟩ : ∃ raw, result (working answers) (search (answers (.embedQuery request.question))
      settings.retrievalDenseTopK request.documentIds sparse) = .ok raw := by
    unfold search
    split
    · exact ⟨_, result_call answers _⟩
    · exact ⟨[], rfl⟩
    · exact ⟨_, result_call answers _⟩
  have hactive := result_call answers (.filterToActiveVersions raw)
  rw [retrieve, bind_eq, result_bind_of_ok hvector, bind_eq, result_bind_of_ok hsparse, bind_eq, result_bind_of_ok hraw,
    bind_eq, result_bind_of_ok hactive]
  exact ⟨_, rfl⟩

/-- The documents answer. -/
theorem result_ragQuery (answers : (x : AskCall) → AskAnswer x) (settings : AskSettings) (request : QueryRequest) :
    ∃ r, result (working answers) (ragQuery settings request) = .ok r := by
  obtain ⟨traceId, htrace⟩ := result_currentTraceId answers
  obtain ⟨hits, hhits⟩ := result_retrieve answers settings request
  have hanswer := result_call answers (.generateAnswer request.question hits traceId)
  have hstored := result_submitTracePersist answers
    (queryTrace request (answers (.generateAnswer request.question hits traceId)) hits)
  rw [ragQuery, bind_eq, result_bind_of_ok htrace, bind_eq, result_bind_of_ok hhits, bind_eq, result_bind_of_ok hanswer,
    bind_eq, result_bind_of_ok hstored]
  exact ⟨_, rfl⟩

/-- The response the route of a question gives: the policy refuses it when the
condition says so, and the query and the rows are those of the database. -/
structure Routed (router : Router) (answers : (x : AskCall) → AskAnswer x) (question : String)
    (scope : Option (List DocumentId)) (response : UnifiedQueryResponse) : Prop where
  /-- Whether it is given. -/
  refused : ∀ traceId, (evaluateAbstentionForResponse router.settings response traceId).isSome = true ↔
    Refused router answers question scope
  /-- What there is to withhold. -/
  withoutSql : response.sql = none ∧ response.rows = [] ↔ WithoutSql router answers question

/-- A future keeps what its program returned. -/
theorem result_future {α : Type} {p : Ask α} {a : α} (hp : result (working answers) p = .ok a) :
    result (working answers) (future p) = .ok (.ok a) := by
  have hbody : result (working answers) (p.bind fun value => .done (.ok value)) = .ok (Except.ok a : Except AskError α) := by
    rw [result_bind_of_ok hp]
    rfl
  exact result_catch_of_ok hbody

/-- The two answers are merged. -/
theorem result_mergedAnswer (router : Router) (answers : (x : AskCall) → AskAnswer x)
    (question ragAnswer dbAnswer : String) :
    ∃ answer, result (working answers) (mergedAnswer router question ragAnswer dbAnswer) = .ok answer := by
  unfold mergedAnswer
  split
  · exact ⟨_, result_call answers _⟩
  · exact ⟨_, rfl⟩

/-- The route of a question answers. -/
theorem routed_routeQuery (router : Router) (answers : (x : AskCall) → AskAnswer x)
    {request : UnifiedQueryRequest} (hquestion : questionErrors request.question = [])
    (hscope : documentIdsErrors request.documentIds = []) (hsql : request.includeSql = false) (traceId : String) :
    ∃ response, result (working answers) (routeQuery router request
        (withoutCopilot router (classified router answers request.question)) traceId) = .ok response ∧
      Routed router answers request.question request.documentIds response := by
  have hvalid : questionErrors request.question ++ documentIdsErrors request.documentIds = [] := by
    rw [hquestion, hscope, List.append_nil]
  have hrequest := result_validated answers "QueryRequest"
    (QueryRequest.mk request.question request.documentIds) hvalid
  have hcopilot := result_validated answers "CopilotQueryRequest"
    (CopilotQueryRequest.mk request.question request.includeSql) hquestion
  obtain ⟨r, hr⟩ := result_ragQuery answers router.settings ⟨request.question, request.documentIds⟩
  have hdatabase := result_call answers (.copilotQuery ⟨request.question, request.includeSql⟩)
  have hsame : answers (.copilotQuery ⟨request.question, request.includeSql⟩) = databaseAnswer answers request.question := by
    rw [hsql, databaseAnswer]
  have honly : ∀ r', documentsAnswer router answers request.question request.documentIds = .ok r' ↔ r' = r := by
    intro r'
    rw [documentsAnswer, hr, Except.ok.injEq, eq_comm]
  unfold routeQuery
  cases hroute : (withoutCopilot router (classified router answers request.question)).route with
  | rag =>
    simp only [routeRag, queryRequest, bind_eq, result_bind_of_ok hrequest, result_bind_of_ok hr]
    refine ⟨_, rfl, fun traceId => ?_, ?_⟩
    · rw [isSome_of_rag (r := r) traceId rfl rfl rfl rfl]
      simp [Refused, hroute, honly]
    · simp [WithoutSql, hroute]
  | database =>
    simp only [routeDatabase, copilotQueryRequest, bind_eq, result_bind_of_ok hcopilot, result_bind_of_ok hdatabase,
      persistUnifiedQueryTrace, result_bind_of_ok (result_submitTracePersist answers _), hsame]
    refine ⟨_, rfl, fun traceId => ?_, ?_⟩
    · rw [isSome_of_database traceId rfl rfl]
      simp [Refused, hroute]
    · simp [WithoutSql, hroute]
  | hybrid =>
    have hrag := result_future hr
    have hboth := result_future hdatabase
    rw [hsame] at hboth
    obtain ⟨answer, hanswer⟩ := result_mergedAnswer router answers request.question
      r.answer (databaseAnswer answers request.question).answer
    simp only [routeHybrid, queryRequest, copilotQueryRequest, bind_eq, result_bind_of_ok hrequest,
      result_bind_of_ok hcopilot, result_bind_of_ok hrag, result_bind_of_ok hboth, futureResult, pure_eq, Program.bind,
      result_bind_of_ok hanswer]
    refine ⟨_, rfl, fun traceId => ?_, ?_⟩
    · rw [isSome_of_hybrid traceId rfl rfl]
      simp [Refused, hroute, honly]
    · simp [WithoutSql, hroute]

end Parts

section Paths

variable {router : Router} {answers : (x : AskCall) → AskAnswer x} {question : String} {scope : Option (List DocumentId)}

/-- A request for the question in the scope, as both endpoints make it. -/
abbrev fresh (question : String) (scope : Option (List DocumentId)) : UnifiedQueryRequest := { question, documentIds := scope }

/-- The conversation a fresh request begins. -/
def begun (answers : (x : AskCall) → AskAnswer x) (scope : Option (List DocumentId)) : ConversationRecord :=
  ⟨answers .uuid4, answers .utcnow, answers .utcnow, scope, []⟩

/-- A fresh request finds no conversation. -/
theorem result_conversationOf :
    result (working answers) (conversationOf (fresh question scope)) = .ok (begun answers scope) := by
  have hnow := result_call answers .utcnow
  have hid := result_call answers .uuid4
  simp only [conversationOf, storedConversation, conversationIdOf, Option.filter_none, bind_eq, pure_eq, Program.bind,
    result_bind_of_ok hnow, result_bind_of_ok hid, result_done, begun]

/-- It is asked as it is. -/
theorem result_prepare (answers : (x : AskCall) → AskAnswer x) (settings : AskSettings)
    (hquestion : questionErrors question = [])
    (hscope : documentIdsErrors scope = []) : ∃ prepared,
      result (working answers) (prepare settings (fresh question scope)) = .ok prepared ∧
        prepared.effectiveRequest = { fresh question scope with conversationId := some (answers .uuid4) } := by
  have hvalid : questionErrors question ++ documentIdsErrors scope = [] := by rw [hquestion, hscope, List.append_nil]
  have hrewrite : result (working answers) (rewriteFollowUp settings question []) = .ok none := by
    simp [rewriteFollowUp]
  have heffective := result_validated answers "UnifiedQueryRequest"
    { fresh question scope with conversationId := some (answers .uuid4) } hvalid
  simp only [prepare, bind_eq, result_bind_of_ok result_conversationOf]
  simp only [Bool.false_eq_true, if_false, begun] at *
  rw [result_bind_of_ok hrewrite]
  simp only [Option.getD_none, unifiedQueryRequest]
  cases scope with
  | some ids =>
    rw [result_bind_of_ok heffective]
    exact ⟨_, rfl, rfl⟩
  | none =>
    rw [result_bind_of_ok heffective]
    exact ⟨_, rfl, rfl⟩

/-- A fresh request begins a conversation, if turns are recorded, and is asked
as it is. -/
theorem result_prepareConversation (router : Router) (answers : (x : AskCall) → AskAnswer x)
    (hquestion : questionErrors question = []) (hscope : documentIdsErrors scope = []) :
    ∃ effective prepared, result (working answers) (prepareConversation router (fresh question scope)) = .ok (effective, prepared) ∧
      effective.question = question ∧ effective.documentIds = scope ∧ effective.includeSql = false := by
  unfold prepareConversation
  split
  · obtain ⟨prepared, hprepared, heffective⟩ :=
      result_prepare answers router.settings hquestion hscope
    rw [bind_eq, result_bind_of_ok hprepared]
    exact ⟨_, _, rfl, by rw [heffective], by rw [heffective], by rw [heffective]⟩
  · exact ⟨_, _, rfl, rfl, rfl, rfl⟩

/-- Recording a turn never fails. -/
theorem result_recordAnswered (prepared : Option PreparedTurn) (response : UnifiedQueryResponse) :
    result (working answers) (recordAnswered router prepared response) = .ok () := by
  unfold recordAnswered
  split
  · have hnow := result_call answers .utcnow
    rw [recordTurn, bind_eq, result_bind_of_ok hnow, bind_eq, result_bind_of_ok hnow]
    exact result_catch_of_ok (result_call answers _)
  · rfl

/-- The response, unless the policy refuses it. -/
def decided (settings : AskSettings) (prepared : Option PreparedTurn) (traceId : String)
    (response : UnifiedQueryResponse) : AskOutcome :=
  match evaluateAbstentionForResponse settings response traceId with
  | some abstention => .abstention abstention
  | none => .answer (inConversation prepared response)

/-- A question that is not held up by the ambiguity gate is answered by its
route, unless the policy refuses. -/
theorem result_query (router : Router) (answers : (x : AskCall) → AskAnswer x)
    (hquestion : questionErrors question = []) (hscope : documentIdsErrors scope = []) :
    ∃ response traceId prepared, Routed router answers question scope response ∧
      ∀ allowed : Bool, ¬ (allowed ∧ (classified router answers question).ambiguous) →
        result (working answers) (query router (fresh question scope) allowed) =
          .ok (decided router.settings prepared traceId response) := by
  obtain ⟨traceId, htrace⟩ := result_currentTraceId answers
  obtain ⟨effective, prepared, hprepared, hsame, hids, hsql⟩ :=
    result_prepareConversation router answers hquestion hscope
  have hdecision : result (working answers) (call (.classify effective.question router.tableNames)) =
      .ok (classified router answers effective.question) := result_call answers _
  have hvalid : questionErrors effective.question = [] ∧ documentIdsErrors effective.documentIds = [] := by
    rw [hsame, hids]
    exact ⟨hquestion, hscope⟩
  obtain ⟨response, hresponse, hrouted⟩ :=
    routed_routeQuery router answers hvalid.1 hvalid.2 hsql traceId
  rw [hsame, hids] at hrouted
  refine ⟨response, traceId, prepared, hrouted, fun allowed hgate => ?_⟩
  have hopen : clarificationGate router allowed effective (classified router answers effective.question) prepared traceId =
      pure none := by
    rw [clarificationGate, hsame, if_neg hgate]
  rw [query, bind_eq, result_bind_of_ok htrace, bind_eq, result_bind_of_ok hprepared]
  simp only [bind_eq]
  rw [result_bind_of_ok hdecision, hopen, pure_eq, result_bind_of_ok (result_done none)]
  simp only
  rw [result_bind_of_ok hresponse]
  unfold decided
  cases evaluateAbstentionForResponse router.settings response traceId with
  | some abstention => rfl
  | none =>
    simp only
    rw [result_bind_of_ok (result_recordAnswered prepared response)]
    rfl

/-- A clarification that is there is loaded. -/
theorem result_loadClarification {settings : AskSettings} {clarificationId : String} {record : ClarificationRecord}
    (hid : clarificationId ≠ "") (hrecord : Unexpired answers settings clarificationId record) :
    result (working answers) (loadClarification settings clarificationId) = .ok record := by
  have hstored : result (working answers) (call (.getClarification clarificationId)) = .ok (.valid record) := by
    rw [result_call answers, hrecord.1]
  have hnow := result_call answers .utcnow
  have hunexpired := hrecord.2
  rw [loadClarification, if_neg hid, bind_eq, result_bind_of_ok hstored]
  cases hexpiry : settings.fromisoformat record.clarificationExpiry with
  | none =>
    rw [isExpired, hexpiry] at hunexpired
    contradiction
  | some expiry =>
    simp only [hexpiry, bind_eq]
    rw [result_bind_of_ok hnow, if_neg (by simp [hunexpired])]
    rfl

/-- One that is not, is not; nothing else is looked at. -/
theorem result_loadClarification_of_none {settings : AskSettings} {clarificationId : String} (hid : clarificationId ≠ "")
    (hnone : ∀ record, ¬ Unexpired answers settings clarificationId record) :
    result (working answers) (loadClarification settings clarificationId) = .error invalidOrExpired := by
  have hstored := result_call answers (.getClarification clarificationId)
  have hnow := result_call answers .utcnow
  rw [loadClarification, if_neg hid, bind_eq, result_bind_of_ok hstored]
  cases hpayload : answers (.getClarification clarificationId) with
  | absent => rfl
  | invalid => rfl
  | valid record =>
    cases hexpiry : settings.fromisoformat record.clarificationExpiry with
    | none =>
      simp only [hexpiry]
      rfl
    | some expiry =>
      have hexpired : isExpired settings record.clarificationExpiry (answers .utcnow) = true := by
        by_contra hopen
        exact hnone record ⟨hpayload, by simpa using hopen⟩
      simp only [hexpiry, bind_eq]
      rw [result_bind_of_ok hnow, if_pos hexpired]
      rfl

/-- A reply to a clarification that is not there is turned away. -/
theorem turnedAway {request : ClarificationReplyRequest}
    (hnone : ∀ record, ¬ Unexpired answers router.settings request.clarificationId record) :
    TurnedAway router answers request := by
  have hload := result_loadClarification_of_none request.clarificationId_ne hnone
  have hprocess : Program.against (working answers)
      (process router.settings (answerPath router) request.clarificationId request.reply) =
        ((Program.against (working answers) (loadClarification router.settings request.clarificationId)).1,
          .error invalidOrExpired) := against_bind_of_error hload
  have hclarify : Program.against (working answers) (askClarify router request) = _ :=
    against_catch_of_error (congrArg Prod.snd hprocess)
  have hlooks : (loadClarification router.settings request.clarificationId).Uses fun x =>
      x = .getClarification request.clarificationId ∨ x = .utcnow := by
    unfold loadClarification
    split
    · trivial
    · refine Program.Uses.bind (uses_call (.inl rfl)) fun payload => ?_
      cases payload with
      | absent => trivial
      | invalid => trivial
      | valid record =>
        simp only
        split
        · trivial
        · refine Program.Uses.bind (uses_call (.inr rfl)) fun now => ?_
          split
          · trivial
          · trivial
  constructor
  · rw [result, hclarify]
    rfl
  · intro e he
    rw [hclarify, hprocess] at he
    rcases List.mem_append.mp he with hloaded | hraised
    · exact uses_of_mem_against hlooks hloaded
    · exact absurd hraised List.not_mem_nil

section Reply

variable {request : ClarificationReplyRequest} {record : ClarificationRecord}

/-- The answer path is asked the combined question. -/
theorem result_process (hrecord : Unexpired answers router.settings request.clarificationId record)
    (hreply : strip request.reply ≠ "") :
    result (working answers) (process router.settings (answerPath router) request.clarificationId request.reply) =
      (result (working answers)
        (answerPath router (combineQuestionAndReply record.originalQuestion request.reply) record.documentScope)).bind
          fun outcome => result (working answers) (match outcome with
            | .clarification prompt => unresolvedAbstention prompt.conversationTurnId
            | .answer response => pure (.answer response)
            | .abstention response => pure (.abstention response)) := by
  have hload := result_loadClarification request.clarificationId_ne hrecord
  rw [process, bind_eq, result_bind_of_ok hload, if_neg hreply]
  exact result_bind _ _

/-- What does not fit a request is an internal error. -/
theorem result_askClarify_of_invalid (hrecord : Unexpired answers router.settings request.clarificationId record)
    (hreply : strip request.reply ≠ "")
    (hquestion : combineQuestionAndReply record.originalQuestion request.reply = question)
    (hinvalid : questionErrors question ++ documentIdsErrors record.documentScope ≠ []) :
    result (working answers) (askClarify router request) =
      .error (.validation "UnifiedQueryRequest" (questionErrors question ++ documentIdsErrors record.documentScope)) := by
  have hpath : result (working answers) (answerPath router question record.documentScope) =
      .error (.validation "UnifiedQueryRequest" (questionErrors question ++ documentIdsErrors record.documentScope)) := by
    rw [answerPath, unifiedQueryRequest, validated, if_neg hinvalid]
    rfl
  have hprocess := result_process hrecord hreply
  rw [hquestion, hpath] at hprocess
  exact result_catch_of_error hprocess

/-- What fits one is routed without the ambiguity gate. -/
theorem result_askClarify (hrecord : Unexpired answers router.settings request.clarificationId record)
    (hreply : strip request.reply ≠ "")
    (hquestion : combineQuestionAndReply record.originalQuestion request.reply = question)
    (hvalid : questionErrors question ++ documentIdsErrors record.documentScope = []) {prepared : Option PreparedTurn}
    {traceId : String} {response : UnifiedQueryResponse}
    (hresult : result (working answers) (query router (fresh question record.documentScope) false) =
      .ok (decided router.settings prepared traceId response)) :
    result (working answers) (askClarify router request) = .ok (decided router.settings prepared traceId response) := by
  have hrequest := result_validated answers "UnifiedQueryRequest"
    (fresh question record.documentScope) hvalid
  have hpath : result (working answers) (answerPath router question record.documentScope) =
      result (working answers) (query router (fresh question record.documentScope) false) := by
    rw [answerPath, bind_eq, unifiedQueryRequest, result_bind_of_ok hrequest]
  have hprocess := result_process hrecord hreply
  rw [hquestion, hpath, hresult] at hprocess
  refine result_catch_of_ok ?_
  rw [hprocess]
  unfold decided
  cases evaluateAbstentionForResponse router.settings response traceId with
  | some abstention => rfl
  | none => rfl

end Reply

/-- The ask endpoint withholds the query and the rows. -/
theorem result_ask {user : UserPublic}
    (hscoped : result (working answers) (scopedDocumentIds router.settings scope user) = .ok scope)
    {prepared : Option PreparedTurn} {traceId : String} {response : UnifiedQueryResponse}
    (hresult : result (working answers) (query router (fresh question scope) true) =
      .ok (decided router.settings prepared traceId response)) :
    asked router answers user question scope = .ok (shown false (decided router.settings prepared traceId response)) := by
  rw [asked, ask, bind_eq, result_bind_of_ok hscoped]
  refine result_catch_of_ok ?_
  rw [bind_eq, result_bind_of_ok hresult]
  cases decided router.settings prepared traceId response with
  | answer response => rfl
  | clarification prompt => rfl
  | abstention response => rfl

end Paths

section AskedOnce

variable {router : Router} {answers : (x : AskCall) → AskAnswer x} {question : String} {scope : Option (List DocumentId)}
  {response : UnifiedQueryResponse}

/-- A decided outcome is never a prompt. -/
theorem decided_ne_clarification (settings : AskSettings) (prepared : Option PreparedTurn) (traceId : String)
    (prompt : ClarificationPrompt) : decided settings prepared traceId response ≠ .clarification prompt := by
  unfold decided
  split
  · nofun
  · nofun

/-- It is an abstention when the policy refuses. -/
theorem isAbstention_decided (hrouted : Routed router answers question scope response) (prepared : Option PreparedTurn)
    (traceId : String) :
    IsAbstention (decided router.settings prepared traceId response) ↔ Refused router answers question scope := by
  rw [← hrouted.refused traceId]
  unfold decided
  cases evaluateAbstentionForResponse router.settings response traceId with
  | some abstention => exact ⟨fun _ => rfl, fun _ => trivial⟩
  | none => exact ⟨fun h => h.elim, fun h => (nomatch h)⟩

/-- Withholding changes nothing when the policy refuses or there is nothing to withhold. -/
theorem shown_decided (hrouted : Routed router answers question scope response) (prepared : Option PreparedTurn)
    (traceId : String) :
    shown false (decided router.settings prepared traceId response) = decided router.settings prepared traceId response ↔
      Refused router answers question scope ∨ WithoutSql router answers question := by
  rw [← hrouted.refused traceId, ← hrouted.withoutSql]
  unfold decided
  cases evaluateAbstentionForResponse router.settings response traceId with
  | some abstention => simp [shown]
  | none =>
    simp only [shown, withheldSql, inConversation, Bool.false_eq_true, if_false, AskOutcome.answer.injEq, Option.isSome_none,
      false_or]
    constructor
    · intro hsame
      have hsql := congrArg UnifiedQueryResponse.sql hsame
      have hrows := congrArg UnifiedQueryResponse.rows hsame
      exact ⟨hsql.symm, hrows.symm⟩
    · rintro ⟨hsql, hrows⟩
      rw [hsql, hrows]

/-- Someone has the scope: an operator. -/
theorem scoped_operator (settings : AskSettings) :
    result (working answers) (scopedDocumentIds settings scope ⟨"", "", true⟩) = .ok scope := by
  simp [scopedDocumentIds, resolveIsOperator]

/-- An abstention is the policy's, with its text for one of its reasons. -/
theorem decided_missingInformation {settings : AskSettings} {prepared : Option PreparedTurn} {traceId : String}
    {abstention : AbstentionResponse} (h : decided settings prepared traceId response = .abstention abstention) :
    abstention.missingInformation = resolveMissingInformation abstention.reasonCode fun _ => none := by
  unfold decided at h
  split at h
  · next given hgiven =>
    cases h
    unfold evaluateAbstentionForResponse evaluateAbstention at hgiven
    split at hgiven
    · contradiction
    · cases hgiven
      rfl
  · contradiction

/-- A decided reply is as asking once exactly when the policy refuses, or the
question is clear and there is nothing to withhold. -/
theorem askedOnce_decided (hrouted : Routed router answers question scope response) {prepared : Option PreparedTurn}
    {traceId : String} (hquery : (classified router answers question).ambiguous = false →
      result (working answers) (query router (fresh question scope) true) =
        .ok (decided router.settings prepared traceId response)) :
    AskedOnce router answers question scope (.ok (decided router.settings prepared traceId response)) ↔
      Refused router answers question scope ∨
        (classified router answers question).ambiguous = false ∧ WithoutSql router answers question := by
  have habstains := isAbstention_decided hrouted prepared traceId
  have hshown := shown_decided hrouted prepared traceId
  unfold AskedOnce
  cases hclear : (classified router answers question).ambiguous with
  | true =>
    simp only [if_true, Bool.true_eq_false, false_and, or_false]
    constructor
    · rintro ⟨outcome, houtcome, _, honce⟩
      rw [← Except.ok.inj houtcome] at honce
      exact habstains.mp honce
    · intro hrefused
      exact ⟨_, rfl, fun prompt => decided_ne_clarification _ _ _ prompt, habstains.mpr hrefused⟩
  | false =>
    simp only [Bool.false_eq_true, if_false, true_and]
    constructor
    · rintro ⟨outcome, houtcome, _, honce⟩
      rw [← Except.ok.inj houtcome] at honce
      have hoperator := honce _ (scoped_operator router.settings)
      rw [result_ask (scoped_operator router.settings) (hquery hclear)] at hoperator
      exact hshown.mp (Except.ok.inj hoperator)
    · intro hharmless
      refine ⟨_, rfl, fun prompt => decided_ne_clarification _ _ _ prompt, fun user hscoped => ?_⟩
      rw [result_ask hscoped (hquery hclear), hshown.mpr hharmless]

/-- A clarification. -/
def sampleClarification : ClarificationRecord := ⟨"c", "t", "Which policy?", none, "1"⟩

/-- An answer from the documents. -/
def sampleResponse : QueryResponse where
  answer := "Refunds take 14 days."
  citations := []
  evidenceStatus := "grounded"
  traceId := "t"
  confidenceScore := some (17 / 20)
  retrievalScores := [9 / 10]

/-- A router that records conversations. -/
def sampleRouter : Router := ⟨sampleSettings, false, [], true, false⟩

/-- Components with that clarification and a document answer, and a classifier
that finds a question unclear or not. -/
def sampleAnswers (ambiguous : Bool) : (x : AskCall) → AskAnswer x
  | .getTraceId => some "t"
  | .uuid4 => "u"
  | .tokenUrlsafe => "k"
  | .utcnow => 0
  | .listDocuments => []
  | .getConversation _ => .absent
  | .putConversation _ => ()
  | .getClarification clarificationId => if clarificationId = "c" then .valid sampleClarification else .absent
  | .createClarification _ => ()
  | .rewrite _ _ => ""
  | .classify _ _ => { route := .rag, reasoning := "", ambiguous }
  | .embedQuery _ => []
  | .encodeQuery _ => []
  | .indexQuery _ _ _ _ => []
  | .filterToActiveVersions _ => []
  | .generateAnswer _ _ _ => sampleResponse
  | .copilotQuery _ => { answer := "", mode := "database", evidenceStatus := "grounded", traceId := "t" }
  | .synthesizeHybrid _ _ _ => ""
  | .submitTrace _ => ()
  | .emit _ => ()

/-- A reply to it. -/
def sampleReply : ClarificationReplyRequest := ⟨"c", "The refund policy.", by decide⟩

/-- The question asked with the reply. -/
def sampleQuestion : String := combineQuestionAndReply "Which policy?" "The refund policy."

/-- The user got an answer. -/
def answered : Except AskError AskOutcome → Bool
  | .ok (.answer _) => true
  | _ => false

end AskedOnce

end RagSystem.ClarifiedQuestions
