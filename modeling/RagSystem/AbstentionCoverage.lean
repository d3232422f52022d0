import RagSystem.RouterCalls

/-!
# Abstention and the routes

Whether an answer the policy refuses can reach the user. On the document route
the response carries the claims of the answer to the one place where the
policy is asked; the hybrid response leaves them behind, so there only its
combined confidence can still stop the answer.
-/

namespace RagSystem.AbstentionCoverage

open AtomicProgram ProgramPaths ProgramContracts DocumentModels EvidenceModels QueryModels Abstention HybridAnswers
  AskCalls Conversations AgenticRouter RouterCalls

set_option autoImplicit false

section Statement

/-- What the documents answered. -/
def answers (h : AskHistory) : List QueryResponse :=
  h.filterMap fun
    | ⟨.generateAnswer _ _ _, .ok r⟩ => some r
    | _ => none

/-- What the database answered. -/
def queries (h : AskHistory) : List CopilotQueryResponse :=
  h.filterMap fun
    | ⟨.copilotQuery _, .ok c⟩ => some c
    | _ => none

/-- The document branch has text for the answer. -/
def Contributes (h : AskHistory) (r : QueryResponse) : Prop := r ∈ answers h ∧ strip r.answer ≠ ""

/-- The next thing the user gets is `o`: the body of the response, or the
terminal event of the stream. -/
def Gives (p : Ask AskReply) (o : AskOutcome) : Prop :=
  p = .done (.body o) ∨ ∃ traceId conversationId next, p = .act (.emit (.terminal o traceId conversationId)) next

/-- The outcome is an abstention. -/
def IsAbstention : AskOutcome → Prop
  | .abstention _ => True
  | _ => False

/-- A refused branch that has text for the answer makes the outcome an abstention. -/
def Covered (h : AskHistory) (o : AskOutcome) : Prop :=
  ∀ r, Contributes h r → refusesClaims r.claims = true → IsAbstention o

/-- Wherever a refused branch with text was merged with an answer from the
database, the combined confidence is too low for the route. -/
def MergedLow (settings : AskSettings) (h : AskHistory) : Prop :=
  ∀ r c, Contributes h r → c ∈ queries h → refusesClaims r.claims = true →
    isLowConfidence (combineConfidenceScores [r.confidenceScore, c.confidenceScore]) settings.routeMinConfidence = true

/-- Refused branches are withheld exactly if those that were merged have too low a combined confidence. -/
def Fits (settings : AskSettings) (h : AskHistory) (o : AskOutcome) : Prop := Covered h o ↔ MergedLow settings h

end Statement

section Lookups

/-- What the two lookups of a history found. -/
def found (h : AskHistory) : List QueryResponse × List CopilotQueryResponse := (answers h, queries h)

/-- The calls that neither look up nor give an outcome. -/
def Quiet : AskCall → Prop
  | .generateAnswer _ _ _ => False
  | .copilotQuery _ => False
  | .emit (.terminal _ _ _) => False
  | _ => True

/-- Quiet calls find nothing. -/
theorem found_append_of_quiet {h : AskHistory} {e : AskEvent} (he : Quiet e.action) : found (h ++ [e]) = found h := by
  obtain ⟨action, answer⟩ := e
  have hanswer : answers [⟨action, answer⟩] = [] := by
    cases action with
    | generateAnswer _ _ _ => exact False.elim he
    | _ => rfl
  have hquery : queries [⟨action, answer⟩] = [] := by
    cases action with
    | copilotQuery _ => exact False.elim he
    | _ => rfl
  have happend : found (h ++ [⟨action, answer⟩]) =
      (answers h ++ answers [⟨action, answer⟩], queries h ++ queries [⟨action, answer⟩]) := by
    simp only [found, answers, queries, List.filterMap_append]
  rw [happend, hanswer, hquery, List.append_nil, List.append_nil]
  rfl

/-- Where a response came from: what the lookups of the request found, and
what the response keeps of it. -/
inductive ResultOf (h : AskHistory) (response : UnifiedQueryResponse) : Prop
  /-- The documents: the claims are kept. -/
  | rag (r : QueryResponse) (hfound : found h = ([r], [])) (hclaims : response.claims = r.claims)
      (hrows : response.rows = [])
  /-- The database: there are no claims. -/
  | database (c : CopilotQueryResponse) (hfound : found h = ([], [c])) (hroute : response.route = "database")
      (hclaims : response.claims = []) (hscore : response.confidenceScore = c.confidenceScore)
      (hrows : response.rows = c.rows)
  /-- Both: the claims are left behind, the confidence is combined. -/
  | hybrid (r : QueryResponse) (c : CopilotQueryResponse) (hfound : found h = ([r], [c]))
      (hroute : response.route = "hybrid") (hclaims : response.claims = [])
      (hscore : response.confidenceScore = combineConfidenceScores [r.confidenceScore, c.confidenceScore])
      (hrows : response.rows = c.rows)

/-- It is told from what was found alone. -/
theorem ResultOf.of_found {h h' : AskHistory} {response : UnifiedQueryResponse} (hr : ResultOf h response)
    (heq : found h' = found h) : ResultOf h' response := by
  cases hr with
  | rag r hfound hclaims hrows => exact .rag r (heq.trans hfound) hclaims hrows
  | database c hfound hroute hclaims hscore hrows => exact .database c (heq.trans hfound) hroute hclaims hscore hrows
  | hybrid r c hfound hroute hclaims hscore hrows => exact .hybrid r c (heq.trans hfound) hroute hclaims hscore hrows

end Lookups

section Policy

variable {settings : AskSettings} {response : UnifiedQueryResponse}

/-- The router flags exactly the claims that are in conflict. -/
theorem isConflicting_responseSignals (settings : AskSettings) (response : UnifiedQueryResponse) :
    isConflicting (responseSignals settings response) = response.claims.any hasConflictingEvidence := by
  by_cases hany : response.claims.any hasConflictingEvidence = true
  · obtain ⟨claim, hin, hc⟩ := List.any_eq_true.mp hany
    have hids : (response.claims.filter hasConflictingEvidence).map Claim.claimId ≠ [] := by
      intro hnil
      have hempty := List.map_eq_nil_iff.mp hnil
      have hmem : claim ∈ response.claims.filter hasConflictingEvidence := List.mem_filter.mpr ⟨hin, hc⟩
      rw [hempty] at hmem
      exact List.not_mem_nil hmem
    have hpos := List.length_pos_iff.mpr hids
    simp only [isConflicting, responseSignals, if_neg hids, hpos, decide_true, hany]
  · have hnone : response.claims.filter hasConflictingEvidence = [] := by
      rw [List.filter_eq_nil_iff]
      exact fun claim hin hc => hany (List.any_eq_true.mpr ⟨claim, hin, hc⟩)
    simp only [isConflicting, responseSignals, hnone, List.map_nil, if_true]

/-- Refused claims in the response make the policy fire, whatever the route. -/
theorem isSome_of_refuses (traceId : String) (h : refusesClaims response.claims = true) :
    (evaluateAbstentionForResponse settings response traceId).isSome = true := by
  rw [evaluateAbstentionForResponse, evaluateAbstention_isSome]
  have hclaims : (responseSignals settings response).claims = response.claims := rfl
  have hmaterial : (responseSignals settings response).isMaterial = defaultIsMaterial := rfl
  unfold selectReasonCode
  split
  · rfl
  · rw [hclaims, hmaterial, isConflicting_responseSignals]
    split
    · rfl
    · split
      · rfl
      · next hsupported =>
        have hconflict : response.claims.any hasConflictingEvidence = true := by
          simpa [refusesClaims, hsupported] using h
        rw [if_pos hconflict]
        rfl

/-- On the hybrid route, without claims, only the confidence counts. -/
theorem isSome_of_hybrid (traceId : String) (hroute : response.route = "hybrid") (hclaims : response.claims = []) :
    (evaluateAbstentionForResponse settings response traceId).isSome =
      isLowConfidence response.confidenceScore settings.routeMinConfidence := by
  rw [evaluateAbstentionForResponse, evaluateAbstention_isSome]
  by_cases hlow : isLowConfidence response.confidenceScore settings.routeMinConfidence = true
  · simp [selectReasonCode, retrievalReason, responseSignals, hroute, hclaims, hlow]
  · simp [selectReasonCode, retrievalReason, responseSignals, hroute, hclaims, hlow, isConflicting, databaseRoute]

/-- The abstention policy refuses what the documents answered. -/
def RefusesDocuments (settings : AskSettings) (r : QueryResponse) : Prop :=
  (∀ score ∈ r.retrievalScores, score < settings.retrievalScoreThreshold) ∨
    isLowConfidence r.confidenceScore settings.routeMinConfidence = true ∨ refusesClaims r.claims = true

/-- What the policy says of an answer from the documents. -/
theorem isSome_of_rag {r : QueryResponse} (traceId : String)
    (hroute : response.route = "rag") (hscores : response.retrievalScores = r.retrievalScores)
    (hconfidence : response.confidenceScore = r.confidenceScore) (hclaims : response.claims = r.claims) :
    (evaluateAbstentionForResponse settings response traceId).isSome = true ↔ RefusesDocuments settings r := by
  have hconflict := isConflicting_responseSignals settings response
  rw [evaluateAbstentionForResponse, evaluateAbstention_isSome]
  by_cases hlow : ∀ score ∈ r.retrievalScores, score < settings.retrievalScoreThreshold
  · have hfires : (retrievalReason (responseSignals settings response)).isSome = true := by
      by_cases hnone : r.retrievalScores = []
      · simp [retrievalReason, responseSignals, hroute, hscores, hnone]
      · simpa [retrievalReason, responseSignals, hroute, hscores, hnone] using hlow
    obtain ⟨reason, hreason⟩ := Option.isSome_iff_exists.mp hfires
    have hselected : selectReasonCode (responseSignals settings response) = some reason := by
      rw [selectReasonCode, hreason]
    rw [hselected]
    exact ⟨fun _ => .inl hlow, fun _ => rfl⟩
  · have hquiet : retrievalReason (responseSignals settings response) = none := by
      have hsome : r.retrievalScores ≠ [] := by
        intro hnone
        exact hlow (by simp [hnone])
      have hgood : r.retrievalScores.all (fun score => decide (score < settings.retrievalScoreThreshold)) = false := by
        simpa using hlow
      simp [retrievalReason, responseSignals, hroute, hscores, hsome, hgood]
    have hdocuments : (responseSignals settings response).route ≠ databaseRoute := by
      simp [responseSignals, hroute, databaseRoute]
    have hsignals : (responseSignals settings response).confidenceScore = r.confidenceScore ∧
        (responseSignals settings response).claims = r.claims := ⟨hconfidence, hclaims⟩
    have hmaterial : (responseSignals settings response).isMaterial = defaultIsMaterial := rfl
    have hleast : (responseSignals settings response).routeMinConfidence = settings.routeMinConfidence := rfl
    rw [hclaims] at hconflict
    rw [RefusesDocuments, or_iff_right hlow, refusesClaims, Bool.or_eq_true]
    simp only [selectReasonCode, hquiet, hsignals, hmaterial, hleast, hconflict, hdocuments, false_and, if_false]
    split_ifs <;> simp_all

/-- What the policy says of an answer from the database. -/
theorem isSome_of_database (traceId : String)
    (hroute : response.route = "database") (hclaims : response.claims = []) :
    (evaluateAbstentionForResponse settings response traceId).isSome = true ↔
      isLowConfidence response.confidenceScore settings.routeMinConfidence = true ∨ response.rows = [] := by
  have hconflict := isConflicting_responseSignals settings response
  rw [evaluateAbstentionForResponse, evaluateAbstention_isSome]
  have hquiet : retrievalReason (responseSignals settings response) = none := by
    simp [retrievalReason, responseSignals, hroute]
  have hcount : (responseSignals settings response).sqlRowCount = some response.rows.length := by
    simp [responseSignals, hroute]
  have hclear : (responseSignals settings response).claims = [] := hclaims
  have hdatabase : (responseSignals settings response).route = databaseRoute := hroute
  have hscore : (responseSignals settings response).confidenceScore = response.confidenceScore := rfl
  have hleast : (responseSignals settings response).routeMinConfidence = settings.routeMinConfidence := rfl
  rw [hclaims, List.any_nil] at hconflict
  simp only [selectReasonCode, hquiet, hcount, hclear, hdatabase, hscore, hleast, hconflict, List.any_nil, true_and,
    Bool.false_eq_true, if_false]
  split_ifs <;> simp_all

/-- Without a lookup there is nothing to refuse. -/
theorem fits_of_none {h : AskHistory} (hnone : answers h = []) (o : AskOutcome) : Fits settings h o := by
  have hnothing : ∀ r, ¬ Contributes h r := by
    intro r hr
    have hin := hr.1
    rw [hnone] at hin
    exact List.not_mem_nil hin
  exact ⟨fun _ r c hr => absurd hr (hnothing r), fun _ r hr => absurd hr (hnothing r)⟩

/-- An outcome that abstains exactly when the policy fires fits. -/
theorem fits_of_result {h : AskHistory} {o : AskOutcome} {traceId : String} (hr : ResultOf h response)
    (ho : IsAbstention o ↔ (evaluateAbstentionForResponse settings response traceId).isSome = true) :
    Fits settings h o := by
  cases hr with
  | rag r hfound hclaims hrows =>
    have hanswers : answers h = [r] := congrArg Prod.fst hfound
    have hqueries : queries h = [] := congrArg Prod.snd hfound
    have hcovered : Covered h o := by
      intro r' hr' hrefused
      have hsame : r' = r := by simpa [hanswers] using hr'.1
      rw [hsame, ← hclaims] at hrefused
      exact ho.mpr (isSome_of_refuses traceId hrefused)
    have hlow : MergedLow settings h := by
      intro r' c _ hc
      rw [hqueries] at hc
      exact absurd hc List.not_mem_nil
    exact ⟨fun _ => hlow, fun _ => hcovered⟩
  | database c hfound hroute hclaims hscore hrows => exact fits_of_none (congrArg Prod.fst hfound) o
  | hybrid r c hfound hroute hclaims hscore hrows =>
    rw [isSome_of_hybrid traceId hroute hclaims, hscore] at ho
    have hanswers : answers h = [r] := congrArg Prod.fst hfound
    have hqueries : queries h = [c] := congrArg Prod.snd hfound
    constructor
    · intro hcovered r' c' hr' hc' hrefused
      have hrag : r' = r := by simpa [hanswers] using hr'.1
      have hdatabase : c' = c := by simpa [hqueries] using hc'
      have habstained := hcovered r' hr' hrefused
      rw [hrag, hdatabase]
      exact ho.mp habstained
    · intro hlow r' hr' hrefused
      have hrag : r' = r := by simpa [hanswers] using hr'.1
      have hdatabase : c ∈ queries h := by simp [hqueries]
      have hscored := hlow r' c hr' hdatabase hrefused
      rw [hrag] at hscored
      exact ho.mpr hscored

end Policy

section Programs

/-- Any answer may come. -/
def Anything (_ : AskHistory) (_ : AskEvent) : Prop := True

/-- A stream gives only outcomes that fit. -/
def FittingEvents (settings : AskSettings) (h : AskHistory) (e : AskEvent) : Prop :=
  ∀ o traceId conversationId, e.action = .emit (.terminal o traceId conversationId) → Fits settings h o

theorem quiet_of_around (x : AskCall) (h : Around x) : Quiet x := by
  cases x with
  | emit event => exact False.elim h
  | _ => first | exact h | trivial

theorem quiet_of_searching (x : AskCall) (h : Searching x) : Quiet x := by
  cases x with
  | emit event => exact False.elim h
  | _ => first | exact h | trivial

variable {α : Type} {settings : AskSettings}

/-- Quiet calls leave what was found as it is. -/
theorem quiet_keeps {p : Ask α} (hp : p.Uses Quiet) {h : AskHistory}
    {l : List QueryResponse × List CopilotQueryResponse} (hl : found h = l) :
    Ensures Anything (FittingEvents settings) (fun h _ => found h = l) p h := by
  refine Ensures.of_uses hp (fun h e hquiet hl _ => ?_) hl
  refine ⟨fun o t c hemit => ?_, (found_append_of_quiet hquiet).trans hl⟩
  rw [hemit] at hquiet
  exact False.elim hquiet

/-- The documents answer. -/
theorem answer_adds {question : String} {hits : List RetrievalHit} {traceId : String} {h : AskHistory} :
    Ensures Anything (FittingEvents settings) (Returns fun h' r => found h' = (answers h ++ [r], queries h))
      (call (.generateAnswer question hits traceId)) h := by
  refine Ensures.perform fun r _ => ⟨fun o t c => nofun, fun a ha => ?_⟩
  subst ha
  simp [found, answers, queries]

/-- The database answers. -/
theorem query_adds {request : CopilotQueryRequest} {h : AskHistory} :
    Ensures Anything (FittingEvents settings) (Returns fun h' c => found h' = (answers h, queries h ++ [c]))
      (call (.copilotQuery request)) h := by
  refine Ensures.perform fun r _ => ⟨fun o t c => nofun, fun a ha => ?_⟩
  subst ha
  simp [found, answers, queries]

/-- A constructor's validation is quiet. -/
theorem quiet_validated (model : String) (errors : List (String × String)) (value : α) :
    (validated model errors value).Uses Quiet := uses_validated model errors value

theorem Ensures.quietThen {β : Type} {P : AskHistory → β → Prop} {p : Ask α} {f : α → Ask β} {h : AskHistory} {l : List QueryResponse × List CopilotQueryResponse}
    (hp : p.Uses Quiet) (hl : found h = l)
    (hf : ∀ h a, found h = l → Ensures Anything (FittingEvents settings) (Returns P) (f a) h) :
    Ensures Anything (FittingEvents settings) (Returns P) (p.bind f) h :=
  (quiet_keeps hp hl).andThen hf

/-- `query` of the documents finds what it returns, and nothing else. -/
theorem ragQuery_finds {ragSettings : AskSettings} {request : QueryRequest} {h : AskHistory}
    (hl : found h = ([], [])) : Ensures Anything (FittingEvents settings) (Returns fun h r => found h = ([r], []))
      (ragQuery ragSettings request) h := by
  have htrace := uses_currentTraceId.mono quiet_of_around
  have hretrieve := (uses_retrieve ragSettings request).mono quiet_of_searching
  refine Ensures.quietThen htrace hl fun h traceId hl => Ensures.quietThen hretrieve hl fun h hits hl => ?_
  refine Ensures.andThen answer_adds fun h' r hadd => ?_
  have hr : found h' = ([r], []) := by
    have hnone : answers h = [] ∧ queries h = [] := Prod.mk.inj hl
    rw [hadd r rfl, hnone.1, hnone.2, List.nil_append]
  have hpersist := (uses_submitTracePersist (queryTrace request r hits)).mono quiet_of_around
  exact Ensures.quietThen hpersist hr fun h _ hl => .returns hl

/-- The document route. -/
theorem routeRag_result {router : Router} {request : UnifiedQueryRequest} {decision : RoutingDecision} {h : AskHistory}
    (hl : found h = ([], [])) : Ensures Anything (FittingEvents settings) (Returns ResultOf)
      (routeRag router request decision) h := by
  refine Ensures.quietThen (quiet_validated _ _ _) hl fun h ragRequest hl => ?_
  exact (ragQuery_finds hl).andThen fun h r hr => .returns (.rag r (hr r rfl) rfl rfl)

/-- The database route. -/
theorem routeDatabase_result {request : UnifiedQueryRequest} {decision : RoutingDecision} {h : AskHistory}
    (hl : found h = ([], [])) : Ensures Anything (FittingEvents settings) (Returns ResultOf)
      (routeDatabase request decision) h := by
  refine Ensures.quietThen (quiet_validated _ _ _) hl fun h copilotRequest hl => ?_
  refine Ensures.andThen query_adds fun h' c hadd => ?_
  have hc : found h' = ([], [c]) := by
    have hnone : answers h = [] ∧ queries h = [] := Prod.mk.inj hl
    rw [hadd c rfl, hnone.1, hnone.2, List.nil_append]
  refine Ensures.quietThen ((uses_submitTracePersist _).mono quiet_of_around) hc fun h _ hl => ?_
  exact .returns (.database c hl rfl rfl rfl rfl)

/-- A future keeps what its program returned. -/
theorem future_returns {T G : ActionPredicate AskError AskAnswer} {P : AskHistory → α → Prop} {p : Ask α} {h : AskHistory}
    (hp : Ensures T G (Returns P) p h) : Ensures T G (Returns fun h r => ∀ a, r = .ok a → P h a) (future p) h := by
  refine Ensures.catchError (Q := Returns fun h r => ∀ a, r = .ok a → P h a) ?_ (fun _ _ hq => hq) fun h e _ => ?_
  · refine hp.andThen fun h a ha => .returns fun a' ha' => ?_
    cases ha'
    exact ha a rfl
  · exact .returns fun a ha => (nomatch ha)

/-- The hybrid route. -/
theorem routeHybrid_result {router : Router} {request : UnifiedQueryRequest} {decision : RoutingDecision}
    {traceId : String} {h : AskHistory} (hl : found h = ([], [])) :
    Ensures Anything (FittingEvents settings) (Returns ResultOf) (routeHybrid router request decision traceId) h := by
  refine Ensures.quietThen (quiet_validated _ _ _) hl fun h ragRequest hl => ?_
  refine Ensures.quietThen (quiet_validated _ _ _) hl fun h copilotRequest hl => ?_
  refine (future_returns (ragQuery_finds hl)).andThen fun h ragFuture hrag => ?_
  refine (future_returns query_adds).andThen fun h' copilotFuture hadd => ?_
  cases ragFuture with
  | error e => exact .raises
  | ok r =>
    cases copilotFuture with
    | error e => exact .raises
    | ok c =>
      have hboth : found h' = ([r], [c]) := by
        have hone : answers h = [r] ∧ queries h = [] := Prod.mk.inj (hrag _ rfl r rfl)
        rw [hadd _ rfl c rfl, hone.1, hone.2, List.nil_append]
      have hmerge := (uses_mergedAnswer router request.question r.answer c.answer).mono quiet_of_around
      show Ensures _ _ _ ((mergedAnswer router request.question r.answer c.answer).bind _) _
      refine Ensures.quietThen hmerge hboth fun h'' answer hl => ?_
      exact .returns (.hybrid r c hl rfl rfl rfl rfl)

/-- Every route. -/
theorem routeQuery_result {router : Router} {request : UnifiedQueryRequest} {decision : RoutingDecision}
    {traceId : String} {h : AskHistory} (hl : found h = ([], [])) :
    Ensures Anything (FittingEvents settings) (Returns ResultOf) (routeQuery router request decision traceId) h := by
  unfold routeQuery
  cases decision.route with
  | rag => exact routeRag_result hl
  | database => exact routeDatabase_result hl
  | hybrid => exact routeHybrid_result hl

end Programs

section Outcomes

variable {router : Router}

/-- What `query` returns fits, and a prompt comes before any lookup. -/
def Fitting (settings : AskSettings) (h : AskHistory) (o : AskOutcome) : Prop :=
  Fits settings h o ∧ ∀ prompt, o = .clarification prompt → found h = ([], [])

/-- The abstention the policy asks for fits. -/
theorem fits_abstention {settings : AskSettings} {h : AskHistory} {response : UnifiedQueryResponse} {traceId : String}
    {abstention : AbstentionResponse} (hr : ResultOf h response)
    (hpolicy : evaluateAbstentionForResponse settings response traceId = some abstention) :
    Fits settings h (.abstention abstention) := by
  have hout : IsAbstention (.abstention abstention) ↔
      (evaluateAbstentionForResponse settings response traceId).isSome = true := by
    rw [hpolicy]
    exact ⟨fun _ => rfl, fun _ => trivial⟩
  exact fits_of_result hr hout

/-- So does the answer it lets pass. -/
theorem fits_answer {settings : AskSettings} {h : AskHistory} {response : UnifiedQueryResponse} {traceId : String}
    (hr : ResultOf h response) (hpolicy : evaluateAbstentionForResponse settings response traceId = none)
    (given : UnifiedQueryResponse) : Fits settings h (.answer given) := by
  have hout : IsAbstention (.answer given) ↔
      (evaluateAbstentionForResponse settings response traceId).isSome = true := by
    rw [hpolicy]
    exact ⟨fun h => False.elim h, fun h => absurd h Bool.false_ne_true⟩
  exact fits_of_result hr hout

/-- `query` returns outcomes that fit. -/
theorem query_fitting (request : UnifiedQueryRequest) (allowed : Bool) {h : AskHistory} (hl : found h = ([], [])) :
    Ensures Anything (FittingEvents router.settings) (Returns (Fitting router.settings))
      (query router request allowed) h := by
  have htrace := uses_currentTraceId.mono quiet_of_around
  have hprepare := (uses_prepareConversation router request).mono quiet_of_around
  refine Ensures.quietThen htrace hl fun h traceId hl => Ensures.quietThen hprepare hl fun h prepared hl => ?_
  obtain ⟨effective, prepared⟩ := prepared
  refine Ensures.quietThen (uses_call trivial) hl fun h decision hl => ?_
  have hgate := (uses_clarificationGate router allowed effective decision prepared traceId).mono quiet_of_around
  refine Ensures.quietThen hgate hl fun h prompt hl => ?_
  cases prompt with
  | some prompt => exact .returns ⟨fits_of_none (congrArg Prod.fst hl) _, fun _ _ => hl⟩
  | none =>
    refine (routeQuery_result hl).andThen fun h response hr => ?_
    have hresult := hr response rfl
    cases hpolicy : evaluateAbstentionForResponse router.settings response traceId with
    | some abstention => exact .returns ⟨fits_abstention hresult hpolicy, fun _ => nofun⟩
    | none =>
      have hrecord := (uses_recordAnswered router prepared response).mono quiet_of_around
      refine Ensures.quietThen hrecord rfl fun h' _ hl => ?_
      exact .returns ⟨fits_answer (hresult.of_found hl) hpolicy _, fun _ => nofun⟩

/-- A status is quiet. -/
theorem quiet_status (stage : String) : (emit (.status stage)).Uses Quiet := uses_call trivial

/-- A terminal event that fits. -/
theorem emit_fits {settings : AskSettings} {o : AskOutcome} {traceId : String} {conversationId : Option String}
    {h : AskHistory} (ho : Fits settings h o) : Ensures Anything (FittingEvents settings) (Returns fun _ _ => True)
      (emit (.terminal o traceId conversationId)) h := by
  refine Ensures.perform (a := AskCall.emit (.terminal o traceId conversationId)) fun r _ =>
    ⟨fun o' t c hemit => ?_, fun _ _ => trivial⟩
  cases hemit
  exact ho

/-- `query_stream` gives outcomes that fit. -/
theorem queryStream_fitting (request : UnifiedQueryRequest) {h : AskHistory} (hl : found h = ([], [])) :
    Ensures Anything (FittingEvents router.settings) (Returns fun _ _ => True) (queryStream router request) h := by
  refine Ensures.generator ?_
  have hfirst := uses_currentTraceId.mono quiet_of_around
  have hprepare := (uses_prepareConversation router request).mono quiet_of_around
  refine Ensures.quietThen hfirst hl fun h traceId hl => Ensures.quietThen hprepare hl fun h prepared hl => ?_
  obtain ⟨effective, prepared⟩ := prepared
  refine Ensures.quietThen (quiet_status _) hl fun h _ hl => ?_
  refine Ensures.quietThen (uses_call trivial) hl fun h decision hl => ?_
  have hgate := (uses_clarificationGate router true effective decision prepared traceId).mono quiet_of_around
  refine Ensures.quietThen hgate hl fun h prompt hl => ?_
  cases prompt with
  | some prompt => exact emit_fits (fits_of_none (congrArg Prod.fst hl) _)
  | none =>
    refine Ensures.quietThen (quiet_status _) hl fun h _ hl => Ensures.quietThen (quiet_status _) hl fun h _ hl => ?_
    refine (routeQuery_result hl).andThen fun h response hr => ?_
    have hresult := hr response rfl
    refine Ensures.quietThen (quiet_status _) rfl fun h' _ hl => ?_
    have hresult := hresult.of_found hl
    cases hpolicy : evaluateAbstentionForResponse router.settings response traceId with
    | some abstention => exact emit_fits (fits_abstention hresult hpolicy)
    | none =>
      have hrecord := (uses_recordAnswered router prepared response).mono quiet_of_around
      refine Ensures.quietThen hrecord rfl fun h'' _ hl => Ensures.dumped ?_
      exact emit_fits (fits_answer (hresult.of_found hl) hpolicy _)

/-- `POST /ask`. -/
theorem ask_fits (user : UserPublic) (request : UnifiedQueryRequest) :
    Ensures Anything (FittingEvents router.settings) (Returns (Fits router.settings)) (ask router user request) [] := by
  have hscope := (uses_scopedDocumentIds router.settings request.documentIds user).mono quiet_of_around
  refine Ensures.quietThen hscope rfl fun h documentIds hl => ?_
  refine Ensures.catchError (Q := Returns (Fits router.settings)) ?_ (fun _ _ hq => hq) fun h e _ => ?_
  · refine (query_fitting _ true hl).andThen fun h o ho => ?_
    have hfits := (ho o rfl).1
    cases o with
    | answer response => exact .returns hfits
    | clarification prompt => exact .returns hfits
    | abstention response => exact .returns hfits
  · cases e with
    | _ => exact .raises

/-- `POST /ask/stream`. -/
theorem askStream_fits (user : UserPublic) (request : UnifiedQueryRequest) :
    Ensures Anything (FittingEvents router.settings) (Returns fun _ _ => True) (askStream router user request) [] := by
  have hscope := (uses_scopedDocumentIds router.settings request.documentIds user).mono quiet_of_around
  refine Ensures.quietThen hscope rfl fun h documentIds hl => ?_
  refine Ensures.catchError (queryStream_fitting _ hl) (fun _ _ hq => hq) fun h e _ => ?_
  have herror : ∀ detail, Ensures Anything (FittingEvents router.settings) (Returns fun _ _ => True)
      (emit (.error detail)) h := by
    intro detail
    have hquiet : (emit (.error detail)).Uses Quiet := uses_call trivial
    exact (quiet_keeps hquiet rfl).ending fun _ _ _ _ _ => trivial
  cases e with
  | sqlValidation message => exact herror message
  | fileNotFound message => exact herror message
  | runtime message => exact herror message
  | generatorExit => exact .returns trivial
  | _ => exact herror _

/-- A processed reply, over an answer path whose outcomes fit. -/
theorem process_fits {settings : AskSettings} {answerPath : String → Option (List DocumentId) → Ask AskOutcome}
    (hpath : ∀ question scope h, found h = ([], []) →
      Ensures Anything (FittingEvents settings) (Returns (Fitting settings)) (answerPath question scope) h)
    (clarificationId reply : String) : Ensures Anything (FittingEvents settings) (Returns (Fits settings))
      (process settings answerPath clarificationId reply) [] := by
  have hload := (uses_loadClarification settings clarificationId).mono quiet_of_around
  refine Ensures.quietThen hload rfl fun h record hl => ?_
  split
  · exact .raises
  · refine (hpath _ _ h hl).andThen fun h o ho => ?_
    have hfitting := ho o rfl
    cases o with
    | answer response => exact .returns hfitting.1
    | abstention response => exact .returns hfitting.1
    | clarification prompt =>
      have hnone := hfitting.2 prompt rfl
      have hquiet := (uses_unresolvedAbstention prompt.conversationTurnId).mono quiet_of_around
      exact (quiet_keeps hquiet hnone).ending fun h r hl o _ => fits_of_none (congrArg Prod.fst hl) o

/-- `POST /ask/clarify`. -/
theorem askClarify_fits (request : ClarificationReplyRequest) :
    Ensures Anything (FittingEvents router.settings) (Returns (Fits router.settings)) (askClarify router request) [] := by
  have hpath : ∀ question scope h, found h = ([], []) → Ensures Anything (FittingEvents router.settings)
      (Returns (Fitting router.settings)) (answerPath router question scope) h := by
    intro question scope h hl
    exact Ensures.quietThen (quiet_validated _ _ _) hl fun h req hl => query_fitting req false hl
  have hprocess := process_fits hpath request.clarificationId request.reply
  refine Ensures.catchError hprocess (fun _ _ hq => hq) fun h e _ => ?_
  cases e with
  | _ => exact .raises

/-- Every endpoint. -/
theorem serve_fits (user : UserPublic) (request : AskRequest) :
    Ensures Anything (FittingEvents router.settings) (Returns fun h reply => ∀ o, reply = .body o →
      Fits router.settings h o) (serve router user request) [] := by
  cases request with
  | ask request =>
    refine (ask_fits user request).andThen fun h o ho => .returns fun o' ho' => ?_
    cases ho'
    exact ho o rfl
  | askStream request => exact (askStream_fits user request).andThen fun h _ _ => .returns fun _ => nofun
  | askClarify request =>
    refine (askClarify_fits request).andThen fun h o ho => .returns fun o' ho' => ?_
    cases ho'
    exact ho o rfl

end Outcomes

section Coverage

variable {router : Router} {user : UserPublic} {request : AskRequest} {h : AskHistory} {p : Ask AskReply} {o : AskOutcome}

/-- An outcome reaches the user past a refused branch exactly when that branch
was merged with an answer from the database and the combined confidence was
high enough. -/
theorem refused_branch_abstains (hpath : Path (serve router user request) h p) (hgives : Gives p o) :
    Covered h o ↔ MergedLow router.settings h := by
  have hfits : Ensures Anything (FittingEvents router.settings) (Returns fun h reply => ∀ o, reply = .body o →
      Fits router.settings h o) (serve router user request) [] := serve_fits user request
  have hcontract := hfits.along hpath fun _ _ _ _ => trivial
  rw [List.nil_append] at hcontract
  rcases hgives with rfl | ⟨traceId, conversationId, next, rfl⟩
  · exact hcontract.1.of_done _ rfl o rfl
  · have hemit := (hcontract.1.of_act (r := .ok ()) trivial).1
    exact hemit o traceId conversationId rfl

/-- A router with a copilot and no stored state. -/
def sampleRouter : Router := ⟨sampleSettings, true, ["refunds"], false, false⟩

/-- An answer from the documents with one claim nothing supports. -/
def sampleRagResponse : QueryResponse where
  answer := "Refunds take 14 days."
  citations := []
  evidenceStatus := "grounded"
  traceId := "t"
  confidenceScore := some (17 / 20)
  claims := [⟨"c", "Refunds take 14 days.".toList.map Char.toNat, ⟨0, 21, by decide⟩, [], .unsupported⟩]

/-- An answer from the database. -/
def sampleCopilotResponse : CopilotQueryResponse where
  answer := "There were 42 refunds."
  mode := "database"
  evidenceStatus := "grounded"
  traceId := "t"
  confidenceScore := some (9 / 10)
  rows := [.json "42"]

/-- Components that answer a question on one route. -/
def sampleBehaviour (route : QueryRoute) : Behaviour AskError AskAnswer
  | .getTraceId => .ok (some "t")
  | .uuid4 => .ok "u"
  | .tokenUrlsafe => .ok "k"
  | .utcnow => .ok 0
  | .listDocuments => .ok []
  | .getConversation _ => .ok .absent
  | .putConversation _ => .ok ()
  | .getClarification _ => .ok .absent
  | .createClarification _ => .ok ()
  | .rewrite _ _ => .ok ""
  | .classify _ _ => .ok { route, reasoning := "" }
  | .embedQuery _ => .ok []
  | .encodeQuery _ => .ok []
  | .indexQuery _ _ _ _ => .ok []
  | .filterToActiveVersions _ => .ok []
  | .generateAnswer _ _ _ => .ok sampleRagResponse
  | .copilotQuery _ => .ok sampleCopilotResponse
  | .synthesizeHybrid _ _ _ => .ok ""
  | .submitTrace _ => .ok ()
  | .emit _ => .ok ()

/-- What the user asks. -/
def sampleRequest : AskRequest := .ask { question := "How do refunds compare?" }

/-- The answer of a run, if it is one. -/
def answerOf : Except AskError AskReply → Option String
  | .ok (.body (.answer response)) => some response.answer
  | _ => none

/-- What answers is an answer. -/
theorem of_answerOf {r : Except AskError AskReply} {text : String} (h : answerOf r = some text) :
    ∃ response, r = .ok (.body (.answer response)) := by
  unfold answerOf at h
  split at h
  · next response => exact ⟨response, rfl⟩
  · contradiction

/-- The run of the sample request on one route. -/
def sampleRun (route : QueryRoute) : AskHistory × Except AskError AskReply :=
  Program.against (sampleBehaviour route) (serve sampleRouter sampleUser sampleRequest)

/-- On the hybrid route the refused text is answered under its heading. -/
theorem hybrid_sample_answered : answerOf (sampleRun .hybrid).2 =
    some "## From documents\n\nRefunds take 14 days.\n\n## From data\n\nThere were 42 refunds." := by
  decide +kernel

/-- The sample run on the hybrid route ends with an answer. -/
theorem hybrid_sample_path : ∃ response, Path (serve sampleRouter sampleUser sampleRequest) (sampleRun .hybrid).1
    (.done (.body (.answer response))) := by
  obtain ⟨response, hresult⟩ := of_answerOf hybrid_sample_answered
  have hpath := path_against (sampleBehaviour .hybrid) (serve sampleRouter sampleUser sampleRequest)
  rw [show (Program.against (sampleBehaviour .hybrid) (serve sampleRouter sampleUser sampleRequest)).2 = _ from
    hresult] at hpath
  exact ⟨response, hpath⟩

theorem refused_branch_abstains_sample : ∃ response, Covered (sampleRun .hybrid).1 (.answer response) ↔
    MergedLow sampleSettings (sampleRun .hybrid).1 := by
  obtain ⟨response, hpath⟩ := hybrid_sample_path
  exact ⟨response, refused_branch_abstains hpath (.inl rfl)⟩

/-- An answer with a claim nothing supports reaches the user on the hybrid route. -/
theorem refused_branch_answered : ∃ h p o, Path (serve sampleRouter sampleUser sampleRequest) h p ∧ Gives p o ∧
    ¬ Covered h o := by
  obtain ⟨response, hpath⟩ := hybrid_sample_path
  have hcontributes : Contributes (sampleRun .hybrid).1 sampleRagResponse := by
    constructor
    · decide +kernel
    · decide +kernel
  have hrefused : refusesClaims sampleRagResponse.claims = true := by decide +kernel
  refine ⟨_, _, _, hpath, .inl rfl, fun hcovered => ?_⟩
  exact hcovered sampleRagResponse hcontributes hrefused

end Coverage

end RagSystem.AbstentionCoverage
