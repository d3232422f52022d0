import RagSystem.AbstentionCoverage
import RagSystem.QueryTraces

/-!
# Traces and outcomes

What is stored about a question, beside what the user got. The trace is
written where the question is answered, before the branches are merged and
the abstention policy is asked. A request has a trace id of its own; the
generator and the copilot answer under the one they are called with, and what
is handed to the background writer is written.
-/

namespace RagSystem.TraceOutcomes

open AtomicProgram ProgramPaths ProgramContracts DocumentModels EvidenceModels QueryModels FeedbackReview Abstention
  HybridAnswers AskCalls Conversations AgenticRouter RouterCalls AbstentionCoverage QueryTraces

set_option autoImplicit false

section Statement

/-- The components of a request with this trace id: it stays what it is, the
lookups answer under it, and traces are written. -/
def Answered (traceId : String) (e : AskEvent) : Prop :=
  match e with
  | ⟨.getTraceId, r⟩ => r = .ok (some traceId)
  | ⟨.generateAnswer _ _ given, r⟩ => ∀ response, r = .ok response → response.traceId = given
  | ⟨.copilotQuery _, r⟩ => ∀ response, r = .ok response → response.traceId = traceId
  | ⟨.submitTrace _, r⟩ => r = .ok ()
  | _ => True

/-- A trace says what the user got. -/
def Tells (trace : QueryTraceRecord) : AskOutcome → Prop
  | .answer response => trace.route = response.route ∧ trace.answer = response.answer ∧ trace.claims = response.claims ∧
      trace.abstentionReasonCode = none
  | .abstention response => trace.abstentionReasonCode = some response.reasonCode
  | .clarification _ => False

/-- The stored trace says what the user got, and the question counts as
unanswered exactly if that was an abstention. -/
structure Reflected (traces : Traces) (feedbackItems : List FeedbackReviewRecord) (confidenceThreshold : ℚ)
    (traceId : String) (o : AskOutcome) : Prop where
  /-- The trace. -/
  told : ∃ trace, getQueryTrace traces traceId = some trace ∧ Tells trace o
  /-- The gap analysis. -/
  counts : countsUnanswered (selectEligibleOutcomes traces feedbackItems confidenceThreshold) traceId ↔ IsAbstention o

/-- One branch answered, the policy does not refuse it, and it has no claims. -/
def Plain (settings : AskSettings) (h : AskHistory) : Prop :=
  (∃ r, found h = ([r], []) ∧ r.claims = [] ∧ ¬ RefusesDocuments settings r) ∨
    ∃ c, found h = ([], [c]) ∧ ¬ (isLowConfidence c.confidenceScore settings.routeMinConfidence = true ∨ c.rows = [])

/-- An outcome that is no prompt is reflected, whatever was stored before,
exactly when the answer is plain. -/
def Accounted (settings : AskSettings) (traceId : String) (h : AskHistory) (o : AskOutcome) : Prop :=
  (∀ prompt, o ≠ .clarification prompt) → ∀ traces feedbackItems confidenceThreshold,
    Reflected (drained traces h) feedbackItems confidenceThreshold traceId o ↔ Plain settings h

end Statement

section Notes

/-- What was found so far, and the traces that were written. -/
def noted (h : AskHistory) : (List QueryResponse × List CopilotQueryResponse) × List QueryTraceRecord := (found h, written h)

/-- The calls that neither look up nor write a trace nor give an outcome. -/
def Idle (x : AskCall) : Prop := Quiet x ∧ ∀ trace, x ≠ .submitTrace trace

theorem idle_of_aside (x : AskCall) (h : Aside x) : Idle x := ⟨quiet_of_around x h.1, h.2⟩

theorem idle_of_searching (x : AskCall) (h : Searching x) : Idle x := by
  refine ⟨quiet_of_searching x h, fun trace hx => ?_⟩
  rw [hx] at h
  exact h

/-- They leave the notes as they are. -/
theorem noted_append_of_idle {h : AskHistory} {e : AskEvent} (he : Idle e.action) : noted (h ++ [e]) = noted h := by
  have hwritten : written [e] = [] := by
    obtain ⟨action, answer⟩ := e
    cases action with
    | submitTrace trace => exact absurd rfl (he.2 trace)
    | _ => rfl
  have happend : written (h ++ [e]) = written h ++ written [e] := by simp only [written, List.filterMap_append]
  rw [noted, found_append_of_quiet he.1, happend, hwritten, List.append_nil]
  rfl

/-- What a response was made of, and the trace that was written then. -/
inductive MadeOf (h : AskHistory) (response : UnifiedQueryResponse) (trace : QueryTraceRecord) : Prop
  /-- The documents: all but the claims is in the trace. -/
  | rag (r : QueryResponse) (hfound : found h = ([r], [])) (hroute : response.route = "rag") (hanswer : response.answer = r.answer)
      (hclaims : response.claims = r.claims) (hscores : response.retrievalScores = r.retrievalScores)
      (hconfidence : response.confidenceScore = r.confidenceScore)
      (htrace : trace.route = "rag" ∧ trace.answer = r.answer ∧ trace.claims = [])
  /-- The database: the trace is that of the response. -/
  | database (c : CopilotQueryResponse) (hfound : found h = ([], [c])) (hroute : response.route = "database")
      (hclaims : response.claims = []) (hconfidence : response.confidenceScore = c.confidenceScore)
      (hrows : response.rows = c.rows)
      (htrace : trace.route = response.route ∧ trace.answer = response.answer ∧ trace.claims = response.claims)
  /-- Both: the trace is that of the documents. -/
  | hybrid (r : QueryResponse) (c : CopilotQueryResponse) (hfound : found h = ([r], [c]))
      (hroute : response.route = "hybrid") (htrace : trace.route = "rag")

/-- A response with its trace, the only one written. -/
structure Traced (traceId : String) (h : AskHistory) (response : UnifiedQueryResponse) (trace : QueryTraceRecord) : Prop where
  /-- It was written. -/
  written : written h = [trace]
  /-- It is stored under the request's id. -/
  stored : trace.traceId = traceId
  /-- It knows of no abstention. -/
  unaware : trace.abstentionReasonCode = none
  /-- What it says. -/
  made : MadeOf h response trace

/-- It is told from the notes alone. -/
theorem Traced.of_noted {traceId : String} {h h' : AskHistory} {response : UnifiedQueryResponse} {trace : QueryTraceRecord}
    (ht : Traced traceId h response trace) (heq : noted h' = noted h) : Traced traceId h' response trace := by
  have hfound : found h' = found h := congrArg Prod.fst heq
  have hwritten : QueryTraces.written h' = QueryTraces.written h := congrArg Prod.snd heq
  refine ⟨hwritten.trans ht.written, ht.stored, ht.unaware, ?_⟩
  cases ht.made with
  | rag r hf hroute hanswer hclaims hscores hconfidence htrace =>
    exact .rag r (hfound.trans hf) hroute hanswer hclaims hscores hconfidence htrace
  | database c hf hroute hclaims hconfidence hrows htrace =>
    exact .database c (hfound.trans hf) hroute hclaims hconfidence hrows htrace
  | hybrid r c hf hroute htrace => exact .hybrid r c (hfound.trans hf) hroute htrace

end Notes

section Policy

variable {settings : AskSettings} {traceId : String} {h : AskHistory} {response : UnifiedQueryResponse}
  {trace : QueryTraceRecord}

/-- After one write the question counts as unanswered if that trace has an
abstention code. -/
theorem counts_of_written (ht : Traced traceId h response trace) (traces : Traces)
    (feedbackItems : List FeedbackReviewRecord) (confidenceThreshold : ℚ) :
    getQueryTrace (drained traces h) traceId = some trace ∧
      ¬ countsUnanswered (selectEligibleOutcomes (drained traces h) feedbackItems confidenceThreshold) traceId := by
  have hdrained : drained traces h = writeQueryTrace traces trace := by rw [drained, ht.written]; rfl
  rw [hdrained, countsUnanswered_iff, ← ht.stored]
  refine ⟨getQueryTrace_writeQueryTrace traces trace, ?_⟩
  rintro ⟨other, hother, hid, hcode⟩
  rw [eq_of_mem_writeQueryTrace hother hid, ht.unaware] at hcode
  exact Bool.false_ne_true hcode

/-- Of the documents alone. -/
theorem plain_of_documents {r : QueryResponse} (hfound : found h = ([r], [])) :
    Plain settings h ↔ r.claims = [] ∧ ¬ RefusesDocuments settings r := by
  simp [Plain, hfound]

/-- Of the database alone. -/
theorem plain_of_database {c : CopilotQueryResponse} (hfound : found h = ([], [c])) : Plain settings h ↔
    ¬ (isLowConfidence c.confidenceScore settings.routeMinConfidence = true ∨ c.rows = []) := by
  simp [Plain, hfound]

/-- Of both. -/
theorem not_plain_of_both {r : QueryResponse} {c : CopilotQueryResponse} (hfound : found h = ([r], [c])) :
    ¬ Plain settings h := by
  simp [Plain, hfound]

/-- An abstention is not reflected, and the answer was not plain. -/
theorem accounted_abstention (ht : Traced traceId h response trace) {asked : String} {abstention : AbstentionResponse}
    (hpolicy : evaluateAbstentionForResponse settings response asked = some abstention) :
    Accounted settings traceId h (.abstention abstention) := by
  intro _ traces feedbackItems confidenceThreshold
  have hcounts := counts_of_written ht traces feedbackItems confidenceThreshold
  have hrefused : (evaluateAbstentionForResponse settings response asked).isSome = true := by rw [hpolicy]; rfl
  have hnot : ¬ Plain settings h := by
    cases ht.made with
    | rag r hfound hroute hanswer hclaims hscores hconfidence htrace =>
      rw [isSome_of_rag asked hroute hscores hconfidence hclaims] at hrefused
      rw [plain_of_documents hfound]
      exact fun hplain => hplain.2 hrefused
    | database c hfound hroute hclaims hconfidence hrows htrace =>
      rw [isSome_of_database asked hroute hclaims, hconfidence, hrows] at hrefused
      rw [plain_of_database hfound]
      exact fun haccepted => haccepted hrefused
    | hybrid r c hfound hroute htrace => exact not_plain_of_both hfound
  exact ⟨fun hreflected => absurd (hreflected.counts.mpr trivial) hcounts.2, fun hplain => absurd hplain hnot⟩

/-- An answer is reflected exactly when it was plain. -/
theorem accounted_answer (ht : Traced traceId h response trace) {asked : String} {given : UnifiedQueryResponse}
    (hpolicy : evaluateAbstentionForResponse settings response asked = none)
    (hgiven : given.route = response.route ∧ given.answer = response.answer ∧ given.claims = response.claims) :
    Accounted settings traceId h (.answer given) := by
  intro _ traces feedbackItems confidenceThreshold
  obtain ⟨hstored, hcounts⟩ := counts_of_written ht traces feedbackItems confidenceThreshold
  have haccepted : ¬ (evaluateAbstentionForResponse settings response asked).isSome = true := by rw [hpolicy]; nofun
  have hreflected : Reflected (drained traces h) feedbackItems confidenceThreshold traceId (.answer given) ↔
      trace.route = response.route ∧ trace.answer = response.answer ∧ trace.claims = response.claims := by
    constructor
    · intro hr
      obtain ⟨stored, hsame, htells⟩ := hr.told
      rw [hstored, Option.some.injEq] at hsame
      rw [← hsame] at htells
      have hparts : trace.route = given.route ∧ trace.answer = given.answer ∧ trace.claims = given.claims ∧
        trace.abstentionReasonCode = none := htells
      rw [hgiven.1, hgiven.2.1, hgiven.2.2] at hparts
      exact ⟨hparts.1, hparts.2.1, hparts.2.2.1⟩
    · rintro ⟨hroute, hanswer, hclaims⟩
      refine ⟨⟨trace, hstored, ?_⟩, ⟨fun hcounted => absurd hcounted hcounts, fun habstained => habstained.elim⟩⟩
      exact ⟨hroute.trans hgiven.1.symm, hanswer.trans hgiven.2.1.symm, hclaims.trans hgiven.2.2.symm, ht.unaware⟩
  rw [hreflected]
  cases ht.made with
  | rag r hfound hroute hanswer hclaims hscores hconfidence htrace =>
    rw [isSome_of_rag asked hroute hscores hconfidence hclaims] at haccepted
    rw [plain_of_documents hfound, htrace.1, htrace.2.1, htrace.2.2, hroute, hanswer, hclaims]
    exact ⟨fun h => ⟨h.2.2.symm, haccepted⟩, fun hplain => ⟨rfl, rfl, hplain.1.symm⟩⟩
  | database c hfound hroute hclaims hconfidence hrows htrace =>
    rw [isSome_of_database asked hroute hclaims, hconfidence, hrows] at haccepted
    rw [plain_of_database hfound]
    exact ⟨fun _ => haccepted, fun _ => htrace⟩
  | hybrid r c hfound hroute htrace =>
    rw [htrace, hroute]
    exact ⟨fun h => absurd h.1 (by decide), fun hplain => absurd hplain (not_plain_of_both hfound)⟩

end Policy

section Programs

variable {α β : Type} {settings : AskSettings} {traceId : String} {h : AskHistory}
  {l : (List QueryResponse × List CopilotQueryResponse) × List QueryTraceRecord}

/-- The components answer as the request has them. -/
abbrev Trust (traceId : String) (_ : AskHistory) (e : AskEvent) : Prop := Answered traceId e

/-- A stream gives only outcomes that are accounted for. -/
def AccountedEvents (settings : AskSettings) (traceId : String) (h : AskHistory) (e : AskEvent) : Prop :=
  ∀ o eventTraceId conversationId, e.action = .emit (.terminal o eventTraceId conversationId) →
    Accounted settings traceId h o

/-- Idle calls leave the notes as they are. -/
theorem idle_keeps {p : Ask α} (hp : p.Uses Idle) (hl : noted h = l) :
    Ensures (Trust traceId) (AccountedEvents settings traceId) (fun h _ => noted h = l) p h := by
  refine Ensures.of_uses hp (fun h e hidle hl _ => ?_) hl
  refine ⟨fun o t c hemit => ?_, (noted_append_of_idle hidle).trans hl⟩
  have hquiet := hidle.1
  rw [hemit] at hquiet
  exact False.elim hquiet

theorem idleThen {P : AskHistory → β → Prop} {p : Ask α} {f : α → Ask β} (hp : p.Uses Idle) (hl : noted h = l)
    (hf : ∀ h a, noted h = l → Ensures (Trust traceId) (AccountedEvents settings traceId) (Returns P) (f a) h) :
    Ensures (Trust traceId) (AccountedEvents settings traceId) (Returns P) (p.bind f) h :=
  (idle_keeps hp hl).andThen hf

/-- A request's trace id is its own. -/
theorem currentTraceId_is (hid : traceId ≠ "") (hl : noted h = l) :
    Ensures (Trust traceId) (AccountedEvents settings traceId) (Returns fun h t => noted h = l ∧ t = traceId)
      currentTraceId h := by
  have hask : Ensures (Trust traceId) (AccountedEvents settings traceId)
      (Returns fun h (t : Option String) => noted h = l ∧ t = some traceId) (call .getTraceId) h := by
    refine Ensures.perform (a := AskCall.getTraceId) fun r ht => ⟨fun o t c => AskCall.noConfusion, fun t hr => ?_⟩
    have hidle : Idle AskCall.getTraceId := ⟨trivial, fun _ => AskCall.noConfusion⟩
    refine ⟨(noted_append_of_idle hidle).trans hl, ?_⟩
    have hgiven : r = .ok (some traceId) := ht
    rw [hgiven] at hr
    exact (Except.ok.inj hr).symm
  refine hask.andThen fun h t ht => ?_
  have hsame := ht t rfl
  rw [hsame.2]
  have hkept : (some traceId).filter (fun t : String => decide (t ≠ "")) = some traceId := by simp [hid]
  rw [hkept]
  exact .returns ⟨hsame.1, rfl⟩

/-- A trace is written. -/
theorem submit_adds {trace : QueryTraceRecord} {looked : List QueryResponse × List CopilotQueryResponse}
    (hl : noted h = (looked, [])) : Ensures (Trust traceId) (AccountedEvents settings traceId)
      (Returns fun h (_ : Unit) => noted h = (looked, [trace])) (submitTracePersist trace) h := by
  have hwritten : Ensures (Trust traceId) (AccountedEvents settings traceId)
      (fun h (r : Except AskError Unit) => noted h = (looked, [trace]) ∧ r = .ok ()) (call (.submitTrace trace)) h := by
    refine Ensures.perform (a := AskCall.submitTrace trace) fun r ht => ⟨fun o t c => AskCall.noConfusion, ?_⟩
    have hok : r = .ok () := ht
    subst hok
    have hparts : found h = looked ∧ written h = [] := Prod.mk.inj hl
    have hquiet : Quiet (AskCall.submitTrace trace) := trivial
    have hfound : found (h ++ [⟨.submitTrace trace, .ok ()⟩]) = looked := (found_append_of_quiet hquiet).trans hparts.1
    have hadded : written (h ++ [⟨.submitTrace trace, .ok ()⟩]) = written h ++ [trace] := by
      simp only [written, List.filterMap_append]
      rfl
    exact ⟨by rw [noted, hfound, hadded, hparts.2, List.nil_append], rfl⟩
  refine Ensures.catchError hwritten (fun h u hq => fun _ _ => hq.1) fun h e hq => ?_
  exact nomatch hq.2

/-- The documents answer under the id they are given. -/
theorem generate_adds {question : String} {hits : List RetrievalHit} {given : String} :
    Ensures (Trust traceId) (AccountedEvents settings traceId)
      (Returns fun h' r => noted h' = ((answers h ++ [r], queries h), written h) ∧ r.traceId = given)
      (call (.generateAnswer question hits given)) h := by
  refine Ensures.perform (a := AskCall.generateAnswer question hits given) fun r ht => ⟨fun o t c => AskCall.noConfusion, fun a ha => ?_⟩
  have hid : ∀ response, r = .ok response → response.traceId = given := ht
  refine ⟨?_, hid a ha⟩
  subst ha
  simp [noted, found, answers, queries, written]

/-- The database answers under the request's id. -/
theorem copilot_adds {request : CopilotQueryRequest} :
    Ensures (Trust traceId) (AccountedEvents settings traceId)
      (Returns fun h' c => noted h' = ((answers h, queries h ++ [c]), written h) ∧ c.traceId = traceId)
      (call (.copilotQuery request)) h := by
  refine Ensures.perform (a := AskCall.copilotQuery request) fun r ht => ⟨fun o t c => AskCall.noConfusion, fun a ha => ?_⟩
  have hid : ∀ response, r = .ok response → response.traceId = traceId := ht
  refine ⟨?_, hid a ha⟩
  subst ha
  simp [noted, found, answers, queries, written]

/-- Nothing was noted. -/
theorem noted_nil (hl : noted h = (([], []), [])) : answers h = [] ∧ queries h = [] ∧ written h = [] := by
  have houter := Prod.mk.inj hl
  have hinner := Prod.mk.inj houter.1
  exact ⟨hinner.1, hinner.2, houter.2⟩

/-- A constructor's validation is idle. -/
theorem idle_validated (model : String) (errors : List (String × String)) (value : α) :
    (validated model errors value).Uses Idle := uses_validated model errors value

/-- `query` of the documents finds what it returns, and writes its trace. -/
theorem ragQuery_writes {ragSettings : AskSettings} {request : QueryRequest} (hid : traceId ≠ "")
    (hl : noted h = (([], []), [])) : Ensures (Trust traceId) (AccountedEvents settings traceId)
      (Returns fun h r => r.traceId = traceId ∧ ∃ hits, noted h = (([r], []), [queryTrace request r hits]))
      (ragQuery ragSettings request) h := by
  refine (currentTraceId_is hid hl).andThen fun h t ht => ?_
  obtain ⟨hl, rfl⟩ := ht t rfl
  have hretrieve := (uses_retrieve ragSettings request).mono idle_of_searching
  refine idleThen hretrieve hl fun h hits hl => ?_
  refine generate_adds.andThen fun h' r hadd => ?_
  have hparts := noted_nil hl
  have hnoted : noted h' = (([r], []), []) := by
    rw [(hadd r rfl).1, hparts.1, hparts.2.1, hparts.2.2, List.nil_append]
  refine (submit_adds hnoted).andThen fun h _ hwritten => ?_
  exact .returns ⟨(hadd r rfl).2, hits, hwritten () rfl⟩

/-- The document route. -/
theorem routeRag_traced {router : Router} {request : UnifiedQueryRequest} {decision : RoutingDecision} (hid : traceId ≠ "")
    (hl : noted h = (([], []), [])) : Ensures (Trust traceId) (AccountedEvents settings traceId)
      (Returns fun h response => ∃ trace, Traced traceId h response trace) (routeRag router request decision) h := by
  refine idleThen (idle_validated _ _ _) hl fun h ragRequest hl => ?_
  refine (ragQuery_writes hid hl).andThen fun h r hr => ?_
  obtain ⟨hown, hits, hnoted⟩ := hr r rfl
  have hparts := Prod.mk.inj hnoted
  exact .returns ⟨queryTrace ragRequest r hits, hparts.2, hown, rfl, .rag r hparts.1 rfl rfl rfl rfl rfl ⟨rfl, rfl, rfl⟩⟩

/-- The database route. -/
theorem routeDatabase_traced {request : UnifiedQueryRequest} {decision : RoutingDecision}
    (hl : noted h = (([], []), [])) : Ensures (Trust traceId) (AccountedEvents settings traceId)
      (Returns fun h response => ∃ trace, Traced traceId h response trace) (routeDatabase request decision) h := by
  refine idleThen (idle_validated _ _ _) hl fun h copilotRequest hl => ?_
  refine copilot_adds.andThen fun h' c hadd => ?_
  have hparts := noted_nil hl
  have hnoted : noted h' = (([], [c]), []) := by
    rw [(hadd c rfl).1, hparts.1, hparts.2.1, hparts.2.2, List.nil_append]
  refine (submit_adds hnoted).andThen fun h _ hwritten => ?_
  have hboth := Prod.mk.inj (hwritten () rfl)
  exact .returns ⟨_, hboth.2, (hadd c rfl).2, rfl, .database c hboth.1 rfl rfl rfl rfl ⟨rfl, rfl, rfl⟩⟩

/-- The hybrid route. -/
theorem routeHybrid_traced {router : Router} {request : UnifiedQueryRequest} {decision : RoutingDecision}
    {asked : String} (hid : traceId ≠ "") (hl : noted h = (([], []), [])) :
    Ensures (Trust traceId) (AccountedEvents settings traceId)
      (Returns fun h response => ∃ trace, Traced traceId h response trace) (routeHybrid router request decision asked) h := by
  refine idleThen (idle_validated _ _ _) hl fun h ragRequest hl => ?_
  refine idleThen (idle_validated _ _ _) hl fun h copilotRequest hl => ?_
  refine (future_returns (ragQuery_writes hid hl)).andThen fun h ragFuture hrag => ?_
  refine (future_returns copilot_adds).andThen fun h' copilotFuture hadd => ?_
  cases ragFuture with
  | error e => exact .raises
  | ok r =>
    cases copilotFuture with
    | error e => exact .raises
    | ok c =>
      obtain ⟨hown, hits, hone⟩ := hrag _ rfl r rfl
      have hboth : noted h' = (([r], [c]), [queryTrace ragRequest r hits]) := by
        have houter := Prod.mk.inj hone
        have hinner : answers h = [r] ∧ queries h = [] := Prod.mk.inj houter.1
        rw [(hadd _ rfl c rfl).1, hinner.1, hinner.2, houter.2, List.nil_append]
      have hmerge := (aside_mergedAnswer router request.question r.answer c.answer).mono idle_of_aside
      show Ensures _ _ _ ((mergedAnswer router request.question r.answer c.answer).bind _) _
      refine idleThen hmerge hboth fun h'' answer hl => ?_
      have hparts := Prod.mk.inj hl
      exact .returns ⟨queryTrace ragRequest r hits, hparts.2, hown, rfl, .hybrid r c hparts.1 rfl rfl⟩

/-- Every route. -/
theorem routeQuery_traced {router : Router} {request : UnifiedQueryRequest} {decision : RoutingDecision}
    {asked : String} (hid : traceId ≠ "") (hl : noted h = (([], []), [])) :
    Ensures (Trust traceId) (AccountedEvents settings traceId)
      (Returns fun h response => ∃ trace, Traced traceId h response trace) (routeQuery router request decision asked) h := by
  unfold routeQuery
  cases decision.route with
  | rag => exact routeRag_traced hid hl
  | database => exact routeDatabase_traced hl
  | hybrid => exact routeHybrid_traced hid hl

/-- A prompt is no outcome to account for. -/
theorem accounted_clarification (prompt : ClarificationPrompt) : Accounted settings traceId h (.clarification prompt) :=
  fun hno => absurd rfl (hno prompt)

/-- `query` returns outcomes that are accounted for. -/
theorem query_accounted {router : Router} (request : UnifiedQueryRequest) (allowed : Bool) (hid : traceId ≠ "") :
    Ensures (Trust traceId) (AccountedEvents router.settings traceId) (Returns (Accounted router.settings traceId))
      (query router request allowed) [] := by
  refine idleThen (aside_currentTraceId.mono idle_of_aside) rfl fun h asked hl => ?_
  refine idleThen ((aside_prepareConversation router request).mono idle_of_aside) hl fun h prepared hl => ?_
  obtain ⟨effective, prepared⟩ := prepared
  refine idleThen (uses_call ⟨trivial, fun _ => AskCall.noConfusion⟩) hl fun h decision hl => ?_
  have hgate := (aside_clarificationGate router allowed effective decision prepared asked).mono idle_of_aside
  refine idleThen hgate hl fun h prompt hl => ?_
  cases prompt with
  | some prompt => exact .returns (accounted_clarification prompt)
  | none =>
    refine (routeQuery_traced hid hl).andThen fun h response hr => ?_
    obtain ⟨trace, ht⟩ := hr response rfl
    cases hpolicy : evaluateAbstentionForResponse router.settings response asked with
    | some abstention => exact .returns (accounted_abstention ht hpolicy)
    | none =>
      have hrecord := (aside_recordAnswered router prepared response).mono idle_of_aside
      refine idleThen hrecord rfl fun h' _ hl => ?_
      exact .returns (accounted_answer (ht.of_noted hl) hpolicy ⟨rfl, rfl, rfl⟩)

/-- A status is idle. -/
theorem idle_status (stage : String) : (emit (.status stage)).Uses Idle := uses_call ⟨trivial, fun _ => AskCall.noConfusion⟩

/-- A terminal event that is accounted for. -/
theorem emit_accounted {o : AskOutcome} {eventTraceId : String} {conversationId : Option String}
    (ho : Accounted settings traceId h o) : Ensures (Trust traceId) (AccountedEvents settings traceId)
      (Returns fun _ _ => True) (emit (.terminal o eventTraceId conversationId)) h := by
  refine Ensures.perform (a := AskCall.emit (.terminal o eventTraceId conversationId)) fun r _ =>
    ⟨fun o' t c hemit => ?_, fun _ _ => trivial⟩
  cases hemit
  exact ho

/-- `query_stream` gives outcomes that are accounted for. -/
theorem queryStream_accounted {router : Router} (request : UnifiedQueryRequest) (hid : traceId ≠ "") :
    Ensures (Trust traceId) (AccountedEvents router.settings traceId) (Returns fun _ _ => True)
      (queryStream router request) [] := by
  refine Ensures.generator ?_
  refine idleThen (aside_currentTraceId.mono idle_of_aside) rfl fun h asked hl => ?_
  refine idleThen ((aside_prepareConversation router request).mono idle_of_aside) hl fun h prepared hl => ?_
  obtain ⟨effective, prepared⟩ := prepared
  refine idleThen (idle_status _) hl fun h _ hl => ?_
  refine idleThen (uses_call ⟨trivial, fun _ => AskCall.noConfusion⟩) hl fun h decision hl => ?_
  have hgate := (aside_clarificationGate router true effective decision prepared asked).mono idle_of_aside
  refine idleThen hgate hl fun h prompt hl => ?_
  cases prompt with
  | some prompt => exact emit_accounted (accounted_clarification prompt)
  | none =>
    refine idleThen (idle_status _) hl fun h _ hl => idleThen (idle_status _) hl fun h _ hl => ?_
    refine (routeQuery_traced hid hl).andThen fun h response hr => ?_
    obtain ⟨trace, ht⟩ := hr response rfl
    refine idleThen (idle_status _) rfl fun h' _ hl => ?_
    have ht := ht.of_noted hl
    cases hpolicy : evaluateAbstentionForResponse router.settings response asked with
    | some abstention => exact emit_accounted (accounted_abstention ht hpolicy)
    | none =>
      have hrecord := (aside_recordAnswered router prepared response).mono idle_of_aside
      refine idleThen hrecord rfl fun h'' _ hl => Ensures.dumped ?_
      refine emit_accounted (accounted_answer (ht.of_noted hl) hpolicy ?_)
      unfold withheldSql
      split
      · exact ⟨rfl, rfl, rfl⟩
      · exact ⟨rfl, rfl, rfl⟩

end Programs

section Outcomes

/-- For every request, blocking or streamed, and whatever its components do:
an answer or an abstention is reflected by the trace stored under the
request's id exactly when one branch answered, without claims, and the policy
did not refuse it. -/
theorem trace_reflects_outcome (router : Router) (request : UnifiedQueryRequest) {traceId : String}
    (hid : traceId ≠ "") :
    (∀ allowed h o, Path (query router request allowed) h (.done o) → (∀ e ∈ h, Answered traceId e) →
      Accounted router.settings traceId h o) ∧
    ∀ h o eventTraceId conversationId next,
      Path (queryStream router request) h (.act (.emit (.terminal o eventTraceId conversationId)) next) →
      (∀ e ∈ h, Answered traceId e) → Accounted router.settings traceId h o := by
  have htrust : ∀ h : AskHistory, (∀ e ∈ h, Answered traceId e) →
      ∀ h' e es', h = h' ++ e :: es' → Trust traceId ([] ++ h') e := by
    intro h hanswered h' e es' hsplit
    refine hanswered e ?_
    rw [hsplit]
    exact List.mem_append_right _ List.mem_cons_self
  refine ⟨fun allowed h o hpath hanswered => ?_, fun h o eventTraceId conversationId next hpath hanswered => ?_⟩
  · have hcontract := (query_accounted request allowed hid).along hpath (htrust h hanswered)
    rw [List.nil_append] at hcontract
    exact hcontract.1.of_done o rfl
  · have hcontract := (queryStream_accounted request hid).along hpath (htrust h hanswered)
    rw [List.nil_append] at hcontract
    have hemit := (hcontract.1.of_act (r := .ok ()) trivial).1
    exact hemit o eventTraceId conversationId rfl

/-- Sample components that answer under the id they are given. -/
def sampleComponents (route : QueryRoute) : Behaviour AskError AskAnswer
  | .generateAnswer _ _ given => .ok { sampleRagResponse with traceId := given }
  | x => sampleBehaviour route x

/-- The run of a sample question on one route. -/
def sampleAsked (route : QueryRoute) : AskHistory × Except AskError AskOutcome :=
  Program.against (sampleComponents route) (query sampleRouter { question := "How many refunds?" } true)

/-- The sample components answer as a request has them. -/
theorem sampleAsked_answered (route : QueryRoute) : ∀ e ∈ (sampleAsked route).1, Answered "t" e := by
  intro e he
  have hanswer : e.answer = sampleComponents route e.action := answer_against (sampleComponents route) _ e he
  obtain ⟨action, answer⟩ := e
  simp only at hanswer
  subst hanswer
  cases action with
  | generateAnswer question hits given =>
    intro response hresponse
    cases hresponse
    rfl
  | copilotQuery request =>
    intro response hresponse
    cases hresponse
    rfl
  | _ => first | rfl | trivial

/-- The outcome of a run that returned one. -/
def outcome? : Except AskError AskOutcome → Option AskOutcome
  | .ok o => some o
  | .error _ => none

/-- A run that returns an outcome is a path to it. -/
theorem path_of_outcome {route : QueryRoute} {o : AskOutcome} (h : outcome? (sampleAsked route).2 = some o) :
    Path (query sampleRouter { question := "How many refunds?" } true) (sampleAsked route).1 (.done o) := by
  refine path_of_result ?_
  unfold outcome? at h
  split at h
  · next o' hok =>
    rw [← Option.some.inj h]
    exact hok
  · contradiction

/-- The kind of an outcome. -/
def kind : AskOutcome → String
  | .answer _ => "answer"
  | .clarification _ => "clarification"
  | .abstention _ => "abstention"

theorem trace_reflects_outcome_sample : ∃ o, Reflected (drained [] (sampleAsked .database).1) [] 0 "t" o := by
  have hanswered : (outcome? (sampleAsked .database).2).map kind = some "answer" := by decide +kernel
  obtain ⟨o, ho, hkind⟩ := Option.map_eq_some_iff.mp hanswered
  have hfound : found (sampleAsked .database).1 = ([], [sampleCopilotResponse]) := by decide +kernel
  have hplain : Plain sampleSettings (sampleAsked .database).1 := by
    rw [plain_of_database hfound]
    decide +kernel
  have hid : "t" ≠ "" := by decide
  have hreflects := (trace_reflects_outcome sampleRouter { question := "How many refunds?" } hid).1 true _ o
    (path_of_outcome ho) (sampleAsked_answered .database)
  refine ⟨o, (hreflects (fun prompt hprompt => ?_) [] [] 0).mpr hplain⟩
  rw [hprompt] at hkind
  exact absurd hkind (by simp [kind])

/-- A question that got an abstention has a trace that knows of none. -/
theorem abstention_not_reflected : ∃ h o, Path (query sampleRouter { question := "How many refunds?" } true) h (.done o) ∧
    (∀ e ∈ h, Answered "t" e) ∧ IsAbstention o ∧ ¬ Reflected (drained [] h) [] 0 "t" o := by
  have habstained : (outcome? (sampleAsked .rag).2).map kind = some "abstention" := by decide +kernel
  obtain ⟨o, ho, hkind⟩ := Option.map_eq_some_iff.mp habstained
  have hunaware : ∀ trace ∈ drained [] (sampleAsked .rag).1, trace.abstentionReasonCode = none := by decide +kernel
  cases o with
  | answer response => exact absurd hkind (by simp [kind])
  | clarification prompt => exact absurd hkind (by simp [kind])
  | abstention response =>
    refine ⟨_, _, path_of_outcome ho, sampleAsked_answered .rag, trivial, fun hreflected => ?_⟩
    obtain ⟨trace, hstored, htells⟩ := hreflected.told
    have hnone := hunaware trace (List.mem_of_find?_eq_some hstored)
    have hcode : trace.abstentionReasonCode = some response.reasonCode := htells
    rw [hnone] at hcode
    contradiction

end Outcomes

end RagSystem.TraceOutcomes
