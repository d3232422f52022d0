import RagSystem.NarratedPrograms
import RagSystem.EscapedExceptions

/-!
# Blocking and streamed queries

A streamed query does what the blocking query does, call by call. It says how
far it is by the names of its stages, and at the end it says the outcome. Two
things come between: an answer whose rows cannot be dumped is never said, though
its turn was recorded, and a `StopIteration` leaves a generator as another
exception.
-/

namespace RagSystem.StreamAgreement

open AtomicProgram ProgramContracts NarratedPrograms QueryModels Abstention HybridAnswers AskCalls Conversations
  AgenticRouter RouterCalls AbstentionCoverage EscapedExceptions

set_option autoImplicit false

section Voice

/-- The event a call yields. -/
def yielded : AskCall → Option StreamEvent
  | .emit event => some event
  | _ => none

/-- A stream says something by yielding it. -/
def stream : Voice StreamEvent AskAnswer := ⟨.emit, fun _ => (), yielded, fun _ => rfl⟩

/-- A stage. -/
def IsStage (event : StreamEvent) : Prop := ∃ stage ∈ ["classify", "retrieve", "generate", "verify"], event = .status stage

/-- The outcome as a stream shows it. -/
def shown (includeSql : Bool) : AskOutcome → AskOutcome
  | .answer response => .answer (withheldSql includeSql response)
  | .clarification prompt => .clarification prompt
  | .abstention response => .abstention response

/-- The stream of these events, ending so, agrees with a query that ended in `r`:
the outcome is the last event, after nothing but stages, and an exception is
the same, after nothing but stages. -/
def Agrees (includeSql : Bool) (r : Except AskError AskOutcome) (events : List StreamEvent)
    (r' : Except AskError Unit) : Prop :=
  match r with
  | .ok outcome => r' = .ok () ∧ ∃ stages traceId conversationId, (∀ event ∈ stages, IsStage event) ∧
      events = stages ++ [.terminal (shown includeSql outcome) traceId conversationId]
  | .error e => r' = .error e ∧ ∀ event ∈ events, IsStage event

/-- Whatever the database answered has rows that can be dumped, or its
confidence, combined with that of the documents if they answered too, is too
low for the route. -/
def Dumpable (settings : AskSettings) (h : AskHistory) : Prop :=
  ∀ c ∈ queries h, c.rows.all ResultRow.isJson = true ∨
    (answers h = [] ∧ isLowConfidence c.confidenceScore settings.routeMinConfidence = true) ∨
    ∃ r ∈ answers h, isLowConfidence (combineConfidenceScores [r.confidenceScore, c.confidenceScore])
      settings.routeMinConfidence = true

/-- No `StopIteration` leaves the query, and where nothing leaves it and the
rows are asked for, they can be dumped. -/
def Streamable (settings : AskSettings) (includeSql : Bool) (h : AskHistory) : Prop :=
  letOut h ≠ some .stopIteration ∧ (letOut h = none → includeSql = true → Dumpable settings h)

end Voice

section Dumps

variable {settings : AskSettings} {h : AskHistory} {response : UnifiedQueryResponse} {traceId : String}

/-- Without the database there is nothing to dump. -/
theorem dumpable_of_none (hnone : queries h = []) : Dumpable settings h := by
  intro c hc
  rw [hnone] at hc
  exact absurd hc List.not_mem_nil

/-- What the policy refuses is not dumped. -/
theorem dumpable_of_refused (hr : ResultOf h response)
    (hpolicy : (evaluateAbstentionForResponse settings response traceId).isSome = true) : Dumpable settings h := by
  cases hr with
  | rag r hfound hclaims hrows => exact dumpable_of_none (congrArg Prod.snd hfound)
  | database c hfound hroute hclaims hscore hrows =>
    have hanswers : answers h = [] := congrArg Prod.fst hfound
    have hqueries : queries h = [c] := congrArg Prod.snd hfound
    intro c' hc'
    rw [hqueries, List.mem_singleton] at hc'
    rw [hc']
    rcases (isSome_of_database traceId hroute hclaims).mp hpolicy with hlow | hempty
    · rw [hscore] at hlow
      exact .inr (.inl ⟨hanswers, hlow⟩)
    · rw [hrows] at hempty
      rw [hempty]
      exact .inl rfl
  | hybrid r c hfound hroute hclaims hscore hrows =>
    have hanswers : answers h = [r] := congrArg Prod.fst hfound
    have hqueries : queries h = [c] := congrArg Prod.snd hfound
    intro c' hc'
    rw [hqueries, List.mem_singleton] at hc'
    rw [isSome_of_hybrid traceId hroute hclaims, hscore] at hpolicy
    rw [hc']
    exact .inr (.inr ⟨r, by rw [hanswers]; exact List.mem_singleton_self r, hpolicy⟩)

/-- What it lets pass is dumped as far as its rows can be. -/
theorem dumpable_of_accepted (hr : ResultOf h response)
    (hpolicy : evaluateAbstentionForResponse settings response traceId = none) :
    Dumpable settings h ↔ response.rows.all ResultRow.isJson = true := by
  have haccepted : ¬ (evaluateAbstentionForResponse settings response traceId).isSome = true := by rw [hpolicy]; nofun
  cases hr with
  | rag r hfound hclaims hrows =>
    rw [hrows]
    exact ⟨fun _ => rfl, fun _ => dumpable_of_none (congrArg Prod.snd hfound)⟩
  | database c hfound hroute hclaims hscore hrows =>
    have hanswers : answers h = [] := congrArg Prod.fst hfound
    have hqueries : queries h = [c] := congrArg Prod.snd hfound
    rw [isSome_of_database traceId hroute hclaims, hscore] at haccepted
    rw [Dumpable, hanswers, hqueries, hrows]
    simp only [List.forall_mem_singleton, List.not_mem_nil, false_and, exists_false, or_false, true_and]
    exact or_iff_left fun hlow => haccepted (.inl hlow)
  | hybrid r c hfound hroute hclaims hscore hrows =>
    have hanswers : answers h = [r] := congrArg Prod.fst hfound
    have hqueries : queries h = [c] := congrArg Prod.snd hfound
    rw [isSome_of_hybrid traceId hroute hclaims, hscore] at haccepted
    rw [Dumpable, hanswers, hqueries, hrows]
    simp only [List.mem_singleton, forall_eq, reduceCtorEq, false_and, false_or, exists_eq_left]
    exact or_iff_left haccepted

/-- The rows of a query's answer can be dumped exactly if what the database
answered can. -/
theorem query_dumps (router : Router) (request : UnifiedQueryRequest) (allowed : Bool) :
    Ensures Anything (FittingEvents router.settings) (Returns fun h o =>
      Dumpable router.settings h ↔ ∀ response, o = .answer response → response.rows.all ResultRow.isJson = true)
      (query router request allowed) [] := by
  have hfound : found [] = ([], []) := rfl
  have htrace := uses_currentTraceId.mono quiet_of_around
  have hprepare := (uses_prepareConversation router request).mono quiet_of_around
  refine Ensures.quietThen htrace hfound fun h traceId hl => Ensures.quietThen hprepare hl fun h prepared hl => ?_
  obtain ⟨effective, prepared⟩ := prepared
  refine Ensures.quietThen (uses_call trivial) hl fun h decision hl => ?_
  have hgate := (uses_clarificationGate router allowed effective decision prepared traceId).mono quiet_of_around
  refine Ensures.quietThen hgate hl fun h prompt hl => ?_
  cases prompt with
  | some prompt =>
    exact .returns ⟨fun _ _ hanswer => (nomatch hanswer), fun _ => dumpable_of_none (congrArg Prod.snd hl)⟩
  | none =>
    refine (routeQuery_result hl).andThen fun h response hr => ?_
    have hresult := hr response rfl
    cases hpolicy : evaluateAbstentionForResponse router.settings response traceId with
    | some abstention =>
      have hrefused : (evaluateAbstentionForResponse router.settings response traceId).isSome = true := by
        rw [hpolicy]
        rfl
      exact .returns ⟨fun _ _ hanswer => (nomatch hanswer), fun _ => dumpable_of_refused hresult hrefused⟩
    | none =>
      have hrecord := (uses_recordAnswered router prepared response).mono quiet_of_around
      refine Ensures.quietThen hrecord rfl fun h' _ hl => .returns ?_
      rw [dumpable_of_accepted (hresult.of_found hl) hpolicy]
      refine ⟨fun hrows given hgiven => ?_, fun hgiven => hgiven (inConversation prepared response) rfl⟩
      rw [← AskOutcome.answer.inj hgiven]
      exact hrows

end Dumps

section Parts

/-- The call yields nothing. -/
def Silent (x : AskCall) : Prop := yielded x = none

theorem silent_of_around (x : AskCall) (h : Around x) : Silent x := by
  cases x with
  | emit event => exact h.elim
  | _ => rfl

theorem silent_of_searching (x : AskCall) (h : Searching x) : Silent x := by
  cases x with
  | emit event => exact h.elim
  | _ => rfl

theorem silent_ragQuery (settings : AskSettings) (request : QueryRequest) : (ragQuery settings request).Uses Silent :=
  Program.Uses.bind (uses_currentTraceId.mono silent_of_around) fun _ =>
    Program.Uses.bind ((uses_retrieve settings request).mono silent_of_searching) fun _ =>
      Program.Uses.bind (uses_call rfl) fun _ =>
        Program.Uses.bind ((uses_submitTracePersist _).mono silent_of_around) fun _ => trivial

theorem silent_routeRag (router : Router) (request : UnifiedQueryRequest) (decision : RoutingDecision) :
    (routeRag router request decision).Uses Silent :=
  Program.Uses.bind (uses_validated _ _ _) fun _ => Program.Uses.bind (silent_ragQuery _ _) fun _ => trivial

theorem silent_routeDatabase (request : UnifiedQueryRequest) (decision : RoutingDecision) :
    (routeDatabase request decision).Uses Silent :=
  Program.Uses.bind (uses_validated _ _ _) fun _ => Program.Uses.bind (uses_call rfl) fun _ =>
    Program.Uses.bind ((uses_submitTracePersist _).mono silent_of_around) fun _ => trivial

theorem silent_future {α : Type} {p : Ask α} (hp : p.Uses Silent) : (future p).Uses Silent :=
  Program.Uses.catchError (Program.Uses.bind hp fun _ => trivial) fun _ => trivial

theorem silent_futureResult {α : Type} (r : Except AskError α) : (futureResult r).Uses Silent := by
  cases r with
  | ok a => trivial
  | error e => trivial

theorem silent_routeHybrid (router : Router) (request : UnifiedQueryRequest) (decision : RoutingDecision) (traceId : String) :
    (routeHybrid router request decision traceId).Uses Silent :=
  Program.Uses.bind (uses_validated _ _ _) fun _ => Program.Uses.bind (uses_validated _ _ _) fun _ =>
    Program.Uses.bind (silent_future (silent_ragQuery _ _)) fun _ =>
      Program.Uses.bind (silent_future (uses_call rfl)) fun _ =>
        Program.Uses.bind (silent_futureResult _) fun _ => Program.Uses.bind (silent_futureResult _) fun _ =>
          Program.Uses.bind ((uses_mergedAnswer _ _ _ _).mono silent_of_around) fun _ => trivial

theorem silent_routeQuery (router : Router) (request : UnifiedQueryRequest) (decision : RoutingDecision) (traceId : String) :
    (routeQuery router request decision traceId).Uses Silent := by
  unfold routeQuery
  cases decision.route with
  | rag => exact silent_routeRag _ _ _
  | database => exact silent_routeDatabase _ _
  | hybrid => exact silent_routeHybrid _ _ _ _

/-- A validated value is the one that was given. -/
theorem yields_validated {α : Type} (model : String) (errors : List (String × String)) (value : α) :
    Program.Yields (fun v => v = value) (validated model errors value) := by
  unfold validated
  split
  · exact rfl
  · trivial

/-- The effective request asks for the query exactly when the request does. -/
theorem yields_prepareConversation (router : Router) (request : UnifiedQueryRequest) :
    Program.Yields (fun prepared => prepared.1.includeSql = request.includeSql) (prepareConversation router request) := by
  unfold prepareConversation
  split
  · have hprepare : Program.Yields (fun prepared => prepared.effectiveRequest.includeSql = request.includeSql)
        (prepare router.settings request) := by
      refine (yields_true _).bind fun conversation _ => (yields_true _).bind fun rewritten _ => ?_
      exact (yields_validated _ _ _).bind fun effective heffective => by rw [heffective]; exact rfl
    exact hprepare.bind fun prepared hprepared => hprepared
  · exact rfl

end Parts

section Agreement

/-- The outcome is an answer whose rows are asked for and cannot be dumped. -/
def Unwritable (includeSql : Bool) (outcome : AskOutcome) : Prop :=
  includeSql = true ∧ ∃ response, outcome = .answer response ∧ response.rows.all ResultRow.isJson = false

/-- The event with that outcome. -/
def Tells (includeSql : Bool) (outcome : AskOutcome) (event : StreamEvent) (_ : Unit) : Prop :=
  ¬ Unwritable includeSql outcome ∧
    ∃ traceId conversationId, event = .terminal (shown includeSql outcome) traceId conversationId

/-- There is none. -/
def Fails (includeSql : Bool) (outcome : AskOutcome) (e : AskError) : Prop :=
  Unwritable includeSql outcome ∧ e = .raised "PydanticSerializationError"

/-- What both do is not told. -/
abbrev Follows (includeSql : Bool) : Ask AskOutcome → Ask Unit → Prop :=
  Narrates stream IsStage (Tells includeSql) (Fails includeSql)

variable {includeSql : Bool}

/-- A stage is said. -/
theorem follows_stage {p : Ask AskOutcome} {stage : String} {s : Unit → Ask Unit}
    (hstage : stage ∈ ["classify", "retrieve", "generate", "verify"]) (hrest : Follows includeSql p (s ())) :
    Follows includeSql p ((emit (.status stage)).bind s) :=
  Narrates.say (V := stream) (n := StreamEvent.status stage) ⟨stage, hstage, rfl⟩ hrest

/-- The outcome is said. -/
theorem follows_outcome (outcome : AskOutcome) (traceId : String) (conversationId : Option String)
    (hwritable : ¬ Unwritable includeSql outcome) :
    Follows includeSql (.done outcome) (emit (.terminal (shown includeSql outcome) traceId conversationId)) :=
  .done (V := stream) (b := ()) ⟨hwritable, traceId, conversationId, rfl⟩ rfl

/-- An answer is said if it can be dumped. -/
theorem follows_answer (response : UnifiedQueryResponse) (traceId : String) (conversationId : Option String) :
    Follows includeSql (.done (.answer response)) ((modelDump (withheldSql includeSql response)).bind fun payload =>
      emit (.terminal (.answer payload) traceId conversationId)) := by
  unfold modelDump
  split
  · next hjson =>
    refine follows_outcome (.answer response) traceId conversationId ?_
    rintro ⟨rfl, response', hsame, hrows⟩
    rw [← AskOutcome.answer.inj hsame] at hrows
    exact Bool.false_ne_true (hrows.symm.trans hjson)
  · next hjson =>
    refine .fail ⟨?_, rfl⟩
    cases includeSql with
    | false => exact absurd rfl hjson
    | true => exact ⟨rfl, response, rfl, Bool.eq_false_iff.mpr hjson⟩

/-- The streamed query follows the blocking one. -/
theorem follows_queryEvents (router : Router) (request : UnifiedQueryRequest) :
    Follows request.includeSql (query router request true) (queryEvents router request) := by
  refine Narrates.bind (uses_currentTraceId.mono silent_of_around) (yields_true _) fun traceId _ => ?_
  refine Narrates.bind ((uses_prepareConversation _ _).mono silent_of_around) (yields_prepareConversation router request) ?_
  rintro ⟨effective, prepared⟩ heffective
  refine follows_stage (by simp) ?_
  refine Narrates.bind (uses_call rfl) (yields_true _) fun decision _ => ?_
  refine Narrates.bind ((uses_clarificationGate _ _ _ _ _ _).mono silent_of_around) (yields_true _) fun prompt _ => ?_
  cases prompt with
  | some prompt => exact follows_outcome (.clarification prompt) _ _ fun ⟨_, _, hanswer, _⟩ => nomatch hanswer
  | none =>
    refine follows_stage (by simp) (follows_stage (by simp) ?_)
    refine Narrates.bind (silent_routeQuery _ _ _ _) (yields_true _) fun response _ => ?_
    refine follows_stage (by simp) ?_
    cases evaluateAbstentionForResponse router.settings response traceId with
    | some abstention => exact follows_outcome (.abstention abstention) _ _ fun ⟨_, _, hanswer, _⟩ => nomatch hanswer
    | none =>
      refine Narrates.bind ((uses_recordAnswered _ _ _).mono silent_of_around) (yields_true _) fun _ _ => ?_
      have hsame : effective.includeSql = request.includeSql := heffective
      show Follows _ _ ((modelDump (withheldSql effective.includeSql _)).bind _)
      rw [hsame]
      exact follows_answer (inConversation prepared response) _ _

/-- A value is no exception. -/
theorem ok_ne_error {ε α : Type} {a : α} {e : ε} : (.ok a : Except ε α) ≠ .error e := fun h => by cases h

/-- What is told agrees unless it could not be dumped or is a `StopIteration`. -/
theorem agrees_of_told {r : Except AskError AskOutcome} {events : List StreamEvent} {r₀ : Except AskError Unit}
    (htold : Told IsStage (Tells includeSql) (Fails includeSql) r events r₀) :
    Agrees includeSql r events (r₀.mapError leaving) ↔
      (∀ outcome, r = .ok outcome → ¬ Unwritable includeSql outcome) ∧ r ≠ .error .stopIteration := by
  cases htold with
  | @said outcome stages event _ hquiet hlast =>
    obtain ⟨hwritable, traceId, conversationId, rfl⟩ := hlast
    refine ⟨fun _ => ⟨fun outcome' hsame => ?_, ok_ne_error⟩, fun _ => ⟨rfl, stages, traceId, conversationId, hquiet, rfl⟩⟩
    rw [← Except.ok.inj hsame]
    exact hwritable
  | @failed outcome events e hquiet hfails =>
    exact ⟨fun hagrees => (nomatch hagrees.1), fun hwritable => absurd hfails.1 (hwritable.1 outcome rfl)⟩
  | @raised events e hquiet =>
    have hleaves : leaving e = e ↔ e ≠ .stopIteration := by
      cases e with
      | stopIteration => exact ⟨AskError.noConfusion, fun hno => absurd rfl hno⟩
      | _ => exact ⟨fun _ => AskError.noConfusion, fun _ => rfl⟩
    constructor
    · intro hagrees
      have hsame : leaving e = e := Except.error.inj hagrees.1
      exact ⟨fun _ hok => absurd hok.symm ok_ne_error, fun hstop => hleaves.mp hsame (Except.error.inj hstop)⟩
    · rintro ⟨_, hno⟩
      have hsame : leaving e = e := hleaves.mpr fun he => hno (congrArg Except.error he)
      exact ⟨congrArg Except.error hsame, hquiet⟩

/-- The condition, by what the query came to. -/
theorem streamable_iff {Ω σ : Type} {M : Machine Ω σ AskError AskAnswer} {router : Router} {request : UnifiedQueryRequest}
    {w w' : σ} {h : AskHistory} {r : Except AskError AskOutcome} (hrun : Outcome M (query router request true) w h r w') :
    Streamable router.settings includeSql h ↔
      (∀ outcome, r = .ok outcome → ¬ Unwritable includeSql outcome) ∧ r ≠ .error .stopIteration := by
  have hends : Ends true false h r := (lets_query router request true).of_outcome (fun _ _ => trivial) hrun
  cases r with
  | ok outcome =>
    have hdumps : Dumpable router.settings h ↔ ∀ response, outcome = .answer response →
        response.rows.all ResultRow.isJson = true :=
      (query_dumps router request true).of_outcome (fun _ _ => trivial) hrun outcome rfl
    have hcalm : Calm false h := hends
    have hnone : letOut h = none := congrArg Watch.out hcalm.watched
    rw [Streamable, hnone, hdumps]
    constructor
    · rintro ⟨_, hrows⟩
      refine ⟨fun outcome' hsame => ?_, ok_ne_error⟩
      rw [← Except.ok.inj hsame]
      rintro ⟨hasked, response, hanswer, hfalse⟩
      exact Bool.false_ne_true (hfalse.symm.trans (hrows rfl hasked response hanswer))
    · rintro ⟨hwritable, _⟩
      refine ⟨(Option.some_ne_none _).symm, fun _ hasked response hanswer => ?_⟩
      by_contra hfalse
      exact hwritable outcome rfl ⟨hasked, response, hanswer, Bool.eq_false_iff.mpr hfalse⟩
  | error e =>
    have hvalue : ∀ outcome : AskOutcome, Except.error e = .ok outcome → ¬ Unwritable includeSql outcome :=
      fun _ hok => absurd hok.symm ok_ne_error
    rcases hends with hout | ⟨_, hcalm, hno⟩
    · rw [Streamable, hout]
      constructor
      · intro hstreamable
        exact ⟨hvalue, fun hstop => hstreamable.1 (congrArg some (Except.error.inj hstop))⟩
      · intro hno
        refine ⟨fun hstop => hno.2 (congrArg Except.error (Option.some.inj hstop)), fun hnone => ?_⟩
        exact absurd hnone (Option.some_ne_none _)
    · have hnone : letOut h = none := congrArg Watch.out hcalm.watched
      rw [Streamable, hnone]
      constructor
      · exact fun _ => ⟨hvalue, fun hstop => hno (Except.error.inj hstop)⟩
      · exact fun _ => ⟨(Option.some_ne_none _).symm, fun _ _ => dumpable_of_none (hcalm.unasked rfl)⟩

/-- Whatever the components of a query do, and whatever state they keep, with a
reader that takes every event: a run of the blocking query goes with one of the
streamed query from the same state to the same state, with the same calls, and
a run of the streamed query with one of the blocking query. The two agree
exactly if no `StopIteration` leaves the query and no answer that is returned
has rows that were asked for and cannot be dumped. -/
theorem blocking_and_streamed_agree_iff {Ω σ : Type} {M : Machine Ω σ AskError AskAnswer} (hlistens : Listens M stream)
    (router : Router) (request : UnifiedQueryRequest) (w w' : σ) :
    (∀ h r, Outcome M (query router request true) w h r w' → ∃ h' r', Outcome M (queryStream router request) w h' r' w' ∧
      unsaid stream h' = h ∧ (Agrees request.includeSql r (said stream h') r' ↔
        Streamable router.settings request.includeSql h)) ∧
    ∀ h' r', Outcome M (queryStream router request) w h' r' w' → ∃ r,
      Outcome M (query router request true) w (unsaid stream h') r w' ∧
        (Agrees request.includeSql r (said stream h') r' ↔
          Streamable router.settings request.includeSql (unsaid stream h')) := by
  have hfollows := follows_queryEvents router request
  refine ⟨fun h r hrun => ?_, fun h' r' hrun => ?_⟩
  · obtain ⟨h', r₀, hevents, hunsaid, htold⟩ := hfollows.told hlistens hrun
    refine ⟨h', r₀.mapError leaving, outcome_rethrow.mpr ⟨r₀, hevents, rfl⟩, hunsaid, ?_⟩
    rw [agrees_of_told htold, streamable_iff hrun]
  · obtain ⟨r₀, hevents, rfl⟩ := outcome_rethrow.mp hrun
    obtain ⟨r, hquery, htold⟩ := hfollows.tells hlistens hevents
    refine ⟨r, hquery, ?_⟩
    rw [agrees_of_told htold, streamable_iff hquery]

/-- An answer from the database with these rows. -/
def sampleAnswer (rows : List ResultRow) : CopilotQueryResponse where
  answer := "One."
  mode := "database"
  evidenceStatus := "grounded"
  traceId := "t"
  confidenceScore := some (9 / 10)
  rows := rows

/-- Components that answer from the database with these rows, and a store of
conversations. -/
def sampleComponents (rows : List ResultRow) : Machine Unit (List ConversationRecord) AskError AskAnswer
  | .getTraceId, _, w => some (.ok (some "t"), w)
  | .uuid4, _, w => some (.ok "u", w)
  | .tokenUrlsafe, _, w => some (.ok "k", w)
  | .utcnow, _, w => some (.ok 0, w)
  | .listDocuments, _, w => some (.ok [], w)
  | .getConversation _, _, w => some (.ok .absent, w)
  | .putConversation record, _, w => some (.ok (), record :: w)
  | .getClarification _, _, w => some (.ok .absent, w)
  | .createClarification _, _, w => some (.ok (), w)
  | .rewrite _ _, _, w => some (.ok "", w)
  | .classify _ _, _, w => some (.ok { route := .database, reasoning := "" }, w)
  | .embedQuery _, _, w => some (.ok [], w)
  | .encodeQuery _, _, w => some (.ok [], w)
  | .indexQuery _ _ _ _, _, w => some (.ok [], w)
  | .filterToActiveVersions _, _, w => some (.ok [], w)
  | .generateAnswer _ _ _, _, w => some (.error (.raised "unavailable"), w)
  | .copilotQuery _, _, w => some (.ok (sampleAnswer rows), w)
  | .synthesizeHybrid _ _ _, _, w => some (.ok "", w)
  | .submitTrace _, _, w => some (.ok (), w)
  | .emit _, _, w => some (.ok (), w)

/-- They take every event. -/
theorem sampleComponents_listen (rows : List ResultRow) : Listens (sampleComponents rows) stream := by
  intro event r w w'
  constructor
  · rintro ⟨o, ho⟩
    injection ho with ho
    injection ho with hr hw
    exact ⟨hr.symm, hw.symm⟩
  · rintro ⟨rfl, rfl⟩
    exact ⟨(), rfl⟩

/-- A router that records conversations and has a copilot. -/
def sampleRouter : Router := ⟨sampleSettings, true, ["events"], true, false⟩

/-- A question that asks for the rows. -/
def sampleRequest : UnifiedQueryRequest := { question := "Which payload?", includeSql := true }

/-- A run of a program with these rows, as far as it is one. -/
def sampleRun {α : Type} (rows : List ResultRow) (p : Ask α) (calls : ℕ) :
    Option (AskHistory × Except AskError α × List ConversationRecord) :=
  play (sampleComponents rows) p (List.replicate calls fun _ => ()) []

theorem blocking_and_streamed_agree_iff_sample : ∃ h r w', w'.length = 1 ∧
    Outcome (sampleComponents [.json "\x7b\"n\": 1\x7d"]) (query sampleRouter sampleRequest true) [] h r w' ∧ ∃ h' r',
      Outcome (sampleComponents [.json "\x7b\"n\": 1\x7d"]) (queryStream sampleRouter sampleRequest) [] h' r' w' ∧
        unsaid stream h' = h ∧ Agrees true r (said stream h') r' := by
  have hone : (sampleRun [.json "\x7b\"n\": 1\x7d"] (query sampleRouter sampleRequest true) 9).any (fun run =>
      run.2.2.length = 1 ∧ letOut run.1 = none ∧
        (queries run.1).all fun c => c.rows.all ResultRow.isJson) = true := by decide +kernel
  obtain ⟨⟨h, r, w'⟩, hrun, hparts⟩ := Option.any_eq_true _ _ |>.mp hone
  obtain ⟨hlength, hnone, hrows⟩ := of_decide_eq_true hparts
  have houtcome := play_sound _ hrun
  obtain ⟨h', r', hstream, hunsaid, hagrees⟩ :=
    (blocking_and_streamed_agree_iff (sampleComponents_listen _) sampleRouter sampleRequest [] w').1 h r houtcome
  refine ⟨h, r, w', hlength, houtcome, h', r', hstream, hunsaid, hagrees.mpr ⟨?_, fun _ _ c hc => .inl ?_⟩⟩
  · rw [show letOut h = none from hnone]
    nofun
  · exact List.all_eq_true.mp hrows c hc

/-- The query returned an answer with a row that cannot be dumped. -/
def rowLeft : Except AskError AskOutcome → Bool
  | .ok (.answer response) => !response.rows.all ResultRow.isJson
  | _ => false

/-- The event carries an outcome. -/
def isTerminal : StreamEvent → Bool
  | .terminal _ _ _ => true
  | _ => false

/-- A row with bytes that are no text: the query returns its answer, the stream
makes the same calls, records the turn and raises, with no outcome said. -/
theorem answer_never_streamed : ∃ h response h' e w', w'.length = 1 ∧
    Outcome (sampleComponents [.unserializable "b'\\xff'"]) (query sampleRouter sampleRequest true) []
      h (.ok (.answer response)) w' ∧
    Outcome (sampleComponents [.unserializable "b'\\xff'"]) (queryStream sampleRouter sampleRequest) [] h' (.error e) w' ∧
    unsaid stream h' = h ∧ (said stream h').any isTerminal = false := by
  have hone : (sampleRun [.unserializable "b'\\xff'"] (query sampleRouter sampleRequest true) 9).any (fun run =>
      run.2.2.length = 1 ∧ rowLeft run.2.1 = true) = true := by decide +kernel
  obtain ⟨⟨h, r, w'⟩, hrun, hparts⟩ := Option.any_eq_true _ _ |>.mp hone
  obtain ⟨hlength, hleft⟩ := of_decide_eq_true hparts
  have houtcome := play_sound _ hrun
  obtain ⟨h', r₀, hevents, hunsaid, htold⟩ :=
    (follows_queryEvents sampleRouter sampleRequest).told (sampleComponents_listen _) houtcome
  cases r with
  | error e => exact absurd hleft Bool.false_ne_true
  | ok outcome =>
    cases outcome with
    | clarification prompt => exact absurd hleft Bool.false_ne_true
    | abstention abstention => exact absurd hleft Bool.false_ne_true
    | answer response =>
      have hrows : response.rows.all ResultRow.isJson = false := (Bool.not_eq_true' _).mp hleft
      generalize hsaid : said stream h' = events at htold
      cases htold with
      | said hquiet hlast => exact absurd ⟨rfl, response, rfl, hrows⟩ hlast.1
      | @failed _ _ e hquiet _ =>
        have hstream : Outcome (sampleComponents [.unserializable "b'\\xff'"]) (queryStream sampleRouter sampleRequest)
          [] h' (.error (leaving e)) w' := outcome_rethrow.mpr ⟨.error e, hevents, rfl⟩
        refine ⟨h, response, h', leaving e, w', hlength, houtcome, hstream, hunsaid, ?_⟩
        rw [hsaid, List.any_eq_false]
        intro event hevent
        obtain ⟨stage, _, rfl⟩ := hquiet event hevent
        exact Bool.false_ne_true

end Agreement

end RagSystem.StreamAgreement
