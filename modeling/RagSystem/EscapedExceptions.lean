import RagSystem.AbstentionCoverage

/-!
# Exceptions that leave a query

Most exceptions of a component leave the query that called it. The store of
conversations, the rewriter, the issue of a clarification and the writer of
traces may fail, and the query goes on. The exception that leaves is the first
that nobody catches; only a constructor's validation raises one of its own, and
that before the database is asked.
-/

namespace RagSystem.EscapedExceptions

open AtomicProgram ProgramContracts QueryModels AskCalls Conversations AgenticRouter RouterCalls AbstentionCoverage

set_option autoImplicit false

section Statement

/-- What was seen of the exceptions of a run. -/
structure Watch where
  /-- The first that nobody caught. -/
  out : Option AskError := none
  /-- The id of a clarification was drawn, and the clock is read for it next. -/
  asking : Bool := false

/-- The caller goes on when this call raises. -/
def catches (asking : Bool) : AskCall → Bool
  | .getConversation _ => true
  | .putConversation _ => true
  | .rewrite _ _ => true
  | .tokenUrlsafe => true
  | .createClarification _ => true
  | .submitTrace _ => true
  | .utcnow => asking
  | _ => false

/-- What a call raised. -/
def raised : AskEvent → Option AskError
  | ⟨_, .error e⟩ => some e
  | _ => none

/-- The id of a clarification is drawn. -/
def draws : AskEvent → Bool
  | ⟨.tokenUrlsafe, .ok _⟩ => true
  | _ => false

/-- One call more. -/
def Watch.step (seen : Watch) (e : AskEvent) : Watch where
  out := seen.out <|> if catches seen.asking e.action then none else raised e
  asking := draws e

/-- What is seen of a run. -/
def watch (h : AskHistory) : Watch := h.foldl Watch.step {}

/-- The exception that leaves a query whose components did this. -/
def letOut (h : AskHistory) : Option AskError := (watch h).out

end Statement

section Contracts

/-- Nothing has left the query yet, and the database was not asked if `fresh`. -/
structure Calm (fresh : Bool) (h : AskHistory) : Prop where
  /-- Nothing was seen. -/
  watched : watch h = {}
  /-- The database did not answer. -/
  unasked : fresh = true → queries h = []

/-- Calm after a value, and an exception is the one that nobody caught; or,
where constructors validate, one of theirs. -/
def Ends {α : Type} (checks fresh : Bool) (h : AskHistory) : Except AskError α → Prop
  | .ok _ => Calm fresh h
  | .error e => letOut h = some e ∨ checks = true ∧ Calm true h ∧ e ≠ .stopIteration

/-- The call is one to the database. -/
def asksDatabase : AskCall → Bool
  | .copilotQuery _ => true
  | _ => false

/-- A part of a query ends so. -/
abbrev Lets {α : Type} (checks fresh : Bool) (p : Ask α) (h : AskHistory) : Prop :=
  Ensures Anything Anything (Ends checks fresh) p h

variable {α β : Type} {checks fresh : Bool} {h : AskHistory}

/-- Calm for the database too is calm. -/
theorem Calm.of_fresh (hcalm : Calm true h) : Calm fresh h := ⟨hcalm.watched, fun _ => hcalm.unasked rfl⟩

/-- Returning. -/
theorem lets_done {a : α} (hcalm : Calm fresh h) : Lets checks fresh (.done a) h := .done hcalm

/-- Sequencing. -/
theorem Lets.bind {fresh' : Bool} {p : Ask α} {f : α → Ask β} (hp : Lets checks fresh p h)
    (hf : ∀ h a, Calm fresh h → Lets checks fresh' (f a) h) : Lets checks fresh' (p.bind f) h :=
  Ensures.bind hp hf fun _ _ he => he

/-- The next call is seen. -/
theorem watch_append {seen : Watch} (hseen : watch h = seen) (e : AskEvent) : watch (h ++ [e]) = seen.step e := by
  rw [watch, List.foldl_concat, ← hseen]
  rfl

/-- Only the database answers as the database. -/
theorem queries_append {e : AskEvent} (he : asksDatabase e.action = false) : queries (h ++ [e]) = queries h := by
  have hnone : queries [e] = [] := by
    obtain ⟨action, answer⟩ := e
    cases action with
    | copilotQuery request => exact absurd he (by simp [asksDatabase])
    | _ => rfl
  have happend : queries (h ++ [e]) = queries h ++ queries [e] := List.filterMap_append
  rw [happend, hnone, List.append_nil]

/-- A call after which all is calm: it was caught, or it raised nothing. -/
theorem Calm.append (hcalm : Calm fresh h) {e : AskEvent} (hcaught : catches false e.action = true ∨ raised e = none)
    (hdraws : draws e = false) (hask : fresh = true → asksDatabase e.action = false) : Calm fresh (h ++ [e]) := by
  refine ⟨?_, fun hfresh => (queries_append (hask hfresh)).trans (hcalm.unasked hfresh)⟩
  rw [watch_append hcalm.watched, Watch.step, hdraws]
  rcases hcaught with hcaught | hraised
  · simp [hcaught]
  · simp [hraised]

/-- A call that nobody guards. -/
theorem lets_call {x : AskCall} (hx : catches false x = false) (hask : fresh = true → asksDatabase x = false)
    (hcalm : Calm fresh h) : Lets checks fresh (call x) h := by
  refine Ensures.perform (a := x) fun r _ => ⟨trivial, ?_⟩
  cases r with
  | ok a =>
    refine hcalm.append (.inr rfl) ?_ hask
    cases x with
    | tokenUrlsafe => exact absurd hx (by decide)
    | _ => rfl
  | error e =>
    refine .inl ?_
    rw [letOut, watch_append hcalm.watched, Watch.step, hx]
    rfl

/-- The database is asked. -/
theorem lets_copilotQuery (request : CopilotQueryRequest) (hcalm : Calm false h) :
    Lets checks false (call (.copilotQuery request)) h := lets_call rfl nofun hcalm

/-- A call whose caller goes on. -/
theorem lets_caught {x : AskCall} {a : AskAnswer x} (hx : catches false x = true) (hdraw : x ≠ .tokenUrlsafe)
    (hcalm : Calm fresh h) : Lets checks fresh ((call x).catchError fun _ => .done a) h := by
  have hstep : Ensures Anything Anything (fun h (_ : Except AskError (AskAnswer x)) => Calm fresh h) (call x) h := by
    refine Ensures.perform (a := x) fun r _ => ⟨trivial, hcalm.append (.inl hx) ?_ fun _ => ?_⟩
    · cases x with
      | tokenUrlsafe => exact absurd rfl hdraw
      | _ => rfl
    · cases x with
      | copilotQuery request => exact absurd hx Bool.false_ne_true
      | _ => rfl
  exact Ensures.catchError hstep (fun _ _ hcalm => hcalm) fun _ _ hcalm => lets_done hcalm

end Contracts

section Parts

variable {α : Type} {checks fresh : Bool} {h : AskHistory}

theorem lets_currentTraceId (hcalm : Calm fresh h) : Lets checks fresh currentTraceId h := by
  refine Lets.bind (lets_call rfl (fun _ => rfl) hcalm) fun h traceId hcalm => ?_
  split
  · exact lets_done hcalm
  · exact lets_call rfl (fun _ => rfl) hcalm

/-- A constructor validates before the database is asked. -/
theorem lets_validated (model : String) (errors : List (String × String)) (value : α) (hcalm : Calm true h) :
    Lets true true (validated model errors value) h := by
  unfold validated
  split
  · exact lets_done hcalm
  · exact .raise (.inr ⟨rfl, hcalm, nofun⟩)

theorem lets_load (conversationId : String) (hcalm : Calm fresh h) : Lets checks fresh (load conversationId) h := by
  refine Lets.bind (lets_caught rfl nofun hcalm) fun h payload hcalm => ?_
  cases payload with
  | absent => exact lets_done hcalm
  | invalid => exact lets_done hcalm
  | valid record => exact lets_done hcalm

theorem lets_conversationOf (request : UnifiedQueryRequest) (hcalm : Calm fresh h) :
    Lets checks fresh (conversationOf request) h := by
  have hstored : Lets checks fresh (storedConversation request) h := by
    unfold storedConversation
    split
    · exact lets_load _ hcalm
    · exact lets_done hcalm
  have hid : ∀ h, Calm fresh h → Lets checks fresh (conversationIdOf request) h := by
    intro h hcalm
    unfold conversationIdOf
    split
    · exact lets_done hcalm
    · exact lets_call rfl (fun _ => rfl) hcalm
  refine Lets.bind hstored fun h found hcalm => ?_
  cases found with
  | some conversation => exact lets_done hcalm
  | none =>
    refine Lets.bind (lets_call rfl (fun _ => rfl) hcalm) fun h now hcalm => ?_
    exact Lets.bind (hid h hcalm) fun h id hcalm => lets_done hcalm

theorem lets_rewriteFollowUp (settings : AskSettings) (question : String) (priorTurns : List ConversationTurn)
    (hcalm : Calm fresh h) : Lets checks fresh (rewriteFollowUp settings question priorTurns) h := by
  unfold rewriteFollowUp
  split
  · exact lets_done hcalm
  · exact Lets.bind (lets_caught rfl nofun hcalm) fun h raw hcalm => lets_done hcalm

theorem lets_prepareConversation (router : Router) (request : UnifiedQueryRequest) (hcalm : Calm true h) :
    Lets true true (prepareConversation router request) h := by
  unfold prepareConversation
  split
  · have hprepare : Lets true true (prepare router.settings request) h := by
      refine Lets.bind (lets_conversationOf request hcalm) fun h conversation hcalm => ?_
      refine Lets.bind (lets_rewriteFollowUp _ _ _ hcalm) fun h rewritten hcalm => ?_
      exact Lets.bind (lets_validated _ _ _ hcalm) fun h effective hcalm => lets_done hcalm
    exact Lets.bind hprepare fun h prepared hcalm => lets_done hcalm
  · exact lets_done hcalm

/-- A clarification that cannot be issued is none: each of its three calls is
guarded, the clock because the id was drawn before. -/
theorem lets_issueClarification (router : Router) (request : UnifiedQueryRequest) (decision : RoutingDecision)
    (turnId : String) (hcalm : Calm fresh h) :
    Lets checks fresh (issueClarification router request decision turnId) h := by
  unfold issueClarification
  split
  · have hissue : ∀ question, Ensures Anything Anything (fun h (_ : Except AskError ClarificationPrompt) => Calm fresh h)
        (issue router.settings request.question turnId question request.documentIds) h := by
      intro question
      have hdraw : Ensures Anything Anything (fun h (r : Except AskError String) =>
          (∀ id, r = .ok id → watch h = ⟨none, true⟩ ∧ (fresh = true → queries h = [])) ∧
            ∀ e, r = .error e → Calm fresh h) (call .tokenUrlsafe) h := by
        refine Ensures.perform (a := AskCall.tokenUrlsafe) fun r _ => ⟨trivial, fun id hid => ?_, fun e he => ?_⟩
        · subst hid
          refine ⟨?_, fun hfresh => (queries_append rfl).trans (hcalm.unasked hfresh)⟩
          rw [watch_append hcalm.watched]
          rfl
        · subst he
          exact hcalm.append (.inl rfl) rfl fun _ => rfl
      refine Ensures.bind hdraw (fun h id hid => ?_) fun h e he => he.2 e rfl
      obtain ⟨hasking, hunasked⟩ := hid.1 id rfl
      have hclock : Ensures Anything Anything (fun h (_ : Except AskError ℕ) => Calm fresh h) (call .utcnow) h := by
        refine Ensures.perform (a := AskCall.utcnow) fun r _ => ⟨trivial, ?_, fun hfresh => ?_⟩
        · rw [watch_append hasking]
          rfl
        · exact (queries_append rfl).trans (hunasked hfresh)
      refine hclock.bind (fun h now hcalm => ?_) fun h e hcalm => hcalm
      have hcreate : ∀ record, Ensures Anything Anything (fun h (_ : Except AskError Unit) => Calm fresh h)
          (call (.createClarification record)) h := fun record =>
        Ensures.perform (a := AskCall.createClarification record) fun r _ =>
          ⟨trivial, hcalm.append (.inl rfl) rfl fun _ => rfl⟩
      exact (hcreate _).bind (fun h _ hcalm => .done hcalm) fun h e hcalm => hcalm
    refine Ensures.catchError (Q := fun h _ => Calm fresh h) ?_ (fun _ _ hcalm => hcalm) fun _ _ hcalm => lets_done hcalm
    exact (hissue _).bind (fun h prompt hcalm => .done hcalm) fun h e hcalm => hcalm
  · exact lets_done hcalm

theorem lets_clarificationGate (router : Router) (allowed : Bool) (effective : UnifiedQueryRequest)
    (decision : RoutingDecision) (prepared : Option PreparedTurn) (traceId : String) (hcalm : Calm fresh h) :
    Lets checks fresh (clarificationGate router allowed effective decision prepared traceId) h := by
  unfold clarificationGate
  split
  · exact lets_issueClarification _ _ _ _ hcalm
  · exact lets_done hcalm

theorem lets_ragQuery (settings : AskSettings) (request : QueryRequest) (hcalm : Calm fresh h) :
    Lets checks fresh (ragQuery settings request) h := by
  have hsparse : ∀ h, Calm fresh h → Lets checks fresh (encodeSparse settings request.question) h := by
    intro h hcalm
    unfold encodeSparse
    split
    · exact Lets.bind (lets_call rfl (fun _ => rfl) hcalm) fun h sparse hcalm => lets_done hcalm
    · exact lets_done hcalm
  have hsearch : ∀ vector sparse h, Calm fresh h →
      Lets checks fresh (search vector settings.retrievalDenseTopK request.documentIds sparse) h := by
    intro vector sparse h hcalm
    unfold search
    split
    · exact lets_call rfl (fun _ => rfl) hcalm
    · exact lets_done hcalm
    · exact lets_call rfl (fun _ => rfl) hcalm
  have hretrieve : ∀ h, Calm fresh h → Lets checks fresh (retrieve settings request) h := by
    intro h hcalm
    refine Lets.bind (lets_call rfl (fun _ => rfl) hcalm) fun h vector hcalm => Lets.bind (hsparse h hcalm) fun h sparse hcalm => ?_
    refine Lets.bind (hsearch vector sparse h hcalm) fun h hits hcalm => ?_
    exact Lets.bind (lets_call rfl (fun _ => rfl) hcalm) fun h hits hcalm => lets_done hcalm
  refine Lets.bind (lets_currentTraceId hcalm) fun h traceId hcalm => Lets.bind (hretrieve h hcalm) fun h hits hcalm => ?_
  refine Lets.bind (lets_call rfl (fun _ => rfl) hcalm) fun h response hcalm => ?_
  exact Lets.bind (lets_caught rfl nofun hcalm) fun h _ hcalm => lets_done hcalm

theorem lets_routeRag (router : Router) (request : UnifiedQueryRequest) (decision : RoutingDecision)
    (hcalm : Calm true h) : Lets true false (routeRag router request decision) h := by
  refine Lets.bind (lets_validated _ _ _ hcalm) fun h ragRequest hcalm => ?_
  exact Lets.bind (lets_ragQuery router.settings ragRequest hcalm) fun h response hcalm => lets_done hcalm.of_fresh

theorem lets_routeDatabase (request : UnifiedQueryRequest) (decision : RoutingDecision)
    (hcalm : Calm true h) : Lets true false (routeDatabase request decision) h := by
  refine Lets.bind (lets_validated _ _ _ hcalm) fun h copilotRequest hcalm => ?_
  have hcalm : Calm false h := hcalm.of_fresh
  refine Lets.bind (lets_copilotQuery copilotRequest hcalm) fun h response hcalm => ?_
  exact Lets.bind (lets_caught rfl nofun hcalm) fun h _ hcalm => lets_done hcalm

/-- Only a checked part raises an exception of its own. -/
theorem Ends.letOut_eq {e : AskError} (he : Ends (α := α) false fresh h (.error e)) : letOut h = some e :=
  he.resolve_right fun hfalse => absurd hfalse.1 Bool.false_ne_true

/-- A future keeps the exception for whoever asks for its result. -/
theorem future_keeps {p : Ask α} (hp : Lets false fresh p h) : Ensures Anything Anything
    (fun h (r : Except AskError (Except AskError α)) => ∃ kept, r = .ok kept ∧ Ends false fresh h kept) (future p) h := by
  have hbody : Ensures Anything Anything (fun h (r : Except AskError (Except AskError α)) =>
      (∀ kept, r = .ok kept → Ends false fresh h kept) ∧ ∀ e, r = .error e → letOut h = some e)
      (p.bind fun a => .done (.ok a)) h := by
    refine Ensures.bind hp (fun h a hcalm => .done ⟨fun kept hkept => ?_, fun e he => (nomatch he)⟩) fun h e he => ?_
    · cases hkept
      exact hcalm
    · refine ⟨fun kept hkept => (nomatch hkept), fun e' he' => ?_⟩
      cases he'
      exact he.letOut_eq
  refine Ensures.catchError hbody (fun h kept hkept => ⟨kept, rfl, hkept.1 kept rfl⟩) fun h e he => ?_
  exact .done ⟨.error e, rfl, .inl (he.2 e rfl)⟩

/-- An exception that is out stays the one. -/
theorem letOut_append {e : AskError} (hout : letOut h = some e) (event : AskEvent) : letOut (h ++ [event]) = some e := by
  rw [letOut] at hout
  rw [letOut, watch_append rfl, Watch.step, hout]
  rfl

/-- Also through a future. -/
theorem future_after {p : Ask α} {e : AskError} (hout : letOut h = some e) : Ensures Anything Anything
    (fun h (r : Except AskError (Except AskError α)) => (∃ kept, r = .ok kept) ∧ letOut h = some e) (future p) h := by
  have hstays : Ensures Anything Anything (fun h (_ : Except AskError (Except AskError α)) => letOut h = some e)
      (p.bind fun a => .done (.ok a)) h :=
    Ensures.of_uses (Program.uses_true _) (fun h event _ hout _ => ⟨trivial, letOut_append hout event⟩) hout
  exact Ensures.catchError hstays (fun h kept hout => ⟨⟨kept, rfl⟩, hout⟩) fun h _ hout => .done ⟨⟨_, rfl⟩, hout⟩

/-- The database is asked also after the documents failed; their exception
leaves. -/
theorem lets_routeHybrid (router : Router) (request : UnifiedQueryRequest) (decision : RoutingDecision)
    (traceId : String) (hcalm : Calm true h) : Lets true false (routeHybrid router request decision traceId) h := by
  refine Lets.bind (lets_validated _ _ _ hcalm) fun h ragRequest hcalm => ?_
  refine Lets.bind (lets_validated _ _ _ hcalm) fun h copilotRequest hcalm => ?_
  have hcalm : Calm false h := hcalm.of_fresh
  refine (future_keeps (lets_ragQuery router.settings ragRequest hcalm)).bind (fun h ragFuture hrag => ?_)
    fun h e hrag => (nomatch hrag)
  obtain ⟨kept, hkept, hrag⟩ := hrag
  obtain rfl := Except.ok.inj hkept
  cases ragFuture with
  | error e =>
    refine (future_after hrag.letOut_eq).bind (fun h copilotFuture hout => ?_) fun h e' hnone => (nomatch hnone.1)
    exact .raise (.inl hout.2)
  | ok ragResponse =>
    refine (future_keeps (lets_copilotQuery copilotRequest hrag)).bind (fun h copilotFuture hdatabase => ?_) fun h e hdatabase => (nomatch hdatabase)
    obtain ⟨kept, hkept, hdatabase⟩ := hdatabase
    obtain rfl := Except.ok.inj hkept
    cases copilotFuture with
    | error e => exact .raise (.inl hdatabase.letOut_eq)
    | ok copilotResponse =>
      have hmerged : Lets true false (mergedAnswer router request.question ragResponse.answer copilotResponse.answer) h := by
        unfold mergedAnswer
        split
        · exact lets_call rfl (fun _ => rfl) hdatabase
        · exact lets_done hdatabase
      show Lets true false ((mergedAnswer router request.question ragResponse.answer copilotResponse.answer).bind _) h
      exact Lets.bind hmerged fun h answer hcalm => lets_done hcalm

theorem lets_routeQuery (router : Router) (request : UnifiedQueryRequest) (decision : RoutingDecision)
    (traceId : String) (hcalm : Calm true h) : Lets true false (routeQuery router request decision traceId) h := by
  unfold routeQuery
  cases decision.route with
  | rag => exact lets_routeRag router request decision hcalm
  | database => exact lets_routeDatabase request decision hcalm
  | hybrid => exact lets_routeHybrid router request decision traceId hcalm

theorem lets_recordAnswered (router : Router) (prepared : Option PreparedTurn) (response : UnifiedQueryResponse)
    (hcalm : Calm fresh h) : Lets checks fresh (recordAnswered router prepared response) h := by
  cases prepared with
  | none => exact lets_done hcalm
  | some prepared =>
    refine Lets.bind (lets_call rfl (fun _ => rfl) hcalm) fun h askedAt hcalm => ?_
    refine Lets.bind (lets_call rfl (fun _ => rfl) hcalm) fun h updatedAt hcalm => ?_
    exact lets_caught rfl nofun hcalm

end Parts

section Queries

/-- What leaves a query is the exception that nobody caught, or, with the
database not asked, one of a constructor. -/
theorem lets_query (router : Router) (request : UnifiedQueryRequest) (allowed : Bool) :
    Lets true false (query router request allowed) [] := by
  have hcalm : Calm true [] := ⟨rfl, fun _ => rfl⟩
  refine Lets.bind (lets_currentTraceId hcalm) fun h traceId hcalm => ?_
  refine Lets.bind (lets_prepareConversation router request hcalm) fun h prepared hcalm => ?_
  obtain ⟨effective, prepared⟩ := prepared
  refine Lets.bind (lets_call rfl (fun _ => rfl) hcalm) fun h decision hcalm => ?_
  refine Lets.bind (lets_clarificationGate _ _ _ _ _ _ hcalm) fun h prompt hcalm => ?_
  cases prompt with
  | some prompt => exact lets_done hcalm.of_fresh
  | none =>
    refine Lets.bind (lets_routeQuery _ _ _ _ hcalm) fun h response hcalm => ?_
    cases evaluateAbstentionForResponse router.settings response traceId with
    | some abstention => exact lets_done hcalm
    | none => exact Lets.bind (lets_recordAnswered _ _ _ hcalm) fun h _ hcalm => lets_done hcalm

end Queries

end RagSystem.EscapedExceptions
