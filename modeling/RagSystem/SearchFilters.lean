import RagSystem.RouterCalls

/-!
# What the vector searches are filtered by

The scope of a request goes through its conversation and its route to the
filter of the search. What is known of the scope is then known of the filter
of every search.
-/

namespace RagSystem.SearchFilters

open AtomicProgram ProgramPaths ProgramContracts DocumentModels QueryModels AskCalls Conversations AgenticRouter
  RouterCalls

set_option autoImplicit false

variable {R : AskEvent → Prop} {F : Option (List DocumentId) → Prop} {α β : Type} {h : AskHistory}

/-- A vector search gets such a filter. -/
def Filtered (F : Option (List DocumentId) → Prop) (e : AskEvent) : Prop :=
  match e.action with
  | .indexQuery _ _ filter _ => F filter
  | _ => True

/-- Against answers as `R` says, every search gets a filter as `F` says, and
what is returned is as `P` says. -/
abbrev Searches (R : AskEvent → Prop) (F : Option (List DocumentId) → Prop) (P : α → Prop) (p : Ask α)
    (h : AskHistory) : Prop :=
  Ensures (fun _ e => R e) (fun _ e => Filtered F e) (Returns fun _ a => P a) p h

/-- Any call but a search. -/
def Unsearched : AskCall → Prop
  | .indexQuery _ _ _ _ => False
  | _ => True

theorem unsearched_of_around (x : AskCall) (hx : Around x) : Unsearched x := by
  cases x with
  | indexQuery _ _ _ _ => exact hx
  | _ => trivial

/-- A program that does not search. -/
theorem searches_of_unsearched {p : Ask α} (hp : p.Uses Unsearched) : Searches R F (fun _ => True) p h := by
  have hall : Ensures (fun _ e => R e) (fun _ e => Filtered F e) (fun _ _ => True) p h := by
    refine Ensures.of_uses hp (fun h e hun _ _ => ⟨?_, trivial⟩) trivial
    obtain ⟨action, answer⟩ := e
    cases action with
    | indexQuery _ _ _ _ => exact False.elim hun
    | _ => trivial
  exact hall.ending fun _ _ _ _ _ => trivial

/-- After a program that does not search. -/
theorem searches_after {P : β → Prop} {p : Ask α} {f : α → Ask β} (hp : p.Uses Unsearched)
    (hf : ∀ h a, Searches R F P (f a) h) : Searches R F P (p.bind f) h :=
  Ensures.andThen (searches_of_unsearched hp) fun h a _ => hf h a

/-- After a program of which something is known. -/
theorem searches_bind {P : α → Prop} {P' : β → Prop} {p : Ask α} {f : α → Ask β} (hp : Searches R F P p h)
    (hf : ∀ h a, P a → Searches R F P' (f a) h) : Searches R F P' (p.bind f) h :=
  Ensures.andThen hp fun h a ha => hf h a (ha a rfl)

/-- A call that does not search returns what the world answers. -/
theorem searches_call {x : AskCall} (hx : Unsearched x) {P : AskAnswer x → Prop}
    (hP : ∀ a, R ⟨x, .ok a⟩ → P a) : Searches R F P (call x) h := by
  refine Ensures.perform fun r hreads => ⟨?_, fun a ha => ?_⟩
  · cases x with
    | indexQuery _ _ _ _ => exact False.elim hx
    | _ => trivial
  · subst ha
    exact hP a hreads

/-- A constructor returns its value, and nothing else. -/
theorem searches_validated {model : String} {errors : List (String × String)} {value : α} :
    Searches R F (fun a => a = value ∧ errors = []) (validated model errors value) h := by
  unfold validated
  split
  · next herrors => exact .returns ⟨rfl, herrors⟩
  · exact .raises

/-- The search gets the scope it is asked for. -/
theorem searches_search {vector : DenseVector} {topK : ℕ} {scope : Option (List DocumentId)}
    {sparseVector : Option SparseVector} (hscope : F scope) :
    Searches R F (fun _ => True) (search vector topK scope sparseVector) h := by
  have hcall : Searches R F (fun _ => True) (call (.indexQuery vector topK scope sparseVector)) h :=
    Ensures.perform fun _ _ => ⟨hscope, fun _ _ => trivial⟩
  match scope, hcall with
  | none, hcall => exact hcall
  | some [], _ => exact .returns trivial
  | some (_ :: _), hcall => exact hcall

/-- A query of the documents searches its own scope. -/
theorem searches_ragQuery {settings : AskSettings} {request : QueryRequest}
    (hscope : F request.documentIds) :
    Searches R F (fun _ => True) (ragQuery settings request) h := by
  have hsparse : (encodeSparse settings request.question).Uses Unsearched := by
    unfold encodeSparse
    split
    · exact Program.Uses.bind (uses_call trivial) fun _ => trivial
    · trivial
  have hretrieve : ∀ h, Searches R F (fun _ => True) (retrieve settings request) h := by
    intro h
    refine searches_after (uses_call trivial) fun h vector => searches_after hsparse fun h sparse => ?_
    refine searches_bind (searches_search hscope) fun h hits _ => searches_after (uses_call trivial) fun h active => ?_
    exact .returns trivial
  refine searches_after (uses_currentTraceId.mono unsearched_of_around) fun h traceId => ?_
  refine searches_bind (hretrieve h) fun h hits _ => searches_after (uses_call trivial) fun h response => ?_
  exact searches_after ((uses_submitTracePersist _).mono unsearched_of_around) fun h _ => .returns trivial

/-- Every route searches the scope of its request. -/
theorem searches_routeQuery {router : Router} {request : UnifiedQueryRequest} {decision : RoutingDecision}
    {traceId : String} (hscope : F request.documentIds) :
    Searches R F (fun _ => True) (routeQuery router request decision traceId) h := by
  unfold routeQuery
  cases decision.route with
  | rag =>
    refine searches_bind searches_validated fun h ragRequest hrag => ?_
    rw [hrag.1]
    exact searches_bind (searches_ragQuery hscope) fun h _ _ => .returns trivial
  | database =>
    refine searches_after (uses_validated _ _ _) fun h copilotRequest => searches_after (uses_call trivial) fun h c => ?_
    exact searches_after ((uses_submitTracePersist _).mono unsearched_of_around) fun h _ => .returns trivial
  | hybrid =>
    refine searches_bind searches_validated fun h ragRequest hrag => ?_
    refine searches_after (uses_validated _ _ _) fun h copilotRequest => ?_
    have hfuture : Searches R F (fun _ => True) (future (ragQuery router.settings ragRequest)) h := by
      refine Ensures.catchError (Q := Returns fun _ _ => True) ?_ (fun _ _ hq => hq) fun h e _ => .returns trivial
      rw [hrag.1]
      exact searches_bind (searches_ragQuery hscope) fun h _ _ => .returns trivial
    refine searches_bind hfuture fun h ragFuture _ => ?_
    have hcopilot : (future (call (.copilotQuery copilotRequest))).Uses Unsearched :=
      Program.Uses.catchError (Program.Uses.bind (uses_call trivial) fun _ => trivial) fun _ => trivial
    have hresult : ∀ {γ : Type} (r : Except AskError γ), (futureResult r).Uses Unsearched := by
      intro γ r
      cases r with
      | ok a => trivial
      | error e => trivial
    refine searches_after hcopilot fun h copilotFuture => searches_after (hresult _) fun h ragResponse => ?_
    refine searches_after (hresult _) fun h copilotResponse => ?_
    exact searches_after ((uses_mergedAnswer _ _ _ _).mono unsearched_of_around) fun h answer => .returns trivial

/-- A request with a scope keeps it through its conversation. -/
theorem searches_prepareConversation {router : Router} {request : UnifiedQueryRequest} {ids : List DocumentId}
    (hscope : request.documentIds = some ids) (hids : F (some ids)) :
    Searches R F (fun p => F p.1.documentIds) (prepareConversation router request) h := by
  unfold prepareConversation
  split
  · refine searches_bind (P := fun p => F p.effectiveRequest.documentIds) ?_ fun h p hp => .returns hp
    refine searches_after ((uses_conversationOf _).mono unsearched_of_around) fun h conversation => ?_
    refine searches_after ((uses_rewriteFollowUp _ _ _).mono unsearched_of_around) fun h rewritten => ?_
    refine searches_bind searches_validated fun h effective heffective => .returns ?_
    rw [heffective.1]
    simp only [hscope]
    exact hids
  · have hsame : F request.documentIds := by rwa [hscope]
    exact .returns hsame

/-- `query` searches the scope its conversation gives it. -/
theorem searches_query {router : Router} {request : UnifiedQueryRequest} {allowed : Bool}
    (hprepare : ∀ h, Searches R F (fun p => F p.1.documentIds) (prepareConversation router request) h) :
    Searches R F (fun _ => True) (query router request allowed) h := by
  refine searches_after (uses_currentTraceId.mono unsearched_of_around) fun h traceId => ?_
  refine searches_bind (hprepare h) fun h prepared hscope => ?_
  obtain ⟨effective, prepared⟩ := prepared
  refine searches_after (uses_call trivial) fun h decision => ?_
  refine searches_after ((uses_clarificationGate _ _ _ _ _ _).mono unsearched_of_around) fun h prompt => ?_
  cases prompt with
  | some prompt => exact .returns trivial
  | none =>
    refine searches_bind (searches_routeQuery hscope) fun h response _ => ?_
    split
    · exact .returns trivial
    · exact searches_after ((uses_recordAnswered _ _ _).mono unsearched_of_around) fun h _ => .returns trivial

/-- So does `query_stream`. -/
theorem searches_queryStream {router : Router} {request : UnifiedQueryRequest}
    (hprepare : ∀ h, Searches R F (fun p => F p.1.documentIds) (prepareConversation router request) h) :
    Searches R F (fun _ => True) (queryStream router request) h := by
  refine Ensures.generator ?_
  refine searches_after (uses_currentTraceId.mono unsearched_of_around) fun h traceId => ?_
  refine searches_bind (hprepare h) fun h prepared hscope => ?_
  obtain ⟨effective, prepared⟩ := prepared
  have hemit : ∀ event, (emit event).Uses Unsearched := fun event => uses_call trivial
  refine searches_after (hemit _) fun h _ => searches_after (uses_call trivial) fun h decision => ?_
  refine searches_after ((uses_clarificationGate _ _ _ _ _ _).mono unsearched_of_around) fun h prompt => ?_
  cases prompt with
  | some prompt => exact searches_of_unsearched (hemit _)
  | none =>
    refine searches_after (hemit _) fun h _ => searches_after (hemit _) fun h _ => ?_
    refine searches_bind (searches_routeQuery hscope) fun h response _ => searches_after (hemit _) fun h _ => ?_
    split
    · exact searches_of_unsearched (hemit _)
    · refine searches_after ((uses_recordAnswered _ _ _).mono unsearched_of_around) fun h _ => Ensures.dumped ?_
      exact searches_of_unsearched (hemit _)

/-- A handler that does not search. -/
theorem searches_catch {P : α → Prop} {p : Ask α} {f : AskError → Ask α} (hp : Searches R F P p h)
    (hf : ∀ h e, Searches R F P (f e) h) : Searches R F P (p.catchError f) h :=
  Ensures.catchError hp (fun _ _ hq => hq) fun h e _ => hf h e

section Endpoints

variable {router : Router} {user : UserPublic} {request : UnifiedQueryRequest}

/-- The scope of the caller, taken through the conversation, is as `F` says. -/
abbrev Scopes (R : AskEvent → Prop) (F : Option (List DocumentId) → Prop) (router : Router) (user : UserPublic)
    (request : UnifiedQueryRequest) : Prop :=
  ∀ h, Searches R F (fun documentIds => ∀ h, Searches R F (fun p => F p.1.documentIds)
    (prepareConversation router { request with documentIds }) h) (scopedDocumentIds router.settings request.documentIds user) h

/-- Then so is the filter of every search for the question. -/
theorem searches_ask (hscopes : Scopes R F router user request) : Searches R F (fun _ => True) (ask router user request) h := by
  refine searches_bind (hscopes h) fun h scope hprepare => ?_
  refine searches_catch ?_ fun h e => ?_
  · refine searches_bind (searches_query hprepare) fun h o _ => ?_
    cases o with
    | _ => exact .returns trivial
  · cases e with
    | _ => exact .raises

/-- And for the streamed one. -/
theorem searches_askStream (hscopes : Scopes R F router user request) :
    Searches R F (fun _ => True) (askStream router user request) h := by
  refine searches_bind (hscopes h) fun h scope hprepare => ?_
  refine searches_catch (searches_queryStream hprepare) fun h e => ?_
  have herror : ∀ detail, (emit (.error detail)).Uses Unsearched := fun detail => uses_call trivial
  cases e with
  | generatorExit => exact .returns trivial
  | _ => exact searches_of_unsearched (herror _)

end Endpoints

end RagSystem.SearchFilters
