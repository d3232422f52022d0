import Mathlib.Data.Finset.Dedup
import RagSystem.ProgramEndings
import RagSystem.SearchFilters

/-!
# The scope of a question and its conversation

A caller who is no operator is given a list of the documents they own before the
conversation is looked at. The list is never absent, so a scope that the
conversation carries is not inherited, and it is validated like a list the user
sent, so it may be too long.
-/

namespace RagSystem.OwnerScopes

open AtomicProgram ProgramPaths ProgramContracts ProgramEndings DocumentModels QueryModels AskCalls Conversations
  AgenticRouter RouterCalls SearchFilters

set_option autoImplicit false

section Statement

/-- What a question finds: the documents, and what reading its conversation
shows, if the read goes through. Everything else is arbitrary. -/
structure ScopeWorld where
  /-- The listed documents. -/
  documents : List DocumentRecord
  /-- The conversation. -/
  conversation : Option (Stored ConversationRecord)

/-- Pydantic refused a document scope. -/
def IsScopeError : AskError → Prop
  | .validation _ errors => ∃ text, ("document_ids", text) ∈ errors
  | _ => False

/-- The call's answer is one this world gives; no call refuses a scope by
itself. -/
def Reads (w : ScopeWorld) (e : AskEvent) : Prop :=
  (∀ x, e.answer = .error x → ¬ IsScopeError x) ∧
    match e with
    | ⟨.listDocuments, .ok documents⟩ => documents = w.documents
    | ⟨.getConversation _, .ok stored⟩ => w.conversation = some stored
    | ⟨.getConversation _, .error _⟩ => w.conversation = none
    | _ => True

/-- What `ask` does with a question until the passages are searched: the scope,
the conversation and the request to the document pipeline. -/
def scopedQuery (router : Router) (user : UserPublic) (request : UnifiedQueryRequest) : Ask QueryRequest := do
  let documentIds ← scopedDocumentIds router.settings request.documentIds user
  let (effective, _) ← prepareConversation router { request with documentIds }
  queryRequest effective.question effective.documentIds

variable (router : Router) (w : ScopeWorld) (user : UserPublic) (request : UnifiedQueryRequest)

/-- The caller may read every document. -/
def Unrestricted (settings : AskSettings) (user : UserPublic) : Prop :=
  settings.authEnabled = false ∨ resolveIsOperator user settings = true

instance (settings : AskSettings) : Decidable (Unrestricted settings user) := inferInstanceAs (Decidable (_ ∨ _))

/-- Those of these documents that the caller may read. -/
def restricted (ids : List DocumentId) : List DocumentId :=
  if Unrestricted router.settings user then ids else ids.filter (ownedIds w.documents user).contains

/-- The scope of a stored conversation. -/
def storedScope : Option (Stored ConversationRecord) → Option (List DocumentId)
  | some (.valid record) => record.documentIds
  | _ => none

/-- The scope that the conversation of a question carries. -/
def carriedScope : Option (List DocumentId) :=
  if router.conversations ∧ (request.conversationId.filter (· ≠ "")).isSome then storedScope w.conversation else none

/-- What is to be searched when the question names no documents. -/
def defaultScope : Option (List DocumentId) :=
  match carriedScope router w request with
  | some ids => some (restricted router w user ids)
  | none => if Unrestricted router.settings user then none else some (ownedIds w.documents user)

/-- What is to be searched. -/
def wantedScope : Option (List DocumentId) :=
  match request.documentIds with
  | some (id :: ids) => some (restricted router w user (id :: ids))
  | _ => defaultScope router w user request

/-- The filters let the same documents through. -/
def SameFilter (scope scope' : Option (List DocumentId)) : Prop := scope.map List.toFinset = scope'.map List.toFinset

/-- The computed scope is not refused, and it is the wanted one. -/
def Exact (r : Except AskError QueryRequest) : Prop :=
  (∀ x, r = .error x → ¬ IsScopeError x) ∧
    ∀ ragRequest, r = .ok ragRequest → SameFilter ragRequest.documentIds (wantedScope router w user request)

/-- Where the scope comes out right, told from the request, the conversation and
the documents alone. -/
def ScopeFits : Prop :=
  match request.documentIds with
  | some (_ :: _) => True
  | some [] =>
    if Unrestricted router.settings user then carriedScope router w request = some []
    else (sortedSet (ownedIds w.documents user)).length ≤ maxDocumentIds ∧
      ∀ ids, carriedScope router w request = some ids → ∀ id ∈ ownedIds w.documents user, id ∈ ids
  | none =>
    if Unrestricted router.settings user then
      ∀ ids, carriedScope router w request = some ids → ids.length ≤ maxDocumentIds
    else (sortedSet (ownedIds w.documents user)).length ≤ maxDocumentIds ∧
      ∀ ids, carriedScope router w request = some ids → ∀ id ∈ ownedIds w.documents user, id ∈ ids

end Statement

section Computed

variable {router : Router} {w : ScopeWorld} {user : UserPublic} {request : UnifiedQueryRequest}

/-- What `_scoped_document_ids` makes of a request. -/
def scopedIds (settings : AskSettings) (w : ScopeWorld) (user : UserPublic) (asked : Option (List DocumentId)) :
    Option (List DocumentId) :=
  if Unrestricted settings user then asked
  else match asked with
    | some (id :: ids) => some ((id :: ids).filter (ownedIds w.documents user).contains)
    | _ => some (sortedSet (ownedIds w.documents user))

/-- What the conversation makes of that. -/
def inherited (given carried : Option (List DocumentId)) : Option (List DocumentId) :=
  match given with
  | some ids => some ids
  | none => carried

/-- The scope that is searched. -/
def effectiveScope (router : Router) (w : ScopeWorld) (user : UserPublic) (request : UnifiedQueryRequest) :
    Option (List DocumentId) :=
  inherited (scopedIds router.settings w user request.documentIds) (carriedScope router w request)

/-- A scope is let through when it is not too long. -/
theorem documentIdsErrors_eq_nil {scope : Option (List DocumentId)} :
    documentIdsErrors scope = [] ↔ ∀ ids, scope = some ids → ids.length ≤ maxDocumentIds := by
  cases scope with
  | none => simp [documentIdsErrors]
  | some ids => simp [documentIdsErrors]

/-- A refused constructor refused the scope only if the scope is too long. -/
theorem isScopeError_validation {model question : String} {scope : Option (List DocumentId)} :
    IsScopeError (.validation model (questionErrors question ++ documentIdsErrors scope)) ↔ documentIdsErrors scope ≠ [] := by
  have hquestion : ∀ text, ("document_ids", text) ∉ questionErrors question := by
    intro text hin
    unfold questionErrors at hin
    split at hin
    · simp at hin
    · split at hin <;> simp at hin
  constructor
  · rintro ⟨text, hin⟩ hnone
    rw [hnone, List.append_nil] at hin
    exact hquestion text hin
  · intro hsome
    unfold documentIdsErrors at hsome ⊢
    split at hsome
    · next hlong =>
      rw [if_pos hlong]
      exact ⟨_, List.mem_append_right _ (List.mem_singleton_self _)⟩
    · exact absurd rfl hsome

/-- Two given scopes let the same documents through when they have the same
members. -/
theorem sameFilter_some {ids ids' : List DocumentId} : SameFilter (some ids) (some ids') ↔ ∀ id, id ∈ ids ↔ id ∈ ids' := by
  simp [SameFilter, Finset.ext_iff]

/-- The members of the sorted set. -/
theorem mem_sortedSet {ids : List DocumentId} {id : DocumentId} : id ∈ sortedSet ids ↔ id ∈ ids := by simp [sortedSet]

/-- All of the user's documents are wanted where the conversation leaves none
of them out. -/
theorem sameFilter_owned (w : ScopeWorld) (request : UnifiedQueryRequest) (hrestricted : ¬ Unrestricted router.settings user) :
    SameFilter (some (sortedSet (ownedIds w.documents user))) (defaultScope router w user request) ↔
      ∀ ids, carriedScope router w request = some ids → ∀ id ∈ ownedIds w.documents user, id ∈ ids := by
  unfold defaultScope
  cases carriedScope router w request with
  | none =>
    have hall : SameFilter (some (sortedSet (ownedIds w.documents user))) (some (ownedIds w.documents user)) :=
      sameFilter_some.mpr fun id => mem_sortedSet
    simp [hrestricted, hall]
  | some ids =>
    simp only [restricted, if_neg hrestricted, sameFilter_some, mem_sortedSet, List.mem_filter, List.contains_iff_mem]
    constructor
    · intro hsame ids' hids id hid
      injection hids with hids
      rw [← hids]
      exact ((hsame id).mp hid).1
    · intro hleft id
      constructor
      · intro hid
        exact ⟨hleft ids rfl id hid, hid⟩
      · exact fun hid => hid.2

/-- The scope that is searched is short enough and wanted where it is told to
be. -/
theorem scopeFits_iff (hvalid : documentIdsErrors request.documentIds = []) :
    ScopeFits router w user request ↔ documentIdsErrors (effectiveScope router w user request) = [] ∧
      SameFilter (effectiveScope router w user request) (wantedScope router w user request) := by
  rw [documentIdsErrors_eq_nil] at hvalid ⊢
  unfold ScopeFits effectiveScope wantedScope scopedIds
  by_cases hun : Unrestricted router.settings user
  · simp only [if_pos hun]
    match hasked : request.documentIds with
    | some (id :: ids) =>
      have hshort := hvalid _ hasked
      simp only [inherited, restricted, if_pos hun, Option.some.injEq, forall_eq', SameFilter, and_true, true_iff]
      exact hshort
    | some [] =>
      cases hcarried : carriedScope router w request with
      | none => simp [inherited, defaultScope, hun, hcarried, SameFilter]
      | some ids =>
        have hnone : SameFilter (some []) (some ids) ↔ ids = [] := by
          rw [sameFilter_some, List.eq_nil_iff_forall_not_mem]
          simp
        simp [inherited, defaultScope, restricted, hun, hcarried, hnone]
    | none =>
      cases hcarried : carriedScope router w request with
      | none => simp [inherited, defaultScope, hun, hcarried, SameFilter]
      | some ids => simp [inherited, defaultScope, restricted, hun, hcarried, SameFilter]
  · simp only [if_neg hun]
    have howned := sameFilter_owned w request hun
    match hasked : request.documentIds with
    | some (id :: ids) =>
      have hshort := hvalid _ hasked
      have hfewer := List.length_filter_le (ownedIds w.documents user).contains (id :: ids)
      have hfits := hfewer.trans hshort
      simp only [inherited, restricted, if_neg hun, Option.some.injEq, forall_eq', SameFilter, and_true]
      simpa using hfits
    | some [] => simp only [inherited, Option.some.injEq, forall_eq', howned]
    | none => simp only [inherited, Option.some.injEq, forall_eq', howned]

end Computed

section Runs

variable {router : Router} {w : ScopeWorld} {user : UserPublic} {request : UnifiedQueryRequest} {answered : Prop}
  {F : Option (List DocumentId) → Prop} {α β : Type} {h : AskHistory}

/-- The calls the scope rests on are answered, and nothing is rewritten. -/
def Prompt : AskEvent → Prop
  | ⟨.listDocuments, r⟩ => ∃ documents, r = .ok documents
  | ⟨.utcnow, r⟩ => ∃ now, r = .ok now
  | ⟨.uuid4, r⟩ => ∃ id, r = .ok id
  | ⟨.rewrite _ _, r⟩ => r = .ok ""
  | _ => True

/-- A step returns as `P` says and refuses a scope only if the searched one is
too long; where the calls are answered it raises nothing else. -/
def Scoping (router : Router) (w : ScopeWorld) (user : UserPublic) (request : UnifiedQueryRequest) (answered : Prop)
    (P : α → Prop) : Except AskError α → Prop
  | .ok a => P a
  | .error x =>
    (IsScopeError x → documentIdsErrors (effectiveScope router w user request) ≠ []) ∧ (answered → IsScopeError x)

/-- In this world the program is such a step, and searches as `F` says. -/
abbrev Computes (router : Router) (w : ScopeWorld) (user : UserPublic) (request : UnifiedQueryRequest) (answered : Prop)
    (F : Option (List DocumentId) → Prop) (P : α → Prop) (p : Ask α) (h : AskHistory) : Prop :=
  Ensures (fun _ e => Reads w e ∧ (answered → Prompt e)) (fun _ e => Filtered F e)
    (fun _ r => Scoping router w user request answered P r) p h

/-- Steps in sequence. -/
theorem computes_bind {P : α → Prop} {P' : β → Prop} {p : Ask α} {f : α → Ask β}
    (hp : Computes router w user request answered F P p h)
    (hf : ∀ h a, P a → Computes router w user request answered F P' (f a) h) :
    Computes router w user request answered F P' (p.bind f) h := by
  refine Ensures.bind hp (fun h a ha => hf h a ha) fun h x hx => ?_
  exact hx

/-- A step that only returns. -/
theorem computes_pure {P : α → Prop} {a : α} (ha : P a) : Computes router w user request answered F P (pure a) h :=
  Ensures.done ha

/-- A call that does not search and is answered. -/
theorem computes_call (x : AskCall) (hx : Unsearched x) {P : AskAnswer x → Prop}
    (hP : ∀ a, Reads w ⟨x, .ok a⟩ → P a) (hprompt : ∀ error, ¬ Prompt ⟨x, .error error⟩) :
    Computes router w user request answered F P (call x) h := by
  refine Ensures.perform fun r hreads => ⟨?_, ?_⟩
  · cases x with
    | indexQuery _ _ _ _ => exact False.elim hx
    | _ => trivial
  · cases r with
    | ok a => exact hP a hreads.1
    | error x =>
      have hscope := hreads.1.1 x rfl
      exact ⟨fun hx => absurd hx hscope, fun hanswered => absurd (hreads.2 hanswered) (hprompt x)⟩

/-- A handled call that does not search. -/
theorem computes_attempt (x : AskCall) (hx : Unsearched x) {P : AskAnswer x → Prop} {default : AskAnswer x}
    (hok : ∀ a, Reads w ⟨x, .ok a⟩ → (answered → Prompt ⟨x, .ok a⟩) → P a)
    (hfailed : ∀ error, Reads w ⟨x, .error error⟩ → (answered → Prompt ⟨x, .error error⟩) → P default) :
    Computes router w user request answered F P (tryCatch (call x) fun _ => pure default) h := by
  have hcall : Ensures (fun _ e => Reads w e ∧ (answered → Prompt e)) (fun _ e => Filtered F e)
      (fun _ r => (∀ a, r = .ok a → P a) ∧ ((∃ error, r = .error error) → P default)) (call x) h := by
    refine Ensures.perform fun r hreads => ⟨?_, ?_⟩
    · cases x with
      | indexQuery _ _ _ _ => exact False.elim hx
      | _ => trivial
    · constructor
      · intro a ha
        subst ha
        exact hok a hreads.1 hreads.2
      · intro hr
        cases hr with
        | intro error hr =>
          subst hr
          exact hfailed error hreads.1 hreads.2
  refine Ensures.catchError hcall (fun h a ha => ha.1 a rfl) fun h error hfail => ?_
  exact computes_pure (hfail.2 ⟨error, rfl⟩)

/-- A constructor that takes the searched scope. -/
theorem computes_validated {model question : String} {scope : Option (List DocumentId)} {value : α}
    (hscope : scope = effectiveScope router w user request) (hquestion : answered → questionErrors question = []) :
    Computes router w user request answered F (fun a => a = value ∧ documentIdsErrors scope = [])
      (validated model (questionErrors question ++ documentIdsErrors scope) value) h := by
  unfold validated
  split
  · next hnone => exact computes_pure ⟨rfl, (List.append_eq_nil_iff.mp hnone).2⟩
  · next hsome =>
    refine Ensures.raise ⟨fun hrefused => ?_, fun hanswered => ?_⟩
    · rw [← hscope]
      exact isScopeError_validation.mp hrefused
    · refine isScopeError_validation.mpr fun hshort => hsome ?_
      rw [hquestion hanswered, hshort, List.append_nil]

/-- The scope of the caller. -/
theorem computes_scopedDocumentIds :
    Computes router w user request answered F (fun scope => scope = scopedIds router.settings w user request.documentIds)
      (scopedDocumentIds router.settings request.documentIds user) h := by
  unfold scopedDocumentIds
  by_cases hun : router.settings.authEnabled = false ∨ resolveIsOperator user router.settings = true
  · have hscope : scopedIds router.settings w user request.documentIds = request.documentIds := if_pos hun
    rw [if_pos hun, hscope]
    exact computes_pure rfl
  · have hunrestricted : ¬ Unrestricted router.settings user := hun
    unfold scopedIds
    rw [if_neg hun, if_neg hunrestricted]
    have hlist : Computes router w user request answered F (fun documents => documents = w.documents) (call .listDocuments) h :=
      computes_call .listDocuments trivial (fun documents hreads => hreads.2) fun error hprompt => nomatch hprompt
    refine computes_bind hlist fun h documents hdocuments => ?_
    subst hdocuments
    generalize request.documentIds = asked
    match asked with
    | none => exact computes_pure rfl
    | some [] => exact computes_pure rfl
    | some (id :: ids) => exact computes_pure rfl

/-- What reading a conversation shows of its scope. -/
theorem computes_load {conversationId : String} :
    Computes router w user request answered F
      (fun found => found.bind ConversationRecord.documentIds = storedScope w.conversation) (load conversationId) h := by
  have hread : Computes router w user request answered F
      (fun payload => storedScope (some payload) = storedScope w.conversation)
      (tryCatch (call (.getConversation conversationId)) fun _ => pure .absent) h := by
    refine computes_attempt (.getConversation conversationId) trivial (fun payload hreads _ => ?_) fun error hreads _ => ?_
    · have hstored : w.conversation = some payload := hreads.2
      rw [hstored]
    · have hnone : w.conversation = none := hreads.2
      rw [hnone]
      rfl
  refine computes_bind hread fun h payload hpayload => ?_
  cases payload with
  | absent => exact computes_pure hpayload
  | invalid => exact computes_pure hpayload
  | valid record => exact computes_pure hpayload

/-- The scope of the conversation is inherited as it is carried. -/
theorem computes_conversationOf (hconversations : router.conversations = true) {scope : Option (List DocumentId)} :
    Computes router w user request answered F
      (fun conversation => inherited scope conversation.documentIds = inherited scope (carriedScope router w request))
      (conversationOf { request with documentIds := scope }) h := by
  have hstored : Computes router w user request answered F
      (fun found => found.bind ConversationRecord.documentIds = carriedScope router w request)
      (storedConversation { request with documentIds := scope }) h := by
    unfold storedConversation carriedScope
    cases hid : request.conversationId.filter (· ≠ "") with
    | none => exact computes_pure (by simp)
    | some id => simpa [hconversations] using computes_load
  refine computes_bind hstored fun h found hfound => ?_
  rw [← hfound]
  cases found with
  | some conversation => exact computes_pure rfl
  | none =>
    have hnow : Computes router w user request answered F (fun _ => True) (call .utcnow) h :=
      computes_call .utcnow trivial (fun _ _ => trivial) fun error hprompt => nomatch hprompt
    refine computes_bind hnow fun h now _ => ?_
    have hid : Computes router w user request answered F (fun _ => True)
        (conversationIdOf { request with documentIds := scope }) h := by
      unfold conversationIdOf
      split
      · exact computes_pure trivial
      · exact computes_call .uuid4 trivial (fun _ _ => trivial) fun error hprompt => nomatch hprompt
    refine computes_bind hid fun h id _ => computes_pure ?_
    cases scope with
    | none => rfl
    | some ids => rfl

/-- Where nothing is rewritten, the question stays. -/
theorem computes_rewriteFollowUp {settings : AskSettings} {question : String} {priorTurns : List ConversationTurn} :
    Computes router w user request answered F (fun rewritten => answered → rewritten = none)
      (rewriteFollowUp settings question priorTurns) h := by
  unfold rewriteFollowUp
  split
  · exact computes_pure fun _ => rfl
  · have hraw : Computes router w user request answered F (fun raw => answered → raw = "")
        (tryCatch (call (.rewrite question priorTurns)) fun _ => pure "") h := by
      refine computes_attempt (.rewrite question priorTurns) trivial (fun raw _ hprompt hanswered => ?_) fun error _ _ _ => rfl
      have hraw := hprompt hanswered
      injection hraw
    refine computes_bind hraw fun h raw hempty => computes_pure fun hanswered => ?_
    have hstrip : strip "" = "" := by decide
    rw [hempty hanswered, if_neg fun hcandidate => hcandidate.1 hstrip]

/-- The conversation leaves the searched scope in the request. -/
theorem computes_prepareConversation (hvalid : questionErrors request.question = []) :
    Computes router w user request answered F
      (fun p => p.1.documentIds = effectiveScope router w user request ∧
        (answered → questionErrors p.1.question = []))
      (prepareConversation router
        { request with documentIds := scopedIds router.settings w user request.documentIds }) h := by
  unfold prepareConversation
  split
  · next hconversations =>
    have hprepare : Computes router w user request answered F
        (fun prepared => prepared.effectiveRequest.documentIds = effectiveScope router w user request ∧
          (answered → questionErrors prepared.effectiveRequest.question = []))
        (prepare router.settings
          { request with documentIds := scopedIds router.settings w user request.documentIds }) h := by
      refine computes_bind (computes_conversationOf hconversations) fun h conversation hcarried => ?_
      refine computes_bind computes_rewriteFollowUp fun h rewritten hsame => ?_
      have hquestion : answered → questionErrors (rewritten.getD request.question) = [] := by
        intro hanswered
        rw [hsame hanswered]
        exact hvalid
      refine computes_bind (computes_validated hcarried hquestion) fun h effective heffective => computes_pure ?_
      rw [heffective.1]
      exact ⟨hcarried, hquestion⟩
    refine computes_bind hprepare fun h prepared hprepared => computes_pure hprepared
  · next hnone =>
    refine computes_pure ⟨?_, fun _ => hvalid⟩
    have hcarried : carriedScope router w request = none := by simp [carriedScope, hnone]
    rw [effectiveScope, hcarried]
    cases scopedIds router.settings w user request.documentIds with
    | none => rfl
    | some ids => rfl

/-- The searched scope is asked for, if it is short enough. -/
theorem computes_scopedQuery (hvalid : questionErrors request.question = []) :
    Computes router w user request answered F
      (fun ragRequest => ragRequest.documentIds = effectiveScope router w user request ∧
        documentIdsErrors (effectiveScope router w user request) = [])
      (scopedQuery router user request) h := by
  refine computes_bind computes_scopedDocumentIds fun h scope hscope => ?_
  subst hscope
  refine computes_bind (computes_prepareConversation hvalid) fun h p hp => ?_
  obtain ⟨effective, prepared⟩ := p
  have hasked : Computes router w user request answered F
      (fun a => a = QueryRequest.mk effective.question effective.documentIds ∧ documentIdsErrors effective.documentIds = [])
      (queryRequest effective.question effective.documentIds) h := computes_validated hp.1 hp.2
  refine hasked.ending fun h r hr => ?_
  cases r with
  | error x => exact hr
  | ok ragRequest =>
    have hvalue := hr.1
    subst hvalue
    refine ⟨hp.1, ?_⟩
    rw [← hp.1]
    exact hr.2

/-- What every run of the steps comes to. -/
theorem scoping_of_ends {r : Except AskError QueryRequest} (hvalid : questionErrors request.question = [])
    (hends : Ends (scopedQuery router user request) h r) (hreads : ∀ e ∈ h, Reads w e ∧ (answered → Prompt e)) :
    Scoping router w user request answered
      (fun ragRequest => ragRequest.documentIds = effectiveScope router w user request ∧
        documentIdsErrors (effectiveScope router w user request) = []) r := by
  have hcode : Computes router w user request answered (fun _ => True)
      (fun ragRequest => ragRequest.documentIds = effectiveScope router w user request ∧
        documentIdsErrors (effectiveScope router w user request) = []) (scopedQuery router user request) [] :=
    computes_scopedQuery hvalid
  have hlast := (hcode.along hends fun h' e es' he => hreads e (by simp [he])).1
  cases r with
  | ok a => exact hlast.of_done
  | error x => exact hlast.of_raise

/-- What a step returns, whatever is answered. -/
theorem searches_of_computes {P : α → Prop} {p : Ask α} (hp : Computes router w user request False F P p h) :
    Searches (Reads w) F P p h := by
  have hsame : Reads w = fun e => Reads w e ∧ (False → Prompt e) := by
    funext e
    simp
  rw [hsame]
  refine hp.ending fun h r hr a ha => ?_
  subst ha
  exact hr

/-- Every search for the question gets the searched scope. -/
theorem scopes_effective (hvalid : questionErrors request.question = [])
    (hF : F (effectiveScope router w user request)) : Scopes (Reads w) F router user request := by
  intro h
  refine (searches_of_computes computes_scopedDocumentIds).ending fun h r hr scope hscope h => ?_
  have hscope := hr scope hscope
  subst hscope
  refine (searches_of_computes (computes_prepareConversation hvalid)).ending fun h r hr p hp => ?_
  have hsearched := (hr p hp).1
  show F p.1.documentIds
  rw [hsearched]
  exact hF

end Runs

section Calm

variable {router : Router} {w : ScopeWorld} {user : UserPublic} {request : UnifiedQueryRequest}

/-- Everything the scope rests on answers. -/
def calm (w : ScopeWorld) : Behaviour AskError AskAnswer
  | .listDocuments => .ok w.documents
  | .getConversation _ =>
    match w.conversation with
    | some stored => .ok stored
    | none => .error (.runtime "the store is unreachable")
  | .utcnow => .ok 0
  | .uuid4 => .ok "6f1c"
  | .rewrite _ _ => .ok ""
  | _ => .error (.runtime "not called")

/-- And as in this world. -/
theorem reads_calm (w : ScopeWorld) (x : AskCall) : Reads w ⟨x, calm w x⟩ ∧ Prompt ⟨x, calm w x⟩ := by
  cases x with
  | getConversation id =>
    cases hstored : w.conversation with
    | none => simp [Reads, Prompt, calm, hstored, IsScopeError]
    | some stored => simp [Reads, Prompt, calm, hstored]
  | _ => simp [Reads, Prompt, calm, IsScopeError]

/-- The steps come to the searched scope, or it is refused. -/
theorem scoping_calm (router : Router) (w : ScopeWorld) (user : UserPublic) (hvalid : questionErrors request.question = []) :
    ∃ h r, Ends (scopedQuery router user request) h r ∧ (∀ e ∈ h, Reads w e) ∧
      Scoping router w user request True
        (fun ragRequest => ragRequest.documentIds = effectiveScope router w user request ∧
          documentIdsErrors (effectiveScope router w user request) = []) r := by
  have hends := ends_against (calm w) (scopedQuery router user request)
  have hreads : ∀ e ∈ (Program.against (calm w) (scopedQuery router user request)).1, Reads w e ∧ (True → Prompt e) := by
    intro e he
    obtain ⟨x, answer⟩ := e
    have hanswer := answer_against (calm w) (scopedQuery router user request) _ he
    simp only at hanswer
    subst hanswer
    exact ⟨(reads_calm w x).1, fun _ => (reads_calm w x).2⟩
  exact ⟨_, _, hends, fun e he => (hreads e he).1, scoping_of_ends hvalid hends hreads⟩

/-- Every run comes out exactly right where the searched scope is the wanted
one and not too long, and only there. -/
theorem exact_iff (hvalid : questionErrors request.question = []) :
    (∀ h r, Ends (scopedQuery router user request) h r → (∀ e ∈ h, Reads w e) → Exact router w user request r) ↔
      documentIdsErrors (effectiveScope router w user request) = [] ∧
        SameFilter (effectiveScope router w user request) (wantedScope router w user request) := by
  constructor
  · intro hexact
    obtain ⟨h, r, hends, hreads, hscoping⟩ := scoping_calm router w user hvalid
    have hright := hexact h r hends hreads
    cases r with
    | error x =>
      have hrefused := hscoping.2 trivial
      exact absurd hrefused (hright.1 x rfl)
    | ok ragRequest =>
      have hsame := hright.2 ragRequest rfl
      rw [hscoping.1] at hsame
      exact ⟨hscoping.2, hsame⟩
  · intro hfits h r hends hreads
    have hall : ∀ e ∈ h, Reads w e ∧ (False → Prompt e) := fun e he => ⟨hreads e he, False.elim⟩
    have hscoping := scoping_of_ends hvalid hends hall
    constructor
    · intro x hx
      subst hx
      exact fun hrefused => hscoping.1 hrefused hfits.1
    · intro ragRequest hr
      subst hr
      rw [hscoping.1]
      exact hfits.2

end Calm

section Results

variable (router : Router) (w : ScopeWorld) (user : UserPublic) (request : UnifiedQueryRequest)

/-- The scope of a question comes out exactly right, whatever the models
answer, where the condition says so and only there; every passage search for
the question is then filtered by it. -/
theorem scope_exact_iff (hquestion : questionErrors request.question = [])
    (hscope : documentIdsErrors request.documentIds = []) :
    ((∀ h r, Ends (scopedQuery router user request) h r → (∀ e ∈ h, Reads w e) → Exact router w user request r) ↔
        ScopeFits router w user request) ∧
      (ScopeFits router w user request →
        Searches (Reads w) (fun filter => SameFilter filter (wantedScope router w user request)) (fun _ => True)
            (ask router user request) [] ∧
          Searches (Reads w) (fun filter => SameFilter filter (wantedScope router w user request)) (fun _ => True)
            (askStream router user request) []) := by
  constructor
  · rw [exact_iff hquestion, scopeFits_iff hscope]
  · intro hfits
    have hsame := ((scopeFits_iff hscope).mp hfits).2
    have hscopes : Scopes (Reads w) (fun filter => SameFilter filter (wantedScope router w user request)) router user
        request := scopes_effective hquestion hsame
    exact ⟨searches_ask hscopes, searches_askStream hscopes⟩

/-- A router with conversations. -/
def sampleRouter : Router := ⟨sampleSettings, false, [], true, true⟩

/-- A user with two documents, and a conversation about the first. -/
def sampleWorld : ScopeWorld where
  documents :=
    [⟨"d1", "Margins", "v", "gs://b/d1", .indexed, none, some "v", some sampleUser.email⟩,
      ⟨"d2", "Travel", "v", "gs://b/d2", .indexed, none, some "v", some sampleUser.email⟩]
  conversation := some (.valid ⟨"c", 0, 0, some ["d1"], []⟩)

/-- The user goes on with it. -/
def followUp : UnifiedQueryRequest := { question := "And last year?", conversationId := some "c" }

theorem scope_exact_sample : (∀ h r, Ends (scopedQuery sampleRouter sampleUser followUp) h r →
    (∀ e ∈ h, Reads sampleWorld e) → Exact sampleRouter sampleWorld sampleUser followUp r) ↔
      ScopeFits sampleRouter sampleWorld sampleUser followUp :=
  (scope_exact_iff sampleRouter sampleWorld sampleUser followUp (by decide) (by decide)).1

/-- The follow-up does not keep to the document its conversation is about. -/
theorem followUp_widened : questionErrors followUp.question = [] ∧ documentIdsErrors followUp.documentIds = [] ∧
    ¬ ∀ h r, Ends (scopedQuery sampleRouter sampleUser followUp) h r → (∀ e ∈ h, Reads sampleWorld e) →
      Exact sampleRouter sampleWorld sampleUser followUp r := by
  have hquestion : questionErrors followUp.question = [] := by decide
  have hscope : documentIdsErrors followUp.documentIds = [] := by decide
  refine ⟨hquestion, hscope, fun hexact => ?_⟩
  have hsame := ((exact_iff hquestion).mp hexact).2
  have hrestricted : ¬ Unrestricted sampleRouter.settings sampleUser := by decide
  have hleft := (sameFilter_owned sampleWorld followUp hrestricted).mp hsame
  have howned : "d2" ∈ ownedIds sampleWorld.documents sampleUser := by decide
  have hin := hleft ["d1"] rfl "d2" howned
  exact absurd hin (by decide)

end Results

end RagSystem.OwnerScopes
