import Mathlib.Data.List.Dedup
import RagSystem.SearchFilters

/-!
# Scoped retrieval

The document filter every vector search gets. The ask endpoints take their
scope from the caller; a clarification reply takes it from the stored record,
whoever that was issued to, and a record without a scope searches everything.
-/

namespace RagSystem.ScopedRetrieval

open AtomicProgram ProgramPaths ProgramContracts DocumentModels QueryModels AskCalls Conversations AgenticRouter
  RouterCalls SearchFilters

set_option autoImplicit false

section Statement

/-- What a request finds: the documents, the stored clarifications, and the
time it arrives. Conversations and everything else are arbitrary. -/
structure AskWorld where
  /-- The listed documents. -/
  documents : List DocumentRecord
  /-- The stored clarifications. -/
  clarifications : String → Stored ClarificationRecord
  /-- The time. -/
  now : ℕ

/-- The event's answer is one the world gives. -/
def Reads (w : AskWorld) (e : AskEvent) : Prop :=
  match e with
  | ⟨.listDocuments, .ok documents⟩ => documents = w.documents
  | ⟨.getClarification id, .ok stored⟩ => stored = w.clarifications id
  | ⟨.utcnow, .ok t⟩ => w.now ≤ t
  | _ => True

/-- The documents a request names. -/
def requestedIds : AskRequest → List DocumentId
  | .ask request => request.documentIds.getD []
  | .askStream request => request.documentIds.getD []
  | .askClarify _ => []

/-- A scope of the user's own documents, and of the requested ones if there are any. -/
def Own (w : AskWorld) (user : UserPublic) (requested : List DocumentId) (scope : Option (List DocumentId)) : Prop :=
  ∃ ids, scope = some ids ∧ ∀ id ∈ ids, id ∈ ownedIds w.documents user ∧ (requested ≠ [] → id ∈ requested)

/-- A vector search gets such a scope as its filter. -/
def Confined (w : AskWorld) (user : UserPublic) (requested : List DocumentId) (e : AskEvent) : Prop :=
  match e.action with
  | .indexQuery _ _ filter _ => Own w user requested filter
  | _ => True

/-- The reply is taken up: its record is stored and valid at this time, the
reply says something, and the combined question and the scope are admitted. -/
structure TakenUp (settings : AskSettings) (w : AskWorld) (request : ClarificationReplyRequest)
    (record : ClarificationRecord) : Prop where
  /-- The record is stored. -/
  stored : w.clarifications request.clarificationId = .valid record
  /-- It has not expired. -/
  unexpired : isExpired settings record.clarificationExpiry w.now = false
  /-- The reply is not blank. -/
  replied : strip request.reply ≠ ""
  /-- The combined question is not too long. -/
  question : (combineQuestionAndReply record.originalQuestion request.reply).length ≤ maxQuestionChars
  /-- Nor is the scope. -/
  scope : ∀ ids, record.documentScope = some ids → ids.length ≤ maxDocumentIds

/-- A clarification reply that is taken up names a record whose scope is a
list of the caller's documents. -/
def RecordedOwn (settings : AskSettings) (w : AskWorld) (user : UserPublic) : AskRequest → Prop
  | .askClarify request => ∀ record, TakenUp settings w request record → Own w user [] record.documentScope
  | _ => True

end Statement

section Confinement

variable {w : AskWorld} {user : UserPublic} {requested : List DocumentId} {α β : Type} {h : AskHistory}

/-- Against answers of the world, every search is confined and what is
returned is as `P` says. -/
abbrev Keeps (w : AskWorld) (user : UserPublic) (requested : List DocumentId) (P : α → Prop) (p : Ask α)
    (h : AskHistory) : Prop := Searches (Reads w) (Own w user requested) P p h

/-- The scope of a caller who is no operator is the caller's own. -/
theorem keeps_scopedDocumentIds {settings : AskSettings} (hauth : settings.authEnabled = true)
    (huser : resolveIsOperator user settings = false) (asked : Option (List DocumentId)) :
    Keeps w user (asked.getD []) (fun scope => Own w user (asked.getD []) scope)
      (scopedDocumentIds settings asked user) h := by
  have hconfined : ¬ (settings.authEnabled = false ∨ resolveIsOperator user settings = true) := by
    simp [hauth, huser]
  rw [scopedDocumentIds, if_neg hconfined]
  have hlisted : Keeps w user (asked.getD []) (fun documents => documents = w.documents) (call .listDocuments) h :=
    searches_call (x := .listDocuments) trivial fun documents hreads => hreads
  refine searches_bind hlisted fun h documents hdocuments => ?_
  rw [hdocuments]
  have hall : ∀ id ∈ sortedSet (ownedIds w.documents user), id ∈ ownedIds w.documents user := by
    intro id hid
    simpa [sortedSet] using hid
  match asked with
  | none => exact .returns ⟨_, rfl, fun id hid => ⟨hall id hid, fun hne => absurd rfl hne⟩⟩
  | some [] => exact .returns ⟨_, rfl, fun id hid => ⟨hall id hid, fun hne => absurd rfl hne⟩⟩
  | some (first :: rest) =>
    refine .returns ⟨_, rfl, fun id hid => ?_⟩
    have hmem := List.mem_filter.mp hid
    exact ⟨by simpa using hmem.2, fun _ => hmem.1⟩

/-- A loaded record is stored and has not expired. -/
theorem keeps_loadClarification {settings : AskSettings} {id : String} :
    Keeps w user requested (fun record => w.clarifications id = .valid record ∧
      isExpired settings record.clarificationExpiry w.now = false) (loadClarification settings id) h := by
  unfold loadClarification
  split
  · exact .raises
  · have hget : Keeps w user requested (fun stored => stored = w.clarifications id) (call (.getClarification id)) h :=
      searches_call (x := .getClarification id) trivial fun stored hreads => hreads
    refine searches_bind hget fun h payload hstored => ?_
    cases payload with
    | absent => exact .raises
    | invalid => exact .raises
    | valid record =>
      dsimp only
      split
      · exact .raises
      · next expiry hexpiry =>
        have hnow : Keeps w user requested (fun t => w.now ≤ t) (call .utcnow) h :=
          searches_call (x := .utcnow) trivial fun t hreads => hreads
        refine searches_bind hnow fun h now hlater => ?_
        split
        · exact .raises
        · next hvalid =>
          refine .returns ⟨hstored.symm, ?_⟩
          simp only [isExpired, hexpiry, decide_eq_true_eq, decide_eq_false_iff_not] at hvalid ⊢
          omega

/-- The answer path searches the scope it is given. -/
theorem keeps_answerPath {router : Router} {question : String} {scope : Option (List DocumentId)}
    (hown : question.length ≤ maxQuestionChars → (∀ ids, scope = some ids → ids.length ≤ maxDocumentIds) →
      Own w user requested scope) :
    Keeps w user requested (fun _ => True) (answerPath router question scope) h := by
  refine searches_bind searches_validated fun h req hreq => ?_
  obtain ⟨rfl, herrors⟩ := hreq
  obtain ⟨hquestion, hids⟩ := List.append_eq_nil_iff.mp herrors
  have hlength : question.length ≤ maxQuestionChars := by
    by_contra hlong
    have hpos : question.length ≠ 0 := by
      intro hzero
      rw [hzero] at hlong
      exact hlong (Nat.zero_le _)
    simp [questionErrors, hpos, Nat.lt_of_not_le hlong] at hquestion
  have hscope : ∀ ids, scope = some ids → ids.length ≤ maxDocumentIds := by
    intro ids heq
    by_contra hlong
    simp [documentIdsErrors, heq, Nat.lt_of_not_le hlong] at hids
  obtain ⟨ids, heq, hids⟩ := hown hlength hscope
  exact searches_query fun h => searches_prepareConversation heq ⟨ids, rfl, hids⟩

/-- A processed reply searches the scope of its record. -/
theorem keeps_process {router : Router} {request : ClarificationReplyRequest}
    (hrecorded : RecordedOwn router.settings w user (.askClarify request)) :
    Keeps w user [] (fun _ => True)
      (process router.settings (answerPath router) request.clarificationId request.reply) h := by
  refine searches_bind keeps_loadClarification fun h record hrecord => ?_
  split
  · exact .raises
  · next hreply =>
    have hpath : Keeps w user [] (fun _ => True) (answerPath router
        (combineQuestionAndReply record.originalQuestion request.reply) record.documentScope) h :=
      keeps_answerPath fun hquestion hscope =>
        hrecorded record ⟨hrecord.1, hrecord.2, hreply, hquestion, hscope⟩
    refine searches_bind hpath fun h o _ => ?_
    cases o with
    | clarification prompt => exact searches_of_unsearched ((uses_unresolvedAbstention _).mono unsearched_of_around)
    | answer response => exact .returns trivial
    | abstention response => exact .returns trivial

/-- Every endpoint, where a reply's recorded scope is the caller's own. -/
theorem keeps_serve {router : Router} (hauth : router.settings.authEnabled = true)
    (huser : resolveIsOperator user router.settings = false) {request : AskRequest}
    (hrecorded : RecordedOwn router.settings w user request) :
    Keeps w user (requestedIds request) (fun _ => True) (serve router user request) h := by
  have hscopes (request : UnifiedQueryRequest) :
      Scopes (Reads w) (Own w user (request.documentIds.getD [])) router user request := by
    refine fun h => (keeps_scopedDocumentIds hauth huser request.documentIds).ending fun h r hq scope hr h => ?_
    obtain ⟨ids, rfl, hids⟩ := hq scope hr
    exact searches_prepareConversation rfl ⟨ids, rfl, hids⟩
  cases request with
  | ask request => exact searches_bind (searches_ask (hscopes request)) fun h _ _ => .returns trivial
  | askStream request => exact searches_bind (searches_askStream (hscopes request)) fun h _ _ => .returns trivial
  | askClarify request =>
    have hclarify : Keeps w user [] (fun _ => True) (askClarify router request) h := by
      refine searches_catch (keeps_process hrecorded) fun h e => ?_
      cases e with
      | _ => exact .raises
    exact searches_bind hclarify fun h _ _ => .returns trivial

end Confinement

section Leak

variable {w : AskWorld} {user : UserPublic}

/-- Components that send every question to the documents, in this world. -/
def documentsBehaviour (w : AskWorld) : Behaviour AskError AskAnswer
  | .getTraceId => .ok (some "t")
  | .uuid4 => .ok "u"
  | .tokenUrlsafe => .ok "k"
  | .utcnow => .ok w.now
  | .listDocuments => .ok w.documents
  | .getConversation _ => .ok .absent
  | .putConversation _ => .ok ()
  | .getClarification id => .ok (w.clarifications id)
  | .createClarification _ => .ok ()
  | .rewrite _ _ => .ok ""
  | .classify _ _ => .ok { route := .rag, reasoning := "" }
  | .embedQuery _ => .ok []
  | .encodeQuery _ => .ok []
  | .indexQuery _ _ _ _ => .ok []
  | .filterToActiveVersions _ => .ok []
  | .generateAnswer _ _ traceId => .ok { answer := "", citations := [], evidenceStatus := "", traceId }
  | .copilotQuery _ => .error (.raised "")
  | .synthesizeHybrid _ _ _ => .ok ""
  | .submitTrace _ => .ok ()
  | .emit _ => .ok ()

/-- The answers are those of the world. -/
theorem reads_of_documentsBehaviour {e : AskEvent} (he : e.answer = documentsBehaviour w e.action) : Reads w e := by
  obtain ⟨action, answer⟩ := e
  cases action with
  | listDocuments =>
    cases he
    exact rfl
  | getClarification id =>
    cases he
    exact rfl
  | utcnow =>
    cases he
    exact Nat.le_refl _
  | _ => trivial

/-- What a program returns there. -/
abbrev Yields {α : Type} (w : AskWorld) (p : Ask α) (a : α) : Prop :=
  (Program.against (documentsBehaviour w) p).2 = .ok a

/-- What a program performs there. -/
abbrev Performs {α : Type} (w : AskWorld) (p : Ask α) (e : AskEvent) : Prop :=
  e ∈ (Program.against (documentsBehaviour w) p).1

theorem yields_call {x : AskCall} {a : AskAnswer x} (h : documentsBehaviour w x = .ok a) : Yields w (call x) a := by
  rw [Yields, call, against_perform]
  exact h

theorem yields_validated {α : Type} {model : String} {value : α} {errors : List (String × String)} (h : errors = []) :
    Yields w (validated model errors value) value := by
  rw [validated, if_pos h]
  rfl

theorem yields_currentTraceId : Yields w currentTraceId "t" :=
  against_bind (yields_call rfl) rfl

/-- A record that is stored and has not expired is loaded. -/
theorem yields_loadClarification {settings : AskSettings} {id : String} {record : ClarificationRecord}
    (hid : id ≠ "") (hstored : w.clarifications id = .valid record)
    (hvalid : isExpired settings record.clarificationExpiry w.now = false) :
    Yields w (loadClarification settings id) record := by
  rw [loadClarification, if_neg hid]
  refine against_bind (yields_call (x := .getClarification id) (congrArg Except.ok hstored)) ?_
  cases hexpiry : settings.fromisoformat record.clarificationExpiry with
  | none =>
    simp only [isExpired, hexpiry, Bool.true_eq_false] at hvalid
  | some expiry =>
    simp only [hexpiry]
    refine against_bind (yields_call rfl) ?_
    rw [if_neg (by rw [hvalid]; exact Bool.false_ne_true)]
    rfl

/-- A question outside any conversation stays as it is. -/
theorem yields_prepareConversation (router : Router) {question : String} {scope : Option (List DocumentId)}
    (hquestion : questionErrors question = []) (hscope : documentIdsErrors scope = []) :
    ∃ effective prepared, Yields w (prepareConversation router { question, documentIds := scope })
      (effective, prepared) ∧ effective.question = question ∧ effective.documentIds = scope := by
  unfold prepareConversation
  split
  · let conversation : ConversationRecord := ⟨"u", w.now, w.now, scope, []⟩
    have hconversation : Yields w (conversationOf { question, documentIds := scope }) conversation :=
      against_bind (a := none) rfl rfl
    have hrewritten : Yields w (rewriteFollowUp router.settings question []) none := by
      rw [rewriteFollowUp, if_pos (.inl rfl)]
      rfl
    let effective : UnifiedQueryRequest := ⟨question, scope, false, some "u", false⟩
    have heffective : Yields w (unifiedQueryRequest effective) effective :=
      yields_validated (by rw [hquestion, hscope]; rfl)
    have hprepare : Yields w (prepare router.settings { question, documentIds := scope })
        ⟨conversation, effective, question, none, false⟩ := by
      refine against_bind hconversation (against_bind hrewritten ?_)
      cases scope with
      | none => exact against_bind heffective rfl
      | some ids => exact against_bind heffective rfl
    exact ⟨effective, _, against_bind hprepare rfl, rfl, rfl⟩
  · exact ⟨_, _, rfl, rfl, rfl⟩

/-- A query of the documents searches its scope. -/
theorem performs_ragQuery (settings : AskSettings) (request : QueryRequest) (hscope : request.documentIds ≠ some []) :
    ∃ vector topK sparse result, Performs w (ragQuery settings request)
      ⟨.indexQuery vector topK request.documentIds sparse, result⟩ := by
  have hsparse : ∃ sparse, Yields w (encodeSparse settings request.question) sparse := by
    unfold encodeSparse
    split
    · exact ⟨_, against_bind (yields_call rfl) rfl⟩
    · exact ⟨_, rfl⟩
  obtain ⟨sparse, hsparse⟩ := hsparse
  refine ⟨[], settings.retrievalDenseTopK, sparse, .ok [], ?_⟩
  refine mem_against_bind yields_currentTraceId (mem_against_first ?_)
  refine mem_against_bind (yields_call rfl) (mem_against_bind hsparse (mem_against_first ?_))
  match request.documentIds, hscope with
  | none, _ => exact List.mem_cons_self
  | some [], hscope => exact absurd rfl hscope
  | some (_ :: _), _ => exact List.mem_cons_self

/-- The answer path searches the scope it is given. -/
theorem performs_answerPath (router : Router) {question : String} {scope : Option (List DocumentId)}
    (hquestion : questionErrors question = []) (hids : documentIdsErrors scope = []) (hscope : scope ≠ some []) :
    ∃ vector topK sparse result, Performs w (answerPath router question scope)
      ⟨.indexQuery vector topK scope sparse, result⟩ := by
  obtain ⟨effective, prepared, hprepare, heq, hdocs⟩ :=
    yields_prepareConversation (w := w) router hquestion hids
  obtain ⟨vector, topK, sparse, result, hsearch⟩ :=
    performs_ragQuery (w := w) router.settings ⟨effective.question, effective.documentIds⟩ (by rw [hdocs]; exact hscope)
  refine ⟨vector, topK, sparse, result, ?_⟩
  refine mem_against_bind (yields_validated (by rw [hquestion, hids]; rfl)) ?_
  refine mem_against_bind yields_currentTraceId (mem_against_bind hprepare ?_)
  refine mem_against_bind (yields_call rfl) (mem_against_bind (a := none) ?_ (mem_against_first ?_))
  · rw [clarificationGate, if_neg (fun h => absurd h.1 Bool.false_ne_true)]
    rfl
  · refine mem_against_bind (yields_validated (by rw [heq, hdocs, hquestion, hids]; rfl)) (mem_against_first ?_)
    rw [← hdocs]
    exact hsearch

/-- A reply that is taken up searches the scope of its record. -/
theorem performs_askClarify {router : Router} {request : ClarificationReplyRequest} {record : ClarificationRecord}
    (htaken : TakenUp router.settings w request record) (hscope : record.documentScope ≠ some []) :
    ∃ vector topK sparse result, Performs w (serve router user (.askClarify request))
      ⟨.indexQuery vector topK record.documentScope sparse, result⟩ := by
  have hquestion : questionErrors (combineQuestionAndReply record.originalQuestion request.reply) = [] := by
    have hreply : (strip request.reply).length ≠ 0 := fun h => htaken.replied (String.length_eq_zero_iff.mp h)
    have hlong : (combineQuestionAndReply record.originalQuestion request.reply).length ≠ 0 := by
      rw [combineQuestionAndReply, String.length_append]
      omega
    rw [questionErrors, if_neg hlong, if_neg (Nat.not_lt.mpr htaken.question)]
  have hids : documentIdsErrors record.documentScope = [] := by
    cases heq : record.documentScope with
    | none => rfl
    | some ids =>
      have hlength := htaken.scope ids heq
      simp [documentIdsErrors, Nat.not_lt.mpr hlength]
  obtain ⟨vector, topK, sparse, result, hsearch⟩ := performs_answerPath (w := w) router hquestion hids hscope
  refine ⟨vector, topK, sparse, result, mem_against_first (mem_against_catch ?_)⟩
  refine mem_against_bind (yields_loadClarification request.clarificationId_ne htaken.stored htaken.unexpired) ?_
  rw [if_neg htaken.replied]
  exact mem_against_first hsearch

end Leak

section Requests

variable {router : Router} {w : AskWorld} {user : UserPublic} {request : AskRequest}

/-- Every search of every run of the request is confined to the caller's
documents, and to the requested ones, exactly when a clarification reply that
is taken up names a record whose own scope is. -/
theorem retrieval_confined (hauth : router.settings.authEnabled = true)
    (huser : resolveIsOperator user router.settings = false) :
    (∀ h p, Path (serve router user request) h p → (∀ e ∈ h, Reads w e) →
      ∀ e ∈ h, Confined w user (requestedIds request) e) ↔ RecordedOwn router.settings w user request := by
  constructor
  · intro hconfined
    cases request with
    | ask request => trivial
    | askStream request => trivial
    | askClarify request =>
      intro record htaken
      by_cases hscope : record.documentScope = some []
      · exact ⟨[], hscope, fun id hid => absurd hid List.not_mem_nil⟩
      · obtain ⟨vector, topK, sparse, result, hsearch⟩ : ∃ vector topK sparse result,
            Performs w (serve router user (.askClarify request))
              ⟨.indexQuery vector topK record.documentScope sparse, result⟩ := performs_askClarify htaken hscope
        have hpath := path_against (documentsBehaviour w) (serve router user (.askClarify request))
        have hreads := answer_against (documentsBehaviour w) (serve router user (.askClarify request))
        exact hconfined _ _ hpath (fun e he => reads_of_documentsBehaviour (hreads e he)) _ hsearch
  · intro hrecorded h p hpath hreads e he
    obtain ⟨before, after, hsplit⟩ := List.append_of_mem he
    have hcontract := (keeps_serve (h := []) hauth huser hrecorded).along hpath fun h' e' es' heq =>
      hreads e' (by rw [heq]; exact List.mem_append_right _ List.mem_cons_self)
    have hfiltered := hcontract.2 before e after hsplit
    obtain ⟨a, r⟩ := e
    cases a with
    | _ => exact hfiltered

/-- A router with conversations and clarifications. -/
def sampleRouter : Router := ⟨sampleSettings, false, [], true, true⟩

/-- A clarification issued to an operator, for a question to the whole corpus. -/
def sampleRecord : ClarificationRecord := ⟨"k", "t", "What is the margin?", none, "11"⟩

/-- The operator's document and clarification. -/
def sampleWorld : AskWorld where
  documents := [⟨"d", "Margins", "v", "gs://b/d", .indexed, none, some "v", some "root@example.org"⟩]
  clarifications := fun id => if id = "k" then .valid sampleRecord else .absent
  now := 1

/-- The user replies to it. -/
def sampleReply : ClarificationReplyRequest := ⟨"k", "All of it.", by decide⟩

theorem retrieval_confined_sample :
    (∀ h p, Path (serve sampleRouter sampleUser (.ask { question := "?" })) h p → (∀ e ∈ h, Reads sampleWorld e) →
      ∀ e ∈ h, Confined sampleWorld sampleUser [] e) ↔
        RecordedOwn sampleSettings sampleWorld sampleUser (.ask { question := "?" }) :=
  retrieval_confined rfl (by decide)

/-- The reply to an operator's clarification searches the whole corpus. -/
theorem clarification_reply_unscoped : sampleRouter.settings.authEnabled = true ∧
    resolveIsOperator sampleUser sampleRouter.settings = false ∧
    ∃ h p, Path (serve sampleRouter sampleUser (.askClarify sampleReply)) h p ∧ (∀ e ∈ h, Reads sampleWorld e) ∧
      ∃ e ∈ h, (∃ vector topK sparse, e.action = .indexQuery vector topK none sparse) ∧
        ¬ Confined sampleWorld sampleUser (requestedIds (.askClarify sampleReply)) e := by
  have htaken : TakenUp sampleRouter.settings sampleWorld sampleReply sampleRecord := by
    refine ⟨rfl, by decide, by decide, by decide +kernel, fun ids h => ?_⟩
    cases h
  have hnone : sampleRecord.documentScope ≠ some [] := nofun
  obtain ⟨vector, topK, sparse, result, hsearch⟩ : ∃ vector topK sparse result,
      Performs sampleWorld (serve sampleRouter sampleUser (.askClarify sampleReply))
        ⟨.indexQuery vector topK sampleRecord.documentScope sparse, result⟩ := performs_askClarify htaken hnone
  have hpath := path_against (documentsBehaviour sampleWorld) (serve sampleRouter sampleUser (.askClarify sampleReply))
  have hreads := answer_against (documentsBehaviour sampleWorld)
    (serve sampleRouter sampleUser (.askClarify sampleReply))
  refine ⟨rfl, by decide, _, _, hpath, fun e he => reads_of_documentsBehaviour (hreads e he), _, hsearch,
    ⟨vector, topK, sparse, rfl⟩, ?_⟩
  rintro ⟨ids, hids, -⟩
  cases hids

end Requests

end RagSystem.ScopedRetrieval
