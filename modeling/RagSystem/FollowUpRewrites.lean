import Mathlib.Data.List.DropRight
import RagSystem.Conversations
import RagSystem.ModelReplies
import RagSystem.ProgramContracts

/-!
# Follow-ups rewritten

The text model's reply to a follow-up, read for the standalone question that is
asked in its place. Whatever the reply is, reading it is guarded; constructing the
request with the question that was read is not.
-/

namespace RagSystem.FollowUpRewrites

open AtomicProgram ProgramContracts QueryModels AskCalls ModelReplies
open Conversations (PreparedTurn)

set_option autoImplicit false

/-- How a call of the text model ends. -/
inductive Generated where
  /-- It returns a text. -/
  | text (raw : List Char)
  /-- It raises. -/
  | raised (error : PyError)

variable (python : Python)

/-- `_parse_rewrite_response`. -/
def parseRewriteResponse (raw : List Char) (fallback : PyStr) : Except PyError PyStr :=
  if TolerantJson.strip raw = [] then .ok fallback
  else
    match python.loads (TolerantJson.unwrapped raw) with
    | .value (.dict payload) =>
      match get payload "standalone_question" with
      | some (.str candidate) => .ok (if stripStr candidate = [] then fallback else stripStr candidate)
      | _ => .ok fallback
    -- what is no dict has no `get`
    | .value _ => .error .attributeError
    | .refused => .ok fallback
    | .exhausted => .error .recursionError

/-- `FollowUpRewriter`: what its model replies to the prompt of a question and the turns before it. -/
structure FollowUpRewriter where
  /-- `_llm.generate` of the prompt. -/
  generate : String → List ConversationTurn → Generated
  /-- `conversation_rewrite_window`. -/
  window : ℕ

/-- `prior_turns[-window:]`; all of them for a window of zero. -/
def FollowUpRewriter.inWindow (rewriter : FollowUpRewriter) (priorTurns : List ConversationTurn) : List ConversationTurn :=
  if rewriter.window = 0 then priorTurns else priorTurns.drop (priorTurns.length - rewriter.window)

/-- `FollowUpRewriter.rewrite`. -/
def FollowUpRewriter.rewrite (rewriter : FollowUpRewriter) (question : String) (priorTurns : List ConversationTurn) :
    Except PyError PyStr :=
  if priorTurns = [] then .ok (py question)
  else
    match rewriter.generate question (rewriter.inWindow priorTurns) with
    | .text raw => parseRewriteResponse python raw (py question)
    | .raised error => .error error

/-- The turns before a request's, which it may ask to forget. -/
def priorTurns (request : UnifiedQueryRequest) (conversation : ConversationRecord) : List ConversationTurn :=
  if request.forgetContext then [] else conversation.turns

/-- The scope of a request: its own, or the conversation's. -/
def scopeOf (request : UnifiedQueryRequest) (conversation : ConversationRecord) : Option (List DocumentModels.DocumentId) :=
  match request.documentIds with
  | some ids => some ids
  | none => conversation.documentIds

/-- The rewritten question, if there is one; a rewriter that raises gives none. -/
def candidateOf (rewriter : FollowUpRewriter) (settings : AskSettings) (request : UnifiedQueryRequest)
    (conversation : ConversationRecord) : Option PyStr :=
  if priorTurns request conversation = [] ∨ settings.conversationRewriteEnabled = false then none
  else
    match rewriter.rewrite python request.question (priorTurns request conversation) with
    | .ok text =>
      if stripStr text ≠ [] ∧ stripStr text ≠ stripStr (py request.question) then some (stripStr text) else none
    | .error _ => none

/-- The constructor `UnifiedQueryRequest`, with a question of any code points. -/
def constructed (question : PyStr) (request : UnifiedQueryRequest) : Except PyError UnifiedQueryRequest :=
  match ofCodes question with
  | some text =>
    if questionErrors text ++ documentIdsErrors request.documentIds = [] then .ok { request with question := text }
    else .error .validationError
  | none => .error .validationError

/-- `ConversationManager.prepare`, once the conversation is loaded or begun. -/
def prepareTurn (rewriter : FollowUpRewriter) (settings : AskSettings) (request : UnifiedQueryRequest)
    (conversation : ConversationRecord) : Except PyError PreparedTurn := do
  let candidate := candidateOf python rewriter settings request conversation
  let effective ← constructed (candidate.getD (py request.question))
    { request with
      documentIds := scopeOf request conversation
      conversationId := some conversation.conversationId }
  pure ⟨conversation, effective, request.question, candidate.map fun _ => effective.question, request.forgetContext⟩

/-! ## Code points -/

theorem py_empty : py "" = [] := rfl

/-- The code points that are stripped are those of the characters that are. -/
theorem stripStr_py (text : String) : stripStr (py text) = py (DocumentModels.strip text) := by
  have hspace : ∀ c : Char, isSpaceCode c.toNat = DocumentModels.isSpace c := by
    intro c
    rw [isSpaceCode, Char.ofNat_toNat]
  have hdrop : ∀ chars : List Char,
      (chars.map Char.toNat).dropWhile isSpaceCode = (chars.dropWhile DocumentModels.isSpace).map Char.toNat := by
    intro chars
    induction chars with
    | nil => rfl
    | cons c chars ih =>
      rw [List.map_cons, List.dropWhile_cons, List.dropWhile_cons, hspace]
      split
      · exact ih
      · rfl
  rw [stripStr, py, py, DocumentModels.strip, String.toList_ofList, hdrop, ← List.map_reverse, hdrop, ← List.map_reverse]

/-! ## Requests -/

variable {python} {rewriter : FollowUpRewriter} {settings : AskSettings} {request : UnifiedQueryRequest}
  {conversation : ConversationRecord}

/-- A question that fits a request: a text of 1 to 16000 characters. -/
def Fits (question : PyStr) : Prop := ∃ text, ofCodes question = some text ∧ questionErrors text = []

/-- A scope that fits a request: at most 1000 documents. -/
def ScopeFits (request : UnifiedQueryRequest) (conversation : ConversationRecord) : Prop :=
  documentIdsErrors (scopeOf request conversation) = []

/-- A request is constructed exactly when its question and its scope fit, and as it is. -/
theorem constructed_ok_iff {question : PyStr} {effective : UnifiedQueryRequest} :
    constructed question request = .ok effective ↔
      Fits question ∧ documentIdsErrors request.documentIds = [] ∧
        ofCodes question = some effective.question ∧ effective = { request with question := effective.question } := by
  unfold constructed Fits
  split
  · next text htext =>
    constructor
    · intro h
      split at h
      · next hnone =>
        cases h
        obtain ⟨hquestion, hscope⟩ := List.append_eq_nil_iff.mp hnone
        exact ⟨⟨text, htext, hquestion⟩, hscope, htext, rfl⟩
      · cases h
    · rintro ⟨⟨other, hother, hquestion⟩, hscope, heffective, hsame⟩
      have hone : text = other := Option.some.inj (htext ▸ hother)
      have htwo : text = effective.question := Option.some.inj (htext ▸ heffective)
      rw [← hone] at hquestion
      rw [if_pos (by rw [hquestion, hscope]; rfl), hsame, htwo]
  · next hnone =>
    refine iff_of_false (by simp) ?_
    rintro ⟨⟨text, htext, -⟩, -⟩
    rw [hnone] at htext
    cases htext

/-- A turn is prepared exactly when the question that is asked and the scope fit; the
request that is routed asks it then. -/
theorem prepareTurn_ok_iff :
    (∃ prepared, prepareTurn python rewriter settings request conversation = .ok prepared ∧
      py prepared.effectiveRequest.question =
        (candidateOf python rewriter settings request conversation).getD (py request.question)) ↔
      Fits ((candidateOf python rewriter settings request conversation).getD (py request.question)) ∧
        ScopeFits request conversation := by
  constructor
  · rintro ⟨prepared, hprepared, -⟩
    obtain ⟨effective, heffective, -⟩ := bind_eq_ok.mp hprepared
    obtain ⟨hfits, hscope, -⟩ := constructed_ok_iff.mp heffective
    exact ⟨hfits, hscope⟩
  · rintro ⟨⟨text, htext, hquestion⟩, hscope⟩
    have hconstructed : constructed ((candidateOf python rewriter settings request conversation).getD (py request.question))
        { request with
          documentIds := scopeOf request conversation
          conversationId := some conversation.conversationId } =
        .ok ⟨text, scopeOf request conversation, request.includeSql, some conversation.conversationId,
          request.forgetContext⟩ :=
      constructed_ok_iff.mpr ⟨⟨text, htext, hquestion⟩, hscope, htext, rfl⟩
    exact ⟨_, bind_eq_ok.mpr ⟨_, hconstructed, rfl⟩, py_of_ofCodes htext⟩

/-! ## Usable replies -/

variable (python) in
/-- The standalone question that a reply gives: one of its object's strings, stripped and not blank. -/
def Gives (raw : List Char) (candidate : PyStr) : Prop :=
  TolerantJson.strip raw ≠ [] ∧ ∃ payload text, python.loads (TolerantJson.unwrapped raw) = .value (.dict payload) ∧
    get payload "standalone_question" = some (.str text) ∧ stripStr text = candidate ∧ candidate ≠ []

variable (python rewriter settings request conversation) in
/-- A rewriting of a follow-up: it is asked for, the model returns it, and it is another question. -/
structure Rewritten (candidate : PyStr) : Prop where
  /-- There are turns before. -/
  follows : priorTurns request conversation ≠ []
  /-- Rewriting is on. -/
  enabled : settings.conversationRewriteEnabled = true
  /-- The model's reply gives it. -/
  given : ∃ raw, rewriter.generate request.question (rewriter.inWindow (priorTurns request conversation)) = .text raw ∧
    Gives python raw candidate
  /-- It is not the question as asked. -/
  other : candidate ≠ stripStr (py request.question)

/-- A request as its constructor leaves it. -/
structure ValidRequest extends UnifiedQueryRequest where
  /-- The question has 1 to 16000 characters. -/
  questionFits : questionErrors question = []
  /-- The scope has at most 1000 documents. -/
  scopeFits : documentIdsErrors documentIds = []

variable (python rewriter settings request conversation) in
/-- A turn is prepared, and asks the rewritten question, or the original where there is none. -/
def AsksRewritten : Prop :=
  ∃ prepared, prepareTurn python rewriter settings request conversation = .ok prepared ∧
    (∀ candidate, Rewritten python rewriter settings request conversation candidate →
      py prepared.effectiveRequest.question = candidate) ∧
    ((¬ ∃ candidate, Rewritten python rewriter settings request conversation candidate) →
      prepared.effectiveRequest.question = request.question)

/-- What is stripped is stripped. -/
theorem stripStr_stripStr (text : PyStr) : stripStr (stripStr text) = stripStr text := by
  have hstrip : ∀ text, stripStr text = (text.dropWhile isSpaceCode).rdropWhile isSpaceCode := fun _ => rfl
  have hfirst : ((text.dropWhile isSpaceCode).rdropWhile isSpaceCode).dropWhile isSpaceCode =
      (text.dropWhile isSpaceCode).rdropWhile isSpaceCode := by
    cases hleft : (text.dropWhile isSpaceCode).rdropWhile isSpaceCode with
    | nil => rfl
    | cons first rest =>
      have hfront : first :: rest <+: text.dropWhile isSpaceCode := hleft ▸ List.rdropWhile_prefix _ _
      obtain ⟨back, hback⟩ := hfront
      have hne : text.dropWhile isSpaceCode ≠ [] := by simp [← hback]
      have hhead := List.head_dropWhile_not isSpaceCode hne
      have hsame : (text.dropWhile isSpaceCode).head hne = first := by simp [← hback]
      rw [hsame] at hhead
      rw [List.dropWhile_cons_of_neg (by simp [hhead])]
  rw [hstrip (stripStr text), hstrip text, hfirst, List.rdropWhile_idempotent]

/-- Reading a reply returns what it gives, or the question as asked, or it raises. -/
theorem parseRewriteResponse_cases (raw : List Char) (question : PyStr) :
    (∃ candidate, Gives python raw candidate ∧ parseRewriteResponse python raw question = .ok candidate) ∨
      ((¬ ∃ candidate, Gives python raw candidate) ∧
        (parseRewriteResponse python raw question = .ok question ∨
          ∃ error, parseRewriteResponse python raw question = .error error)) := by
  unfold parseRewriteResponse
  by_cases hblank : TolerantJson.strip raw = []
  · rw [if_pos hblank]
    exact Or.inr ⟨fun ⟨_, hgives⟩ => hgives.1 hblank, Or.inl rfl⟩
  · rw [if_neg hblank]
    cases hloads : python.loads (TolerantJson.unwrapped raw) with
    | refused => exact Or.inr ⟨by simp [Gives, hloads], Or.inl rfl⟩
    | exhausted => exact Or.inr ⟨by simp [Gives, hloads], Or.inr ⟨_, rfl⟩⟩
    | value payload =>
      cases payload with
      | dict payload =>
        dsimp only
        split
        · next text hget =>
          by_cases hempty : stripStr text = []
          · rw [if_pos hempty]
            refine Or.inr ⟨?_, Or.inl rfl⟩
            rintro ⟨candidate, -, other, text', hother, hget', htext, hne⟩
            rw [hloads] at hother
            cases hother
            rw [hget] at hget'
            cases hget'
            exact hne (htext ▸ hempty)
          · rw [if_neg hempty]
            exact Or.inl ⟨_, ⟨hblank, payload, text, hloads, hget, rfl, hempty⟩, rfl⟩
        · next hno =>
          refine Or.inr ⟨?_, Or.inl rfl⟩
          rintro ⟨candidate, -, other, text', hother, hget, -⟩
          rw [hloads] at hother
          cases hother
          exact hno text' hget
      | _ => exact Or.inr ⟨by simp [Gives, hloads], Or.inr ⟨_, rfl⟩⟩

/-- A reply gives one question. -/
theorem Gives.unique {raw : List Char} {candidate other : PyStr} (h : Gives python raw candidate) (h' : Gives python raw other) :
    candidate = other := by
  obtain ⟨-, payload, text, hloads, hget, htext, -⟩ := h
  obtain ⟨-, payload', text', hloads', hget', htext', -⟩ := h'
  rw [hloads] at hloads'
  cases hloads'
  rw [hget] at hget'
  cases hget'
  exact htext ▸ htext'

/-- The candidate is the rewriting, if there is one. -/
theorem candidateOf_eq_some_iff {candidate : PyStr} :
    candidateOf python rewriter settings request conversation = some candidate ↔
      Rewritten python rewriter settings request conversation candidate := by
  unfold candidateOf
  by_cases hoff : priorTurns request conversation = [] ∨ settings.conversationRewriteEnabled = false
  · rw [if_pos hoff]
    refine iff_of_false (by simp) fun h => ?_
    cases hoff with
    | inl hnone => exact h.follows hnone
    | inr hdisabled => exact Bool.noConfusion (h.enabled.symm.trans hdisabled)
  · rw [if_neg hoff]
    obtain ⟨hfollows, henabled⟩ := not_or.mp hoff
    rw [FollowUpRewriter.rewrite, if_neg hfollows]
    cases hreply : rewriter.generate request.question (rewriter.inWindow (priorTurns request conversation)) with
    | raised error =>
      refine iff_of_false (by simp) fun h => ?_
      obtain ⟨raw, hraw, -⟩ := h.given
      rw [hreply] at hraw
      cases hraw
    | text raw =>
      have honly : Rewritten python rewriter settings request conversation candidate ↔
          Gives python raw candidate ∧ candidate ≠ stripStr (py request.question) := by
        constructor
        · intro h
          obtain ⟨raw', hraw, hgives⟩ := h.given
          rw [hreply] at hraw
          cases hraw
          exact ⟨hgives, h.other⟩
        · exact fun h => ⟨hfollows, by simpa using henabled, ⟨raw, hreply, h.1⟩, h.2⟩
      rw [honly]
      dsimp only
      rcases @parseRewriteResponse_cases python raw (py request.question) with
        ⟨given, hgives, hreturned⟩ | ⟨hnone, hreturned | ⟨error, hraised⟩⟩
      · rw [hreturned]
        have hstripped : stripStr given = given := by
          obtain ⟨-, _, text, -, -, htext, -⟩ := hgives
          rw [← htext, stripStr_stripStr]
        have hne : given ≠ [] := hgives.2.choose_spec.choose_spec.2.2.2
        simp only [hstripped]
        constructor
        · intro h
          split at h
          · next hother =>
            cases h
            exact ⟨hgives, hother.2⟩
          · cases h
        · rintro ⟨hcandidate, hother⟩
          rw [hgives.unique hcandidate, if_pos ⟨hgives.unique hcandidate ▸ hne, hother⟩]
      · rw [hreturned]
        simp only [ne_eq, not_true, and_false, if_false]
        exact iff_of_false (by simp) fun h => hnone ⟨candidate, h.1⟩
      · rw [hraised]
        exact iff_of_false (by simp) fun h => hnone ⟨candidate, h.1⟩

/-- A turn asks the rewritten question exactly when that is a text of at most 16000
characters, and the scope has at most 1000 documents. -/
theorem asksRewritten_iff (request : ValidRequest) :
    AsksRewritten python rewriter settings request.toUnifiedQueryRequest conversation ↔
      (∀ candidate, Rewritten python rewriter settings request.toUnifiedQueryRequest conversation candidate → Fits candidate) ∧
        ScopeFits request.toUnifiedQueryRequest conversation := by
  have hasked : ∀ effective : UnifiedQueryRequest,
      py effective.question = (candidateOf python rewriter settings request.toUnifiedQueryRequest conversation).getD
        (py request.question) ↔
      (∀ candidate, Rewritten python rewriter settings request.toUnifiedQueryRequest conversation candidate →
        py effective.question = candidate) ∧
      ((¬ ∃ candidate, Rewritten python rewriter settings request.toUnifiedQueryRequest conversation candidate) →
        effective.question = request.question) := by
    intro effective
    simp only [← candidateOf_eq_some_iff]
    cases candidateOf python rewriter settings request.toUnifiedQueryRequest conversation with
    | none => simp [py_inj]
    | some candidate => simp
  have hfits : Fits ((candidateOf python rewriter settings request.toUnifiedQueryRequest conversation).getD
      (py request.question)) ↔
      ∀ candidate, Rewritten python rewriter settings request.toUnifiedQueryRequest conversation candidate → Fits candidate := by
    simp only [← candidateOf_eq_some_iff]
    cases candidateOf python rewriter settings request.toUnifiedQueryRequest conversation with
    | none => simpa using ⟨_, ofCodes_py _, request.questionFits⟩
    | some candidate => simp
  rw [← hfits, ← prepareTurn_ok_iff, AsksRewritten]
  simp only [hasked]

/-! ## The ask pipeline -/

/-- A call of the rewriter is answered as the rewriter ends. -/
def Answers : Except PyError PyStr → Except AskError String → Prop
  | .ok codes, .ok text => codes = py text
  | .error _, .error _ => True
  | _, _ => False

variable {respond : Behaviour AskError AskAnswer}

/-- The pipeline's candidate is the one that was read. -/
theorem result_rewriteFollowUp
    (hrewrite : Answers (rewriter.rewrite python request.question (priorTurns request conversation))
      (respond (.rewrite request.question (priorTurns request conversation)))) :
    ∃ candidate,
      result respond (Conversations.rewriteFollowUp settings request.question (priorTurns request conversation)) = .ok candidate ∧
        candidateOf python rewriter settings request conversation = candidate.map py := by
  unfold Conversations.rewriteFollowUp candidateOf
  by_cases hnone : priorTurns request conversation = [] ∨ settings.conversationRewriteEnabled = false
  · rw [if_pos hnone, if_pos hnone]
    exact ⟨none, rfl, rfl⟩
  · rw [if_neg hnone, if_neg hnone]
    have hcall : result respond (call (.rewrite request.question (priorTurns request conversation))) =
        respond (.rewrite request.question (priorTurns request conversation)) := result_perform _
    cases hreply : rewriter.rewrite python request.question (priorTurns request conversation) with
    | error error =>
      cases hrespond : respond (.rewrite request.question (priorTurns request conversation)) with
      | ok text => simp [hreply, hrespond, Answers] at hrewrite
      | error failure =>
        have hcaught : result respond
            (tryCatch (call (.rewrite request.question (priorTurns request conversation))) fun _ => pure "") = .ok "" :=
          result_catch_of_error (hcall.trans hrespond)
        refine ⟨none, ?_, rfl⟩
        rw [bind_eq, result_bind_of_ok hcaught]
        rfl
    | ok codes =>
      cases hrespond : respond (.rewrite request.question (priorTurns request conversation)) with
      | error failure => simp [hreply, hrespond, Answers] at hrewrite
      | ok text =>
        rw [hreply, hrespond, Answers] at hrewrite
        have htaken : result respond
            (tryCatch (call (.rewrite request.question (priorTurns request conversation))) fun _ => pure "") = .ok text :=
          result_catch_of_ok (hcall.trans hrespond)
        have hblank : stripStr codes ≠ [] ∧ stripStr codes ≠ stripStr (py request.question) ↔
            DocumentModels.strip text ≠ "" ∧ DocumentModels.strip text ≠ DocumentModels.strip request.question := by
          rw [hrewrite, stripStr_py, stripStr_py, ← py_empty, Ne, Ne, py_inj, py_inj]
        rw [bind_eq, result_bind_of_ok htaken]
        refine ⟨_, rfl, ?_⟩
        dsimp only
        split
        · next hother =>
          rw [if_pos (hblank.mp hother), hrewrite, stripStr_py]
          rfl
        · next hsame =>
          rw [if_neg fun h => hsame (hblank.mpr h)]
          rfl

/-- For a reply that is a string of characters the pipeline's `prepare` is this one. -/
theorem result_prepare_ok_iff {prepared : PreparedTurn}
    (hconversation : result respond (Conversations.conversationOf request) = .ok conversation)
    (hrewrite : Answers (rewriter.rewrite python request.question (priorTurns request conversation))
      (respond (.rewrite request.question (priorTurns request conversation)))) :
    result respond (Conversations.prepare settings request) = .ok prepared ↔
      prepareTurn python rewriter settings request conversation = .ok prepared := by
  obtain ⟨candidate, hcandidate, hsame⟩ := @result_rewriteFollowUp _ _ settings _ _ _ hrewrite
  have hquestion : (candidate.map py).getD (py request.question) = py (candidate.getD request.question) := by
    cases candidate <;> rfl
  rw [priorTurns] at hcandidate
  rw [prepareTurn, hsame, hquestion, constructed, ofCodes_py, Conversations.prepare, bind_eq,
    result_bind_of_ok hconversation, bind_eq, result_bind_of_ok hcandidate, bind_eq, unifiedQueryRequest, validated]
  have hreturned : ∀ turn : PreparedTurn,
      (Except.ok turn : Except AskError PreparedTurn) = .ok prepared ↔
        (Except.ok turn : Except PyError PreparedTurn) = .ok prepared := by simp
  cases hids : request.documentIds with
  | some ids =>
    simp only [scopeOf, hids]
    split
    · cases candidate <;> exact hreturned _
    · exact iff_of_false (fun h => nomatch h) fun h => nomatch h
  | none =>
    simp only [scopeOf, hids]
    split
    · cases candidate <;> exact hreturned _
    · exact iff_of_false (fun h => nomatch h) fun h => nomatch h

end RagSystem.FollowUpRewrites
