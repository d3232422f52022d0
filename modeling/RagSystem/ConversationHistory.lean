import Mathlib.Data.List.DropRight
import Mathlib.Data.List.Infix
import RagSystem.Conversations
import RagSystem.ProgramContracts

/-!
# The history of a conversation

Turns and forgets of one conversation in any interleaving of their reads and
writes. A turn is written together with the turns its preparation read, without
a look at what was written since; as long as nobody writes in between and no
read fails, every recorded turn is kept and none comes back.
-/

namespace RagSystem.ConversationHistory

open AtomicProgram ThreadPool ProgramPaths ProgramContracts DocumentModels QueryModels AskCalls Conversations

set_option autoImplicit false

section Store

/-- The stored conversations. -/
abbrev World := String → Stored ConversationRecord

/-- What the environment decides about a call. -/
inductive Fate where
  /-- A read or a write of the store goes through. -/
  | proceed
  /-- The call raises, and nothing is written. -/
  | raise (message : String)
  /-- The clock shows this. -/
  | reading (time : ℕ)
  /-- The id source or the rewriter returns this. -/
  | text (s : String)

/-- What the calls of a conversation do. -/
def conversations : Machine Fate World AskError AskAnswer
  | .getConversation id, .proceed, w => some (.ok (w id), w)
  | .putConversation record, .proceed, w =>
    some (.ok (), Function.update w record.conversationId (.valid record))
  | .utcnow, .reading time, w => some (.ok time, w)
  | .uuid4, .text s, w => some (.ok s, w)
  | .rewrite _ _, .text s, w => some (.ok s, w)
  | _, .raise m, w => some (.error (.raised m), w)
  | _, _, _ => none

/-- What the processes run on one conversation. -/
inductive Operation where
  /-- A turn is prepared, and never recorded. -/
  | prepare (request : UnifiedQueryRequest)
  /-- A turn is prepared and recorded. -/
  | turn (request : UnifiedQueryRequest) (answer route traceId : String)
  /-- The conversation is forgotten. -/
  | forget
  deriving DecidableEq

/-- The program of each operation on the conversation `id`. -/
def code (settings : AskSettings) (id : String) : Operation → Ask Unit
  | .prepare request => do
    let _ ← prepare settings { request with conversationId := some id }
    pure ()
  | .turn request answer route traceId => do
    let prepared ← prepare settings { request with conversationId := some id }
    recordTurn settings prepared answer route traceId
  | .forget => do
    let _ ← forget id
    pure ()

/-- A pool of conversation calls. -/
abbrev TalkPool := Pool World Operation AskError AskAnswer Unit

/-- A move of them. -/
abbrev TalkMove := Move World Operation AskError AskAnswer Unit

/-- A run of calls on one conversation. -/
abbrev Talks (settings : AskSettings) (id : String) := Run (O := Operation) conversations (code settings id)

/-- The turns a payload shows. -/
def turnsOf : Stored ConversationRecord → List ConversationTurn
  | .valid record => record.turns
  | _ => []

/-- The turns a read shows, none if it failed. -/
def readTurns : Except AskError (Stored ConversationRecord) → List ConversationTurn
  | .ok payload => turnsOf payload
  | .error _ => []

end Store

section Log

variable (id : String)

/-- The record the call wrote, if it wrote the conversation. -/
def written : AskEvent → Option ConversationRecord
  | ⟨.putConversation record, .ok _⟩ => if record.conversationId = id then some record else none
  | _ => none

/-- The call looked for the conversation and found none. -/
def foundNone : AskEvent → Bool
  | ⟨.getConversation id', .ok .absent⟩ => id' = id
  | ⟨.getConversation id', .ok .invalid⟩ => id' = id
  | _ => false

/-- The call read the conversation. -/
def isRead : AskEvent → Bool
  | ⟨.getConversation id', _⟩ => id' = id
  | _ => false

/-- The read of the conversation failed. -/
def failedRead : AskEvent → Bool
  | ⟨.getConversation id', .error _⟩ => id' = id
  | _ => false

/-- The turn the call recorded, if it recorded one. -/
def recorded (m : TalkMove) : Option ConversationTurn :=
  match m.runner.operation with
  | .turn _ _ _ _ => (written id m.event).bind fun record => record.turns.getLast?
  | _ => none

/-- The call forgot what was recorded before: the write of a forget, or its
finding nothing to forget, or a turn whose user asked for it. -/
def forgets (m : TalkMove) : Bool :=
  match m.runner.operation with
  | .turn request _ _ _ => request.forgetContext && (written id m.event).isSome
  | .forget => (written id m.event).isSome || foundNone id m.event
  | .prepare _ => false

/-- The turns these calls recorded, in order. -/
def recordings (ms : List TalkMove) : List ConversationTurn := ms.filterMap (recorded id)

/-- The history after one more call, if every call works on the latest. -/
def logged (settings : AskSettings) (turns : List ConversationTurn) (m : TalkMove) : List ConversationTurn :=
  let kept := if forgets id m then [] else turns
  match recorded id m with
  | some turn => (kept ++ [turn]).rtake settings.conversationMaxTurns
  | none => kept

variable {id : String} {settings : AskSettings}

/-- Dropping the oldest may be left to the end. -/
theorem rtake_append {α : Type} (n : ℕ) (l l' : List α) : (l.rtake n ++ l').rtake n = (l ++ l').rtake n := by
  have hmin : min (n - l'.length) n = n - l'.length := by omega
  simp only [List.rtake_eq_reverse_take_reverse, List.reverse_append, List.reverse_reverse, List.take_append,
    List.length_reverse, List.take_take, hmin]

/-- The newest of some calls are the newest of all. -/
theorem rtake_suffix_append {α : Type} (n : ℕ) (l l' : List α) : l'.rtake n <:+ (l ++ l').rtake n := by
  simp only [List.rtake_eq_reverse_take_reverse, List.reverse_append, List.take_append]
  exact List.suffix_append _ _

/-- One call more. -/
theorem recordings_concat (id : String) (ms : List TalkMove) (m : TalkMove) :
    recordings id (ms ++ [m]) = recordings id ms ++ (recorded id m).toList := by
  rw [recordings, List.filterMap_append]
  cases hr : recorded id m with
  | none => simp [recordings, hr]
  | some turn => simp [recordings, hr]

/-- A recorded turn comes last, and the oldest are dropped. -/
theorem logged_of_recorded (turns : List ConversationTurn) {m : TalkMove} {turn : ConversationTurn}
    (hm : recorded id m = some turn) : logged id settings turns m =
      ((if forgets id m then [] else turns) ++ [turn]).rtake settings.conversationMaxTurns := by
  simp only [logged, hm]

/-- Otherwise the history changes by being forgotten. -/
theorem logged_of_not_recorded (turns : List ConversationTurn) {m : TalkMove} (hm : recorded id m = none) :
    logged id settings turns m = if forgets id m then [] else turns := by
  simp only [logged, hm]

/-- Without a forget the newest of what was recorded is in the history. -/
theorem recordings_suffix_logged (turns : List ConversationTurn) {ms : List TalkMove}
    (hms : ∀ m ∈ ms, forgets id m = false) :
    (recordings id ms).rtake settings.conversationMaxTurns <:+ ms.foldl (logged id settings) turns := by
  induction ms using List.reverseRecOn with
  | nil => simp [recordings]
  | append_singleton ms m ih =>
    have hold := ih fun m hm => hms m (List.mem_append_left _ hm)
    have hno := hms m (List.mem_append_right _ (List.mem_singleton_self _))
    rw [List.foldl_append, List.foldl_cons, List.foldl_nil, recordings_concat]
    cases hr : recorded id m with
    | none =>
      rw [logged_of_not_recorded _ hr, hno, Option.toList_none, List.append_nil]
      exact hold
    | some turn =>
      rw [logged_of_recorded _ hr, hno, Option.toList_some]
      obtain ⟨older, holder⟩ := hold
      rw [← holder, ← rtake_append, if_neg Bool.false_ne_true, List.append_assoc]
      exact rtake_suffix_append _ _ _

/-- What is in the history is a newest part of what was in it and was recorded. -/
theorem logged_suffix (turns : List ConversationTurn) (ms : List TalkMove) :
    ms.foldl (logged id settings) turns <:+ turns ++ recordings id ms := by
  induction ms using List.reverseRecOn with
  | nil => simp [recordings]
  | append_singleton ms m ih =>
    rw [List.foldl_append, List.foldl_cons, List.foldl_nil, recordings_concat, ← List.append_assoc]
    have hkept : (if forgets id m then [] else ms.foldl (logged id settings) turns) <:+ turns ++ recordings id ms := by
      split
      · exact List.nil_suffix
      · exact ih
    cases hr : recorded id m with
    | none =>
      rw [logged_of_not_recorded _ hr, Option.toList_none, List.append_nil]
      exact hkept
    | some turn =>
      rw [logged_of_recorded _ hr, Option.toList_some]
      obtain ⟨older, holder⟩ := hkept
      rw [← holder, List.append_assoc]
      exact (List.drop_suffix _ _).trans (List.suffix_append _ _)

/-- A forget leaves at most the turn it comes with. -/
theorem logged_of_forgets (turns : List ConversationTurn) {m : TalkMove} (hm : forgets id m = true) :
    logged id settings turns m <:+ recordings id [m] := by
  have hone := recordings_concat id [] m
  have hnil : recordings id [] = [] := rfl
  rw [List.nil_append, hnil, List.nil_append] at hone
  rw [hone]
  cases hr : recorded id m with
  | none =>
    rw [logged_of_not_recorded _ hr, if_pos hm]
    exact List.nil_suffix
  | some turn =>
    rw [logged_of_recorded _ hr, if_pos hm, List.nil_append]
    exact List.drop_suffix _ _

end Log

section Operations

variable {settings : AskSettings} {id : String}

/-- A record that is read is one filed under that id. -/
def FiledAnswer : ActionPredicate AskError AskAnswer := fun _ e =>
  match e with
  | ⟨.getConversation id, .ok (.valid record)⟩ => record.conversationId = id
  | _ => True

/-- What an operation with this past may write. -/
def MayWrite (settings : AskSettings) (id : String) (h : AskHistory) (record : ConversationRecord) : Operation → Prop
  | .prepare _ => False
  | .turn request _ _ _ => record.conversationId = id ∧ ∃ answer turn, ⟨.getConversation id, answer⟩ ∈ h ∧
      record.turns = ((if request.forgetContext then [] else readTurns answer) ++ [turn]).rtake settings.conversationMaxTurns
  | .forget => record.conversationId = id ∧ record.turns = []

/-- An operation writes only that. -/
def WritesAs (settings : AskSettings) (id : String) (o : Operation) : ActionPredicate AskError AskAnswer := fun h e =>
  ∀ record, e.action = .putConversation record → MayWrite settings id h record o

/-- A part of an operation. -/
abbrev Writes {α : Type} (settings : AskSettings) (id : String) (o : Operation) (Q : EndPredicate AskError AskAnswer α) :
    Ask α → AskHistory → Prop := Ensures FiledAnswer (WritesAs settings id o) Q

/-- A call that writes nothing. -/
theorem writes_call (settings : AskSettings) (id : String) {x : AskCall} (hx : ∀ record, x ≠ .putConversation record) (o : Operation) (h : AskHistory) :
    Writes settings id o (fun h' r => FiledAnswer h ⟨x, r⟩ ∧ h' = h ++ [⟨x, r⟩]) (call x) h :=
  .perform fun _ hfiled => ⟨fun record he => absurd he (hx record), hfiled, rfl⟩

/-- The past shows a read of the conversation with these turns. -/
def HasRead (id : String) (turns : List ConversationTurn) (h : AskHistory) : Prop :=
  ∃ answer, ⟨.getConversation id, answer⟩ ∈ h ∧ readTurns answer = turns

/-- It goes on doing so. -/
theorem HasRead.append {turns : List ConversationTurn} {h : AskHistory} (hr : HasRead id turns h) (h' : AskHistory) :
    HasRead id turns (h ++ h') := by
  obtain ⟨answer, hin, hturns⟩ := hr
  exact ⟨answer, List.mem_append_left _ hin, hturns⟩

/-- The load shows what its read showed, filed under the id. -/
theorem writes_load (settings : AskSettings) (id : String) (o : Operation) (h : AskHistory) :
    Writes settings id o (Returns fun h' found => HasRead id (found.elim [] ConversationRecord.turns) h' ∧
      ∀ record, found = some record → record.conversationId = id) (load id) h := by
  have hread := writes_call settings id (x := .getConversation id) (fun _ he => (nomatch he)) o h
  have hcaught : Writes settings id o (Returns fun h' (payload : Stored ConversationRecord) =>
      HasRead id (turnsOf payload) h' ∧ ∀ record, payload = .valid record → record.conversationId = id)
      ((call (.getConversation id)).catchError fun _ => .done .absent) h := by
    refine hread.catchError (fun h' payload hq a ha => ?_) fun h' e hq => .returns ⟨?_, fun _ he => (nomatch he)⟩
    · injection ha with ha
      subst ha
      obtain ⟨hfiled, rfl⟩ := hq
      refine ⟨⟨.ok payload, List.mem_append_right _ (List.mem_singleton_self _), rfl⟩, fun record he => ?_⟩
      rw [he] at hfiled
      exact hfiled
    · obtain ⟨-, rfl⟩ := hq
      exact ⟨.error e, List.mem_append_right _ (List.mem_singleton_self _), rfl⟩
  refine hcaught.andThen fun h' payload hq => ?_
  obtain ⟨hturns, hfiled⟩ := hq payload rfl
  cases payload with
  | absent => exact .returns ⟨hturns, fun _ he => (nomatch he)⟩
  | invalid => exact .returns ⟨hturns, fun _ he => (nomatch he)⟩
  | valid record =>
    refine .returns ⟨hturns, fun record' he => ?_⟩
    injection he with he
    exact he ▸ hfiled record rfl

/-- The conversation a request is prepared for: the turns its read showed,
under the id. -/
theorem writes_conversationOf {request : UnifiedQueryRequest} (hid : id ≠ "") (hrequest : request.conversationId = some id)
    (o : Operation) (h : AskHistory) :
    Writes settings id o (Returns fun h' conversation => HasRead id conversation.turns h' ∧
      conversation.conversationId = id) (conversationOf request) h := by
  have hnamed : request.conversationId.filter (· ≠ "") = some id := by simp [hrequest, hid]
  have hstored : storedConversation request = load id := by rw [storedConversation, hnamed]
  have hfresh : conversationIdOf request = .done id := by
    rw [conversationIdOf, hnamed]
    rfl
  have hload := writes_load settings id o h
  unfold conversationOf
  rw [hstored]
  refine hload.andThen fun h' found hq => ?_
  obtain ⟨hturns, hfiled⟩ := hq found rfl
  cases found with
  | some record => exact .returns ⟨hturns, hfiled record rfl⟩
  | none =>
    have hclock := writes_call settings id (x := .utcnow) (fun _ he => (nomatch he)) o h'
    refine hclock.andThen fun h'' now hq => ?_
    rw [hfresh]
    obtain ⟨-, rfl⟩ := hq
    exact .returns ⟨hturns.append _, rfl⟩

/-- What a prepared turn knows. -/
structure Prepared (id : String) (forgetContext : Bool) (h : AskHistory) (prepared : PreparedTurn) : Prop where
  /-- Its turns are those its read showed. -/
  read : HasRead id prepared.conversation.turns h
  /-- It is filed under the id. -/
  filed : prepared.conversation.conversationId = id
  /-- It forgets if the request does. -/
  forget : prepared.forget = forgetContext

/-- The rewriter is called or not; either way nothing is written. -/
theorem writes_rewriteFollowUp (question : String) (turns : List ConversationTurn) (o : Operation) (h : AskHistory) :
    Writes settings id o (fun h' _ => ∃ es, h' = h ++ es) (rewriteFollowUp settings question turns) h := by
  unfold rewriteFollowUp
  split
  · exact .done ⟨[], (List.append_nil h).symm⟩
  · have hcall := writes_call settings id (x := .rewrite question turns)
      (fun _ he => (nomatch he)) o h
    have hcaught : Writes settings id o (fun h' (_ : Except AskError String) => ∃ es, h' = h ++ es)
        ((call (.rewrite question turns)).catchError fun _ => .done "") h :=
      hcall.catchError (fun _ _ hq => ⟨_, hq.2⟩) fun _ _ hq => .done ⟨_, hq.2⟩
    exact hcaught.bind (fun h' raw hq => .done hq) fun _ _ hq => hq

/-- The constructor of a request calls nothing. -/
theorem writes_unifiedQueryRequest (request : UnifiedQueryRequest) (o : Operation) (h : AskHistory) :
    Writes settings id o (fun h' _ => h' = h) (unifiedQueryRequest request) h := by
  unfold unifiedQueryRequest validated
  split
  · exact .done rfl
  · exact .raise rfl

/-- Preparing. -/
theorem writes_prepare (settings : AskSettings) (request : UnifiedQueryRequest) (hid : id ≠ "") (hrequest : request.conversationId = some id)
    (o : Operation) (h : AskHistory) :
    Writes settings id o (Returns (Prepared id request.forgetContext)) (prepare settings request) h := by
  refine (writes_conversationOf hid hrequest o h).andThen fun h₁ conversation hq => ?_
  obtain ⟨hturns, hfiled⟩ := hq conversation rfl
  refine (writes_rewriteFollowUp _ _ o h₁).andThen fun h₂ rewritten hq => ?_
  obtain ⟨es, rfl⟩ := hq
  refine (writes_unifiedQueryRequest _ o (h₁ ++ es)).andThen fun h₃ effective hq => ?_
  subst hq
  have hprepared : Prepared id request.forgetContext (h₁ ++ es)
      ⟨conversation, effective, request.question, rewritten, request.forgetContext⟩ := ⟨hturns.append es, hfiled, rfl⟩
  exact .returns hprepared

/-- Recording. -/
theorem writes_recordTurn (request : UnifiedQueryRequest) (answer route traceId : String) {h : AskHistory}
    {prepared : PreparedTurn} (hprepared : Prepared id request.forgetContext h prepared) :
    Writes settings id (.turn request answer route traceId) (fun _ _ => True)
      (recordTurn settings prepared answer route traceId) h := by
  have hclock := writes_call settings id (x := .utcnow) (fun _ he => (nomatch he))
    (.turn request answer route traceId)
  refine (hclock h).bind (fun h₁ askedAt hq => ?_) fun _ _ _ => trivial
  obtain ⟨-, rfl⟩ := hq
  refine (hclock _).bind (fun h₂ updatedAt hq => ?_) fun _ _ _ => trivial
  obtain ⟨-, rfl⟩ := hq
  obtain ⟨shown, hin, hshown⟩ := (hprepared.read.append [⟨.utcnow, .ok askedAt⟩]).append [⟨.utcnow, .ok updatedAt⟩]
  have hput : Writes settings id (.turn request answer route traceId) (fun _ _ => True)
      (call (.putConversation (recordedTurn settings prepared answer route traceId askedAt updatedAt)))
      (h ++ [⟨.utcnow, .ok askedAt⟩] ++ [⟨.utcnow, .ok updatedAt⟩]) := by
    refine .perform fun _ _ => ⟨fun record he => ?_, trivial⟩
    injection he with he
    refine ⟨by rw [← he]; exact hprepared.filed, shown,
      ⟨prepared.originalQuestion, prepared.effectiveRequest.question, answer, route, traceId, askedAt⟩, hin, ?_⟩
    rw [← he, hshown, ← hprepared.forget]
    rfl
  exact hput.catchError (fun _ _ _ => trivial) fun _ _ _ => .done trivial

/-- Forgetting. -/
theorem writes_forget (h : AskHistory) : Writes settings id .forget (fun _ _ => True) (forget id) h := by
  refine (writes_load settings id .forget h).bind (fun h₁ found hq => ?_) fun _ _ _ => trivial
  obtain ⟨-, hfiled⟩ := hq found rfl
  cases found with
  | none => exact .done trivial
  | some record =>
    have hclock := writes_call settings id (x := .utcnow) (fun _ he => (nomatch he)) .forget h₁
    refine hclock.bind (fun h₂ now _ => ?_) fun _ _ _ => trivial
    have hput : Writes settings id .forget (fun _ _ => True)
        (call (.putConversation { record with turns := [], updatedAt := now })) h₂ := by
      refine .perform fun _ _ => ⟨fun record' he => ?_, trivial⟩
      injection he with he
      rw [← he]
      exact ⟨hfiled record rfl, rfl⟩
    exact hput.bind (fun _ _ _ => .done trivial) fun _ _ _ => trivial

/-- Every operation writes what it may. -/
theorem writes_code (settings : AskSettings) (hid : id ≠ "") (o : Operation) :
    Writes settings id o (fun _ _ => True) (code settings id o) [] := by
  cases o with
  | prepare request =>
    have hprepare := writes_prepare settings { request with conversationId := some id } hid rfl
      (.prepare request) []
    exact hprepare.bind (fun _ _ _ => .done trivial) fun _ _ _ => trivial
  | turn request answer route traceId =>
    have hprepare := writes_prepare settings { request with conversationId := some id } hid rfl
      (.turn request answer route traceId) []
    refine hprepare.bind (fun h prepared hq => ?_) fun _ _ _ => trivial
    obtain ⟨hread, hfiled, hforget⟩ := hq prepared rfl
    exact writes_recordTurn request answer route traceId ⟨hread, hfiled, hforget⟩
  | forget => exact (writes_forget []).bind (fun _ _ _ => .done trivial) fun _ _ _ => trivial

end Operations

section Store

variable {id : String} {e : AskEvent} {w w' : World}

/-- Records lie under their own ids. -/
def Filed (w : World) : Prop := ∀ id record, w id = .valid record → record.conversationId = id

/-- What a call does to the store. -/
theorem exec_cases (he : conversations.Exec e w w') :
    (∃ record, e = ⟨.putConversation record, .ok ()⟩ ∧ w' = Function.update w record.conversationId (.valid record)) ∨
      ((∀ record, e ≠ ⟨.putConversation record, .ok ()⟩) ∧ w' = w) := by
  obtain ⟨o, ho⟩ := he
  obtain ⟨a, r⟩ := e
  change conversations a o w = some (r, w') at ho
  cases a with
  | putConversation record =>
    cases o with
    | proceed =>
      injection ho with ho
      injection ho with hr hw
      subst hr hw
      exact .inl ⟨record, rfl, rfl⟩
    | raise m =>
      injection ho with ho
      injection ho with hr hw
      subst hr hw
      exact .inr ⟨fun record he => (nomatch he), rfl⟩
    | reading time => contradiction
    | text s => contradiction
  | _ =>
    refine .inr ⟨fun record he => (nomatch he), ?_⟩
    cases o <;> first
      | contradiction
      | injection ho with ho
        injection ho with hr hw
        exact hw.symm

/-- A read shows what the store holds. -/
theorem exec_read {payload : Stored ConversationRecord} (he : conversations.Exec ⟨.getConversation id, .ok payload⟩ w w') :
    payload = w id ∧ w' = w := by
  obtain ⟨o, ho⟩ := he
  cases o with
  | proceed =>
    injection ho with ho
    injection ho with hr hw
    injection hr with hr
    exact ⟨hr.symm, hw.symm⟩
  | raise m =>
    injection ho with ho
    injection ho with hr hw
    contradiction
  | reading time => contradiction
  | text s => contradiction

/-- A written record is what the store holds. -/
theorem exec_of_written {record : ConversationRecord} (he : conversations.Exec e w w') (hw : written id e = some record) :
    w' id = .valid record := by
  unfold written at hw
  split at hw
  · next r _ =>
    split at hw
    · next hid =>
      injection hw with hw
      subst hw
      rcases exec_cases he with ⟨record', he', rfl⟩ | ⟨hno, -⟩
      · injection he' with ha _
        injection ha with ha
        subst ha
        rw [hid, Function.update_self]
      · exact absurd rfl (hno r)
    · contradiction
  · contradiction

/-- What was written was asked for. -/
theorem action_of_written {record : ConversationRecord} (hw : written id e = some record) :
    e.action = .putConversation record := by
  unfold written at hw
  split at hw
  · next r _ =>
    split at hw
    · injection hw with hw
      rw [hw]
    · contradiction
  · contradiction

/-- Where the conversation is not written, it is as before. -/
theorem exec_of_not_written (he : conversations.Exec e w w') (hw : written id e = none) : w' id = w id := by
  rcases exec_cases he with ⟨record, rfl, rfl⟩ | ⟨-, rfl⟩
  · have hne : id ≠ record.conversationId := by
      rintro rfl
      simp only [written, if_true, reduceCtorEq] at hw
    rw [Function.update_of_ne hne]
  · rfl

/-- Every call keeps records under their own ids. -/
theorem exec_filed (he : conversations.Exec e w w') (hw : Filed w) : Filed w' := by
  rcases exec_cases he with ⟨record, -, rfl⟩ | ⟨-, rfl⟩
  · intro id record' hr
    by_cases hid : id = record.conversationId
    · subst hid
      rw [Function.update_self] at hr
      injection hr with hr
      rw [hr]
    · rw [Function.update_of_ne hid] at hr
      exact hw id record' hr
  · exact hw

/-- So reads show filed records. -/
theorem filedAnswer_of_exec {h : AskHistory} (he : conversations.Exec e w w') (hw : Filed w) : FiledAnswer h e := by
  unfold FiledAnswer
  split
  · next id record =>
    obtain ⟨hr, -⟩ := exec_read he
    exact hw id record hr.symm
  · trivial

end Store

section Runs

variable {settings : AskSettings} {id : String} {p q : TalkPool} {ms : List TalkMove}

/-- The store stays filed. -/
theorem filed_of_run (hrun : Talks settings id p ms q) (hfiled : Filed p.world) : Filed q.world :=
  hrun.world_invariant hfiled fun _ hm hw => exec_filed (hrun.of_mem hm).1.exec hw

/-- A move of a run shows filed records. -/
theorem filedAnswer_of_mem (hrun : Talks settings id p ms q) (hfiled : Filed p.world) {m : TalkMove} (hm : m ∈ ms)
    (h : AskHistory) : FiledAnswer h m.event := by
  obtain ⟨hallowed, ns, -, hbefore⟩ := hrun.of_mem hm
  exact filedAnswer_of_exec hallowed.exec (filed_of_run hbefore hfiled)

/-- A move of a run writes what its operation may. -/
theorem mayWrite_of_mem (hid : id ≠ "") (hrun : Talks settings id p ms q) (hidle : ∀ t, p.threads t = none)
    (hfiled : Filed p.world) {m : TalkMove} (hm : m ∈ ms) {record : ConversationRecord}
    (hw : m.event.action = .putConversation record) :
    MayWrite settings id m.runner.past record m.runner.operation := by
  obtain ⟨-, ns, -, hbefore⟩ := hrun.of_mem hm
  obtain ⟨next, hpath⟩ := path_of_move hrun hidle hm (a := m.event.action) (r := m.event.answer) rfl
  have hanswers : ∀ h' e es', m.runner.past = h' ++ e :: es' → FiledAnswer ([] ++ h') e := by
    intro h' e es' he
    have hin : e ∈ m.runner.past := by
      rw [he]
      exact List.mem_append_right _ List.mem_cons_self
    obtain ⟨ns', m', hns', hbefore', hm', -, rfl⟩ := earlier_move hrun hidle hm hin
    exact filedAnswer_of_mem hbefore' hfiled hm' _
  have hcode := (writes_code settings hid m.runner.operation).along hpath hanswers
  exact (hcode.1.of_act (filedAnswer_of_mem hrun hfiled hm _)).1 record hw

/-- The call is that of a turn which goes on from the turns it read. -/
def carriesOn (id : String) (m : TalkMove) : Bool :=
  match m.runner.operation with
  | .turn request _ _ _ => !request.forgetContext && (written id m.event).isSome
  | _ => false

/-- If `m` goes on from the read `m₀`, the read did not fail and nothing was
written in between. -/
def Fresh (id : String) (m₀ : TalkMove) (mid : List TalkMove) (m : TalkMove) : Prop :=
  m₀.thread = m.thread → isRead id m₀.event = true → carriesOn id m = true →
    failedRead id m₀.event = false ∧ ∀ m' ∈ mid, written id m'.event = none

instance (m₀ : TalkMove) (mid : List TalkMove) (m : TalkMove) : Decidable (Fresh id m₀ mid m) :=
  inferInstanceAs (Decidable (m₀.thread = m.thread → isRead id m₀.event = true → carriesOn id m = true →
    failedRead id m₀.event = false ∧ ∀ m' ∈ mid, written id m'.event = none))

/-- Forgets find out whether there is a conversation, and a turn that goes on
from what it read has read it, and nobody has written since. -/
structure Undisturbed (id : String) (ms : List TalkMove) : Prop where
  /-- The read of a forget does not fail. -/
  forgets_read : ∀ m ∈ ms, m.runner.operation = .forget → failedRead id m.event = false
  /-- Neither does the read of a turn that goes on from it, nor is it stale. -/
  turns_read : ∀ pre m₀ mid m post, ms = pre ++ m₀ :: (mid ++ m :: post) → Fresh id m₀ mid m

/-- So it was from the start. -/
theorem Undisturbed.before {m : TalkMove} (h : Undisturbed id (ms ++ [m])) : Undisturbed id ms := by
  refine ⟨fun m' hm' => h.forgets_read m' (List.mem_append_left _ hm'), fun pre m₀ mid m' post hms => ?_⟩
  refine h.turns_read pre m₀ mid m' (post ++ [m]) ?_
  rw [hms, List.append_assoc, List.cons_append, List.append_assoc, List.cons_append]

/-- Every two moves with what lies between them, one by one. -/
theorem undisturbed_iff : Undisturbed id ms ↔
    (∀ m ∈ ms, m.runner.operation = .forget → failedRead id m.event = false) ∧
    ∀ l ∈ ms.tails, ∀ m₀ ∈ l.head?, ∀ mid ∈ l.tail.inits, ∀ m ∈ (l.tail.drop mid.length).head?,
      Fresh id m₀ mid m := by
  constructor
  · rintro ⟨hforgets, hturns⟩
    refine ⟨hforgets, fun l hl m₀ hm₀ mid hmid m hm => ?_⟩
    obtain ⟨pre, rfl⟩ := (List.mem_tails _ _).mp hl
    obtain ⟨rest, rfl⟩ := List.head?_eq_some_iff.mp hm₀
    obtain ⟨rest', rfl⟩ := (List.mem_inits _ _).mp hmid
    rw [List.tail_cons, List.drop_left] at hm
    obtain ⟨post, rfl⟩ := List.head?_eq_some_iff.mp hm
    exact hturns pre m₀ mid m post rfl
  · rintro ⟨hforgets, hturns⟩
    refine ⟨hforgets, fun pre m₀ mid m post hms => ?_⟩
    refine hturns (m₀ :: (mid ++ m :: post)) ?_ m₀ rfl mid ?_ m ?_
    · exact (List.mem_tails _ _).mpr ⟨pre, hms.symm⟩
    · exact (List.mem_inits _ _).mpr (List.prefix_append _ _)
    · rw [List.tail_cons, List.drop_left]
      rfl

instance : Decidable (Undisturbed id ms) := decidable_of_iff' _ undisturbed_iff

/-- What a run does not write it leaves. -/
theorem store_of_not_written (hrun : Talks settings id p ms q) (hms : ∀ m ∈ ms, written id m.event = none) :
    q.world id = p.world id :=
  hrun.world_invariant (I := fun w => w id = p.world id) rfl fun m hm hw =>
    (exec_of_not_written (hrun.of_mem hm).1.exec (hms m hm)).trans hw

/-- A turn that goes on has read the turns that are stored when it writes. -/
theorem read_is_current (hrun : Talks settings id p ms q) (hidle : ∀ t, p.threads t = none) {m : TalkMove}
    {pre : List TalkMove} (hms : ms = pre ++ [m]) (hundisturbed : Undisturbed id ms) (hcarries : carriesOn id m = true)
    {answer : Except AskError (Stored ConversationRecord)} (hin : ⟨.getConversation id, answer⟩ ∈ m.runner.past) :
    readTurns answer = turnsOf (m.source.world id) := by
  obtain ⟨hbefore, -, -⟩ := hrun.split hms
  have hm : m ∈ ms := by
    rw [hms]
    exact List.mem_append_right _ (List.mem_singleton_self _)
  obtain ⟨m₀, hm₀, hthread, hevent⟩ := hbefore.move_of_past (hidle _) (runner_of_mem hrun hm) hin
  obtain ⟨ns, mid, rfl⟩ := List.append_of_mem hm₀
  have hread : isRead id m₀.event = true := by simp only [hevent, isRead, decide_true]
  have hsplit : ms = ns ++ m₀ :: (mid ++ m :: []) := by rw [hms, List.append_assoc, List.cons_append]
  obtain ⟨hok, hquiet⟩ := hundisturbed.turns_read ns m₀ mid m [] hsplit hthread hread hcarries
  obtain ⟨-, hallowed, hafter⟩ := hbefore.split rfl
  have hstored := store_of_not_written hafter hquiet
  have hexec := hallowed.exec
  rw [hevent] at hok hexec
  cases answer with
  | error e => simp only [failedRead, decide_true, reduceCtorEq] at hok
  | ok payload =>
    obtain ⟨hpayload, hsame⟩ := exec_read hexec
    rw [hstored, hsame, ← hpayload]
    rfl

/-- What a call finds missing has no turns. -/
theorem turnsOf_of_foundNone {e : AskEvent} {w w' : World} (he : conversations.Exec e w w') (hf : foundNone id e = true) :
    turnsOf (w id) = [] := by
  unfold foundNone at hf
  split at hf
  · rw [decide_eq_true_eq] at hf
    rw [← hf, ← (exec_read he).1]
    rfl
  · rw [decide_eq_true_eq] at hf
    rw [← hf, ← (exec_read he).1]
    rfl
  · contradiction

/-- A call that does not write forgets nothing that is there. -/
theorem turnsOf_of_forgets {m : TalkMove} (hallowed : m.Allowed conversations) (hw : written id m.event = none)
    (hf : forgets id m = true) : turnsOf (m.source.world id) = [] := by
  unfold forgets at hf
  rw [hw] at hf
  split at hf
  · rw [Option.isSome_none, Bool.and_false] at hf
    contradiction
  · rw [Option.isSome_none, Bool.false_or] at hf
    exact turnsOf_of_foundNone hallowed.exec hf
  · contradiction

/-- A turn's write, as the log has it. -/
theorem logged_of_turn {m : TalkMove} {request : UnifiedQueryRequest} {answer route traceId : String}
    (hop : m.runner.operation = .turn request answer route traceId) {record : ConversationRecord}
    (hw : written id m.event = some record) {turns : List ConversationTurn} (turn : ConversationTurn)
    (hturns : record.turns = ((if request.forgetContext then [] else turns) ++ [turn]).rtake settings.conversationMaxTurns) :
    logged id settings turns m = record.turns := by
  have hpos := settings.conversationMaxTurns_pos
  have hlast : record.turns.getLast? = some turn := by
    rw [hturns, List.rtake_eq_reverse_take_reverse, List.reverse_append, List.reverse_singleton, List.singleton_append,
      List.getLast?_reverse, List.head?_take, if_neg (by omega), List.head?_cons]
  have hrecorded : recorded id m = some turn := by simp only [recorded, hop, hw, Option.bind_some, hlast]
  have hforgets : forgets id m = request.forgetContext := by
    simp only [forgets, hop, hw, Option.isSome_some, Bool.and_true]
  rw [logged_of_recorded _ hrecorded, hforgets, hturns]

/-- A move leaves the history with one entry of the log more. -/
theorem turnsOf_move (hid : id ≠ "") (hrun : Talks settings id p ms q) (hidle : ∀ t, p.threads t = none)
    (hfiled : Filed p.world) {m : TalkMove} {pre : List TalkMove} (hms : ms = pre ++ [m])
    (hundisturbed : Undisturbed id ms) :
    turnsOf (m.target.world id) = logged id settings (turnsOf (m.source.world id)) m := by
  have hm : m ∈ ms := by
    rw [hms]
    exact List.mem_append_right _ (List.mem_singleton_self _)
  obtain ⟨hallowed, -⟩ := hrun.of_mem hm
  cases hw : written id m.event with
  | none =>
    have hrecorded : recorded id m = none := by
      unfold recorded
      split
      · rw [hw, Option.bind_none]
      · rfl
    rw [exec_of_not_written hallowed.exec hw, logged_of_not_recorded _ hrecorded]
    split
    · next hforgets => exact turnsOf_of_forgets hallowed hw hforgets
    · rfl
  | some record =>
    have hmay := mayWrite_of_mem hid hrun hidle hfiled hm (action_of_written hw)
    rw [exec_of_written hallowed.exec hw]
    cases hop : m.runner.operation with
    | prepare request =>
      rw [hop] at hmay
      exact hmay.elim
    | turn request answer route traceId =>
      rw [hop] at hmay
      obtain ⟨-, shown, turn, hread, hturns⟩ := hmay
      cases hforget : request.forgetContext with
      | true =>
        refine (logged_of_turn hop hw turn ?_).symm
        rw [hturns, hforget, if_pos rfl, if_pos rfl]
      | false =>
        have hcarries : carriesOn id m = true := by simp [carriesOn, hop, hforget, hw]
        have hcurrent := read_is_current hrun hidle hms hundisturbed hcarries hread
        refine (logged_of_turn hop hw turn ?_).symm
        rw [hturns, hcurrent]
    | forget =>
      rw [hop] at hmay
      have hrecorded : recorded id m = none := by simp only [recorded, hop]
      have hforgets : forgets id m = true := by simp only [forgets, hop, hw, Option.isSome_some, Bool.true_or]
      rw [logged_of_not_recorded _ hrecorded, if_pos hforgets]
      exact hmay.2

/-- After an undisturbed run the history is what the log says. -/
theorem turnsOf_run (hid : id ≠ "") (hrun : Talks settings id p ms q) (hidle : ∀ t, p.threads t = none)
    (hfiled : Filed p.world) (hundisturbed : Undisturbed id ms) :
    turnsOf (q.world id) = ms.foldl (logged id settings) (turnsOf (p.world id)) := by
  induction hrun with
  | refl => rfl
  | start _ _ _ _ ih => exact ih hundisturbed
  | @move ms m hrun hm ih =>
    rw [List.foldl_append, List.foldl_cons, List.foldl_nil, ← ih hundisturbed.before]
    exact turnsOf_move hid (.move hrun hm) hidle hfiled rfl hundisturbed

/-- Turns and forgets of one conversation in any interleaving, undisturbed.
Whatever was recorded since the last forget is in the history in that order, the
oldest dropped first; what was recorded before a forget is not. -/
theorem history_kept (hid : id ≠ "") (hrun : Talks settings id p ms q) (hidle : ∀ t, p.threads t = none)
    (hfiled : Filed p.world) (hundisturbed : Undisturbed id ms) :
    (∀ before after, ms = before ++ after → (∀ m ∈ after, forgets id m = false) →
      (recordings id after).rtake settings.conversationMaxTurns <:+ turnsOf (q.world id)) ∧
    ∀ before m after, ms = before ++ m :: after → forgets id m = true →
      turnsOf (q.world id) <:+ recordings id (m :: after) := by
  rw [turnsOf_run hid hrun hidle hfiled hundisturbed]
  constructor
  · rintro before after rfl hafter
    rw [List.foldl_append]
    exact recordings_suffix_logged _ hafter
  · rintro before m after rfl hforgets
    let turns := before.foldl (logged id settings) (turnsOf (p.world id))
    have hfirst : logged id settings turns m <:+ recordings id [m] := logged_of_forgets turns hforgets
    have hrest : after.foldl (logged id settings) (logged id settings turns m) <:+
        logged id settings turns m ++ recordings id after := logged_suffix _ _
    have hsplit : recordings id (m :: after) = recordings id [m] ++ recordings id after := List.filterMap_append (l := [m])
    rw [List.foldl_append, List.foldl_cons, hsplit]
    obtain ⟨older, holder⟩ := hfirst
    rw [← holder, List.append_assoc]
    exact hrest.trans (List.suffix_append _ _)

/-- Calls go through, at noon. -/
def calm : AskCall → Fate
  | .utcnow => .reading 12
  | .uuid4 => .text "new"
  | _ => .proceed

/-- The scheduler's choices. -/
abbrev Turn := Command Fate Operation AskCall

/-- Some calls of one thread. -/
def calls (t n : ℕ) : List Turn := List.replicate n (.step t calm)

/-- A turn with this question. -/
def sampleTurn (question : String) : Operation := .turn { question } "answer" "rag" "trace"

/-- A turn, a forget and another turn, one after the other. -/
def calmTurns : List Turn :=
  .start 0 (sampleTurn "a") :: calls 0 5 ++ .start 1 .forget :: calls 1 3 ++ .start 2 (sampleTurn "b") :: calls 2 4

/-- The pool after that. -/
def calmPool : TalkPool := (Pool.idle fun _ => .absent).reached conversations (code sampleSettings "c") calmTurns

theorem history_kept_sample : ∃ ms, Talks sampleSettings "c" (Pool.idle fun _ => .absent) ms calmPool ∧
    (turnsOf (calmPool.world "c")).map ConversationTurn.question = ["b"] ∧
    (∀ before after, ms = before ++ after → (∀ m ∈ after, forgets "c" m = false) →
      (recordings "c" after).rtake sampleSettings.conversationMaxTurns <:+ turnsOf (calmPool.world "c")) ∧
    ∀ before m after, ms = before ++ m :: after → forgets "c" m = true →
      turnsOf (calmPool.world "c") <:+ recordings "c" (m :: after) := by
  have hdriven : ((Pool.idle fun _ => .absent : TalkPool).drive conversations (code sampleSettings "c") calmTurns).isSome =
      true := by decide +kernel
  have hundisturbed : Undisturbed "c" ((Pool.idle fun _ => .absent : TalkPool).moves conversations
      (code sampleSettings "c") calmTurns) := by decide +kernel
  have hturns : (turnsOf (calmPool.world "c")).map ConversationTurn.question = ["b"] := by decide +kernel
  have hrun := Run.reached hdriven
  have hfiled : Filed (Pool.idle fun _ => .absent : TalkPool).world := fun _ _ h => (nomatch h)
  exact ⟨_, hrun, hturns, history_kept (by decide) hrun (fun _ => rfl) hfiled hundisturbed⟩

/-- Two turns read the conversation before either is recorded. -/
def overlappingTurns : List Turn :=
  .start 0 (sampleTurn "a") :: calls 0 2 ++ .start 1 (sampleTurn "b") :: calls 1 2 ++ calls 0 3 ++ calls 1 3

/-- The pool after that. -/
def overlappingPool : TalkPool :=
  (Pool.idle fun _ => .absent).reached conversations (code sampleSettings "c") overlappingTurns

/-- Both are recorded, nothing is forgotten, and the first is lost. -/
theorem history_lost : ∃ ms, Talks sampleSettings "c" (Pool.idle fun _ => .absent) ms overlappingPool ∧
    overlappingPool.AtRest ∧ (∀ m ∈ ms, forgets "c" m = false) ∧
    (recordings "c" ms).map ConversationTurn.question = ["a", "b"] ∧
    (turnsOf (overlappingPool.world "c")).map ConversationTurn.question = ["b"] := by
  have hdriven : ((Pool.idle fun _ => .absent : TalkPool).drive conversations (code sampleSettings "c")
      overlappingTurns).isSome = true := by decide +kernel
  have hstarted : ∀ c ∈ overlappingTurns, ∀ t ∈ c.started, t < 2 := by decide +kernel
  have hfinished : ∀ t < 2, ∀ th ∈ overlappingPool.threads t, th.Finished := by decide +kernel
  have hforgets : ∀ m ∈ (Pool.idle fun _ => .absent : TalkPool).moves conversations (code sampleSettings "c")
      overlappingTurns, forgets "c" m = false := by decide +kernel
  have hrecorded : (recordings "c" ((Pool.idle fun _ => .absent : TalkPool).moves conversations (code sampleSettings "c")
      overlappingTurns)).map ConversationTurn.question = ["a", "b"] := by decide +kernel
  have hturns : (turnsOf (overlappingPool.world "c")).map ConversationTurn.question = ["b"] := by decide +kernel
  exact ⟨_, Run.reached hdriven, Pool.atRest_reached (fun _ => rfl) hdriven hstarted hfinished, hforgets, hrecorded, hturns⟩

end Runs

end RagSystem.ConversationHistory
