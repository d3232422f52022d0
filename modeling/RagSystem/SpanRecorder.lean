import Mathlib.Data.Finset.Card
import Mathlib.Algebra.Order.Ring.Nat
import Mathlib.Order.Interval.Set.Infinite
import RagSystem.TraceStores

/-!
# Traces and spans as blocks

The recorder keeps the active trace, span and recording flag in context
variables that each block sets and resets. A program nests blocks in any way,
and a body may raise. What a block sees of the clock, of the sampler's draw and
of failures in creating its span is given with it; metrics and warnings are
left out, since nothing is read from them.
-/

namespace RagSystem.SpanRecorder

open TraceStores

set_option autoImplicit false

section Context

/-- `_TRACE_ID`, `_ACTIVE_SPAN_ID` and `_RECORDING`. -/
structure Context where
  /-- The active trace. -/
  traceId : Option String
  /-- The active span. -/
  spanId : Option String
  /-- Whether the enclosing trace is recorded. -/
  recording : Bool
  deriving DecidableEq

/-- `uuid4().hex`, draw after draw. -/
structure IdSource where
  /-- What a draw gives. -/
  hex : ℕ → String
  /-- No two draws are the same. -/
  injective : Function.Injective hex

/-- The recorder's state, with the context it works in. -/
structure RecorderState where
  /-- The context variables. -/
  context : Context
  /-- `_active_trace_ids`. -/
  activeTraceIds : Finset String
  /-- How many ids were drawn. -/
  drawn : ℕ
  /-- The spans given to the buffer, in order. -/
  offered : List Span

/-- What the recorder runs on. -/
structure Runtime (Exc : Type) where
  /-- `enabled`, of the sampler. -/
  enabled : Bool
  /-- The ids. -/
  ids : IdSource
  /-- `type(exc).__name__`. -/
  typeName : Exc → String
  /-- `str(exc)`, which can raise. -/
  str : Exc → Except Exc String

end Context

section Ids

/-- A later draw is not among some ids. -/
theorem exists_unused (ids : IdSource) (active : Finset String) (drawn : ℕ) : ∃ n, drawn ≤ n ∧ ids.hex n ∉ active := by
  have hinfinite : (ids.hex '' Set.Ici drawn).Infinite := (Set.Ici_infinite drawn).image ids.injective.injOn
  obtain ⟨_, hdrawn, hunused⟩ := hinfinite.exists_notMem_finset active
  obtain ⟨n, hn, hid⟩ := hdrawn
  exact ⟨n, hn, hid ▸ hunused⟩

/-- `_new_span_id`. -/
def newSpanId (ids : IdSource) (state : RecorderState) : String × RecorderState :=
  (ids.hex state.drawn, { state with drawn := state.drawn + 1 })

/-- `_resolve_trace_id`: a missing one is drawn until it is not in use. -/
def resolveTraceId (ids : IdSource) (candidate : Option String) (state : RecorderState) : String × RecorderState :=
  match candidate with
  | some traceId => (traceId, { state with activeTraceIds := insert traceId state.activeTraceIds })
  | none =>
    let n := Nat.find (exists_unused ids state.activeTraceIds state.drawn)
    (ids.hex n, { state with activeTraceIds := insert (ids.hex n) state.activeTraceIds, drawn := n + 1 })

end Ids

section Blocks

/-- The two kinds of block. -/
inductive Kind where
  /-- `start_trace`. -/
  | startTrace (traceId : Option String) (route : String)
  /-- `record_span`; its attributes as scalars. -/
  | recordSpan (operation : String) (attributes : List (String × AttributeValue))

/-- What a block meets. -/
structure Circumstances where
  /-- `random.random() < self._sample_rate`. -/
  draw : Bool
  /-- Nothing fails in creating its span. -/
  created : Bool
  /-- When it begins. -/
  startTs : ℤ
  /-- How long it takes. -/
  durationMs : ℕ

/-- `TraceSampler.should_record`. -/
def shouldRecord (enabled hasTraceHeader draw : Bool) : Bool := enabled && (hasTraceHeader || draw)

/-- What a root holds besides the token of its span. -/
structure TraceTokens where
  /-- `trace_token`. -/
  trace : Option String
  /-- `recording_token`. -/
  recording : Bool
  /-- The id to release. -/
  traceId : String

/-- A block that was entered, with what it needs to leave. -/
inductive Opened where
  /-- Nothing was set. -/
  | noop
  /-- The trace is not sampled. -/
  | notSampled (recordingToken : Bool)
  /-- A span is open; a root has tokens of its trace. -/
  | span (span : Span) (spanToken : Option String) (trace : Option TraceTokens)

/-- `ROOT_SPAN_OPERATION`. -/
def rootSpanOperation : String := "Root_Span"

/-- `attributes[key] = value`. -/
def setAttribute (attributes : List (String × AttributeValue)) (key : String) (value : AttributeValue) :
    List (String × AttributeValue) :=
  if attributes.any fun entry => entry.1 = key then
    attributes.map fun entry => if entry.1 = key then (key, value) else entry
  else attributes ++ [(key, value)]

variable {Exc : Type}

/-- `start_trace` up to its `yield`. -/
def startTrace (runtime : Runtime Exc) (traceId : Option String) (route : String) (circumstances : Circumstances)
    (state : RecorderState) : Opened × RecorderState :=
  let effectiveTraceId := (traceId.filter (· ≠ "")).or state.context.traceId
  if shouldRecord runtime.enabled traceId.isSome circumstances.draw then
    let (resolvedTraceId, state) := resolveTraceId runtime.ids effectiveTraceId state
    if circumstances.created then
      let (spanId, state) := newSpanId runtime.ids state
      let rootSpan : Span :=
        { spanId := spanId
          parentSpanId := none
          operation := rootSpanOperation
          startTs := circumstances.startTs
          durationMs := 0
          status := .success
          traceId := some resolvedTraceId
          route := some route }
      (.span rootSpan state.context.spanId (some ⟨state.context.traceId, state.context.recording, resolvedTraceId⟩),
        { state with context := ⟨some resolvedTraceId, some spanId, true⟩ })
    else (.noop, state)
  else (.notSampled state.context.recording, { state with context := { state.context with recording := false } })

/-- `record_span` up to its `yield`. -/
def recordSpan (runtime : Runtime Exc) (operation : String) (attributes : List (String × AttributeValue))
    (circumstances : Circumstances) (state : RecorderState) : Opened × RecorderState :=
  if state.context.recording then
    if circumstances.created then
      let (spanId, state) := newSpanId runtime.ids state
      let span : Span :=
        { spanId := spanId
          parentSpanId := state.context.spanId
          operation := operation
          startTs := circumstances.startTs
          durationMs := 0
          status := .success
          attributes := attributes.foldl (fun set entry => setAttribute set entry.1 entry.2) []
          traceId := state.context.traceId }
      (.span span state.context.spanId none, { state with context := { state.context with spanId := some spanId } })
    else (.noop, state)
  else (.noop, state)

/-- Entering a block. -/
def enter (runtime : Runtime Exc) (kind : Kind) (circumstances : Circumstances) (state : RecorderState) :
    Opened × RecorderState :=
  match kind with
  | .startTrace traceId route => startTrace runtime traceId route circumstances state
  | .recordSpan operation attributes => recordSpan runtime operation attributes circumstances state

/-- `MAX_EXCEPTION_MESSAGE_LENGTH`. -/
def maxExceptionMessageLength : ℕ := 4096

/-- `_record_exception`, without an exception nothing: it raises what `str(exc)` raises. -/
def recordException (runtime : Runtime Exc) (attributes : List (String × AttributeValue)) (exc : Option Exc) :
    Except Exc (List (String × AttributeValue)) :=
  match exc with
  | none => .ok attributes
  | some exc => (runtime.str exc).map fun text =>
    setAttribute (setAttribute attributes "exception.type" (.str (runtime.typeName exc))) "exception.message"
      (.str (String.ofList (text.toList.take maxExceptionMessageLength)))

/-- The context a block's tokens restore. -/
def restore (context : Context) (spanToken : Option String) (trace : Option TraceTokens) : Context :=
  match trace with
  | none => { context with spanId := spanToken }
  | some tokens => ⟨tokens.trace, spanToken, tokens.recording⟩

/-- `_close_span`: the span with its end, the context restored, and what it raises. -/
def closeSpan (runtime : Runtime Exc) (span : Span) (durationMs : ℕ) (exc : Option Exc) (spanToken : Option String)
    (trace : Option TraceTokens) (state : RecorderState) : RecorderState × Option Exc :=
  match recordException runtime span.attributes exc with
  | .error raised => (state, some raised)
  | .ok attributes =>
    let closed : Span :=
      { span with
        durationMs := durationMs
        status := if exc.isSome then .error else .success
        attributes := attributes }
    ({ state with
        context := restore state.context spanToken trace
        activeTraceIds := match trace with
          | none => state.activeTraceIds
          | some tokens => state.activeTraceIds.erase tokens.traceId
        offered := state.offered ++ [closed] }, none)

/-- Leaving a block after its body: what it raises. -/
def leave (runtime : Runtime Exc) (opened : Opened) (durationMs : ℕ) (state : RecorderState) (exc : Option Exc) :
    RecorderState × Option Exc :=
  match opened with
  | .noop => (state, exc)
  | .notSampled recordingToken => ({ state with context := { state.context with recording := recordingToken } }, exc)
  | .span span spanToken trace => match closeSpan runtime span durationMs exc spanToken trace state with
    | (state, some raised) => (state, some raised)
    | (state, none) => (state, exc)

end Blocks

section Programs

/-- A program of nested blocks. -/
inductive Program (Exc : Type) where
  /-- Nothing. -/
  | skip
  /-- An exception is raised. -/
  | raise (exc : Exc)
  /-- One after the other. -/
  | seq (first second : Program Exc)
  /-- `try`, with the exceptions its handler takes. -/
  | attempt (body : Program Exc) (catches : Exc → Bool) (handler : Program Exc)
  /-- `with` a block. -/
  | block (kind : Kind) (circumstances : Circumstances) (body : Program Exc)

variable {Exc : Type}

/-- A run of a program: what it leaves, and what it raises. -/
def exec (runtime : Runtime Exc) : Program Exc → RecorderState → RecorderState × Option Exc
  | .skip, state => (state, none)
  | .raise exc, state => (state, some exc)
  | .seq first second, state => match exec runtime first state with
    | (state, none) => exec runtime second state
    | (state, some exc) => (state, some exc)
  | .attempt body catches handler, state => match exec runtime body state with
    | (state, none) => (state, none)
    | (state, some exc) => if catches exc then exec runtime handler state else (state, some exc)
  | .block kind circumstances body, state =>
    let (opened, entered) := enter runtime kind circumstances state
    let (ended, exc) := exec runtime body entered
    leave runtime opened circumstances.durationMs ended exc

/-- A block on its way: the blocks around it, the innermost first, and the state it is entered in. -/
structure Visit (Exc : Type) where
  /-- The blocks around it. -/
  enclosing : List Opened
  /-- Its kind. -/
  kind : Kind
  /-- What it meets. -/
  circumstances : Circumstances
  /-- Its body. -/
  body : Program Exc
  /-- The state before it. -/
  before : RecorderState

/-- The blocks a run comes to. -/
inductive Visits (runtime : Runtime Exc) : Program Exc → List Opened → RecorderState → Visit Exc → Prop where
  /-- The block itself. -/
  | here (kind : Kind) (circumstances : Circumstances) (body : Program Exc) (enclosing : List Opened)
      (state : RecorderState) :
      Visits runtime (.block kind circumstances body) enclosing state ⟨enclosing, kind, circumstances, body, state⟩
  /-- One in its body. -/
  | inside {kind : Kind} {circumstances : Circumstances} {body : Program Exc} {enclosing : List Opened}
      {state : RecorderState} {visit : Visit Exc} :
      Visits runtime body ((enter runtime kind circumstances state).1 :: enclosing)
        (enter runtime kind circumstances state).2 visit →
      Visits runtime (.block kind circumstances body) enclosing state visit
  /-- One in the first part. -/
  | first {first second : Program Exc} {enclosing : List Opened} {state : RecorderState} {visit : Visit Exc} :
      Visits runtime first enclosing state visit → Visits runtime (.seq first second) enclosing state visit
  /-- One in the second, where the first ends well. -/
  | second {first second : Program Exc} {enclosing : List Opened} {state : RecorderState} {visit : Visit Exc} :
      (exec runtime first state).2 = none → Visits runtime second enclosing (exec runtime first state).1 visit →
      Visits runtime (.seq first second) enclosing state visit
  /-- One in what is tried. -/
  | body {body handler : Program Exc} {catches : Exc → Bool} {enclosing : List Opened} {state : RecorderState}
      {visit : Visit Exc} :
      Visits runtime body enclosing state visit → Visits runtime (.attempt body catches handler) enclosing state visit
  /-- One in the handler. -/
  | handler {body handler : Program Exc} {catches : Exc → Bool} {enclosing : List Opened} {state : RecorderState}
      {visit : Visit Exc} {exc : Exc} :
      (exec runtime body state).2 = some exc → catches exc = true →
      Visits runtime handler enclosing (exec runtime body state).1 visit →
      Visits runtime (.attempt body catches handler) enclosing state visit

end Programs

section Statement

variable {Exc : Type}

/-- The innermost recorded span around a place, or else the one active at the start. -/
def innermostSpan (base : Context) : List Opened → Option String
  | [] => base.spanId
  | .span span _ _ :: _ => some span.spanId
  | _ :: enclosing => innermostSpan base enclosing

/-- The innermost recorded trace. -/
def innermostTrace (base : Context) : List Opened → Option String
  | [] => base.traceId
  | .span root _ (some _) :: _ => root.traceId
  | _ :: enclosing => innermostTrace base enclosing

/-- Whether the innermost trace is recorded. -/
def innermostRecording (base : Context) : List Opened → Bool
  | [] => base.recording
  | .span _ _ (some _) :: _ => true
  | .notSampled _ :: _ => false
  | _ :: enclosing => innermostRecording base enclosing

/-- Whether a block records a span. -/
def opens (runtime : Runtime Exc) (recording : Bool) (kind : Kind) (circumstances : Circumstances) : Bool :=
  match kind with
  | .startTrace traceId _ => shouldRecord runtime.enabled traceId.isSome circumstances.draw && circumstances.created
  | .recordSpan _ _ => recording && circumstances.created

/-- The entered block. -/
def Visit.opened (runtime : Runtime Exc) (visit : Visit Exc) : Opened :=
  (enter runtime visit.kind visit.circumstances visit.before).1

/-- Its body's end. -/
def Visit.bodyEnd (runtime : Runtime Exc) (visit : Visit Exc) : RecorderState × Option Exc :=
  exec runtime visit.body (enter runtime visit.kind visit.circumstances visit.before).2

/-- Its own end. -/
def Visit.blockEnd (runtime : Runtime Exc) (visit : Visit Exc) : RecorderState × Option Exc :=
  exec runtime (.block visit.kind visit.circumstances visit.body) visit.before

/-- Where a span hangs: a root has no parent and adopts the trace it is given or
is in; another span hangs below the innermost one, in the innermost trace. -/
def Hangs (base : Context) (visit : Visit Exc) (span : Span) : Prop :=
  match visit.kind with
  | .startTrace traceId _ => span.parentSpanId = none ∧ span.traceId ≠ none ∧
    ∀ given, (traceId.filter (· ≠ "")).or (innermostTrace base visit.enclosing) = some given → span.traceId = some given
  | .recordSpan _ _ => span.parentSpanId = innermostSpan base visit.enclosing ∧
    span.traceId = innermostTrace base visit.enclosing

/-- A block is in order. -/
structure Visit.InOrder (runtime : Runtime Exc) (base : Context) (visit : Visit Exc) : Prop where
  /-- The context is what it was. -/
  restored : (visit.blockEnd runtime).1.context = visit.before.context
  /-- The exception of the body reaches the caller. -/
  unchanged : (visit.blockEnd runtime).2 = (visit.bodyEnd runtime).2
  /-- A block that records gives its span to the buffer, after all that its body gave. -/
  recorded : opens runtime (innermostRecording base visit.enclosing) visit.kind visit.circumstances = true →
    ∃ opened spanToken trace inner span, visit.opened runtime = .span opened spanToken trace ∧
      (visit.bodyEnd runtime).1.offered = visit.before.offered ++ inner ∧
      (visit.blockEnd runtime).1.offered = visit.before.offered ++ inner ++ [span] ∧
      span.spanId = opened.spanId ∧ Hangs base visit span ∧ (span.status = .error ↔ (visit.bodyEnd runtime).2 ≠ none)
  /-- Another gives none. -/
  skipped : opens runtime (innermostRecording base visit.enclosing) visit.kind visit.circumstances = false →
    (visit.blockEnd runtime).1.offered = (visit.bodyEnd runtime).1.offered

/-- What a program raises, blocks or not. -/
def raises : Program Exc → Option Exc
  | .skip => none
  | .raise exc => some exc
  | .seq first second => match raises first with
    | none => raises second
    | some exc => some exc
  | .attempt body catches handler => match raises body with
    | none => none
    | some exc => if catches exc then raises handler else some exc
  | .block _ _ body => raises body

/-- Whether a block's body is recorded. -/
def recordingInside (runtime : Runtime Exc) (recording : Bool) (kind : Kind) (circumstances : Circumstances) : Bool :=
  match kind with
  | .startTrace traceId _ =>
    if shouldRecord runtime.enabled traceId.isSome circumstances.draw then circumstances.created || recording else false
  | .recordSpan _ _ => recording

/-- No recorded block's body raises an exception without a text. -/
def Legible (runtime : Runtime Exc) : Program Exc → Bool → Prop
  | .skip, _ => True
  | .raise _, _ => True
  | .seq first second, recording =>
    Legible runtime first recording ∧ (raises first = none → Legible runtime second recording)
  | .attempt body catches handler, recording =>
    Legible runtime body recording ∧
      ∀ exc, raises body = some exc → catches exc = true → Legible runtime handler recording
  | .block kind circumstances body, recording =>
    Legible runtime body (recordingInside runtime recording kind circumstances) ∧
      (opens runtime recording kind circumstances = true →
        ∀ exc, raises body = some exc → ∃ text, runtime.str exc = .ok text)

end Statement

section Lemmas

variable {Exc : Type} {runtime : Runtime Exc} {base : Context} {kind : Kind} {circumstances : Circumstances}
  {state : RecorderState} {enclosing : List Opened} {program : Program Exc}

/-- The context in a block, by where it stands. -/
def Opened.inside (context : Context) : Opened → Context
  | .noop => context
  | .notSampled _ => { context with recording := false }
  | .span own _ none => { context with spanId := some own.spanId }
  | .span root _ (some _) => ⟨root.traceId, some root.spanId, true⟩

/-- The context around a place, by where it stands. -/
def lexicalContext (base : Context) (enclosing : List Opened) : Context :=
  ⟨innermostTrace base enclosing, innermostSpan base enclosing, innermostRecording base enclosing⟩

theorem lexicalContext_cons (opened : Opened) :
    lexicalContext base (opened :: enclosing) = opened.inside (lexicalContext base enclosing) := by
  cases opened with
  | noop => rfl
  | notSampled token => rfl
  | span span token trace =>
    cases trace with
    | none => rfl
    | some tokens => rfl

/-- The context a block leaves, if its body left the one it was given. -/
def Opened.outside (context : Context) : Opened → Context
  | .noop => context
  | .notSampled token => { context with recording := token }
  | .span _ token trace => restore context token trace

/-- Whether a block was entered with a span. -/
def Opened.isSpan : Opened → Bool
  | .span _ _ _ => true
  | _ => false

@[simp] theorem resolveTraceId_context (ids : IdSource) (candidate : Option String) :
    (resolveTraceId ids candidate state).2.context = state.context := by
  cases candidate with
  | none => rfl
  | some traceId => rfl

@[simp] theorem resolveTraceId_offered (ids : IdSource) (candidate : Option String) :
    (resolveTraceId ids candidate state).2.offered = state.offered := by
  cases candidate with
  | none => rfl
  | some traceId => rfl

/-- A trace id that is given is adopted. -/
theorem resolveTraceId_given (ids : IdSource) {candidate : Option String} {given : String} (h : candidate = some given) :
    (resolveTraceId ids candidate state).1 = given := by
  rw [h]
  rfl

/-- What entering a block does. -/
structure Entered (runtime : Runtime Exc) (kind : Kind) (circumstances : Circumstances) (state : RecorderState) : Prop where
  /-- The context is that of its inside. -/
  inside : (enter runtime kind circumstances state).2.context =
    (enter runtime kind circumstances state).1.inside state.context
  /-- From there its tokens lead back. -/
  outside : (enter runtime kind circumstances state).1.outside (enter runtime kind circumstances state).2.context =
    state.context
  /-- It gives nothing to the buffer. -/
  offered : (enter runtime kind circumstances state).2.offered = state.offered
  /-- It has a span if it records one. -/
  opens : (enter runtime kind circumstances state).1.isSpan = opens runtime state.context.recording kind circumstances
  /-- Its body is recorded or not. -/
  recording : (enter runtime kind circumstances state).2.context.recording =
    recordingInside runtime state.context.recording kind circumstances

theorem enter_spec (runtime : Runtime Exc) (kind : Kind) (circumstances : Circumstances) (state : RecorderState) :
    Entered runtime kind circumstances state := by
  cases kind with
  | startTrace traceId route =>
    cases hsampled : shouldRecord runtime.enabled traceId.isSome circumstances.draw with
    | false =>
      constructor <;> simp [enter, startTrace, hsampled, Opened.inside, Opened.outside, Opened.isSpan, SpanRecorder.opens,
        recordingInside]
    | true =>
      cases hcreated : circumstances.created with
      | false =>
        constructor <;> simp [enter, startTrace, hsampled, hcreated, Opened.inside, Opened.outside, Opened.isSpan,
          SpanRecorder.opens, recordingInside]
      | true =>
        constructor <;> simp [enter, startTrace, hsampled, hcreated, Opened.inside, Opened.outside, Opened.isSpan,
          SpanRecorder.opens, recordingInside, newSpanId, restore]
  | recordSpan operation attributes =>
    obtain ⟨⟨activeTrace, activeSpan, recording⟩, active, drawn, offered⟩ := state
    cases recording with
    | false =>
      constructor <;> simp [enter, recordSpan, Opened.inside, Opened.outside, Opened.isSpan, SpanRecorder.opens,
        recordingInside]
    | true =>
      cases hcreated : circumstances.created with
      | false =>
        constructor <;> simp [enter, recordSpan, hcreated, Opened.inside, Opened.outside, Opened.isSpan,
          SpanRecorder.opens, recordingInside]
      | true =>
        constructor <;> simp [enter, recordSpan, hcreated, Opened.inside, Opened.outside, Opened.isSpan,
          SpanRecorder.opens, recordingInside, newSpanId, restore]

/-- What leaving a block does, unless the exception of its body has no text. -/
structure Left (runtime : Runtime Exc) (opened : Opened) (durationMs : ℕ) (state : RecorderState) (exc : Option Exc) :
    Prop where
  /-- The context by its tokens. -/
  outside : (leave runtime opened durationMs state exc).1.context = opened.outside state.context
  /-- The exception is raised on. -/
  unchanged : (leave runtime opened durationMs state exc).2 = exc
  /-- A span is given to the buffer. -/
  span : ∀ span spanToken trace, opened = .span span spanToken trace → ∃ attributes,
    (leave runtime opened durationMs state exc).1.offered = state.offered ++ [{ span with
      durationMs := durationMs
      status := if exc.isSome then .error else .success
      attributes := attributes }]
  /-- Without one nothing is. -/
  other : opened.isSpan = false → (leave runtime opened durationMs state exc).1.offered = state.offered

theorem leave_spec (opened : Opened) (durationMs : ℕ) (state : RecorderState) (exc : Option Exc)
    (htext : opened.isSpan = true → ∀ raised, exc = some raised → ∃ text, runtime.str raised = .ok text) :
    Left runtime opened durationMs state exc := by
  cases opened with
  | noop => exact ⟨rfl, rfl, by simp, fun _ => rfl⟩
  | notSampled token => exact ⟨rfl, rfl, by simp, fun _ => rfl⟩
  | span span token trace =>
    have hrecorded : ∃ attributes, recordException runtime span.attributes exc = .ok attributes := by
      cases exc with
      | none => exact ⟨_, rfl⟩
      | some raised =>
        obtain ⟨text, hstr⟩ := htext rfl raised rfl
        exact ⟨_, by rw [recordException, hstr]; rfl⟩
    obtain ⟨attributes, hattributes⟩ := hrecorded
    refine ⟨?_, ?_, ?_, by simp [Opened.isSpan]⟩
    · simp [leave, closeSpan, hattributes, Opened.outside]
    · simp [leave, closeSpan, hattributes]
    · intro other otherToken otherTrace hsame
      obtain ⟨hspan, htoken, htrace⟩ := Opened.span.inj hsame
      subst hspan
      exact ⟨attributes, by simp [leave, closeSpan, hattributes]⟩

/-- An exception without a text: the block is left as it is. -/
theorem leave_of_error {span : Span} {token : Option String} {trace : Option TraceTokens} {durationMs : ℕ} {exc raised : Exc}
    (herror : runtime.str exc = .error raised) :
    (leave runtime (.span span token trace) durationMs state (some exc)).1.offered = state.offered := by
  simp [leave, closeSpan, recordException, herror, Except.map]

/-- Leaving a block takes nothing back. -/
theorem leave_offered (runtime : Runtime Exc) (opened : Opened) (durationMs : ℕ) (state : RecorderState) (exc : Option Exc) :
    ∃ inner, (leave runtime opened durationMs state exc).1.offered = state.offered ++ inner := by
  cases opened with
  | noop => exact ⟨[], (List.append_nil _).symm⟩
  | notSampled token => exact ⟨[], (List.append_nil _).symm⟩
  | span span token trace =>
    cases hrecorded : recordException runtime span.attributes exc with
    | error raised => exact ⟨[], by simp [leave, closeSpan, hrecorded]⟩
    | ok attributes => exact ⟨_, by simp [leave, closeSpan, hrecorded]; rfl⟩

theorem exec_block (runtime : Runtime Exc) (kind : Kind) (circumstances : Circumstances) (body : Program Exc)
    (state : RecorderState) : exec runtime (.block kind circumstances body) state =
      leave runtime (enter runtime kind circumstances state).1 circumstances.durationMs
        (exec runtime body (enter runtime kind circumstances state).2).1
        (exec runtime body (enter runtime kind circumstances state).2).2 := rfl

/-- Where the texts can be computed, a program leaves the context and raises
what it raises without the recorder. -/
theorem exec_of_legible (program : Program Exc) {state : RecorderState}
    (h : Legible runtime program state.context.recording) :
    (exec runtime program state).1.context = state.context ∧ (exec runtime program state).2 = raises program := by
  induction program generalizing state with
  | skip => exact ⟨rfl, rfl⟩
  | raise exc => exact ⟨rfl, rfl⟩
  | seq first second ihFirst ihSecond =>
    obtain ⟨hcontext, hraised⟩ := ihFirst h.1
    cases hresult : exec runtime first state with
    | mk ended exc =>
      rw [hresult] at hcontext hraised
      cases exc with
      | none =>
        have hnone : raises first = none := hraised.symm
        have hlegible := h.2 hnone
        rw [← hcontext] at hlegible
        obtain ⟨hcontext', hraised'⟩ := ihSecond hlegible
        simp only [exec, hresult, raises, hnone]
        exact ⟨hcontext'.trans hcontext, hraised'⟩
      | some exc =>
        have hsome : raises first = some exc := hraised.symm
        simp only [exec, hresult, raises, hsome]
        exact ⟨hcontext, trivial⟩
  | attempt body catches handler ihBody ihHandler =>
    obtain ⟨hcontext, hraised⟩ := ihBody h.1
    cases hresult : exec runtime body state with
    | mk ended exc =>
      rw [hresult] at hcontext hraised
      cases exc with
      | none =>
        have hnone : raises body = none := hraised.symm
        simp only [exec, hresult, raises, hnone]
        exact ⟨hcontext, trivial⟩
      | some exc =>
        have hsome : raises body = some exc := hraised.symm
        simp only [exec, hresult, raises, hsome]
        split
        · rename_i hcaught
          have hlegible := h.2 exc hsome hcaught
          rw [← hcontext] at hlegible
          obtain ⟨hcontext', hraised'⟩ := ihHandler hlegible
          exact ⟨hcontext'.trans hcontext, hraised'⟩
        · exact ⟨hcontext, rfl⟩
  | block kind circumstances body ih =>
    have hentered := enter_spec runtime kind circumstances state
    have hlegible := h.1
    rw [← hentered.recording] at hlegible
    obtain ⟨hcontext, hraised⟩ := ih hlegible
    have htext : (enter runtime kind circumstances state).1.isSpan = true → ∀ exc,
        (exec runtime body (enter runtime kind circumstances state).2).2 = some exc → ∃ text, runtime.str exc = .ok text := by
      rw [hentered.opens, hraised]
      exact h.2
    have hleft := leave_spec _ circumstances.durationMs (exec runtime body (enter runtime kind circumstances state).2).1 _ htext
    rw [exec_block]
    refine ⟨?_, hleft.unchanged.trans hraised⟩
    rw [hleft.outside, hcontext, hentered.outside]

/-- A program gives spans to the buffer, and takes none back. -/
theorem exec_offered (runtime : Runtime Exc) (program : Program Exc) (state : RecorderState) :
    ∃ inner, (exec runtime program state).1.offered = state.offered ++ inner := by
  induction program generalizing state with
  | skip => exact ⟨[], (List.append_nil _).symm⟩
  | raise exc => exact ⟨[], (List.append_nil _).symm⟩
  | seq first second ihFirst ihSecond =>
    obtain ⟨inner, hfirst⟩ := ihFirst state
    cases hresult : exec runtime first state with
    | mk ended exc =>
      rw [hresult] at hfirst
      cases exc with
      | none =>
        obtain ⟨more, hsecond⟩ := ihSecond ended
        simp only [exec, hresult]
        exact ⟨inner ++ more, by rw [hsecond, hfirst, List.append_assoc]⟩
      | some exc =>
        simp only [exec, hresult]
        exact ⟨inner, hfirst⟩
  | attempt body catches handler ihBody ihHandler =>
    obtain ⟨inner, hbody⟩ := ihBody state
    cases hresult : exec runtime body state with
    | mk ended exc =>
      rw [hresult] at hbody
      cases exc with
      | none =>
        simp only [exec, hresult]
        exact ⟨inner, hbody⟩
      | some exc =>
        simp only [exec, hresult]
        split
        · obtain ⟨more, hhandler⟩ := ihHandler ended
          exact ⟨inner ++ more, by rw [hhandler, hbody, List.append_assoc]⟩
        · exact ⟨inner, hbody⟩
  | block kind circumstances body ih =>
    obtain ⟨inner, hbody⟩ := ih (enter runtime kind circumstances state).2
    rw [(enter_spec runtime kind circumstances state).offered] at hbody
    obtain ⟨more, hleave⟩ := leave_offered runtime (enter runtime kind circumstances state).1
      circumstances.durationMs (exec runtime body (enter runtime kind circumstances state).2).1
      (exec runtime body (enter runtime kind circumstances state).2).2
    rw [exec_block]
    exact ⟨inner ++ more, by rw [hleave, hbody, List.append_assoc]⟩

/-- An entered span hangs where it stands. -/
theorem enter_hangs (body : Program Exc) {opened : Span} {token : Option String} {trace : Option TraceTokens}
    (hcontext : state.context = lexicalContext base enclosing)
    (h : (enter runtime kind circumstances state).1 = .span opened token trace) (durationMs : ℕ) (status : SpanStatus)
    (attributes : List (String × AttributeValue)) :
    Hangs base ⟨enclosing, kind, circumstances, body, state⟩
      { opened with durationMs := durationMs, status := status, attributes := attributes } := by
  have htrace : state.context.traceId = innermostTrace base enclosing := by rw [hcontext]; rfl
  have hspan : state.context.spanId = innermostSpan base enclosing := by rw [hcontext]; rfl
  cases kind with
  | startTrace traceId route =>
    simp only [enter, startTrace] at h
    split at h
    · split at h
      · simp only [Opened.span.injEq] at h
        rw [← h.1]
        refine ⟨rfl, by simp, fun given hgiven => ?_⟩
        rw [← htrace] at hgiven
        exact congrArg some (resolveTraceId_given runtime.ids hgiven)
      · exact absurd h (by simp)
    · exact absurd h (by simp)
  | recordSpan operation attributes =>
    simp only [enter, recordSpan] at h
    split at h
    · split at h
      · simp only [Opened.span.injEq] at h
        rw [← h.1]
        exact ⟨hspan, htrace⟩
      · exact absurd h (by simp)
    · exact absurd h (by simp)

end Lemmas

section SpanTree

variable {Exc : Type} {runtime : Runtime Exc} {base : Context} {state : RecorderState} {enclosing : List Opened}
  {visit : Visit Exc}

/-- Where a block stands, its context is the one around it, and what it needs of
the exceptions is part of what the program needs. -/
theorem visits_context (base : Context) {program : Program Exc} (hvisits : Visits runtime program enclosing state visit)
    (hlegible : Legible runtime program state.context.recording) (hcontext : state.context = lexicalContext base enclosing) :
    visit.before.context = lexicalContext base visit.enclosing ∧
      Legible runtime (.block visit.kind visit.circumstances visit.body) visit.before.context.recording := by
  induction hvisits with
  | here kind circumstances body enclosing state => exact ⟨hcontext, hlegible⟩
  | @inside kind circumstances body enclosing state visit _ ih =>
    have hentered := enter_spec runtime kind circumstances state
    refine ih ?_ ?_
    · rw [hentered.recording]
      exact hlegible.1
    · rw [hentered.inside, hcontext, lexicalContext_cons]
  | first _ ih => exact ih hlegible.1 hcontext
  | second hnone _ ih =>
    obtain ⟨hsame, hraised⟩ := exec_of_legible _ hlegible.1
    refine ih ?_ (hsame.trans hcontext)
    rw [hsame]
    exact hlegible.2 (hraised.symm.trans hnone)
  | body _ ih => exact ih hlegible.1 hcontext
  | handler hsome hcaught _ ih =>
    obtain ⟨hsame, hraised⟩ := exec_of_legible _ hlegible.1
    refine ih ?_ (hsame.trans hcontext)
    rw [hsame]
    exact hlegible.2 _ (hraised.symm.trans hsome) hcaught

theorem status_error_iff (exc : Option Exc) : (if exc.isSome then SpanStatus.error else .success) = .error ↔ exc ≠ none := by
  cases exc with
  | none => simp
  | some exc => simp

/-- One block with texts for its exceptions is in order. -/
theorem inOrder_of_legible (hcontext : visit.before.context = lexicalContext base visit.enclosing)
    (hlegible : Legible runtime (.block visit.kind visit.circumstances visit.body) visit.before.context.recording) :
    visit.InOrder runtime base := by
  obtain ⟨enclosing, kind, circumstances, body, state⟩ := visit
  have hentered := enter_spec runtime kind circumstances state
  have hrecording : state.context.recording = innermostRecording base enclosing := by rw [hcontext]; rfl
  have hbody := hlegible.1
  rw [← hentered.recording] at hbody
  obtain ⟨_, hraised⟩ := exec_of_legible body hbody
  obtain ⟨hrestored, hunchanged⟩ := exec_of_legible _ hlegible
  have htext : (enter runtime kind circumstances state).1.isSpan = true → ∀ exc,
      (exec runtime body (enter runtime kind circumstances state).2).2 = some exc → ∃ text, runtime.str exc = .ok text := by
    rw [hentered.opens, hraised]
    exact hlegible.2
  have hleft := leave_spec _ circumstances.durationMs (exec runtime body (enter runtime kind circumstances state).2).1 _ htext
  refine ⟨hrestored, ?_, ?_, ?_⟩
  · exact hunchanged.trans hraised.symm
  · intro hopens
    rw [← hrecording, ← hentered.opens] at hopens
    cases hopened : (enter runtime kind circumstances state).1 with
    | noop => exact absurd hopens (by simp [hopened, Opened.isSpan])
    | notSampled token => exact absurd hopens (by simp [hopened, Opened.isSpan])
    | span opened token trace =>
      obtain ⟨attributes, hgiven⟩ := hleft.span opened token trace hopened
      obtain ⟨inner, hinner⟩ := exec_offered runtime body (enter runtime kind circumstances state).2
      rw [hentered.offered] at hinner
      have hhangs := enter_hangs body hcontext hopened circumstances.durationMs
        (if (exec runtime body (enter runtime kind circumstances state).2).2.isSome then .error else .success) attributes
      refine ⟨opened, token, trace, inner, _, hopened, hinner, ?_, ?_, hhangs, ?_⟩
      · rw [← hinner]
        exact hgiven
      · rfl
      · exact status_error_iff _
  · intro hopens
    rw [← hrecording, ← hentered.opens] at hopens
    exact hleft.other hopens

/-- A program whose blocks are in order has texts for what its recorded bodies raise. -/
theorem legible_of_inOrder (program : Program Exc) {state : RecorderState} {enclosing : List Opened}
    (hcontext : state.context = lexicalContext base enclosing)
    (hvisits : ∀ visit, Visits runtime program enclosing state visit → visit.InOrder runtime base) :
    Legible runtime program state.context.recording := by
  induction program generalizing state enclosing with
  | skip => trivial
  | raise exc => trivial
  | seq first second ihFirst ihSecond =>
    have hfirst := ihFirst hcontext fun visit hvisit => hvisits visit (.first hvisit)
    refine ⟨hfirst, fun hnone => ?_⟩
    obtain ⟨hsame, hraised⟩ := exec_of_legible first hfirst
    have hsecond := ihSecond (hsame.trans hcontext) fun visit hvisit =>
      hvisits visit (.second (hraised.trans hnone) hvisit)
    rwa [hsame] at hsecond
  | attempt body catches handler ihBody ihHandler =>
    have hbody := ihBody hcontext fun visit hvisit => hvisits visit (.body hvisit)
    refine ⟨hbody, fun exc hsome hcaught => ?_⟩
    obtain ⟨hsame, hraised⟩ := exec_of_legible body hbody
    have hhandler := ihHandler (hsame.trans hcontext) fun visit hvisit =>
      hvisits visit (.handler (hraised.trans hsome) hcaught hvisit)
    rwa [hsame] at hhandler
  | block kind circumstances body ih =>
    have hentered := enter_spec runtime kind circumstances state
    have hinside : (enter runtime kind circumstances state).2.context =
        lexicalContext base ((enter runtime kind circumstances state).1 :: enclosing) := by
      rw [hentered.inside, hcontext, lexicalContext_cons]
    have hbody := ih hinside fun visit hvisit => hvisits visit (.inside hvisit)
    obtain ⟨_, hraised⟩ := exec_of_legible body hbody
    rw [hentered.recording] at hbody
    refine ⟨hbody, fun hopens exc hsome => ?_⟩
    have horder := hvisits _ (.here kind circumstances body enclosing state)
    have hrecording : state.context.recording = innermostRecording base enclosing := by rw [hcontext]; rfl
    rw [hrecording] at hopens
    obtain ⟨opened, token, trace, inner, span, hopened, hinner, hgiven, _⟩ := horder.recorded hopens
    cases htext : runtime.str exc with
    | ok text => exact ⟨text, rfl⟩
    | error raised =>
      -- The span of this block was never given to the buffer.
      have hexc : (exec runtime body (enter runtime kind circumstances state).2).2 = some exc := hraised.trans hsome
      have hlost : (leave runtime (.span opened token trace) circumstances.durationMs
          (exec runtime body (enter runtime kind circumstances state).2).1 (some exc)).1.offered =
          (exec runtime body (enter runtime kind circumstances state).2).1.offered := leave_of_error htext
      have hend : (leave runtime (.span opened token trace) circumstances.durationMs
          (exec runtime body (enter runtime kind circumstances state).2).1 (some exc)).1.offered =
          state.offered ++ inner ++ [span] := by
        rw [← hexc, ← hopened]
        exact hgiven
      have hbodyEnd : (exec runtime body (enter runtime kind circumstances state).2).1.offered = state.offered ++ inner :=
        hinner
      rw [hend, hbodyEnd] at hlost
      exact absurd (congrArg List.length hlost) (by simp)

/-- The recorder builds a well-formed span tree, every block of the program in
order, exactly when no body of a recorded block raises an exception whose text
cannot be computed. -/
theorem span_tree_iff (runtime : Runtime Exc) (program : Program Exc) (state : RecorderState) :
    (∀ visit, Visits runtime program [] state visit → visit.InOrder runtime state.context) ↔
      Legible runtime program state.context.recording := by
  constructor
  · exact legible_of_inOrder program rfl
  · intro hlegible visit hvisit
    obtain ⟨hcontext, hblock⟩ := visits_context state.context hvisit hlegible rfl
    exact inOrder_of_legible hcontext hblock

/-- Ids of growing length. -/
def sampleIds : IdSource where
  hex := fun n => String.ofList (List.replicate n 'a')
  injective := by
    intro m n h
    have hlists := congrArg (fun text => text.toList.length) h
    simpa using hlists

/-- Every trace is recorded; the exception `false` has no text. -/
def sampleRuntime : Runtime Bool where
  enabled := true
  ids := sampleIds
  typeName := fun _ => "Broken"
  str := fun exc => if exc then .ok "failed" else .error true

/-- Nothing is active. -/
def sampleState : RecorderState where
  context := ⟨none, none, false⟩
  activeTraceIds := ∅
  drawn := 0
  offered := []

/-- A trace whose body raises. -/
def sampleTrace (exc : Bool) : Program Bool := .block (.startTrace (some "t") "/ask") ⟨true, true, 0, 90⟩ (.raise exc)

/-- An exception whose text raises another leaves the trace open: its context
stays, the caller gets the other exception, and the root is never given to the buffer. -/
theorem broken_text_leaks : ¬ (∀ visit, Visits sampleRuntime (sampleTrace false) [] sampleState visit →
      visit.InOrder sampleRuntime sampleState.context) ∧
    raises (sampleTrace false) = some false ∧ (exec sampleRuntime (sampleTrace false) sampleState).2 = some true ∧
    (exec sampleRuntime (sampleTrace false) sampleState).1.context = ⟨some "t", some "", true⟩ ∧
    (exec sampleRuntime (sampleTrace false) sampleState).1.offered = [] := by
  refine ⟨fun hall => ?_, rfl, rfl, rfl, rfl⟩
  have horder := hall _ (.here _ _ _ _ _)
  exact absurd horder.unchanged (by decide)

end SpanTree

end RagSystem.SpanRecorder
