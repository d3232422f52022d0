import Mathlib.Data.List.Induction
import Mathlib.Data.List.Perm.Basic
import Mathlib.Logic.Function.Basic
import RagSystem.JsonValues

/-!
# Spans and the trace store

A flush groups the spans it drained by their trace and writes each group: the
row of the trace is upserted with what the group's anchor says, and the row of
a span is inserted unless it is there. Timestamps are in microseconds; metrics
and logs are left out.
-/

namespace RagSystem.TraceStores

open JsonValues

set_option autoImplicit false

section Models

/-- `SpanStatus`. -/
inductive SpanStatus where
  /-- `success`. -/
  | success
  /-- `error`. -/
  | error
  deriving DecidableEq

/-- `AttributeValue`; a float by its `repr`. -/
inductive AttributeValue where
  /-- A `str`. -/
  | str (value : String)
  /-- An `int`. -/
  | int (value : ℤ)
  /-- A `float`. -/
  | float (text : String)
  /-- A `bool`. -/
  | bool (value : Bool)
  deriving DecidableEq

/-- `Span`, with what `set_trace_config` attaches to it. -/
structure Span where
  /-- Its id. -/
  spanId : String
  /-- The span around it; none for a root. -/
  parentSpanId : Option String
  /-- What it times. -/
  operation : String
  /-- When it began. -/
  startTs : ℤ
  /-- How long it took. -/
  durationMs : ℕ
  /-- How it ended. -/
  status : SpanStatus
  /-- Its attributes. -/
  attributes : List (String × AttributeValue) := []
  /-- The trace it belongs to. -/
  traceId : Option String := none
  /-- The route; on a root. -/
  route : Option String := none
  /-- `_trace_config_version_id`. -/
  traceConfigVersionId : Option String := none
  /-- `_trace_resolved_settings`. -/
  traceResolvedSettings : List (String × JsonValue) := []

/-- `Trace`. -/
structure Trace where
  /-- Its id. -/
  traceId : String
  /-- Its route. -/
  route : String
  /-- When it began. -/
  startTs : ℤ
  /-- How long it took. -/
  durationMs : ℕ
  /-- How its root ended. -/
  rootStatus : SpanStatus
  /-- Its spans. -/
  spans : List Span
  /-- The configuration, where it was resolved. -/
  aiConfigurationVersionId : Option String
  /-- The settings of it. -/
  resolvedSettings : List (String × JsonValue)

end Models

section Grouping

/-- The groups so far, each under its trace id. -/
abbrev Groups := List (String × List Span)

/-- One more span for a trace. -/
def addToGroup (traceId : String) (span : Span) : Groups → Groups
  | [] => [(traceId, [span])]
  | (other, group) :: groups =>
    if other = traceId then (other, group ++ [span]) :: groups else (other, group) :: addToGroup traceId span groups

/-- The loop over the spans: a span without a trace id is skipped. -/
def addSpan (groups : Groups) (span : Span) : Groups :=
  match span.traceId with
  | none => groups
  | some traceId => if traceId = "" then groups else addToGroup traceId span groups

/-- `min` by the start: the first of the earliest. -/
def earliest (span : Span) : List Span → Span
  | [] => span
  | other :: spans => if other.startTs < span.startTs then earliest other spans else earliest span spans

/-- The span that speaks for a group: its root, or else its earliest span. -/
def anchor : List Span → Option Span
  | [] => none
  | span :: spans => match (span :: spans).find? fun s => s.parentSpanId = none with
    | some root => some root
    | none => some (earliest span spans)

/-- `route_of(anchor) or anchor.operation`. -/
def routeOf (span : Span) : String := (span.route.filter (· ≠ "")).getD span.operation

/-- The trace of a group. -/
def traceOf (traceId : String) (group : List Span) (anchor : Span) : Trace where
  traceId := traceId
  route := routeOf anchor
  startTs := anchor.startTs
  durationMs := anchor.durationMs
  rootStatus := anchor.status
  spans := group
  aiConfigurationVersionId := anchor.traceConfigVersionId
  resolvedSettings := anchor.traceResolvedSettings

/-- `group_spans_by_trace`. -/
def groupSpansByTrace (spans : List Span) : List Trace :=
  (spans.foldl addSpan []).filterMap fun (traceId, group) => (anchor group).map (traceOf traceId group)

end Grouping

section Store

/-- A row of `traces`, without its key. -/
structure TraceRow where
  /-- `route`. -/
  route : String
  /-- `start_ts`. -/
  startTs : ℤ
  /-- `duration_ms`. -/
  durationMs : ℕ
  /-- `root_status`. -/
  rootStatus : SpanStatus
  /-- `ai_configuration_version_id`. -/
  aiConfigurationVersionId : Option String
  /-- `resolved_settings`. -/
  resolvedSettings : List (String × JsonValue)

/-- A row of `spans`, without the key of its trace. -/
structure SpanRow where
  /-- `span_id`. -/
  spanId : String
  /-- `parent_span_id`. -/
  parentSpanId : Option String
  /-- `operation`. -/
  operation : String
  /-- `start_ts`. -/
  startTs : ℤ
  /-- `duration_ms`. -/
  durationMs : ℕ
  /-- `status`. -/
  status : SpanStatus
  /-- `attributes`. -/
  attributes : List (String × AttributeValue)
  deriving DecidableEq

/-- The two tables. -/
structure TraceTables where
  /-- `traces`. -/
  traces : String → Option TraceRow
  /-- The rows of `spans` of each trace. -/
  spans : String → List SpanRow

/-- `serialize` of a trace, without its spans: the settings go with the version. -/
def serializeTrace (trace : Trace) : TraceRow where
  route := trace.route
  startTs := trace.startTs
  durationMs := trace.durationMs
  rootStatus := trace.rootStatus
  aiConfigurationVersionId := trace.aiConfigurationVersionId
  resolvedSettings := if trace.aiConfigurationVersionId.isSome then trace.resolvedSettings else []

/-- `_serialize_span`. -/
def serializeSpan (span : Span) : SpanRow where
  spanId := span.spanId
  parentSpanId := span.parentSpanId
  operation := span.operation
  startTs := span.startTs
  durationMs := span.durationMs
  status := span.status
  attributes := span.attributes

/-- `INSERT_TRACE_SQL`: a second row for a trace overwrites the first, but for
an attribution it does not have. -/
def insertTrace (existing : Option TraceRow) (row : TraceRow) : TraceRow :=
  match existing with
  | none => row
  | some old =>
    { row with
      aiConfigurationVersionId := row.aiConfigurationVersionId.or old.aiConfigurationVersionId
      resolvedSettings := if row.aiConfigurationVersionId.isSome then row.resolvedSettings else old.resolvedSettings }

/-- `INSERT_SPAN_SQL`: a row that is there stays. -/
def insertSpan (rows : List SpanRow) (row : SpanRow) : List SpanRow :=
  if rows.any fun other => other.spanId = row.spanId then rows else rows ++ [row]

/-- `_write_atomically`. -/
def writeAtomically (tables : TraceTables) (trace : Trace) : TraceTables where
  traces := Function.update tables.traces trace.traceId (some (insertTrace (tables.traces trace.traceId) (serializeTrace trace)))
  spans := Function.update tables.spans trace.traceId
    ((trace.spans.map serializeSpan).foldl insertSpan (tables.spans trace.traceId))

/-- One flush of these spans, where every write succeeds. -/
def writeBatch (tables : TraceTables) (spans : List Span) : TraceTables :=
  (groupSpansByTrace spans).foldl writeAtomically tables

end Store

section Lemmas

variable {traceId other : String} {spans : List Span} {tables : TraceTables}

/-- The spans of one trace. -/
def spansOf (traceId : String) (spans : List Span) : List Span := spans.filter fun span => span.traceId = some traceId

theorem spansOf_append (spans more : List Span) : spansOf traceId (spans ++ more) = spansOf traceId spans ++ spansOf traceId more :=
  List.filter_append ..

/-- A group of a trace: it is there once, and holds these spans. -/
def Holds (groups : Groups) (traceId : String) (group : List Span) : Prop :=
  groups.filter (fun entry => entry.1 = traceId) = if group = [] then [] else [(traceId, group)]

/-- Another span of the trace joins its group. -/
theorem Holds.addToGroup {groups : Groups} {group : List Span} (h : Holds groups traceId group) (span : Span) :
    Holds (addToGroup traceId span groups) traceId (group ++ [span]) := by
  have hsome : group ++ [span] ≠ [] := by simp
  unfold Holds at h ⊢
  rw [if_neg hsome]
  induction groups with
  | nil =>
    have hempty : group = [] := by
      by_contra hne
      rw [if_neg hne] at h
      exact absurd h (by simp)
    simp [TraceStores.addToGroup, hempty]
  | cons entry groups ih =>
    obtain ⟨key, members⟩ := entry
    by_cases hkey : key = traceId
    · subst hkey
      have hne : group ≠ [] := by
        intro hempty
        rw [if_pos hempty] at h
        simp at h
      rw [if_neg hne] at h
      simp only [List.filter_cons, decide_true, if_true, List.cons.injEq, Prod.mk.injEq, true_and] at h
      simp [TraceStores.addToGroup, h.1, h.2]
    · have hrest := ih (by simpa [hkey] using h)
      simpa [TraceStores.addToGroup, hkey] using hrest

/-- A span of another trace does not. -/
theorem Holds.addToGroup_of_ne {groups : Groups} {group : List Span} (h : Holds groups traceId group)
    (hne : other ≠ traceId) (span : Span) : Holds (TraceStores.addToGroup other span groups) traceId group := by
  unfold Holds at h ⊢
  rw [← h]
  clear h
  induction groups with
  | nil => simp [TraceStores.addToGroup, hne]
  | cons entry groups ih =>
    obtain ⟨key, members⟩ := entry
    by_cases hkey : key = other
    · subst hkey
      simp [TraceStores.addToGroup, hne]
    · simp only [TraceStores.addToGroup, if_neg hkey, List.filter_cons, ih]

/-- The loop: the group of a trace holds its spans, in order. -/
theorem holds_foldl (hid : traceId ≠ "") (spans : List Span) :
    Holds (spans.foldl addSpan []) traceId (spansOf traceId spans) := by
  induction spans using List.reverseRecOn with
  | nil => rfl
  | append_singleton spans span ih =>
    rw [List.foldl_append, spansOf_append, List.foldl_cons, List.foldl_nil]
    unfold addSpan
    cases howner : span.traceId with
    | none =>
      have hnone : spansOf traceId [span] = [] := by simp [spansOf, howner]
      rw [hnone, List.append_nil]
      exact ih
    | some owner =>
      by_cases hown : owner = traceId
      · have hone : spansOf traceId [span] = [span] := by simp [spansOf, howner, hown]
        have hnamed : owner ≠ "" := hown.symm ▸ hid
        rw [hone]
        dsimp only
        rw [if_neg hnamed, hown]
        exact ih.addToGroup span
      · have hnone : spansOf traceId [span] = [] := by simp [spansOf, howner, hown]
        rw [hnone, List.append_nil]
        dsimp only
        split
        · exact ih
        · exact ih.addToGroup_of_ne hown span

/-- A group has an anchor exactly if it has a span. -/
theorem anchor_isSome (group : List Span) : (anchor group).isSome = !group.isEmpty := by
  cases group with
  | nil => rfl
  | cons span spans =>
    rw [anchor]
    split
    · rfl
    · rfl

/-- What one flush writes for a trace: its group, if it has one. -/
def traceIn (traceId : String) (spans : List Span) : Option Trace :=
  (anchor (spansOf traceId spans)).map (traceOf traceId (spansOf traceId spans))

/-- Among the traces of a flush there is exactly that one. -/
theorem filter_groupSpansByTrace (hid : traceId ≠ "") (spans : List Span) :
    (groupSpansByTrace spans).filter (fun trace => trace.traceId = traceId) = (traceIn traceId spans).toList := by
  have hholds := holds_foldl hid spans
  unfold Holds at hholds
  have hkeys : ∀ groups : Groups,
      (groups.filterMap fun entry => (anchor entry.2).map (traceOf entry.1 entry.2)).filter
          (fun trace => trace.traceId = traceId) =
        (groups.filter fun entry => entry.1 = traceId).filterMap fun entry => (anchor entry.2).map (traceOf entry.1 entry.2) := by
    intro groups
    induction groups with
    | nil => rfl
    | cons entry groups ih =>
      cases hanchor : anchor entry.2 with
      | none =>
        by_cases hkey : entry.1 = traceId
        · simp [hanchor, hkey, ih]
        · simp [hanchor, hkey, ih]
      | some span =>
        by_cases hkey : entry.1 = traceId
        · simp [hanchor, hkey, ih, traceOf]
        · simp [hanchor, hkey, ih, traceOf]
  have hall := hkeys (spans.foldl addSpan [])
  rw [hholds] at hall
  rw [groupSpansByTrace, hall, traceIn]
  by_cases hnone : spansOf traceId spans = []
  · simp [hnone, anchor]
  · rw [if_neg hnone, List.filterMap_cons, List.filterMap_nil]
    cases hanchor : anchor (spansOf traceId spans) with
    | none => rfl
    | some span => rfl

/-- Writes of several traces change the rows of each as its own write does. -/
theorem foldl_writeAtomically (traceId : String) (traces : List Trace) (tables : TraceTables) :
    (traces.foldl writeAtomically tables).traces traceId =
        ((traces.filter fun trace => trace.traceId = traceId).foldl writeAtomically tables).traces traceId ∧
      (traces.foldl writeAtomically tables).spans traceId =
        ((traces.filter fun trace => trace.traceId = traceId).foldl writeAtomically tables).spans traceId := by
  have hcongr : ∀ (traces : List Trace) (t t' : TraceTables), (∀ trace ∈ traces, trace.traceId = traceId) →
      t.traces traceId = t'.traces traceId → t.spans traceId = t'.spans traceId →
      (traces.foldl writeAtomically t).traces traceId = (traces.foldl writeAtomically t').traces traceId ∧
        (traces.foldl writeAtomically t).spans traceId = (traces.foldl writeAtomically t').spans traceId := by
    intro traces
    induction traces with
    | nil => exact fun _ _ _ htraces hspans => ⟨htraces, hspans⟩
    | cons trace traces ih =>
      intro t t' howned htraces hspans
      have hown := howned trace List.mem_cons_self
      refine ih _ _ (fun trace htrace => howned trace (List.mem_cons_of_mem _ htrace)) ?_ ?_
      · simp only [writeAtomically, hown, Function.update_self, htraces]
      · simp only [writeAtomically, hown, Function.update_self, hspans]
  induction traces generalizing tables with
  | nil => exact ⟨rfl, rfl⟩
  | cons trace traces ih =>
    have hrest := ih (writeAtomically tables trace)
    by_cases hown : trace.traceId = traceId
    · rw [List.filter_cons_of_pos (by simpa using hown)]
      exact hrest
    · rw [List.filter_cons_of_neg (by simpa using hown)]
      have hsame := hcongr (traces.filter fun trace => trace.traceId = traceId) (writeAtomically tables trace) tables
        (fun trace htrace => by simpa using (List.mem_filter.mp htrace).2)
        (Function.update_of_ne (Ne.symm hown) _ _) (Function.update_of_ne (Ne.symm hown) _ _)
      exact ⟨hrest.1.trans hsame.1, hrest.2.trans hsame.2⟩

/-- A flush without a span of a trace leaves its rows. -/
theorem writeBatch_of_none (hid : traceId ≠ "") (hnone : traceIn traceId spans = none) :
    (writeBatch tables spans).traces traceId = tables.traces traceId ∧
      (writeBatch tables spans).spans traceId = tables.spans traceId := by
  have hwrites := foldl_writeAtomically traceId (groupSpansByTrace spans) tables
  rw [filter_groupSpansByTrace hid, hnone] at hwrites
  exact hwrites

/-- A flush with some writes their trace. -/
theorem writeBatch_of_some (hid : traceId ≠ "") {trace : Trace} (hsome : traceIn traceId spans = some trace) :
    (writeBatch tables spans).traces traceId = some (insertTrace (tables.traces traceId) (serializeTrace trace)) ∧
      (writeBatch tables spans).spans traceId =
        ((spansOf traceId spans).map serializeSpan).foldl insertSpan (tables.spans traceId) := by
  have hwrites := foldl_writeAtomically traceId (groupSpansByTrace spans) tables
  rw [filter_groupSpansByTrace hid, hsome] at hwrites
  obtain ⟨span, _, htrace⟩ := Option.map_eq_some_iff.mp hsome
  have howner : trace.traceId = traceId := by rw [← htrace]; rfl
  have hspans : trace.spans = spansOf traceId spans := by rw [← htrace]; rfl
  rw [← hspans, writeBatch]
  simpa [writeAtomically, howner] using hwrites

end Lemmas

/-- A root of a question. -/
def sampleRoot : Span where
  spanId := "r"
  parentSpanId := none
  operation := "Root_Span"
  startTs := 0
  durationMs := 90
  status := .success
  traceId := some "t"
  route := some "/ask"

end RagSystem.TraceStores
