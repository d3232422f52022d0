import Mathlib.Data.List.Induction
import RagSystem.FlushWorkers
import RagSystem.TraceStores

/-!
# Spans and log records on their way to the stores

Both stores discard what they could not write: they count the failure and
return, so a worker never puts a batch back, and what is still accounted for is
what no write failed for. A span is known in the store by its row, a log record
by one row for each time it was captured.
-/

namespace RagSystem.TelemetryFlush

open FlushWorkers TraceStores

set_option autoImplicit false

section Traces

/-- An entry of the span buffer. -/
inductive BufferedItem where
  /-- A finished trace. -/
  | trace (trace : Trace)
  /-- A span. -/
  | span (span : Span)

/-- `isinstance(item, Trace)`. -/
def BufferedItem.trace? : BufferedItem → Option Trace
  | .trace finished => some finished
  | .span _ => none

/-- Not one. -/
def BufferedItem.span? : BufferedItem → Option Span
  | .trace _ => none
  | .span one => some one

/-- `TraceFlushWorker._plan`. -/
def planTraces (drained : List BufferedItem) : List (FlushBatch BufferedItem Trace) :=
  ((drained.filterMap BufferedItem.trace?).map fun trace => ⟨trace, [.trace trace]⟩) ++
    (groupSpansByTrace (drained.filterMap BufferedItem.span?)).map fun trace => ⟨trace, trace.spans.map .span⟩

/-- `PostgresTraceStore`: its tables and what it counts, by route. -/
structure PostgresTraceStore where
  /-- The tables. -/
  tables : TraceTables
  /-- `_PERSISTED_METRIC`. -/
  persisted : String → ℕ
  /-- `_WRITE_FAILURE_METRIC`. -/
  writeFailures : String → ℕ

/-- `_write_atomically` against the database: what it leaves, and whether it raised. -/
def tryWrite (tables : TraceTables) (trace : Trace) : WriteOutcome → TraceTables × Bool
  | .committed => (writeAtomically tables trace, false)
  | .lostReply => (writeAtomically tables trace, true)
  | .failed => (tables, true)

/-- `_increment`. -/
def increment (counter : String → ℕ) (route : String) : String → ℕ := Function.update counter route (counter route + 1)

/-- `PostgresTraceStore.persist`: an exception is counted, never raised. -/
def PostgresTraceStore.persist (store : PostgresTraceStore) (trace : Trace) (outcome : WriteOutcome) :
    PostgresTraceStore × Bool :=
  match tryWrite store.tables trace outcome with
  | (tables, true) => ({ store with tables := tables, writeFailures := increment store.writeFailures trace.route }, false)
  | (tables, false) => ({ store with tables := tables, persisted := increment store.persisted trace.route }, false)

/-- `TraceFlushWorker`. -/
def traceFlushWorker : FlushWorker BufferedItem Trace PostgresTraceStore := ⟨planTraces, PostgresTraceStore.persist⟩

end Traces

section Logs

/-- `LogRecordModel`; its time in microseconds. -/
structure LogRecordModel where
  /-- When it was logged. -/
  timestamp : ℤ
  /-- Its level. -/
  level : String
  /-- Its logger. -/
  logger : String
  /-- Its message. -/
  message : String
  /-- The trace it belongs to. -/
  traceId : Option String
  /-- The exception, where there is one. -/
  excText : Option String
  /-- The other fields. -/
  extra : List (String × AttributeValue)
  /-- The order of capture. -/
  insertionSeq : ℕ
  deriving DecidableEq

/-- A row of `log_records`, without the id the database gives it. -/
structure LogRow where
  /-- `ts`. -/
  ts : ℤ
  /-- `level`. -/
  level : String
  /-- `logger`. -/
  logger : String
  /-- `message`. -/
  message : String
  /-- `trace_id`. -/
  traceId : Option String
  /-- `exc_text`. -/
  excText : Option String
  /-- `extra`. -/
  extra : List (String × AttributeValue)

/-- `LogSerializer.serialize`. -/
def serializeLog (record : LogRecordModel) : LogRow where
  ts := record.timestamp
  level := record.level
  logger := record.logger
  message := record.message
  traceId := record.traceId
  excText := record.excText
  extra := record.extra

/-- `PostgresLogStore`: its table and what it counts. -/
structure PostgresLogStore where
  /-- The rows, in the order of their ids. -/
  rows : List LogRow
  /-- `_WRITE_FAILURE_METRIC`. -/
  writeFailures : ℕ

/-- The insert against the database: what it leaves, and whether it raised. -/
def tryInsert (rows : List LogRow) (record : LogRecordModel) : WriteOutcome → List LogRow × Bool
  | .committed => (rows ++ [serializeLog record], false)
  | .lostReply => (rows ++ [serializeLog record], true)
  | .failed => (rows, true)

/-- `PostgresLogStore.persist`: an exception is counted, never raised. -/
def PostgresLogStore.persist (store : PostgresLogStore) (record : LogRecordModel) (outcome : WriteOutcome) :
    PostgresLogStore × Bool :=
  match tryInsert store.rows record outcome with
  | (rows, true) => (⟨rows, store.writeFailures + 1⟩, false)
  | (rows, false) => (⟨rows, store.writeFailures⟩, false)

/-- `LogFlushWorker._plan`. -/
def planLogs (drained : List LogRecordModel) : List (FlushBatch LogRecordModel LogRecordModel) :=
  drained.map fun record => ⟨record, [record]⟩

/-- `LogFlushWorker`. -/
def logFlushWorker : FlushWorker LogRecordModel LogRecordModel PostgresLogStore := ⟨planLogs, PostgresLogStore.persist⟩

end Logs

section System

/-- The two buffers with their workers and stores. -/
structure Telemetry (spanCapacity logCapacity : ℕ) where
  /-- The spans. -/
  spans : FlushState BufferedItem Trace PostgresTraceStore spanCapacity
  /-- The log records. -/
  logs : FlushState LogRecordModel LogRecordModel PostgresLogStore logCapacity

/-- What can happen next. -/
inductive TelemetryEvent where
  /-- To the spans. -/
  | spans (event : Event BufferedItem)
  /-- To the log records. -/
  | logs (event : Event LogRecordModel)

variable {spanCapacity logCapacity : ℕ}

/-- One step. -/
def Telemetry.step (telemetry : Telemetry spanCapacity logCapacity) :
    TelemetryEvent → Option (Telemetry spanCapacity logCapacity)
  | .spans event => (FlushWorkers.step traceFlushWorker telemetry.spans event).map fun spans =>
      { telemetry with spans := spans }
  | .logs event => (FlushWorkers.step logFlushWorker telemetry.logs event).map fun logs => { telemetry with logs := logs }

/-- A run. -/
def Telemetry.run (telemetry : Telemetry spanCapacity logCapacity) :
    List TelemetryEvent → Option (Telemetry spanCapacity logCapacity)
  | [] => some telemetry
  | event :: events => (telemetry.step event).bind fun next => next.run events

/-- What happens to the spans. -/
def spanEvents (events : List TelemetryEvent) : List (Event BufferedItem) := events.filterMap fun
  | .spans event => some event
  | .logs _ => none

/-- What happens to the log records. -/
def logEvents (events : List TelemetryEvent) : List (Event LogRecordModel) := events.filterMap fun
  | .spans _ => none
  | .logs event => some event

/-- A process starts: nothing is buffered, dropped or under way, whatever is stored. -/
structure Started (telemetry : Telemetry spanCapacity logCapacity) : Prop where
  /-- No span is buffered. -/
  spans : telemetry.spans.buffer.items = [] ∧ telemetry.spans.buffer.dropped = 0 ∧ telemetry.spans.flushes = []
  /-- No log record is. -/
  logs : telemetry.logs.buffer.items = [] ∧ telemetry.logs.buffer.dropped = 0 ∧ telemetry.logs.flushes = []

/-- The trace an entry belongs to. -/
def BufferedItem.owner : BufferedItem → Option String
  | .trace finished => some finished.traceId
  | .span one => one.traceId.filter (· ≠ "")

/-- The span rows of an entry. -/
def BufferedItem.rows : BufferedItem → List SpanRow
  | .trace finished => finished.spans.map serializeSpan
  | .span one => [serializeSpan one]

/-- The store has an entry: a row of its trace, and each of its span rows. -/
def PersistedIn (tables : TraceTables) (item : BufferedItem) : Prop :=
  ∃ traceId, item.owner = some traceId ∧ (tables.traces traceId).isSome ∧ ∀ row ∈ item.rows, row ∈ tables.spans traceId

/-- Every captured span is buffered, persisted or in the drop counter. -/
def SpansAccounted (events : List TelemetryEvent) (telemetry : Telemetry spanCapacity logCapacity) : Prop :=
  ∃ persisted dropped : List BufferedItem, (∀ item ∈ persisted, PersistedIn telemetry.spans.store.tables item) ∧
    dropped.length = telemetry.spans.buffer.dropped ∧
    (captures (spanEvents events)).Perm (telemetry.spans.buffer.items ++ persisted ++ dropped)

/-- Every captured log record is buffered, persisted or in the drop counter. -/
def LogsAccounted (stored : List LogRow) (events : List TelemetryEvent) (telemetry : Telemetry spanCapacity logCapacity) :
    Prop :=
  ∃ persisted dropped : List LogRecordModel,
    telemetry.logs.store.rows.Perm (stored ++ persisted.map serializeLog) ∧
    dropped.length = telemetry.logs.buffer.dropped ∧
    (captures (logEvents events)).Perm (telemetry.logs.buffer.items ++ persisted ++ dropped)

/-- The ids of the spans of an entry. -/
def BufferedItem.keys (item : BufferedItem) : List (Option String × String) :=
  item.rows.map fun row => (item.owner, row.spanId)

/-- No write fails, and every span has a trace and an id of its own. -/
structure Undisturbed (start : Telemetry spanCapacity logCapacity) (events : List TelemetryEvent) : Prop where
  /-- Every write of a trace commits. -/
  traces : ∀ event ∈ spanEvents events, event.Meets (· ≠ .failed)
  /-- Every write of a log record commits. -/
  logs : ∀ event ∈ logEvents events, event.Meets (· ≠ .failed)
  /-- Every span has a trace. -/
  owned : ∀ item ∈ captures (spanEvents events), item.owner ≠ none
  /-- Span ids are unique. -/
  ids : ((captures (spanEvents events)).flatMap BufferedItem.keys).Nodup
  /-- They are new. -/
  fresh : ∀ item ∈ captures (spanEvents events), ∀ traceId, item.owner = some traceId →
    ∀ row ∈ item.rows, ∀ other ∈ start.spans.store.tables.spans traceId, other.spanId ≠ row.spanId

end System

section Plan

/-- The groups hold the spans, each once. -/
theorem flatMap_addToGroup (traceId : String) (span : Span) (groups : Groups) :
    ((addToGroup traceId span groups).flatMap Prod.snd).Perm (groups.flatMap Prod.snd ++ [span]) := by
  induction groups with
  | nil => exact List.Perm.refl _
  | cons entry groups ih =>
    obtain ⟨other, group⟩ := entry
    by_cases hsame : other = traceId
    · have hmoved : (group ++ ([span] ++ groups.flatMap Prod.snd)).Perm (group ++ (groups.flatMap Prod.snd ++ [span])) :=
        List.perm_append_comm.append_left group
      simpa [addToGroup, hsame] using hmoved
    · have hrest := ih.append_left group
      simpa [addToGroup, hsame] using hrest

/-- A span of a trace. -/
def Owned (span : Span) : Prop := ∃ traceId, traceId ≠ "" ∧ span.traceId = some traceId

theorem flatMap_groups {spans : List Span} (howned : ∀ span ∈ spans, Owned span) :
    ((spans.foldl addSpan []).flatMap Prod.snd).Perm spans := by
  induction spans using List.reverseRecOn with
  | nil => exact List.Perm.refl _
  | append_singleton spans span ih =>
    have hbefore := ih fun other hother => howned other (List.mem_append_left _ hother)
    obtain ⟨traceId, hnamed, howner⟩ := howned span (by simp)
    have hadded : addSpan (spans.foldl addSpan []) span = addToGroup traceId span (spans.foldl addSpan []) := by
      simp [addSpan, howner, hnamed]
    rw [List.foldl_append, List.foldl_cons, List.foldl_nil, hadded]
    exact (flatMap_addToGroup traceId span _).trans (hbefore.append_right [span])

/-- A group without a span gives no trace, and loses none. -/
theorem flatMap_groupSpansByTrace (spans : List Span) :
    (groupSpansByTrace spans).flatMap Trace.spans = (spans.foldl addSpan []).flatMap Prod.snd := by
  unfold groupSpansByTrace
  induction spans.foldl addSpan [] with
  | nil => rfl
  | cons entry groups ih =>
    obtain ⟨traceId, group⟩ := entry
    have hanchor := anchor_isSome group
    rw [List.flatMap_cons, ← ih, List.filterMap_cons]
    cases hspan : anchor group with
    | none =>
      have hnone : group = [] := by simpa [hspan] using hanchor
      simp only [hspan, Option.map_none]
      rw [hnone, List.nil_append]
    | some span => simp only [hspan, Option.map_some, List.flatMap_cons, traceOf]

/-- A group is of the trace it is under. -/
theorem mem_groups {spans : List Span} {entry : String × List Span} (hentry : entry ∈ spans.foldl addSpan [])
    {span : Span} (hspan : span ∈ entry.2) : span.traceId = some entry.1 ∧ entry.1 ≠ "" := by
  have hadded : ∀ (groups : Groups) (traceId : String) (new : Span), new.traceId = some traceId → traceId ≠ "" →
      (∀ entry ∈ groups, ∀ span ∈ entry.2, span.traceId = some entry.1 ∧ entry.1 ≠ "") →
      ∀ entry ∈ addToGroup traceId new groups, ∀ span ∈ entry.2, span.traceId = some entry.1 ∧ entry.1 ≠ "" := by
    intro groups traceId new hnew hnamed
    induction groups with
    | nil =>
      intro _ entry hmem span hin
      rw [addToGroup, List.mem_singleton] at hmem
      subst hmem
      rw [List.mem_singleton.mp hin]
      exact ⟨hnew, hnamed⟩
    | cons head groups ih =>
      intro hold entry hmem span hin
      obtain ⟨other, group⟩ := head
      by_cases hsame : other = traceId
      · rw [addToGroup, if_pos hsame] at hmem
        rcases List.mem_cons.mp hmem with hfirst | hrest
        · subst hfirst
          rcases List.mem_append.mp hin with hbefore | hlast
          · exact hold (other, group) List.mem_cons_self span hbefore
          · rw [List.mem_singleton.mp hlast]
            exact ⟨hsame ▸ hnew, hsame ▸ hnamed⟩
        · exact hold entry (List.mem_cons_of_mem _ hrest) span hin
      · rw [addToGroup, if_neg hsame] at hmem
        rcases List.mem_cons.mp hmem with hfirst | hrest
        · exact hold entry (hfirst ▸ List.mem_cons_self) span hin
        · exact ih (fun entry hentry => hold entry (List.mem_cons_of_mem _ hentry)) entry hrest span hin
  induction spans using List.reverseRecOn generalizing entry span with
  | nil => simp at hentry
  | append_singleton spans new ih =>
    rw [List.foldl_append, List.foldl_cons, List.foldl_nil] at hentry
    cases howner : new.traceId with
    | none =>
      rw [addSpan, howner] at hentry
      exact ih hentry hspan
    | some traceId =>
      rw [addSpan, howner] at hentry
      dsimp only at hentry
      split at hentry
      · exact ih hentry hspan
      · rename_i hnamed
        exact hadded _ traceId new howner hnamed (fun entry hentry span hspan => ih hentry hspan) entry hentry span hspan

/-- A trace of a flush has the id of its spans. -/
theorem mem_groupSpansByTrace {spans : List Span} {trace : Trace} (htrace : trace ∈ groupSpansByTrace spans) {span : Span}
    (hspan : span ∈ trace.spans) : span.traceId = some trace.traceId ∧ trace.traceId ≠ "" := by
  obtain ⟨entry, hentry, hmade⟩ := List.mem_filterMap.mp htrace
  obtain ⟨anchor, _, htraceOf⟩ := Option.map_eq_some_iff.mp hmade
  subst htraceOf
  exact mem_groups hentry hspan

/-- Traces and spans make up what was drained. -/
theorem items_perm (drained : List BufferedItem) :
    ((drained.filterMap BufferedItem.trace?).map BufferedItem.trace ++
      (drained.filterMap BufferedItem.span?).map BufferedItem.span).Perm drained := by
  induction drained with
  | nil => exact List.Perm.refl _
  | cons item drained ih =>
    cases item with
    | trace trace => simpa [List.filterMap_cons, BufferedItem.trace?, BufferedItem.span?] using ih
    | span span =>
      have hmoved : ((drained.filterMap BufferedItem.trace?).map BufferedItem.trace ++
          .span span :: (drained.filterMap BufferedItem.span?).map BufferedItem.span).Perm
          (.span span :: ((drained.filterMap BufferedItem.trace?).map BufferedItem.trace ++
            (drained.filterMap BufferedItem.span?).map BufferedItem.span)) := List.perm_middle
      have hrest := hmoved.trans (ih.cons (BufferedItem.span span))
      simpa [List.filterMap_cons, BufferedItem.trace?, BufferedItem.span?] using hrest

/-- An entry with an owner that is a span. -/
theorem owned_of_owner {span : Span} (h : (BufferedItem.span span).owner ≠ none) : Owned span := by
  cases howner : span.traceId with
  | none => exact absurd (by simp [BufferedItem.owner, howner]) h
  | some traceId =>
    refine ⟨traceId, ?_, howner⟩
    intro hempty
    exact h (by simp [BufferedItem.owner, howner, hempty])

/-- The plan takes every entry that has a trace. -/
theorem planTraces_perm {drained : List BufferedItem} (howned : ∀ item ∈ drained, item.owner ≠ none) :
    ((planTraces drained).flatMap FlushBatch.sources).Perm drained := by
  have hspans : ∀ span ∈ drained.filterMap BufferedItem.span?, Owned span := by
    intro span hspan
    obtain ⟨item, hitem, hsome⟩ := List.mem_filterMap.mp hspan
    cases item with
    | trace trace => exact absurd hsome (by simp [BufferedItem.span?])
    | span own =>
      have hsame : own = span := by simpa [BufferedItem.span?] using hsome
      exact owned_of_owner (hsame ▸ howned _ hitem)
  have hgroups : ((groupSpansByTrace (drained.filterMap BufferedItem.span?)).flatMap fun trace =>
      trace.spans.map BufferedItem.span).Perm ((drained.filterMap BufferedItem.span?).map BufferedItem.span) := by
    have hmapped := (flatMap_groups hspans).map BufferedItem.span
    rwa [← flatMap_groupSpansByTrace, List.map_flatMap] at hmapped
  have hsources : (planTraces drained).flatMap FlushBatch.sources =
      (drained.filterMap BufferedItem.trace?).map BufferedItem.trace ++
        (groupSpansByTrace (drained.filterMap BufferedItem.span?)).flatMap fun trace => trace.spans.map BufferedItem.span := by
    rw [planTraces, List.flatMap_append, List.flatMap_map, List.flatMap_map, ← List.map_eq_flatMap]
  rw [hsources]
  exact (hgroups.append_left _).trans (items_perm drained)

end Plan

section Traces

variable {all : List BufferedItem} {tables : TraceTables}

/-- A row of an entry under another's key is that entry's. -/
def Agrees (all : List BufferedItem) (tables : TraceTables) : Prop :=
  ∀ item ∈ all, ∀ traceId, item.owner = some traceId → ∀ row ∈ item.rows, ∀ other ∈ tables.spans traceId,
    other.spanId = row.spanId → other = row

/-- The store has these entries, and nothing else under the keys of the run. -/
def KeptTraces (all : List BufferedItem) (store : PostgresTraceStore) (stored : List BufferedItem) : Prop :=
  Agrees all store.tables ∧ ∀ item ∈ stored, PersistedIn store.tables item

/-- A batch has the spans of its sources, and they are of the run. -/
structure FairTrace (all : List BufferedItem) (batch : FlushBatch BufferedItem Trace) : Prop where
  /-- Its sources are of the run. -/
  known : ∀ item ∈ batch.sources, item ∈ all
  /-- They have its trace id. -/
  owned : ∀ item ∈ batch.sources, item.owner = some batch.payload.traceId
  /-- Their rows are its rows. -/
  rows : batch.payload.spans.map serializeSpan = batch.sources.flatMap BufferedItem.rows

/-- The plan of known entries is fair. -/
theorem planTraces_fair {drained : List BufferedItem} (howned : ∀ item ∈ all, item.owner ≠ none)
    (hknown : ∀ item ∈ drained, item ∈ all) : ∀ batch ∈ planTraces drained, FairTrace all batch := by
  intro batch hbatch
  have hsources : ∀ item ∈ batch.sources, item ∈ all := by
    intro item hitem
    have hplanned := planTraces_perm fun item hitem => howned item (hknown item hitem)
    exact hknown item (hplanned.mem_iff.mp (List.mem_flatMap.mpr ⟨batch, hbatch, hitem⟩))
  rcases List.mem_append.mp hbatch with hdirect | hgrouped
  · obtain ⟨trace, htrace, hmade⟩ := List.mem_map.mp hdirect
    subst hmade
    refine ⟨hsources, ?_, ?_⟩
    · intro other hother
      rw [List.mem_singleton.mp hother]
      rfl
    · simp [BufferedItem.rows]
  · obtain ⟨trace, htrace, hmade⟩ := List.mem_map.mp hgrouped
    subst hmade
    refine ⟨hsources, ?_, ?_⟩
    · intro other hother
      obtain ⟨span, hspan, hsame⟩ := List.mem_map.mp hother
      obtain ⟨howner, hnamed⟩ := mem_groupSpansByTrace htrace hspan
      rw [← hsame]
      simp [BufferedItem.owner, howner, hnamed]
    · rw [List.flatMap_map, List.map_eq_flatMap]
      rfl

/-- Two rows of one trace and id are of one entry, and the same. -/
theorem eq_of_key {item other : BufferedItem} {row row' : SpanRow} (hkeys : (all.flatMap BufferedItem.keys).Nodup)
    (hitem : item ∈ all) (hother : other ∈ all) (hrow : row ∈ item.rows) (hrow' : row' ∈ other.rows)
    (howner : item.owner = other.owner) (hid : row.spanId = row'.spanId) : row = row' := by
  have hkeysOf : (all.flatMap BufferedItem.keys) =
      (all.flatMap fun item => item.rows.map fun row => (item.owner, row)).map fun entry => (entry.1, entry.2.spanId) := by
    simp only [List.map_flatMap, List.map_map]
    rfl
  rw [hkeysOf] at hkeys
  have hmem : ∀ {item : BufferedItem} {row : SpanRow}, item ∈ all → row ∈ item.rows →
      (item.owner, row) ∈ all.flatMap fun item => item.rows.map fun row => (item.owner, row) :=
    fun hitem hrow => List.mem_flatMap.mpr ⟨_, hitem, List.mem_map_of_mem hrow⟩
  have hsame := List.inj_on_of_nodup_map hkeys (hmem hitem hrow) (hmem hother hrow') (Prod.ext howner hid)
  exact congrArg Prod.snd hsame

/-- What one more row leaves: the old rows, and one with its id. -/
theorem mem_insertSpan (rows : List SpanRow) (row : SpanRow) :
    (∀ other ∈ insertSpan rows row, other ∈ rows ∨ other = row) ∧ (∀ other ∈ rows, other ∈ insertSpan rows row) ∧
      ∃ found ∈ insertSpan rows row, found.spanId = row.spanId := by
  cases hthere : rows.any fun other => other.spanId = row.spanId with
  | true =>
    have hsame : insertSpan rows row = rows := by rw [insertSpan, hthere]; rfl
    obtain ⟨found, hfound, hid⟩ := List.any_eq_true.mp hthere
    rw [hsame]
    exact ⟨fun _ => Or.inl, fun _ => id, found, hfound, by simpa using hid⟩
  | false =>
    have hadded : insertSpan rows row = rows ++ [row] := by rw [insertSpan, hthere]; rfl
    rw [hadded]
    refine ⟨fun other hother => ?_, fun _ => List.mem_append_left _, row, by simp, rfl⟩
    rcases List.mem_append.mp hother with hold | hnew
    · exact Or.inl hold
    · exact Or.inr (List.mem_singleton.mp hnew)

/-- Several more. -/
theorem mem_foldl_insertSpan (more rows : List SpanRow) :
    (∀ other ∈ more.foldl insertSpan rows, other ∈ rows ∨ other ∈ more) ∧
      (∀ other ∈ rows, other ∈ more.foldl insertSpan rows) ∧
      ∀ row ∈ more, ∃ found ∈ more.foldl insertSpan rows, found.spanId = row.spanId := by
  induction more generalizing rows with
  | nil => simp
  | cons row more ih =>
    obtain ⟨hfrom, hkeep, hnew⟩ := ih (insertSpan rows row)
    rw [List.foldl_cons]
    refine ⟨fun other hother => ?_, fun other hother => hkeep other ((mem_insertSpan rows row).2.1 other hother), fun wanted hwanted => ?_⟩
    · rcases hfrom other hother with hbefore | hlater
      · rcases (mem_insertSpan rows row).1 other hbefore with hold | hsame
        · exact Or.inl hold
        · exact Or.inr (hsame ▸ List.mem_cons_self)
      · exact Or.inr (List.mem_cons_of_mem _ hlater)
    · rcases List.mem_cons.mp hwanted with hsame | hlater
      · obtain ⟨found, hfound, hid⟩ := (mem_insertSpan rows row).2.2
        exact ⟨found, hkeep found hfound, hsame ▸ hid⟩
      · exact hnew wanted hlater

/-- A write of a fair batch keeps its sources beside the rest. -/
theorem kept_writeAtomically {store : PostgresTraceStore} {stored : List BufferedItem} {batch : FlushBatch BufferedItem Trace}
    (hkeys : (all.flatMap BufferedItem.keys).Nodup) (hkept : KeptTraces all store stored) (hfair : FairTrace all batch)
    (persisted writeFailures : String → ℕ) :
    KeptTraces all ⟨writeAtomically store.tables batch.payload, persisted, writeFailures⟩ (stored ++ batch.sources) := by
  obtain ⟨hagrees, hpersisted⟩ := hkept
  have hrows := mem_foldl_insertSpan (batch.payload.spans.map serializeSpan) (store.tables.spans batch.payload.traceId)
  obtain ⟨hfrom, hkeep, hnew⟩ := hrows
  have hagrees' : Agrees all (writeAtomically store.tables batch.payload) := by
    intro item hitem traceId howner row hrow other hother hid
    by_cases hsame : traceId = batch.payload.traceId
    · subst hsame
      simp only [writeAtomically, Function.update_self] at hother
      rcases hfrom other hother with hold | hwritten
      · exact hagrees item hitem _ howner row hrow other hold hid
      · rw [hfair.rows] at hwritten
        obtain ⟨source, hsource, hin⟩ := List.mem_flatMap.mp hwritten
        exact eq_of_key hkeys (hfair.known source hsource) hitem hin hrow
          ((hfair.owned source hsource).trans howner.symm) hid
    · simp only [writeAtomically, Function.update_of_ne hsame] at hother
      exact hagrees item hitem traceId howner row hrow other hother hid
  refine ⟨hagrees', fun item hitem => ?_⟩
  rcases List.mem_append.mp hitem with hbefore | hsource
  · obtain ⟨traceId, howner, htrace, hspans⟩ := hpersisted item hbefore
    by_cases hsame : traceId = batch.payload.traceId
    · refine ⟨traceId, howner, ?_, fun row hrow => ?_⟩
      · simp [writeAtomically, hsame]
      · have hold := hspans row hrow
        rw [hsame] at hold
        simpa [writeAtomically, hsame] using hkeep row hold
    · refine ⟨traceId, howner, ?_, fun row hrow => ?_⟩
      · simpa [writeAtomically, Function.update_of_ne hsame] using htrace
      · simpa [writeAtomically, Function.update_of_ne hsame] using hspans row hrow
  · have howner := hfair.owned item hsource
    refine ⟨batch.payload.traceId, howner, by simp [writeAtomically], fun row hrow => ?_⟩
    have hmine : row ∈ batch.payload.spans.map serializeSpan := by
      rw [hfair.rows]
      exact List.mem_flatMap.mpr ⟨item, hsource, hrow⟩
    obtain ⟨found, hfound, hid⟩ := hnew row hmine
    have hthere : found ∈ (writeAtomically store.tables batch.payload).spans batch.payload.traceId := by
      simpa [writeAtomically] using hfound
    have hsame := hagrees' item (hfair.known item hsource) _ howner row hrow found hthere hid
    exact hsame ▸ hthere

/-- The trace worker keeps its contract as long as every write commits. -/
theorem traceFlushWorker_contract (howned : ∀ item ∈ all, item.owner ≠ none)
    (hkeys : (all.flatMap BufferedItem.keys).Nodup) :
    Contract traceFlushWorker (· ∈ all) (· ≠ .failed) (FairTrace all) (KeptTraces all) where
  planned := fun drained hknown => planTraces_perm fun item hitem => howned item (hknown item hitem)
  fair := fun drained hknown => planTraces_fair howned hknown
  returned := by
    intro store stored batch outcome hkept hfair hfine hreturned
    cases outcome with
    | committed => exact kept_writeAtomically hkeys hkept hfair _ _
    | lostReply => exact kept_writeAtomically hkeys hkept hfair _ _
    | failed => exact absurd rfl hfine
  raised := by
    intro store stored batch outcome hkept hfair hfine hraised
    cases outcome with
    | committed => exact absurd hraised (by simp [traceFlushWorker, PostgresTraceStore.persist, tryWrite])
    | lostReply => exact absurd hraised (by simp [traceFlushWorker, PostgresTraceStore.persist, tryWrite])
    | failed => exact absurd rfl hfine

end Traces

section Logs

/-- The table has a row more for each of these records. -/
def KeptLogs (rows : List LogRow) (store : PostgresLogStore) (stored : List LogRecordModel) : Prop :=
  store.rows.Perm (rows ++ stored.map serializeLog)

/-- The log worker keeps its contract as long as every write commits. -/
theorem logFlushWorker_contract (rows : List LogRow) :
    Contract logFlushWorker (fun _ => True) (· ≠ .failed) (fun batch => batch.sources = [batch.payload]) (KeptLogs rows) where
  planned := by
    intro drained _
    have hsources : (planLogs drained).flatMap FlushBatch.sources = drained := by
      rw [planLogs, List.flatMap_map]
      exact List.flatMap_singleton' drained
    exact List.Perm.of_eq hsources
  fair := by
    intro drained _ batch hbatch
    obtain ⟨record, _, hmade⟩ := List.mem_map.mp hbatch
    rw [← hmade]
  returned := by
    intro store stored batch outcome hkept hfair hfine hreturned
    have hadded : (store.rows ++ [serializeLog batch.payload]).Perm
        (rows ++ (stored ++ batch.sources).map serializeLog) := by
      rw [hfair, List.map_append, ← List.append_assoc]
      exact List.Perm.append_right [serializeLog batch.payload] hkept
    cases outcome with
    | committed => exact hadded
    | lostReply => exact hadded
    | failed => exact absurd rfl hfine
  raised := by
    intro store stored batch outcome hkept hfair hfine hraised
    cases outcome with
    | committed => exact absurd hraised (by simp [logFlushWorker, PostgresLogStore.persist, tryInsert])
    | lostReply => exact absurd hraised (by simp [logFlushWorker, PostgresLogStore.persist, tryInsert])
    | failed => exact absurd rfl hfine

end Logs

section Accounting

variable {spanCapacity logCapacity : ℕ} {start telemetry : Telemetry spanCapacity logCapacity}
  {events : List TelemetryEvent}

/-- A run is a run of the spans beside a run of the log records. -/
theorem run_parts (h : start.run events = some telemetry) :
    FlushWorkers.run traceFlushWorker start.spans (spanEvents events) = some telemetry.spans ∧
      FlushWorkers.run logFlushWorker start.logs (logEvents events) = some telemetry.logs := by
  induction events generalizing start with
  | nil =>
    have hsame : start = telemetry := Option.some.inj h
    exact hsame ▸ ⟨rfl, rfl⟩
  | cons event events ih =>
    obtain ⟨next, hstep, hrest⟩ := Option.bind_eq_some_iff.mp h
    obtain ⟨hspans, hlogs⟩ := ih hrest
    cases event with
    | spans event =>
      obtain ⟨spans, hmoved, hnext⟩ := Option.map_eq_some_iff.mp hstep
      subst hnext
      exact ⟨Option.bind_eq_some_iff.mpr ⟨spans, hmoved, hspans⟩, hlogs⟩
    | logs event =>
      obtain ⟨logs, hmoved, hnext⟩ := Option.map_eq_some_iff.mp hstep
      subst hnext
      exact ⟨hspans, Option.bind_eq_some_iff.mpr ⟨logs, hmoved, hlogs⟩⟩

/-- While no write of the run fails, no telemetry vanishes: between flushes
every captured span and every captured log record is buffered, persisted or in
the drop counter. -/
theorem telemetry_accounted (hstart : Started start) (hrun : start.run events = some telemetry)
    (hundisturbed : Undisturbed start events) :
    (telemetry.spans.flushes = [] → SpansAccounted events telemetry) ∧
      (telemetry.logs.flushes = [] → LogsAccounted start.logs.store.rows events telemetry) := by
  obtain ⟨hspans, hlogs⟩ := run_parts hrun
  constructor
  · intro hidle
    have hcontract := traceFlushWorker_contract hundisturbed.owned hundisturbed.ids
    have hagrees : Agrees (captures (spanEvents events)) start.spans.store.tables :=
      fun item hitem traceId howner row hrow other hother hid =>
        absurd hid (hundisturbed.fresh item hitem traceId howner row hrow other hother)
    have hbegin : Invariant (· ∈ captures (spanEvents events)) (FairTrace (captures (spanEvents events)))
        (KeptTraces (captures (spanEvents events))) [] start.spans := by
      obtain ⟨hitems, hdropped, hflushes⟩ := hstart.spans
      refine ⟨⟨[], [], ⟨hagrees, by simp⟩, hdropped.symm, ?_⟩, by simp, by simp [hflushes]⟩
      simp [hitems, hflushes]
    have hend := hcontract.run hbegin (fun item hitem => hitem) hundisturbed.traces hspans
    obtain ⟨persisted, dropped, hkept, hcount, hperm⟩ := hend.accounted
    refine ⟨persisted, dropped, hkept.2, hcount, ?_⟩
    simpa [hidle] using hperm
  · intro hidle
    have hcontract := logFlushWorker_contract start.logs.store.rows
    have hbegin : Invariant (fun _ => True) (fun batch => batch.sources = [batch.payload])
        (KeptLogs start.logs.store.rows) [] start.logs := by
      obtain ⟨hitems, hdropped, hflushes⟩ := hstart.logs
      refine ⟨⟨[], [], by simp [KeptLogs], hdropped.symm, ?_⟩, by simp, by simp [hflushes]⟩
      simp [hitems, hflushes]
    have hend := hcontract.run hbegin (fun _ _ => trivial) hundisturbed.logs hlogs
    obtain ⟨persisted, dropped, hkept, hcount, hperm⟩ := hend.accounted
    refine ⟨persisted, dropped, hkept, hcount, ?_⟩
    simpa [hidle] using hperm

/-- A process with empty stores. -/
def sampleStart : Telemetry 2 2 where
  spans := ⟨⟨[], 0, Nat.zero_le _⟩, ⟨⟨fun _ => none, fun _ => []⟩, fun _ => 0, fun _ => 0⟩, []⟩
  logs := ⟨⟨[], 0, Nat.zero_le _⟩, ⟨[], 0⟩, []⟩

/-- A record of its trace. -/
def sampleRecord : LogRecordModel where
  timestamp := 5
  level := "INFO"
  logger := "rag_system.api"
  message := "answered"
  traceId := some "t"
  excText := none
  extra := []
  insertionSeq := 0

/-- A span and a record are captured and flushed, their writes ending so. -/
def sampleRun (outcome : WriteOutcome) : List TelemetryEvent :=
  [.spans (.capture (.span sampleRoot)), .logs (.capture sampleRecord), .spans .drain, .logs .drain,
    .spans (.persist 0 outcome), .logs (.persist 0 outcome), .spans (.done 0), .logs (.done 0)]

theorem sampleStart_started : Started sampleStart := ⟨⟨rfl, rfl, rfl⟩, ⟨rfl, rfl, rfl⟩⟩

theorem telemetry_accounted_sample : ∃ telemetry, sampleStart.run (sampleRun .committed) = some telemetry ∧
    SpansAccounted (sampleRun .committed) telemetry ∧ LogsAccounted [] (sampleRun .committed) telemetry := by
  have hundisturbed : Undisturbed sampleStart (sampleRun .committed) := by
    refine ⟨?_, ?_, ?_, ?_, ?_⟩
    · simp [sampleRun, spanEvents, Event.Meets]
    · simp [sampleRun, logEvents, Event.Meets]
    · simp [sampleRun, spanEvents, captures, Event.captured, BufferedItem.owner, sampleRoot, Option.filter]
    · simp [sampleRun, spanEvents, captures, Event.captured, BufferedItem.keys, BufferedItem.rows]
    · simp [sampleStart]
  have hruns : ∃ telemetry, sampleStart.run (sampleRun .committed) = some telemetry ∧
      telemetry.spans.flushes = [] ∧ telemetry.logs.flushes = [] := ⟨_, rfl, rfl, rfl⟩
  obtain ⟨telemetry, hrun, hspans, hlogs⟩ := hruns
  have haccounted := telemetry_accounted sampleStart_started hrun hundisturbed
  exact ⟨telemetry, hrun, haccounted.1 hspans, haccounted.2 hlogs⟩

/-- A span and a record whose writes fail are nowhere, and not counted as dropped. -/
theorem failed_writes_vanish : Started sampleStart ∧ ∃ telemetry, sampleStart.run (sampleRun .failed) = some telemetry ∧
    telemetry.spans.flushes = [] ∧ ¬ SpansAccounted (sampleRun .failed) telemetry ∧
    telemetry.logs.flushes = [] ∧ ¬ LogsAccounted [] (sampleRun .failed) telemetry := by
  refine ⟨sampleStart_started, _, rfl, rfl, ?_, rfl, ?_⟩
  · rintro ⟨persisted, dropped, hpersisted, hcount, hperm⟩
    have hnone : dropped = [] := List.length_eq_zero_iff.mp hcount
    have hitem : BufferedItem.span sampleRoot ∈ persisted := by
      have hmem := hperm.mem_iff.mp (List.mem_singleton.mpr rfl : BufferedItem.span sampleRoot ∈ [.span sampleRoot])
      rw [hnone, List.append_nil] at hmem
      exact hmem
    obtain ⟨traceId, _, htrace, _⟩ := hpersisted _ hitem
    exact absurd htrace (by simp [sampleStart])
  · rintro ⟨persisted, dropped, hrows, hcount, hperm⟩
    have hnone : dropped = [] := List.length_eq_zero_iff.mp hcount
    have hempty : persisted = [] := by
      have hlength : 0 = ([] ++ persisted.map serializeLog).length := hrows.length_eq
      simpa using hlength.symm
    have hlength := hperm.length_eq
    rw [hnone, hempty] at hlength
    exact absurd hlength (by decide)

end Accounting

end RagSystem.TelemetryFlush
