import RagSystem.StoredTelemetry

/-!
# Stored telemetry is read back

A trace that is written is read back, with every span and attribute, and its times as
the same instants. A span does not come back with the trace it was grouped by, and only
a trace with a configuration has settings. Whatever is stored, reading a trace returns
all of it or raises the one error for that.
-/

namespace RagSystem.TelemetryRoundTrips

open ModelReplies (PyStr py bind_eq_ok)
open StoredTelemetry

set_option autoImplicit false

/-! ## Timestamps -/

/-- A time whose instant is of the calendar. -/
def InRange (d : Datetime) : Prop := 0 ≤ d.instant ∧ d.instant < calendarEnd

/-- Such a time has the same instant in UTC. -/
theorem toUtc_of_inRange {d : Datetime} (h : InRange d) : ∃ utc, d.toUtc = some utc ∧ utc.IsUtc ∧ d.instant = utc.instant := by
  unfold Datetime.toUtc
  split
  · next hnaive =>
    refine ⟨_, rfl, rfl, ?_⟩
    simp [Datetime.instant, hnaive]
  · refine ⟨_, dif_pos h, rfl, ?_⟩
    have hpos := h.1
    simp only [Datetime.instant, Option.getD_some]
    simp only [Datetime.instant] at hpos
    omega

/-- A time in UTC stays as it is. -/
theorem toUtc_of_isUtc {d : Datetime} (h : d.IsUtc) : d.toUtc = some d := by
  obtain ⟨fields, hfields, offset⟩ := d
  obtain rfl : offset = some 0 := h
  have hrange : 0 ≤ Datetime.instant ⟨fields, hfields, some 0⟩ ∧ Datetime.instant ⟨fields, hfields, some 0⟩ < calendarEnd := by
    simp only [Datetime.instant, Option.getD_some]
    omega
  have hsame : Datetime.instant ⟨fields, hfields, some 0⟩ = fields := by simp [Datetime.instant]
  have hutc : Datetime.toUtc ⟨fields, hfields, some 0⟩ = Datetime.astimezone ⟨fields, hfields, some 0⟩ := rfl
  rw [hutc, Datetime.astimezone, dif_pos hrange]
  simp [hsame]

variable (iso : IsoTexts)

/-- The text of a time in UTC is read back. -/
theorem parseIsoUtc_isoformat {d : Datetime} (h : d.IsUtc) : parseIsoUtc iso (.str (iso.isoformat d)) = .ok d := by
  obtain ⟨front, hfront⟩ := iso.isoformat_utc d h
  have hlast : (iso.isoformat d).getLast? ≠ some 90 := by
    have hzero : (py "+00:00").getLast? = some 48 := by decide
    rw [hfront, List.getLast?_append, hzero]
    simp
  rw [parseIsoUtc, withOffset, if_neg hlast, iso.fromisoformat_isoformat d h]
  dsimp only
  rw [toUtc_of_isUtc h]

/-- A time in range is written, and read as the same instant. -/
theorem toIsoUtc_of_inRange {d : Datetime} (h : InRange d) :
    ∃ text back, toIsoUtc iso d = .ok text ∧ parseIsoUtc iso (.str text) = .ok back ∧ d.instant = back.instant := by
  obtain ⟨utc, hutc, hzone, hinstant⟩ := toUtc_of_inRange h
  refine ⟨iso.isoformat utc, utc, ?_, parseIsoUtc_isoformat iso hzone, hinstant⟩
  rw [toIsoUtc, hutc]

/-! ## Equal telemetry -/

/-- Equal, and the same instant. -/
def SameSpan (a b : Span) : Prop := { a with startTs := b.startTs } = b ∧ a.startTs.instant = b.startTs.instant

/-- Equal up to the times, which are the same instants. -/
structure SameTrace (a b : Trace) : Prop where
  /-- The fields. -/
  fields : { a with startTs := b.startTs, spans := b.spans } = b
  /-- The time. -/
  instant : a.startTs.instant = b.startTs.instant
  /-- The spans. -/
  spans : List.Forall₂ SameSpan a.spans b.spans

/-- Equal, and the same instant. -/
def SameRecord (a b : LogRecordModel) : Prop := { a with timestamp := b.timestamp } = b ∧ a.timestamp.instant = b.timestamp.instant

/-- A span without the trace and the route it is grouped by. -/
def ungrouped (span : Span) : Span := { span with traceId := none, route := none }

/-- A trace that can be stored and read back. -/
structure Storable (trace : Trace) : Prop where
  /-- It has an id. -/
  traceId : trace.traceId ≠ []
  /-- Its time is in range. -/
  startTs : InRange trace.startTs
  /-- Its spans have ids, and times in range. -/
  spans : ∀ span ∈ trace.spans, span.spanId ≠ [] ∧ InRange span.startTs
  /-- Settings are those of a configuration. -/
  settings : trace.aiConfigurationVersionId = none → trace.resolvedSettings = []

/-- A span is what its entry stores of it. -/
structure StoredSpan (entry : Members) (span : Span) : Prop where
  /-- Its id. -/
  spanId : get entry "span_id" = some (.str span.spanId)
  /-- Its parent. -/
  parentSpanId : get entry "parent_span_id" = some (ofText span.parentSpanId)
  /-- Its operation. -/
  operation : get entry "operation" = some (.str span.operation)
  /-- Its time. -/
  startTs : ∃ value, get entry "start_ts" = some value ∧ parseIsoUtc iso value = .ok span.startTs
  /-- Its duration. -/
  durationMs : get entry "duration_ms" = some (.int span.durationMs)
  /-- Its status. -/
  status : get entry "status" = some (.str span.status.value)
  /-- Its attributes, if there are any. -/
  attributes : (get entry "attributes").getD (.dict []) = .dict span.attributes

/-- A trace is what is stored of it. -/
structure StoredTrace (members : Members) (trace : Trace) : Prop where
  /-- Its id, which is not empty. -/
  traceId : get members "trace_id" = some (.str trace.traceId) ∧ trace.traceId ≠ []
  /-- Its route. -/
  route : get members "route" = some (.str trace.route)
  /-- Its time. -/
  startTs : ∃ value, get members "start_ts" = some value ∧ parseIsoUtc iso value = .ok trace.startTs
  /-- Its duration. -/
  durationMs : get members "duration_ms" = some (.int trace.durationMs)
  /-- Its status. -/
  rootStatus : get members "root_status" = some (.str trace.rootStatus.value)
  /-- Every span. -/
  spans : ∃ raws, get members "spans" = some (.list raws) ∧
    List.Forall₂ (fun raw span => ∃ entry, raw = Value.dict entry ∧ StoredSpan iso entry span) raws trace.spans
  /-- Its configuration, if that is a string. -/
  configuration : trace.aiConfigurationVersionId = readConfiguration members
  /-- Its settings, if they are a dict. -/
  settings : trace.resolvedSettings = readSettings members

/-- Everything that is stored of a trace is there. -/
def Complete (stored : Value) (trace : Trace) : Prop := ∃ members, stored = .dict members ∧ StoredTrace iso members trace

/-! ## Spans -/

theorem requireTimestamp_text {text traceId field : PyStr} {d : Datetime} (h : parseIsoUtc iso (.str text) = .ok d) :
    requireTimestamp iso (some (.str text)) traceId field = .ok d := by
  rw [requireTimestamp]
  simp only [present, bind, Except.bind, h]
  rfl

theorem requireDuration_int (duration : ℕ) (traceId field : PyStr) :
    requireDuration (some (.int duration)) traceId field = .ok duration := by
  have hpos : ¬ (duration : ℤ) < 0 := by omega
  simp only [requireDuration, present, bind, Except.bind, hpos, if_false]
  rfl

theorem requireStatus_value (status : SpanStatus) (traceId field : PyStr) :
    requireStatus (some (.str status.value)) traceId field = .ok status := by
  have hdifferent : py "error" ≠ py "success" := by decide
  cases status with
  | success => simp only [requireStatus, present, bind, Except.bind, SpanStatus.value, if_true]; rfl
  | error => simp only [requireStatus, present, bind, Except.bind, SpanStatus.value, hdifferent, if_false, if_true]; rfl

section Spans

variable (span : Span) (text : PyStr)

/-- What is written of a span. -/
def spanMembers : Members :=
  [(py "span_id", .str span.spanId), (py "parent_span_id", ofText span.parentSpanId), (py "operation", .str span.operation),
    (py "start_ts", .str text), (py "duration_ms", .int span.durationMs), (py "status", .str span.status.value),
    (py "attributes", .dict span.attributes)]

theorem readSpanId_members (hid : span.spanId ≠ []) (traceId : PyStr) :
    readSpanId (spanMembers span text) traceId = .ok span.spanId := by
  have hget : get (spanMembers span text) "span_id" = some (.str span.spanId) := rfl
  simp only [readSpanId, hget, if_neg hid]

theorem readParent_members (spanId traceId : PyStr) : readParent (spanMembers span text) spanId traceId = .ok span.parentSpanId := by
  have hget : get (spanMembers span text) "parent_span_id" = some (ofText span.parentSpanId) := rfl
  rw [readParent, hget]
  cases span.parentSpanId <;> rfl

/-- What is read of what is written of a span. -/
theorem deserializeSpan_members {back : Datetime} (hid : span.spanId ≠ []) (hparse : parseIsoUtc iso (.str text) = .ok back)
    (traceId : PyStr) : deserializeSpan iso traceId (.dict (spanMembers span text)) = .ok { ungrouped span with startTs := back } := by
  have hoperation : get (spanMembers span text) "operation" = some (.str span.operation) := rfl
  have hstart : get (spanMembers span text) "start_ts" = some (.str text) := rfl
  have hduration : get (spanMembers span text) "duration_ms" = some (.int span.durationMs) := rfl
  have hstatus : get (spanMembers span text) "status" = some (.str span.status.value) := rfl
  have hattributes : get (spanMembers span text) "attributes" = some (.dict span.attributes) := rfl
  simp only [deserializeSpan, readSpanId_members span text hid, readParent_members, hoperation, hstart, hduration, hstatus,
    requireText, requireTimestamp_text iso hparse, requireDuration_int, requireStatus_value, readAttributes, hattributes,
    Option.getD_some, bind, Except.bind, pure, Except.pure]
  rfl

end Spans

/-- A span is written, and read back without what it is grouped by. -/
theorem span_read_back {span : Span} (hid : span.spanId ≠ []) (htime : InRange span.startTs) (traceId : PyStr) :
    ∃ stored back, serializeSpan iso span = .ok stored ∧ deserializeSpan iso traceId stored = .ok back ∧
      SameSpan (ungrouped span) back := by
  obtain ⟨text, back, htext, hparse, hinstant⟩ := toIsoUtc_of_inRange iso htime
  have hwritten : serializeSpan iso span = .ok (.dict (spanMembers span text)) := by
    rw [serializeSpan, htext]
    rfl
  exact ⟨_, _, hwritten, deserializeSpan_members iso span text hid hparse traceId, rfl, hinstant⟩

/-- So are all of them. -/
theorem spans_read_back {spans : List Span} (h : ∀ span ∈ spans, span.spanId ≠ [] ∧ InRange span.startTs) (traceId : PyStr) :
    ∃ stored back, serializeSpans iso spans = .ok stored ∧ deserializeSpans iso traceId stored = .ok back ∧
      List.Forall₂ SameSpan (spans.map ungrouped) back := by
  induction spans with
  | nil => exact ⟨[], [], rfl, rfl, List.Forall₂.nil⟩
  | cons span spans ih =>
    obtain ⟨hid, htime⟩ := h span List.mem_cons_self
    obtain ⟨first, firstBack, hfirst, hfirstBack, hsame⟩ := span_read_back iso hid htime traceId
    obtain ⟨later, laterBack, hlater, hlaterBack, hrest⟩ := ih fun other hother => h other (List.mem_cons_of_mem _ hother)
    refine ⟨first :: later, firstBack :: laterBack, ?_, ?_, List.Forall₂.cons hsame hrest⟩
    · rw [serializeSpans, hfirst, hlater]
      rfl
    · rw [deserializeSpans, hfirstBack, hlaterBack]
      rfl

/-! ## Traces -/

/-- What is written of a trace. -/
def writtenMembers (trace : Trace) (text : PyStr) (spans : List Value) : Members :=
  [(py "trace_id", .str trace.traceId), (py "route", .str trace.route), (py "start_ts", .str text),
    (py "duration_ms", .int trace.durationMs), (py "root_status", .str trace.rootStatus.value), (py "spans", .list spans)] ++
      configurationMembers trace

/-- The configuration is read back, with its settings. -/
theorem configuration_read_back (trace : Trace) (text : PyStr) (spans : List Value)
    (hsettings : trace.aiConfigurationVersionId = none → trace.resolvedSettings = []) :
    readConfiguration (writtenMembers trace text spans) = trace.aiConfigurationVersionId ∧
      readSettings (writtenMembers trace text spans) = trace.resolvedSettings := by
  cases hid : trace.aiConfigurationVersionId with
  | none =>
    rw [hsettings hid, readConfiguration, readSettings, writtenMembers, configurationMembers, hid]
    exact ⟨rfl, rfl⟩
  | some id =>
    rw [readConfiguration, readSettings, writtenMembers, configurationMembers, hid]
    exact ⟨rfl, rfl⟩

/-- A trace that can be stored is read back, its spans without what they are grouped by. -/
theorem trace_read_back {trace : Trace} (h : Storable trace) :
    ∃ stored back, serialize iso trace = .ok stored ∧ deserialize iso stored = .ok back ∧
      SameTrace { trace with spans := trace.spans.map ungrouped } back := by
  obtain ⟨text, startTs, htext, hparse, hinstant⟩ := toIsoUtc_of_inRange iso h.startTs
  obtain ⟨stored, spans, hstored, hspans, hsame⟩ := spans_read_back iso h.spans trace.traceId
  obtain ⟨hconfiguration, hsettings⟩ := configuration_read_back trace text stored h.settings
  have hwritten : serialize iso trace = .ok (.dict (writtenMembers trace text stored)) := by
    rw [serialize, traceMembers, htext, hstored]
    rfl
  have hid : get (writtenMembers trace text stored) "trace_id" = some (.str trace.traceId) := rfl
  have hroute : get (writtenMembers trace text stored) "route" = some (.str trace.route) := rfl
  have hstart : get (writtenMembers trace text stored) "start_ts" = some (.str text) := rfl
  have hduration : get (writtenMembers trace text stored) "duration_ms" = some (.int trace.durationMs) := rfl
  have hstatus : get (writtenMembers trace text stored) "root_status" = some (.str trace.rootStatus.value) := rfl
  have hraws : get (writtenMembers trace text stored) "spans" = some (.list stored) := rfl
  have hread : traceOf iso trace.traceId (writtenMembers trace text stored) =
      .ok { trace with startTs := startTs, spans := spans } := by
    simp only [traceOf, hroute, hstart, hduration, hstatus, readSpans, hraws, requireText, requireTimestamp_text iso hparse,
      requireDuration_int, requireStatus_value, hspans, hconfiguration, hsettings, bind, Except.bind, pure, Except.pure]
  refine ⟨_, { trace with startTs := startTs, spans := spans }, hwritten, ?_, ⟨rfl, hinstant, hsame⟩⟩
  simp only [deserialize, hid, if_neg h.traceId, hread, surfaced]

/-! ## Log records -/

/-- What is written of a log record. -/
def logMembers (record : LogRecordModel) (text : PyStr) : Members :=
  [(py "timestamp", .str text), (py "level", .str record.level), (py "logger", .str record.logger),
    (py "message", .str record.message), (py "trace_id", ofText record.traceId), (py "exc_text", ofText record.excText),
    (py "extra", .dict record.extra), (py "insertion_seq", .int record.insertionSeq)]

theorem readNullable_of_get {members : Members} {field : String} {text : Option PyStr} (h : get members field = some (ofText text))
    (traceId : Option PyStr) : readNullable members field traceId = .ok text := by
  rw [readNullable, h]
  cases text <;> rfl

/-- A log record with a time in range is read back. -/
theorem log_read_back {record : LogRecordModel} (h : InRange record.timestamp) :
    ∃ stored back, serializeLog iso record = .ok stored ∧ deserializeLog iso stored = .ok back ∧ SameRecord record back := by
  obtain ⟨text, timestamp, htext, hparse, hinstant⟩ := toIsoUtc_of_inRange iso h
  have hwritten : serializeLog iso record = .ok (.dict (logMembers record text)) := by
    rw [serializeLog, htext]
    rfl
  have htimestamp : get (logMembers record text) "timestamp" = some (.str text) := rfl
  have hlevel : get (logMembers record text) "level" = some (.str record.level) := rfl
  have hlogger : get (logMembers record text) "logger" = some (.str record.logger) := rfl
  have hmessage : get (logMembers record text) "message" = some (.str record.message) := rfl
  have htrace : get (logMembers record text) "trace_id" = some (ofText record.traceId) := rfl
  have hexc : get (logMembers record text) "exc_text" = some (ofText record.excText) := rfl
  have hextra : get (logMembers record text) "extra" = some (.dict record.extra) := rfl
  have hseq : get (logMembers record text) "insertion_seq" = some (.int record.insertionSeq) := rfl
  refine ⟨_, { record with timestamp := timestamp }, hwritten, ?_, rfl, hinstant⟩
  simp only [deserializeLog, readNullable_of_get htrace, readNullable_of_get hexc, requireStr, hlevel, hlogger, hmessage,
    readTimestamp, htimestamp, hparse, readExtra, hextra, readInsertionSeq, hseq, Option.getD_some, bind, Except.bind, pure,
    Except.pure]

/-! ## Whatever is stored -/

/-- Reading a trace raises the one error. -/
theorem deserialize_error {stored : Value} {error : Raised} (h : deserialize iso stored = .error error) :
    ∃ reason traceId, error = .traceDeserialization reason traceId := by
  unfold deserialize at h
  split at h
  · split at h
    · split at h
      · cases h
        exact ⟨_, _, rfl⟩
      · next members _ traceId _ _ =>
        cases hread : traceOf iso traceId members with
        | ok trace =>
          rw [hread] at h
          cases h
        | error raised =>
          rw [hread] at h
          cases raised <;> cases h <;> exact ⟨_, _, rfl⟩
    · cases h
      exact ⟨_, _, rfl⟩
  · cases h
    exact ⟨_, _, rfl⟩

theorem present_ok {value : Option Value} {traceId field : PyStr} {found : Value}
    (h : present value traceId field = .ok found) : value = some found := by
  unfold present at h
  split at h
  · cases h
  · cases h
  · cases h
    rfl

theorem requireText_ok {value : Option Value} {traceId field text : PyStr} (h : requireText value traceId field = .ok text) :
    value = some (.str text) := by
  unfold requireText at h
  split at h
  · cases h
    rfl
  · cases h

theorem requireTimestamp_ok {value : Option Value} {traceId field : PyStr} {d : Datetime}
    (h : requireTimestamp iso value traceId field = .ok d) : ∃ found, value = some found ∧ parseIsoUtc iso found = .ok d := by
  obtain ⟨found, hfound, hparsed⟩ := bind_eq_ok.mp h
  refine ⟨found, present_ok hfound, ?_⟩
  unfold orUnparseable at hparsed
  split at hparsed
  · cases hparsed
  · cases hparsed
  · exact hparsed

theorem requireDuration_ok {value : Option Value} {traceId field : PyStr} {duration : ℕ}
    (h : requireDuration value traceId field = .ok duration) : value = some (.int duration) := by
  obtain ⟨found, hfound, h⟩ := bind_eq_ok.mp h
  rw [present_ok hfound]
  split at h
  · next whole =>
    split at h
    · cases h
    · next hpos =>
      cases h
      rw [Int.toNat_of_nonneg (not_lt.mp hpos)]
  · cases h

theorem requireStatus_ok {value : Option Value} {traceId field : PyStr} {status : SpanStatus}
    (h : requireStatus value traceId field = .ok status) : value = some (.str status.value) := by
  obtain ⟨found, hfound, h⟩ := bind_eq_ok.mp h
  rw [present_ok hfound]
  split at h
  · next text =>
    split at h
    · next hsuccess =>
      cases h
      rw [hsuccess]
      rfl
    · split at h
      · next herror =>
        cases h
        rw [herror]
        rfl
      · cases h
  · cases h

theorem readSpanId_ok {raw : Members} {traceId spanId : PyStr} (h : readSpanId raw traceId = .ok spanId) :
    get raw "span_id" = some (.str spanId) := by
  unfold readSpanId at h
  split at h
  · next text hget =>
    split at h
    · cases h
    · cases h
      exact hget
  · cases h

theorem readParent_ok {raw : Members} {spanId traceId : PyStr} {parent : Option PyStr}
    (h : readParent raw spanId traceId = .ok parent) : get raw "parent_span_id" = some (ofText parent) := by
  unfold readParent at h
  split at h
  · cases h
  · next hget =>
    cases h
    exact hget
  · next text hget =>
    cases h
    exact hget
  · cases h

theorem readAttributes_ok {raw : Members} {spanId traceId : PyStr} {attributes : Members}
    (h : readAttributes raw spanId traceId = .ok attributes) : (get raw "attributes").getD (.dict []) = .dict attributes := by
  unfold readAttributes at h
  split at h
  · next members hget =>
    cases h
    exact hget
  · cases h

/-- A span that is read is what its entry stores. -/
theorem deserializeSpan_ok {traceId : PyStr} {raw : Value} {span : Span} (h : deserializeSpan iso traceId raw = .ok span) :
    ∃ entry, raw = .dict entry ∧ StoredSpan iso entry span := by
  unfold deserializeSpan at h
  split at h
  · next entry =>
    obtain ⟨spanId, hid, h⟩ := bind_eq_ok.mp h
    obtain ⟨parent, hparent, h⟩ := bind_eq_ok.mp h
    obtain ⟨operation, hoperation, h⟩ := bind_eq_ok.mp h
    obtain ⟨startTs, hstart, h⟩ := bind_eq_ok.mp h
    obtain ⟨duration, hduration, h⟩ := bind_eq_ok.mp h
    obtain ⟨status, hstatus, h⟩ := bind_eq_ok.mp h
    obtain ⟨attributes, hattributes, h⟩ := bind_eq_ok.mp h
    cases h
    exact ⟨entry, rfl, readSpanId_ok hid, readParent_ok hparent, requireText_ok hoperation, requireTimestamp_ok iso hstart,
      requireDuration_ok hduration, requireStatus_ok hstatus, readAttributes_ok hattributes⟩
  · cases h

/-- Every entry is read. -/
theorem deserializeSpans_ok {traceId : PyStr} {raws : List Value} :
    ∀ {spans : List Span}, deserializeSpans iso traceId raws = .ok spans →
      List.Forall₂ (fun raw span => ∃ entry, raw = Value.dict entry ∧ StoredSpan iso entry span) raws spans := by
  induction raws with
  | nil =>
    intro spans h
    cases h
    exact List.Forall₂.nil
  | cons raw raws ih =>
    intro spans h
    obtain ⟨first, hfirst, h⟩ := bind_eq_ok.mp h
    obtain ⟨later, hlater, h⟩ := bind_eq_ok.mp h
    cases h
    exact List.Forall₂.cons (deserializeSpan_ok iso hfirst) (ih hlater)

/-- A trace that is read, once it has its id, is what is stored. -/
theorem traceOf_ok {traceId : PyStr} {members : Members} {trace : Trace} (hid : get members "trace_id" = some (.str traceId))
    (hne : traceId ≠ []) (h : traceOf iso traceId members = .ok trace) : StoredTrace iso members trace := by
  obtain ⟨route, hroute, h⟩ := bind_eq_ok.mp h
  obtain ⟨startTs, hstart, h⟩ := bind_eq_ok.mp h
  obtain ⟨duration, hduration, h⟩ := bind_eq_ok.mp h
  obtain ⟨status, hstatus, h⟩ := bind_eq_ok.mp h
  obtain ⟨raws, hraws, h⟩ := bind_eq_ok.mp h
  obtain ⟨spans, hspans, h⟩ := bind_eq_ok.mp h
  cases h
  have hentries : get members "spans" = some (.list raws) := by
    unfold readSpans at hraws
    split at hraws
    · next entries hget =>
      cases hraws
      exact hget
    · cases hraws
  exact ⟨⟨hid, hne⟩, requireText_ok hroute, requireTimestamp_ok iso hstart, requireDuration_ok hduration,
    requireStatus_ok hstatus, ⟨raws, hentries, deserializeSpans_ok iso hspans⟩, rfl, rfl⟩

/-- A trace that is read is all of what is stored. -/
theorem deserialize_ok {stored : Value} {trace : Trace} (h : deserialize iso stored = .ok trace) : Complete iso stored trace := by
  unfold deserialize at h
  split at h
  · next members =>
    split at h
    · next traceId hid =>
      split at h
      · cases h
      · next hne =>
        cases hread : traceOf iso traceId members with
        | error raised =>
          rw [hread] at h
          cases raised <;> cases h
        | ok read =>
          rw [hread] at h
          cases h
          exact ⟨members, rfl, traceOf_ok iso hid hne hread⟩
    · cases h
  · cases h

/-- A trace that can be stored is read back as it was, its spans without what they are
grouped by; so is a log record with a time in range; and whatever is stored, reading a
trace returns all of it or raises the one error. -/
theorem telemetry_read_back (iso : IsoTexts) :
    (∀ trace, Storable trace → ∃ stored back, serialize iso trace = .ok stored ∧ deserialize iso stored = .ok back ∧
      SameTrace { trace with spans := trace.spans.map ungrouped } back) ∧
    (∀ record, InRange record.timestamp → ∃ stored back, serializeLog iso record = .ok stored ∧
      deserializeLog iso stored = .ok back ∧ SameRecord record back) ∧
    (∀ stored, (∃ trace, deserialize iso stored = .ok trace ∧ Complete iso stored trace) ∨
      ∃ reason traceId, deserialize iso stored = .error (.traceDeserialization reason traceId)) := by
  refine ⟨fun trace h => trace_read_back iso h, fun record h => log_read_back iso h, fun stored => ?_⟩
  cases hread : deserialize iso stored with
  | ok trace => exact Or.inl ⟨trace, rfl, deserialize_ok iso hread⟩
  | error error =>
    obtain ⟨reason, traceId, rfl⟩ := deserialize_error iso hread
    exact Or.inr ⟨reason, traceId, rfl⟩

/-! ## A sample -/

/-- The beginning of 2024 in UTC. -/
def newYear : Datetime := ⟨63839664000000000, by decide, some 0⟩

/-- Its text. -/
def newYearText : PyStr := py "2024-01-01T00:00:00+00:00"

/-- Texts of times: the one of the sample as it is, others by their length. -/
def sampleIso : IsoTexts where
  isoformat d := if d = newYear then newYearText else List.replicate d.fields 48 ++ py "+00:00"
  fromisoformat text :=
    if text = newYearText then .ok newYear
    else if h : text.length - 6 < calendarEnd then .ok ⟨text.length - 6, h, some 0⟩
    else .error (py "Invalid isoformat string")
  isoformat_utc d _ := by
    by_cases hsample : d = newYear
    · exact ⟨py "2024-01-01T00:00:00", by rw [if_pos hsample]; decide⟩
    · exact ⟨_, if_neg hsample⟩
  fromisoformat_isoformat d hutc := by
    by_cases hsample : d = newYear
    · rw [if_pos hsample, if_pos rfl, hsample]
    · have hfirst : newYearText.head? = some 50 := by decide
      have hother : List.replicate d.fields 48 ++ py "+00:00" ≠ newYearText := by
        intro h
        rw [← h] at hfirst
        cases hzeros : d.fields with
        | zero =>
          rw [hzeros] at hfirst
          exact absurd hfirst (by decide)
        | succ n =>
          rw [hzeros, List.replicate_succ, List.cons_append, List.head?_cons] at hfirst
          exact absurd hfirst (by decide)
      have hlength : (List.replicate d.fields 48 ++ py "+00:00").length - 6 = d.fields := by
        rw [List.length_append, List.length_replicate]
        exact Nat.add_sub_cancel _ 6
      obtain ⟨fields, hfields, offset⟩ := d
      obtain rfl : offset = some 0 := hutc
      rw [if_neg hsample, if_neg hother, dif_pos (hlength.symm ▸ hfields)]
      simp only [hlength]

/-- The root span of a trace, as it was recorded. -/
def rootSpan : Span where
  spanId := py "00f067aa0ba902b7"
  parentSpanId := none
  operation := py "query"
  startTs := newYear
  durationMs := 12
  status := .success
  attributes := [(py "retrieval.hits", .int 3)]
  traceId := some (py "4bf92f3577b34da6a3ce929d0e0e4736")
  route := some (py "rag")

/-- Its trace. -/
def queryTrace : Trace where
  traceId := py "4bf92f3577b34da6a3ce929d0e0e4736"
  route := py "rag"
  startTs := newYear
  durationMs := 12
  rootStatus := .success
  spans := [rootSpan]
  aiConfigurationVersionId := some (py "v7")
  resolvedSettings := [(py "prompt", .str (py "Answer briefly."))]

theorem inRange_newYear : InRange newYear := by
  unfold InRange
  decide

theorem storable_queryTrace : Storable queryTrace := by
  refine ⟨by decide, inRange_newYear, fun span hspan => ?_, fun h => nomatch h⟩
  rw [List.mem_singleton.mp hspan]
  exact ⟨by decide, inRange_newYear⟩

theorem telemetry_read_back_sample : ∃ stored back, serialize sampleIso queryTrace = .ok stored ∧
    deserialize sampleIso stored = .ok back ∧
      SameTrace { queryTrace with spans := queryTrace.spans.map ungrouped } back :=
  (telemetry_read_back sampleIso).1 queryTrace storable_queryTrace

/-- The root span comes back without the trace and the route that it was recorded with. -/
theorem grouping_not_stored : ∃ stored back, serialize sampleIso queryTrace = .ok stored ∧
    deserialize sampleIso stored = .ok back ∧ ¬ SameTrace queryTrace back := by
  obtain ⟨stored, back, hstored, hback, hsame⟩ := trace_read_back sampleIso storable_queryTrace
  refine ⟨stored, back, hstored, hback, fun h => ?_⟩
  have hread := hsame.spans
  have hkept := h.spans
  cases hspans : back.spans with
  | nil =>
    rw [hspans] at hkept
    cases hkept
  | cons span spans =>
    rw [hspans] at hread hkept
    have hnone : none = span.traceId := congrArg Span.traceId (List.forall₂_cons.mp hread).1.1
    have hsome : some (py "4bf92f3577b34da6a3ce929d0e0e4736") = span.traceId :=
      congrArg Span.traceId (List.forall₂_cons.mp hkept).1.1
    rw [← hnone] at hsome
    cases hsome

end RagSystem.TelemetryRoundTrips
