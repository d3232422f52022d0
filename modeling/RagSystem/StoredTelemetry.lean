import RagSystem.ModelReplies

/-!
# Stored traces and logs

Traces and log records as dicts, and read back from them. Timestamps are written as
texts of their UTC instants. What a trace's own settings are is stored beside the
configuration that they are of, and a span does not store the trace it belongs to.
-/

namespace RagSystem.StoredTelemetry

open Doubles
open ModelReplies (PyStr py)

set_option autoImplicit false

/-! ## Timestamps -/

/-- The microseconds of the years 1 to 9999. -/
def calendarEnd : ℕ := 3652059 * 86400000000

/-- A `datetime`: its fields, as microseconds from the beginning of year 1, and its offset from UTC, if it is aware. -/
structure Datetime where
  /-- The fields. -/
  fields : ℕ
  /-- They are of the calendar. -/
  fields_lt : fields < calendarEnd
  /-- `utcoffset()`, in microseconds. -/
  offset : Option ℤ
  deriving DecidableEq

/-- The instant; a naive time is taken as UTC. -/
def Datetime.instant (d : Datetime) : ℤ := d.fields - d.offset.getD 0

/-- `astimezone(timezone.utc)`; none is an `OverflowError`. -/
def Datetime.astimezone (d : Datetime) : Option Datetime :=
  if h : 0 ≤ d.instant ∧ d.instant < calendarEnd then some ⟨d.instant.toNat, by omega, some 0⟩ else none

/-- In UTC: a naive time is replaced, an aware one converted. -/
def Datetime.toUtc (d : Datetime) : Option Datetime :=
  match d.offset with
  | none => some { d with offset := some 0 }
  | some _ => d.astimezone

/-- A time in UTC. -/
def Datetime.IsUtc (d : Datetime) : Prop := d.offset = some 0

/-- `isoformat` and `fromisoformat`. -/
structure IsoTexts where
  /-- `isoformat`. -/
  isoformat : Datetime → PyStr
  /-- `fromisoformat`, or the text of its `ValueError`. -/
  fromisoformat : PyStr → Except PyStr Datetime
  /-- A time in UTC is written with its offset. -/
  isoformat_utc : ∀ d : Datetime, d.IsUtc → ∃ front, isoformat d = front ++ py "+00:00"
  /-- What is written is read back. -/
  fromisoformat_isoformat : ∀ d : Datetime, d.IsUtc → fromisoformat (isoformat d) = .ok d

/-! ## Values -/

/-- A stored value, of any shape. -/
inductive Value where
  | none
  | bool (value : Bool)
  | int (value : ℤ)
  | float (value : Double)
  | str (text : PyStr)
  | list (items : List Value)
  | dict (members : List (PyStr × Value))
  /-- Another object, by the name of its type. -/
  | other (typeName : PyStr)

/-- `type(value).__name__`. -/
def Value.typeName : Value → PyStr
  | .none => py "NoneType"
  | .bool _ => py "bool"
  | .int _ => py "int"
  | .float _ => py "float"
  | .str _ => py "str"
  | .list _ => py "list"
  | .dict _ => py "dict"
  | .other name => name

/-- A dict's members. -/
abbrev Members := List (PyStr × Value)

/-- `stored.get`. -/
def get (members : Members) (name : String) : Option Value := members.lookup (py name)

/-- A string, or `None`. -/
def ofText : Option PyStr → Value
  | some text => .str text
  | none => .none

/-- `SpanStatus`. -/
inductive SpanStatus where
  | success | error
  deriving DecidableEq

/-- The value of a status. -/
def SpanStatus.value : SpanStatus → PyStr
  | .success => py "success"
  | .error => py "error"

/-- `Span`. -/
structure Span where
  /-- `span_id`. -/
  spanId : PyStr
  /-- `parent_span_id`. -/
  parentSpanId : Option PyStr
  /-- `operation`. -/
  operation : PyStr
  /-- `start_ts`. -/
  startTs : Datetime
  /-- `duration_ms`. -/
  durationMs : ℕ
  /-- `status`. -/
  status : SpanStatus
  /-- `attributes`. -/
  attributes : Members
  /-- `trace_id`, for the worker that groups spans. -/
  traceId : Option PyStr := none
  /-- `route`, for the same. -/
  route : Option PyStr := none

/-- `Trace`. -/
structure Trace where
  /-- `trace_id`. -/
  traceId : PyStr
  /-- `route`. -/
  route : PyStr
  /-- `start_ts`. -/
  startTs : Datetime
  /-- `duration_ms`. -/
  durationMs : ℕ
  /-- `root_status`. -/
  rootStatus : SpanStatus
  /-- `spans`. -/
  spans : List Span
  /-- `ai_configuration_version_id`. -/
  aiConfigurationVersionId : Option PyStr := none
  /-- `resolved_settings`. -/
  resolvedSettings : Members := []

/-- `LogRecordModel`. -/
structure LogRecordModel where
  /-- `timestamp`. -/
  timestamp : Datetime
  /-- `level`. -/
  level : PyStr
  /-- `logger`. -/
  logger : PyStr
  /-- `message`. -/
  message : PyStr
  /-- `trace_id`. -/
  traceId : Option PyStr
  /-- `exc_text`. -/
  excText : Option PyStr
  /-- `extra`. -/
  extra : Members
  /-- `insertion_seq`. -/
  insertionSeq : ℤ := 0

/-- What is raised. -/
inductive Raised where
  /-- `TraceSerializationError`. -/
  | traceSerialization (reason : PyStr) (traceId : Option PyStr)
  /-- `TraceDeserializationError`. -/
  | traceDeserialization (reason : Option PyStr) (traceId : Option PyStr)
  /-- `LogDeserializationError`. -/
  | logDeserialization (reason : PyStr) (traceId : Option PyStr)
  /-- `ValueError`. -/
  | valueError (text : PyStr)
  /-- `TypeError`. -/
  | typeError (text : PyStr)
  /-- `OverflowError`. -/
  | overflowError (text : PyStr)

/-- `str(exc) or exc.__class__.__name__`, of what is not raised by the serializers themselves. -/
def Raised.reason : Raised → PyStr
  | .valueError text => if text = [] then py "ValueError" else text
  | .typeError text => if text = [] then py "TypeError" else text
  | .overflowError text => if text = [] then py "OverflowError" else text
  | _ => []

variable (iso : IsoTexts)

/-- What `astimezone` says when it overflows. -/
def outOfRange : Raised := .overflowError (py "date value out of range")

/-- `_to_iso_utc`, of a `datetime`. -/
def toIsoUtc (value : Datetime) : Except Raised PyStr :=
  match value.toUtc with
  | some utc => .ok (iso.isoformat utc)
  | none => .error outOfRange

/-- A trailing `Z` is the offset zero. -/
def withOffset (text : PyStr) : PyStr :=
  if text.getLast? = some 90 then text.dropLast ++ py "+00:00" else text

/-- `_parse_iso_utc`. -/
def parseIsoUtc : Value → Except Raised Datetime
  | .str text =>
    match iso.fromisoformat (withOffset text) with
    | .ok parsed =>
      match parsed.toUtc with
      | some utc => .ok utc
      | none => .error outOfRange
    | .error message => .error (.valueError message)
  | value => .error (.typeError (py "expected ISO-8601 string, got " ++ value.typeName))

/-! ## Traces -/

/-- `_serialize_span`. -/
def serializeSpan (span : Span) : Except Raised Value := do
  let startTs ← toIsoUtc iso span.startTs
  pure (.dict [(py "span_id", .str span.spanId), (py "parent_span_id", ofText span.parentSpanId),
    (py "operation", .str span.operation), (py "start_ts", .str startTs), (py "duration_ms", .int span.durationMs),
    (py "status", .str span.status.value), (py "attributes", .dict span.attributes)])

/-- The spans one after the other. -/
def serializeSpans : List Span → Except Raised (List Value)
  | [] => pure []
  | span :: spans => do
    let first ← serializeSpan iso span
    let later ← serializeSpans spans
    pure (first :: later)

/-- The settings are written beside the configuration they are of. -/
def configurationMembers (trace : Trace) : Members :=
  match trace.aiConfigurationVersionId with
  | some id => [(py "ai_configuration_version_id", .str id), (py "resolved_settings", .dict trace.resolvedSettings)]
  | none => []

/-- The guarded part of `serialize`. -/
def traceMembers (trace : Trace) : Except Raised Value := do
  let startTs ← toIsoUtc iso trace.startTs
  let spans ← serializeSpans iso trace.spans
  pure (.dict ([(py "trace_id", .str trace.traceId), (py "route", .str trace.route), (py "start_ts", .str startTs),
    (py "duration_ms", .int trace.durationMs), (py "root_status", .str trace.rootStatus.value), (py "spans", .list spans)] ++
      configurationMembers trace))

/-- `TraceSerializer.serialize`. -/
def serialize (trace : Trace) : Except Raised Value :=
  match traceMembers iso trace with
  | .ok stored => .ok stored
  | .error error => .error (.traceSerialization error.reason (some trace.traceId))

/-- A malformation of a trace. -/
def malformed {α : Type} (traceId : PyStr) (reason : PyStr) : Except Raised α :=
  .error (.traceDeserialization (some reason) (some traceId))

/-- `except (ValueError, TypeError)` around a timestamp. -/
def orUnparseable (traceId field : PyStr) : Except Raised Datetime → Except Raised Datetime
  | .error (.valueError text) => malformed traceId (py "unparseable " ++ field ++ py ": " ++ text)
  | .error (.typeError text) => malformed traceId (py "unparseable " ++ field ++ py ": " ++ text)
  | parsed => parsed

/-- A required field that is there. -/
def present (value : Option Value) (traceId field : PyStr) : Except Raised Value :=
  match value with
  | none => malformed traceId (py "missing required field: " ++ field)
  | some .none => malformed traceId (py "missing required field: " ++ field)
  | some value => .ok value

/-- `_require_timestamp`. -/
def requireTimestamp (value : Option Value) (traceId field : PyStr) : Except Raised Datetime := do
  let value ← present value traceId field
  orUnparseable traceId field (parseIsoUtc iso value)

/-- `_require_duration`. -/
def requireDuration (value : Option Value) (traceId field : PyStr) : Except Raised ℕ := do
  match ← present value traceId field with
  | .int duration =>
    if duration < 0 then malformed traceId (py "invalid " ++ field ++ py ": expected a non-negative integer")
    else pure duration.toNat
  | _ => malformed traceId (py "invalid " ++ field ++ py ": expected a non-negative integer")

/-- `_require_status`. -/
def requireStatus (value : Option Value) (traceId field : PyStr) : Except Raised SpanStatus := do
  match ← present value traceId field with
  | .str text =>
    if text = py "success" then pure .success
    else if text = py "error" then pure .error
    else malformed traceId (py "invalid " ++ field ++ py ": expected one of ('success', 'error')")
  | _ => malformed traceId (py "invalid " ++ field ++ py ": expected one of ('success', 'error')")

/-- A field that has to be a string. -/
def requireText (value : Option Value) (traceId field : PyStr) : Except Raised PyStr :=
  match value with
  | some (.str text) => .ok text
  | _ => malformed traceId (py "missing required field: " ++ field)

/-- A field of a span, as its errors name it. -/
def spanField (field : String) (spanId : PyStr) : PyStr := py field ++ py " (span " ++ spanId ++ py ")"

/-- The parent of a span: it has to be there, and can be `None`. -/
def readParent (raw : Members) (spanId traceId : PyStr) : Except Raised (Option PyStr) :=
  match get raw "parent_span_id" with
  | none => malformed traceId (py "missing required field: " ++ spanField "parent_span_id" spanId)
  | some .none => .ok none
  | some (.str parent) => .ok (some parent)
  | some _ => malformed traceId (py "invalid " ++ spanField "parent_span_id" spanId)

/-- The attributes of a span; there may be none. -/
def readAttributes (raw : Members) (spanId traceId : PyStr) : Except Raised Members :=
  match (get raw "attributes").getD (.dict []) with
  | .dict attributes => .ok attributes
  | _ => malformed traceId (py "invalid " ++ spanField "attributes" spanId)

/-- The name of a span, which has to have one. -/
def readSpanId (raw : Members) (traceId : PyStr) : Except Raised PyStr :=
  match get raw "span_id" with
  | some (.str spanId) => if spanId = [] then malformed traceId (py "missing required field: span_id") else .ok spanId
  | _ => malformed traceId (py "missing required field: span_id")

/-- `_deserialize_span`. -/
def deserializeSpan (traceId : PyStr) : Value → Except Raised Span
  | .dict raw => do
    let spanId ← readSpanId raw traceId
    let parentSpanId ← readParent raw spanId traceId
    let operation ← requireText (get raw "operation") traceId (spanField "operation" spanId)
    let startTs ← requireTimestamp iso (get raw "start_ts") traceId (spanField "start_ts" spanId)
    let durationMs ← requireDuration (get raw "duration_ms") traceId (spanField "duration_ms" spanId)
    let status ← requireStatus (get raw "status") traceId (spanField "status" spanId)
    let attributes ← readAttributes raw spanId traceId
    pure { spanId, parentSpanId, operation, startTs, durationMs, status, attributes }
  | _ => malformed traceId (py "span entry is not a mapping")

/-- The spans one after the other. -/
def deserializeSpans (traceId : PyStr) : List Value → Except Raised (List Span)
  | [] => pure []
  | raw :: raws => do
    let first ← deserializeSpan iso traceId raw
    let later ← deserializeSpans traceId raws
    pure (first :: later)

/-- The entries of `spans`. -/
def readSpans (stored : Members) (traceId : PyStr) : Except Raised (List Value) :=
  match get stored "spans" with
  | some (.list raws) => .ok raws
  | _ => malformed traceId (py "missing required field: spans")

/-- `ai_configuration_version_id`, if it is a string. -/
def readConfiguration (stored : Members) : Option PyStr :=
  match get stored "ai_configuration_version_id" with
  | some (.str id) => some id
  | _ => none

/-- `resolved_settings`, if it is a dict. -/
def readSettings (stored : Members) : Members :=
  match get stored "resolved_settings" with
  | some (.dict settings) => settings
  | _ => []

/-- The guarded part of `deserialize`, once the trace has its id. -/
def traceOf (traceId : PyStr) (stored : Members) : Except Raised Trace := do
  let route ← requireText (get stored "route") traceId (py "route")
  let startTs ← requireTimestamp iso (get stored "start_ts") traceId (py "start_ts")
  let durationMs ← requireDuration (get stored "duration_ms") traceId (py "duration_ms")
  let rootStatus ← requireStatus (get stored "root_status") traceId (py "root_status")
  let raws ← readSpans stored traceId
  let spans ← deserializeSpans iso traceId raws
  pure ⟨traceId, route, startTs, durationMs, rootStatus, spans, readConfiguration stored, readSettings stored⟩

/-- `except TraceDeserializationError: raise`, and any other exception as one. -/
def surfaced (traceId : PyStr) : Except Raised Trace → Except Raised Trace
  | .ok trace => .ok trace
  | .error (.traceDeserialization reason traceId) => .error (.traceDeserialization reason traceId)
  | .error error => malformed traceId error.reason

/-- `TraceSerializer.deserialize`. -/
def deserialize : Value → Except Raised Trace
  | .dict stored =>
    match get stored "trace_id" with
    | some (.str traceId) =>
      if traceId = [] then malformed [] (py "missing required field: trace_id") else surfaced traceId (traceOf iso traceId stored)
    | _ => .error (.traceDeserialization (some (py "missing required field: trace_id")) none)
  | _ => .error (.traceDeserialization (some (py "stored trace representation is not a mapping")) none)

/-! ## Log records -/

/-- `LogSerializer.serialize`. -/
def serializeLog (record : LogRecordModel) : Except Raised Value := do
  let timestamp ← toIsoUtc iso record.timestamp
  pure (.dict [(py "timestamp", .str timestamp), (py "level", .str record.level), (py "logger", .str record.logger),
    (py "message", .str record.message), (py "trace_id", ofText record.traceId), (py "exc_text", ofText record.excText),
    (py "extra", .dict record.extra), (py "insertion_seq", .int record.insertionSeq)])

/-- `_require_str`. -/
def requireStr (stored : Members) (field : String) (traceId : Option PyStr) : Except Raised PyStr :=
  match get stored field with
  | some (.str text) => .ok text
  | _ => .error (.logDeserialization (py "missing required field: " ++ py field) traceId)

/-- A string or `None`. -/
def readNullable (stored : Members) (field : String) (traceId : Option PyStr) : Except Raised (Option PyStr) :=
  match get stored field with
  | none => .ok none
  | some .none => .ok none
  | some (.str text) => .ok (some text)
  | some _ => .error (.logDeserialization (py "invalid " ++ py field ++ py ": expected a string or null") traceId)

/-- The timestamp of a record: it has to be there, and a value or type error is caught. -/
def readTimestamp (stored : Members) (traceId : Option PyStr) : Except Raised Datetime :=
  match get stored "timestamp" with
  | none => .error (.logDeserialization (py "missing required field: timestamp") traceId)
  | some value =>
    match parseIsoUtc iso value with
    | .error (.valueError text) => .error (.logDeserialization (py "unparseable timestamp: " ++ text) traceId)
    | .error (.typeError text) => .error (.logDeserialization (py "unparseable timestamp: " ++ text) traceId)
    | parsed => parsed

/-- `extra`, a dict or nothing. -/
def readExtra (stored : Members) (traceId : Option PyStr) : Except Raised Members :=
  match (get stored "extra").getD (.dict []) with
  | .dict extra => .ok extra
  | _ => .error (.logDeserialization (py "invalid extra: expected a mapping") traceId)

/-- `insertion_seq`, an integer or nothing. -/
def readInsertionSeq (stored : Members) (traceId : Option PyStr) : Except Raised ℤ :=
  match (get stored "insertion_seq").getD (.int 0) with
  | .int seq => .ok seq
  | _ => .error (.logDeserialization (py "invalid insertion_seq: expected an integer") traceId)

/-- `LogSerializer.deserialize`. -/
def deserializeLog : Value → Except Raised LogRecordModel
  | .dict stored => do
    let traceId ← readNullable stored "trace_id" none
    let level ← requireStr stored "level" traceId
    let logger ← requireStr stored "logger" traceId
    let message ← requireStr stored "message" traceId
    let excText ← readNullable stored "exc_text" traceId
    let timestamp ← readTimestamp iso stored traceId
    let extra ← readExtra stored traceId
    let insertionSeq ← readInsertionSeq stored traceId
    pure { timestamp, level, logger, message, traceId, excText, extra, insertionSeq }
  | _ => .error (.logDeserialization (py "stored log representation is not a mapping") none)

end RagSystem.StoredTelemetry
