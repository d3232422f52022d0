import Mathlib.Data.List.Forall2
import RagSystem.PieceReading
import RagSystem.PythonDumps

/-!
# The streamed answer, from the server's events to the client's handlers

The server writes each event of a streamed question as one frame: a line with
its type, a line with its JSON, an empty line. A frame with a surrogate in it has
no encoding, and breaks the response off. The client decodes the bytes as they
come, cuts the text at empty lines, and calls a handler for each frame it can
read. A frame whose JSON it cannot read is passed over in silence.
-/

namespace RagSystem.EventStream

set_option autoImplicit false

open PieceReading Doubles JsonText PythonNumbers
open ModelReplies (PyStr Value py ofCodes ofCodes_py)
open PythonDumps (charsOf charsOfMembers encodeUtf8 Writes writes_dumps writes_codes ofCodes_codes)

/-! ## The server -/

/-- The `kind` of a terminal event. -/
inductive TerminalKind where
  /-- The answer. -/
  | answer
  /-- A question back. -/
  | clarification
  /-- No answer. -/
  | abstention
  deriving DecidableEq

/-- The name of a kind. -/
def TerminalKind.name : TerminalKind → String
  | .answer => "answer"
  | .clarification => "clarification"
  | .abstention => "abstention"

/-- An event of the stream. -/
inductive StreamEvent where
  /-- A stage has begun. -/
  | status (stage : PyStr)
  /-- The outcome, as the JSON-mode dump of its model. -/
  | terminal (kind : TerminalKind) (payload : List (PyStr × Value)) (traceId : PyStr) (conversationId : Option PyStr)
  /-- The question failed. -/
  | error (detail : PyStr)

/-- `event["type"]`. -/
def StreamEvent.type : StreamEvent → String
  | .status _ => "status"
  | .terminal _ _ _ _ => "terminal"
  | .error _ => "error"

/-- The event's dict. -/
def StreamEvent.dict : StreamEvent → List (PyStr × Value)
  | .status stage => [(py "type", .str (py "status")), (py "stage", .str stage)]
  | .terminal kind payload traceId conversationId =>
    [(py "type", .str (py "terminal")), (py "kind", .str (py kind.name)), (py "payload", .dict payload),
      (py "trace_id", .str traceId), (py "conversation_id", (conversationId.map Value.str).getD .none)]
  | .error detail => [(py "type", .str (py "error")), (py "detail", .str detail)]

/-- `_format_sse`. -/
def formatSse (event : StreamEvent) : PyStr :=
  py "event: " ++ (py event.type ++ (py "\ndata: " ++ (PythonDumps.dumps (.dict event.dict) ++ py "\n\n")))

/-- What the server sends. -/
structure Response where
  /-- The bytes of its body. -/
  bytes : List UInt8
  /-- Whether the body ends; else it is broken off. -/
  complete : Bool

/-- The response to the events in the order of the queue: each frame is encoded as it is sent. -/
def respond : List StreamEvent → Response
  | [] => ⟨[], true⟩
  | event :: events =>
    match encodeUtf8 (formatSse event) with
    | some bytes => ⟨bytes ++ (respond events).bytes, (respond events).complete⟩
    | none => ⟨[], false⟩

/-! ## Events in characters -/

/-- An event whose texts are characters. -/
inductive TextEvent where
  /-- A stage. -/
  | status (stage : String)
  /-- An outcome. -/
  | terminal (kind : TerminalKind) (payload : List (String × Json PyNumber)) (traceId : String)
    (conversationId : Option String)
  /-- A failure. -/
  | error (detail : String)

/-- Its type. -/
def TextEvent.type : TextEvent → String
  | .status _ => "status"
  | .terminal _ _ _ _ => "terminal"
  | .error _ => "error"

/-- Its dict. -/
def TextEvent.dict : TextEvent → List (String × Json PyNumber)
  | .status stage => [("type", .str "status"), ("stage", .str stage)]
  | .terminal kind payload traceId conversationId =>
    [("type", .str "terminal"), ("kind", .str kind.name), ("payload", .obj payload), ("trace_id", .str traceId),
      ("conversation_id", (conversationId.map Json.str).getD .null)]
  | .error detail => [("type", .str "error"), ("detail", .str detail)]

/-- The line with an event's type. -/
def typeLine (type : String) : List Char := "event: ".toList ++ type.toList

/-- The line with an event's JSON. -/
def dataLine (json : List Char) : List Char := "data: ".toList ++ json

/-- Its JSON. -/
def TextEvent.json (event : TextEvent) : List Char := JsonText.dumps numbers.write (.obj event.dict)

/-- Its frame, without the empty line. -/
def frameText (event : TextEvent) : List Char := typeLine event.type ++ '\n' :: dataLine event.json

/-- Its frame. -/
def TextEvent.frame (event : TextEvent) : List Char := frameText event ++ ['\n', '\n']

/-- The frames in bytes. -/
def streamBytes (events : List TextEvent) : List UInt8 :=
  (events.flatMap TextEvent.frame).flatMap String.utf8EncodeChar

/-- An optional text in characters. -/
def optionalChars : Option PyStr → Option (Option String)
  | none => some none
  | some text => (ofCodes text).map some

/-- An event in characters; none where a text of it has a surrogate. -/
def StreamEvent.chars : StreamEvent → Option TextEvent
  | .status stage => (ofCodes stage).map .status
  | .terminal kind payload traceId conversationId =>
    match charsOfMembers payload, ofCodes traceId, optionalChars conversationId with
    | some payload, some traceId, some conversationId => some (.terminal kind payload traceId conversationId)
    | _, _, _ => none
  | .error detail => (ofCodes detail).map .error

/-- An event in characters has the event's type. -/
theorem type_of_chars {event : StreamEvent} {text : TextEvent} (h : event.chars = some text) : text.type = event.type := by
  cases event with
  | status stage =>
    obtain ⟨_, _, rfl⟩ := Option.map_eq_some_iff.mp h
    rfl
  | error detail =>
    obtain ⟨_, _, rfl⟩ := Option.map_eq_some_iff.mp h
    rfl
  | terminal kind payload traceId conversationId =>
    rw [StreamEvent.chars] at h
    split at h
    · cases h
      rfl
    · cases h

/-- And its dict. -/
theorem charsOf_dict (event : StreamEvent) :
    charsOf (.dict event.dict) = event.chars.map fun text => .obj text.dict := by
  cases event with
  | status stage =>
    simp only [StreamEvent.dict, StreamEvent.chars, charsOf, charsOfMembers, ofCodes_py]
    cases ofCodes stage <;> rfl
  | error detail =>
    simp only [StreamEvent.dict, StreamEvent.chars, charsOf, charsOfMembers, ofCodes_py]
    cases ofCodes detail <;> rfl
  | terminal kind payload traceId conversationId =>
    have hconversation : charsOf ((conversationId.map Value.str).getD .none) =
        (optionalChars conversationId).map fun text => (text.map Json.str).getD .null := by
      cases conversationId with
      | none => rfl
      | some text =>
        simp only [Option.map_some, Option.getD_some, charsOf, optionalChars]
        cases ofCodes text <;> rfl
    simp only [StreamEvent.dict, StreamEvent.chars, charsOf, charsOfMembers, ofCodes_py, hconversation]
    cases charsOfMembers payload <;> cases ofCodes traceId <;> cases optionalChars conversationId <;> rfl

/-- A frame is its parts, one after the other. -/
theorem frame_parts (event : TextEvent) : event.frame =
    "event: ".toList ++ (event.type.toList ++ (('\n' :: "data: ".toList) ++ (event.json ++ ['\n', '\n']))) := by
  have hparts : ∀ a b c d e : List Char, (a ++ b ++ '\n' :: (c ++ d)) ++ e = a ++ (b ++ (('\n' :: c) ++ (d ++ e))) := by
    intro a b c d e
    simp only [List.append_assoc, List.cons_append]
  exact hparts _ _ _ _ _

/-- A frame is written as that of the event in characters. -/
theorem writes_formatSse (event : StreamEvent) : Writes (formatSse event) (event.chars.map TextEvent.frame) := by
  have hdumps := writes_dumps (.dict event.dict)
  rw [charsOf_dict] at hdumps
  have hframe := (writes_codes "event: ".toList).append ((writes_codes event.type.toList).append
    ((writes_codes ('\n' :: "data: ".toList)).append (hdumps.append (writes_codes ['\n', '\n']))))
  cases hchars : event.chars with
  | none =>
    rw [hchars] at hframe
    exact hframe
  | some text =>
    rw [hchars] at hframe
    rw [Option.map_some, frame_parts, type_of_chars hchars]
    exact hframe

/-- A frame's encoding. -/
theorem encodeUtf8_formatSse (event : StreamEvent) :
    encodeUtf8 (formatSse event) = event.chars.map fun text => text.frame.flatMap String.utf8EncodeChar := by
  have hwrites := writes_formatSse event
  cases hchars : event.chars with
  | none =>
    rw [hchars] at hwrites
    have hnone : ofCodes (formatSse event) = none := hwrites
    rw [encodeUtf8, hnone]
    rfl
  | some text =>
    rw [hchars] at hwrites
    have hsame : formatSse event = PythonDumps.codes text.frame := hwrites
    rw [encodeUtf8, hsame, ofCodes_codes, Option.map_some, String.toList_ofList]
    rfl

/-- Events in characters are sent whole. -/
theorem respond_of_chars {events : List StreamEvent} {texts : List TextEvent}
    (h : events.map StreamEvent.chars = texts.map some) : respond events = ⟨streamBytes texts, true⟩ := by
  induction events generalizing texts with
  | nil =>
    cases texts with
    | nil => rfl
    | cons text texts => cases h
  | cons event events ih =>
    cases texts with
    | nil => cases h
    | cons text texts =>
      obtain ⟨hfirst, hrest⟩ := List.cons.inj h
      have hbytes := encodeUtf8_formatSse event
      rw [hfirst, Option.map_some] at hbytes
      rw [respond, hbytes]
      simp only [ih hrest, streamBytes, List.flatMap_cons, List.flatMap_append]

/-- An event with a surrogate breaks the response off. -/
theorem respond_incomplete {events : List StreamEvent} {event : StreamEvent} (hin : event ∈ events)
    (h : event.chars = none) : (respond events).complete = false := by
  induction events with
  | nil => cases hin
  | cons first events ih =>
    rw [respond]
    split
    · next bytes hbytes =>
      refine ih ((List.mem_cons.mp hin).resolve_left fun hsame => ?_)
      rw [← hsame, encodeUtf8_formatSse, h] at hbytes
      cases hbytes
    · rfl

/-! ## The client -/

/-- `buffer.indexOf("\n\n")`: the text before the first empty line, and the text after it. -/
def nextFrame : List Char → Option (List Char × List Char)
  | [] => none
  | c :: text =>
    if c = '\n' ∧ text.head? = some '\n' then some ([], text.drop 1)
    else (nextFrame text).map fun found => (c :: found.1, found.2)

/-- The white space that `trim` removes. -/
def isTrimmed (c : Char) : Bool :=
  c.toNat ∈ [9, 10, 11, 12, 13, 32, 0xA0, 0x1680, 0x2028, 0x2029, 0x202F, 0x205F, 0x3000, 0xFEFF] ||
    (0x2000 ≤ c.toNat && c.toNat ≤ 0x200A)

/-- `text.trim()`. -/
def trim (text : List Char) : List Char := ((text.dropWhile isTrimmed).reverse.dropWhile isTrimmed).reverse

/-- A frame's type and its data lines, so far. -/
structure FrameFields where
  /-- `eventType`. -/
  eventType : List Char
  /-- `dataLines`. -/
  dataLines : List (List Char)
  deriving DecidableEq

/-- One line of a frame. -/
def readLine (fields : FrameFields) (line : List Char) : FrameFields :=
  if "event:".toList.isPrefixOf line then { fields with eventType := trim (line.drop 6) }
  else if "data:".toList.isPrefixOf line then { fields with dataLines := fields.dataLines ++ [trim (line.drop 5)] }
  else fields

/-- The lines of a frame, one after the other. -/
def readFields (frame : List Char) : FrameFields := (frame.splitOn '\n').foldl readLine ⟨"message".toList, []⟩

/-- A call of one of the caller's handlers. -/
inductive HandlerCall where
  /-- `onMeta`. -/
  | onMeta (data : Json Double)
  /-- `onStatus`. -/
  | onStatus (stage : String)
  /-- `onDelta`. -/
  | onDelta (text : String)
  /-- `onFinal`. -/
  | onFinal (response : Json Double)
  /-- `onClarification`. -/
  | onClarification (prompt : Json Double)
  /-- `onAbstention`. -/
  | onAbstention (response : Json Double)
  /-- `onStreamError`. -/
  | onStreamError (detail : String)

/-- What a frame leads to. -/
inductive Dispatch where
  /-- Nothing: no data, data that is not JSON, or a type without a handler. -/
  | ignored
  /-- A handler's call. -/
  | called (call : HandlerCall)
  /-- A `TypeError`: a property of `null` is read. -/
  | threw

/-- `data[name]`, `none` for `undefined`. Of two members with one name the later counts. -/
def property (data : Json Double) (name : String) : Option (Json Double) :=
  match data with
  | .obj members => members.reverse.lookup name
  | _ => none

section
-- how `String(value)` shows what is no string
variable (display : Json Double → String)

/-- `String(value ?? otherwise)`. -/
def shown (value : Option (Json Double)) (otherwise : String) : String :=
  match value with
  | none => otherwise
  | some .null => otherwise
  | some (.str text) => text
  | some value => display value

/-- `data.payload ?? {}`. -/
def payloadOf (data : Json Double) : Json Double :=
  match property data "payload" with
  | none => .obj []
  | some .null => .obj []
  | some payload => payload

/-- The handler of a terminal event. -/
def terminalCall (kind : String) (payload : Json Double) : HandlerCall :=
  if kind = "clarification" then .onClarification payload
  else if kind = "abstention" then .onAbstention payload
  else .onFinal payload

/-- The `switch` of `dispatchSseFrame`, on data that is not `null`. -/
def handlerCall (eventType : String) (data : Json Double) : Dispatch :=
  if eventType = "meta" then .called (.onMeta data)
  else if eventType = "status" then .called (.onStatus (shown display (property data "stage") ""))
  else if eventType = "delta" then .called (.onDelta (shown display (property data "text") ""))
  else if eventType = "final" then .called (.onFinal data)
  else if eventType = "terminal" then
    .called (terminalCall (shown display (property data "kind") "") (payloadOf data))
  else if eventType = "error" then
    .called (.onStreamError (shown display (property data "detail") "Streaming failed."))
  else .ignored

/-- The `switch` of `dispatchSseFrame`. -/
def switchType (eventType : String) (data : Json Double) : Dispatch :=
  match data with
  | .null =>
    if eventType = "meta" then .called (.onMeta .null)
    else if eventType = "final" then .called (.onFinal .null)
    else if eventType ∈ ["status", "delta", "terminal", "error"] then .threw
    else .ignored
  | data => handlerCall display eventType data

/-- `dispatchSseFrame`. -/
def dispatchSseFrame (frame : List Char) : Dispatch :=
  let fields := readFields frame
  if fields.dataLines = [] then .ignored
  else
    match parse numbers.scan (['\n'].intercalate fields.dataLines) with
    | none => .ignored
    | some data => switchType display (String.ofList fields.eventType) data

/-- How `askStream` ends, once the response is open. -/
structure AskOutcome where
  /-- The handlers' calls in order. -/
  calls : List HandlerCall
  /-- Whether the promise resolved; else a frame's dispatch threw, or the response broke off. -/
  resolved : Bool

/-- Dispatch frames in order, until one throws. -/
def dispatchAll : List (List Char) → AskOutcome
  | [] => ⟨[], true⟩
  | frame :: frames =>
    match dispatchSseFrame display frame with
    | .ignored => dispatchAll frames
    | .called call => ⟨call :: (dispatchAll frames).calls, (dispatchAll frames).resolved⟩
    | .threw => ⟨[], false⟩

end

/-! ## Frames are cut where they were joined -/

/-- A found frame is shorter, and what arrives later stays behind it. -/
theorem nextFrame_spec {buffer frame rest : List Char} (hn : nextFrame buffer = some (frame, rest)) :
    rest.length < buffer.length ∧ ∀ more, nextFrame (buffer ++ more) = some (frame, rest ++ more) := by
  induction buffer generalizing frame with
  | nil => simp [nextFrame] at hn
  | cons c text ih =>
    unfold nextFrame at hn
    split at hn
    · rename_i hblank
      have hpair := Prod.mk.inj (Option.some.inj hn)
      cases text with
      | nil => simp at hblank
      | cons d text =>
        simp only [List.head?_cons, Option.some.injEq] at hblank
        simp only [List.drop_one, List.tail_cons] at hpair
        rw [← hpair.1, ← hpair.2]
        refine ⟨by simp only [List.length_cons]; omega, fun more => ?_⟩
        simp [nextFrame, hblank]
    · rename_i hblank
      obtain ⟨⟨first, later⟩, hf, he⟩ := Option.map_eq_some_iff.mp hn
      have hpair := Prod.mk.inj he
      have hlater : later = rest := hpair.2
      rw [hlater] at hf
      have hi := ih hf
      rw [← hpair.1]
      refine ⟨by simp only [List.length_cons]; omega, fun more => ?_⟩
      have hhead : ¬(c = '\n' ∧ (text ++ more).head? = some '\n') := by
        cases text with
        | nil => simp [nextFrame] at hf
        | cons d text => simpa using hblank
      rw [List.cons_append, nextFrame, if_neg hhead, hi.2 more]
      rfl

/-- The client's buffer, read frame by frame. -/
def frameReader : ItemReader Char (List Char) where
  next := nextFrame
  shrinks := fun _ _ _ hn => (nextFrame_spec hn).1
  stable := fun _ _ _ more hn => (nextFrame_spec hn).2 more

section
variable (display : Json Double → String)

/-- `askStream`, from the chunks the reader gives. Of a body that is broken off the
reader's last `read` rejects, and the rest of the buffer is not looked at. -/
def askStream (chunks : List (List UInt8)) (complete : Bool) : AskOutcome :=
  let decoded := charReader.readPieces [] chunks
  let framed := frameReader.readPieces [] decoded.1
  if complete then dispatchAll display (framed.1.flatten ++ if trim framed.2 = [] then [] else [framed.2])
  else ⟨(dispatchAll display framed.1.flatten).calls, false⟩

end

/-- A line is passed over on the way to the empty line. -/
theorem nextFrame_line {line tail : List Char} (hl : '\n' ∉ line) :
    nextFrame (line ++ tail) = (nextFrame tail).map fun found => (line ++ found.1, found.2) := by
  induction line with
  | nil => simp
  | cons c line ih =>
    have hc : c ≠ '\n' := fun h => hl (by simp [h])
    have hi := ih fun h => hl (List.mem_cons_of_mem _ h)
    rw [List.cons_append, nextFrame, if_neg fun h => hc h.1, hi, Option.map_map]
    rfl

/-- The types that events have. -/
def eventTypes : List String := ["status", "terminal", "error"]

theorem type_mem (event : TextEvent) : event.type ∈ eventTypes := by
  cases event <;> simp [TextEvent.type, eventTypes]

/-- A type's line is one line, and the client reads the type from it. -/
theorem typeLine_spec : ∀ type ∈ eventTypes,
    '\n' ∉ typeLine type ∧ readLine ⟨"message".toList, []⟩ (typeLine type) = ⟨type.toList, []⟩ := by
  decide

/-- JSON text has no line ends. -/
theorem not_mem_json (event : TextEvent) : '\n' ∉ event.json := by
  intro hm
  have hp := plain_dumps numbers (.obj event.dict) '\n' hm
  exact absurd hp (by decide)

theorem not_mem_dataLine {json : List Char} (hj : '\n' ∉ json) : '\n' ∉ dataLine json := by
  intro hm
  cases List.mem_append.mp hm with
  | inl hm => exact absurd hm (by decide)
  | inr hm => exact hj hm

/-- Two lines and an empty one are cut at the empty one. -/
theorem nextFrame_lines {first second : List Char} (rest : List Char) (hf : '\n' ∉ first) (hs : '\n' ∉ second)
    (hne : second ≠ []) :
    nextFrame (first ++ '\n' :: (second ++ '\n' :: '\n' :: rest)) = some (first ++ '\n' :: second, rest) := by
  have hblank : nextFrame ('\n' :: '\n' :: rest) = some ([], rest) := by simp [nextFrame]
  have hsecond : nextFrame (second ++ '\n' :: '\n' :: rest) = some (second, rest) := by
    rw [nextFrame_line hs, hblank]
    simp
  have hbetween : ¬('\n' = '\n' ∧ (second ++ '\n' :: '\n' :: rest).head? = some '\n') := by
    cases second with
    | nil => exact absurd rfl hne
    | cons c second =>
      intro h
      exact hs (by simp [Option.some.inj h.2])
  rw [nextFrame_line hf, nextFrame, if_neg hbetween, hsecond]
  rfl

/-- A frame is cut off where its empty line is. -/
theorem nextFrame_frame (event : TextEvent) (rest : List Char) :
    frameReader.next (event.frame ++ rest) = some (frameText event, rest) := by
  have hcut := nextFrame_lines rest (typeLine_spec event.type (type_mem event)).1
    (not_mem_dataLine (not_mem_json event)) (List.cons_ne_nil _ _)
  have hjoin : event.frame ++ rest =
      typeLine event.type ++ '\n' :: (dataLine event.json ++ '\n' :: '\n' :: rest) := by
    simp only [TextEvent.frame, frameText, List.append_assoc, List.cons_append, List.nil_append]
  rw [hjoin]
  exact hcut

/-- However the response was cut, the client dispatches the server's frames. -/
theorem askStream_frames (display : Json Double → String) {events : List TextEvent} {chunks : List (List UInt8)}
    (hc : chunks.flatten = streamBytes events) :
    askStream display chunks true = dispatchAll display (events.map frameText) := by
  have hdecoded := charReader.readPieces_written nextChar_encoded hc
  have hframes : frameReader.drain (charReader.readPieces [] chunks).1.flatten = (events.map frameText, []) := by
    rw [hdecoded.1]
    clear hdecoded hc
    induction events with
    | nil => exact frameReader.drain_none frameReader.next_nil
    | cons event events ih =>
      rw [List.flatMap_cons, frameReader.drain_some (nextFrame_frame event _), ih, List.map_cons]
  have hpieces := frameReader.readPieces_flatten frameReader.next_nil (charReader.readPieces [] chunks).1
  rw [List.nil_append, hframes] at hpieces
  have hpair := Prod.mk.inj hpieces
  have hempty : trim [] = [] := rfl
  simp only [askStream, hpair.1, hpair.2, hempty, if_true, List.append_nil]

/-! ## What a frame is dispatched as -/

/-- What is left of a text in braces when its ends are trimmed. -/
theorem trim_braces (text : List Char) :
    trim (' ' :: '\x7b' :: (text ++ ['\x7d'])) = '\x7b' :: (text ++ ['\x7d']) := by
  have hspace : isTrimmed ' ' = true := by decide
  have hopen : isTrimmed '\x7b' = false := by decide
  have hclose : isTrimmed '\x7d' = false := by decide
  simp [trim, hspace, hopen, hclose]

/-- The data line gives the JSON, trimmed. -/
theorem readLine_dataLine (eventType json : List Char) :
    readLine ⟨eventType, []⟩ (dataLine json) = ⟨eventType, [trim (' ' :: json)]⟩ := rfl

/-- The fields of a frame: its type, and its JSON as the one data line. -/
theorem readFields_frameText (event : TextEvent) :
    readFields (frameText event) = ⟨event.type.toList, [event.json]⟩ := by
  have htype := typeLine_spec event.type (type_mem event)
  have hfirst : ∀ c ∈ typeLine event.type, (c == '\n') = false := by
    intro c hc
    exact beq_eq_false_iff_ne.mpr fun h => htype.1 (h ▸ hc)
  have hsecond : ∀ c ∈ dataLine event.json, (c == '\n') = false := by
    intro c hc
    exact beq_eq_false_iff_ne.mpr fun h => not_mem_dataLine (not_mem_json event) (h ▸ hc)
  have hlines : (frameText event).splitOn '\n' = [typeLine event.type, dataLine event.json] := by
    rw [frameText, List.splitOn_eq_splitOnP, List.splitOnP_append_cons_of_forall_mem hfirst '\n' rfl,
      List.splitOnP_eq_singleton hsecond]
  obtain ⟨text, ht⟩ := dumps_obj numbers.write event.dict
  have htrim : trim (' ' :: event.json) = event.json := by rw [TextEvent.json, ht, trim_braces]
  rw [readFields, hlines, List.foldl_cons, htype.2, List.foldl_cons, readLine_dataLine, htrim, List.foldl_nil]

/-- The call that a terminal event of this kind leads to. -/
def TerminalKind.call (kind : TerminalKind) (payload : Json Double) : HandlerCall :=
  match kind with
  | .answer => .onFinal payload
  | .clarification => .onClarification payload
  | .abstention => .onAbstention payload

/-- A terminal event's dict is dispatched to the handler of its kind. -/
theorem switchType_terminal (display : Json Double → String) (kind : TerminalKind) (members : List (String × Json Double))
    (traceId : String) (conversation : Json Double) :
    switchType display "terminal" (.obj [("type", .str "terminal"), ("kind", .str kind.name), ("payload", .obj members),
      ("trace_id", .str traceId), ("conversation_id", conversation)]) = .called (kind.call (.obj members)) := by
  have hkind : terminalCall kind.name (.obj members) = kind.call (.obj members) := by cases kind <;> rfl
  simp [switchType, handlerCall, property, payloadOf, shown, List.lookup_cons, hkind]

/-- The call an event leads to, with its numbers as they are received. -/
def TextEvent.receivedCall : TextEvent → Option HandlerCall
  | .status stage => some (.onStatus stage)
  | .terminal kind payload _ _ => (receive PyNumber.received (.obj payload)).map kind.call
  | .error detail => some (.onStreamError detail)

/-- A frame's dispatch is that of its JSON, when it can be read. -/
theorem dispatchSseFrame_json (display : Json Double → String) (event : TextEvent) :
    dispatchSseFrame display (frameText event) =
      ((receive PyNumber.received (.obj event.dict)).map (switchType display event.type)).getD .ignored := by
  have hparse : parse numbers.scan event.json = receive PyNumber.received (.obj event.dict) :=
    parse_dumps numbers (.obj event.dict)
  have hjoin : ['\n'].intercalate [event.json] = event.json := List.append_nil event.json
  simp only [dispatchSseFrame, readFields_frameText, List.cons_ne_nil, if_false, hjoin, hparse, String.ofList_toList]
  cases receive PyNumber.received (.obj event.dict) <;> rfl

/-- A frame leads to the event's call, or to nothing when a number of it cannot be read. -/
theorem dispatchSseFrame_frameText (display : Json Double → String) (event : TextEvent) :
    dispatchSseFrame display (frameText event) = (event.receivedCall.map Dispatch.called).getD .ignored := by
  rw [dispatchSseFrame_json]
  cases event with
  | status stage => rfl
  | error detail => rfl
  | terminal kind payload traceId conversationId =>
    have hconversation : receive PyNumber.received ((conversationId.map Json.str).getD .null) =
        some ((conversationId.map Json.str).getD .null) := by cases conversationId <;> rfl
    simp only [TextEvent.dict, TextEvent.type, TextEvent.receivedCall, receive, receiveMembers, hconversation]
    cases receiveMembers PyNumber.received payload with
    | none => rfl
    | some members => exact switchType_terminal display kind members traceId _

/-- A call is the event's own, with a payload equal to the one emitted. -/
def TextEvent.DispatchedAs (event : TextEvent) (call : HandlerCall) : Prop :=
  match event with
  | .status stage => call = .onStatus stage
  | .terminal kind payload _ _ =>
    ∃ received, receive PyNumber.exactly (.obj payload) = some received ∧ call = kind.call received
  | .error detail => call = .onStreamError detail

/-- A call is the event's own, with the event's texts. -/
def DispatchedAs (event : StreamEvent) (call : HandlerCall) : Prop :=
  ∃ text, event.chars = some text ∧ text.DispatchedAs call

/-- Exactly these events are dispatched, in order, each once. -/
def Delivered (events : List StreamEvent) (outcome : AskOutcome) : Prop :=
  outcome.resolved = true ∧ List.Forall₂ DispatchedAs events outcome.calls

/-- The numbers of an event's payload. -/
def TextEvent.numbers : TextEvent → List PyNumber
  | .terminal _ payload _ _ => (Json.obj payload).numbers
  | _ => []

/-- The client's calls are those of the events whose numbers can all be read. -/
theorem dispatchAll_frames (display : Json Double → String) (events : List TextEvent) :
    dispatchAll display (events.map frameText) = ⟨events.filterMap TextEvent.receivedCall, true⟩ := by
  induction events with
  | nil => rfl
  | cons event events ih =>
    have hd := dispatchSseFrame_frameText display event
    rw [List.map_cons, dispatchAll, hd]
    cases hr : event.receivedCall with
    | none =>
      rw [List.filterMap_cons_none hr]
      exact ih
    | some call =>
      rw [List.filterMap_cons_some hr]
      simp only [Option.map_some, Option.getD_some, ih]

/-- An event that leads to a call of its own has numbers that are all carried. -/
theorem dispatchedAs_receivedCall (event : TextEvent) :
    (∃ call, event.receivedCall = some call ∧ event.DispatchedAs call) ↔ ∀ n ∈ event.numbers, n.Carried := by
  cases event with
  | status stage => simp [TextEvent.receivedCall, TextEvent.DispatchedAs, TextEvent.numbers]
  | error detail => simp [TextEvent.receivedCall, TextEvent.DispatchedAs, TextEvent.numbers]
  | terminal kind payload traceId conversationId =>
    have hagree := receive_agree PyNumber.received PyNumber.exactly (.obj payload)
    simp only [agree_iff_carried] at hagree
    rw [TextEvent.numbers, ← hagree]
    have hinjective : Function.Injective kind.call := by
      intro first second hc
      cases kind <;> simpa [TerminalKind.call] using hc
    constructor
    · rintro ⟨call, hr, received, he, hc⟩
      obtain ⟨value, hv, hcall⟩ := Option.map_eq_some_iff.mp hr
      have hsame : value = received := hinjective (hcall.trans hc)
      exact ⟨received, hsame ▸ hv, he⟩
    · rintro ⟨received, hr, he⟩
      exact ⟨kind.call received, by rw [TextEvent.receivedCall, hr]; rfl, received, he, rfl⟩

/-- Each item leads to one call at most, so nothing can stand in for a call that is missing. -/
theorem forall₂_filterMap {α β : Type} {f : α → Option β} {R : α → β → Prop} (items : List α) :
    List.Forall₂ R items (items.filterMap f) ↔ ∀ item ∈ items, ∃ call, f item = some call ∧ R item call := by
  induction items with
  | nil => simp
  | cons item items ih =>
    rw [List.forall_mem_cons, ← ih]
    cases hf : f item with
    | none =>
      have hshort := List.length_filterMap_le f items
      rw [List.filterMap_cons_none hf]
      constructor
      · intro h
        have hl := h.length_eq
        rw [List.length_cons] at hl
        omega
      · rintro ⟨⟨call, hcall, -⟩, -⟩
        simp at hcall
    | some call =>
      rw [List.filterMap_cons_some hf, List.forall₂_cons]
      simp

/-- What the client makes of the whole response, however it is cut. -/
theorem askStream_calls (display : Json Double → String) {events : List TextEvent} {chunks : List (List UInt8)}
    (hc : chunks.flatten = streamBytes events) :
    askStream display chunks true = ⟨events.filterMap TextEvent.receivedCall, true⟩ := by
  rw [askStream_frames display hc, dispatchAll_frames]

/-- Each event is dispatched as its own exactly if it is as the event in characters. -/
theorem forall₂_chars {events : List StreamEvent} {texts : List TextEvent} {calls : List HandlerCall}
    (h : events.map StreamEvent.chars = texts.map some) :
    List.Forall₂ DispatchedAs events calls ↔ List.Forall₂ TextEvent.DispatchedAs texts calls := by
  induction events generalizing texts calls with
  | nil =>
    cases texts with
    | nil => cases calls <;> simp
    | cons text texts => cases h
  | cons event events ih =>
    cases texts with
    | nil => cases h
    | cons text texts =>
      obtain ⟨hfirst, hrest⟩ := List.cons.inj h
      cases calls with
      | nil => simp
      | cons call calls =>
        rw [List.forall₂_cons, List.forall₂_cons, ih hrest, DispatchedAs, hfirst]
        simp

/-- What holds of each event in characters holds of all of them. -/
theorem forall_chars_iff {events : List StreamEvent} {texts : List TextEvent} {P : TextEvent → Prop}
    (h : events.map StreamEvent.chars = texts.map some) :
    (∀ event ∈ events, ∃ text, event.chars = some text ∧ P text) ↔ ∀ text ∈ texts, P text := by
  constructor
  · intro hall text htext
    have hmem : some text ∈ events.map StreamEvent.chars := h ▸ List.mem_map_of_mem htext
    obtain ⟨event, hin, hsame⟩ := List.mem_map.mp hmem
    obtain ⟨other, hother, hp⟩ := hall event hin
    rw [hsame] at hother
    cases hother
    exact hp
  · intro hall event hin
    have hmem : event.chars ∈ texts.map some := h ▸ List.mem_map_of_mem hin
    obtain ⟨text, htext, hsame⟩ := List.mem_map.mp hmem
    exact ⟨text, hsame.symm, hall text htext⟩

/-- The body arrives in these chunks. -/
structure Arrives (response : Response) (chunks : List (List UInt8)) : Prop where
  /-- They are of its bytes, from the first; of a body that is broken off the last may be lost. -/
  fromFirst : chunks.flatten <+: response.bytes
  /-- A body that ends arrives whole. -/
  whole : response.complete = true → chunks.flatten = response.bytes

/-- In one cut or another it arrives whole. -/
theorem arrives_whole {response : Response} {chunks : List (List UInt8)} (h : chunks.flatten = response.bytes) :
    Arrives response chunks := ⟨h ▸ List.prefix_rfl, fun _ => h⟩

/-- However the response is cut into chunks, the client dispatches exactly the
events sent, in order, each once, with payloads equal to those sent, if and only
if no text of an event has a surrogate, every float in a payload is finite and
every whole number in it is a double. -/
theorem stream_delivers_iff (display : Json Double → String) (events : List StreamEvent) (chunks : List (List UInt8))
    (hc : Arrives (respond events) chunks) :
    Delivered events (askStream display chunks (respond events).complete) ↔
      ∀ event ∈ events, ∃ text, event.chars = some text ∧ ∀ n ∈ text.numbers, n.Carried := by
  by_cases hall : ∀ event ∈ events, ∃ text, event.chars = some text
  · obtain ⟨texts, htexts⟩ : ∃ texts : List TextEvent, events.map StreamEvent.chars = texts.map some := by
      refine ⟨events.filterMap StreamEvent.chars, ?_⟩
      rw [List.map_filterMap]
      refine (List.filterMap_eq_map_iff_forall_eq_some.mpr fun event hin => ?_).symm
      obtain ⟨text, htext⟩ := hall event hin
      rw [htext]
      rfl
    have hsent := respond_of_chars htexts
    rw [hsent] at hc
    have hcalls := askStream_calls display (hc.whole rfl)
    have hforall := forall₂_filterMap (f := TextEvent.receivedCall) (R := TextEvent.DispatchedAs) texts
    simp only [dispatchedAs_receivedCall] at hforall
    rw [Delivered, hsent, hcalls, forall₂_chars htexts, forall_chars_iff htexts]
    simp only [true_and]
    exact hforall
  · simp only [not_forall, not_exists] at hall
    obtain ⟨event, hin, hnone⟩ := hall
    have hchars : event.chars = none := Option.eq_none_iff_forall_ne_some.mpr hnone
    have hbroken := respond_incomplete hin hchars
    refine iff_of_false ?_ fun h => ?_
    · rintro ⟨hresolved, -⟩
      rw [hbroken] at hresolved
      exact Bool.noConfusion hresolved
    · obtain ⟨text, htext, -⟩ := h event hin
      exact hnone text htext

/-- A stage, and an answer with a row. -/
def accentedEvents : List StreamEvent :=
  [.status (py "generate"),
    .terminal .answer [(py "answer", .str (py "é")), (py "rows", .list [.dict [(py "n", .int 0)]])] (py "t") none]

/-- Sent byte by byte they are delivered, though the answer's accent is cut between its bytes. -/
theorem stream_delivers_iff_sample :
    ∃ chunks, Arrives (respond accentedEvents) chunks ∧ (∀ chunk ∈ chunks, chunk.length = 1) ∧
      Delivered accentedEvents (askStream (fun _ => "") chunks (respond accentedEvents).complete) := by
  have htexts : accentedEvents.map StreamEvent.chars = [TextEvent.status "generate",
      .terminal .answer [("answer", .str "é"), ("rows", .arr [.obj [("n", .num (.int 0))]])] "t" none].map some := by
    simp [accentedEvents, StreamEvent.chars, charsOfMembers, charsOf, PythonDumps.charsOfItems, optionalChars]
  have hc : Arrives (respond accentedEvents) ((respond accentedEvents).bytes.map fun byte => [byte]) := by
    refine arrives_whole ?_
    rw [← List.flatMap_def]
    exact List.flatMap_singleton' _
  have hcarried : ∀ event ∈ accentedEvents, ∃ text, event.chars = some text ∧ ∀ n ∈ text.numbers, n.Carried := by
    have hzero : (PyNumber.int 0).Carried := by
      rw [PyNumber.Carried, Int.natAbs_zero, Nat.zero_mul]
      exact isMagnitude_zero
    rw [forall_chars_iff htexts]
    simpa [TextEvent.numbers, Json.numbers, itemNumbers, memberNumbers] using hzero
  have hsingle : ∀ chunk ∈ (respond accentedEvents).bytes.map fun byte => [byte], chunk.length = 1 := by
    intro chunk hin
    obtain ⟨byte, -, rfl⟩ := List.mem_map.mp hin
    exact List.length_singleton
  have hdelivered := (stream_delivers_iff (fun _ => "") _ _ hc).mpr hcarried
  exact ⟨_, hc, hsingle, hdelivered⟩

/-- An answer with one value in a row. -/
def rowAnswer (value : Value) : StreamEvent :=
  .terminal .answer [(py "rows", .list [.dict [(py "x", value)]])] (py "t") none

/-- What the client makes of it, sent in one chunk. -/
def sent (value : Value) : AskOutcome :=
  askStream (fun _ => "") [(respond [rowAnswer value]).bytes] (respond [rowAnswer value]).complete

/-- It is dispatched as itself exactly if its value has characters, and its number, if it is one, is carried. -/
theorem sent_delivered_iff (value : Value) :
    Delivered [rowAnswer value] (sent value) ↔ ∃ json, charsOf value = some json ∧ ∀ n ∈ json.numbers, n.Carried := by
  have harrives : Arrives (respond [rowAnswer value]) [(respond [rowAnswer value]).bytes] :=
    arrives_whole List.flatten_singleton
  have hdelivers := stream_delivers_iff (fun _ => "") _ _ harrives
  refine hdelivers.trans ?_
  simp only [List.forall_mem_singleton, rowAnswer, StreamEvent.chars, charsOfMembers, charsOf, PythonDumps.charsOfItems,
    ofCodes_py, optionalChars]
  cases charsOf value with
  | none => simp
  | some json => simp [TextEvent.numbers, Json.numbers, itemNumbers, memberNumbers]

/-- A row with `NaN` loses the whole answer, a row with `2 ^ 53 + 1` changes it, and a
row with a surrogate breaks the response off before it. -/
theorem rows_lose_answer :
    ((sent (.float .nan)).calls = [] ∧ ¬Delivered [rowAnswer (.float .nan)] (sent (.float .nan))) ∧
    ¬Delivered [rowAnswer (.int 9007199254740993)] (sent (.int 9007199254740993)) ∧
    ((sent (.str [0xD83D])).calls = [] ∧ ¬Delivered [rowAnswer (.str [0xD83D])] (sent (.str [0xD83D]))) := by
  refine ⟨⟨?_, ?_⟩, ?_, ?_, ?_⟩
  · have hchars : [rowAnswer (.float .nan)].map StreamEvent.chars =
        [TextEvent.terminal .answer [("rows", .arr [.obj [("x", .num (.float .nan))]])] "t" none].map some := by
      simp [rowAnswer, StreamEvent.chars, charsOfMembers, charsOf, PythonDumps.charsOfItems, optionalChars]
    rw [sent, respond_of_chars hchars, askStream_calls _ List.flatten_singleton]
    rfl
  · rw [sent_delivered_iff]
    rintro ⟨json, hjson, hcarried⟩
    cases hjson
    exact Bool.noConfusion (hcarried _ (List.mem_singleton_self _))
  · rw [sent_delivered_iff]
    rintro ⟨json, hjson, hcarried⟩
    cases hjson
    exact absurd (hcarried _ (List.mem_singleton_self _)).1 (by decide +kernel)
  · have hbroken : respond [rowAnswer (.str [0xD83D])] = ⟨[], false⟩ := by
      have hnone : (rowAnswer (.str [0xD83D])).chars = none := by
        simp [rowAnswer, StreamEvent.chars, charsOfMembers, charsOf, PythonDumps.charsOfItems, ofCodes]
      rw [respond, encodeUtf8_formatSse, hnone]
      rfl
    rw [sent, hbroken]
    rfl
  · rw [sent_delivered_iff]
    rintro ⟨json, hjson, -⟩
    have hnone : charsOf (.str [0xD83D]) = none := by
      simp [charsOf, ofCodes]
    rw [hnone] at hjson
    cases hjson

end RagSystem.EventStream
