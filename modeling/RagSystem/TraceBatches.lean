import RagSystem.TraceStores

/-!
# Traces written in batches

A long trace is drained in several flushes. Its span rows are the same however
it is cut; its trace row is what the last batch says, and only the attribution
is kept from an earlier one.
-/

namespace RagSystem.TraceBatches

open JsonValues TraceStores

set_option autoImplicit false

section Statement

/-- Several flushes, one after the other. -/
def writeBatches (tables : TraceTables) (batches : List (List Span)) : TraceTables := batches.foldl writeBatch tables

/-- A trace that has ended: its spans with their one root. -/
structure FinishedTrace (traceId : String) (root : Span) (spans : List Span) : Prop where
  /-- It has an id. -/
  named : traceId ≠ ""
  /-- The spans are its own. -/
  owned : ∀ span ∈ spans, span.traceId = some traceId
  /-- Span ids are unique within a trace. -/
  ids : (spans.map Span.spanId).Nodup
  /-- The root is one of them. -/
  rooted : root ∈ spans ∧ root.parentSpanId = none
  /-- There is no other. -/
  unique : ∀ span ∈ spans, span.parentSpanId = none → span = root

/-- The spans of the trace in these batches are those, in any order. -/
def Batched (traceId : String) (spans : List Span) (batches : List (List Span)) : Prop :=
  (spansOf traceId batches.flatten).Perm spans

/-- What a span says as the anchor of a group. -/
def anchorRow (span : Span) : TraceRow where
  route := routeOf span
  startTs := span.startTs
  durationMs := span.durationMs
  rootStatus := span.status
  aiConfigurationVersionId := span.traceConfigVersionId
  resolvedSettings := if span.traceConfigVersionId.isSome then span.traceResolvedSettings else []

/-- The trace is stored: its row is its root's, and it has a row for each span. -/
structure StoredAs (tables : TraceTables) (traceId : String) (root : Span) (spans : List Span) : Prop where
  /-- The row of the trace. -/
  row : tables.traces traceId = some (anchorRow root)
  /-- The rows of its spans. -/
  rows : ∀ row, row ∈ tables.spans traceId ↔ ∃ span ∈ spans, serializeSpan span = row

/-- The anchors of the batches that have spans of the trace. -/
def anchorsOf (traceId : String) (batches : List (List Span)) : List Span :=
  batches.filterMap fun batch => anchor (spansOf traceId batch)

/-- The attribution a span was stamped with. -/
def stampOf (span : Span) : Option (String × List (String × JsonValue)) :=
  span.traceConfigVersionId.map fun version => (version, span.traceResolvedSettings)

/-- The last anchor says what the root would, and the last stamp is the root's. -/
structure Converges (traceId : String) (root : Span) (batches : List (List Span)) : Prop where
  /-- The last anchor. -/
  speaks : ∃ last, (anchorsOf traceId batches).getLast? = some last ∧ routeOf last = routeOf root ∧
    last.startTs = root.startTs ∧ last.durationMs = root.durationMs ∧ last.status = root.status
  /-- The last stamp. -/
  stamped : (anchorsOf traceId batches).reverse.findSome? stampOf = stampOf root

end Statement

section Rows

variable {traceId : String} {root : Span} {spans : List Span} {batches : List (List Span)} {tables : TraceTables}

/-- A row with another attribution. -/
def withStamp (row : TraceRow) (stamp : Option (String × List (String × JsonValue))) : TraceRow :=
  { row with
    aiConfigurationVersionId := stamp.map Prod.fst
    resolvedSettings := (stamp.map Prod.snd).getD [] }

/-- An anchor's row has its own stamp. -/
theorem anchorRow_eq (span : Span) : anchorRow span = withStamp (anchorRow span) (stampOf span) := by
  cases hversion : span.traceConfigVersionId with
  | none => simp [anchorRow, withStamp, stampOf, hversion]
  | some version => simp [anchorRow, withStamp, stampOf, hversion]

/-- A further write: the row is the anchor's, with the stamp it has or had. -/
theorem insertTrace_withStamp (old : TraceRow) (stamp : Option (String × List (String × JsonValue))) (span : Span) :
    insertTrace (some (withStamp old stamp)) (anchorRow span) = withStamp (anchorRow span) ((stampOf span).or stamp) := by
  cases hversion : span.traceConfigVersionId with
  | none => simp [insertTrace, anchorRow, withStamp, stampOf, hversion]
  | some version => simp [insertTrace, anchorRow, withStamp, stampOf, hversion]

/-- After several batches the row is the last anchor's, with the last stamp. -/
theorem traces_writeBatches (hid : traceId ≠ "") (hnew : tables.traces traceId = none) (batches : List (List Span)) :
    (writeBatches tables batches).traces traceId = (anchorsOf traceId batches).getLast?.map fun last =>
      withStamp (anchorRow last) ((anchorsOf traceId batches).reverse.findSome? stampOf) := by
  induction batches using List.reverseRecOn with
  | nil => exact hnew
  | append_singleton batches batch ih =>
    have hlast : writeBatches tables (batches ++ [batch]) = writeBatch (writeBatches tables batches) batch := by
      rw [writeBatches, List.foldl_append]
      rfl
    have hanchors : anchorsOf traceId (batches ++ [batch]) =
        anchorsOf traceId batches ++ (anchor (spansOf traceId batch)).toList := by
      rw [anchorsOf, List.filterMap_append, List.filterMap_cons, List.filterMap_nil]
      cases anchor (spansOf traceId batch) with
      | none => rfl
      | some span => rfl
    rw [hlast, hanchors]
    cases hanchor : anchor (spansOf traceId batch) with
    | none =>
      have hnone : traceIn traceId batch = none := by rw [traceIn, hanchor]; rfl
      rw [(writeBatch_of_none hid hnone).1, ih, Option.toList_none, List.append_nil]
    | some span =>
      have hsome : traceIn traceId batch = some (traceOf traceId (spansOf traceId batch) span) := by
        rw [traceIn, hanchor]
        rfl
      have hrow : serializeTrace (traceOf traceId (spansOf traceId batch) span) = anchorRow span := rfl
      rw [(writeBatch_of_some hid hsome).1, ih, hrow, Option.toList_some, List.getLast?_concat, List.reverse_append,
        List.reverse_singleton, List.singleton_append, List.findSome?_cons, Option.map_some]
      cases hbefore : (anchorsOf traceId batches).getLast? with
      | none =>
        have hempty : anchorsOf traceId batches = [] := List.getLast?_eq_none_iff.mp hbefore
        rw [hempty, List.reverse_nil, List.findSome?_nil]
        cases hstamp : stampOf span with
        | none =>
          have hown := anchorRow_eq span
          rw [hstamp] at hown
          exact congrArg some hown
        | some stamp =>
          have hown := anchorRow_eq span
          rw [hstamp] at hown
          exact congrArg some hown
      | some before =>
        rw [Option.map_some, insertTrace_withStamp]
        cases hstamp : stampOf span with
        | none => rfl
        | some stamp => rfl

/-- New rows are appended as long as the ids differ. -/
theorem foldl_insertSpan (rows more : List SpanRow) (hids : ((rows ++ more).map SpanRow.spanId).Nodup) :
    more.foldl insertSpan rows = rows ++ more := by
  induction more generalizing rows with
  | nil => exact (List.append_nil rows).symm
  | cons row more ih =>
    have hfresh : (rows.any fun other => other.spanId = row.spanId) = false := by
      rw [List.any_eq_false]
      intro other hother
      have hparts := hids
      rw [List.map_append, List.nodup_append] at hparts
      have hdiffers := hparts.2.2 other.spanId (List.mem_map_of_mem hother) row.spanId (by simp)
      simpa using hdiffers
    have hadded : insertSpan rows row = rows ++ [row] := by rw [insertSpan, hfresh]; rfl
    have hrest := ih (rows ++ [row]) (by rwa [List.append_assoc, List.singleton_append])
    rw [List.foldl_cons, hadded, hrest, List.append_assoc, List.singleton_append]

/-- The span rows of several batches: those of all spans, in order. -/
theorem spans_writeBatches (hid : traceId ≠ "") (hnew : tables.spans traceId = [])
    (hids : ((spansOf traceId batches.flatten).map Span.spanId).Nodup) :
    (writeBatches tables batches).spans traceId = (spansOf traceId batches.flatten).map serializeSpan := by
  induction batches using List.reverseRecOn with
  | nil => exact hnew
  | append_singleton batches batch ih =>
    have hlast : writeBatches tables (batches ++ [batch]) = writeBatch (writeBatches tables batches) batch := by
      rw [writeBatches, List.foldl_append]
      rfl
    have hsplit : spansOf traceId (batches ++ [batch]).flatten =
        spansOf traceId batches.flatten ++ spansOf traceId batch := by
      rw [List.flatten_append, spansOf_append, List.flatten_singleton]
    rw [hsplit] at hids ⊢
    have hbefore := ih (by
      rw [List.map_append] at hids
      exact (List.nodup_append.mp hids).1)
    rw [hlast]
    cases htrace : traceIn traceId batch with
    | none =>
      have hnone : spansOf traceId batch = [] := by
        have hanchor := anchor_isSome (spansOf traceId batch)
        rw [Option.map_eq_none_iff.mp htrace] at hanchor
        simpa using hanchor
      rw [(writeBatch_of_none hid htrace).2, hbefore, hnone, List.append_nil]
    | some trace =>
      have hrows := foldl_insertSpan ((spansOf traceId batches.flatten).map serializeSpan)
        ((spansOf traceId batch).map serializeSpan) (by
          rw [← List.map_append, List.map_map]
          exact hids)
      rw [(writeBatch_of_some hid htrace).2, hbefore, hrows, List.map_append]

end Rows

section Batching

variable {traceId : String} {root : Span} {spans : List Span} {batches others : List (List Span)} {tables : TraceTables}

/-- A stamp is told from its row. -/
theorem withStamp_inj {row row' : TraceRow} {stamp stamp' : Option (String × List (String × JsonValue))} :
    withStamp row stamp = withStamp row' stamp' ↔ (row.route = row'.route ∧ row.startTs = row'.startTs ∧
      row.durationMs = row'.durationMs ∧ row.rootStatus = row'.rootStatus) ∧ stamp = stamp' := by
  constructor
  · intro h
    have hparts := h
    simp only [withStamp, TraceRow.mk.injEq] at hparts
    obtain ⟨hroute, hstart, hduration, hstatus, hversion, hsettings⟩ := hparts
    refine ⟨⟨hroute, hstart, hduration, hstatus⟩, ?_⟩
    cases stamp with
    | none =>
      cases stamp' with
      | none => rfl
      | some stamp' => exact absurd hversion (by simp)
    | some stamp =>
      cases stamp' with
      | none => exact absurd hversion (by simp)
      | some stamp' =>
        simp only [Option.map_some, Option.some.injEq, Option.getD_some] at hversion hsettings
        exact congrArg some (Prod.ext hversion hsettings)
  · rintro ⟨⟨hroute, hstart, hduration, hstatus⟩, rfl⟩
    simp only [withStamp, hroute, hstart, hduration, hstatus]

/-- One batching stores the trace exactly if it converges. -/
theorem storedAs_iff (hfinished : FinishedTrace traceId root spans)
    (hnew : tables.traces traceId = none ∧ tables.spans traceId = []) (hbatched : Batched traceId spans batches) :
    StoredAs (writeBatches tables batches) traceId root spans ↔ Converges traceId root batches := by
  have hrow := traces_writeBatches hfinished.named hnew.1 batches
  have hids : ((spansOf traceId batches.flatten).map Span.spanId).Nodup :=
    (hbatched.map Span.spanId).nodup_iff.mpr hfinished.ids
  have hrows := spans_writeBatches hfinished.named hnew.2 hids
  have hroot := anchorRow_eq root
  constructor
  · intro hstored
    have hsame := hstored.row
    rw [hrow] at hsame
    obtain ⟨last, hlast, hequal⟩ := Option.map_eq_some_iff.mp hsame
    rw [hroot] at hequal
    obtain ⟨hfields, hstamp⟩ := withStamp_inj.mp hequal
    exact ⟨⟨last, hlast, hfields⟩, hstamp⟩
  · intro hconverges
    obtain ⟨last, hlast, hfields⟩ := hconverges.speaks
    refine ⟨?_, fun row => ?_⟩
    · rw [hrow, hlast, hroot, Option.map_some]
      exact congrArg some (withStamp_inj.mpr ⟨hfields, hconverges.stamped⟩)
    · rw [hrows, List.mem_map]
      constructor
      · rintro ⟨span, hspan, hserialized⟩
        exact ⟨span, hbatched.mem_iff.mp hspan, hserialized⟩
      · rintro ⟨span, hspan, hserialized⟩
        exact ⟨span, hbatched.mem_iff.mpr hspan, hserialized⟩

/-- Two ways to cut a finished trace into batches store the same, its root's
row and the rows of its spans, exactly when both converge. -/
theorem batching_independent_iff (hfinished : FinishedTrace traceId root spans)
    (hnew : tables.traces traceId = none ∧ tables.spans traceId = []) (hbatches : Batched traceId spans batches)
    (hothers : Batched traceId spans others) :
    StoredAs (writeBatches tables batches) traceId root spans ∧ StoredAs (writeBatches tables others) traceId root spans ↔
      Converges traceId root batches ∧ Converges traceId root others :=
  and_congr (storedAs_iff hfinished hnew hbatches) (storedAs_iff hfinished hnew hothers)

/-- A span below the root. -/
def sampleChild : Span where
  spanId := "c"
  parentSpanId := some "r"
  operation := "retrieve"
  startTs := 10
  durationMs := 20
  status := .error
  traceId := some "t"

/-- No rows. -/
def emptyTables : TraceTables := ⟨fun _ => none, fun _ => []⟩

theorem sampleTrace_finished : FinishedTrace "t" sampleRoot [sampleRoot, sampleChild] where
  named := by decide
  owned := by
    intro span hspan
    simp only [List.mem_cons, List.not_mem_nil, or_false] at hspan
    rcases hspan with rfl | rfl
    · rfl
    · rfl
  ids := by decide
  rooted := ⟨List.mem_cons_self, rfl⟩
  unique := by
    intro span hspan hparent
    simp only [List.mem_cons, List.not_mem_nil, or_false] at hspan
    rcases hspan with rfl | rfl
    · rfl
    · exact absurd hparent (by decide)

theorem batching_independent_iff_sample :
    StoredAs (writeBatches emptyTables [[sampleChild], [sampleRoot]]) "t" sampleRoot [sampleRoot, sampleChild] ∧
      StoredAs (writeBatches emptyTables [[sampleRoot, sampleChild]]) "t" sampleRoot [sampleRoot, sampleChild] := by
  have hchildFirst : Batched "t" [sampleRoot, sampleChild] [[sampleChild], [sampleRoot]] := List.Perm.swap _ _ _
  have htogether : Batched "t" [sampleRoot, sampleChild] [[sampleRoot, sampleChild]] := List.Perm.refl _
  have hnew : emptyTables.traces "t" = none ∧ emptyTables.spans "t" = [] := ⟨rfl, rfl⟩
  have hiff := batching_independent_iff sampleTrace_finished hnew hchildFirst htogether
  refine hiff.mpr ⟨⟨⟨sampleRoot, rfl, rfl, rfl, rfl, rfl⟩, rfl⟩, ⟨⟨sampleRoot, rfl, rfl, rfl, rfl, rfl⟩, rfl⟩⟩

/-- A span that is flushed after its root overwrites the row of the trace. -/
theorem late_span_overwrites : Batched "t" [sampleRoot, sampleChild] [[sampleRoot], [sampleChild]] ∧
    ¬ StoredAs (writeBatches emptyTables [[sampleRoot], [sampleChild]]) "t" sampleRoot [sampleRoot, sampleChild] := by
  refine ⟨List.Perm.refl _, fun hstored => ?_⟩
  have hroute := congrArg (Option.map TraceRow.route) hstored.row
  exact absurd hroute (by decide)

end Batching

end RagSystem.TraceBatches
