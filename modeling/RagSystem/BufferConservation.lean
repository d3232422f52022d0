import RagSystem.TelemetryFlush

/-!
# Nothing leaves a buffer unseen

Calls on a buffer come one after the other under its lock. What is offered is
drained in order, still held, or counted as dropped. A flush hands the spans it
drained to the store one trace at a time and offers those of a write that raised
to the buffer again, behind what was captured meanwhile.
-/

namespace RagSystem.BufferConservation

open FlushWorkers TraceStores TelemetryFlush

set_option autoImplicit false

section Calls

variable {α : Type} {capacity : ℕ}

/-- A new buffer, on a registry that has counted this much. -/
def newBuffer (dropped : ℕ) : BoundedBuffer α capacity := ⟨[], dropped, Nat.zero_le _⟩

/-- A call on a buffer. -/
inductive Call (α : Type) where
  /-- `add`. -/
  | add (item : α)
  /-- `drain`. -/
  | drain

/-- A call and what it returned. -/
inductive Reply (α : Type) where
  /-- Of `add`: whether the item was buffered. -/
  | added (item : α) (buffered : Bool)
  /-- Of `drain`: the items. -/
  | drained (items : List α)

/-- One call. -/
def call (buffer : BoundedBuffer α capacity) : Call α → Reply α × BoundedBuffer α capacity
  | .add item => (.added item (buffer.add item).2, (buffer.add item).1)
  | .drain => (.drained buffer.drain.1, buffer.drain.2)

/-- Calls, one after the other. -/
def callAll (buffer : BoundedBuffer α capacity) : List (Call α) → List (Reply α) × BoundedBuffer α capacity
  | [] => ([], buffer)
  | next :: calls =>
    let (reply, after) := call buffer next
    let (replies, last) := callAll after calls
    (reply :: replies, last)

/-- What the calls offer. -/
def offered (calls : List (Call α)) : List α := calls.filterMap fun
  | .add item => some item
  | .drain => none

/-- Each offer with its answer. -/
def answered (replies : List (Reply α)) : List (α × Bool) := replies.filterMap fun
  | .added item buffered => some (item, buffered)
  | .drained _ => none

/-- What the replies drain. -/
def drainedItems (replies : List (Reply α)) : List α := replies.flatMap fun
  | .added _ _ => []
  | .drained items => items

/-- The offers that were buffered. -/
def taken (replies : List (Reply α)) : List α := ((answered replies).filter fun offer => offer.2).map Prod.fst

/-- The offers that were refused. -/
def refused (replies : List (Reply α)) : List α := ((answered replies).filter fun offer => !offer.2).map Prod.fst

/-- What an `add` answers, and what it does. -/
theorem add_answer (buffer : BoundedBuffer α capacity) (item : α) :
    ((buffer.add item).2 = true ∧ (buffer.add item).1.items = buffer.items ++ [item] ∧
        (buffer.add item).1.dropped = buffer.dropped) ∨
      ((buffer.add item).2 = false ∧ (buffer.add item).1.items = buffer.items ∧
        (buffer.add item).1.dropped = buffer.dropped + 1) := by
  by_cases hfull : capacity ≤ buffer.items.length
  · right
    simp [BoundedBuffer.add, hfull]
  · left
    simp [BoundedBuffer.add, hfull]

/-- Answers split the offers. -/
theorem taken_refused_perm (replies : List (Reply α)) :
    (taken replies ++ refused replies).Perm ((answered replies).map Prod.fst) := by
  have hsplit := List.filter_append_perm (fun offer : α × Bool => offer.2) (answered replies)
  have hmapped := hsplit.map Prod.fst
  rwa [List.map_append] at hmapped

/-- Every offer is answered, in order. -/
theorem answered_callAll (start : BoundedBuffer α capacity) (calls : List (Call α)) :
    (answered (callAll start calls).1).map Prod.fst = offered calls := by
  induction calls generalizing start with
  | nil => rfl
  | cons next calls ih =>
    cases next with
    | add item => exact congrArg (item :: ·) (ih (start.add item).1)
    | drain => exact ih start.drain.2

/-- What was drained and what is held is what was buffered, in its order. -/
theorem drained_callAll (start : BoundedBuffer α capacity) (calls : List (Call α)) :
    drainedItems (callAll start calls).1 ++ (callAll start calls).2.items = start.items ++ taken (callAll start calls).1 := by
  induction calls generalizing start with
  | nil => exact (List.append_nil _).symm
  | cons next calls ih =>
    cases next with
    | add item =>
      have hrest := ih (start.add item).1
      rcases add_answer start item with ⟨hanswer, hitems, -⟩ | ⟨hanswer, hitems, -⟩
      · rw [hitems, List.append_assoc] at hrest
        simpa [callAll, call, drainedItems, taken, answered, hanswer] using hrest
      · rw [hitems] at hrest
        simpa [callAll, call, drainedItems, taken, answered, hanswer] using hrest
    | drain =>
      have hfirst : drainedItems (callAll start (.drain :: calls)).1 ++ (callAll start (.drain :: calls)).2.items =
          start.items ++ (drainedItems (callAll start.drain.2 calls).1 ++ (callAll start.drain.2 calls).2.items) := by
        simp [callAll, call, drainedItems, BoundedBuffer.drain]
      rw [hfirst, ih start.drain.2]
      rfl

/-- Every refused offer is counted, once. -/
theorem dropped_callAll (start : BoundedBuffer α capacity) (calls : List (Call α)) :
    (callAll start calls).2.dropped = start.dropped + (refused (callAll start calls).1).length := by
  induction calls generalizing start with
  | nil => rfl
  | cons next calls ih =>
    cases next with
    | add item =>
      have hrest := ih (start.add item).1
      have hlast : (callAll start (.add item :: calls)).2 = (callAll (start.add item).1 calls).2 := rfl
      rw [hlast, hrest]
      rcases add_answer start item with ⟨hanswer, -, hdropped⟩ | ⟨hanswer, -, hdropped⟩
      · simp [callAll, call, refused, answered, hanswer, hdropped]
      · simp [callAll, call, refused, answered, hanswer, hdropped]
        omega
    | drain => exact ih start.drain.2

/-- What calls on a buffer keep. -/
structure Conserved (start : BoundedBuffer α capacity) (calls : List (Call α)) (replies : List (Reply α))
    (last : BoundedBuffer α capacity) : Prop where
  /-- The capacity is kept. -/
  bounded : last.items.length ≤ capacity
  /-- What was drained, and then what is held, are offers in the order in which they were made. -/
  ordered : ∃ buffered, buffered.Sublist (offered calls) ∧ drainedItems replies ++ last.items = start.items ++ buffered
  /-- Every offer was drained once, or is held, or was dropped and counted once. -/
  once : ∃ dropped, last.dropped = start.dropped + dropped.length ∧
    (drainedItems replies ++ last.items ++ dropped).Perm (start.items ++ offered calls)

/-- Calls conserve what they are given. -/
theorem conserved_callAll (start : BoundedBuffer α capacity) (calls : List (Call α)) :
    Conserved start calls (callAll start calls).1 (callAll start calls).2 := by
  have hanswered := answered_callAll start calls
  have hdrained := drained_callAll start calls
  have hsublist : (taken (callAll start calls).1).Sublist (offered calls) := by
    rw [← hanswered]
    exact List.filter_sublist.map Prod.fst
  refine ⟨(callAll start calls).2.bounded, ⟨_, hsublist, hdrained⟩, refused (callAll start calls).1,
    dropped_callAll start calls, ?_⟩
  have hsplit := taken_refused_perm (callAll start calls).1
  rw [hanswered] at hsplit
  rw [hdrained, List.append_assoc]
  exact hsplit.append_left start.items

end Calls

section Grouping

variable {spans : List Span}

/-- What the traces of a grouping are. -/
structure Grouped (spans : List Span) (traces : List Trace) : Prop where
  /-- One trace an id. -/
  distinct : (traces.map Trace.traceId).Nodup
  /-- With the spans of that id, in their order. -/
  spans_eq : ∀ trace ∈ traces, trace.spans = spansOf trace.traceId spans
  /-- Every span is in one of them, once. -/
  perm : (traces.flatMap Trace.spans).Perm spans

/-- A trace of a grouping is what its id is grouped to. -/
theorem traceIn_of_mem {trace : Trace} (htrace : trace ∈ groupSpansByTrace spans) (hid : trace.traceId ≠ "") :
    traceIn trace.traceId spans = some trace := by
  have hfilter := filter_groupSpansByTrace hid spans
  have hmem : trace ∈ (groupSpansByTrace spans).filter fun other => other.traceId = trace.traceId :=
    List.mem_filter.mpr ⟨htrace, by simp⟩
  rw [hfilter] at hmem
  exact Option.mem_toList.mp hmem

/-- No trace is without an id. -/
theorem traceId_ne {trace : Trace} (htrace : trace ∈ groupSpansByTrace spans) : trace.traceId ≠ "" := by
  have hgroup := htrace
  obtain ⟨entry, hentry, hmade⟩ := List.mem_filterMap.mp hgroup
  obtain ⟨speaker, hanchor, htraceOf⟩ := Option.map_eq_some_iff.mp hmade
  have hsome := anchor_isSome entry.2
  rw [hanchor] at hsome
  have hmembers : entry.2 ≠ [] := by simpa using hsome
  obtain ⟨span, hspan⟩ := List.exists_mem_of_ne_nil _ hmembers
  rw [← htraceOf]
  exact (mem_groups hentry hspan).2

/-- `group_spans_by_trace` groups spans that have a trace. -/
theorem grouped_groupSpansByTrace (howned : ∀ span ∈ spans, Owned span) : Grouped spans (groupSpansByTrace spans) := by
  refine ⟨?_, ?_, ?_⟩
  · rw [List.nodup_iff_count_le_one]
    intro id
    by_cases hid : id = ""
    · have hnone : id ∉ (groupSpansByTrace spans).map Trace.traceId := by
        intro hmem
        obtain ⟨trace, htrace, hsame⟩ := List.mem_map.mp hmem
        exact traceId_ne htrace (hsame.trans hid)
      rw [List.count_eq_zero_of_not_mem hnone]
      omega
    · have hcount : ((groupSpansByTrace spans).map Trace.traceId).count id =
          ((groupSpansByTrace spans).filter fun trace => trace.traceId = id).length := by
        rw [List.count, List.countP_map, List.countP_eq_length_filter]
        rfl
      rw [hcount, filter_groupSpansByTrace hid]
      cases traceIn id spans with
      | none => simp
      | some trace => simp
  · intro trace htrace
    have hin := traceIn_of_mem htrace (traceId_ne htrace)
    obtain ⟨speaker, -, hmade⟩ := Option.map_eq_some_iff.mp hin
    have hspans := congrArg Trace.spans hmade
    exact hspans.symm
  · rw [flatMap_groupSpansByTrace]
    exact flatMap_groups howned

end Grouping

section Flush

variable {capacity : ℕ}

/-- What happens around a call of the store or of the buffer: what is captured before it, and whether it raises. -/
structure Moment where
  /-- The entries that are captured. -/
  captured : List BufferedItem
  /-- Whether `persist` raises. -/
  raises : Bool

/-- Captures, one after the other. -/
def captureAll (buffer : BoundedBuffer BufferedItem capacity) (entries : List BufferedItem) :
    BoundedBuffer BufferedItem capacity :=
  entries.foldl (fun buffer entry => (buffer.add entry).1) buffer

/-- A `flush_once` with the buffer it drained and the traces whose `persist` returned. -/
structure Progress (capacity : ℕ) where
  /-- The buffer. -/
  buffer : BoundedBuffer BufferedItem capacity
  /-- The traces that were persisted. -/
  persisted : List Trace
  /-- `retained`. -/
  retained : List BufferedItem

/-- The loop over the batches. -/
def persistAll (progress : Progress capacity) : List (FlushBatch BufferedItem Trace × Moment) → Progress capacity
  | [] => progress
  | (batch, moment) :: batches =>
    let buffer := captureAll progress.buffer moment.captured
    if moment.raises then
      persistAll { progress with buffer := buffer, retained := progress.retained ++ batch.sources } batches
    else persistAll { progress with buffer := buffer, persisted := progress.persisted ++ [batch.payload] } batches

/-- The loop over `retained`. -/
def addAll (buffer : BoundedBuffer BufferedItem capacity) : List (BufferedItem × Moment) → BoundedBuffer BufferedItem capacity
  | [] => buffer
  | (source, moment) :: sources => addAll ((captureAll buffer moment.captured).add source).1 sources

/-- The first entries, each at its moment. -/
def atMoments {β : Type} (moments : ℕ → Moment) (entries : List β) : List (β × Moment) :=
  entries.mapIdx fun i entry => (entry, moments i)

/-- `flush_once` of the `TraceFlushWorker`: what it leaves in the buffer, and the traces it persisted. -/
def flushOnce (buffer : BoundedBuffer BufferedItem capacity) (persists adds : ℕ → Moment) :
    BoundedBuffer BufferedItem capacity × List Trace :=
  let (drained, emptied) := buffer.drain
  if drained = [] then (emptied, [])
  else
    let progress := persistAll ⟨emptied, [], []⟩ (atMoments persists (planTraces drained))
    (addAll progress.buffer (atMoments adds progress.retained), progress.persisted)

/-- What is captured while a `flush_once` runs. -/
def capturedMeanwhile (buffer : BoundedBuffer BufferedItem capacity) (persists adds : ℕ → Moment) : List BufferedItem :=
  let (drained, emptied) := buffer.drain
  if drained = [] then []
  else
    let planned := atMoments persists (planTraces drained)
    let retained := (persistAll ⟨emptied, [], []⟩ planned).retained
    planned.flatMap (fun entry => entry.2.captured) ++ (atMoments adds retained).flatMap fun entry => entry.2.captured

/-- The spans of an entry. -/
def spansIn : BufferedItem → List Span
  | .trace finished => finished.spans
  | .span one => [one]

/-- Entries were offered to a buffer: it holds or has counted them. -/
def Offered (offers : List BufferedItem) (before after : BoundedBuffer BufferedItem capacity) : Prop :=
  ∃ dropped : List BufferedItem, after.dropped = before.dropped + dropped.length ∧
    (after.items ++ dropped).Perm (before.items ++ offers)

variable {before after last : BoundedBuffer BufferedItem capacity} {offers more : List BufferedItem}

theorem Offered.refl (buffer : BoundedBuffer BufferedItem capacity) : Offered [] buffer buffer :=
  ⟨[], rfl, List.Perm.refl _⟩

theorem Offered.add (buffer : BoundedBuffer BufferedItem capacity) (item : BufferedItem) :
    Offered [item] buffer (buffer.add item).1 := by
  rcases buffer.add_cases item with ⟨hitems, hdropped⟩ | ⟨hitems, hdropped⟩
  · exact ⟨[item], hdropped, by rw [hitems]⟩
  · exact ⟨[], hdropped, by rw [hitems, List.append_nil]⟩

theorem Offered.trans (h : Offered offers before after) (h' : Offered more after last) :
    Offered (offers ++ more) before last := by
  obtain ⟨dropped, hcount, hperm⟩ := h
  obtain ⟨dropped', hcount', hperm'⟩ := h'
  refine ⟨dropped ++ dropped', by rw [hcount', hcount, List.length_append, Nat.add_assoc], ?_⟩
  rw [← Multiset.coe_eq_coe] at hperm hperm' ⊢
  simp only [← Multiset.coe_add] at hperm hperm' ⊢
  calc (last.items : Multiset BufferedItem) + (dropped + dropped')
      = (last.items + dropped') + dropped := by abel
    _ = (after.items + dropped) + more := by rw [hperm']; abel
    _ = before.items + (offers + more) := by rw [hperm]; abel

theorem Offered.captureAll (buffer : BoundedBuffer BufferedItem capacity) (entries : List BufferedItem) :
    Offered entries buffer (captureAll buffer entries) := by
  induction entries generalizing buffer with
  | nil => exact Offered.refl buffer
  | cons entry entries ih => exact (Offered.add buffer entry).trans (ih (buffer.add entry).1)

theorem Offered.of_perm (h : Offered offers before after) (hperm : offers.Perm more) : Offered more before after := by
  obtain ⟨dropped, hcount, hbuffered⟩ := h
  exact ⟨dropped, hcount, hbuffered.trans (hperm.append_left before.items)⟩

/-- The loop over `retained` offers each, behind what was captured before it. -/
theorem Offered.addAll (buffer : BoundedBuffer BufferedItem capacity) (sources : List (BufferedItem × Moment)) :
    Offered (sources.flatMap (fun entry => entry.2.captured) ++ sources.map Prod.fst) buffer (addAll buffer sources) := by
  have hinterleaved : Offered (sources.flatMap fun entry => entry.2.captured ++ [entry.1]) buffer
      (BufferConservation.addAll buffer sources) := by
    induction sources generalizing buffer with
    | nil => exact Offered.refl buffer
    | cons entry sources ih =>
      have hcaptured := Offered.captureAll buffer entry.2.captured
      have hadded := hcaptured.trans (Offered.add _ entry.1)
      exact hadded.trans (ih _)
  have hparts := List.flatMap_append_perm sources (fun entry => entry.2.captured) fun entry => [entry.1]
  rw [← List.map_eq_flatMap] at hparts
  exact hinterleaved.of_perm hparts.symm

/-- A batch has the spans of its sources. -/
def Fair (batch : FlushBatch BufferedItem Trace) : Prop := batch.payload.spans = batch.sources.flatMap spansIn

theorem fair_planTraces {drained : List BufferedItem} {batch : FlushBatch BufferedItem Trace}
    (hbatch : batch ∈ planTraces drained) : Fair batch := by
  rcases List.mem_append.mp hbatch with hdirect | hgrouped
  · obtain ⟨trace, -, rfl⟩ := List.mem_map.mp hdirect
    simp [Fair, spansIn]
  · obtain ⟨trace, -, rfl⟩ := List.mem_map.mp hgrouped
    simp [Fair, spansIn, List.flatMap_map]

/-- What the loop over the batches does: a batch is persisted or its sources are retained. -/
theorem persistAll_conserves (progress : Progress capacity) (batches : List (FlushBatch BufferedItem Trace × Moment))
    (hfair : ∀ entry ∈ batches, Fair entry.1) :
    Offered (batches.flatMap fun entry => entry.2.captured) progress.buffer (persistAll progress batches).buffer ∧
      ∃ stored : List BufferedItem,
        (persistAll progress batches).persisted.flatMap Trace.spans =
          progress.persisted.flatMap Trace.spans ++ stored.flatMap spansIn ∧
        ((persistAll progress batches).retained ++ stored).Perm
          (progress.retained ++ batches.flatMap fun entry => entry.1.sources) := by
  induction batches generalizing progress with
  | nil => exact ⟨Offered.refl _, [], (List.append_nil _).symm, List.Perm.refl _⟩
  | cons entry batches ih =>
    obtain ⟨batch, moment⟩ := entry
    have hbatch : Fair batch := hfair (batch, moment) List.mem_cons_self
    have hrest : ∀ entry ∈ batches, Fair entry.1 := fun entry hentry => hfair entry (List.mem_cons_of_mem _ hentry)
    have hcaptured := Offered.captureAll progress.buffer moment.captured
    rw [persistAll]
    cases hraises : moment.raises with
    | true =>
      obtain ⟨hoffered, stored, hspans, hperm⟩ := ih
        { progress with
          buffer := captureAll progress.buffer moment.captured
          retained := progress.retained ++ batch.sources } hrest
      refine ⟨hcaptured.trans hoffered, stored, hspans, ?_⟩
      simpa [List.append_assoc] using hperm
    | false =>
      obtain ⟨hoffered, stored, hspans, hperm⟩ := ih
        { progress with
          buffer := captureAll progress.buffer moment.captured
          persisted := progress.persisted ++ [batch.payload] } hrest
      refine ⟨hcaptured.trans hoffered, batch.sources ++ stored, ?_, ?_⟩
      · have hown : batch.payload.spans = batch.sources.flatMap spansIn := hbatch
        simpa [hown, List.append_assoc] using hspans
      · rw [← Multiset.coe_eq_coe] at hperm ⊢
        simp only [← Multiset.coe_add, List.flatMap_cons] at hperm ⊢
        have hsame := congrArg ((batch.sources : Multiset BufferedItem) + ·) hperm
        calc _ = (batch.sources : Multiset BufferedItem) + _ := by
              rw [add_left_comm]
              rfl
          _ = _ := hsame
          _ = _ := by abel

theorem map_fst_atMoments {β : Type} (moments : ℕ → Moment) (entries : List β) :
    (atMoments moments entries).map Prod.fst = entries := by
  refine List.ext_getElem (by simp [atMoments]) ?_
  intro i hleft hright
  simp [atMoments]

/-- A flush leaves every span it drained persisted, in the buffer or in the count of the dropped ones, and so it does
with what was captured meanwhile. -/
structure Flushed (buffer : BoundedBuffer BufferedItem capacity) (captured : List BufferedItem)
    (after : BoundedBuffer BufferedItem capacity) (persisted : List Trace) : Prop where
  /-- Every entry is held, of a trace that was persisted, or dropped. -/
  conserved : ∃ stored dropped : List BufferedItem,
    persisted.flatMap Trace.spans = stored.flatMap spansIn ∧ after.dropped = buffer.dropped + dropped.length ∧
      (buffer.items ++ captured).Perm (after.items ++ stored ++ dropped)
  /-- The capacity is kept. -/
  bounded : after.items.length ≤ capacity

/-- The entries of a buffer have a trace. -/
def Named (items : List BufferedItem) : Prop := ∀ item ∈ items, item.owner ≠ none

/-- The batches with their moments have the sources of the plan. -/
theorem sources_atMoments (moments : ℕ → Moment) (batches : List (FlushBatch BufferedItem Trace)) :
    (atMoments moments batches).flatMap (fun entry => entry.1.sources) = batches.flatMap FlushBatch.sources := by
  conv_rhs => rw [← map_fst_atMoments moments batches, List.flatMap_map]

theorem fair_atMoments {moments : ℕ → Moment} {drained : List BufferedItem} :
    ∀ entry ∈ atMoments moments (planTraces drained), Fair entry.1 := by
  intro entry hentry
  have hmem : entry.1 ∈ (atMoments moments (planTraces drained)).map Prod.fst := List.mem_map_of_mem hentry
  rw [map_fst_atMoments] at hmem
  exact fair_planTraces hmem

theorem flushed_flushOnce (buffer : BoundedBuffer BufferedItem capacity) (persists adds : ℕ → Moment)
    (hnamed : Named buffer.items) : Flushed buffer (capturedMeanwhile buffer persists adds)
      (flushOnce buffer persists adds).1 (flushOnce buffer persists adds).2 := by
  by_cases hempty : buffer.items = []
  · have hflush : flushOnce buffer persists adds = (buffer.drain.2, []) := by
      simp [flushOnce, BoundedBuffer.drain, hempty]
    have hnone : capturedMeanwhile buffer persists adds = [] := by
      simp [capturedMeanwhile, BoundedBuffer.drain, hempty]
    rw [hflush, hnone]
    exact ⟨⟨[], [], rfl, rfl, by simp [hempty, BoundedBuffer.drain]⟩, buffer.drain.2.bounded⟩
  · refine ⟨?_, (flushOnce buffer persists adds).1.bounded⟩
    have hplanned := planTraces_perm hnamed
    obtain ⟨hcaptured, stored, hspans, hsources⟩ := persistAll_conserves
      ⟨buffer.drain.2, [], []⟩ (atMoments persists (planTraces buffer.items)) fair_atMoments
    have hflush : flushOnce buffer persists adds =
        let progress := persistAll ⟨buffer.drain.2, [], []⟩ (atMoments persists (planTraces buffer.items))
        (addAll progress.buffer (atMoments adds progress.retained), progress.persisted) := by
      simp [flushOnce, BoundedBuffer.drain, hempty]
    have hmeanwhile : capturedMeanwhile buffer persists adds =
        (atMoments persists (planTraces buffer.items)).flatMap (fun entry => entry.2.captured) ++
          (atMoments adds (persistAll ⟨buffer.drain.2, [], []⟩
            (atMoments persists (planTraces buffer.items))).retained).flatMap fun entry => entry.2.captured := by
      simp [capturedMeanwhile, BoundedBuffer.drain, hempty]
    rw [hflush, hmeanwhile]
    generalize persistAll ⟨buffer.drain.2, [], []⟩ (atMoments persists (planTraces buffer.items)) = progress at *
    have hadded := Offered.addAll progress.buffer (atMoments adds progress.retained)
    rw [map_fst_atMoments] at hadded
    obtain ⟨dropped, hcount, hbuffered⟩ := hcaptured.trans hadded
    refine ⟨stored, dropped, by simpa using hspans, hcount, ?_⟩
    rw [sources_atMoments, List.nil_append] at hsources
    have hall := hsources.trans hplanned
    rw [← Multiset.coe_eq_coe] at hall hbuffered ⊢
    simp only [← Multiset.coe_add, BoundedBuffer.drain, Multiset.coe_nil, zero_add] at hall hbuffered ⊢
    rw [← hall]
    calc _ = _ := by abel
      _ = _ := congrArg (· + (stored : Multiset BufferedItem)) hbuffered.symm
      _ = _ := by abel

end Flush

section Conservation

/-- Calls on a buffer conserve what they offer, a grouping puts every span in one trace, and a flush leaves each span
it drained persisted, buffered or counted as dropped. -/
theorem items_conserved {α : Type} {capacity dropped : ℕ} (calls : List (Call α)) {spans : List Span}
    (howned : ∀ span ∈ spans, Owned span) (buffer : BoundedBuffer BufferedItem capacity) (persists adds : ℕ → Moment)
    (hnamed : Named buffer.items) :
    Conserved (newBuffer dropped) calls (callAll (newBuffer dropped : BoundedBuffer α capacity) calls).1
        (callAll (newBuffer dropped : BoundedBuffer α capacity) calls).2 ∧
      Grouped spans (groupSpansByTrace spans) ∧
      Flushed buffer (capturedMeanwhile buffer persists adds) (flushOnce buffer persists adds).1
        (flushOnce buffer persists adds).2 :=
  ⟨conserved_callAll _ calls, grouped_groupSpansByTrace howned, flushed_flushOnce buffer persists adds hnamed⟩

/-- A span of a trace. -/
def sampleOf (spanId traceId : String) : Span := { sampleRoot with spanId := spanId, traceId := some traceId }

/-- Two spans of one trace, and between them one of another. -/
def sampleSpans : List Span := [sampleOf "a" "t", sampleOf "b" "u", sampleOf "c" "t"]

/-- They fill a buffer. -/
def sampleBuffer : BoundedBuffer BufferedItem 3 := ⟨sampleSpans.map .span, 0, by decide⟩

/-- The first write of a flush returns; the next one raises, and a span is captured that takes the place of what it
retained. -/
def sampleMoments : ℕ → Moment
  | 0 => ⟨[.span (sampleOf "d" "t"), .span (sampleOf "e" "t")], false⟩
  | _ => ⟨[.span (sampleOf "f" "u")], true⟩

theorem sampleOf_owned {spanId traceId : String} (h : traceId ≠ "") : Owned (sampleOf spanId traceId) := ⟨traceId, h, rfl⟩

/-- The trace with two spans is persisted, and the span of the other is dropped and counted. -/
theorem items_conserved_sample :
    Conserved (newBuffer 0 : BoundedBuffer ℕ 3) [.add 1, .add 2, .add 3, .add 4, .drain, .add 5]
        [.added 1 true, .added 2 true, .added 3 true, .added 4 false, .drained [1, 2, 3], .added 5 true]
        ⟨[5], 1, by decide⟩ ∧
      Grouped sampleSpans (groupSpansByTrace sampleSpans) ∧
      Flushed sampleBuffer (capturedMeanwhile sampleBuffer sampleMoments fun _ => ⟨[], false⟩)
        (flushOnce sampleBuffer sampleMoments fun _ => ⟨[], false⟩).1
        (flushOnce sampleBuffer sampleMoments fun _ => ⟨[], false⟩).2 ∧
      ((flushOnce sampleBuffer sampleMoments fun _ => ⟨[], false⟩).2.map fun trace => trace.spans.map Span.spanId) =
        [["a", "c"]] ∧
      (flushOnce sampleBuffer sampleMoments fun _ => ⟨[], false⟩).1.dropped = 1 := by
  have howned : ∀ span ∈ sampleSpans, Owned span := by
    intro span hspan
    simp only [sampleSpans, List.mem_cons, List.not_mem_nil, or_false] at hspan
    rcases hspan with rfl | rfl | rfl <;> exact sampleOf_owned (by decide)
  have hnamed : Named sampleBuffer.items := by
    intro item hitem
    obtain ⟨span, hspan, rfl⟩ := List.mem_map.mp hitem
    simp only [sampleSpans, List.mem_cons, List.not_mem_nil, or_false] at hspan
    rcases hspan with rfl | rfl | rfl <;> decide
  obtain ⟨hcalls, hgrouped, hflushed⟩ :=
    @items_conserved ℕ 3 0 [.add 1, .add 2, .add 3, .add 4, .drain, .add 5] _ howned sampleBuffer sampleMoments (fun _ => ⟨[], false⟩) hnamed
  exact ⟨hcalls, hgrouped, hflushed, by decide +kernel, by decide +kernel⟩

end Conservation

end RagSystem.BufferConservation
