import RagSystem.GroundedAnswers

/-!
# The deltas of a streamed answer

A streamed answer passes on the text before the metadata marker, however the
model cuts its text into pieces. As much of the end is held back as a marker
may begin in, so what was passed on never has to be taken back.
-/

namespace RagSystem.StreamedDeltas

open DocumentModels QueryModels JsonValues AnswerGeneration GroundedAnswers

set_option autoImplicit false

section Search

variable {needle text more : List Char} {index : ℕ}

/-- The needle stands at this position of the text. -/
def OccursAt (needle text : List Char) (index : ℕ) : Prop := needle <+: text.drop index

/-- It is found at the first position it stands at. -/
theorem find_eq_some (h : find needle text = some index) :
    OccursAt needle text index ∧ ∀ earlier, OccursAt needle text earlier → index ≤ earlier := by
  induction text generalizing index with
  | nil =>
    have hempty : needle = [] ∧ index = 0 := by
      unfold find at h
      split at h
      · next hneedle => exact ⟨hneedle, (Option.some.inj h).symm⟩
      · contradiction
    rw [hempty.1, hempty.2]
    exact ⟨List.nil_prefix, fun earlier _ => Nat.zero_le earlier⟩
  | cons c cs ih =>
    unfold find at h
    split at h
    · next hprefix =>
      have hzero : index = 0 := (Option.some.inj h).symm
      rw [hzero]
      exact ⟨List.isPrefixOf_iff_prefix.mp hprefix, fun earlier _ => Nat.zero_le earlier⟩
    · next hprefix =>
      obtain ⟨found, hfound, hindex⟩ := Option.map_eq_some_iff.mp h
      have hrest := ih hfound
      rw [← hindex]
      refine ⟨hrest.1, fun earlier hearlier => ?_⟩
      cases earlier with
      | zero => exact absurd (List.isPrefixOf_iff_prefix.mpr hearlier) hprefix
      | succ earlier =>
        have hle := hrest.2 earlier hearlier
        omega

/-- What is not found stands nowhere. -/
theorem find_eq_none (h : find needle text = none) (index : ℕ) : ¬ OccursAt needle text index := by
  induction text generalizing index with
  | nil =>
    have hneedle : needle ≠ [] := by
      unfold find at h
      split at h
      · contradiction
      · next hneedle => exact hneedle
    intro hoccurs
    rw [OccursAt, List.drop_nil] at hoccurs
    exact hneedle (List.prefix_nil.mp hoccurs)
  | cons c cs ih =>
    unfold find at h
    split at h
    · contradiction
    · next hprefix =>
      have hrest := ih (Option.map_eq_none_iff.mp h)
      cases index with
      | zero => exact fun hoccurs => hprefix (List.isPrefixOf_iff_prefix.mpr hoccurs)
      | succ index => exact hrest index

/-- What stands there still does when the text goes on. -/
theorem OccursAt.append (h : OccursAt needle text index) (hindex : index ≤ text.length) (more : List Char) :
    OccursAt needle (text ++ more) index := by
  have hdrop : (text ++ more).drop index = text.drop index ++ more := List.drop_append_of_le_length hindex
  rw [OccursAt, hdrop]
  exact h.trans (List.prefix_append _ _)

/-- It ends before the text does. -/
theorem OccursAt.le (h : OccursAt needle text index) (hne : needle ≠ []) : index + needle.length ≤ text.length := by
  have hlength := h.length_le
  have hpos := List.length_pos_of_ne_nil hne
  rw [List.length_drop] at hlength
  omega

/-- What ends within a part stands there in the part alone. -/
theorem OccursAt.of_append (h : OccursAt needle (text ++ more) index) (hlength : index + needle.length ≤ text.length) :
    OccursAt needle text index := by
  have hdrop : (text ++ more).drop index = text.drop index ++ more := List.drop_append_of_le_length (by omega)
  rw [OccursAt, hdrop] at h
  refine List.prefix_of_prefix_length_le h (List.prefix_append _ _) ?_
  rw [List.length_drop]
  omega

end Search

section Prefixes

/-- How much of a text may be passed on: all before the marker, or all that no
marker can begin in. -/
def safeLength (buffer : List Char) : ℕ :=
  match find metaMarker buffer with
  | some index => index
  | none => buffer.length - (metaMarker.length - 1)

theorem metaMarker_ne_nil : metaMarker ≠ [] := by decide

/-- No marker begins before that, whatever comes next. -/
theorem safeLength_le_of_occursAt {buffer more : List Char} {index : ℕ} (h : OccursAt metaMarker (buffer ++ more) index) :
    safeLength buffer ≤ index := by
  have hpos : 0 < metaMarker.length := List.length_pos_of_ne_nil metaMarker_ne_nil
  by_cases hinside : index + metaMarker.length ≤ buffer.length
  · have hoccurs := h.of_append hinside
    unfold safeLength
    cases hfind : find metaMarker buffer with
    | none => exact absurd hoccurs (find_eq_none hfind index)
    | some found => exact (find_eq_some hfind).2 index hoccurs
  · unfold safeLength
    cases hfind : find metaMarker buffer with
    | none =>
      dsimp only
      omega
    | some found =>
      have hfound := (find_eq_some hfind).1.le metaMarker_ne_nil
      dsimp only
      omega

/-- It is a length of the text. -/
theorem safeLength_le (buffer : List Char) : safeLength buffer ≤ buffer.length := by
  unfold safeLength
  cases hfind : find metaMarker buffer with
  | none =>
    dsimp only
    omega
  | some found =>
    have hfound := (find_eq_some hfind).1.le metaMarker_ne_nil
    dsimp only
    omega

/-- It only grows with the text. -/
theorem safeLength_append (buffer more : List Char) : safeLength buffer ≤ safeLength (buffer ++ more) := by
  cases hfind : find metaMarker (buffer ++ more) with
  | some index =>
    have hle := safeLength_le_of_occursAt (find_eq_some hfind).1
    have hsafe : safeLength (buffer ++ more) = index := by rw [safeLength, hfind]
    omega
  | none =>
    have hnone : find metaMarker buffer = none := by
      cases hfound : find metaMarker buffer with
      | none => rfl
      | some index =>
        have hoccurs := (find_eq_some hfound).1
        have hle := hoccurs.le metaMarker_ne_nil
        exact absurd (hoccurs.append (by omega) more) (find_eq_none hfind index)
    rw [safeLength, safeLength, hfind, hnone, List.length_append]
    dsimp only
    omega

end Prefixes

section Loop

/-- A delta is what stands in the text from one position to another, before
any marker. -/
def CutsProse (text : List Char) (delta : String) : Prop :=
  ∃ start stop, delta = slice text start stop ∧ start < stop ∧ stop ≤ text.length ∧
    ∀ index, OccursAt metaMarker text index → stop ≤ index

/-- The characters of some deltas. -/
abbrev concatenated (deltas : List String) : List Char := deltas.flatMap String.toList

/-- Neighbouring parts make one. -/
theorem take_append_slice (text : List Char) {start stop : ℕ} (h : start ≤ stop) :
    text.take start ++ (slice text start stop).toList = text.take stop := by
  have hstart : text.take start = (text.take stop).take start := by rw [List.take_take, Nat.min_eq_left h]
  rw [slice, String.toList_ofList, hstart]
  exact List.take_append_drop start (text.take stop)

/-- A part of a text is a part of every longer text. -/
theorem slice_append (text more : List Char) {start stop : ℕ} (h : stop ≤ text.length) :
    slice (text ++ more) start stop = slice text start stop := by
  rw [slice, slice, List.take_append_of_le_length h]

/-- One piece: what is passed on is up to the safe length, and adds to what
was passed on before. -/
theorem receive_spec {s : Streaming} (hs : s.emitted = safeLength s.buffer) (piece : String) (rest : List Char) :
    (receive s piece).2.buffer = s.buffer ++ piece.toList ∧
    (receive s piece).2.emitted = safeLength (s.buffer ++ piece.toList) ∧
    s.buffer.take s.emitted ++ concatenated (receive s piece).1.toList =
      (s.buffer ++ piece.toList).take (safeLength (s.buffer ++ piece.toList)) ∧
    ∀ delta ∈ (receive s piece).1, CutsProse (s.buffer ++ piece.toList ++ rest) delta := by
  have hgrows := safeLength_append s.buffer piece.toList
  have hbound := safeLength_le (s.buffer ++ piece.toList)
  have hbefore : s.buffer.take s.emitted = (s.buffer ++ piece.toList).take s.emitted := by
    have hle := safeLength_le s.buffer
    rw [List.take_append_of_le_length (by omega)]
  have hreceive : receive s piece =
      if s.emitted < safeLength (s.buffer ++ piece.toList) then
        (some (slice (s.buffer ++ piece.toList) s.emitted (safeLength (s.buffer ++ piece.toList))),
          ⟨s.buffer ++ piece.toList, safeLength (s.buffer ++ piece.toList)⟩)
      else (none, ⟨s.buffer ++ piece.toList, s.emitted⟩) := rfl
  by_cases hmore : s.emitted < safeLength (s.buffer ++ piece.toList)
  · rw [hreceive, if_pos hmore]
    refine ⟨rfl, rfl, ?_, fun delta hdelta => ?_⟩
    · have hjoined := take_append_slice (s.buffer ++ piece.toList) (Nat.le_of_lt hmore)
      simp only [Option.toList_some, List.flatMap_cons, List.flatMap_nil, List.append_nil]
      rw [hbefore, hjoined]
    · have hsame : slice (s.buffer ++ piece.toList) s.emitted (safeLength (s.buffer ++ piece.toList)) = delta :=
        Option.some.inj hdelta
      have hslice : slice (s.buffer ++ piece.toList ++ rest) s.emitted (safeLength (s.buffer ++ piece.toList)) =
          slice (s.buffer ++ piece.toList) s.emitted (safeLength (s.buffer ++ piece.toList)) :=
        slice_append (s.buffer ++ piece.toList) rest hbound
      refine ⟨s.emitted, safeLength (s.buffer ++ piece.toList), ?_, hmore, ?_, fun index hoccurs => ?_⟩
      · rw [hslice, hsame]
      · have hlength : (s.buffer ++ piece.toList ++ rest).length = (s.buffer ++ piece.toList).length + rest.length :=
          List.length_append
        omega
      · exact safeLength_le_of_occursAt hoccurs
  · have hequal : s.emitted = safeLength (s.buffer ++ piece.toList) := by omega
    rw [hreceive, if_neg hmore]
    refine ⟨rfl, hequal, ?_, fun delta hdelta => (nomatch hdelta)⟩
    simp only [Option.toList_none, List.flatMap_nil, List.append_nil]
    rw [hbefore, ← hequal]

/-- The loop: after all pieces the text is passed on up to its safe length. -/
theorem receiveAll_spec {s : Streaming} (hs : s.emitted = safeLength s.buffer) (pieces : List String) :
    (receiveAll s pieces).2.emitted = safeLength (s.buffer ++ concatenated pieces) ∧
    s.buffer.take s.emitted ++ concatenated (receiveAll s pieces).1 =
      (s.buffer ++ concatenated pieces).take (safeLength (s.buffer ++ concatenated pieces)) ∧
    ∀ delta ∈ (receiveAll s pieces).1, CutsProse (s.buffer ++ concatenated pieces) delta := by
  induction pieces generalizing s with
  | nil =>
    have hnone : s.buffer ++ concatenated [] = s.buffer := List.append_nil _
    rw [hnone, ← hs]
    exact ⟨rfl, List.append_nil _, fun delta hdelta => absurd hdelta List.not_mem_nil⟩
  | cons piece pieces ih =>
    obtain ⟨hbuffer, hemitted, hjoined, hcuts⟩ := receive_spec hs piece (concatenated pieces)
    have hstart : (receive s piece).2.emitted = safeLength (receive s piece).2.buffer := by rw [hemitted, hbuffer]
    obtain ⟨hrest, hrestJoined, hrestCuts⟩ := ih hstart
    have hall : s.buffer ++ concatenated (piece :: pieces) = (receive s piece).2.buffer ++ concatenated pieces := by
      rw [hbuffer, concatenated, List.flatMap_cons, List.append_assoc]
    have hdeltas : (receiveAll s (piece :: pieces)).1 =
        (receive s piece).1.toList ++ (receiveAll (receive s piece).2 pieces).1 := rfl
    rw [hall]
    refine ⟨hrest, ?_, fun delta hdelta => ?_⟩
    · rw [hdeltas, concatenated, List.flatMap_append, ← List.append_assoc, hjoined, ← hemitted, ← hbuffer]
      exact hrestJoined
    · rw [hdeltas] at hdelta
      rcases List.mem_append.mp hdelta with hfirst | hlater
      · have hcut := hcuts delta (Option.mem_toList.mp hfirst)
        rw [← hbuffer] at hcut
        exact hcut
      · exact hrestCuts delta hlater

end Loop

section ChunkIndependence

/-- The part of a text before the first marker; all of it without one. -/
def prose (text : List Char) : List Char :=
  match find metaMarker text with
  | some index => text.take index
  | none => text

/-- The deltas of a stream: they are the prose of the whole text, each cut out
of it before any marker. -/
theorem deltas_spec (g : Generator) (hits : List GroundingHit) (traceId : String) (pieces : List String) :
    concatenated (answerStream g hits traceId pieces).1 = prose (concatenated pieces) ∧
    ∀ delta ∈ (answerStream g hits traceId pieces).1, CutsProse (concatenated pieces) delta := by
  have hstart : (⟨[], 0⟩ : Streaming).emitted = safeLength (⟨[], 0⟩ : Streaming).buffer := by decide
  obtain ⟨hemitted, hjoined, hcuts⟩ := receiveAll_spec hstart pieces
  have hbuffer := buffer_receiveAll ⟨[], 0⟩ pieces
  rw [List.nil_append] at hbuffer hemitted hjoined hcuts
  have hdeltas : (answerStream g hits traceId pieces).1 =
      (receiveAll ⟨[], 0⟩ pieces).1 ++ flushed (receiveAll ⟨[], 0⟩ pieces).2 := rfl
  have hfirst : concatenated (receiveAll ⟨[], 0⟩ pieces).1 =
      (concatenated pieces).take (safeLength (concatenated pieces)) := hjoined
  have hsum : concatenated (answerStream g hits traceId pieces).1 =
      (concatenated pieces).take (safeLength (concatenated pieces)) ++
        concatenated (flushed (receiveAll ⟨[], 0⟩ pieces).2) := by
    rw [hdeltas, concatenated, List.flatMap_append]
    exact congrArg (· ++ _) hfirst
  rw [hsum, hdeltas, flushed, hbuffer, hemitted]
  cases hfind : find metaMarker (concatenated pieces) with
  | some index =>
    -- the marker was seen: nothing is held back
    have hsafe : safeLength (concatenated pieces) = index := by rw [safeLength, hfind]
    rw [hsafe, prose, hfind]
    exact ⟨List.append_nil _, fun delta hdelta => hcuts delta (by simpa using hdelta)⟩
  | none =>
    have hbound := safeLength_le (concatenated pieces)
    have hnowhere := find_eq_none hfind
    rw [prose, hfind]
    dsimp only
    split
    · next hmore =>
      have hlast := take_append_slice (concatenated pieces) hbound
      refine ⟨?_, fun delta hdelta => ?_⟩
      · simp only [List.flatMap_cons, List.flatMap_nil, List.append_nil]
        rw [hlast, List.take_length]
      · rcases List.mem_append.mp hdelta with hearlier | hheld
        · exact hcuts delta hearlier
        · have hsame := List.mem_singleton.mp hheld
          exact ⟨_, _, hsame, hmore, le_refl _, fun index hoccurs => absurd hoccurs (hnowhere index)⟩
    · next hall =>
      have hfull : safeLength (concatenated pieces) = (concatenated pieces).length :=
        Nat.le_antisymm hbound (Nat.not_lt.mp hall)
      refine ⟨?_, fun delta hdelta => hcuts delta (by simpa using hdelta)⟩
      rw [hfull, List.take_length]
      exact List.append_nil _

/-- The final response is told from the whole text. -/
theorem final_congr (g : Generator) (hits : List GroundingHit) (traceId : String) {pieces others : List String}
    (h : concatenated pieces = concatenated others) :
    (answerStream g hits traceId pieces).2 = (answerStream g hits traceId others).2 := by
  have hpieces := buffer_receiveAll ⟨[], 0⟩ pieces
  have hothers := buffer_receiveAll ⟨[], 0⟩ others
  have hbuffer : (receiveAll ⟨[], 0⟩ pieces).2.buffer = (receiveAll ⟨[], 0⟩ others).2.buffer := by
    rw [hpieces, hothers]
    exact congrArg ([] ++ ·) h
  simp only [answerStream, hbuffer]

/-- However a text is cut into pieces, the deltas are its part before the first
marker, none of them takes in anything of a marker or of what follows one, and
the final response is the same. -/
theorem streaming_chunk_independent (g : Generator) (hits : List GroundingHit) (traceId : String) (text : List Char) :
    ∀ pieces, concatenated pieces = text →
      concatenated (answerStream g hits traceId pieces).1 = prose text ∧
      (∀ delta ∈ (answerStream g hits traceId pieces).1, CutsProse text delta) ∧
      ∀ others, concatenated others = text →
        (answerStream g hits traceId others).2 = (answerStream g hits traceId pieces).2 := by
  intro pieces htext
  obtain ⟨hconcatenated, hcuts⟩ := deltas_spec g hits traceId pieces
  rw [htext] at hconcatenated hcuts
  refine ⟨hconcatenated, hcuts, fun others hothers => final_congr g hits traceId ?_⟩
  rw [hothers, htext]

theorem streaming_chunk_independent_sample :
    concatenated (answerStream sampleGenerator [] "t" ["Ten.###ME", "TA###?"]).1 = "Ten.".toList ∧
    (answerStream sampleGenerator [] "t" ["Ten.###META###?"]).2 =
      (answerStream sampleGenerator [] "t" ["Ten.###ME", "TA###?"]).2 := by
  have htwo : concatenated ["Ten.###ME", "TA###?"] = "Ten.###META###?".toList := by decide +kernel
  have hone : concatenated ["Ten.###META###?"] = "Ten.###META###?".toList := by decide +kernel
  have hprose : prose "Ten.###META###?".toList = "Ten.".toList := by decide +kernel
  have hstream := streaming_chunk_independent sampleGenerator [] "t" "Ten.###META###?".toList _ htwo
  exact ⟨hstream.1.trans hprose, hstream.2.2 _ hone⟩

end ChunkIndependence

end RagSystem.StreamedDeltas
