import Mathlib.Data.List.Nodup
import RagSystem.AnswerGeneration

/-!
# Every answer is grounded or refused

Whatever text the model returns, an answer cites only chunks that were
retrieved, each once, and is called grounded only with a citation and without
a reason against it. A reply that cites nothing is refused, unless reading it
raises what the parser does not catch.
-/

namespace RagSystem.GroundedAnswers

open DocumentModels EvidenceModels QueryModels HybridAnswers JsonValues AnswerGeneration

set_option autoImplicit false

section Citations

variable {candidates : List Citation} {citation : Citation} {seen ids : List String} {chunkId : String}

/-- A looked-up citation is a candidate and bears the id. -/
theorem byChunkId_eq_some (h : byChunkId candidates chunkId = some citation) :
    citation ∈ candidates ∧ chunkIdText citation.chunkId = chunkId := by
  have hmem := List.mem_of_find?_eq_some h
  have hid := List.find?_some h
  exact ⟨List.mem_reverse.mp hmem, of_decide_eq_true hid⟩

/-- A validated citation is a candidate, and its id is a new one that was named. -/
theorem mem_validatedAfter (h : citation ∈ validatedAfter candidates seen ids) :
    citation ∈ candidates ∧ chunkIdText citation.chunkId ∈ ids ∧ chunkIdText citation.chunkId ∉ seen := by
  induction ids generalizing seen with
  | nil => exact absurd h List.not_mem_nil
  | cons id ids ih =>
    unfold validatedAfter at h
    split at h
    · obtain ⟨hcandidate, hnamed, hnew⟩ := ih h
      exact ⟨hcandidate, List.mem_cons_of_mem _ hnamed, hnew⟩
    · next hnew =>
      have hlater : citation ∈ validatedAfter candidates (id :: seen) ids → citation ∈ candidates ∧
          chunkIdText citation.chunkId ∈ id :: ids ∧ chunkIdText citation.chunkId ∉ seen := by
        intro hrest
        obtain ⟨hcandidate, hnamed, hunseen⟩ := ih hrest
        exact ⟨hcandidate, List.mem_cons_of_mem _ hnamed, fun hseen => hunseen (List.mem_cons_of_mem _ hseen)⟩
      split at h
      · next found hfound =>
        rcases List.mem_cons.mp h with hsame | hrest
        · have hfound := byChunkId_eq_some hfound
          rw [← hsame] at hfound
          rw [hfound.2]
          exact ⟨hfound.1, List.mem_cons_self, hnew⟩
        · exact hlater hrest
      · exact hlater h

/-- The validated citations have distinct ids: each id is looked up once. -/
theorem nodup_validatedAfter :
    ((validatedAfter candidates seen ids).map fun citation => chunkIdText citation.chunkId).Nodup := by
  induction ids generalizing seen with
  | nil => exact List.nodup_nil
  | cons id ids ih =>
    unfold validatedAfter
    split
    · exact ih
    · split
      · next found hfound =>
        have hid := (byChunkId_eq_some hfound).2
        rw [List.map_cons, List.nodup_cons, hid]
        refine ⟨fun hagain => ?_, ih⟩
        obtain ⟨other, hother, hsame⟩ := List.mem_map.mp hagain
        have hunseen := (mem_validatedAfter hother).2.2
        rw [hsame] at hunseen
        exact hunseen List.mem_cons_self
      · exact ih

end Citations

section Responses

variable (g : Generator) (hits : List GroundingHit) (traceId : String)

/-- What an answer rests on. -/
structure Supported (r : QueryResponse) : Prop where
  /-- It cites chunks of the hits. -/
  cited : ∀ citation ∈ r.citations, ∃ hit ∈ hits, citation = citationOf hit
  /-- It cites each of them once. -/
  distinct : (r.citations.map fun citation => chunkIdText citation.chunkId).Nodup
  /-- It is grounded only with a citation, and with no reason against it. -/
  grounded : r.evidenceStatus = "grounded" → r.citations ≠ [] ∧ isReason r.insufficientEvidenceReason = false

/-- The outcome for a reply that supports nothing. -/
structure Refused (r : QueryResponse) : Prop where
  /-- Nothing is cited. -/
  uncited : r.citations = []
  /-- The status says so. -/
  insufficient : r.evidenceStatus = "insufficient_evidence"

variable {g hits traceId}

/-- The status is one of three, by what is cited. -/
theorem evidenceStatus_of_nil (reason : Option String) : evidenceStatus hits [] reason = "insufficient_evidence" := by
  simp [evidenceStatus]

/-- Every built response is supported. -/
theorem supported_groundedResponse (answerText : String) (v : Verdict) (avgLogprob : Option ℚ) :
    Supported hits (groundedResponse g hits traceId answerText v avgLogprob) := by
  refine ⟨fun citation hcitation => ?_, nodup_validatedAfter, fun hgrounded => ?_⟩
  · have hcandidate := (mem_validatedAfter hcitation).1
    obtain ⟨hit, hin, hsame⟩ := List.mem_map.mp hcandidate
    exact ⟨hit, hin, hsame.symm⟩
  · have hstatus : evidenceStatus hits (validateCitations (hits.map citationOf) v.usedChunkIds) v.insufficientReason =
        "grounded" := hgrounded
    unfold evidenceStatus at hstatus
    split at hstatus
    · exact absurd hstatus (by decide)
    · split at hstatus
      · next hboth => exact hboth
      · split at hstatus
        · exact absurd hstatus (by decide)
        · exact absurd hstatus (by decide)

/-- A verdict that names nothing is refused. -/
theorem refused_groundedResponse {v : Verdict} (hnone : v.usedChunkIds = []) (answerText : String)
    (avgLogprob : Option ℚ) : Refused (groundedResponse g hits traceId answerText v avgLogprob) := by
  have hcitations : validateCitations (hits.map citationOf) v.usedChunkIds = [] := by
    rw [hnone]
    rfl
  refine ⟨hcitations, ?_⟩
  show evidenceStatus hits (validateCitations (hits.map citationOf) v.usedChunkIds) v.insufficientReason = _
  rw [hcitations]
  exact evidenceStatus_of_nil v.insufficientReason

end Responses

section Replies

variable {g : Generator} {hits : List GroundingHit} {traceId : String}

/-- Reading the reply raises nothing but that it is no JSON. -/
def Readable (g : Generator) (reply : String) : Prop := ∀ message, g.loads (stripped reply) ≠ .error (.raised message)

/-- The reply is no JSON object, or one that names no chunk. -/
def Uncited (g : Generator) (reply : String) : Prop :=
  ∀ payload, g.loads (stripped reply) = .ok (.dict payload) → extractUsedCitationIds g payload = []

/-- What comes of a reply: a response is supported, and a reply that cites
nothing gives one that is refused. -/
structure Honest (hits : List GroundingHit) (uncited : Prop) (outcome : Except LoadsError QueryResponse) : Prop where
  /-- What is answered. -/
  supported : ∀ r, outcome = .ok r → Supported hits r
  /-- What is not. -/
  refused : uncited → ∃ r, outcome = .ok r ∧ Refused r

/-- A readable reply is parsed, to an object that names what it cites or to none. -/
theorem parse_of_readable {reply : String} (h : Readable g reply) :
    ∃ parsed, parseStructuredAnswer g reply = .ok parsed ∧ (Uncited g reply → (verdict g parsed).usedChunkIds = []) := by
  unfold parseStructuredAnswer
  split
  · next payload hloads => exact ⟨some payload, rfl, fun huncited => huncited payload hloads⟩
  · exact ⟨none, rfl, fun _ => rfl⟩
  · exact ⟨none, rfl, fun _ => rfl⟩
  · next message hloads => exact absurd hloads (h message)

/-- One that is not lets the exception through. -/
theorem parse_of_not_readable {reply : String} (h : ¬ Readable g reply) :
    Uncited g reply ∧ ∃ message, parseStructuredAnswer g reply = .error (.raised message) := by
  obtain ⟨message, hraised⟩ := not_forall.mp h
  have hloads := not_not.mp hraised
  refine ⟨fun payload hpayload => ?_, message, ?_⟩
  · rw [hloads] at hpayload
    contradiction
  · rw [parseStructuredAnswer, hloads]

/-- What was parsed is answered honestly. -/
theorem honest_of_parsed {parsed : Option (List (String × JsonValue))} {uncited : Prop}
    (hnone : uncited → (verdict g parsed).usedChunkIds = []) (answerText : String) (avgLogprob : Option ℚ) :
    Honest hits uncited (.ok (groundedResponse g hits traceId answerText (verdict g parsed) avgLogprob)) := by
  constructor
  · intro r hr
    rw [← Except.ok.inj hr]
    exact supported_groundedResponse answerText _ avgLogprob
  · intro huncited
    exact ⟨_, rfl, refused_groundedResponse (hnone huncited) answerText avgLogprob⟩

/-- A reply that cites nothing and raises is not. -/
theorem not_honest_of_error {uncited : Prop} (huncited : uncited) (e : LoadsError) : ¬ Honest hits uncited (.error e) := by
  intro honest
  obtain ⟨r, hr, _⟩ := honest.refused huncited
  exact nomatch hr

/-- Receiving a piece keeps every character. -/
theorem buffer_receive (s : Streaming) (piece : String) : (receive s piece).2.buffer = s.buffer ++ piece.toList := by
  simp only [receive]
  split
  · split
    · rfl
    · rfl
  · split
    · rfl
    · rfl

/-- So do all of them. -/
theorem buffer_receiveAll (s : Streaming) (pieces : List String) :
    (receiveAll s pieces).2.buffer = s.buffer ++ pieces.flatMap String.toList := by
  induction pieces generalizing s with
  | nil => simp [receiveAll]
  | cons piece pieces ih =>
    have hrest := ih (receive s piece).2
    rw [buffer_receive, List.append_assoc] at hrest
    rw [List.flatMap_cons]
    exact hrest

/-- The final response of a stream is told from the whole text alone. -/
theorem answerStream_response (g : Generator) (hits : List GroundingHit) (traceId : String) {pieces : List String} {metaRaw : String}
    (hmeta : (splitAtMarker (pieces.flatMap String.toList)).2 = metaRaw) :
    ∃ answerText, (answerStream g hits traceId pieces).2 = (parseMetadata g metaRaw).bind fun parsed =>
      .ok (groundedResponse g hits traceId answerText (verdict g parsed) none) := by
  have hbuffer := buffer_receiveAll ⟨[], 0⟩ pieces
  rw [List.nil_append] at hbuffer
  refine ⟨orNoEvidence (splitAtMarker (pieces.flatMap String.toList)).1, ?_⟩
  rw [← hmeta, ← hbuffer]
  rfl

/-- For every text the model may return, blocking or in pieces however cut, and
every list of hits: what is answered is grounded or refused exactly when
reading the reply raises nothing that is not caught. -/
theorem answers_grounded_or_refused (g : Generator) (hits : List GroundingHit) (traceId : String) :
    (∀ rawAnswer avgLogprob,
      Honest hits (Uncited g rawAnswer) (answer g hits traceId rawAnswer avgLogprob) ↔ Readable g rawAnswer) ∧
    ∀ pieces metaRaw, (splitAtMarker (pieces.flatMap String.toList)).2 = metaRaw →
      (Honest hits (metaRaw ≠ "" → Uncited g metaRaw) (answerStream g hits traceId pieces).2 ↔
        (metaRaw ≠ "" → Readable g metaRaw)) := by
  refine ⟨fun rawAnswer avgLogprob => ?_, fun pieces metaRaw hmeta => ?_⟩
  · by_cases hreadable : Readable g rawAnswer
    · obtain ⟨parsed, hparsed, hnone⟩ := parse_of_readable hreadable
      rw [answer, hparsed]
      exact ⟨fun _ => hreadable, fun _ => honest_of_parsed hnone _ avgLogprob⟩
    · obtain ⟨huncited, message, hraised⟩ := parse_of_not_readable hreadable
      rw [answer, hraised]
      exact ⟨fun honest => absurd honest (not_honest_of_error huncited _), fun h => absurd h hreadable⟩
  · obtain ⟨answerText, hresponse⟩ := answerStream_response g hits traceId hmeta
    rw [hresponse, parseMetadata]
    by_cases hempty : metaRaw = ""
    · rw [if_neg (not_not.mpr hempty)]
      exact ⟨fun _ h => absurd hempty h, fun _ => honest_of_parsed (fun _ => rfl) answerText none⟩
    · rw [if_pos hempty]
      by_cases hreadable : Readable g metaRaw
      · obtain ⟨parsed, hparsed, hnone⟩ := parse_of_readable hreadable
        rw [hparsed]
        exact ⟨fun _ _ => hreadable, fun _ => honest_of_parsed (fun h => hnone (h hempty)) answerText none⟩
      · obtain ⟨huncited, message, hraised⟩ := parse_of_not_readable hreadable
        rw [hraised]
        exact ⟨fun honest => absurd honest (not_honest_of_error (fun _ => huncited) _), fun h => absurd (h hempty) hreadable⟩

section Sample

/-- A reply that is one integer of so many digits. -/
def ones (digits : ℕ) : String := String.ofList (List.replicate digits '1')

/-- A generator whose reader goes by the digits: it refuses too many of them,
and here reads nothing else. -/
def sampleGenerator : Generator where
  loads := fun text => if 4300 < (text.toList.filter Char.isDigit).length
    then .error (.raised "Exceeds the limit (4300 digits) for integer string conversion: value has 4301 digits")
    else .error .jsonDecode
  lower := fun s => s
  quoted := fun s => "'" ++ s ++ "'"
  exp := fun x => x
  mapClaims := fun _ _ _ => .ok ⟨[], false⟩

theorem answers_grounded_or_refused_sample :
    Honest [] ("?" ≠ "" → Uncited sampleGenerator "?") (answerStream sampleGenerator [] "t" ["Ten.###ME", "TA###?"]).2 := by
  have hshort : ((stripped "?").toList.filter Char.isDigit).length = 0 := by decide +kernel
  have hreadable : Readable sampleGenerator "?" := by
    intro message
    simp [sampleGenerator, hshort]
  have hmeta : (splitAtMarker (["Ten.###ME", "TA###?"].flatMap String.toList)).2 = "?" := by decide +kernel
  have hstream := (answers_grounded_or_refused sampleGenerator [] "t").2 ["Ten.###ME", "TA###?"] "?" hmeta
  exact hstream.mpr fun _ => hreadable

/-- The reply is read as it is: there is no fence among ones. -/
theorem stripped_ones (n : ℕ) : stripped (ones n) = ones n := by
  have hdrop : (List.replicate n '1').dropWhile isSpace = List.replicate n '1' := by
    cases n with
    | zero => rfl
    | succ n => rfl
  have hstrip : TolerantJson.strip (List.replicate n '1') = List.replicate n '1' := by
    rw [TolerantJson.strip, hdrop, List.reverse_replicate, hdrop, List.reverse_replicate]
  have hfence : ¬ TolerantJson.TwiceFenced (List.replicate n '1') := by
    rintro ⟨front, middle, back, htext⟩
    have hin : Char.ofNat 96 ∈ List.replicate n '1' := by
      rw [htext]
      simp [TolerantJson.fence]
    exact absurd (List.eq_of_mem_replicate hin) (by decide)
  rw [stripped, ones, String.toList_ofList, TolerantJson.unfenced, hstrip, TolerantJson.fencedGroup_eq_none.mpr hfence]

/-- With too many digits it cannot be read. -/
theorem not_readable_ones {n : ℕ} (hn : 4300 < n) : ¬ Readable sampleGenerator (ones n) := by
  have hdigits : ((ones n).toList.filter Char.isDigit).length = n := by
    rw [ones, String.toList_ofList, List.filter_replicate_of_pos (by decide), List.length_replicate]
  intro hreadable
  apply hreadable
  rw [stripped_ones]
  simp only [sampleGenerator, hdigits, if_pos hn]
  rfl

/-- A reply that is one long integer names no chunk, and is not refused. -/
theorem long_integer_raises :
    ¬ Honest [] (Uncited sampleGenerator (ones 4301)) (answer sampleGenerator [] "t" (ones 4301) none) := by
  obtain ⟨huncited, message, hraised⟩ := parse_of_not_readable (not_readable_ones (n := 4301) (by omega))
  rw [answer, hraised]
  exact not_honest_of_error huncited _

end Sample

end Replies

end RagSystem.GroundedAnswers
