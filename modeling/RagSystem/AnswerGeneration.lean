import RagSystem.HybridAnswers
import RagSystem.JsonValues
import RagSystem.TolerantJson

/-!
# Grounded answers

What the generator makes of the text the model returned: the reply is read as
JSON, the citations it names are looked up among the retrieved hits, and the
status and the confidence of the answer follow. The streamed form passes the
prose on piece by piece and reads the metadata after the marker. The prompts
are not part of the model: whatever is asked, the model may return any text.
-/

namespace RagSystem.AnswerGeneration

open DocumentModels EvidenceModels QueryModels HybridAnswers JsonValues

set_option autoImplicit false

/-- A hit with the fields of its chunk that a citation shows. -/
structure GroundingHit extends RetrievalHit where
  /-- The first page of the chunk. -/
  pageStart : Option ℤ := none
  /-- Its last page. -/
  pageEnd : Option ℤ := none
  /-- The `source_filename` of its metadata. -/
  sourceFilename : Option String := none

/-- `ClaimMappingResult`, as far as an answer carries it. -/
structure ClaimMappingResult where
  /-- The claims. -/
  claims : List Claim
  /-- They could not be told apart. -/
  decompositionFailed : Bool

/-- What a generator takes from Python's library, and its claim mapper. -/
structure Generator where
  /-- `json.loads`. -/
  loads : String → Except LoadsError JsonValue
  /-- `str.lower`. -/
  lower : String → String
  /-- `repr` of a string. -/
  quoted : String → String
  /-- `math.exp`. -/
  exp : ℚ → ℚ
  /-- `map_claims`. -/
  mapClaims : String → List GroundingHit → String → Except String ClaimMappingResult

section Texts

/-- `text.find(needle)`. -/
def find (needle : List Char) : List Char → Option ℕ
  | [] => if needle = [] then some 0 else none
  | c :: cs => if needle.isPrefixOf (c :: cs) then some 0 else (find needle cs).map (· + 1)

/-- `META_MARKER`. -/
def metaMarker : List Char := ['#', '#', '#', 'M', 'E', 'T', 'A', '#', '#', '#']

end Texts

section Parsing

variable (g : Generator)

/-- The text that is read as JSON: what the first fenced block holds, if there is one. -/
def stripped (text : String) : String := String.ofList (TolerantJson.unfenced text.toList)

/-- `_parse_structured_answer`: of all exceptions only `JSONDecodeError` is caught. -/
def parseStructuredAnswer (text : String) : Except LoadsError (Option (List (String × JsonValue))) :=
  match g.loads (stripped text) with
  | .ok (.dict payload) => .ok (some payload)
  | .ok _ => .ok none
  | .error .jsonDecode => .ok none
  | .error (.raised message) => .error (.raised message)

/-- The ids the reply names, of whatever type they are. -/
def rawCitationIds (payload : List (String × JsonValue)) : List JsonValue :=
  match (get payload "used_citation_ids").getD ((get payload "used_citations").getD (.list [])) with
  | .null => []
  | .list items => items
  | rawId => [rawId]

/-- `_extract_used_citation_ids`. -/
def extractUsedCitationIds (payload : List (String × JsonValue)) : List String :=
  ((rawCitationIds payload).map fun rawId => strip (rawId.text g.quoted)).filter (· ≠ "")

/-- `_normalise_confidence`. -/
def normaliseConfidence (value : JsonValue) : String :=
  let confidence := g.lower (strip (textOr g.quoted value "medium"))
  if confidence ∈ ["high", "medium", "low"] then confidence else "medium"

/-- What a reply says about the evidence. -/
structure Verdict where
  /-- The chunks it names. -/
  usedChunkIds : List String
  /-- How sure it is. -/
  confidence : String
  /-- Why the evidence is not enough. -/
  insufficientReason : Option String

/-- The reply could not be read: no citation is verified. -/
def unverified : Verdict where
  usedChunkIds := []
  confidence := "low"
  insufficientReason := some
    "Model response could not be validated against the required schema, so no citations were verified."

/-- The reply was read. -/
def verdictOf (payload : List (String × JsonValue)) : Verdict :=
  let reason := getOrNull payload "insufficient_evidence_reason"
  { usedChunkIds := extractUsedCitationIds g payload
    confidence := normaliseConfidence g (getOrNull payload "confidence")
    insufficientReason := if reason.truthy then some (strip (reason.text g.quoted)) else none }

/-- Of a reply that was read or not. -/
def verdict : Option (List (String × JsonValue)) → Verdict
  | some payload => verdictOf g payload
  | none => unverified

end Parsing

section Citations

/-- The citation of a hit. -/
def citationOf (hit : GroundingHit) : Citation :=
  ⟨hit.chunk.documentId, hit.chunk.id, hit.pageStart, hit.pageEnd, hit.sourceFilename⟩

/-- `by_chunk_id.get(chunk_id)`: of several candidates the last one counts. -/
def byChunkId (candidates : List Citation) (chunkId : String) : Option Citation :=
  candidates.reverse.find? fun citation => chunkIdText citation.chunkId = chunkId

/-- The loop of `_validate_citations`, after the ids of `seen`. -/
def validatedAfter (candidates : List Citation) (seen : List String) : List String → List Citation
  | [] => []
  | chunkId :: rest =>
    if chunkId ∈ seen then validatedAfter candidates seen rest
    else match byChunkId candidates chunkId with
      | some citation => citation :: validatedAfter candidates (chunkId :: seen) rest
      | none => validatedAfter candidates (chunkId :: seen) rest

/-- `_validate_citations`. -/
def validateCitations (candidates : List Citation) (usedChunkIds : List String) : List Citation :=
  validatedAfter candidates [] usedChunkIds

/-- A reason that is there and not empty. -/
def isReason (reason : Option String) : Bool := reason.any (· ≠ "")

/-- `_evidence_status`. -/
def evidenceStatus (hits : List GroundingHit) (citations : List Citation) (insufficientReason : Option String) : String :=
  if hits = [] then "insufficient_evidence"
  else if citations ≠ [] ∧ isReason insufficientReason = false then "grounded"
  else if citations ≠ [] then "partially_grounded"
  else "insufficient_evidence"

end Citations

section Confidence

variable (g : Generator)

/-- `_EVIDENCE_BASE`, with its default. -/
def evidenceBase (status : String) : ℚ :=
  if status = "grounded" then 85 / 100
  else if status = "partially_grounded" then 6 / 10
  else if status = "no_rows" then 3 / 10
  else if status = "insufficient_evidence" then 15 / 100
  else 4 / 10

/-- `_LABEL_SCORE`. -/
def labelScore (label : String) : Option ℚ :=
  if label = "high" then some (9 / 10)
  else if label = "medium" then some (6 / 10)
  else if label = "low" then some (3 / 10)
  else none

/-- `_weighted_average`: scores that are missing do not count. -/
def weightedAverage (components : List (Option ℚ × ℚ)) : Option ℚ :=
  let present := components.filterMap fun (score, weight) => if 0 < weight then score.map (·, weight) else none
  if present = [] then none
  else some ((present.map fun (score, weight) => score * weight).sum / (present.map Prod.snd).sum)

/-- `_label_component`. -/
def labelComponent (label : String) : Option ℚ := if label = "" then none else labelScore (g.lower (strip label))

/-- `_retrieval_component`. -/
def retrievalComponent (retrievalScores : List ℚ) (citationCount hitCount : ℕ) : Option ℚ :=
  if hitCount = 0 then none
  else
    let normalised := retrievalScores.map fun score => clamp score 0 1
    let meanScore := if normalised = [] then 0 else normalised.sum / normalised.length
    some (5 / 10 * meanScore + 5 / 10 * clamp (citationCount / hitCount) 0 1)

/-- `rag_confidence_score`. -/
def ragConfidenceScore (status confidence : String) (retrievalScores : List ℚ) (citationCount hitCount : ℕ)
    (hasInsufficientReason : Bool) (avgLogprob : Option ℚ) : ℚ :=
  let components :=
    [(some (evidenceBase (g.lower (strip status))), 40 / 100), (labelComponent g confidence, 20 / 100),
      (retrievalComponent retrievalScores citationCount hitCount, 25 / 100),
      (avgLogprob.map fun logprob => clamp (g.exp logprob) 0 1, 15 / 100)]
  let score := (weightedAverage components).getD (4 / 10)
  let score := if hasInsufficientReason then min score (35 / 100) else score
  roundThree (clamp score minScore maxScore)

end Confidence

section Answers

variable (g : Generator)

/-- `_run_claim_mapping`: a mapper that raises has failed. -/
def runClaimMapping (answerText : String) (hits : List GroundingHit) (traceId : String) : ClaimMappingResult :=
  match g.mapClaims answerText hits traceId with
  | .ok result => result
  | .error _ => ⟨[], true⟩

/-- The text of an answer without one. -/
def noEvidenceText : String := "The available documents do not contain enough evidence."

/-- The response to an answer text and the verdict that came with it. -/
def groundedResponse (hits : List GroundingHit) (traceId answerText : String) (v : Verdict) (avgLogprob : Option ℚ) :
    QueryResponse :=
  let citations := validateCitations (hits.map citationOf) v.usedChunkIds
  let status := evidenceStatus hits citations v.insufficientReason
  let scores := hits.map fun hit => hit.score
  let claimResult := runClaimMapping g answerText hits traceId
  { answer := answerText
    citations
    evidenceStatus := status
    traceId
    confidence := some v.confidence
    confidenceScore := some (ragConfidenceScore g status v.confidence scores citations.length hits.length
      (isReason v.insufficientReason) avgLogprob)
    insufficientEvidenceReason := v.insufficientReason
    claims := claimResult.claims
    claimDecompositionFailed := claimResult.decompositionFailed
    retrievalScores := scores }

/-- `text or` the text without evidence. -/
def orNoEvidence (text : String) : String := if text = "" then noEvidenceText else text

/-- `answer`, on what the model returned: its text, and the average log
probability of its tokens where that is known. -/
def answer (hits : List GroundingHit) (traceId rawAnswer : String) (avgLogprob : Option ℚ) :
    Except LoadsError QueryResponse := do
  let parsed ← parseStructuredAnswer g rawAnswer
  let answerText := match parsed with
    | none => orNoEvidence (strip rawAnswer)
    | some payload => orNoEvidence (strip (textOr g.quoted (getOrNull payload "answer") ""))
  pure (groundedResponse g hits traceId answerText (verdict g parsed) avgLogprob)

/-- The characters of a text from one position to another. -/
def slice (text : List Char) (start stop : ℕ) : String := String.ofList ((text.take stop).drop start)

/-- What a stream has received, and how much of it has been passed on. -/
structure Streaming where
  /-- Everything received. -/
  buffer : List Char
  /-- The characters passed on. -/
  emitted : ℕ

/-- One piece of the stream, and the text that is passed on. Without a marker
the last characters are held back, as one may begin there. -/
def receive (s : Streaming) (piece : String) : Option String × Streaming :=
  let buffer := s.buffer ++ piece.toList
  let safe := match find metaMarker buffer with
    | some index => index
    | none => buffer.length - (metaMarker.length - 1)
  if s.emitted < safe then (some (slice buffer s.emitted safe), ⟨buffer, safe⟩) else (none, ⟨buffer, s.emitted⟩)

/-- The loop over the pieces: the deltas, and where it stops. -/
def receiveAll (s : Streaming) : List String → List String × Streaming
  | [] => ([], s)
  | piece :: pieces =>
    let (delta, s) := receive s piece
    let (deltas, s) := receiveAll s pieces
    (delta.toList ++ deltas, s)

/-- The prose and the metadata of a stream that has ended. -/
def splitAtMarker (buffer : List Char) : String × String :=
  match find metaMarker buffer with
  | some index =>
    (strip (String.ofList (buffer.take index)), strip (String.ofList (buffer.drop (index + metaMarker.length))))
  | none => (strip (String.ofList buffer), "")

/-- What a stream without a marker still held back. -/
def flushed (s : Streaming) : List String :=
  match find metaMarker s.buffer with
  | some _ => []
  | none => if s.emitted < s.buffer.length then [slice s.buffer s.emitted s.buffer.length] else []

/-- The reply a stream carried after its marker. -/
def parseMetadata (metaRaw : String) : Except LoadsError (Option (List (String × JsonValue))) :=
  if metaRaw ≠ "" then parseStructuredAnswer g metaRaw else .ok none

/-- `answer_stream`, on the pieces the model streamed: the deltas, and the
final response. -/
def answerStream (hits : List GroundingHit) (traceId : String) (pieces : List String) :
    List String × Except LoadsError QueryResponse :=
  let (deltas, s) := receiveAll ⟨[], 0⟩ pieces
  let (answerText, metaRaw) := splitAtMarker s.buffer
  (deltas ++ flushed s, do
    let parsed ← parseMetadata g metaRaw
    pure (groundedResponse g hits traceId (orNoEvidence answerText) (verdict g parsed) none))

end Answers

end RagSystem.AnswerGeneration
