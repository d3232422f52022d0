import Mathlib.Data.List.ProdSigma
import RagSystem.Abstention
import RagSystem.FollowUpRewrites
import RagSystem.GatheredResults

/-!
# Answers mapped to claims

An answer is decomposed by the text model into statements, and each of the first of
them is verified against each of the first hits, in a pool of threads. Whatever the
model replies, it is read by guarded coercions; but an offset that is infinite and a
reply that is nested too deeply escape them.
-/

namespace RagSystem.ClaimMapping

open DocumentModels EvidenceModels Abstention ModelReplies GatheredResults
open FollowUpRewrites (Generated)

set_option autoImplicit false

/-! ## The code -/

/-- `MAX_EVIDENCE_ITEMS`. -/
def maxEvidenceItems : ℕ := 100

/-- `MAX_CLAIMS`. -/
def maxClaims : ℕ := 100

/-- `ClaimMappingResult`. -/
structure ClaimMappingResult where
  /-- `claims`. -/
  claims : List Claim := []
  /-- `decomposition_failed`. -/
  decompositionFailed : Bool := false
  /-- `conflicting_claim_ids`. -/
  conflictingClaimIds : Finset String := ∅

/-- `_DecomposedClaim`, with the offsets as they were read. -/
structure DecomposedClaim where
  /-- `text`. -/
  text : PyStr
  /-- `start`. -/
  start : Value
  /-- `end`. -/
  stop : Value

/-- `_VerificationOutcome`. -/
structure VerificationOutcome where
  /-- `verification_result`. -/
  verificationResult : VerificationResult
  /-- `coverage`. -/
  coverage : EvidenceCoverage
  /-- `covered_subclaims`. -/
  coveredSubclaims : List ℤ := []

/-- `_UNDETERMINED`. -/
def undetermined : VerificationOutcome := { verificationResult := .undetermined, coverage := .none }

/-- A pair that is verified, with its indexes. -/
structure Task where
  /-- `claim_index`. -/
  claimIndex : ℕ
  /-- `hit_index`. -/
  hitIndex : ℕ
  /-- `claim_text`. -/
  claimText : PyStr
  /-- `hit`. -/
  hit : RetrievalHit

/-- The key of its result. -/
def Task.key (task : Task) : ℕ × ℕ := (task.claimIndex, task.hitIndex)

/-- `ClaimMapper`: its runtime, and what the model replies to its prompts. -/
structure ClaimMapper where
  /-- The runtime. -/
  python : Python
  /-- `int` of a string; none where it raises. -/
  intOfText : PyStr → Option ℤ
  /-- `hashlib.sha256(…).hexdigest()` of a text in UTF-8. -/
  hexdigest : List Char → List Char
  /-- `_llm.generate` of the prompt to decompose an answer. -/
  decomposition : PyStr → Generated
  /-- `_llm.generate` of the prompt to verify a pair. -/
  verification : Task → Generated

/-- The text that is hashed. -/
def claimSeed (traceId : List Char) (claimIndex : ℕ) : List Char := traceId ++ ':' :: PythonNumbers.intText claimIndex

variable (mapper : ClaimMapper)

/-- `derive_claim_id`. -/
def deriveClaimId (traceId : List Char) (claimIndex : ℕ) : String :=
  String.ofList ("claim-".toList ++ (mapper.hexdigest (claimSeed traceId claimIndex)).take 16)

/-- `classify_evidence_status`. -/
def classifyEvidenceStatus (items : List EvidenceItem) : EvidenceStatus :=
  if items = [] then .unsupported
  else if items.any fun item => item.verificationResult = .entails ∧ item.coverage = .full then .supported
  else if items.any fun item => item.verificationResult = .entails ∧ item.coverage = .partially then .partiallySupported
  else if items.all fun item => item.verificationResult = .undetermined then .verificationUnavailable
  else .unsupported

/-- `_parse_json_object`. -/
def parseJsonObject (text : List Char) : Except PyError (Option (List (PyStr × Value))) :=
  match mapper.python.loads (TolerantJson.unfenced text) with
  | .value (.dict payload) => .ok (some payload)
  | .value _ => .ok none
  | .refused => .ok none
  | .exhausted => .error .recursionError

/-- The entries of `_parse_decomposition`: one that is no dict fails them all, one without a text is left out. -/
def parseEntries : List Value → Option (List DecomposedClaim)
  | [] => some []
  | .dict entry :: entries =>
    match get entry "text" with
    | some (.str text) =>
      if stripStr text = [] then parseEntries entries
      else (parseEntries entries).map
        (⟨stripStr text, (get entry "start").getD (.int 0), (get entry "end").getD (.int 0)⟩ :: ·)
    | _ => parseEntries entries
  | _ :: _ => none

/-- `_parse_decomposition`. -/
def parseDecomposition (text : List Char) : Except PyError (Option (List DecomposedClaim)) := do
  match ← parseJsonObject mapper text with
  | none => pure none
  | some payload =>
    match get payload "claims" with
    | some (.list entries) => pure (parseEntries entries)
    | _ => pure none

/-- `_decompose`: the statements, and whether it failed. -/
def decompose (answer : PyStr) : Except PyError (List DecomposedClaim × Bool) :=
  match mapper.decomposition answer with
  | .raised _ => .ok ([], true)
  | .text raw => do
    match ← parseDecomposition mapper raw with
    | none => pure ([], true)
    | some parsed => pure (parsed, false)

/-- `VerificationResult(value)`; none where it raises. -/
def verificationResultOf : Value → Option VerificationResult
  | .str text =>
    if text = py "entails" then some .entails
    else if text = py "does_not_entail" then some .doesNotEntail
    else if text = py "undetermined" then some .undetermined
    else none
  | _ => none

/-- `EvidenceCoverage(value)`; none where it raises. -/
def coverageOf : Value → Option EvidenceCoverage
  | .str text =>
    if text = py "full" then some .full
    else if text = py "partial" then some .partially
    else if text = py "none" then some .none
    else none
  | _ => none

/-- The integers of a list; a boolean is none. -/
def subclaimsOf : Option Value → List ℤ
  | some (.list values) => values.filterMap fun
    | .int value => some value
    | _ => none
  | _ => []

/-- `_parse_verification`. -/
def parseVerification (text : List Char) : Except PyError (Option VerificationOutcome) := do
  match ← parseJsonObject mapper text with
  | none => pure none
  | some payload =>
    match (get payload "verification_result").bind verificationResultOf, (get payload "coverage").bind coverageOf with
    | some result, some coverage => pure (some ⟨result, coverage, subclaimsOf (get payload "covered_subclaims")⟩)
    | _, _ => pure none

/-- `_verify_pair`. -/
def verifyPair (task : Task) : Except PyError VerificationOutcome :=
  match mapper.verification task with
  | .raised _ => .ok undetermined
  | .text raw => do
    let outcome ← parseVerification mapper raw
    pure (outcome.getD undetermined)

/-- The passage of a hit. -/
def passageOf (hit : RetrievalHit) : EvidenceSource :=
  .document ⟨hit.chunk.text, 0, hit.chunk.text.length, hit.chunk.documentId, hit.chunk.version⟩

/-- `_verify_hit`. -/
def verifyHit (task : Task) : Except PyError EvidenceItem := do
  let outcome ← verifyPair mapper task
  pure ⟨passageOf task.hit, outcome.verificationResult, outcome.coverage, outcome.coveredSubclaims⟩

/-- `int(value)`. -/
def intOf : Value → Except PyError ℤ
  | .none => .error .typeError
  | .bool value => .ok value.toInt
  | .int value => .ok value
  | .float (.finite negative n) => .ok (signedUnits negative (n.val / Doubles.unitsOfOne))
  | .float (.infinity _) => .error .overflowError
  | .float .nan => .error .valueError
  | .str text =>
    match mapper.intOfText text with
    | some value => .ok value
    | none => .error .valueError
  | .list _ => .error .typeError
  | .dict _ => .error .typeError

/-- An offset; what raises a `TypeError` or a `ValueError` has a default. -/
def offsetOf (value : Value) (default : ℤ) : Except PyError ℤ :=
  match intOf mapper value with
  | .error .typeError => .ok default
  | .error .valueError => .ok default
  | read => read

/-- `max(0, min(offset, answer_len))`. -/
def clampOffset (offset : ℤ) (answerLen : ℕ) : ℕ := (max 0 (min offset answerLen)).toNat

/-- The span of two clamped offsets. -/
def spanOf (start stop : ℕ) : AnswerSpan where
  first := start
  last := if stop < start then start else stop
  ordered := by
    split
    · exact le_rfl
    · next h => exact not_lt.mp h

/-- `_clamp_span`. -/
def clampSpan (start stop : Value) (answerLen : ℕ) : Except PyError AnswerSpan := do
  let start ← offsetOf mapper start 0
  let stop ← offsetOf mapper stop answerLen
  pure (spanOf (clampOffset start answerLen) (clampOffset stop answerLen))

/-- `tasks`: the pairs, claim by claim. -/
def tasksOf (decomposed : List DecomposedClaim) (candidateHits : List RetrievalHit) : List Task :=
  decomposed.zipIdx.flatMap fun raw => candidateHits.zipIdx.map fun hit => ⟨raw.2, hit.2, raw.1.text, hit.1⟩

/-- The constructor `Claim`, with the status of its evidence. -/
def claimOf (claimId : String) (text : PyStr) (span : AnswerSpan) (items : List EvidenceItem) : Claim :=
  ⟨claimId, text, span, items, classifyEvidenceStatus items⟩

/-- The evidence of a claim, in the order of the hits. -/
def evidenceOf (verified : List ((ℕ × ℕ) × EvidenceItem)) (claimIndex hits : ℕ) : Except PyError (List EvidenceItem) :=
  (List.range hits).mapM fun hitIndex =>
    match verified.lookup (claimIndex, hitIndex) with
    | some item => .ok item
    | none => .error .keyError

/-- What is returned with some claims. -/
def resultOf (claims : List Claim) : ClaimMappingResult where
  claims := claims
  conflictingClaimIds := ((claims.filter hasConflictingEvidence).map Claim.claimId).toFinset

/-- `map_claims`, where the verifications are complete in some order. -/
def mapClaims (completed : List Task → List Task) (answer : PyStr) (hits : List RetrievalHit) (traceId : List Char) :
    Except PyError ClaimMappingResult := do
  let (decomposed, failed) ← decompose mapper answer
  if failed then pure { decompositionFailed := true }
  else do
    let decomposed := decomposed.take maxClaims
    let candidateHits := hits.take maxEvidenceItems
    let verified ← gather Task.key (verifyHit mapper) [] (completed (tasksOf decomposed candidateHits))
    let claims ← decomposed.zipIdx.mapM fun raw => do
      let span ← clampSpan mapper raw.1.start raw.1.stop answer.length
      let items ← evidenceOf verified raw.2 candidateHits.length
      pure (claimOf (deriveClaimId mapper traceId raw.2) raw.1.text span items)
    pure (resultOf claims)

/-! ## What is promised -/

/-- `map_claims`, where the pairs are verified one after another. -/
def mapClaimsInTurn (answer : PyStr) (hits : List RetrievalHit) (traceId : List Char) : Except PyError ClaimMappingResult := do
  let (decomposed, failed) ← decompose mapper answer
  if failed then pure { decompositionFailed := true }
  else do
    let decomposed := decomposed.take maxClaims
    let candidateHits := hits.take maxEvidenceItems
    let claims ← decomposed.zipIdx.mapM fun raw => do
      let items ← candidateHits.zipIdx.mapM fun hit => verifyHit mapper ⟨raw.2, hit.2, raw.1.text, hit.1⟩
      let span ← clampSpan mapper raw.1.start raw.1.stop answer.length
      pure (claimOf (deriveClaimId mapper traceId raw.2) raw.1.text span items)
    pure (resultOf claims)

/-- It is a dict. -/
def isDict : Value → Bool
  | .dict _ => true
  | _ => false

/-- The statement an entry makes, if its text is not blank. -/
def statementOf : Value → Option DecomposedClaim
  | .dict entry =>
    match get entry "text" with
    | some (.str text) =>
      if stripStr text = [] then none
      else some ⟨stripStr text, (get entry "start").getD (.int 0), (get entry "end").getD (.int 0)⟩
    | _ => none
  | _ => none

/-- The object a reply has. -/
def payloadOf : Generated → Option (List (PyStr × Value))
  | .raised _ => none
  | .text raw =>
    match mapper.python.loads (TolerantJson.unfenced raw) with
    | .value (.dict payload) => some payload
    | _ => none

/-- The statements of an answer: those of the list of dicts that the reply has. -/
def statements (answer : PyStr) : List DecomposedClaim :=
  match (payloadOf mapper (mapper.decomposition answer)).bind fun payload => get payload "claims" with
  | some (.list entries) => if entries.all isDict then entries.filterMap statementOf else []
  | _ => []

/-- The hash has no collision among the first seeds of a trace. -/
def NoCollision (traceId : List Char) (n : ℕ) : Prop :=
  ∀ i < n, ∀ j < n, (mapper.hexdigest (claimSeed traceId i)).take 16 = (mapper.hexdigest (claimSeed traceId j)).take 16 →
    claimSeed traceId i = claimSeed traceId j

/-- A result as it should be. -/
structure Promised (answer : PyStr) (hits : List RetrievalHit) (traceId : List Char) (result : ClaimMappingResult) : Prop where
  /-- The claims are the first of the statements, in order. -/
  texts : result.claims.map Claim.text = ((statements mapper answer).take maxClaims).map DecomposedClaim.text
  /-- Their ids are distinct. -/
  distinct : NoCollision mapper traceId result.claims.length → (result.claims.map Claim.claimId).Nodup
  /-- Their spans are in the answer. -/
  spans : ∀ claim ∈ result.claims, claim.answerSpan.first ≤ claim.answerSpan.last ∧ claim.answerSpan.last ≤ answer.length
  /-- Each has one item of evidence for each of the first hits, in order. -/
  evidence : ∀ claim ∈ result.claims,
    claim.evidenceItems.map EvidenceItem.source = (hits.take maxEvidenceItems).map passageOf
  /-- It is what comes of verifying the pairs one after another. -/
  inTurn : mapClaimsInTurn mapper answer hits traceId = .ok result

/-- The order in which a pool completes its tasks. -/
structure Completion where
  /-- The tasks in that order. -/
  order : List Task → List Task
  /-- They are the tasks. -/
  perm : ∀ tasks, (order tasks).Perm tasks

/-- It is nested too deeply for the stack. -/
def TooDeep (reply : Generated) : Prop :=
  ∃ raw, reply = .text raw ∧ mapper.python.loads (TolerantJson.unfenced raw) = .exhausted

/-- It is an infinite number. -/
def Infinite : Value → Prop
  | .float (.infinity _) => True
  | _ => False

/-- No reply is nested too deeply, and the statements that are taken have finite offsets. -/
structure Mappable (answer : PyStr) (hits : List RetrievalHit) : Prop where
  /-- The decomposition is read. -/
  decomposable : ¬ TooDeep mapper (mapper.decomposition answer)
  /-- Every statement becomes a claim. -/
  coercible : ∀ raw ∈ (statements mapper answer).take maxClaims,
    ¬ Infinite raw.start ∧ ¬ Infinite raw.stop
  /-- Every verification is read. -/
  verifiable : ∀ task ∈ tasksOf ((statements mapper answer).take maxClaims) (hits.take maxEvidenceItems),
    ¬ TooDeep mapper (mapper.verification task)

/-! ## Reading -/

variable {mapper} {answer : PyStr} {hits : List RetrievalHit} {traceId : List Char}

/-- What is not too deep is read, and has its object or none. -/
theorem parseJsonObject_eq {raw : List Char} (h : ¬ TooDeep mapper (.text raw)) :
    parseJsonObject mapper raw = .ok (payloadOf mapper (.text raw)) := by
  have hloads : mapper.python.loads (TolerantJson.unfenced raw) ≠ .exhausted := fun hdeep => h ⟨raw, rfl, hdeep⟩
  rw [parseJsonObject, payloadOf]
  cases hread : mapper.python.loads (TolerantJson.unfenced raw) with
  | refused => rfl
  | exhausted => exact absurd hread hloads
  | value value => cases value <;> rfl

theorem parseJsonObject_tooDeep {raw : List Char} (h : TooDeep mapper (.text raw)) :
    parseJsonObject mapper raw = .error .recursionError := by
  obtain ⟨same, hsame, hdeep⟩ := h
  cases hsame
  rw [parseJsonObject, hdeep]

/-- The entries are read where all are dicts. -/
theorem parseEntries_eq (entries : List Value) :
    parseEntries entries = if entries.all isDict then some (entries.filterMap statementOf) else none := by
  induction entries with
  | nil => rfl
  | cons entry entries ih =>
    cases entry with
    | dict entry =>
      have hall : (Value.dict entry :: entries).all isDict = entries.all isDict := by
        rw [List.all_cons, isDict, Bool.true_and]
      have hkept : ∀ {statement : DecomposedClaim}, statementOf (.dict entry) = some statement →
          (parseEntries entries).map (statement :: ·) =
            if entries.all isDict then some ((Value.dict entry :: entries).filterMap statementOf) else none := by
        intro statement hstatement
        rw [List.filterMap_cons_some hstatement, ih]
        split <;> rfl
      have hskipped : statementOf (.dict entry) = none → parseEntries entries =
          if entries.all isDict then some ((Value.dict entry :: entries).filterMap statementOf) else none := by
        intro hstatement
        rw [List.filterMap_cons_none hstatement, ih]
      rw [hall, parseEntries]
      split
      · next text htext =>
        split
        · next hblank => exact hskipped (by rw [statementOf, htext]; exact if_pos hblank)
        · next hblank => exact hkept (by rw [statementOf, htext]; exact if_neg hblank)
      · next hno =>
        refine hskipped ?_
        rw [statementOf]
        split
        · next text htext => exact absurd htext (hno text)
        · rfl
    | _ => rfl

/-- A decomposition that is read has the statements of the answer; where it failed there is none. -/
theorem decompose_eq (h : ¬ TooDeep mapper (mapper.decomposition answer)) :
    ∃ failed, decompose mapper answer = .ok (statements mapper answer, failed) ∧
      (failed = true → statements mapper answer = []) := by
  rw [decompose, statements]
  cases hreply : mapper.decomposition answer with
  | raised error => exact ⟨true, rfl, fun _ => rfl⟩
  | text raw =>
    rw [hreply] at h
    simp only [parseDecomposition, parseJsonObject_eq h, bind, Except.bind]
    cases hpayload : payloadOf mapper (.text raw) with
    | none => exact ⟨true, rfl, fun _ => rfl⟩
    | some payload =>
      simp only [Option.bind_some]
      cases hclaims : get payload "claims" with
      | none => exact ⟨true, rfl, fun _ => rfl⟩
      | some claims =>
        cases claims with
        | list entries =>
          simp only [pure, Except.pure, parseEntries_eq]
          by_cases hall : entries.all isDict = true
          · rw [if_pos hall, if_pos hall]
            exact ⟨false, rfl, fun h => by cases h⟩
          · rw [if_neg hall, if_neg hall]
            exact ⟨true, rfl, fun _ => rfl⟩
        | _ => exact ⟨true, rfl, fun _ => rfl⟩

theorem decompose_tooDeep (h : TooDeep mapper (mapper.decomposition answer)) :
    decompose mapper answer = .error .recursionError := by
  have hdeep := h
  obtain ⟨raw, hreply, -⟩ := h
  rw [hreply] at hdeep
  simp only [decompose, hreply, parseDecomposition, parseJsonObject_tooDeep hdeep, bind, Except.bind]

/-- So is a verification. -/
theorem parseVerification_ok {raw : List Char} (h : ¬ TooDeep mapper (.text raw)) :
    ∃ outcome, parseVerification mapper raw = .ok outcome := by
  simp only [parseVerification, parseJsonObject_eq h, bind, Except.bind]
  cases payloadOf mapper (.text raw) with
  | none => exact ⟨_, rfl⟩
  | some payload =>
    dsimp only
    split
    · exact ⟨_, rfl⟩
    · exact ⟨_, rfl⟩

/-- A pair is verified exactly when its reply is not too deep. -/
theorem verifyHit_ok_iff {task : Task} :
    (∃ item, verifyHit mapper task = .ok item) ↔ ¬ TooDeep mapper (mapper.verification task) := by
  rw [verifyHit, verifyPair]
  cases hreply : mapper.verification task with
  | raised error =>
    refine iff_of_true ⟨_, rfl⟩ fun h => ?_
    obtain ⟨raw, hraw, -⟩ := h
    cases hraw
  | text raw =>
    by_cases hdeep : TooDeep mapper (.text raw)
    · refine iff_of_false ?_ (not_not.mpr hdeep)
      simp [parseVerification, parseJsonObject_tooDeep hdeep, bind, Except.bind]
    · refine iff_of_true ?_ hdeep
      obtain ⟨outcome, houtcome⟩ := parseVerification_ok hdeep
      simp only [houtcome, bind, Except.bind]
      exact ⟨_, rfl⟩

/-- The item of a pair is the passage of its hit. -/
theorem source_of_verifyHit {task : Task} {item : EvidenceItem} (h : verifyHit mapper task = .ok item) :
    item.source = passageOf task.hit := by
  obtain ⟨outcome, -, hitem⟩ := bind_eq_ok.mp h
  cases hitem
  rfl

/-! ## Claims -/

/-- An offset is read unless it is infinite. -/
theorem offsetOf_ok_iff {value : Value} {default : ℤ} :
    (∃ offset, offsetOf mapper value default = .ok offset) ↔ ¬ Infinite value := by
  cases value with
  | float double =>
    cases double with
    | infinity negative => exact iff_of_false (fun ⟨_, h⟩ => by cases h) (not_not.mpr trivial)
    | nan => exact iff_of_true ⟨_, rfl⟩ not_false
    | finite negative n => exact iff_of_true ⟨_, rfl⟩ not_false
  | str text =>
    refine iff_of_true ?_ not_false
    rw [offsetOf, intOf]
    cases mapper.intOfText text with
    | none => exact ⟨_, rfl⟩
    | some value => exact ⟨_, rfl⟩
  | _ => exact iff_of_true ⟨_, rfl⟩ not_false

/-- A span is clamped unless an offset is infinite. -/
theorem clampSpan_ok_iff {start stop : Value} {n : ℕ} :
    (∃ span, clampSpan mapper start stop n = .ok span) ↔ ¬ Infinite start ∧ ¬ Infinite stop := by
  rw [← @offsetOf_ok_iff mapper start 0, ← @offsetOf_ok_iff mapper stop n]
  simp only [clampSpan, bind_eq_ok]
  constructor
  · rintro ⟨span, first, hfirst, last, hlast, -⟩
    exact ⟨⟨first, hfirst⟩, last, hlast⟩
  · rintro ⟨⟨first, hfirst⟩, last, hlast⟩
    exact ⟨_, first, hfirst, last, hlast, rfl⟩

theorem clampOffset_le (offset : ℤ) (n : ℕ) : clampOffset offset n ≤ n := by
  rw [clampOffset]
  omega

/-- It ends in the text. -/
theorem last_of_clampSpan {start stop : Value} {n : ℕ} {span : AnswerSpan} (h : clampSpan mapper start stop n = .ok span) :
    span.last ≤ n := by
  obtain ⟨first, -, hrest⟩ := bind_eq_ok.mp h
  obtain ⟨last, -, hspan⟩ := bind_eq_ok.mp hrest
  cases hspan
  have hfirst := clampOffset_le first n
  have hlast := clampOffset_le last n
  simp only [spanOf]
  split
  · exact hfirst
  · exact hlast

/-- The claim of a statement and its evidence. -/
def assembled (mapper : ClaimMapper) (answer : PyStr) (traceId : List Char) (raw : DecomposedClaim × ℕ)
    (items : List EvidenceItem) : Except PyError Claim := do
  let span ← clampSpan mapper raw.1.start raw.1.stop answer.length
  pure (claimOf (deriveClaimId mapper traceId raw.2) raw.1.text span items)

/-- A claim is made where the offsets are finite. -/
theorem assembled_ok_iff {raw : DecomposedClaim × ℕ} {items : List EvidenceItem} :
    (∃ claim, assembled mapper answer traceId raw items = .ok claim) ↔ ¬ Infinite raw.1.start ∧ ¬ Infinite raw.1.stop := by
  rw [← @clampSpan_ok_iff mapper _ _ answer.length]
  simp only [assembled, bind_eq_ok]
  constructor
  · rintro ⟨claim, span, hspan, -⟩
    exact ⟨span, hspan⟩
  · rintro ⟨span, hspan⟩
    exact ⟨_, span, hspan, rfl⟩

/-- It has the statement's text, the id of its place, a span of the answer and the evidence. -/
theorem assembled_spec {raw : DecomposedClaim × ℕ} {items : List EvidenceItem} {claim : Claim}
    (h : assembled mapper answer traceId raw items = .ok claim) :
    claim.text = raw.1.text ∧ claim.claimId = deriveClaimId mapper traceId raw.2 ∧
      claim.answerSpan.last ≤ answer.length ∧ claim.evidenceItems = items := by
  obtain ⟨span, hspan, hclaim⟩ := bind_eq_ok.mp h
  cases hclaim
  exact ⟨rfl, rfl, last_of_clampSpan hspan, rfl⟩

/-! ## Evidence -/

variable {decomposed : List DecomposedClaim} {candidateHits : List RetrievalHit}

/-- The keys of the tasks are the pairs of indexes. -/
theorem keys_tasksOf (decomposed : List DecomposedClaim) (candidateHits : List RetrievalHit) :
    (tasksOf decomposed candidateHits).map Task.key = (List.range decomposed.length).product (List.range candidateHits.length) := by
  have hrange : ∀ {α : Type} (items : List α), items.zipIdx.map Prod.snd = List.range items.length := by
    intro α items
    rw [List.zipIdx_map_snd, List.range_eq_range']
  rw [tasksOf, List.map_flatMap, List.product, ← hrange decomposed, ← hrange candidateHits, List.flatMap_map]
  refine List.flatMap_congr fun raw _ => ?_
  rw [List.map_map, List.map_map]
  rfl

theorem nodup_keys : ((tasksOf decomposed candidateHits).map Task.key).Nodup := by
  rw [keys_tasksOf]
  exact List.Nodup.product List.nodup_range List.nodup_range

theorem mem_tasksOf {raw : DecomposedClaim × ℕ} {hit : RetrievalHit × ℕ} (hraw : raw ∈ decomposed.zipIdx)
    (hhit : hit ∈ candidateHits.zipIdx) : (⟨raw.2, hit.2, raw.1.text, hit.1⟩ : Task) ∈ tasksOf decomposed candidateHits :=
  List.mem_flatMap.mpr ⟨raw, hraw, List.mem_map.mpr ⟨hit, hhit, rfl⟩⟩

/-- What was gathered for a claim is what comes of verifying its pairs in the order of the hits. -/
theorem evidenceOf_gathered {order : List Task} {verified : List ((ℕ × ℕ) × EvidenceItem)}
    (hperm : order.Perm (tasksOf decomposed candidateHits))
    (hgather : gather Task.key (verifyHit mapper) [] order = .ok verified) {raw : DecomposedClaim × ℕ}
    (hraw : raw ∈ decomposed.zipIdx) :
    evidenceOf verified raw.2 candidateHits.length =
      candidateHits.zipIdx.mapM fun hit => verifyHit mapper ⟨raw.2, hit.2, raw.1.text, hit.1⟩ := by
  have hnodup : (order.map Task.key).Nodup := ((hperm.map _).nodup_iff).mpr nodup_keys
  have hrange : List.range candidateHits.length = candidateHits.zipIdx.map Prod.snd := by
    rw [List.zipIdx_map_snd, List.range_eq_range']
  rw [evidenceOf, hrange, List.mapM_map]
  refine mapM_congr fun hit hhit => ?_
  obtain ⟨item, hitem, hlookup⟩ := lookup_gather hgather hnodup (hperm.mem_iff.mpr (mem_tasksOf hraw hhit))
  have hkey : verified.lookup (raw.2, hit.2) = some item := hlookup
  rw [Function.comp_apply, hkey, hitem]

/-- There is one item for each hit, in order. -/
theorem sources_of_mapM {raw : DecomposedClaim × ℕ} {items : List EvidenceItem}
    (h : (candidateHits.zipIdx.mapM fun hit => verifyHit mapper ⟨raw.2, hit.2, raw.1.text, hit.1⟩) = .ok items) :
    items.map EvidenceItem.source = candidateHits.map passageOf := by
  have hsources : items.map EvidenceItem.source = candidateHits.zipIdx.map fun hit => passageOf hit.1 :=
    map_of_mapM (fun hit => passageOf hit.1) EvidenceItem.source h fun hit item hitem => source_of_verifyHit hitem
  have hfirst : (candidateHits.zipIdx.map Prod.fst).map passageOf = candidateHits.map passageOf := by
    rw [List.zipIdx_map_fst]
  rw [hsources, ← hfirst, List.map_map]
  rfl

/-! ## The mapping -/

/-- Seeds of one trace differ by their index. -/
theorem claimSeed_inj {i j : ℕ} (h : claimSeed traceId i = claimSeed traceId j) : i = j := by
  have htext : PythonNumbers.intText (i : ℤ) = PythonNumbers.intText j := (List.cons.inj (List.append_cancel_left h)).2
  have hvalue := congrArg PythonNumbers.wholeOf htext
  rw [PythonNumbers.wholeOf_intText, PythonNumbers.wholeOf_intText] at hvalue
  exact Int.ofNat_inj.mp (Option.some.inj hvalue)

/-- Without a collision the ids differ too. -/
theorem deriveClaimId_inj {n i j : ℕ} (hfree : NoCollision mapper traceId n) (hi : i < n) (hj : j < n)
    (h : deriveClaimId mapper traceId i = deriveClaimId mapper traceId j) : i = j := by
  have hchars := String.ofList_injective h
  exact claimSeed_inj (hfree i hi j hj (List.append_cancel_left hchars))

/-- The step of a claim in the mapping that verifies in turn. -/
theorem mapped_in_turn {raw : DecomposedClaim × ℕ} {claim : Claim}
    (h : ((candidateHits.zipIdx.mapM fun hit => verifyHit mapper ⟨raw.2, hit.2, raw.1.text, hit.1⟩) >>= fun items =>
      assembled mapper answer traceId raw items) = .ok claim) :
    claim.text = raw.1.text ∧ claim.claimId = deriveClaimId mapper traceId raw.2 ∧
      claim.answerSpan.last ≤ answer.length ∧ claim.evidenceItems.map EvidenceItem.source = candidateHits.map passageOf := by
  obtain ⟨items, hitems, hclaim⟩ := bind_eq_ok.mp h
  obtain ⟨htext, hid, hspan, hevidence⟩ := assembled_spec hclaim
  exact ⟨htext, hid, hspan, hevidence ▸ sources_of_mapM hitems⟩

theorem mem_of_zipIdx {raw : DecomposedClaim × ℕ} (h : raw ∈ decomposed.zipIdx) : raw.1 ∈ decomposed := by
  have hin := List.mem_map_of_mem (f := Prod.fst) h
  rwa [List.zipIdx_map_fst] at hin

theorem exists_zipIdx {raw : DecomposedClaim} (h : raw ∈ decomposed) : ∃ i, (raw, i) ∈ decomposed.zipIdx := by
  rw [← List.zipIdx_map_fst 0 decomposed] at h
  obtain ⟨⟨same, i⟩, hin, rfl⟩ := List.mem_map.mp h
  exact ⟨i, hin⟩

variable (mapper answer traceId decomposed candidateHits) in
/-- The claims, each with its pairs verified in turn. -/
def claimsInTurn : Except PyError (List Claim) :=
  decomposed.zipIdx.mapM fun raw =>
    (candidateHits.zipIdx.mapM fun hit => verifyHit mapper ⟨raw.2, hit.2, raw.1.text, hit.1⟩) >>= fun items =>
      assembled mapper answer traceId raw items

variable (mapper answer traceId decomposed candidateHits) in
/-- The claims, of what was gathered. -/
def claimsGathered (verified : List ((ℕ × ℕ) × EvidenceItem)) : Except PyError (List Claim) :=
  decomposed.zipIdx.mapM fun raw => do
    let span ← clampSpan mapper raw.1.start raw.1.stop answer.length
    let items ← evidenceOf verified raw.2 candidateHits.length
    pure (claimOf (deriveClaimId mapper traceId raw.2) raw.1.text span items)

/-- The two are the same, whatever the order was. -/
theorem claimsGathered_eq {order : List Task} {verified : List ((ℕ × ℕ) × EvidenceItem)}
    (hperm : order.Perm (tasksOf decomposed candidateHits))
    (hgather : gather Task.key (verifyHit mapper) [] order = .ok verified) :
    claimsGathered mapper answer traceId decomposed candidateHits verified =
      claimsInTurn mapper answer traceId decomposed candidateHits := by
  refine mapM_congr fun raw hraw => ?_
  have hall : ∀ hit ∈ candidateHits.zipIdx, ∃ item, verifyHit mapper ⟨raw.2, hit.2, raw.1.text, hit.1⟩ = .ok item :=
    fun hit hhit => gather_ok_iff.mp ⟨verified, hgather⟩ _ (hperm.mem_iff.mpr (mem_tasksOf hraw hhit))
  obtain ⟨items, hitems⟩ := mapM_ok_iff.mpr hall
  have hevidence := (evidenceOf_gathered hperm hgather hraw).trans hitems
  rw [hevidence, hitems]
  rfl

/-- Every claim is made in turn exactly when every statement has finite offsets, if every pair is verified. -/
theorem claimsInTurn_ok_iff (hall : ∀ task ∈ tasksOf decomposed candidateHits, ¬ TooDeep mapper (mapper.verification task)) :
    (∃ claims, claimsInTurn mapper answer traceId decomposed candidateHits = .ok claims) ↔
      ∀ raw ∈ decomposed, ¬ Infinite raw.start ∧ ¬ Infinite raw.stop := by
  rw [claimsInTurn, mapM_ok_iff]
  have hitems : ∀ raw ∈ decomposed.zipIdx, ∃ items,
      (candidateHits.zipIdx.mapM fun hit => verifyHit mapper ⟨raw.2, hit.2, raw.1.text, hit.1⟩) = .ok items :=
    fun raw hraw => mapM_ok_iff.mpr fun hit hhit => verifyHit_ok_iff.mpr (hall _ (mem_tasksOf hraw hhit))
  constructor
  · intro h raw hraw
    obtain ⟨i, hin⟩ := exists_zipIdx hraw
    obtain ⟨claim, hclaim⟩ := h _ hin
    obtain ⟨items, -, hassembled⟩ := bind_eq_ok.mp hclaim
    exact assembled_ok_iff.mp ⟨claim, hassembled⟩
  · intro h raw hraw
    obtain ⟨items, hverified⟩ := hitems raw hraw
    obtain ⟨claim, hclaim⟩ := assembled_ok_iff.mpr (h raw.1 (mem_of_zipIdx hraw))
    exact ⟨claim, bind_eq_ok.mpr ⟨items, hverified, hclaim⟩⟩

/-- The claims made in turn are as promised. -/
theorem promised_of_claimsInTurn {claims : List Claim}
    (hdecompose : decompose mapper answer = .ok (statements mapper answer, false))
    (h : claimsInTurn mapper answer traceId ((statements mapper answer).take maxClaims) (hits.take maxEvidenceItems) =
      .ok claims) : Promised mapper answer hits traceId (resultOf claims) := by
  have hturn := h
  rw [claimsInTurn] at h
  have hstep := @mapped_in_turn mapper answer traceId (hits.take maxEvidenceItems)
  have hlength := length_of_mapM h
  rw [List.length_zipIdx] at hlength
  refine ⟨?_, fun hfree => ?_, fun claim hin => ⟨claim.answerSpan.ordered, ?_⟩, fun claim hin => ?_, ?_⟩
  · have htexts := map_of_mapM (fun raw => raw.1.text) Claim.text h
      fun raw claim hclaim => (hstep hclaim).1
    have hfirst := congrArg (List.map DecomposedClaim.text)
      (List.zipIdx_map_fst 0 ((statements mapper answer).take maxClaims))
    rw [List.map_map] at hfirst
    exact htexts.trans hfirst
  · have hidOf : ∀ (raw : DecomposedClaim × ℕ) (claim : Claim), _ → claim.claimId = deriveClaimId mapper traceId raw.2 :=
      fun raw claim hclaim => (hstep hclaim).2.1
    have hids := map_of_mapM _ Claim.claimId h hidOf
    have hrange : ((statements mapper answer).take maxClaims).zipIdx.map Prod.snd = List.range claims.length := by
      rw [List.zipIdx_map_snd, hlength, List.range_eq_range']
    have hsame : claims.map Claim.claimId = (List.range claims.length).map (deriveClaimId mapper traceId) := by
      rw [hids, ← hrange, List.map_map, Function.comp_def]
    show (claims.map Claim.claimId).Nodup
    rw [hsame]
    refine List.Nodup.map_on (fun i hi j hj heq => ?_) List.nodup_range
    exact deriveClaimId_inj hfree (List.mem_range.mp hi) (List.mem_range.mp hj) heq
  · obtain ⟨raw, -, hclaim⟩ := exists_task_of_mapM h hin
    exact (hstep hclaim).2.2.1
  · obtain ⟨raw, -, hclaim⟩ := exists_task_of_mapM h hin
    exact (hstep hclaim).2.2.2
  · have hmapped : mapClaimsInTurn mapper answer hits traceId = (claimsInTurn mapper answer traceId
        ((statements mapper answer).take maxClaims) (hits.take maxEvidenceItems) >>= fun claims => pure (resultOf claims)) := by
      rw [mapClaimsInTurn, hdecompose]
      rfl
    rw [hmapped, hturn]
    rfl

/-- A decomposition that failed gives no claims. -/
theorem promised_of_failed (hdecompose : decompose mapper answer = .ok (statements mapper answer, true))
    (hnone : statements mapper answer = []) : Promised mapper answer hits traceId { decompositionFailed := true } := by
  refine ⟨by rw [hnone]; rfl, fun _ => List.nodup_nil, fun claim hin => ?_, fun claim hin => ?_, ?_⟩
  · exact absurd hin List.not_mem_nil
  · exact absurd hin List.not_mem_nil
  · rw [mapClaimsInTurn, hdecompose]
    rfl

/-- The mapping of an answer whose decomposition did not fail. -/
theorem mapClaims_eq (hdecompose : decompose mapper answer = .ok (statements mapper answer, false)) (order : List Task → List Task) :
    mapClaims mapper order answer hits traceId =
      (gather Task.key (verifyHit mapper) []
          (order (tasksOf ((statements mapper answer).take maxClaims) (hits.take maxEvidenceItems))) >>= fun verified =>
        claimsGathered mapper answer traceId ((statements mapper answer).take maxClaims) (hits.take maxEvidenceItems)
          verified >>= fun claims => pure (resultOf claims)) := by
  rw [mapClaims, hdecompose]
  rfl

/-- Where a result is returned, the replies and the statements were mappable. -/
theorem mappable_of_ok (completion : Completion) {result : ClaimMappingResult}
    (h : mapClaims mapper completion.order answer hits traceId = .ok result) : Mappable mapper answer hits := by
  have hread : ¬ TooDeep mapper (mapper.decomposition answer) := by
    intro hdeep
    rw [mapClaims, decompose_tooDeep hdeep] at h
    cases h
  obtain ⟨failed, hdecompose, hnone⟩ := decompose_eq hread
  cases failed with
  | true =>
    have hempty := hnone rfl
    refine ⟨hread, fun raw hraw => ?_, fun task htask => ?_⟩
    · rw [hempty] at hraw
      cases hraw
    · rw [hempty] at htask
      cases htask
  | false =>
    have hperm := completion.perm (tasksOf ((statements mapper answer).take maxClaims) (hits.take maxEvidenceItems))
    rw [mapClaims_eq hdecompose] at h
    obtain ⟨verified, hgather, hrest⟩ := bind_eq_ok.mp h
    obtain ⟨claims, hclaims, -⟩ := bind_eq_ok.mp hrest
    have hall : ∀ task ∈ tasksOf ((statements mapper answer).take maxClaims) (hits.take maxEvidenceItems),
        ¬ TooDeep mapper (mapper.verification task) :=
      fun task htask => verifyHit_ok_iff.mp (gather_ok_iff.mp ⟨verified, hgather⟩ task (hperm.mem_iff.mpr htask))
    rw [claimsGathered_eq hperm hgather] at hclaims
    exact ⟨hread, (claimsInTurn_ok_iff hall).mp ⟨claims, hclaims⟩, hall⟩

/-- Where they are mappable, what is promised is returned. -/
theorem mapClaims_of_mappable (h : Mappable mapper answer hits) (completion : Completion) (traceId : List Char) :
    ∃ result, mapClaims mapper completion.order answer hits traceId = .ok result ∧
      Promised mapper answer hits traceId result := by
  obtain ⟨failed, hdecompose, hnone⟩ := decompose_eq h.decomposable
  cases failed with
  | true =>
    refine ⟨_, ?_, promised_of_failed hdecompose (hnone rfl)⟩
    rw [mapClaims, hdecompose]
    rfl
  | false =>
    have hperm := completion.perm (tasksOf ((statements mapper answer).take maxClaims) (hits.take maxEvidenceItems))
    have hall := fun task htask => verifyHit_ok_iff.mpr (h.verifiable task (hperm.mem_iff.mp htask))
    obtain ⟨verified, hgather⟩ := gather_ok_iff.mpr hall
    obtain ⟨claims, hclaims⟩ := (claimsInTurn_ok_iff h.verifiable).mpr h.coercible
    refine ⟨_, ?_, promised_of_claimsInTurn hdecompose hclaims⟩
    rw [mapClaims_eq hdecompose, hgather]
    refine bind_eq_ok.mpr ⟨verified, rfl, ?_⟩
    rw [claimsGathered_eq hperm hgather, hclaims]
    rfl

/-- In every order of completion the mapping returns what is promised exactly when no
reply is nested too deeply and every statement that is taken has finite offsets. -/
theorem mapping_total_iff (mapper : ClaimMapper) (answer : PyStr) (hits : List RetrievalHit) (traceId : List Char) :
    (∀ completion : Completion, ∃ result, mapClaims mapper completion.order answer hits traceId = .ok result ∧
      Promised mapper answer hits traceId result) ↔ Mappable mapper answer hits := by
  constructor
  · intro h
    obtain ⟨result, hresult, -⟩ := h ⟨id, fun _ => List.Perm.refl _⟩
    exact mappable_of_ok _ hresult
  · exact fun h completion => mapClaims_of_mappable h completion traceId

/-! ## An infinite offset -/

/-- A decomposition whose statement starts at infinity. -/
def infiniteOffset : List Char :=
  "\x7b\"claims\": [\x7b\"text\": \"Refunds take a week.\", \"start\": Infinity, \"end\": 0\x7d]\x7d".toList

/-- It is the reply; no verification is asked for. -/
def offsetMapper : ClaimMapper where
  python := plainPython
  intOfText _ := none
  hexdigest text := text
  decomposition _ := .text infiniteOffset
  verification _ := .raised .valueError

/-- What the reply is read as. -/
theorem loads_infiniteOffset : plainPython.loads (TolerantJson.unfenced infiniteOffset) =
    .value (.dict [(py "claims", .list [.dict [(py "text", .str (py "Refunds take a week.")),
      (py "start", .float (.infinity false)), (py "end", .int 0)]])]) := by
  have hnumbers : ∀ n ∈ (JsonText.Json.obj [("claims", .arr [.obj [("text", .str "Refunds take a week."),
      ("start", .num (PythonNumbers.PyNumber.float (.infinity false))), ("end", .num (.int 0))]])]).numbers,
      PythonJson.readBack n = some n := by
    intro n hn
    cases List.mem_pair.mp hn with
    | inl hfirst =>
      rw [hfirst]
      rfl
    | inr hlast =>
      rw [hlast]
      rfl
  have hs : TolerantJson.Serialises infiniteOffset _ := TolerantJson.serialises_written JsonText.pythonLayout hnumbers
  have hsame : TolerantJson.unfenced infiniteOffset = infiniteOffset := by decide +kernel
  rw [hsame, loads_plain hs]
  rfl

/-- It is raised out of the mapping. -/
theorem infinite_offset_raises : ¬ ∀ completion : Completion,
    ∃ result, mapClaims offsetMapper completion.order (py "Refunds take a week.") [] "t".toList = .ok result := by
  intro h
  obtain ⟨result, hresult⟩ := h ⟨id, fun _ => List.Perm.refl _⟩
  have hmappable := mappable_of_ok ⟨id, fun _ => List.Perm.refl _⟩ hresult
  have hstatement : statements offsetMapper (py "Refunds take a week.") =
      [⟨py "Refunds take a week.", .float (.infinity false), .int 0⟩] := by
    have hpayload := loads_infiniteOffset
    simp only [statements, payloadOf, offsetMapper, hpayload]
    rfl
  have hcoercible := hmappable.coercible
  rw [hstatement] at hcoercible
  exact (hcoercible _ List.mem_cons_self).1 trivial

end RagSystem.ClaimMapping
