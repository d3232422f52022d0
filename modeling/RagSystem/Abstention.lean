import RagSystem.QueryModels

/-!
# Evidence-based abstention

The abstention policy: six triggers in a fixed order, each with its own reason
and the text the user gets instead of an answer.
-/

namespace RagSystem.Abstention

open DocumentModels EvidenceModels QueryModels

set_option autoImplicit false

/-- `DATABASE_ROUTE`. -/
def databaseRoute : String := "database"

/-- `DEFAULT_MISSING_INFORMATION`. -/
def defaultMissingInformation : ReasonCode → String
  | .lowConfidence =>
    "The system was not confident enough in its answer for this question. There was not enough reliable supporting evidence to respond with confidence."
  | .noEvidence =>
    "No supporting evidence was retrieved for this question, so the system cannot provide a grounded answer."
  | .unsupportedClaims =>
    "One or more parts of the answer could not be supported by the retrieved evidence, so the system is withholding the answer rather than presenting unsupported claims."
  | .conflictingEvidence =>
    "The retrieved evidence contains conflicting information from different sources, so the system cannot determine a single well-supported answer."
  | .sqlNoRows =>
    "The database query for this question returned no matching rows, so there is no data available to answer it."
  | .retrievalBelowThreshold =>
    "The retrieved passages were all below the relevance threshold, so none were strong enough to ground an answer."

/-- `_GENERIC_MISSING_INFORMATION`. -/
def genericMissingInformation : String :=
  "The system lacks sufficient supporting evidence to answer this question."

/-- `_MAX_MISSING_INFORMATION`. -/
def maxMissingInformation : ℕ := 1000

/-- `default_is_material`: every claim is. -/
def defaultIsMaterial (_ : Claim) : Bool := true

/-- The documents of the items with this verification result. -/
def docsVerified (result : VerificationResult) (claim : Claim) : List (Option DocumentId) :=
  (claim.evidenceItems.filter fun item => item.verificationResult = result).map EvidenceItem.documentId

/-- `has_conflicting_evidence`: one source supports the claim, another refutes it. -/
def hasConflictingEvidence (claim : Claim) : Bool :=
  (docsVerified .entails claim).any fun entailsDoc =>
    (docsVerified .doesNotEntail claim).any fun refutesDoc => entailsDoc ≠ refutesDoc

/-- A claim that is unsupported and matters. -/
def isUnsupported (isMaterial : Claim → Bool) (claim : Claim) : Bool :=
  claim.evidenceStatus = .unsupported && isMaterial claim

/-- `_resolve_missing_information`. -/
def resolveMissingInformation (reason : ReasonCode) (overrides : ReasonCode → Option String) : String :=
  let description := (overrides reason).getD (defaultMissingInformation reason)
  let description := if strip description = "" then genericMissingInformation else description
  head maxMissingInformation description

/-- What the policy is asked about. -/
structure AbstentionSignals where
  /-- The route. -/
  route : String
  /-- The scores of the retrieval, if there was one. -/
  retrievalScores : Option (List ℚ) := none
  /-- The least score that counts. -/
  retrievalScoreThreshold : ℚ := 0
  /-- The confidence in the answer. -/
  confidenceScore : Option ℚ := none
  /-- The least confidence that counts. -/
  routeMinConfidence : ℚ := 0
  /-- The claims of the answer. -/
  claims : List Claim := []
  /-- The claims flagged as conflicting, if the caller looked. -/
  conflictingClaimIds : Option (List String) := none
  /-- The rows the query returned, if there was one. -/
  sqlRowCount : Option ℕ := none
  /-- Which claims matter. -/
  isMaterial : Claim → Bool := defaultIsMaterial

/-- The gates before the generation: nothing was retrieved, or nothing good. -/
def retrievalReason (s : AbstentionSignals) : Option ReasonCode :=
  match s.retrievalScores with
  | none => none
  | some scores =>
    if scores.length = 0 then some .noEvidence
    else if scores.all fun score => score < s.retrievalScoreThreshold then some .retrievalBelowThreshold
    else none

/-- The confidence is below what the route asks for. -/
def isLowConfidence (score : Option ℚ) (routeMinConfidence : ℚ) : Bool :=
  score.any fun score => score < routeMinConfidence

/-- Conflicting evidence: the caller's flags if it gave some, else the claims' own items. -/
def isConflicting (s : AbstentionSignals) : Bool :=
  match s.conflictingClaimIds with
  | some ids => 0 < ids.length
  | none => s.claims.any hasConflictingEvidence

/-- `_select_reason_code`. -/
def selectReasonCode (s : AbstentionSignals) : Option ReasonCode :=
  match retrievalReason s with
  | some reason => some reason
  | none =>
    if isLowConfidence s.confidenceScore s.routeMinConfidence then some .lowConfidence
    else if s.claims.any (isUnsupported s.isMaterial) then some .unsupportedClaims
    else if isConflicting s then some .conflictingEvidence
    else if s.route = databaseRoute ∧ s.sqlRowCount = some 0 then some .sqlNoRows
    else none

/-- Every description fits the response it is put into. -/
theorem resolveMissingInformation_fits (reason : ReasonCode) (overrides : ReasonCode → Option String) :
    0 < (resolveMissingInformation reason overrides).length ∧
      (resolveMissingInformation reason overrides).length ≤ 1000 := by
  have hlength : ∀ s : String, (head maxMissingInformation s).length = min 1000 s.length := by
    intro s
    simp only [head, maxMissingInformation, String.length_ofList, List.length_take, String.length_toList]
  have hgeneric : 0 < genericMissingInformation.length := by
    rw [← String.length_toList]
    simp [genericMissingInformation]
  have hstrip : ∀ s : String, strip s ≠ "" → 0 < s.length := by
    intro s hs
    by_contra hzero
    have hempty : s = "" := String.length_eq_zero_iff.mp (by omega)
    exact hs (by rw [hempty]; decide)
  unfold resolveMissingInformation
  rw [hlength]
  split
  · omega
  · next hne =>
    have hpos := hstrip _ hne
    omega

/-- `evaluate_abstention`. -/
def evaluateAbstention (traceId : String) (s : AbstentionSignals)
    (missingInformation : ReasonCode → Option String := fun _ => none) : Option AbstentionResponse :=
  match selectReasonCode s with
  | none => none
  | some reason => some ⟨reason, resolveMissingInformation reason missingInformation, traceId,
      (resolveMissingInformation_fits reason missingInformation).1,
      (resolveMissingInformation_fits reason missingInformation).2⟩

/-- The claims alone make the policy refuse. -/
def refusesClaims (claims : List Claim) : Bool :=
  claims.any (isUnsupported defaultIsMaterial) || claims.any hasConflictingEvidence

/-- The policy answers exactly when a trigger fires. -/
theorem evaluateAbstention_isSome (traceId : String) (s : AbstentionSignals)
    (missing : ReasonCode → Option String) :
    (evaluateAbstention traceId s missing).isSome = (selectReasonCode s).isSome := by
  unfold evaluateAbstention
  split
  · next h =>
    rw [h]
    rfl
  · next h =>
    rw [h]
    rfl

end RagSystem.Abstention
