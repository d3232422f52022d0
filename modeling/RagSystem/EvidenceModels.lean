import Mathlib.Data.Int.Notation
import RagSystem.DocumentModels

/-!
# Claims and evidence

What an answer claims and what each claim rests on. An evidence item is a
passage of a document or a row of a table; its required fields are part of the
type, as the model's validator demands. Structured values nobody looks into
are kept as their JSON text.
-/

namespace RagSystem.EvidenceModels

open DocumentModels

set_option autoImplicit false

/-- `VerificationResult`. -/
inductive VerificationResult where
  | entails | doesNotEntail | undetermined
  deriving DecidableEq

/-- `EvidenceCoverage`: how much of a claim an evidence item covers. -/
inductive EvidenceCoverage where
  | full | partially | none
  deriving DecidableEq

/-- `EvidenceStatus`. -/
inductive EvidenceStatus where
  | supported | partiallySupported | unsupported | verificationUnavailable
  deriving DecidableEq

/-- A quoted passage of a document version. -/
structure Passage where
  /-- The quoted text. -/
  quote : String
  /-- Where it starts in the source. -/
  sourceStart : ℤ
  /-- Where it ends. -/
  sourceEnd : ℤ
  /-- The document. -/
  documentId : DocumentId
  /-- The version. -/
  documentVersion : Version
  deriving DecidableEq

/-- A row of a database result. -/
structure TableRow where
  /-- The table. -/
  table : String
  /-- The fields of the row, as JSON text. -/
  rowFields : String
  /-- The query it came from. -/
  sql : Option String := none
  deriving DecidableEq

/-- What an evidence item is, by its `kind`. -/
inductive EvidenceSource where
  /-- `document`. -/
  | document (passage : Passage)
  /-- `database`. -/
  | database (row : TableRow)
  deriving DecidableEq

/-- `EvidenceItem`. -/
structure EvidenceItem where
  /-- The passage or row. -/
  source : EvidenceSource
  /-- What the verification said. -/
  verificationResult : VerificationResult
  /-- How much of the claim it covers. -/
  coverage : EvidenceCoverage := .none
  /-- The sub-claims it covers. -/
  coveredSubclaims : List ℤ := []
  deriving DecidableEq

/-- The `document_id` of an item; a database item has none. -/
def EvidenceItem.documentId (item : EvidenceItem) : Option DocumentId :=
  match item.source with
  | .document passage => some passage.documentId
  | .database _ => none

/-- `AnswerSpan`: a part of the answer text, its bounds in order. -/
structure AnswerSpan where
  /-- The first character. -/
  first : ℕ
  /-- The character after the last. -/
  last : ℕ
  /-- The validator's check. -/
  ordered : first ≤ last
  deriving DecidableEq

/-- `Claim`. -/
structure Claim where
  /-- The claim. -/
  claimId : String
  /-- What it says: a text of the text model's, whose code points may be any. -/
  text : List ℕ
  /-- Where the answer says it. -/
  answerSpan : AnswerSpan
  /-- What it rests on. -/
  evidenceItems : List EvidenceItem := []
  /-- Whether it is supported. -/
  evidenceStatus : EvidenceStatus
  deriving DecidableEq

end RagSystem.EvidenceModels
