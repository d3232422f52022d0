import RagSystem.CorpusListing
import RagSystem.FeedbackReview

/-!
# The feedback inbox

One page of the negative feedback, newest first, each item with what its trace
has of the answer it is about. Its cursors are signed under the key of the
corpus listing, and say which review status was asked for.
-/

namespace RagSystem.FeedbackInbox

open Base64 JsonText PageCursors KeysetPaging FeedbackReview EvidenceModels QueryModels DocumentModels
open CorpusListing (keyBefore clampPageSize)

set_option autoImplicit false

variable {N M : Type}

/-- `ReviewStatus`. -/
inductive ReviewStatus where
  | unreviewed | reviewed | resolved
  deriving DecidableEq

/-- Its value. -/
def ReviewStatus.value : ReviewStatus → String
  | .unreviewed => "unreviewed"
  | .reviewed => "reviewed"
  | .resolved => "resolved"

/-- `FeedbackListParams`. -/
structure FeedbackListParams where
  /-- `review_status`. -/
  reviewStatus : Option ReviewStatus := none
  /-- `page_size`. -/
  pageSize : Option ℤ := none
  /-- `cursor`. -/
  cursor : Option String := none

/-! ## Cursors -/

/-- `_status_token`. -/
def statusToken : Option ReviewStatus → String
  | none => ""
  | some status => status.value

/-- What `encode_cursor` is given. -/
structure InboxPosition where
  /-- `review_status`. -/
  reviewStatus : Option ReviewStatus
  /-- `created_at`. -/
  createdAt : String
  /-- `last_id`. -/
  lastId : String

/-- `_CursorBoundary`. -/
structure CursorBoundary where
  /-- `review_status`. -/
  reviewStatus : String
  /-- `created_at`. -/
  createdAt : String
  /-- `last_id`. -/
  lastId : String
  deriving DecidableEq

/-- The boundary of a position. -/
def InboxPosition.boundary (position : InboxPosition) : CursorBoundary :=
  ⟨statusToken position.reviewStatus, position.createdAt, position.lastId⟩

/-- The fields, in the order of their names. -/
def InboxPosition.fields (position : InboxPosition) : List (String × String) :=
  [("id", position.lastId), ("rs", statusToken position.reviewStatus), ("ts", position.createdAt)]

variable (runtime : CursorRuntime N M)

/-- `encode_cursor`. -/
def encodeCursor (position : InboxPosition) (signingKey : Option String) : String :=
  mintCursor runtime (payloadOf runtime position.fields) signingKey

/-- The fields of an object, and whether the status is one. -/
def readBoundary (members : List (String × Json M)) : Except CursorError CursorBoundary := do
  let reviewStatus ← fieldText runtime members "rs"
  let createdAt ← fieldText runtime members "ts"
  let lastId ← fieldText runtime members "id"
  if reviewStatus ∉ ["unreviewed", "reviewed", "resolved", ""] then
    .error (.invalidCursor "Cursor has an unknown review status.")
  else .ok ⟨reviewStatus, createdAt, lastId⟩

/-- `decode_cursor`. -/
def decodeCursor (token : String) (signingKey : Option String) : Except CursorError CursorBoundary := do
  let members ← openCursor runtime token signingKey
  readBoundary runtime members

/-! ## Selecting, ordering, joining -/

/-- `_select_negative`. -/
def selectNegative (items : List FeedbackReviewRecord) (reviewStatus : Option ReviewStatus) : List FeedbackReviewRecord :=
  items.filter fun item => isNegativeRating item.rating && reviewStatus.all fun status => item.reviewStatus = status.value

/-- `_ordering_key`. -/
def orderingKey (item : FeedbackReviewRecord) : String ×ₗ String := toLex (item.createdAt, item.feedbackId)

/-- `FeedbackContext`. -/
structure FeedbackContext where
  /-- The item. -/
  feedback : FeedbackReviewRecord
  /-- `expected_answer`. -/
  expectedAnswer : Option String := none
  /-- `confidence`. -/
  confidence : Option String := none
  /-- `route`. -/
  route : Option String := none
  /-- `retrieved_chunks`. -/
  retrievedChunks : List RetrievalHit := []
  /-- `sql`. -/
  sql : Option String := none

/-- `build_feedback_context`. -/
def buildFeedbackContext (item : FeedbackReviewRecord) : Option QueryTraceRecord → FeedbackContext
  | none => { feedback := item }
  | some trace => ⟨item, item.expectedAnswer, trace.confidence, some trace.route, trace.retrievedHits, trace.sql⟩

/-- `FeedbackInboxPage`. -/
structure FeedbackInboxPage where
  /-- `items`. -/
  items : List FeedbackContext
  /-- `next_cursor`. -/
  nextCursor : Option String

/-- The settings, and where the traces are. -/
structure Inbox where
  /-- `trace_of`. -/
  traceOf : FeedbackReviewRecord → Option QueryTraceRecord
  /-- `pagination_signing_key`. -/
  signingKey : Option String
  /-- `page_size_limit`. -/
  pageSizeLimit : ℤ

/-- Resume after the cursor, if there is one. -/
def resume (inbox : Inbox) (params : FeedbackListParams) (ordered : List FeedbackReviewRecord) :
    Except CursorError (List FeedbackReviewRecord) :=
  match params.cursor with
  | none => .ok ordered
  | some token =>
    match decodeCursor runtime token inbox.signingKey with
    | .error e => .error e
    | .ok boundary =>
      if boundary.reviewStatus ≠ statusToken params.reviewStatus then
        .error (.invalidCursor "Cursor does not match the requested filter.")
      else
        .ok (following (keyBefore .desc) orderingKey ordered (some (toLex (boundary.createdAt, boundary.lastId))))

/-- The page cut off what is ordered, each item with its trace, and the cursor of
the next one. -/
def cutPage (inbox : Inbox) (params : FeedbackListParams) (ordered : List FeedbackReviewRecord) : FeedbackInboxPage :=
  let pageSize := clampPageSize params.pageSize inbox.pageSizeLimit
  let pageItems := ordered.take pageSize
  { items := pageItems.map fun item => buildFeedbackContext item (inbox.traceOf item)
    nextCursor :=
      if pageSize < ordered.length then
        pageItems.getLast?.map fun last =>
          encodeCursor runtime ⟨params.reviewStatus, last.createdAt, last.feedbackId⟩ inbox.signingKey
      else none }

/-- `list_feedback_inbox`. -/
def listFeedbackInbox (items : List FeedbackReviewRecord) (inbox : Inbox) (params : FeedbackListParams) :
    Except CursorError FeedbackInboxPage :=
  let selected := selectNegative items params.reviewStatus
  let ordered := sortBy (keyBefore .desc) orderingKey selected
  (resume runtime inbox params ordered).map (cutPage runtime inbox params)

end RagSystem.FeedbackInbox
