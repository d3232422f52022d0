import RagSystem.ListingCursors

/-!
# Listings page by page

Following the cursors of a listing visits every document that matches, or every
item of the inbox, once and in order; and while documents come, go and change
between two requests, one that keeps matching and keeps its place is visited
once. Between requests the dates and the traces may be other ones too.
-/

namespace RagSystem.ListingWalks

open Base64 JsonText DocumentModels PageCursors KeysetPaging FeedbackReview QueryModels CorpusListing FeedbackInbox
open ListingCursors

set_option autoImplicit false

variable {N M : Type}

instance (direction : SortDirection) : IsStrictTotalOrder (String ×ₗ String) (keyBefore direction) :=
  match direction with
  | .asc => inferInstanceAs (IsStrictTotalOrder (String ×ₗ String) (· < ·))
  | .desc => inferInstanceAs (IsStrictTotalOrder (String ×ₗ String) (· > ·))

theorem clampPageSize_pos (requested : Option ℤ) (maximum : ℤ) : 0 < clampPageSize requested maximum := by
  cases requested with
  | none =>
    simp only [clampPageSize]
    omega
  | some requested =>
    simp only [clampPageSize]
    omega

/-- A page is cut where the keys say, and the next one's key is put into a token. -/
theorem nextToken_eq {α K T : Type} {before : K → K → Prop} [DecidableRel before] {key : α → K} {size : ℕ}
    {boundary : Option K} {items : List α} {token : K → T} {mint : α → T} (hmint : ∀ a, mint a = token (key a)) :
    (if size < (following before key (KeysetPaging.sortBy before key items) boundary).length then
      (page before key size boundary items).getLast?.map mint else none) =
      (nextBoundary before key size boundary items).map token := by
  unfold nextBoundary
  split
  · rw [Option.map_map]
    congr 1
    exact funext hmint
  · rfl

section Corpus

variable (listing : Listing N M) (dates : ℕ → DocumentRecord → Option String) (corpora : ℕ → List DocumentRecord)
  (viewer : Viewer) (params : CorpusListParams)

/-- The listing with other dates. -/
def dated (dateOf : DocumentRecord → Option String) : Listing N M := { listing with dateOf := dateOf }

/-- The n-th request: of the documents and dates as they are then. -/
def corpusRequest (n : ℕ) (cursor : Option String) : Except CorpusError CorpusPage :=
  listCorpus (dated listing (dates n)) (corpora n) viewer { params with cursor := cursor }

/-- The token of a key. -/
def corpusToken (key : String ×ₗ String) : String :=
  CorpusListing.encodeCursor listing.toCursorRuntime
    ⟨params.sortField, params.sortDirection, (ofLex key).1, (ofLex key).2⟩ viewer.signingKey

/-- The page size. -/
abbrev corpusPageSize : ℕ := clampPageSize params.pageSize viewer.maxPageSize

theorem scopeByRole_sublist (documents : List DocumentRecord) (identity : Option String) (isOperator : Bool) :
    (scopeByRole documents identity isOperator).Sublist documents := by
  unfold scopeByRole
  split
  · exact List.Sublist.refl _
  · exact List.filter_sublist

/-- What is listed are documents of the corpus. -/
theorem matching_sublist (documents : List DocumentRecord) :
    (matching listing viewer params documents).Sublist documents := by
  have hfiltered : ((scopeByRole documents viewer.identity viewer.isOperator).filter
      (passesFilters listing · params)).Sublist documents := List.filter_sublist.trans (scopeByRole_sublist _ _ _)
  unfold matching
  dsimp only
  split
  · exact hfiltered
  · split
    · exact hfiltered
    · exact List.filter_sublist.trans hfiltered

/-- Documents of different ids have different keys. -/
theorem matching_keys_nodup {documents : List DocumentRecord} (hids : (documents.map (·.id)).Nodup) :
    ((matching listing viewer params documents).map (CorpusListing.orderingKey listing params.sortField)).Nodup := by
  have hmatching := hids.sublist ((matching_sublist listing viewer params documents).map (·.id))
  refine List.Nodup.of_map (fun key => (ofLex key).2) ?_
  rw [List.map_map]
  exact hmatching

/-- Resuming at the token of a key is going on after the key. -/
theorem resume_token (boundary : Option (String ×ₗ String)) (ordered : List DocumentRecord) :
    CorpusListing.resume listing viewer { params with cursor := boundary.map (corpusToken listing viewer params) } ordered =
      .ok (following (keyBefore params.sortDirection) (CorpusListing.orderingKey listing params.sortField) ordered boundary) := by
  cases boundary with
  | none => rfl
  | some key =>
    have hdecode : CorpusListing.decodeCursor listing.toCursorRuntime (corpusToken listing viewer params key)
        viewer.signingKey = .ok ⟨params.sortField.value, params.sortDirection.value, (ofLex key).1, (ofLex key).2⟩ :=
      (corpusFormat listing.toCursorRuntime).decode_encode listing.toCursorRuntime _ _
    simp only [CorpusListing.resume, Option.map_some, hdecode, ne_eq, not_true_eq_false, or_self, if_false]
    rfl

/-- The requests answer with pages of the matching documents. -/
theorem corpusRequest_answers (hsearch : params.search.any (fun term => maxSearchTermLength < term.length) = false) :
    Answers (keyBefore params.sortDirection) (fun n => CorpusListing.orderingKey (dated listing (dates n)) params.sortField)
      (corpusPageSize viewer params) (fun n => matching (dated listing (dates n)) viewer params (corpora n))
      CorpusPage.documents (corpusToken listing viewer params) (corpusRequest listing dates corpora viewer params)
      CorpusPage.nextCursor := by
  intro n boundary
  have hresume := resume_token (dated listing (dates n)) viewer params boundary
    (KeysetPaging.sortBy (keyBefore params.sortDirection)
      (CorpusListing.orderingKey (dated listing (dates n)) params.sortField)
      (matching (dated listing (dates n)) viewer params (corpora n)))
  refine ⟨CorpusListing.cutPage (dated listing (dates n)) viewer params _, ?_, rfl, ?_⟩
  · unfold corpusRequest listCorpus
    rw [if_neg (by simp [hsearch])]
    exact congrArg (Except.map _) hresume
  · exact nextToken_eq fun last => rfl

/-- Over a corpus that does not change. -/
theorem corpus_listsAll {documents : List DocumentRecord} (hids : (documents.map (·.id)).Nodup)
    (hsearch : params.search.any (fun term => maxSearchTermLength < term.length) = false) :
    ListsAll (keyBefore params.sortDirection) (CorpusListing.orderingKey listing params.sortField)
      (corpusPageSize viewer params) (matching listing viewer params documents) CorpusPage.documents
      (fun cursor => listCorpus listing documents viewer { params with cursor := cursor }) CorpusPage.nextCursor :=
  listsAll_of_answers
    (corpusRequest_answers listing (fun _ => listing.dateOf) (fun _ => documents) viewer params hsearch)
    (clampPageSize_pos _ _) (matching_keys_nodup listing viewer params hids)

/-- Over one that does. -/
theorem corpus_keepsPlace (hids : ∀ n, ((corpora n).map (·.id)).Nodup)
    (hsearch : params.search.any (fun term => maxSearchTermLength < term.length) = false) :
    KeepsPlace (fun n => CorpusListing.orderingKey (dated listing (dates n)) params.sortField)
      (corpusPageSize viewer params) (fun n => matching (dated listing (dates n)) viewer params (corpora n))
      CorpusPage.documents (corpusRequest listing dates corpora viewer params) CorpusPage.nextCursor :=
  keepsPlace_of_answers (corpusRequest_answers listing dates corpora viewer params hsearch) (clampPageSize_pos _ _)
    fun n => matching_keys_nodup _ viewer params (hids n)

end Corpus

section Feedback

/-- The items of a page. -/
def pageFeedback (page : FeedbackInboxPage) : List FeedbackReviewRecord := page.items.map (·.feedback)

variable (runtime : CursorRuntime N M) (inbox : Inbox) (params : FeedbackListParams)
  (traces : ℕ → FeedbackReviewRecord → Option QueryTraceRecord) (feedback : ℕ → List FeedbackReviewRecord)

/-- The n-th request: of the items and traces as they are then. -/
def inboxRequest (n : ℕ) (cursor : Option String) : Except CursorError FeedbackInboxPage :=
  listFeedbackInbox runtime (feedback n) { inbox with traceOf := traces n } { params with cursor := cursor }

/-- The token of a key. -/
def inboxToken (key : String ×ₗ String) : String :=
  FeedbackInbox.encodeCursor runtime ⟨params.reviewStatus, (ofLex key).1, (ofLex key).2⟩ inbox.signingKey

/-- The page size. -/
abbrev inboxPageSize : ℕ := clampPageSize params.pageSize inbox.pageSizeLimit

/-- Items of different ids have different keys. -/
theorem selected_keys_nodup {items : List FeedbackReviewRecord} (hids : (items.map (·.feedbackId)).Nodup)
    (reviewStatus : Option ReviewStatus) : ((selectNegative items reviewStatus).map FeedbackInbox.orderingKey).Nodup := by
  have hselected : ((selectNegative items reviewStatus).map (·.feedbackId)).Nodup :=
    hids.sublist (List.filter_sublist.map _)
  refine List.Nodup.of_map (fun key => (ofLex key).2) ?_
  rw [List.map_map]
  exact hselected

/-- Resuming at the token of a key is going on after the key. -/
theorem resume_inboxToken (boundary : Option (String ×ₗ String)) (ordered : List FeedbackReviewRecord) :
    FeedbackInbox.resume runtime inbox { params with cursor := boundary.map (inboxToken runtime inbox params) } ordered =
      .ok (following (keyBefore .desc) FeedbackInbox.orderingKey ordered boundary) := by
  cases boundary with
  | none => rfl
  | some key =>
    have hdecode : FeedbackInbox.decodeCursor runtime (inboxToken runtime inbox params key) inbox.signingKey =
        .ok ⟨statusToken params.reviewStatus, (ofLex key).1, (ofLex key).2⟩ :=
      (inboxFormat runtime).decode_encode runtime _ _
    simp only [FeedbackInbox.resume, Option.map_some, hdecode, ne_eq, not_true_eq_false, if_false]
    rfl

/-- An item's context has the item. -/
theorem buildFeedbackContext_feedback (item : FeedbackReviewRecord) (trace : Option QueryTraceRecord) :
    (buildFeedbackContext item trace).feedback = item := by
  cases trace <;> rfl

/-- The requests answer with pages of the selected items. -/
theorem inboxRequest_answers :
    Answers (keyBefore .desc) (fun _ => FeedbackInbox.orderingKey) (inboxPageSize inbox params)
      (fun n => selectNegative (feedback n) params.reviewStatus) pageFeedback
      (inboxToken runtime inbox params) (inboxRequest runtime inbox params traces feedback)
      FeedbackInboxPage.nextCursor := by
  intro n boundary
  have hresume := resume_inboxToken runtime { inbox with traceOf := traces n } params boundary
    (KeysetPaging.sortBy (keyBefore .desc) FeedbackInbox.orderingKey (selectNegative (feedback n) params.reviewStatus))
  refine ⟨FeedbackInbox.cutPage runtime { inbox with traceOf := traces n } params _, congrArg (Except.map _) hresume, ?_, ?_⟩
  · simp only [pageFeedback, FeedbackInbox.cutPage, List.map_map]
    exact (List.map_congr_left fun item _ => buildFeedbackContext_feedback item _).trans (List.map_id _)
  · exact nextToken_eq fun last => rfl

/-- Over items that do not change. -/
theorem inbox_listsAll {items : List FeedbackReviewRecord} (hids : (items.map (·.feedbackId)).Nodup) :
    ListsAll (keyBefore .desc) FeedbackInbox.orderingKey (inboxPageSize inbox params)
      (selectNegative items params.reviewStatus) pageFeedback
      (fun cursor => listFeedbackInbox runtime items inbox { params with cursor := cursor })
      FeedbackInboxPage.nextCursor :=
  listsAll_of_answers (inboxRequest_answers runtime inbox params (fun _ => inbox.traceOf) fun _ => items)
    (clampPageSize_pos _ _) (selected_keys_nodup hids _)

/-- Over items that do. -/
theorem inbox_keepsPlace (hids : ∀ n, ((feedback n).map (·.feedbackId)).Nodup) :
    KeepsPlace (fun _ => FeedbackInbox.orderingKey) (inboxPageSize inbox params)
      (fun n => selectNegative (feedback n) params.reviewStatus) pageFeedback
      (inboxRequest runtime inbox params traces feedback) FeedbackInboxPage.nextCursor :=
  keepsPlace_of_answers (inboxRequest_answers runtime inbox params traces feedback) (clampPageSize_pos _ _)
    fun n => selected_keys_nodup (hids n) _

end Feedback

section Visits

/-- Following the cursors of both listings visits what matches once, in order, and
what keeps its place once while the rest changes; no page is too long. -/
theorem listings_visit_once (listing : Listing N M) (viewer : Viewer) (params : CorpusListParams)
    (hsearch : params.search.any (fun term => maxSearchTermLength < term.length) = false)
    (dates : ℕ → DocumentRecord → Option String) (documents : List DocumentRecord) (corpora : ℕ → List DocumentRecord)
    (hdocuments : (documents.map (·.id)).Nodup) (hcorpora : ∀ n, ((corpora n).map (·.id)).Nodup)
    (inbox : Inbox) (inboxParams : FeedbackListParams) (traces : ℕ → FeedbackReviewRecord → Option QueryTraceRecord)
    (items : List FeedbackReviewRecord) (feedback : ℕ → List FeedbackReviewRecord)
    (hitems : (items.map (·.feedbackId)).Nodup) (hfeedback : ∀ n, ((feedback n).map (·.feedbackId)).Nodup) :
    ListsAll (keyBefore params.sortDirection) (CorpusListing.orderingKey listing params.sortField)
        (corpusPageSize viewer params) (matching listing viewer params documents) CorpusPage.documents
        (fun cursor => listCorpus listing documents viewer { params with cursor := cursor }) CorpusPage.nextCursor ∧
      KeepsPlace (fun n => CorpusListing.orderingKey (dated listing (dates n)) params.sortField)
        (corpusPageSize viewer params) (fun n => matching (dated listing (dates n)) viewer params (corpora n))
        CorpusPage.documents (corpusRequest listing dates corpora viewer params) CorpusPage.nextCursor ∧
      ListsAll (keyBefore .desc) FeedbackInbox.orderingKey (inboxPageSize inbox inboxParams)
        (selectNegative items inboxParams.reviewStatus) pageFeedback
        (fun cursor => listFeedbackInbox listing.toCursorRuntime items inbox { inboxParams with cursor := cursor })
        FeedbackInboxPage.nextCursor ∧
      KeepsPlace (fun _ => FeedbackInbox.orderingKey) (inboxPageSize inbox inboxParams)
        (fun n => selectNegative (feedback n) inboxParams.reviewStatus) pageFeedback
        (inboxRequest listing.toCursorRuntime inbox inboxParams traces feedback) FeedbackInboxPage.nextCursor :=
  ⟨corpus_listsAll listing viewer params hdocuments hsearch,
    corpus_keepsPlace listing dates corpora viewer params hcorpora hsearch,
    inbox_listsAll listing.toCursorRuntime inbox inboxParams hitems,
    inbox_keepsPlace listing.toCursorRuntime inbox inboxParams traces feedback hfeedback⟩

/-- A document of the sample. -/
def sampleDocument (id : DocumentId) : DocumentRecord where
  id := id
  title := "report"
  version := "v1"
  s3Uri := "s3://rag/raw/report.pdf"
  status := .indexed

/-- An operator, and pages of one document. -/
def sampleViewer : Viewer := ⟨none, true, sampleKey, 1⟩

/-- Two documents of one name, and one of them goes: following the cursors still
visits the other one once. -/
theorem listings_visit_once_sample :
    ListsAll (keyBefore .asc) (CorpusListing.orderingKey sampleListing .name) 1
        (matching sampleListing sampleViewer {} [sampleDocument "a", sampleDocument "b"]) CorpusPage.documents
        (fun cursor => listCorpus sampleListing [sampleDocument "a", sampleDocument "b"] sampleViewer { cursor := cursor })
        CorpusPage.nextCursor ∧
      KeepsPlace (fun _ => CorpusListing.orderingKey sampleListing .name) 1
        (fun n => matching sampleListing sampleViewer {} (if n = 0 then [sampleDocument "a", sampleDocument "b"] else
          [sampleDocument "b"])) CorpusPage.documents
        (corpusRequest sampleListing (fun _ _ => none) (fun n => if n = 0 then [sampleDocument "a", sampleDocument "b"] else
          [sampleDocument "b"]) sampleViewer {}) CorpusPage.nextCursor := by
  have hids : ∀ n, ((if n = 0 then [sampleDocument "a", sampleDocument "b"] else [sampleDocument "b"]).map (·.id)).Nodup := by
    intro n
    split <;> decide
  have hboth := listings_visit_once sampleListing sampleViewer {} rfl (fun _ _ => none)
    [sampleDocument "a", sampleDocument "b"] (fun n => if n = 0 then [sampleDocument "a", sampleDocument "b"] else
      [sampleDocument "b"]) (by decide) hids ⟨fun _ => none, none, 1⟩ {} (fun _ _ => none) [] (fun _ => []) List.nodup_nil
    fun _ => List.nodup_nil
  exact ⟨hboth.1, hboth.2.1⟩

end Visits

end RagSystem.ListingWalks
