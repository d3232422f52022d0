import RagSystem.FeedbackInbox
import RagSystem.PythonNumbers

/-!
# Which tokens the listings take as cursors

A token that shows a signed payload is taken however its two parts are spelled:
base64 is read loosely, and the signature is of the bytes read. So the outputs
of the encoders are the only tokens taken just when no part is spelled loosely.
A cursor of another ordering or another filter is never taken.
-/

namespace RagSystem.ListingCursors

open Base64 JsonText PageCursors CorpusListing FeedbackInbox FeedbackReview DocumentModels

set_option autoImplicit false

variable {N M : Type}

section Formats

variable (runtime : CursorRuntime N M)

/-- What raises nothing but `InvalidCursorError`. -/
def OnlyInvalid {α : Type} (result : Except CursorError α) : Prop := ∀ e, result = .error e → e.IsInvalid

theorem OnlyInvalid.ok {α : Type} (a : α) : OnlyInvalid (.ok a) := fun _ h => nomatch h

theorem OnlyInvalid.error {α : Type} (message : String) : OnlyInvalid (.error (.invalidCursor message) : Except CursorError α) := by
  intro e h
  cases h
  trivial

theorem OnlyInvalid.bind {α β : Type} {result : Except CursorError α} {next : α → Except CursorError β}
    (hresult : OnlyInvalid result) (hnext : ∀ a, OnlyInvalid (next a)) : OnlyInvalid (result >>= next) := by
  cases result with
  | error e => exact fun _ h => Except.error.inj h ▸ hresult e rfl
  | ok a => exact hnext a

theorem onlyInvalid_fieldText (members : List (String × Json M)) (name : String) :
    OnlyInvalid (fieldText runtime members name) := by
  unfold fieldText
  split
  · exact .ok _
  · exact .ok _
  · exact .error _

/-- The cursors of the corpus listing. -/
def corpusFormat : CursorFormat M CorpusPosition CorpusListing.CursorBoundary where
  fields := CorpusPosition.fields
  boundary := CorpusPosition.boundary
  read := CorpusListing.readBoundary runtime
  read_fields position := by
    obtain ⟨sortField, sortDirection, sortValue, lastId⟩ := position
    cases sortField <;> cases sortDirection <;> rfl
  read_invalid members := by
    refine (onlyInvalid_fieldText runtime members "sf").bind fun sortField => ?_
    refine (onlyInvalid_fieldText runtime members "dir").bind fun sortDirection => ?_
    refine (onlyInvalid_fieldText runtime members "pk").bind fun sortValue => ?_
    refine (onlyInvalid_fieldText runtime members "id").bind fun lastId => ?_
    split
    · exact .error _
    · split
      · exact .error _
      · exact .ok _

/-- The cursors of the feedback inbox. -/
def inboxFormat : CursorFormat M InboxPosition FeedbackInbox.CursorBoundary where
  fields := InboxPosition.fields
  boundary := InboxPosition.boundary
  read := FeedbackInbox.readBoundary runtime
  read_fields position := by
    obtain ⟨reviewStatus, createdAt, lastId⟩ := position
    cases reviewStatus with
    | none => rfl
    | some status => cases status <;> rfl
  read_invalid members := by
    refine (onlyInvalid_fieldText runtime members "rs").bind fun reviewStatus => ?_
    refine (onlyInvalid_fieldText runtime members "ts").bind fun createdAt => ?_
    refine (onlyInvalid_fieldText runtime members "id").bind fun lastId => ?_
    split
    · exact .error _
    · exact .ok _

/-- A cursor of the inbox lacks fields of the corpus listing's. -/
theorem corpus_read_inbox (position : InboxPosition) :
    (corpusFormat runtime).read (position.fields.map fun field => (field.1, .str field.2)) =
      .error (.invalidCursor "Cursor payload is missing fields.") := rfl

/-- And the other way round. -/
theorem inbox_read_corpus (position : CorpusPosition) :
    (inboxFormat runtime).read (position.fields.map fun field => (field.1, .str field.2)) =
      .error (.invalidCursor "Cursor payload is missing fields.") := rfl

end Formats

section ExactCursors

/-- A payload that one of the two encoders signs. -/
def Issued (runtime : CursorRuntime N M) (payload : Bytes) : Prop :=
  (∃ position : CorpusPosition, payload = payloadOf runtime position.fields) ∨
    ∃ position : InboxPosition, payload = payloadOf runtime position.fields

/-- The token forges no MAC: a payload it shows with its MAC was signed. -/
def Unforged (runtime : CursorRuntime N M) (signingKey : Option String) (token : String) : Prop :=
  ∀ payload payloadB64 signatureB64, Shows runtime signingKey token payload payloadB64 signatureB64 → Issued runtime payload

/-- The token's parts are read as a payload and its MAC, and one of them is not
what base64url writes. -/
def LooselySpelled (runtime : CursorRuntime N M) (signingKey : Option String) (token : String) : Prop :=
  ∃ payload payloadB64 signatureB64, Shows runtime signingKey token payload payloadB64 signatureB64 ∧
    ¬ (Canonical payloadB64 ∧ Canonical signatureB64)

/-- What is expected of a token: both decoders take exactly the outputs of their
encoder, and no listing takes a cursor of another ordering or filter. -/
structure CursorsExact (listing : Listing N M) (signingKey : Option String) (token : String) : Prop where
  /-- `decode_cursor` of the corpus listing. -/
  corpus : Exact (fun position => CorpusListing.encodeCursor listing.toCursorRuntime position signingKey)
    CorpusPosition.boundary (fun token => CorpusListing.decodeCursor listing.toCursorRuntime token signingKey) token
  /-- `decode_cursor` of the inbox. -/
  inbox : Exact (fun position => FeedbackInbox.encodeCursor listing.toCursorRuntime position signingKey)
    InboxPosition.boundary (fun token => FeedbackInbox.decodeCursor listing.toCursorRuntime token signingKey) token
  /-- A cursor of another sort field or direction is refused. -/
  corpus_ordering : ∀ (position : CorpusPosition) (documents : List DocumentRecord) (viewer : Viewer)
    (params : CorpusListParams), viewer.signingKey = signingKey →
      token = CorpusListing.encodeCursor listing.toCursorRuntime position signingKey → params.cursor = some token →
      (position.sortField ≠ params.sortField ∨ position.sortDirection ≠ params.sortDirection) →
        listCorpus listing documents viewer params =
          if params.search.any (fun term => maxSearchTermLength < term.length) then
            .error (.searchTermTooLong "Search term exceeds 200 characters.")
          else .error (.cursor (.invalidCursor "Cursor does not match the requested ordering."))
  /-- A cursor of another review status is refused. -/
  inbox_filter : ∀ (position : InboxPosition) (items : List FeedbackReviewRecord) (inbox : Inbox)
    (params : FeedbackListParams), inbox.signingKey = signingKey →
      token = FeedbackInbox.encodeCursor listing.toCursorRuntime position signingKey → params.cursor = some token →
      position.reviewStatus ≠ params.reviewStatus →
        listFeedbackInbox listing.toCursorRuntime items inbox params =
          .error (.invalidCursor "Cursor does not match the requested filter.")

variable {listing : Listing N M} {signingKey : Option String} {token : String}

theorem SortField.value_inj {a b : SortField} (h : a.value = b.value) : a = b := by
  cases a <;> cases b <;> first | rfl | exact absurd h (by decide)

theorem SortDirection.value_inj {a b : SortDirection} (h : a.value = b.value) : a = b := by
  cases a <;> cases b <;> first | rfl | exact absurd h (by decide)

theorem statusToken_inj {a b : Option ReviewStatus} (h : statusToken a = statusToken b) : a = b := by
  rcases a with - | a <;> rcases b with - | b
  · rfl
  · cases b <;> exact absurd h (by decide)
  · cases a <;> exact absurd h (by decide)
  · cases a <;> cases b <;> first | rfl | exact absurd h (by decide)

/-- A cursor of another ordering is refused, whoever spells it. -/
theorem listCorpus_other_ordering (position : CorpusPosition) (documents : List DocumentRecord) (viewer : Viewer)
    (params : CorpusListParams)
    (hcursor : params.cursor = some (CorpusListing.encodeCursor listing.toCursorRuntime position viewer.signingKey))
    (hother : position.sortField ≠ params.sortField ∨ position.sortDirection ≠ params.sortDirection) :
    listCorpus listing documents viewer params =
      if params.search.any (fun term => maxSearchTermLength < term.length) then
        .error (.searchTermTooLong "Search term exceeds 200 characters.")
      else .error (.cursor (.invalidCursor "Cursor does not match the requested ordering.")) := by
  have hdecode : CorpusListing.decodeCursor listing.toCursorRuntime
      (CorpusListing.encodeCursor listing.toCursorRuntime position viewer.signingKey) viewer.signingKey =
        .ok position.boundary := (corpusFormat listing.toCursorRuntime).decode_encode listing.toCursorRuntime _ position
  have hmismatch : position.boundary.sortField ≠ params.sortField.value ∨
      position.boundary.sortDirection ≠ params.sortDirection.value :=
    hother.imp (fun h he => h (SortField.value_inj he)) fun h he => h (SortDirection.value_inj he)
  have hresume : ∀ ordered, CorpusListing.resume listing viewer params ordered =
      .error (.cursor (.invalidCursor "Cursor does not match the requested ordering.")) := by
    intro ordered
    simp only [CorpusListing.resume, hcursor, hdecode, if_pos hmismatch]
  simp only [listCorpus, hresume, Except.map]

/-- So is a cursor of another filter. -/
theorem listFeedbackInbox_other_filter {runtime : CursorRuntime N M} (position : InboxPosition)
    (items : List FeedbackReviewRecord) (inbox : Inbox) (params : FeedbackListParams)
    (hcursor : params.cursor = some (FeedbackInbox.encodeCursor runtime position inbox.signingKey))
    (hother : position.reviewStatus ≠ params.reviewStatus) :
    listFeedbackInbox runtime items inbox params = .error (.invalidCursor "Cursor does not match the requested filter.") := by
  have hdecode : FeedbackInbox.decodeCursor runtime (FeedbackInbox.encodeCursor runtime position inbox.signingKey)
      inbox.signingKey = .ok position.boundary := (inboxFormat runtime).decode_encode runtime _ position
  have hmismatch : position.boundary.reviewStatus ≠ statusToken params.reviewStatus :=
    fun he => hother (statusToken_inj he)
  have hresume : ∀ ordered, FeedbackInbox.resume runtime inbox params ordered =
      .error (.invalidCursor "Cursor does not match the requested filter.") := by
    intro ordered
    simp only [FeedbackInbox.resume, hcursor, hdecode, if_pos hmismatch]
  simp only [listFeedbackInbox, hresume, Except.map]

/-- Both decoders are exact on a token with no loose spelling. -/
theorem cursorsExact_of_canonical (hunforged : Unforged listing.toCursorRuntime signingKey token)
    (hcanonical : ¬ LooselySpelled listing.toCursorRuntime signingKey token) : CursorsExact listing signingKey token := by
  have hparts : ∀ payload payloadB64 signatureB64,
      Shows listing.toCursorRuntime signingKey token payload payloadB64 signatureB64 →
        Canonical payloadB64 ∧ Canonical signatureB64 := by
    intro payload payloadB64 signatureB64 hs
    by_contra hloose
    exact hcanonical ⟨_, _, _, hs, hloose⟩
  refine ⟨?_, ?_, ?_, ?_⟩
  · refine (corpusFormat listing.toCursorRuntime).exact_of_canonical fun payload payloadB64 signatureB64 hs =>
      ⟨hparts _ _ _ hs, ?_⟩
    rcases hunforged _ _ _ hs with ⟨position, rfl⟩ | ⟨position, rfl⟩
    · exact ⟨_, rfl, .inl ⟨position, rfl⟩⟩
    · exact ⟨_, rfl, .inr ⟨_, corpus_read_inbox _ position⟩⟩
  · refine (inboxFormat listing.toCursorRuntime).exact_of_canonical fun payload payloadB64 signatureB64 hs =>
      ⟨hparts _ _ _ hs, ?_⟩
    rcases hunforged _ _ _ hs with ⟨position, rfl⟩ | ⟨position, rfl⟩
    · exact ⟨_, rfl, .inr ⟨_, inbox_read_corpus _ position⟩⟩
    · exact ⟨_, rfl, .inl ⟨position, rfl⟩⟩
  · rintro position documents viewer params rfl rfl hcursor hother
    exact listCorpus_other_ordering position documents viewer params hcursor hother
  · rintro position items inbox params rfl rfl hcursor hother
    exact listFeedbackInbox_other_filter position items inbox params hcursor hother

/-- The decoders are exact on a token that forges no MAC exactly when neither of
its parts is spelled loosely. -/
theorem cursors_exact_iff (listing : Listing N M) (signingKey : Option String) (token : String)
    (hunforged : Unforged listing.toCursorRuntime signingKey token) :
    CursorsExact listing signingKey token ↔ ¬ LooselySpelled listing.toCursorRuntime signingKey token := by
  refine ⟨fun hexact => ?_, cursorsExact_of_canonical hunforged⟩
  rintro ⟨payload, payloadB64, signatureB64, hs, hloose⟩
  rcases hunforged _ _ _ hs with ⟨position, rfl⟩ | ⟨position, rfl⟩
  · exact (corpusFormat listing.toCursorRuntime).not_exact_of_loose hs hloose hexact.corpus
  · exact (inboxFormat listing.toCursorRuntime).not_exact_of_loose hs hloose hexact.inbox

/-- A token that shows a signed payload forges none. -/
theorem unforged_of_shows {runtime : CursorRuntime N M} {payload : Bytes} {payloadB64 signatureB64 : List Char}
    (hs : Shows runtime signingKey token payload payloadB64 signatureB64) (hissued : Issued runtime payload) :
    Unforged runtime signingKey token := by
  intro payload' _ _ hs'
  rw [(hs.unique hs').1]
  exact hissued

/-- Four foreign characters behind a cursor make a token that is taken as the cursor. -/
theorem decodeCursor_extended (runtime : CursorRuntime N M) (position : CorpusPosition) (signingKey : Option String) :
    CorpusListing.decodeCursor runtime (CorpusListing.encodeCursor runtime position signingKey ++ "!!!!") signingKey =
      .ok position.boundary :=
  (corpusFormat runtime).decode_of_shows (shows_extended runtime _ signingKey)

/-- A cursor is spelled in the one way. -/
theorem not_looselySpelled_encode (runtime : CursorRuntime N M) (position : CorpusPosition) (signingKey : Option String) :
    ¬ LooselySpelled runtime signingKey (CorpusListing.encodeCursor runtime position signingKey) := by
  rintro ⟨payload, payloadB64, signatureB64, hs, hloose⟩
  have hsame := (shows_mint runtime (payloadOf runtime position.fields) signingKey).unique hs
  rw [hsame.2.1, hsame.2.2] at hloose
  exact hloose ⟨canonical_encode _, canonical_encode _⟩

end ExactCursors

section Sample

/-- The MAC of the sample's payload under its key. -/
def sampleMac : Bytes :=
  [156, 107, 20, 39, 234, 152, 127, 153, 173, 78, 82, 25, 144, 183, 136, 114, 26, 184, 40, 108, 19, 34, 127, 16, 222, 2,
    233, 250, 22, 162, 187, 74]

/-- A listing whose MACs are that one. -/
def sampleListing : Listing ℤ ℤ where
  numbers := PythonNumbers.wholeNumbers
  render := fun _ => ""
  exhausts := fun _ => false
  hmacSha256 := fun _ _ => sampleMac
  exhausts_flat := fun _ => rfl
  casefold := fun text => text
  dateOf := fun _ => none

/-- The sample's key. -/
def sampleKey : Option String := some "pagination-key"

/-- After the document `doc-1`, named `report`. -/
def samplePosition : CorpusPosition := ⟨.name, .asc, "report", "doc-1"⟩

/-- Its cursor. -/
def sampleCursor : String := CorpusListing.encodeCursor sampleListing.toCursorRuntime samplePosition sampleKey

theorem cursors_exact_sample : CursorsExact sampleListing sampleKey sampleCursor :=
  (cursors_exact_iff sampleListing sampleKey sampleCursor
    (unforged_of_shows (shows_mint sampleListing.toCursorRuntime _ sampleKey) (.inl ⟨samplePosition, rfl⟩))).mpr
    (not_looselySpelled_encode sampleListing.toCursorRuntime samplePosition sampleKey)

/-- The cursor with four exclamation marks behind it forges no MAC, and is taken. -/
theorem extended_cursor_taken : Unforged sampleListing.toCursorRuntime sampleKey (sampleCursor ++ "!!!!") ∧
    ¬ CursorsExact sampleListing sampleKey (sampleCursor ++ "!!!!") := by
  have hs := shows_extended sampleListing.toCursorRuntime
    (payloadOf sampleListing.toCursorRuntime samplePosition.fields) sampleKey
  refine ⟨unforged_of_shows hs (.inl ⟨samplePosition, rfl⟩), fun hexact => ?_⟩
  exact (corpusFormat sampleListing.toCursorRuntime).not_exact_of_loose hs
    (fun hcanonical => not_canonical_extended _ hcanonical.2) hexact.corpus

end Sample

end RagSystem.ListingCursors
