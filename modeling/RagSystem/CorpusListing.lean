import Mathlib.Data.Prod.Lex
import Mathlib.Data.String.Basic
import RagSystem.Evaluation
import RagSystem.KeysetPaging
import RagSystem.PageCursors

/-!
# The corpus listing

One page of the documents a viewer may see: scoped, filtered, searched, ordered,
resumed at the cursor and cut to the page size. Case folding is a parameter, and
so is the date of a document.
-/

namespace RagSystem.CorpusListing

open Base64 JsonText DocumentModels PageCursors KeysetPaging

set_option autoImplicit false

variable {N M : Type}

/-- `SortField`. -/
inductive SortField where
  | name | owner | date
  deriving DecidableEq

/-- Its value. -/
def SortField.value : SortField → String
  | .name => "name"
  | .owner => "owner"
  | .date => "date"

/-- `SortDirection`. -/
inductive SortDirection where
  | asc | desc
  deriving DecidableEq

/-- Its value. -/
def SortDirection.value : SortDirection → String
  | .asc => "asc"
  | .desc => "desc"

/-- `CorpusListParams`. -/
structure CorpusListParams where
  /-- `sort_field`. -/
  sortField : SortField := .name
  /-- `sort_direction`. -/
  sortDirection : SortDirection := .asc
  /-- `status`. -/
  status : Option DocumentStatus := none
  /-- `owner`, whatever the viewer may see. -/
  owner : Option String := none
  /-- `active_version`. -/
  activeVersion : Option String := none
  /-- The first date. -/
  dateFrom : Option String := none
  /-- The last date. -/
  dateTo : Option String := none
  /-- `search`. -/
  search : Option String := none
  /-- `page_size`. -/
  pageSize : Option ℤ := none
  /-- `cursor`. -/
  cursor : Option String := none

/-- What a listing raises. -/
inductive CorpusError where
  /-- `SearchTermTooLongError`. -/
  | searchTermTooLong (message : String)
  /-- What opening the cursor raises. -/
  | cursor (error : CursorError)
  deriving DecidableEq

/-- `MAX_SEARCH_TERM_LENGTH`. -/
def maxSearchTermLength : ℕ := 200

/-! ## Cursors -/

/-- What `encode_cursor` is given. -/
structure CorpusPosition where
  /-- `sort_field`. -/
  sortField : SortField
  /-- `sort_direction`. -/
  sortDirection : SortDirection
  /-- `sort_value`. -/
  sortValue : String
  /-- `last_id`. -/
  lastId : String

/-- `_CursorBoundary`. -/
structure CursorBoundary where
  /-- `sort_field`. -/
  sortField : String
  /-- `sort_direction`. -/
  sortDirection : String
  /-- `sort_value`. -/
  sortValue : String
  /-- `last_id`. -/
  lastId : String
  deriving DecidableEq

/-- The boundary of a position. -/
def CorpusPosition.boundary (position : CorpusPosition) : CursorBoundary :=
  ⟨position.sortField.value, position.sortDirection.value, position.sortValue, position.lastId⟩

/-- The fields, in the order of their names. -/
def CorpusPosition.fields (position : CorpusPosition) : List (String × String) :=
  [("dir", position.sortDirection.value), ("id", position.lastId), ("pk", position.sortValue),
    ("sf", position.sortField.value)]

variable (runtime : CursorRuntime N M)

/-- `encode_cursor`. -/
def encodeCursor (position : CorpusPosition) (signingKey : Option String) : String :=
  mintCursor runtime (payloadOf runtime position.fields) signingKey

/-- The fields of an object, and whether they are of the vocabulary. -/
def readBoundary (members : List (String × Json M)) : Except CursorError CursorBoundary := do
  let sortField ← fieldText runtime members "sf"
  let sortDirection ← fieldText runtime members "dir"
  let sortValue ← fieldText runtime members "pk"
  let lastId ← fieldText runtime members "id"
  if sortField ∉ ["name", "owner", "date"] then .error (.invalidCursor "Cursor has an unknown sort field.")
  else if sortDirection ∉ ["asc", "desc"] then .error (.invalidCursor "Cursor has an unknown sort direction.")
  else .ok ⟨sortField, sortDirection, sortValue, lastId⟩

/-- `decode_cursor`. -/
def decodeCursor (token : String) (signingKey : Option String) : Except CursorError CursorBoundary := do
  let members ← openCursor runtime token signingKey
  readBoundary runtime members

/-! ## Scoping, filtering, searching, ordering -/

/-- A listing's surroundings. -/
structure Listing (N M : Type) extends CursorRuntime N M where
  /-- `str.casefold`. -/
  casefold : String → String
  /-- `date_of`. -/
  dateOf : DocumentRecord → Option String

/-- `_scope_by_role`. -/
def scopeByRole (documents : List DocumentRecord) (viewerIdentity : Option String) (isOperator : Bool) :
    List DocumentRecord :=
  if isOperator then documents else documents.filter fun doc => doc.owner ≠ none ∧ doc.owner = viewerIdentity

/-- The value of a status. -/
def statusValue : DocumentStatus → String
  | .queued => "queued"
  | .parsing => "parsing"
  | .chunking => "chunking"
  | .embedding => "embedding"
  | .indexed => "indexed"
  | .failed => "failed"
  | .deleted => "deleted"

variable (listing : Listing N M)

/-- `_passes_filters`. -/
def passesFilters (doc : DocumentRecord) (params : CorpusListParams) : Bool :=
  (params.status.all fun status => doc.status = status) &&
  (params.owner.all fun owner => doc.owner = some owner) &&
  (params.activeVersion.all fun version => doc.activeVersion = some version) &&
  (if params.dateFrom.isSome || params.dateTo.isSome then
    match listing.dateOf doc with
    | none => false
    | some date => (params.dateFrom.all fun first => ¬ date < first) && (params.dateTo.all fun last => ¬ last < date)
  else true)

/-- `_searchable_text`. -/
def searchableText (doc : DocumentRecord) : String :=
  listing.casefold ("\n".intercalate
    [doc.id, doc.title, doc.version, statusValue doc.status, doc.owner.getD "", doc.activeVersion.getD ""])

/-- `_matches_search`. -/
def matchesSearch (doc : DocumentRecord) (term : String) : Bool :=
  Evaluation.occursIn (listing.casefold term) (searchableText listing doc)

/-- `_primary_sort_value`. -/
def primarySortValue (doc : DocumentRecord) : SortField → String
  | .name => listing.casefold doc.title
  | .owner => listing.casefold (doc.owner.getD "")
  | .date => (listing.dateOf doc).getD ""

/-- `_ordering_key`. -/
def orderingKey (sortField : SortField) (doc : DocumentRecord) : String ×ₗ String :=
  toLex (primarySortValue listing doc sortField, doc.id)

/-- Which key comes first. -/
def keyBefore (direction : SortDirection) (a b : String ×ₗ String) : Prop :=
  match direction with
  | .asc => a < b
  | .desc => b < a

instance (direction : SortDirection) : DecidableRel (keyBefore direction) := fun a b =>
  match direction with
  | .asc => inferInstanceAs (Decidable (a < b))
  | .desc => inferInstanceAs (Decidable (b < a))

/-- `_clamp_page_size`. -/
def clampPageSize (requested : Option ℤ) (maximum : ℤ) : ℕ :=
  match requested with
  | none => (max 1 maximum).toNat
  | some requested => (max 1 (min requested (max 1 maximum))).toNat

/-- `CorpusPage`. -/
structure CorpusPage where
  /-- `documents`. -/
  documents : List DocumentRecord
  /-- `next_cursor`. -/
  nextCursor : Option String

/-- Who asks, and the settings. -/
structure Viewer where
  /-- `viewer_identity`. -/
  identity : Option String
  /-- `is_operator`. -/
  isOperator : Bool
  /-- `pagination_signing_key`. -/
  signingKey : Option String
  /-- `corpus_page_size`. -/
  maxPageSize : ℤ

/-- The documents that are listed: of the scope, that pass the filters and match the search. -/
def matching (viewer : Viewer) (params : CorpusListParams) (documents : List DocumentRecord) : List DocumentRecord :=
  let filtered := (scopeByRole documents viewer.identity viewer.isOperator).filter (passesFilters listing · params)
  match params.search with
  | none => filtered
  | some term => if term = "" then filtered else filtered.filter (matchesSearch listing · term)

/-- Resume after the cursor, if there is one. -/
def resume (viewer : Viewer) (params : CorpusListParams) (ordered : List DocumentRecord) :
    Except CorpusError (List DocumentRecord) :=
  match params.cursor with
  | none => .ok ordered
  | some token =>
    match decodeCursor listing.toCursorRuntime token viewer.signingKey with
    | .error e => .error (.cursor e)
    | .ok boundary =>
      if boundary.sortField ≠ params.sortField.value ∨ boundary.sortDirection ≠ params.sortDirection.value then
        .error (.cursor (.invalidCursor "Cursor does not match the requested ordering."))
      else
        .ok (following (keyBefore params.sortDirection) (orderingKey listing params.sortField) ordered
          (some (toLex (boundary.sortValue, boundary.lastId))))

/-- The page cut off what is ordered, and the cursor of the next one. -/
def cutPage (viewer : Viewer) (params : CorpusListParams) (ordered : List DocumentRecord) : CorpusPage :=
  let pageSize := clampPageSize params.pageSize viewer.maxPageSize
  let page := ordered.take pageSize
  { documents := page
    nextCursor :=
      if pageSize < ordered.length then
        page.getLast?.map fun last => encodeCursor listing.toCursorRuntime
          ⟨params.sortField, params.sortDirection, primarySortValue listing last params.sortField, last.id⟩ viewer.signingKey
      else none }

/-- `list_corpus`. -/
def listCorpus (documents : List DocumentRecord) (viewer : Viewer) (params : CorpusListParams) :
    Except CorpusError CorpusPage :=
  if params.search.any fun term => maxSearchTermLength < term.length then
    .error (.searchTermTooLong "Search term exceeds 200 characters.")
  else
    let filtered := matching listing viewer params documents
    let ordered := sortBy (keyBefore params.sortDirection) (orderingKey listing params.sortField) filtered
    (resume listing viewer params ordered).map (cutPage listing viewer params)

end RagSystem.CorpusListing
