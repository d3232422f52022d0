import RagSystem.CompareAndSwap
import RagSystem.DocumentModels

/-!
# What the document service talks to

The keys of the JSON artifacts and what is stored under each, the calls that
are not JSON reads and writes (record caches, raw files, chunk objects, the
vector index, the queue, parsing and embedding), and what every call does to
the state. Parsers, splitters and embedders may return anything.
-/

namespace RagSystem.DocumentStore

open AtomicProgram RelyGuarantee VersionedCell Storage DocumentModels

set_option autoImplicit false

/-- The JSON artifacts of a document. -/
inductive Key where
  /-- `document_record_key`. -/
  | documentRecord (documentId : DocumentId)
  /-- `document_version_index_key`. -/
  | documentVersionIndex (documentId : DocumentId)
  /-- `document_version_key`. -/
  | documentVersion (documentId : DocumentId) (version : Version)
  /-- `ingestion_event_key`. -/
  | ingestionEvent (documentId : DocumentId) (ingestionId : String)
  /-- `parsed_key`. -/
  | parsed (documentId : DocumentId) (version : Version)
  /-- `embedding_manifest_key`. -/
  | embeddingManifest (documentId : DocumentId) (version : Version)
  deriving DecidableEq

/-- What is stored under each key. -/
abbrev Payload : Key → Type
  | .documentRecord _ => DocumentRecord
  | .documentVersionIndex _ => DocumentVersionIndex
  | .documentVersion _ _ => DocumentVersion
  | .ingestionEvent _ _ => IngestionEvent
  | .parsed _ _ => ParsedDocument
  | .embeddingManifest _ _ => EmbeddingManifest

/-- The exceptions the service raises itself. -/
inductive ServiceError where
  /-- `DocumentDeletedError`. -/
  | documentDeleted (documentId : DocumentId)
  /-- `StaleIngestionError`. -/
  | staleIngestion (documentId : DocumentId) (attempted current : Version)
  /-- `DocumentVersionNotFoundError`. -/
  | versionNotFound (documentId : DocumentId) (version : Version)
  /-- The store's `NotFound` on a raw file. -/
  | notFound
  /-- `ValueError`. -/
  | valueError (message : String)
  /-- `RuntimeError`. -/
  | runtimeError (message : String)
  deriving DecidableEq

/-- Everything a call can raise. -/
abbrev Err := StoreError Key ServiceError

/-- The object key an exception about `k` shows. -/
def Key.path : Key → String
  | .documentRecord d => "documents/" ++ d ++ "/record.json"
  | .documentVersionIndex d => "documents/" ++ d ++ "/versions/index.json"
  | .documentVersion d v => "documents/" ++ d ++ "/versions/" ++ v ++ ".json"
  | .ingestionEvent d i => "documents/" ++ d ++ "/ingestions/" ++ i ++ ".json"
  | .parsed d v => "parsed/" ++ d ++ "/" ++ v ++ "/llamaparse.json"
  | .embeddingManifest d v => "embeddings/" ++ d ++ "/" ++ v ++ "/manifest.json"

/-- `str(exc)`. -/
def message : Err → String
  | .preconditionFailed k => k.path
  | .raised m => m
  | .app (.documentDeleted d) => "Document " ++ d ++ " was deleted; refusing to resurrect it"
  | .app (.staleIngestion d attempted current) =>
    "Document " ++ d ++ " ingestion for version " ++ attempted ++
      " is stale; current stored version is " ++ current
  | .app (.versionNotFound d v) => "Document " ++ d ++ " has no version " ++ v ++ " to restore"
  | .app .notFound => "NotFound"
  | .app (.valueError m) => m
  | .app (.runtimeError m) => m

/-- A call that is not a read or write of a JSON artifact. -/
inductive ServiceCall where
  /-- `self._documents.get`. -/
  | cacheGet (p : ProcessId) (d : DocumentId)
  /-- `self._documents[..] = record`. -/
  | cachePut (p : ProcessId) (record : DocumentRecord)
  /-- The upload of a raw file. -/
  | putRaw (d : DocumentId) (v : Version) (suffix : String) (content : Bytes)
  /-- The download of a raw file. -/
  | getRaw (d : DocumentId) (v : Version) (suffix : String)
  /-- `put_chunks`. -/
  | putChunks (d : DocumentId) (v : Version) (chunks : List Chunk)
  /-- `get_chunks`. -/
  | getChunks (d : DocumentId) (v : Version)
  /-- One batch of `upsert`. -/
  | upsertBatch (batch : List Chunk)
  /-- `delete_document` of the vector index. -/
  | deleteDocument (d : DocumentId)
  /-- `delete_document_version`. -/
  | deleteDocumentVersion (d : DocumentId) (v : Version)
  /-- `delete_document_except_version`. -/
  | deleteDocumentExceptVersion (d : DocumentId) (v : Version)
  /-- `parser.parse`; the text is whatever the parser makes of the file. -/
  | parse (d : DocumentId) (v : Version) (filename : String) (content : Bytes)
  /-- The sentence splitter; the nodes are whatever it makes of the text. -/
  | splitNodes (text : String)
  /-- `embedder.embed_chunks`. -/
  | embedChunks (chunks : List Chunk)
  /-- `sparse_encoder.encode_documents`. -/
  | encodeDocuments (chunks : List Chunk)
  /-- `queue.enqueue`. -/
  | enqueue (job : IngestionJob)
  /-- `queue.delete`: acknowledge the message of a job. -/
  | acknowledge (job : IngestionJob)
  /-- `datetime.now(timezone.utc).isoformat()`. -/
  | now
  /-- `str(uuid.uuid4())`, never the id of an event the document already has. -/
  | newIngestionId (d : DocumentId)
  deriving DecidableEq

/-- What each of these calls returns. -/
abbrev ServiceAnswer : ServiceCall → Type
  | .cacheGet _ _ => Option DocumentRecord
  | .cachePut _ _ => Unit
  | .putRaw _ _ _ _ => Unit
  | .getRaw _ _ _ => Bytes
  | .putChunks _ _ _ => Unit
  | .getChunks _ _ => List Chunk
  | .upsertBatch _ => Unit
  | .deleteDocument _ => Unit
  | .deleteDocumentVersion _ _ => Unit
  | .deleteDocumentExceptVersion _ _ => Unit
  | .parse _ _ _ _ => String
  | .splitNodes _ => List String
  | .embedChunks _ => Unit
  | .encodeDocuments _ => Unit
  | .enqueue _ => Unit
  | .acknowledge _ => Unit
  | .now => String
  | .newIngestionId _ => String

/-- The state the service shares besides the JSON artifacts. -/
structure Service where
  /-- Each process's record cache. -/
  cache : ProcessId → DocumentId → Option DocumentRecord
  /-- The raw files, by document, version and suffix. -/
  raw : DocumentId → Version → String → Option Bytes
  /-- The retained chunk objects. -/
  chunks : DocumentId → Version → Option (List Chunk)
  /-- The vector index: the chunk each vector id was upserted for. -/
  vectors : ChunkId → Option Chunk
  /-- The ingestion messages published and not acknowledged. -/
  jobs : List IngestionJob

/-- The whole state. -/
abbrev World := StoreState Payload Service

/-- A program of the service. -/
abbrev Prog (α : Type) := StoreProgram ServiceError Payload ServiceAnswer α

/-- One of the service's calls. -/
abbrev Action := StoreAction Payload ServiceCall

instance (a : Action) (x : ServiceCall) : Decidable (a = .other x) :=
  match a with
  | .other y => decidable_of_iff (y = x) ⟨congrArg _, fun h => by injection h⟩
  | .getJson _ => isFalse nofun
  | .getJsonWithEtag _ => isFalse nofun
  | .putJson _ _ => isFalse nofun
  | .putJsonConditional _ _ _ => isFalse nofun

/-- What a call returns. -/
abbrev Answer : Action → Type := StoreAnswer (P := Payload) ServiceAnswer

/-- One performed call with its answer. -/
abbrev CallEvent := Event Err Answer

/-- What the environment decides about a call that is not to the JSON store. -/
inductive Fate where
  /-- It goes through. -/
  | proceed
  /-- It raises and does nothing. -/
  | raise (message : String)
  /-- It raises after part of a batch was written. -/
  | partly (count : ℕ) (message : String)
  /-- It returns this text. -/
  | text (s : String)
  /-- It returns these nodes. -/
  | nodes (ns : List String)

/-- Write the vectors of some chunks, each under its own id. -/
def upsertVectors (vectors : ChunkId → Option Chunk) (batch : List Chunk) : ChunkId → Option Chunk :=
  batch.foldl (fun vs c => Function.update vs c.id (some c)) vectors

/-- Remove the vectors whose chunk meets a filter. -/
def deleteVectors (vectors : ChunkId → Option Chunk) (filter : Chunk → Bool) : ChunkId → Option Chunk :=
  fun i => (vectors i).filter fun c => !filter c

/-- What a call outside the JSON store does and returns. -/
@[grind =] def perform? : (x : ServiceCall) → Fate → World → Option (Except Err (ServiceAnswer x) × Service)
  | .cacheGet p d, .proceed, w => some (.ok (w.rest.cache p d), w.rest)
  | .cachePut p record, .proceed, w =>
    some (.ok (), { w.rest with
      cache := Function.update w.rest.cache p (Function.update (w.rest.cache p) record.id (some record)) })
  | .putRaw d v suffix content, .proceed, w =>
    some (.ok (), { w.rest with
      raw := fun d' v' suffix' =>
        if d' = d ∧ v' = v ∧ suffix' = suffix then some content else w.rest.raw d' v' suffix' })
  | .getRaw d v suffix, .proceed, w =>
    match w.rest.raw d v suffix with
    | some content => some (.ok content, w.rest)
    | none => some (.error (.app .notFound), w.rest)
  | .putChunks d v chunks, .proceed, w =>
    some (.ok (), { w.rest with
      chunks := fun d' v' => if d' = d ∧ v' = v then some chunks else w.rest.chunks d' v' })
  | .getChunks d v, .proceed, w => some (.ok ((w.rest.chunks d v).getD []), w.rest)
  | .upsertBatch batch, .proceed, w =>
    some (.ok (), { w.rest with vectors := upsertVectors w.rest.vectors batch })
  | .upsertBatch batch, .partly n m, w =>
    some (.error (.raised m), { w.rest with vectors := upsertVectors w.rest.vectors (batch.take n) })
  | .deleteDocument d, .proceed, w =>
    some (.ok (), { w.rest with vectors := deleteVectors w.rest.vectors fun c => c.documentId = d })
  | .deleteDocumentVersion d v, .proceed, w =>
    some (.ok (), { w.rest with
      vectors := deleteVectors w.rest.vectors fun c => c.documentId = d ∧ c.version = v })
  | .deleteDocumentExceptVersion d v, .proceed, w =>
    some (.ok (), { w.rest with
      vectors := deleteVectors w.rest.vectors fun c => c.documentId = d ∧ c.version ≠ v })
  | .parse _ _ _ _, .text s, w => some (.ok s, w.rest)
  | .splitNodes _, .nodes ns, w => some (.ok ns, w.rest)
  | .embedChunks _, .proceed, w => some (.ok (), w.rest)
  | .encodeDocuments _, .proceed, w => some (.ok (), w.rest)
  | .enqueue job, .proceed, w => some (.ok (), { w.rest with jobs := w.rest.jobs ++ [job] })
  | .acknowledge job, .proceed, w => some (.ok (), { w.rest with jobs := w.rest.jobs.erase job })
  | .now, .text s, w => some (.ok s, w.rest)
  | .newIngestionId d, .text s, w =>
    if (w.objects (.ingestionEvent d s)).content.isNone then some (.ok s, w.rest) else none
  | .cacheGet _ _, _, _ => none
  | .cachePut _ _, _, _ => none
  | .now, _, _ => none
  | .newIngestionId _, _, _ => none
  | _, .raise m, w => some (.error (.raised m), w.rest)
  | _, _, _ => none

/-- What every call of the service does. -/
def service : Machine (Choice Fate) World Err Answer := machine perform?

/-- The state before anything was uploaded. -/
def World.empty : World :=
  ⟨fun _ => ⟨0, none⟩, ⟨fun _ _ => none, fun _ _ _ => none, fun _ _ => none, fun _ => none, []⟩⟩

/-- The stored record of a document. -/
def World.record (w : World) (d : DocumentId) : Option DocumentRecord :=
  (w.objects (.documentRecord d)).content

/-- The stored version index of a document. -/
def World.versionIndex (w : World) (d : DocumentId) : Option DocumentVersionIndex :=
  (w.objects (.documentVersionIndex d)).content

section Writes

variable {w : World} {k : Key} {d : DocumentId}

/-- A record write stores the record. -/
@[simp] theorem World.record_put_self (r : DocumentRecord) :
    World.record { w with objects := put w.objects (.documentRecord d) r } d = some r := by
  simp only [World.record, put_self, Cell.write_content]

/-- A write of another object leaves the record. -/
theorem World.record_put_of_ne (v : Payload k) (h : Key.documentRecord d ≠ k) :
    World.record { w with objects := put w.objects k v } d = w.record d := by
  simp only [World.record, put_of_ne _ _ h]

/-- An index write stores the index. -/
@[simp] theorem World.versionIndex_put_self (i : DocumentVersionIndex) :
    World.versionIndex { w with objects := put w.objects (.documentVersionIndex d) i } d = some i := by
  simp only [World.versionIndex, put_self, Cell.write_content]

/-- A write of another object leaves the index. -/
theorem World.versionIndex_put_of_ne (v : Payload k) (h : Key.documentVersionIndex d ≠ k) :
    World.versionIndex { w with objects := put w.objects k v } d = w.versionIndex d := by
  simp only [World.versionIndex, put_of_ne _ _ h]

end Writes

end RagSystem.DocumentStore
