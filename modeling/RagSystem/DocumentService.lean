import RagSystem.DocumentStore

/-!
# The document service

The service's operations as programs of single calls, in the order and with
the exception handling of the source: record reads through the process's
cache, guarded record writes, upload, delete, ingestion, version history,
restore, the read gate and the worker's message handling. Logging, metrics and
spans are left out; they touch none of this state.
-/

namespace RagSystem.DocumentService

open AtomicProgram Storage DocumentModels DocumentStore

set_option autoImplicit false

/-- A call outside the JSON store. -/
def call (x : ServiceCall) : Prog (ServiceAnswer x) := perform (B := Answer) (StoreAction.other x)

section Records

/-- `_reject_illegal_write`: a live status never replaces a deleted record, and
only queued and deleted writes may change the version. -/
def rejectIllegalWrite (record : DocumentRecord) : Option DocumentRecord → Except Err Unit
  | none => .ok ()
  | some current =>
    if record.status ≠ .deleted ∧ current.status = .deleted then
      .error (.app (.documentDeleted record.id))
    else if record.version ≠ current.version ∧ record.status ≠ .queued ∧ record.status ≠ .deleted then
      .error (.app (.staleIngestion record.id record.version current.version))
    else .ok ()

/-- `_MAX_RECORD_CAS_ATTEMPTS`. -/
def maxRecordCasAttempts : ℕ := 5

/-- `_persist_record`: read, check, write on condition; a lost race starts over. -/
def persistRecord (record : DocumentRecord) : ℕ → Prog Unit
  | 0 => throw (.preconditionFailed (.documentRecord record.id))
  | attempts + 1 => do
    let current : Option (DocumentRecord × ℕ) ← getJsonWithEtag (P := Payload) (.documentRecord record.id)
    match rejectIllegalWrite record (current.map Prod.fst) with
    | .error e => throw e
    | .ok () => do
      let written ← putUnlessRaced (P := Payload) (.documentRecord record.id) record
        (conditionOf (P := Payload) (k := .documentRecord record.id) current)
      if written then pure () else persistRecord record attempts

/-- `_save_document_record`: persist, and only then cache. -/
def saveDocumentRecord (p : ProcessId) (record : DocumentRecord) : Prog Unit := do
  persistRecord record maxRecordCasAttempts
  call (.cachePut p record)

/-- The cached record `get_document` answers from without asking the store. -/
def trustedCopy (cached : Option DocumentRecord) : Option DocumentRecord :=
  cached.filter fun record => record.status.terminal

/-- `get_document`. -/
def getDocument (p : ProcessId) (d : DocumentId) : Prog (Option DocumentRecord) := do
  let cached ← call (.cacheGet p d)
  match trustedCopy cached with
  | some record => pure (some record)
  | none => do
    let payload : Option DocumentRecord ← getJson (P := Payload) (.documentRecord d)
    match payload with
    | none => pure cached
    | some record => do
      call (.cachePut p record)
      pure (some record)

end Records

section Upload

/-- The owner a queued record gets: the earlier owner if there is one. -/
def resolveOwner (existing : Option DocumentRecord) (owner : Option String) : Option String :=
  match existing.bind DocumentRecord.owner with
  | some earlier => some earlier
  | none => owner

/-- `_queue_document` once it has made the record: the write, the job, and a
failure write when the job cannot be queued. -/
def queueRecord (p : ProcessId) (job : IngestionJob) (record : DocumentRecord) : Prog DocumentRecord := do
  saveDocumentRecord p record
  tryCatch (call (.enqueue job)) fun exc => do
    saveDocumentRecord p
      { record with status := .failed, error := some ("Failed to enqueue ingestion job: " ++ message exc) }
    throw exc
  pure record

/-- `_queue_document`. -/
def queueDocument (settings : Settings) (p : ProcessId) (d : DocumentId) (filename : String)
    (content : Bytes) (owner : Option String) : Prog DocumentRecord := do
  let version := contentHash settings content
  call (.putRaw d version (rawSuffix filename) content)
  let s3Uri := "gs://" ++ settings.gcsBucket ++ "/raw/" ++ d ++ "/" ++ version ++ "/source" ++ rawSuffix filename
  let existing ← getDocument p d
  queueRecord p ⟨d, version, filename, s3Uri⟩
    { id := d, title := filename, version := version, s3Uri := s3Uri, status := .queued,
      activeVersion := publishedVersionOf existing, owner := resolveOwner existing owner }

/-- `update_document`. -/
def updateDocument (settings : Settings) (p : ProcessId) (d : DocumentId) (filename : String)
    (content : Bytes) (owner : Option String) : Prog (Option DocumentRecord) := do
  let current ← getDocument p d
  match current with
  | none => pure none
  | some record =>
    if record.status = .deleted then pure none
    else some <$> queueDocument settings p d filename content owner

/-- `delete_document`: the vectors first, then the record. -/
def deleteDocument (p : ProcessId) (d : DocumentId) : Prog (Option DocumentRecord) := do
  let record ← getDocument p d
  match record with
  | none => pure none
  | some record =>
    if record.status = .deleted then pure (some record)
    else do
      call (.deleteDocument d)
      let deleted := { record with status := .deleted, error := none }
      saveDocumentRecord p deleted
      pure (some deleted)

end Upload

section VersionIndex

/-- `_create_artifact`: an artifact that exists already is left as it is. -/
def createArtifact (k : Key) (payload : Payload k) : Prog Unit :=
  tryCatch (createJson k payload) fun
    | .preconditionFailed _ => pure ()
    | e => throw e

/-- `_record_ingestion_event`. -/
def recordIngestionEvent (d : DocumentId) (v : Version) (status : IngestionStatus) (timestamp : String)
    (error : Option String) : Prog Unit := do
  let ingestionId ← call (.newIngestionId d)
  createArtifact (.ingestionEvent d ingestionId) ⟨ingestionId, d, v, status, timestamp, error⟩

/-- The `mutate` of `_activate_version_in_index`: the manifest replaces any
entry of its version, every other entry loses its vectors, and the version
becomes active. -/
def activateVersion (d : DocumentId) (manifest : DocumentVersion)
    (current : Option DocumentVersionIndex) : DocumentVersionIndex :=
  let index := current.getD { documentId := d }
  let others := index.versions.filter fun v => v.version ≠ manifest.version
  { index with
    versions := (others.map fun v => { v with vectorsPresent := false }) ++ [manifest]
    activeVersion := some manifest.version }

/-- `_activate_version_in_index`. -/
def activateVersionInIndex (d : DocumentId) (manifest : DocumentVersion) : Prog DocumentVersionIndex :=
  updateJsonCas (P := Payload) (.documentVersionIndex d) (fun current => .ok (activateVersion d manifest current)) maxAttempts

/-- The `mutate` of `_activate_existing_version`: exactly the target's entry
keeps vectors, and the target becomes active. -/
def activateExisting (d : DocumentId) (version : Version) :
    Option DocumentVersionIndex → Except Err DocumentVersionIndex
  | none => .error (.app (.versionNotFound d version))
  | some index =>
    if version ∈ index.ids then
      .ok { index with
        versions := index.versions.map fun v => { v with vectorsPresent := v.version = version }
        activeVersion := some version }
    else .error (.app (.versionNotFound d version))

/-- `_activate_existing_version`. -/
def activateExistingVersion (d : DocumentId) (version : Version) : Prog DocumentVersionIndex :=
  updateJsonCas (P := Payload) (.documentVersionIndex d) (activateExisting d version) maxAttempts

/-- `_record_ingestion_success`: the manifest, the event, the version index. -/
def recordIngestionSuccess (d : DocumentId) (version : Version) : Prog Unit := do
  let timestamp ← call .now
  let manifest : DocumentVersion :=
    { documentId := d, version := version, createdAt := timestamp, indexed := true,
      vectorsPresent := true, sourceRetained := true }
  createArtifact (.documentVersion d version) manifest
  recordIngestionEvent d version .succeeded timestamp none
  let _ ← activateVersionInIndex d manifest
  pure ()

/-- `_record_ingestion_failure`: the event only. -/
def recordIngestionFailure (d : DocumentId) (version : Version) (error : String) : Prog Unit := do
  let timestamp ← call .now
  recordIngestionEvent d version .failed timestamp (some error)

end VersionIndex

section Index

/-- The batches `upsert` sends. -/
def batches (size : ℕ) (chunks : List Chunk) : List (List Chunk) :=
  (List.range ((chunks.length + size - 1) / size)).map fun i => (chunks.drop (i * size)).take size

/-- Send batches one after another. -/
def upsertBatches : List (List Chunk) → Prog Unit
  | [] => pure ()
  | batch :: rest => do
    call (.upsertBatch batch)
    upsertBatches rest

/-- `index.upsert`. -/
def upsert (settings : Settings) (chunks : List Chunk) : Prog Unit :=
  upsertBatches (batches settings.upsertBatchSize chunks)

/-- `embedder.embed_chunks`, and the sparse encoding when it is on. -/
def embed (settings : Settings) (chunks : List Chunk) : Prog Unit := do
  call (.embedChunks chunks)
  if settings.sparseEnabled then call (.encodeDocuments chunks) else pure ()

/-- A best-effort call: its exceptions are logged and dropped. -/
def bestEffort (x : ServiceCall) (unit : ServiceAnswer x) : Prog (ServiceAnswer x) :=
  tryCatch (call x) fun _ => pure unit

/-- `_cleanup_superseded_vectors`. -/
def cleanupSupersededVectors (d : DocumentId) (keepVersion : Version) : Prog Unit :=
  bestEffort (.deleteDocumentExceptVersion d keepVersion) ()

/-- `_cleanup_failed_version_vectors`. -/
def cleanupFailedVersionVectors (d : DocumentId) (version : Version) : Prog Unit :=
  bestEffort (.deleteDocumentVersion d version) ()

end Index

section Ingestion

/-- `_abort_ingestion_for_deleted`. -/
def abortIngestionForDeleted (p : ProcessId) (d : DocumentId) : Prog DocumentRecord := do
  bestEffort (.deleteDocument d) ()
  let current ← getDocument p d
  match current with
  | some record => pure record
  | none => pure { id := d, title := "", version := "", s3Uri := "", status := .deleted }

/-- `_abort_ingestion_for_superseded`. -/
def abortIngestionForSuperseded (p : ProcessId) (d : DocumentId) : Prog DocumentRecord := do
  let current ← getDocument p d
  match current with
  | some record => pure record
  | none => pure { id := d, title := "", version := "", s3Uri := "", status := .queued }

/-- The record a progress write stores. -/
def atStage (record : DocumentRecord) (status : DocumentStatus) : DocumentRecord :=
  { record with status := status, error := none }

/-- The record the publication write stores. -/
def published (record : DocumentRecord) : DocumentRecord :=
  { record with status := .indexed, activeVersion := some record.version, error := none }

/-- The record a failure write stores. -/
def failedWith (record : DocumentRecord) (exc : Err) : DocumentRecord :=
  { record with status := .failed, error := some (message exc) }

/-- The stages of `_run_ingestion` up to the upsert of the vectors. -/
def ingestStages (settings : Settings) (p : ProcessId) (record : DocumentRecord) (content : Bytes) :
    Prog (List Chunk) := do
  saveDocumentRecord p (atStage record .parsing)
  let markdown ← call (.parse record.id record.version record.title content)
  let parsed : ParsedDocument := ⟨record.id, record.version, markdown⟩
  putJson (P := Payload) (.parsed record.id record.version) parsed
  saveDocumentRecord p (atStage record .chunking)
  let nodes ← call (.splitNodes markdown)
  let chunks := chunkNodes settings parsed nodes
  call (.putChunks record.id record.version chunks)
  saveDocumentRecord p (atStage record .embedding)
  embed settings chunks
  upsert settings chunks
  pure chunks

/-- The body of the `try` of `_run_ingestion`: the publication write is the
switch, everything before it prepares and everything after it records. -/
def ingestBody (settings : Settings) (p : ProcessId) (record : DocumentRecord) (content : Bytes) :
    Prog DocumentRecord := do
  let chunks ← ingestStages settings p record content
  putJson (P := Payload) (.embeddingManifest record.id record.version) ⟨record.id, record.version, chunks.length⟩
  saveDocumentRecord p (published record)
  recordIngestionSuccess record.id record.version
  cleanupSupersededVectors record.id record.version
  pure (published record)

/-- The last `except` of `_run_ingestion`. A failure write that the guard
refuses stops the run without an event; one that raises anything else leaves. -/
def ingestFailure (p : ProcessId) (record : DocumentRecord) (exc : Err) : Prog DocumentRecord := do
  let refused ← tryCatch (do saveDocumentRecord p (failedWith record exc); pure none) fun
    | .app (.documentDeleted _) => some <$> abortIngestionForDeleted p record.id
    | .app (.staleIngestion _ _ _) => some <$> abortIngestionForSuperseded p record.id
    | e => throw e
  match refused with
  | some current => pure current
  | none => do
    recordIngestionFailure record.id record.version (message exc)
    cleanupFailedVersionVectors record.id record.version
    throw exc

/-- `_run_ingestion`. The handlers see the record with another status and
error only, and both are replaced in what they write. -/
def runIngestion (settings : Settings) (p : ProcessId) (record : DocumentRecord) (content : Bytes) :
    Prog DocumentRecord :=
  tryCatch (ingestBody settings p record content) fun
    | .app (.documentDeleted _) => abortIngestionForDeleted p record.id
    | .app (.staleIngestion _ _ _) => abortIngestionForSuperseded p record.id
    | exc => ingestFailure p record exc

/-- `get_raw`, then the legacy key, then a failure write and the exception. -/
def readSource (p : ProcessId) (record : DocumentRecord) (job : IngestionJob) : Prog Bytes :=
  tryCatch (call (.getRaw job.documentId job.version (rawSuffix job.filename))) fun _ =>
    tryCatch (call (.getRaw job.documentId job.version ".pdf")) fun exc => do
      saveDocumentRecord p (failedWith record exc)
      throw exc

/-- `process_document_job` once it has its copy of the record. -/
def processRecord (settings : Settings) (p : ProcessId) (job : IngestionJob) (record : DocumentRecord) :
    Prog DocumentRecord :=
  if record.status = .deleted then throw (.app (.documentDeleted job.documentId))
  else if record.version ≠ job.version then
    throw (.app (.staleIngestion job.documentId job.version record.version))
  else do
    let content ← readSource p record job
    runIngestion settings p record content

/-- `process_document_job`. -/
def processDocumentJob (settings : Settings) (p : ProcessId) (job : IngestionJob) :
    Prog DocumentRecord := do
  let record ← getDocument p job.documentId
  match record with
  | none => throw (.app (.valueError ("Document record not found: " ++ job.documentId)))
  | some record => processRecord settings p job record

/-- `_process_message` of the worker: deleted and stale jobs are acknowledged
like completed ones, any other failure leaves the message on the queue. -/
def processMessage (settings : Settings) (p : ProcessId) (job : IngestionJob) : Prog Unit :=
  tryCatch
    (do
      let _ ← processDocumentJob settings p job
      call (.acknowledge job)) fun
    | .app (.documentDeleted _) => call (.acknowledge job)
    | .app (.staleIngestion _ _ _) => call (.acknowledge job)
    | _ => pure ()

end Ingestion

section Restore

/-- `_reindex_version`. -/
def reindexVersion (settings : Settings) (d : DocumentId) (version : Version) : Prog Unit := do
  let chunks ← call (.getChunks d version)
  if chunks = [] then
    throw (.app (.runtimeError ("No retained content found to re-index version " ++ version ++
      " of document " ++ d)))
  else do
    embed settings chunks
    upsert settings chunks

/-- The branch of `restore_version` on `target.vectors_present`. -/
def ensureVectors (settings : Settings) (d : DocumentId) (target : DocumentVersion) : Prog Unit :=
  if target.vectorsPresent then pure () else reindexVersion settings d target.version

/-- The record a restore stores. -/
def restored (record : DocumentRecord) (version : Version) : DocumentRecord :=
  { record with activeVersion := some version, status := .indexed, error := none }

/-- `restore_version`: re-index if needed, flip the version index, then the
record. -/
def restoreVersion (settings : Settings) (p : ProcessId) (d : DocumentId) (version : Version) :
    Prog (Option DocumentRecord) := do
  let record ← getDocument p d
  match record with
  | none => pure none
  | some record =>
    if record.status = .deleted then pure none
    else do
      let index : Option DocumentVersionIndex ← getJson (P := Payload) (.documentVersionIndex d)
      match index.bind fun i => i.versions.find? fun v => v.version = version with
      | none => throw (.app (.versionNotFound d version))
      | some target => do
        ensureVectors settings d target
        let _ ← activateExistingVersion d version
        saveDocumentRecord p (restored record version)
        pure (some (restored record version))

end Restore

section Gate

/-- `_active_version_for`: a record that cannot be read publishes nothing. -/
def activeVersionFor (p : ProcessId) (d : DocumentId) : Prog (Option Version) :=
  tryCatch (publishedVersionOf <$> getDocument p d) fun _ => pure none

/-- `active_by_doc[document_id]`, looked up the first time a document is seen. -/
def activeByDoc (p : ProcessId) (active : List (DocumentId × Option Version)) (d : DocumentId) :
    Prog (Option Version) :=
  match active.lookup d with
  | some v => pure v
  | none => activeVersionFor p d

/-- The loop of `_filter_to_active_versions`. -/
def filterLoop (p : ProcessId) :
    List (DocumentId × Option Version) → List RetrievalHit → Prog (List RetrievalHit)
  | _, [] => pure []
  | active, hit :: hits => do
    let activeVersion ← activeByDoc p active hit.chunk.documentId
    let kept ← filterLoop p ((hit.chunk.documentId, activeVersion) :: active) hits
    pure (if activeVersion = some hit.chunk.version then hit :: kept else kept)

/-- `_filter_to_active_versions`. -/
def filterToActiveVersions (p : ProcessId) (hits : List RetrievalHit) : Prog (List RetrievalHit) :=
  filterLoop p [] hits

end Gate

/-- What an operation returns. -/
inductive Reply where
  /-- A record, or none. -/
  | record (r : Option DocumentRecord)
  /-- The hits the gate kept. -/
  | hits (hs : List RetrievalHit)
  /-- Nothing. -/
  | unit

/-- The operations the API and worker processes run. -/
inductive Operation where
  /-- Upload under a new id. -/
  | queueDocument (p : ProcessId) (d : DocumentId) (filename : String) (content : Bytes) (owner : Option String)
  /-- Upload a replacement. -/
  | updateDocument (p : ProcessId) (d : DocumentId) (filename : String) (content : Bytes) (owner : Option String)
  /-- Delete. -/
  | deleteDocument (p : ProcessId) (d : DocumentId)
  /-- Ingest a queued version. -/
  | processDocumentJob (p : ProcessId) (job : IngestionJob)
  /-- Ingest and acknowledge, as the worker does. -/
  | processMessage (p : ProcessId) (job : IngestionJob)
  /-- Restore an earlier version. -/
  | restoreVersion (p : ProcessId) (d : DocumentId) (version : Version)
  /-- Read a record. -/
  | getDocument (p : ProcessId) (d : DocumentId)
  /-- Gate the hits of a search. -/
  | filterToActiveVersions (p : ProcessId) (hits : List RetrievalHit)
  deriving DecidableEq

/-- The operation deletes documents. -/
def isDelete : Operation → Bool
  | .deleteDocument _ _ => true
  | _ => false

/-- The operation uploads a document. -/
def isUpload : Operation → Bool
  | .queueDocument _ _ _ _ _ => true
  | .updateDocument _ _ _ _ _ => true
  | _ => false

/-- The operation runs an ingestion. -/
def isIngestion : Operation → Bool
  | .processDocumentJob _ _ => true
  | .processMessage _ _ => true
  | _ => false

/-- The operation restores a version. -/
def isRestore : Operation → Bool
  | .restoreVersion _ _ _ => true
  | _ => false

/-- The program of each operation. -/
def code (settings : Settings) : Operation → Prog Reply
  | .queueDocument p d f c o => (fun r => .record (some r)) <$> queueDocument settings p d f c o
  | .updateDocument p d f c o => .record <$> updateDocument settings p d f c o
  | .deleteDocument p d => .record <$> deleteDocument p d
  | .processDocumentJob p job => (fun r => .record (some r)) <$> processDocumentJob settings p job
  | .processMessage p job => (fun _ => .unit) <$> processMessage settings p job
  | .restoreVersion p d v => .record <$> restoreVersion settings p d v
  | .getDocument p d => .record <$> getDocument p d
  | .filterToActiveVersions p hits => .hits <$> filterToActiveVersions p hits

section Sample

/-- SHA-256 on the inputs of the sample runs. -/
def sampleDigest (bytes : Bytes) : String :=
  if bytes = utf8 "a" then "ca978112ca1bbdcafac231b39a23dc4da786eff8147c4e72b9807785afee48bb"
  else if bytes = utf8 "b" then "3e23e8160039594a33894f6564e1b1348bbd7a0088d42c4acb73eeaed59c009d"
  else if bytes = utf8 "x" then "2d711642b726b04401627ca9fbac32f5c8530fb1903cc4db02258717921a4881"
  else if bytes = utf8 "y" then "a1fce4363854ff888cff4b8e7875d600c2682390412a8cf79b37d0b11148b0fa"
  else "e3b0c44298fc1c149afbf4c8996fb92427ae41e4649b934ca495991b7852b855"

/-- The settings of the sample runs. -/
def sampleSettings : Settings where
  sparseEnabled := false
  gcsBucket := "bucket"
  upsertBatchSize := 100
  upsertBatchSize_pos := by decide
  sha256Hex := sampleDigest
  sha256Hex_length := fun bytes => by
    unfold sampleDigest
    repeat' split
    all_goals decide +kernel

/-- Every call goes through; the parser and splitter return `text` as it is,
the clock and the id source return `stamp`. -/
def calm (text stamp : String) : Action → Choice Fate
  | .other (.parse _ _ _ _) => .other (.text text)
  | .other (.splitNodes _) => .other (.nodes [text])
  | .other .now => .other (.text stamp)
  | .other (.newIngestionId _) => .other (.text stamp)
  | .other _ => .other .proceed
  | _ => .proceed

/-- The call raises. -/
def faulty : Action → Choice Fate
  | .other _ => .other (.raise "unavailable")
  | _ => .raise "unavailable"

/-- A turn of a scheduler of the service. -/
abbrev Turn := ThreadPool.Command (Choice Fate) Operation Action

/-- Some turns of thread `t` in which every call goes through. -/
def turns (t : ℕ) (n : ℕ) (text stamp : String) : List Turn := List.replicate n (.step t (calm text stamp))

end Sample

end RagSystem.DocumentService
