import Mathlib.Data.Nat.Notation

/-!
# Documents, versions and chunks

The records the document service keeps, as the source's data models have them.
A version id is the head of the content's digest, so equal bytes share it.
Chunk metadata and the dense and sparse vectors are not part of the model:
nothing here reads them.
-/

namespace RagSystem.DocumentModels

set_option autoImplicit false

/-- Document ids, as the source mints them. -/
abbrev DocumentId := String

/-- Version ids: `content_hash` of the uploaded bytes. -/
abbrev Version := String

/-- One API or worker process, with its own record cache. -/
abbrev ProcessId := ℕ

/-- File contents. -/
abbrev Bytes := List UInt8

/-- `DocumentStatus`. -/
inductive DocumentStatus where
  | queued | parsing | chunking | embedding | indexed | failed | deleted
  deriving DecidableEq

/-- The statuses whose cached records `get_document` trusts. -/
def DocumentStatus.terminal : DocumentStatus → Bool
  | .indexed | .failed | .deleted => true
  | _ => false

/-- `DocumentRecord`: the canonical state of one document. -/
structure DocumentRecord where
  /-- The document. -/
  id : DocumentId
  /-- The file name it was uploaded under. -/
  title : String
  /-- The version of the latest upload. -/
  version : Version
  /-- Where the source file is kept. -/
  s3Uri : String
  /-- How far the latest upload has come. -/
  status : DocumentStatus
  /-- Why it failed. -/
  error : Option String := none
  /-- The published version, if any; absent in records older than the field. -/
  activeVersion : Option Version := none
  /-- The uploader. -/
  owner : Option String := none
  deriving DecidableEq

/-- `DocumentVersion`: the manifest of one ingested version. -/
structure DocumentVersion where
  /-- The document. -/
  documentId : DocumentId
  /-- The version. -/
  version : Version
  /-- When it was ingested. -/
  createdAt : String
  /-- It was indexed. -/
  indexed : Bool
  /-- Its vectors are in the index. -/
  vectorsPresent : Bool
  /-- Its source content is kept. -/
  sourceRetained : Bool := true
  deriving DecidableEq

/-- The two outcomes an ingestion event reports. -/
inductive IngestionStatus where
  | succeeded | failed
  deriving DecidableEq

/-- `IngestionEvent`: one entry of the ingestion history. -/
structure IngestionEvent where
  /-- The entry. -/
  ingestionId : String
  /-- The document. -/
  documentId : DocumentId
  /-- The version that was ingested. -/
  version : Version
  /-- How it ended. -/
  status : IngestionStatus
  /-- When. -/
  timestamp : String
  /-- Why it failed. -/
  error : Option String := none
  deriving DecidableEq

/-- `DocumentVersionIndex`: the versions of a document and the active one. -/
structure DocumentVersionIndex where
  /-- The document. -/
  documentId : DocumentId
  /-- The active version. -/
  activeVersion : Option Version := none
  /-- Every version ingested so far. -/
  versions : List DocumentVersion := []
  deriving DecidableEq

/-- The version ids an index lists, in order. -/
def DocumentVersionIndex.ids (index : DocumentVersionIndex) : List Version :=
  index.versions.map DocumentVersion.version

/-- What a parser returns. -/
structure ParsedDocument where
  /-- The document. -/
  documentId : DocumentId
  /-- The version parsed. -/
  version : Version
  /-- Its text. -/
  markdown : String
  deriving DecidableEq

/-- The parts of a chunk id. The source joins them with colons; none of them
contains one. -/
structure ChunkId where
  /-- The document. -/
  documentId : DocumentId
  /-- The version. -/
  version : Version
  /-- The position of the chunk's node in the document. -/
  index : ℕ
  /-- The head of the digest of the chunk's text. -/
  digest : String
  deriving DecidableEq

/-- `Chunk`: a piece of one version of a document. -/
structure Chunk where
  /-- Its id, under which its vector is stored. -/
  id : ChunkId
  /-- The document. -/
  documentId : DocumentId
  /-- The version. -/
  version : Version
  /-- Its text. -/
  text : String
  deriving DecidableEq

/-- `RetrievalHit`: a chunk the vector search found. Scores are finite, hence
rational. -/
structure RetrievalHit where
  /-- The chunk. -/
  chunk : Chunk
  /-- Its score. -/
  score : Rat
  /-- The index it came from. -/
  source : String
  deriving DecidableEq

/-- `IngestionJob`: one message of the ingestion queue. -/
structure IngestionJob where
  /-- The document. -/
  documentId : DocumentId
  /-- The version to ingest. -/
  version : Version
  /-- The file name it was uploaded under. -/
  filename : String
  /-- Where the source file is kept. -/
  s3Uri : String
  deriving DecidableEq

/-- What the embedding manifest of a version says. -/
structure EmbeddingManifest where
  /-- The document. -/
  documentId : DocumentId
  /-- The version. -/
  version : Version
  /-- How many chunks were embedded. -/
  chunkCount : ℕ
  deriving DecidableEq

/-- `_published_version_of`: the version a record makes searchable. An empty
`active_version` counts as absent. -/
def publishedVersionOf : Option DocumentRecord → Option Version
  | none => none
  | some record =>
    if record.status = .deleted then none
    else match record.activeVersion.filter (· ≠ "") with
      | some v => some v
      | none => if record.status = .indexed then some record.version else none

/-- What the service takes from its configuration and from `hashlib`. -/
structure Settings where
  /-- Hybrid retrieval is on. -/
  sparseEnabled : Bool
  /-- The artifact bucket. -/
  gcsBucket : String
  /-- How many vectors one upsert call carries. -/
  upsertBatchSize : ℕ
  /-- The configuration's validator asks for at least one. -/
  upsertBatchSize_pos : 0 < upsertBatchSize
  /-- `hashlib.sha256(..).hexdigest()`. -/
  sha256Hex : Bytes → String
  /-- A hex digest has 64 characters. -/
  sha256Hex_length : ∀ bytes, (sha256Hex bytes).length = 64

/-- The first `n` characters of a string. -/
def head (n : ℕ) (s : String) : String := String.ofList (s.toList.take n)

/-- `content_hash`. -/
def contentHash (settings : Settings) (content : Bytes) : Version :=
  head 24 (settings.sha256Hex content)

/-- A chunk id as the source writes it, the index in six digits or more. -/
def chunkIdText (id : ChunkId) : String :=
  let index := toString id.index
  id.documentId ++ ":" ++ id.version ++ ":" ++
    String.ofList (List.replicate (6 - index.length) '0') ++ index ++ ":" ++ id.digest

/-- The bytes of a text, `text.encode("utf-8")`. -/
def utf8 (text : String) : Bytes := text.toList.flatMap String.utf8EncodeChar

/-- `stable_chunk_id`. -/
def stableChunkId (settings : Settings) (documentId : DocumentId) (version : Version) (index : ℕ)
    (text : String) : ChunkId :=
  ⟨documentId, version, index, head 16 (settings.sha256Hex (utf8 text))⟩

/-- A version id is never the empty string. -/
theorem contentHash_ne_empty (settings : Settings) (content : Bytes) :
    contentHash settings content ≠ "" := by
  intro h
  have hl : (contentHash settings content).length = 24 := by
    simp only [contentHash, head, String.length_ofList, List.length_take, String.length_toList,
      settings.sha256Hex_length]
    omega
  rw [h] at hl
  contradiction

/-- The characters Python's `str.strip` removes: the Unicode white space. -/
def isSpace (c : Char) : Bool :=
  let n := c.toNat
  (9 ≤ n && n ≤ 13) || (28 ≤ n && n ≤ 32) || n = 0x85 || n = 0xA0 || n = 0x1680 ||
    (0x2000 ≤ n && n ≤ 0x200A) || n = 0x2028 || n = 0x2029 || n = 0x202F || n = 0x205F || n = 0x3000

/-- `str.strip`. -/
def strip (text : String) : String :=
  String.ofList ((text.toList.dropWhile isSpace).reverse.dropWhile isSpace).reverse

/-- `DocumentChunker.chunk` on the nodes the sentence splitter returned: blank
nodes are skipped, the others keep their position. -/
def chunkNodes (settings : Settings) (parsed : ParsedDocument) (nodes : List String) : List Chunk :=
  nodes.zipIdx.filterMap fun (node, index) =>
    let text := strip node
    if text = "" then none
    else some ⟨stableChunkId settings parsed.documentId parsed.version index text,
      parsed.documentId, parsed.version, text⟩

/-- Every chunk carries the document and version it was cut from. -/
theorem mem_chunkNodes {settings : Settings} {parsed : ParsedDocument} {nodes : List String}
    {c : Chunk} (h : c ∈ chunkNodes settings parsed nodes) :
    c.documentId = parsed.documentId ∧ c.version = parsed.version ∧
      c.id.documentId = parsed.documentId ∧ c.id.version = parsed.version := by
  obtain ⟨⟨node, index⟩, -, he⟩ := List.mem_filterMap.mp h
  dsimp only at he
  split at he
  · contradiction
  · cases he
    exact ⟨rfl, rfl, rfl, rfl⟩

/-- `Path(name).suffix`: what follows the last dot of the last component, with
the dot, unless the dot is the component's first or last character. -/
def pathSuffix (filename : String) : String :=
  let name := ((filename.toList.splitOn '/').filter fun c => c ≠ [] ∧ c ≠ ['.']).getLastD []
  match name.reverse.idxOf? '.' with
  | none => ""
  | some back =>
    if back = 0 ∨ back + 1 = name.length then ""
    else String.ofList (name.drop (name.length - 1 - back))

/-- The suffix under which `raw_document_key` files an upload. -/
def rawSuffix (filename : String) : String :=
  if pathSuffix filename = "" then ".bin" else pathSuffix filename

end RagSystem.DocumentModels
