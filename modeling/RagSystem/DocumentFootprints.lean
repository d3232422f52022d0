import RagSystem.IndexCalls
import RagSystem.RecordCaches

/-!
# One document at a time

Every operation works on the objects, files, vectors and messages of its own
document. What is retained or indexed is filed under the version it was cut
from, and what is kept of one document is not touched by work on another.
-/

namespace RagSystem.DocumentFootprints

open AtomicProgram ThreadPool RelyGuarantee VersionedCell Storage CompareAndSwap DocumentModels DocumentStore
  DocumentService CallEffects StoreCalls IndexCalls LegalWrites RecordCaches

set_option autoImplicit false

section Actions

/-- The document an object belongs to. -/
def keyDocument : Key → DocumentId
  | .documentRecord d => d
  | .documentVersionIndex d => d
  | .documentVersion d _ => d
  | .ingestionEvent d _ => d
  | .parsed d _ => d
  | .embeddingManifest d _ => d

/-- Chunks of this version of this document, under ids of it. -/
def ChunksFiled (d : DocumentId) (v : Version) (chunks : List Chunk) : Prop :=
  ∀ c ∈ chunks, c.documentId = d ∧ c.version = v ∧ c.id.documentId = d ∧ c.id.version = v

/-- The calls outside the JSON store that change nothing but document `d`. -/
def CallTouches (d : DocumentId) : ServiceCall → Prop
  | .putRaw d' _ _ _ => d' = d
  | .putChunks d' v chunks => d' = d ∧ ChunksFiled d v chunks
  | .upsertBatch batch => ∃ v, ChunksFiled d v batch
  | .deleteDocument d' => d' = d
  | .deleteDocumentVersion d' _ => d' = d
  | .deleteDocumentExceptVersion d' _ => d' = d
  | .enqueue job => job.documentId = d
  | .acknowledge job => job.documentId = d
  | _ => True

/-- The actions that change nothing but document `d`. -/
def Touches (d : DocumentId) : Action → Prop
  | .putJson k _ => keyDocument k = d
  | .putJsonConditional k _ _ => keyDocument k = d
  | .other x => CallTouches d x
  | _ => True

/-- The action writes a version index. -/
def writesIndex : Action → Bool
  | .putJson (.documentVersionIndex _) _ => true
  | .putJsonConditional (.documentVersionIndex _) _ _ => true
  | _ => false

/-- The actions on document `d` that leave its version index. -/
def Prepares (d : DocumentId) (a : Action) : Prop := Touches d a ∧ writesIndex a = false

/-- The chunks of a parsed version are filed under it. -/
theorem chunksFiled_chunkNodes (settings : Settings) (d : DocumentId) (v : Version) (markdown : String)
    (nodes : List String) : ChunksFiled d v (chunkNodes settings ⟨d, v, markdown⟩ nodes) :=
  fun _ hc => mem_chunkNodes hc

/-- So is each of the batches they are sent in. -/
theorem ChunksFiled.of_mem_batches {d : DocumentId} {v : Version} {chunks batch : List Chunk} {size : ℕ}
    (h : ChunksFiled d v chunks) (hbatch : batch ∈ batches size chunks) : ChunksFiled d v batch := by
  obtain ⟨i, -, rfl⟩ := List.mem_map.mp hbatch
  intro c hc
  exact h c (List.mem_of_mem_drop (List.mem_of_mem_take hc))

end Actions

section Programs

variable {settings : Settings} {p : ProcessId} {d : DocumentId} {v : Version} {record : DocumentRecord}

theorem uses_call (x : ServiceCall) (hx : CallTouches d x) : (call x).Uses (Prepares d) :=
  Program.uses_perform ⟨hx, rfl⟩

theorem uses_bestEffort (x : ServiceCall) (unit : ServiceAnswer x) (hx : CallTouches d x) :
    (bestEffort x unit).Uses (Prepares d) := (uses_call x hx).catchError fun _ => trivial

/-- Reading a record changes no document. -/
theorem uses_getDocument (p : ProcessId) (d' : DocumentId) : (getDocument p d').Uses (Prepares d) :=
  StoreCalls.uses_getDocument ⟨trivial, rfl⟩ ⟨trivial, rfl⟩ fun _ => ⟨trivial, rfl⟩

theorem uses_saveDocumentRecord (hid : record.id = d) : (saveDocumentRecord p record).Uses (Prepares d) :=
  StoreCalls.uses_saveDocumentRecord ⟨trivial, rfl⟩ (fun _ => ⟨hid, rfl⟩) ⟨trivial, rfl⟩

theorem uses_createArtifact {k : Key} (hk : Key.isArtifact k = true) (hd : keyDocument k = d) (payload : Payload k) :
    (createArtifact k payload).Uses (Prepares d) := by
  have hfree : writesIndex (.putJsonConditional k payload .ifNoneMatch) = false := by
    cases k <;> first | rfl | cases hk
  have hcreate : (createJson k payload : Prog Unit).Uses (Prepares d) := Program.uses_perform ⟨hd, hfree⟩
  refine hcreate.catchError fun e => ?_
  cases e <;> trivial

theorem uses_recordIngestionEvent (status : IngestionStatus) (timestamp : String) (error : Option String) :
    (recordIngestionEvent d v status timestamp error).Uses (Prepares d) :=
  (uses_call (.newIngestionId d) trivial).bind fun _ => uses_createArtifact rfl rfl _

theorem uses_recordIngestionFailure (error : String) : (recordIngestionFailure d v error).Uses (Prepares d) :=
  (uses_call .now trivial).bind fun timestamp => uses_recordIngestionEvent .failed timestamp (some error)

theorem uses_abortIngestionForDeleted : (abortIngestionForDeleted p d).Uses (Prepares d) := by
  refine (uses_bestEffort (.deleteDocument d) () rfl).bind fun _ => (uses_getDocument p d).bind fun current => ?_
  cases current <;> trivial

theorem uses_abortIngestionForSuperseded : (abortIngestionForSuperseded p d).Uses (Prepares d) := by
  refine (uses_getDocument p d).bind fun current => ?_
  cases current <;> trivial

theorem uses_upsertBatches {bs : List (List Chunk)} (hbs : ∀ b ∈ bs, ChunksFiled d v b) :
    (upsertBatches bs).Uses (Prepares d) := by
  induction bs with
  | nil => trivial
  | cons b bs ih =>
    have hfirst : ChunksFiled d v b := hbs b List.mem_cons_self
    have hrest : (upsertBatches bs).Uses (Prepares d) := ih fun b' hb' => hbs b' (List.mem_cons_of_mem b hb')
    exact (uses_call (.upsertBatch b) ⟨v, hfirst⟩).bind fun _ => hrest

theorem uses_upsert {chunks : List Chunk} (h : ChunksFiled d v chunks) : (upsert settings chunks).Uses (Prepares d) :=
  uses_upsertBatches fun _ hb => h.of_mem_batches hb

theorem uses_embed (chunks : List Chunk) : (embed settings chunks).Uses (Prepares d) := by
  refine (uses_call (.embedChunks chunks) trivial).bind fun _ => ?_
  split
  · exact uses_call (.encodeDocuments chunks) trivial
  · trivial

/-- The stages of an ingestion change its document. -/
theorem uses_ingestStages (hid : record.id = d) (content : Bytes) :
    (ingestStages settings p record content).Uses (Prepares d) := by
  subst hid
  have hsave (status : DocumentStatus) : (saveDocumentRecord p (atStage record status)).Uses (Prepares record.id) :=
    uses_saveDocumentRecord rfl
  refine (hsave .parsing).bind fun _ => (uses_call (.parse _ _ _ _) trivial).bind fun markdown => ?_
  have hparsed : (putJson (P := Payload) (.parsed record.id record.version)
      (⟨record.id, record.version, markdown⟩ : ParsedDocument) : Prog Unit).Uses (Prepares record.id) :=
    Program.uses_perform ⟨rfl, rfl⟩
  refine hparsed.bind fun _ => (hsave .chunking).bind fun _ => (uses_call (.splitNodes _) trivial).bind fun nodes => ?_
  have hfiled := chunksFiled_chunkNodes settings record.id record.version markdown nodes
  have hput := uses_call (.putChunks record.id record.version _) ⟨rfl, hfiled⟩
  refine hput.bind fun _ => (hsave .embedding).bind fun _ => (uses_embed _).bind fun _ => ?_
  exact (uses_upsert hfiled).bind fun _ => trivial

/-- So does its failure path. -/
theorem uses_ingestFailure (hid : record.id = d) (exc : Err) : (ingestFailure p record exc).Uses (Prepares d) := by
  subst hid
  have hsave : (saveDocumentRecord p (failedWith record exc)).Uses (Prepares record.id) := uses_saveDocumentRecord rfl
  refine Program.Uses.bind (Program.Uses.catchError (hsave.bind fun _ => trivial) fun e => ?_) fun refused => ?_
  · split
    · exact uses_abortIngestionForDeleted.bind fun _ => trivial
    · exact uses_abortIngestionForSuperseded.bind fun _ => trivial
    · trivial
  · cases refused with
    | some current => trivial
    | none =>
      have hcleanup := uses_bestEffort (d := record.id) (.deleteDocumentVersion record.id record.version) () rfl
      exact (uses_recordIngestionFailure _).bind fun _ => hcleanup.bind fun _ => trivial

/-- So does the reading of its source. -/
theorem uses_readSource (hid : record.id = d) (job : IngestionJob) : (readSource p record job).Uses (Prepares d) := by
  refine (uses_call (.getRaw _ _ _) trivial).catchError fun _ => ?_
  refine (uses_call (.getRaw _ _ _) trivial).catchError fun exc => ?_
  have hsave : (saveDocumentRecord p (failedWith record exc)).Uses (Prepares d) := uses_saveDocumentRecord hid
  exact hsave.bind fun _ => trivial

/-- An upload changes the document it is of. -/
theorem uses_queueDocument (filename : String) (content : Bytes) (owner : Option String) :
    (queueDocument settings p d filename content owner).Uses (Prepares d) := by
  refine (uses_call (.putRaw d _ _ _) rfl).bind fun _ => (uses_getDocument p d).bind fun existing => ?_
  refine (uses_saveDocumentRecord rfl).bind fun _ => Program.Uses.bind ?_ fun u => ?_
  rotate_left
  · cases u
    trivial
  refine (uses_call (.enqueue _) rfl).catchError fun exc => ?_
  exact Program.Uses.bind (uses_saveDocumentRecord rfl) fun _ => trivial

/-- So does a replacement. -/
theorem uses_updateDocument (filename : String) (content : Bytes) (owner : Option String) :
    (updateDocument settings p d filename content owner).Uses (Prepares d) := by
  refine (uses_getDocument p d).bind fun current => ?_
  cases current with
  | none => trivial
  | some record =>
    dsimp only
    split
    · trivial
    · exact (uses_queueDocument filename content owner).bind fun _ => trivial

/-- The read gate changes no document. -/
theorem uses_filterLoop (hits : List RetrievalHit) (active : List (DocumentId × Option Version)) :
    (filterLoop p active hits).Uses (Prepares d) := by
  induction hits generalizing active with
  | nil => trivial
  | cons hit hits ih =>
    refine Program.Uses.bind ?_ fun activeVersion => (ih _).bind fun _ => trivial
    unfold activeByDoc activeVersionFor
    split
    · trivial
    · refine Program.Uses.catchError ?_ fun _ => trivial
      exact Program.Uses.bind (uses_getDocument p _) fun _ => trivial

/-- The update of a version index. -/
theorem uses_updateIndex {mutate : Option DocumentVersionIndex → Except Err DocumentVersionIndex} (n : ℕ) :
    (updateJsonCas (P := Payload) (.documentVersionIndex d) mutate n : Prog DocumentVersionIndex).Uses (Touches d) :=
  uses_updateJsonCas trivial (fun _ _ _ _ => rfl) n

theorem uses_recordIngestionSuccess : (recordIngestionSuccess d v).Uses (Touches d) := by
  refine ((uses_call .now trivial).mono fun _ ha => ha.1).bind fun timestamp => ?_
  refine ((uses_createArtifact rfl rfl _).mono fun _ ha => ha.1).bind fun _ => ?_
  refine ((uses_recordIngestionEvent .succeeded timestamp none).mono fun _ ha => ha.1).bind fun _ => ?_
  exact (uses_updateIndex maxAttempts).bind fun _ => trivial

/-- A whole ingestion changes its document. -/
theorem uses_runIngestion (hid : record.id = d) (content : Bytes) :
    (runIngestion settings p record content).Uses (Touches d) := by
  have hprepares {α : Type} {q : Prog α} (hq : q.Uses (Prepares d)) : q.Uses (Touches d) := hq.mono fun _ ha => ha.1
  refine Program.Uses.catchError ?_ fun e => ?_
  · refine (hprepares (uses_ingestStages hid content)).bind fun chunks => ?_
    have hmanifest : (putJson (P := Payload) (.embeddingManifest record.id record.version)
        (⟨record.id, record.version, chunks.length⟩ : EmbeddingManifest) : Prog Unit).Uses (Touches d) :=
      Program.uses_perform hid
    have hsave : (saveDocumentRecord p (published record)).Uses (Touches d) := hprepares (uses_saveDocumentRecord hid)
    refine hmanifest.bind fun _ => hsave.bind fun _ => ?_
    subst hid
    have hcleanup := uses_bestEffort (d := record.id) (.deleteDocumentExceptVersion record.id record.version) () rfl
    exact uses_recordIngestionSuccess.bind fun _ => (hprepares hcleanup).bind fun _ => trivial
  · subst hid
    split
    · exact hprepares uses_abortIngestionForDeleted
    · exact hprepares uses_abortIngestionForSuperseded
    · exact hprepares (uses_ingestFailure rfl _)

/-- So does a job that has its copy of the record. -/
theorem uses_processRecord (hid : record.id = d) (job : IngestionJob) :
    (processRecord settings p job record).Uses (Touches d) := by
  unfold processRecord
  split
  · trivial
  · split
    · trivial
    · exact ((uses_readSource hid job).mono fun _ ha => ha.1).bind fun content => uses_runIngestion hid content

/-- So does a deletion that has its copy of the record. -/
theorem uses_deleteRecord (hid : record.id = d) : (do
    call (.deleteDocument d)
    let deleted := { record with status := .deleted, error := none }
    saveDocumentRecord p deleted
    pure (some deleted) : Prog (Option DocumentRecord)).Uses (Prepares d) := by
  have hsave : (saveDocumentRecord p { record with status := .deleted, error := none }).Uses (Prepares d) :=
    uses_saveDocumentRecord hid
  exact (uses_call (.deleteDocument d) rfl).bind fun _ => hsave.bind fun _ => trivial

/-- So does the re-indexing of retained chunks. -/
theorem uses_reindex {chunks : List Chunk} (h : ChunksFiled d v chunks) :
    (do embed settings chunks; upsert settings chunks : Prog Unit).Uses (Touches d) :=
  ((uses_embed chunks).bind fun _ => uses_upsert h).mono fun _ ha => ha.1

/-- So does the end of a restore. -/
theorem uses_restoreEnd (hid : record.id = d) : (do
    let _ ← activateExistingVersion d v
    saveDocumentRecord p (restored record v)
    pure (some (restored record v)) : Prog (Option DocumentRecord)).Uses (Touches d) := by
  have hsave : (saveDocumentRecord p (restored record v)).Uses (Prepares d) := uses_saveDocumentRecord hid
  refine (uses_updateIndex maxAttempts).bind fun _ => (hsave.mono fun _ ha => ha.1).bind fun _ => ?_
  trivial

end Programs

section States

/-- What is indexed and what is retained is filed under the version it was cut from. -/
structure Filed (w : World) : Prop where
  /-- A vector's chunk has the id it is indexed under and is of that id's version. -/
  vectors : ∀ i c, w.rest.vectors i = some c → c.id = i ∧ c.documentId = i.documentId ∧ c.version = i.version
  /-- Retained chunks are of the version they are retained for. -/
  chunks : ∀ d v cs, w.rest.chunks d v = some cs → ChunksFiled d v cs

/-- Nothing is indexed or retained at first. -/
theorem filed_empty : Filed World.empty := by
  constructor
  · intro i c hc
    contradiction
  · intro d v cs hcs
    contradiction

/-- Everything kept of document `d` is as it was. -/
structure SameDocument (d : DocumentId) (w w' : World) : Prop where
  /-- Its JSON objects. -/
  objects : ∀ k, keyDocument k = d → w'.objects k = w.objects k
  /-- Its raw files. -/
  raw : ∀ v suffix, w'.rest.raw d v suffix = w.rest.raw d v suffix
  /-- Its retained chunks. -/
  chunks : ∀ v, w'.rest.chunks d v = w.rest.chunks d v
  /-- Its vectors. -/
  vectors : ∀ i, i.documentId = d → w'.rest.vectors i = w.rest.vectors i
  /-- Its jobs, in their order. -/
  jobs : (w'.rest.jobs.filter fun job => job.documentId = d) = w.rest.jobs.filter fun job => job.documentId = d

variable {w w' w'' : World} {d d' : DocumentId} {e : CallEvent}

theorem SameDocument.refl (d : DocumentId) (w : World) : SameDocument d w w :=
  ⟨fun _ _ => rfl, fun _ _ => rfl, fun _ => rfl, fun _ _ => rfl, rfl⟩

theorem SameDocument.trans (h : SameDocument d w w') (h' : SameDocument d w' w'') : SameDocument d w w'' where
  objects k hk := (h'.objects k hk).trans (h.objects k hk)
  raw v suffix := (h'.raw v suffix).trans (h.raw v suffix)
  chunks v := (h'.chunks v).trans (h.chunks v)
  vectors i hi := (h'.vectors i hi).trans (h.vectors i hi)
  jobs := h'.jobs.trans h.jobs

/-- The raw files after a call. -/
def rawAfter (raw : DocumentId → Version → String → Option Bytes) :
    CallEvent → DocumentId → Version → String → Option Bytes
  | ⟨.other (.putRaw d v suffix content), .ok _⟩ => fun d' v' suffix' =>
    if d' = d ∧ v' = v ∧ suffix' = suffix then some content else raw d' v' suffix'
  | _ => raw

/-- The queued jobs after a call. -/
def jobsAfter (jobs : List IngestionJob) : CallEvent → List IngestionJob
  | ⟨.other (.enqueue job), .ok _⟩ => jobs ++ [job]
  | ⟨.other (.acknowledge job), .ok _⟩ => jobs.erase job
  | _ => jobs

/-- Raw files and jobs change as the calls that go through say. -/
theorem raw_jobs_of_exec (h : service.Exec e w w') :
    w'.rest.raw = rawAfter w.rest.raw e ∧ w'.rest.jobs = jobsAfter w.rest.jobs e := by
  obtain ⟨a, r⟩ := e
  cases a with
  | getJson k => rw [(exec_getJson h).1]; exact ⟨rfl, rfl⟩
  | getJsonWithEtag k => rw [(exec_getJsonWithEtag h).1]; exact ⟨rfl, rfl⟩
  | putJson k v => rcases exec_putJson h with ⟨rfl, rfl⟩ | ⟨rfl, m, rfl⟩ <;> exact ⟨rfl, rfl⟩
  | putJsonConditional k v c =>
    rcases exec_putJsonConditional h with ⟨rfl, -, rfl⟩ | ⟨rfl, -⟩ <;> exact ⟨rfl, rfl⟩
  | other x =>
    obtain ⟨o, rest, ho, rfl⟩ := exec_other h
    cases x <;> cases o <;> first
      | contradiction
      | (cases ho; exact ⟨rfl, rfl⟩)
      | (simp only [perform?] at ho; split at ho <;> first | contradiction | (cases ho; exact ⟨rfl, rfl⟩))

/-- Batches of filed chunks are indexed as they are filed. -/
theorem Filed.of_upsert (hw : Filed w) {v : Version} {batch : List Chunk} (hbatch : ChunksFiled d v batch)
    {i : ChunkId} {c : Chunk} (hc : upsertVectors w.rest.vectors batch i = some c) :
    c.id = i ∧ c.documentId = i.documentId ∧ c.version = i.version := by
  by_cases hi : i ∈ batch.map Chunk.id
  · obtain ⟨c', hin, hid, hc'⟩ := upsertVectors_of_mem w.rest.vectors hi
    rw [hc, Option.some.injEq] at hc'
    subst hc'
    obtain ⟨hd, hv, hd', hv'⟩ := hbatch c hin
    rw [hid] at hd' hv'
    exact ⟨hid, hd.trans hd'.symm, hv.trans hv'.symm⟩
  · rw [upsertVectors_of_notMem w.rest.vectors hi] at hc
    exact hw.vectors i c hc

/-- What a call indexes is filed. -/
theorem Filed.vectors_of_exec (hw : Filed w) (h : service.Exec e w w') (he : Touches d e.action) (i : ChunkId)
    (c : Chunk) (hc : w'.rest.vectors i = some c) :
    c.id = i ∧ c.documentId = i.documentId ∧ c.version = i.version := by
  have hkept {filter : Chunk → Bool} (hdel : deleteVectors w.rest.vectors filter i = some c) :=
    hw.vectors i c (deleteVectors_eq_some.mp hdel).1
  rcases CallEffects.vectors_of_exec h with hv | ⟨batch, n, m, rfl, hv⟩
  · rw [hv] at hc
    unfold vectorsAfter at hc
    split at hc
    · obtain ⟨v, hbatch⟩ := he
      exact hw.of_upsert hbatch hc
    · exact hkept hc
    · exact hkept hc
    · exact hkept hc
    · exact hw.vectors i c hc
  · rw [hv] at hc
    obtain ⟨v, hbatch⟩ := he
    exact hw.of_upsert (fun c hc => hbatch c (List.mem_of_mem_take hc)) hc

/-- A call on one document keeps everything filed. -/
theorem Filed.of_exec (hw : Filed w) (h : service.Exec e w w') (he : Touches d e.action) : Filed w' := by
  refine ⟨hw.vectors_of_exec h he, fun d' v' cs hcs => ?_⟩
  rw [chunks_of_exec h] at hcs
  unfold chunksAfter at hcs
  split at hcs
  · next d₀ v₀ cs₀ _ =>
    split at hcs
    · next heq =>
      obtain ⟨rfl, rfl⟩ := heq
      obtain ⟨rfl, hfiled⟩ := he
      rw [Option.some.injEq] at hcs
      exact hcs ▸ hfiled
    · exact hw.chunks d' v' cs hcs
  · exact hw.chunks d' v' cs hcs

/-- A call on another document leaves everything kept of this one. -/
theorem SameDocument.of_exec (hw : Filed w) (h : service.Exec e w w') (he : Touches d' e.action) (hne : d' ≠ d) :
    SameDocument d w w' where
  objects k hk := by
    rcases exec_written h with ⟨-, hobj⟩ | ⟨k', v, hwritten, hobj⟩
    · rw [hobj]
    · rw [hobj]
      refine put_of_ne _ _ fun heq => hne ?_
      rw [← hk, heq]
      obtain ⟨a, r⟩ := e
      cases a with
      | putJson k₀ v₀ =>
        cases r <;> simp only [jsonWritten, reduceCtorEq, Option.some.injEq, Sigma.mk.injEq] at hwritten
        rw [← hwritten.1]
        exact he.symm
      | putJsonConditional k₀ v₀ c =>
        cases r <;> simp only [jsonWritten, reduceCtorEq, Option.some.injEq, Sigma.mk.injEq] at hwritten
        rw [← hwritten.1]
        exact he.symm
      | _ => contradiction
  raw v suffix := by
    rw [(raw_jobs_of_exec h).1]
    unfold rawAfter
    split
    · refine if_neg fun heq => hne ?_
      rw [heq.1]
      exact he.symm
    · rfl
  chunks v := by
    rw [chunks_of_exec h]
    unfold chunksAfter
    split
    · refine if_neg fun heq => hne ?_
      rw [heq.1]
      exact he.1.symm
    · rfl
  vectors i hi := by
    have hupsert {batch : List Chunk} (hbatch : ∃ v, ChunksFiled d' v batch) :
        upsertVectors w.rest.vectors batch i = w.rest.vectors i := by
      refine upsertVectors_of_notMem _ fun hin => hne ?_
      obtain ⟨v, hbatch⟩ := hbatch
      obtain ⟨c, hc, rfl⟩ := List.mem_map.mp hin
      rw [← hi, (hbatch c hc).2.2.1]
    have hdelete {filter : Chunk → Bool} (hfilter : ∀ c, c.documentId ≠ d' → filter c = false) :
        deleteVectors w.rest.vectors filter i = w.rest.vectors i := by
      unfold deleteVectors
      cases hc : w.rest.vectors i with
      | none => rfl
      | some c =>
        have hdoc : c.documentId = d := ((hw.vectors i c hc).2.1).trans hi
        have hkept : filter c = false := hfilter c fun heq => hne (heq.symm.trans hdoc)
        exact Option.filter_some_pos (by rw [hkept]; rfl)
    rcases CallEffects.vectors_of_exec h with hv | ⟨batch, n, m, rfl, hv⟩
    · rw [hv]
      unfold vectorsAfter
      split
      · exact hupsert he
      · exact hdelete fun c hc => decide_eq_false fun heq => hc (heq.trans he)
      · exact hdelete fun c hc => decide_eq_false fun heq => hc (heq.1.trans he)
      · exact hdelete fun c hc => decide_eq_false fun heq => hc (heq.1.trans he)
      · rfl
    · rw [hv]
      obtain ⟨v, hbatch⟩ := he
      exact hupsert ⟨v, fun c hc => hbatch c (List.mem_of_mem_take hc)⟩
  jobs := by
    rw [(raw_jobs_of_exec h).2]
    unfold jobsAfter
    split
    · next job _ =>
      have hother : job.documentId ≠ d := fun heq => hne (he.symm.trans heq)
      rw [List.filter_append, List.filter_cons_of_neg (by simpa only [decide_eq_true_eq] using hother), List.filter_nil,
        List.append_nil]
    · next job _ =>
      have hother : job.documentId ≠ d := fun heq => hne (he.symm.trans heq)
      rw [← List.erase_filter, List.erase_of_not_mem]
      simp only [List.mem_filter, decide_eq_true_eq]
      exact fun hin => hother hin.2
    · rfl

end States

section Operations

/-- The document an operation is about; the read gate looks at many and changes none. -/
def documentOf : Operation → Option DocumentId
  | .queueDocument _ d _ _ _ => some d
  | .updateDocument _ d _ _ _ => some d
  | .deleteDocument _ d => some d
  | .processDocumentJob _ job => some job.documentId
  | .processMessage _ job => some job.documentId
  | .restoreVersion _ d _ => some d
  | .getDocument _ d => some d
  | .filterToActiveVersions _ _ => none

/-- The actions that change nothing but the operation's document. -/
def Owned (o : Operation) (a : Action) : Prop := ∀ d, documentOf o = some d ∨ documentOf o = none → Touches d a

/-- Calls are made in grounded states. -/
abbrev Made : StepPredicate World Err Answer := fun _ e w w' => service.Exec e w w' ∧ Grounded w

/-- Everything stays filed. -/
abbrev Filing (w w' : World) : Prop := Filed w → Filed w'

/-- Every call is one of `S`, and everything stays filed. -/
abbrev Files (S : Action → Prop) : StepPredicate World Err Answer := fun _ e w w' => S e.action ∧ Filing w w'

theorem filing_rely : IsRely Filing := ⟨fun _ => id, fun h h' hw => h' (h hw)⟩

theorem filing_stable : Stable Filing fun (_ : History Err Answer) w => Filed w := fun _ _ _ hR hw => hR hw

variable {settings : Settings} {p : ProcessId} {d : DocumentId} {α : Type} {q : Prog α}

/-- A program of calls on one document keeps everything filed. -/
theorem files_of_uses {S : Action → Prop} (hS : ∀ a, S a → ∃ d, Touches d a) (hq : q.Uses S) :
    Keeps Made (Files S) Filing (fun _ w => Filed w) q := by
  refine Keeps.of_uses filing_stable hq fun h e w w' he hw ht => ?_
  obtain ⟨d, hd⟩ := hS _ he
  have hnext : Filed w' := hw.of_exec ht.1 hd
  exact ⟨⟨he, fun _ => hnext⟩, hnext⟩

theorem files_of_touches (hq : q.Uses (Touches d)) : Keeps Made (Files (Touches d)) Filing (fun _ w => Filed w) q :=
  files_of_uses (fun _ ha => ⟨d, ha⟩) hq

/-- One call outside the JSON store. -/
theorem sat_call {T G : StepPredicate World Err Answer} {R : World → World → Prop} {h : History Err Answer} {w : World}
    (x : ServiceCall) {Q : Ending World Err Answer (ServiceAnswer x)}
    (hstep : ∀ w₁, R w w₁ → ∀ (r : Except Err (ServiceAnswer x)) w₂, T h ⟨.other x, r⟩ w₁ w₂ →
      G h ⟨.other x, r⟩ w₁ w₂ ∧ ∀ v, R w₂ v → Q (h ++ [⟨.other x, r⟩]) r v) :
    Sat T G R Q (DocumentService.call x) h w := Sat.perform hstep

/-- One read of a JSON object. -/
theorem sat_getJson {T G : StepPredicate World Err Answer} {R : World → World → Prop} {h : History Err Answer}
    {w : World} (k : Key) {Q : Ending World Err Answer (Option (Payload k))}
    (hstep : ∀ w₁, R w w₁ → ∀ (r : Except Err (Option (Payload k))) w₂, T h ⟨.getJson k, r⟩ w₁ w₂ →
      G h ⟨.getJson k, r⟩ w₁ w₂ ∧ ∀ v, R w₂ v → Q (h ++ [⟨.getJson k, r⟩]) r v) :
    Sat T G R Q (getJson k : Prog (Option (Payload k))) h w := Sat.perform hstep

/-- `get_document` answers with a record of the document, if with any, whatever others do. -/
theorem sat_getDocument {R : World → World → Prop} (hR : IsRely R) (h : History Err Answer) (w : World) :
    Sat Made (fun _ _ _ _ => True) R (fun _ res _ => ∀ r, res = .ok (some r) → r.id = d) (getDocument p d) h w := by
  have hcached : Sat Made (fun _ _ _ _ => True) R (fun _ res _ => ∀ r, res = .ok (some r) → r.id = d)
      (DocumentService.call (.cacheGet p d)) h w := by
    refine sat_call (.cacheGet p d) fun w₁ _ answer w₂ ht => ⟨trivial, fun _ _ r hr => ?_⟩
    obtain ⟨rfl, rfl⟩ := exec_cacheGet ht.1
    injection hr with hr
    exact (ht.2.cached p d r hr).1
  refine hcached.bind hR (fun h₁ cached w₁ hid => ?_) fun _ _ _ _ _ hr => by contradiction
  cases hc : trustedCopy cached with
  | some record =>
    unfold trustedCopy at hc
    rw [Option.filter_eq_some_iff] at hc
    refine Sat.done fun _ _ r hr => hid r ?_
    injection hr with hr
    rw [hc.1, hr]
  | none =>
    have hread : Sat Made (fun _ _ _ _ => True) R (fun _ res _ => ∀ r, res = .ok (some r) → r.id = d)
        (getJson (P := Payload) (.documentRecord d) : Prog (Option DocumentRecord)) h₁ w₁ := by
      refine sat_getJson (.documentRecord d) fun w₂ _ answer w₃ ht => ⟨trivial, fun _ _ r hrec => ?_⟩
      obtain ⟨rfl, rfl | ⟨m, rfl⟩⟩ := exec_getJson ht.1
      · injection hrec with hrec
        exact ht.2.keyed d r hrec
      · contradiction
    refine hread.bind hR (fun h₂ payload w₂ hstored => ?_) fun _ _ _ _ _ hr => by contradiction
    cases payload with
    | none => exact Sat.done fun _ _ => hid
    | some record =>
      have hput := Sat.of_past (T := Made) (R := R) (P := fun _ => True) (fun _ _ _ => trivial)
        (DocumentService.call (.cachePut p record)) (h := h₂) (w := w₂) trivial
      exact hput.bind hR (fun _ _ _ _ => Sat.done fun _ _ => hstored) fun _ _ _ _ _ hr => by contradiction

/-- What is done with a record of the document keeps everything filed. -/
theorem files_of_record {f : Option DocumentRecord → Prog α} (hnone : (f none).Uses (Touches d))
    (hsome : ∀ record, record.id = d → Keeps Made (Files (Touches d)) Filing (fun _ w => Filed w) (f (some record))) :
    Keeps Made (Files (Touches d)) Filing (fun _ w => Filed w) ((getDocument p d).bind f) := by
  intro h w hw
  have hread : Keeps Made (Files (Touches d)) Filing (fun _ w => Filed w) (getDocument p d) :=
    files_of_touches ((uses_getDocument p d).mono fun _ ha => ha.1)
  have hboth := ((hread h w hw).both (sat_getDocument filing_rely h w)).weaken (fun _ _ _ _ _ hg => hg.1) fun _ _ _ hq => hq
  refine hboth.bind filing_rely (fun h₁ res w₁ hq => ?_) fun _ _ _ hq => hq.1
  cases res with
  | none => exact files_of_touches hnone h₁ w₁ hq.1
  | some record => exact hsome record (hq.2 record rfl) h₁ w₁ hq.1

theorem files_deleteDocument : Keeps Made (Files (Touches d)) Filing (fun _ w => Filed w) (deleteDocument p d) := by
  refine files_of_record trivial fun record hid => ?_
  dsimp only
  split
  · exact .done filing_stable _
  · exact files_of_touches ((uses_deleteRecord hid).mono fun _ ha => ha.1)

theorem files_processDocumentJob (job : IngestionJob) :
    Keeps Made (Files (Touches job.documentId)) Filing (fun _ w => Filed w) (processDocumentJob settings p job) :=
  files_of_record trivial fun _ hid => files_of_touches (uses_processRecord hid job)

theorem files_processMessage (job : IngestionJob) :
    Keeps Made (Files (Touches job.documentId)) Filing (fun _ w => Filed w) (processMessage settings p job) := by
  have hack : Keeps Made (Files (Touches job.documentId)) Filing (fun _ w => Filed w)
      (DocumentService.call (.acknowledge job)) := files_of_touches (Program.uses_perform rfl)
  refine Keeps.catchError filing_rely ((files_processDocumentJob job).bind filing_rely fun _ => hack) fun e => ?_
  split
  · exact hack
  · exact hack
  · exact .done filing_stable ()

/-- Retained chunks are indexed as they were filed. -/
theorem files_reindexVersion (v : Version) :
    Keeps Made (Files (Touches d)) Filing (fun _ w => Filed w) (reindexVersion settings d v) := by
  intro h w hw
  have hread : Sat Made (Files (Touches d)) Filing (fun _ res w => Filed w ∧ ∀ cs, res = .ok cs → ChunksFiled d v cs)
      (DocumentService.call (.getChunks d v)) h w := by
    refine Sat.perform fun w₁ h₁ r w₂ ht => ?_
    have hw₁ : Filed w₁ := h₁ hw
    have hw₂ : Filed w₂ := hw₁.of_exec (d := d) ht.1 trivial
    refine ⟨⟨trivial, fun _ => hw₂⟩, fun v' hv => ⟨hv hw₂, fun cs hcs => ?_⟩⟩
    obtain ⟨o, rest, ho, rfl⟩ := exec_other ht.1
    subst hcs
    cases o with
    | proceed =>
      simp only [perform?, Option.some.injEq, Prod.mk.injEq, Except.ok.injEq] at ho
      rw [← ho.1]
      cases hret : w₁.rest.chunks d v with
      | none => exact fun c hc => absurd hc List.not_mem_nil
      | some cs' => exact hw₁.chunks d v cs' hret
    | raise m => cases ho
    | _ => contradiction
  refine hread.bind filing_rely (fun h₁ cs w₁ hq => ?_) fun _ _ _ hq => hq.1
  dsimp only
  split
  · exact Keeps.raise filing_stable _ h₁ w₁ hq.1
  · exact files_of_touches (uses_reindex (hq.2 cs rfl)) h₁ w₁ hq.1

theorem files_restoreVersion (v : Version) :
    Keeps Made (Files (Touches d)) Filing (fun _ w => Filed w) (restoreVersion settings p d v) := by
  refine files_of_record trivial fun record hid => ?_
  dsimp only
  split
  · exact .done filing_stable _
  · refine Keeps.bind filing_rely (files_of_touches (Program.uses_perform trivial)) fun index => ?_
    split
    · exact .raise filing_stable _
    · next target _ =>
      have hensure : Keeps Made (Files (Touches d)) Filing (fun _ w => Filed w) (ensureVectors settings d target) := by
        unfold ensureVectors
        split
        · exact .done filing_stable ()
        · exact files_reindexVersion target.version
      exact hensure.bind filing_rely fun _ => files_of_touches (uses_restoreEnd hid)

/-- What an operation makes of a program's value changes nothing. -/
theorem files_map {S : Action → Prop} {f : α → Reply} (hq : Keeps Made (Files S) Filing (fun _ w => Filed w) q) :
    Keeps Made (Files S) Filing (fun _ w => Filed w) (f <$> q) := hq.bind filing_rely fun _ => .done filing_stable _

/-- Every operation changes its own document only and keeps everything filed. -/
theorem files_code (o : Operation) : Keeps Made (Files (Owned o)) Filing (fun _ w => Filed w) (code settings o) := by
  have hown {d : DocumentId} (hd : documentOf o = some d)
      (hq : Keeps Made (Files (Touches d)) Filing (fun _ w => Filed w) (code settings o)) :
      Keeps Made (Files (Owned o)) Filing (fun _ w => Filed w) (code settings o) := by
    refine fun h w hw => (hq h w hw).weaken (fun _ e _ _ _ hg => ⟨fun d' hd' => ?_, hg.2⟩) fun _ _ _ hw => hw
    rw [hd] at hd'
    rcases hd' with hd' | hd'
    · injection hd' with hd'
      exact hd' ▸ hg.1
    · contradiction
  cases o with
  | queueDocument p d f c owner => exact hown rfl (files_map (files_of_touches ((uses_queueDocument f c owner).mono fun _ ha => ha.1)))
  | updateDocument p d f c owner => exact hown rfl (files_map (files_of_touches ((uses_updateDocument f c owner).mono fun _ ha => ha.1)))
  | deleteDocument p d => exact hown rfl (files_map files_deleteDocument)
  | processDocumentJob p job => exact hown rfl (files_map (files_processDocumentJob job))
  | processMessage p job => exact hown rfl (files_map (files_processMessage job))
  | restoreVersion p d v => exact hown rfl (files_map (files_restoreVersion v))
  | getDocument p d => exact hown rfl (files_map (files_of_touches ((uses_getDocument p d).mono fun _ ha => ha.1)))
  | filterToActiveVersions p hits =>
    have huses : (filterLoop p [] hits).Uses (Owned (.filterToActiveVersions p hits)) :=
      Program.Uses.all fun d => Program.Uses.all fun _ => (uses_filterLoop hits []).mono fun _ ha => ha.1
    exact files_map (files_of_uses (fun a ha => ⟨"", ha "" (.inr rfl)⟩) huses)

end Operations

section Runs

variable {settings : Settings} {p q : ServicePool} {ms ns : List ServiceMove} {d : DocumentId}

/-- Every move of a run is on the document of its operation, and everything stays filed. -/
theorem filed_moves (h : ServiceRun settings (Pool.idle World.empty) ms p) :
    (∀ m ∈ ms, Owned m.runner.operation m.event.action) ∧ Filed p.world := by
  have hcold := cold_empty.grounded
  have hmade : ∀ m ∈ ms, Made m.runner.past m.event m.source.world m.target.world := by
    intro m hm
    obtain ⟨hallowed, ns, -, hrun⟩ := h.of_mem hm
    exact ⟨hallowed.exec, grounded_of_run hrun (fun _ => rfl) hcold⟩
  have hrun := run_sound filing_rely (I := Filed) (fun o w hw => files_code o [] w hw) (fun _ _ _ _ _ hg => hg.2)
    (fun _ _ hR hw => hR hw) h (fun _ => rfl) filed_empty hmade
  exact ⟨fun m hm => (hrun.2.1 m hm).1, hrun.2.2⟩

/-- In every run, as long as only operations on other documents make calls,
everything kept of a document stays as it is: its objects with their
generations, its raw files, retained chunks, vectors and queued jobs. -/
theorem documents_isolated (h : ServiceRun settings (Pool.idle World.empty) ms p) (h' : ServiceRun settings p ns q)
    (hothers : ∀ m ∈ ns, documentOf m.runner.operation ≠ some d) : SameDocument d p.world q.world := by
  have howned := (filed_moves (h.trans h')).1
  have hkeep : ∀ m ∈ ns, SameDocument d p.world m.source.world → SameDocument d p.world m.target.world := by
    intro m hm hsame
    obtain ⟨hallowed, ns', -, hrun⟩ := h'.of_mem hm
    have hfiled : Filed m.source.world := (filed_moves (h.trans hrun)).2
    have hown := howned m (List.mem_append_right _ hm)
    cases hdoc : documentOf m.runner.operation with
    | some d' =>
      have hne : d' ≠ d := fun heq => hothers m hm (heq ▸ hdoc)
      exact hsame.trans (.of_exec hfiled hallowed.exec (hown d' (.inl hdoc)) hne)
    | none =>
      have hne : d ++ "'" ≠ d := fun heq => by simpa using congrArg String.length heq
      exact hsame.trans (.of_exec hfiled hallowed.exec (hown _ (.inr hdoc)) hne)
  exact h'.world_invariant (.refl d p.world) hkeep

/-- Process 0 uploads another document. -/
def otherTurns : List Turn :=
  .start 2 (.queueDocument 0 "e" "g.txt" (utf8 "b") none) :: turns 2 7 "b" "j"

theorem documents_isolated_sample :
    ∃ ms ns, ServiceRun sampleSettings (Pool.idle World.empty) ms ingestedPool ∧
      ServiceRun sampleSettings ingestedPool ns (after ingestedPool otherTurns) ∧ ns ≠ [] ∧
      SameDocument "d" ingestedPool.world (after ingestedPool otherTurns).world := by
  have hms := run_after (Pool.idle World.empty) ingestTurns (by decide +kernel)
  have hns := run_after ingestedPool otherTurns (by decide +kernel)
  have hdocs : ((movesOf ingestedPool otherTurns).map fun m => documentOf m.runner.operation) =
      List.replicate 7 (some "e") := by decide +kernel
  have hsome : movesOf ingestedPool otherTurns ≠ [] := by
    intro hnil
    rw [hnil] at hdocs
    contradiction
  refine ⟨_, _, hms, hns, hsome, documents_isolated hms hns fun m hm heq => ?_⟩
  have hin := List.mem_map_of_mem (f := fun m : ServiceMove => documentOf m.runner.operation) hm
  rw [hdocs] at hin
  have hdoc : documentOf m.runner.operation = some "e" := List.eq_of_mem_replicate hin
  rw [hdoc] at heq
  exact absurd heq (by decide)

end Runs

end RagSystem.DocumentFootprints
