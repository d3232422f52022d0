import RagSystem.CallEffects

/-!
# What the operations do to the store

Every operation is put together from a few parts, and every part changes the
shared state in one of a few ways. What each of these ways keeps, all
operations keep, however they are interleaved.
-/

namespace RagSystem.StoreCalls

open AtomicProgram RelyGuarantee VersionedCell Storage CompareAndSwap DocumentModels DocumentStore
  DocumentService CallEffects

set_option autoImplicit false

/-- The update `_persist_record` makes: the new record, if the guard lets it. -/
def guarded (record : DocumentRecord) (current : Option DocumentRecord) : Except Err DocumentRecord :=
  match rejectIllegalWrite record current with
  | .error e => .error e
  | .ok () => .ok record

/-- `_persist_record` is the compare-and-swap loop with that update. -/
theorem persistRecord_eq (record : DocumentRecord) (attempts : ℕ) :
    persistRecord record attempts =
      (updateJsonCas (P := Payload) (.documentRecord record.id) (guarded record) attempts).bind
        fun _ => .done () := by
  induction attempts with
  | zero => rfl
  | succ attempts ih =>
    simp only [persistRecord, updateJsonCas, bind_eq, Program.bind_assoc]
    refine congrArg (Program.bind _) (funext fun current => ?_)
    unfold guarded
    cases rejectIllegalWrite record (current.map Prod.fst) with
    | error e => rfl
    | ok u =>
      simp only [Program.bind_assoc]
      refine congrArg (Program.bind _) (funext fun written => ?_)
      cases written with
      | true => rfl
      | false => exact ih

/-- The guard lets a write through as it is or not at all. -/
theorem guarded_ok {record new : DocumentRecord} {current : Option DocumentRecord}
    (h : guarded record current = .ok new) :
    record = new ∧ rejectIllegalWrite record current = .ok () := by
  unfold guarded at h
  split at h
  · contradiction
  · next hr =>
    cases h
    exact ⟨rfl, hr⟩

/-- A write of a version index that one of its two updates makes. -/
def IndexUpdate (d : DocumentId) (current : Option DocumentVersionIndex) (new : DocumentVersionIndex) :
    Prop :=
  (∃ manifest : DocumentVersion, manifest.vectorsPresent = true ∧
    new = activateVersion d manifest current) ∨
  ∃ version, activateExisting d version current = .ok new

/-- A JSON call that changes nothing: a read, a write that raised or lost. The
calls of the loop that writes records are not counted. -/
def Idle : CallEvent → Prop
  | ⟨.getJson _, _⟩ => True
  | ⟨.getJsonWithEtag (.documentRecord _), _⟩ => False
  | ⟨.getJsonWithEtag _, _⟩ => True
  | ⟨.putJson (.documentRecord _) _, _⟩ => False
  | ⟨.putJson _ _, .error _⟩ => True
  | ⟨.putJsonConditional (.documentRecord _) _ _, _⟩ => False
  | ⟨.putJsonConditional _ _ _, .error _⟩ => True
  | _ => False

/-- Idle calls are not calls of the loop that writes records. -/
theorem recordCall_of_idle {e : CallEvent} (h : Idle e) : recordCall e = none := by
  obtain ⟨a, r⟩ := e
  cases a with
  | getJson k => rfl
  | getJsonWithEtag k => cases k <;> first | rfl | contradiction
  | putJson k v => cases k <;> first | rfl | contradiction
  | putJsonConditional k v c => cases k <;> first | rfl | contradiction
  | other x => contradiction

/-- Objects that are created or overwritten freely. -/
def Key.isDerived : Key → Bool
  | .parsed _ _ => true
  | .embeddingManifest _ _ => true
  | _ => false

/-- Objects that are created once. -/
def Key.isArtifact : Key → Bool
  | .documentVersion _ _ => true
  | .ingestionEvent _ _ => true
  | _ => false

/-- A write to a process's record cache. -/
def isCachePut : ServiceCall → Bool
  | .cachePut _ _ => true
  | _ => false

/-- A call an operation makes on the way: it neither reads nor writes a cache
nor acknowledges a message. -/
def isInner : ServiceCall → Bool
  | .cacheGet _ _ => false
  | .cachePut _ _ => false
  | .acknowledge _ => false
  | _ => true

/-- Calls made on the way cache no record. -/
theorem isCachePut_of_inner {x : ServiceCall} (h : isInner x = true) : isCachePut x = false := by
  cases x <;> first | rfl | contradiction

/-- The parts the operations are put together from, record reads and writes apart. -/
inductive Inner : (β : Type) → Prog β → Prop
  /-- A call outside the JSON store. -/
  | call (x : ServiceCall) (hx : isInner x = true) : Inner _ (call x)
  /-- A read of the version index. -/
  | getVersionIndex (d : DocumentId) : Inner _ (getJson (.documentVersionIndex d))
  /-- A plain write of a derived object. -/
  | putJson {k : Key} (hk : Key.isDerived k = true) (payload : Payload k) : Inner _ (putJson k payload)
  /-- The creation of an artifact. -/
  | createArtifact {k : Key} (hk : Key.isArtifact k = true) (payload : Payload k) :
      Inner _ (createArtifact k payload)
  /-- The activation of an ingested version. -/
  | activateVersionInIndex (d : DocumentId) {manifest : DocumentVersion}
      (hm : manifest.vectorsPresent = true) : Inner _ (activateVersionInIndex d manifest)
  /-- The activation of a listed version. -/
  | activateExistingVersion (d : DocumentId) (version : Version) :
      Inner _ (activateExistingVersion d version)

/-- The parts with record reads. -/
inductive Part : (β : Type) → Prog β → Prop
  /-- Not a record read. -/
  | inner {β : Type} {p : Prog β} (h : Inner β p) : Part β p
  /-- A record read. -/
  | getDocument (p : ProcessId) (d : DocumentId) : Part _ (getDocument p d)

/-- The parts with guarded writes of records of `K`. -/
inductive Write (K : DocumentRecord → Prop) : (β : Type) → Prog β → Prop
  /-- Not a record write. -/
  | inner {β : Type} {p : Prog β} (h : Inner β p) : Write K β p
  /-- A guarded record write. -/
  | saveDocumentRecord (p : ProcessId) {r : DocumentRecord} (hr : K r) : Write K _ (saveDocumentRecord p r)

/-- All the parts the operations are put together from. -/
inductive Step : (β : Type) → Prog β → Prop
  /-- Not a record write. -/
  | part {β : Type} {p : Prog β} (h : Part β p) : Step β p
  /-- A guarded record write. -/
  | saveDocumentRecord (p : ProcessId) (r : DocumentRecord) : Step _ (saveDocumentRecord p r)

section Composition

variable {α : Type} {p : Prog α} {K : DocumentRecord → Prop}

/-- What is put together without record reads and writes may have them. -/
theorem parts (h : Composed Inner p) : Composed Part p := h.mono fun _ _ => .inner

/-- What is put together without record reads and writes may have writes. -/
theorem writes (h : Composed Inner p) : Composed (Write K) p := h.mono fun _ _ => .inner

/-- What is put together from parts is put together from steps. -/
theorem steps (h : Composed Part p) : Composed Step p := h.mono fun _ _ => .part

/-- So is what is put together from writes. -/
theorem Write.steps (h : Composed (Write K) p) : Composed Step p := by
  refine h.mono fun β p hp => ?_
  cases hp with
  | inner h => exact .part (.inner h)
  | saveDocumentRecord p hr => exact .saveDocumentRecord p _

/-- A call made on the way is a part. -/
theorem composed_call {x : ServiceCall} (hx : isInner x = true) : Composed Inner (call x) :=
  .part (.call x hx)

/-- Best-effort calls are put together from parts. -/
theorem composed_bestEffort (x : ServiceCall) (hx : isInner x = true) (u : ServiceAnswer x) :
    Composed Inner (bestEffort x u) := .catchError (composed_call hx) fun _ => .done _

/-- Sending batches is. -/
theorem composed_upsertBatches (bs : List (List Chunk)) : Composed Inner (upsertBatches bs) := by
  induction bs with
  | nil => exact .done ()
  | cons b bs ih => exact .bind (composed_call rfl) fun _ => ih

/-- Embedding is. -/
theorem composed_embed (settings : Settings) (chunks : List Chunk) :
    Composed Inner (embed settings chunks) := by
  refine .bind (composed_call rfl) fun _ => ?_
  split
  · exact composed_call rfl
  · exact .done ()

/-- An upload that has its copy of the record writes records of `K`, if they
are: the queued record and its failed variants. -/
theorem composed_queueRecord (p : ProcessId) (job : IngestionJob) {record : DocumentRecord} (hq : K record)
    (hf : ∀ error, K { record with status := .failed, error := error }) :
    Composed (Write K) (queueRecord p job record) := by
  refine .bind (.part (.saveDocumentRecord p hq)) fun _ => ?_
  refine .bind (.catchError (writes (composed_call rfl)) fun e => ?_) fun _ => .done _
  exact .bind (.part (.saveDocumentRecord p (hf _))) fun _ => .raise e

/-- Upload is put together from steps. -/
theorem composed_queueDocument (settings : Settings) (p : ProcessId) (d : DocumentId) (f : String)
    (content : Bytes) (owner : Option String) :
    Composed Step (queueDocument settings p d f content owner) := by
  refine .bind (steps (parts (composed_call rfl))) fun _ => ?_
  refine .bind (.part (.part (.getDocument p d))) fun existing => ?_
  exact Write.steps (K := fun _ => True) (composed_queueRecord p _ trivial fun _ => trivial)

/-- Replacement is. -/
theorem composed_updateDocument (settings : Settings) (p : ProcessId) (d : DocumentId) (f : String)
    (content : Bytes) (owner : Option String) :
    Composed Step (updateDocument settings p d f content owner) := by
  refine .bind (.part (.part (.getDocument p d))) fun current => ?_
  cases current with
  | none => exact .done none
  | some record =>
    dsimp only
    split
    · exact .done none
    · exact .bind (composed_queueDocument settings p d f content owner) fun _ => .done _

/-- Deletion is. -/
theorem composed_deleteDocument (p : ProcessId) (d : DocumentId) :
    Composed Step (deleteDocument p d) := by
  refine .bind (.part (.part (.getDocument p d))) fun record => ?_
  cases record with
  | none => exact .done none
  | some record =>
    dsimp only
    split
    · exact .done _
    · refine .bind (steps (parts (composed_call rfl))) fun _ => ?_
      exact .bind (.part (.saveDocumentRecord p _)) fun _ => .done _

/-- Recording an event is. -/
theorem composed_recordIngestionEvent (d : DocumentId) (v : Version) (status : IngestionStatus)
    (timestamp : String) (error : Option String) :
    Composed Inner (recordIngestionEvent d v status timestamp error) :=
  .bind (composed_call rfl) fun _ => .part (.createArtifact rfl _)

/-- Recording a success is. -/
theorem composed_recordIngestionSuccess (d : DocumentId) (v : Version) :
    Composed Inner (recordIngestionSuccess d v) := by
  refine .bind (composed_call rfl) fun timestamp => ?_
  refine .bind (.part (.createArtifact rfl _)) fun _ => ?_
  refine .bind (composed_recordIngestionEvent d v .succeeded timestamp none) fun _ => ?_
  exact .bind (.part (.activateVersionInIndex d rfl)) fun _ => .done ()

/-- Recording a failure is. -/
theorem composed_recordIngestionFailure (d : DocumentId) (v : Version) (error : String) :
    Composed Inner (recordIngestionFailure d v error) :=
  .bind (composed_call rfl) fun timestamp =>
    composed_recordIngestionEvent d v .failed timestamp (some error)

/-- Stopping for a deleted document is. -/
theorem composed_abortIngestionForDeleted (p : ProcessId) (d : DocumentId) :
    Composed Part (abortIngestionForDeleted p d) := by
  refine .bind (parts (composed_bestEffort (.deleteDocument d) rfl ())) fun _ => ?_
  refine .bind (.part (.getDocument p d)) fun current => ?_
  cases current <;> exact .done _

/-- Stopping for a newer upload is. -/
theorem composed_abortIngestionForSuperseded (p : ProcessId) (d : DocumentId) :
    Composed Part (abortIngestionForSuperseded p d) := by
  refine .bind (.part (.getDocument p d)) fun current => ?_
  cases current <;> exact .done _

/-- The stages of ingestion write records of `K`, if the progress records are. -/
theorem composed_ingestStages (settings : Settings) (p : ProcessId) {record : DocumentRecord}
    (content : Bytes) (hK : ∀ status, status.terminal = false → K (atStage record status)) :
    Composed (Write K) (ingestStages settings p record content) := by
  refine .bind (.part (.saveDocumentRecord p (hK _ rfl))) fun _ => ?_
  refine .bind (writes (composed_call rfl)) fun markdown => ?_
  refine .bind (.part (.inner (.putJson rfl _))) fun _ => ?_
  refine .bind (.part (.saveDocumentRecord p (hK _ rfl))) fun _ => ?_
  refine .bind (writes (composed_call rfl)) fun nodes => ?_
  refine .bind (writes (composed_call rfl)) fun _ => ?_
  refine .bind (.part (.saveDocumentRecord p (hK _ rfl))) fun _ => ?_
  refine .bind (writes (composed_embed settings _)) fun _ => ?_
  exact .bind (writes (composed_upsertBatches _)) fun _ => .done _

/-- The body of ingestion does, if the published record is one of `K` too. -/
theorem composed_ingestBody (settings : Settings) (p : ProcessId) {record : DocumentRecord}
    (content : Bytes) (hK : ∀ status, status.terminal = false → K (atStage record status))
    (hpub : K (published record)) : Composed (Write K) (ingestBody settings p record content) := by
  refine .bind (composed_ingestStages settings p content hK) fun chunks => ?_
  refine .bind (.part (.inner (.putJson rfl _))) fun _ => ?_
  refine .bind (.part (.saveDocumentRecord p hpub)) fun _ => ?_
  refine .bind (writes (composed_recordIngestionSuccess record.id record.version)) fun _ => ?_
  exact .bind (writes (composed_bestEffort (.deleteDocumentExceptVersion _ _) rfl ())) fun _ => .done _

/-- The failure path of ingestion is put together from steps. -/
theorem composed_ingestFailure (p : ProcessId) (record : DocumentRecord) (exc : Err) :
    Composed Step (ingestFailure p record exc) := by
  refine .bind (.catchError ?_ fun e => ?_) fun refused => ?_
  · exact .bind (.part (.saveDocumentRecord p _)) fun _ => .done none
  · split
    · exact .bind (steps (composed_abortIngestionForDeleted p _)) fun _ => .done _
    · exact .bind (steps (composed_abortIngestionForSuperseded p _)) fun _ => .done _
    · exact .raise _
  · cases refused with
    | some current => exact .done current
    | none =>
      refine .bind (steps (parts (composed_recordIngestionFailure record.id record.version _))) fun _ => ?_
      exact .bind (steps (parts (composed_bestEffort (.deleteDocumentVersion _ _) rfl ()))) fun _ => .raise exc

/-- Ingestion is. -/
theorem composed_runIngestion (settings : Settings) (p : ProcessId) (record : DocumentRecord)
    (content : Bytes) : Composed Step (runIngestion settings p record content) := by
  have hbody : Composed (Write fun _ => True) (ingestBody settings p record content) :=
    composed_ingestBody settings p content (fun _ _ => trivial) trivial
  refine .catchError (Write.steps hbody) fun e => ?_
  split
  · exact steps (composed_abortIngestionForDeleted p _)
  · exact steps (composed_abortIngestionForSuperseded p _)
  · exact composed_ingestFailure p record _

/-- Reading the source writes records of `K`, if the failed records are. -/
theorem composed_readSource (p : ProcessId) {record : DocumentRecord} (job : IngestionJob)
    (hK : ∀ exc, K (failedWith record exc)) : Composed (Write K) (readSource p record job) := by
  refine .catchError (writes (composed_call rfl)) fun _ => ?_
  refine .catchError (writes (composed_call rfl)) fun exc => ?_
  exact .bind (.part (.saveDocumentRecord p (hK exc))) fun _ => .raise exc

/-- What follows once the job has its record is put together from steps. -/
theorem composed_processRecord (settings : Settings) (p : ProcessId) (job : IngestionJob)
    (record : DocumentRecord) : Composed Step (processRecord settings p job record) := by
  have hread : Composed (Write fun _ => True) (readSource p record job) :=
    composed_readSource p job fun _ => trivial
  unfold processRecord
  split
  · exact .raise _
  · split
    · exact .raise _
    · exact .bind (Write.steps hread) fun content => composed_runIngestion settings p record content

/-- A whole ingestion job is. -/
theorem composed_processDocumentJob (settings : Settings) (p : ProcessId) (job : IngestionJob) :
    Composed Step (processDocumentJob settings p job) := by
  refine .bind (.part (.part (.getDocument p job.documentId))) fun record => ?_
  cases record with
  | none => exact .raise _
  | some record => exact composed_processRecord settings p job record

/-- Re-indexing a version is. -/
theorem composed_reindexVersion (settings : Settings) (d : DocumentId) (version : Version) :
    Composed Inner (reindexVersion settings d version) := by
  refine .bind (composed_call rfl) fun chunks => ?_
  split
  · exact .raise _
  · exact .bind (composed_embed settings _) fun _ => composed_upsertBatches _

/-- Making sure of a version's vectors is. -/
theorem composed_ensureVectors (settings : Settings) (d : DocumentId) (target : DocumentVersion) :
    Composed Inner (ensureVectors settings d target) := by
  unfold ensureVectors
  split
  · exact .done ()
  · exact composed_reindexVersion settings d target.version

/-- Restoring a version is. -/
theorem composed_restoreVersion (settings : Settings) (p : ProcessId) (d : DocumentId)
    (version : Version) : Composed Step (restoreVersion settings p d version) := by
  refine .bind (.part (.part (.getDocument p d))) fun record => ?_
  cases record with
  | none => exact .done none
  | some record =>
    dsimp only
    split
    · exact .done none
    · refine .bind (.part (.part (.inner (.getVersionIndex d)))) fun index => ?_
      split
      · exact .raise _
      · next target _ =>
        refine .bind (steps (parts (composed_ensureVectors settings d target))) fun _ => ?_
        refine .bind (.part (.part (.inner (.activateExistingVersion d version)))) fun _ => ?_
        exact .bind (.part (.saveDocumentRecord p _)) fun _ => .done _

/-- The read gate is. -/
theorem composed_filterLoop (p : ProcessId) (hits : List RetrievalHit)
    (active : List (DocumentId × Option Version)) : Composed Part (filterLoop p active hits) := by
  induction hits generalizing active with
  | nil => exact .done []
  | cons hit hits ih =>
    refine .bind ?_ fun activeVersion => .bind (ih _) fun _ => .done _
    unfold activeByDoc
    split
    · exact .done _
    · exact .catchError (.bind (.part (.getDocument p _)) fun _ => .done _) fun _ => .done none

end Composition

section Uses

variable {S : Action → Prop}

/-- The calls that the parts without record reads and writes are made of. -/
structure Permits (S : Action → Prop) : Prop where
  /-- Calls outside the JSON store. -/
  call : ∀ x, isInner x = true → S (.other x)
  /-- Plain reads of version indexes. -/
  getVersionIndex : ∀ d, S (.getJson (.documentVersionIndex d))
  /-- Plain writes of derived objects. -/
  putDerived : ∀ k v, Key.isDerived k = true → S (.putJson k v)
  /-- Creations of artifacts. -/
  create : ∀ k v, Key.isArtifact k = true → S (.putJsonConditional k v .ifNoneMatch)
  /-- Reads of version indexes that are to be updated. -/
  readIndex : ∀ d, S (.getJsonWithEtag (.documentVersionIndex d))
  /-- Writes of version indexes. -/
  putIndex : ∀ d i c, S (.putJsonConditional (.documentVersionIndex d) i c)

/-- Those parts use these calls only. -/
theorem Permits.uses_inner (hS : Permits S) {α : Type} {p : Prog α} (hp : Inner α p) : p.Uses S := by
  cases hp with
  | call x hx => exact Program.uses_perform (hS.call x hx)
  | getVersionIndex d => exact Program.uses_perform (hS.getVersionIndex d)
  | putJson hk payload => exact Program.uses_perform (hS.putDerived _ payload hk)
  | createArtifact hk payload =>
    refine (Program.uses_perform (hS.create _ payload hk)).catchError fun e => ?_
    cases e <;> trivial
  | activateVersionInIndex d hm => exact uses_updateJsonCas (hS.readIndex d) (fun _ v c _ => hS.putIndex d v c) _
  | activateExistingVersion d version =>
    exact uses_updateJsonCas (hS.readIndex d) (fun _ v c _ => hS.putIndex d v c) _

/-- A record read uses three calls. -/
theorem uses_getDocument {p : ProcessId} {d : DocumentId} (hcache : S (.other (.cacheGet p d)))
    (hget : S (.getJson (.documentRecord d))) (hput : ∀ r, S (.other (.cachePut p r))) :
    (getDocument p d).Uses S := by
  refine (Program.uses_perform hcache).bind fun cached => ?_
  cases trustedCopy cached with
  | some record => trivial
  | none =>
    refine (Program.uses_perform hget).bind fun payload => ?_
    cases payload with
    | none => trivial
    | some record => exact (Program.uses_perform (hput record)).bind fun _ => trivial

/-- So does a guarded record write, and it writes that record only. -/
theorem uses_saveDocumentRecord {p : ProcessId} {r : DocumentRecord}
    (hread : S (.getJsonWithEtag (.documentRecord r.id)))
    (hput : ∀ c, S (.putJsonConditional (.documentRecord r.id) r c)) (hcache : S (.other (.cachePut p r))) :
    (saveDocumentRecord p r).Uses S := by
  refine Program.Uses.bind ?_ fun _ => Program.uses_perform hcache
  rw [persistRecord_eq]
  exact (uses_updateJsonCas hread (fun _ v c hv => (guarded_ok hv).1 ▸ hput c) _).bind fun _ => trivial

end Uses

/-- What has to be checked about single calls for the parts to keep `I` and to
guarantee `G`. `K` is what is known of a record that may be cached: it was read
from the store, or written to it. -/
structure Obligations (T G : StepPredicate World Err Answer) (R : World → World → Prop)
    (I : Assertion World Err Answer) (K : DocumentRecord → World → Prop) : Prop where
  /-- Calls happen as the service's machine says. -/
  exec : ∀ h e w w', T h e w w' → service.Exec e w w'
  /-- The rely is reflexive and transitive. -/
  rely : IsRely R
  /-- Others change the JSON objects by writing only. -/
  later : ∀ w w', R w w' → Later w.objects w'.objects
  /-- Others cannot falsify the assertion. -/
  stable : Stable R I
  /-- Nor what is known of a record. -/
  known : ∀ r w w', R w w' → K r w → K r w'
  /-- What a read makes known. -/
  read : ∀ h w d r, I h w → w.record d = some r → K r w
  /-- Calls that change nothing. -/
  idle : ∀ h w e, I h w → T h e w w → Idle e → G h e w w ∧ I (h ++ [e]) w
  /-- Calls outside the JSON store. -/
  other : ∀ h w x r w', isCachePut x = false → I h w → T h ⟨.other x, r⟩ w w' →
    G h ⟨.other x, r⟩ w w' ∧ I (h ++ [⟨.other x, r⟩]) w'
  /-- Caching a record. -/
  cachePut : ∀ h w p r a w', K r w → I h w → T h ⟨.other (.cachePut p r), a⟩ w w' →
    G h ⟨.other (.cachePut p r), a⟩ w w' ∧ I (h ++ [⟨.other (.cachePut p r), a⟩]) w'
  /-- An index write that went through. -/
  putIndex : ∀ h w d i c, IndexUpdate d (w.versionIndex d) i → I h w →
    T h ⟨.putJsonConditional (.documentVersionIndex d) i c, .ok ()⟩ w
      { w with objects := put w.objects (.documentVersionIndex d) i } →
    G h ⟨.putJsonConditional (.documentVersionIndex d) i c, .ok ()⟩ w
      { w with objects := put w.objects (.documentVersionIndex d) i } ∧
    I (h ++ [⟨.putJsonConditional (.documentVersionIndex d) i c, .ok ()⟩])
      { w with objects := put w.objects (.documentVersionIndex d) i }
  /-- The creation of an artifact. -/
  create : ∀ h w k v, Key.isArtifact k = true → (w.objects k).content = none → I h w →
    T h ⟨.putJsonConditional k v .ifNoneMatch, .ok ()⟩ w { w with objects := put w.objects k v } →
    G h ⟨.putJsonConditional k v .ifNoneMatch, .ok ()⟩ w { w with objects := put w.objects k v } ∧
    I (h ++ [⟨.putJsonConditional k v .ifNoneMatch, .ok ()⟩]) { w with objects := put w.objects k v }
  /-- A plain write of a derived object. -/
  putDerived : ∀ h w k v, Key.isDerived k = true → I h w →
    T h ⟨.putJson k v, .ok ()⟩ w { w with objects := put w.objects k v } →
    G h ⟨.putJson k v, .ok ()⟩ w { w with objects := put w.objects k v } ∧
    I (h ++ [⟨.putJson k v, .ok ()⟩]) { w with objects := put w.objects k v }

/-- What has to be checked about the calls of guarded record writes besides. -/
structure RecordObligations (T G : StepPredicate World Err Answer) (R : World → World → Prop)
    (I : Assertion World Err Answer) (K : DocumentRecord → World → Prop) : Prop
    extends Obligations T G R I K where
  /-- The read of an attempt. -/
  readRecord : ∀ h w d a, I h w → T h ⟨.getJsonWithEtag (.documentRecord d), a⟩ w w →
    G h ⟨.getJsonWithEtag (.documentRecord d), a⟩ w w ∧
      I (h ++ [⟨.getJsonWithEtag (.documentRecord d), a⟩]) w
  /-- A write that raised or lost. -/
  refusedRecord : ∀ h w d r c e, I h w →
    T h ⟨.putJsonConditional (.documentRecord d) r c, .error e⟩ w w →
    G h ⟨.putJsonConditional (.documentRecord d) r c, .error e⟩ w w ∧
      I (h ++ [⟨.putJsonConditional (.documentRecord d) r c, .error e⟩]) w
  /-- A write that went through. -/
  putRecord : ∀ h w r c, rejectIllegalWrite r (w.record r.id) = .ok () → I h w →
    T h ⟨.putJsonConditional (.documentRecord r.id) r c, .ok ()⟩ w
      { w with objects := put w.objects (.documentRecord r.id) r } →
    G h ⟨.putJsonConditional (.documentRecord r.id) r c, .ok ()⟩ w
      { w with objects := put w.objects (.documentRecord r.id) r } ∧
    I (h ++ [⟨.putJsonConditional (.documentRecord r.id) r c, .ok ()⟩])
      { w with objects := put w.objects (.documentRecord r.id) r } ∧
    K r { w with objects := put w.objects (.documentRecord r.id) r }

section Judgement

variable {T G : StepPredicate World Err Answer} {R : World → World → Prop}
  {I : Assertion World Err Answer} {K : DocumentRecord → World → Prop}

/-- A read that makes its answer known. -/
theorem Obligations.sat_getJson (ob : Obligations T G R I K) (d : DocumentId) {h : History Err Answer}
    {w : World} (hi : I h w) :
    Sat T G R (fun h r w => I h w ∧ ∀ record : DocumentRecord, r = .ok (some record) → K record w)
      (getJson (P := Payload) (.documentRecord d) : Prog (Option DocumentRecord)) h w := by
  refine Sat.perform fun w₁ hw₁ r w₂ ht => ?_
  have hi₁ := ob.stable _ _ _ hw₁ hi
  obtain ⟨rfl, hr⟩ := exec_getJson (ob.exec _ _ _ _ ht)
  obtain ⟨hg, hi₂⟩ := ob.idle h w₂ _ hi₁ ht trivial
  refine ⟨hg, fun v hv => ⟨ob.stable _ _ _ hv hi₂, fun record hrec => ?_⟩⟩
  rcases hr with rfl | ⟨m, rfl⟩
  · injection hrec with hrec
    exact ob.known _ _ _ hv (ob.read h w₂ d record hi₁ hrec)
  · contradiction

/-- Caching a record that is known. -/
theorem Obligations.sat_cachePut (ob : Obligations T G R I K) (p : ProcessId) {r : DocumentRecord}
    {h : History Err Answer} {w : World} (hi : I h w) (hk : K r w) :
    Sat T G R (fun h _ w => I h w) (call (.cachePut p r)) h w := by
  refine Sat.perform fun w₁ hw₁ a w₂ ht => ?_
  obtain ⟨hg, hi₂⟩ := ob.cachePut h w₁ p r a w₂ (ob.known _ _ _ hw₁ hk) (ob.stable _ _ _ hw₁ hi) ht
  exact ⟨hg, fun v hv => ob.stable _ _ _ hv hi₂⟩

/-- Calls outside the JSON store keep the assertion. -/
theorem Obligations.keeps_call (ob : Obligations T G R I K) {x : ServiceCall}
    (hx : isCachePut x = false) : Keeps T G R I (DocumentService.call x) :=
  Keeps.perform ob.stable fun h w r w' hi ht => ob.other h w x r w' hx hi ht

/-- Record reads keep the assertion. -/
theorem Obligations.keeps_getDocument (ob : Obligations T G R I K) (p : ProcessId) (d : DocumentId) :
    Keeps T G R I (getDocument p d) := by
  refine (ob.keeps_call rfl).bind ob.rely fun cached => ?_
  cases trustedCopy cached with
  | some record => exact .done ob.stable _
  | none =>
    intro h w hi
    refine (ob.sat_getJson d hi).bind ob.rely (fun h payload w hq => ?_) fun _ _ _ hq => hq.1
    cases payload with
    | none => exact .done fun v hv => ob.stable _ _ _ hv hq.1
    | some record =>
      refine (ob.sat_cachePut p hq.1 (hq.2 record rfl)).bind ob.rely (fun h _ w hi => ?_)
        fun _ _ _ hi => hi
      exact .done fun v hv => ob.stable _ _ _ hv hi

/-- The loop of a guarded record write keeps the assertion, and makes the
record known when it returns. -/
theorem RecordObligations.sat_persistRecord (ob : RecordObligations T G R I K) (r : DocumentRecord) (attempts : ℕ)
    {h : History Err Answer} {w : World} (hi : I h w) :
    Sat T G R (fun h res w => I h w ∧ (res = .ok () → K r w)) (persistRecord r attempts) h w := by
  have rule : CasRule (P := Payload) T G R (.documentRecord r.id) (guarded r) I (fun _ => I)
      (fun h res w => I h w ∧ ∀ new, res = .ok new → K r w) :=
    { stableI := ob.stable
      stableJ := fun _ => ob.stable
      read := fun h w hi ht => ob.readRecord h w _ _ hi ht
      readRaised := fun h w m hi ht =>
        ⟨(ob.readRecord h w _ _ hi ht).1,
          fun v hv => ⟨ob.stable _ _ _ hv (ob.readRecord h w _ _ hi ht).2, nofun⟩⟩
      rejected := fun _ _ _ _ hi _ => ⟨hi, nofun⟩
      written := fun h w cur v hi hc hm ht => by
        obtain ⟨rfl, hlegal⟩ := guarded_ok hm
        rw [← hc] at hlegal
        obtain ⟨hg, hi', hk⟩ := ob.putRecord h w r _ hlegal hi ht
        exact ⟨hg, fun u hu => ⟨ob.stable _ _ _ hu hi', fun _ _ => ob.known _ _ _ hu hk⟩⟩
      refused := fun h w cur v hi _ ht => ob.refusedRecord h w _ _ _ _ hi ht
      putRaised := fun h w cur v m hi _ ht =>
        ⟨(ob.refusedRecord h w _ _ _ _ hi ht).1,
          fun u hu => ⟨ob.stable _ _ _ hu (ob.refusedRecord h w _ _ _ _ hi ht).2, nofun⟩⟩
      exhausted := fun _ _ hi => ⟨hi, nofun⟩ }
  rw [persistRecord_eq]
  refine (rule.sat ob.exec (fun w w' hw => ob.later w w' hw _) attempts hi).bind ob.rely
    (fun h new w hq => ?_) fun _ _ _ hq => ⟨hq.1, nofun⟩
  exact .done fun v hv => ⟨ob.stable _ _ _ hv hq.1, fun _ => ob.known _ _ _ hv (hq.2 new rfl)⟩

/-- Guarded record writes keep the assertion. -/
theorem RecordObligations.keeps_saveDocumentRecord (ob : RecordObligations T G R I K) (p : ProcessId)
    (r : DocumentRecord) : Keeps T G R I (saveDocumentRecord p r) := by
  intro h w hi
  refine (ob.sat_persistRecord r maxRecordCasAttempts hi).bind ob.rely (fun h _ w hq => ?_)
    fun _ _ _ hq => hq.1
  exact ob.sat_cachePut p hq.1 (hq.2 rfl)

/-- Index updates keep the assertion. -/
theorem Obligations.keeps_updateIndex (ob : Obligations T G R I K) {d : DocumentId}
    {mutate : Option DocumentVersionIndex → Except Err DocumentVersionIndex}
    (hm : ∀ current new, mutate current = .ok new → IndexUpdate d current new) (attempts : ℕ) :
    Keeps T G R I (updateJsonCas (P := Payload) (.documentVersionIndex d) mutate attempts :
Prog DocumentVersionIndex) := by
  refine updateJsonCas_keeps ob.exec (fun w w' hw => ob.later w w' hw _) ob.stable ?_ ?_ ?_ attempts
  · exact fun h w _ hi ht => ob.idle h w _ hi ht trivial
  · exact fun h w _ _ _ hi ht => ob.idle h w _ hi ht trivial
  · exact fun h w i c hi hi' ht => ob.putIndex h w d i c (hm _ _ hi') hi ht

/-- A creation that fails changes nothing. -/
theorem idle_create {k : Key} (hk : Key.isArtifact k = true) (v : Payload k) (c : Precondition) (e : Err) :
    Idle ⟨.putJsonConditional k v c, .error e⟩ := by
  cases k <;> trivial

/-- The creation of an artifact keeps the assertion. -/
theorem Obligations.keeps_createArtifact (ob : Obligations T G R I K) {k : Key}
    (hk : Key.isArtifact k = true) (payload : Payload k) :
    Keeps T G R I (createArtifact k payload) := by
  refine Keeps.catchError ob.rely (Keeps.perform ob.stable fun h w r w' hi ht => ?_) fun e => ?_
  · rcases exec_putJsonConditional (ob.exec _ _ _ _ ht) with ⟨rfl, ha, rfl⟩ | ⟨rfl, ⟨rfl, -⟩ | ⟨m, rfl⟩⟩
    · have hnone : (w.objects k).content = none := by simpa only [Cell.admits, Option.isNone_iff_eq_none] using ha
      exact ob.create h w k payload hk hnone hi ht
    · exact ob.idle h _ _ hi ht (idle_create hk payload _ _)
    · exact ob.idle h _ _ hi ht (idle_create hk payload _ _)
  · split
    · exact .done ob.stable ()
    · exact .raise ob.stable _

/-- Every part keeps the assertion. -/
theorem Obligations.inner (ob : Obligations T G R I K) (β : Type) (p : Prog β) (hp : Inner β p) :
    Keeps T G R I p := by
  cases hp with
  | call x hx => exact ob.keeps_call (isCachePut_of_inner hx)
  | getVersionIndex d =>
    refine Keeps.perform ob.stable fun h w r w' hi ht => ?_
    obtain ⟨rfl, -⟩ := exec_getJson (ob.exec _ _ _ _ ht)
    exact ob.idle h w' _ hi ht trivial
  | @putJson k hk payload =>
    refine Keeps.perform ob.stable fun h w r w' hi ht => ?_
    rcases exec_putJson (ob.exec _ _ _ _ ht) with ⟨rfl, rfl⟩ | ⟨rfl, m, rfl⟩
    · exact ob.putDerived h w k payload hk hi ht
    · exact ob.idle h _ _ hi ht (by cases k <;> trivial)
  | createArtifact hk payload => exact ob.keeps_createArtifact hk payload
  | activateVersionInIndex d hm =>
    refine ob.keeps_updateIndex (fun current new hnew => ?_) maxAttempts
    injection hnew with hnew
    exact .inl ⟨_, hm, hnew.symm⟩
  | activateExistingVersion d version =>
    exact ob.keeps_updateIndex (fun current new hnew => .inr ⟨version, hnew⟩) maxAttempts

/-- So do record reads. -/
theorem Obligations.part (ob : Obligations T G R I K) (β : Type) (p : Prog β) (hp : Part β p) :
    Keeps T G R I p := by
  cases hp with
  | inner h => exact ob.inner β p h
  | getDocument p d => exact ob.keeps_getDocument p d

/-- What is put together from parts keeps the assertion. -/
theorem Obligations.keeps (ob : Obligations T G R I K) {α : Type} {p : Prog α} (hp : Composed Part p) :
    Keeps T G R I p := hp.keeps ob.rely ob.stable ob.part

/-- What is put together from parts and record writes keeps the assertion. -/
theorem RecordObligations.keeps_steps (ob : RecordObligations T G R I K) {α : Type} {p : Prog α}
    (hp : Composed Step p) : Keeps T G R I p := by
  refine hp.keeps ob.rely ob.stable fun β p hp => ?_
  cases hp with
  | part h => exact ob.part β p h
  | saveDocumentRecord p r => exact ob.keeps_saveDocumentRecord p r

/-- The handling of a message keeps the assertion. -/
theorem RecordObligations.keeps_processMessage (ob : RecordObligations T G R I K) (settings : Settings)
    (p : ProcessId) (job : IngestionJob) : Keeps T G R I (processMessage settings p job) := by
  have hack : Keeps T G R I (DocumentService.call (.acknowledge job)) := ob.keeps_call rfl
  refine Keeps.catchError ob.rely ?_ fun e => ?_
  · exact (ob.keeps_steps (composed_processDocumentJob settings p job)).bind ob.rely fun _ => hack
  · split
    · exact hack
    · exact hack
    · exact .done ob.stable ()

/-- Every operation keeps the assertion and guarantees `G` at every call. -/
theorem RecordObligations.keeps_code (ob : RecordObligations T G R I K) (settings : Settings)
    (o : Operation) : Keeps T G R I (code settings o) := by
  have hdone {α : Type} (f : α → Reply) (a : α) : Keeps T G R I (.done (f a) : Prog Reply) :=
    .done ob.stable (f a)
  cases o with
  | queueDocument p d f c o =>
    exact (ob.keeps_steps (composed_queueDocument settings p d f c o)).bind ob.rely (hdone _)
  | updateDocument p d f c o =>
    exact (ob.keeps_steps (composed_updateDocument settings p d f c o)).bind ob.rely (hdone _)
  | deleteDocument p d => exact (ob.keeps_steps (composed_deleteDocument p d)).bind ob.rely (hdone _)
  | processDocumentJob p job =>
    exact (ob.keeps_steps (composed_processDocumentJob settings p job)).bind ob.rely (hdone _)
  | processMessage p job => exact (ob.keeps_processMessage settings p job).bind ob.rely (hdone _)
  | restoreVersion p d v =>
    exact (ob.keeps_steps (composed_restoreVersion settings p d v)).bind ob.rely (hdone _)
  | getDocument p d => exact (ob.keeps_getDocument p d).bind ob.rely (hdone _)
  | filterToActiveVersions p hits =>
    exact (ob.keeps (composed_filterLoop p hits [])).bind ob.rely (hdone _)

end Judgement

section Exceptions

/-- Not one of the two exceptions of the record guard. -/
def Ordinary : Err → Prop
  | .app (.documentDeleted _) => False
  | .app (.staleIngestion _ _ _) => False
  | _ => True

/-- An exception that is neither is ordinary. -/
theorem ordinary_of_ne {e : Err} (hdel : ∀ d, e = .app (.documentDeleted d) → False)
    (hstale : ∀ d a c, e = .app (.staleIngestion d a c) → False) : Ordinary e := by
  unfold Ordinary
  split
  · exact hdel _ rfl
  · exact hstale _ _ _ rfl
  · trivial

/-- No call is answered with an exception of the guard. -/
theorem exec_ordinary {e : CallEvent} {w w' : World} (h : service.Exec e w w') (err : Err)
    (he : e.answer = .error err) : Ordinary err := by
  obtain ⟨a, r⟩ := e
  dsimp only at he
  subst he
  cases a with
  | getJson k => rcases (exec_getJson h).2 with hr | ⟨m, hr⟩ <;> cases hr; trivial
  | getJsonWithEtag k => rcases (exec_getJsonWithEtag h).2 with hr | ⟨m, hr⟩ <;> cases hr; trivial
  | putJson k v => rcases exec_putJson h with ⟨hr, -⟩ | ⟨-, m, hr⟩ <;> cases hr; trivial
  | putJsonConditional k v c =>
    rcases exec_putJsonConditional h with ⟨hr, -⟩ | ⟨-, ⟨hr, -⟩ | ⟨m, hr⟩⟩ <;> cases hr <;> trivial
  | other x =>
    obtain ⟨o, rest, ho, -⟩ := exec_other h
    cases x <;> cases o <;> first
      | contradiction
      | (cases ho <;> trivial)
      | (simp only [perform?] at ho; split at ho <;> cases ho <;> trivial)

/-- A call raises what it is answered with. -/
theorem raises_call (x : ServiceCall) : Raises Ordinary (call x) := Raises.perform

/-- A best-effort call raises nothing. -/
theorem raises_bestEffort (x : ServiceCall) (u : ServiceAnswer x) : Raises Ordinary (bestEffort x u) :=
  Raises.catchError fun _ => trivial

/-- Reading a record raises nothing of the guard. -/
theorem raises_getDocument (p : ProcessId) (d : DocumentId) : Raises Ordinary (getDocument p d) := by
  refine (raises_call _).bind fun cached => ?_
  cases trustedCopy cached with
  | some record => trivial
  | none =>
    refine Raises.perform.bind fun payload => ?_
    cases payload with
    | none => trivial
    | some record => exact (raises_call _).bind fun _ => trivial

/-- Nor does the creation of an artifact. -/
theorem raises_createArtifact (k : Key) (payload : Payload k) :
    Raises Ordinary (createArtifact k payload) := by
  intro r hr
  cases r with
  | ok u => trivial
  | error e => cases e <;> first | trivial | exact hr _ rfl

/-- Nor the record of a failed ingestion. -/
theorem raises_recordIngestionFailure (d : DocumentId) (v : Version) (error : String) :
    Raises Ordinary (recordIngestionFailure d v error) :=
  (raises_call _).bind fun _ => (raises_call _).bind fun _ => raises_createArtifact _ _

/-- Stopping for a deleted document raises nothing of the guard. -/
theorem raises_abortIngestionForDeleted (p : ProcessId) (d : DocumentId) :
    Raises Ordinary (abortIngestionForDeleted p d) := by
  refine (raises_bestEffort _ _).bind fun _ => (raises_getDocument p d).bind fun current => ?_
  cases current <;> trivial

/-- Nor does stopping for a newer upload. -/
theorem raises_abortIngestionForSuperseded (p : ProcessId) (d : DocumentId) :
    Raises Ordinary (abortIngestionForSuperseded p d) := by
  refine (raises_getDocument p d).bind fun current => ?_
  cases current <;> trivial

/-- The failure path raises nothing of the guard when it is given nothing of it. -/
theorem raises_ingestFailure (p : ProcessId) (record : DocumentRecord) {exc : Err} (he : Ordinary exc) :
    Raises Ordinary (ingestFailure p record exc) := by
  refine Raises.bind (Raises.catchError fun e => ?_) fun refused => ?_
  · split
    · exact (raises_abortIngestionForDeleted p _).bind fun _ => trivial
    · exact (raises_abortIngestionForSuperseded p _).bind fun _ => trivial
    · next hdel hstale => exact ordinary_of_ne hdel hstale
  · cases refused with
    | some current => trivial
    | none =>
      refine (raises_recordIngestionFailure _ _ _).bind fun _ => ?_
      exact (raises_bestEffort _ _).bind fun _ => he

/-- An ingestion that was begun never ends with an exception of the guard. -/
theorem raises_runIngestion (settings : Settings) (p : ProcessId) (record : DocumentRecord) (content : Bytes) :
    Raises Ordinary (runIngestion settings p record content) := by
  refine Raises.catchError fun e => ?_
  split
  · exact raises_abortIngestionForDeleted p _
  · exact raises_abortIngestionForSuperseded p _
  · next hdel hstale => exact raises_ingestFailure p record (ordinary_of_ne hdel hstale)

end Exceptions

section Parts

/-- Calls happen as the service's machine says. -/
abbrev Happens : StepPredicate World Err Answer := fun _ e w w' => service.Exec e w w'

/-- A judgement about a program that runs alone. -/
abbrev Alone {α : Type} (Q : Ending World Err Answer α) : Prog α → History Err Answer → World → Prop :=
  Sat Happens (fun _ _ _ _ => True) Eq Q

/-- Others write objects. -/
abbrev Writers (w w' : World) : Prop := Later w.objects w'.objects

/-- Others' writes are a rely. -/
theorem writers_rely : IsRely Writers := ⟨fun w => .refl w.objects, fun h h' => h.trans h'⟩

/-- The parts keep whatever is not about the calls of record writes. -/
theorem part_obligations {G : StepPredicate World Err Answer} {P : History Err Answer → Prop}
    (hG : ∀ h e w w', P h → recordCall e = none → G h e w w')
    (hP : ∀ h e, P h → recordCall e = none → P (h ++ [e])) :
    Obligations Happens G Writers (fun h _ => P h) (fun _ _ => True) where
  exec := fun _ _ _ _ h => h
  rely := ⟨fun w => .refl _, fun h h' => h.trans h'⟩
  later := fun _ _ h => h
  stable := fun _ _ _ _ h => h
  known := fun _ _ _ _ h => h
  read := fun _ _ _ _ _ _ => trivial
  idle := fun h w e hp _ he =>
    ⟨hG _ _ _ _ hp (recordCall_of_idle he), hP _ _ hp (recordCall_of_idle he)⟩
  other := fun h w x r w' _ hp _ => ⟨hG _ _ _ _ hp rfl, hP _ _ hp rfl⟩
  cachePut := fun h w p r a w' _ hp _ => ⟨hG _ _ _ _ hp rfl, hP _ _ hp rfl⟩
  putIndex := fun h w d i c _ hp _ => ⟨hG _ _ _ _ hp rfl, hP _ _ hp rfl⟩
  create := fun h w k v hk _ hp _ => by
    have hnone : recordCall ⟨.putJsonConditional k v .ifNoneMatch, .ok ()⟩ = none := by
      cases k <;> first | rfl | contradiction
    exact ⟨hG _ _ _ _ hp hnone, hP _ _ hp hnone⟩
  putDerived := fun h w k v hk hp _ => by
    have hnone : recordCall ⟨.putJson k v, .ok ()⟩ = none := by
      cases k <;> first | rfl | contradiction
    exact ⟨hG _ _ _ _ hp hnone, hP _ _ hp hnone⟩

end Parts

end RagSystem.StoreCalls
