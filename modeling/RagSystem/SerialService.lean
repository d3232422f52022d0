import RagSystem.CalmRuns

/-!
# What the service is for, one operation at a time

A shelf for each document says what was uploaded, what is published, what the
history lists, which sources are kept and what each version was cut into. One
process that runs one operation after the other, with no call raising, changes
the store as the operations change the shelves: with nobody to race, what is
published can be found, the index and the record agree, and what was deleted
has left no vectors.
-/

namespace RagSystem.SerialService

open AtomicProgram RelyGuarantee Storage DocumentModels DocumentStore DocumentService CallEffects StoreCalls
  RecordCaches VersionHistory DocumentFootprints CalmRuns

set_option autoImplicit false

section Shelves

/-- What there is to tell of one document. -/
@[ext] structure Shelf where
  /-- The version uploaded last. -/
  uploaded : Version
  /-- The document was deleted. -/
  deleted : Bool
  /-- The version search serves. -/
  published : Option Version
  /-- The versions that can be restored, oldest first. -/
  history : List Version
  /-- The sources kept, by version and suffix. -/
  files : Version → String → Bool
  /-- What each version was cut into. -/
  texts : Version → List Chunk

/-- The shelves of the documents there are. -/
abbrev Corpus := DocumentId → Option Shelf

/-- How an operation ends. -/
inductive Verdict where
  /-- It did what it is for. -/
  | done
  /-- There is no such document, or none any more. -/
  | absent
  /-- The hits that are published. -/
  | found (hits : List RetrievalHit)
  /-- It was refused. -/
  | refused (e : Err)

/-- A source is kept besides the others. -/
def Shelf.keep (s : Shelf) (v : Version) (suffix : String) : Shelf :=
  { s with files := fun v' suffix' => decide (v' = v ∧ suffix' = suffix) || s.files v' suffix' }

/-- The shelf of a document nothing is known of yet. -/
def Shelf.new (v : Version) : Shelf :=
  { uploaded := v, deleted := false, published := none, history := [], files := fun _ _ => false, texts := fun _ => [] }

/-- Upload: the version waits, what is published stays. A deleted document
keeps the file and refuses the upload. -/
def upload (d : DocumentId) (v : Version) (suffix : String) : Option Shelf → Option Shelf × Verdict
  | none => (some ((Shelf.new v).keep v suffix), .done)
  | some s =>
    if s.deleted then (some (s.keep v suffix), .refused (.app (.documentDeleted d)))
    else (some { s.keep v suffix with uploaded := v }, .done)

/-- Replace: upload to a document there is. -/
def replace (d : DocumentId) (v : Version) (suffix : String) : Option Shelf → Option Shelf × Verdict
  | none => (none, .absent)
  | some s => if s.deleted then (some s, .absent) else upload d v suffix (some s)

/-- Delete: nothing is published any more, for good. -/
def discard : Option Shelf → Option Shelf × Verdict
  | none => (none, .absent)
  | some s => if s.deleted then (some s, .done) else (some { s with deleted := true, published := none }, .done)

/-- Ingest: the version uploaded last, if its source is kept, is cut, listed
last and published. -/
def ingest (job : IngestionJob) (texts : List Chunk) : Option Shelf → Option Shelf × Verdict
  | none => (none, .refused (.app (.valueError ("Document record not found: " ++ job.documentId))))
  | some s =>
    if s.deleted then (some s, .refused (.app (.documentDeleted job.documentId)))
    else if s.uploaded ≠ job.version then
      (some s, .refused (.app (.staleIngestion job.documentId job.version s.uploaded)))
    else if s.files job.version (rawSuffix job.filename) = false ∧ s.files job.version ".pdf" = false then
      (some s, .refused (.app .notFound))
    else
      (some { s with
        published := some job.version
        history := (s.history.filter fun v => v ≠ job.version) ++ [job.version]
        texts := Function.update s.texts job.version texts }, .done)

/-- Restore: a listed version is published again, unless it is not published
and was cut into nothing. -/
def restore (d : DocumentId) (v : Version) : Option Shelf → Option Shelf × Verdict
  | none => (none, .absent)
  | some s =>
    if s.deleted then (some s, .absent)
    else if v ∉ s.history then (some s, .refused (.app (.versionNotFound d v)))
    else if s.published ≠ some v ∧ s.texts v = [] then
      (some s, .refused (.app (.runtimeError ("No retained content found to re-index version " ++ v ++
        " of document " ++ d))))
    else (some { s with published := some v }, .done)

/-- One document's shelf changes. -/
def Corpus.at (k : Corpus) (d : DocumentId) (f : Option Shelf → Option Shelf × Verdict) : Corpus × Verdict :=
  (Function.update k d (f (k d)).1, (f (k d)).2)

/-- The worker tells nobody how an ingestion ended. -/
def quiet (f : Option Shelf → Option Shelf × Verdict) (o : Option Shelf) : Option Shelf × Verdict := ((f o).1, .done)

/-- What an operation does to the corpus; `texts` is what the parser and the
splitter make of the source, if it comes to that. -/
def step (settings : Settings) (texts : List Chunk) (k : Corpus) : Operation → Corpus × Verdict
  | .queueDocument _ d filename content _ => k.at d (upload d (contentHash settings content) (rawSuffix filename))
  | .updateDocument _ d filename content _ => k.at d (replace d (contentHash settings content) (rawSuffix filename))
  | .deleteDocument _ d => k.at d discard
  | .processDocumentJob _ job => k.at job.documentId (ingest job texts)
  | .processMessage _ job => k.at job.documentId (quiet (ingest job texts))
  | .restoreVersion _ d v => k.at d (restore d v)
  | .getDocument _ d => (k, if (k d).isSome then .done else .absent)
  | .filterToActiveVersions _ hits =>
    (k, .found (hits.filter fun hit => (k hit.chunk.documentId).bind Shelf.published = some hit.chunk.version))

/-- The service answered as the verdict says. -/
def Verdict.Heard : Verdict → Except Err Reply → Prop
  | .done, .ok (.record (some _)) => True
  | .done, .ok .unit => True
  | .absent, .ok (.record none) => True
  | .found hits, .ok (.hits hits') => hits' = hits
  | .refused e, .error e' => e' = e
  | _, _ => False

end Shelves

section Abstraction

/-- What there is to tell of a document that has this record. -/
def shelfOf (s : View) (d : DocumentId) (r : DocumentRecord) : Shelf where
  uploaded := r.version
  deleted := r.status = .deleted
  published := publishedVersionOf (some r)
  history := listed (s.index d)
  files v suffix := (s.raw d v suffix).isSome
  texts v := (s.chunks d v).getD []

/-- The shelf of a document as the store has it. -/
def shelf (s : View) (d : DocumentId) : Option Shelf := (s.record d).map (shelfOf s d)

/-- The shelf of a document that has a record. -/
theorem shelf_some {s : View} {d : DocumentId} {r : DocumentRecord} (h : s.record d = some r) :
    shelf s d = some (shelfOf s d r) := by
  rw [shelf, h, Option.map_some]

/-- There is none without. -/
theorem shelf_none {s : View} {d : DocumentId} (h : s.record d = none) : shelf s d = none := by
  rw [shelf, h, Option.map_none]

/-- What a record, its index and its chunks have to do with each other at rest. -/
structure Settled (s : View) (d : DocumentId) (r : DocumentRecord) : Prop where
  /-- The record is filed under its id. -/
  keyed : r.id = d
  /-- Its version has a name. -/
  named : r.version ≠ ""
  /-- The index has the same active version. -/
  agree : (s.index d).bind DocumentVersionIndex.activeVersion = r.activeVersion
  /-- An indexed record has published a version. -/
  indexed : r.status = .indexed → r.activeVersion ≠ none
  /-- The active version has a name and retained chunks, and these are all
  indexed as long as the document is not deleted. -/
  found : ∀ v, r.activeVersion = some v → v ≠ "" ∧ ∃ cs, s.chunks d v = some cs ∧
    (r.status ≠ .deleted → ∀ c ∈ cs, (s.vectors c.id).isSome)

/-- A document at rest. -/
structure Sound (s : View) (d : DocumentId) : Prop where
  /-- Its record. -/
  settled : ∀ r, s.record d = some r → Settled s d r
  /-- Nothing is kept of a document without a record. -/
  absent : s.record d = none → s.index d = none ∧ (∀ v suffix, s.raw d v suffix = none) ∧ ∀ v, s.chunks d v = none
  /-- The conditions on its version index. -/
  coherent : ∀ index, s.index d = some index → Coherent index
  /-- Listed versions have names. -/
  listedNamed : ∀ v ∈ listed (s.index d), v ≠ ""
  /-- Retained chunks are filed under the version they are retained for. -/
  filed : ∀ v cs, s.chunks d v = some cs → ChunksFiled d v cs
  /-- So are indexed ones, and only live documents have any. -/
  live : ∀ i c, i.documentId = d → s.vectors i = some c → c.documentId = d ∧ c.version = i.version ∧
    ∃ r, s.record d = some r ∧ r.status ≠ .deleted

/-- Nothing of document `d` changed but its jobs. -/
structure SameAt (d : DocumentId) (s t : View) : Prop where
  /-- Its record. -/
  record : t.record d = s.record d
  /-- Its version index. -/
  index : t.index d = s.index d
  /-- Its files. -/
  raw : t.raw d = s.raw d
  /-- Its retained chunks. -/
  chunks : t.chunks d = s.chunks d
  /-- Its vectors. -/
  vectors : ∀ i, i.documentId = d → t.vectors i = s.vectors i

variable {s t : View} {d : DocumentId} {r : DocumentRecord}

/-- What did not change is at rest as it was, -/
theorem Sound.same (hs : Sound s d) (h : SameAt d s t) : Sound t d where
  settled r hr := by
    rw [h.record] at hr
    obtain ⟨hkeyed, hnamed, hagree, hindexed, hfound⟩ := hs.settled r hr
    refine ⟨hkeyed, hnamed, by rw [h.index, hagree], hindexed, fun v hv => ?_⟩
    obtain ⟨hname, cs, hcs, hall⟩ := hfound v hv
    refine ⟨hname, cs, by rw [h.chunks, hcs], fun hlive c hc => ?_⟩
    rw [h.vectors c.id (hs.filed v cs hcs c hc).2.2.1]
    exact hall hlive c hc
  absent hr := by
    rw [h.record] at hr
    rw [h.index, h.raw, h.chunks]
    exact hs.absent hr
  coherent := by
    rw [h.index]
    exact hs.coherent
  listedNamed := by
    rw [h.index]
    exact hs.listedNamed
  filed := by
    rw [h.chunks]
    exact hs.filed
  live i c hi hc := by
    rw [h.vectors i hi] at hc
    rw [h.record]
    exact hs.live i c hi hc

/-- and its shelf is. -/
theorem shelf_same (h : SameAt d s t) : shelf t d = shelf s d := by
  have hof (r : DocumentRecord) : shelfOf t d r = shelfOf s d r := by
    simp only [shelfOf, h.index, h.raw, h.chunks]
  rw [shelf, shelf, h.record, funext hof]

/-- Before anything was uploaded every document is at rest, and there is no shelf. -/
theorem sound_empty (d : DocumentId) : Sound (view World.empty) d := by
  constructor
  · intro r h
    contradiction
  · exact fun _ => ⟨rfl, fun _ _ => rfl, fun _ => rfl⟩
  · intro index h
    contradiction
  · exact fun v hv => absurd hv List.not_mem_nil
  · intro v cs h
    contradiction
  · intro i c _ h
    contradiction

/-- What a settled record publishes. -/
theorem Settled.published (h : Settled s d r) :
    publishedVersionOf (some r) = if r.status = .deleted then none else r.activeVersion := by
  unfold publishedVersionOf
  dsimp only
  split
  · rfl
  · cases ha : r.activeVersion with
    | none =>
      have hnot : r.status ≠ .indexed := fun hi => h.indexed hi ha
      simp only [Option.filter_none, hnot, if_false]
    | some v =>
      have hname := (h.found v ha).1
      rw [Option.filter_some_pos (by simpa using hname)]

/-- What the read gate takes for published is what the shelf has. -/
theorem published_shelf (s : View) (d : DocumentId) :
    (shelf s d).bind Shelf.published = publishedVersionOf (s.record d) := by
  unfold shelf
  cases s.record d <;> rfl

/-- One document changes as `f` says, and is at rest again. -/
structure Changed (d : DocumentId) (f : Option Shelf → Option Shelf × Verdict) (s t : View) : Prop where
  /-- The others stay. -/
  others : ∀ d', d' ≠ d → SameAt d' s t
  /-- It is at rest. -/
  sound : Sound t d
  /-- Its shelf is as `f` says. -/
  shelf_eq : shelf t d = (f (shelf s d)).1

/-- Then the whole corpus is, and changes so. -/
theorem Changed.corpus {f : Option Shelf → Option Shelf × Verdict} (h : Changed d f s t) (hs : ∀ d', Sound s d') :
    (∀ d', Sound t d') ∧ shelf t = (Corpus.at (shelf s) d f).1 := by
  refine ⟨fun d' => ?_, funext fun d' => ?_⟩
  · by_cases hd : d' = d
    · exact hd ▸ h.sound
    · exact (hs d').same (h.others d' hd)
  · unfold Corpus.at
    dsimp only
    by_cases hd : d' = d
    · rw [hd, Function.update_self, h.shelf_eq]
    · rw [Function.update_of_ne hd, shelf_same (h.others d' hd)]

end Abstraction

section Changes

variable {s : View} {d d' : DocumentId} {r : DocumentRecord} {v : Version}

/-- A file more is kept of a document that has a record. -/
theorem sound_putRaw (hs : Sound s d) (hr : s.record d = some r) (suffix : String) (content : Bytes) :
    Sound (s.after ⟨.other (.putRaw d v suffix content), .ok ()⟩) d where
  settled r hr := by
    obtain ⟨hkeyed, hnamed, hagree, hindexed, hfound⟩ := hs.settled r hr
    exact ⟨hkeyed, hnamed, hagree, hindexed, hfound⟩
  absent hnone := by
    have hsome : s.record d = none := hnone
    rw [hr] at hsome
    contradiction
  coherent := hs.coherent
  listedNamed := hs.listedNamed
  filed := hs.filed
  live := hs.live

/-- Files of another document are not its own. -/
theorem same_putRaw (hd : d' ≠ d) (suffix : String) (content : Bytes) :
    SameAt d' s (s.after ⟨.other (.putRaw d v suffix content), .ok ()⟩) where
  record := rfl
  index := rfl
  raw := by
    funext v' suffix'
    exact if_neg fun h => hd h.1
  chunks := rfl
  vectors _ _ := rfl

/-- A file that is kept is on the shelf. -/
theorem shelfOf_putRaw (suffix : String) (content : Bytes) (r : DocumentRecord) :
    shelfOf (s.after ⟨.other (.putRaw d v suffix content), .ok ()⟩) d r = (shelfOf s d r).keep v suffix := by
  refine Shelf.ext rfl rfl rfl rfl (funext fun v' => funext fun suffix' => ?_) rfl
  simp only [shelfOf, Shelf.keep, View.after, rawAfter]
  by_cases heq : v' = v ∧ suffix' = suffix
  · simp only [heq, and_self, if_true, Option.isSome_some, decide_true, Bool.true_or]
  · simp only [heq, true_and, if_false, decide_false, Bool.false_or]

/-- Publishing a job changes nothing kept of a document. -/
theorem same_enqueue (job : IngestionJob) : SameAt d s (s.after ⟨.other (.enqueue job), .ok ()⟩) :=
  ⟨rfl, rfl, rfl, rfl, fun _ _ => rfl⟩

theorem SameAt.trans {s t u : View} (h : SameAt d s t) (h' : SameAt d t u) : SameAt d s u where
  record := h'.record.trans h.record
  index := h'.index.trans h.index
  raw := h'.raw.trans h.raw
  chunks := h'.chunks.trans h.chunks
  vectors i hi := (h'.vectors i hi).trans (h.vectors i hi)

/-- A record of another document is not its own. -/
theorem same_save (hd : d' ≠ r.id) : SameAt d' s (s.save r) :=
  ⟨Function.update_of_ne hd _ _, rfl, rfl, rfl, fun _ _ => rfl⟩

/-- What an upload leaves to see: the file, the record and the job. -/
def queuedView (s : View) (q : DocumentRecord) (suffix : String) (content : Bytes) (job : IngestionJob) : View :=
  ((s.after ⟨.other (.putRaw q.id q.version suffix content), .ok ()⟩).save q).after ⟨.other (.enqueue job), .ok ()⟩

/-- The shelf of a document without a record, and its last upload. -/
theorem upload_done {o : Option Shelf} (ho : ∀ k, o = some k → k.deleted = false) (suffix : String) :
    (upload d v suffix o).2 = .done ∧
      (upload d v suffix o).1 = some { (o.getD (Shelf.new v)).keep v suffix with uploaded := v } := by
  cases o with
  | none => exact ⟨rfl, rfl⟩
  | some k => simp only [upload, ho k rfl, Bool.false_eq_true, if_false, Option.getD_some, and_self]

/-- An upload to a document that is not deleted. -/
theorem changed_upload {q : DocumentRecord} (hs : Sound s q.id) (hname : q.version ≠ "") (hstatus : q.status = .queued)
    (hactive : q.activeVersion = publishedVersionOf (s.record q.id))
    (hlive : ∀ r, s.record q.id = some r → r.status ≠ .deleted) (suffix : String) (content : Bytes) (job : IngestionJob) :
    Changed q.id (upload q.id q.version suffix) s (queuedView s q suffix content job) ∧
      (upload q.id q.version suffix (shelf s q.id)).2 = .done := by
  have hrecord : (queuedView s q suffix content job).record q.id = some q := Function.update_self _ _ _
  have hqueued : q.status ≠ .deleted := by simp [hstatus]
  have hindex : (s.index q.id).bind DocumentVersionIndex.activeVersion = q.activeVersion := by
    rw [hactive]
    cases hr : s.record q.id with
    | none =>
      rw [(hs.absent hr).1]
      rfl
    | some r => rw [(hs.settled r hr).published, if_neg (hlive r hr), (hs.settled r hr).agree]
  have hsettled : Settled (queuedView s q suffix content job) q.id q := by
    refine ⟨rfl, hname, hindex, fun h => by simp [hstatus] at h, fun v hv => ?_⟩
    rw [hactive] at hv
    cases hr : s.record q.id with
    | none =>
      rw [hr] at hv
      contradiction
    | some r =>
      rw [hr, (hs.settled r hr).published, if_neg (hlive r hr)] at hv
      obtain ⟨hv', cs, hcs, hall⟩ := (hs.settled r hr).found v hv
      exact ⟨hv', cs, hcs, fun _ => hall (hlive r hr)⟩
  have hkept : ∀ k, shelf s q.id = some k → k.deleted = false := by
    intro k hk
    cases hr : s.record q.id with
    | none =>
      rw [shelf_none hr] at hk
      contradiction
    | some r =>
      rw [shelf_some hr, Option.some.injEq] at hk
      rw [← hk]
      exact decide_eq_false (hlive r hr)
  obtain ⟨hdone, hshelf⟩ := upload_done (d := q.id) (v := q.version) hkept suffix
  refine ⟨⟨fun d' hd => ?_,
    ⟨fun r hr => ?_, fun hr => ?_, hs.coherent, hs.listedNamed, hs.filed, fun i c hi hc => ?_⟩, ?_⟩, hdone⟩
  · exact ((same_putRaw hd suffix content).trans (same_save hd)).trans (same_enqueue job)
  · have heq : some q = some r := hrecord.symm.trans hr
    injection heq with heq
    exact heq ▸ hsettled
  · have heq : some q = none := hrecord.symm.trans hr
    contradiction
  · obtain ⟨hdoc, hversion, -⟩ := hs.live i c hi hc
    exact ⟨hdoc, hversion, q, hrecord, hqueued⟩
  · have hfiles := shelfOf_putRaw (s := s) (d := q.id) (v := q.version) suffix content q
    have hpublished : (shelfOf s q.id q).published = ((shelf s q.id).getD (Shelf.new q.version)).published := by
      show publishedVersionOf (some q) = _
      rw [hsettled.published, if_neg hqueued, hactive]
      cases hr : s.record q.id with
      | none => rw [shelf_none hr]; rfl
      | some r => rw [shelf_some hr]; rfl
    have hrest : shelfOf s q.id q = { (shelf s q.id).getD (Shelf.new q.version) with uploaded := q.version } := by
      cases hr : s.record q.id with
      | none =>
        obtain ⟨hnone, hraw, hchunks⟩ := hs.absent hr
        rw [shelf_none hr] at hpublished ⊢
        refine Shelf.ext rfl (by simp [shelfOf, hqueued, Shelf.new]) hpublished ?_ ?_ ?_
        · simp only [shelfOf, hnone]
          rfl
        · simp only [shelfOf, hraw, Option.isSome_none]
          rfl
        · simp only [shelfOf, hchunks, Option.getD_none]
          rfl
      | some r =>
        rw [shelf_some hr] at hpublished ⊢
        exact Shelf.ext rfl (by simp [shelfOf, hqueued, hlive r hr]) hpublished rfl rfl rfl
    rw [shelf_some hrecord, hshelf]
    have hof : shelfOf (queuedView s q suffix content job) q.id q = (shelfOf s q.id q).keep q.version suffix := hfiles
    rw [hof, hrest]
    rfl

/-- Nothing changes. -/
theorem changed_none {f : Option Shelf → Option Shelf × Verdict} (hs : Sound s d) (hf : (f (shelf s d)).1 = shelf s d) :
    Changed d f s s := ⟨fun _ _ => ⟨rfl, rfl, rfl, rfl, fun _ _ => rfl⟩, hs, hf.symm⟩

/-- An upload to a deleted document leaves its file only. -/
theorem changed_refusedUpload (hs : Sound s d) (hr : s.record d = some r) (hdel : r.status = .deleted) (suffix : String)
    (content : Bytes) : Changed d (upload d v suffix) s (s.after ⟨.other (.putRaw d v suffix content), .ok ()⟩) ∧
      (upload d v suffix (shelf s d)).2 = .refused (.app (.documentDeleted d)) := by
  have hdeleted : (shelfOf s d r).deleted = true := decide_eq_true hdel
  have hafter : (s.after ⟨.other (.putRaw d v suffix content), .ok ()⟩).record d = some r := hr
  refine ⟨⟨fun d' hd => same_putRaw hd suffix content, sound_putRaw hs hr suffix content, ?_⟩, ?_⟩
  · rw [shelf_some hafter, shelfOf_putRaw, shelf_some hr]
    simp only [upload, hdeleted, if_true]
  · rw [shelf_some hr]
    simp only [upload, hdeleted, if_true]

/-- Vectors a filter spares stay. -/
theorem deleteVectors_spared (hs : Sound s d) {filter : Chunk → Bool} (hfilter : ∀ c, c.documentId = d → filter c = false)
    {i : ChunkId} (hi : i.documentId = d) : deleteVectors s.vectors filter i = s.vectors i := by
  unfold deleteVectors
  cases hc : s.vectors i with
  | none => rfl
  | some c =>
    have hspared := hfilter c (hs.live i c hi hc).1
    exact Option.filter_some_pos (by rw [hspared]; rfl)

/-- A deleted record of a document. -/
def deletedRecord (r : DocumentRecord) : DocumentRecord := { r with status := .deleted, error := none }

/-- A deletion. -/
theorem changed_delete (hall : ∀ d, Sound s d) (hr : s.record r.id = some r) (hlive : r.status ≠ .deleted) :
    Changed r.id discard s ((s.after ⟨.other (.deleteDocument r.id), .ok ()⟩).save (deletedRecord r)) ∧
      (discard (shelf s r.id)).2 = .done := by
  have hrecord : ((s.after ⟨.other (.deleteDocument r.id), .ok ()⟩).save (deletedRecord r)).record r.id =
      some (deletedRecord r) := Function.update_self _ _ _
  have hkept : (shelfOf s r.id r).deleted = false := decide_eq_false hlive
  have hs := hall r.id
  obtain ⟨-, hnamed, hagree, -, hfound⟩ := hs.settled r hr
  have hgone (i : ChunkId) (c : Chunk) (hc : deleteVectors s.vectors (fun c => c.documentId = r.id) i = some c) :
      s.vectors i = some c ∧ c.documentId ≠ r.id := by
    obtain ⟨hc, hnot⟩ := deleteVectors_eq_some.mp hc
    exact ⟨hc, of_decide_eq_false hnot⟩
  refine ⟨⟨fun d' hd => ?_, ⟨fun r' hr' => ?_, fun h => ?_, hs.coherent, hs.listedNamed, hs.filed, fun i c hi hc => ?_⟩, ?_⟩, ?_⟩
  · refine ⟨Function.update_of_ne hd _ _, rfl, rfl, rfl, fun i hi => ?_⟩
    exact deleteVectors_spared (hall d') (fun c hc => decide_eq_false (hc ▸ hd)) hi
  · have heq : some (deletedRecord r) = some r' := hrecord.symm.trans hr'
    injection heq with heq
    subst heq
    refine ⟨rfl, hnamed, hagree, fun h => by contradiction, fun v hv => ?_⟩
    obtain ⟨hv', cs, hcs, -⟩ := hfound v hv
    exact ⟨hv', cs, hcs, fun h => absurd rfl h⟩
  · have heq : some (deletedRecord r) = none := hrecord.symm.trans h
    contradiction
  · obtain ⟨hc, hne⟩ := hgone i c hc
    exact absurd (hs.live i c hi hc).1 hne
  · rw [shelf_some hrecord, shelf_some hr]
    simp only [discard, hkept, Bool.false_eq_true, if_false]
    rfl
  · rw [shelf_some hr]
    simp only [discard, hkept, Bool.false_eq_true, if_false]

/-- An ingestion that does not find its source: the record says so, the shelf does not. -/
theorem changed_failed (hs : Sound s r.id) (hr : s.record r.id = some r) (hlive : r.status ≠ .deleted) (exc : Err)
    {f : Option Shelf → Option Shelf × Verdict} (hf : (f (shelf s r.id)).1 = shelf s r.id) :
    Changed r.id f s (s.save (failedWith r exc)) := by
  have hrecord : (s.save (failedWith r exc)).record r.id = some (failedWith r exc) := Function.update_self _ _ _
  have hnot : (failedWith r exc).status ≠ .deleted := by simp [failedWith]
  obtain ⟨-, hnamed, hagree, -, hfound⟩ := hs.settled r hr
  have hsettled : Settled (s.save (failedWith r exc)) r.id (failedWith r exc) := by
    refine ⟨rfl, hnamed, hagree, fun h => by contradiction, fun v hv => ?_⟩
    obtain ⟨hv', cs, hcs, hall⟩ := hfound v hv
    exact ⟨hv', cs, hcs, fun _ => hall hlive⟩
  refine ⟨fun d' hd => same_save hd,
    ⟨fun r' hr' => ?_, fun h => ?_, hs.coherent, hs.listedNamed, hs.filed, fun i c hi hc => ?_⟩, ?_⟩
  · have heq : some (failedWith r exc) = some r' := hrecord.symm.trans hr'
    injection heq with heq
    exact heq ▸ hsettled
  · have heq : some (failedWith r exc) = none := hrecord.symm.trans h
    contradiction
  · obtain ⟨hdoc, hversion, -⟩ := hs.live i c hi hc
    exact ⟨hdoc, hversion, failedWith r exc, hrecord, hnot⟩
  · rw [shelf_some hrecord, hf, shelf_some hr]
    refine congrArg some (Shelf.ext rfl ?_ ?_ rfl rfl rfl)
    · simp only [shelfOf, hlive, hnot]
    · show publishedVersionOf (some (failedWith r exc)) = publishedVersionOf (some r)
      rw [hsettled.published, (hs.settled r hr).published, if_neg hnot, if_neg hlive]
      rfl

/-- An ingestion that goes through. -/
theorem changed_ingested (hall : ∀ d, Sound s d) (hr : s.record r.id = some r) (hlive : r.status ≠ .deleted)
    {cs : List Chunk} (hcs : ChunksFiled r.id r.version cs) (timestamp : String) {job : IngestionJob}
    (hversion : r.version = job.version)
    (hfile : ¬ (s.raw r.id r.version (rawSuffix job.filename) = none ∧ s.raw r.id r.version ".pdf" = none)) :
    Changed r.id (ingest job cs) s (s.ingested r cs timestamp) ∧ (ingest job cs (shelf s r.id)).2 = .done := by
  have hrecord : (s.ingested r cs timestamp).record r.id = some (published r) := Function.update_self _ _ _
  have hs := hall r.id
  have hnot : (published r).status ≠ .deleted := by simp [published]
  obtain ⟨-, hnamed, -, -, -⟩ := hs.settled r hr
  have hindex : (s.ingested r cs timestamp).index r.id =
      some (activateVersion r.id (manifestAt r.id r.version timestamp) (s.index r.id)) := Function.update_self _ _ _
  have hchunks : (s.ingested r cs timestamp).chunks r.id r.version = some cs := if_pos ⟨rfl, rfl⟩
  have hsettled : Settled (s.ingested r cs timestamp) r.id (published r) := by
    refine ⟨rfl, hnamed, by rw [hindex]; rfl, fun _ h => by contradiction, fun v hv => ?_⟩
    injection hv with hv
    subst hv
    refine ⟨hnamed, cs, hchunks, fun _ c hc => ?_⟩
    obtain ⟨c', hin, -, hc'⟩ := upsertVectors_of_mem s.vectors (List.mem_map_of_mem (f := Chunk.id) hc)
    have hkept : (s.ingested r cs timestamp).vectors c.id = some c' :=
      deleteVectors_eq_some.mpr ⟨hc', decide_eq_false fun h => h.2 (hcs c' hin).2.1⟩
    rw [hkept]
    rfl
  have hids : listed ((s.ingested r cs timestamp).index r.id) =
      ((listed (s.index r.id)).filter fun v => v ≠ r.version) ++ [r.version] := by
    rw [hindex]
    exact ids_activateVersion
  have hstep : (ingest job cs (shelf s r.id)) = (some { shelfOf s r.id r with
      published := some job.version
      history := ((listed (s.index r.id)).filter fun v => v ≠ job.version) ++ [job.version]
      texts := Function.update (shelfOf s r.id r).texts job.version cs }, .done) := by
    have hkept : (shelfOf s r.id r).deleted = false := decide_eq_false hlive
    have hfiles : ¬ ((shelfOf s r.id r).files job.version (rawSuffix job.filename) = false ∧
        (shelfOf s r.id r).files job.version ".pdf" = false) := by
      simpa only [shelfOf, ← hversion, Option.isSome_eq_false_iff, Option.isNone_iff_eq_none] using hfile
    have huploaded : ¬ (shelfOf s r.id r).uploaded ≠ job.version := not_not.mpr hversion
    rw [shelf_some hr]
    simp only [ingest, hkept, Bool.false_eq_true, if_false, if_neg huploaded, if_neg hfiles]
    rfl
  refine ⟨⟨fun d' hd => ?_, ⟨fun r' hr' => ?_, fun h => ?_, fun index h => ?_, fun v hv => ?_, fun v cs' h => ?_,
    fun i c hi hc => ?_⟩, ?_⟩, by rw [hstep]⟩
  · refine ⟨Function.update_of_ne hd _ _, Function.update_of_ne hd _ _, rfl, funext fun v => if_neg fun h => hd h.1,
      fun i hi => ?_⟩
    have hnotin : i ∉ cs.map Chunk.id := by
      intro hin
      obtain ⟨c, hc, rfl⟩ := List.mem_map.mp hin
      exact hd (hi.symm.trans (hcs c hc).2.2.1)
    show (upsertVectors s.vectors cs i).filter _ = s.vectors i
    rw [upsertVectors_of_notMem s.vectors hnotin]
    exact deleteVectors_spared (hall d') (fun c hc => decide_eq_false fun h => hd (hc.symm.trans h.1)) hi
  · have heq : some (published r) = some r' := hrecord.symm.trans hr'
    injection heq with heq
    exact heq ▸ hsettled
  · have heq : some (published r) = none := hrecord.symm.trans h
    contradiction
  · rw [hindex, Option.some.injEq] at h
    rw [← h]
    exact coherent_activateVersion rfl hs.coherent
  · rw [hids] at hv
    rcases List.mem_append.mp hv with hv | hv
    · exact hs.listedNamed v (List.mem_filter.mp hv).1
    · rw [List.mem_singleton] at hv
      exact hv ▸ hnamed
  · have hput : (if r.id = r.id ∧ v = r.version then some cs else s.chunks r.id v) = some cs' := h
    by_cases hv : v = r.version
    · rw [if_pos ⟨rfl, hv⟩, Option.some.injEq] at hput
      rw [hv, ← hput]
      exact hcs
    · rw [if_neg fun h => hv h.2] at hput
      exact hs.filed v cs' hput
  · obtain ⟨hup, -⟩ := deleteVectors_eq_some.mp hc
    have hfiled : c.documentId = r.id ∧ c.version = i.version := by
      by_cases hin : i ∈ cs.map Chunk.id
      · obtain ⟨c', hmem, hid, hc'⟩ := upsertVectors_of_mem s.vectors hin
        rw [hup, Option.some.injEq] at hc'
        rw [hc']
        obtain ⟨hdoc, hversion', -, hidversion⟩ := hcs c' hmem
        exact ⟨hdoc, by rw [hversion', ← hid, hidversion]⟩
      · rw [upsertVectors_of_notMem s.vectors hin] at hup
        exact ⟨(hs.live i c hi hup).1, (hs.live i c hi hup).2.1⟩
    exact ⟨hfiled.1, hfiled.2, published r, hrecord, hnot⟩
  · rw [shelf_some hrecord, hstep]
    refine congrArg some (Shelf.ext rfl ?_ ?_ ?_ rfl (funext fun v => ?_))
    · simp only [shelfOf, hlive, hnot]
    · show publishedVersionOf (some (published r)) = some job.version
      rw [hsettled.published, if_neg hnot, ← hversion]
      rfl
    · rw [← hversion]
      exact hids
    · show ((if r.id = r.id ∧ v = r.version then some cs else s.chunks r.id v).getD []) =
        Function.update (shelfOf s r.id r).texts job.version cs v
      rw [← hversion]
      by_cases hv : v = r.version
      · rw [if_pos ⟨rfl, hv⟩, hv, Function.update_self]
        rfl
      · rw [if_neg fun h => hv h.2, Function.update_of_ne hv]
        rfl

/-- What a restore leaves to see, once some chunks were indexed again. -/
def restoredView (s : View) (r : DocumentRecord) (v : Version) (again : List Chunk) (new : DocumentVersionIndex) : View :=
  (({ s with vectors := upsertVectors s.vectors again } : View).list r.id new).save (restored r v)

/-- A restore that goes through. -/
theorem changed_restored (hall : ∀ d, Sound s d) (hr : s.record r.id = some r) (hlive : r.status ≠ .deleted)
    {new : DocumentVersionIndex} (hnew : activateExisting r.id v (s.index r.id) = .ok new) {cs again : List Chunk}
    (hcs : s.chunks r.id v = some cs) (hagain : ∀ c ∈ again, c ∈ cs)
    (hserved : ∀ c ∈ cs, (upsertVectors s.vectors again c.id).isSome) (hknown : r.activeVersion = some v ∨ cs ≠ []) :
    Changed r.id (restore r.id v) s (restoredView s r v again new) ∧ (restore r.id v (shelf s r.id)).2 = .done := by
  have hs := hall r.id
  have hrecord : (restoredView s r v again new).record r.id = some (restored r v) := Function.update_self _ _ _
  have hindex : (restoredView s r v again new).index r.id = some new := Function.update_self _ _ _
  have hnot : (restored r v).status ≠ .deleted := by simp [restored]
  have hfiled : ChunksFiled r.id v cs := hs.filed v cs hcs
  obtain ⟨index, hold, hin, hactive, -⟩ := activateExisting_ok hnew
  have hids : new.ids = listed (s.index r.id) := ids_activateExisting hnew
  have hlisted : v ∈ listed (s.index r.id) := by
    rw [hold]
    exact hin
  obtain ⟨-, hnamed, -, -, -⟩ := hs.settled r hr
  have hsettled : Settled (restoredView s r v again new) r.id (restored r v) := by
    refine ⟨rfl, hnamed, by rw [hindex]; exact hactive, fun _ h => by contradiction, fun v' hv' => ?_⟩
    injection hv' with hv'
    subst hv'
    exact ⟨hs.listedNamed v hlisted, cs, hcs, fun _ c hc => hserved c hc⟩
  have hpublished : (shelfOf s r.id r).published = r.activeVersion := by
    show publishedVersionOf (some r) = r.activeVersion
    rw [(hs.settled r hr).published, if_neg hlive]
  have hstep : restore r.id v (shelf s r.id) = (some { shelfOf s r.id r with published := some v }, .done) := by
    have hkept : (shelfOf s r.id r).deleted = false := decide_eq_false hlive
    have hhistory : ¬ v ∉ (shelfOf s r.id r).history := not_not.mpr hlisted
    have htexts : (shelfOf s r.id r).texts v = cs := by
      show (s.chunks r.id v).getD [] = cs
      rw [hcs, Option.getD_some]
    have hcontent : ¬ ((shelfOf s r.id r).published ≠ some v ∧ (shelfOf s r.id r).texts v = []) := by
      rw [hpublished, htexts]
      exact fun h => hknown.elim h.1 fun hne => hne h.2
    rw [shelf_some hr]
    simp only [restore, hkept, Bool.false_eq_true, if_false, if_neg hhistory, if_neg hcontent]
  have hvector (i : ChunkId) (c : Chunk) (hc : upsertVectors s.vectors again i = some c) :
      c ∈ cs ∧ c.id = i ∨ s.vectors i = some c := by
    by_cases hmem : i ∈ again.map Chunk.id
    · obtain ⟨c', hmem', hid, hc'⟩ := upsertVectors_of_mem s.vectors hmem
      rw [hc, Option.some.injEq] at hc'
      rw [hc']
      exact .inl ⟨hagain c' hmem', hid⟩
    · rw [upsertVectors_of_notMem s.vectors hmem] at hc
      exact .inr hc
  refine ⟨⟨fun d' hd => ?_, ⟨fun r' hr' => ?_, fun h => ?_, fun index' h => ?_, fun v' hv' => ?_, hs.filed,
    fun i c hi hc => ?_⟩, ?_⟩, by rw [hstep]⟩
  · refine ⟨Function.update_of_ne hd _ _, Function.update_of_ne hd _ _, rfl, rfl, fun i hi => ?_⟩
    refine upsertVectors_of_notMem s.vectors fun hmem => ?_
    obtain ⟨c, hc, rfl⟩ := List.mem_map.mp hmem
    exact hd (hi.symm.trans (hfiled c (hagain c hc)).2.2.1)
  · have heq : some (restored r v) = some r' := hrecord.symm.trans hr'
    injection heq with heq
    exact heq ▸ hsettled
  · have heq : some (restored r v) = none := hrecord.symm.trans h
    contradiction
  · rw [hindex, Option.some.injEq] at h
    rw [← h]
    exact coherent_activateExisting hnew hs.coherent
  · rw [hindex] at hv'
    have hmem : v' ∈ new.ids := hv'
    rw [hids] at hmem
    exact hs.listedNamed v' hmem
  · rcases hvector i c hc with ⟨hmem, hid⟩ | hold
    · obtain ⟨hdoc, hversion, -, hidversion⟩ := hfiled c hmem
      exact ⟨hdoc, by rw [hversion, ← hid, hidversion], restored r v, hrecord, hnot⟩
    · obtain ⟨hdoc, hversion, -⟩ := hs.live i c hi hold
      exact ⟨hdoc, hversion, restored r v, hrecord, hnot⟩
  · rw [shelf_some hrecord, hstep]
    refine congrArg some (Shelf.ext rfl ?_ ?_ ?_ rfl rfl)
    · simp only [shelfOf, hlive, hnot]
    · show publishedVersionOf (some (restored r v)) = some v
      rw [hsettled.published, if_neg hnot]
      rfl
    · show listed ((restoredView s r v again new).index r.id) = listed (s.index r.id)
      rw [hindex]
      exact hids

end Changes

section Operations

variable {settings : Settings} {p : ProcessId} {s : View} {d : DocumentId} {α : Type}

/-- A program did to document `d` what `f` does to its shelf, and answered so. -/
def Does (d : DocumentId) (f : Option Shelf → Option Shelf × Verdict) (s : View) (g : α → Reply) :
    Except Err α → View → Prop :=
  fun r t => Changed d f s t ∧ (f (shelf s d)).2.Heard (r.map g)

/-- A queued record is stored and its job published. -/
theorem gives_queueRecord (job : IngestionJob) {record : DocumentRecord}
    (h : rejectIllegalWrite record (s.record record.id) = .ok ()) :
    Gives p (queueRecord p job record) s record ((s.save record).after ⟨.other (.enqueue job), .ok ()⟩) := by
  have henqueue := (gives_call (p := p) (s := s.save record) (.enqueue job) rfl ()).catchError (f := fun exc => do
    saveDocumentRecord p
      { record with status := .failed, error := some ("Failed to enqueue ingestion job: " ++ message exc) }
    throw exc)
  exact (gives_saveDocumentRecord h).bind (henqueue.bind (comes_done ⟨rfl, rfl⟩))

/-- An upload. -/
theorem comes_queueDocument (hall : ∀ d, Sound s d) (filename : String) (content : Bytes) (owner : Option String) :
    Comes p (queueDocument settings p d filename content owner) s
      (Does d (upload d (contentHash settings content) (rawSuffix filename)) s fun r => .record (some r)) := by
  refine (gives_call (.putRaw d (contentHash settings content) (rawSuffix filename) content) rfl ()).bind ?_
  refine gives_getDocument.bind ?_
  by_cases hdel : ∃ r, s.record d = some r ∧ r.status = .deleted
  · obtain ⟨r, hr, hdel⟩ := hdel
    obtain ⟨hchanged, hverdict⟩ := changed_refusedUpload (hall d) hr hdel (rawSuffix filename) content
      (v := contentHash settings content)
    refine Comes.bind (comes_saveDocumentRecord _) (fun u t ht => ?_) fun e t ht => ?_
    · have hguard := ht.1
      simp only [View.after, hr, rejectIllegalWrite, hdel, ne_eq, reduceCtorEq, not_false_eq_true, and_self, if_true] at hguard
    · obtain ⟨hguard, hsame, -⟩ := ht
      simp only [View.after, hr, rejectIllegalWrite, hdel, ne_eq, reduceCtorEq, not_false_eq_true, and_self, if_true] at hguard
      injection hguard with hguard
      rw [hsame e rfl]
      refine ⟨hchanged, ?_⟩
      rw [hverdict, hguard]
      rfl
  · have hlive : ∀ r, s.record d = some r → r.status ≠ .deleted := fun r hr h => hdel ⟨r, hr, h⟩
    let s3Uri := "gs://" ++ settings.gcsBucket ++ "/raw/" ++ d ++ "/" ++ contentHash settings content ++ "/source" ++
      rawSuffix filename
    let queued : DocumentRecord :=
      { id := d, title := filename, version := contentHash settings content, s3Uri := s3Uri, status := .queued,
        activeVersion := publishedVersionOf (s.record d), owner := resolveOwner (s.record d) owner }
    have hwrite : rejectIllegalWrite queued (s.record d) = .ok () := by
      cases hr : s.record d with
      | none => rfl
      | some r => simp [rejectIllegalWrite, hlive r hr, queued]
    obtain ⟨hchanged, hverdict⟩ := changed_upload (q := queued) (hall d) (contentHash_ne_empty settings content) rfl rfl hlive
      (rawSuffix filename) content ⟨d, contentHash settings content, filename, s3Uri⟩
    have hqueue := gives_queueRecord (p := p) ⟨d, contentHash settings content, filename, s3Uri⟩
      (s := s.after ⟨.other (.putRaw d (contentHash settings content) (rawSuffix filename) content), .ok ()⟩) hwrite
    refine Comes.weaken hqueue fun r t hr => ?_
    obtain ⟨rfl, rfl⟩ := hr
    refine ⟨hchanged, ?_⟩
    rw [hverdict]
    trivial

/-- What is done may be put another way. -/
theorem Does.congr {f f' : Option Shelf → Option Shelf × Verdict} {g : α → Reply} {r : Except Err α} {t : View}
    (h : Does d f s g r t) (hf : f (shelf s d) = f' (shelf s d)) : Does d f' s g r t := by
  obtain ⟨hchanged, hheard⟩ := h
  rw [hf] at hheard
  exact ⟨⟨hchanged.others, hchanged.sound, hf ▸ hchanged.shelf_eq⟩, hheard⟩

/-- Nothing is done. -/
theorem does_none {f : Option Shelf → Option Shelf × Verdict} {g : α → Reply} {r : Except Err α} {verdict : Verdict}
    (hs : Sound s d) (hf : f (shelf s d) = (shelf s d, verdict)) (hr : verdict.Heard (r.map g)) : Does d f s g r s := by
  refine ⟨changed_none hs (by rw [hf]), ?_⟩
  rw [hf]
  exact hr

/-- The shelf of a live document. -/
theorem shelf_live {r : DocumentRecord} (hr : s.record d = some r) (hlive : r.status ≠ .deleted) :
    ∃ k, shelf s d = some k ∧ k.deleted = false :=
  ⟨shelfOf s d r, shelf_some hr, decide_eq_false hlive⟩

/-- The shelf of a deleted one. -/
theorem shelf_deleted {r : DocumentRecord} (hr : s.record d = some r) (hdel : r.status = .deleted) :
    ∃ k, shelf s d = some k ∧ k.deleted = true :=
  ⟨shelfOf s d r, shelf_some hr, decide_eq_true hdel⟩

/-- A replacement. -/
theorem comes_updateDocument (hall : ∀ d, Sound s d) (filename : String) (content : Bytes) (owner : Option String) :
    Comes p (updateDocument settings p d filename content owner) s
      (Does d (replace d (contentHash settings content) (rawSuffix filename)) s .record) := by
  refine gives_getDocument.bind ?_
  cases hr : s.record d with
  | none =>
    have hstep : replace d (contentHash settings content) (rawSuffix filename) (shelf s d) = (shelf s d, .absent) := by
      rw [shelf_none hr]
      rfl
    exact comes_done (does_none (hall d) hstep trivial)
  | some r =>
    by_cases hdel : r.status = .deleted
    · obtain ⟨k, hk, hdeleted⟩ := shelf_deleted hr hdel
      have hstep : replace d (contentHash settings content) (rawSuffix filename) (shelf s d) = (shelf s d, .absent) := by
        simp only [hk, replace, hdeleted, if_true]
      simp only [hdel, if_true]
      exact comes_done (does_none (hall d) hstep trivial)
    · obtain ⟨k, hk, hkept⟩ := shelf_live hr hdel
      have hstep : upload d (contentHash settings content) (rawSuffix filename) (shelf s d) =
          replace d (contentHash settings content) (rawSuffix filename) (shelf s d) := by
        simp only [hk, replace, hkept, Bool.false_eq_true, if_false]
      simp only [hdel, if_false]
      refine Comes.bind (comes_queueDocument hall filename content owner) (fun a t h => ?_) fun e t h => h.congr hstep
      exact comes_done (h.congr hstep)

/-- A deletion. -/
theorem comes_deleteDocument (hall : ∀ d, Sound s d) : Comes p (deleteDocument p d) s (Does d discard s .record) := by
  refine gives_getDocument.bind ?_
  cases hr : s.record d with
  | none =>
    have hstep : discard (shelf s d) = (shelf s d, .absent) := by
      rw [shelf_none hr]
      rfl
    exact comes_done (does_none (hall d) hstep trivial)
  | some r =>
    by_cases hdel : r.status = .deleted
    · obtain ⟨k, hk, hdeleted⟩ := shelf_deleted hr hdel
      have hstep : discard (shelf s d) = (shelf s d, .done) := by simp only [hk, discard, hdeleted, if_true]
      simp only [hdel, if_true]
      exact comes_done (does_none (hall d) hstep trivial)
    · have hid : r.id = d := ((hall d).settled r hr).keyed
      subst hid
      obtain ⟨hchanged, hverdict⟩ := changed_delete hall hr hdel
      have hwrite : rejectIllegalWrite (deletedRecord r) (s.record r.id) = .ok () := by
        rw [hr]
        exact rejectIllegalWrite_same hdel rfl
      simp only [hdel, if_false]
      refine (gives_call (.deleteDocument r.id) rfl ()).bind ?_
      have hsave := gives_saveDocumentRecord (p := p) (s := s.after ⟨.other (.deleteDocument r.id), .ok ()⟩) hwrite
      refine hsave.bind (comes_done (Q := Does r.id discard s Reply.record) ⟨hchanged, ?_⟩)
      rw [hverdict]
      trivial

/-- The source of a job is read where it is kept, under either key. -/
theorem comes_readSource {r : DocumentRecord} {job : IngestionJob} (hr : s.record r.id = some r) (hlive : r.status ≠ .deleted) :
    Comes p (readSource p r job) s fun result t =>
      (∃ content, result = .ok content ∧ t = s ∧ ¬ (s.raw job.documentId job.version (rawSuffix job.filename) = none ∧
        s.raw job.documentId job.version ".pdf" = none)) ∨
      result = .error (.app .notFound) ∧ t = s.save (failedWith r (.app .notFound)) ∧
        s.raw job.documentId job.version (rawSuffix job.filename) = none ∧ s.raw job.documentId job.version ".pdf" = none := by
  refine Comes.catchError (comes_getRaw _) (fun content t h => ?_) fun e t h => ?_
  · obtain ⟨rfl, ⟨content', hraw, -⟩ | ⟨-, herr⟩⟩ := h
    · exact .inl ⟨content, rfl, rfl, fun hnone => by simp [hraw] at hnone⟩
    · contradiction
  · obtain ⟨rfl, ⟨content', -, hok⟩ | ⟨hraw, -⟩⟩ := h
    · contradiction
    · refine Comes.catchError (comes_getRaw _) (fun content t h => ?_) fun e t h => ?_
      · obtain ⟨rfl, ⟨content', hpdf, -⟩ | ⟨-, herr⟩⟩ := h
        · exact .inl ⟨content, rfl, rfl, fun hnone => by simp [hpdf] at hnone⟩
        · contradiction
      · obtain ⟨rfl, ⟨content', -, hok⟩ | ⟨hpdf, herr⟩⟩ := h
        · contradiction
        · injection herr with herr
          subst herr
          have hsave : Gives p (saveDocumentRecord p (failedWith r (.app .notFound))) t ()
              (t.save (failedWith r (.app .notFound))) := gives_saveSame hr hlive rfl
          exact hsave.bind (comes_raise (.inr ⟨rfl, rfl, hraw, hpdf⟩))

/-- An ingestion. -/
theorem comes_processDocumentJob (hall : ∀ d, Sound s d) (job : IngestionJob) :
    Comes p (processDocumentJob settings p job) s fun r t =>
      ∃ texts, Does job.documentId (ingest job texts) s (fun record => .record (some record)) r t := by
  refine gives_getDocument.bind ?_
  have hs := hall job.documentId
  cases hr : s.record job.documentId with
  | none =>
    have hstep : ingest job [] (shelf s job.documentId) = (shelf s job.documentId,
        .refused (.app (.valueError ("Document record not found: " ++ job.documentId)))) := by
      rw [shelf_none hr]
      rfl
    exact comes_raise ⟨[], does_none hs hstep rfl⟩
  | some r =>
    have hid : r.id = job.documentId := (hs.settled r hr).keyed
    have hshelf : shelf s job.documentId = some (shelfOf s job.documentId r) := shelf_some hr
    by_cases hdel : r.status = .deleted
    · have hdeleted : (shelfOf s job.documentId r).deleted = true := decide_eq_true hdel
      have hstep : ingest job [] (shelf s job.documentId) =
          (shelf s job.documentId, .refused (.app (.documentDeleted job.documentId))) := by
        simp only [hshelf, ingest, hdeleted, if_true]
      simp only [processRecord, hdel, if_true]
      exact comes_raise ⟨[], does_none hs hstep rfl⟩
    · have hkept : (shelfOf s job.documentId r).deleted = false := decide_eq_false hdel
      by_cases hversion : r.version = job.version
      · simp only [processRecord, hdel, if_false, hversion, ne_eq, not_true_eq_false]
        have hstored : s.record r.id = some r := hid ▸ hr
        have hcurrent : ¬ (shelfOf s job.documentId r).uploaded ≠ job.version := not_not.mpr hversion
        refine Comes.bind (comes_readSource hstored hdel) (fun content t h => ?_) fun e t h => ?_
        · rcases h with ⟨-, -, rfl, hfile⟩ | ⟨herr, -⟩
          · refine (comes_runIngestion content hstored hdel rfl).weaken fun result u hu => ?_
            obtain ⟨rfl, markdown, nodes, timestamp, rfl⟩ := hu
            rw [← hid, ← hversion] at hfile
            obtain ⟨hchanged, hverdict⟩ := changed_ingested hall hstored hdel
              (chunksFiled_chunkNodes settings r.id r.version markdown nodes) timestamp hversion hfile
            rw [← hid]
            refine ⟨_, hchanged, ?_⟩
            rw [hverdict]
            trivial
          · contradiction
        · rcases h with ⟨content, hok, -⟩ | ⟨herr, rfl, hraw, hpdf⟩
          · contradiction
          · injection herr with herr
            subst herr
            have hfiles : (shelfOf s job.documentId r).files job.version (rawSuffix job.filename) = false ∧
                (shelfOf s job.documentId r).files job.version ".pdf" = false := by
              simp only [shelfOf, hraw, hpdf, Option.isSome_none, and_self]
            have hstep : ingest job [] (shelf s r.id) = (shelf s r.id, .refused (.app .notFound)) := by
              rw [hid]
              simp only [hshelf, ingest, hkept, Bool.false_eq_true, if_false, if_neg hcurrent, if_pos hfiles]
            rw [← hid]
            refine ⟨[], changed_failed (hall r.id) hstored hdel _ (by rw [hstep]), ?_⟩
            rw [hstep]
            rfl
      · have hstale : (shelfOf s job.documentId r).uploaded ≠ job.version := hversion
        have hstep : ingest job [] (shelf s job.documentId) = (shelf s job.documentId,
            .refused (.app (.staleIngestion job.documentId job.version r.version))) := by
          simp only [hshelf, ingest, hkept, Bool.false_eq_true, if_false, if_pos hstale]
          rfl
        simp only [processRecord, hdel, if_false, hversion, ne_eq, not_false_eq_true, if_true]
        exact comes_raise ⟨[], does_none hs hstep rfl⟩

/-- What comes after may change the jobs. -/
theorem Changed.same {f : Option Shelf → Option Shelf × Verdict} {t u : View} (h : Changed d f s t)
    (hsame : ∀ d', SameAt d' t u) : Changed d f s u where
  others d' hd := (h.others d' hd).trans (hsame d')
  sound := h.sound.same (hsame d)
  shelf_eq := (shelf_same (hsame d)).trans h.shelf_eq

/-- The message of a job. -/
theorem comes_processMessage (hall : ∀ d, Sound s d) (job : IngestionJob) :
    Comes p (processMessage settings p job) s fun r t =>
      ∃ texts, Does job.documentId (quiet (ingest job texts)) s (fun _ => .unit) r t := by
  have hdone {texts : List Chunk} {t u : View} (h : Changed job.documentId (ingest job texts) s t)
      (hsame : ∀ d', SameAt d' t u) :
      Does job.documentId (quiet (ingest job texts)) s (fun _ : Unit => .unit) (.ok ()) u :=
    ⟨⟨(h.same hsame).others, (h.same hsame).sound, (h.same hsame).shelf_eq⟩, trivial⟩
  have hacknowledge {texts : List Chunk} {t : View} (h : Changed job.documentId (ingest job texts) s t) :
      Comes p (DocumentService.call (.acknowledge job)) t fun r u =>
        ∃ texts, Does job.documentId (quiet (ingest job texts)) s (fun _ : Unit => .unit) r u :=
    (gives_call (.acknowledge job) rfl ()).weaken fun r u hr => by
      obtain ⟨rfl, rfl⟩ := hr
      exact ⟨texts, hdone h fun d' => ⟨rfl, rfl, rfl, rfl, fun _ _ => rfl⟩⟩
  refine Comes.catchError (Q := fun r t => (∃ texts, Changed job.documentId (ingest job texts) s t) ∧ ∀ a, r = .ok a →
    ∃ texts, Does job.documentId (quiet (ingest job texts)) s (fun _ : Unit => .unit) r t) ?_ (fun a t h => h.2 a rfl)
    fun e t h => ?_
  · refine Comes.bind (comes_processDocumentJob hall job) (fun record t h => ?_) fun e t h => ?_
    · obtain ⟨texts, hchanged, -⟩ := h
      refine (gives_call (.acknowledge job) rfl ()).weaken fun r u hr => ?_
      obtain ⟨rfl, rfl⟩ := hr
      have hsame (d' : DocumentId) : SameAt d' t (t.after ⟨.other (.acknowledge job), .ok ()⟩) :=
        ⟨rfl, rfl, rfl, rfl, fun _ _ => rfl⟩
      exact ⟨⟨texts, hchanged.same hsame⟩, fun a _ => ⟨texts, hdone hchanged hsame⟩⟩
    · obtain ⟨texts, hchanged, -⟩ := h
      exact ⟨⟨texts, hchanged⟩, fun a ha => by contradiction⟩
  · obtain ⟨texts, hchanged⟩ := h.1
    have hleft : Comes p (.done ()) t fun r u =>
        ∃ texts, Does job.documentId (quiet (ingest job texts)) s (fun _ : Unit => .unit) r u :=
      comes_done ⟨texts, hdone hchanged fun d' => ⟨rfl, rfl, rfl, rfl, fun _ _ => rfl⟩⟩
    cases e with
    | app e =>
      cases e with
      | documentDeleted _ => exact hacknowledge hchanged
      | staleIngestion _ _ _ => exact hacknowledge hchanged
      | _ => exact hleft
    | _ => exact hleft

/-- The end of a restore: the index is flipped, then the record. -/
theorem gives_restoreEnd {r : DocumentRecord} (hr : s.record r.id = some r) (hlive : r.status ≠ .deleted) {v : Version}
    {new : DocumentVersionIndex} (hnew : activateExisting r.id v (s.index r.id) = .ok new) :
    Gives p (do
      let _ ← activateExistingVersion r.id v
      saveDocumentRecord p (restored r v)
      pure (some (restored r v)) : Prog (Option DocumentRecord)) s (some (restored r v))
      ((s.list r.id new).save (restored r v)) := by
  refine Comes.bind comes_updateIndex (fun index t ht => ?_) fun e t ht => ?_
  · obtain ⟨hindex, -, hlist⟩ := ht
    rw [hnew] at hindex
    injection hindex with hindex
    subst hindex
    rw [hlist index rfl]
    have hsave : Gives p (saveDocumentRecord p (restored r v)) (s.list r.id index) ()
        ((s.list r.id index).save (restored r v)) := gives_saveSame hr hlive rfl
    exact hsave.bind (comes_done ⟨rfl, rfl⟩)
  · have herr := ht.1
    rw [hnew] at herr
    contradiction

/-- The version asked for is listed exactly if its entry is found. -/
theorem find_listed {index : DocumentVersionIndex} {v : Version} :
    (∃ target, index.versions.find? (fun entry => entry.version = v) = some target) ↔ v ∈ index.ids := by
  rw [← Option.isSome_iff_exists, List.find?_isSome]
  simp only [DocumentVersionIndex.ids, List.mem_map, decide_eq_true_eq]

/-- A restore of a version that is listed. -/
theorem comes_restoreListed (hall : ∀ d, Sound s d) {r : DocumentRecord} (hr : s.record r.id = some r)
    (hlive : r.status ≠ .deleted) {index : DocumentVersionIndex} (hindex : s.index r.id = some index)
    {target : DocumentVersion} (htarget : target ∈ index.versions) :
    Comes p (do
      ensureVectors settings r.id target
      let _ ← activateExistingVersion r.id target.version
      saveDocumentRecord p (restored r target.version)
      pure (some (restored r target.version)) : Prog (Option DocumentRecord)) s
      (Does r.id (restore r.id target.version) s .record) := by
  have hs := hall r.id
  have hmem : target.version ∈ index.ids := List.mem_map_of_mem htarget
  have hpresent : target.vectorsPresent = true ↔ r.activeVersion = some target.version := by
    rw [(hs.coherent index hindex).present target htarget, ← (hs.settled r hr).agree, hindex]
    rfl
  obtain ⟨new, hnew⟩ : ∃ new, activateExisting r.id target.version (s.index r.id) = .ok new := by
    rw [hindex]
    exact ⟨_, if_pos hmem⟩
  have hend (again : List Chunk) : Gives p (do
      let _ ← activateExistingVersion r.id target.version
      saveDocumentRecord p (restored r target.version)
      pure (some (restored r target.version)) : Prog (Option DocumentRecord))
      { s with vectors := upsertVectors s.vectors again } (some (restored r target.version))
      (restoredView s r target.version again new) :=
    gives_restoreEnd (s := { s with vectors := upsertVectors s.vectors again }) hr hlive hnew
  have hdone {again : List Chunk} {t : View} (ht : t = restoredView s r target.version again new) {cs : List Chunk}
      (hcs : s.chunks r.id target.version = some cs) (hagain : ∀ c ∈ again, c ∈ cs)
      (hserved : ∀ c ∈ cs, (upsertVectors s.vectors again c.id).isSome)
      (hknown : r.activeVersion = some target.version ∨ cs ≠ []) :
      Does r.id (restore r.id target.version) s Reply.record (.ok (some (restored r target.version))) t := by
    obtain ⟨hchanged, hverdict⟩ := changed_restored hall hr hlive hnew hcs hagain hserved hknown
    subst ht
    refine ⟨hchanged, ?_⟩
    rw [hverdict]
    trivial
  unfold ensureVectors
  by_cases hvectors : target.vectorsPresent = true
  · rw [if_pos hvectors]
    have hactive := hpresent.mp hvectors
    obtain ⟨-, cs, hcs, hserved⟩ := (hs.settled r hr).found target.version hactive
    refine (hend []).weaken fun result t h => ?_
    obtain ⟨rfl, ht⟩ := h
    exact hdone ht hcs (fun c hc => by contradiction) (hserved hlive) (.inl hactive)
  · rw [if_neg hvectors]
    have hnot : r.activeVersion ≠ some target.version := fun h => hvectors (hpresent.mpr h)
    by_cases hcs : (s.chunks r.id target.version).getD [] = []
    · have hstep : restore r.id target.version (shelf s r.id) = (shelf s r.id, .refused (.app (.runtimeError
          ("No retained content found to re-index version " ++ target.version ++ " of document " ++ r.id)))) := by
        have hkept : (shelfOf s r.id r).deleted = false := decide_eq_false hlive
        have hhistory : ¬ target.version ∉ (shelfOf s r.id r).history := by
          simp only [shelfOf, hindex, listed]
          exact not_not.mpr hmem
        have hcontent : (shelfOf s r.id r).published ≠ some target.version ∧ (shelfOf s r.id r).texts target.version = [] := by
          refine ⟨?_, hcs⟩
          show publishedVersionOf (some r) ≠ some target.version
          rw [(hs.settled r hr).published, if_neg hlive]
          exact hnot
        rw [shelf_some hr]
        simp only [restore, hkept, Bool.false_eq_true, if_false, if_neg hhistory, if_pos hcontent]
      have hraise : Comes p (reindexVersion settings r.id target.version) s fun result t =>
          result = .error (.app (.runtimeError ("No retained content found to re-index version " ++ target.version ++
            " of document " ++ r.id))) ∧ t = s := by
        refine gives_getChunks.bind ?_
        rw [if_pos hcs]
        exact comes_raise ⟨rfl, rfl⟩
      refine Comes.bind hraise (fun u t h => by cases h.1) fun e t h => ?_
      obtain ⟨herr, rfl⟩ := h
      injection herr with herr
      subst herr
      exact does_none hs hstep rfl
    · obtain ⟨cs, hkept⟩ : ∃ cs, s.chunks r.id target.version = some cs := by
        cases hchunks : s.chunks r.id target.version with
        | none => simp [hchunks] at hcs
        | some cs => exact ⟨cs, rfl⟩
      have hne : cs ≠ [] := by simpa [hkept] using hcs
      have hreindex : Gives p (reindexVersion settings r.id target.version) s ()
          { s with vectors := upsertVectors s.vectors cs } := by
        refine gives_getChunks.bind ?_
        rw [hkept, Option.getD_some, if_neg hne]
        exact (gives_embed cs).bind (gives_upsert cs)
      refine hreindex.bind ((hend cs).weaken fun result t h => ?_)
      obtain ⟨rfl, ht⟩ := h
      refine hdone ht hkept (fun c hc => hc) (fun c hc => ?_) (.inr hne)
      obtain ⟨c', -, -, hc'⟩ := upsertVectors_of_mem s.vectors (List.mem_map_of_mem (f := Chunk.id) hc)
      rw [hc']
      rfl

/-- A restore. -/
theorem comes_restoreVersion (hall : ∀ d, Sound s d) (v : Version) :
    Comes p (restoreVersion settings p d v) s (Does d (restore d v) s .record) := by
  have hs := hall d
  refine gives_getDocument.bind ?_
  cases hr : s.record d with
  | none =>
    have hstep : restore d v (shelf s d) = (shelf s d, .absent) := by
      rw [shelf_none hr]
      rfl
    exact comes_done (does_none hs hstep trivial)
  | some r =>
    by_cases hdel : r.status = .deleted
    · obtain ⟨k, hk, hdeleted⟩ := shelf_deleted hr hdel
      have hstep : restore d v (shelf s d) = (shelf s d, .absent) := by simp only [hk, restore, hdeleted, if_true]
      simp only [hdel, if_true]
      exact comes_done (does_none hs hstep trivial)
    · have hid : r.id = d := (hs.settled r hr).keyed
      subst hid
      simp only [hdel, if_false]
      refine gives_getVersionIndex.bind ?_
      cases hfound : (s.index r.id).bind fun i => i.versions.find? fun entry => entry.version = v with
      | none =>
        have hnot : v ∉ listed (s.index r.id) := by
          intro hin
          cases hindex : s.index r.id with
          | none =>
            rw [hindex] at hin
            contradiction
          | some index =>
            rw [hindex] at hin hfound
            obtain ⟨target, htarget⟩ := find_listed.mpr hin
            rw [Option.bind_some, htarget] at hfound
            contradiction
        have hstep : restore r.id v (shelf s r.id) = (shelf s r.id, .refused (.app (.versionNotFound r.id v))) := by
          have hkept : (shelfOf s r.id r).deleted = false := decide_eq_false hdel
          have hhistory : v ∉ (shelfOf s r.id r).history := hnot
          rw [shelf_some hr]
          simp only [restore, hkept, Bool.false_eq_true, if_false, if_pos hhistory]
        exact comes_raise (does_none hs hstep rfl)
      | some target =>
        obtain ⟨index, hindex, hfind⟩ := Option.bind_eq_some_iff.mp hfound
        have htarget : target ∈ index.versions := List.mem_of_find?_eq_some hfind
        have hversion : target.version = v := by simpa using List.find?_some hfind
        subst hversion
        exact comes_restoreListed hall hr hdel hindex htarget

/-- What the read gate has looked up is what is published. -/
theorem gives_filterLoop (hits : List RetrievalHit) : ∀ active : List (DocumentId × Option Version),
    (∀ d v, active.lookup d = some v → v = publishedVersionOf (s.record d)) →
    Gives p (filterLoop p active hits) s
      (hits.filter fun hit => publishedVersionOf (s.record hit.chunk.documentId) = some hit.chunk.version) s := by
  induction hits with
  | nil => exact fun _ _ => comes_done ⟨rfl, rfl⟩
  | cons hit hits ih =>
    intro active hactive
    have hlookup : Gives p (activeByDoc p active hit.chunk.documentId) s
        (publishedVersionOf (s.record hit.chunk.documentId)) s := by
      unfold activeByDoc
      cases hv : active.lookup hit.chunk.documentId with
      | some v =>
        rw [hactive _ v hv]
        exact comes_done ⟨rfl, rfl⟩
      | none =>
        have hread : Gives p (publishedVersionOf <$> getDocument p hit.chunk.documentId) s
            (publishedVersionOf (s.record hit.chunk.documentId)) s := gives_getDocument.bind (comes_done ⟨rfl, rfl⟩)
        exact hread.catchError
    refine hlookup.bind ((ih _ fun d v hv => ?_).bind (comes_done ⟨?_, rfl⟩))
    · rw [List.lookup_cons] at hv
      split at hv
      · next heq =>
        injection hv with hv
        rw [← hv, beq_iff_eq.mp heq]
      · exact hactive d v hv
    · rw [List.filter_cons]
      simp only [decide_eq_true_eq]

/-- The read gate lets exactly the published hits pass. -/
theorem gives_filterToActiveVersions (hits : List RetrievalHit) : Gives p (filterToActiveVersions p hits) s
    (hits.filter fun hit => (shelf s hit.chunk.documentId).bind Shelf.published = some hit.chunk.version) s := by
  simp only [published_shelf]
  exact gives_filterLoop hits [] fun d v h => by contradiction

/-- What is done to one shelf is a step of the corpus. -/
theorem Does.step {f : Option Shelf → Option Shelf × Verdict} {g : α → Reply} {r : Except Err α} {t : View}
    (h : Does d f s g r t) (hall : ∀ d, Sound s d) : (∀ d, Sound t d) ∧
      shelf t = (Corpus.at (shelf s) d f).1 ∧ (Corpus.at (shelf s) d f).2.Heard (r.map g) :=
  ⟨(h.1.corpus hall).1, (h.1.corpus hall).2, h.2⟩

/-- An answer put another way. -/
theorem comes_map {g : α → Reply} {q : Prog α} {Q : Except Err Reply → View → Prop}
    (hq : Comes p q s fun r t => Q (r.map g) t) : Comes p (g <$> q) s Q :=
  Comes.bind hq (fun _ _ h => comes_done h) fun _ _ h => h

/-- The process that runs an operation. -/
def processOf : Operation → ProcessId
  | .queueDocument p _ _ _ _ | .updateDocument p _ _ _ _ | .deleteDocument p _ | .processDocumentJob p _
  | .processMessage p _ | .restoreVersion p _ _ | .getDocument p _ | .filterToActiveVersions p _ => p

/-- Every operation takes the corpus as the abstract step does, and answers so. -/
theorem comes_code (hall : ∀ d, Sound s d) (o : Operation) (ho : processOf o = p) :
    Comes p (code settings o) s fun r t => (∀ d, Sound t d) ∧
      ∃ texts, shelf t = (step settings texts (shelf s) o).1 ∧ (step settings texts (shelf s) o).2.Heard r := by
  cases o with
  | queueDocument p' d filename content owner =>
    subst ho
    refine comes_map ((comes_queueDocument hall filename content owner).weaken fun r t h => ?_)
    obtain ⟨hsound, hshelf, hheard⟩ := Does.step h hall
    exact ⟨hsound, [], hshelf, hheard⟩
  | updateDocument p' d filename content owner =>
    subst ho
    refine comes_map ((comes_updateDocument hall filename content owner).weaken fun r t h => ?_)
    obtain ⟨hsound, hshelf, hheard⟩ := Does.step h hall
    exact ⟨hsound, [], hshelf, hheard⟩
  | deleteDocument p' d =>
    subst ho
    refine comes_map ((comes_deleteDocument hall).weaken fun r t h => ?_)
    obtain ⟨hsound, hshelf, hheard⟩ := Does.step h hall
    exact ⟨hsound, [], hshelf, hheard⟩
  | processDocumentJob p' job =>
    subst ho
    refine comes_map ((comes_processDocumentJob hall job).weaken fun r t h => ?_)
    obtain ⟨texts, h⟩ := h
    obtain ⟨hsound, hshelf, hheard⟩ := Does.step h hall
    exact ⟨hsound, texts, hshelf, hheard⟩
  | processMessage p' job =>
    subst ho
    refine comes_map ((comes_processMessage hall job).weaken fun r t h => ?_)
    obtain ⟨texts, h⟩ := h
    obtain ⟨hsound, hshelf, hheard⟩ := Does.step h hall
    exact ⟨hsound, texts, hshelf, hheard⟩
  | restoreVersion p' d v =>
    subst ho
    refine comes_map ((comes_restoreVersion hall v).weaken fun r t h => ?_)
    obtain ⟨hsound, hshelf, hheard⟩ := Does.step h hall
    exact ⟨hsound, [], hshelf, hheard⟩
  | getDocument p' d =>
    subst ho
    refine comes_map (gives_getDocument.weaken fun r t h => ?_)
    obtain ⟨rfl, rfl⟩ := h
    refine ⟨hall, [], rfl, ?_⟩
    cases hr : t.record d with
    | none => simp only [step, shelf, hr, Option.map_none, Option.isSome_none, Bool.false_eq_true, if_false]; trivial
    | some r => simp only [step, shelf, hr, Option.map_some, Option.isSome_some, if_true]; trivial
  | filterToActiveVersions p' hits =>
    subst ho
    refine comes_map ((gives_filterToActiveVersions hits).weaken fun r t h => ?_)
    obtain ⟨rfl, rfl⟩ := h
    exact ⟨hall, [], rfl, rfl⟩

end Operations

section Runs

variable {settings : Settings} {p : ProcessId} {w w' : World} {k k' : Corpus}

/-- The call did not raise. -/
def smooth (e : CallEvent) : Bool :=
  match e.answer with
  | .error (.raised _) => false
  | _ => true

/-- Operations of process `p`, one after the other, with no call raising. -/
inductive Serial (settings : Settings) (p : ProcessId) : World → List (Operation × Except Err Reply) → World → Prop
  /-- None. -/
  | none (w : World) : Serial settings p w [] w
  /-- One, and those after it. -/
  | one {o : Operation} {w w' w'' : World} {es : History Err Answer} {r : Except Err Reply} {os : List (Operation × Except Err Reply)}
      (hp : processOf o = p) (ho : Outcome service (code settings o) w es r w') (hes : ∀ e ∈ es, smooth e)
      (hrest : Serial settings p w' os w'') : Serial settings p w ((o, r) :: os) w''

/-- The same operations with the same answers, on the shelves. -/
inductive Serves (settings : Settings) : Corpus → List (Operation × Except Err Reply) → Corpus → Prop
  /-- None. -/
  | none (k : Corpus) : Serves settings k [] k
  /-- One, and those after it. -/
  | one {o : Operation} {k k' : Corpus} {texts : List Chunk} {r : Except Err Reply} {os : List (Operation × Except Err Reply)}
      (hr : (step settings texts k o).2.Heard r) (hrest : Serves settings (step settings texts k o).1 os k') :
      Serves settings k ((o, r) :: os) k'

/-- A run of operations is one of the shelves, and leaves every document at rest. -/
theorem serves_of_serial {os : List (Operation × Except Err Reply)} (h : Serial settings p w os w')
    (hall : ∀ d, Sound (view w) d) (hfresh : Fresh p w) :
    (∀ d, Sound (view w') d) ∧ Serves settings (shelf (view w)) os (shelf (view w')) := by
  induction h with
  | none w => exact ⟨hall, .none _⟩
  | @one o w w' w'' es r os hp ho hes hrest ih =>
    have hcomes : Comes p (code settings o) (view w) _ := comes_code hall o hp
    have hcalm (h : History Err Answer) (e : CallEvent) (w w' : World) (he : smooth e = true) (ht : service.Exec e w w') : Calm h e w w' := by
      refine ⟨ht, fun m hm => ?_⟩
      simp [smooth, hm] at he
    obtain ⟨⟨hsound, texts, hshelf, hheard⟩, hfresh'⟩ :=
      Sat.outcome_of (h := []) (fun _ => rfl) hcalm (hcomes [] w rfl hfresh) ho hes
    obtain ⟨hsound', hserves⟩ := ih hsound hfresh'
    rw [hshelf] at hserves
    exact ⟨hsound', .one hheard hserves⟩

/-- One process running one operation after the other, with no call raising,
does to the store what the operations do to the shelves, and answers as they
answer: what is uploaded waits, what is ingested is listed last and published,
what is restored is published again, what is deleted is never published any
more, and the read gate passes the published hits. -/
theorem serial_service_refines {os : List (Operation × Except Err Reply)} (h : Serial settings p World.empty os w) :
    Serves settings (fun _ => none) os (shelf (view w)) :=
  (serves_of_serial h sound_empty (fresh_empty p)).2

/-- Operations one after the other, each with its number of calls, and every call going through. -/
def serve (settings : Settings) : List (Operation × ℕ) → World → Option (List (Operation × Except Err Reply) × World)
  | [], w => some ([], w)
  | (o, n) :: os, w =>
    match play service (code settings o) (List.replicate n (calm "a" "t")) w with
    | none => none
    | some (es, r, w') =>
      if es.all smooth then (serve settings os w').map fun (rest, w'') => ((o, r) :: rest, w'') else none

/-- They are a run. -/
theorem serial_of_serve {os : List (Operation × ℕ)} {rs : List (Operation × Except Err Reply)}
    (h : serve settings os w = some (rs, w')) (hp : ∀ o ∈ os, processOf o.1 = p) : Serial settings p w rs w' := by
  induction os generalizing w rs with
  | nil =>
    simp only [serve, Option.some.injEq, Prod.mk.injEq] at h
    obtain ⟨rfl, rfl⟩ := h
    exact .none w
  | cons o os ih =>
    obtain ⟨o, n⟩ := o
    simp only [serve] at h
    split at h
    · contradiction
    · next es r v hplay =>
      split at h
      · next hes =>
        obtain ⟨⟨rest, u⟩, hrest, heq⟩ := Option.map_eq_some_iff.mp h
        injection heq with hrs hw
        subst hrs hw
        have ho := play_sound service hplay
        exact .one (hp _ List.mem_cons_self) ho (List.all_eq_true.mp hes)
          (ih hrest fun o ho => hp o (List.mem_cons_of_mem _ ho))
      · contradiction

/-- An upload and its ingestion. -/
def sampleOperations : List (Operation × ℕ) :=
  [(.queueDocument 1 "d" "f.txt" (utf8 "a") none, 7), (.processDocumentJob 1 LegalWrites.firstJob, 30)]

/-- The run of the two. -/
theorem sampleOperations_run : ∃ os w, Serial sampleSettings 1 World.empty os w ∧
    os.map Prod.fst = sampleOperations.map Prod.fst ∧
    (shelf (view w) "d").bind Shelf.published = some LegalWrites.firstJob.version := by
  have hplayed : (serve sampleSettings sampleOperations World.empty).map (fun x =>
      (x.1.map Prod.fst, (shelf (view x.2) "d").bind Shelf.published)) =
      some (sampleOperations.map Prod.fst, some LegalWrites.firstJob.version) := by decide +kernel
  obtain ⟨⟨os, w⟩, hserve, hfacts⟩ := Option.map_eq_some_iff.mp hplayed
  rw [Prod.mk.injEq] at hfacts
  exact ⟨os, w, serial_of_serve hserve (by decide), hfacts.1, hfacts.2⟩

theorem serial_service_refines_sample : ∃ os k, Serves sampleSettings (fun _ => none) os k ∧
    os.map Prod.fst = sampleOperations.map Prod.fst ∧
    (k "d").bind Shelf.published = some LegalWrites.firstJob.version := by
  obtain ⟨os, w, hserial, hos, hpublished⟩ := sampleOperations_run
  exact ⟨os, shelf (view w), serial_service_refines hserial, hos, hpublished⟩

/-- After such a run the published version of a live document is listed, is the
index's active version too, and has retained chunks that are all indexed; and
of a deleted document no vector is left. -/
theorem serial_publications_found {os : List (Operation × Except Err Reply)} {d : DocumentId} {record : DocumentRecord}
    (h : Serial settings p World.empty os w) (hr : w.record d = some record) :
    (∀ v, publishedVersionOf (some record) = some v → v ∈ listed (w.versionIndex d) ∧
      (w.versionIndex d).bind DocumentVersionIndex.activeVersion = some v ∧
        ∃ cs, w.rest.chunks d v = some cs ∧ ∀ c ∈ cs, (w.rest.vectors c.id).isSome) ∧
      (record.status = .deleted → ∀ i c, w.rest.vectors i = some c → c.documentId ≠ d) := by
  have hall := (serves_of_serial h sound_empty (fresh_empty p)).1
  have hsettled := (hall d).settled record hr
  refine ⟨fun v hv => ?_, fun hdel i c hc heq => ?_⟩
  · rw [hsettled.published] at hv
    split at hv
    · contradiction
    · next hlive =>
      have hactive : (w.versionIndex d).bind DocumentVersionIndex.activeVersion = some v := hsettled.agree.trans hv
      obtain ⟨-, cs, hcs, hserved⟩ := hsettled.found v hv
      obtain ⟨index, hindex, hindexActive⟩ := Option.bind_eq_some_iff.mp hactive
      obtain ⟨v', hin, hv'⟩ := ((hall d).coherent index hindex).active
      rw [hindexActive, Option.some.injEq] at hv'
      subst hv'
      refine ⟨?_, hactive, cs, hcs, hserved hlive⟩
      rw [hindex]
      exact hin
  · obtain ⟨hdoc, -, r, hr', hlive⟩ := (hall i.documentId).live i c rfl hc
    have hd : i.documentId = d := hdoc.symm.trans heq
    rw [hd] at hr'
    have hrecord : some record = some r := hr.symm.trans hr'
    injection hrecord with hrecord
    exact hlive (hrecord ▸ hdel)

theorem serial_publications_found_sample : ∃ os w record, Serial sampleSettings 1 World.empty os w ∧
    w.record "d" = some record ∧ publishedVersionOf (some record) = some LegalWrites.firstJob.version ∧
    LegalWrites.firstJob.version ∈ listed (w.versionIndex "d") ∧
    (w.versionIndex "d").bind DocumentVersionIndex.activeVersion = some LegalWrites.firstJob.version ∧
    ∃ cs, w.rest.chunks "d" LegalWrites.firstJob.version = some cs ∧ ∀ c ∈ cs, (w.rest.vectors c.id).isSome := by
  obtain ⟨os, w, hserial, -, hpublished⟩ := sampleOperations_run
  rw [published_shelf] at hpublished
  cases hr : w.record "d" with
  | none =>
    have hnone : (view w).record "d" = none := hr
    rw [hnone] at hpublished
    contradiction
  | some record =>
    have hsome : (view w).record "d" = some record := hr
    rw [hsome] at hpublished
    exact ⟨os, w, record, hserial, hr, hpublished, (serial_publications_found hserial hr).1 _ hpublished⟩

end Runs

end RagSystem.SerialService
