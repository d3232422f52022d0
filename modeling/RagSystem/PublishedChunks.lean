import RagSystem.IndexCalls
import RagSystem.LegalWrites

/-!
# What the index holds after a publication

A successful ingestion upserts its chunks and then removes the vectors of every
other version of the document. Vectors of its own version that an earlier run
left stay, unless a chunk of this run has the same id.
-/

namespace RagSystem.PublishedChunks

open AtomicProgram ThreadPool RelyGuarantee Storage DocumentModels DocumentStore DocumentService CallEffects
  StoreCalls IndexCalls LegalWrites

set_option autoImplicit false

section Cleanup

/-- The index holds a vector of document `d` under this id. -/
def HasVector (w : World) (d : DocumentId) (i : ChunkId) : Prop :=
  ∃ c, w.rest.vectors i = some c ∧ c.documentId = d

/-- The chunks are all of this version of this document. -/
def ChunksOf (d : DocumentId) (v : Version) (chunks : List Chunk) : Prop :=
  ∀ c ∈ chunks, c.documentId = d ∧ c.version = v

/-- The vectors after an upsert and the cleanup of the other versions. -/
def keptVectors (vectors : ChunkId → Option Chunk) (d : DocumentId) (v : Version) (chunks : List Chunk) :
    ChunkId → Option Chunk :=
  deleteVectors (upsertVectors vectors chunks) fun c => c.documentId = d ∧ c.version ≠ v

/-- They are those of the chunks and those of that version that were there. -/
theorem keptVectors_iff {vectors : ChunkId → Option Chunk} {d : DocumentId} {v : Version} {chunks : List Chunk}
    (hchunks : ChunksOf d v chunks) (i : ChunkId) :
    (∃ c, keptVectors vectors d v chunks i = some c ∧ c.documentId = d) ↔
      i ∈ chunks.map Chunk.id ∨ ∃ c, vectors i = some c ∧ c.documentId = d ∧ c.version = v := by
  constructor
  · rintro ⟨c, hc, hd⟩
    obtain ⟨hup, hkept⟩ := deleteVectors_eq_some.mp hc
    have hversion : c.version = v := by
      have hnot : ¬ (c.documentId = d ∧ c.version ≠ v) := of_decide_eq_false hkept
      exact by_contra fun hv => hnot ⟨hd, hv⟩
    by_cases hi : i ∈ chunks.map Chunk.id
    · exact .inl hi
    · rw [upsertVectors_of_notMem vectors hi] at hup
      exact .inr ⟨c, hup, hd, hversion⟩
  · intro h
    have hupserted : ∃ c, upsertVectors vectors chunks i = some c ∧ c.documentId = d ∧ c.version = v := by
      by_cases hi : i ∈ chunks.map Chunk.id
      · obtain ⟨c, hin, -, hc⟩ := upsertVectors_of_mem vectors hi
        exact ⟨c, hc, hchunks c hin⟩
      · obtain ⟨c, hc, hdv⟩ := h.resolve_left hi
        exact ⟨c, (upsertVectors_of_notMem vectors hi).trans hc, hdv⟩
    obtain ⟨c, hc, hd, hv⟩ := hupserted
    refine ⟨c, deleteVectors_eq_some.mpr ⟨hc, ?_⟩, hd⟩
    exact decide_eq_false fun hne => hne.2 hv

end Cleanup

section Runs

/-- The cleanup after the publication of this version went through. -/
def Cleaned (d : DocumentId) (v : Version) (h : History Err Answer) : Prop :=
  ⟨.other (.deleteDocumentExceptVersion d v), .ok ()⟩ ∈ h

instance (d : DocumentId) (v : Version) (h : History Err Answer) : Decidable (Cleaned d v h) :=
  decidable_of_iff (h.any fun
    | ⟨.other (.deleteDocumentExceptVersion d' v'), .ok _⟩ => decide (d' = d ∧ v' = v)
    | _ => false) <| by
    rw [List.any_eq_true]
    constructor
    · rintro ⟨e, he, hc⟩
      split at hc
      · obtain ⟨rfl, rfl⟩ := of_decide_eq_true hc
        exact he
      · contradiction
    · exact fun hc => ⟨_, hc, decide_eq_true ⟨rfl, rfl⟩⟩

/-- No such cleanup was made. -/
def Uncleaned (h : History Err Answer) : Prop :=
  ∀ e ∈ h, ∀ d v, e.action ≠ .other (.deleteDocumentExceptVersion d v)

/-- Where none was made, none went through. -/
theorem Uncleaned.not_cleaned {h : History Err Answer} (hh : Uncleaned h) (d : DocumentId) (v : Version) :
    ¬ Cleaned d v h := fun hc => hh _ hc d v rfl

/-- One more call that is no cleanup. -/
theorem Uncleaned.append {h : History Err Answer} (hh : Uncleaned h) {e : CallEvent}
    (he : ∀ d v, e.action ≠ .other (.deleteDocumentExceptVersion d v)) : Uncleaned (h ++ [e]) := by
  intro e' hin
  rcases List.mem_append.mp hin with hin | hin
  · exact hh e' hin
  · exact List.mem_singleton.mp hin ▸ he

/-- The vectors and retained chunks are these, and no cleanup was made. -/
structure Index (vectors : ChunkId → Option Chunk) (chunks : DocumentId → Version → Option (List Chunk))
    (h : History Err Answer) (w : World) : Prop where
  /-- The vectors. -/
  vectors_eq : w.rest.vectors = vectors
  /-- The retained chunks. -/
  chunks_eq : w.rest.chunks = chunks
  /-- No cleanup. -/
  uncleaned : Uncleaned h

variable {vectors : ChunkId → Option Chunk} {chunks : DocumentId → Version → Option (List Chunk)} {α β : Type}

/-- A program free of index calls leaves them. -/
theorem alone_free {p : Prog α} (hp : p.Uses IndexFree) {h : History Err Answer} {w : World}
    (hi : Index vectors chunks h w) : Alone (fun h _ w => Index vectors chunks h w) p h w := by
  have hkeep : Keeps Happens (fun _ _ _ _ => True) Eq (Index vectors chunks) p := by
    refine Keeps.of_uses (fun _ _ _ hr hi => hr ▸ hi) hp fun h e w w' he hi ht => ⟨trivial, ?_⟩
    obtain ⟨hv, hc⟩ := index_of_exec ht he
    refine ⟨hv.trans hi.vectors_eq, hc.trans hi.chunks_eq, hi.uncleaned.append fun d v heq => ?_⟩
    rw [heq] at he
    exact he
  exact hkeep h w hi

/-- What follows such a program starts from the same index. -/
theorem alone_free_bind {Q : Ending World Err Answer β} {p : Prog α} {f : α → Prog β} (hp : p.Uses IndexFree)
    {h : History Err Answer} {w : World} (hi : Index vectors chunks h w)
    (hf : ∀ a h w, Index vectors chunks h w → Alone Q (f a) h w)
    (hraise : ∀ h e w, Uncleaned h → Q h (.error e) w) : Alone Q (p.bind f) h w :=
  (alone_free hp hi).bind .eq (fun h a w hi => hf a h w hi) fun h e w hi => hraise h e w hi.uncleaned

/-- Batches that all go through are written in order; one that raises ends it. -/
theorem alone_upsertBatches (bs : List (List Chunk)) {h : History Err Answer} {w : World}
    (hi : Index vectors chunks h w) :
    Alone (fun h res w => Uncleaned h ∧ (res = .ok () → Index (upsertVectors vectors bs.flatten) chunks h w))
      (upsertBatches bs) h w := by
  induction bs generalizing vectors h w with
  | nil =>
    rintro _ rfl
    exact ⟨hi.uncleaned, fun _ => hi⟩
  | cons b bs ih =>
    rintro _ rfl r w' ht
    refine ⟨trivial, ?_⟩
    have huncleaned : Uncleaned (h ++ [⟨.other (.upsertBatch b), r⟩]) := hi.uncleaned.append nofun
    cases r with
    | error e => exact .raise fun _ _ => ⟨huncleaned, nofun⟩
    | ok u =>
      have hvectors : w'.rest.vectors = upsertVectors vectors b := by
        rcases vectors_of_exec ht with hv | ⟨batch, n, m, heq, -⟩
        · exact hv.trans (congrArg (upsertVectors · b) hi.vectors_eq)
        · cases heq
      have hchunks : w'.rest.chunks = chunks := (chunks_of_exec ht).trans hi.chunks_eq
      have hnext : Index (upsertVectors vectors b) chunks (h ++ [⟨.other (.upsertBatch b), .ok u⟩]) w' :=
        ⟨hvectors, hchunks, huncleaned⟩
      rw [List.flatten_cons, upsertVectors_append]
      exact ih hnext

/-- The retained chunks once those of one version were written. -/
def retaining (chunks : DocumentId → Version → Option (List Chunk)) (d : DocumentId) (v : Version)
    (cs : List Chunk) : DocumentId → Version → Option (List Chunk) :=
  fun d' v' => if d' = d ∧ v' = v then some cs else chunks d' v'

variable (settings : Settings) (p : ProcessId) (record : DocumentRecord) (content : Bytes)

/-- The stages write their chunks to the index and retain them. -/
theorem alone_ingestStages {h : History Err Answer} {w : World} (hi : Index vectors chunks h w) :
    Alone (fun h res w => Uncleaned h ∧ ∀ cs, res = .ok cs → ChunksOf record.id record.version cs ∧
        Index (upsertVectors vectors cs) (retaining chunks record.id record.version cs) h w)
      (ingestStages settings p record content) h w := by
  have hraise (h : History Err Answer) (e : Err) (w : World) (hh : Uncleaned h) :
      Uncleaned h ∧ ∀ cs, (.error e : Except Err (List Chunk)) = .ok cs →
        ChunksOf record.id record.version cs ∧
        Index (upsertVectors vectors cs) (retaining chunks record.id record.version cs) h w := ⟨hh, nofun⟩
  refine alone_free_bind (uses_saveDocumentRecord_free p _) hi (fun _ h w hi => ?_) hraise
  refine alone_free_bind (uses_call_free (.parse _ _ _ _) trivial) hi (fun markdown h w hi => ?_) hraise
  refine alone_free_bind (uses_putJson_free (.parsed _ _) _) hi (fun _ h w hi => ?_) hraise
  refine alone_free_bind (uses_saveDocumentRecord_free p _) hi (fun _ h w hi => ?_) hraise
  refine alone_free_bind (uses_call_free (.splitNodes _) trivial) hi (fun nodes h w hi => ?_) hraise
  generalize hcs : chunkNodes settings ⟨record.id, record.version, markdown⟩ nodes = cs
  have hof : ChunksOf record.id record.version cs := fun c hc => by
    obtain ⟨hd, hv, -⟩ := mem_chunkNodes (hcs ▸ hc)
    exact ⟨hd, hv⟩
  rintro _ rfl r w' ht
  refine ⟨trivial, ?_⟩
  have huncleaned : Uncleaned (h ++ [⟨.other (.putChunks record.id record.version cs), r⟩]) :=
    hi.uncleaned.append nofun
  cases r with
  | error e => exact .raise fun _ _ => hraise _ e _ huncleaned
  | ok u =>
    have hretained : Index vectors (retaining chunks record.id record.version cs)
        (h ++ [⟨.other (.putChunks record.id record.version cs), .ok u⟩]) w' := by
      refine ⟨?_, ?_, huncleaned⟩
      · rcases vectors_of_exec ht with hv | ⟨batch, n, m, heq, -⟩
        · exact hv.trans hi.vectors_eq
        · cases heq
      · rw [← hi.chunks_eq]
        exact chunks_of_exec ht
    refine alone_free_bind (uses_saveDocumentRecord_free p _) hretained (fun _ h w hi => ?_) hraise
    refine alone_free_bind (uses_embed_free settings cs) hi (fun _ h w hi => ?_) hraise
    refine (alone_upsertBatches _ hi).bind .eq (fun h _ w hq => ?_) fun h e w hq => hraise h e w hq.1
    rw [flatten_batches settings.upsertBatchSize_pos] at hq
    refine .done fun _ heq => heq ▸ ⟨hq.1, fun cs' hok => ?_⟩
    rw [Except.ok.injEq] at hok
    exact hok ▸ ⟨hof, hq.2 rfl⟩

/-- What is known of a run once its cleanup went through: it retained its chunks,
and the index is that of the start with these written and the other versions of
the document removed. -/
def Finished (vectors : ChunkId → Option Chunk) (h : History Err Answer) (w : World) : Prop :=
  ∀ d v, Cleaned d v h → ∃ cs, ChunksOf d v cs ∧ w.rest.chunks d v = some cs ∧
    w.rest.vectors = keptVectors vectors d v cs

/-- Nothing is known of a run without cleanup. -/
theorem Uncleaned.finished {h : History Err Answer} (hh : Uncleaned h) (w : World) : Finished vectors h w :=
  fun d v hc => absurd hc (hh.not_cleaned d v)

/-- The cleanup after a publication. -/
theorem alone_cleanupSupersededVectors {d : DocumentId} {v : Version} {cs : List Chunk} (hcs : ChunksOf d v cs)
    {h : History Err Answer} {w : World}
    (hi : Index (upsertVectors vectors cs) (retaining chunks d v cs) h w) :
    Alone (fun h res w => Finished vectors h w ∧ ∃ u, res = .ok u) (cleanupSupersededVectors d v) h w := by
  rintro _ rfl r w' ht
  refine ⟨trivial, ?_⟩
  have hfinished : Finished vectors (h ++ [⟨.other (.deleteDocumentExceptVersion d v), r⟩]) w' := by
    intro d' v' hc
    have hlast := (List.mem_append.mp hc).resolve_left (hi.uncleaned.not_cleaned d' v')
    rw [List.mem_singleton] at hlast
    cases hlast
    have hvectors : w'.rest.vectors = deleteVectors w.rest.vectors fun c => c.documentId = d ∧ c.version ≠ v := by
      rcases vectors_of_exec ht with hv | ⟨batch, n, m, heq, -⟩
      · exact hv
      · cases heq
    have hretained : w'.rest.chunks = retaining chunks d v cs := (chunks_of_exec ht).trans hi.chunks_eq
    refine ⟨cs, hcs, ?_, hvectors.trans ?_⟩
    · rw [hretained, retaining, if_pos ⟨rfl, rfl⟩]
    · rw [hi.vectors_eq]
      rfl
  cases r with
  | ok u => exact .done fun _ heq => heq ▸ ⟨hfinished, u, rfl⟩
  | error e => exact .done fun _ heq => heq ▸ ⟨hfinished, (), rfl⟩

/-- The body of an ingestion. -/
theorem alone_ingestBody {h : History Err Answer} {w : World} (hi : Index vectors chunks h w) :
    Alone (fun h res w => Finished vectors h w ∧ ∀ e, res = .error e → Uncleaned h)
      (ingestBody settings p record content) h w := by
  have hraise (h : History Err Answer) (e : Err) (w : World) (hh : Uncleaned h) :
      Finished vectors h w ∧ ∀ e', (.error e : Except Err DocumentRecord) = .error e' → Uncleaned h :=
    ⟨hh.finished w, fun _ _ => hh⟩
  refine (alone_ingestStages settings p record content hi).bind .eq (fun h cs w hq => ?_)
    fun h e w hq => hraise h e w hq.1
  obtain ⟨hcs, hi⟩ := hq.2 cs rfl
  refine alone_free_bind (uses_putJson_free (.embeddingManifest _ _) _) hi (fun _ h w hi => ?_) hraise
  refine alone_free_bind (uses_saveDocumentRecord_free p _) hi (fun _ h w hi => ?_) hraise
  refine alone_free_bind (uses_recordIngestionSuccess_free _ _) hi (fun _ h w hi => ?_) hraise
  refine (alone_cleanupSupersededVectors hcs hi).bind .eq (fun h _ w hq => ?_) fun h e w hq => ?_
  · exact .done fun _ heq => heq ▸ ⟨hq.1, nofun⟩
  · obtain ⟨u, hu⟩ := hq.2
    contradiction

/-- The handlers of an ingestion make no cleanup of other versions. -/
theorem alone_handler {q : Prog α} (hq : q.Uses fun a => ∀ d v, a ≠ .other (.deleteDocumentExceptVersion d v))
    {h : History Err Answer} {w : World} (hh : Uncleaned h) :
    Alone (fun h _ w => Finished vectors h w) q h w := by
  have hkeep : Keeps Happens (fun _ _ _ _ => True) Eq (fun h _ => Uncleaned h) q :=
    Keeps.of_uses (fun _ _ _ _ hh => hh) hq fun h e w w' he hh _ => ⟨trivial, hh.append he⟩
  exact (hkeep h w hh).ending fun h _ w hh => hh.finished w

/-- An ingestion. -/
theorem alone_runIngestion {h : History Err Answer} {w : World} (hi : Index vectors chunks h w) :
    Alone (fun h _ w => Finished vectors h w) (runIngestion settings p record content) h w := by
  have hfree (a : Action) (ha : IndexFree a) (d : DocumentId) (v : Version) :
      a ≠ .other (.deleteDocumentExceptVersion d v) := by
    rintro rfl
    exact ha
  refine (alone_ingestBody settings p record content hi).catchError .eq (fun _ _ _ hq => hq.1) fun h e w hq => ?_
  have huncleaned := hq.2 e rfl
  split
  · exact alone_handler (uses_abortIngestionForDeleted hfree nofun) huncleaned
  · exact alone_handler (uses_abortIngestionForSuperseded hfree p _) huncleaned
  · exact alone_handler (uses_ingestFailure hfree nofun nofun _) huncleaned

/-- A whole job. -/
theorem alone_processDocumentJob (job : IngestionJob) {h : History Err Answer} {w : World}
    (hi : Index vectors chunks h w) :
    Alone (fun h _ w => Finished vectors h w) (processDocumentJob settings p job) h w := by
  refine alone_free_bind (uses_getDocument_free p _) hi (fun record h w hi => ?_) fun h e w hh => hh.finished w
  cases record with
  | none => exact .raise fun _ heq => heq ▸ hi.uncleaned.finished w
  | some record =>
    dsimp only
    unfold processRecord
    by_cases hdel : record.status = .deleted
    · rw [if_pos hdel]
      exact .raise fun _ heq => heq ▸ hi.uncleaned.finished w
    by_cases hold : record.version ≠ job.version
    · rw [if_neg hdel, if_pos hold]
      exact .raise fun _ heq => heq ▸ hi.uncleaned.finished w
    rw [if_neg hdel, if_neg hold]
    exact alone_free_bind (uses_readSource_free p record job) hi
      (fun content h w hi => alone_runIngestion settings p record content hi) fun h e w hh => hh.finished w

variable {settings p}

/-- Let an ingestion run, with nobody else at work, make its cleanup after the
publication of version `v` of document `d`, and let the cleanup go through. Then
the ids of `d` in the index are those of the chunks it retained, exactly if
every vector of that version that was in the index before has the id of one of
these chunks. -/
theorem index_exact_iff {job : IngestionJob} {w w' : World} {es : History Err Answer}
    {res : Except Err DocumentRecord} (ho : Outcome service (processDocumentJob settings p job) w es res w')
    {d : DocumentId} {v : Version} (hclean : Cleaned d v es) :
    ∃ cs, w'.rest.chunks d v = some cs ∧
      ((∀ i, HasVector w' d i ↔ i ∈ cs.map Chunk.id) ↔
        ∀ i c, w.rest.vectors i = some c → c.documentId = d → c.version = v → i ∈ cs.map Chunk.id) := by
  have hsat := alone_processDocumentJob settings p job (h := []) (w := w) ⟨rfl, rfl, fun _ he => absurd he List.not_mem_nil⟩
  obtain ⟨cs, hcs, hretained, hvectors⟩ := (hsat.outcome (fun _ => rfl) ho) d v hclean
  refine ⟨cs, hretained, ?_⟩
  have hids (i : ChunkId) : HasVector w' d i ↔
      i ∈ cs.map Chunk.id ∨ ∃ c, w.rest.vectors i = some c ∧ c.documentId = d ∧ c.version = v := by
    rw [HasVector, hvectors]
    exact keptVectors_iff hcs i
  constructor
  · intro hexact i c hc hd hv
    exact (hexact i).mp ((hids i).mpr (.inr ⟨c, hc, hd, hv⟩))
  · intro hbefore i
    rw [hids]
    refine ⟨fun h => h.elim id ?_, .inl⟩
    rintro ⟨c, hc, hd, hv⟩
    exact hbefore i c hc hd hv

/-- The sample job again after its ingestion, its source now cut differently. -/
def secondAttempt : Option (History Err Answer × Except Err DocumentRecord × World) :=
  play service (processDocumentJob sampleSettings 1 firstJob) (List.replicate 28 (calm "b" "j"))
    ingestedPool.world

theorem index_exact_iff_sample : ∃ w' es res cs,
    Outcome service (processDocumentJob sampleSettings 1 firstJob) ingestedPool.world es res w' ∧
    w'.rest.chunks "d" firstJob.version = some cs ∧
    ((∀ i, HasVector w' "d" i ↔ i ∈ cs.map Chunk.id) ↔ ∀ i c, ingestedPool.world.rest.vectors i = some c →
      c.documentId = "d" → c.version = firstJob.version → i ∈ cs.map Chunk.id) := by
  have hplayed : secondAttempt.any fun x => Cleaned "d" firstJob.version x.1 := by decide +kernel
  obtain ⟨⟨es, res, w'⟩, hplay, hclean⟩ := (Option.any_eq_true _ _).mp hplayed
  have ho := play_sound service hplay
  obtain ⟨cs, hcs, hiff⟩ := index_exact_iff ho (of_decide_eq_true hclean)
  exact ⟨w', es, res, cs, ho, hcs, hiff⟩

/-- The chunk of the first ingestion. -/
def staleChunkId : ChunkId := stableChunkId sampleSettings "d" firstJob.version 0 "a"

/-- After the second ingestion of the same version the first one's chunk is
still in the index, though the run did not produce it. -/
theorem stale_chunk_remains : ∃ ms w' es res cs,
    ServiceRun sampleSettings (Pool.idle World.empty) ms ingestedPool ∧
    Outcome service (processDocumentJob sampleSettings 1 firstJob) ingestedPool.world es res w' ∧
    Cleaned "d" firstJob.version es ∧ w'.rest.chunks "d" firstJob.version = some cs ∧
    HasVector w' "d" staleChunkId ∧ staleChunkId ∉ cs.map Chunk.id := by
  have hrun := run_after (Pool.idle World.empty) ingestTurns (by decide +kernel)
  have hplayed : secondAttempt.any fun x => Cleaned "d" firstJob.version x.1 ∧
      (x.2.2.rest.chunks "d" firstJob.version).any (fun cs => staleChunkId ∉ cs.map Chunk.id) ∧
      (x.2.2.rest.vectors staleChunkId).any (fun c => c.documentId = "d") := by decide +kernel
  obtain ⟨⟨es, res, w'⟩, hplay, hfacts⟩ := (Option.any_eq_true _ _).mp hplayed
  obtain ⟨hclean, hretained, hvector⟩ := of_decide_eq_true hfacts
  obtain ⟨cs, hcs, hnot⟩ := (Option.any_eq_true _ _).mp hretained
  obtain ⟨c, hc, hd⟩ := (Option.any_eq_true _ _).mp hvector
  exact ⟨_, w', es, res, cs, hrun, play_sound service hplay, hclean, hcs, ⟨c, hc, of_decide_eq_true hd⟩,
    of_decide_eq_true hnot⟩

end Runs

end RagSystem.PublishedChunks
