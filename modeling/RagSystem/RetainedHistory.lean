import RagSystem.DocumentFootprints
import RagSystem.VersionHistory

/-!
# What the version history can be restored from

A version is listed only by an ingestion that has read its source and stored
its parse, its chunks, its embedding manifest and its version manifest. None
of these is ever removed, so every listed version has them in every run.
-/

namespace RagSystem.RetainedHistory

open AtomicProgram ThreadPool RelyGuarantee VersionedCell Storage CompareAndSwap DocumentModels DocumentStore
  DocumentService CallEffects StoreCalls LegalWrites RecordCaches VersionHistory DocumentFootprints

set_option autoImplicit false

section Growth

/-- Objects change by writing; raw files and retained chunks stay. -/
structure Grows (w w' : World) : Prop where
  /-- Objects. -/
  objects : Later w.objects w'.objects
  /-- Raw files. -/
  raw : ∀ d v suffix, (w.rest.raw d v suffix).isSome → (w'.rest.raw d v suffix).isSome
  /-- Retained chunks. -/
  chunks : ∀ d v, (w.rest.chunks d v).isSome → (w'.rest.chunks d v).isSome

variable {w w' w'' : World} {d : DocumentId} {v : Version} {e : CallEvent}

theorem Grows.refl (w : World) : Grows w w := ⟨.refl _, fun _ _ _ h => h, fun _ _ h => h⟩

theorem Grows.trans (h : Grows w w') (h' : Grows w' w'') : Grows w w'' where
  objects := h.objects.trans h'.objects
  raw d v suffix hr := h'.raw d v suffix (h.raw d v suffix hr)
  chunks d v hc := h'.chunks d v (h.chunks d v hc)

/-- Every call makes the state grow. -/
theorem Grows.of_exec (h : service.Exec e w w') : Grows w w' where
  objects := exec_later h
  raw d v suffix hr := by
    rw [(raw_jobs_of_exec h).1]
    unfold rawAfter
    split
    · split
      · rfl
      · exact hr
    · exact hr
  chunks d v hc := by
    rw [chunks_of_exec h]
    unfold chunksAfter
    split
    · split
      · rfl
      · exact hc
    · exact hc

/-- The source of the version is stored. -/
def Sourced (d : DocumentId) (v : Version) (w : World) : Prop := ∃ suffix, (w.rest.raw d v suffix).isSome

/-- This object is stored. -/
def Written (k : Key) (w : World) : Prop := (w.objects k).content.isSome

/-- The chunks of the version are retained. -/
def Retained (d : DocumentId) (v : Version) (w : World) : Prop := (w.rest.chunks d v).isSome

/-- Everything an ingestion of a version stores. -/
structure Backed (d : DocumentId) (v : Version) (w : World) : Prop where
  /-- The file it read. -/
  source : Sourced d v w
  /-- The parse. -/
  parsed : Written (.parsed d v) w
  /-- The chunks. -/
  chunks : Retained d v w
  /-- The embedding manifest. -/
  embedded : Written (.embeddingManifest d v) w
  /-- The version manifest. -/
  manifest : Written (.documentVersion d v) w

/-- A stored object is stored. -/
theorem written_put (w : World) (k : Key) (payload : Payload k) :
    Written k { w with objects := put w.objects k payload } := by
  simp only [Written, put_self]
  rfl

theorem Grows.sourced (h : Grows w w') (hs : Sourced d v w) : Sourced d v w' := by
  obtain ⟨suffix, hs⟩ := hs
  exact ⟨suffix, h.raw d v suffix hs⟩

theorem Grows.written (h : Grows w w') {k : Key} (hk : Written k w) : Written k w' := (h.objects k).isSome hk

theorem Grows.backed (h : Grows w w') (hb : Backed d v w) : Backed d v w' where
  source := h.sourced hb.source
  parsed := h.written hb.parsed
  chunks := h.chunks d v hb.chunks
  embedded := h.written hb.embedded
  manifest := h.written hb.manifest

/-- Every listed version has everything its ingestion stored. -/
def AllBacked (w : World) : Prop := ∀ d, ∀ v ∈ listed (w.versionIndex d), Backed d v w

/-- What others do: the state grows and listed versions keep what they have. -/
def Backing (w w' : World) : Prop := Grows w w' ∧ (AllBacked w → AllBacked w')

theorem backing_rely : IsRely Backing :=
  ⟨fun w => ⟨.refl w, id⟩, fun h h' => ⟨h.1.trans h'.1, fun hw => h'.2 (h.2 hw)⟩⟩

/-- An action that leaves the version indexes writes none. -/
theorem indexWritten_of_free (h : writesIndex e.action = false) : indexWritten e = none := by
  obtain ⟨a, r⟩ := e
  cases a with
  | putJson k v => cases k <;> cases r <;> first | rfl | cases h
  | putJsonConditional k v c => cases k <;> cases r <;> first | rfl | cases h
  | _ => rfl

/-- A call that writes no version index lists no version. -/
theorem AllBacked.of_exec (hw : AllBacked w) (h : service.Exec e w w') (hfree : writesIndex e.action = false) :
    AllBacked w' := by
  intro d v hv
  rw [versionIndex_of_exec h, indexWritten_of_free hfree] at hv
  exact (Grows.of_exec h).backed (hw d v hv)

/-- A write of a version index that lists only what is backed. -/
theorem AllBacked.of_putIndex (hw : AllBacked w) {new : DocumentVersionIndex} {e : CallEvent}
    (h : service.Exec e w w') (he : indexWritten e = some (d, new)) (hnew : ∀ v ∈ new.ids, Backed d v w) :
    AllBacked w' := by
  intro d' v hv
  rw [versionIndex_of_exec h, he] at hv
  dsimp only at hv
  split at hv
  · next hd =>
    subst hd
    exact (Grows.of_exec h).backed (hnew v hv)
  · exact (Grows.of_exec h).backed (hw d' v hv)

end Growth

section Programs

variable {settings : Settings} {p : ProcessId} {d : DocumentId} {v : Version} {record : DocumentRecord}
  {α : Type} {q : Prog α} {P : World → Prop}

/-- What the calls guarantee. -/
abbrev Grow : StepPredicate World Err Answer := fun _ _ w w' => Backing w w'

/-- Whatever grows with the state stays. -/
def Lasting (P : World → Prop) : Prop := ∀ w w', Grows w w' → P w → P w'

theorem Lasting.and {P Q : World → Prop} (hP : Lasting P) (hQ : Lasting Q) : Lasting fun w => P w ∧ Q w :=
  fun w w' h hw => ⟨hP w w' h hw.1, hQ w w' h hw.2⟩

theorem lasting_true : Lasting fun _ => True := fun _ _ _ _ => trivial

theorem lasting_sourced : Lasting (Sourced d v) := fun _ _ h => h.sourced

theorem lasting_written (k : Key) : Lasting (Written k) := fun _ _ h => h.written

theorem lasting_retained : Lasting (Retained d v) := fun _ _ h => h.chunks d v

theorem lasting_backed : Lasting (Backed d v) := fun _ _ h => h.backed

theorem backed_kept (w w' : World) (h : Backing w w') (hw : AllBacked w) : AllBacked w' := h.2 hw

/-- From `P`, with every listed version backed before and after, the program comes to `Q`. -/
abbrev Ensured (P : World → Prop) (Q : α → World → Prop) (q : Prog α) : Prop := Brings Made Grow Backing AllBacked P Q q

/-- Returning. -/
theorem ensured_done (hP : Lasting P) (a : α) : Ensured P (fun _ => P) (.done a) :=
  Brings.done (Q := fun _ => P) backed_kept fun w w' hb => hP w w' hb.1

/-- Programs that write no version index keep everything that lasts. -/
theorem ensured_of_uses (hP : Lasting P) (hq : q.Uses fun a => writesIndex a = false) :
    Ensured P (fun _ => P) q := by
  refine Brings.of_uses backed_kept (fun w w' hb => hP w w' hb.1) hq fun h e w w' hfree hw hpre ht => ?_
  have hgrows := Grows.of_exec ht.1
  have hnext := hw.of_exec ht.1 hfree
  exact ⟨⟨hgrows, fun _ => hnext⟩, hnext, hP w w' hgrows hpre⟩

theorem ensured_of_prepares (hP : Lasting P) (hq : q.Uses (Prepares d)) : Ensured P (fun _ => P) q :=
  ensured_of_uses hP (hq.mono fun _ ha => ha.2)

/-- An action that writes no version index and makes something last. -/
theorem ensured_perform {a : Action} {F : World → Prop} (hP : Lasting P) (hF : Lasting F) (hfree : writesIndex a = false)
    (hmakes : ∀ b w w', service.Exec ⟨a, .ok b⟩ w w' → F w') :
    Ensured P (fun _ w => P w ∧ F w) (perform (B := Answer) a) := by
  refine Brings.perform backed_kept (fun w w' hb => hP w w' hb.1) (fun _ w w' hb => hP.and hF w w' hb.1)
    fun h r w w' hw hpre ht => ?_
  have hgrows := Grows.of_exec ht.1
  have hnext := hw.of_exec ht.1 hfree
  refine ⟨⟨hgrows, fun _ => hnext⟩, hnext, ?_⟩
  rintro b rfl
  exact ⟨hP w w' hgrows hpre, hmakes b w w' ht.1⟩

/-- Storing an object. -/
theorem ensured_putJson (hP : Lasting P) {k : Key} (payload : Payload k)
    (hfree : writesIndex (.putJson k payload) = false) :
    Ensured P (fun _ w => P w ∧ Written k w) (putJson k payload : Prog Unit) := by
  refine ensured_perform hP (lasting_written k) hfree fun b w w' h => ?_
  rcases exec_putJson h with ⟨-, rfl⟩ | ⟨-, m, hm⟩
  · exact written_put w k payload
  · contradiction

/-- Creating an artifact: it is stored afterwards, by this call or an earlier one. -/
theorem ensured_createArtifact (hP : Lasting P) {k : Key} (payload : Payload k)
    (hfree : writesIndex (.putJsonConditional k payload .ifNoneMatch) = false) :
    Ensured P (fun _ w => P w ∧ Written k w) (createArtifact k payload) := by
  intro h w hw hpre
  have hcreate : Sat Made Grow Backing (fun _ r w => AllBacked w ∧ P w ∧
      (r = .ok () ∨ (∃ k', r = .error (.preconditionFailed k')) → Written k w)) (createJson k payload : Prog Unit) h w := by
    refine Sat.perform fun w₁ h₁ r w₂ ht => ?_
    have hgrows := Grows.of_exec ht.1
    have hnext := (h₁.2 hw).of_exec ht.1 hfree
    refine ⟨⟨hgrows, fun _ => hnext⟩, fun w₃ h₃ => ⟨h₃.2 hnext, hP _ _ (h₁.1.trans (hgrows.trans h₃.1)) hpre, fun hr => ?_⟩⟩
    refine h₃.1.written ?_
    rcases exec_putJsonConditional ht.1 with ⟨-, -, rfl⟩ | ⟨rfl, ⟨-, hrefused⟩ | ⟨m, rfl⟩⟩
    · exact written_put w₁ k payload
    · unfold Written
      cases hc : (w₂.objects k).content with
      | some payload => rfl
      | none => simp only [Cell.admits, hc, Option.isNone_none, Bool.true_eq_false] at hrefused
    · rcases hr with hr | ⟨k', hr⟩ <;> cases hr
  refine hcreate.catchError backing_rely (fun _ u _ hq => ⟨hq.1, fun _ _ => ⟨hq.2.1, hq.2.2 (.inl rfl)⟩⟩)
    fun h₁ e w₁ hq => ?_
  have hboth : Lasting fun w => P w ∧ Written k w := hP.and (lasting_written k)
  split
  · next k' =>
    exact ensured_done hboth () h₁ w₁ hq.1 ⟨hq.2.1, hq.2.2 (.inr ⟨k', rfl⟩)⟩
  · exact Brings.raise (P := fun _ => True) backed_kept _ h₁ w₁ hq.1 trivial

/-- Retaining chunks. -/
theorem ensured_putChunks (hP : Lasting P) (chunks : List Chunk) :
    Ensured P (fun _ w => P w ∧ Retained d v w) (DocumentService.call (.putChunks d v chunks)) := by
  refine ensured_perform hP lasting_retained rfl fun b w w' h => ?_
  have hafter : w'.rest.chunks d v = some chunks := by
    rw [chunks_of_exec h]
    exact if_pos ⟨rfl, rfl⟩
  unfold Retained
  rw [hafter]
  rfl

/-- A file that was read is there. -/
theorem ensured_getRaw (hP : Lasting P) (suffix : String) :
    Ensured P (fun _ w => P w ∧ Sourced d v w) (DocumentService.call (.getRaw d v suffix)) := by
  refine ensured_perform hP lasting_sourced rfl fun b w w' h => ⟨suffix, ?_⟩
  obtain ⟨o, rest, ho, rfl⟩ := exec_other h
  cases o with
  | proceed =>
    simp only [perform?] at ho
    split at ho
    · next content hraw =>
      cases ho
      exact Option.isSome_of_mem hraw
    · cases ho
  | raise m => cases ho
  | _ => contradiction

/-- The source an ingestion goes on with is stored. -/
theorem ensured_readSource (hid : record.id = d) (job : IngestionJob) :
    Ensured (fun _ => True) (fun _ => Sourced job.documentId job.version) (readSource p record job) := by
  have hread (suffix : String) : Ensured (fun _ => True) (fun _ => Sourced job.documentId job.version)
      (DocumentService.call (.getRaw job.documentId job.version suffix)) :=
    (ensured_getRaw lasting_true suffix).weaken (fun _ h => h) fun _ _ h => h.2
  refine (hread _).catchError backing_rely fun _ => (hread _).catchError backing_rely fun exc => ?_
  have hsave : (saveDocumentRecord p (failedWith record exc)).Uses (Prepares d) := uses_saveDocumentRecord hid
  exact (ensured_of_prepares lasting_true hsave).bind backing_rely fun _ => .raise backed_kept _

/-- The stages of an ingestion leave its parse and its chunks. -/
theorem ensured_ingestStages (content : Bytes) :
    Ensured (Sourced record.id record.version)
      (fun _ w => (Sourced record.id record.version w ∧ Written (.parsed record.id record.version) w) ∧
        Retained record.id record.version w) (ingestStages settings p record content) := by
  have hparse := lasting_sourced.and (lasting_written (.parsed record.id record.version)) (P := Sourced record.id record.version)
  have hcut := hparse.and (lasting_retained (d := record.id) (v := record.version))
  have hsave (status : DocumentStatus) : (saveDocumentRecord p (atStage record status)).Uses (Prepares record.id) :=
    uses_saveDocumentRecord rfl
  refine (ensured_of_prepares lasting_sourced (hsave .parsing)).bind backing_rely fun _ => ?_
  refine (ensured_of_prepares (d := record.id) lasting_sourced (uses_call (.parse _ _ _ _) trivial)).bind backing_rely
    fun markdown => ?_
  refine (ensured_putJson lasting_sourced _ rfl).bind backing_rely fun _ => ?_
  refine (ensured_of_prepares hparse (hsave .chunking)).bind backing_rely fun _ => ?_
  refine (ensured_of_prepares (d := record.id) hparse (uses_call (.splitNodes _) trivial)).bind backing_rely fun nodes => ?_
  have hfiled := chunksFiled_chunkNodes settings record.id record.version markdown nodes
  refine (ensured_putChunks hparse _).bind backing_rely fun _ => ?_
  refine (ensured_of_prepares hcut (hsave .embedding)).bind backing_rely fun _ => ?_
  refine (ensured_of_prepares (d := record.id) hcut (uses_embed _)).bind backing_rely fun _ => ?_
  refine (ensured_of_prepares hcut (uses_upsert hfiled)).bind backing_rely fun _ => ?_
  exact ensured_done hcut _

/-- An update that lists only backed versions. -/
theorem ensured_updateIndex {mutate : Option DocumentVersionIndex → Except Err DocumentVersionIndex} (hP : Lasting P)
    (hlists : ∀ current new w, mutate current = .ok new → P w → ∀ v ∈ new.ids, v ∈ listed current ∨ Backed d v w)
    (attempts : ℕ) :
    Ensured P (fun _ => P) (updateJsonCas (P := Payload) (.documentVersionIndex d) mutate attempts :
      Prog DocumentVersionIndex) := by
  have hstable : Stable Backing fun (_ : History Err Answer) w => AllBacked w ∧ P w :=
    fun _ w w' hb hi => ⟨hb.2 hi.1, hP w w' hb.1 hi.2⟩
  have hkeep {h : History Err Answer} {w w' : World} {e : CallEvent} (hi : AllBacked w ∧ P w) (ht : Made h e w w')
      (hall : AllBacked w') : Backing w w' ∧ AllBacked w' ∧ P w' :=
    ⟨⟨Grows.of_exec ht.1, fun _ => hall⟩, hall, hP w w' (Grows.of_exec ht.1) hi.2⟩
  have hkeeps : Keeps Made Grow Backing (fun _ w => AllBacked w ∧ P w)
      (updateJsonCas (P := Payload) (.documentVersionIndex d) mutate attempts : Prog DocumentVersionIndex) := by
    have rule : CasRule (P := Payload) Made Grow Backing (.documentVersionIndex d) mutate (fun _ w => AllBacked w ∧ P w)
        (fun _ _ w => AllBacked w ∧ P w) (fun _ _ w => AllBacked w ∧ P w) :=
      { stableI := hstable
        stableJ := fun _ => hstable
        read := fun h w hi ht => hkeep hi ht hi.1
        readRaised := fun h w m hi ht => ⟨(hkeep hi ht hi.1).1, fun v hv => hstable h _ _ hv hi⟩
        rejected := fun _ _ _ _ hi _ => hi
        written := fun h w cur new hi hc hm ht => by
          have hnew : ∀ v ∈ new.ids, Backed d v w := by
            intro v hv
            rcases hlists _ new w hm hi.2 v hv with hin | hin
            · rw [← hc] at hin
              exact hi.1 d v hin
            · exact hin
          have hall := hi.1.of_putIndex ht.1 rfl hnew
          obtain ⟨hg, hnext⟩ := hkeep hi ht hall
          exact ⟨hg, fun u hu => hstable h _ _ hu hnext⟩
        refused := fun h w cur new hi _ ht => hkeep hi ht hi.1
        putRaised := fun h w cur new m hi _ ht => ⟨(hkeep hi ht hi.1).1, fun u hu => hstable h _ _ hu hi⟩
        exhausted := fun _ _ hi => hi }
    exact fun h w hi => rule.sat (fun _ _ _ _ ht => ht.1) (fun w w' hb => hb.1.objects _) attempts hi
  exact fun h w hw hpre => (hkeeps h w ⟨hw, hpre⟩).ending fun _ _ _ hq => ⟨hq.1, fun _ _ => hq.2⟩

/-- A version is listed when everything but its manifest is stored. -/
theorem ensured_recordIngestionSuccess :
    Ensured (fun w => ((Sourced d v w ∧ Written (.parsed d v) w) ∧ Retained d v w) ∧ Written (.embeddingManifest d v) w)
      (fun _ => Backed d v) (recordIngestionSuccess d v) := by
  have hstored := ((lasting_sourced.and (lasting_written (.parsed d v))).and
    (lasting_retained (d := d) (v := v))).and (lasting_written (.embeddingManifest d v)) (P := fun w =>
      (Sourced d v w ∧ Written (.parsed d v) w) ∧ Retained d v w)
  refine (ensured_of_prepares (d := d) hstored (uses_call .now trivial)).bind backing_rely fun timestamp => ?_
  refine (ensured_createArtifact hstored _ rfl).bind backing_rely fun _ => ?_
  refine Brings.weaken (P := Backed d v) (Q := fun _ => Backed d v) ?_
    (fun w hw => ⟨hw.1.1.1.1, hw.1.1.1.2, hw.1.1.2, hw.1.2, hw.2⟩) fun _ _ hw => hw
  have hevent := uses_recordIngestionEvent (d := d) (v := v) .succeeded timestamp none
  refine (ensured_of_prepares lasting_backed hevent).bind backing_rely fun _ => ?_
  refine Brings.bind backing_rely (ensured_updateIndex lasting_backed (fun current new w hnew hw u hu => ?_) maxAttempts)
    fun _ => ensured_done lasting_backed _
  injection hnew with hnew
  rw [← hnew, ids_activateVersion] at hu
  rcases List.mem_append.mp hu with hin | hin
  · exact .inl (List.mem_filter.mp hin).1
  · rw [List.mem_singleton] at hin
    rw [hin]
    exact .inr hw

/-- An ingestion that has read its source keeps every listed version backed. -/
theorem ensured_runIngestion (content : Bytes) :
    Ensured (Sourced record.id record.version) (fun _ _ => True) (runIngestion settings p record content) := by
  have hquiet {α : Type} {q : Prog α} (hq : q.Uses (Prepares record.id)) : Ensured (fun _ => True) (fun _ _ => True) q :=
    ensured_of_prepares lasting_true hq
  refine Brings.catchError backing_rely ?_ fun e => ?_
  · have hcut := (lasting_sourced.and (lasting_written (.parsed record.id record.version))).and
      (lasting_retained (d := record.id) (v := record.version)) (P := fun w =>
        Sourced record.id record.version w ∧ Written (.parsed record.id record.version) w)
    have hembedded := hcut.and (lasting_written (.embeddingManifest record.id record.version))
    have hsave : (saveDocumentRecord p (published record)).Uses (Prepares record.id) := uses_saveDocumentRecord rfl
    have hcleanup := uses_bestEffort (d := record.id) (.deleteDocumentExceptVersion record.id record.version) () rfl
    refine (ensured_ingestStages content).bind backing_rely fun chunks => ?_
    refine (ensured_putJson hcut _ rfl).bind backing_rely fun _ => ?_
    refine (ensured_of_prepares hembedded hsave).bind backing_rely fun _ => ?_
    refine ensured_recordIngestionSuccess.bind backing_rely fun _ => ?_
    refine (ensured_of_prepares lasting_backed hcleanup).bind backing_rely fun _ => ?_
    exact (ensured_done lasting_true _).weaken (fun _ _ => trivial) fun _ _ h => h
  · split
    · exact hquiet uses_abortIngestionForDeleted
    · exact hquiet uses_abortIngestionForSuperseded
    · exact hquiet (uses_ingestFailure rfl _)

/-- What is done with a record of the document keeps every listed version backed. -/
theorem ensured_of_record {f : Option DocumentRecord → Prog α} (hnone : (f none).Uses (Prepares d))
    (hsome : ∀ record, record.id = d → Ensured (fun _ => True) (fun _ _ => True) (f (some record))) :
    Ensured (fun _ => True) (fun _ _ => True) ((getDocument p d).bind f) := by
  have hread := (ensured_of_prepares lasting_true (uses_getDocument (d := d) p d)).both
    (V := fun res => ∀ r, res = some r → r.id = d) fun h w => (sat_getDocument backing_rely h w).ending
      fun _ res _ hq a ha r hr => hq r (by rw [ha, hr])
  refine hread.bind backing_rely fun res => ?_
  cases res with
  | none => exact (ensured_of_prepares lasting_true hnone).weaken (fun _ _ => trivial) fun _ _ h => h
  | some record => exact fun h w hw hq => hsome record (hq.2 record rfl) h w hw trivial

/-- So does an ingestion job. -/
theorem ensured_processDocumentJob (job : IngestionJob) :
    Ensured (fun _ => True) (fun _ _ => True) (processDocumentJob settings p job) := by
  refine ensured_of_record trivial fun record hid => ?_
  dsimp only
  unfold processRecord
  split
  · exact .raise backed_kept _
  · split
    · exact .raise backed_kept _
    · next hversion =>
      have hsame : record.version = job.version := not_not.mp hversion
      refine (ensured_readSource hid job).bind backing_rely fun content => ?_
      rw [← hid, ← hsame]
      exact ensured_runIngestion content

/-- Re-indexing writes no version index. -/
theorem uses_ensureVectors (target : DocumentVersion) :
    (ensureVectors settings d target).Uses fun a => writesIndex a = false := by
  have hbatches (bs : List (List Chunk)) : (upsertBatches bs).Uses fun a => writesIndex a = false := by
    induction bs with
    | nil => trivial
    | cons b bs ih => exact Program.Uses.bind (Program.uses_perform rfl) fun _ => ih
  unfold ensureVectors
  split
  · trivial
  · refine Program.Uses.bind (Program.uses_perform rfl) fun chunks => ?_
    split
    · trivial
    · exact ((uses_embed (d := d) chunks).mono fun _ ha => ha.2).bind fun _ => hbatches _

/-- So does a restore. -/
theorem ensured_restoreVersion :
    Ensured (fun _ => True) (fun _ _ => True) (restoreVersion settings p d v) := by
  refine ensured_of_record trivial fun record hid => ?_
  dsimp only
  split
  · exact ensured_done lasting_true _
  · have hindex : (getJson (P := Payload) (.documentVersionIndex d) : Prog (Option DocumentVersionIndex)).Uses (Prepares d) :=
      Program.uses_perform ⟨trivial, rfl⟩
    refine (ensured_of_prepares lasting_true hindex).bind backing_rely fun index => ?_
    split
    · exact .raise backed_kept _
    · next target _ =>
      refine (ensured_of_uses lasting_true (uses_ensureVectors target)).bind backing_rely fun _ => ?_
      refine Brings.bind backing_rely (ensured_updateIndex lasting_true (fun current new w hnew _ u hu => ?_) maxAttempts)
        fun _ => ?_
      · rw [ids_activateExisting hnew] at hu
        exact .inl hu
      · have hsave : (saveDocumentRecord p (restored record v)).Uses (Prepares d) := uses_saveDocumentRecord hid
        exact (ensured_of_prepares lasting_true hsave).bind backing_rely fun _ => ensured_done lasting_true _

/-- What an operation makes of a program's value changes nothing. -/
theorem ensured_map {f : α → Reply} (hq : Ensured (fun _ => True) (fun _ _ => True) q) :
    Ensured (fun _ => True) (fun _ _ => True) (f <$> q) := hq.bind backing_rely fun _ => ensured_done lasting_true _

/-- So does every operation. -/
theorem ensured_code (o : Operation) : Ensured (fun _ => True) (fun _ _ => True) (code settings o) := by
  have hquiet {d : DocumentId} {α : Type} {q : Prog α} (hq : q.Uses (Prepares d)) :
      Ensured (fun _ => True) (fun _ _ => True) q := ensured_of_prepares lasting_true hq
  cases o with
  | queueDocument p d f c owner => exact ensured_map (hquiet (uses_queueDocument f c owner))
  | updateDocument p d f c owner => exact ensured_map (hquiet (uses_updateDocument f c owner))
  | deleteDocument p d =>
    refine ensured_map (ensured_of_record trivial fun record hid => ?_)
    dsimp only
    split
    · exact ensured_done lasting_true _
    · exact hquiet (uses_deleteRecord hid)
  | processDocumentJob p job => exact ensured_map (ensured_processDocumentJob job)
  | processMessage p job =>
    have hack : Ensured (fun _ => True) (fun _ _ => True) (DocumentService.call (.acknowledge job)) :=
      hquiet (d := job.documentId) (uses_call (.acknowledge job) rfl)
    refine ensured_map (Brings.catchError backing_rely ?_ fun e => ?_)
    · exact (ensured_processDocumentJob job).bind backing_rely fun _ => hack
    · split
      · exact hack
      · exact hack
      · exact ensured_done lasting_true ()
  | restoreVersion p d v => exact ensured_map ensured_restoreVersion
  | getDocument p d => exact ensured_map (hquiet (uses_getDocument (d := d) p d))
  | filterToActiveVersions p hits => exact ensured_map (hquiet (d := "") (uses_filterLoop hits []))

end Programs

section Runs

variable {settings : Settings} {p : ServicePool} {ms : List ServiceMove}

end Runs

end RagSystem.RetainedHistory
