import RagSystem.DocumentFootprints
import RagSystem.VersionHistory

/-!
# One process at work, and no call failing

One process runs one operation after the other and no call raises. Its record
cache cannot be out of date then, a conditional write is never refused, and
every call has one effect on what can be seen of the documents.
-/

namespace RagSystem.CalmRuns

open AtomicProgram RelyGuarantee VersionedCell Storage CompareAndSwap DocumentModels DocumentStore DocumentService CallEffects
  StoreCalls RecordCaches DocumentFootprints

set_option autoImplicit false

section Views

/-- What can be seen of the documents: record and index contents, files,
chunks, vectors and jobs, without generations, caches and audit objects. -/
@[ext] structure View where
  /-- The records. -/
  record : DocumentId → Option DocumentRecord
  /-- The version indexes. -/
  index : DocumentId → Option DocumentVersionIndex
  /-- The raw files. -/
  raw : DocumentId → Version → String → Option Bytes
  /-- The retained chunks. -/
  chunks : DocumentId → Version → Option (List Chunk)
  /-- The vectors. -/
  vectors : ChunkId → Option Chunk
  /-- The queue. -/
  jobs : List IngestionJob

/-- What can be seen of a state. -/
def view (w : World) : View :=
  ⟨w.record, w.versionIndex, w.rest.raw, w.rest.chunks, w.rest.vectors, w.rest.jobs⟩

/-- A record is stored. -/
def View.save (s : View) (r : DocumentRecord) : View := { s with record := Function.update s.record r.id (some r) }

/-- A version index is stored. -/
def View.list (s : View) (d : DocumentId) (index : DocumentVersionIndex) : View :=
  { s with index := Function.update s.index d (some index) }

/-- The effect of a call outside the JSON store. -/
def View.after (s : View) (e : CallEvent) : View :=
  { s with
    raw := rawAfter s.raw e
    chunks := chunksAfter s.chunks e
    vectors := vectorsAfter s.vectors e
    jobs := jobsAfter s.jobs e }

/-- A record write is seen as one. -/
theorem view_putRecord (w : World) (r : DocumentRecord) :
    view { w with objects := put w.objects (.documentRecord r.id) r } = (view w).save r := by
  have hne (d : DocumentId) : Key.documentVersionIndex d ≠ .documentRecord r.id := by simp
  have hindex (d : DocumentId) :
      World.versionIndex { w with objects := put w.objects (.documentRecord r.id) r } d = w.versionIndex d :=
    World.versionIndex_put_of_ne r (hne d)
  refine View.ext (funext fun d => ?_) (funext hindex) rfl rfl rfl rfl
  by_cases hd : d = r.id
  · subst hd
    simp only [view, View.save, World.record_put_self, Function.update_self]
  · simp only [view, View.save, Function.update_of_ne hd]
    have hkey : Key.documentRecord d ≠ .documentRecord r.id := fun heq => hd (by injection heq)
    exact World.record_put_of_ne r hkey

/-- So is a write of a version index. -/
theorem view_putIndex (w : World) (d : DocumentId) (index : DocumentVersionIndex) :
    view { w with objects := put w.objects (.documentVersionIndex d) index } = (view w).list d index := by
  have hne (d' : DocumentId) : Key.documentRecord d' ≠ .documentVersionIndex d := by simp
  have hrecord (d' : DocumentId) :
      World.record { w with objects := put w.objects (.documentVersionIndex d) index } d' = w.record d' :=
    World.record_put_of_ne index (hne d')
  refine View.ext (funext hrecord) (funext fun d' => ?_) rfl rfl rfl rfl
  by_cases hd : d' = d
  · subst hd
    simp only [view, View.list, World.versionIndex_put_self, Function.update_self]
  · simp only [view, View.list, Function.update_of_ne hd]
    have hkey : Key.documentVersionIndex d' ≠ .documentVersionIndex d := fun heq => hd (by injection heq)
    exact World.versionIndex_put_of_ne index hkey

/-- What process `p` has cached is what is stored, under the id it is stored under. -/
structure Fresh (p : ProcessId) (w : World) : Prop where
  /-- Records are filed under their ids. -/
  keyed : ∀ d r, w.record d = some r → r.id = d
  /-- Cached records are the stored ones. -/
  cached : ∀ d r, w.rest.cache p d = some r → w.record d = some r

/-- Nothing is cached at first. -/
theorem fresh_empty (p : ProcessId) : Fresh p World.empty := by
  constructor
  · intro d r hr
    contradiction
  · intro d r hr
    contradiction

variable {w w' : World} {p : ProcessId}

/-- The cache of a fresh process says nothing new. -/
theorem Fresh.copyOf (h : Fresh p w) (d : DocumentId) : RecordCaches.copyOf w p d = w.record d := by
  unfold RecordCaches.copyOf
  cases ht : trustedCopy (w.rest.cache p d) with
  | some r =>
    unfold trustedCopy at ht
    rw [Option.filter_eq_some_iff] at ht
    exact (h.cached d r ht.1).symm
  | none =>
    cases hr : w.record d with
    | some r => rfl
    | none =>
      cases hc : w.rest.cache p d with
      | none => rfl
      | some r =>
        rw [h.cached d r hc] at hr
        contradiction

/-- Loading a record keeps a process fresh. -/
theorem Fresh.loaded (h : Fresh p w) {d : DocumentId} (hl : Loaded p d w w') : Fresh p w' ∧ view w' = view w := by
  rcases hl with rfl | ⟨r, hr, -, rfl⟩
  · exact ⟨h, rfl⟩
  · refine ⟨⟨h.keyed, fun d' r' hc => ?_⟩, rfl⟩
    rw [caching_cache] at hc
    split at hc
    · next heq =>
      injection hc with hc
      rw [caching_record, heq.2, h.keyed d r hr, ← hc]
      exact hr
    · exact h.cached d' r' hc

end Views

section Judgement

variable {α β : Type} {p : ProcessId} {s s' : View} {Q Q' : Except Err α → View → Prop} {Q'' : Except Err β → View → Prop}
  {q : Prog α}

/-- A call that does not raise: the store may still refuse it. -/
def Calm : StepPredicate World Err Answer := fun _ e w w' => service.Exec e w w' ∧ ∀ m, e.answer ≠ .error (.raised m)

/-- Alone, with no call raising, from what is seen as `s`, the program ends as `Q` says. -/
def Comes (p : ProcessId) (q : Prog α) (s : View) (Q : Except Err α → View → Prop) : Prop :=
  ∀ h w, view w = s → Fresh p w →
    Sat Calm (fun _ _ _ _ => True) Eq (fun _ r w' => Q r (view w') ∧ Fresh p w') q h w

/-- It returns `a` and leaves what is seen as `s'`. -/
abbrev Gives (p : ProcessId) (q : Prog α) (s : View) (a : α) (s' : View) : Prop :=
  Comes p q s fun r t => r = .ok a ∧ t = s'

/-- It returns something and leaves what is seen. -/
abbrev Looks (p : ProcessId) (q : Prog α) (s : View) : Prop := Comes p q s fun r t => (∃ a, r = .ok a) ∧ t = s

theorem Comes.weaken (hq : Comes p q s Q) (h : ∀ r t, Q r t → Q' r t) : Comes p q s Q' :=
  fun hist w hw hfresh => (hq hist w hw hfresh).ending fun _ r _ hr => ⟨h r _ hr.1, hr.2⟩

theorem comes_done {a : α} (h : Q (.ok a) s) : Comes p (.done a) s Q := by
  rintro hist w rfl hfresh w' rfl
  exact ⟨h, hfresh⟩

theorem comes_raise {e : Err} (h : Q (.error e) s) : Comes p (.raise e) s Q := by
  rintro hist w rfl hfresh w' rfl
  exact ⟨h, hfresh⟩

/-- Sequencing. -/
theorem Comes.bind {f : α → Prog β} (hq : Comes p q s Q) (hok : ∀ a t, Q (.ok a) t → Comes p (f a) t Q'')
    (herr : ∀ e t, Q (.error e) t → Q'' (.error e) t) : Comes p (q.bind f) s Q'' :=
  fun hist w hw hfresh => (hq hist w hw hfresh).bind .eq
    (fun hist' a w' hr => hok a (view w') hr.1 hist' w' rfl hr.2) fun _ e _ hr => ⟨herr e _ hr.1, hr.2⟩

/-- What follows a known value. -/
theorem Gives.bind {a : α} {f : α → Prog β} (hq : Gives p q s a s') (hf : Comes p (f a) s' Q'') :
    Comes p (q.bind f) s Q'' := by
  refine Comes.bind hq (fun b t hb => ?_) fun e t he => by cases he.1
  obtain ⟨hb, rfl⟩ := hb
  injection hb with hb
  exact hb ▸ hf

/-- What follows a look at anything. -/
theorem Looks.bind {f : α → Prog β} (hq : Looks p q s) (hf : ∀ a, Comes p (f a) s Q'') : Comes p (q.bind f) s Q'' := by
  refine Comes.bind hq (fun a t ha => ?_) fun e t he => ?_
  · rw [ha.2]
    exact hf a
  · obtain ⟨a, ha⟩ := he.1
    contradiction

/-- Handling. -/
theorem Comes.catchError {f : Err → Prog α} (hq : Comes p q s Q) (hok : ∀ a t, Q (.ok a) t → Q' (.ok a) t)
    (herr : ∀ e t, Q (.error e) t → Comes p (f e) t Q') : Comes p (q.catchError f) s Q' :=
  fun hist w hw hfresh => (hq hist w hw hfresh).catchError .eq (fun _ a _ hr => ⟨hok a _ hr.1, hr.2⟩)
    fun hist' e w' hr => herr e (view w') hr.1 hist' w' rfl hr.2

/-- A program that returns is not handled. -/
theorem Gives.catchError {a : α} {f : Err → Prog α} (hq : Gives p q s a s') : Gives p (q.catchError f) s a s' :=
  Comes.catchError hq (fun _ _ h => h) fun e t he => by cases he.1

end Judgement

section Calls

variable {p : ProcessId} {s : View} {d : DocumentId} {v : Version}

/-- One action. -/
theorem comes_act (a : Action) {Q : Except Err (Answer a) → View → Prop}
    (h : ∀ w r w', view w = s → Fresh p w → service.Exec ⟨a, r⟩ w w' → (∀ m, r ≠ .error (.raised m)) →
      Q r (view w') ∧ Fresh p w') : Comes p (perform (B := Answer) a) s Q := by
  intro hist w hw hfresh
  refine Sat.perform ?_
  rintro _ rfl r w' ht
  refine ⟨trivial, ?_⟩
  rintro _ rfl
  exact h w r w' hw hfresh ht.1 ht.2

/-- A write of an object that is no record and no version index is not seen. -/
theorem put_unseen {w : World} {k : Key} (payload : Payload k) (hr : ∀ d, Key.documentRecord d ≠ k)
    (hi : ∀ d, Key.documentVersionIndex d ≠ k) (hfresh : Fresh p w) :
    view { w with objects := put w.objects k payload } = view w ∧ Fresh p { w with objects := put w.objects k payload } := by
  have hrecord (d : DocumentId) : World.record { w with objects := put w.objects k payload } d = w.record d :=
    World.record_put_of_ne payload (hr d)
  have hindex (d : DocumentId) : World.versionIndex { w with objects := put w.objects k payload } d = w.versionIndex d :=
    World.versionIndex_put_of_ne payload (hi d)
  refine ⟨View.ext (funext hrecord) (funext hindex) rfl rfl rfl rfl, ⟨fun d r h => ?_, fun d r h => ?_⟩⟩
  · exact hfresh.keyed d r ((hrecord d).symm.trans h)
  · exact (hrecord d).trans (hfresh.cached d r h)

/-- A call outside the JSON store, the caches apart. -/
theorem comes_call (x : ServiceCall) (hput : isCachePut x = false) {Q : Except Err (ServiceAnswer x) → View → Prop}
    (h : ∀ w r w', view w = s → service.Exec ⟨.other x, r⟩ w w' → (∀ m, r ≠ .error (.raised m)) → Q r (s.after ⟨.other x, r⟩)) :
    Comes p (DocumentService.call x) s Q := by
  refine comes_act (.other x) ?_
  rintro w r w' rfl hfresh ht hcalm
  have hrecord : w'.record = w.record := by
    funext d
    rw [record_of_exec ht]
    rfl
  have hindex : w'.versionIndex = w.versionIndex := by
    funext d
    rw [versionIndex_of_exec ht]
    rfl
  have hcache : w'.rest.cache p = w.rest.cache p := by
    funext d
    rw [cache_of_exec ht]
    cases x <;> first | rfl | contradiction
  have hvectors : w'.rest.vectors = vectorsAfter w.rest.vectors ⟨.other x, r⟩ := by
    rcases vectors_of_exec ht with hv | ⟨batch, n, m, heq, -⟩
    · exact hv
    · cases heq
      exact absurd rfl (hcalm m)
  have hview : view w' = (view w).after ⟨.other x, r⟩ := by
    unfold view View.after
    rw [hrecord, hindex, hvectors, (raw_jobs_of_exec ht).1, (raw_jobs_of_exec ht).2, chunks_of_exec ht]
  refine ⟨?_, ?_⟩
  · rw [hview]
    exact h w r w' rfl ht hcalm
  · constructor
    · rw [hrecord]
      exact hfresh.keyed
    · rw [hrecord, hcache]
      exact hfresh.cached

/-- Calls that only return something. -/
def isLook : ServiceCall → Bool
  | .parse _ _ _ _ | .splitNodes _ | .embedChunks _ | .encodeDocuments _ | .now | .newIngestionId _ => true
  | _ => false

/-- They return something. -/
theorem looks_call (x : ServiceCall) (hx : isLook x = true) : Looks p (DocumentService.call x) s := by
  refine comes_call x (by cases x <;> first | rfl | contradiction) fun w r w' _ ht hcalm => ⟨?_, ?_⟩
  · cases r with
    | ok b => exact ⟨b, rfl⟩
    | error e =>
      obtain ⟨o, rest, ho, -⟩ := exec_other ht
      cases x <;> cases o <;> first
        | contradiction
        | (cases ho <;> exact absurd rfl (hcalm _))
        | (simp only [perform?] at ho; split at ho <;> cases ho)
  · cases x <;> first | rfl | contradiction

/-- Calls that go through. -/
def isEffect : ServiceCall → Bool
  | .putRaw _ _ _ _ | .putChunks _ _ _ | .upsertBatch _ | .deleteDocument _ | .deleteDocumentVersion _ _
  | .deleteDocumentExceptVersion _ _ | .enqueue _ | .acknowledge _ => true
  | _ => false

/-- They have their effect. -/
theorem gives_call (x : ServiceCall) (hx : isEffect x = true) (u : ServiceAnswer x) :
    Gives p (DocumentService.call x) s u (s.after ⟨.other x, .ok u⟩) := by
  refine comes_call x (by cases x <;> first | rfl | contradiction) fun w r w' _ ht hcalm => ?_
  cases r with
  | ok b => cases x <;> first | exact ⟨rfl, rfl⟩ | contradiction
  | error e =>
    obtain ⟨o, rest, ho, -⟩ := exec_other ht
    cases x <;> cases o <;> first
      | contradiction
      | (cases ho <;> exact absurd rfl (hcalm _))

/-- A raw file is read, or is not there. -/
theorem comes_getRaw (suffix : String) : Comes p (DocumentService.call (.getRaw d v suffix)) s fun r t =>
    t = s ∧ ((∃ content, s.raw d v suffix = some content ∧ r = .ok content) ∨
      s.raw d v suffix = none ∧ r = .error (.app .notFound)) := by
  refine comes_call (.getRaw d v suffix) rfl fun w r w' hw ht hcalm => ⟨rfl, ?_⟩
  obtain ⟨o, rest, ho, -⟩ := exec_other ht
  have hraw : s.raw d v suffix = w.rest.raw d v suffix := by rw [← hw]; rfl
  rw [hraw]
  cases o with
  | proceed =>
    simp only [perform?] at ho
    split at ho
    · next content hc =>
      cases ho
      exact .inl ⟨content, hc, rfl⟩
    · next hc =>
      cases ho
      exact .inr ⟨hc, rfl⟩
  | raise m =>
    cases ho
    exact absurd rfl (hcalm m)
  | _ => contradiction

/-- Retained chunks are read. -/
theorem gives_getChunks : Gives p (DocumentService.call (.getChunks d v)) s ((s.chunks d v).getD []) s := by
  refine comes_call (.getChunks d v) rfl fun w r w' hw ht hcalm => ⟨?_, rfl⟩
  obtain ⟨o, rest, ho, -⟩ := exec_other ht
  have hchunks : s.chunks d v = w.rest.chunks d v := by rw [← hw]; rfl
  rw [hchunks]
  cases o with
  | proceed =>
    cases ho
    rfl
  | raise m =>
    cases ho
    exact absurd rfl (hcalm m)
  | _ => contradiction

/-- A version index is read. -/
theorem gives_getVersionIndex :
    Gives p (getJson (P := Payload) (.documentVersionIndex d) : Prog (Option DocumentVersionIndex)) s (s.index d) s := by
  refine comes_act (.getJson (.documentVersionIndex d)) ?_
  rintro w r w' rfl hfresh ht hcalm
  obtain ⟨rfl, rfl | ⟨m, rfl⟩⟩ := exec_getJson ht
  · exact ⟨⟨rfl, rfl⟩, hfresh⟩
  · exact absurd rfl (hcalm m)

/-- A record is read. -/
theorem gives_getDocument : Gives p (getDocument p d) s (s.record d) s := by
  rintro hist w rfl hfresh
  have hget := (getDocument_alone (w := w) (p := p) (d := d) hist).restrict fun h e w w' (ht : Calm h e w w') => ht.1
  have hraises : Raises (fun e => ∀ m, e ≠ .raised m) (getDocument p d) := by
    refine Raises.perform.bind fun cached => ?_
    cases trustedCopy cached with
    | some record => trivial
    | none =>
      refine Raises.perform.bind fun payload => ?_
      cases payload with
      | none => trivial
      | some record => exact Raises.perform.bind fun _ => trivial
  have hcalm := hraises.sat (T := Calm) (R := Eq) (fun _ _ _ _ ht err herr m heq => ht.2 m (herr.trans (congrArg _ heq))) hist w
  refine (hget.both hcalm).weaken (fun _ _ _ _ _ hg => trivial) fun _ r w' hq => ?_
  obtain ⟨⟨hloaded, hres⟩, hnot⟩ := hq
  obtain ⟨hfresh', hview⟩ := hfresh.loaded hloaded
  rcases hres with rfl | ⟨⟨m, rfl⟩, -⟩
  · exact ⟨⟨by rw [hfresh.copyOf]; rfl, hview⟩, hfresh'⟩
  · exact absurd rfl (hnot _ rfl m)

/-- A plain write of a derived object is not seen. -/
theorem gives_putJson {k : Key} (hk : Key.isDerived k = true) (payload : Payload k) :
    Gives p (putJson k payload : Prog Unit) s () s := by
  refine comes_act (.putJson k payload) ?_
  rintro w r w' rfl hfresh ht hcalm
  rcases exec_putJson ht with ⟨rfl, rfl⟩ | ⟨rfl, m, rfl⟩
  · obtain ⟨hview, hfresh'⟩ := put_unseen payload (by rintro d rfl; contradiction) (by rintro d rfl; contradiction) hfresh
    exact ⟨⟨rfl, hview⟩, hfresh'⟩
  · exact absurd rfl (hcalm m)

/-- Nor is the creation of an artifact, whether it is there already or not. -/
theorem gives_createArtifact {k : Key} (hk : Key.isArtifact k = true) (payload : Payload k) :
    Gives p (createArtifact k payload) s () s := by
  have hcreate : Comes p (createJson k payload : Prog Unit) s fun r t =>
      (r = .ok () ∨ r = .error (.preconditionFailed k)) ∧ t = s := by
    refine comes_act (.putJsonConditional k payload .ifNoneMatch) ?_
    rintro w r w' rfl hfresh ht hcalm
    rcases exec_putJsonConditional ht with ⟨rfl, -, rfl⟩ | ⟨rfl, ⟨rfl, -⟩ | ⟨m, rfl⟩⟩
    · obtain ⟨hview, hfresh'⟩ := put_unseen payload (by rintro d rfl; contradiction) (by rintro d rfl; contradiction) hfresh
      exact ⟨⟨.inl rfl, hview⟩, hfresh'⟩
    · exact ⟨⟨.inr rfl, rfl⟩, hfresh⟩
    · exact absurd rfl (hcalm m)
  refine hcreate.catchError (fun _ _ h => ⟨?_, h.2⟩) fun e t h => ?_
  · exact h.1.resolve_right (by simp)
  · obtain ⟨h, rfl⟩ := h
    have hrefused := h.resolve_left (by simp)
    injection hrefused with hrefused
    subst hrefused
    exact comes_done ⟨rfl, rfl⟩

/-- The update of a version index writes what it makes of the index, or raises what it raises. -/
theorem comes_updateIndex {mutate : Option DocumentVersionIndex → Except Err DocumentVersionIndex} :
    Comes p (updateJsonCas (P := Payload) (.documentVersionIndex d) mutate maxAttempts : Prog DocumentVersionIndex) s
      fun r t => r = mutate (s.index d) ∧ (∀ e, r = .error e → t = s) ∧ ∀ new, r = .ok new → t = s.list d new := by
  rintro hist w rfl hfresh
  refine updateJsonCas_alone (T := Calm) (fun _ _ _ _ ht => ht.1) (fun m ht => ?_) (fun e hm => ?_) (fun v c m _ ht => ?_)
    fun new c hm => ?_
  · exact absurd rfl (ht.2 m)
  · exact ⟨⟨hm.symm, fun _ _ => rfl, fun new hnew => by contradiction⟩, hfresh⟩
  · exact absurd rfl (ht.2 m)
  · have hview := view_putIndex w d new
    have hrecord (d' : DocumentId) :
        World.record { w with objects := put w.objects (.documentVersionIndex d) new } d' = w.record d' :=
      congrFun (congrArg View.record hview) d'
    refine ⟨⟨hm.symm, fun e he => by contradiction, fun new' hnew => ?_⟩, fun d' r h => ?_, fun d' r h => ?_⟩
    · injection hnew with hnew
      rw [hview, hnew]
    · exact hfresh.keyed d' r ((hrecord d').symm.trans h)
    · exact (hrecord d').trans (hfresh.cached d' r h)

/-- A guarded record write stores the record, or raises what the guard says. -/
theorem comes_saveDocumentRecord (record : DocumentRecord) :
    Comes p (saveDocumentRecord p record) s fun r t =>
      r = rejectIllegalWrite record (s.record record.id) ∧ (∀ e, r = .error e → t = s) ∧ (r = .ok () → t = s.save record) := by
  rintro hist w rfl hfresh
  have hpersist : Sat Calm (fun _ _ _ _ => True) Eq (fun _ r w' => r = rejectIllegalWrite record (w.record record.id) ∧
      (∀ e, r = .error e → w' = w) ∧
        (r = .ok () → w' = { w with objects := put w.objects (.documentRecord record.id) record }))
      (persistRecord record maxRecordCasAttempts) hist w := by
    rw [persistRecord_eq]
    have hcas : Sat Calm (fun _ _ _ _ => True) Eq (fun _ r w' => r = guarded record (w.record record.id) ∧
        (∀ e, r = .error e → w' = w) ∧
          ∀ new, r = .ok new → w' = { w with objects := put w.objects (.documentRecord record.id) new })
        (updateJsonCas (P := Payload) (.documentRecord record.id) (guarded record) maxRecordCasAttempts) hist w := by
      refine updateJsonCas_alone (T := Calm) (fun _ _ _ _ ht => ht.1) (fun m ht => ?_) (fun e hm => ?_)
        (fun v c m _ ht => ?_) fun new c hm => ?_
      · exact absurd rfl (ht.2 m)
      · exact ⟨hm.symm, fun _ _ => rfl, fun new hnew => by contradiction⟩
      · exact absurd rfl (ht.2 m)
      · refine ⟨hm.symm, fun e he => by contradiction, fun new' hnew => ?_⟩
        injection hnew with hnew
        rw [hnew]
    refine hcas.bind .eq (fun h new w' hq => ?_) fun h e w' hq => ?_
    · rintro _ rfl
      obtain ⟨rfl, hlegal⟩ := guarded_ok hq.1.symm
      exact ⟨hlegal.symm, fun e he => by contradiction, fun _ => hq.2.2 _ rfl⟩
    · refine ⟨?_, fun _ _ => hq.2.1 e rfl, fun he => by contradiction⟩
      have hguard := hq.1
      unfold guarded at hguard
      split at hguard
      · next e' he =>
        injection hguard with hguard
        rw [he, hguard]
      · contradiction
  refine hpersist.bind .eq (fun h u w' hq => ?_) fun h e w' hq => ?_
  · obtain ⟨hlegal, -, hstored⟩ := hq
    have hw : w' = { w with objects := put w.objects (.documentRecord record.id) record } := hstored rfl
    refine sat_call (.cachePut p record) ?_
    rintro _ rfl answer w'' ht
    refine ⟨trivial, ?_⟩
    rintro _ rfl
    obtain ⟨rfl, rfl⟩ := exec_cachePut ht.1
    have hrecord (d : DocumentId) : w'.record d = Function.update w.record record.id (some record) d := by
      rw [hw]
      exact congrFun (congrArg View.record (view_putRecord w record)) d
    refine ⟨⟨hlegal, fun e he => by contradiction, fun _ => ?_⟩, fun d r h => ?_, fun d r h => ?_⟩
    · rw [← view_putRecord, ← hw]
      rfl
    · rw [caching_record, hrecord] at h
      by_cases hd : d = record.id
      · rw [hd, Function.update_self, Option.some.injEq] at h
        rw [hd, h]
      · rw [Function.update_of_ne hd] at h
        exact hfresh.keyed d r h
    · rw [caching_record, hrecord]
      rw [caching_cache] at h
      split at h
      · next heq => rw [heq.2, Function.update_self, h]
      · next hne =>
        have hd : d ≠ record.id := fun heq => hne ⟨rfl, heq⟩
        rw [Function.update_of_ne hd]
        rw [hw] at h
        exact hfresh.cached d r h
  · obtain ⟨hlegal, hsame, -⟩ := hq
    have hw : w' = w := hsame e rfl
    subst hw
    exact ⟨⟨hlegal, fun _ _ => rfl, fun he => by contradiction⟩, hfresh⟩

end Calls

section Programs

variable {settings : Settings} {p : ProcessId} {s : View} {d : DocumentId} {v : Version} {record : DocumentRecord}

/-- A record write the guard lets pass. -/
theorem gives_saveDocumentRecord (h : rejectIllegalWrite record (s.record record.id) = .ok ()) :
    Gives p (saveDocumentRecord p record) s () (s.save record) :=
  (comes_saveDocumentRecord record).weaken fun r t hr => by
    rw [h] at hr
    exact ⟨hr.1, hr.2.2 hr.1⟩

/-- The guard lets a record of the same version follow a live one. -/
theorem rejectIllegalWrite_same {current : DocumentRecord} (hlive : current.status ≠ .deleted)
    (hversion : record.version = current.version) : rejectIllegalWrite record (some current) = .ok () := by
  simp only [rejectIllegalWrite, hlive, hversion, and_false, if_false, ne_eq, not_true_eq_false, false_and]

/-- Such a write. -/
theorem gives_saveSame {current : DocumentRecord} (hcurrent : s.record record.id = some current)
    (hlive : current.status ≠ .deleted) (hversion : record.version = current.version) :
    Gives p (saveDocumentRecord p record) s () (s.save record) :=
  gives_saveDocumentRecord (by rw [hcurrent]; exact rejectIllegalWrite_same hlive hversion)

/-- Batches are upserted one after the other. -/
theorem gives_upsertBatches (bs : List (List Chunk)) (s : View) :
    Gives p (upsertBatches bs) s () { s with vectors := upsertVectors s.vectors bs.flatten } := by
  induction bs generalizing s with
  | nil => exact comes_done ⟨rfl, rfl⟩
  | cons b bs ih =>
    have hfirst := gives_call (p := p) (s := s) (.upsertBatch b) rfl ()
    refine hfirst.bind ?_
    rw [List.flatten_cons, upsertVectors_append]
    exact ih _

/-- So are the chunks of an upsert. -/
theorem gives_upsert (chunks : List Chunk) :
    Gives p (upsert settings chunks) s () { s with vectors := upsertVectors s.vectors chunks } := by
  have hbatches := gives_upsertBatches (p := p) (batches settings.upsertBatchSize chunks) s
  rwa [IndexCalls.flatten_batches settings.upsertBatchSize_pos] at hbatches

theorem gives_embed (chunks : List Chunk) : Gives p (embed settings chunks) s () s := by
  have hlook (x : ServiceCall) (hx : isLook x = true) (u : ServiceAnswer x) (hu : ∀ a, a = u) :
      Gives p (DocumentService.call x) s u s :=
    (looks_call x hx).weaken fun r t hr => by
      obtain ⟨⟨a, rfl⟩, rfl⟩ := hr
      exact ⟨by rw [hu a], rfl⟩
  refine (hlook (.embedChunks chunks) rfl () fun _ => rfl).bind ?_
  split
  · exact hlook (.encodeDocuments chunks) rfl () fun _ => rfl
  · exact comes_done ⟨rfl, rfl⟩

theorem gives_recordIngestionEvent (status : IngestionStatus) (timestamp : String) (error : Option String) :
    Gives p (recordIngestionEvent d v status timestamp error) s () s :=
  (looks_call (.newIngestionId d) rfl).bind fun _ => gives_createArtifact rfl _

/-- The manifest of an ingested version. -/
def manifestAt (d : DocumentId) (v : Version) (timestamp : String) : DocumentVersion :=
  { documentId := d, version := v, createdAt := timestamp, indexed := true, vectorsPresent := true, sourceRetained := true }

/-- A success is recorded in the version index. -/
theorem comes_recordIngestionSuccess : Comes p (recordIngestionSuccess d v) s fun r t =>
    r = .ok () ∧ ∃ timestamp, t = s.list d (activateVersion d (manifestAt d v timestamp) (s.index d)) := by
  refine (looks_call .now rfl).bind fun timestamp => (gives_createArtifact rfl _).bind ?_
  refine (gives_recordIngestionEvent .succeeded timestamp none).bind ?_
  refine Comes.bind comes_updateIndex (fun new t ht => comes_done ⟨rfl, timestamp, ?_⟩) fun e t ht => ?_
  · obtain ⟨hnew, -, hlist⟩ := ht
    injection hnew with hnew
    rw [hlist new rfl, hnew]
    rfl
  · have herr := ht.1
    contradiction

/-- What the stages of an ingestion leave to see. -/
def View.staged (s : View) (record : DocumentRecord) (chunks : List Chunk) : View :=
  { s with
    record := Function.update s.record record.id (some (atStage record .embedding))
    chunks := chunksAfter s.chunks ⟨.other (.putChunks record.id record.version chunks), .ok ()⟩
    vectors := upsertVectors s.vectors chunks }

/-- What an ingestion that goes through leaves to see: the record published,
the version listed and active, its chunks retained and indexed, and no vectors
of the document's other versions. -/
def View.ingested (s : View) (record : DocumentRecord) (chunks : List Chunk) (timestamp : String) : View :=
  { s with
    record := Function.update s.record record.id (some (published record))
    index := Function.update s.index record.id
      (some (activateVersion record.id (manifestAt record.id record.version timestamp) (s.index record.id)))
    chunks := chunksAfter s.chunks ⟨.other (.putChunks record.id record.version chunks), .ok ()⟩
    vectors := deleteVectors (upsertVectors s.vectors chunks) fun c =>
      c.documentId = record.id ∧ c.version ≠ record.version }

/-- The chunks an ingestion cuts. -/
abbrev cut (settings : Settings) (record : DocumentRecord) (markdown : String) (nodes : List String) : List Chunk :=
  chunkNodes settings ⟨record.id, record.version, markdown⟩ nodes

/-- The stages go through where the stored record is live and of the version. -/
theorem comes_ingestStages (content : Bytes) {current : DocumentRecord} (hcurrent : s.record record.id = some current)
    (hlive : current.status ≠ .deleted) (hversion : record.version = current.version) :
    Comes p (ingestStages settings p record content) s fun r t => ∃ markdown nodes,
      r = .ok (cut settings record markdown nodes) ∧ t = s.staged record (cut settings record markdown nodes) := by
  have hstage (status status' : DocumentStatus) (hstatus : status ≠ .deleted) {t : View}
      (ht : t.record record.id = some (atStage record status)) :
      Gives p (saveDocumentRecord p (atStage record status')) t () (t.save (atStage record status')) :=
    gives_saveSame ht hstatus rfl
  have hparsing : Gives p (saveDocumentRecord p (atStage record .parsing)) s () (s.save (atStage record .parsing)) :=
    gives_saveSame hcurrent hlive hversion
  refine hparsing.bind ((looks_call (.parse _ _ _ _) rfl).bind fun markdown => ?_)
  refine (gives_putJson rfl _).bind ?_
  refine (hstage .parsing .chunking (by simp) (Function.update_self _ _ _)).bind ?_
  refine (looks_call (.splitNodes _) rfl).bind fun nodes => ?_
  refine (gives_call (.putChunks record.id record.version (cut settings record markdown nodes)) rfl ()).bind ?_
  refine (hstage .chunking .embedding (by simp) (Function.update_self _ _ _)).bind ?_
  refine (gives_embed _).bind ((gives_upsert _).bind (comes_done ⟨markdown, nodes, rfl, ?_⟩))
  refine View.ext ?_ rfl rfl rfl rfl rfl
  simp only [View.save, View.after, View.staged, atStage, Function.update_idem]

/-- An ingestion of the version the stored record names goes through, whatever
the parser and the splitter make of the file. -/
theorem comes_runIngestion (content : Bytes) {current : DocumentRecord} (hcurrent : s.record record.id = some current)
    (hlive : current.status ≠ .deleted) (hversion : record.version = current.version) :
    Comes p (runIngestion settings p record content) s fun r t => r = .ok (published record) ∧
      ∃ markdown nodes timestamp, t = s.ingested record (cut settings record markdown nodes) timestamp := by
  refine Comes.catchError (Q := fun r t => r = .ok (published record) ∧
    ∃ markdown nodes timestamp, t = s.ingested record (cut settings record markdown nodes) timestamp) ?_
    (fun _ _ h => h) fun e t h => by cases h.1
  refine Comes.bind (comes_ingestStages content hcurrent hlive hversion) (fun chunks t h => ?_) fun e t h => ?_
  · obtain ⟨markdown, nodes, hchunks, rfl⟩ := h
    injection hchunks with hchunks
    subst hchunks
    have hstaged : (s.staged record (cut settings record markdown nodes)).record record.id =
        some (atStage record .embedding) := Function.update_self _ _ _
    have hpublish : Gives p (saveDocumentRecord p (published record)) (s.staged record (cut settings record markdown nodes))
        () ((s.staged record (cut settings record markdown nodes)).save (published record)) :=
      gives_saveSame hstaged (by simp [atStage]) rfl
    refine (gives_putJson rfl _).bind (hpublish.bind ?_)
    refine Comes.bind comes_recordIngestionSuccess (fun u t ht => ?_) fun e t ht => by cases ht.1
    obtain ⟨-, timestamp, rfl⟩ := ht
    have hcleanup := (gives_call (p := p) (s := ((s.staged record (cut settings record markdown nodes)).save
      (published record)).list record.id (activateVersion record.id (manifestAt record.id record.version timestamp)
        (s.index record.id))) (.deleteDocumentExceptVersion record.id record.version) rfl ()).catchError
      (f := fun _ => .done ())
    refine hcleanup.bind (comes_done ⟨rfl, markdown, nodes, timestamp, ?_⟩)
    refine View.ext ?_ rfl rfl rfl rfl rfl
    simp only [View.save, View.list, View.after, View.staged, View.ingested, published, Function.update_idem]
  · obtain ⟨markdown, nodes, herr, -⟩ := h
    contradiction

end Programs

end RagSystem.CalmRuns
