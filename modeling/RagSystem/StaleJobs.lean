import RagSystem.RecordCaches

/-!
# Jobs taken for stale

`process_document_job` compares the job's version with that of the record
`get_document` answers, which may be a cached one. As long as no newer upload
replaces the stored record, it takes the job for stale exactly if its process
still trusts a record of another version.
-/

namespace RagSystem.StaleJobs

open AtomicProgram ThreadPool RelyGuarantee VersionedCell Storage CompareAndSwap DocumentModels
  DocumentStore DocumentService CallEffects StoreCalls LegalWrites RecordCaches

set_option autoImplicit false

section Ends

/-- The result is the exception for stale jobs. -/
def Stale {α : Type} (res : Except Err α) : Prop := ∃ d a c, res = .error (.app (.staleIngestion d a c))

instance {α : Type} (res : Except Err α) : Decidable (Stale res) :=
  match res with
  | .error (.app (.staleIngestion d a c)) => isTrue ⟨d, a, c, rfl⟩
  | .ok _ => isFalse nofun
  | .error (.preconditionFailed _) => isFalse nofun
  | .error (.raised _) => isFalse nofun
  | .error (.app (.documentDeleted _)) => isFalse nofun
  | .error (.app (.versionNotFound _ _)) => isFalse nofun
  | .error (.app (.valueError _)) => isFalse nofun
  | .error (.app (.runtimeError _)) => isFalse nofun
  | .error (.app .notFound) => isFalse nofun

/-- The cached record is trusted, live, and of another version than the job's. -/
def OutOfDate (job : IngestionJob) (cached : Option DocumentRecord) : Prop :=
  ∃ r, trustedCopy cached = some r ∧ r.status ≠ .deleted ∧ r.version ≠ job.version

/-- The operation began by reading its cache and found this. -/
def Took (p : ProcessId) (job : IngestionJob) (cached : Option DocumentRecord) (h : History Err Answer) :
    Prop := ∃ rest, h = ⟨.other (.cacheGet p job.documentId), .ok cached⟩ :: rest

/-- The job's source was asked for: ingestion was begun. -/
def Ran (job : IngestionJob) (h : History Err Answer) : Prop :=
  ∃ e ∈ h, e.action = .other (.getRaw job.documentId job.version (rawSuffix job.filename))

/-- The job's message was acknowledged. -/
def Acked (job : IngestionJob) (h : History Err Answer) : Prop :=
  ∃ e ∈ h, e.action = .other (.acknowledge job)

instance (job : IngestionJob) (h : History Err Answer) : Decidable (Ran job h) :=
  inferInstanceAs (Decidable (∃ e ∈ h, _))

instance (job : IngestionJob) (h : History Err Answer) : Decidable (Acked job h) :=
  inferInstanceAs (Decidable (∃ e ∈ h, _))

/-- The record a read of the cache or of the store found. -/
def recordFound : CallEvent → Option DocumentRecord
  | ⟨.other (.cacheGet _ _), .ok r⟩ => r
  | ⟨.getJson (.documentRecord _), .ok r⟩ => r
  | _ => none

/-- Some read found the record deleted. -/
def FoundDeleted (h : History Err Answer) : Prop :=
  ∃ e ∈ h, ∃ r, recordFound e = some r ∧ r.status = .deleted

/-- How a job ends. -/
def JobEnd {α : Type} (p : ProcessId) (job : IngestionJob) (h : History Err Answer) (res : Except Err α)
    (_ : World) : Prop :=
  ¬ Acked job h ∧ ∃ cached, Took p job cached h ∧
    (OutOfDate job cached → Stale res ∧ ¬ Ran job h ∧ ¬ FoundDeleted h) ∧
    (¬ OutOfDate job cached → ¬ Stale res ∧ (Ran job h ∨ FoundDeleted h ∨ ∃ e, res = .error e ∧ Ordinary e))

/-- How a job ended depends on the exception it ended with only. -/
theorem JobEnd.of_errors {α β : Type} {p : ProcessId} {job : IngestionJob} {h : History Err Answer}
    {res : Except Err α} {res' : Except Err β} {w w' : World} (hq : JobEnd p job h res w)
    (hres : ∀ e, res' = .error e ↔ res = .error e) : JobEnd p job h res' w' := by
  have hstale : Stale res' ↔ Stale res :=
    exists_congr fun _ => exists_congr fun _ => exists_congr fun _ => hres _
  obtain ⟨hack, cached, ht, hold, hnew⟩ := hq
  refine ⟨hack, cached, ht, fun ho => ⟨hstale.mpr (hold ho).1, (hold ho).2⟩, fun ho => ⟨?_, ?_⟩⟩
  · exact fun h => (hnew ho).1 (hstale.mp h)
  · exact (hnew ho).2.imp_right fun hr => hr.imp_right fun ⟨e, he, hord⟩ => ⟨e, (hres e).mpr he, hord⟩

/-- What began so still did. -/
theorem Took.append {p : ProcessId} {job : IngestionJob} {cached : Option DocumentRecord}
    {h : History Err Answer} (ht : Took p job cached h) (e : CallEvent) : Took p job cached (h ++ [e]) := by
  obtain ⟨rest, rfl⟩ := ht
  exact ⟨rest ++ [e], rfl⟩

/-- Another exception than the one for stale jobs. -/
def NotStale (e : Err) : Prop := ∀ d a v, e ≠ .app (.staleIngestion d a v)

/-- An ordinary exception is another one. -/
theorem notStale_of_ordinary {e : Err} (h : Ordinary e) : NotStale e := by
  rintro d a v rfl
  exact h

end Ends

section Acknowledging

/-- A call that acknowledges no message. -/
def Unacknowledging (a : Action) : Prop := ∀ job, a ≠ .other (.acknowledge job)

/-- Nothing an operation does on the way acknowledges a message. -/
theorem uses_steps {α : Type} {p : Prog α} (hp : Composed Step p) : p.Uses Unacknowledging := by
  have hpermits : Permits Unacknowledging :=
    { call := fun x hx job he => by injection he with he; rw [he] at hx; contradiction
      getVersionIndex := fun _ => nofun
      putDerived := fun _ _ _ => nofun
      create := fun _ _ _ => nofun
      readIndex := fun _ => nofun
      putIndex := fun _ _ _ => nofun }
  refine hp.uses fun β p hp => ?_
  cases hp with
  | saveDocumentRecord p r => exact uses_saveDocumentRecord nofun (fun _ => nofun) nofun
  | part hp =>
    cases hp with
    | getDocument p d => exact uses_getDocument nofun nofun fun _ => nofun
    | inner hp => exact hpermits.uses_inner hp

/-- What began so and acknowledged nothing still did. -/
theorem took_append {p : ProcessId} {job : IngestionJob} {cached : Option DocumentRecord}
    (h : History Err Answer) (e : CallEvent) (he : Unacknowledging e.action)
    (ht : Took p job cached h ∧ ¬ Acked job h) : Took p job cached (h ++ [e]) ∧ ¬ Acked job (h ++ [e]) := by
  refine ⟨ht.1.append e, ?_⟩
  rintro ⟨e', hin, hack⟩
  rcases List.mem_append.mp hin with hin | hin
  · exact ht.2 ⟨e', hin, hack⟩
  · rw [List.mem_singleton] at hin
    rw [hin] at hack
    exact he job hack

end Acknowledging

section Job

/-- The stored record of the job's document is deleted, or of the job's version. -/
def Current (job : IngestionJob) (w : World) : Prop :=
  Grounded w ∧ ∃ r, w.record job.documentId = some r ∧ (r.status = .deleted ∨ r.version = job.version)

/-- What others do, without a newer upload. -/
def Held (job : IngestionJob) (w w' : World) : Prop := Writers w w' ∧ (Current job w → Current job w')

variable {job : IngestionJob} {p : ProcessId}

/-- That is a rely. -/
theorem held_rely (job : IngestionJob) : IsRely (Held job) :=
  ⟨fun _ => ⟨.refl _, id⟩, fun h h' => ⟨h.1.trans h'.1, fun hw => h'.2 (h.2 hw)⟩⟩

/-- Nobody can falsify it. -/
theorem current_stable (job : IngestionJob) :
    Stable (Held job) (fun (_ : History Err Answer) w => Current job w) := fun _ _ _ hr hw => hr.2 hw

/-- A call outside the JSON store that caches nothing leaves it. -/
theorem Current.of_call {w w' : World} {x : ServiceCall} {r : Except Err (ServiceAnswer x)}
    (hw : Current job w) (hx : isInner x = true) (h : service.Exec ⟨.other x, r⟩ w w') : Current job w' := by
  refine ⟨hw.1.of_exec h nofun fun p r hc => ?_, ?_⟩
  · cases x <;> contradiction
  · rw [record_of_exec h]
    exact hw.2

/-- Such a call, with what it raises. -/
theorem sat_call {x : ServiceCall} (hx : isInner x = true) (h : History Err Answer) {w : World}
    (hw : Current job w) :
    Sat Happens (fun _ _ _ _ => True) (Held job)
      (fun _ res w => Current job w ∧ ∀ e, res = .error e → Ordinary e) (call x) h w := by
  have hkeep : Keeps Happens (fun _ _ _ _ => True) (Held job) (fun _ w => Current job w) (call x) :=
    Keeps.perform (current_stable job) fun h w r w' hw ht => ⟨trivial, hw.of_call hx ht⟩
  have hraise := (raises_call x).sat (T := Happens) (R := Held job)
    (fun _ e w w' ht err he => exec_ordinary ht err he) h w
  exact ((hkeep h w hw).both hraise).weaken (fun _ _ _ _ _ _ => trivial) fun _ _ _ hq => hq

/-- The guard does not take a live record of a version for stale where the
stored one is deleted or of that version. -/
theorem guarded_not_stale {record c : DocumentRecord} {e : Err} (hlive : record.status ≠ .deleted)
    (hc : c.status = .deleted ∨ c.version = record.version) (h : guarded record (some c) = .error e) :
    NotStale e := by
  rintro d a v rfl
  unfold guarded at h
  split at h
  · next hr =>
    cases h
    simp only [rejectIllegalWrite] at hr
    split at hr
    · simp only [Except.error.injEq, StoreError.app.injEq, reduceCtorEq] at hr
    · next hdel =>
      split at hr
      · next hversion =>
        rcases hc with hc | hc
        · exact hdel ⟨hlive, hc⟩
        · exact hversion.1 hc.symm
      · contradiction
  · contradiction

/-- A guarded write of a live record of the job's version is not refused as stale. -/
theorem sat_saveDocumentRecord (p : ProcessId) {record : DocumentRecord} (hid : record.id = job.documentId)
    (hversion : record.version = job.version) (hlive : record.status ≠ .deleted) (h : History Err Answer)
    {w : World} (hw : Current job w) :
    Sat Happens (fun _ _ _ _ => True) (Held job) (fun _ res _ => ∀ e, res = .error e → NotStale e) (saveDocumentRecord p record) h w := by
  have rule : CasRule (P := Payload) Happens (fun _ _ _ _ => True) (Held job) (.documentRecord record.id)
      (guarded record) (fun _ w => Current job w)
      (fun cur _ w => Current job w ∧
        ∀ c, cur.map Prod.fst = some c → c.status = .deleted ∨ c.version = record.version)
      (fun _ res _ => ∀ e, res = .error e → NotStale e) :=
    { stableI := current_stable job
      stableJ := fun _ h w w' hr hj => ⟨current_stable job h w w' hr hj.1, hj.2⟩
      read := fun h w hw _ => by
        refine ⟨trivial, hw, fun c hc => ?_⟩
        obtain ⟨-, r, hr, hcur⟩ := hw
        rw [tagged_map_fst, hid] at hc
        have heq : some r = some c := hr.symm.trans hc
        rw [Option.some.injEq] at heq
        rw [← heq, hversion]
        exact hcur
      readRaised := fun _ _ _ _ _ => ⟨trivial, fun _ _ _ he => by cases he; nofun⟩
      rejected := fun _ _ cur e hj he e' heq => by
        rw [Except.error.injEq] at heq
        rw [← heq]
        cases hc : cur.map Prod.fst with
        | none =>
          rw [hc] at he
          contradiction
        | some c =>
          rw [hc] at he
          exact guarded_not_stale hlive (hj.2 c hc) he
      written := fun _ _ _ _ _ _ _ _ => ⟨trivial, fun _ _ => nofun⟩
      refused := fun _ _ _ _ hj _ _ => ⟨trivial, hj.1⟩
      putRaised := fun _ _ _ _ _ _ _ _ => ⟨trivial, fun _ _ _ he => by cases he; nofun⟩
      exhausted := fun _ _ _ _ he => by cases he; nofun }
  have hraise (h : History Err Answer) (w : World) :=
    (raises_call (.cachePut p record)).sat (T := Happens) (R := Held job)
      (fun _ _ _ _ ht err he => exec_ordinary ht err he) h w
  refine Sat.bind (held_rely job) (Q := fun _ res _ => ∀ e, res = .error e → NotStale e) ?_ (fun h _ w _ => ?_)
    fun h e w hq e' he => hq e' (by rw [Except.error.injEq] at he ⊢; exact he)
  · rw [persistRecord_eq]
    refine (rule.sat (fun _ _ _ _ ht => ht) (fun _ _ hr => hr.1 _) _ hw).bind (held_rely job)
      (fun h _ w _ => .done fun _ _ => nofun) fun h e w hq e' he => hq e' ?_
    rw [Except.error.injEq] at he ⊢
    exact he
  · exact (hraise h w).ending fun _ _ _ hq e he => notStale_of_ordinary (hq e he)

/-- Reading the source and ingesting does not end with the exception for stale
jobs. -/
theorem sat_ingest (settings : Settings) (p : ProcessId) {record : DocumentRecord}
    (hid : record.id = job.documentId) (hversion : record.version = job.version) (h : History Err Answer)
    {w : World} (hw : Current job w) :
    Sat Happens (fun _ _ _ _ => True) (Held job) (fun _ res _ => ∀ e, res = .error e → NotStale e)
      ((readSource p record job).bind fun content => runIngestion settings p record content) h w := by
  have hraise (content : Bytes) (h : History Err Answer) (w : World) :=
    (raises_runIngestion settings p record content).sat (T := Happens) (R := Held job)
      (fun _ _ _ _ ht err he => exec_ordinary ht err he) h w
  refine Sat.bind (held_rely job) (Q := fun _ res _ => ∀ e, res = .error e → NotStale e) ?_
    (fun h content w _ => ?_) fun h e w hq e' he => hq e' (by rw [Except.error.injEq] at he ⊢; exact he)
  · refine (sat_call rfl h hw).catchError (held_rely job) (fun _ _ _ _ => nofun) fun h e w hq => ?_
    refine (sat_call rfl h hq.1).catchError (held_rely job) (fun _ _ _ _ => nofun) fun h exc w hq => ?_
    have hid' : (failedWith record exc).id = job.documentId := hid
    have hsave := sat_saveDocumentRecord p hid' hversion nofun h hq.1
    refine hsave.bind (held_rely job) (fun h _ w _ => ?_) fun h e w hs e' he => hs e' ?_
    · refine .raise fun _ _ e he => ?_
      rw [Except.error.injEq] at he
      exact notStale_of_ordinary (hq.2 e (congrArg Except.error he))
    · rw [Except.error.injEq] at he ⊢
      exact he
  · exact (hraise content h w).ending fun _ _ _ hq e he => notStale_of_ordinary (hq e he)

/-- A job from the moment it has its record, when the cache it read was not out
of date. -/
theorem sat_afterCopy (settings : Settings) {cached : Option DocumentRecord} (hdate : ¬ OutOfDate job cached)
    {record : DocumentRecord} (hid : record.id = job.documentId)
    (hversion : record.status = .deleted ∨ record.version = job.version) {h : History Err Answer} {w : World}
    (ht : Took p job cached h) (hack : ¬ Acked job h) (hfound : record.status = .deleted → FoundDeleted h)
    (hw : Current job w) :
    Sat Happens (fun _ _ _ _ => True) (Held job) (JobEnd p job)
      (processRecord settings p job record) h w := by
  unfold processRecord
  by_cases hdel : record.status = .deleted
  · rw [if_pos hdel]
    refine .raise fun _ _ => ⟨hack, cached, ht, fun ho => absurd ho hdate, fun _ => ⟨?_, .inr (.inl (hfound hdel))⟩⟩
    rintro ⟨d, a, v, he⟩
    simp only [Except.error.injEq, StoreError.app.injEq, reduceCtorEq] at he
  · have hver := hversion.resolve_left hdel
    rw [if_neg hdel, if_neg fun hne => hne hver]
    have hcomposed : Composed Step ((readSource p record job).bind fun content =>
        runIngestion settings p record content) :=
      .bind (Write.steps (composed_readSource (K := fun _ => True) p job fun _ => trivial)) fun content =>
        composed_runIngestion settings p record content
    -- the first call asks for the source; the history keeps that from then on
    have hran : Sat Happens (fun _ _ _ _ => True) (Held job) (fun h _ _ =>
        (Took p job cached h ∧ ¬ Acked job h) ∧ Ran job h) ((readSource p record job).bind fun content =>
        runIngestion settings p record content) h w := by
      have huses := uses_steps hcomposed
      intro w' hw' r w'' hstep
      have hunack : Unacknowledging (.other (.getRaw job.documentId job.version (rawSuffix job.filename))) := nofun
      have hkeep := Keeps.of_uses (T := Happens) (G := fun _ _ _ _ => True) (R := Held job)
        (I := fun h _ => (Took p job cached h ∧ ¬ Acked job h) ∧ Ran job h) (fun _ _ _ _ hp => hp) (huses.2 r)
        fun h e _ _ he hp _ => ⟨trivial, took_append h e he hp.1,
          hp.2.imp fun _ hr => ⟨List.mem_append_left _ hr.1, hr.2⟩⟩
      exact ⟨trivial, hkeep _ _ ⟨took_append h _ hunack ⟨ht, hack⟩, _,
        List.mem_append_right _ (List.mem_singleton_self _), rfl⟩⟩
    refine ((sat_ingest settings p hid hver h hw).both hran).weaken (fun _ _ _ _ _ _ => trivial)
      fun h res w hq => ⟨hq.2.1.2, cached, hq.2.1.1, fun ho => absurd ho hdate, fun _ => ⟨?_, .inl hq.2.2⟩⟩
    rintro ⟨d, a, v, he⟩
    exact hq.1 _ he d a v rfl

/-- A whole job, from a state in which the stored record is the job's. -/
theorem sat_processDocumentJob (settings : Settings) (p : ProcessId) {w : World} (hw : Current job w) :
    Sat Happens (fun _ _ _ _ => True) (Held job) (JobEnd p job) (processDocumentJob settings p job) [] w := by
  intro w₁ hw₁ r₁ w₂ ht₁
  obtain ⟨rfl, rfl⟩ := exec_cacheGet ht₁
  have hcur := hw₁.2 hw
  have htook : Took p job (w₂.rest.cache p job.documentId)
      ([] ++ [⟨.other (.cacheGet p job.documentId), .ok (w₂.rest.cache p job.documentId)⟩]) := ⟨[], rfl⟩
  have hack : ¬ Acked job
      ([] ++ [⟨.other (.cacheGet p job.documentId), .ok (w₂.rest.cache p job.documentId)⟩]) := by
    rintro ⟨e, he, h⟩
    rw [List.nil_append, List.mem_singleton] at he
    rw [he] at h
    cases h
  refine ⟨trivial, ?_⟩
  dsimp only [Program.bind]
  cases hc : trustedCopy (w₂.rest.cache p job.documentId) with
  | some record =>
    have hcached : w₂.rest.cache p job.documentId = some record := by
      rw [trustedCopy, Option.filter_eq_some_iff] at hc
      exact hc.1
    have hid := (hcur.1.cached p job.documentId record hcached).1
    dsimp only [Program.bind, pure_eq]
    by_cases hold : record.status ≠ .deleted ∧ record.version ≠ job.version
    · unfold processRecord
      rw [if_neg hold.1, if_pos hold.2]
      refine .raise fun _ _ => ⟨hack, _, htook, fun _ => ⟨⟨_, _, _, rfl⟩, ?_, ?_⟩,
        fun hdate => absurd ⟨record, hc, hold.1, hold.2⟩ hdate⟩
      · rintro ⟨e, he, h⟩
        rw [List.nil_append, List.mem_singleton] at he
        rw [he] at h
        cases h
      · rintro ⟨e, he, r, hr, hdel⟩
        rw [List.nil_append, List.mem_singleton] at he
        rw [he] at hr
        have heq : some record = some r := hcached.symm.trans hr
        rw [Option.some.injEq] at heq
        exact hold.1 (heq ▸ hdel)
    · refine sat_afterCopy settings ?_ hid (Decidable.or_iff_not_not_and_not.mpr hold) htook hack (fun hdel => ?_) hcur
      · rintro ⟨r, hr, hlive, hver⟩
        rw [hc, Option.some.injEq] at hr
        exact hold ⟨hr ▸ hlive, hr ▸ hver⟩
      · exact ⟨_, List.mem_append_right _ (List.mem_singleton_self _), record, hcached, hdel⟩
  | none =>
    have hdate : ¬ OutOfDate job (w₂.rest.cache p job.documentId) := by
      rintro ⟨r, hr, -⟩
      rw [hc] at hr
      contradiction
    intro w₃ hw₃ r₃ w₄ ht₃
    have hcur₃ := hw₃.2 hcur
    obtain ⟨hack', htook'⟩ := (took_append _ ⟨.getJson (.documentRecord job.documentId), r₃⟩ nofun ⟨htook, hack⟩).symm
    obtain ⟨rfl, rfl | ⟨m, rfl⟩⟩ := exec_getJson ht₃
    · obtain ⟨record, hrecord, hversion⟩ := hcur₃.2
      have hcontent : (w₄.objects (.documentRecord job.documentId)).content = some record := hrecord
      rw [hcontent] at hack' htook' ⊢
      refine ⟨trivial, ?_⟩
      dsimp only [Program.bind]
      intro w₅ hw₅ r₅ w₆ ht₅
      have hcur₅ := hw₅.2 hcur₃
      have hid := hcur₃.1.keyed _ _ hrecord
      obtain ⟨hack₅, htook₅⟩ := (took_append _ ⟨.other (.cachePut p record), r₅⟩ nofun ⟨htook', hack'⟩).symm
      have hcur₆ : Current job w₆ := by
        refine ⟨hcur₅.1.of_exec ht₅ nofun fun p' r hr => ?_, ?_⟩
        · simp only [recordCached, Option.some.injEq, Prod.mk.injEq] at hr
          obtain ⟨r', hr', -⟩ := hcur₅.2
          rw [← hr.2, hid, hr']
          rfl
        · rw [record_of_exec ht₅]
          exact hcur₅.2
      obtain ⟨rfl, -⟩ := exec_cachePut ht₅
      refine ⟨trivial, ?_⟩
      dsimp only [Program.bind, pure_eq]
      refine sat_afterCopy settings hdate hid hversion htook₅ hack₅ (fun hdel => ?_) hcur₆
      refine ⟨⟨.getJson (.documentRecord job.documentId), .ok (some record)⟩, ?_, record, rfl, hdel⟩
      exact List.mem_append_left _ (List.mem_append_right _ (List.mem_singleton_self _))
    · refine ⟨trivial, ?_⟩
      refine .raise fun _ _ => ⟨hack', _, htook', fun ho => absurd ho hdate, fun _ => ⟨?_, ?_⟩⟩
      · rintro ⟨d, a, v, he⟩
        cases he
      · exact .inr (.inr ⟨_, rfl, trivial⟩)

end Job

section Message

variable {job : IngestionJob} {p : ProcessId}

/-- How the handling of a message ends: if it acknowledged the message, then
without having begun ingestion, or found the document deleted, exactly if the
cache it read was out of date. -/
def MessageEnd (p : ProcessId) (job : IngestionJob) (h : History Err Answer) : Prop :=
  ∃ cached, Took p job cached h ∧ (Acked job h → (Ran job h ∨ FoundDeleted h ↔ ¬ OutOfDate job cached))

/-- One acknowledgement more. -/
theorem messageEnd_ack {h : History Err Answer} {cached : Option DocumentRecord} (ht : Took p job cached h)
    (hiff : Ran job h ∨ FoundDeleted h ↔ ¬ OutOfDate job cached) (r : Except Err Unit) :
    MessageEnd p job (h ++ [⟨.other (.acknowledge job), r⟩]) := by
  refine ⟨cached, ht.append _, fun _ => ?_⟩
  rw [← hiff]
  constructor
  · rintro (⟨e, he, hr⟩ | ⟨e, he, hr⟩)
    · rcases List.mem_append.mp he with he | he
      · exact .inl ⟨e, he, hr⟩
      · rw [List.mem_singleton] at he
        rw [he] at hr
        cases hr
    · rcases List.mem_append.mp he with he | he
      · exact .inr ⟨e, he, hr⟩
      · rw [List.mem_singleton] at he
        rw [he] at hr
        obtain ⟨r', hr', -⟩ := hr
        cases hr'
  · rintro (⟨e, he, hr⟩ | ⟨e, he, hr⟩)
    · exact .inl ⟨e, List.mem_append_left _ he, hr⟩
    · exact .inr ⟨e, List.mem_append_left _ he, hr⟩

/-- A job that ended otherwise than with an ordinary exception began ingestion
or found the document deleted exactly if its cache was not out of date. -/
theorem ran_iff {α : Type} {h : History Err Answer} {res : Except Err α} {cached : Option DocumentRecord}
    (hres : ∀ e, res = .error e → ¬ Ordinary e)
    (hold : OutOfDate job cached → Stale res ∧ ¬ Ran job h ∧ ¬ FoundDeleted h)
    (hnew : ¬ OutOfDate job cached →
      ¬ Stale res ∧ (Ran job h ∨ FoundDeleted h ∨ ∃ e, res = .error e ∧ Ordinary e)) :
    Ran job h ∨ FoundDeleted h ↔ ¬ OutOfDate job cached := by
  constructor
  · intro hran ho
    exact hran.elim (hold ho).2.1 (hold ho).2.2
  · intro ho
    rcases (hnew ho).2 with hran | hdel | ⟨e, he, hord⟩
    · exact .inl hran
    · exact .inr hdel
    · exact absurd hord (hres e he)

/-- The acknowledgement of a message whose job ended otherwise than with an
ordinary exception. -/
theorem sat_acknowledge {α : Type} {h : History Err Answer} {w : World} {res : Except Err α}
    (hq : JobEnd p job h res w) (hres : ∀ e, res = .error e → ¬ Ordinary e) :
    Sat Happens (fun _ _ _ _ => True) (Held job)
      (fun h res _ => MessageEnd p job h ∧ ∀ e, res = .error e → Ordinary e) (call (.acknowledge job)) h w := by
  obtain ⟨-, cached, ht, hold, hnew⟩ := hq
  refine Sat.perform (T := Happens) (G := fun _ _ _ _ => True) fun w' _ r w'' hstep => ⟨trivial, fun _ _ => ?_⟩
  exact ⟨messageEnd_ack ht (ran_iff hres hold hnew) r, fun e he => exec_ordinary hstep e he⟩

/-- The handling of a message, from a state in which the stored record is the
job's. -/
theorem sat_processMessage (settings : Settings) (p : ProcessId) {w : World} (hw : Current job w) :
    Sat Happens (fun _ _ _ _ => True) (Held job) (fun h _ _ => MessageEnd p job h)
      (processMessage settings p job) [] w := by
  -- an exception comes from the job, or from the acknowledgement that followed it
  refine Sat.catchError (held_rely job) (Q := fun h res w => JobEnd p job h res w ∨
    (MessageEnd p job h ∧ ∀ e, res = .error e → Ordinary e)) ?_ (fun h u w hq => ?_) fun h e w hq => ?_
  · refine (sat_processDocumentJob settings p hw).bind (held_rely job) (fun h record w hq => ?_)
      fun h e w hq => .inl (hq.of_errors fun e => by rw [Except.error.injEq, Except.error.injEq])
    exact (sat_acknowledge hq nofun).ending fun _ _ _ => .inr
  · rcases hq with ⟨hack, cached, ht, -⟩ | ⟨hend, -⟩
    · exact ⟨cached, ht, fun h => absurd h hack⟩
    · exact hend
  · have hother (hord : Ordinary e) : Sat Happens (fun _ _ _ _ => True) (Held job)
        (fun h _ _ => MessageEnd p job h) (.done () : Prog Unit) h w := by
      refine .done fun _ _ => ?_
      rcases hq with ⟨hack, cached, ht, -⟩ | ⟨hend, -⟩
      · exact ⟨cached, ht, fun h => absurd h hack⟩
      · exact hend
    have hguard (hord : ¬ Ordinary e) : Sat Happens (fun _ _ _ _ => True) (Held job)
        (fun h _ _ => MessageEnd p job h) (call (.acknowledge job)) h w := by
      rcases hq with hq | ⟨-, he⟩
      · refine (sat_acknowledge hq fun e' he => ?_).ending fun _ _ _ hq => hq.1
        rw [Except.error.injEq] at he
        exact he ▸ hord
      · exact absurd (he e rfl) hord
    split
    · exact hguard fun h => h
    · exact hguard fun h => h
    · next hdel hstale => exact hother (ordinary_of_ne hdel hstale)

end Message

section Runs

variable {settings : Settings} {p s q : ServicePool} {ms ns : List ServiceMove} {t : ℕ} {proc : ProcessId}
  {job : IngestionJob}

/-- The cache a thread's history began by reading is the one its process had
when the thread made its first call. -/
theorem took_first {o : Operation} {th : Thread Operation Err Answer Reply}
    (hrun : ServiceRun settings (s.start t o (code settings o)) ns q) (hth : q.threads t = some th)
    {cached : Option DocumentRecord} (ht : Took proc job cached th.past) :
    ∃ m ∈ ns, m.thread = t ∧ m.runner.past = [] ∧ cached = m.source.world.rest.cache proc job.documentId := by
  obtain ⟨rest, hrest⟩ := ht
  have hthread : (s.start t o (code settings o)).threads t = some ⟨o, [], code settings o⟩ := by
    simp only [Pool.start, Function.update_self]
  obtain ⟨m, hm, hthread, hfirst, hevent⟩ := hrun.first_move hthread rfl hth hrest
  refine ⟨m, hm, hthread, hfirst, ?_⟩
  have hexec := (hrun.of_mem hm).1.exec
  rw [hevent] at hexec
  have hok := (exec_cacheGet hexec).1
  injection hok

/-- The program of a job, as the service runs it. -/
theorem sat_code (settings : Settings) {w : World} (hw : Current job w) :
    Sat Happens (fun _ _ _ _ => True) (Held job) (JobEnd proc job)
      (code settings (.processDocumentJob proc job)) [] w := by
  refine (sat_processDocumentJob settings proc hw).bind (held_rely job) (fun h r w hq => ?_) fun h e w hq => ?_
  · exact .done fun _ _ => hq.of_errors fun e => ⟨nofun, nofun⟩
  · exact hq.of_errors fun e => by rw [Except.error.injEq, Except.error.injEq]

/-- The program of a message, as the service runs it. -/
theorem sat_code_message (settings : Settings) {w : World} (hw : Current job w) :
    Sat Happens (fun _ _ _ _ => True) (Held job) (fun h _ _ => MessageEnd proc job h)
      (code settings (.processMessage proc job)) [] w :=
  (sat_processMessage settings proc hw).bind (held_rely job) (fun _ _ _ hq => .done fun _ _ => hq)
    fun _ _ _ hq => hq

/-- What a thread that was started in a state in which the stored record is its
job's knows once it has ended, if no newer upload replaced that record. -/
theorem thread_ends {o : Operation} {Q : Ending World Err Answer Reply}
    (hidle : ∀ t, p.threads t = none) (hcold : Cold p.world) (hrun : ServiceRun settings p ms s)
    (hfree : s.threads t = none)
    (hsat : Sat Happens (fun _ _ _ _ => True) (Held job) Q (code settings o) [] s.world)
    (hjob : ServiceRun settings (s.start t o (code settings o)) ns q)
    (hnewer : ∀ m ∈ ns, ∀ r, recordWritten m.event = some (job.documentId, r) →
      r.status = .deleted ∨ r.version = job.version)
    {th : Thread Operation Err Answer Reply} (hth : q.threads t = some th) {res : Except Err Reply}
    (hres : th.result = some res) : Q th.past res q.world := by
  have hstart : ServiceRun settings p ms (s.start t o (code settings o)) := .start hrun t o hfree
  have hheld (m : ServiceMove) (hm : m ∈ ns) : Held job m.source.world m.target.world := by
    obtain ⟨ha, ns', -, hs⟩ := hjob.of_mem hm
    refine ⟨exec_later ha.exec, fun ⟨_, r, hr, hver⟩ => ⟨?_, ?_⟩⟩
    · exact grounded_of_run (hstart.trans (.move hs ha)) hidle hcold.grounded
    · rw [record_of_exec ha.exec]
      cases hw : recordWritten m.event with
      | none => exact ⟨r, hr, hver⟩
      | some x =>
        obtain ⟨d, r'⟩ := x
        dsimp only
        by_cases hd : job.documentId = d
        · rw [if_pos hd]
          exact ⟨r', rfl, hnewer m hm r' (hd ▸ hw)⟩
        · rw [if_neg hd]
          exact ⟨r, hr, hver⟩
  have hthread : (s.start t o (code settings o)).threads t = some ⟨o, [], code settings o⟩ := by
    simp only [Pool.start, Function.update_self]
  obtain ⟨⟨th', hth', hend⟩, -⟩ := thread_sound (held_rely job) hjob hthread hsat
    (fun m hm _ => (hjob.of_mem hm).1.exec) fun m hm _ => hheld m hm
  rw [hth, Option.some.injEq] at hth'
  exact (hth' ▸ hend).ended (held_rely job) hres

/-- In any run of processes that start with empty caches, let thread `t` be
started for a job while the stored record is of the job's version, and
let no newer upload replace that record before `t` has ended. Then the job is
taken for stale exactly if the copy in its process's cache, when the job first
looks there, is trusted, live and of another version. If `t` handles a message
and acknowledges it, it does so without having begun ingestion, or having found
the document deleted, exactly in that case. -/
theorem stale_iff (hidle : ∀ t, p.threads t = none) (hcold : Cold p.world) (hrun : ServiceRun settings p ms s)
    (hfree : s.threads t = none) {r : DocumentRecord} (hrecord : s.world.record job.documentId = some r)
    (hversion : r.version = job.version) {o : Operation}
    (ho : o = .processDocumentJob proc job ∨ o = .processMessage proc job)
    (hjob : ServiceRun settings (s.start t o (code settings o)) ns q)
    (hnewer : ∀ m ∈ ns, ∀ r, recordWritten m.event = some (job.documentId, r) →
      r.status = .deleted ∨ r.version = job.version)
    {th : Thread Operation Err Answer Reply} (hth : q.threads t = some th) {res : Except Err Reply}
    (hres : th.result = some res) :
    ∃ m ∈ ns, m.thread = t ∧ m.runner.past = [] ∧
      (o = .processDocumentJob proc job →
        (Stale res ↔ OutOfDate job (m.source.world.rest.cache proc job.documentId))) ∧
      (o = .processMessage proc job → Acked job th.past →
        (¬ Ran job th.past ∧ ¬ FoundDeleted th.past ↔
          OutOfDate job (m.source.world.rest.cache proc job.documentId))) := by
  have hcurrent : Current job s.world := ⟨grounded_of_run hrun hidle hcold.grounded, r, hrecord, .inr hversion⟩
  rcases ho with rfl | rfl
  · obtain ⟨-, cached, ht, hold, hnew⟩ := thread_ends hidle hcold hrun hfree (sat_code settings hcurrent) hjob
      hnewer hth hres
    obtain ⟨m, hm, hthread, hfirst, rfl⟩ := took_first hjob hth ht
    refine ⟨m, hm, hthread, hfirst, fun _ => ?_, nofun⟩
    exact ⟨fun hs => by_contra fun ho => (hnew ho).1 hs, fun ho => (hold ho).1⟩
  · obtain ⟨cached, ht, hiff⟩ := thread_ends hidle hcold hrun hfree (sat_code_message settings hcurrent) hjob
      hnewer hth hres
    obtain ⟨m, hm, hthread, hfirst, rfl⟩ := took_first hjob hth ht
    refine ⟨m, hm, hthread, hfirst, nofun, fun _ hack => ?_⟩
    rw [← not_or, hiff hack, not_not]

theorem stale_iff_sample : ∃ th res,
    (after (uploadedPool.start 1 (.processMessage 1 firstJob) (code sampleSettings (.processMessage 1 firstJob)))
      (turns 1 31 "a" "i")).threads 1 = some th ∧ th.result = some res ∧
    ∃ m : ServiceMove, m.thread = 1 ∧ (Acked firstJob th.past → (¬ Ran firstJob th.past ∧
      ¬ FoundDeleted th.past ↔ OutOfDate firstJob (m.source.world.rest.cache 1 "d"))) := by
  have hrun := run_after (Pool.idle World.empty) uploadTurns (by decide +kernel)
  have hjob := run_after
    (uploadedPool.start 1 (.processMessage 1 firstJob) (code sampleSettings (.processMessage 1 firstJob)))
    (turns 1 31 "a" "i") (by decide +kernel)
  have hended : (((after (uploadedPool.start 1 (.processMessage 1 firstJob)
      (code sampleSettings (.processMessage 1 firstJob))) (turns 1 31 "a" "i")).threads 1).bind
      Thread.result).isSome := by decide +kernel
  obtain ⟨res, hres⟩ := Option.isSome_iff_exists.mp hended
  obtain ⟨th, hth, hres⟩ := Option.bind_eq_some_iff.mp hres
  have hsame : (movesOf (uploadedPool.start 1 (.processMessage 1 firstJob)
      (code sampleSettings (.processMessage 1 firstJob))) (turns 1 31 "a" "i")).all
      (fun m => (recordWritten m.event).all fun x => x.2.version = firstJob.version) := by decide +kernel
  have hrecord : (uploadedPool.world.record firstJob.documentId).map DocumentRecord.version =
      some firstJob.version := by decide +kernel
  obtain ⟨r, hr, hversion⟩ := Option.map_eq_some_iff.mp hrecord
  obtain ⟨m, -, hthread, -, -, hmessage⟩ := stale_iff (fun _ => rfl)
    cold_empty hrun (by decide +kernel) hr hversion (.inr rfl) hjob (fun m hm r hw => by
      have hall := List.all_eq_true.mp hsame m hm
      rw [hw] at hall
      exact .inr (of_decide_eq_true hall)) hth hres
  exact ⟨th, res, hth, hres, m, hthread, hmessage rfl⟩

/-- Process 1 ingests the first version, and process 0 uploads the second. -/
def renewedTurns : List Turn :=
  ingestTurns ++ .start 2 (.queueDocument 0 "d" "f.txt" (utf8 "b") none) :: turns 2 8 "b" "j"

/-- The state in which process 1 takes the second job. -/
def renewedPool : ServicePool := after (Pool.idle World.empty) renewedTurns

/-- Process 1 takes the second job for stale, and acknowledges its message,
though the stored record is queued with that version. -/
theorem live_job_taken_for_stale : ∃ ms r ns q th res ns' q' th',
    ServiceRun sampleSettings (Pool.idle World.empty) ms renewedPool ∧
    renewedPool.world.record "d" = some r ∧ r.status = .queued ∧ r.version = secondJob.version ∧
    ServiceRun sampleSettings (renewedPool.start 3 (.processDocumentJob 1 secondJob)
      (code sampleSettings (.processDocumentJob 1 secondJob))) ns q ∧
    q.threads 3 = some th ∧ th.result = some res ∧ Stale res ∧
    ServiceRun sampleSettings (renewedPool.start 3 (.processMessage 1 secondJob)
      (code sampleSettings (.processMessage 1 secondJob))) ns' q' ∧
    q'.threads 3 = some th' ∧ Acked secondJob th'.past ∧ ¬ Ran secondJob th'.past := by
  let failing := renewedPool.start 3 (.processDocumentJob 1 secondJob)
    (code sampleSettings (.processDocumentJob 1 secondJob))
  let handling := renewedPool.start 3 (.processMessage 1 secondJob)
    (code sampleSettings (.processMessage 1 secondJob))
  have hrun := run_after (Pool.idle World.empty) renewedTurns (by decide +kernel)
  have hjob := run_after failing (turns 3 1 "b" "j") (by decide +kernel)
  have hmessage := run_after handling (turns 3 2 "b" "j") (by decide +kernel)
  have hrecord : (renewedPool.world.record "d").any (fun r =>
      r.status = .queued ∧ r.version = secondJob.version) := by decide +kernel
  have hstale : ((after failing (turns 3 1 "b" "j")).threads 3).any
      (fun th => th.result.any fun res => decide (Stale res)) := by decide +kernel
  have hacked : ((after handling (turns 3 2 "b" "j")).threads 3).any
      (fun th => Acked secondJob th.past ∧ ¬ Ran secondJob th.past) := by decide +kernel
  obtain ⟨r, hr, hversion⟩ := (Option.any_eq_true _ _).mp hrecord
  obtain ⟨th, hth, hres⟩ := (Option.any_eq_true _ _).mp hstale
  obtain ⟨res, hres, hs⟩ := (Option.any_eq_true _ _).mp hres
  obtain ⟨th', hth', hack⟩ := (Option.any_eq_true _ _).mp hacked
  rw [decide_eq_true_eq] at hversion hs hack
  exact ⟨_, r, _, _, th, res, _, _, th', hrun, hr, hversion.1, hversion.2, hjob, hth, hres, hs, hmessage, hth', hack⟩

end Runs

end RagSystem.StaleJobs
