import RagSystem.RecordCaches

/-!
# Writes that carry the published version along

A record is written whole. An upload, a progress write and a failure write take
the published version from the copy of the record their operation was answered
by its last `get_document`, so they leave it as it is exactly if that copy
publishes what the stored record does when the write goes through.
-/

namespace RagSystem.PublishedVersion

open AtomicProgram ThreadPool RelyGuarantee Storage CompareAndSwap DocumentModels DocumentStore
  DocumentService CallEffects StoreCalls LegalWrites RecordCaches

set_option autoImplicit false

section Copies

/-- What a call adds to the copy an operation has of its record. -/
def copyStep (copy : Option DocumentRecord) : CallEvent → Option DocumentRecord
  | ⟨.other (.cacheGet _ _), .ok cached⟩ => cached
  | ⟨.getJson (.documentRecord _), .ok (some record)⟩ => some record
  | _ => copy

/-- The record the last `get_document` of an operation answered. -/
def copyTaken (h : History Err Answer) : Option DocumentRecord := h.foldl copyStep none

/-- The copy after one more call. -/
theorem copyTaken_append (h : History Err Answer) (e : CallEvent) :
    copyTaken (h ++ [e]) = copyStep (copyTaken h) e := by
  simp only [copyTaken, List.foldl_append, List.foldl_cons, List.foldl_nil]

/-- A call that reads no record. -/
def Blind : Action → Prop
  | .other (.cacheGet _ _) => False
  | .getJson (.documentRecord _) => False
  | _ => True

/-- Such a call leaves the copy. -/
theorem copyStep_blind {e : CallEvent} (he : Blind e.action) (copy : Option DocumentRecord) :
    copyStep copy e = copy := by
  obtain ⟨a, r⟩ := e
  cases a with
  | getJson k => cases k <;> first | rfl | contradiction
  | other x => cases x <;> first | rfl | contradiction
  | _ => rfl

/-- A `get_document` answers the copy it leaves, and writes no record. -/
theorem sat_getDocument (p : ProcessId) (d : DocumentId) (h : History Err Answer) (w : World) :
    Sat Happens (fun _ e _ _ => recordWritten e = none) Writers
      (fun h res _ => ∀ r, res = .ok r → copyTaken h = r) (getDocument p d) h w := by
  intro w₁ _ r₁ w₂ ht₁
  obtain ⟨rfl, -⟩ := exec_cacheGet ht₁
  refine ⟨rfl, ?_⟩
  have hcached : copyTaken (h ++ [⟨.other (.cacheGet p d), .ok (w₁.rest.cache p d)⟩]) = w₁.rest.cache p d :=
    copyTaken_append h _
  dsimp only [Program.bind]
  cases hc : trustedCopy (w₁.rest.cache p d) with
  | some record =>
    have heq : w₁.rest.cache p d = some record := by
      rw [trustedCopy, Option.filter_eq_some_iff] at hc
      exact hc.1
    refine .done fun _ _ r hr => ?_
    rw [Except.ok.injEq] at hr
    exact hcached.trans (heq.trans hr)
  | none =>
    intro w₃ _ r₃ w₄ ht₃
    refine ⟨rfl, ?_⟩
    cases r₃ with
    | error e => exact .raise fun _ _ => nofun
    | ok payload =>
      cases payload with
      | none =>
        refine .done fun _ _ r hr => ?_
        rw [Except.ok.injEq] at hr
        exact (copyTaken_append _ _).trans (hcached.trans hr)
      | some record =>
        have hread : copyTaken (h ++ [⟨.other (.cacheGet p d), .ok (w₁.rest.cache p d)⟩] ++
            [⟨.getJson (.documentRecord d), .ok (some record)⟩]) = some record := copyTaken_append _ _
        intro w₅ _ r₅ w₆ ht₅
        obtain ⟨rfl, -⟩ := exec_cachePut ht₅
        refine ⟨rfl, .done fun _ _ r hr => ?_⟩
        rw [Except.ok.injEq] at hr
        exact (copyTaken_append _ _).trans (hread.trans hr)

end Copies

section Carrying

/-- The writes that are to carry the published version along: those of an
upload, and those of an ingestion other than the publication. -/
def Carrying (o : Operation) (r : DocumentRecord) : Prop :=
  isUpload o = true ∨ isIngestion o = true ∧ r.status ≠ .indexed

/-- The version such a write takes from the copy. -/
def carriedVersion (o : Operation) (copy : Option DocumentRecord) : Option Version :=
  (if isUpload o then publishedVersionOf copy else copy.bind DocumentRecord.activeVersion).filter (· ≠ "")

/-- What a queued, progress or failed record publishes. -/
theorem publishedVersionOf_carrying {r : DocumentRecord} (hdel : r.status ≠ .deleted)
    (hindexed : r.status ≠ .indexed) : publishedVersionOf (some r) = r.activeVersion.filter (· ≠ "") := by
  simp only [publishedVersionOf, if_neg hdel, if_neg hindexed]
  cases r.activeVersion.filter (· ≠ "") <;> rfl

/-- The guarantee: a write that is to carry the published version publishes
what the copy says. -/
def Carries (o : Operation) : StepPredicate World Err Answer := fun h e _ _ =>
  ∀ d r, recordWritten e = some (d, r) → Carrying o r → publishedVersionOf (some r) = carriedVersion o (copyTaken h)

/-- The calls of an operation that has its copy: they read no other, and write
records of `K` only. -/
def Holding (K : DocumentRecord → Prop) (a : Action) : Prop :=
  Blind a ∧ ∀ r d record, recordWritten ⟨a, r⟩ = some (d, record) → K record

variable {K : DocumentRecord → Prop} {o : Operation} {copy : Option DocumentRecord} {α : Type} {p : Prog α}

/-- What is put together from inner parts and writes of `K` makes such calls only. -/
theorem uses_writes (hp : Composed (Write K) p) : p.Uses (Holding K) := by
  have hpermits : Permits (Holding K) :=
    { call := fun x hx => ⟨by cases x <;> trivial, fun _ _ _ => nofun⟩
      getVersionIndex := fun d => ⟨trivial, fun _ _ _ => nofun⟩
      putDerived := fun k v hk => ⟨trivial, fun r d record h => by cases k <;> cases r <;> contradiction⟩
      create := fun k v hk => ⟨trivial, fun r d record h => by cases k <;> cases r <;> contradiction⟩
      readIndex := fun d => ⟨trivial, fun _ _ _ => nofun⟩
      putIndex := fun d i c => ⟨trivial, fun r d record h => by cases r <;> contradiction⟩ }
  refine hp.uses fun β p hp => ?_
  cases hp with
  | inner hp => exact hpermits.uses_inner hp
  | saveDocumentRecord p hr =>
    refine uses_saveDocumentRecord ⟨trivial, fun _ _ _ => nofun⟩ (fun c => ⟨trivial, fun r d record h => ?_⟩)
      ⟨trivial, fun _ _ _ => nofun⟩
    cases r with
    | error e => contradiction
    | ok u =>
      simp only [recordWritten, Option.some.injEq, Prod.mk.injEq] at h
      exact h.2 ▸ hr

/-- Such a program carries the published version, if the records of `K` do. -/
theorem sat_writes (hp : Composed (Write fun r => Carrying o r → publishedVersionOf (some r) = carriedVersion o copy) p)
    {h : History Err Answer} (w : World) (hcopy : copyTaken h = copy) :
    Sat Happens (Carries o) Writers (fun h _ _ => copyTaken h = copy) p h w := by
  have hkeep : Keeps Happens (Carries o) Writers (fun h _ => copyTaken h = copy) p := by
    refine Keeps.of_uses (fun _ _ _ _ hc => hc) (uses_writes hp) fun h e w w' he hc _ => ⟨fun d r hr hcarry => ?_, ?_⟩
    · rw [hc]
      exact he.2 e.answer d r hr hcarry
    · rw [copyTaken_append, copyStep_blind he.1, hc]
  exact hkeep h w hcopy

/-- A program without record writes writes none. -/
theorem sat_part (hp : Composed Part p) (h : History Err Answer) (w : World) :
    Sat Happens (fun _ e _ _ => recordWritten e = none) Writers (fun _ _ _ => True) p h w := by
  have hob : Obligations Happens (fun _ e _ _ => recordWritten e = none) Writers (fun _ _ => True)
      (fun _ _ => True) :=
    part_obligations (P := fun _ => True) (fun _ _ _ _ _ hnone => recordWritten_of_recordCall hnone)
      fun _ _ _ _ => trivial
  exact hob.keeps hp h w trivial

/-- Where no record is written, the published version is carried along. -/
theorem Carries.of_none {h : History Err Answer} {e : CallEvent} {w w' : World}
    (he : recordWritten e = none) : Carries o h e w w' := fun d r hr => by
  rw [he] at hr
  contradiction

/-- A program without record writes carries it. -/
theorem sat_reads (hp : Composed Part p) (h : History Err Answer) (w : World) :
    Sat Happens (Carries o) Writers (fun _ _ _ => True) p h w :=
  (sat_part hp h w).weaken (fun _ _ _ _ _ he => .of_none he) fun _ _ _ hq => hq

end Carrying

section Operations

variable (settings : Settings) (p : ProcessId)

/-- Uploads carry what their copy publishes. -/
theorem sat_queueDocument {o : Operation} (ho : isUpload o = true) (d : DocumentId) (filename : String)
    (content : Bytes) (owner : Option String) (h : History Err Answer) (w : World) :
    Sat Happens (Carries o) Writers (fun _ _ _ => True) (queueDocument settings p d filename content owner) h w := by
  refine (sat_reads (parts (composed_call rfl)) h w).bind writers_rely (fun h _ w _ => ?_) fun _ _ _ _ => trivial
  refine (sat_getDocument p d h w).weaken (fun _ _ _ _ _ he => Carries.of_none he) (fun _ _ _ hq => hq) |>.bind
    writers_rely (fun h existing w hq => ?_) fun _ _ _ _ => trivial
  have hcarry (r : DocumentRecord) (hr : r.activeVersion = publishedVersionOf existing)
      (hstatus : r.status = .queued ∨ r.status = .failed) (_ : Carrying o r) :
      publishedVersionOf (some r) = carriedVersion o existing := by
    rw [publishedVersionOf_carrying, carriedVersion, if_pos ho, hr]
    · rintro hdel
      rw [hdel] at hstatus
      rcases hstatus with h | h <;> contradiction
    · rintro hindexed
      rw [hindexed] at hstatus
      rcases hstatus with h | h <;> contradiction
  have hrest (job : IngestionJob) (r : DocumentRecord) (hr : r.activeVersion = publishedVersionOf existing)
      (hstatus : r.status = .queued) := composed_queueRecord (K := fun r => Carrying o r →
    publishedVersionOf (some r) = carriedVersion o existing) p job (hcarry r hr (.inl hstatus))
    fun error => hcarry { r with status := .failed, error := error } hr (.inr rfl)
  exact (sat_writes (hrest _ _ rfl rfl) w (hq existing rfl)).ending fun _ _ _ _ => trivial

/-- So do replacements. -/
theorem sat_updateDocument {o : Operation} (ho : isUpload o = true) (d : DocumentId) (filename : String)
    (content : Bytes) (owner : Option String) (h : History Err Answer) (w : World) :
    Sat Happens (Carries o) Writers (fun _ _ _ => True) (updateDocument settings p d filename content owner) h w := by
  refine (sat_reads (.part (.getDocument p d)) h w).bind writers_rely (fun h current w _ => ?_)
    fun _ _ _ _ => trivial
  cases current with
  | none => exact .done fun _ _ => trivial
  | some record =>
    dsimp only
    split
    · exact .done fun _ _ => trivial
    · refine (sat_queueDocument settings p ho d filename content owner h w).bind writers_rely
        (fun _ _ _ _ => .done fun _ _ => trivial) fun _ _ _ _ => trivial

/-- The failure path of an ingestion carries the active version of its copy. -/
theorem sat_ingestFailure {o : Operation} (record : DocumentRecord) (exc : Err)
    (hcarry : Carrying o (failedWith record exc) →
      publishedVersionOf (some (failedWith record exc)) = carriedVersion o (some record))
    {h : History Err Answer} (w : World) (hcopy : copyTaken h = some record) :
    Sat Happens (Carries o) Writers (fun _ _ _ => True) (ingestFailure p record exc) h w := by
  have hsave : Composed (Write fun r => Carrying o r →
      publishedVersionOf (some r) = carriedVersion o (some record)) (saveDocumentRecord p (failedWith record exc)) :=
    .part (.saveDocumentRecord p hcarry)
  refine Sat.bind writers_rely (Q := fun _ _ _ => True) ?_ (fun h refused w _ => ?_) fun _ _ _ _ => trivial
  · refine Sat.catchError writers_rely (Q := fun _ _ _ => True) ?_ (fun _ _ _ _ => trivial) fun h e w _ => ?_
    · exact (sat_writes hsave w hcopy).bind writers_rely (fun _ _ _ _ => .done fun _ _ => trivial)
        fun _ _ _ _ => trivial
    · refine sat_reads ?_ h w
      split
      · exact .bind (composed_abortIngestionForDeleted p _) fun _ => .done _
      · exact .bind (composed_abortIngestionForSuperseded p _) fun _ => .done _
      · exact .raise _
  · cases refused with
    | some current => exact .done fun _ _ => trivial
    | none =>
      have hrecorded : Composed Part ((recordIngestionFailure record.id record.version (message exc)).bind fun _ =>
          (cleanupFailedVersionVectors record.id record.version).bind fun _ =>
            (.raise exc : Prog DocumentRecord)) := by
        refine .bind (parts (composed_recordIngestionFailure _ _ _)) fun _ => ?_
        exact .bind (parts (composed_bestEffort (.deleteDocumentVersion _ _) rfl ())) fun _ => .raise exc
      exact sat_reads hrecorded h w

/-- An ingestion that has its copy carries the active version of it. -/
theorem sat_processRecord {o : Operation} (ho : isUpload o = false) (job : IngestionJob)
    (record : DocumentRecord) {h : History Err Answer} (w : World) (hcopy : copyTaken h = some record) :
    Sat Happens (Carries o) Writers (fun _ _ _ => True) (processRecord settings p job record) h w := by
  have hcarry (r : DocumentRecord) (hr : r.activeVersion = record.activeVersion) (hdel : r.status ≠ .deleted)
      (hc : Carrying o r) : publishedVersionOf (some r) = carriedVersion o (some record) := by
    have hindexed : r.status ≠ .indexed := (hc.resolve_left (by rw [ho]; nofun)).2
    rw [publishedVersionOf_carrying hdel hindexed, carriedVersion, ho, hr]
    rfl
  unfold processRecord
  by_cases hdel : record.status = .deleted
  · rw [if_pos hdel]
    exact .raise fun _ _ => trivial
  by_cases hold : record.version ≠ job.version
  · rw [if_neg hdel, if_pos hold]
    exact .raise fun _ _ => trivial
  rw [if_neg hdel, if_neg hold]
  have hsource := composed_readSource (K := fun r => Carrying o r →
      publishedVersionOf (some r) = carriedVersion o (some record)) p job
    fun exc => hcarry (failedWith record exc) rfl nofun
  refine Sat.bind (P := fun _ _ _ => True) writers_rely (sat_writes hsource w hcopy)
    (fun h content w hcopy => ?_) fun _ _ _ _ => trivial
  have hbody := composed_ingestBody (K := fun r => Carrying o r →
      publishedVersionOf (some r) = carriedVersion o (some record)) settings p content
    (fun status hs => hcarry (atStage record status) rfl fun hd => by
      rw [show status = .deleted from hd] at hs
      contradiction)
    fun hc => absurd rfl (hc.resolve_left (by rw [ho]; nofun)).2
  refine (sat_writes hbody w hcopy).catchError writers_rely (fun _ _ _ _ => trivial) fun h e w hcopy => ?_
  split
  · exact sat_reads (composed_abortIngestionForDeleted p _) h w
  · exact sat_reads (composed_abortIngestionForSuperseded p _) h w
  · exact sat_ingestFailure p record _ (hcarry _ rfl nofun) w hcopy

/-- So does a whole job. -/
theorem sat_processDocumentJob {o : Operation} (ho : isUpload o = false) (job : IngestionJob)
    (h : History Err Answer) (w : World) :
    Sat Happens (Carries o) Writers (fun _ _ _ => True) (processDocumentJob settings p job) h w := by
  refine (sat_getDocument p job.documentId h w).weaken (fun _ _ _ _ _ he => Carries.of_none he)
    (fun _ _ _ hq => hq) |>.bind writers_rely (fun h record w hq => ?_) fun _ _ _ _ => trivial
  cases record with
  | none => exact .raise fun _ _ => trivial
  | some record => exact sat_processRecord settings p ho job record w (hq (some record) rfl)

/-- Every operation carries the published version along where it is to. -/
theorem sat_code (o : Operation) (w : World) :
    Sat Happens (Carries o) Writers (fun _ _ _ => True) (code settings o) [] w := by
  have hjob (ho : isUpload o = false) (p : ProcessId) (job : IngestionJob) (h : History Err Answer) (w : World) :=
    sat_processDocumentJob settings p ho job h w
  have hother (ho : ∀ r, ¬ Carrying o r) :
      Sat Happens (Carries o) Writers (fun _ _ _ => True) (code settings o) [] w :=
    (legal_obligations.keeps_code settings o [] w trivial).weaken
      (fun _ _ _ _ _ _ _ r _ hc => absurd hc (ho r)) fun _ _ _ hq => hq
  cases o with
  | queueDocument p d f c u =>
    exact (sat_queueDocument settings p rfl d f c u [] w).bind writers_rely
      (fun _ _ _ _ => .done fun _ _ => trivial) fun _ _ _ _ => trivial
  | updateDocument p d f c u =>
    exact (sat_updateDocument settings p rfl d f c u [] w).bind writers_rely
      (fun _ _ _ _ => .done fun _ _ => trivial) fun _ _ _ _ => trivial
  | processDocumentJob p job =>
    exact (hjob rfl p job [] w).bind writers_rely (fun _ _ _ _ => .done fun _ _ => trivial) fun _ _ _ _ => trivial
  | processMessage p job =>
    have hack (h : History Err Answer) (w : World) :
        Sat Happens (Carries (.processMessage p job)) Writers (fun _ _ _ => True) (call (.acknowledge job)) h w :=
      Sat.perform fun _ _ _ _ _ => ⟨Carries.of_none rfl, fun _ _ => trivial⟩
    have hmessage : Sat Happens (Carries (.processMessage p job)) Writers (fun _ _ _ => True)
        (processMessage settings p job) [] w := by
      refine Sat.catchError writers_rely (Q := fun _ _ _ => True) ?_ (fun _ _ _ _ => trivial) fun h e w _ => ?_
      · exact (hjob rfl p job [] w).bind writers_rely (fun h _ w _ => hack h w) fun _ _ _ _ => trivial
      · split
        · exact hack h w
        · exact hack h w
        · exact .done fun _ _ => trivial
    exact hmessage.bind writers_rely (fun _ _ _ _ => .done fun _ _ => trivial) fun _ _ _ _ => trivial
  | deleteDocument p d => exact hother fun r hc => by rcases hc with hc | hc <;> simp_all [isUpload, isIngestion]
  | restoreVersion p d v => exact hother fun r hc => by rcases hc with hc | hc <;> simp_all [isUpload, isIngestion]
  | getDocument p d => exact hother fun r hc => by rcases hc with hc | hc <;> simp_all [isUpload, isIngestion]
  | filterToActiveVersions p hits =>
    exact hother fun r hc => by rcases hc with hc | hc <;> simp_all [isUpload, isIngestion]

/-- The operation writes records. -/
def isWriter (o : Operation) : Bool := isUpload o || isIngestion o || isRestore o || isDelete o

/-- Only these operations do. -/
theorem writes_code (o : Operation) (w : World) :
    Sat Happens (fun _ e _ _ => isWriter o = false → recordWritten e = none) Writers (fun _ _ _ => True)
      (code settings o) [] w := by
  have hpart (hp : Composed Part (code settings o)) :
      Sat Happens (fun _ e _ _ => isWriter o = false → recordWritten e = none) Writers (fun _ _ _ => True)
        (code settings o) [] w :=
    (sat_part hp [] w).weaken (fun _ _ _ _ _ he _ => he) fun _ _ _ hq => hq
  by_cases ho : isWriter o = false
  · cases o with
    | getDocument p d => exact hpart (.bind (.part (.getDocument p d)) fun _ => .done _)
    | filterToActiveVersions p hits => exact hpart (.bind (composed_filterLoop p hits []) fun _ => .done _)
    | _ => contradiction
  · exact (legal_obligations.keeps_code settings o [] w trivial).weaken
      (fun _ _ _ _ _ _ hf => absurd hf ho) fun _ _ _ hq => hq

end Operations

section Runs

variable {settings : Settings} {start q : ServicePool} {ms : List ServiceMove}

/-- The writes that are to change what is published: a success publication, a
restore, a deletion. -/
def Publishing (o : Operation) (r : DocumentRecord) : Prop :=
  isRestore o = true ∨ isDelete o = true ∨ isIngestion o = true ∧ r.status = .indexed

/-- Where a call changes the published version of a document, it is such a write. -/
def OnlyPublicationChanges (m : ServiceMove) : Prop :=
  ∀ d, publishedVersionOf (m.target.world.record d) ≠ publishedVersionOf (m.source.world.record d) →
    ∃ r, recordWritten m.event = some (d, r) ∧ Publishing m.runner.operation r

/-- If a call is any other record write, the copy its operation took publishes
what the record it replaces does. -/
def CopyUpToDate (m : ServiceMove) : Prop :=
  ∀ d r, recordWritten m.event = some (d, r) → Carrying m.runner.operation r →
    carriedVersion m.runner.operation (copyTaken m.runner.past) = publishedVersionOf (m.source.world.record d)

/-- No write is both. -/
theorem not_publishing_of_carrying {o : Operation} {r : DocumentRecord} (hc : Carrying o r) : ¬ Publishing o r := by
  intro hp
  cases o <;> simp_all [Carrying, Publishing, isUpload, isIngestion, isRestore, isDelete]

/-- A write of an operation that writes records is one or the other. -/
theorem carrying_or_publishing {o : Operation} (ho : isWriter o = true) (r : DocumentRecord) :
    Carrying o r ∨ Publishing o r := by
  by_cases hr : r.status = .indexed
  · cases o <;> simp_all [Carrying, Publishing, isWriter, isUpload, isIngestion, isRestore, isDelete]
  · cases o <;> simp_all [Carrying, Publishing, isWriter, isUpload, isIngestion, isRestore, isDelete]

/-- What a call of a run guarantees about the record it writes. -/
theorem guarantee_of_run (hidle : ∀ t, start.threads t = none) (h : ServiceRun settings start ms q) :
    ∀ m ∈ ms, Carries m.runner.operation m.runner.past m.event m.source.world m.target.world ∧
      (isWriter m.runner.operation = false → recordWritten m.event = none) := by
  have hcode (o : Operation) (w : World) := ((sat_code settings o w).both (writes_code settings o w)).both
    (legal_obligations.keeps_code settings o [] w trivial)
  have hrun := run_sound writers_rely (I := fun _ => True) (fun o w _ => hcode o w)
    (fun _ _ _ _ _ hg => hg.2.later) (fun _ _ _ _ => trivial) h hidle trivial fun m hm => (h.of_mem hm).1.exec
  exact fun m hm => (hrun.2.1 m hm).1

/-- In every run, of any processes with any caches, only success publications,
restores and deletions change what is published, exactly if at every other
record write the copy its operation took publishes what the record it replaces
does. -/
theorem only_publication_changes_iff (hidle : ∀ t, start.threads t = none) (h : ServiceRun settings start ms q) :
    (∀ m ∈ ms, OnlyPublicationChanges m) ↔ ∀ m ∈ ms, CopyUpToDate m := by
  refine forall₂_congr fun m hm => ?_
  obtain ⟨hcarry, hwriter⟩ := guarantee_of_run hidle h m hm
  have hrecord := record_of_exec (h.of_mem hm).1.exec
  constructor
  · intro honly d r hw hc
    have htarget : m.target.world.record d = some r := by
      rw [hrecord, hw]
      simp only [if_true]
    rw [← hcarry d r hw hc, ← htarget]
    by_contra hne
    obtain ⟨r', hw', hp⟩ := honly d hne
    rw [hw, Option.some.injEq, Prod.mk.injEq] at hw'
    exact not_publishing_of_carrying hc (hw'.2 ▸ hp)
  · intro hcopy d hne
    cases hw : recordWritten m.event with
    | none =>
      rw [hrecord, hw] at hne
      exact absurd rfl hne
    | some x =>
      obtain ⟨d', r⟩ := x
      rw [hrecord, hw] at hne
      by_cases hd : d = d'
      · subst hd
        refine ⟨r, rfl, ?_⟩
        have ho : isWriter m.runner.operation = true := by
          by_contra hf
          rw [hwriter (Bool.eq_false_iff.mpr hf)] at hw
          contradiction
        refine (carrying_or_publishing ho r).resolve_left fun hc => hne ?_
        simp only [if_true]
        rw [hcarry d r hw hc, hcopy d r hw hc]
      · simp only [if_neg hd, ne_eq, not_true_eq_false] at hne

theorem only_publication_changes_iff_sample : ∃ ms, ServiceRun sampleSettings (Pool.idle World.empty) ms
      (after (Pool.idle World.empty) ingestTurns) ∧
    ((∀ m ∈ ms, OnlyPublicationChanges m) ↔ ∀ m ∈ ms, CopyUpToDate m) := by
  have hms := run_after (Pool.idle World.empty) ingestTurns (by decide +kernel)
  exact ⟨_, hms, only_publication_changes_iff (fun _ => rfl) hms⟩

/-- Process 0 caches the first version when it is published, process 2 uploads
and process 3 ingests a second one, and process 0 uploads a third. -/
def outdatedTurns : List Turn :=
  ingestTurns ++ .start 2 (.getDocument 0 "d") :: turns 2 3 "a" "i" ++
  .start 3 (.queueDocument 2 "d" "f.txt" (utf8 "b") none) :: turns 3 8 "b" "j" ++
  .start 4 (.processDocumentJob 3 secondJob) :: turns 4 30 "b" "j" ++
  .start 5 (.queueDocument 0 "d" "f.txt" (utf8 "x") none) :: turns 5 4 "x" "k"

/-- The third upload puts the first version back. -/
theorem upload_undoes_publication : ∃ ms q m, ServiceRun sampleSettings (Pool.idle World.empty) ms q ∧ m ∈ ms ∧
    isUpload m.runner.operation = true ∧
    publishedVersionOf (m.source.world.record "d") = some (contentHash sampleSettings (utf8 "b")) ∧
    publishedVersionOf (m.target.world.record "d") = some (contentHash sampleSettings (utf8 "a")) ∧
    ¬ OnlyPublicationChanges m := by
  have hms := run_after (Pool.idle World.empty) outdatedTurns (by decide +kernel)
  have hlast : (movesOf (Pool.idle World.empty) outdatedTurns).getLast?.any fun m =>
      isUpload m.runner.operation ∧
      publishedVersionOf (m.source.world.record "d") = some (contentHash sampleSettings (utf8 "b")) ∧
      publishedVersionOf (m.target.world.record "d") = some (contentHash sampleSettings (utf8 "a")) := by
    decide +kernel
  obtain ⟨m, hm, hlast⟩ := (Option.any_eq_true _ _).mp hlast
  rw [decide_eq_true_eq] at hlast
  obtain ⟨hupload, hsource, htarget⟩ := hlast
  refine ⟨_, _, m, hms, List.mem_of_getLast? hm, hupload, hsource, htarget, fun honly => ?_⟩
  have hne : publishedVersionOf (m.target.world.record "d") ≠ publishedVersionOf (m.source.world.record "d") := by
    rw [htarget, hsource]
    decide +kernel
  obtain ⟨r, -, hp⟩ := honly "d" hne
  exact not_publishing_of_carrying (.inl hupload) hp

end Runs

end RagSystem.PublishedVersion
