import RagSystem.LegalWrites

/-!
# Deletion is terminal

Once a stored record is deleted it stays deleted, whatever runs beside it with
whatever cached copies. An upload or a restore that tries to write it ends with
an exception, and no operation that found it deleted goes on to write it.
-/

namespace RagSystem.DeletionTerminal

open AtomicProgram ThreadPool RelyGuarantee VersionedCell Storage CompareAndSwap DocumentModels
  DocumentStore DocumentService CallEffects StoreCalls LegalWrites

set_option autoImplicit false

/-- The stored record of `d` is deleted. -/
def Deleted (d : DocumentId) (w : World) : Prop := ∃ r, w.record d = some r ∧ r.status = .deleted

section Store

variable {d : DocumentId} {w w' : World} {r : DocumentRecord}

/-- The guard refuses a live record over a deleted one. -/
theorem rejectIllegalWrite_deleted {current : DocumentRecord} (hc : current.status = .deleted)
    (hr : r.status ≠ .deleted) :
    rejectIllegalWrite r (some current) = .error (.app (.documentDeleted r.id)) := by
  simp only [rejectIllegalWrite, hc, hr, ne_eq, not_false_eq_true, and_self, if_true]

/-- What the guard lets over a deleted record is deleted. -/
theorem deleted_of_guard {current : DocumentRecord} (hc : current.status = .deleted)
    (h : rejectIllegalWrite r (some current) = .ok ()) : r.status = .deleted := by
  by_contra hr
  rw [rejectIllegalWrite_deleted hc hr] at h
  contradiction

/-- A legal call leaves a deleted record deleted. -/
theorem Deleted.of_legal (hd : Deleted d w) (h : Legal w w') : Deleted d w' := by
  obtain ⟨r, hr, hdel⟩ := hd
  rcases h.record d with hsame | ⟨new, hnew, -, hguard⟩
  · have heq : w'.record d = w.record d := congrArg Cell.content hsame
    exact ⟨r, heq.trans hr, hdel⟩
  · rw [hr] at hguard
    exact ⟨new, hnew, deleted_of_guard hdel hguard⟩

/-- What was just written is what is stored. -/
theorem status_put (h : Deleted d { w with objects := put w.objects (.documentRecord d) r }) :
    r.status = .deleted := by
  obtain ⟨r', hr', hdel⟩ := h
  rw [World.record_put_self, Option.some.injEq] at hr'
  rw [hr']
  exact hdel

/-- A call that writes a live record is not legal where the record is deleted. -/
theorem live_write_refused {e : CallEvent} (hd : Deleted d w) (h : Legal w w') (hexec : service.Exec e w w')
    (hw : recordWritten e = some (d, r)) : r.status = .deleted := by
  have hdel := hd.of_legal h
  obtain ⟨a, ans⟩ := e
  cases a with
  | getJson k => contradiction
  | getJsonWithEtag k => contradiction
  | other x => contradiction
  | putJson k v =>
    cases k with
    | documentRecord d' =>
      rcases exec_putJson hexec with ⟨rfl, rfl⟩ | ⟨-, m, rfl⟩
      · simp only [recordWritten, Option.some.injEq, Prod.mk.injEq] at hw
        obtain ⟨rfl, rfl⟩ := hw
        exact status_put hdel
      · contradiction
    | _ => contradiction
  | putJsonConditional k v c =>
    cases k with
    | documentRecord d' =>
      rcases exec_putJsonConditional hexec with ⟨rfl, -, rfl⟩ | ⟨-, ⟨rfl, -⟩ | ⟨m, rfl⟩⟩
      · simp only [recordWritten, Option.some.injEq, Prod.mk.injEq] at hw
        obtain ⟨rfl, rfl⟩ := hw
        exact status_put hdel
      · contradiction
      · contradiction
    | _ => contradiction

end Store

section Rules

/-- The rules of a property of programs: parts have it, guarded writes of live
records have it, and it passes to sequences and to handlers of a part's
exceptions. -/
structure Rules (Q : {α : Type} → Prog α → Prop) : Prop where
  part {α : Type} {p : Prog α} : Composed Part p → Q p
  save (p : ProcessId) {r : DocumentRecord} : r.status ≠ .deleted → Q (saveDocumentRecord p r)
  bind {α β : Type} {p : Prog α} {f : α → Prog β} : Q p → (∀ a, Q (f a)) → Q (p.bind f)
  catchPart {α : Type} {p : Prog α} {g : Err → Prog α} : Composed Part p → (∀ e, Q (g e)) → Q (p.catchError g)

variable {Q : {α : Type} → Prog α → Prop}

/-- Uploads have it. -/
theorem Rules.queueDocument (rules : Rules Q) (settings : Settings) (p : ProcessId) (d : DocumentId) (f : String)
    (content : Bytes) (owner : Option String) : Q (queueDocument settings p d f content owner) := by
  refine rules.bind (rules.part (parts (composed_call rfl))) fun _ => ?_
  refine rules.bind (rules.part (.part (.getDocument p d))) fun existing => ?_
  refine rules.bind (rules.save p nofun) fun _ => ?_
  refine rules.bind (rules.catchPart (parts (composed_call rfl)) fun e => ?_) fun _ => rules.part (.done _)
  exact rules.bind (rules.save p nofun) fun _ => rules.part (.raise e)

/-- Replacements have it. -/
theorem Rules.updateDocument (rules : Rules Q) (settings : Settings) (p : ProcessId) (d : DocumentId) (f : String)
    (content : Bytes) (owner : Option String) : Q (updateDocument settings p d f content owner) := by
  refine rules.bind (rules.part (.part (.getDocument p d))) fun current => ?_
  cases current with
  | none => exact rules.part (.done none)
  | some record =>
    dsimp only
    split
    · exact rules.part (.done none)
    · exact rules.bind (rules.queueDocument settings p d f content owner) fun _ => rules.part (.done _)

/-- Restores have it. -/
theorem Rules.restoreVersion (rules : Rules Q) (settings : Settings) (p : ProcessId) (d : DocumentId)
    (version : Version) : Q (restoreVersion settings p d version) := by
  refine rules.bind (rules.part (.part (.getDocument p d))) fun record => ?_
  cases record with
  | none => exact rules.part (.done none)
  | some record =>
    dsimp only
    split
    · exact rules.part (.done none)
    · refine rules.bind (rules.part (.part (.inner (.getVersionIndex d)))) fun index => ?_
      split
      · exact rules.part (.raise _)
      · next target _ =>
        refine rules.bind (rules.part (parts (composed_ensureVectors settings d target))) fun _ => ?_
        refine rules.bind (rules.part (.part (.inner (.activateExistingVersion d version)))) fun _ => ?_
        exact rules.bind (rules.save p nofun) fun _ => rules.part (.done _)

/-- Every operation but deletes and ingestions has it. -/
theorem Rules.code (rules : Rules Q) (settings : Settings) {o : Operation} (hdelete : isDelete o = false)
    (hingestion : isIngestion o = false) : Q (code settings o) := by
  cases o with
  | queueDocument p d f c o =>
    exact rules.bind (rules.queueDocument settings p d f c o) fun _ => rules.part (.done _)
  | updateDocument p d f c o =>
    exact rules.bind (rules.updateDocument settings p d f c o) fun _ => rules.part (.done _)
  | deleteDocument p d => contradiction
  | processDocumentJob p job => contradiction
  | processMessage p job => contradiction
  | restoreVersion p d v => exact rules.bind (rules.restoreVersion settings p d v) fun _ => rules.part (.done _)
  | getDocument p d => exact rules.part (.bind (.part (.getDocument p d)) fun _ => .done _)
  | filterToActiveVersions p hits => exact rules.part (.bind (composed_filterLoop p hits []) fun _ => .done _)

end Rules

section Heeding

/-- Some call of this history read the record of `d` for a write and found it deleted. -/
def Seen (d : DocumentId) (h : History Err Answer) : Prop :=
  ∃ e ∈ h, ∃ r, recordRead e = some (d, r) ∧ r.status = .deleted

/-- A record write of `d` is live, and was not preceded by finding it deleted. -/
def Heeding (d : DocumentId) : StepPredicate World Err Answer := fun h e _ _ =>
  ∀ r, recordAttempted e = some (d, r) → r.status ≠ .deleted ∧ ¬ Seen d h

/-- A call that read no record for a write is not a finding. -/
theorem seen_append {d : DocumentId} {h : History Err Answer} {e : CallEvent}
    (he : recordRead e = none) : Seen d (h ++ [e]) ↔ Seen d h := by
  constructor
  · rintro ⟨e', hin, r, hr, hdel⟩
    rcases List.mem_append.mp hin with hin | hin
    · exact ⟨e', hin, r, hr, hdel⟩
    · rw [List.mem_singleton] at hin
      rw [hin, he] at hr
      contradiction
  · rintro ⟨e', hin, hr⟩
    exact ⟨e', List.mem_append_left _ hin, hr⟩

/-- What is tried to be written for a document is a call of the writing loop. -/
theorem recordCall_of_attempted {e : CallEvent} {d : DocumentId} {r : DocumentRecord}
    (h : recordAttempted e = some (d, r)) : recordCall e = some d := by
  unfold recordAttempted at h
  split at h
  · simp only [Option.some.injEq, Prod.mk.injEq] at h
    rw [← h.1]
    rfl
  · simp only [Option.some.injEq, Prod.mk.injEq] at h
    rw [← h.1]
    rfl
  · contradiction

/-- So is what was read for a write. -/
theorem recordCall_of_read {e : CallEvent} {d : DocumentId} {r : DocumentRecord}
    (h : recordRead e = some (d, r)) : recordCall e = some d := by
  unfold recordRead at h
  split at h
  · simp only [Option.some.injEq, Prod.mk.injEq] at h
    rw [← h.1]
    rfl
  · contradiction

/-- A call outside the writing loop is a careful one. -/
theorem heeding_of_part {d : DocumentId} {h : History Err Answer} {e : CallEvent} {w w' : World}
    (he : recordCall e = none) : Heeding d h e w w' := by
  intro r hr
  rw [recordCall_of_attempted hr] at he
  contradiction

/-- And does not find anything. -/
theorem recordRead_of_part {e : CallEvent} (he : recordCall e = none) : recordRead e = none := by
  cases hr : recordRead e with
  | none => rfl
  | some x =>
    rw [recordCall_of_read hr] at he
    contradiction

/-- From a state in which nothing was found, the program makes careful record
writes only, and once it finds the record deleted it ends with that exception. -/
def Heeds {α : Type} (d : DocumentId) (p : Prog α) : Prop := ∀ h w, ¬ Seen d h →
  Sat Happens (Heeding d) Writers (fun h res _ => Seen d h → res = .error (.app (.documentDeleted d))) p h w

/-- The program makes careful record writes only. -/
def Stops {α : Type} (d : DocumentId) (p : Prog α) : Prop := ∀ h w, ¬ Seen d h →
  Sat Happens (Heeding d) Writers (fun _ _ _ => True) p h w

/-- The program makes no record write of `d`, whatever was found. -/
def Leaves {α : Type} (d : DocumentId) (p : Prog α) : Prop := ∀ h w,
  Sat Happens (Heeding d) Writers (fun _ _ _ => True) p h w

variable {α β : Type} {d : DocumentId} {p : Prog α} {f : α → Prog β} {g : Err → Prog α}

/-- Parts leave the record alone. -/
theorem Leaves.of_part (hp : Composed Part p) : Leaves d p := fun h w =>
  (part_obligations (P := fun _ => True) (fun _ _ _ _ _ he => heeding_of_part he) fun _ _ _ _ => trivial).keeps
    hp h w trivial

/-- Calls outside the writing loop find nothing. -/
theorem seen_obligations (d : DocumentId) :
    Obligations Happens (Heeding d) Writers (fun h _ => ¬ Seen d h) (fun _ _ => True) := by
  refine part_obligations (fun _ _ _ _ _ he => heeding_of_part he) fun h e hs he => ?_
  rw [seen_append (recordRead_of_part he)]
  exact hs

/-- Neither do parts. -/
theorem keeps_not_seen (hp : Composed Part p) :
    Keeps Happens (Heeding d) Writers (fun h _ => ¬ Seen d h) p := (seen_obligations d).keeps hp

/-- So parts heed. -/
theorem Heeds.of_part (hp : Composed Part p) : Heeds d p := fun h w hs =>
  (keeps_not_seen hp h w hs).ending fun _ _ _ hs hs' => absurd hs' hs

/-- Returning heeds. -/
theorem Heeds.done (a : α) : Heeds d (.done a) := fun _ _ hs _ _ hs' => absurd hs' hs

/-- Raising heeds. -/
theorem Heeds.raise (e : Err) : Heeds d (.raise e : Prog α) := fun _ _ hs _ _ hs' => absurd hs' hs

/-- A normal end means nothing was found, so one may go on. -/
theorem Heeds.bind (hp : Heeds d p) (hf : ∀ a, Heeds d (f a)) : Heeds d (p.bind f) := by
  intro h w hs
  refine (hp h w hs).bind writers_rely (fun h a w hq => hf a h w fun hs => ?_) fun h e w hq hs => ?_
  · have := hq hs
    contradiction
  · have := hq hs
    rw [Except.error.injEq] at this
    rw [this]

/-- A handler of a part's exceptions. -/
theorem Heeds.catch_part (hp : Composed Part p) (hg : ∀ e, Heeds d (g e)) : Heeds d (p.catchError g) :=
  fun h w hs => (keeps_not_seen hp h w hs).catchError writers_rely (fun _ _ _ hs hs' => absurd hs' hs)
    fun h e w hs => hg e h w hs

/-- To heed is to stop. -/
theorem Heeds.stops (hp : Heeds d p) : Stops d p := fun h w hs => (hp h w hs).ending fun _ _ _ _ => trivial

/-- To leave the record alone is to stop. -/
theorem Leaves.stops (hp : Leaves d p) : Stops d p := fun h w _ => hp h w

/-- First heed, then stop. -/
theorem Stops.bind (hp : Heeds d p) (hf : ∀ a, Stops d (f a)) : Stops d (p.bind f) := by
  intro h w hs
  refine (hp h w hs).bind writers_rely (fun h a w hq => hf a h w fun hs => ?_) fun _ _ _ _ => trivial
  have := hq hs
  contradiction

/-- First stop, then leave the record alone. -/
theorem Stops.bind_leaves (hp : Stops d p) (hf : ∀ a, Leaves d (f a)) : Stops d (p.bind f) :=
  fun h w hs => (hp h w hs).bind writers_rely (fun h a w _ => hf a h w) fun _ _ _ _ => trivial

/-- First stop, then leave the record alone in the handler. -/
theorem Stops.catch_leaves (hp : Stops d p) (hg : ∀ e, Leaves d (g e)) : Stops d (p.catchError g) :=
  fun h w hs => (hp h w hs).catchError writers_rely (fun _ _ _ _ => trivial) fun h e w _ => hg e h w

/-- A handler that leaves the record alone when it is told of the deletion. -/
theorem Stops.catchError (hp : Heeds d p) (hdel : Leaves d (g (.app (.documentDeleted d))))
    (hg : ∀ e, Stops d (g e)) : Stops d (p.catchError g) := by
  intro h w hs
  refine (hp h w hs).catchError writers_rely (fun _ _ _ _ => trivial) fun h e w hq => ?_
  by_cases hs' : Seen d h
  · have he := hq hs'
    rw [Except.error.injEq] at he
    rw [he]
    exact hdel h w
  · exact hg e h w hs'

/-- What the last call found, if nothing was found before it. -/
theorem seen_last {h : History Err Answer} {e : CallEvent} (hs : ¬ Seen d h) (hs' : Seen d (h ++ [e])) :
    ∃ r, recordRead e = some (d, r) ∧ r.status = .deleted := by
  obtain ⟨e', hin, hr⟩ := hs'
  rcases List.mem_append.mp hin with hin | hin
  · exact absurd ⟨e', hin, hr⟩ hs
  · rw [List.mem_singleton] at hin
    rw [← hin]
    exact hr

/-- The answer of the loop's read names the record and the document. -/
theorem recordRead_tagged {d' : DocumentId} {c : Cell DocumentRecord} {r : DocumentRecord}
    (h : recordRead ⟨.getJsonWithEtag (.documentRecord d'), .ok (tagged c)⟩ = some (d, r)) :
    d' = d ∧ (tagged c).map Prod.fst = some r := by
  rw [tagged_map_fst]
  unfold tagged at h
  cases hc : c.content with
  | none =>
    rw [hc] at h
    contradiction
  | some v =>
    rw [hc] at h
    simp only [recordRead, Option.map_some, Option.some.injEq, Prod.mk.injEq] at h
    exact ⟨h.1, congrArg some h.2⟩

/-- Where the record was found deleted the guard raises. -/
theorem guarded_deleted {r : DocumentRecord} {current : Option DocumentRecord} (hr : r.status ≠ .deleted)
    (h : ∃ c, current = some c ∧ c.status = .deleted) :
    guarded r current = .error (.app (.documentDeleted r.id)) := by
  obtain ⟨c, rfl, hc⟩ := h
  simp only [guarded, rejectIllegalWrite_deleted hc hr]

/-- The loop that writes a live record: once it finds the record deleted it
raises, before any further write. -/
theorem heeds_guarded {r : DocumentRecord} (hr : r.status ≠ .deleted) (attempts : ℕ) :
    Heeds d (updateJsonCas (P := Payload) (.documentRecord r.id) (guarded r) attempts : Prog DocumentRecord) := by
  intro h w hs
  -- after the read: if the record was found deleted, then by this very read
  let found (cur : Option (DocumentRecord × ℕ)) (h : History Err Answer) : Prop :=
    Seen d h → r.id = d ∧ ∃ c, cur.map Prod.fst = some c ∧ c.status = .deleted
  have hwrite (h : History Err Answer) (cur : Option (DocumentRecord × ℕ)) (v : DocumentRecord)
      (hf : found cur h) (hv : guarded r (cur.map Prod.fst) = .ok v) : ¬ Seen d h := by
    intro hs
    rw [guarded_deleted hr (hf hs).2] at hv
    contradiction
  have hattempt (h : History Err Answer) (v : DocumentRecord) (cur : Option (DocumentRecord × ℕ))
      (c : Precondition) (a : Except Err Unit) (w w' : World) (hf : found cur h)
      (hv : guarded r (cur.map Prod.fst) = .ok v) :
      Heeding d h ⟨.putJsonConditional (.documentRecord r.id) v c, a⟩ w w' := by
    intro r' hr'
    simp only [recordAttempted, Option.some.injEq, Prod.mk.injEq] at hr'
    rw [← hr'.2, ← (guarded_ok hv).1]
    exact ⟨hr, hwrite h cur v hf hv⟩
  have rule : CasRule (P := Payload) Happens (Heeding d) Writers (.documentRecord r.id) (guarded r)
      (fun h _ => ¬ Seen d h) (fun cur h _ => found cur h)
      (fun h res _ => Seen d h → res = .error (.app (.documentDeleted d))) :=
    { stableI := fun _ _ _ _ hi => hi
      stableJ := fun _ _ _ _ _ hj => hj
      read := fun h w hs _ => by
        refine ⟨nofun, fun hs' => ?_⟩
        obtain ⟨c, hc, hdel⟩ := seen_last hs hs'
        obtain ⟨hid, hmap⟩ := recordRead_tagged hc
        exact ⟨hid, c, hmap, hdel⟩
      readRaised := fun h w m hs _ =>
        ⟨nofun, fun _ _ hs' => absurd ((seen_append rfl).mp hs') hs⟩
      rejected := fun h w cur e hf he hs => by
        rw [guarded_deleted hr (hf hs).2, (hf hs).1] at he
        rw [← he]
      written := fun h w cur v hf _ hv _ =>
        ⟨hattempt h v cur _ _ _ _ hf hv, fun _ _ hs => absurd ((seen_append rfl).mp hs) (hwrite h cur v hf hv)⟩
      refused := fun h w cur v hf hv _ =>
        ⟨hattempt h v cur _ _ _ _ hf hv, fun hs => hwrite h cur v hf hv ((seen_append rfl).mp hs)⟩
      putRaised := fun h w cur v m hf hv _ =>
        ⟨hattempt h v cur _ _ _ _ hf hv, fun _ _ hs => absurd ((seen_append rfl).mp hs) (hwrite h cur v hf hv)⟩
      exhausted := fun h w hs hs' => absurd hs' hs }
  exact rule.sat (fun _ _ _ _ ht => ht) (fun _ _ hw => hw _) attempts hs

/-- A guarded write of a live record heeds. -/
theorem heeds_saveDocumentRecord (p : ProcessId) {r : DocumentRecord} (hr : r.status ≠ .deleted) :
    Heeds d (saveDocumentRecord p r) := by
  refine Heeds.bind ?_ fun _ h w hs => ?_
  · rw [persistRecord_eq]
    exact (heeds_guarded hr _).bind fun _ => .done ()
  · exact ((seen_obligations d).sat_cachePut p hs trivial).ending fun _ _ _ hs hs' => absurd hs' hs

/-- The rules of heeding. -/
theorem heeds_rules (d : DocumentId) : Rules fun p => Heeds d p :=
  { part := .of_part
    save := fun p _ hr => heeds_saveDocumentRecord p hr
    bind := .bind
    catchPart := .catch_part }

/-- The body of an ingestion heeds. -/
theorem heeds_ingestBody (settings : Settings) (p : ProcessId) (record : DocumentRecord) (content : Bytes) :
    Heeds d (ingestBody settings p record content) := by
  refine .bind ?_ fun chunks => ?_
  · refine .bind (heeds_saveDocumentRecord p nofun) fun _ => ?_
    refine .bind (.of_part (parts (composed_call rfl))) fun markdown => ?_
    refine .bind (.of_part (.part (.inner (.putJson rfl _)))) fun _ => ?_
    refine .bind (heeds_saveDocumentRecord p nofun) fun _ => ?_
    refine .bind (.of_part (parts (composed_call rfl))) fun nodes => ?_
    refine .bind (.of_part (parts (composed_call rfl))) fun _ => ?_
    refine .bind (heeds_saveDocumentRecord p nofun) fun _ => ?_
    refine .bind (.of_part (parts (composed_embed settings _))) fun _ => ?_
    exact .bind (.of_part (parts (composed_upsertBatches _))) fun _ => .done _
  · refine .bind (.of_part (.part (.inner (.putJson rfl _)))) fun _ => ?_
    refine .bind (heeds_saveDocumentRecord p nofun) fun _ => ?_
    refine .bind (.of_part (parts (composed_recordIngestionSuccess record.id record.version))) fun _ => ?_
    exact .bind (.of_part (parts (composed_bestEffort (.deleteDocumentExceptVersion _ _) rfl ()))) fun _ => .done _

/-- The failure path of an ingestion stops. -/
theorem stops_ingestFailure (p : ProcessId) (record : DocumentRecord) (exc : Err) :
    Stops d (ingestFailure p record exc) := by
  refine .bind_leaves (.catch_leaves (Heeds.stops ?_) fun e => .of_part ?_) fun refused => .of_part ?_
  · exact .bind (heeds_saveDocumentRecord p nofun) fun _ => .done none
  · split
    · exact .bind (composed_abortIngestionForDeleted p _) fun _ => .done _
    · exact .bind (composed_abortIngestionForSuperseded p _) fun _ => .done _
    · exact .raise _
  · cases refused with
    | some current => exact .done current
    | none =>
      refine .bind (parts (composed_recordIngestionFailure record.id record.version _)) fun _ => ?_
      exact .bind (parts (composed_bestEffort (.deleteDocumentVersion _ _) rfl ())) fun _ => .raise exc

/-- An ingestion stops. -/
theorem stops_runIngestion (settings : Settings) (p : ProcessId) (record : DocumentRecord) (content : Bytes) :
    Stops d (runIngestion settings p record content) := by
  refine .catchError (heeds_ingestBody settings p record content)
    (.of_part (composed_abortIngestionForDeleted p _)) fun e => ?_
  split
  · exact (Leaves.of_part (composed_abortIngestionForDeleted p _)).stops
  · exact (Leaves.of_part (composed_abortIngestionForSuperseded p _)).stops
  · exact stops_ingestFailure p record _

/-- A whole ingestion job stops. -/
theorem stops_processDocumentJob (settings : Settings) (p : ProcessId) (job : IngestionJob) :
    Stops d (processDocumentJob settings p job) := by
  refine .bind (.of_part (.part (.getDocument p job.documentId))) fun record => ?_
  cases record with
  | none => exact (Heeds.raise _).stops
  | some record =>
    dsimp only
    unfold processRecord
    split
    · exact (Heeds.raise _).stops
    · split
      · exact (Heeds.raise _).stops
      · refine .bind ?_ fun content => stops_runIngestion settings p record content
        refine .catch_part (parts (composed_call rfl)) fun _ => .catch_part (parts (composed_call rfl)) fun exc => ?_
        exact .bind (heeds_saveDocumentRecord p nofun) fun _ => .raise exc

/-- So does the handling of a message. -/
theorem stops_processMessage (settings : Settings) (p : ProcessId) (job : IngestionJob) :
    Stops d (processMessage settings p job) := by
  have hack : Leaves d (call (.acknowledge job)) := fun h w =>
    (part_obligations (P := fun _ => True) (fun _ _ _ _ _ he => heeding_of_part he)
      fun _ _ _ _ => trivial).keeps_call rfl h w trivial
  refine .catch_leaves (.bind_leaves (stops_processDocumentJob settings p job) fun _ => hack) fun e => ?_
  split
  · exact hack
  · exact hack
  · exact .of_part (.done ())

/-- Every operation but a delete stops. -/
theorem stops_code (settings : Settings) {o : Operation} (ho : isDelete o = false) :
    Stops d (code settings o) := by
  by_cases hi : isIngestion o = false
  · exact ((heeds_rules d).code settings ho hi).stops
  · cases o with
    | processDocumentJob p job =>
      exact (stops_processDocumentJob settings p job).bind_leaves fun _ => .of_part (.done _)
    | processMessage p job => exact (stops_processMessage settings p job).bind_leaves fun _ => .of_part (.done _)
    | _ => exact absurd rfl hi

end Heeding

section Settling

/-- The document whose record a call wrote. -/
def wrote (d : DocumentId) (e : CallEvent) : Bool := (recordWritten e).any fun x => x.1 = d

/-- Whether a record write of `d` is under way after one more call. -/
def underWay (d : DocumentId) (before : Bool) (e : CallEvent) : Bool :=
  if wrote d e then false else if recordCall e = some d then true else before

/-- Every record write of `d` that was begun went through. -/
def Settled (d : DocumentId) (h : History Err Answer) : Prop := h.foldl (underWay d) false = false

variable {d : DocumentId}

/-- After a write that went through everything is settled. -/
theorem settled_wrote {h : History Err Answer} {e : CallEvent} (he : wrote d e = true) :
    Settled d (h ++ [e]) := by
  simp only [Settled, List.foldl_append, List.foldl_cons, List.foldl_nil, underWay, he, if_true]

/-- A call about something else changes nothing. -/
theorem settled_append {h : History Err Answer} {e : CallEvent} (he : recordCall e ≠ some d)
    (hs : Settled d h) : Settled d (h ++ [e]) := by
  simp only [Settled, List.foldl_append, List.foldl_cons, List.foldl_nil, underWay, he, if_false]
  split
  · rfl
  · exact hs

/-- If a write was under way, or begun since, and none is at the end, one went
through since. -/
theorem wrote_of_settled {h : History Err Answer} {before : Bool}
    (hs : h.foldl (underWay d) before = false)
    (hb : before = true ∨ ∃ e ∈ h, recordCall e = some d) : ∃ e ∈ h, wrote d e = true := by
  induction h generalizing before with
  | nil =>
    rcases hb with hb | ⟨e, he, -⟩
    · rw [List.foldl_nil, hb] at hs
      contradiction
    · exact absurd he List.not_mem_nil
  | cons x h ih =>
    rw [List.foldl_cons] at hs
    by_cases hx : wrote d x = true
    · exact ⟨x, List.mem_cons_self, hx⟩
    · have hlater : ∃ e ∈ h, wrote d e = true := by
        refine ih hs ?_
        simp only [underWay, hx, Bool.false_eq_true, if_false]
        by_cases hc : recordCall x = some d
        · exact .inl (by simp only [hc, if_true])
        · rcases hb with hb | ⟨e, he, hd⟩
          · exact .inl (by simp only [hc, if_false, hb])
          · rcases List.mem_cons.mp he with rfl | he
            · exact absurd hd hc
            · exact .inr ⟨e, he, hd⟩
      obtain ⟨e, he, hw⟩ := hlater
      exact ⟨e, List.mem_cons_of_mem _ he, hw⟩

/-- A program that ends normally only with every record write settled. -/
def Settles {α : Type} (d : DocumentId) (p : Prog α) : Prop := ∀ h w, Settled d h →
  Sat Happens (fun _ _ _ _ => True) Writers (fun h res _ => ∀ a, res = .ok a → Settled d h) p h w

variable {α β : Type} {p : Prog α} {f : α → Prog β} {g : Err → Prog α}

/-- Parts settle, however they end. -/
theorem settled_obligations (d : DocumentId) : Obligations Happens (fun _ _ _ _ => True) Writers
    (fun h _ => Settled d h) (fun _ _ => True) :=
  part_obligations (fun _ _ _ _ _ _ => trivial) fun h e hs he =>
    settled_append (by rw [he]; exact nofun) hs

/-- Parts settle. -/
theorem Settles.of_part (hp : Composed Part p) : Settles d p := fun h w hs =>
  ((settled_obligations d).keeps hp h w hs).ending fun _ _ _ hs _ _ => hs

/-- Returning settles. -/
theorem Settles.done (a : α) : Settles d (.done a) := fun _ _ hs _ _ _ _ => hs

/-- Programs that settle, in sequence. -/
theorem Settles.bind (hp : Settles d p) (hf : ∀ a, Settles d (f a)) : Settles d (p.bind f) :=
  fun h w hs => (hp h w hs).bind writers_rely (fun h a w hq => hf a h w (hq a rfl)) fun _ _ _ _ => nofun

/-- A handler of a part's exceptions. -/
theorem Settles.catch_part (hp : Composed Part p) (hg : ∀ e, Settles d (g e)) :
    Settles d (p.catchError g) := fun h w hs =>
  ((settled_obligations d).keeps hp h w hs).catchError writers_rely (fun _ _ _ hs _ _ => hs)
    fun h e w hs => hg e h w hs

/-- A guarded write settles: it returns after a write that went through. -/
theorem settles_saveDocumentRecord (p : ProcessId) (r : DocumentRecord) :
    Settles d (saveDocumentRecord p r) := by
  refine Settles.bind ?_ fun _ h w hs => ?_
  · rw [persistRecord_eq]
    refine Settles.bind (fun h w hs => ?_) fun _ => .done ()
    -- calls about another document's record leave `d` settled all along
    let apart (h : History Err Answer) : Prop := r.id ≠ d → Settled d h
    have happart (h : History Err Answer) (e : CallEvent) (hh : apart h) (he : recordCall e = some r.id) :
        apart (h ++ [e]) := fun hne => settled_append (fun heq => hne (by
          rw [he, Option.some.injEq] at heq
          exact heq)) (hh hne)
    have rule : CasRule (P := Payload) Happens (fun _ _ _ _ => True) Writers (.documentRecord r.id) (guarded r)
        (fun h _ => apart h) (fun _ h _ => apart h) (fun h res _ => ∀ a, res = .ok a → Settled d h) :=
      { stableI := fun _ _ _ _ hi => hi
        stableJ := fun _ _ _ _ _ hj => hj
        read := fun h w hh _ => ⟨trivial, happart h _ hh rfl⟩
        readRaised := fun _ _ _ _ _ => ⟨trivial, fun _ _ => nofun⟩
        rejected := fun _ _ _ _ _ _ => nofun
        written := fun h w cur v hh _ hv _ => by
          refine ⟨trivial, fun _ _ _ _ => ?_⟩
          by_cases hd : r.id = d
          · exact settled_wrote (by simp only [wrote, recordWritten, Option.any_some, hd, decide_true])
          · exact happart h _ hh rfl hd
        refused := fun h w cur v hh _ _ => ⟨trivial, happart h _ hh rfl⟩
        putRaised := fun _ _ _ _ _ _ _ _ => ⟨trivial, fun _ _ => nofun⟩
        exhausted := fun _ _ _ => nofun }
    exact rule.sat (fun _ _ _ _ ht => ht) (fun _ _ hw => hw _) _ fun _ => hs
  · exact ((settled_obligations d).sat_cachePut p hs trivial).ending fun _ _ _ hs _ _ => hs

/-- The rules of settling. -/
theorem settles_rules (d : DocumentId) : Rules fun p => Settles d p :=
  { part := .of_part
    save := fun p r _ => settles_saveDocumentRecord p r
    bind := .bind
    catchPart := .catch_part }

end Settling

section Runs

/-- A record write that went through was tried. -/
theorem attempted_of_written {e : CallEvent} {d : DocumentId} {r : DocumentRecord}
    (h : recordWritten e = some (d, r)) : recordAttempted e = some (d, r) := by
  unfold recordWritten at h
  split at h
  · exact h
  · exact h
  · contradiction

/-- A record write that was tried went through or was answered by an exception. -/
theorem written_or_error {e : CallEvent} {d : DocumentId} {r : DocumentRecord}
    (h : recordAttempted e = some (d, r)) :
    recordWritten e = some (d, r) ∨ ∃ err, e.answer = .error err := by
  unfold recordAttempted at h
  split at h
  · next d' r' c a =>
    cases a with
    | ok u => exact .inl h
    | error err => exact .inr ⟨err, rfl⟩
  · next d' r' a =>
    cases a with
    | ok u => exact .inl h
    | error err => exact .inr ⟨err, rfl⟩
  · contradiction

/-- The record a call wrote. -/
theorem written_of_wrote {e : CallEvent} {d : DocumentId} (h : wrote d e = true) :
    ∃ r, recordWritten e = some (d, r) := by
  unfold wrote at h
  cases hw : recordWritten e with
  | none =>
    rw [hw] at h
    contradiction
  | some x =>
    rw [hw, Option.any_some, decide_eq_true_eq] at h
    exact ⟨x.2, by rw [← h]⟩

variable {settings : Settings} {d : DocumentId} {p s q : ServicePool} {ms ns : List ServiceMove}

/-- What every operation guarantees and how it ends, as far as `d` goes. -/
theorem careful_code (settings : Settings) (d : DocumentId) (o : Operation) (w : World) :
    Sat Happens (fun h e w w' => Legal w w' ∧ (isDelete o = false → Heeding d h e w w')) Writers
      (fun h res _ => isDelete o = false → isIngestion o = false → ∀ a, res = .ok a → Settled d h)
      (code settings o) [] w := by
  have hlegal := legal_obligations.keeps_code settings o [] w trivial
  have hheed : Sat Happens (fun h e w w' => isDelete o = false → Heeding d h e w w') Writers
      (fun _ _ _ => True) (code settings o) [] w := by
    by_cases ho : isDelete o = false
    · have hnone : ¬ Seen d [] := fun ⟨e, he, _⟩ => absurd he List.not_mem_nil
      exact (stops_code settings ho [] w hnone).weaken (fun _ _ _ _ _ hg _ => hg) fun _ _ _ hq => hq
    · exact hlegal.weaken (fun _ _ _ _ _ _ h => absurd h ho) fun _ _ _ hq => hq
  have hsettle : Sat Happens (fun _ _ _ _ => True) Writers
      (fun h res _ => isDelete o = false → isIngestion o = false → ∀ a, res = .ok a → Settled d h)
      (code settings o) [] w := by
    by_cases ho : isDelete o = false ∧ isIngestion o = false
    · exact ((settles_rules d).code settings ho.1 ho.2 [] w rfl).ending fun _ _ _ hq _ _ => hq
    · exact hlegal.weaken (fun _ _ _ _ _ _ => trivial) fun _ _ _ _ h h' => absurd ⟨h, h'⟩ ho
  refine ((hlegal.both hheed).both hsettle).weaken (fun _ _ _ _ _ hg => hg.1) fun _ _ _ hq => hq.2

/-- Deletion is terminal. Once the stored record of `d` is deleted, it is
deleted ever after; every write of a live record for `d` is refused; no
operation that found the record deleted writes it afterwards; and an upload or
restore that so much as begins a write of the record ends with an exception. -/
theorem deletion_terminal (hidle : ∀ t, p.threads t = none) (h₁ : ServiceRun settings p ms s)
    (h₂ : ServiceRun settings s ns q) (hdel : Deleted d s.world) :
    Deleted d q.world ∧
    (∀ m ∈ ns, ∀ r, recordAttempted m.event = some (d, r) → r.status ≠ .deleted →
      ∃ e, m.event.answer = .error e) ∧
    (∀ m ∈ ns, isDelete m.runner.operation = false → ∀ r, recordAttempted m.event = some (d, r) →
      ¬ Seen d m.runner.past) ∧
    ∀ t th, q.threads t = some th → isDelete th.operation = false → isIngestion th.operation = false →
      (∃ m ∈ ns, m.thread = t ∧ recordCall m.event = some d) →
      ∀ res, th.result = some res → ∃ e, res = .error e := by
  have hrun := h₁.trans h₂
  obtain ⟨hsat, hguar, -⟩ := run_sound writers_rely (I := fun _ => True)
    (fun o w _ => careful_code settings d o w) (fun _ _ _ _ _ hg => hg.1.later) (fun _ _ _ _ => trivial)
    hrun hidle trivial fun m hm => (hrun.of_mem hm).1.exec
  have hlegal : ∀ m ∈ ns, Legal m.source.world m.target.world := fun m hm =>
    (hguar m (List.mem_append_right _ hm)).1
  -- the record is deleted before and after each of the later calls
  have hstay : ∀ m ∈ ns, Deleted d m.source.world := fun m hm => by
    obtain ⟨-, ns', hpre, hrun'⟩ := h₂.of_mem hm
    exact hrun'.world_invariant hdel fun m' hm' hd => hd.of_legal (hlegal m' (hpre.subset hm'))
  have hrefused : ∀ m ∈ ns, ∀ r, recordWritten m.event = some (d, r) → r.status = .deleted :=
    fun m hm r hw => live_write_refused (hstay m hm) (hlegal m hm) (h₂.of_mem hm).1.exec hw
  have hheed : ∀ m ∈ ns, isDelete m.runner.operation = false →
      Heeding d m.runner.past m.event m.source.world m.target.world := fun m hm =>
    (hguar m (List.mem_append_right _ hm)).2
  refine ⟨?_, fun m hm r hr hlive => ?_, fun m hm ho r hr => (hheed m hm ho r hr).2, ?_⟩
  · exact h₂.world_invariant hdel fun m hm hd => hd.of_legal (hlegal m hm)
  · rcases written_or_error hr with hw | he
    · exact absurd (hrefused m hm r hw) hlive
    · exact he
  · rintro t th ht hdelete hingestion ⟨m, hm, rfl, hcall⟩ res hres
    cases res with
    | error e => exact ⟨e, rfl⟩
    | ok a =>
      have hsettled : Settled d th.past := (hsat m.thread th ht).ended writers_rely hres hdelete hingestion a rfl
      have hpast := h₂.past_eq m.thread
      simp only [Pool.pastOf, ht, Option.map_some, Option.getD_some] at hpast
      rw [hpast, Settled, List.foldl_append] at hsettled
      -- every begun write went through, and one was begun after the deletion
      obtain ⟨e, he, hwrote⟩ := wrote_of_settled hsettled
        (.inr ⟨m.event, List.mem_map_of_mem (List.mem_filter.mpr ⟨hm, decide_eq_true rfl⟩), hcall⟩)
      obtain ⟨m', hm', rfl⟩ := List.mem_map.mp he
      obtain ⟨hin, hthread⟩ := List.mem_filter.mp hm'
      obtain ⟨r, hr⟩ := written_of_wrote hwrote
      obtain ⟨th', ht', ho, -⟩ := hrun.runner_kept (List.mem_append_right _ hin)
      rw [of_decide_eq_true hthread, ht, Option.some.injEq] at ht'
      rw [ht', ho] at hdelete
      have hlive := (hheed m' hin hdelete r (attempted_of_written hr)).1
      exact absurd (hrefused m' hin r hr) hlive

/-- An upload, the start of its ingestion, and a delete. -/
def deletingTurns : List Turn :=
  .start 0 (.queueDocument 0 "d" "f.txt" (utf8 "a") none) :: turns 0 7 "a" "i" ++
  .start 1 (.processDocumentJob 1 ⟨"d", contentHash sampleSettings (utf8 "a"), "f.txt", ""⟩) ::
    turns 1 4 "a" "i" ++
  .start 2 (.deleteDocument 2 "d") :: turns 2 7 "a" "i"

/-- The ingestion goes on, and the document is uploaded once more. -/
def lateTurns : List Turn :=
  turns 1 5 "a" "i" ++ .start 3 (.queueDocument 0 "d" "f.txt" (utf8 "b") none) :: turns 3 5 "b" "i"

/-- The state at the delete. -/
def deletedPool : ServicePool := after (Pool.idle World.empty) deletingTurns

theorem deletion_terminal_sample : ∃ ms ns, ServiceRun sampleSettings (Pool.idle World.empty) ms deletedPool ∧
    ServiceRun sampleSettings deletedPool ns (after deletedPool lateTurns) ∧
    Deleted "d" (after deletedPool lateTurns).world := by
  have hms := run_after (Pool.idle World.empty) deletingTurns (by decide +kernel)
  have hns := run_after deletedPool lateTurns (by decide +kernel)
  have hdel : (deletedPool.world.record "d").map DocumentRecord.status = some .deleted := by decide +kernel
  obtain ⟨r, hr, hstatus⟩ := Option.map_eq_some_iff.mp hdel
  exact ⟨_, _, hms, hns, (deletion_terminal (fun _ => rfl) hms hns ⟨r, hr, hstatus⟩).1⟩

end Runs

end RagSystem.DeletionTerminal
