import RagSystem.StoreCalls

/-!
# Only legal writes reach the store

In any run, by any number of processes with any caches, a stored record is
replaced only past `_reject_illegal_write`, judged against the record it
replaces, and a version index only by one of its two updates of the index it
replaces. The compare-and-swap makes the check and the write one step.
-/

namespace RagSystem.LegalWrites

open AtomicProgram ThreadPool RelyGuarantee VersionedCell Storage DocumentModels DocumentStore
  DocumentService CallEffects StoreCalls

set_option autoImplicit false

/-- What one call may do to the records and version indexes. -/
structure Legal (w w' : World) : Prop where
  /-- Objects change by writing. -/
  later : Later w.objects w'.objects
  /-- A record is as it was, or was replaced by one the guard lets pass. -/
  record : ∀ d, w'.objects (.documentRecord d) = w.objects (.documentRecord d) ∨
    ∃ r, w'.record d = some r ∧ r.id = d ∧ rejectIllegalWrite r (w.record d) = .ok ()
  /-- An index is as it was, or was replaced by an update of it. -/
  index : ∀ d, w'.objects (.documentVersionIndex d) = w.objects (.documentVersionIndex d) ∨
    ∃ i, w'.versionIndex d = some i ∧ IndexUpdate d (w.versionIndex d) i

/-- A call that leaves the JSON objects alone is legal. -/
theorem Legal.of_objects {w w' : World} (h : w'.objects = w.objects) : Legal w w' := by
  constructor
  · rw [h]
    exact .refl _
  · intro d
    rw [h]
    exact .inl rfl
  · intro d
    rw [h]
    exact .inl rfl

/-- A write of an object that is neither is legal. -/
theorem Legal.of_put {w : World} {k : Key} (v : Payload k) (hr : ∀ d, k ≠ .documentRecord d)
    (hi : ∀ d, k ≠ .documentVersionIndex d) : Legal w { w with objects := put w.objects k v } :=
  ⟨later_put _ _ _, fun d => .inl (put_of_ne _ _ (hr d).symm), fun d => .inl (put_of_ne _ _ (hi d).symm)⟩

/-- A guarded record write is legal. -/
theorem Legal.of_putRecord {w : World} {r : DocumentRecord}
    (hr : rejectIllegalWrite r (w.record r.id) = .ok ()) :
    Legal w { w with objects := put w.objects (.documentRecord r.id) r } := by
  have hindex (d : DocumentId) : Key.documentVersionIndex d ≠ .documentRecord r.id := nofun
  refine ⟨later_put _ _ _, fun d => ?_, fun d => .inl (put_of_ne _ r (hindex d))⟩
  by_cases hd : d = r.id
  · subst hd
    exact .inr ⟨r, World.record_put_self r, rfl, hr⟩
  · exact .inl (put_of_ne _ _ fun h => hd (by injection h))

/-- An index update is legal. -/
theorem Legal.of_putIndex {w : World} {d : DocumentId} {i : DocumentVersionIndex}
    (hi : IndexUpdate d (w.versionIndex d) i) :
    Legal w { w with objects := put w.objects (.documentVersionIndex d) i } := by
  have hrecord (d' : DocumentId) : Key.documentRecord d' ≠ .documentVersionIndex d := nofun
  refine ⟨later_put _ _ _, fun d' => .inl (put_of_ne _ i (hrecord d')), fun d' => ?_⟩
  by_cases hd : d' = d
  · subst hd
    exact .inr ⟨i, World.versionIndex_put_self i, hi⟩
  · exact .inl (put_of_ne _ _ fun h => hd (by injection h))

/-- Every single call of every operation is legal. -/
theorem legal_obligations : RecordObligations (fun _ e w w' => service.Exec e w w')
    (fun _ _ w w' => Legal w w') (fun w w' => Later w.objects w'.objects) (fun _ _ => True)
    (fun _ _ => True) where
  exec := fun _ _ _ _ h => h
  rely := ⟨fun w => .refl _, fun h h' => h.trans h'⟩
  later := fun _ _ h => h
  stable := fun _ _ _ _ h => h
  known := fun _ _ _ _ h => h
  read := fun _ _ _ _ _ _ => trivial
  idle := fun _ _ _ _ _ _ => ⟨.of_objects rfl, trivial⟩
  other := fun h w x r w' _ _ ht => by
    obtain ⟨o, rest, -, rfl⟩ := exec_other ht
    exact ⟨.of_objects rfl, trivial⟩
  cachePut := fun h w p r a w' _ _ ht => by
    obtain ⟨o, rest, -, rfl⟩ := exec_other ht
    exact ⟨.of_objects rfl, trivial⟩
  putIndex := fun _ _ _ _ _ hi _ _ => ⟨.of_putIndex hi, trivial⟩
  create := fun h w k v hk _ _ _ =>
    ⟨.of_put v (by rintro d rfl; contradiction) (by rintro d rfl; contradiction), trivial⟩
  putDerived := fun h w k v hk _ _ =>
    ⟨.of_put v (by rintro d rfl; contradiction) (by rintro d rfl; contradiction), trivial⟩
  readRecord := fun _ _ _ _ _ _ => ⟨.of_objects rfl, trivial⟩
  refusedRecord := fun _ _ _ _ _ _ _ _ => ⟨.of_objects rfl, trivial⟩
  putRecord := fun _ _ _ _ hr _ _ => ⟨.of_putRecord hr, trivial, trivial⟩

variable {settings : Settings}

/-- A pool of the service. -/
abbrev ServicePool := Pool World Operation Err Answer Reply

/-- A move of the service. -/
abbrev ServiceMove := Move World Operation Err Answer Reply

/-- A run of the service. -/
abbrev ServiceRun (settings : Settings) := Run (O := Operation) service (code settings)

/-- Every call of every run is legal where it is made. -/
theorem legal_of_run {p q : ServicePool} {ms : List ServiceMove} (h : ServiceRun settings p ms q)
    (hidle : ∀ t, p.threads t = none) : ∀ m ∈ ms, Legal m.source.world m.target.world := by
  have hcode : ∀ o w, True → Sat (fun _ e w w' => service.Exec e w w') (fun _ _ w w' => Legal w w')
      (fun w w' => Later w.objects w'.objects) (fun _ _ _ => True) (code settings o) [] w :=
    fun o w _ => legal_obligations.keeps_code settings o [] w trivial
  have hrun := run_sound legal_obligations.rely hcode (fun _ _ _ _ _ hl => hl.later) (fun _ _ _ _ => trivial) h hidle
    trivial fun m hm => (h.of_mem hm).1.exec
  exact hrun.2.1

/-- The pool some turns lead to, from another, if they can all be taken. -/
def taken (p : ServicePool) (ts : List Turn) : Option ServicePool :=
  p.drive service (code sampleSettings) ts

/-- The pool some turns lead to. -/
def after (p : ServicePool) (ts : List Turn) : ServicePool := (taken p ts).getD p

/-- The moves some turns make. -/
def movesOf (p : ServicePool) (ts : List Turn) : List ServiceMove := p.moves service (code sampleSettings) ts

/-- Turns that can all be taken make a run. -/
theorem run_after (p : ServicePool) (ts : List Turn) (h : (taken p ts).isSome) :
    ServiceRun sampleSettings p (movesOf p ts) (after p ts) := by
  obtain ⟨q, hq⟩ := Option.isSome_iff_exists.mp h
  have heq : after p ts = q := by rw [after, hq, Option.getD_some]
  rw [heq]
  exact Run.of_drive (.refl p) hq

section Sample

/-- The job of the first version of the sample document. -/
def firstJob : IngestionJob := ⟨"d", contentHash sampleSettings (utf8 "a"), "f.txt", ""⟩

/-- The job of the second version. -/
def secondJob : IngestionJob := ⟨"d", contentHash sampleSettings (utf8 "b"), "f.txt", ""⟩

/-- Process 0 uploads the first version. -/
def uploadTurns : List Turn :=
  .start 0 (.queueDocument 0 "d" "f.txt" (utf8 "a") none) :: turns 0 7 "a" "i"

/-- Process 0 uploads the first version, process 1 ingests it. -/
def ingestTurns : List Turn :=
  uploadTurns ++ .start 1 (.processDocumentJob 1 firstJob) :: turns 1 30 "a" "i"

/-- The state after the upload. -/
def uploadedPool : ServicePool := after (Pool.idle World.empty) uploadTurns

/-- The state after the ingestion. -/
def ingestedPool : ServicePool := after (Pool.idle World.empty) ingestTurns

end Sample

end RagSystem.LegalWrites
