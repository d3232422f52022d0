import RagSystem.DocumentFootprints
import RagSystem.ProgramEndings

/-!
# No ingestion job is lost

A worker acknowledges a message only once `process_document_job` has returned,
or has refused the job as deleted or stale. So every published job is still
queued or was acknowledged after such an end.
-/

namespace RagSystem.QueuedJobs

open AtomicProgram ThreadPool RelyGuarantee ProgramPaths ProgramContracts ProgramEndings Storage DocumentModels
  DocumentStore DocumentService CallEffects StoreCalls LegalWrites DocumentFootprints

set_option autoImplicit false

section Counting

/-- The call published this job. -/
def enqueues (job : IngestionJob) : CallEvent → Bool
  | ⟨.other (.enqueue job'), .ok _⟩ => job' = job
  | _ => false

/-- The call acknowledged a message of this job. -/
def acknowledges (job : IngestionJob) : CallEvent → Bool
  | ⟨.other (.acknowledge job'), .ok _⟩ => job' = job
  | _ => false

/-- How often a job is published in a run. -/
def published (job : IngestionJob) (ms : List ServiceMove) : ℕ := ms.countP fun m => enqueues job m.event

/-- How often one of its messages is acknowledged. -/
def acknowledged (job : IngestionJob) (ms : List ServiceMove) : ℕ := ms.countP fun m => acknowledges job m.event

variable {e : CallEvent} {w w' : World} {job : IngestionJob}

/-- A call adds the job it publishes and removes at most the one it acknowledges. -/
theorem count_jobs (h : service.Exec e w w') :
    w'.rest.jobs.count job ≤ w.rest.jobs.count job + (enqueues job e).toNat ∧
      w.rest.jobs.count job + (enqueues job e).toNat ≤ w'.rest.jobs.count job + (acknowledges job e).toNat := by
  rw [(raw_jobs_of_exec h).2]
  unfold jobsAfter
  split
  · next job' _ =>
    have hcount : (w.rest.jobs ++ [job']).count job = w.rest.jobs.count job + (decide (job' = job)).toNat := by
      rw [List.count_append, List.count_singleton]
      by_cases heq : job' = job <;> simp [heq]
    simp only [enqueues, acknowledges, hcount, Bool.toNat_false]
    omega
  · next job' _ =>
    simp only [enqueues, acknowledges, Bool.toNat_false]
    rw [List.count_erase]
    by_cases heq : job' = job
    · simp [heq]
      omega
    · simp [heq]
  · next hnot hnot' =>
    have hpublished : enqueues job e = false := by
      unfold enqueues
      split
      · next job' u => exact absurd rfl (hnot job' u)
      · rfl
    simp only [hpublished, Bool.toNat_false]
    omega

/-- Over a run the published messages of a job are those still queued and at
most those acknowledged. -/
theorem count_of_run {settings : Settings} {p q : ServicePool} {ms : List ServiceMove}
    (h : ServiceRun settings p ms q) :
    q.world.rest.jobs.count job ≤ p.world.rest.jobs.count job + published job ms ∧
      p.world.rest.jobs.count job + published job ms ≤ q.world.rest.jobs.count job + acknowledged job ms := by
  unfold published acknowledged
  induction h with
  | refl => simp only [List.countP_nil, Nat.add_zero, Nat.le_refl, and_self]
  | start _ _ _ _ ih => exact ih
  | @move ms m _ hm ih =>
    have hone := @count_jobs _ _ _ job hm.exec
    have hlast (f : ServiceMove → Bool) : (ms ++ [m]).countP f = ms.countP f + (f m).toNat := by
      rw [List.countP_append, List.countP_singleton]
      cases f m <;> rfl
    rw [hlast, hlast]
    omega

end Counting

section Acknowledging

variable {settings : Settings} {p : ProcessId} {job job' : IngestionJob}

/-- Not an acknowledgement. -/
def Unacknowledging : Action → Prop
  | .other (.acknowledge _) => False
  | _ => True

/-- The ends of `process_document_job` after which its message is acknowledged. -/
def Settled : Except Err DocumentRecord → Prop
  | .ok _ => True
  | .error (.app (.documentDeleted _)) => True
  | .error (.app (.staleIngestion _ _ _)) => True
  | .error _ => False

/-- Calls on the way acknowledge nothing. -/
theorem permits_unacknowledging : Permits Unacknowledging where
  call x hx := by cases x <;> trivial
  getVersionIndex _ := trivial
  putDerived _ _ _ := trivial
  create _ _ _ := trivial
  readIndex _ := trivial
  putIndex _ _ _ := trivial

/-- Nothing that is put together from steps acknowledges. -/
theorem unacknowledging_of_steps {α : Type} {q : Prog α} (hq : Composed Step q) : q.Uses Unacknowledging := by
  refine hq.uses fun β q hstep => ?_
  cases hstep with
  | part h =>
    cases h with
    | inner h => exact permits_unacknowledging.uses_inner h
    | getDocument p d => exact StoreCalls.uses_getDocument trivial trivial fun _ => trivial
  | saveDocumentRecord p r => exact StoreCalls.uses_saveDocumentRecord trivial (fun _ => trivial) trivial

/-- Only the handling of messages acknowledges. -/
theorem unacknowledging_code {o : Operation} (ho : ∀ p job, o ≠ .processMessage p job) :
    (code settings o).Uses Unacknowledging := by
  have hmap {α : Type} {q : Prog α} {f : α → Reply} (hq : Composed Step q) : (f <$> q).Uses Unacknowledging :=
    (unacknowledging_of_steps hq).bind fun _ => trivial
  cases o with
  | queueDocument p d f c o => exact hmap (composed_queueDocument settings p d f c o)
  | updateDocument p d f c o => exact hmap (composed_updateDocument settings p d f c o)
  | deleteDocument p d => exact hmap (composed_deleteDocument p d)
  | processDocumentJob p job => exact hmap (composed_processDocumentJob settings p job)
  | processMessage p job => exact absurd rfl (ho p job)
  | restoreVersion p d v => exact hmap (composed_restoreVersion settings p d v)
  | getDocument p d => exact hmap (.part (.part (.getDocument p d)))
  | filterToActiveVersions p hits => exact hmap (steps (composed_filterLoop p hits []))

/-- The call acknowledges the message of its own job. -/
theorem path_acknowledge {h : History Err Answer} {next : Except Err Unit → Prog Unit}
    (hp : Path (DocumentService.call (.acknowledge job)) h (.act (.other (.acknowledge job')) next)) : job' = job := by
  cases hp with
  | refl => rfl
  | @act _ _ r _ _ hrest =>
    cases r with
    | ok u => cases hrest.of_done.2
    | error e => cases hrest.of_raise.2

/-- An acknowledgement is of the worker's own job, and comes after
`process_document_job` has ended in one of the three ways. -/
theorem path_processMessage {h : History Err Answer} {next : Except Err Unit → Prog Unit}
    (hp : Path (processMessage settings p job) h (.act (.other (.acknowledge job')) next)) :
    job' = job ∧ ∃ h' r, h' <+: h ∧ Ends (processDocumentJob settings p job) h' r ∧ Settled r := by
  have hfree := unacknowledging_of_steps (composed_processDocumentJob settings p job)
  obtain ⟨handler, heq, hhandler⟩ : ∃ handler : Err → Prog Unit, processMessage settings p job =
      ((processDocumentJob settings p job).bind fun _ => DocumentService.call (.acknowledge job)).catchError handler ∧
        ∀ e h next, Path (handler e) h (.act (.other (.acknowledge job')) next) → job' = job ∧ Settled (.error e) := by
    refine ⟨_, rfl, fun e h next hp => ?_⟩
    split at hp
    · exact ⟨path_acknowledge hp, trivial⟩
    · exact ⟨path_acknowledge hp, trivial⟩
    · cases hp.of_done.2
  rw [heq] at hp
  rcases Path.of_catchError hp with ⟨body, hbody, heq⟩ | ⟨e, h₁, h₂, rfl, hbody, hafter⟩
  · rcases Path.of_bind hbody with ⟨q, hq, rfl⟩ | ⟨record, h₁, h₂, rfl, hq, hack⟩
    · cases q with
      | done record =>
        injection heq with haction
        injection haction with hcall
        injection hcall with hjob
        exact ⟨hjob, h, .ok record, List.prefix_rfl, hq, trivial⟩
      | raise e =>
        have hnext := hhandler e [] next (by rw [heq]; exact .refl _)
        exact ⟨hnext.1, h, .error e, List.prefix_rfl, hq, hnext.2⟩
      | act a next' =>
        -- the job itself acknowledges nothing
        injection heq with haction
        have hused := hq.next_uses hfree
        rw [← haction] at hused
        contradiction
    · have hprefix : h₁ <+: h₁ ++ h₂ := List.prefix_append _ _
      cases body with
      | done u => cases heq
      | raise e =>
        have hnext := hhandler e [] next (by rw [heq]; exact .refl _)
        exact ⟨hnext.1, h₁, .ok record, hprefix, hq, trivial⟩
      | act a next' =>
        injection heq with haction
        subst haction
        exact ⟨path_acknowledge hack, h₁, .ok record, hprefix, hq, trivial⟩
  · have hnext := hhandler e h₂ next hafter
    rcases Path.of_bind hbody with ⟨q, hq, heq⟩ | ⟨record, h₃, h₄, rfl, hq, -⟩
    · cases q with
      | done record => cases heq
      | raise e' =>
        injection heq with he
        subst he
        exact ⟨hnext.1, h₁, .error e, List.prefix_append _ _, hq, hnext.2⟩
      | act a next' => cases heq
    · exact ⟨hnext.1, h₃, .ok record, by rw [List.append_assoc]; exact List.prefix_append _ _, hq, trivial⟩

end Acknowledging

section Runs

variable {settings : Settings} {p : ServicePool} {ms : List ServiceMove} {job : IngestionJob}

/-- The job an upload of the first version publishes. -/
def queuedJob : IngestionJob :=
  { firstJob with s3Uri := "gs://bucket/raw/d/" ++ contentHash sampleSettings (utf8 "a") ++ "/source.txt" }

/-- Process 0 uploads the first version, process 1 handles its message. -/
def handledTurns : List Turn :=
  uploadTurns ++ .start 1 (.processMessage 1 queuedJob) :: turns 1 31 "a" "i"

end Runs

end RagSystem.QueuedJobs
