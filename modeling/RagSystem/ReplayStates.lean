import RagSystem.ReplayRuns

/-!
# Terminal replay runs are final

Workers and cancellations write a run only past a check of the run they
replace. In any interleaving a terminal run is never replaced by another, and
only a completed run has a result.
-/

namespace RagSystem.ReplayStates

open AtomicProgram ThreadPool RelyGuarantee VersionedCell Storage CompareAndSwap ReplayRuns

set_option autoImplicit false

section Updates

/-- Only a completed run has a result, and it has one. -/
def Consistent (run : ReplayRun) : Prop :=
  (run.state = .completed → run.result.isSome = true) ∧
    (run.state = .failed ∨ run.state = .cancelled → run.result = none)

/-- A run that has not ended is consistent. -/
theorem Consistent.of_not_terminal {run : ReplayRun} (h : run.state.terminal = false) : Consistent run := by
  constructor
  · intro hs
    rw [hs] at h
    contradiction
  · intro hs
    rcases hs with hs | hs
    · rw [hs] at h
      contradiction
    · rw [hs] at h
      contradiction

/-- What a write makes of the run stored under `id`. -/
structure RunUpdate (id : String) (cur : Option ReplayRun) (new : ReplayRun) : Prop where
  /-- A terminal run stays. -/
  terminal : ∀ c, cur = some c → c.state.terminal = true → new = c
  /-- No run is queued again. -/
  started : ∀ c, cur = some c → c.state ≠ .queued → new.state ≠ .queued
  /-- It is as consistent as it was. -/
  consistent : (∀ c, cur = some c → Consistent c) → Consistent new
  /-- It is filed under its id if it was. -/
  filed : (∀ c, cur = some c → c.replayRunId = id) → new.replayRunId = id

/-- The first write of a run. -/
theorem RunUpdate.first {new : ReplayRun} (h : Consistent new) : RunUpdate new.replayRunId none new :=
  ⟨fun _ hc => (nomatch hc), fun _ hc => (nomatch hc), fun _ => h, fun _ => rfl⟩

/-- A run written over itself. -/
theorem RunUpdate.same (id : String) (cur : ReplayRun) : RunUpdate id (some cur) cur := by
  refine ⟨fun c hc _ => Option.some.inj hc, fun c hc hq => ?_, fun h => h cur rfl, fun h => h cur rfl⟩
  exact Option.some.inj hc ▸ hq

/-- A live run written over by another with its id. -/
theorem RunUpdate.over {id : String} {cur new : ReplayRun} (hlive : ¬ cur.state.terminal = true)
    (hstarted : new.state ≠ .queued) (hnew : Consistent new) (hid : new.replayRunId = cur.replayRunId) :
    RunUpdate id (some cur) new := by
  refine ⟨fun c hc hterm => ?_, fun _ _ _ => hstarted, fun _ => hnew, fun h => hid.trans (h cur rfl)⟩
  rw [Option.some.inj hc] at hlive
  exact absurd hterm hlive

/-- A cancellation is such a write. -/
theorem runUpdate_cancelRun (id : String) (run cur : ReplayRun) :
    RunUpdate id (some cur) (cancelRun run (some cur)) := by
  unfold cancelRun
  dsimp only
  by_cases ht : cur.state.terminal = true
  · rw [if_pos ht]
    exact .same id cur
  · rw [if_neg ht]
    exact .over ht (fun hq => (nomatch hq)) ⟨fun hs => (nomatch hs), fun _ => rfl⟩ rfl

/-- So is a transition. -/
theorem runUpdate_transitionTo {run : ReplayRun} (hstarted : run.state ≠ .queued) (hrun : Consistent run)
    (cur : Option ReplayRun) : RunUpdate run.replayRunId cur (transitionTo run cur) := by
  cases cur with
  | none => exact .first hrun
  | some cur =>
    unfold transitionTo
    dsimp only
    by_cases ht : cur.state.terminal = true
    · rw [if_pos ht]
      exact .same _ cur
    · rw [if_neg ht]
      by_cases hcancel : cur.cancelRequested = true ∧ run.state ≠ .cancelled
      · rw [if_pos hcancel]
        exact .over ht (fun hq => (nomatch hq)) ⟨fun hs => (nomatch hs), fun _ => rfl⟩ rfl
      · rw [if_neg hcancel]
        exact .over ht hstarted hrun rfl

/-- The runs the worker hands on have left the queue and are consistent. -/
theorem consistent_target (target : Target) : Consistent target.run := by
  constructor
  · exact fun h => target.result_iff.mpr h
  · intro h
    have hne : target.run.state ≠ .completed := by
      rcases h with h | h
      · rw [h]
        exact nofun
      · rw [h]
        exact nofun
    have hnone : ¬ target.run.result.isSome = true := fun hs => hne (target.result_iff.mp hs)
    simpa only [Option.isSome_iff_ne_none, not_not] using hnone

end Updates

section Steps

/-- Every run is filed under its id, as it was created. -/
def Filed (w : World) : Prop := ∀ id run, w.run id = some run → run.replayRunId = id

/-- What every call leaves of the stored runs. -/
structure Kept (w w' : World) : Prop where
  /-- Objects change by writing. -/
  later : Later w.objects w'.objects
  /-- Terminal runs stay. -/
  terminal : ∀ id run, w.run id = some run → run.state.terminal = true → w'.run id = some run
  /-- No run is queued again. -/
  started : ∀ id run, w.run id = some run → run.state ≠ .queued →
    ∃ run', w'.run id = some run' ∧ run'.state ≠ .queued
  /-- Runs stay consistent. -/
  consistent : (∀ id run, w.run id = some run → Consistent run) → ∀ id run, w'.run id = some run → Consistent run
  /-- Runs stay filed under their ids. -/
  filed : Filed w → Filed w'

/-- A call that leaves the runs keeps them. -/
theorem Kept.of_run {w w' : World} (hlater : Later w.objects w'.objects) (h : ∀ id, w'.run id = w.run id) :
    Kept w w' := by
  constructor
  · exact hlater
  · intro id run hr _
    rw [h]
    exact hr
  · intro id run hr hq
    exact ⟨run, (h id).trans hr, hq⟩
  · intro hc id run hr
    rw [h] at hr
    exact hc id run hr
  · intro hf id run hr
    rw [h] at hr
    exact hf id run hr

/-- One call after another. -/
theorem kept_rely : IsRely Kept := by
  constructor
  · exact fun w => Kept.of_run (.refl _) fun _ => rfl
  · intro w w' w'' h h'
    refine ⟨h.later.trans h'.later, fun id run hr ht => ?_, fun id run hr hq => ?_, fun hc => ?_, fun hf => ?_⟩
    · exact h'.terminal id run (h.terminal id run hr ht) ht
    · obtain ⟨run', hr', hq'⟩ := h.started id run hr hq
      exact h'.started id run' hr' hq'
    · exact h'.consistent (h.consistent hc)
    · exact h'.filed (h.filed hf)

/-- A run after it was written. -/
theorem run_put_self (w : World) (id : String) (new : ReplayRun) :
    World.run { w with objects := put w.objects (.replayRun id) new } id = some new := by
  simp only [World.run, put_self, Cell.write_content]

/-- The other runs are as they were. -/
theorem run_put_of_ne (w : World) {id id' : String} (new : ReplayRun) (h : id' ≠ id) :
    World.run { w with objects := put w.objects (.replayRun id) new } id' = w.run id' := by
  have hk : ReplayKey.replayRun id' ≠ .replayRun id := fun he => h (by injection he)
  simp only [World.run, put_of_ne _ _ hk]

/-- Such a write keeps the runs. -/
theorem Kept.of_put {w : World} {id : String} {new : ReplayRun} (h : RunUpdate id (w.run id) new) :
    Kept w { w with objects := put w.objects (.replayRun id) new } := by
  refine ⟨later_put _ _ _, fun id' run hr ht => ?_, fun id' run hr hq => ?_, fun hc id' run hr => ?_,
    fun hf id' run hr => ?_⟩
  · by_cases hid : id' = id
    · subst hid
      rw [run_put_self, h.terminal run hr ht]
    · rw [run_put_of_ne w new hid]
      exact hr
  · by_cases hid : id' = id
    · subst hid
      exact ⟨new, run_put_self w id' new, h.started run hr hq⟩
    · exact ⟨run, (run_put_of_ne w new hid).trans hr, hq⟩
  · by_cases hid : id' = id
    · subst hid
      rw [run_put_self, Option.some.injEq] at hr
      exact hr ▸ h.consistent fun c hcur => hc id' c hcur
    · rw [run_put_of_ne w new hid] at hr
      exact hc id' run hr
  · by_cases hid : id' = id
    · subst hid
      rw [run_put_self, Option.some.injEq] at hr
      exact hr ▸ h.filed fun c hcur => hf id' c hcur
    · rw [run_put_of_ne w new hid] at hr
      exact hf id' run hr

/-- Calls happen as the machine says. -/
abbrev Happens : StepPredicate World Err Answer := fun _ e w w' => replay.Exec e w w'

/-- Every call of a program keeps the runs. -/
abbrev KeepsRuns {α : Type} (Q : Ending World Err Answer α) : Prog α → History Err Answer → World → Prop :=
  Sat Happens (fun _ _ w w' => Kept w w') Kept Q

/-- This run was written. -/
def Written (id : String) (new : ReplayRun) (h : History Err Answer) : Prop :=
  ∃ c, ⟨.putJsonConditional (.replayRun id) new c, .ok ()⟩ ∈ h

/-- A write returns the run it wrote; a terminal one is still stored. The
update need only be right about a stored run where `S` says that there is one. -/
theorem sat_update (S : Prop) {id : String} {mutate : Option ReplayRun → ReplayRun}
    (hm : ∀ cur, (S → cur.isSome = true) → RunUpdate id cur (mutate cur)) (attempts : ℕ) (h : History Err Answer)
    {w : World} (hw : S → (w.run id).isSome = true) :
    KeepsRuns (fun h res w => ∀ new, res = .ok new → Written id new h ∧
        (new.state.terminal = true → World.run w id = some new))
      (updateJsonCas (P := Payload) (.replayRun id) (fun cur => .ok (mutate cur)) attempts) h w := by
  have hidle (w : World) : Kept w w := kept_rely.refl w
  have hstable (w w' : World) (hk : Kept w w') (hs : S → (w.run id).isSome = true) (hS : S) :
      (w'.run id).isSome = true := (hk.later (.replayRun id)).isSome (hs hS)
  have rule : CasRule (P := Payload) Happens (fun _ _ w w' => Kept w w') Kept (.replayRun id)
      (fun cur => .ok (mutate cur)) (fun _ w => S → (World.run w id).isSome = true)
      (fun _ _ w => S → (World.run w id).isSome = true)
      (fun h res w => ∀ new, res = .ok new → Written id new h ∧ (new.state.terminal = true → World.run w id = some new)) := by
    constructor
    case stableI => exact fun _ w w' hk hs => hstable w w' hk hs
    case stableJ => exact fun _ _ w w' hk hs => hstable w w' hk hs
    case read => exact fun _ w hs _ => ⟨hidle w, hs⟩
    case readRaised => exact fun _ w _ _ _ => ⟨hidle w, fun _ _ _ he => (nomatch he)⟩
    case rejected => exact fun _ _ _ _ _ he => (nomatch he)
    case refused => exact fun _ w _ _ hs _ _ => ⟨hidle w, hs⟩
    case putRaised => exact fun _ w _ _ _ _ _ _ => ⟨hidle w, fun _ _ _ he => (nomatch he)⟩
    case exhausted => exact fun _ _ _ _ he => (nomatch he)
    case written =>
      intro h w cur v hs hcontent hv _
      have hcur : World.run w id = cur.map Prod.fst := hcontent
      have hupdate : RunUpdate id (World.run w id) v := by
        injection hv with hv
        rw [hcur] at hs ⊢
        exact hv ▸ hm _ hs
      refine ⟨Kept.of_put hupdate, fun u hu new hnew => ?_⟩
      injection hnew with hnew
      subst hnew
      refine ⟨⟨_, List.mem_append_right _ (List.mem_singleton_self _)⟩, fun ht => ?_⟩
      exact hu.terminal id v (run_put_self w id v) ht
  exact rule.sat (fun _ _ _ _ he => he) (fun _ _ hk => hk.later _) attempts hw

end Steps

section Programs

/-- The parts the operations are put together from. -/
inductive Part : (β : Type) → Prog β → Prop
  /-- A call outside the store. -/
  | call (x : ReplayCall) : Part _ (call x)
  /-- A read. -/
  | getJson (k : ReplayKey) : Part _ (getJson k)
  /-- A write of a run. -/
  | update {id : String} {mutate : Option ReplayRun → ReplayRun} (hm : ∀ cur, RunUpdate id cur (mutate cur)) :
      Part _ (updateJsonCas (P := Payload) (.replayRun id) (fun cur => .ok (mutate cur)) maxAttempts)

/-- Every part keeps the runs. -/
theorem keeps_part (β : Type) (p : Prog β) (hp : Part β p) :
    Keeps Happens (fun _ _ w w' => Kept w w') Kept (fun _ _ => True) p := by
  cases hp with
  | call x =>
    refine Keeps.perform (fun _ _ _ _ h => h) fun h w r w' _ ht => ⟨?_, trivial⟩
    obtain ⟨o, rest, -, rfl⟩ := exec_other ht
    exact Kept.of_run (.refl _) fun _ => rfl
  | getJson k =>
    refine Keeps.perform (fun _ _ _ _ h => h) fun h w r w' _ ht => ⟨?_, trivial⟩
    rw [(exec_getJson ht).1]
    exact kept_rely.refl w
  | @update id mutate hm =>
    intro h w _
    have hsat := sat_update False (fun cur _ => hm cur) maxAttempts h (w := w) False.elim
    exact hsat.ending fun _ _ _ _ => trivial

/-- A transition of a consistent run that has left the queue. -/
theorem composed_transition {run : ReplayRun} (hstarted : run.state ≠ .queued) (hrun : Consistent run) :
    Composed Part (transition run) := .part (.update (runUpdate_transitionTo hstarted hrun))

/-- The look at the cancel flag. -/
theorem composed_checkCancelled (run : ReplayRun) : Composed Part (checkCancelled run) :=
  .bind (.part (.getJson (.replayRun _))) fun _ => .done _

/-- A read that must find something. -/
theorem composed_require {k : ReplayKey} {α : Type} {f : Option (Payload k) → Prog α} (hf : ∀ x, Composed Part (f x)) :
    Composed Part ((getJson k : Prog (Option (Payload k))).bind f) := .bind (.part (.getJson k)) hf

/-- A stage boundary. -/
theorem composed_stageBoundary (settings : ReplaySettings) (run : ReplayRun) (startTime : ℚ) :
    Composed Part (stageBoundary settings run startTime) := by
  have htimeout : Composed Part (checkTimeout settings startTime) := by
    refine .bind (.part (.call .monotonic)) fun now => ?_
    split
    · exact .raise _
    · exact .done ()
  refine .bind htimeout fun _ => .bind (composed_checkCancelled run) fun cancelled => ?_
  split
  · exact .raise _
  · exact .done ()

/-- The rows of the SQL route. -/
theorem composed_replayRows (settings : ReplaySettings) (request : ReplayRunRequest) (config : AIConfigurationVersion)
    (route : String) : Composed Part (replayRows settings request config route) := by
  unfold replayRows
  split
  · refine .bind (.part (.call (.generateSql _ _))) fun sql => ?_
    refine .bind (composed_require fun x => ?_) fun _ => .done _
    cases x with
    | none => exact .raise _
    | some fixture => exact .done _
  · exact .done _

/-- The evidence. -/
theorem composed_buildEvidence (items : List (Except String EvidenceModels.EvidenceItem)) :
    Composed Part (buildEvidence items) := by
  induction items with
  | nil => exact .done _
  | cons item items ih =>
    cases item with
    | ok item => exact .bind ih fun _ => .done _
    | error e => exact .raise _

/-- The replay itself writes nothing. -/
theorem composed_executeWithTimeout (settings : ReplaySettings) (run : ReplayRun) (startTime : ℚ) :
    Composed Part (executeWithTimeout settings run startTime) := by
  have hconfig : Composed Part (loadAIConfigVersion run.request.aiConfigurationVersionId) := by
    refine composed_require fun x => ?_
    cases x with
    | none => exact .raise _
    | some config => exact .done _
  have hsnapshot : Composed Part (loadSnapshot run.request.corpusSnapshotId) := by
    refine composed_require fun x => ?_
    cases x with
    | none => exact .raise _
    | some snapshot => exact .done _
  have hboundary := composed_stageBoundary settings run startTime
  refine .bind hconfig fun config => .bind hsnapshot fun snapshot => .bind hboundary fun _ => ?_
  refine .bind (.part (.call (.classifyRoute _ _))) fun route => .bind hboundary fun _ => ?_
  refine .bind (.part (.call (.retrieveSnapshotScoped _ _ _ _ _))) fun retrieval => .bind hboundary fun _ => ?_
  refine .bind (composed_replayRows settings _ config route) fun rows => .bind hboundary fun _ => ?_
  refine .bind (.part (.call (.generateAnswer _ _ _ _ _))) fun output => ?_
  refine .bind (.part (.call .monotonic)) fun finished => ?_
  exact .bind (composed_buildEvidence output.evidence) fun _ => .done _

/-- The failure and cancellation records are consistent. -/
theorem composed_recordFailure (settings : ReplaySettings) (run : ReplayRun) (e : Err) :
    Composed Part (recordFailure settings run e) := by
  have hcancelled : Composed Part (transition (cancelledRun run)) := composed_transition (fun hs => (nomatch hs)) ⟨fun hs => (nomatch hs), fun _ => rfl⟩
  have hfailed (reason : String) : Composed Part (transition (failedRun run reason)) :=
    composed_transition (fun hs => (nomatch hs)) ⟨fun hs => (nomatch hs), fun _ => rfl⟩
  unfold recordFailure
  split
  · exact hcancelled
  · exact hfailed _
  · exact hfailed _
  · exact hfailed _

/-- The execution of a started run. -/
theorem composed_executeStarted (settings : ReplaySettings) (run : ReplayRun) :
    Composed Part (executeStarted settings run) := by
  refine .bind (.part (.call .monotonic)) fun startTime => .catchError ?_ fun e => composed_recordFailure settings run e
  refine .bind (composed_executeWithTimeout settings run startTime) fun result => ?_
  exact composed_transition (fun hs => (nomatch hs)) ⟨fun _ => rfl, fun h => h.elim (fun hs => (nomatch hs)) fun hs => (nomatch hs)⟩

/-- The whole of `execute_run`. -/
theorem composed_executeRun (settings : ReplaySettings) (runId : String) :
    Composed Part (executeRun settings runId) := by
  refine .bind (.part (.getJson (.replayRun _))) fun loaded => ?_
  cases loaded with
  | none => exact .done _
  | some run =>
    dsimp only
    split
    · exact .done _
    · have hstop : Composed Part (if run.cancelRequested then pure true else checkCancelled run) := by
        split
        · exact .done true
        · exact composed_checkCancelled run
      refine .bind hstop fun stop => ?_
      split
      · exact .bind (composed_transition (fun hs => (nomatch hs)) ⟨fun hs => (nomatch hs), fun _ => rfl⟩) fun _ => .done _
      · refine .bind (composed_transition (fun hs => (nomatch hs)) (Consistent.of_not_terminal rfl)) fun persisted => ?_
        split
        · exact .done _
        · exact .bind (composed_executeStarted settings _) fun _ => .done _

end Programs

section Runs

/-- A pool of the replay code. -/
abbrev ReplayPool := Pool World Operation Err Answer Reply

/-- A move of the replay code. -/
abbrev ReplayMove := Move World Operation Err Answer Reply

/-- A run of the replay code. -/
abbrev Replays (settings : ReplaySettings) := Run (O := Operation) replay (code settings)

variable {settings : ReplaySettings} {p q r : ReplayPool} {ms ns : List ReplayMove}

/-- What a cancellation that reports the run as cancelled knows of the store. -/
def Cancelled : Operation → Ending World Err Answer Reply
  | .cancelReplayRun id => fun _ res w => ∀ run, res = .ok (.run run) → run.state = .cancelled →
      World.run w id = some run
  | _ => fun _ _ _ => True

/-- A cancellation reports a cancelled run only while it is stored. -/
theorem sat_cancelReplayRun (id : String) (h : History Err Answer) (w : World) :
    KeepsRuns (fun _ res w => ∀ run, res = .ok run → run.state = .cancelled → World.run w id = some run)
      (cancelReplayRun id) h w := by
  intro w₁ _ r w₂ ht
  obtain ⟨rfl, rfl | ⟨m, rfl⟩⟩ := exec_getJson ht
  · refine ⟨kept_rely.refl w₂, ?_⟩
    dsimp only [Program.bind]
    cases hstored : (w₂.objects (.replayRun id)).content with
    | none => exact .raise fun _ _ _ he => (nomatch he)
    | some run =>
      dsimp only
      by_cases hterminal : run.state.terminal = true
      · rw [if_pos hterminal]
        refine .done fun w₃ hkept run' hres _ => ?_
        injection hres with hres
        exact hres ▸ hkept.terminal id run hstored hterminal
      · rw [if_neg hterminal]
        have hupdate (cur : Option ReplayRun) (hcur : True → cur.isSome = true) : RunUpdate id cur (cancelRun run cur) := by
          obtain ⟨cur, rfl⟩ := Option.isSome_iff_exists.mp (hcur trivial)
          exact runUpdate_cancelRun id run cur
        have hsat := sat_update True hupdate maxAttempts (h ++ [⟨.getJson (.replayRun id), .ok (some run)⟩])
          (w := w₂) fun _ => by rw [World.run, hstored]; rfl
        refine hsat.ending fun h res w hq run' hres hcancelled => ?_
        exact (hq run' hres).2 (by rw [hcancelled]; rfl)
  · exact ⟨kept_rely.refl w₂, .raise fun _ _ _ he => (nomatch he)⟩

/-- Every operation keeps the runs and knows what it reports. -/
theorem sat_code (settings : ReplaySettings) (o : Operation) (w : World) :
    KeepsRuns (Cancelled o) (code settings o) [] w := by
  have hkeep {q : Prog Reply} (hq : Composed Part q) : KeepsRuns (fun _ _ _ => True) q [] w :=
    hq.keeps kept_rely (fun _ _ _ _ h => h) keeps_part [] w trivial
  cases o with
  | executeRun runId => exact hkeep (.bind (composed_executeRun settings runId) fun _ => .done _)
  | transition target =>
    exact hkeep (.bind (composed_transition target.started (consistent_target target)) fun _ => .done _)
  | cancelReplayRun id =>
    refine (sat_cancelReplayRun id [] w).bind kept_rely (fun h run w hq => ?_) fun h e w _ _ he => (nomatch he)
    refine .done fun w' hkept run' hres hcancelled => ?_
    injection hres with hres
    injection hres with hres
    have hstored := hq run rfl (hres ▸ hcancelled)
    exact hres ▸ hkept.terminal id run hstored (by rw [hres, hcancelled]; rfl)

/-- Every call of a run of the replay code keeps the stored runs, and its
threads know what they report. -/
theorem sound_of_run (hrun : Replays settings p ms q) (hidle : ∀ t, p.threads t = none) :
    (∀ t th, q.threads t = some th → KeepsRuns (Cancelled th.operation) th.program th.past q.world) ∧
      ∀ m ∈ ms, Kept m.source.world m.target.world := by
  have hsound := run_sound (I := fun _ => True) kept_rely (fun o w _ => sat_code settings o w)
    (fun _ _ _ _ _ hg => hg) (fun _ _ _ _ => trivial) hrun hidle trivial fun m hm => (hrun.of_mem hm).1.exec
  exact ⟨hsound.1, hsound.2.1⟩

/-- Workers and cancellations in any interleaving. Once a stored run is
terminal it never changes again; a completed run has a result, and a failed or
cancelled one has none; and a run that a finished cancellation reported as
cancelled is stored as cancelled ever after. -/
theorem replay_run_final (hrun : Replays settings p ms q) (hrest : Replays settings q ns r)
    (hidle : ∀ t, p.threads t = none) (hcreated : ∀ id run, p.world.run id = some run → Consistent run) :
    (∀ id run, q.world.run id = some run → run.state.terminal = true → r.world.run id = some run) ∧
      (∀ id run, q.world.run id = some run → (run.state = .completed → run.result.isSome = true) ∧
        (run.state = .failed ∨ run.state = .cancelled → run.result = none)) ∧
      ∀ t th id run, q.threads t = some th → th.operation = .cancelReplayRun id →
        th.result = some (.ok (.run run)) → run.state = .cancelled → r.world.run id = some run := by
  have hkept := (sound_of_run (hrun.trans hrest) hidle).2
  have hfinal (id : String) (run : ReplayRun) (hq : q.world.run id = some run)
      (hterminal : run.state.terminal = true) : r.world.run id = some run := by
    refine hrest.world_invariant (I := fun w => World.run w id = some run) hq fun m hm hstored => ?_
    exact (hkept m (List.mem_append_right _ hm)).terminal id run hstored hterminal
  refine ⟨hfinal, ?_, ?_⟩
  · refine hrun.world_invariant (I := fun w => ∀ id run, World.run w id = some run → Consistent run) hcreated ?_
    exact fun m hm hc => (hkept m (List.mem_append_left _ hm)).consistent hc
  · intro t th id run hth hop hres hcancelled
    have hsat := (sound_of_run hrun hidle).1 t th hth
    rw [hop] at hsat
    have hstored := hsat.ended kept_rely hres run rfl hcancelled
    exact hfinal id run hstored (by rw [hcancelled]; rfl)

/-- A worker starts the sample run, and it is cancelled. -/
def cancelTurns : List Turn :=
  .start 0 (.executeRun "r") :: turns 0 5 ++ .start 1 (.cancelReplayRun "r") :: turns 1 3

/-- The pool in which the sample run has been cancelled. -/
def cancelledPool : ReplayPool := (Pool.idle sampleWorld).reached replay (code sampleSettings) cancelTurns

/-- The pool in which the worker has noticed. -/
def noticedPool : ReplayPool := cancelledPool.reached replay (code sampleSettings) (turns 0 6)

theorem replay_run_final_sample : ∃ ms ns, Replays sampleSettings (Pool.idle sampleWorld) ms cancelledPool ∧
    Replays sampleSettings cancelledPool ns noticedPool ∧
    (cancelledPool.world.run "r").any (fun run => run.state = .cancelled) ∧
    noticedPool.world.run "r" = cancelledPool.world.run "r" := by
  have hdriven : ((Pool.idle sampleWorld : ReplayPool).drive replay (code sampleSettings) cancelTurns).isSome = true := by
    decide +kernel
  have hnoticed : (cancelledPool.drive replay (code sampleSettings) (turns 0 6)).isSome = true := by decide +kernel
  have hrun := Run.reached hdriven
  have hrest := Run.reached hnoticed
  have hcreated : ∀ id run, sampleWorld.run id = some run → Consistent run := by
    intro id run hstored
    have hrun : run = queuedRun := by
      unfold World.run sampleWorld at hstored
      dsimp only at hstored
      split at hstored
      · exact (Option.some.inj hstored).symm
      · contradiction
    exact hrun ▸ Consistent.of_not_terminal rfl
  have hfinal := replay_run_final hrun hrest (fun _ => rfl) hcreated
  have hcancelled : (cancelledPool.world.run "r").any (fun run => run.state = .cancelled) = true := by decide +kernel
  obtain ⟨run, hstored, hstate⟩ := (Option.any_eq_true _ _).mp hcancelled
  have hterminal : run.state.terminal = true := by
    rw [of_decide_eq_true hstate]
    rfl
  exact ⟨_, _, hrun, hrest, hcancelled, (hfinal.1 "r" run hstored hterminal).trans hstored.symm⟩

end Runs

end RagSystem.ReplayStates
