import RagSystem.ProgramPaths
import RagSystem.ReplayStates

/-!
# Who executes a replay run

A worker executes a run once its compare-and-swap has made it running. The
compare-and-swap also replaces a run that is running already, so two workers
that both found the run queued may both execute it. As long as every such
write replaces a queued run, one worker executes it at most.
-/

namespace RagSystem.ReplayClaims

open AtomicProgram ThreadPool RelyGuarantee VersionedCell Storage CompareAndSwap ProgramPaths ReplayRuns
  ReplayStates

set_option autoImplicit false

section Claims

/-- The call made the run running. -/
def isClaim (id : String) : CallEvent → Bool
  | ⟨.putJsonConditional (.replayRun id') run _, .ok _⟩ => id' = id && run.state = .running
  | _ => false

/-- The call went to the executor or to the clock. -/
def isReplayCall : CallEvent → Bool
  | ⟨.other _, _⟩ => true
  | _ => false

/-- A worker with this past is through the transition to running. -/
def Claimed (id : String) (h : History Err Answer) : Prop := ∃ e ∈ h, isClaim id e = true

/-- A worker with this past has made a replay call. -/
def Performed (h : History Err Answer) : Prop := ∃ e ∈ h, isReplayCall e = true

instance (id : String) (h : History Err Answer) : Decidable (Claimed id h) := inferInstanceAs (Decidable (∃ e ∈ h, _))

instance (h : History Err Answer) : Decidable (Performed h) := inferInstanceAs (Decidable (∃ e ∈ h, _))

/-- The stored run is queued. -/
def isQueued (w : World) (id : String) : Bool := (w.run id).any fun run => run.state = .queued

/-- If the call made the run running, the run was queued until then. -/
def claimsQueued (id : String) (m : ReplayMove) : Bool := !isClaim id m.event || isQueued m.source.world id

/-- A claim stays in the past. -/
theorem Claimed.append {id : String} {h : History Err Answer} (hc : Claimed id h) (e : CallEvent) :
    Claimed id (h ++ [e]) := by
  obtain ⟨e', hin, he⟩ := hc
  exact ⟨e', List.mem_append_left _ hin, he⟩

/-- A run written as running is a claim. -/
theorem Claimed.of_written {id : String} {new : ReplayRun} {h : History Err Answer} (hw : Written id new h)
    (hs : new.state = .running) : Claimed id h := by
  obtain ⟨c, hin⟩ := hw
  have hclaim : isClaim id ⟨.putJsonConditional (.replayRun id) new c, .ok ()⟩ = true := by
    simp only [isClaim, hs, decide_true, Bool.and_self]
  exact ⟨_, hin, hclaim⟩

/-- A claim leaves the run running. -/
theorem run_of_isClaim {id : String} {e : CallEvent} {w w' : World} (he : replay.Exec e w w')
    (hc : isClaim id e = true) : ∃ run, w'.run id = some run ∧ run.state = .running := by
  unfold isClaim at hc
  split at hc
  · next id' run c u =>
    rw [Bool.and_eq_true, decide_eq_true_eq, decide_eq_true_eq] at hc
    obtain ⟨rfl, hs⟩ := hc
    have hput := exec_putJsonConditional he
    rcases hput with ⟨-, -, rfl⟩ | ⟨-, ⟨hr, -⟩ | ⟨m, hr⟩⟩
    · exact ⟨run, run_put_self w id' run, hs⟩
    · contradiction
    · contradiction
  · contradiction

end Claims

section Worker

/-- No replay call. -/
def NoReplayCall (a : Action) : Prop := ∀ x, a ≠ .other x

/-- Replay calls are made past a claim only. -/
def ClaimsFirst (id : String) : StepPredicate World Err Answer := fun h e _ _ => isReplayCall e = true → Claimed id h

/-- A program of a worker that claims before it calls. -/
abbrev Orderly {α : Type} (id : String) (Q : Ending World Err Answer α) : Prog α → History Err Answer → World → Prop :=
  Sat Happens (ClaimsFirst id) Kept Q

/-- What makes no replay call is orderly. -/
theorem orderly_of_uses {α : Type} {p : Prog α} (hp : p.Uses NoReplayCall) (id : String) (h : History Err Answer)
    (w : World) : Orderly id (fun _ _ _ => True) p h w := by
  have hkeeps : Keeps Happens (ClaimsFirst id) Kept (fun _ _ => True) p := by
    refine Keeps.of_uses (fun _ _ _ _ hi => hi) hp fun h e w w' ha _ _ => ⟨fun hcall => ?_, trivial⟩
    unfold isReplayCall at hcall
    split at hcall
    · exact absurd rfl (ha _)
    · contradiction
  exact hkeeps h w trivial

/-- Past a claim everything is orderly. -/
theorem orderly_of_claimed {α : Type} (p : Prog α) {id : String} {h : History Err Answer} (hc : Claimed id h)
    (w : World) : Orderly id (fun _ _ _ => True) p h w := by
  have hkeeps : Keeps Happens (ClaimsFirst id) Kept (fun h _ => Claimed id h) p :=
    Keeps.of_uses (fun _ _ _ _ hi => hi) p.uses_true fun h e w w' _ hi _ => ⟨fun _ => hi, hi.append e⟩
  exact (hkeeps h w hc).ending fun _ _ _ _ => trivial

/-- A read makes no replay call. -/
theorem uses_getJson (k : ReplayKey) : (getJson k : Prog (Option (Payload k))).Uses NoReplayCall :=
  Program.uses_perform fun _ he => (nomatch he)

/-- Nor does a transition. -/
theorem uses_transition (run : ReplayRun) : (transition run).Uses NoReplayCall :=
  uses_updateJsonCas (fun _ he => (nomatch he)) (fun _ _ _ _ _ he => (nomatch he)) maxAttempts

/-- Nor does the look at the cancel flag. -/
theorem uses_isCancelled (run : ReplayRun) : (isCancelled run).Uses NoReplayCall := by
  unfold isCancelled
  split
  · trivial
  · exact (uses_getJson _).bind fun _ => trivial

/-- The transition to running says that the run is running only after its
claim. -/
theorem orderly_start {run : ReplayRun} {id : String} (hid : run.replayRunId = id) (h : History Err Answer) (w : World) :
    Orderly id (fun h res _ => ∀ new, res = .ok new → new.state = .running → Claimed id h)
      (transition { run with state := .running }) h w := by
  subst hid
  have hcalls := orderly_of_uses (uses_transition { run with state := .running }) run.replayRunId h w
  have hstarted : ({ run with state := .running } : ReplayRun).state ≠ .queued := fun hs => (nomatch hs)
  have hupdate := runUpdate_transitionTo hstarted (Consistent.of_not_terminal rfl)
  have hwrites := sat_update False (fun cur _ => hupdate cur) maxAttempts h (w := w) False.elim
  refine (hcalls.both hwrites).weaken (fun _ _ _ _ _ hg => hg.1) fun h res w hq new hres hs => ?_
  exact Claimed.of_written (hq.2 new hres).1 hs

/-- A worker claims the run before it makes a replay call for it. -/
theorem orderly_executeRun (settings : ReplaySettings) (runId : String) {w : World} (hw : Filed w) :
    Orderly runId (fun _ _ _ => True) (executeRun settings runId) [] w := by
  intro w₁ hw₁ r w₂ ht
  refine ⟨fun hcall => (nomatch hcall), ?_⟩
  obtain ⟨rfl, rfl | ⟨m, rfl⟩⟩ := exec_getJson ht
  · dsimp only [Program.bind]
    cases hstored : (w₂.objects (.replayRun runId)).content with
    | none => exact .done fun _ _ => trivial
    | some run =>
      have hid : run.replayRunId = runId := hw₁.filed hw runId run hstored
      dsimp only
      split
      · exact .done fun _ _ => trivial
      · refine Sat.bind kept_rely (orderly_of_uses (uses_isCancelled run) _ _ _) (fun h stop w _ => ?_)
          fun _ _ _ _ => trivial
        split
        · refine orderly_of_uses (Program.Uses.bind (uses_transition _) fun _ => ?_) _ _ _
          trivial
        · refine Sat.bind kept_rely (orderly_start hid h w) (fun h persisted w hq => ?_) fun _ _ _ _ => trivial
          split
          · exact .done fun _ _ => trivial
          · next hs =>
            have hclaimed : Claimed runId h := hq persisted rfl (by simpa only [ne_eq, not_not] using hs)
            exact orderly_of_claimed _ hclaimed w
  · exact .raise fun _ _ => trivial

end Worker

section Runs

variable {settings : ReplaySettings} {p q : ReplayPool} {ms : List ReplayMove} {id : String}

/-- What an operation does about the order of claims and calls. -/
def OrderOf : Operation → StepPredicate World Err Answer
  | .executeRun runId => ClaimsFirst runId
  | _ => fun _ _ _ _ => True

/-- Every operation is orderly. -/
theorem sat_orderOf (settings : ReplaySettings) (o : Operation) {w : World} (hw : Filed w) :
    Sat Happens (fun h e w w' => Kept w w' ∧ OrderOf o h e w w') Kept (fun _ _ _ => True) (code settings o) [] w := by
  have hkept := sat_code settings o w
  have horder : Sat Happens (OrderOf o) Kept (fun _ _ _ => True) (code settings o) [] w := by
    cases o with
    | executeRun runId =>
      exact (orderly_executeRun settings runId hw).bind kept_rely (fun _ _ _ _ => .done fun _ _ => trivial)
        fun _ _ _ _ => trivial
    | cancelReplayRun _ => exact hkept.weaken (fun _ _ _ _ _ _ => trivial) fun _ _ _ _ => trivial
    | transition _ => exact hkept.weaken (fun _ _ _ _ _ _ => trivial) fun _ _ _ _ => trivial
  exact (hkept.both horder).ending fun _ _ _ _ => trivial

/-- Every call of a run keeps the stored runs, and workers claim before they
call. -/
theorem order_of_run (hrun : Replays settings p ms q) (hidle : ∀ t, p.threads t = none) (hfiled : Filed p.world) :
    ∀ m ∈ ms, Kept m.source.world m.target.world ∧
      OrderOf m.runner.operation m.runner.past m.event m.source.world m.target.world := by
  have hsound := run_sound kept_rely (fun o w hw => sat_orderOf settings o hw) (fun _ _ _ _ _ hg => hg.1)
    (fun _ _ hk => hk.filed) hrun hidle hfiled fun m hm => (hrun.of_mem hm).1.exec
  exact hsound.2.1

/-- Claims of queued runs come from one thread, and past one the run is not
queued. -/
theorem claim_once (hrun : Replays settings p ms q) (hkept : ∀ m ∈ ms, Kept m.source.world m.target.world)
    (hqueued : ∀ m ∈ ms, claimsQueued id m = true) :
    (∀ m ∈ ms, isClaim id m.event = true → ∃ run, q.world.run id = some run ∧ run.state ≠ .queued) ∧
      ∀ m ∈ ms, ∀ m' ∈ ms, isClaim id m.event = true → isClaim id m'.event = true → m.thread = m'.thread := by
  induction hrun with
  | refl => exact ⟨fun m hm => (nomatch hm), fun m hm => (nomatch hm)⟩
  | start _ _ _ _ ih => exact ih hkept hqueued
  | @move ms m hrun hm ih =>
    obtain ⟨hstarted, honce⟩ := ih (fun m hm => hkept m (List.mem_append_left _ hm))
      fun m hm => hqueued m (List.mem_append_left _ hm)
    have hin : m ∈ ms ++ [m] := List.mem_append_right _ (List.mem_singleton_self _)
    -- a claim of this move finds the run queued, so there was none before
    have hfirst (hc : isClaim id m.event = true) : ∀ m' ∈ ms, ¬ isClaim id m'.event = true := by
      intro m' hm' hc'
      obtain ⟨run, hstored, hs⟩ := hstarted m' hm' hc'
      have hfound := hqueued m hin
      simp only [claimsQueued, hc, Bool.not_true, Bool.false_or, isQueued, hstored, Option.any_some,
        decide_eq_true_eq] at hfound
      exact hs hfound
    constructor
    · intro m' hm' hc'
      rcases List.mem_append.mp hm' with hold | hnew
      · obtain ⟨run, hstored, hs⟩ := hstarted m' hold hc'
        exact (hkept m hin).started id run hstored hs
      · rw [List.mem_singleton.mp hnew] at hc'
        obtain ⟨run, hstored, hs⟩ := run_of_isClaim hm.exec hc'
        exact ⟨run, hstored, by rw [hs]; exact fun h => (nomatch h)⟩
    · intro m₁ hm₁ m₂ hm₂ hc₁ hc₂
      rcases List.mem_append.mp hm₁ with hold₁ | hnew₁
      · rcases List.mem_append.mp hm₂ with hold₂ | hnew₂
        · exact honce m₁ hold₁ m₂ hold₂ hc₁ hc₂
        · rw [List.mem_singleton.mp hnew₂] at hc₂
          exact absurd hc₁ (hfirst hc₂ m₁ hold₁)
      · rw [List.mem_singleton.mp hnew₁] at hc₁ ⊢
        rcases List.mem_append.mp hm₂ with hold₂ | hnew₂
        · exact absurd hc₂ (hfirst hc₁ m₂ hold₂)
        · rw [List.mem_singleton.mp hnew₂]

/-- A worker that is through the transition, or has made a replay call, has
made a claim in the run. -/
theorem claim_of_worker (hrun : Replays settings p ms q) (hidle : ∀ t, p.threads t = none) (hfiled : Filed p.world)
    {t : ℕ} {th : Thread Operation Err Answer Reply} (hth : q.threads t = some th)
    (hop : th.operation = .executeRun id) (hpast : Claimed id th.past ∨ Performed th.past) :
    ∃ m ∈ ms, m.thread = t ∧ isClaim id m.event = true := by
  rcases hpast with ⟨e, hin, hc⟩ | ⟨e, hin, hcall⟩
  · obtain ⟨m, hm, ht, rfl⟩ := hrun.move_of_past (hidle t) hth hin
    exact ⟨m, hm, ht, hc⟩
  · obtain ⟨m, hm, ht, rfl⟩ := hrun.move_of_past (hidle t) hth hin
    have horder := (order_of_run hrun hidle hfiled m hm).2
    obtain ⟨-, ns, hns, hbefore⟩ := hrun.of_mem hm
    obtain ⟨th', hth', hop', -⟩ := hrun.runner_kept hm
    rw [ht, hth, Option.some.injEq] at hth'
    rw [← hop', ← hth', hop] at horder
    obtain ⟨e', hin', hc'⟩ := horder hcall
    obtain ⟨m', hm', ht', rfl⟩ := hbefore.move_of_past (hidle _) (runner_of_mem hrun hm) hin'
    exact ⟨m', hns.subset hm', ht'.trans ht, hc'⟩

/-- In a run in which every claim of a run replaces a queued one, at most one
worker gets past the transition to running or makes a replay call for it. -/
theorem executed_once (hrun : Replays settings p ms q) (hidle : ∀ t, p.threads t = none) (hfiled : Filed p.world)
    (hqueued : ∀ m ∈ ms, claimsQueued id m = true) {t t' : ℕ} {th th' : Thread Operation Err Answer Reply}
    (hth : q.threads t = some th) (hth' : q.threads t' = some th') (hop : th.operation = .executeRun id)
    (hop' : th'.operation = .executeRun id) (hpast : Claimed id th.past ∨ Performed th.past)
    (hpast' : Claimed id th'.past ∨ Performed th'.past) : t = t' := by
  have hkept : ∀ m ∈ ms, Kept m.source.world m.target.world := fun m hm => (order_of_run hrun hidle hfiled m hm).1
  obtain ⟨m, hm, ht, hc⟩ := claim_of_worker hrun hidle hfiled hth hop hpast
  obtain ⟨m', hm', ht', hc'⟩ := claim_of_worker hrun hidle hfiled hth' hop' hpast'
  have hsame := (claim_once hrun hkept hqueued).2 m hm m' hm' hc hc'
  rw [← ht, ← ht', hsame]

/-- One worker executes the sample run to its end, and a second one comes late. -/
def onceTurns : List Turn :=
  .start 0 (.executeRun "r") :: turns 0 21 ++ .start 1 (.executeRun "r") :: turns 1 1

/-- The pool these turns lead to. -/
def oncePool : ReplayPool := (Pool.idle sampleWorld).reached replay (code sampleSettings) onceTurns

/-- Every sample run is filed under its id. -/
theorem filed_sampleWorld : Filed sampleWorld := by
  intro id run hstored
  unfold World.run sampleWorld at hstored
  dsimp only at hstored
  split at hstored
  · next hid =>
    rw [← Option.some.inj hstored, hid]
    rfl
  · contradiction

theorem executed_once_sample : ∃ ms, Replays sampleSettings (Pool.idle sampleWorld) ms oncePool ∧
    (∀ m ∈ ms, claimsQueued "r" m = true) ∧
    (∃ th, oncePool.threads 0 = some th ∧ th.operation = .executeRun "r" ∧ Claimed "r" th.past ∧ Performed th.past) ∧
    ∀ th, oncePool.threads 1 = some th → th.operation = .executeRun "r" → ¬ Performed th.past := by
  have hdriven : ((Pool.idle sampleWorld : ReplayPool).drive replay (code sampleSettings) onceTurns).isSome = true := by
    decide +kernel
  have hrun := Run.reached hdriven
  have hqueued : ∀ m ∈ (Pool.idle sampleWorld : ReplayPool).moves replay (code sampleSettings) onceTurns,
      claimsQueued "r" m = true := by decide +kernel
  have hfirst : ((oncePool.threads 0).any fun th =>
      th.operation = .executeRun "r" ∧ Claimed "r" th.past ∧ Performed th.past) = true := by decide +kernel
  obtain ⟨th, hth, hdone⟩ := (Option.any_eq_true _ _).mp hfirst
  obtain ⟨hop, hclaimed, hperformed⟩ := of_decide_eq_true hdone
  refine ⟨_, hrun, hqueued, ⟨th, hth, hop, hclaimed, hperformed⟩, fun th' hth' hop' hperformed' => ?_⟩
  have hsame := executed_once hrun (fun _ => rfl) filed_sampleWorld hqueued hth hth' hop hop' (.inl hclaimed)
    (.inr hperformed')
  contradiction

/-- Two workers find the sample run queued, and only then start it. -/
def twiceTurns : List Turn :=
  [.start 0 (.executeRun "r"), .start 1 (.executeRun "r")] ++ turns 0 2 ++ turns 1 2 ++ turns 0 2 ++ turns 1 2 ++
    turns 0 6 ++ turns 1 6

/-- The pool in which both have asked the executor for a route. -/
def twicePool : ReplayPool := (Pool.idle sampleWorld).reached replay (code sampleSettings) twiceTurns

/-- Both workers are through the transition to running and perform the replay. -/
theorem executed_twice : Filed sampleWorld ∧ isQueued sampleWorld "r" = true ∧
    ∃ ms th th', Replays sampleSettings (Pool.idle sampleWorld) ms twicePool ∧
      twicePool.threads 0 = some th ∧ twicePool.threads 1 = some th' ∧
      (th.operation = .executeRun "r" ∧ Claimed "r" th.past ∧ Performed th.past) ∧
      th'.operation = .executeRun "r" ∧ Claimed "r" th'.past ∧ Performed th'.past := by
  have hdriven : ((Pool.idle sampleWorld : ReplayPool).drive replay (code sampleSettings) twiceTurns).isSome = true := by
    decide +kernel
  have hfirst : ((twicePool.threads 0).any fun th =>
      th.operation = .executeRun "r" ∧ Claimed "r" th.past ∧ Performed th.past) = true := by decide +kernel
  have hsecond : ((twicePool.threads 1).any fun th =>
      th.operation = .executeRun "r" ∧ Claimed "r" th.past ∧ Performed th.past) = true := by decide +kernel
  obtain ⟨th, hth, hdone⟩ := (Option.any_eq_true _ _).mp hfirst
  obtain ⟨th', hth', hdone'⟩ := (Option.any_eq_true _ _).mp hsecond
  have hqueued : isQueued sampleWorld "r" = true := by decide +kernel
  exact ⟨filed_sampleWorld, hqueued, _, th, th', Run.reached hdriven, hth, hth', of_decide_eq_true hdone,
    of_decide_eq_true hdone'⟩

end Runs

end RagSystem.ReplayClaims
