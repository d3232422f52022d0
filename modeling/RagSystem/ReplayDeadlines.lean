import RagSystem.ReplayClaims

/-!
# The time limit of a replay run

A worker looks at the clock after each executor call but the last: the reading
after the answer has been generated goes into the latency and is not compared
with the limit. A completed run is within its limit when that one call returns
in time, whatever the other calls took.
-/

namespace RagSystem.ReplayDeadlines

open AtomicProgram ThreadPool RelyGuarantee VersionedCell Storage CompareAndSwap EvidenceModels ReplayRuns
  ReplayStates ReplayClaims

set_option autoImplicit false

section Clock

/-- The time a call of the clock returned. -/
def reading : CallEvent → Option ℚ
  | ⟨.other .monotonic, .ok time⟩ => some time
  | _ => none

/-- The call went to the executor: a model or retrieval call. -/
def isExecutorCall : CallEvent → Bool
  | ⟨.other .monotonic, _⟩ => false
  | ⟨.other _, _⟩ => true
  | _ => false

/-- The `start_time` of a worker with this past. -/
def startTime (h : History Err Answer) : Option ℚ := (h.filterMap reading).head?

/-- What a worker knows of its last executor call. -/
inductive LastCall where
  /-- There was none. -/
  | none
  /-- The clock was not read since. -/
  | unread
  /-- The first reading since. -/
  | returned (time : ℚ)
  deriving DecidableEq

/-- One more call. -/
def LastCall.note (last : LastCall) (e : CallEvent) : LastCall :=
  if isExecutorCall e then .unread
  else match last, reading e with
    | .unread, some time => .returned time
    | last, _ => last

/-- The last executor call of a past. -/
def lastCall (h : History Err Answer) : LastCall := h.foldl LastCall.note .none

/-- The last executor call returned within the limit. -/
def InTime (settings : ReplaySettings) (h : History Err Answer) : Prop :=
  ∃ start finished, startTime h = some start ∧ lastCall h = .returned finished ∧ finished - start ≤ settings.timeoutS

/-- The stored run has ended. -/
def isTerminal (w : World) (id : String) : Bool := (w.run id).any fun run => run.state.terminal

/-- The stored run is completed. -/
def isCompleted (w : World) (id : String) : Bool := (w.run id).any fun run => run.state = .completed

/-- The stored run becomes completed. -/
def Completes (id : String) (w w' : World) : Prop := isCompleted w id = false ∧ isCompleted w' id = true

/-- What `generate_answer` has just returned. -/
def answered (h : History Err Answer) : Option GenerationOutput :=
  match h.getLast? with
  | some ⟨.other (.generateAnswer _ _ _ _ _), .ok output⟩ => some output
  | _ => none

/-- The evidence item does not validate. -/
def isInvalid : Except String EvidenceItem → Bool
  | .error _ => true
  | .ok _ => false

/-- If the call made a run running, that run has ended since. -/
def isOver (w : World) : CallEvent → Bool
  | ⟨.putJsonConditional (.replayRun id) run _, .ok _⟩ => run.state ≠ .running || isTerminal w id
  | _ => true

/-- If the clock is read after `generate_answer`, the limit is not over, or an
evidence item is invalid, or the run has ended meanwhile. -/
def onTime (settings : ReplaySettings) (h : History Err Answer) (e : CallEvent) (w : World) : Bool :=
  match reading e, answered h, startTime h with
  | some finished, some output, some start =>
    finished - start ≤ settings.timeoutS || output.evidence.any isInvalid || h.all (isOver w)
  | _, _, _ => true

variable {settings : ReplaySettings} {h : History Err Answer} {e : CallEvent} {w w' : World} {id : String}

/-- The first reading stays the first. -/
theorem startTime_append {start : ℚ} (hs : startTime h = some start) (e : CallEvent) :
    startTime (h ++ [e]) = some start := by
  unfold startTime at hs ⊢
  rw [List.filterMap_append, List.head?_append, hs, Option.some_or]

/-- The first reading of all. -/
theorem startTime_first (hs : startTime h = none) (e : CallEvent) : startTime (h ++ [e]) = reading e := by
  unfold startTime at hs ⊢
  rw [List.filterMap_append, List.head?_append, hs, Option.none_or]
  cases hr : reading e <;> simp [hr]

/-- The last executor call after one more call. -/
theorem lastCall_append (h : History Err Answer) (e : CallEvent) : lastCall (h ++ [e]) = (lastCall h).note e := by
  simp [lastCall, List.foldl_append]

/-- Being in time is settled until the next executor call. -/
theorem InTime.append (hin : InTime settings h) (he : isExecutorCall e = false) : InTime settings (h ++ [e]) := by
  obtain ⟨start, finished, hs, hl, hle⟩ := hin
  have hlast : lastCall (h ++ [e]) = .returned finished := by
    rw [lastCall_append, hl]
    simp [LastCall.note, he]
  exact ⟨start, finished, startTime_append hs e, hlast, hle⟩

/-- The stored run stays ended. -/
theorem isTerminal_of_kept (hk : Kept w w') (ht : isTerminal w id = true) : isTerminal w' id = true := by
  obtain ⟨run, hrun, hterminal⟩ := (Option.any_eq_true _ _).mp ht
  have hsame := hk.terminal id run hrun hterminal
  simp [isTerminal, hsame, hterminal]

/-- A run that has ended does not become completed. -/
theorem not_completes_of_isTerminal (hk : Kept w w') (ht : isTerminal w id = true) : ¬ Completes id w w' := by
  rintro ⟨hbefore, hafter⟩
  obtain ⟨run, hrun, hterminal⟩ := (Option.any_eq_true _ _).mp ht
  have hsame := hk.terminal id run hrun hterminal
  unfold isCompleted at hbefore hafter
  rw [hrun] at hbefore
  rw [hsame] at hafter
  exact absurd hafter (by simp [hbefore])

/-- Nor does a run that is left alone. -/
theorem not_completes_of_run (hsame : w'.run id = w.run id) : ¬ Completes id w w' := by
  rintro ⟨hbefore, hafter⟩
  unfold isCompleted at hbefore hafter
  rw [hsame, hbefore] at hafter
  contradiction

/-- What a claimed run's end says once it has been checked on the whole past. -/
theorem isTerminal_of_isOver (hclaimed : Claimed id h) (hover : h.all (isOver w) = true) : isTerminal w id = true := by
  obtain ⟨e, hin, hc⟩ := hclaimed
  have hthis := List.all_eq_true.mp hover e hin
  unfold isClaim at hc
  split at hc
  · simp only [Bool.and_eq_true, decide_eq_true_eq] at hc
    obtain ⟨rfl, hs⟩ := hc
    simpa [isOver, hs] using hthis
  · contradiction

end Clock

section Steps

variable {settings : ReplaySettings} {id runId : String} {α : Type}

/-- Calls happen as the machine says, and `generate_answer` returns on time. -/
abbrev Punctual (settings : ReplaySettings) : StepPredicate World Err Answer :=
  fun h e w w' => replay.Exec e w w' ∧ onTime settings h e w = true

/-- No run becomes completed. -/
abbrev Quiet : StepPredicate World Err Answer := fun _ _ w w' => ∀ id, ¬ Completes id w w'

/-- Only this run becomes completed, by a worker whose last executor call was in
time. -/
abbrev Finishes (settings : ReplaySettings) (runId : String) : StepPredicate World Err Answer :=
  fun h _ w w' => ∀ id, Completes id w w' → id = runId ∧ InTime settings h

/-- A call that writes nothing. -/
def Silent : Action → Prop
  | .getJson _ => True
  | .other _ => True
  | _ => False

/-- A call to the JSON store, by the loop of `update_json_cas`. -/
def isStoreCall : CallEvent → Bool
  | ⟨.getJsonWithEtag _, _⟩ => true
  | ⟨.putJsonConditional _ _ _, _⟩ => true
  | _ => false

/-- Calls to the store are no executor calls. -/
theorem isExecutorCall_of_isStoreCall {e : CallEvent} (he : isStoreCall e = true) : isExecutorCall e = false := by
  unfold isStoreCall at he
  split at he
  · rfl
  · rfl
  · contradiction

/-- Nor do they read the clock. -/
theorem reading_of_isStoreCall {e : CallEvent} (he : isStoreCall e = true) : reading e = none := by
  unfold isStoreCall at he
  split at he
  · rfl
  · rfl
  · contradiction

/-- A silent call leaves the stored runs. -/
theorem run_of_silent {e : CallEvent} {w w' : World} (he : replay.Exec e w w') (hs : Silent e.action) (id : String) :
    w'.run id = w.run id := by
  obtain ⟨a, r⟩ := e
  cases a with
  | getJson k => rw [(exec_getJson he).1]
  | other x =>
    obtain ⟨o, rest, -, rfl⟩ := exec_other he
    rfl
  | getJsonWithEtag k => exact hs.elim
  | putJson k v => exact hs.elim
  | putJsonConditional k v c => exact hs.elim

/-- A silent program completes no run, and keeps what more calls cannot
falsify. -/
theorem keeps_silent {p : Prog α} (hp : p.Uses Silent) {I : History Err Answer → Prop}
    (hI : ∀ h e, I h → I (h ++ [e])) : Keeps (Punctual settings) Quiet Kept (fun h _ => I h) p := by
  refine Keeps.of_uses (fun _ _ _ _ hi => hi) hp fun h e w w' hs hi ht => ⟨fun id => ?_, hI h e hi⟩
  exact not_completes_of_run (run_of_silent ht.1 hs id)

/-- A transition that completes a stored run was to a completed run. -/
theorem completed_of_transitionTo {run new : ReplayRun} {w : World} (hnew : transitionTo run (w.run run.replayRunId) = new)
    (hc : Completes id w { w with objects := put w.objects (.replayRun run.replayRunId) new }) :
    id = run.replayRunId ∧ run.state = .completed := by
  subst hnew
  by_cases hid : id = run.replayRunId
  · subst hid
    obtain ⟨hbefore, hafter⟩ := hc
    refine ⟨rfl, ?_⟩
    simp only [isCompleted, run_put_self, Option.any_some, decide_eq_true_eq] at hafter
    cases hcur : w.run run.replayRunId with
    | none =>
      rw [hcur] at hafter
      exact hafter
    | some cur =>
      rw [hcur] at hafter
      simp only [isCompleted, hcur, Option.any_some, decide_eq_false_iff_not] at hbefore
      unfold transitionTo at hafter
      dsimp only at hafter
      split at hafter
      · exact absurd hafter hbefore
      · split at hafter
        · contradiction
        · exact hafter
  · exact absurd hc (not_completes_of_run (run_put_of_ne w _ hid))

/-- A cancellation of a run that was read while it was live completes none. -/
theorem not_completes_cancelRun {run new : ReplayRun} {w : World} {runId : String} (hlive : ¬ run.state.terminal = true)
    (hnew : cancelRun run (w.run runId) = new) :
    ¬ Completes id w { w with objects := put w.objects (.replayRun runId) new } := by
  subst hnew
  by_cases hid : id = runId
  · subst hid
    rintro ⟨hbefore, hafter⟩
    simp only [isCompleted, run_put_self, Option.any_some, decide_eq_true_eq] at hafter
    cases hcur : w.run id with
    | none =>
      rw [hcur] at hafter
      exact hlive (by rw [show run.state = .completed from hafter]; rfl)
    | some cur =>
      rw [hcur] at hafter
      simp only [isCompleted, hcur, Option.any_some, decide_eq_false_iff_not] at hbefore
      unfold cancelRun at hafter
      dsimp only at hafter
      split at hafter
      · exact hbefore hafter
      · contradiction
  · exact not_completes_of_run (run_put_of_ne w _ hid)

/-- A transition keeps the runs, and what calls to the store that keep them
cannot falsify. It completes its own run only, and only if that is where it
leads. -/
theorem keeps_transition (settings : ReplaySettings) {run : ReplayRun} (hstarted : run.state ≠ .queued) (hrun : Consistent run)
    {I : Assertion World Err Answer} (hstable : Stable Kept I)
    (hI : ∀ h e w w', isStoreCall e = true → Kept w w' → I h w → I (h ++ [e]) w') :
    Keeps (Punctual settings)
      (fun h _ w w' => Kept w w' ∧ ∀ id, Completes id w w' → id = run.replayRunId ∧ run.state = .completed ∧ I h w) Kept I
      (transition run) := by
  have hsame (h : History Err Answer) (e : CallEvent) (w : World) (he : isStoreCall e = true) (hi : I h w) :
      (Kept w w ∧ ∀ id, Completes id w w → id = run.replayRunId ∧ run.state = .completed ∧ I h w) ∧ I (h ++ [e]) w :=
    ⟨⟨kept_rely.refl w, fun id hc => absurd hc (not_completes_of_run rfl)⟩, hI h e w w he (kept_rely.refl w) hi⟩
  refine updateJsonCas_keeps (fun _ _ _ _ ht => ht.1) (fun _ _ hk => hk.later _) hstable ?read ?refused ?written maxAttempts
  case read => exact fun h w r hi _ => hsame h _ w rfl hi
  case refused => exact fun h w v c e hi _ => hsame h _ w rfl hi
  case written =>
    intro h w v c hi hv _
    have hnew : transitionTo run (World.run w run.replayRunId) = v := by injection hv
    have hkept := Kept.of_put (runUpdate_transitionTo hstarted hrun (World.run w run.replayRunId))
    rw [hnew] at hkept
    refine ⟨⟨hkept, fun id hc => ?_⟩, hI h _ w _ rfl hkept hi⟩
    obtain ⟨hid, hs⟩ := completed_of_transitionTo hnew hc
    exact ⟨hid, hs, hi⟩

/-- A transition to another state completes nothing. -/
theorem quiet_transition {run : ReplayRun} (hstarted : run.state ≠ .queued) (hrun : Consistent run)
    (hs : run.state ≠ .completed) (h : History Err Answer) (w : World) :
    Sat (Punctual settings) Quiet Kept (fun _ _ _ => True) (transition run) h w := by
  have hkeeps := keeps_transition settings hstarted hrun (I := fun _ _ => True) (fun _ _ _ _ hi => hi)
    fun _ _ _ _ _ _ hi => hi
  exact (hkeeps h w trivial).weaken (fun h e w w' _ hg id hc => hs (hg.2 id hc).2.1) fun _ _ _ _ => trivial

end Steps

section Worker

variable {settings : ReplaySettings} {runId : String} {start : ℚ}

/-- A worker that has started its clock and made the run running. -/
def Underway (runId : String) (start : ℚ) (h : History Err Answer) : Prop := startTime h = some start ∧ Claimed runId h

/-- It stays so. -/
theorem Underway.append {h : History Err Answer} (hu : Underway runId start h) (e : CallEvent) :
    Underway runId start (h ++ [e]) := ⟨startTime_append hu.1 e, hu.2.append e⟩

/-- The run may be completed: the worker is in time, or completing the run will
change nothing. -/
def Ready (settings : ReplaySettings) (runId : String) (h : History Err Answer) (w : World) : Prop :=
  InTime settings h ∨ isTerminal w runId = true

/-- Reading is silent. -/
theorem silent_getJson (k : ReplayKey) : (getJson k : Prog (Option (Payload k))).Uses Silent :=
  Program.uses_perform trivial

/-- So are the calls outside the store. -/
theorem silent_call (x : ReplayCall) : (call x).Uses Silent := Program.uses_perform trivial

/-- A read that must find something is silent. -/
theorem silent_loadAIConfigVersion (reference : String) : (loadAIConfigVersion reference).Uses Silent := by
  refine (silent_getJson _).bind fun payload => ?_
  cases payload <;> trivial

theorem silent_loadSnapshot (snapshotId : String) : (loadSnapshot snapshotId).Uses Silent := by
  refine (silent_getJson _).bind fun payload => ?_
  cases payload <;> trivial

/-- So is a stage boundary. -/
theorem silent_stageBoundary (settings : ReplaySettings) (run : ReplayRun) (start : ℚ) :
    (stageBoundary settings run start).Uses Silent := by
  have htimeout : (checkTimeout settings start).Uses Silent := by
    refine (silent_call .monotonic).bind fun now => ?_
    split
    · trivial
    · trivial
  have hcancelled : (checkCancelled run).Uses Silent := (silent_getJson _).bind fun _ => trivial
  refine htimeout.bind fun _ => hcancelled.bind fun cancelled => ?_
  split
  · trivial
  · trivial

/-- And the rows of the SQL route. -/
theorem silent_replayRows (settings : ReplaySettings) (request : ReplayRunRequest) (config : AIConfigurationVersion)
    (route : String) : (replayRows settings request config route).Uses Silent := by
  unfold replayRows
  split
  · refine (silent_call (.generateSql _ _)).bind fun sql => ?_
    refine Program.Uses.bind (Program.Uses.bind (silent_getJson _) fun payload => ?_) fun _ => trivial
    cases payload <;> trivial
  · trivial

/-- The evidence is built unless an item is invalid. -/
theorem buildEvidence_cases (items : List (Except String EvidenceItem)) :
    (items.any isInvalid = false ∧ ∃ evidence, buildEvidence items = .done evidence) ∨
      ∃ e, buildEvidence items = .raise e := by
  induction items with
  | nil => exact .inl ⟨rfl, [], rfl⟩
  | cons item items ih =>
    cases item with
    | error e => exact .inr ⟨_, rfl⟩
    | ok item =>
      rcases ih with ⟨hvalid, evidence, he⟩ | ⟨e, he⟩
      · refine .inl ⟨by simpa [isInvalid] using hvalid, item :: evidence, ?_⟩
        simp [buildEvidence, he, Program.bind]
      · refine .inr ⟨e, ?_⟩
        simp [buildEvidence, he, Program.bind]

/-- Once `generate_answer` has returned on time, the worker is ready or builds
no result. -/
theorem ready_of_onTime {h : History Err Answer} {w : World} {question route : String} {config : AIConfigurationVersion}
    {hits : List String} {sqlRows : Option (List String)} {output : GenerationOutput} {finished : ℚ}
    (hu : Underway runId start h)
    (ht : onTime settings (h ++ [⟨.other (.generateAnswer question config route hits sqlRows), .ok output⟩])
      ⟨.other .monotonic, .ok finished⟩ w = true) (hvalid : output.evidence.any isInvalid = false) :
    Ready settings runId (h ++ [⟨.other (.generateAnswer question config route hits sqlRows), .ok output⟩] ++
      [⟨.other .monotonic, .ok finished⟩]) w := by
  have hu' := hu.append ⟨.other (.generateAnswer question config route hits sqlRows), .ok output⟩
  have hanswered : answered (h ++ [⟨.other (.generateAnswer question config route hits sqlRows), .ok output⟩]) =
      some output := by
    unfold answered
    rw [List.getLast?_concat]
  have hreading : reading ⟨.other .monotonic, .ok finished⟩ = some finished := rfl
  unfold onTime at ht
  rw [hreading, hanswered, hu'.1] at ht
  simp only [hvalid, Bool.or_false, Bool.or_eq_true, decide_eq_true_eq] at ht
  rcases ht with hle | hover
  · have hlast : lastCall (h ++ [⟨.other (.generateAnswer question config route hits sqlRows), .ok output⟩] ++
        [⟨.other .monotonic, .ok finished⟩]) = .returned finished := by
      rw [lastCall_append, lastCall_append]
      rfl
    exact .inl ⟨start, finished, (hu'.append _).1, hlast, hle⟩
  · exact .inr (isTerminal_of_isOver hu'.2 hover)

/-- The replay completes no run. It ends with a result only if the worker is
ready. -/
theorem sat_executeWithTimeout (run : ReplayRun) {h : History Err Answer} {w : World} (hu : Underway runId start h) :
    Sat (Punctual settings) Quiet Kept (fun h r w => ∀ result, r = .ok result → Ready settings runId h w)
      (executeWithTimeout settings run start) h w := by
  have hrest {α : Type} {p : Prog α} (hp : p.Uses Silent) {f : α → Prog ReplayRunResult} {h : History Err Answer}
      {w : World} (hu : Underway runId start h)
      (hf : ∀ h a w, Underway runId start h →
        Sat (Punctual settings) Quiet Kept (fun h r w => ∀ result, r = .ok result → Ready settings runId h w) (f a) h w) :
      Sat (Punctual settings) Quiet Kept (fun h r w => ∀ result, r = .ok result → Ready settings runId h w) (p.bind f) h w :=
    ((keeps_silent hp fun _ e hu => hu.append e) h w hu).bind kept_rely hf fun _ _ _ _ _ he => (nomatch he)
  have hboundary := silent_stageBoundary settings run start
  refine hrest (silent_loadAIConfigVersion _) hu fun h config w hu => ?_
  refine hrest (silent_loadSnapshot _) hu fun h snapshot w hu => ?_
  refine hrest hboundary hu fun h _ w hu => ?_
  refine hrest (silent_call _) hu fun h route w hu => ?_
  refine hrest hboundary hu fun h _ w hu => ?_
  refine hrest (silent_call _) hu fun h retrieval w hu => ?_
  refine hrest hboundary hu fun h _ w hu => ?_
  refine hrest (silent_replayRows _ _ _ _) hu fun h sqlRows w hu => ?_
  refine hrest hboundary hu fun h _ w hu => ?_
  -- from here on no boundary follows: the call, the clock, the result
  intro w₁ hw₁ r w₂ ht
  refine ⟨fun id => not_completes_of_run (run_of_silent ht.1 trivial id), ?_⟩
  cases r with
  | error e => exact .raise fun _ _ _ he => (nomatch he)
  | ok output =>
    intro w₃ hw₃ r w₄ ht'
    refine ⟨fun id => not_completes_of_run (run_of_silent ht'.1 trivial id), ?_⟩
    cases r with
    | error e => exact .raise fun _ _ _ he => (nomatch he)
    | ok finished =>
      dsimp only [Program.bind]
      rcases buildEvidence_cases output.evidence with ⟨hvalid, evidence, he⟩ | ⟨e, he⟩
      · rw [he]
        refine .done fun w₅ hkept result _ => ?_
        have hkept' : Kept w₃ w₅ := kept_rely.trans (Kept.of_run (exec_later ht'.1)
          fun id => run_of_silent ht'.1 trivial id) hkept
        rcases ready_of_onTime hu ht'.2 hvalid with hin | hterminal
        · exact .inl hin
        · exact .inr (isTerminal_of_kept hkept' hterminal)
      · rw [he]
        exact .raise fun _ _ _ he => (nomatch he)

/-- Transitions keep a worker ready. -/
theorem Ready.append {h : History Err Answer} {e : CallEvent} {w w' : World} (he : isStoreCall e = true)
    (hk : Kept w w') (hr : Ready settings runId h w) : Ready settings runId (h ++ [e]) w' := by
  rcases hr with hin | hterminal
  · exact .inl (hin.append (isExecutorCall_of_isStoreCall he))
  · exact .inr (isTerminal_of_kept hk hterminal)

/-- A ready worker completes its run in time. -/
theorem finishes_transition {run : ReplayRun} (hid : run.replayRunId = runId) (hstarted : run.state ≠ .queued)
    (hrun : Consistent run) {h : History Err Answer} {w : World} (hr : Ready settings runId h w) :
    Sat (Punctual settings) (Finishes settings runId) Kept (fun _ _ _ => True) (transition run) h w := by
  have hstable : Stable Kept (Ready settings runId) := by
    intro h w w' hk hr
    rcases hr with hin | hterminal
    · exact .inl hin
    · exact .inr (isTerminal_of_kept hk hterminal)
  have hkeeps := keeps_transition settings hstarted hrun hstable fun _ _ _ _ he hk hr => hr.append he hk
  refine (hkeeps h w hr).weaken (fun h e w w' _ hg id hc => ?_) fun _ _ _ _ => trivial
  obtain ⟨rfl, -, hready⟩ := hg.2 id hc
  rcases hready with hin | hterminal
  · exact ⟨hid, hin⟩
  · rw [← hid] at hterminal
    exact absurd hc (not_completes_of_isTerminal hg.1 hterminal)

/-- A program that completes nothing completes nothing late. -/
theorem finishes_of_quiet {α : Type} {Q : Ending World Err Answer α} {p : Prog α} {h : History Err Answer} {w : World}
    (hp : Sat (Punctual settings) Quiet Kept Q p h w) : Sat (Punctual settings) (Finishes settings runId) Kept Q p h w :=
  hp.weaken (fun _ _ _ _ _ hg id hc => absurd hc (hg id)) fun _ _ _ hq => hq

/-- Recording a cancellation completes nothing. -/
theorem quiet_cancelledRun (settings : ReplaySettings) (run : ReplayRun) (h : History Err Answer) (w : World) :
    Sat (Punctual settings) Quiet Kept (fun _ _ _ => True) (transition (cancelledRun run)) h w := by
  have hconsistent : Consistent (cancelledRun run) := ⟨fun hs => (nomatch hs), fun _ => rfl⟩
  exact quiet_transition (by simp [cancelledRun]) hconsistent (by simp [cancelledRun]) h w

/-- Nor does recording a failure. -/
theorem quiet_recordFailure (run : ReplayRun) (e : Err) (h : History Err Answer) (w : World) :
    Sat (Punctual settings) Quiet Kept (fun _ _ _ => True) (recordFailure settings run e) h w := by
  have hcancelled := quiet_cancelledRun settings run h w
  have hfailed (reason : String) :
      Sat (Punctual settings) Quiet Kept (fun _ _ _ => True) (transition (failedRun run reason)) h w := by
    have hconsistent : Consistent (failedRun run reason) := ⟨fun hs => (nomatch hs), fun _ => rfl⟩
    exact quiet_transition (by simp [failedRun]) hconsistent (by simp [failedRun]) h w
  unfold recordFailure
  split
  · exact hcancelled
  · exact hfailed _
  · exact hfailed _
  · exact hfailed _

/-- Once started, a worker completes its run in time. -/
theorem sat_executeStarted {run : ReplayRun} (hid : run.replayRunId = runId) {h : History Err Answer} {w : World}
    (hclock : startTime h = none) (hclaimed : Claimed runId h) :
    Sat (Punctual settings) (Finishes settings runId) Kept (fun _ _ _ => True) (executeStarted settings run) h w := by
  intro w₁ hw₁ r w₂ ht
  refine ⟨fun id hc => absurd hc (not_completes_of_run (run_of_silent ht.1 trivial id)), ?_⟩
  cases r with
  | error e => exact .raise fun _ _ => trivial
  | ok start =>
    have hu : Underway runId start (h ++ [⟨.other .monotonic, .ok start⟩]) :=
      ⟨startTime_first hclock _, hclaimed.append _⟩
    have hfailure (h : History Err Answer) (e : Err) (w : World) :
        Sat (Punctual settings) (Finishes settings runId) Kept (fun _ _ _ => True) (recordFailure settings run e) h w :=
      finishes_of_quiet (quiet_recordFailure run e h w)
    refine Sat.catchError (Q := fun _ _ _ => True) kept_rely ?_ (fun _ _ _ _ => trivial) fun h e w _ => hfailure h e w
    refine (finishes_of_quiet (sat_executeWithTimeout run hu)).bind kept_rely (fun h result w hr => ?_)
      fun _ _ _ _ => trivial
    have hconsistent : Consistent { run with state := .completed, result := some result, failureReason := none } :=
      ⟨fun _ => rfl, fun hs => hs.elim (fun hs => (nomatch hs)) fun hs => (nomatch hs)⟩
    exact finishes_transition (by exact hid) (by simp) hconsistent (hr result rfl)

/-- Before the clock is started. -/
abbrev Unclocked (h : History Err Answer) : Prop := startTime h = none

/-- Calls to the store leave it so. -/
theorem Unclocked.append {h : History Err Answer} {e : CallEvent} (he : isStoreCall e = true) (hh : Unclocked h) :
    Unclocked (h ++ [e]) := (startTime_first hh e).trans (reading_of_isStoreCall he)

/-- A worker completes its own run only, and in time. -/
theorem sat_executeRun (settings : ReplaySettings) (runId : String) {w : World} (hw : Filed w) :
    Sat (Punctual settings) (Finishes settings runId) Kept (fun _ _ _ => True) (executeRun settings runId) [] w := by
  intro w₁ hw₁ r w₂ ht
  refine ⟨fun id hc => absurd hc (not_completes_of_run (run_of_silent ht.1 trivial id)), ?_⟩
  obtain ⟨rfl, rfl | ⟨m, rfl⟩⟩ := exec_getJson ht.1
  · dsimp only [Program.bind]
    cases hstored : (w₂.objects (.replayRun runId)).content with
    | none => exact .done fun _ _ => trivial
    | some run =>
      have hid : run.replayRunId = runId := hw₁.filed hw runId run hstored
      dsimp only
      split
      · exact .done fun _ _ => trivial
      · have hstop : Sat (Punctual settings) (Finishes settings runId) Kept (fun h _ _ => Unclocked h) (isCancelled run)
            [⟨.getJson (.replayRun runId), .ok (some run)⟩] w₂ := by
          unfold isCancelled
          split
          · exact .done fun _ _ => rfl
          · intro w₃ _ r w₄ ht'
            refine ⟨fun id hc => absurd hc (not_completes_of_run (run_of_silent ht'.1 trivial id)), ?_⟩
            cases r with
            | error e => exact .raise fun _ _ => rfl
            | ok x => exact .done fun _ _ => rfl
        refine hstop.bind kept_rely (fun h stop w hclock => ?_) fun _ _ _ _ => trivial
        split
        · have hcancelled := quiet_cancelledRun settings run h w
          exact (finishes_of_quiet hcancelled).bind kept_rely (fun h _ w _ => .done fun _ _ => trivial)
            fun _ _ _ _ => trivial
        · have hstarted : ({ run with state := .running } : ReplayRun).state ≠ .queued := fun hs => (nomatch hs)
          have hclaim := (orderly_start hid h w).restrict fun h e w w' (ht : Punctual settings h e w w') => ht.1
          have hkeeps := keeps_transition settings hstarted (Consistent.of_not_terminal rfl)
            (I := fun h _ => Unclocked h) (fun _ _ _ _ hi => hi) (fun _ _ _ _ he _ hh => hh.append he) h w hclock
          have hboth : Sat (Punctual settings) (Finishes settings runId) Kept _ _ h w := (hclaim.both hkeeps).weaken
            (fun _ _ _ _ _ hg id hc => (nomatch (hg.2.2 id hc).2.1)) fun _ _ _ hq => hq
          refine hboth.bind kept_rely (fun h persisted w hq => ?_) fun _ _ _ _ => trivial
          split
          · exact .done fun _ _ => trivial
          · next hs =>
            have hclaimed : Claimed runId h := hq.1 persisted rfl (by simpa only [ne_eq, not_not] using hs)
            refine (sat_executeStarted (by exact hid) hq.2 hclaimed).bind kept_rely (fun h _ w _ => ?_)
              fun _ _ _ _ => trivial
            exact .done fun _ _ => trivial
  · exact .raise fun _ _ => trivial

end Worker

section Runs

variable {settings : ReplaySettings} {p q : ReplayPool} {ms : List ReplayMove}

/-- What an operation completes. A bare transition is somebody else's
completion. -/
def FinishesOf (settings : ReplaySettings) : Operation → StepPredicate World Err Answer
  | .executeRun runId => Finishes settings runId
  | .cancelReplayRun _ => Quiet
  | .transition _ => fun _ _ _ _ => True

/-- A cancellation completes nothing. -/
theorem quiet_cancelReplayRun (id : String) (h : History Err Answer) (w : World) :
    Sat (Punctual settings) Quiet Kept (fun _ _ _ => True) (cancelReplayRun id) h w := by
  intro w₁ _ r w₂ ht
  refine ⟨fun id' => not_completes_of_run (run_of_silent ht.1 trivial id'), ?_⟩
  obtain ⟨rfl, rfl | ⟨m, rfl⟩⟩ := exec_getJson ht.1
  · dsimp only [Program.bind]
    cases hstored : (w₂.objects (.replayRun id)).content with
    | none => exact .raise fun _ _ => trivial
    | some run =>
      dsimp only
      by_cases hterminal : run.state.terminal = true
      · rw [if_pos hterminal]
        exact .done fun _ _ => trivial
      · rw [if_neg hterminal]
        have hkeeps : Keeps (Punctual settings) Quiet Kept (fun _ _ => True)
            (updateJsonCas (P := Payload) (.replayRun id) (fun current => .ok (cancelRun run current)) maxAttempts) := by
          refine updateJsonCas_keeps (fun _ _ _ _ ht => ht.1) (fun _ _ hk => hk.later _) (fun _ _ _ _ h => h) ?read
            ?refused ?written maxAttempts
          case read => exact fun h w r _ _ => ⟨fun id' => not_completes_of_run rfl, trivial⟩
          case refused => exact fun h w v c e _ _ => ⟨fun id' => not_completes_of_run rfl, trivial⟩
          case written =>
            intro h w v c _ hv _
            have hnew : cancelRun run (World.run w id) = v := by injection hv
            exact ⟨fun id' => not_completes_cancelRun hterminal hnew, trivial⟩
        exact hkeeps _ _ trivial
  · exact .raise fun _ _ => trivial

/-- Every operation keeps the runs, and completes a run in time only. -/
theorem sat_finishesOf (settings : ReplaySettings) (o : Operation) {w : World} (hw : Filed w) :
    Sat (Punctual settings) (fun h e w w' => Kept w w' ∧ FinishesOf settings o h e w w') Kept (fun _ _ _ => True)
      (code settings o) [] w := by
  have hkept := (sat_code settings o w).restrict fun h e w w' (ht : Punctual settings h e w w') => ht.1
  have hfinishes : Sat (Punctual settings) (FinishesOf settings o) Kept (fun _ _ _ => True) (code settings o) [] w := by
    cases o with
    | executeRun runId =>
      exact (sat_executeRun settings runId hw).bind kept_rely (fun _ _ _ _ => .done fun _ _ => trivial)
        fun _ _ _ _ => trivial
    | cancelReplayRun id =>
      exact (quiet_cancelReplayRun id [] w).bind kept_rely (fun _ _ _ _ => .done fun _ _ => trivial)
        fun _ _ _ _ => trivial
    | transition _ => exact hkept.weaken (fun _ _ _ _ _ _ => trivial) fun _ _ _ _ => trivial
  exact (hkept.both hfinishes).ending fun _ _ _ _ => trivial

/-- A run that has become completed was completed by a move. -/
theorem exists_completes (hrun : Replays settings p ms q) {id : String} (hbefore : isCompleted p.world id = false)
    (hafter : isCompleted q.world id = true) : ∃ m ∈ ms, Completes id m.source.world m.target.world := by
  by_contra hnone
  have hnever : isCompleted q.world id = false := by
    refine hrun.world_invariant (I := fun w => isCompleted w id = false) hbefore fun m hm hb => ?_
    by_contra hc
    exact hnone ⟨m, hm, hb, by simpa using hc⟩
  rw [hnever] at hafter
  contradiction

/-- Workers and cancellations in any interleaving, under a clock that never
goes back. As long as `generate_answer` returns within the limit, a run becomes
completed, unless by a bare transition, only by a worker that executes it and
whose last executor call, on any route, returned within the limit. -/
theorem completed_in_time (hrun : Replays settings p ms q) (hidle : ∀ t, p.threads t = none) (hfiled : Filed p.world)
    (hontime : ∀ m ∈ ms, onTime settings m.runner.past m.event m.source.world = true) {id : String} :
    (∀ m ∈ ms, Completes id m.source.world m.target.world → (∀ target, m.runner.operation ≠ .transition target) →
      m.runner.operation = .executeRun id ∧ InTime settings m.runner.past) ∧
      (isCompleted p.world id = false → isCompleted q.world id = true →
        ∃ m ∈ ms, Completes id m.source.world m.target.world) := by
  have hsound := run_sound kept_rely (fun o w hw => sat_finishesOf settings o hw) (fun _ _ _ _ _ hg => hg.1)
    (fun _ _ hk => hk.filed) hrun hidle hfiled fun m hm => ⟨(hrun.of_mem hm).1.exec, hontime m hm⟩
  refine ⟨fun m hm hc hworker => ?_, fun hbefore hafter => exists_completes hrun hbefore hafter⟩
  have hfinishes := (hsound.2.1 m hm).2
  cases hop : m.runner.operation with
  | executeRun runId =>
    rw [hop] at hfinishes
    obtain ⟨rfl, hin⟩ := hfinishes id hc
    exact ⟨rfl, hin⟩
  | cancelReplayRun runId =>
    rw [hop] at hfinishes
    exact absurd hc (hfinishes id)
  | transition target => exact absurd hop (hworker target)

instance (id : String) (w w' : World) : Decidable (Completes id w w') := inferInstanceAs (Decidable (_ ∧ _))

/-- One worker executes the sample run to its end. -/
def soonTurns : List Turn := .start 0 (.executeRun "r") :: turns 0 21

/-- The pool it leaves. -/
def soonPool : ReplayPool := (Pool.idle sampleWorld).reached replay (code sampleSettings) soonTurns

theorem completed_in_time_sample : ∃ ms, Replays sampleSettings (Pool.idle sampleWorld) ms soonPool ∧
    ∃ m ∈ ms, Completes "r" m.source.world m.target.world ∧ m.runner.operation = .executeRun "r" ∧
      InTime sampleSettings m.runner.past := by
  have hdriven : ((Pool.idle sampleWorld : ReplayPool).drive replay (code sampleSettings) soonTurns).isSome = true := by
    decide +kernel
  have hrun := Run.reached hdriven
  have hmoves : ∀ m ∈ (Pool.idle sampleWorld : ReplayPool).moves replay (code sampleSettings) soonTurns,
      m.runner.operation = .executeRun "r" ∧ onTime sampleSettings m.runner.past m.event m.source.world = true := by
    decide +kernel
  obtain ⟨hlaw, hexists⟩ : _ ∧ (isCompleted sampleWorld "r" = false → isCompleted soonPool.world "r" = true → _) :=
    completed_in_time hrun (fun _ => rfl) filed_sampleWorld fun m hm => (hmoves m hm).2
  obtain ⟨m, hm, hc⟩ := hexists (by decide +kernel) (by decide +kernel)
  have hworker : ∀ target, m.runner.operation ≠ .transition target := by
    intro target hop
    rw [(hmoves m hm).1] at hop
    contradiction
  exact ⟨_, hrun, m, hm, hc, hlaw m hm hc hworker⟩

/-- The clock after a slow call. -/
def late : Action → Choice Fate
  | .other .monotonic => .other (.reading 1000)
  | a => calm a

/-- `generate_answer` takes a thousand seconds. -/
def lateTurns : List Turn := .start 0 (.executeRun "r") :: turns 0 18 ++ .step 0 late :: turns 0 2

/-- The pool this leads to. -/
def latePool : ReplayPool := (Pool.idle sampleWorld).reached replay (code sampleSettings) lateTurns

/-- The run overran its limit of 300 s by 700 s, and is recorded as completed. -/
theorem completed_late : sampleSettings.timeoutS = 300 ∧
    ∃ ms, Replays sampleSettings (Pool.idle sampleWorld) ms latePool ∧ isCompleted latePool.world "r" = true ∧
      ∃ m ∈ ms, Completes "r" m.source.world m.target.world ∧ m.runner.operation = .executeRun "r" ∧
        startTime m.runner.past = some 0 ∧ lastCall m.runner.past = .returned 1000 ∧
        ¬ InTime sampleSettings m.runner.past := by
  have hdriven : ((Pool.idle sampleWorld : ReplayPool).drive replay (code sampleSettings) lateTurns).isSome = true := by
    decide +kernel
  have hlast : ∃ m ∈ (Pool.idle sampleWorld : ReplayPool).moves replay (code sampleSettings) lateTurns,
      Completes "r" m.source.world m.target.world ∧ m.runner.operation = .executeRun "r" ∧
        startTime m.runner.past = some 0 ∧ lastCall m.runner.past = .returned 1000 := by decide +kernel
  obtain ⟨m, hm, hc, hop, hs, hl⟩ := hlast
  refine ⟨rfl, _, Run.reached hdriven, by decide +kernel, m, hm, hc, hop, hs, hl, ?_⟩
  rintro ⟨start, finished, hs', hl', hle⟩
  rw [hs, Option.some.injEq] at hs'
  rw [hl, LastCall.returned.injEq] at hl'
  rw [← hs', ← hl'] at hle
  exact absurd hle (by decide +kernel)

end Runs

end RagSystem.ReplayDeadlines
