import RagSystem.Evaluation
import RagSystem.RouterCalls

/-!
# Metrics and their cases

Whose hits the metrics of an evaluation are computed from. A case hands its
hits over to the background writer and reads them back under its trace id;
what it reads is its own trace if that has been written by then, and none has
replaced it.
-/

namespace RagSystem.EvaluationRuns

open AtomicProgram RelyGuarantee DocumentModels QueryModels FeedbackReview AskCalls RouterCalls QueryTraces Evaluation

set_option autoImplicit false

section Statement

/-- The questions that were answered, each with the hits it was answered from. -/
def generated (h : EvalHistory) : List (String × List RetrievalHit) :=
  h.filterMap fun
    | ⟨.ask (.generateAnswer question hits _), .ok _⟩ => some (question, hits)
    | _ => none

/-- The metrics of each case, from the hits of that case; there are none
without relevance labels. -/
def ownMetrics (settings : EvaluationSettings) (cases : List BenchmarkCase) (made : List (String × List RetrievalHit)) :
    List (Option RetrievalMetrics) :=
  List.zipWith (fun case made => computeRetrievalMetrics made.2 case.relevanceLabels settings.retrievalMetricDepthK) cases made

/-- Each case was asked, in order, and its result has its own metrics, if it
has labels. -/
structure Own (settings : EvaluationSettings) (cases : List BenchmarkCase) (made : List (String × List RetrievalHit))
    (results : List BenchmarkResult) : Prop where
  /-- Each case was asked. -/
  asked : made.map Prod.fst = cases.map BenchmarkCase.question
  /-- Each has its result. -/
  ids : results.map BenchmarkResult.caseId = cases.map BenchmarkCase.id
  /-- Each result has its metrics. -/
  metrics : results.map BenchmarkResult.retrievalMetrics = ownMetrics settings cases made
  /-- There are metrics exactly where there are labels. -/
  present : results.map (fun result => result.retrievalMetrics.isSome) =
    cases.map fun case => case.relevanceLabels.isSome

/-- A trace is read back only when the one handed over last is what is stored
under its id: it has been written, and none has replaced it. -/
def ReadsOwn : EvalCall → TraceWorld → Prop
  | .getQueryTrace traceId, w => getQueryTrace w.traces traceId = w.submitted.getLast?
  | _, _ => True

instance (x : EvalCall) (w : TraceWorld) : Decidable (ReadsOwn x w) :=
  match x with
  | .getQueryTrace traceId => inferInstanceAs (Decidable (getQueryTrace w.traces traceId = w.submitted.getLast?))
  | .ask _ | .listBenchmarkCases | .now | .createEvaluationRun _ => isTrue trivial

/-- The machine where every read finds the trace that was handed over last. -/
abbrev timelyMachine (ambient : Option String) : Machine EvalOracle TraceWorld AskError EvalAnswer :=
  (evaluationMachine ambient).guarded ReadsOwn

end Statement

section Steps

variable {ambient : Option String} {w w' : TraceWorld}

/-- The background hands nothing over. -/
theorem settle_submitted (w : TraceWorld) (o : EvalOracle) : (w.settle o).submitted = w.submitted := by
  have hone : ∀ (v : TraceWorld) (step : Background), (v.background step).submitted = v.submitted := by
    intro v step
    cases step with
    | write index =>
      simp only [TraceWorld.background]
      split
      · rfl
      · rfl
    | fail index => rfl
    | foreign trace => rfl
  have hall : ∀ (steps : List Background) (v : TraceWorld), (steps.foldl TraceWorld.background v).submitted = v.submitted := by
    intro steps
    induction steps with
    | nil => exact fun v => rfl
    | cons step steps ih => exact fun v => (ih _).trans (hone v step)
  exact hall o.after w

/-- A handed-over trace is the last one. -/
theorem exec_submit {trace : QueryTraceRecord} {r : Except AskError Unit}
    (h : (timelyMachine ambient).Exec ⟨.ask (.submitTrace trace), r⟩ w w') :
    r = .ok () ∧ w'.submitted = w.submitted ++ [trace] := by
  obtain ⟨_, o, ho⟩ := Machine.exec_guarded.mp h
  obtain ⟨hr, hw⟩ := Prod.mk.inj (Option.some.inj ho)
  refine ⟨hr.symm, ?_⟩
  rw [← hw, settle_submitted]
  cases o.handover with
  | queued => rfl
  | inline => rfl
  | lost => rfl

/-- Nothing else hands a trace over. -/
theorem exec_submitted {e : EvalEvent} (h : (timelyMachine ambient).Exec e w w')
    (hne : ∀ trace, e.action ≠ .ask (.submitTrace trace)) : w'.submitted = w.submitted := by
  obtain ⟨_, o, ho⟩ := Machine.exec_guarded.mp h
  have hsettled : w' = w.settle o := by
    obtain ⟨action, r⟩ := e
    cases action with
    | ask x =>
      cases x with
      | submitTrace trace => exact absurd rfl (hne trace)
      | _ => exact (Prod.mk.inj (Option.some.inj ho)).2.symm
    | _ => exact (Prod.mk.inj (Option.some.inj ho)).2.symm
  rw [hsettled, settle_submitted]

/-- What is read is the trace that was handed over last. -/
theorem exec_read {traceId : String} {found : Option QueryTraceRecord}
    (h : (timelyMachine ambient).Exec ⟨.getQueryTrace traceId, .ok found⟩ w w') : found = w.submitted.getLast? := by
  obtain ⟨hown, o, ho⟩ := Machine.exec_guarded.mp h
  have hread : getQueryTrace w.traces traceId = w.submitted.getLast? := hown
  have hanswer := (Prod.mk.inj (Option.some.inj ho)).1
  rw [← hread]
  unfold foundTrace at hanswer
  split at hanswer
  · exact (Except.ok.inj hanswer).symm
  · contradiction

end Steps

section Asking

variable {α β : Type}

/-- A part of the ask pipeline in sequence. -/
theorem asking_bind (p : Ask α) (f : α → Ask β) : asking (p.bind f) = (asking p).bind fun a => asking (f a) := by
  induction p with
  | done a => rfl
  | raise e => rfl
  | act x next ih => exact congrArg (Program.act (EvalCall.ask x)) (funext ih)

/-- A handled part. -/
theorem asking_catchError (p : Ask α) (f : AskError → Ask α) :
    asking (p.catchError f) = (asking p).catchError fun e => asking (f e) := by
  induction p with
  | done a => rfl
  | raise e => rfl
  | act x next ih => exact congrArg (Program.act (EvalCall.ask x)) (funext ih)

/-- One call of it. -/
theorem asking_call (x : AskCall) : asking (call x) = evaluate (.ask x) := by
  refine congrArg (Program.act (EvalCall.ask x)) (funext fun r => ?_)
  cases r with
  | ok b => rfl
  | error e => rfl

/-- It calls what the part calls. -/
theorem uses_asking {S : AskCall → Prop} {S' : EvalCall → Prop} {p : Ask α} (hp : p.Uses S)
    (hS : ∀ x, S x → S' (.ask x)) : (asking p).Uses S' := by
  induction p with
  | done a => trivial
  | raise e => trivial
  | act x next ih => exact ⟨hS x hp.1, fun r => ih r (hp.2 r)⟩

end Asking

section Judgement

variable {α β : Type} {ambient : Option String} {h : EvalHistory} {w : TraceWorld}

/-- Run alone on the machine, `p` returns values as `P` says, if any. -/
def Gives (ambient : Option String) (P : EvalHistory → α → TraceWorld → Prop) (p : Eval α) (h : EvalHistory)
    (w : TraceWorld) : Prop :=
  Sat (fun _ e w w' => (timelyMachine ambient).Exec e w w') (fun _ _ _ _ => True) Eq
    (fun h r w => ∀ a, r = .ok a → P h a w) p h w

/-- Returning. -/
theorem Gives.done {P : EvalHistory → α → TraceWorld → Prop} {a : α} (hp : P h a w) : Gives ambient P (.done a) h w := by
  intro w' hw a' ha
  cases hw
  cases ha
  exact hp

/-- Raising. -/
theorem Gives.raise {P : EvalHistory → α → TraceWorld → Prop} {e : AskError} : Gives ambient P (.raise e) h w :=
  fun _ _ _ he => (nomatch he)

/-- Sequencing. -/
theorem Gives.andThen {P : EvalHistory → α → TraceWorld → Prop} {P' : EvalHistory → β → TraceWorld → Prop} {p : Eval α}
    {f : α → Eval β} (hp : Gives ambient P p h w) (hf : ∀ h a w, P h a w → Gives ambient P' (f a) h w) :
    Gives ambient P' (p.bind f) h w :=
  Sat.bind .eq hp (fun h a w ha => hf h a w (ha a rfl)) fun _ _ _ _ _ he => (nomatch he)

/-- One call. -/
theorem Gives.evaluate {x : EvalCall} {P : EvalHistory → EvalAnswer x → TraceWorld → Prop}
    (hstep : ∀ a w', (timelyMachine ambient).Exec ⟨x, .ok a⟩ w w' → P (h ++ [⟨x, .ok a⟩]) a w') :
    Gives ambient P (evaluate x) h w := by
  refine Sat.perform fun w₁ hw r w₂ hexec => ⟨trivial, fun w₃ hw' a ha => ?_⟩
  cases hw
  cases hw'
  cases ha
  exact hstep a w₂ hexec

/-- What is in the past stays there. -/
theorem Gives.keeping {P : EvalHistory → α → TraceWorld → Prop} {p : Eval α} {e : EvalEvent} (hp : Gives ambient P p h w)
    (he : e ∈ h) : Gives ambient (fun h a w => e ∈ h ∧ P h a w) p h w := by
  have hpast : Sat (fun _ e w w' => (timelyMachine ambient).Exec e w w') (fun _ _ _ _ => True) Eq
      (fun h _ _ => e ∈ h) p h w := by
    have hlasts : ∀ (h : EvalHistory) (e' : EvalEvent), e ∈ h → e ∈ h ++ [e'] := fun h e' hin => List.mem_append_left _ hin
    exact Sat.of_past hlasts p he
  refine (Sat.both hp hpast).weaken (fun _ _ _ _ _ _ => trivial) fun h r w hr a ha => ?_
  exact ⟨hr.2, hr.1 a ha⟩

/-- What was asked so far, and the traces that were handed over. -/
def noted (h : EvalHistory) (w : TraceWorld) : List (String × List RetrievalHit) × List QueryTraceRecord :=
  (generated h, w.submitted)

/-- The calls that neither answer a question nor hand a trace over. -/
def Idle : EvalCall → Prop
  | .ask (.generateAnswer _ _ _) => False
  | .ask (.submitTrace _) => False
  | _ => True

theorem idle_of_aside (x : AskCall) (hx : Aside x) : Idle (.ask x) := by
  cases x with
  | generateAnswer question hits traceId => exact hx.1
  | submitTrace trace => exact hx.2 trace rfl
  | _ => trivial

theorem idle_of_searching (x : AskCall) (hx : Searching x) : Idle (.ask x) := by
  cases x with
  | generateAnswer question hits traceId => exact hx
  | submitTrace trace => exact hx
  | _ => trivial

/-- One of them notes nothing. -/
theorem noted_of_idle {e : EvalEvent} {w' : TraceWorld} (hidle : Idle e.action)
    (hexec : (timelyMachine ambient).Exec e w w') : noted (h ++ [e]) w' = noted h w := by
  have hsubmitted : w'.submitted = w.submitted := by
    refine exec_submitted hexec fun trace haction => ?_
    rw [haction] at hidle
    exact hidle
  have hgenerated : generated [e] = [] := by
    obtain ⟨action, answer⟩ := e
    cases action with
    | ask x =>
      cases x with
      | generateAnswer question hits traceId => exact hidle.elim
      | _ => rfl
    | _ => rfl
  have happend : generated (h ++ [e]) = generated h ++ generated [e] := by simp only [generated, List.filterMap_append]
  rw [noted, noted, hsubmitted, happend, hgenerated, List.append_nil]

/-- They leave the notes as they are. -/
theorem idle_keeps {p : Eval α} {l : List (String × List RetrievalHit) × List QueryTraceRecord} (hp : p.Uses Idle)
    (hl : noted h w = l) : Gives ambient (fun h _ w => noted h w = l) p h w := by
  have hstable : Stable (Eq : TraceWorld → TraceWorld → Prop) (fun h w => noted h w = l) :=
    fun _ _ _ hw hl => hw ▸ hl
  have hkept := Keeps.of_uses (T := fun _ e w w' => (timelyMachine ambient).Exec e w w') (G := fun _ _ _ _ => True)
    hstable hp (fun h e w w' hidle hl hexec => ⟨trivial, (noted_of_idle hidle hexec).trans hl⟩) h w hl
  exact Sat.ending hkept fun h r w hl a _ => hl

end Judgement

section Programs

variable {ambient : Option String} {settings : EvaluationSettings} {h : EvalHistory} {w : TraceWorld}
  {made : List (String × List RetrievalHit)} {handed : List QueryTraceRecord}

/-- The constructor gives the request as it is. -/
theorem queryRequest_gives (question : String) (documentIds : Option (List DocumentId)) (hl : noted h w = (made, handed)) :
    Gives ambient (fun h request w => request = ⟨question, documentIds⟩ ∧ noted h w = (made, handed))
      (asking (queryRequest question documentIds)) h w := by
  unfold queryRequest validated
  split
  · exact Gives.done ⟨rfl, hl⟩
  · exact Gives.raise

/-- A trace is handed over, and that does not fail. -/
theorem submit_gives (trace : QueryTraceRecord) (hl : noted h w = (made, handed)) :
    Gives ambient (fun h _ w => noted h w = (made, handed ++ [trace])) (asking (submitTracePersist trace)) h w := by
  have hcall : Sat (fun _ e w w' => (timelyMachine ambient).Exec e w w') (fun _ _ _ _ => True) Eq
      (fun h (r : Except AskError Unit) w => r = .ok () ∧ noted h w = (made, handed ++ [trace]))
      (evaluate (.ask (.submitTrace trace))) h w := by
    refine Sat.perform (a := EvalCall.ask (.submitTrace trace)) ?_
    rintro _ rfl r w₂ hexec
    refine ⟨trivial, ?_⟩
    rintro _ rfl
    obtain ⟨hr, hsubmitted⟩ := exec_submit hexec
    have hparts := Prod.mk.inj hl
    refine ⟨hr, ?_⟩
    rw [noted, hsubmitted, hparts.2]
    simp only [generated, List.filterMap_append, List.filterMap_cons, List.filterMap_nil, List.append_nil, Prod.mk.injEq,
      and_true]
    exact hparts.1
  unfold submitTracePersist
  rw [tryCatch_eq, asking_catchError, asking_call]
  exact Sat.catchError .eq hcall (fun h r w hq _ _ => hq.2) fun h e w hq => (nomatch hq.1)

/-- `query` answers from the hits it hands over. -/
theorem ragQuery_gives (askSettings : AskSettings) (request : QueryRequest) (hl : noted h w = (made, handed)) :
    Gives ambient (fun h r w => ∃ hits, noted h w =
        (made ++ [(request.question, hits)], handed ++ [queryTrace request r hits]))
      (asking (ragQuery askSettings request)) h w := by
  have htraceId := uses_asking aside_currentTraceId idle_of_aside
  have hretrieve := uses_asking (uses_retrieve askSettings request) idle_of_searching
  unfold ragQuery
  simp only [bind_eq, pure_eq, asking_bind]
  refine (idle_keeps htraceId hl).andThen fun h traceId w hl => ?_
  refine (idle_keeps hretrieve hl).andThen fun h hits w hl => ?_
  have hgenerate : Gives ambient (fun h (_ : QueryResponse) w => noted h w = (made ++ [(request.question, hits)], handed))
      (asking (call (.generateAnswer request.question hits traceId))) h w := by
    rw [asking_call]
    refine Gives.evaluate fun response w' hexec => ?_
    have hparts := Prod.mk.inj hl
    have hsubmitted : w'.submitted = w.submitted := exec_submitted hexec fun trace => nofun
    rw [noted, hsubmitted, hparts.2]
    simp only [generated, List.filterMap_append, List.filterMap_cons, List.filterMap_nil, Prod.mk.injEq, and_true]
    exact congrArg (· ++ [(request.question, hits)]) hparts.1
  refine hgenerate.andThen fun h response w hl => ?_
  refine (submit_gives _ hl).andThen fun h _ w hl => ?_
  exact Gives.done ⟨hits, hl⟩

/-- One case: its result has the metrics of the hits it was answered from. -/
theorem runCase_gives (case : BenchmarkCase) (hmade : generated h = made) : Gives ambient
    (fun h result _ => ∃ hits, generated h = made ++ [(case.question, hits)] ∧ result.caseId = case.id ∧
      result.retrievalMetrics = computeRetrievalMetrics hits case.relevanceLabels settings.retrievalMetricDepthK)
    (runCase settings case) h w := by
  have hl : noted h w = (made, w.submitted) := by rw [noted, hmade]
  refine (queryRequest_gives case.question case.documentIds hl).andThen fun h request w hrequest => ?_
  obtain ⟨rfl, hl⟩ := hrequest
  refine (ragQuery_gives settings.ask _ hl).andThen fun h response w hanswered => ?_
  obtain ⟨hits, hl⟩ := hanswered
  have hparts := Prod.mk.inj hl
  have hlast : w.submitted.getLast? = some (queryTrace ⟨case.question, case.documentIds⟩ response hits) := by
    rw [hparts.2, List.getLast?_concat]
  cases hlabels : case.relevanceLabels with
  | none => exact Gives.done ⟨hits, hparts.1, rfl, rfl⟩
  | some labels =>
    -- what is read back is the trace that was handed over last
    have hread : Gives ambient
        (fun h found _ => found = some (queryTrace ⟨case.question, case.documentIds⟩ response hits) ∧
          generated h = made ++ [(case.question, hits)])
        (evaluate (.getQueryTrace response.traceId)) h w := by
      refine Gives.evaluate fun found w' hexec => ⟨(exec_read hexec).trans hlast, ?_⟩
      simp only [generated, List.filterMap_append, List.filterMap_cons, List.filterMap_nil, List.append_nil]
      exact hparts.1
    refine hread.andThen fun h found w hfound => ?_
    obtain ⟨rfl, hgenerated⟩ := hfound
    exact Gives.done ⟨hits, hgenerated, rfl, rfl⟩

/-- One more case. -/
theorem Own.cons {case : BenchmarkCase} {cases : List BenchmarkCase} {hits : List RetrievalHit}
    {result : BenchmarkResult} {results : List BenchmarkResult} (hown : Own settings cases made results)
    (hid : result.caseId = case.id)
    (hmetrics : result.retrievalMetrics =
      computeRetrievalMetrics hits case.relevanceLabels settings.retrievalMetricDepthK) :
    Own settings (case :: cases) ((case.question, hits) :: made) (result :: results) where
  asked := by rw [List.map_cons, List.map_cons, hown.asked]
  ids := by rw [List.map_cons, List.map_cons, hown.ids, hid]
  metrics := by
    have hrest := hown.metrics
    unfold ownMetrics at hrest ⊢
    rw [List.map_cons, List.zipWith_cons_cons, hrest, hmetrics]
  present := by rw [List.map_cons, List.map_cons, hown.present, hmetrics, isSome_computeRetrievalMetrics]

/-- The loop: whatever was asked before, every case of it has its own metrics. -/
theorem runCases_gives (cases : List BenchmarkCase) (hmade : generated h = made) : Gives ambient
    (fun h results _ => ∃ later, generated h = made ++ later ∧ Own settings cases later results)
    (runCases settings cases) h w := by
  induction cases generalizing h w made with
  | nil => exact Gives.done ⟨[], by rw [hmade, List.append_nil], ⟨rfl, rfl, rfl, rfl⟩⟩
  | cons case cases ih =>
    refine (runCase_gives case hmade).andThen fun h result w hcase => ?_
    obtain ⟨hits, hgenerated, hid, hmetrics⟩ := hcase
    refine (ih hgenerated).andThen fun h results w hcases => ?_
    obtain ⟨later, hgenerated, hown⟩ := hcases
    rw [List.append_assoc, List.singleton_append] at hgenerated
    exact Gives.done ⟨_, hgenerated, hown.cons hid hmetrics⟩

/-- A run: the cases that were listed have their own metrics. -/
theorem runEvaluation_gives : Gives ambient
    (fun h detail _ => ∃ cases, (⟨.listBenchmarkCases, .ok cases⟩ : EvalEvent) ∈ h ∧
      Own settings cases (generated h) detail.results)
    (runEvaluation settings) [] w := by
  have hlist : Gives ambient
      (fun h cases _ => (⟨.listBenchmarkCases, .ok cases⟩ : EvalEvent) ∈ h ∧ generated h = [])
      (evaluate .listBenchmarkCases) [] w :=
    Gives.evaluate fun cases w' _ => ⟨List.mem_singleton_self _, rfl⟩
  refine hlist.andThen fun h cases w hlisted => ?_
  obtain ⟨hin, hmade⟩ := hlisted
  split
  · refine ((runCases_gives cases hmade).keeping hin).andThen fun h results w hcases => ?_
    obtain ⟨hin, later, hgenerated, hown⟩ := hcases
    rw [List.nil_append] at hgenerated
    rw [← hgenerated] at hown
    -- what follows asks nothing
    have hidle : ∀ x : EvalCall, Idle x → (evaluate x).Uses Idle := fun x hx => Program.uses_perform hx
    have hl : noted h w = (generated h, w.submitted) := rfl
    refine ((idle_keeps (hidle (.ask .uuid4) trivial) hl).keeping hin).andThen fun h₁ runId w₁ hkept => ?_
    refine ((idle_keeps (hidle .now trivial) hkept.2).keeping hkept.1).andThen fun h₂ createdAt w₂ hkept => ?_
    refine ((idle_keeps (hidle (.createEvaluationRun _) trivial) hkept.2).keeping hkept.1).andThen fun h₃ _ w₃ hkept => ?_
    have hsame : generated h₃ = generated h := congrArg Prod.fst hkept.2
    exact Gives.done ⟨cases, hkept.1, hsame ▸ hown⟩
  · exact Gives.raise

end Programs

section OwnCases

/-- For every set of cases, inside a request or not: in every run whose reads
all find the trace handed over last, each case's metrics are those of its own
hits, and they are there exactly if the case has relevance labels. -/
theorem metrics_of_own_case {ambient : Option String} {settings : EvaluationSettings} {w w' : TraceWorld} {h : EvalHistory}
    {detail : EvaluationRunDetail} (ho : Outcome (timelyMachine ambient) (runEvaluation settings) w h (.ok detail) w') :
    ∃ cases, (⟨.listBenchmarkCases, .ok cases⟩ : EvalEvent) ∈ h ∧ Own settings cases (generated h) detail.results := by
  have hgives : Gives ambient _ (runEvaluation settings) [] w := runEvaluation_gives
  have hend := Sat.outcome (fun _ => rfl) hgives ho
  exact hend detail rfl

/-- A case about one document. -/
def sampleCase (documentId : DocumentId) : BenchmarkCase where
  id := documentId
  question := "What is in " ++ documentId ++ "?"
  documentIds := some [documentId]
  relevanceLabels := some { relevantDocumentIds := ["a"] }
  humanReviewed := true

/-- Two such cases, and a passage for each document. -/
def sampleAnswer : (x : EvalCall) → Except AskError (EvalAnswer x)
  | .listBenchmarkCases => .ok [sampleCase "a", sampleCase "b"]
  | .getQueryTrace _ => .ok none
  | .now => .ok "2026-01-01T00:00:00Z"
  | .createEvaluationRun _ => .ok ()
  | .ask .uuid4 => .ok "r"
  | .ask (.embedQuery _) => .ok []
  | .ask (.indexQuery _ _ filter _) => .ok ((filter.getD []).map fun d => ⟨⟨⟨d, "v", 0, "x"⟩, d, "v", "A passage."⟩, 1 / 2, "dense"⟩)
  | .ask (.filterToActiveVersions hits) => .ok hits
  | .ask (.generateAnswer _ _ traceId) =>
    .ok { answer := "A passage.", citations := [], evidenceStatus := "grounded", traceId, claims := [] }
  | .ask _ => .error (.raised "No such component.")

/-- After each call the background does this. -/
def samplePolicy (after : List Background) (_ : EvalCall) : EvalOracle where
  answer := sampleAnswer
  after := after

/-- A run in which every trace is written at once. -/
def promptRun : Option (EvalHistory × Except AskError EvaluationRunDetail × TraceWorld) :=
  play (timelyMachine (some "t")) (runEvaluation ⟨sampleSettings, 5, fun s => s⟩)
    (List.replicate 18 (samplePolicy [.write 0])) ⟨[], [], []⟩

/-- A run in which the writer does not get to the trace of the second case. -/
def slowRun : Option (EvalHistory × Except AskError EvaluationRunDetail × TraceWorld) :=
  play (evaluationMachine (some "t")) (runEvaluation ⟨sampleSettings, 5, fun s => s⟩)
    (List.replicate 8 (samplePolicy [.write 0]) ++ List.replicate 10 (samplePolicy [])) ⟨[], [], []⟩

theorem metrics_of_own_case_sample : ∃ h cases, ∃ detail : EvaluationRunDetail, (⟨.listBenchmarkCases, .ok cases⟩ : EvalEvent) ∈ h ∧
    Own ⟨sampleSettings, 5, fun s => s⟩ cases (generated h) detail.results := by
  have hplayed : promptRun.any fun x => x.2.1.isOk := by decide +kernel
  obtain ⟨⟨h, r, w'⟩, hplay, hok⟩ := (Option.any_eq_true _ _).mp hplayed
  cases r with
  | error e => contradiction
  | ok detail =>
    obtain ⟨cases, hin, hown⟩ := metrics_of_own_case (play_sound _ hplay)
    exact ⟨h, cases, detail, hin, hown⟩

/-- What was listed. -/
def listed (h : EvalHistory) : List (List BenchmarkCase) :=
  h.filterMap fun
    | ⟨.listBenchmarkCases, .ok cases⟩ => some cases
    | _ => none

/-- The second case of a request gets the metrics of the first: under the id
they share, the first one's trace is still there. -/
theorem metrics_of_other_case : ∃ h detail w', Outcome (evaluationMachine (some "t"))
    (runEvaluation ⟨sampleSettings, 5, fun s => s⟩) ⟨[], [], []⟩ h (.ok detail) w' ∧
    ∀ cases, (⟨.listBenchmarkCases, .ok cases⟩ : EvalEvent) ∈ h →
      ¬ Own ⟨sampleSettings, 5, fun s => s⟩ cases (generated h) detail.results := by
  have hplayed : slowRun.any fun x => listed x.1 = [[sampleCase "a", sampleCase "b"]] ∧ x.2.1.toOption.any fun detail =>
      detail.results.map BenchmarkResult.retrievalMetrics ≠
        ownMetrics ⟨sampleSettings, 5, fun s => s⟩ [sampleCase "a", sampleCase "b"] (generated x.1) := by decide +kernel
  obtain ⟨⟨h, r, w'⟩, hplay, hfacts⟩ := (Option.any_eq_true _ _).mp hplayed
  obtain ⟨hlisted, hother⟩ := of_decide_eq_true hfacts
  cases r with
  | error e => contradiction
  | ok detail =>
    refine ⟨h, detail, w', play_sound _ hplay, fun cases hin hown => ?_⟩
    have hcases : cases ∈ listed h := List.mem_filterMap.mpr ⟨_, hin, rfl⟩
    rw [hlisted, List.mem_singleton] at hcases
    rw [hcases] at hown
    exact of_decide_eq_true hother hown.metrics

end OwnCases

end RagSystem.EvaluationRuns
