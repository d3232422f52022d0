import RagSystem.ModelReplies

/-!
# The judge's scores

A case is scored by one call of the judge model, which can time out or fail. Its
two scores are coerced one by one: one of them alone is taken, too, and a whole
number too large for a float is raised out of the scoring.
-/

namespace RagSystem.JudgeScores

open Doubles ModelReplies

set_option autoImplicit false

/-- `LLMJudgeScores`. -/
structure LLMJudgeScores where
  /-- `faithfulness`. -/
  faithfulness : Option Double := none
  /-- `relevance`. -/
  relevance : Option Double := none
  /-- `error`. -/
  error : Option String := none

/-- How the judge's call ends. -/
inductive Reply where
  /-- The model's text. -/
  | text (raw : List Char)
  /-- `JudgeTimeoutError`. -/
  | timedOut
  /-- Another exception, by its text. -/
  | failed (message : String)

variable (python : Python)

/-- `float(value)`, clamped; none is an `OverflowError`. -/
def clampedFloat : Option Double → Except PyError (Option Double)
  | some double => .ok (some (clampUnit double))
  | none => .error .overflowError

/-- `_coerce_score`. -/
def coerceScore : Option Value → Except PyError (Option Double)
  | some (.int value) => clampedFloat (floatOfInt value)
  | some (.float double) => clampedFloat (some double)
  | _ => .ok none

/-- `_parse_scores`. -/
def parseScores (raw : List Char) : Except PyError LLMJudgeScores := do
  match ← extractJsonObject python raw with
  | none => pure { error := some "llm_judge_unparseable_output" }
  | some payload =>
    let faithfulness ← coerceScore (get payload "faithfulness")
    let relevance ← coerceScore (get payload "relevance")
    if faithfulness = none ∧ relevance = none then pure { error := some "llm_judge_no_scores" }
    else pure { faithfulness, relevance }

/-- `score_case`. -/
def scoreCase : Reply → Except PyError LLMJudgeScores
  | .text raw => parseScores python raw
  | .timedOut => .ok { error := some "llm_judge_timeout" }
  | .failed message => .ok { error := some ("llm_judge_error: " ++ message) }

/-- `BenchmarkResult`. -/
structure BenchmarkResult (Checks Metrics : Type) where
  /-- `case_id`. -/
  caseId : String
  /-- `deterministic_checks`. -/
  deterministicChecks : Checks
  /-- `retrieval_metrics`. -/
  retrievalMetrics : Metrics
  /-- `llm_judge`. -/
  llmJudge : Option LLMJudgeScores

variable {Checks Metrics Case Observed : Type}

/-- What `score_results` is given. -/
structure Scoring (Case Observed : Type) where
  /-- `cases`, by their id. -/
  cases : List (String × Case)
  /-- `observed_by_case`. -/
  observedByCase : String → Option Observed
  /-- How the call for a case ends, when it is asked as the n-th. -/
  ask : ℕ → Case → Observed → Reply
  /-- `enabled`. -/
  enabled : Bool

/-- `case_by_id`: the last case of an id. -/
def Scoring.caseById (scoring : Scoring Case Observed) (caseId : String) : Option Case :=
  scoring.cases.reverse.lookup caseId

/-- `score_results`, the judge's scores of one result. -/
def judgeOf (scoring : Scoring Case Observed) (n : ℕ) (caseId : String) : Except PyError LLMJudgeScores :=
  match scoring.caseById caseId, scoring.observedByCase caseId with
  | some asked, some observed => scoreCase python (scoring.ask n asked observed)
  | _, _ => .ok { error := some "llm_judge_missing_observation" }

/-- `score_results`, one result. -/
def scoreResult (scoring : Scoring Case Observed) (n : ℕ) (result : BenchmarkResult Checks Metrics) :
    Except PyError (BenchmarkResult Checks Metrics) := do
  let judge ← judgeOf python scoring n result.caseId
  pure { result with llmJudge := some judge }

/-- `score_results`, from the n-th result on. -/
def scoreFrom (scoring : Scoring Case Observed) :
    ℕ → List (BenchmarkResult Checks Metrics) → Except PyError (List (BenchmarkResult Checks Metrics))
  | _, [] => pure []
  | n, result :: results => do
    let scored ← scoreResult python scoring n result
    let later ← scoreFrom scoring (n + 1) results
    pure (scored :: later)

/-- `score_results`. -/
def scoreResults (scoring : Scoring Case Observed) (results : List (BenchmarkResult Checks Metrics)) :
    Except PyError (List (BenchmarkResult Checks Metrics)) :=
  if scoring.enabled then scoreFrom python scoring 0 results else pure results

/-! ## What the scores are -/

/-- Both scores, each from 0 to 1, and no error, or an error and no scores. -/
inductive LLMJudgeScores.Whole : LLMJudgeScores → Prop
  /-- Both. -/
  | both {faithfulness relevance : Double} (hf : InUnit faithfulness) (hr : InUnit relevance) :
    Whole ⟨some faithfulness, some relevance, none⟩
  /-- None. -/
  | none {message : String} : Whole ⟨Option.none, Option.none, some message⟩

/-- A number, and no boolean. -/
def numeric : Option Value → Bool
  | some (.int _) => true
  | some (.float _) => true
  | _ => false

/-- A whole number that no float is near to. -/
def tooLarge : Option Value → Bool
  | some (.int value) => floatOfInt value = none
  | _ => false

theorem coerceScore_int (value : ℤ) :
    (floatOfInt value = none ∧ coerceScore (some (.int value)) = .error .overflowError) ∨
      ∃ double, floatOfInt value = some double ∧ coerceScore (some (.int value)) = .ok (some (clampUnit double)) := by
  have heq : coerceScore (some (.int value)) = clampedFloat (floatOfInt value) := rfl
  rw [heq]
  cases floatOfInt value with
  | none => exact Or.inl ⟨rfl, rfl⟩
  | some double => exact Or.inr ⟨double, rfl, rfl⟩

/-- How a field is coerced: it is too large, or a number and then one from 0 to 1, or no number. -/
theorem coerceScore_cases (field : Option Value) :
    (tooLarge field = true ∧ coerceScore field = .error .overflowError) ∨
      (tooLarge field = false ∧ numeric field = true ∧ ∃ double, coerceScore field = .ok (some double) ∧ InUnit double) ∨
      (tooLarge field = false ∧ numeric field = false ∧ coerceScore field = .ok none) := by
  cases field with
  | none => exact Or.inr (Or.inr ⟨rfl, rfl, rfl⟩)
  | some value =>
    cases value with
    | none => exact Or.inr (Or.inr ⟨rfl, rfl, rfl⟩)
    | bool value => exact Or.inr (Or.inr ⟨rfl, rfl, rfl⟩)
    | str text => exact Or.inr (Or.inr ⟨rfl, rfl, rfl⟩)
    | list items => exact Or.inr (Or.inr ⟨rfl, rfl, rfl⟩)
    | dict members => exact Or.inr (Or.inr ⟨rfl, rfl, rfl⟩)
    | float double => exact Or.inr (Or.inl ⟨rfl, rfl, clampUnit double, rfl, inUnit_clampUnit double⟩)
    | int value =>
      have hlarge : tooLarge (some (.int value)) = decide (floatOfInt value = none) := by rw [tooLarge]
      cases coerceScore_int value with
      | inl hover => exact Or.inl ⟨by rw [hlarge, hover.1]; rfl, hover.2⟩
      | inr hnear =>
        obtain ⟨double, hdouble, hscore⟩ := hnear
        exact Or.inr (Or.inl ⟨by rw [hlarge, hdouble]; rfl, rfl, clampUnit double, hscore, inUnit_clampUnit double⟩)

/-! ## One case -/

/-- The object that is read of a reply. -/
def Reply.payload (python : Python) : Reply → Option (List (PyStr × Value))
  | .text raw =>
    if TolerantJson.strip raw = [] then none
    else match python.loads (TolerantJson.unwrapped raw) with
      | .value (.dict members) => some members
      | _ => none
  | _ => none

/-- The reply's text is read within the stack limit. -/
def Reply.Shallow (python : Python) : Reply → Prop
  | .text raw => TolerantJson.strip raw ≠ [] → python.loads (TolerantJson.unwrapped raw) ≠ .exhausted
  | _ => True

/-- No score of the object, if there is one, is a whole number too large for a float. -/
def Answerable (python : Python) (reply : Reply) : Prop :=
  reply.Shallow python ∧ ∀ payload, reply.payload python = some payload →
    tooLarge (get payload "faithfulness") = false ∧ tooLarge (get payload "relevance") = false

/-- The object has both scores as numbers, or neither. -/
def Balanced (python : Python) (reply : Reply) : Prop :=
  ∀ payload, reply.payload python = some payload →
    numeric (get payload "faithfulness") = numeric (get payload "relevance")

variable {python}

/-- The scores of an object. -/
def scoresOf (payload : List (PyStr × Value)) : Except PyError LLMJudgeScores := do
  let faithfulness ← coerceScore (get payload "faithfulness")
  let relevance ← coerceScore (get payload "relevance")
  if faithfulness = none ∧ relevance = none then pure { error := some "llm_judge_no_scores" }
  else pure { faithfulness, relevance }

/-- A case is scored by its object, or has an error and no scores. -/
theorem scoreCase_cases (reply : Reply) :
    (∃ payload, reply.payload python = some payload ∧ scoreCase python reply = scoresOf payload ∧ reply.Shallow python) ∨
      (reply.payload python = none ∧ reply.Shallow python ∧ ∃ scores, scoreCase python reply = .ok scores ∧ scores.Whole) ∨
      (reply.payload python = none ∧ ¬ reply.Shallow python ∧ scoreCase python reply = .error .recursionError) := by
  cases reply with
  | timedOut => exact Or.inr (Or.inl ⟨rfl, trivial, _, rfl, .none⟩)
  | failed message => exact Or.inr (Or.inl ⟨rfl, trivial, _, rfl, .none⟩)
  | text raw =>
    by_cases hblank : TolerantJson.strip raw = []
    · refine Or.inr (Or.inl ⟨by simp [Reply.payload, hblank], fun hne => absurd hblank hne, ?_⟩)
      refine ⟨{ error := some "llm_judge_unparseable_output" }, ?_, .none⟩
      simp only [scoreCase, parseScores, extractJsonObject, if_pos hblank]
      rfl
    · cases hloads : python.loads (TolerantJson.unwrapped raw) with
      | refused =>
        refine Or.inr (Or.inl ⟨by simp [Reply.payload, hblank, hloads], fun _ => by simp [hloads], ?_⟩)
        refine ⟨{ error := some "llm_judge_unparseable_output" }, ?_, .none⟩
        simp only [scoreCase, parseScores, extractJsonObject, if_neg hblank, hloads]
        rfl
      | exhausted =>
        refine Or.inr (Or.inr ⟨by simp [Reply.payload, hblank, hloads], fun h => h hblank hloads, ?_⟩)
        simp only [scoreCase, parseScores, extractJsonObject, if_neg hblank, hloads]
        rfl
      | value value =>
        have hshallow : (Reply.text raw).Shallow python := fun _ => by simp [hloads]
        cases value with
        | dict members =>
          refine Or.inl ⟨members, by simp [Reply.payload, hblank, hloads], ?_, hshallow⟩
          simp only [scoreCase, parseScores, extractJsonObject, if_neg hblank, hloads]
          rfl
        | _ =>
          refine Or.inr (Or.inl ⟨by simp [Reply.payload, hblank, hloads], hshallow, ?_⟩)
          refine ⟨{ error := some "llm_judge_unparseable_output" }, ?_, .none⟩
          simp only [scoreCase, parseScores, extractJsonObject, if_neg hblank, hloads]
          rfl

/-- The scores of an object are whole exactly when none is too large and it has both or neither. -/
theorem scoresOf_whole_iff (payload : List (PyStr × Value)) :
    (∃ scores, scoresOf payload = .ok scores ∧ scores.Whole) ↔
      (tooLarge (get payload "faithfulness") = false ∧ tooLarge (get payload "relevance") = false) ∧
        numeric (get payload "faithfulness") = numeric (get payload "relevance") := by
  unfold scoresOf
  rcases coerceScore_cases (get payload "faithfulness") with hf | hf | hf <;>
    rcases coerceScore_cases (get payload "relevance") with hr | hr | hr
  · simp [hf, bind, Except.bind]
  · simp [hf, bind, Except.bind]
  · simp [hf, bind, Except.bind]
  · obtain ⟨hsmall, hnumeric, f, hscore, hunit⟩ := hf
    simp [hr, hscore, bind, Except.bind]
  · obtain ⟨hsmall, hnumeric, f, hscore, hunit⟩ := hf
    obtain ⟨hsmall', hnumeric', r, hscore', hunit'⟩ := hr
    simp only [hsmall, hsmall', hnumeric, hnumeric', hscore, hscore', and_self, iff_true, bind, Except.bind, pure,
      Except.pure, reduceCtorEq, if_false]
    exact ⟨_, rfl, .both hunit hunit'⟩
  · obtain ⟨hsmall, hnumeric, f, hscore, hunit⟩ := hf
    simp only [hr, hsmall, hnumeric, hscore, Bool.true_eq_false, and_false, iff_false, bind, Except.bind, pure,
      Except.pure, reduceCtorEq, false_and, if_false]
    rintro ⟨scores, hscores, hwhole⟩
    cases hscores
    cases hwhole
  · simp [hf, hr, bind, Except.bind]
  · obtain ⟨hsmall', hnumeric', r, hscore', hunit'⟩ := hr
    simp only [hf, hsmall', hnumeric', hscore', Bool.false_eq_true, and_false, iff_false, bind, Except.bind, pure,
      Except.pure, reduceCtorEq, if_false]
    rintro ⟨scores, hscores, hwhole⟩
    cases hscores
    cases hwhole
  · simp only [hf, hr, and_self, iff_true, bind, Except.bind, pure, Except.pure, if_true]
    exact ⟨_, rfl, .none⟩

/-- The scores of an object are had exactly when none is too large. -/
theorem scoresOf_ok_iff (payload : List (PyStr × Value)) :
    (∃ scores, scoresOf payload = .ok scores) ↔
      tooLarge (get payload "faithfulness") = false ∧ tooLarge (get payload "relevance") = false := by
  have hsmall : ∀ field, tooLarge field = false → ∃ score, coerceScore field = .ok score := by
    intro field hfield
    rcases coerceScore_cases field with hlarge | ⟨-, -, double, hscore, -⟩ | hnone
    · rw [hlarge.1] at hfield
      cases hfield
    · exact ⟨_, hscore⟩
    · exact ⟨_, hnone.2.2⟩
  have hlarge : ∀ field, tooLarge field = true → coerceScore field = .error .overflowError := by
    intro field hfield
    rcases coerceScore_cases field with hlarge | hnumber | hnone
    · exact hlarge.2
    · rw [hnumber.1] at hfield
      cases hfield
    · rw [hnone.1] at hfield
      cases hfield
  unfold scoresOf
  constructor
  · rintro ⟨scores, hscores⟩
    cases hf : tooLarge (get payload "faithfulness") with
    | true =>
      rw [hlarge _ hf] at hscores
      cases hscores
    | false =>
      obtain ⟨faithfulness, hfaithful⟩ := hsmall _ hf
      cases hr : tooLarge (get payload "relevance") with
      | true =>
        rw [hfaithful, hlarge _ hr] at hscores
        cases hscores
      | false => exact ⟨rfl, rfl⟩
  · rintro ⟨hf, hr⟩
    obtain ⟨faithfulness, hfaithful⟩ := hsmall _ hf
    obtain ⟨relevance, hrelevant⟩ := hsmall _ hr
    rw [hfaithful, hrelevant]
    simp only [bind, Except.bind, pure, Except.pure]
    split
    · exact ⟨_, rfl⟩
    · exact ⟨_, rfl⟩

/-- A case is scored exactly when its reply is answerable. -/
theorem scoreCase_ok_iff (reply : Reply) : (∃ scores, scoreCase python reply = .ok scores) ↔ Answerable python reply := by
  rcases @scoreCase_cases python reply with ⟨payload, hpayload, hscore, hshallow⟩ |
    ⟨hpayload, hshallow, scores, hscore, -⟩ | ⟨hpayload, hdeep, hscore⟩
  · rw [hscore, scoresOf_ok_iff, Answerable, and_iff_right hshallow, hpayload]
    simp
  · rw [hscore, Answerable, and_iff_right hshallow, hpayload]
    simp
  · rw [hscore]
    exact iff_of_false (by simp) fun h => hdeep h.1

/-- And it has both scores or none exactly when the object has both numbers or none, too. -/
theorem scoreCase_whole_iff (reply : Reply) :
    (∃ scores, scoreCase python reply = .ok scores ∧ scores.Whole) ↔ Answerable python reply ∧ Balanced python reply := by
  rcases @scoreCase_cases python reply with ⟨payload, hpayload, hscore, hshallow⟩ |
    ⟨hpayload, hshallow, scores, hscore, hwhole⟩ | ⟨hpayload, hdeep, hscore⟩
  · rw [hscore, scoresOf_whole_iff, Answerable, and_iff_right hshallow, Balanced, hpayload]
    simp
  · rw [hscore, Answerable, and_iff_right hshallow, Balanced, hpayload]
    exact iff_of_true ⟨scores, rfl, hwhole⟩ (by simp)
  · rw [hscore]
    exact iff_of_false (by simp) fun h => hdeep h.1.1

/-! ## All results -/

/-- What scoring leaves as it is. -/
def BenchmarkResult.kept (result : BenchmarkResult Checks Metrics) : String × Checks × Metrics :=
  (result.caseId, result.deterministicChecks, result.retrievalMetrics)

/-- A reply that scoring asks for, from the n-th result on. -/
def AskedFrom (scoring : Scoring Case Observed) (n : ℕ) (results : List (BenchmarkResult Checks Metrics)) (reply : Reply) :
    Prop :=
  ∃ i result asked observed, results[i]? = some result ∧ scoring.caseById result.caseId = some asked ∧
    scoring.observedByCase result.caseId = some observed ∧ reply = scoring.ask (n + i) asked observed

/-- A scored result is kept but for its scores. -/
theorem scoreResult_kept {scoring : Scoring Case Observed} {n : ℕ} {result scored : BenchmarkResult Checks Metrics}
    (h : scoreResult python scoring n result = .ok scored) : scored.kept = result.kept := by
  unfold scoreResult at h
  obtain ⟨judge, -, hscored⟩ := bind_eq_ok.mp h
  cases hscored
  rfl

/-- A result is scored exactly when what is asked for is answerable. -/
theorem scoreResult_ok_iff (scoring : Scoring Case Observed) (n : ℕ) (result : BenchmarkResult Checks Metrics) :
    (∃ scored, scoreResult python scoring n result = .ok scored) ↔
      ∀ asked observed, scoring.caseById result.caseId = some asked →
        scoring.observedByCase result.caseId = some observed → Answerable python (scoring.ask n asked observed) := by
  cases hcase : scoring.caseById result.caseId with
  | none =>
    refine iff_of_true ?_ fun asked observed h => nomatch h
    simp only [scoreResult, judgeOf, hcase]
    exact ⟨_, rfl⟩
  | some asked =>
    cases hobserved : scoring.observedByCase result.caseId with
    | none =>
      refine iff_of_true ?_ fun asked observed _ h => nomatch h
      simp only [scoreResult, judgeOf, hcase, hobserved]
      exact ⟨_, rfl⟩
    | some observed =>
      have hone : (∀ asked' observed', some asked = some asked' → some observed = some observed' →
          Answerable python (scoring.ask n asked' observed')) ↔ Answerable python (scoring.ask n asked observed) := by
        constructor
        · exact fun h => h asked observed rfl rfl
        · intro h asked' observed' hasked' hobserved'
          rw [← Option.some.inj hasked', ← Option.some.inj hobserved']
          exact h
      rw [hone, ← scoreCase_ok_iff]
      simp only [scoreResult, judgeOf, hcase, hobserved]
      cases scoreCase python (scoring.ask n asked observed) with
      | ok scores => exact iff_of_true ⟨_, rfl⟩ ⟨scores, rfl⟩
      | error error => simp [bind, Except.bind]

/-- All results are kept but for their scores, in their order. -/
theorem scoreFrom_kept (scoring : Scoring Case Observed) (results : List (BenchmarkResult Checks Metrics)) :
    ∀ n scored, scoreFrom python scoring n results = .ok scored → scored.map (·.kept) = results.map (·.kept) := by
  induction results with
  | nil =>
    intro n scored h
    cases h
    rfl
  | cons result results ih =>
    intro n scored h
    rw [scoreFrom] at h
    obtain ⟨first, hfirst, hrest⟩ := bind_eq_ok.mp h
    obtain ⟨later, hlater, hscored⟩ := bind_eq_ok.mp hrest
    cases hscored
    rw [List.map_cons, List.map_cons, scoreResult_kept hfirst, ih (n + 1) later hlater]

/-- The results are scored exactly when all that is asked for is answerable. -/
theorem scoreFrom_ok_iff (scoring : Scoring Case Observed) (results : List (BenchmarkResult Checks Metrics)) :
    ∀ n, (∃ scored, scoreFrom python scoring n results = .ok scored) ↔
      ∀ reply, AskedFrom scoring n results reply → Answerable python reply := by
  induction results with
  | nil =>
    intro n
    refine iff_of_true ⟨[], rfl⟩ fun reply hasked => ?_
    obtain ⟨i, result, -, -, hresult, -⟩ := hasked
    rw [List.getElem?_nil] at hresult
    cases hresult
  | cons result results ih =>
    intro n
    have hsplit : (∃ scored, scoreFrom python scoring n (result :: results) = .ok scored) ↔
        (∃ scored, scoreResult python scoring n result = .ok scored) ∧
          ∃ scored, scoreFrom python scoring (n + 1) results = .ok scored := by
      rw [scoreFrom]
      constructor
      · intro h
        obtain ⟨scored, hscored⟩ := h
        obtain ⟨first, hfirst, hrest⟩ := bind_eq_ok.mp hscored
        obtain ⟨later, hlater, -⟩ := bind_eq_ok.mp hrest
        exact ⟨⟨first, hfirst⟩, later, hlater⟩
      · intro h
        obtain ⟨⟨first, hfirst⟩, later, hlater⟩ := h
        rw [hfirst, hlater]
        exact ⟨_, rfl⟩
    rw [hsplit, scoreResult_ok_iff, ih]
    constructor
    · intro h reply hasked
      obtain ⟨i, other, asked, observed, hother, hcase, hobserved, hreply⟩ := hasked
      cases i with
      | zero =>
        have hsame : result = other := Option.some.inj hother
        rw [hreply]
        exact h.1 asked observed (hsame ▸ hcase) (hsame ▸ hobserved)
      | succ i => exact h.2 reply ⟨i, other, asked, observed, hother, hcase, hobserved, by rw [hreply]; congr 1; omega⟩
    · intro h
      refine ⟨fun asked observed hcase hobserved => h _ ⟨0, result, asked, observed, rfl, hcase, hobserved, rfl⟩, ?_⟩
      intro reply hasked
      obtain ⟨i, other, asked, observed, hother, hcase, hobserved, hreply⟩ := hasked
      exact h reply ⟨i + 1, other, asked, observed, hother, hcase, hobserved, by rw [hreply]; congr 1; omega⟩

/-- A reply that scoring asks for. -/
def Asked (scoring : Scoring Case Observed) (results : List (BenchmarkResult Checks Metrics)) (reply : Reply) : Prop :=
  scoring.enabled = true ∧ AskedFrom scoring 0 results reply

/-- A case has both scores, each from 0 to 1, or an error and none, exactly when its
reply is answerable and its object has both numbers or neither; and the results are
scored one by one, in order, and else unchanged exactly when every reply that is
asked for is answerable. -/
theorem scoring_whole_iff (python : Python) :
    (∀ reply, (∃ scores, scoreCase python reply = .ok scores ∧ scores.Whole) ↔
        Answerable python reply ∧ Balanced python reply) ∧
      ∀ {Checks Metrics Case Observed : Type} (scoring : Scoring Case Observed)
        (results : List (BenchmarkResult Checks Metrics)),
        (∃ scored, scoreResults python scoring results = .ok scored ∧ scored.map (·.kept) = results.map (·.kept)) ↔
          ∀ reply, Asked scoring results reply → Answerable python reply := by
  refine ⟨scoreCase_whole_iff, fun scoring results => ?_⟩
  cases henabled : scoring.enabled with
  | false =>
    refine iff_of_true ⟨results, ?_, rfl⟩ fun reply hasked => ?_
    · rw [scoreResults, henabled]
      rfl
    · have hon := hasked.1
      rw [henabled] at hon
      cases hon
  | true =>
    have hresults : scoreResults python scoring results = scoreFrom python scoring 0 results := by
      rw [scoreResults, henabled, if_pos rfl]
    have hkept : (∃ scored, scoreFrom python scoring 0 results = .ok scored ∧ scored.map (·.kept) = results.map (·.kept)) ↔
        ∃ scored, scoreFrom python scoring 0 results = .ok scored :=
      exists_congr fun scored => and_iff_left_of_imp (scoreFrom_kept scoring results 0 scored)
    rw [hresults, hkept, scoreFrom_ok_iff]
    simp [Asked, henabled]

/-- A reply with one of the two scores. -/
def halfScored : List Char := "\x7b\"faithfulness\": 1\x7d".toList

theorem loads_halfScored :
    plainPython.loads (TolerantJson.unwrapped halfScored) = .value (.dict [(py "faithfulness", .int 1)]) := by
  have hnumbers : ∀ n ∈ (JsonText.Json.obj [("faithfulness", .num (PythonNumbers.PyNumber.int 1))]).numbers,
      PythonJson.readBack n = some n := by
    intro n hn
    rw [List.mem_singleton.mp hn]
    rfl
  have hs : TolerantJson.Serialises halfScored [("faithfulness", .num (.int 1))] :=
    TolerantJson.serialises_written JsonText.pythonLayout hnumbers
  have hsame : TolerantJson.unwrapped halfScored = halfScored := by decide +kernel
  rw [hsame, loads_plain hs]
  rfl

/-- It is taken as it is: one score, no other and no error. -/
theorem half_scored_taken :
    ¬ (∃ scores, scoreCase plainPython (.text halfScored) = .ok scores ∧ scores.Whole) := by
  have hpayload : (Reply.text halfScored).payload plainPython = some [(py "faithfulness", .int 1)] := by
    have hblank : TolerantJson.strip halfScored ≠ [] := by decide +kernel
    simp only [Reply.payload, if_neg hblank, loads_halfScored]
  rw [scoreCase_whole_iff]
  intro h
  have hbalanced := h.2 _ hpayload
  exact absurd hbalanced (by decide +kernel)

end RagSystem.JudgeScores
