import RagSystem.Abstention
import RagSystem.Doubles

/-!
# Hybrid answers

How the answer from the documents and the answer from the database become one:
whether they overlap, the labelled sections, and the combined confidence.
A float is the rational it is; every operation rounds to the nearest double.
-/

namespace RagSystem.HybridAnswers

open DocumentModels QueryModels Doubles

set_option autoImplicit false

/-- `_STOPWORDS`. -/
def stopwords : List String :=
  ["about", "above", "after", "again", "against", "answer", "based", "because", "been", "before", "being",
    "below", "between", "both", "data", "does", "doing", "during", "each", "from", "have", "having", "here",
    "into", "more", "most", "only", "other", "over", "same", "should", "some", "such", "than", "that", "their",
    "them", "then", "there", "these", "they", "this", "those", "through", "under", "until", "very", "were",
    "what", "when", "where", "which", "while", "with", "would", "your"]

/-- The characters of `[a-z0-9]`. -/
def isWordChar (c : Char) : Bool := ('a' ≤ c && c ≤ 'z') || ('0' ≤ c && c ≤ '9')

/-- `_WORD_RE.findall`: the maximal runs of word characters, `run` being the
one under way. -/
def wordRuns : List Char → List Char → List (List Char)
  | run, [] => if run = [] then [] else [run.reverse]
  | run, c :: cs =>
    if isWordChar c then wordRuns (c :: run) cs
    else if run = [] then wordRuns [] cs
    else run.reverse :: wordRuns [] cs

/-- `_significant_tokens`, each once. -/
def significantTokens (settings : AskSettings) (text : String) : List String :=
  (((wordRuns [] (settings.lower text).toList).map String.ofList).filter
    fun token => 3 < token.length && !stopwords.contains token).dedup

/-- The result of a float operation: the nearest double. -/
def toFloat (exact : ℚ) : ℚ := ((nearest (decide (exact < 0)) exact).value?).getD exact

/-- `_answers_overlap`. -/
def answersOverlap (settings : AskSettings) (ragAnswer dbAnswer : String) (threshold : ℚ) : Bool :=
  let ragTokens := significantTokens settings ragAnswer
  let dbTokens := significantTokens settings dbAnswer
  if ragTokens = [] ∨ dbTokens = [] then false
  else
    let shared := (ragTokens.filter fun token => dbTokens.contains token).length
    threshold ≤ toFloat ((shared : ℚ) / (min ragTokens.length dbTokens.length : ℕ))

/-- `_should_synthesize_hybrid`. -/
def shouldSynthesizeHybrid (settings : AskSettings) (ragAnswer dbAnswer : String) : Bool :=
  match settings.hybridSynthesisMode with
  | .always => true
  | .never => false
  | .auto => answersOverlap settings ragAnswer dbAnswer settings.hybridOverlapThreshold

/-- `_compose_hybrid_sections`. -/
def composeHybridSections (ragAnswer dbAnswer : String) : String :=
  let rag := strip ragAnswer
  let db := strip dbAnswer
  let ragSection := if rag = "" then [] else ["## From documents\n\n" ++ rag]
  let dbSection := if db = "" then [] else ["## From data\n\n" ++ db]
  "\n\n".intercalate (ragSection ++ dbSection)

/-- `MIN_SCORE`. -/
def minScore : ℚ := toFloat (5 / 100)

/-- `MAX_SCORE`. -/
def maxScore : ℚ := toFloat (99 / 100)

/-- `_clamp`. -/
def clamp (value low high : ℚ) : ℚ := max low (min high value)

/-- The nearest integer, the even one of two. -/
def nearestInteger (value : ℚ) : ℤ :=
  let rest := value - ⌊value⌋
  if rest < 1 / 2 then ⌊value⌋
  else if 1 / 2 < rest then ⌊value⌋ + 1
  else if ⌊value⌋ % 2 = 0 then ⌊value⌋
  else ⌊value⌋ + 1

/-- `round(value, 3)`: the double nearest to the decimal the exact value rounds to. -/
def roundThree (value : ℚ) : ℚ := toFloat (nearestInteger (value * 1000) / 1000)

/-- `sum`, from the left; of two scores every version of Python gives this. -/
def floatSum (scores : List ℚ) : ℚ := scores.foldl (fun total score => toFloat (total + score)) 0

/-- `combine_confidence_scores`. -/
def combineConfidenceScores (scores : List (Option ℚ)) : Option ℚ :=
  match scores.filterMap id with
  | [] => none
  | first :: rest =>
    let present := first :: rest
    let mean := toFloat (floatSum present / present.length)
    let combined := toFloat (toFloat (toFloat (6 / 10) * mean) + toFloat (toFloat (4 / 10) * rest.foldl min first))
    some (roundThree (clamp combined minScore maxScore))

/-- Two halves of a rounding: in floats 0.375 and 0.79 combine below one half. -/
example : combineConfidenceScores [some (375 / 1000), some (toFloat (79 / 100))] = some (toFloat (499 / 1000)) := by
  decide +kernel

/-- The evidence status of a hybrid answer. -/
def combineEvidenceStatus (ragStatus dbStatus : String) : String :=
  if ragStatus = "grounded" ∧ dbStatus = "grounded" then "grounded"
  else if ragStatus = "grounded" ∨ dbStatus = "grounded" then "partially_grounded"
  else "insufficient_evidence"

end RagSystem.HybridAnswers
