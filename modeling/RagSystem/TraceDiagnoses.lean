import RagSystem.ModelReplies

/-!
# Diagnoses of traces

A diagnosis is shaped from the object in the investigator model's reply: with
recommendations it names a cause and what was analyzed, without it should say that
no cause was determined. The cause that the model gives is kept then, too.
-/

namespace RagSystem.TraceDiagnoses

open ModelReplies

set_option autoImplicit false

/-- `_TARGETS`. -/
inductive Target where
  | aiConfiguration
  | corpus
  deriving DecidableEq

/-- A target by its name. -/
def Target.ofName (name : PyStr) : Option Target :=
  if name = py "ai_configuration" then some .aiConfiguration
  else if name = py "corpus" then some .corpus
  else none

/-- `_ANALYZED_ELEMENTS`. -/
inductive AnalyzedElement where
  | route
  | retrievalScores
  | retrievalOrder
  | generationOutcome
  deriving DecidableEq

/-- An element by its name. -/
def AnalyzedElement.ofName (name : PyStr) : Option AnalyzedElement :=
  if name = py "route" then some .route
  else if name = py "retrieval_scores" then some .retrievalScores
  else if name = py "retrieval_order" then some .retrievalOrder
  else if name = py "generation_outcome" then some .generationOutcome
  else none

/-- `Recommendation`. -/
structure Recommendation where
  /-- `target`. -/
  target : Target
  /-- `description`. -/
  description : PyStr
  deriving DecidableEq

/-- `TraceDiagnosis`. -/
structure TraceDiagnosis where
  /-- `trace_id`. -/
  traceId : String
  /-- `cause_description`. -/
  causeDescription : PyStr
  /-- `analyzed_elements`. -/
  analyzedElements : List AnalyzedElement
  /-- `recommendations`. -/
  recommendations : List Recommendation

/-- `QueryTraceRecord`, what a diagnosis reads of it. -/
structure QueryTraceRecord where
  /-- `trace_id`. -/
  traceId : String
  /-- How many `retrieved_hits` there are. -/
  retrievedHits : ℕ
  /-- Whether there are `claims`. -/
  hasClaims : Bool
  /-- `abstention_reason_code`. -/
  abstentionReasonCode : Option String
  /-- `answer`. -/
  answer : String

/-- `_MAX_RECOMMENDATIONS`. -/
def maxRecommendations : ℕ := 10

/-- `_NO_CAUSE_DESCRIPTION`. -/
def noCauseDescription : String := "No cause was determined for this query outcome from the recorded trace."

variable (python : Python)

/-- `str(members.get(name, "")).strip()`. -/
def fieldText (members : List (PyStr × Value)) (name : String) : PyStr :=
  stripStr (python.textOf ((get members name).getD (.str [])))

/-- `_parse_recommendations`, what an entry says: nothing without a target or a description. -/
def recommendationOf : Value → Option Recommendation
  | .dict entry =>
    (Target.ofName (fieldText python entry "target")).bind fun target =>
      if fieldText python entry "description" = [] then none
      else some ⟨target, fieldText python entry "description"⟩
  | _ => none

/-- The constructor `Recommendation`. -/
def constructed (recommendation : Recommendation) : Except PyError Recommendation :=
  if python.acceptsText recommendation.description then .ok recommendation else .error .validationError

/-- The recommendations one after the other. -/
def constructAll : List Recommendation → Except PyError (List Recommendation)
  | [] => pure []
  | recommendation :: recommendations => do
    let first ← constructed python recommendation
    let later ← constructAll recommendations
    pure (first :: later)

/-- The recommendations of a reply's object, valid ones only. -/
def saidRecommendations : Option Value → List Recommendation
  | some (.list entries) => entries.filterMap (recommendationOf python)
  | _ => []

/-- `_parse_recommendations`. -/
def parseRecommendations (value : Option Value) : Except PyError (List Recommendation) :=
  constructAll python (saidRecommendations python value)

/-- `_parse_analyzed_elements`, one entry more. -/
def addElement (elements : List AnalyzedElement) (entry : Value) : List AnalyzedElement :=
  match AnalyzedElement.ofName (stripStr (python.textOf entry)) with
  | some element => if element ∈ elements then elements else elements ++ [element]
  | none => elements

/-- `_parse_analyzed_elements`. -/
def parseAnalyzedElements : Option Value → List AnalyzedElement
  | some (.list entries) => entries.foldl (addElement python) []
  | _ => []

/-- `_available_elements`. -/
def availableElements (trace : QueryTraceRecord) : List AnalyzedElement :=
  [.route] ++ (if 0 < trace.retrievedHits then [.retrievalScores] else []) ++
    (if 1 < trace.retrievedHits then [.retrievalOrder] else []) ++
    (if trace.hasClaims ∨ trace.abstentionReasonCode ≠ none ∨ trace.answer ≠ "" then [.generationOutcome] else [])

/-- The constructor `TraceDiagnosis`. -/
def diagnosis (trace : QueryTraceRecord) (cause : PyStr) (elements : List AnalyzedElement)
    (recommendations : List Recommendation) : Except PyError TraceDiagnosis :=
  if python.acceptsText cause then .ok ⟨trace.traceId, cause, elements, recommendations⟩ else .error .validationError

/-- `_no_cause_diagnosis`. -/
def noCauseDiagnosis (trace : QueryTraceRecord) (description : PyStr) : Except PyError TraceDiagnosis :=
  diagnosis python trace (if description = [] then py noCauseDescription else description) [] []

/-- `_parse_diagnosis`. -/
def parseDiagnosis (raw : List Char) (trace : QueryTraceRecord) : Except PyError TraceDiagnosis := do
  match ← extractJsonObject python raw with
  | none => noCauseDiagnosis python trace []
  | some payload =>
    let recommendations ← parseRecommendations python (get payload "recommendations")
    let cause := fieldText python payload "cause_description"
    if recommendations = [] then noCauseDiagnosis python trace cause
    else
      let elements := parseAnalyzedElements python (get payload "analyzed_elements")
      diagnosis python trace (if cause = [] then py "A cause was identified from the recorded trace." else cause)
        (if elements = [] then availableElements trace else elements) (recommendations.take maxRecommendations)

/-! ## The two forms -/

/-- A text that is not only white space. -/
def Nonblank (text : PyStr) : Prop := ∃ code ∈ text, isSpaceCode code = false

/-- Which texts state that no cause was determined: the code's own does. -/
structure NoCauseTexts where
  /-- The text states it. -/
  denies : PyStr → Prop
  /-- The code's own text does. -/
  own : denies (py noCauseDescription)

/-- A cause with 1 to 10 recommendations in the model's order, and what was analyzed. -/
structure IdentifiedCause (payload : List (PyStr × Value)) (d : TraceDiagnosis) : Prop where
  /-- One recommendation at least. -/
  recommended : 1 ≤ d.recommendations.length
  /-- And ten at most. -/
  few : d.recommendations.length ≤ 10
  /-- They are the first valid ones of the model's, whose targets are valid then. -/
  ordered : d.recommendations <+: saidRecommendations python (get payload "recommendations")
  /-- With descriptions. -/
  described : ∀ recommendation ∈ d.recommendations, Nonblank recommendation.description
  /-- Something was analyzed. -/
  analyzed : d.analyzedElements ≠ []
  /-- Nothing twice. -/
  distinct : d.analyzedElements.Nodup
  /-- And a cause is given. -/
  cause : Nonblank d.causeDescription

/-- No cause, nothing recommended, nothing analyzed. -/
structure NoCause (texts : NoCauseTexts) (d : TraceDiagnosis) : Prop where
  /-- No recommendations. -/
  recommendations : d.recommendations = []
  /-- No elements. -/
  elements : d.analyzedElements = []
  /-- The description states it. -/
  stated : texts.denies d.causeDescription

/-- One of the two forms. -/
def Contracted (texts : NoCauseTexts) (raw : List Char) (d : TraceDiagnosis) : Prop :=
  (∃ payload, extractJsonObject python raw = .ok (some payload) ∧ IdentifiedCause python payload d) ∨ NoCause texts d

/-- An object without a valid recommendation gives no cause, or one that states that
there is none, or one that is no text for a diagnosis. -/
def NoStrayCause (texts : NoCauseTexts) (raw : List Char) : Prop :=
  ∀ payload, extractJsonObject python raw = .ok (some payload) →
    saidRecommendations python (get payload "recommendations") = [] →
      fieldText python payload "cause_description" = [] ∨
        texts.denies (fieldText python payload "cause_description") ∨
          python.acceptsText (fieldText python payload "cause_description") = false

/-! ## Texts and elements -/

variable {python}

/-- What is left of a text that is stripped is not blank. -/
theorem nonblank_stripStr {text : PyStr} (h : stripStr text ≠ []) : Nonblank (stripStr text) := by
  have hback : (text.dropWhile isSpaceCode).reverse.dropWhile isSpaceCode ≠ [] := by
    intro hnil
    rw [stripStr, hnil] at h
    exact h rfl
  have hlast := List.head_dropWhile_not isSpaceCode hback
  refine ⟨_, ?_, hlast⟩
  rw [stripStr, List.mem_reverse]
  exact List.head_mem hback

theorem nonblank_fieldText {members : List (PyStr × Value)} {name : String} (h : fieldText python members name ≠ []) :
    Nonblank (fieldText python members name) := nonblank_stripStr h

/-- A valid recommendation is described. -/
theorem described_of_said {value : Option Value} {recommendation : Recommendation}
    (h : recommendation ∈ saidRecommendations python value) : Nonblank recommendation.description := by
  unfold saidRecommendations at h
  split at h
  · obtain ⟨entry, -, hentry⟩ := List.mem_filterMap.mp h
    unfold recommendationOf at hentry
    split at hentry
    · obtain ⟨target, -, hsaid⟩ := Option.bind_eq_some_iff.mp hentry
      split at hsaid
      · cases hsaid
      · next hdescription =>
        cases hsaid
        exact nonblank_fieldText hdescription
    · cases hentry
  · exact absurd h List.not_mem_nil

/-- The recommendations are constructed as they are, if all of them are. -/
theorem constructAll_ok (said : List Recommendation) :
    ∀ recommendations, constructAll python said = .ok recommendations → recommendations = said := by
  induction said with
  | nil =>
    intro recommendations h
    cases h
    rfl
  | cons first said ih =>
    intro recommendations h
    rw [constructAll] at h
    obtain ⟨one, hone, hrest⟩ := bind_eq_ok.mp h
    obtain ⟨later, hlater, hall⟩ := bind_eq_ok.mp hrest
    cases hall
    have hfirst : one = first := by
      unfold constructed at hone
      split at hone
      · cases hone
        rfl
      · cases hone
    rw [hfirst, ih later hlater]

theorem addElement_nodup {elements : List AnalyzedElement} (h : elements.Nodup) (entry : Value) :
    (addElement python elements entry).Nodup := by
  unfold addElement
  split
  · next element _ =>
    split
    · exact h
    · next hnew =>
      rw [List.nodup_append]
      refine ⟨h, List.nodup_singleton _, fun other hother last hlast => ?_⟩
      rw [List.mem_singleton.mp hlast]
      exact fun he => hnew (he ▸ hother)
  · exact h

/-- No element is taken twice. -/
theorem parseAnalyzedElements_nodup (value : Option Value) : (parseAnalyzedElements python value).Nodup := by
  have hall : ∀ (entries : List Value) elements, elements.Nodup → (entries.foldl (addElement python) elements).Nodup := by
    intro entries
    induction entries with
    | nil => exact fun elements h => h
    | cons entry entries ih => exact fun elements h => ih _ (addElement_nodup h entry)
  unfold parseAnalyzedElements
  split
  · exact hall _ [] List.nodup_nil
  · exact List.nodup_nil

theorem availableElements_nodup (trace : QueryTraceRecord) : (availableElements trace).Nodup := by
  unfold availableElements
  split <;> split <;> split <;> decide

theorem availableElements_ne_nil (trace : QueryTraceRecord) : availableElements trace ≠ [] := by
  simp [availableElements]

/-! ## Diagnoses -/

variable {texts : NoCauseTexts} {trace : QueryTraceRecord} {raw : List Char} {d : TraceDiagnosis}

/-- A constructed diagnosis has what it was constructed of, and its cause is a text. -/
theorem diagnosis_ok {cause : PyStr} {elements : List AnalyzedElement} {recommendations : List Recommendation}
    (h : diagnosis python trace cause elements recommendations = .ok d) :
    d = ⟨trace.traceId, cause, elements, recommendations⟩ ∧ python.acceptsText cause = true := by
  unfold diagnosis at h
  split at h
  · next haccepts =>
    cases h
    exact ⟨rfl, haccepts⟩
  · cases h

/-- Without an object, and with one that has a valid recommendation, a diagnosis is of one of the forms. -/
theorem contracted_of_said {payload : List (PyStr × Value)} (hpayload : extractJsonObject python raw = .ok (some payload))
    (hsaid : saidRecommendations python (get payload "recommendations") ≠ [])
    (h : parseDiagnosis python raw trace = .ok d) : Contracted python texts raw d := by
  simp only [parseDiagnosis, hpayload, bind, Except.bind] at h
  cases hparse : parseRecommendations python (get payload "recommendations") with
  | error error =>
    rw [hparse] at h
    cases h
  | ok recommendations =>
    have hsame := constructAll_ok _ _ hparse
    rw [hparse, hsame] at h
    simp only [if_neg hsaid] at h
    obtain ⟨hd, -⟩ := diagnosis_ok h
    have hlength : 1 ≤ (saidRecommendations python (get payload "recommendations")).length :=
      List.length_pos_iff.mpr hsaid
    refine Or.inl ⟨payload, hpayload, ?_⟩
    rw [hd]
    refine ⟨?_, ?_, List.take_prefix _ _, ?_, ?_, ?_, ?_⟩
    · rw [List.length_take, maxRecommendations]
      omega
    · rw [List.length_take, maxRecommendations]
      omega
    · exact fun recommendation hmem => described_of_said (List.mem_of_mem_take hmem)
    · dsimp only
      split
      · exact availableElements_ne_nil trace
      · next hne => exact hne
    · dsimp only
      split
      · exact availableElements_nodup trace
      · exact parseAnalyzedElements_nodup _
    · dsimp only
      split
      · exact ⟨65, by decide, by decide⟩
      · next hcause => exact nonblank_fieldText hcause

/-- Without a valid recommendation the diagnosis has the cause that the object gives, or the code's own text. -/
theorem parseDiagnosis_unsaid {payload : List (PyStr × Value)}
    (hpayload : extractJsonObject python raw = .ok (some payload))
    (hsaid : saidRecommendations python (get payload "recommendations") = []) :
    parseDiagnosis python raw trace = noCauseDiagnosis python trace (fieldText python payload "cause_description") := by
  have hparse : parseRecommendations python (get payload "recommendations") = .ok [] := by
    rw [parseRecommendations, hsaid]
    rfl
  simp only [parseDiagnosis, hpayload, hparse, bind, Except.bind, if_true]

theorem parseDiagnosis_unread (hnone : extractJsonObject python raw = .ok none) :
    parseDiagnosis python raw trace = noCauseDiagnosis python trace [] := by
  simp only [parseDiagnosis, hnone, bind, Except.bind]

/-- A no-cause diagnosis is of its form exactly when its description states it. -/
theorem contracted_noCause_iff {description : PyStr} :
    (∀ d, noCauseDiagnosis python trace description = .ok d → Contracted python texts raw d) ↔
      description = [] ∨ texts.denies description ∨ python.acceptsText description = false := by
  by_cases hblank : description = []
  · refine iff_of_true (fun d h => Or.inr ?_) (Or.inl hblank)
    obtain ⟨hd, -⟩ := diagnosis_ok h
    rw [hd, if_pos hblank]
    exact ⟨rfl, rfl, texts.own⟩
  · rw [noCauseDiagnosis, if_neg hblank]
    constructor
    · intro h
      cases haccepts : python.acceptsText description with
      | false => exact Or.inr (Or.inr rfl)
      | true =>
        have hreturned : diagnosis python trace description [] [] = .ok ⟨trace.traceId, description, [], []⟩ :=
          if_pos haccepts
        cases h _ hreturned with
        | inl hcause =>
          obtain ⟨payload, -, hidentified⟩ := hcause
          exact absurd hidentified.recommended (by simp)
        | inr hnone => exact Or.inr (Or.inl hnone.stated)
    · intro h d hd
      obtain ⟨hd, haccepts⟩ := diagnosis_ok hd
      rcases h with hnil | hdenies | hrefused
      · exact absurd hnil hblank
      · rw [hd]
        exact Or.inr ⟨rfl, rfl, hdenies⟩
      · rw [haccepts] at hrefused
        cases hrefused

/-- Every diagnosis that is returned for a reply is of one of the two forms exactly
when the reply's object, if it has one without a valid recommendation, gives no cause
or one that states that there is none. -/
theorem diagnoses_contracted_iff (python : Python) (texts : NoCauseTexts) (raw : List Char) (trace : QueryTraceRecord) :
    (∀ d, parseDiagnosis python raw trace = .ok d → Contracted python texts raw d) ↔ NoStrayCause python texts raw := by
  cases hread : extractJsonObject python raw with
  | error error =>
    have hraised : parseDiagnosis python raw trace = .error error := by
      simp only [parseDiagnosis, hread, bind, Except.bind]
    rw [hraised, NoStrayCause, hread]
    exact iff_of_true (fun d h => nomatch h) fun payload h => nomatch h
  | ok read =>
    cases read with
    | none =>
      rw [parseDiagnosis_unread hread, contracted_noCause_iff, NoStrayCause, hread]
      exact iff_of_true (Or.inl rfl) fun payload h => nomatch h
    | some payload =>
      have honly : NoStrayCause python texts raw ↔
          (saidRecommendations python (get payload "recommendations") = [] →
            fieldText python payload "cause_description" = [] ∨
              texts.denies (fieldText python payload "cause_description") ∨
                python.acceptsText (fieldText python payload "cause_description") = false) := by
        rw [NoStrayCause, hread]
        constructor
        · exact fun h => h payload rfl
        · intro h other hother
          rw [← Option.some.inj (Except.ok.inj hother)]
          exact h
      rw [honly]
      by_cases hsaid : saidRecommendations python (get payload "recommendations") = []
      · rw [parseDiagnosis_unsaid hread hsaid, contracted_noCause_iff, forall_prop_of_true hsaid]
      · exact iff_of_true (fun d h => contracted_of_said hread hsaid h) fun hnone => absurd hnone hsaid

/-- A reply that gives a cause and recommends nothing. -/
def strayCause : List Char := "\x7b\"cause_description\": \"The index is stale.\"\x7d".toList

/-- A trace of an answer to which nothing was retrieved. -/
def unsupportedTrace : QueryTraceRecord := ⟨"q-1", 0, false, none, "The index was rebuilt."⟩

/-- Its cause is the description of a diagnosis without recommendations, and not the code's own text. -/
theorem stray_cause_kept :
    ∃ d, parseDiagnosis plainPython strayCause unsupportedTrace = .ok d ∧
      ¬ Contracted plainPython ⟨(· = py noCauseDescription), rfl⟩ strayCause d := by
  have hnumbers : ∀ n ∈ (JsonText.Json.obj [("cause_description", .str "The index is stale.")]).numbers,
      PythonJson.readBack n = some n := fun n hn => absurd hn List.not_mem_nil
  have hs : TolerantJson.Serialises strayCause [("cause_description", .str "The index is stale.")] :=
    TolerantJson.serialises_written JsonText.pythonLayout hnumbers
  have hsame : TolerantJson.unwrapped strayCause = strayCause := by decide +kernel
  have hblank : TolerantJson.strip strayCause ≠ [] := by decide +kernel
  have hread : extractJsonObject plainPython strayCause =
      .ok (some [(py "cause_description", .str (py "The index is stale."))]) := by
    rw [extractJsonObject, if_neg hblank, hsame, loads_plain hs]
    rfl
  have hcause : fieldText plainPython [(py "cause_description", .str (py "The index is stale."))] "cause_description" =
      py "The index is stale." := by decide +kernel
  have hdifferent : py "The index is stale." ≠ py noCauseDescription := by decide +kernel
  refine ⟨⟨unsupportedTrace.traceId, py "The index is stale.", [], []⟩, ?_, ?_⟩
  · rw [parseDiagnosis_unsaid hread rfl, hcause]
    rfl
  · intro h
    cases h with
    | inl hidentified =>
      obtain ⟨payload, -, hidentified⟩ := hidentified
      exact absurd hidentified.recommended (by simp)
    | inr hnone => exact absurd hnone.stated hdifferent

end RagSystem.TraceDiagnoses
