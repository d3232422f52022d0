import RagSystem.FollowUpRewrites

/-!
# The classifier's replies

A routing decision read from the classifier model's reply. What is no JSON, and a
confidence that the decision refuses, gives the fallback to document search. A reply
that is JSON of another shape raises what the guard does not name.
-/

namespace RagSystem.RoutingReplies

open Doubles QueryModels AskCalls ModelReplies FollowUpRewrites

set_option autoImplicit false

/-- A route by its name. -/
def routeOfName (name : PyStr) : Option QueryRoute :=
  if name = py "rag" then some .rag
  else if name = py "database" then some .database
  else if name = py "hybrid" then some .hybrid
  else none

variable (python : Python)

/-- `payload.get("route", "rag").lower()`, and `rag` if it is no route. -/
def routeOf (payload : List (PyStr × Value)) : Except PyError QueryRoute :=
  match get payload "route" with
  | none => .ok .rag
  | some (.str text) => .ok ((routeOfName (python.lower text)).getD .rag)
  -- only strings have `lower`
  | some _ => .error .attributeError

/-- What a conversion gives, or the error it raises. -/
def orRaise (error : PyError) : Option Double → Except PyError (Option ℚ)
  | some double => .ok double.value?
  | none => .error error

/-- `float`, as a number: neither an infinity nor a NaN is one. -/
def floatOf : Value → Except PyError (Option ℚ)
  | .bool value => .ok (some (if value then 1 else 0))
  | .int value => orRaise .overflowError (floatOfInt value)
  | .float double => .ok double.value?
  | .str text => orRaise .valueError (python.floatOfText text)
  | .none => .error .typeError
  | .list _ => .error .typeError
  | .dict _ => .error .typeError

/-- `float(payload.get("confidence", 0.8))`; the double next to 0.8 is a little more. -/
def confidenceOf (payload : List (PyStr × Value)) : Except PyError (Option ℚ) :=
  match get payload "confidence" with
  | some value => floatOf python value
  | none => .ok (some (7205759403792794 / 2 ^ 53))

/-- `clarification_question`, stripped, if it is not blank. -/
def clarificationOf (payload : List (PyStr × Value)) : Option PyStr :=
  match get payload "clarification_question" with
  | none => none
  | some .none => none
  | some value => if stripStr (python.textOf value) = [] then none else some (stripStr (python.textOf value))

/-- `reasoning`. -/
def reasoningOf (payload : List (PyStr × Value)) : PyStr :=
  python.textOf ((get payload "reasoning").getD (.str (py "Classified by LLM")))

/-- `scope_ambiguous`. -/
def scopeAmbiguousOf (payload : List (PyStr × Value)) : Bool :=
  truthy ((get payload "scope_ambiguous").getD (.bool false))

/-- `ambiguous`, also where only the scope is. -/
def ambiguousOf (payload : List (PyStr × Value)) : Bool :=
  truthy ((get payload "ambiguous").getD (.bool false)) || scopeAmbiguousOf payload

/-- The constructor `RoutingDecision`: any texts, and a confidence from 0 to 1. -/
def routingDecision (route : QueryRoute) (reasoning : PyStr) (confidence : Option ℚ) (ambiguous scopeAmbiguous : Bool)
    (clarificationQuestion : Option PyStr) : Except PyError (RoutingDecision PyStr) :=
  match confidence with
  | some confidence =>
    if 0 ≤ confidence ∧ confidence ≤ 1 then
      .ok ⟨route, reasoning, confidence, ambiguous, scopeAmbiguous, clarificationQuestion⟩
    else .error .validationError
  | none => .error .validationError

/-- What the guarded part makes of a payload. -/
def decisionOf : Value → Except PyError (RoutingDecision PyStr)
  | .dict payload => do
    let route ← routeOf python payload
    let confidence ← confidenceOf python payload
    routingDecision route (reasoningOf python payload) confidence (ambiguousOf payload) (scopeAmbiguousOf payload)
      (clarificationOf python payload)
  | _ => .error .attributeError

/-- The decision without a readable reply. -/
def fallback : RoutingDecision PyStr where
  route := .rag
  reasoning := py "Failed to parse classifier output; defaulting to document search."
  confidence := 1 / 2

/-- `except (json.JSONDecodeError, ValueError, KeyError)`; a validation error is a `ValueError`. -/
def orFallback : Except PyError (RoutingDecision PyStr) → Except PyError (RoutingDecision PyStr)
  | .ok decision => .ok decision
  | .error .valueError => .ok fallback
  | .error .validationError => .ok fallback
  | .error error => .error error

/-- `_parse_routing_response`. -/
def parseRoutingResponse (raw : List Char) : Except PyError (RoutingDecision PyStr) :=
  match python.loads (TolerantJson.unwrapped raw) with
  | .value payload => orFallback (decisionOf python payload)
  | .refused => .ok fallback
  | .exhausted => .error .recursionError

/-! ## What a reply says -/

/-- The route of an object, in whatever case it is written. -/
def namedRoute (payload : List (PyStr × Value)) : Option QueryRoute :=
  match get payload "route" with
  | some (.str text) => routeOfName (python.lower text)
  | _ => none

/-- The route that a reply names. -/
def saidRoute (raw : List Char) : Option QueryRoute :=
  match python.loads (TolerantJson.unwrapped raw) with
  | .value (.dict payload) => namedRoute python payload
  | _ => none

/-- A decision for the route that the reply names, and for document search if it names none. -/
def Routed (raw : List Char) (decision : RoutingDecision PyStr) : Prop :=
  decision.route = (saidRoute python raw).getD .rag

/-- A string, or nothing. -/
def TextOrAbsent : Option Value → Prop
  | none => True
  | some (.str _) => True
  | _ => False

/-- What `float` takes without a type error or an overflow, or nothing. -/
def Convertible : Option Value → Prop
  | none => True
  | some (.bool _) => True
  | some (.int value) => floatOfInt value ≠ none
  | some (.float _) => True
  | some (.str _) => True
  | _ => False

/-- A confidence from 0 to 1, or none. -/
def ConfidenceFits : Option Value → Prop
  | none => True
  | some (.bool _) => True
  | some (.int value) => ∃ double, floatOfInt value = some double ∧ InUnit double
  | some (.float double) => InUnit double
  | some (.str text) => ∃ double, python.floatOfText text = some double ∧ InUnit double
  | _ => False

/-- An object that gives a decision for its route: its route is a string, its
confidence can be converted, and is from 0 to 1 where its route is not document search. -/
structure ObjectRoutable (payload : List (PyStr × Value)) : Prop where
  /-- The route has `lower`. -/
  route : TextOrAbsent (get payload "route")
  /-- `float` takes the confidence. -/
  confidence : Convertible (get payload "confidence")
  /-- Document search is the fallback. -/
  fits : (namedRoute python payload).getD .rag ≠ .rag → ConfidenceFits python (get payload "confidence")

/-- A reply that is no JSON, or such an object. -/
def Routable (raw : List Char) : Prop :=
  match python.loads (TolerantJson.unwrapped raw) with
  | .value (.dict payload) => ObjectRoutable python payload
  | .value _ => False
  | .refused => True
  | .exhausted => False

/-! ## Decisions -/

variable {python} {payload : List (PyStr × Value)}

theorem routeOf_ok (h : TextOrAbsent (get payload "route")) : routeOf python payload = .ok ((namedRoute python payload).getD .rag) := by
  unfold routeOf namedRoute
  split
  · next hget => rw [hget]; rfl
  · next text hget => rw [hget]
  · next value htext hget =>
    rw [hget] at h
    cases value with
    | str text => exact absurd rfl (htext text)
    | _ => exact h.elim

theorem routeOf_error (h : ¬ TextOrAbsent (get payload "route")) : routeOf python payload = .error .attributeError := by
  unfold routeOf
  split
  · next hget => exact absurd (by rw [hget]; trivial) h
  · next text hget => exact absurd (by rw [hget]; trivial) h
  · rfl

/-- A conversion that does not raise, or raises the error that is named. -/
theorem orRaise_cases (error : PyError) (double : Option Double) :
    (∃ d, double = some d ∧ orRaise error double = .ok d.value?) ∨ (double = none ∧ orRaise error double = .error error) := by
  cases double with
  | some d => exact Or.inl ⟨d, rfl, rfl⟩
  | none => exact Or.inr ⟨rfl, rfl⟩

/-- The number that a confidence is converted to is from 0 to 1. -/
def UnitValue (confidence : Option ℚ) : Prop := ∃ q, confidence = some q ∧ 0 ≤ q ∧ q ≤ 1

variable (python) in
/-- What converting the confidence comes to. -/
structure Conversion (value : Option Value) (converted : Except PyError (Option ℚ)) : Prop where
  /-- It returns, or raises what is caught, or it is not convertible. -/
  ends : (Convertible value ∧ ((∃ confidence, converted = .ok confidence) ∨ converted = .error .valueError)) ∨
    (¬ Convertible value ∧ (converted = .error .typeError ∨ converted = .error .overflowError))
  /-- A fitting confidence is what it returns. -/
  fits : ConfidenceFits python value ↔ ∃ confidence, converted = .ok confidence ∧ UnitValue confidence

theorem conversion_default : Conversion python none (.ok (some (7205759403792794 / 2 ^ 53))) := by
  refine ⟨Or.inl ⟨trivial, Or.inl ⟨_, rfl⟩⟩, iff_of_true trivial ⟨_, rfl, _, rfl, ?_, ?_⟩⟩ <;> norm_num

/-- Of a double that is converted. -/
theorem conversion_of_double {value : Value} (hconvertible : Convertible (some value)) {double : Double}
    (hfits : ConfidenceFits python (some value) ↔ InUnit double) : Conversion python (some value) (.ok double.value?) := by
  refine ⟨Or.inl ⟨hconvertible, Or.inl ⟨_, rfl⟩⟩, hfits.trans ⟨fun h => ⟨_, rfl, h⟩, ?_⟩⟩
  rintro ⟨confidence, hsame, hunit⟩
  cases hsame
  exact hunit

theorem conversion_floatOf (value : Value) : Conversion python (some value) (floatOf python value) := by
  have hrefused : ∀ {error : PyError}, ¬ ∃ confidence, (Except.error error : Except PyError (Option ℚ)) = .ok confidence ∧
      UnitValue confidence := by
    rintro error ⟨confidence, h, -⟩
    cases h
  cases value with
  | none => exact ⟨Or.inr ⟨id, Or.inl rfl⟩, iff_of_false id hrefused⟩
  | list items => exact ⟨Or.inr ⟨id, Or.inl rfl⟩, iff_of_false id hrefused⟩
  | dict members => exact ⟨Or.inr ⟨id, Or.inl rfl⟩, iff_of_false id hrefused⟩
  | bool value =>
    refine ⟨Or.inl ⟨trivial, Or.inl ⟨_, rfl⟩⟩, iff_of_true trivial ⟨_, rfl, _, rfl, ?_⟩⟩
    cases value <;> norm_num
  | float double =>
    have hconvertible : Convertible (some (.float double)) := trivial
    exact conversion_of_double hconvertible Iff.rfl
  | int value =>
    rw [floatOf]
    rcases orRaise_cases .overflowError (floatOfInt value) with ⟨double, hdouble, hvalue⟩ | ⟨hnone, hraise⟩
    · rw [hvalue]
      have hconvertible : Convertible (some (.int value)) := by simp [Convertible, hdouble]
      exact conversion_of_double hconvertible (by simp [ConfidenceFits, hdouble])
    · rw [hraise]
      exact ⟨Or.inr ⟨by simp [Convertible, hnone], Or.inr rfl⟩, iff_of_false (by simp [ConfidenceFits, hnone]) hrefused⟩
  | str text =>
    rw [floatOf]
    rcases orRaise_cases .valueError (python.floatOfText text) with ⟨double, hdouble, hvalue⟩ | ⟨hnone, hraise⟩
    · rw [hvalue]
      have hconvertible : Convertible (some (.str text)) := trivial
      exact conversion_of_double hconvertible (by simp [ConfidenceFits, hdouble])
    · rw [hraise]
      exact ⟨Or.inl ⟨trivial, Or.inr rfl⟩, iff_of_false (by simp [ConfidenceFits, hnone]) hrefused⟩

theorem conversion_confidenceOf (payload : List (PyStr × Value)) :
    Conversion python (get payload "confidence") (confidenceOf python payload) := by
  unfold confidenceOf
  split
  · next value hget =>
    rw [hget]
    exact conversion_floatOf value
  · next hget =>
    rw [hget]
    exact conversion_default

/-- A decision is constructed for its route exactly when its confidence fits, and refused otherwise. -/
theorem routingDecision_cases (route : QueryRoute) (reasoning : PyStr) (confidence : Option ℚ) (ambiguous scopeAmbiguous : Bool)
    (question : Option PyStr) :
    (UnitValue confidence ∧
      ∃ decision, routingDecision route reasoning confidence ambiguous scopeAmbiguous question = .ok decision ∧
        decision.route = route) ∨
    (¬ UnitValue confidence ∧
      routingDecision route reasoning confidence ambiguous scopeAmbiguous question = .error .validationError) := by
  unfold routingDecision
  cases confidence with
  | none =>
    refine Or.inr ⟨?_, rfl⟩
    rintro ⟨q, hq, -⟩
    cases hq
  | some q =>
    dsimp only
    split
    · next hunit => exact Or.inl ⟨⟨_, rfl, hunit⟩, _, rfl, rfl⟩
    · next hout =>
      refine Or.inr ⟨?_, rfl⟩
      rintro ⟨other, hother, hunit⟩
      cases hother
      exact hout hunit

/-- The fallback is for the route of an object whose confidence does not fit exactly when that is document search. -/
theorem fallback_routed_iff (hroute : TextOrAbsent (get payload "route")) (hconvertible : Convertible (get payload "confidence"))
    (hunfit : ¬ ConfidenceFits python (get payload "confidence")) :
    (∃ decision, (Except.ok fallback : Except PyError (RoutingDecision PyStr)) = .ok decision ∧
      decision.route = (namedRoute python payload).getD .rag) ↔ ObjectRoutable python payload := by
  constructor
  · rintro ⟨decision, hfallback, hsame⟩
    cases hfallback
    exact ⟨hroute, hconvertible, fun hother => absurd hsame.symm hother⟩
  · intro h
    refine ⟨fallback, rfl, ?_⟩
    by_contra hother
    exact hunfit (h.fits fun hrag => hother hrag.symm)

/-- An object gives a decision for its route exactly when it is routable. -/
theorem object_routed_iff (payload : List (PyStr × Value)) :
    (∃ decision, orFallback (decisionOf python (.dict payload)) = .ok decision ∧
      decision.route = (namedRoute python payload).getD .rag) ↔ ObjectRoutable python payload := by
  by_cases hroute : TextOrAbsent (get payload "route")
  · have hconversion : Conversion python (get payload "confidence") (confidenceOf python payload) :=
      conversion_confidenceOf payload
    rcases hconversion.ends with ⟨hconvertible, ⟨confidence, hconfidence⟩ | hrefused⟩ | ⟨hnot, htype | hoverflow⟩
    · have hfits : ConfidenceFits python (get payload "confidence") ↔ UnitValue confidence := by
        rw [hconversion.fits, hconfidence]
        simp
      have hdecision : decisionOf python (.dict payload) =
          routingDecision ((namedRoute python payload).getD .rag) (reasoningOf python payload) confidence
            (ambiguousOf payload) (scopeAmbiguousOf payload) (clarificationOf python payload) := by
        simp only [decisionOf, routeOf_ok hroute, hconfidence, bind, Except.bind]
      rw [hdecision]
      rcases routingDecision_cases ((namedRoute python payload).getD .rag) (reasoningOf python payload) confidence
        (ambiguousOf payload) (scopeAmbiguousOf payload) (clarificationOf python payload) with
        ⟨hunit, decision, hmade, hsame⟩ | ⟨hunfit, hmade⟩
      · rw [hmade]
        exact iff_of_true ⟨decision, rfl, hsame⟩ ⟨hroute, hconvertible, fun _ => hfits.mpr hunit⟩
      · rw [hmade]
        exact fallback_routed_iff hroute hconvertible fun h => hunfit (hfits.mp h)
    · have hunfit : ¬ ConfidenceFits python (get payload "confidence") := by
        rw [hconversion.fits, hrefused]
        simp
      have hdecision : decisionOf python (.dict payload) = .error .valueError := by
        simp only [decisionOf, routeOf_ok hroute, hrefused, bind, Except.bind]
      rw [hdecision]
      exact fallback_routed_iff hroute hconvertible hunfit
    · have hdecision : decisionOf python (.dict payload) = .error .typeError := by
        simp only [decisionOf, routeOf_ok hroute, htype, bind, Except.bind]
      rw [hdecision]
      exact iff_of_false (by simp [orFallback]) fun h => hnot h.confidence
    · have hdecision : decisionOf python (.dict payload) = .error .overflowError := by
        simp only [decisionOf, routeOf_ok hroute, hoverflow, bind, Except.bind]
      rw [hdecision]
      exact iff_of_false (by simp [orFallback]) fun h => hnot h.confidence
  · have hdecision : decisionOf python (.dict payload) = .error .attributeError := by
      simp only [decisionOf, routeOf_error hroute, bind, Except.bind]
    rw [hdecision]
    exact iff_of_false (by simp [orFallback]) fun h => hroute h.route

/-- A reply gives a decision for its route exactly when it is routable. -/
theorem reply_routed_iff (raw : List Char) :
    (∃ decision, parseRoutingResponse python raw = .ok decision ∧ Routed python raw decision) ↔ Routable python raw := by
  unfold parseRoutingResponse Routed saidRoute Routable
  cases python.loads (TolerantJson.unwrapped raw) with
  | refused => exact iff_of_true ⟨fallback, rfl, rfl⟩ trivial
  | exhausted => exact iff_of_false (by simp) id
  | value payload =>
    cases payload with
    | dict payload => exact object_routed_iff payload
    | _ => exact iff_of_false (by simp [decisionOf, orFallback]) id

/-- A follow-up is asked as it was rewritten exactly when the rewritten question and the
scope fit a request, and a classifier's reply gives a decision for its route exactly
when it is routable. -/
theorem model_replies_used_iff (python : Python) (rewriter : FollowUpRewriter) (settings : AskSettings)
    (request : ValidRequest) (conversation : ConversationRecord) (raw : List Char) :
    (AsksRewritten python rewriter settings request.toUnifiedQueryRequest conversation ↔
      (∀ candidate, Rewritten python rewriter settings request.toUnifiedQueryRequest conversation candidate → Fits candidate) ∧
        ScopeFits request.toUnifiedQueryRequest conversation) ∧
    ((∃ decision, parseRoutingResponse python raw = .ok decision ∧ Routed python raw decision) ↔ Routable python raw) :=
  ⟨asksRewritten_iff request, reply_routed_iff raw⟩

/-- A reply without a route. -/
def nullRoute : List Char := "\x7b\"route\": null\x7d".toList

/-- It raises. -/
theorem null_route_raises : parseRoutingResponse plainPython nullRoute = .error .attributeError ∧
    ¬ ∃ decision, parseRoutingResponse plainPython nullRoute = .ok decision ∧ Routed plainPython nullRoute decision := by
  have hnumbers : ∀ n ∈ (JsonText.Json.obj [("route", .null)]).numbers, PythonJson.readBack n = some n :=
    fun n hn => absurd hn List.not_mem_nil
  have hs : TolerantJson.Serialises nullRoute [("route", .null)] :=
    TolerantJson.serialises_written JsonText.pythonLayout hnumbers
  have hsame : TolerantJson.unwrapped nullRoute = nullRoute := by decide +kernel
  have hraises : parseRoutingResponse plainPython nullRoute = .error .attributeError := by
    rw [parseRoutingResponse, hsame, loads_plain hs]
    rfl
  exact ⟨hraises, by simp [hraises]⟩

end RagSystem.RoutingReplies
