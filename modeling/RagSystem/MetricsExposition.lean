import Mathlib.Data.List.AList
import Mathlib.Data.List.Lex
import Mathlib.Data.Prod.Lex
import RagSystem.ExpositionText
import RagSystem.ModelReplies
import RagSystem.PythonNumbers

/-!
# The metrics registry and its text

Counters are added up and observations kept, the most recent of each series, with
their running sum. The text has a line for every counter and seven for every
series; numbers have six significant digits in it. So it is read back exactly
where names are names, no two lines are of one thing, and no number has more.
Numbers are rational here, as if the arithmetic were exact.
-/

namespace RagSystem.MetricsExposition

open Doubles ExpositionText SignificantDigits
open ModelReplies (py)

set_option autoImplicit false

section Source

/-- The name and the labels of a counter or a series. -/
abbrev Key := Identity

/-- The order of pairs of strings. -/
def pairLe (a b : Text × Text) : Bool := decide (toLex a ≤ toLex b)

/-- The order of keys. -/
def keyLe (a b : Key) : Bool := decide (toLex (a.1, a.2.map toLex) ≤ toLex (b.1, b.2.map toLex))

/-- `_normalise_labels`, of labels by their `str`. -/
def normaliseLabels (labels : Labels) : Labels := labels.mergeSort pairLe

/-- `str.replace`, of one character. -/
def replaceCode (code : ℕ) (other : Text) (text : Text) : Text := text.flatMap fun c => if c = code then other else [c]

/-- `_escape_label`. -/
def escapeLabel (value : Text) : Text := replaceCode 10 [92, 110] (replaceCode 34 [92, 34] (replaceCode 92 [92, 92] value))

/-- `_format_labels`. -/
def formatLabels (labels : Labels) : Text :=
  if labels = [] then []
  else 123 :: ([44].intercalate (labels.map fun label => label.1 ++ 61 :: 34 :: (escapeLabel label.2 ++ [34])) ++ [125])

/-- `_format_number`. -/
def formatNumber (value : ℚ) : Text := (formatGeneral 6 value).map Char.toNat

/-- The quantiles that are shown. -/
inductive Quantile where
  /-- `0.5`. -/
  | half
  /-- `0.95`. -/
  | most
  /-- `0.99`. -/
  | nearly
  deriving DecidableEq

/-- The `str` of a quantile. -/
def Quantile.text : Quantile → Text
  | .half => py "0.5"
  | .most => py "0.95"
  | .nearly => py "0.99"

/-- A quantile in hundredths. -/
def Quantile.hundredths : Quantile → ℕ
  | .half => 50
  | .most => 95
  | .nearly => 99

/-- The quantiles, as they are shown. -/
def quantiles : List Quantile := [.half, .most, .nearly]

/-- `_quantile`. -/
def quantileOf (sortedValues : List ℚ) (quantile : Quantile) : ℚ :=
  if sortedValues.length = 1 then sortedValues.headD 0
  else sortedValues.getD (roundHalfEven ((sortedValues.length - 1) * quantile.hundredths) 100) 0

/-- `MetricsRegistry`; the order of its dicts does not show. -/
structure Registry where
  /-- `_counters`. -/
  counters : AList fun _ : Key => ℚ
  /-- `_samples`. -/
  samples : AList fun _ : Key => List ℚ
  /-- `_sample_sums`. -/
  sampleSums : AList fun _ : Key => ℚ

/-- A new registry. -/
def Registry.empty : Registry := ⟨∅, ∅, ∅⟩

/-- `increment`. -/
def increment (registry : Registry) (name : Text) (labels : Labels) (amount : ℚ) : Registry :=
  let key : Key := (name, normaliseLabels labels)
  { registry with counters := registry.counters.insert key ((registry.counters.lookup key).getD 0 + amount) }

/-- The deque of a key and its sum are made where there are none. -/
def begun (registry : Registry) (key : Key) : Registry :=
  if key ∈ registry.samples then registry
  else { registry with samples := registry.samples.insert key [], sampleSums := registry.sampleSums.insert key 0 }

/-- `deque.append`, of a deque of a greatest length. -/
def dequeAppend (maxlen : ℕ) (values : List ℚ) (value : ℚ) : List ℚ :=
  (values ++ [value]).drop ((values ++ [value]).length - maxlen)

/-- The sum without the observation that is about to be dropped; none where there is none to drop. -/
def keptSum (maxSamples : ℕ) (values : List ℚ) (sum : ℚ) : Option ℚ :=
  if values.length = maxSamples then values.head?.map fun first => sum - first else some sum

/-- `observe`; none where it raises. -/
def observe (maxSamples : ℕ) (registry : Registry) (name : Text) (value : ℚ) (labels : Labels) : Option Registry := do
  let key : Key := (name, normaliseLabels labels)
  let registry := begun registry key
  let values ← registry.samples.lookup key
  let sum ← registry.sampleSums.lookup key
  let kept ← keptSum maxSamples values sum
  return { registry with samples := registry.samples.insert key (dequeAppend maxSamples values value),
                         sampleSums := registry.sampleSums.insert key (kept + value) }

/-- The items of a dict, by their keys. -/
def sortedItems {α : Type} (items : AList fun _ : Key => α) : List (Key × α) :=
  (items.entries.map fun entry => (entry.1, entry.2)).mergeSort fun a b => keyLe a.1 b.1

/-- The comment with the type of a metric. -/
def typeLine (name : Text) (kind : String) : Text := py "# TYPE " ++ name ++ py kind

/-- The lines of the build information. -/
def buildLines : List Text :=
  [py "# HELP rag_build_info Static application build metadata.", py "# TYPE rag_build_info gauge",
    py "rag_build_info\x7bservice=\"production-rag\"\x7d 1"]

/-- The loop over the counters, where the types of some names are written. -/
def renderCounters : List Text → List (Key × ℚ) → List Text
  | _, [] => []
  | rendered, ((name, labels), value) :: items =>
    (if name ∈ rendered then [] else [typeLine name " counter"]) ++
      (name ++ (formatLabels labels ++ 32 :: formatNumber value)) ::
        renderCounters (if name ∈ rendered then rendered else name :: rendered) items

/-- The lines of a series. -/
def renderSeries (name : Text) (labels : Labels) (values : List ℚ) (sum : ℚ) : List Text :=
  let sortedValues := values.mergeSort fun a b => decide (a ≤ b)
  (quantiles.map fun quantile => name ++ (formatLabels (labels ++ [(py "quantile", quantile.text)]) ++
      32 :: formatNumber (quantileOf sortedValues quantile))) ++
    [name ++ py "_count" ++ (formatLabels labels ++ 32 :: (PythonNumbers.intText sortedValues.length).map Char.toNat),
      name ++ py "_sum" ++ (formatLabels labels ++ 32 :: formatNumber sum),
      name ++ py "_min" ++ (formatLabels labels ++ 32 :: formatNumber (sortedValues.headD 0)),
      name ++ py "_max" ++ (formatLabels labels ++ 32 :: formatNumber (sortedValues.getLastD 0))]

/-- The loop over the series, where the types of some names are written. -/
def renderSamples (sums : AList fun _ : Key => ℚ) : List Text → List (Key × List ℚ) → List Text
  | _, [] => []
  | rendered, ((name, labels), values) :: items =>
    if values = [] then renderSamples sums rendered items
    else
      (if name ∈ rendered then [] else [typeLine name " summary"]) ++
        renderSeries name labels values ((sums.lookup (name, labels)).getD 0) ++
          renderSamples sums (if name ∈ rendered then rendered else name :: rendered) items

/-- `render_prometheus`. -/
def renderPrometheus (registry : Registry) : Text :=
  [10].intercalate (buildLines ++ renderCounters [] (sortedItems registry.counters) ++
    renderSamples registry.sampleSums [] (sortedItems registry.samples)) ++ [10]

end Source

section Calls

/-- A call on the registry. -/
inductive Call where
  /-- `increment`. -/
  | increment (name : Text) (labels : Labels) (amount : ℚ)
  /-- `observe`. -/
  | observe (name : Text) (value : ℚ) (labels : Labels)

/-- Its name. -/
def Call.name : Call → Text
  | .increment name _ _ => name
  | .observe name _ _ => name

/-- Its labels. -/
def Call.labels : Call → Labels
  | .increment _ labels _ => labels
  | .observe _ _ labels => labels

/-- What a call makes of the registry; none where it raises. -/
def apply (maxSamples : ℕ) (registry : Registry) : Call → Option Registry
  | .increment name labels amount => some (increment registry name labels amount)
  | .observe name value labels => observe maxSamples registry name value labels

/-- Calls one after the other on a new registry; none where one raises. -/
def run (maxSamples : ℕ) (calls : List Call) : Option Registry := calls.foldlM (apply maxSamples) Registry.empty

/-- The amounts that were added to a counter. -/
def amounts (calls : List Call) (key : Key) : List ℚ :=
  calls.filterMap fun
    | .increment name labels amount => if (name, normaliseLabels labels) = key then some amount else none
    | .observe _ _ _ => none

/-- The observations of a series. -/
def observations (calls : List Call) (key : Key) : List ℚ :=
  calls.filterMap fun
    | .increment _ _ _ => none
    | .observe name value labels => if (name, normaliseLabels labels) = key then some value else none

/-- The most recent of them. -/
def recent (maxSamples : ℕ) (values : List ℚ) : List ℚ := values.drop (values.length - maxSamples)

end Calls

section Windows

variable {maxSamples : ℕ}

theorem length_recent (maxSamples : ℕ) (values : List ℚ) : (recent maxSamples values).length = min values.length maxSamples := by
  rw [recent, List.length_drop]
  omega

/-- One more than the most recent, where there are as many as may be kept: the first of them is dropped. -/
theorem recent_concat_full {values : List ℚ} (hmax : maxSamples ≠ 0) (hfull : (recent maxSamples values).length = maxSamples)
    (value : ℚ) : ∃ first rest, recent maxSamples values = first :: rest ∧
      recent maxSamples (values ++ [value]) = rest ++ [value] := by
  rw [length_recent] at hfull
  have hle : values.length - maxSamples < values.length := by omega
  refine ⟨values[values.length - maxSamples], values.drop (values.length - maxSamples + 1), ?_, ?_⟩
  · rw [recent, List.drop_eq_getElem_cons hle]
  · have hmore : (values ++ [value]).length - maxSamples = values.length - maxSamples + 1 := by
      rw [List.length_append, List.length_singleton]
      omega
    rw [recent, hmore, List.drop_append_of_le_length (by omega)]

/-- Where there are fewer, it is added. -/
theorem recent_concat_room {values : List ℚ} (hroom : (recent maxSamples values).length ≠ maxSamples) (value : ℚ) :
    recent maxSamples (values ++ [value]) = recent maxSamples values ++ [value] := by
  rw [length_recent] at hroom
  have hnone : values.length - maxSamples = 0 := by omega
  have hnone' : (values ++ [value]).length - maxSamples = 0 := by
    rw [List.length_append, List.length_singleton]
    omega
  rw [recent, recent, hnone, hnone', List.drop_zero, List.drop_zero]

/-- The deque keeps the most recent. -/
theorem dequeAppend_recent (values : List ℚ) (value : ℚ) (hmax : maxSamples ≠ 0) :
    dequeAppend maxSamples (recent maxSamples values) value = recent maxSamples (values ++ [value]) := by
  rw [dequeAppend, List.length_append, List.length_singleton]
  by_cases hfull : (recent maxSamples values).length = maxSamples
  · obtain ⟨first, rest, hrecent, hnext⟩ := recent_concat_full hmax hfull value
    have hone : (recent maxSamples values).length + 1 - maxSamples = 1 := by omega
    rw [hone, hnext, hrecent]
    rfl
  · have hless := length_recent maxSamples values
    have hnone : (recent maxSamples values).length + 1 - maxSamples = 0 := by omega
    rw [hnone, List.drop_zero, recent_concat_room hfull]

theorem recent_ne_nil {values : List ℚ} (hmax : maxSamples ≠ 0) (hvalues : values ≠ []) : recent maxSamples values ≠ [] := by
  intro hnil
  have hlength := length_recent maxSamples values
  have hpos := List.length_pos_iff.mpr hvalues
  rw [hnil, List.length_nil] at hlength
  omega

end Windows

section Runs

variable {maxSamples : ℕ} {registry : Registry} {calls : List Call} {key : Key}

/-- What a registry holds after some calls. -/
structure Tracks (maxSamples : ℕ) (registry : Registry) (calls : List Call) : Prop where
  /-- The counters that were incremented, with their sums. -/
  counters : ∀ key, registry.counters.lookup key =
    if amounts calls key = [] then none else some (amounts calls key).sum
  /-- The series that were observed, with the most recent observations. -/
  samples : ∀ key, registry.samples.lookup key =
    if observations calls key = [] then none else some (recent maxSamples (observations calls key))
  /-- And the sums of these. -/
  sums : ∀ key, registry.sampleSums.lookup key =
    if observations calls key = [] then none else some (recent maxSamples (observations calls key)).sum

theorem tracks_empty (maxSamples : ℕ) : Tracks maxSamples Registry.empty [] :=
  ⟨fun _ => rfl, fun _ => rfl, fun _ => rfl⟩

theorem amounts_concat (calls : List Call) (call : Call) (key : Key) :
    amounts (calls ++ [call]) key = amounts calls key ++ amounts [call] key := List.filterMap_append

theorem observations_concat (calls : List Call) (call : Call) (key : Key) :
    observations (calls ++ [call]) key = observations calls key ++ observations [call] key := List.filterMap_append

/-- An increment is added to its counter. -/
theorem tracks_increment (h : Tracks maxSamples registry calls) (name : Text) (labels : Labels) (amount : ℚ) :
    Tracks maxSamples (increment registry name labels amount) (calls ++ [.increment name labels amount]) := by
  have hobservations : ∀ key, observations (calls ++ [.increment name labels amount]) key = observations calls key := by
    intro key
    rw [observations_concat]
    exact List.append_nil _
  refine ⟨?_, ?_, ?_⟩
  · intro key
    rw [amounts_concat]
    by_cases hkey : (name, normaliseLabels labels) = key
    · subst hkey
      have hone : amounts [.increment name labels amount] (name, normaliseLabels labels) = [amount] := by simp [amounts]
      have hsum : (registry.counters.lookup (name, normaliseLabels labels)).getD 0 =
          (amounts calls (name, normaliseLabels labels)).sum := by
        rw [h.counters]
        split
        · next hnone => simp [hnone]
        · rfl
      rw [hone, increment]
      dsimp only
      rw [AList.lookup_insert, hsum, if_neg (by simp), List.sum_append, List.sum_singleton]
    · have hnone : amounts [.increment name labels amount] key = [] := by simp [amounts, hkey]
      rw [hnone, List.append_nil, increment, ← h.counters key]
      exact AList.lookup_insert_ne (Ne.symm hkey)
  · intro key
    rw [hobservations]
    exact h.samples key
  · intro key
    rw [hobservations]
    exact h.sums key

/-- After the deque of a key is made if need be, it and its sum are there. -/
theorem tracks_begun (h : Tracks maxSamples registry calls) (key : Key) :
    (begun registry key).samples.lookup key = some (recent maxSamples (observations calls key)) ∧
      (begun registry key).sampleSums.lookup key = some (recent maxSamples (observations calls key)).sum ∧
        (begun registry key).counters = registry.counters ∧
          ∀ other, other ≠ key → (begun registry key).samples.lookup other = registry.samples.lookup other ∧
            (begun registry key).sampleSums.lookup other = registry.sampleSums.lookup other := by
  have hsamples := h.samples key
  have hsums := h.sums key
  rw [begun]
  by_cases hnone : observations calls key = []
  · rw [if_pos hnone] at hsamples
    rw [if_neg (AList.lookup_eq_none.mp hsamples), hnone]
    have hvalues : recent maxSamples [] = [] := List.drop_nil
    rw [hvalues]
    refine ⟨AList.lookup_insert _, AList.lookup_insert _, rfl, ?_⟩
    exact fun other hother => ⟨AList.lookup_insert_ne hother, AList.lookup_insert_ne hother⟩
  · rw [if_neg hnone] at hsamples hsums
    have hmem : key ∈ registry.samples := by
      rw [← AList.lookup_isSome, hsamples]
      rfl
    rw [if_pos hmem]
    exact ⟨hsamples, hsums, rfl, fun _ _ => ⟨rfl, rfl⟩⟩

/-- An observation is kept, the oldest one dropped, and the sum follows. -/
theorem tracks_observe (h : Tracks maxSamples registry calls) (hmax : maxSamples ≠ 0) (name : Text) (value : ℚ)
    (labels : Labels) : ∃ registry', observe maxSamples registry name value labels = some registry' ∧
      Tracks maxSamples registry' (calls ++ [.observe name value labels]) := by
  obtain ⟨key, hkey⟩ : ∃ key : Key, key = (name, normaliseLabels labels) := ⟨_, rfl⟩
  obtain ⟨hvalues, hsum, hcounters, hothers⟩ := tracks_begun h key
  have hone : observations [.observe name value labels] key = [value] := by simp [observations, hkey]
  -- the sum without the observation that is dropped, and with the new one
  have hkept : ∃ kept, keptSum maxSamples (recent maxSamples (observations calls key))
      (recent maxSamples (observations calls key)).sum = some kept ∧ kept + value = (recent maxSamples (observations calls key ++ [value])).sum := by
    by_cases hfull : (recent maxSamples (observations calls key)).length = maxSamples
    · obtain ⟨first, rest, hrecent, hnext⟩ := recent_concat_full hmax hfull value
      refine ⟨rest.sum, ?_, ?_⟩
      · rw [keptSum, if_pos hfull, hrecent]
        simp
      · rw [hnext, List.sum_append, List.sum_singleton]
    · refine ⟨(recent maxSamples (observations calls key)).sum, if_neg hfull, ?_⟩
      rw [recent_concat_room hfull, List.sum_append, List.sum_singleton]
  obtain ⟨kept, hkept, hnext⟩ := hkept
  refine ⟨{ begun registry key with
    samples := (begun registry key).samples.insert key (dequeAppend maxSamples (recent maxSamples (observations calls key)) value),
    sampleSums := (begun registry key).sampleSums.insert key (kept + value) }, ?_, ?_⟩
  · subst hkey
    simp only [observe, Option.bind_eq_bind, Option.pure_def]
    rw [hvalues, Option.bind_some, hsum, Option.bind_some, hkept, Option.bind_some]
  · refine ⟨?_, ?_, ?_⟩
    · intro other
      have hnone : amounts [.observe name value labels] other = [] := rfl
      rw [amounts_concat, hnone, List.append_nil]
      dsimp only
      rw [hcounters]
      exact h.counters other
    · intro other
      rw [observations_concat]
      by_cases hother : other = key
      · subst hother
        rw [hone, if_neg (by simp), ← dequeAppend_recent _ _ hmax]
        exact AList.lookup_insert _
      · have hnone : observations [.observe name value labels] other = [] := by
          simp [observations, ← hkey, Ne.symm hother]
        rw [hnone, List.append_nil, ← h.samples other, ← (hothers other hother).1]
        exact AList.lookup_insert_ne hother
    · intro other
      rw [observations_concat]
      by_cases hother : other = key
      · subst hother
        rw [hone, if_neg (by simp), ← hnext]
        exact AList.lookup_insert _
      · have hnone : observations [.observe name value labels] other = [] := by
          simp [observations, ← hkey, Ne.symm hother]
        rw [hnone, List.append_nil, ← h.sums other, ← (hothers other hother).2]
        exact AList.lookup_insert_ne hother

/-- There is room: observations can be kept, or there are none. -/
def Room (maxSamples : ℕ) (calls : List Call) : Prop :=
  maxSamples ≠ 0 ∨ ∀ name value labels, Call.observe name value labels ∉ calls

/-- With room every call returns, and the registry holds what it should. -/
theorem run_tracks (hroom : Room maxSamples calls) : ∃ registry, run maxSamples calls = some registry ∧
    Tracks maxSamples registry calls := by
  induction calls using List.reverseRecOn with
  | nil => exact ⟨Registry.empty, rfl, tracks_empty maxSamples⟩
  | append_singleton calls call ih =>
    have hbefore : Room maxSamples calls := by
      rcases hroom with hmax | hnone
      · exact Or.inl hmax
      · exact Or.inr fun name value labels hin => hnone name value labels (List.mem_append_left _ hin)
    obtain ⟨registry, hrun, htracks⟩ := ih hbefore
    have hlast : run maxSamples (calls ++ [call]) = apply maxSamples registry call := by
      rw [run, List.foldlM_append, ← run, hrun]
      simp
    rw [hlast]
    cases call with
    | increment name labels amount => exact ⟨_, rfl, tracks_increment htracks name labels amount⟩
    | observe name value labels =>
      rcases hroom with hmax | hnone
      · exact tracks_observe htracks hmax name value labels
      · exact absurd (List.mem_append_right calls (List.mem_singleton.mpr rfl)) (hnone name value labels)

/-- Where no observation can be kept, the oldest is asked for in vain. -/
theorem observe_none (h : Tracks 0 registry calls) (name : Text) (value : ℚ) (labels : Labels) :
    observe 0 registry name value labels = none := by
  obtain ⟨hvalues, hsum, -, -⟩ := tracks_begun h (name, normaliseLabels labels)
  have hnil : recent 0 (observations calls (name, normaliseLabels labels)) = [] := by rw [recent, Nat.sub_zero, List.drop_length]
  have hkept : keptSum 0 [] (0 : ℚ) = none := rfl
  rw [hnil] at hvalues hsum
  simp only [observe, Option.bind_eq_bind, Option.pure_def]
  rw [hvalues, Option.bind_some, hsum, Option.bind_some, List.sum_nil, hkept, Option.bind_none]

/-- So there is room where all calls return. -/
theorem room_of_run (hrun : run maxSamples calls = some registry) : Room maxSamples calls := by
  by_cases hmax : maxSamples = 0
  · subst hmax
    refine Or.inr ?_
    induction calls using List.reverseRecOn generalizing registry with
    | nil => exact fun _ _ _ hin => absurd hin List.not_mem_nil
    | append_singleton calls call ih =>
      rw [run, List.foldlM_append, ← run, Option.bind_eq_bind, Option.bind_eq_some_iff] at hrun
      obtain ⟨before, hbefore, hlast⟩ := hrun
      have hnone := ih hbefore
      intro name value labels hin
      rcases List.mem_append.mp hin with hearlier | hnow
      · exact hnone name value labels hearlier
      · obtain rfl := List.mem_singleton.mp hnow
        obtain ⟨tracked, htracked, htracks⟩ := run_tracks (Or.inr hnone : Room 0 calls)
        obtain rfl : before = tracked := Option.some.inj (hbefore.symm.trans htracked)
        rw [List.foldlM_cons, apply, observe_none htracks] at hlast
        cases hlast
  · exact Or.inl hmax

end Runs

section Lines

/-- The numbers of a series, besides its quantiles. -/
inductive Part where
  /-- How many observations. -/
  | count
  /-- Their sum. -/
  | sum
  /-- The least. -/
  | min
  /-- The greatest. -/
  | max
  deriving DecidableEq

/-- What is added to the name. -/
def Part.suffix : Part → Text
  | .count => py "_count"
  | .sum => py "_sum"
  | .min => py "_min"
  | .max => py "_max"

/-- What a line of the text is about. -/
inductive Line where
  /-- The build information. -/
  | build
  /-- A counter. -/
  | counter (key : Key)
  /-- A quantile of a series. -/
  | quantile (key : Key) (quantile : Quantile)
  /-- Another number of a series. -/
  | part (key : Key) (part : Part)
  deriving DecidableEq

/-- The name and the labels on a line. -/
def Line.identity : Line → Identity
  | .build => (py "rag_build_info", [(py "service", py "production-rag")])
  | .counter key => key
  | .quantile key shown => (key.1, key.2 ++ [(py "quantile", shown.text)])
  | .part key piece => (key.1 ++ piece.suffix, key.2)

/-- The lines of a series, with the numbers on them. -/
def seriesRows (key : Key) (values : List ℚ) (sum : ℚ) : List (Line × ℚ) :=
  let sortedValues := values.mergeSort fun a b => decide (a ≤ b)
  quantiles.map (fun quantile => (.quantile key quantile, rounded 6 (quantileOf sortedValues quantile))) ++
    [(.part key .count, (sortedValues.length : ℚ)), (.part key .sum, rounded 6 sum),
      (.part key .min, rounded 6 (sortedValues.headD 0)), (.part key .max, rounded 6 (sortedValues.getLastD 0))]

/-- The lines of the series that have observations. -/
def sampleRows (sums : AList fun _ : Key => ℚ) (items : List (Key × List ℚ)) : List (Line × ℚ) :=
  items.flatMap fun item => if item.2 = [] then [] else seriesRows item.1 item.2 ((sums.lookup item.1).getD 0)

/-- The lines of the counters. -/
def counterRows (items : List (Key × ℚ)) : List (Line × ℚ) := items.map fun item => (.counter item.1, rounded 6 item.2)

/-- The lines of the text, with the numbers on them. -/
def rows (registry : Registry) : List (Line × ℚ) :=
  (.build, 1) :: (counterRows (sortedItems registry.counters) ++ sampleRows registry.sampleSums (sortedItems registry.samples))

/-- A line as it is read. -/
def shown (row : Line × ℚ) : Identity × ℚ := (row.1.identity, row.2)

end Lines

section Numbers

theorem readNumber_map (text : List Char) : readNumber (text.map Char.toNat) = (readNumeral text).map signed := by
  have hback : (text.map Char.toNat).map Char.ofNat = text := by
    rw [List.map_map]
    exact (List.map_congr_left fun c _ => Char.ofNat_toNat c).trans (List.map_id text)
  rw [readNumber, hback]

/-- A numeral has no line break. -/
theorem not_mem_numeral {negative : Bool} {text : List Char} {value : ℚ} (hs : Spells negative text value) :
    10 ∉ text.map Char.toNat := by
  intro hin
  obtain ⟨c, hc, hcode⟩ := List.mem_map.mp hin
  have hplain := PythonNumbers.plain_numeral ((PythonNumbers.numeralText_of_spells hs).2 c hc)
  omega

theorem readNumber_formatNumber (value : ℚ) : readNumber (formatNumber value) = some (rounded 6 value) := by
  obtain ⟨decimal, hread, hsigned⟩ := readNumeral_formatGeneral 6 value
  rw [formatNumber, readNumber_map, hread, Option.map_some, hsigned]

theorem not_mem_formatNumber (value : ℚ) : 10 ∉ formatNumber value := by
  obtain ⟨negative, magnitude, hspells, -⟩ := spells_formatGeneral 6 value
  exact not_mem_numeral hspells

theorem readNumber_count (n : ℕ) : readNumber ((PythonNumbers.intText n).map Char.toNat) = some (n : ℚ) := by
  obtain ⟨decimal, hread, hsigned⟩ := signed_of_spells (PythonNumbers.spells_intText n)
  rw [readNumber_map, hread, Option.map_some, hsigned]
  simp

theorem not_mem_count (n : ℕ) : 10 ∉ (PythonNumbers.intText n).map Char.toNat :=
  not_mem_numeral (PythonNumbers.spells_intText n)

end Numbers

section Rendering

variable {key : Key} {name : Text} {labels : Labels}

/-- The three replacements escape each character once. -/
theorem escapeLabel_eq (value : Text) : escapeLabel value = escaped value := by
  induction value with
  | nil => rfl
  | cons code value ih =>
    have hcons : escapeLabel (code :: value) = escapeLabel [code] ++ escapeLabel value := by
      simp only [escapeLabel, replaceCode, List.flatMap_cons, List.flatMap_append, List.flatMap_nil, List.append_nil]
    have hone : escapeLabel [code] = escapeCode code := by
      simp only [escapeLabel, replaceCode, escapeCode, List.flatMap_cons, List.flatMap_nil, List.append_nil]
      by_cases hback : code = 92
      · simp [hback]
      · by_cases hquote : code = 34
        · simp [hquote]
        · by_cases hbreak : code = 10
          · simp [hbreak]
          · simp [hback, hquote, hbreak]
    rw [hcons, hone, ih]
    rfl

theorem formatLabels_eq (labels : Labels) : formatLabels labels = labelsText labels := by
  have hlabel : (fun label : Text × Text => label.1 ++ 61 :: 34 :: (escapeLabel label.2 ++ [34])) = labelText := by
    funext label
    rw [escapeLabel_eq]
    rfl
  rw [formatLabels, labelsText, hlabel]

/-- The labels of a key are those of the call. -/
theorem mem_normaliseLabels {label : Text × Text} : label ∈ normaliseLabels labels ↔ label ∈ labels := List.mem_mergeSort

/-- And two sets of labels are one exactly where they have the same labels. -/
theorem normaliseLabels_eq_iff {others : Labels} : normaliseLabels labels = normaliseLabels others ↔ labels.Perm others := by
  have hperm : ∀ labels, (normaliseLabels labels).Perm labels := fun labels => List.mergeSort_perm labels pairLe
  have hsorted : ∀ labels, (normaliseLabels labels).Pairwise fun a b => toLex a ≤ toLex b := by
    intro labels
    have htrans : ∀ a b c, pairLe a b = true → pairLe b c = true → pairLe a c = true := by
      intro a b c hab hbc
      exact decide_eq_true ((of_decide_eq_true hab).trans (of_decide_eq_true hbc))
    have htotal : ∀ a b, (pairLe a b || pairLe b a) = true := by
      intro a b
      simp only [pairLe, Bool.or_eq_true, decide_eq_true_eq]
      exact le_total _ _
    exact (List.pairwise_mergeSort htrans htotal labels).imp of_decide_eq_true
  constructor
  · intro h
    exact (hperm labels).symm.trans (h ▸ hperm others)
  · intro h
    have hboth := (hperm labels).trans (h.trans (hperm others).symm)
    exact hboth.eq_of_pairwise (fun a b _ _ hab hba => toLex.injective (le_antisymm hab hba)) (hsorted labels) (hsorted others)

/-- The lines of a readable key can be read. -/
theorem readable_counter (h : Readable key) : Readable (Line.counter key).identity := h

theorem readable_quantile_iff (quantile : Quantile) : Readable (Line.quantile key quantile).identity ↔ Readable key := by
  have hword : isWord isLabelCode (py "quantile") = true := by decide
  constructor
  · intro h
    exact ⟨h.1, fun label hlabel => h.2 label (List.mem_append_left _ hlabel)⟩
  · intro h
    refine ⟨h.1, fun label hlabel => ?_⟩
    rcases List.mem_append.mp hlabel with hin | hlast
    · exact h.2 label hin
    · rw [List.mem_singleton.mp hlast]
      exact hword

theorem readable_part (h : Readable key) (part : Part) : Readable (Line.part key part).identity := by
  refine ⟨?_, h.2⟩
  obtain ⟨hne, hfirst, hall⟩ := isWord_iff.mp h.1
  have hsuffix : ∀ code ∈ part.suffix, isNameCode code = true := by cases part <;> decide
  refine isWord_iff.mpr ⟨by simp [Line.identity, hne], ?_, ?_⟩
  · intro code hcode
    rw [Line.identity, List.head?_append_of_ne_nil _ hne] at hcode
    exact hfirst code hcode
  · intro code hcode
    rcases List.mem_append.mp hcode with hin | hlast
    · exact hall code hin
    · exact hsuffix code hlast

/-- A comment with a type is a comment. -/
theorem typeLine_comment (h : Readable (name, labels)) {kind : String} (hkind : 10 ∉ py kind) :
    (typeLine name kind).head? = some 35 ∧ 10 ∉ typeLine name kind := by
  have hname := not_mem_word h.1 (by decide)
  have hmark : 10 ∉ py "# TYPE " := by decide
  exact ⟨rfl, by simp [typeLine, hname, hmark, hkind]⟩

/-- The type of a metric is written once, before its first line. -/
theorem Written.typed {rendered : List Text} {lines : List Text} {samples : List (Identity × ℚ)} (h : Readable (name, labels))
    {kind : String} (hkind : 10 ∉ py kind) (hlines : Written lines samples) :
    Written ((if name ∈ rendered then [] else [typeLine name kind]) ++ lines) samples := by
  obtain ⟨hmark, hbreak⟩ := typeLine_comment h hkind
  by_cases hseen : name ∈ rendered
  · rw [if_pos hseen]
    exact hlines
  · rw [if_neg hseen]
    exact .comment hmark hbreak hlines

/-- The lines of the counters have their samples. -/
theorem written_counters (rendered : List Text) {items : List (Key × ℚ)} (h : ∀ item ∈ items, Readable item.1) :
    Written (renderCounters rendered items) ((counterRows items).map shown) := by
  induction items generalizing rendered with
  | nil => exact .nil
  | cons item items ih =>
    obtain ⟨⟨name, labels⟩, value⟩ := item
    have hkey : Readable (name, labels) := h _ List.mem_cons_self
    have hrest := ih (if name ∈ rendered then rendered else name :: rendered) fun item hitem => h item (List.mem_cons_of_mem _ hitem)
    rw [renderCounters, formatLabels_eq]
    exact Written.typed hkey (by decide) (.sample hkey (readNumber_formatNumber value) (not_mem_formatNumber value) hrest)

/-- So have those of a series. -/
theorem written_series (h : Readable key) (values : List ℚ) (sum : ℚ) :
    Written (renderSeries key.1 key.2 values sum) ((seriesRows key values sum).map shown) := by
  have hformat : ∀ (line : Line) (value : ℚ), Readable line.identity →
      Written [sampleLine line.identity (formatNumber value)] [shown (line, rounded 6 value)] :=
    fun line value hline => .sample hline (readNumber_formatNumber value) (not_mem_formatNumber value) .nil
  have hcount : ∀ n : ℕ, Written [sampleLine (Line.part key .count).identity ((PythonNumbers.intText n).map Char.toNat)]
      [shown (.part key .count, (n : ℚ))] :=
    fun n => .sample (readable_part h .count) (readNumber_count n) (not_mem_count n) .nil
  have hquantile : ∀ quantile, Readable (Line.quantile key quantile).identity :=
    fun quantile => (readable_quantile_iff quantile).mpr h
  simp only [renderSeries, formatLabels_eq, seriesRows, quantiles, List.map_cons, List.map_nil, List.cons_append,
    List.nil_append]
  exact (hformat (.quantile key .half) _ (hquantile _)).append <|
    (hformat (.quantile key .most) _ (hquantile _)).append <|
    (hformat (.quantile key .nearly) _ (hquantile _)).append <|
    (hcount _).append <| (hformat (.part key .sum) _ (readable_part h _)).append <|
    (hformat (.part key .min) _ (readable_part h _)).append (hformat (.part key .max) _ (readable_part h _))

/-- And those of all series. -/
theorem written_samples (sums : AList fun _ : Key => ℚ) (rendered : List Text) {items : List (Key × List ℚ)}
    (h : ∀ item ∈ items, Readable item.1) :
    Written (renderSamples sums rendered items) ((sampleRows sums items).map shown) := by
  induction items generalizing rendered with
  | nil => exact .nil
  | cons item items ih =>
    obtain ⟨⟨name, labels⟩, values⟩ := item
    have hkey : Readable (name, labels) := h _ List.mem_cons_self
    have hothers := fun rendered => ih rendered fun item hitem => h item (List.mem_cons_of_mem _ hitem)
    rw [renderSamples, sampleRows, List.flatMap_cons, ← sampleRows]
    by_cases hnone : values = []
    · rw [if_pos hnone, if_pos hnone, List.nil_append]
      exact hothers rendered
    · rw [if_neg hnone, if_neg hnone, List.map_append, List.append_assoc]
      refine Written.typed hkey (by decide) ?_
      exact (written_series hkey values _).append (hothers _)

theorem mem_sortedItems {α : Type} {items : AList fun _ : Key => α} {item : Key × α} :
    item ∈ sortedItems items ↔ items.lookup item.1 = some item.2 := by
  rw [sortedItems, List.mem_mergeSort, List.mem_map, ← Option.mem_def, AList.mem_lookup_iff]
  constructor
  · rintro ⟨entry, hentry, rfl⟩
    exact hentry
  · intro hentry
    exact ⟨_, hentry, rfl⟩

theorem written_build : Written buildLines [shown (.build, 1)] := by
  have hread : Readable Line.build.identity := ⟨by decide, by decide⟩
  have hone : readNumber (py "1") = some 1 := by
    have hcount := readNumber_count 1
    rw [Nat.cast_one] at hcount
    exact hcount
  have hline : Written [sampleLine Line.build.identity (py "1")] [shown (.build, 1)] := .sample hread hone (by decide) .nil
  exact .comment rfl (by decide) (.comment rfl (by decide) hline)

/-- The text of a registry of readable keys is read as its lines. -/
theorem readText_renderPrometheus {registry : Registry} (hcounters : ∀ key ∈ registry.counters, Readable key)
    (hsamples : ∀ key ∈ registry.samples, Readable key) :
    readText (renderPrometheus registry) = some ((rows registry).map shown) := by
  have hkeys : ∀ item ∈ sortedItems registry.counters, Readable item.1 := by
    intro item hitem
    refine hcounters item.1 ?_
    rw [← AList.lookup_isSome, mem_sortedItems.mp hitem]
    rfl
  have hseries : ∀ item ∈ sortedItems registry.samples, Readable item.1 := by
    intro item hitem
    refine hsamples item.1 ?_
    rw [← AList.lookup_isSome, mem_sortedItems.mp hitem]
    rfl
  have hall := (written_build.append (written_counters [] hkeys)).append (written_samples registry.sampleSums [] hseries)
  have hrows : [shown (.build, 1)] ++ (counterRows (sortedItems registry.counters)).map shown ++
      (sampleRows registry.sampleSums (sortedItems registry.samples)).map shown = (rows registry).map shown := by
    simp [rows]
  rw [hrows] at hall
  exact hall.readText

end Rendering

section Rows

variable {maxSamples : ℕ} {registry : Registry} {calls : List Call} {line : Line} {value shownValue : ℚ}

/-- A line that the text has after some calls. -/
def Shown (calls : List Call) : Line → Prop
  | .build => True
  | .counter key => amounts calls key ≠ []
  | .quantile key _ => observations calls key ≠ []
  | .part key _ => observations calls key ≠ []

/-- The number that a line should carry: a counter's sum; the number, the sum, the least and the greatest of the most
recent observations of a series. -/
def Carries (maxSamples : ℕ) (calls : List Call) : Line → ℚ → Prop
  | .build, _ => False
  | .counter key, value => value = (amounts calls key).sum
  | .quantile _ _, _ => False
  | .part key .count, value => value = (recent maxSamples (observations calls key)).length
  | .part key .sum, value => value = (recent maxSamples (observations calls key)).sum
  | .part key .min, value => IsLeast { w | w ∈ recent maxSamples (observations calls key) } value
  | .part key .max, value => IsGreatest { w | w ∈ recent maxSamples (observations calls key) } value

/-- The series that a line is about. -/
def Line.series : Line → Option Key
  | .build => none
  | .counter _ => none
  | .quantile key _ => some key
  | .part key _ => some key

/-- The lines of a series. -/
def seriesLines (key : Key) : List Line :=
  [.quantile key .half, .quantile key .most, .quantile key .nearly, .part key .count, .part key .sum, .part key .min,
    .part key .max]

theorem seriesRows_lines (key : Key) (values : List ℚ) (sum : ℚ) :
    (seriesRows key values sum).map Prod.fst = seriesLines key := rfl

theorem mem_seriesLines {key : Key} : line ∈ seriesLines key ↔ line.series = some key := by
  cases line with
  | build => simp [seriesLines, Line.series]
  | counter other => simp [seriesLines, Line.series]
  | quantile other quantile => cases quantile <;> simp [seriesLines, Line.series]
  | part other piece => cases piece <;> simp [seriesLines, Line.series]

theorem seriesLines_nodup (key : Key) : (seriesLines key).Nodup := by simp [seriesLines]

/-- The keys of a dict are distinct. -/
theorem sortedItems_nodup {α : Type} (items : AList fun _ : Key => α) : ((sortedItems items).map Prod.fst).Nodup := by
  have hperm := (List.mergeSort_perm (items.entries.map fun entry => (entry.1, entry.2)) fun a b => keyLe a.1 b.1).map Prod.fst
  rw [sortedItems, hperm.nodup_iff, List.map_map]
  exact items.nodupKeys

theorem mem_sampleRows {sums : AList fun _ : Key => ℚ} {items : List (Key × List ℚ)} :
    line ∈ (sampleRows sums items).map Prod.fst ↔ ∃ item ∈ items, item.2 ≠ [] ∧ line.series = some item.1 := by
  rw [sampleRows, List.map_flatMap, List.mem_flatMap]
  refine exists_congr fun item => and_congr_right fun _ => ?_
  by_cases hnone : item.2 = []
  · simp [hnone]
  · rw [if_neg hnone, seriesRows_lines, mem_seriesLines]
    exact ⟨fun h => ⟨hnone, h⟩, And.right⟩

theorem sampleRows_nodup {sums : AList fun _ : Key => ℚ} {items : List (Key × List ℚ)} (h : (items.map Prod.fst).Nodup) :
    ((sampleRows sums items).map Prod.fst).Nodup := by
  induction items with
  | nil => exact List.nodup_nil
  | cons item items ih =>
    obtain ⟨hnew, hrest⟩ := List.nodup_cons.mp h
    have hothers := ih hrest
    rw [sampleRows, List.flatMap_cons, ← sampleRows, List.map_append, List.nodup_append]
    refine ⟨?_, hothers, ?_⟩
    · by_cases hnone : item.2 = []
      · rw [if_pos hnone]
        exact List.nodup_nil
      · rw [if_neg hnone, seriesRows_lines]
        exact seriesLines_nodup item.1
    · intro line hline other hother hsame
      subst hsame
      obtain ⟨second, hsecond, -, hkey⟩ := mem_sampleRows.mp hother
      by_cases hnone : item.2 = []
      · rw [if_pos hnone] at hline
        exact absurd hline List.not_mem_nil
      · rw [if_neg hnone, seriesRows_lines, mem_seriesLines, hkey, Option.some.injEq] at hline
        exact hnew (hline ▸ List.mem_map_of_mem hsecond)

theorem mem_counterRows {items : List (Key × ℚ)} :
    line ∈ (counterRows items).map Prod.fst ↔ ∃ item ∈ items, line = .counter item.1 := by
  rw [counterRows, List.map_map, List.mem_map]
  exact exists_congr fun item => and_congr_right fun _ => eq_comm

/-- No line comes twice. -/
theorem rows_nodup (registry : Registry) : ((rows registry).map Prod.fst).Nodup := by
  rw [rows, List.map_cons, List.map_append, List.nodup_cons, List.nodup_append, List.mem_append, not_or]
  have hcounters : ((counterRows (sortedItems registry.counters)).map Prod.fst).Nodup := by
    have hmap : (counterRows (sortedItems registry.counters)).map Prod.fst =
        ((sortedItems registry.counters).map Prod.fst).map Line.counter := by
      rw [counterRows, List.map_map, List.map_map]
      rfl
    rw [hmap]
    exact (sortedItems_nodup registry.counters).map fun _ _ hsame => Line.counter.inj hsame
  refine ⟨⟨?_, ?_⟩, hcounters, sampleRows_nodup (sortedItems_nodup registry.samples), ?_⟩
  · rw [mem_counterRows]
    rintro ⟨item, -, hsame⟩
    cases hsame
  · rw [mem_sampleRows]
    rintro ⟨item, -, -, hsame⟩
    cases hsame
  · intro line hline other hother hsame
    subst hsame
    obtain ⟨first, -, rfl⟩ := mem_counterRows.mp hline
    obtain ⟨second, -, -, hkey⟩ := mem_sampleRows.mp hother
    cases hkey

/-- The lines are those of the counters that were incremented and the series that were observed. -/
theorem mem_rows (h : Tracks maxSamples registry calls) (hroom : Room maxSamples calls) :
    line ∈ (rows registry).map Prod.fst ↔ Shown calls line := by
  have hcounter : ∀ key, (∃ item ∈ sortedItems registry.counters, Line.counter key = .counter item.1) ↔ amounts calls key ≠ [] := by
    intro key
    have hlookup := h.counters key
    constructor
    · rintro ⟨⟨other, value⟩, hitem, hsame⟩ hnone
      cases hsame
      rw [mem_sortedItems.mp hitem, if_pos hnone] at hlookup
      cases hlookup
    · intro hsome
      rw [if_neg hsome] at hlookup
      have hitem : (key, (amounts calls key).sum) ∈ sortedItems registry.counters := mem_sortedItems.mpr hlookup
      exact ⟨_, hitem, rfl⟩
  have hseries : ∀ key, (∃ item ∈ sortedItems registry.samples, item.2 ≠ [] ∧ some key = some item.1) ↔
      observations calls key ≠ [] := by
    intro key
    have hlookup := h.samples key
    constructor
    · rintro ⟨⟨other, values⟩, hitem, -, hsame⟩ hnone
      cases hsame
      rw [mem_sortedItems.mp hitem, if_pos hnone] at hlookup
      cases hlookup
    · intro hsome
      rw [if_neg hsome] at hlookup
      have hitem : (key, recent maxSamples (observations calls key)) ∈ sortedItems registry.samples :=
        mem_sortedItems.mpr hlookup
      refine ⟨_, hitem, ?_, rfl⟩
      rcases hroom with hmax | hnone
      · exact recent_ne_nil hmax hsome
      · refine absurd (List.filterMap_eq_nil_iff.mpr ?_) hsome
        intro call hcall
        cases call with
        | increment name labels amount => rfl
        | observe name value labels => exact absurd hcall (hnone name value labels)
  rw [rows, List.map_cons, List.map_append, List.mem_cons, List.mem_append, mem_counterRows, mem_sampleRows]
  cases line with
  | build => simp [Shown]
  | counter key => simpa [Line.series, Shown] using hcounter key
  | quantile key quantile => simpa [Line.series, Shown] using hseries key
  | part key piece => simpa [Line.series, Shown] using hseries key

/-- The first of sorted values is the least. -/
theorem isLeast_sorted {values : List ℚ} (h : values ≠ []) :
    IsLeast { w | w ∈ values } ((values.mergeSort fun a b => decide (a ≤ b)).headD 0) := by
  have hsorted : (values.mergeSort fun a b => decide (a ≤ b)).Pairwise (· ≤ ·) := List.pairwise_mergeSort' (· ≤ ·) values
  have hperm := List.mergeSort_perm values fun a b => decide (a ≤ b)
  cases hvalues : values.mergeSort fun a b => decide (a ≤ b) with
  | nil =>
    rw [hvalues] at hperm
    exact absurd (List.nil_perm.mp hperm) h
  | cons first rest =>
    rw [hvalues] at hsorted hperm
    refine ⟨hperm.mem_iff.mp List.mem_cons_self, fun w hw => ?_⟩
    rcases List.mem_cons.mp (hperm.mem_iff.mpr hw) with rfl | hin
    · exact le_refl _
    · exact (List.pairwise_cons.mp hsorted).1 w hin

/-- The last is the greatest. -/
theorem isGreatest_sorted {values : List ℚ} (h : values ≠ []) :
    IsGreatest { w | w ∈ values } ((values.mergeSort fun a b => decide (a ≤ b)).getLastD 0) := by
  have hsorted : (values.mergeSort fun a b => decide (a ≤ b)).Pairwise (· ≤ ·) := List.pairwise_mergeSort' (· ≤ ·) values
  have hperm := List.mergeSort_perm values fun a b => decide (a ≤ b)
  rcases List.eq_nil_or_concat (values.mergeSort fun a b => decide (a ≤ b)) with hnil | ⟨front, last, hvalues⟩
  · rw [hnil] at hperm
    exact absurd (List.nil_perm.mp hperm) h
  · rw [List.concat_eq_append] at hvalues
    rw [hvalues] at hsorted hperm ⊢
    rw [List.getLastD_concat]
    refine ⟨hperm.mem_iff.mp (List.mem_append_right _ (List.mem_singleton.mpr rfl)), fun w hw => ?_⟩
    rcases List.mem_append.mp (hperm.mem_iff.mpr hw) with hin | hlast
    · exact (List.pairwise_append.mp hsorted).2.2 w hin last (List.mem_singleton.mpr rfl)
    · exact le_of_eq (List.mem_singleton.mp hlast)

/-- A series of a registry has the most recent observations and their sum. -/
theorem Tracks.series (h : Tracks maxSamples registry calls) {item : Key × List ℚ} (hitem : item ∈ sortedItems registry.samples) :
    item.2 = recent maxSamples (observations calls item.1) ∧
      (registry.sampleSums.lookup item.1).getD 0 = (recent maxSamples (observations calls item.1)).sum := by
  have hlookup := h.samples item.1
  rw [mem_sortedItems.mp hitem] at hlookup
  by_cases hnone : observations calls item.1 = []
  · rw [if_pos hnone] at hlookup
    cases hlookup
  · rw [if_neg hnone, Option.some.injEq] at hlookup
    refine ⟨hlookup, ?_⟩
    rw [h.sums, if_neg hnone, Option.getD_some]

/-- The number on a line is the one it should carry, rounded unless it is a count. -/
theorem rows_value (h : Tracks maxSamples registry calls) (hrow : (line, shownValue) ∈ rows registry)
    (hcarries : Carries maxSamples calls line value) :
    (∃ key, line = .part key .count) ∧ shownValue = value ∨
      (∀ key, line ≠ .part key .count) ∧ shownValue = rounded 6 value := by
  rw [rows, List.mem_cons, List.mem_append] at hrow
  rcases hrow with hbuild | hcounter | hseries
  · cases hbuild
    exact hcarries.elim
  · obtain ⟨item, hitem, hsame⟩ := List.mem_map.mp hcounter
    cases hsame
    have hlookup := h.counters item.1
    rw [mem_sortedItems.mp hitem] at hlookup
    have hvalue : item.2 = value := by
      by_cases hnone : amounts calls item.1 = []
      · rw [if_pos hnone] at hlookup
        cases hlookup
      · rw [if_neg hnone, Option.some.injEq] at hlookup
        exact hlookup.trans hcarries.symm
    refine Or.inr ⟨fun key hcount => (by cases hcount), ?_⟩
    rw [hvalue]
  · obtain ⟨item, hitem, hin⟩ := List.mem_flatMap.mp hseries
    obtain ⟨hvalues, hsum⟩ := h.series hitem
    by_cases hnone : item.2 = []
    · rw [if_pos hnone] at hin
      exact absurd hin List.not_mem_nil
    · rw [if_neg hnone, hsum] at hin
      have hleast := isLeast_sorted hnone
      have hgreatest := isGreatest_sorted hnone
      have hlength : (item.2.mergeSort fun a b => decide (a ≤ b)).length = item.2.length := List.length_mergeSort _
      simp only [seriesRows, quantiles, List.map_cons, List.map_nil, List.cons_append, List.nil_append, List.mem_cons,
        Prod.mk.injEq, List.not_mem_nil, or_false] at hin
      rcases hin with ⟨rfl, -⟩ | ⟨rfl, -⟩ | ⟨rfl, -⟩ | ⟨rfl, hshown⟩ | ⟨rfl, hshown⟩ | ⟨rfl, hshown⟩ | ⟨rfl, hshown⟩
      · exact hcarries.elim
      · exact hcarries.elim
      · exact hcarries.elim
      · refine Or.inl ⟨⟨item.1, rfl⟩, ?_⟩
        rw [hshown, hlength, hvalues]
        exact hcarries.symm
      · refine Or.inr ⟨fun key hcount => (by cases hcount), ?_⟩
        rw [hshown, ← (show value = _ from hcarries)]
      · refine Or.inr ⟨fun key hcount => (by cases hcount), ?_⟩
        rw [Carries, ← hvalues] at hcarries
        rw [hshown, hleast.unique hcarries]
      · refine Or.inr ⟨fun key hcount => (by cases hcount), ?_⟩
        rw [Carries, ← hvalues] at hcarries
        rw [hshown, hgreatest.unique hcarries]

end Rows

section Faithful

variable {maxSamples : ℕ} {registry : Registry} {calls : List Call}

/-- After calls that all return, the text is read as one sample for each counter and seven for each series, no two of one
name and labels; and the counters, the counts, the sums, the least and the greatest observations are what they should be. -/
def Faithful (maxSamples : ℕ) (calls : List Call) : Prop :=
  ∃ registry samples, run maxSamples calls = some registry ∧ readText (renderPrometheus registry) = some samples ∧
    (samples.map Prod.fst).Nodup ∧
    (∀ identity, identity ∈ samples.map Prod.fst ↔ ∃ line, Shown calls line ∧ line.identity = identity) ∧
    ∀ line value, Shown calls line → Carries maxSamples calls line value → (line.identity, value) ∈ samples

/-- Calls whose text can be read back. -/
structure Legible (maxSamples : ℕ) (calls : List Call) : Prop where
  /-- Observations can be kept, or there are none. -/
  room : Room maxSamples calls
  /-- Names are names, and the keys of labels are keys. -/
  words : ∀ call ∈ calls, isWord isNameCode call.name = true ∧ ∀ label ∈ call.labels, isWord isLabelCode label.1 = true
  /-- No two lines have one name and the same labels. -/
  apart : ∀ line line', Shown calls line → Shown calls line' → line.identity = line'.identity → line = line'
  /-- The numbers have six significant digits at most; how many observations there are does not matter. -/
  digits : ∀ line value, Shown calls line → Carries maxSamples calls line value → (∀ key, line ≠ .part key .count) →
    HasDigits 6 value

theorem amounts_ne_nil_iff {key : Key} : amounts calls key ≠ [] ↔
    ∃ name labels amount, Call.increment name labels amount ∈ calls ∧ (name, normaliseLabels labels) = key := by
  rw [← List.length_pos_iff, List.length_pos_iff_exists_mem]
  simp only [amounts, List.mem_filterMap]
  constructor
  · rintro ⟨amount, call, hcall, hsome⟩
    cases call with
    | increment name labels other =>
      dsimp only at hsome
      split at hsome
      · next hkey => exact ⟨name, labels, other, hcall, hkey⟩
      · cases hsome
    | observe name value labels => cases hsome
  · rintro ⟨name, labels, amount, hcall, hkey⟩
    exact ⟨amount, _, hcall, if_pos hkey⟩

theorem observations_ne_nil_iff {key : Key} : observations calls key ≠ [] ↔
    ∃ name value labels, Call.observe name value labels ∈ calls ∧ (name, normaliseLabels labels) = key := by
  rw [← List.length_pos_iff, List.length_pos_iff_exists_mem]
  simp only [observations, List.mem_filterMap]
  constructor
  · rintro ⟨value, call, hcall, hsome⟩
    cases call with
    | increment name labels amount => cases hsome
    | observe name other labels =>
      dsimp only at hsome
      split at hsome
      · next hkey => exact ⟨name, other, labels, hcall, hkey⟩
      · cases hsome
  · rintro ⟨name, value, labels, hcall, hkey⟩
    exact ⟨value, _, hcall, if_pos hkey⟩

/-- The key of a call can be read where its name is one and the keys of its labels are. -/
theorem readable_call (call : Call) : Readable (call.name, normaliseLabels call.labels) ↔
    isWord isNameCode call.name = true ∧ ∀ label ∈ call.labels, isWord isLabelCode label.1 = true := by
  simp only [Readable, mem_normaliseLabels]

/-- Then the registry's text is read as its lines. -/
theorem readText_of_words (h : Tracks maxSamples registry calls)
    (hwords : ∀ call ∈ calls, Readable (call.name, normaliseLabels call.labels)) :
    readText (renderPrometheus registry) = some ((rows registry).map shown) := by
  refine readText_renderPrometheus ?_ ?_
  · intro key hkey
    have hsome : amounts calls key ≠ [] := by
      intro hnone
      have hlookup := h.counters key
      rw [if_pos hnone, AList.lookup_eq_none] at hlookup
      exact hlookup hkey
    obtain ⟨name, labels, amount, hcall, rfl⟩ := amounts_ne_nil_iff.mp hsome
    exact hwords _ hcall
  · intro key hkey
    have hsome : observations calls key ≠ [] := by
      intro hnone
      have hlookup := h.samples key
      rw [if_pos hnone, AList.lookup_eq_none] at hlookup
      exact hlookup hkey
    obtain ⟨name, value, labels, hcall, rfl⟩ := observations_ne_nil_iff.mp hsome
    exact hwords _ hcall

/-- The text of the registry is faithful exactly where there is room, names are names, no two lines are of one thing, and
no number has more than six significant digits. -/
theorem exposition_faithful_iff (maxSamples : ℕ) (calls : List Call) : Faithful maxSamples calls ↔ Legible maxSamples calls := by
  constructor
  · rintro ⟨registry, samples, hrun, hread, hnodup, hlines, hvalues⟩
    have hroom := room_of_run hrun
    obtain ⟨registry', hrun', htracks⟩ := run_tracks hroom
    obtain rfl : registry = registry' := Option.some.inj (hrun.symm.trans hrun')
    have hreadable : ∀ line, Shown calls line → Readable line.identity := by
      intro line hshown
      obtain ⟨sample, hsample, hsame⟩ := List.mem_map.mp ((hlines line.identity).mpr ⟨line, hshown, rfl⟩)
      rw [← hsame]
      exact readLines_readable hread sample hsample
    have hwords : ∀ call ∈ calls, Readable (call.name, normaliseLabels call.labels) := by
      intro call hcall
      cases call with
      | increment name labels amount =>
        exact hreadable (.counter (name, normaliseLabels labels)) (amounts_ne_nil_iff.mpr ⟨name, labels, amount, hcall, rfl⟩)
      | observe name value labels =>
        have hsome := observations_ne_nil_iff.mpr ⟨name, value, labels, hcall, rfl⟩
        exact (readable_quantile_iff .half).mp (hreadable (.quantile (name, normaliseLabels labels) .half) hsome)
    have hrows := readText_of_words htracks hwords
    obtain rfl : samples = (rows registry).map shown := Option.some.inj (hread.symm.trans hrows)
    have hidentities : ((rows registry).map shown).map Prod.fst = ((rows registry).map Prod.fst).map Line.identity := by
      rw [List.map_map, List.map_map]
      rfl
    rw [hidentities, List.nodup_map_iff_inj_on (rows_nodup registry)] at hnodup
    have hapart : ∀ line line', Shown calls line → Shown calls line' → line.identity = line'.identity → line = line' :=
      fun line line' hline hline' => hnodup line ((mem_rows htracks hroom).mpr hline) line' ((mem_rows htracks hroom).mpr hline')
    refine ⟨hroom, fun call hcall => (readable_call call).mp (hwords call hcall), hapart, ?_⟩
    intro line value hshown hcarries hcount
    obtain ⟨⟨other, shownValue⟩, hrow, hsame⟩ := List.mem_map.mp (hvalues line value hshown hcarries)
    rw [shown, Prod.mk.injEq] at hsame
    have hother : Shown calls other := (mem_rows htracks hroom).mp (List.mem_map_of_mem hrow)
    obtain rfl : other = line := hapart other line hother hshown hsame.1
    rcases rows_value htracks hrow hcarries with ⟨⟨key, hkey⟩, -⟩ | ⟨-, hrounded⟩
    · exact absurd hkey (hcount key)
    · rw [← rounded_eq_iff (show (6 : ℕ) ≠ 0 by decide), ← hrounded]
      exact hsame.2
  · intro h
    obtain ⟨registry, hrun, htracks⟩ := run_tracks h.room
    have hwords : ∀ call ∈ calls, Readable (call.name, normaliseLabels call.labels) :=
      fun call hcall => (readable_call call).mpr (h.words call hcall)
    have hrows := readText_of_words htracks hwords
    have hidentities : ((rows registry).map shown).map Prod.fst = ((rows registry).map Prod.fst).map Line.identity := by
      rw [List.map_map, List.map_map]
      rfl
    refine ⟨registry, _, hrun, hrows, ?_, ?_, ?_⟩
    · rw [hidentities, List.nodup_map_iff_inj_on (rows_nodup registry)]
      intro line hline line' hline'
      exact h.apart line line' ((mem_rows htracks h.room).mp hline) ((mem_rows htracks h.room).mp hline')
    · intro identity
      rw [hidentities, List.mem_map]
      exact exists_congr fun line => and_congr_left fun _ => mem_rows htracks h.room
    · intro line value hshown hcarries
      obtain ⟨⟨other, shownValue⟩, hrow, hsame⟩ := List.mem_map.mp ((mem_rows htracks h.room).mpr hshown)
      obtain rfl : other = line := hsame
      have hvalue : shownValue = value := by
        rcases rows_value htracks hrow hcarries with ⟨-, hexact⟩ | ⟨hcount, hrounded⟩
        · exact hexact
        · rw [hrounded]
          exact rounded_of_hasDigits (h.digits other value hshown hcarries hcount)
      rw [← hvalue]
      exact List.mem_map_of_mem hrow

/-- One increment by a number of seven digits. -/
def sevenDigits : List Call := [.increment (py "c") [] 1234567]

/-- It is shown rounded. -/
theorem seven_digits_rounded : formatNumber 1234567 = py "1.23457e+06" ∧ ¬ Faithful 1000 sevenDigits := by
  refine ⟨by decide +kernel, ?_⟩
  rw [exposition_faithful_iff]
  intro h
  have hamounts : amounts sevenDigits (py "c", normaliseLabels []) = [1234567] := by
    simp [amounts, sevenDigits]
  have hshown : Shown sevenDigits (.counter (py "c", normaliseLabels [])) := by
    rw [Shown, hamounts]
    exact List.cons_ne_nil _ _
  have hcarries : Carries 1000 sevenDigits (.counter (py "c", normaliseLabels [])) 1234567 := by
    rw [Carries, hamounts, List.sum_singleton]
  have hdigits := h.digits _ _ hshown hcarries fun key hcount => (by cases hcount)
  have hlimit := (hasDigits_natCast (n := 1234567) (by decide)).mp (by exact_mod_cast hdigits)
  exact absurd hlimit (by decide)

end Faithful

end RagSystem.MetricsExposition
