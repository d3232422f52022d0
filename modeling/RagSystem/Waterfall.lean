import Mathlib.Algebra.Order.Field.Basic
import Mathlib.Algebra.Order.Field.Rat
import Mathlib.Data.Set.Finite.List
import Mathlib.Tactic.Linarith
import RagSystem.ParentChains

/-!
# The waterfall of a trace

A trace is laid out as one row a span, indented by the depth of the span and
scaled to the time the spans cover. A span is found by its id; what it refers to
as its parent may be missing, may be itself, or may lead back to it. Times are
exact.
-/

namespace RagSystem.Waterfall

open ParentChains

set_option autoImplicit false

section Source

/-- `Span`, as far as the layout reads it. -/
structure Span where
  /-- `span_id`. -/
  spanId : String
  /-- `parent_span_id`. -/
  parentSpanId : Option String
  /-- `start_ts`. -/
  startTs : String
  /-- `duration_ms`. -/
  durationMs : ℚ
  deriving DecidableEq

/-- `WaterfallRow`. -/
structure WaterfallRow where
  /-- The span. -/
  span : Span
  /-- How far it is indented. -/
  depth : ℕ
  /-- Where it begins, as a fraction. -/
  offset : ℚ
  /-- How wide it is, as a fraction. -/
  width : ℚ
  /-- When it begins, from the origin. -/
  startMs : ℚ
  /-- When it ends, from the origin. -/
  endMs : ℚ

/-- `WaterfallLayout`. -/
structure WaterfallLayout where
  /-- The rows. -/
  rows : List WaterfallRow
  /-- The earliest start. -/
  originMs : ℚ
  /-- The time covered. -/
  totalMs : ℚ

/-- `byId`: of several spans with an id the last. -/
def byId (spans : List Span) (id : String) : Option Span := spans.reverse.find? fun span => span.spanId = id

/-- `current.parent_span_id`, where it is truthy. -/
def parentReference (span : Span) : Option String := span.parentSpanId.filter (· ≠ "")

/-- The loop of `depthOf`; it ends for good when `depth` exceeds the number of spans, which leaves it so many rounds. -/
def walk (spans : List Span) : ℕ → Span → List String → ℕ → ℕ
  | 0, _, _, depth => depth
  | rounds + 1, current, seen, depth =>
    match parentReference current with
    | none => depth
    | some reference =>
      if current.spanId ∈ seen then depth
      else
        match byId spans reference with
        | none => depth
        | some parent => walk spans rounds parent (current.spanId :: seen) (depth + 1)

/-- `depthCache` and `result`. -/
structure Depths where
  /-- `depthCache`. -/
  depthCache : String → Option ℕ
  /-- `result`. -/
  result : String → Option ℕ

/-- An entry set in a map. -/
def setEntry (map : String → Option ℕ) (id : String) (depth : ℕ) : String → Option ℕ :=
  fun other => if other = id then some depth else map other

/-- `result.set(s.span_id, depthOf(s))`. -/
def setDepth (spans : List Span) (depths : Depths) (span : Span) : Depths :=
  match depths.depthCache span.spanId with
  | some cached => { depths with result := setEntry depths.result span.spanId cached }
  | none =>
    let depth := walk spans (spans.length + 1) span [] 0
    ⟨setEntry depths.depthCache span.spanId depth, setEntry depths.result span.spanId depth⟩

/-- `computeDepths`. -/
def computeDepths (spans : List Span) : String → Option ℕ :=
  (spans.foldl (setDepth spans) ⟨fun _ => none, fun _ => none⟩).result

/-- `clamp01`. -/
def clamp01 (value : ℚ) : ℚ := if value < 0 then 0 else if 1 < value then 1 else value

/-- An entry of `validStarts`, where `getTime` gives the time of a text, if it is one. -/
def validStart (getTime : String → Option ℚ) (span : Span) : ℚ := (getTime span.startTs).getD 0

/-- `Math.min(...validStarts)`, of at least one; how many arguments an engine takes is left out. -/
def minStart (getTime : String → Option ℚ) (first : Span) (spans : List Span) : ℚ :=
  spans.foldl (fun least span => min least (validStart getTime span)) (validStart getTime first)

/-- The end of a span. -/
def endOf (getTime : String → Option ℚ) (span : Span) : ℚ := validStart getTime span + max 0 span.durationMs

/-- The loop for `maxEnd`. -/
def maxEnd (getTime : String → Option ℚ) (originMs : ℚ) (spans : List Span) : ℚ :=
  spans.foldl (fun last span => if last < endOf getTime span then endOf getTime span else last) originMs

/-- A row. -/
def rowOf (getTime : String → Option ℚ) (depths : String → Option ℕ) (originMs totalMs : ℚ) (span : Span) : WaterfallRow :=
  let startMs := validStart getTime span - originMs
  let durationMs := max 0 span.durationMs
  let offset := if 0 < totalMs then startMs / totalMs else 0
  let width := if 0 < totalMs then durationMs / totalMs else 0
  { span := span
    depth := (depths span.spanId).getD 0
    offset := clamp01 offset
    width := clamp01 width
    startMs := startMs
    endMs := startMs + durationMs }

/-- `computeWaterfall`. -/
def computeWaterfall (getTime : String → Option ℚ) : List Span → WaterfallLayout
  | [] => ⟨[], 0, 0⟩
  | first :: rest =>
    let spans := first :: rest
    let depths := computeDepths spans
    let originMs := minStart getTime first rest
    let totalMs := max 0 (maxEnd getTime originMs spans - originMs)
    ⟨spans.map (rowOf getTime depths originMs totalMs), originMs, totalMs⟩

end Source

section Depth

variable {spans : List Span}

/-- The span in the list that a span refers to. -/
def presentParent (spans : List Span) (span : Span) : Option Span := (parentReference span).bind (byId spans)

/-- A span found by its id is in the list, and has the id. -/
theorem byId_eq_some {id : String} {span : Span} (h : byId spans id = some span) : span ∈ spans ∧ span.spanId = id := by
  have hmem := List.mem_of_find?_eq_some h
  have hid := List.find?_some h
  exact ⟨List.mem_reverse.mp hmem, by simpa using hid⟩

theorem presentParent_mem {span parent : Span} (h : presentParent spans span = some parent) : parent ∈ spans := by
  obtain ⟨reference, -, hfound⟩ := Option.bind_eq_some_iff.mp h
  exact (byId_eq_some hfound).1

/-- Distinct ids tell spans apart. -/
theorem eq_of_spanId (hids : (spans.map Span.spanId).Nodup) {span other : Span} (hspan : span ∈ spans) (hother : other ∈ spans)
    (hsame : span.spanId = other.spanId) : span = other := List.inj_on_of_nodup_map hids hspan hother hsame

/-- Ancestors are in the list. -/
theorem ancestors_subset (span : Span) : ancestors (presentParent spans) span ⊆ {other | other ∈ spans} := by
  intro ancestor hancestor
  obtain ⟨last, -, hlast⟩ := Relation.TransGen.tail'_iff.mp hancestor
  exact presentParent_mem hlast

theorem finite_ancestors (span : Span) : (ancestors (presentParent spans) span).Finite :=
  (List.finite_toSet spans).subset (ancestors_subset span)

/-- The loop counts the ancestors: what it has seen leads to the current span, so that nothing is seen twice. -/
theorem walk_eq (hids : (spans.map Span.spanId).Nodup) (hacyclic : Acyclic (presentParent spans)) {rounds depth : ℕ}
    {current : Span} {seen : List String} (hcurrent : current ∈ spans)
    (hseen : ∀ id ∈ seen, ∃ span ∈ spans, span.spanId = id ∧ current ∈ ancestors (presentParent spans) span)
    (hrounds : (ancestors (presentParent spans) current).ncard ≤ rounds) :
    walk spans rounds current seen depth = depth + (ancestors (presentParent spans) current).ncard := by
  induction rounds generalizing current seen depth with
  | zero =>
    have hnone : (ancestors (presentParent spans) current).ncard = 0 := by omega
    rw [walk, hnone, Nat.add_zero]
  | succ rounds ih =>
    rw [walk]
    have hunseen : current.spanId ∉ seen := by
      intro hmem
      obtain ⟨span, hspan, hsame, hleads⟩ := hseen _ hmem
      rw [eq_of_spanId hids hspan hcurrent hsame] at hleads
      exact hacyclic current hleads
    cases hreference : parentReference current with
    | none =>
      have hparent : presentParent spans current = none := by rw [presentParent, hreference]; rfl
      simp [ancestors_of_none hparent]
    | some reference =>
      dsimp only
      rw [if_neg hunseen]
      cases hfound : byId spans reference with
      | none =>
        have hparent : presentParent spans current = none := by rw [presentParent, hreference]; exact hfound
        simp [ancestors_of_none hparent]
      | some parent =>
        have hparent : presentParent spans current = some parent := by rw [presentParent, hreference]; exact hfound
        have hone := ncard_ancestors_of_some hacyclic hparent (finite_ancestors parent)
        have hseen' : ∀ id ∈ current.spanId :: seen, ∃ span ∈ spans, span.spanId = id ∧
            parent ∈ ancestors (presentParent spans) span := by
          intro id hid
          rcases List.mem_cons.mp hid with rfl | hold
          · exact ⟨current, hcurrent, rfl, Relation.TransGen.single hparent⟩
          · obtain ⟨span, hspan, hsame, hleads⟩ := hseen id hold
            exact ⟨span, hspan, hsame, Relation.TransGen.tail hleads hparent⟩
        dsimp only
        rw [ih (presentParent_mem hparent) hseen' (by omega), hone]
        omega

/-- Spans with new ids are each given the depth that the loop finds, and the others keep theirs. -/
theorem foldl_setDepth {todo : List Span} {depths : Depths} (hids : (todo.map Span.spanId).Nodup)
    (hfresh : ∀ span ∈ todo, depths.depthCache span.spanId = none) :
    (∀ span ∈ todo, (todo.foldl (setDepth spans) depths).result span.spanId =
        some (walk spans (spans.length + 1) span [] 0)) ∧
      ∀ id ∉ todo.map Span.spanId, (todo.foldl (setDepth spans) depths).result id = depths.result id := by
  induction todo generalizing depths with
  | nil => exact ⟨fun _ h => absurd h List.not_mem_nil, fun _ _ => rfl⟩
  | cons span todo ih =>
    obtain ⟨hnew, hrest⟩ := List.nodup_cons.mp hids
    have hstep : setDepth spans depths span =
        ⟨setEntry depths.depthCache span.spanId (walk spans (spans.length + 1) span [] 0),
          setEntry depths.result span.spanId (walk spans (spans.length + 1) span [] 0)⟩ := by
      rw [setDepth, hfresh span List.mem_cons_self]
    have hfresh' : ∀ other ∈ todo, (setDepth spans depths span).depthCache other.spanId = none := by
      intro other hother
      have hne : other.spanId ≠ span.spanId := fun hsame => hnew (hsame ▸ List.mem_map_of_mem hother)
      rw [hstep]
      simp only [setEntry, if_neg hne]
      exact hfresh other (List.mem_cons_of_mem _ hother)
    obtain ⟨hset, hkept⟩ := ih hrest hfresh'
    refine ⟨?_, ?_⟩
    · intro other hother
      rw [List.foldl_cons]
      rcases List.mem_cons.mp hother with rfl | hlater
      · rw [hkept _ hnew, hstep]
        simp [setEntry]
      · exact hset other hlater
    · intro id hid
      rw [List.map_cons, List.mem_cons, not_or] at hid
      rw [List.foldl_cons, hkept id hid.2, hstep]
      simp [setEntry, hid.1]

/-- Without cycles a span's depth is the number of its ancestors in the list. -/
theorem computeDepths_eq (hids : (spans.map Span.spanId).Nodup) (hacyclic : Acyclic (presentParent spans)) {span : Span}
    (hspan : span ∈ spans) : computeDepths spans span.spanId = some (ancestors (presentParent spans) span).ncard := by
  have hset := (@foldl_setDepth spans spans ⟨fun _ => none, fun _ => none⟩ hids fun _ _ => rfl).1 span hspan
  have hbound : (ancestors (presentParent spans) span).ncard ≤ spans.length + 1 := by
    have hsubset := Set.ncard_le_ncard (ancestors_subset span) (List.finite_toSet spans)
    have hlength : {other | other ∈ spans}.ncard ≤ spans.length := by
      have hcoe : {other | other ∈ spans} = ((spans.toFinset : Finset Span) : Set Span) := by
        ext other
        simp
      rw [hcoe, Set.ncard_coe_finset]
      exact List.toFinset_card_le spans
    omega
  rw [computeDepths, hset, walk_eq hids hacyclic hspan (by simp) hbound, Nat.zero_add]

end Depth

section Scale

variable {getTime : String → Option ℚ} {spans : List Span}

theorem foldl_min_le (value : ℚ) (spans : List Span) :
    spans.foldl (fun least span => min least (validStart getTime span)) value ≤ value ∧
      ∀ span ∈ spans, spans.foldl (fun least span => min least (validStart getTime span)) value ≤ validStart getTime span := by
  induction spans generalizing value with
  | nil => exact ⟨le_refl _, fun _ h => absurd h List.not_mem_nil⟩
  | cons span spans ih =>
    obtain ⟨hbase, hall⟩ := ih (min value (validStart getTime span))
    refine ⟨hbase.trans (min_le_left _ _), ?_⟩
    intro other hother
    rcases List.mem_cons.mp hother with rfl | hlater
    · exact hbase.trans (min_le_right _ _)
    · exact hall other hlater

/-- No span begins before the origin. -/
theorem minStart_le {first : Span} {rest : List Span} {span : Span} (hspan : span ∈ first :: rest) :
    minStart getTime first rest ≤ validStart getTime span := by
  obtain ⟨hbase, hall⟩ := @foldl_min_le getTime (validStart getTime first) rest
  rcases List.mem_cons.mp hspan with rfl | hlater
  · exact hbase
  · exact hall span hlater

/-- No span ends after the last end. -/
theorem le_maxEnd (value : ℚ) (spans : List Span) :
    value ≤ maxEnd getTime value spans ∧ ∀ span ∈ spans, endOf getTime span ≤ maxEnd getTime value spans := by
  induction spans generalizing value with
  | nil => exact ⟨le_refl _, fun _ h => absurd h List.not_mem_nil⟩
  | cons span spans ih =>
    obtain ⟨hbase, hall⟩ := ih (if value < endOf getTime span then endOf getTime span else value)
    have hstart : value ≤ if value < endOf getTime span then endOf getTime span else value := by
      split
      · next hlt => exact hlt.le
      · exact le_refl _
    have hend : endOf getTime span ≤ if value < endOf getTime span then endOf getTime span else value := by
      split
      · exact le_refl _
      · next hle => exact not_lt.mp hle
    refine ⟨hstart.trans hbase, ?_⟩
    intro other hother
    rcases List.mem_cons.mp hother with rfl | hlater
    · exact hend.trans hbase
    · exact hall other hlater

/-- A fraction is not changed by the clamp. -/
theorem clamp01_of_mem {value : ℚ} (hnonneg : 0 ≤ value) (hle : value ≤ 1) : clamp01 value = value := by
  rw [clamp01, if_neg (not_lt.mpr hnonneg), if_neg (not_lt.mpr hle)]

/-- What lies within the time covered. -/
structure Scaled (row : WaterfallRow) : Prop where
  /-- It does not begin before it. -/
  offset : 0 ≤ row.offset
  /-- It has no negative width. -/
  width : 0 ≤ row.width
  /-- It does not end after it. -/
  total : row.offset + row.width ≤ 1

theorem scaled_rowOf {depths : String → Option ℕ} {originMs last : ℚ} {span : Span}
    (hstart : originMs ≤ validStart getTime span) (hend : endOf getTime span ≤ last) :
    Scaled (rowOf getTime depths originMs (max 0 (last - originMs)) span) := by
  have hduration : (0 : ℚ) ≤ max 0 span.durationMs := le_max_left _ _
  have hlast : validStart getTime span + max 0 span.durationMs ≤ last := hend
  by_cases hpositive : 0 < max 0 (last - originMs)
  · have htotal : max 0 (last - originMs) = last - originMs := by
      refine max_eq_right ?_
      linarith
    rw [htotal] at hpositive
    have hoffset : 0 ≤ (validStart getTime span - originMs) / (last - originMs) :=
      div_nonneg (by linarith) hpositive.le
    have hwidth : 0 ≤ max 0 span.durationMs / (last - originMs) := div_nonneg hduration hpositive.le
    have hsum : (validStart getTime span - originMs) / (last - originMs) + max 0 span.durationMs / (last - originMs) ≤ 1 := by
      rw [← add_div, div_le_one hpositive]
      linarith
    have hrow : (rowOf getTime depths originMs (last - originMs) span).offset =
        (validStart getTime span - originMs) / (last - originMs) := by
      simp only [rowOf, if_pos hpositive]
      exact clamp01_of_mem hoffset (by linarith)
    have hrow' : (rowOf getTime depths originMs (last - originMs) span).width =
        max 0 span.durationMs / (last - originMs) := by
      simp only [rowOf, if_pos hpositive]
      exact clamp01_of_mem hwidth (by linarith)
    rw [htotal]
    exact ⟨hrow ▸ hoffset, hrow' ▸ hwidth, by rw [hrow, hrow']; exact hsum⟩
  · have hzero : clamp01 0 = 0 := clamp01_of_mem (le_refl 0) (by norm_num)
    have hoffset : (rowOf getTime depths originMs (max 0 (last - originMs)) span).offset = 0 := by
      simp only [rowOf, if_neg hpositive, hzero]
    have hwidth : (rowOf getTime depths originMs (max 0 (last - originMs)) span).width = 0 := by
      simp only [rowOf, if_neg hpositive, hzero]
    exact ⟨hoffset.ge, hwidth.ge, by rw [hoffset, hwidth]; norm_num⟩

end Scale

section Layout

variable {getTime : String → Option ℚ} {spans : List Span}

/-- The rows, whatever the list is. -/
theorem rows_computeWaterfall (getTime : String → Option ℚ) (spans : List Span) : ∃ originMs totalMs,
    (computeWaterfall getTime spans).rows = spans.map (rowOf getTime (computeDepths spans) originMs totalMs) := by
  cases spans with
  | nil => exact ⟨0, 0, rfl⟩
  | cons first rest => exact ⟨_, _, rfl⟩

/-- Every row is scaled. -/
theorem scaled_rows {row : WaterfallRow} (hrow : row ∈ (computeWaterfall getTime spans).rows) : Scaled row := by
  cases spans with
  | nil => exact absurd hrow List.not_mem_nil
  | cons first rest =>
    obtain ⟨span, hspan, rfl⟩ := List.mem_map.mp hrow
    exact scaled_rowOf (minStart_le hspan) ((le_maxEnd _ _).2 span hspan)

/-- The layout has one row a span, in order; without cycles a row's depth is the number of its span's ancestors in the
list, one more than its parent's; and every row lies within the time covered. -/
theorem waterfall_layout (getTime : String → Option ℚ) (hids : (spans.map Span.spanId).Nodup) :
    (computeWaterfall getTime spans).rows.map WaterfallRow.span = spans ∧
      (Acyclic (presentParent spans) → ∀ row ∈ (computeWaterfall getTime spans).rows,
        row.depth = (ancestors (presentParent spans) row.span).ncard ∧
        ∀ other ∈ (computeWaterfall getTime spans).rows, presentParent spans row.span = some other.span →
          row.depth = other.depth + 1) ∧
      ∀ row ∈ (computeWaterfall getTime spans).rows, 0 ≤ row.offset ∧ 0 ≤ row.width ∧ row.offset + row.width ≤ 1 := by
  obtain ⟨originMs, totalMs, hrows⟩ := rows_computeWaterfall getTime spans
  refine ⟨?_, ?_, ?_⟩
  · rw [hrows, List.map_map]
    exact List.map_id' spans
  · intro hacyclic
    have hdepth : ∀ row ∈ (computeWaterfall getTime spans).rows,
        row.depth = (ancestors (presentParent spans) row.span).ncard := by
      intro row hrow
      rw [hrows] at hrow
      obtain ⟨span, hspan, rfl⟩ := List.mem_map.mp hrow
      simp only [rowOf, computeDepths_eq hids hacyclic hspan, Option.getD_some]
    intro row hrow
    refine ⟨hdepth row hrow, ?_⟩
    intro other hother hparent
    rw [hdepth row hrow, hdepth other hother]
    exact ncard_ancestors_of_some hacyclic hparent (finite_ancestors _)
  · intro row hrow
    have hscaled := scaled_rows hrow
    exact ⟨hscaled.offset, hscaled.width, hscaled.total⟩

/-- A grandchild, a child of it whose time is not one, and a root. -/
def sampleSpans : List Span :=
  [⟨"c", some "b", "12", -1⟩, ⟨"b", some "a", "later", 4⟩, ⟨"a", some "gone", "10", 5⟩]

/-- The time of some texts. -/
def sampleTime : String → Option ℚ
  | "10" => some 10
  | "12" => some 12
  | _ => none

/-- Each span of them refers to one that comes later in the list. -/
theorem acyclic_sample : Acyclic (presentParent sampleSpans) := by
  have hlisted : ∀ child ∈ sampleSpans, ∀ other ∈ sampleSpans, presentParent sampleSpans child = some other →
      sampleSpans.reverse.idxOf other < sampleSpans.reverse.idxOf child := by decide +kernel
  refine acyclic_of_rank (fun span => sampleSpans.reverse.idxOf span) fun child other h => ?_
  have hother := presentParent_mem h
  by_cases hchild : child ∈ sampleSpans
  · exact hlisted child hchild other hother h
  · have hlast : sampleSpans.reverse.idxOf child = sampleSpans.reverse.length :=
      List.idxOf_of_notMem fun hmem => hchild (List.mem_reverse.mp hmem)
    show sampleSpans.reverse.idxOf other < sampleSpans.reverse.idxOf child
    rw [hlast]
    exact List.idxOf_lt_length_of_mem (List.mem_reverse.mpr hother)

theorem waterfall_layout_sample :
    (computeWaterfall sampleTime sampleSpans).rows.map WaterfallRow.span = sampleSpans ∧
      (∀ row ∈ (computeWaterfall sampleTime sampleSpans).rows,
        row.depth = (ancestors (presentParent sampleSpans) row.span).ncard ∧
        ∀ other ∈ (computeWaterfall sampleTime sampleSpans).rows,
          presentParent sampleSpans row.span = some other.span → row.depth = other.depth + 1) ∧
      ∀ row ∈ (computeWaterfall sampleTime sampleSpans).rows, 0 ≤ row.offset ∧ 0 ≤ row.width ∧ row.offset + row.width ≤ 1 := by
  obtain ⟨hspans, hdepths, hscaled⟩ := @waterfall_layout sampleSpans sampleTime (by decide)
  exact ⟨hspans, hdepths acyclic_sample, hscaled⟩

end Layout

end RagSystem.Waterfall
