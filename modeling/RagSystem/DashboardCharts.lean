import Mathlib.Algebra.BigOperators.Ring.Finset
import Mathlib.Data.List.FinRange
import Mathlib.Data.Rat.Defs
import RagSystem.FirstSeenGroups
import RagSystem.JavaScriptValues

/-!
# Charts of a dashboard

The numbers of an automatic dashboard, computed from the rows of a result: single
numbers, and charts whose rows are grouped by the string of a column's value. Null,
arrays and objects have one type, and different ones can have one string.
-/

namespace RagSystem.DashboardCharts

open Doubles JavaScriptValues FirstSeenGroups

set_option autoImplicit false

/-- `AllowedOp`. -/
inductive AllowedOp where
  | sum | count | avg | min | max
  deriving DecidableEq

/-- `isAllowedOp`: the operation of a name. -/
def allowedOp (op : String) : Option AllowedOp :=
  if op = "sum" then some .sum
  else if op = "count" then some .count
  else if op = "avg" then some .avg
  else if op = "min" then some .min
  else if op = "max" then some .max
  else none

/-- `ChartType`. -/
inductive ChartType where
  | bar | line | pie

/-- `KpiSpec`; its operation is not checked yet. -/
structure KpiSpec where
  /-- `label`. -/
  label : String
  /-- `op`. -/
  op : String
  /-- `column`. -/
  column : String

/-- `SeriesSpec`. -/
structure SeriesSpec where
  /-- `column`. -/
  column : String
  /-- `op`. -/
  op : String

/-- `ChartDef`. -/
structure ChartDef where
  /-- `type`. -/
  type : ChartType
  /-- `title`. -/
  title : String
  /-- `xColumn`. -/
  xColumn : String
  /-- `series`. -/
  series : List SeriesSpec

/-- `ComputedKpi`. -/
structure ComputedKpi where
  /-- `label`. -/
  label : String
  /-- `op`. -/
  op : String
  /-- `column`. -/
  column : String
  /-- `computable`. -/
  computable : Bool
  /-- `value`. -/
  value : Option ℚ
  /-- `reason`. -/
  reason : Option String := none

/-- `ComputedSeries`. -/
structure ComputedSeries where
  /-- `column`. -/
  column : String
  /-- `op`. -/
  op : AllowedOp
  /-- `key`. -/
  key : String

/-- `ComputedChartPoint`. -/
structure ComputedChartPoint where
  /-- `x`. -/
  x : JsValue
  /-- `xLabel`. -/
  xLabel : JsString
  /-- The values of the series, by their keys. -/
  values : List (String × Option ℚ)

/-- `ComputedChart`. -/
structure ComputedChart where
  /-- `type`. -/
  type : ChartType
  /-- `title`. -/
  title : String
  /-- `xColumn`. -/
  xColumn : String
  /-- `computable`. -/
  computable : Bool
  /-- `series`. -/
  series : List ComputedSeries
  /-- `data`. -/
  data : List ComputedChartPoint
  /-- `reason`. -/
  reason : Option String := none

/-- A row: `undefined` where it has no such column. -/
abbrev Row := String → JsValue

/-- White space and line ends, for `String.prototype.trim`. -/
def isSpaceUnit (unit : ℕ) : Bool :=
  (9 ≤ unit && unit ≤ 13) || unit = 0x20 || unit = 0xA0 || unit = 0x1680 || (0x2000 ≤ unit && unit ≤ 0x200A) ||
    unit = 0x2028 || unit = 0x2029 || unit = 0x202F || unit = 0x205F || unit = 0x3000 || unit = 0xFEFF

/-- `String.prototype.trim`. -/
def trim (text : JsString) : JsString := ((text.dropWhile isSpaceUnit).reverse.dropWhile isSpaceUnit).reverse

/-- `Number` of a string. -/
abbrev NumberOf := JsString → Double

variable (numberOf : NumberOf)

/-- `toNumber`. -/
def toNumber : JsValue → Option ℚ
  | .number value => value.value?
  | .string text => if trim text = [] then none else (numberOf (trim text)).value?
  | _ => none

/-- How many rows have a value in a column. -/
def countOf (rows : List Row) (column : String) : ℕ := (rows.filter fun row => !(row column).nullish).length

/-- The numbers of a column. -/
def numbersOf (rows : List Row) (column : String) : List ℚ := rows.filterMap fun row => toNumber numberOf (row column)

/-- `aggregate`, without rounding. -/
def aggregate (rows : List Row) (column : String) : AllowedOp → Option ℚ
  | .count => some (countOf rows column)
  | .sum => some ((numbersOf numberOf rows column).foldl (· + ·) 0)
  | .avg =>
    if numbersOf numberOf rows column = [] then none
    else some ((numbersOf numberOf rows column).foldl (· + ·) 0 / (numbersOf numberOf rows column).length)
  | .min => (numbersOf numberOf rows column).min?
  | .max => (numbersOf numberOf rows column).max?

/-- `toLabel`; none is a `TypeError`. -/
def toLabel (value : JsValue) : Option JsString := if value.nullish then some [] else stringOf value

/-- The key of a group: the type of a value, a colon and its label. -/
def groupKey (x : JsValue) : Option JsString := (toLabel x).map fun label => x.typeof.name ++ js ":" ++ label

/-- `computeKpi`. -/
def computeKpi (kpi : KpiSpec) (columns : List String) (rows : List Row) : ComputedKpi :=
  match allowedOp kpi.op with
  | none =>
    ⟨kpi.label, kpi.op, kpi.column, false, none, some ("Unsupported operation \"" ++ kpi.op ++ "\".")⟩
  | some op =>
    if kpi.column ∉ columns then
      ⟨kpi.label, kpi.op, kpi.column, false, none, some ("Unknown column \"" ++ kpi.column ++ "\".")⟩
    else ⟨kpi.label, kpi.op, kpi.column, true, aggregate numberOf rows kpi.column op, none⟩

/-- The operations of a chart's series with their columns, or why there are none. -/
def checkSeries (columns : List String) : List SeriesSpec → Except String (List (String × AllowedOp))
  | [] => .ok []
  | spec :: specs =>
    match allowedOp spec.op with
    | none => .error ("Unsupported operation \"" ++ spec.op ++ "\".")
    | some op =>
      if spec.column ∉ columns then .error ("Unknown column \"" ++ spec.column ++ "\".")
      else (checkSeries columns specs).map ((spec.column, op) :: ·)

/-- The series, keyed by their positions. -/
def keyedSeries (series : List (String × AllowedOp)) : List ComputedSeries :=
  series.zipIdx.map fun entry => ⟨entry.1.1, entry.1.2, "series_" ++ toString entry.2⟩

/-- `computeChart`, the rows in their groups. -/
def groupRows (xColumn : String) (rows : List Row) : Option (List (Group JsString Row)) :=
  rows.foldlM (fun groups row => (groupKey (row xColumn)).map fun key => add key row groups) []

/-- `computeChart`, the point of a group's rows. The label is there: the key is made of it. -/
def pointOf (xColumn : String) (series : List ComputedSeries) (first : Row) (rows : List Row) : ComputedChartPoint where
  x := first xColumn
  xLabel := (toLabel (first xColumn)).getD []
  values := series.map fun spec => (spec.key, aggregate numberOf rows spec.column spec.op)

/-- What cannot be computed, and why. -/
def uncomputable (chart : ChartDef) (reason : String) : ComputedChart :=
  ⟨chart.type, chart.title, chart.xColumn, false, [], [], some reason⟩

/-- `computeChart`; none is a `TypeError`. -/
def computeChart (chart : ChartDef) (columns : List String) (rows : List Row) : Option ComputedChart :=
  if chart.xColumn ∉ columns then some (uncomputable chart ("Unknown group-by column \"" ++ chart.xColumn ++ "\"."))
  else
    match checkSeries columns chart.series with
    | .error reason => some (uncomputable chart reason)
    | .ok checked =>
      let series := keyedSeries checked
      (groupRows chart.xColumn rows).map fun groups =>
        ⟨chart.type, chart.title, chart.xColumn, true, series,
          groups.map fun group => pointOf numberOf chart.xColumn series group.first group.items, none⟩

/-! ## What a chart shows -/

/-- The rows of some positions. -/
def rowsAt (rows : List Row) (part : List (Fin rows.length)) : List Row := part.map rows.get

/-- The positions of the rows in parts, one for each value of a column. -/
structure Parts (xColumn : String) (rows : List Row) (parts : List (List (Fin rows.length))) : Prop where
  /-- Every row is in one part, once. -/
  whole : parts.flatten.Perm (List.finRange rows.length)
  /-- Each part has a row. -/
  nonempty : ∀ part ∈ parts, part ≠ []
  /-- Two rows share a part exactly when their values are equal. -/
  shared : ∀ part ∈ parts, ∀ i ∈ part, ∀ j, j ∈ part ↔ Same (rows.get i xColumn) (rows.get j xColumn)
  /-- The rows of a part are in their order. -/
  ordered : ∀ part ∈ parts, part.Pairwise (· < ·)
  /-- The parts are in the order in which their values are first seen. -/
  firstSeen : (parts.filterMap List.head?).Pairwise (· < ·)

/-- The points are those of the parts. -/
structure Grouped (xColumn : String) (series : List ComputedSeries) (rows : List Row) (data : List ComputedChartPoint) : Prop where
  /-- One point a part, of exactly its rows. -/
  points : ∃ parts, Parts xColumn rows parts ∧
    data = parts.map fun part => pointOf numberOf xColumn series ((rowsAt rows part).headD fun _ => .undefined) (rowsAt rows part)
  /-- The counts of the points are the count of all rows. -/
  counts : ∀ (k : ℕ) (spec : ComputedSeries), series[k]? = some spec → spec.op = .count →
    (data.map fun point => ((point.values[k]?).bind Prod.snd).getD 0).sum = countOf rows spec.column

/-- A chart whose columns exist and whose operations are allowed. -/
def Known (columns : List String) (chart : ChartDef) : Prop :=
  chart.xColumn ∈ columns ∧ ∀ spec ∈ chart.series, spec.column ∈ columns ∧ (allowedOp spec.op).isSome

/-- A known chart is grouped exactly, with its series in their order; another is marked and has no values. -/
def ChartExact (chart : ChartDef) (columns : List String) (rows : List Row) : Prop :=
  ∃ computed, computeChart numberOf chart columns rows = some computed ∧
    (Known columns chart → computed.computable = true ∧
      computed.series.map (fun spec => (spec.column, some spec.op)) = chart.series.map (fun spec => (spec.column, allowedOp spec.op)) ∧
      Grouped numberOf chart.xColumn computed.series rows computed.data) ∧
    (¬ Known columns chart → computed.computable = false ∧ computed.series = [] ∧ computed.data = [])

/-- A number of a known column and operation is their aggregate; another is marked and has no value. -/
def KpiExact (kpi : KpiSpec) (columns : List String) (rows : List Row) : Prop :=
  (∀ op, kpi.column ∈ columns → allowedOp kpi.op = some op → (computeKpi numberOf kpi columns rows).computable = true ∧
    (computeKpi numberOf kpi columns rows).value = aggregate numberOf rows kpi.column op) ∧
  (kpi.column ∉ columns ∨ allowedOp kpi.op = none → (computeKpi numberOf kpi columns rows).computable = false ∧
    (computeKpi numberOf kpi columns rows).value = none)

/-- Values that all have strings, and of which null, arrays and objects that are different have different ones. -/
structure Distinguishable (values : List JsValue) : Prop where
  /-- Nothing is an object with a member `toString`, or an array with one. -/
  readable : ∀ x ∈ values, toLabel x ≠ none
  /-- What is of the type `object` is told apart by its label. -/
  told : ∀ x ∈ values, ∀ y ∈ values, x.typeof = .object → y.typeof = .object → toLabel x = toLabel y → Same x y

/-! ## Keys -/

/-- The name of a type is what stands before the colon. -/
theorem cut_name (type : JsType) (label : JsString) : (type.name ++ 58 :: label).takeWhile (· ≠ 58) = type.name ∧
    (type.name ++ 58 :: label).dropWhile (· ≠ 58) = 58 :: label := by
  have hname : ∀ unit ∈ type.name, decide (unit ≠ 58) = true := by cases type <;> decide
  constructor
  · rw [List.takeWhile_append_of_pos hname, List.takeWhile_cons_of_neg (by simp), List.append_nil]
  · rw [List.dropWhile_append_of_pos hname, List.dropWhile_cons_of_neg (by simp)]

theorem Same.toLabel {x y : JsValue} (h : Same x y) : toLabel x = toLabel y := by
  rw [DashboardCharts.toLabel, DashboardCharts.toLabel, h.nullish, h.stringOf]

theorem Same.groupKey {x y : JsValue} (h : Same x y) : groupKey x = groupKey y := by
  rw [DashboardCharts.groupKey, DashboardCharts.groupKey, Same.toLabel h, h.typeof]

theorem name_inj {a b : JsType} (h : a.name = b.name) : a = b := by
  cases a <;> cases b <;> first | rfl | exact absurd h (by decide)

/-- Keys are the same where types and labels are. -/
theorem groupKey_inj {x y : JsValue} (h : groupKey x = groupKey y) (hx : toLabel x ≠ none) :
    x.typeof = y.typeof ∧ toLabel x = toLabel y := by
  obtain ⟨label, hlabel⟩ := Option.ne_none_iff_exists'.mp hx
  rw [groupKey, hlabel, Option.map_some, eq_comm, groupKey, Option.map_eq_some_iff] at h
  obtain ⟨other, hother, hkeys⟩ := h
  have hcolon : js ":" = [58] := by decide
  rw [hcolon, List.append_assoc, List.append_assoc, List.singleton_append, List.singleton_append] at hkeys
  have htypes := congrArg (List.takeWhile (· ≠ 58)) hkeys
  have hlabels := congrArg (List.dropWhile (· ≠ 58)) hkeys
  rw [(cut_name _ _).1, (cut_name _ _).1] at htypes
  rw [(cut_name _ _).2, (cut_name _ _).2] at hlabels
  rw [hlabel, hother, List.tail_eq_of_cons_eq hlabels]
  exact ⟨(name_inj htypes).symm, rfl⟩

/-- A value that is no object has its string for its label, or is `undefined`. -/
theorem same_of_label {x y : JsValue} (htype : x.typeof = y.typeof) (hplain : x.typeof ≠ .object)
    (hlabel : toLabel x = toLabel y) : Same x y := by
  have hnullish : ∀ value : JsValue, value.typeof ≠ .object → value.nullish = true → value = .undefined := by
    intro value hvalue hnull
    cases value <;> first | rfl | exact absurd rfl hvalue | cases hnull
  rw [toLabel, toLabel] at hlabel
  cases hx : x.nullish with
  | true =>
    rw [hnullish x hplain hx] at htype ⊢
    cases y <;> first | exact Same.refl _ | cases htype
  | false =>
    cases hy : y.nullish with
    | true =>
      rw [hnullish y (htype ▸ hplain) hy] at htype
      cases x <;> first | (cases hx; done) | cases htype
    | false =>
      rw [hx, hy] at hlabel
      exact same_of_string htype hplain hlabel

/-- Distinguishable values have one key exactly when they are equal. -/
theorem Distinguishable.groupKey_iff {values : List JsValue} (h : Distinguishable values) {x y : JsValue} (hx : x ∈ values)
    (hy : y ∈ values) : groupKey x = groupKey y ↔ Same x y := by
  constructor
  · intro hkey
    obtain ⟨htype, hlabel⟩ := groupKey_inj hkey (h.readable x hx)
    by_cases hobject : x.typeof = .object
    · exact h.told x hx y hy hobject (htype ▸ hobject) hlabel
    · exact same_of_label htype hobject hlabel
  · exact Same.groupKey

/-! ## Points -/

/-- The key of a value that has one. -/
def keyOf (x : JsValue) : JsString := (groupKey x).getD []

theorem keyOf_inj {x y : JsValue} (hx : toLabel x ≠ none) (hy : toLabel y ≠ none) : keyOf x = keyOf y ↔ groupKey x = groupKey y := by
  obtain ⟨label, hlabel⟩ := Option.ne_none_iff_exists'.mp hx
  obtain ⟨other, hother⟩ := Option.ne_none_iff_exists'.mp hy
  simp only [keyOf, groupKey, hlabel, hother, Option.map_some, Option.getD_some, Option.some.injEq]

/-- The rows are grouped by their keys, if all of them have one. -/
theorem groupRows_eq_some_iff {xColumn : String} {rows : List Row} {groups : List (Group JsString Row)} :
    groupRows xColumn rows = some groups ↔
      (∀ row ∈ rows, toLabel (row xColumn) ≠ none) ∧ groups = groupsOf (fun row => keyOf (row xColumn)) rows := by
  have hloop : ∀ (rows : List Row) (begun : List (Group JsString Row)),
      rows.foldlM (fun groups row => (groupKey (row xColumn)).map fun key => add key row groups) begun = some groups ↔
        (∀ row ∈ rows, toLabel (row xColumn) ≠ none) ∧
          groups = rows.foldl (fun groups row => add (keyOf (row xColumn)) row groups) begun := by
    intro rows
    induction rows with
    | nil =>
      intro begun
      simp [eq_comm]
    | cons row rows ih =>
      intro begun
      rw [List.foldlM_cons, List.foldl_cons]
      cases hlabel : toLabel (row xColumn) with
      | none => simp [groupKey, hlabel]
      | some label =>
        have hkey : groupKey (row xColumn) = some (keyOf (row xColumn)) := by simp [keyOf, groupKey, hlabel]
        rw [hkey, Option.map_some, Option.bind_eq_bind, Option.bind_some, ih]
        simp [hlabel]
  exact hloop rows []

section

variable {xColumn : String} {rows : List Row}

/-- The groups of the positions. -/
def positionGroups (xColumn : String) (rows : List Row) : List (Group JsString (Fin rows.length)) :=
  groupsOf (fun i => keyOf (rows.get i xColumn)) (List.finRange rows.length)

/-- The groups of the rows are those of their positions. -/
theorem groupsOf_rows : groupsOf (fun row => keyOf (row xColumn)) rows = (positionGroups xColumn rows).map (Group.map rows.get) := by
  conv_lhs => rw [← List.map_get_finRange rows]
  exact groupsOf_map rows.get _ _

/-- They are groups. -/
theorem groups_positionGroups : Groups (fun i => keyOf (rows.get i xColumn)) (List.finRange rows.length) (positionGroups xColumn rows) :=
  groups_groupsOf _ _

theorem head?_items {part : List (Fin rows.length)} (h : part ∈ (positionGroups xColumn rows).map Group.items) :
    part ≠ [] := by
  obtain ⟨group, hgroup, rfl⟩ := List.mem_map.mp h
  intro hnil
  have hfirst := groups_positionGroups.first_eq group hgroup
  rw [hnil] at hfirst
  cases hfirst

/-- With distinguishable values the positions' groups are parts. -/
theorem parts_positionGroups (h : Distinguishable (rows.map (· xColumn))) :
    Parts xColumn rows ((positionGroups xColumn rows).map Group.items) := by
  have hgroups : Groups (fun i => keyOf (rows.get i xColumn)) (List.finRange rows.length) (positionGroups xColumn rows) :=
    groups_positionGroups
  have hvalue : ∀ i, rows.get i xColumn ∈ rows.map (· xColumn) :=
    fun i => List.mem_map.mpr ⟨rows.get i, List.get_mem rows i, rfl⟩
  have hkey : ∀ i j, keyOf (rows.get i xColumn) = keyOf (rows.get j xColumn) ↔
      Same (rows.get i xColumn) (rows.get j xColumn) := by
    intro i j
    rw [keyOf_inj (h.readable _ (hvalue i)) (h.readable _ (hvalue j)), h.groupKey_iff (hvalue i) (hvalue j)]
  refine ⟨hgroups.perm, fun part hpart => head?_items hpart, ?_, ?_, ?_⟩
  · intro part hpart i hi j
    obtain ⟨group, hgroup, rfl⟩ := List.mem_map.mp hpart
    rw [hgroups.items_eq group hgroup, List.mem_filter] at hi ⊢
    have hown : keyOf (rows.get i xColumn) = group.key := by simpa using hi.2
    rw [← hkey, hown]
    simp [List.mem_finRange, eq_comm]
  · intro part hpart
    obtain ⟨group, hgroup, rfl⟩ := List.mem_map.mp hpart
    rw [hgroups.items_eq group hgroup]
    exact (List.pairwise_lt_finRange rows.length).filter _
  · rw [hgroups.heads]
    exact (List.pairwise_lt_finRange rows.length).sublist hgroups.ordered

/-- The points of the groups are those of their positions. -/
theorem points_positionGroups (series : List ComputedSeries) :
    (groupsOf (fun row => keyOf (row xColumn)) rows).map (fun group => pointOf numberOf xColumn series group.first group.items) =
      ((positionGroups xColumn rows).map Group.items).map fun part =>
        pointOf numberOf xColumn series ((rowsAt rows part).headD fun _ => .undefined) (rowsAt rows part) := by
  rw [groupsOf_rows, List.map_map, List.map_map]
  refine List.map_congr_left fun group hgroup => ?_
  have hfirst := groups_positionGroups.first_eq group hgroup
  have hhead : (rowsAt rows group.items).headD (fun _ => .undefined) = rows.get group.first := by
    rw [rowsAt, List.headD_eq_head?_getD, List.head?_map, hfirst]
    rfl
  simp only [Function.comp_apply, Group.map, hhead]
  rfl

/-- The counts of parts are the count of all rows. -/
theorem Parts.counts {parts : List (List (Fin rows.length))} (h : Parts xColumn rows parts) (column : String) :
    (parts.map fun part => countOf (rowsAt rows part) column).sum = countOf rows column := by
  have hcount : ∀ rows : List Row, countOf rows column = rows.countP fun row => !(row column).nullish :=
    fun rows => (List.countP_eq_length_filter).symm
  have hrows : (parts.map (rowsAt rows)).flatten.Perm rows := by
    have hmapped := h.whole.map rows.get
    rw [List.map_get_finRange, List.map_flatten] at hmapped
    exact hmapped
  rw [hcount, ← hrows.countP_eq, List.countP_flatten, List.map_map]
  exact congrArg List.sum (List.map_congr_left fun part _ => hcount _)

/-- The points of parts count what the rows count. -/
theorem grouped_of_parts {parts : List (List (Fin rows.length))} (h : Parts xColumn rows parts) (series : List ComputedSeries) :
    Grouped numberOf xColumn series rows (parts.map fun part =>
      pointOf numberOf xColumn series ((rowsAt rows part).headD fun _ => .undefined) (rowsAt rows part)) := by
  refine ⟨⟨parts, h, rfl⟩, ?_⟩
  intro k spec hspec hop
  rw [← h.counts, Nat.cast_list_sum, List.map_map, List.map_map]
  refine congrArg List.sum (List.map_congr_left fun part _ => ?_)
  simp [pointOf, hspec, hop, aggregate]

/-- Rows whose keys are the same are at one point; if the points are those of parts, their values are equal. -/
theorem told_of_grouped {series : List ComputedSeries}
    (h : Grouped numberOf xColumn series rows ((groupsOf (fun row => keyOf (row xColumn)) rows).map fun group =>
      pointOf numberOf xColumn series group.first group.items)) {i j : Fin rows.length}
    (hkey : keyOf (rows.get i xColumn) = keyOf (rows.get j xColumn)) : Same (rows.get i xColumn) (rows.get j xColumn) := by
  obtain ⟨parts, hparts, hdata⟩ := h.points
  have hgroups := groups_groupsOf (fun row => keyOf (row xColumn)) rows
  -- the values of the points have different keys
  have hkeys := congrArg (List.map fun point => keyOf point.x) hdata
  rw [List.map_map, List.map_map] at hkeys
  have hdistinct : (parts.map fun part => keyOf ((rowsAt rows part).headD (fun _ => .undefined) xColumn)).Nodup := by
    have hfirsts : (groupsOf (fun row => keyOf (row xColumn)) rows).map
        ((fun point => keyOf point.x) ∘ fun group => pointOf numberOf xColumn series group.first group.items) =
          (groupsOf (fun row => keyOf (row xColumn)) rows).map Group.key :=
      List.map_congr_left fun group hgroup => hgroups.key_first hgroup
    rw [hfirsts] at hkeys
    exact hkeys ▸ hgroups.distinct
  have hpart : ∀ i, ∃ part ∈ parts, i ∈ part ∧
      keyOf ((rowsAt rows part).headD (fun _ => .undefined) xColumn) = keyOf (rows.get i xColumn) := by
    intro i
    obtain ⟨part, hpart, hi⟩ := List.mem_flatten.mp (hparts.whole.mem_iff.mpr (List.mem_finRange i))
    refine ⟨part, hpart, hi, ?_⟩
    cases part with
    | nil => exact absurd rfl (hparts.nonempty _ hpart)
    | cons first rest =>
      have hsame := (hparts.shared _ hpart first List.mem_cons_self i).mp hi
      exact congrArg (Option.getD · []) (Same.groupKey hsame)
  obtain ⟨part, hpi, hi, hki⟩ := hpart i
  obtain ⟨other, hpj, hj, hkj⟩ := hpart j
  have hone : part = other := List.inj_on_of_nodup_map hdistinct hpi hpj (hki.trans (hkey.trans hkj.symm))
  exact (hparts.shared _ hpi i hi j).mp (hone ▸ hj)

end

/-! ## Charts -/

variable {numberOf} {columns : List String} {rows : List Row} {chart : ChartDef}

/-- Series of known columns and operations are checked as they are. -/
theorem checkSeries_ok {specs : List SeriesSpec} (h : ∀ spec ∈ specs, spec.column ∈ columns ∧ (allowedOp spec.op).isSome) :
    ∃ checked, checkSeries columns specs = .ok checked ∧
      checked.map (fun entry => (entry.1, some entry.2)) = specs.map fun spec => (spec.column, allowedOp spec.op) := by
  induction specs with
  | nil => exact ⟨[], rfl, rfl⟩
  | cons spec specs ih =>
    obtain ⟨checked, hchecked, hsame⟩ := ih fun other hother => h other (List.mem_cons_of_mem _ hother)
    obtain ⟨hcolumn, hop⟩ := h spec List.mem_cons_self
    obtain ⟨op, hop⟩ := Option.isSome_iff_exists.mp hop
    refine ⟨(spec.column, op) :: checked, ?_, ?_⟩
    · rw [checkSeries, hop]
      dsimp only
      rw [if_neg (not_not.mpr hcolumn), hchecked]
      rfl
    · rw [List.map_cons, List.map_cons, hsame, hop]

/-- Others give a reason. -/
theorem checkSeries_error {specs : List SeriesSpec}
    (h : ¬ ∀ spec ∈ specs, spec.column ∈ columns ∧ (allowedOp spec.op).isSome) :
    ∃ reason, checkSeries columns specs = .error reason := by
  induction specs with
  | nil => exact absurd (fun spec hspec => absurd hspec List.not_mem_nil) h
  | cons spec specs ih =>
    rw [checkSeries]
    cases hop : allowedOp spec.op with
    | none => exact ⟨_, rfl⟩
    | some op =>
      by_cases hcolumn : spec.column ∈ columns
      · have hrest : ¬ ∀ other ∈ specs, other.column ∈ columns ∧ (allowedOp other.op).isSome := by
          intro hall
          refine h fun other hother => ?_
          cases List.mem_cons.mp hother with
          | inl hsame => exact hsame ▸ ⟨hcolumn, by simp [hop]⟩
          | inr hlater => exact hall other hlater
        obtain ⟨reason, hreason⟩ := ih hrest
        dsimp only
        rw [if_neg (not_not.mpr hcolumn), hreason]
        exact ⟨reason, rfl⟩
      · exact ⟨_, if_pos hcolumn⟩

theorem map_keyedSeries (checked : List (String × AllowedOp)) :
    (keyedSeries checked).map (fun spec => (spec.column, some spec.op)) = checked.map fun entry => (entry.1, some entry.2) := by
  have hpairs : checked.zipIdx.map Prod.fst = checked := List.zipIdx_map_fst 0 checked
  conv_rhs => rw [← hpairs]
  rw [keyedSeries, List.map_map, List.map_map]
  rfl

/-- A chart that is not known is marked. -/
theorem computeChart_unknown (h : ¬ Known columns chart) :
    ∃ reason, computeChart numberOf chart columns rows = some (uncomputable chart reason) := by
  unfold computeChart
  by_cases hcolumn : chart.xColumn ∈ columns
  · rw [if_neg (not_not.mpr hcolumn)]
    obtain ⟨reason, hreason⟩ := checkSeries_error fun hall => h ⟨hcolumn, hall⟩
    rw [hreason]
    exact ⟨reason, rfl⟩
  · exact ⟨_, if_pos hcolumn⟩

/-- A chart is exact exactly when the values of its column are distinguishable, if it is known. -/
theorem chartExact_iff :
    ChartExact numberOf chart columns rows ↔ (Known columns chart → Distinguishable (rows.map (· chart.xColumn))) := by
  by_cases hknown : Known columns chart
  · obtain ⟨checked, hchecked, hsame⟩ := checkSeries_ok hknown.2
    have hcompute : computeChart numberOf chart columns rows = (groupRows chart.xColumn rows).map fun groups =>
        ⟨chart.type, chart.title, chart.xColumn, true, keyedSeries checked,
          groups.map fun group => pointOf numberOf chart.xColumn (keyedSeries checked) group.first group.items, none⟩ := by
      rw [computeChart, if_neg (not_not.mpr hknown.1), hchecked]
    rw [forall_prop_of_true hknown]
    constructor
    · rintro ⟨computed, hcomputed, hexact, -⟩
      rw [hcompute, Option.map_eq_some_iff] at hcomputed
      obtain ⟨groups, hgroups, hcomputed⟩ := hcomputed
      obtain ⟨hreadable, hgroups⟩ := groupRows_eq_some_iff.mp hgroups
      obtain ⟨-, -, hgrouped⟩ := hexact hknown
      rw [← hcomputed, hgroups] at hgrouped
      have hat : ∀ x ∈ rows.map (· chart.xColumn), ∃ i, rows.get i chart.xColumn = x := by
        intro x hx
        obtain ⟨row, hrow, rfl⟩ := List.mem_map.mp hx
        obtain ⟨i, rfl⟩ := List.mem_iff_get.mp hrow
        exact ⟨i, rfl⟩
      constructor
      · intro x hx
        obtain ⟨row, hrow, rfl⟩ := List.mem_map.mp hx
        exact hreadable row hrow
      · intro x hx y hy hxobject hyobject hlabel
        obtain ⟨i, rfl⟩ := hat x hx
        obtain ⟨j, rfl⟩ := hat y hy
        refine told_of_grouped numberOf hgrouped ?_
        simp only [keyOf, groupKey, hlabel, hxobject, hyobject]
    · intro h
      have hreadable : ∀ row ∈ rows, toLabel (row chart.xColumn) ≠ none :=
        fun row hrow => h.readable _ (List.mem_map_of_mem hrow)
      rw [ChartExact, hcompute, groupRows_eq_some_iff.mpr ⟨hreadable, rfl⟩]
      refine ⟨_, rfl, fun _ => ⟨rfl, ?_, ?_⟩, fun hno => absurd hknown hno⟩
      · rw [map_keyedSeries, hsame]
      · dsimp only
        rw [points_positionGroups]
        exact grouped_of_parts numberOf (parts_positionGroups h) _
  · have hrefused : ∃ reason, computeChart numberOf chart columns rows = some (uncomputable chart reason) :=
      computeChart_unknown hknown
    obtain ⟨reason, hreason⟩ := hrefused
    exact iff_of_true ⟨_, hreason, fun h => absurd h hknown, fun _ => ⟨rfl, rfl, rfl⟩⟩ fun h => absurd h hknown

theorem kpiExact (kpi : KpiSpec) : KpiExact numberOf kpi columns rows := by
  unfold KpiExact computeKpi
  constructor
  · intro op hcolumn hop
    rw [hop]
    simp [hcolumn]
  · intro h
    cases hop : allowedOp kpi.op with
    | none => exact ⟨rfl, rfl⟩
    | some op =>
      have hcolumn : kpi.column ∉ columns := by simpa [hop] using h
      simp [hcolumn]

/-- A chart and a number are computed exactly from the rows exactly when the values of the
chart's column are distinguishable, if the chart is known. -/
theorem dashboard_exact_iff (numberOf : NumberOf) (columns : List String) (rows : List Row) (chart : ChartDef) (kpi : KpiSpec) :
    (ChartExact numberOf chart columns rows ∧ KpiExact numberOf kpi columns rows) ↔
      (Known columns chart → Distinguishable (rows.map (· chart.xColumn))) := by
  rw [and_iff_left (kpiExact kpi), chartExact_iff]

/-- Two rows with different objects. -/
def addressRows : List Row :=
  [fun _ => .object [(js "city", .string (js "Oslo"))], fun _ => .object [(js "city", .string (js "Bergen"))]]

/-- How many rows there are for each address. -/
def addressChart : ChartDef := ⟨.bar, "Orders", "address", [⟨"address", "count"⟩]⟩

/-- They are at one point. -/
theorem addresses_merged :
    ((computeChart (fun _ => .nan) addressChart ["address"] addressRows).map fun computed => computed.data.length) = some 1 ∧
      ¬ ChartExact (fun _ => .nan) addressChart ["address"] addressRows := by
  refine ⟨by decide +kernel, fun h => ?_⟩
  have hknown : Known ["address"] addressChart := by
    refine ⟨List.mem_singleton.mpr rfl, fun spec hspec => ?_⟩
    rw [List.mem_singleton.mp hspec]
    exact ⟨List.mem_singleton.mpr rfl, by decide⟩
  have htold := (chartExact_iff.mp h hknown).told _ List.mem_cons_self _ (List.mem_cons_of_mem _ List.mem_cons_self)
    rfl rfl (by decide +kernel)
  have hdifferent : js "Oslo" ≠ js "Bergen" := by decide +kernel
  simp only [Same, canonical, canonicalMembers, List.mergeSort_singleton, JsValue.object.injEq, List.cons.injEq,
    Prod.mk.injEq, JsValue.string.injEq] at htold
  exact hdifferent htold.1.2

end RagSystem.DashboardCharts
