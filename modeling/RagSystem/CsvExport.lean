import RagSystem.CsvRecords

/-!
# The CSV export of a result set

Strings are sequences of UTF-16 code units. A cell is looked up by its column's
name and rendered; a field with a comma, a quote or a line break in it is written
in quotes. Reading the records back gives the header and the cells of every row,
for any result set that has a column.
-/

namespace RagSystem.CsvExport

open CsvRecords

set_option autoImplicit false

/-- A string: its code units. -/
abbrev JsString := List UInt16

/-- A cell. What `String(...)` makes of values other than strings is a part of them here. -/
inductive Cell where
  /-- The row has no such key. -/
  | undefined
  /-- `null`. -/
  | null
  /-- A string. -/
  | string (text : JsString)
  /-- Any other value, by its string. -/
  | other (rendered : JsString)
  deriving DecidableEq

/-- `ResultSet`, what is exported of it. -/
structure ResultSet where
  /-- The columns, in displayed order. -/
  columns : List JsString
  /-- The rows, keyed by column. -/
  rows : List (List (JsString × Cell))

/-- `row[column]`; a property that a row inherits, such as `constructor`, is left out. -/
def cellOf (row : List (JsString × Cell)) (column : JsString) : Cell := (row.lookup column).getD .undefined

/-- The comma, the quote and the line break. -/
def rfc4180 : Delimiters UInt16 where
  quote := 34
  comma := 44
  carriageReturn := 13
  lineFeed := 10
  distinct := by decide

/-- `RECORD_SEPARATOR`. -/
def recordSeparator : JsString := [13, 10]

/-- `FIELD_SEPARATOR`. -/
def fieldSeparator : JsString := [44]

/-- `MUST_QUOTE`, tested. -/
def mustQuote (value : JsString) : Bool := value.any fun c => c == 34 || c == 44 || c == 13 || c == 10

/-- `escapeField`. -/
def escapeField (value : JsString) : JsString :=
  if mustQuote value then 34 :: (value.flatMap (fun c => if c = 34 then [34, 34] else [c]) ++ [34]) else value

/-- `cellToString`. -/
def cellToString : Cell → JsString
  | .undefined => []
  | .null => []
  | .string text => text
  | .other rendered => rendered

/-- `toCsv`. -/
def toCsv (result : ResultSet) : JsString :=
  let headerRecord := join fieldSeparator (result.columns.map escapeField)
  let dataRecords := result.rows.map fun row =>
    join fieldSeparator (result.columns.map fun column => escapeField (cellToString (cellOf row column)))
  join recordSeparator (headerRecord :: dataRecords)

/-! ## Reading it back -/

/-- The regular expression finds every delimiter. -/
theorem bare_of_not_mustQuote {value : JsString} (h : mustQuote value = false) : Bare rfc4180 value := by
  intro c hc
  have hnone := List.any_eq_false.mp h c hc
  simp only [Bool.or_eq_true, beq_iff_eq, not_or] at hnone
  exact ⟨hnone.1.1.1, hnone.1.1.2, hnone.1.2, hnone.2⟩

/-- The replacement doubles the quotes. -/
theorem flatMap_doubled (value : JsString) :
    value.flatMap (fun c => if c = 34 then [34, 34] else [c]) = doubled rfc4180 value := by
  induction value with
  | nil => rfl
  | cons c value ih =>
    rw [List.flatMap_cons, ih, doubled]
    have hquote : rfc4180.quote = 34 := rfl
    rw [hquote]
    split <;> rfl

/-- An escaped field is read as its value. -/
theorem readsBack_escapeField : ReadsBack rfc4180 escapeField := by
  intro value records record
  cases hquote : mustQuote value with
  | false =>
    obtain ⟨last, hscan, hlast⟩ :=
      scan_bare records record (bare_of_not_mustQuote hquote) .start [] (Or.inl rfl)
    have hplain : escapeField value = value := by simp [escapeField, hquote]
    rw [hplain]
    exact ⟨_, hscan, hlast.imp_right Or.inl, rfl, rfl, rfl⟩
  | true =>
    have hquoted : escapeField value = rfc4180.quote :: (doubled rfc4180 value ++ [rfc4180.quote]) := by
      simp only [escapeField, hquote, if_true, flatMap_doubled]
      rfl
    rw [hquoted]
    exact ⟨_, scan_quoted value, Or.inr (Or.inr rfl), rfl, rfl, rfl⟩

/-- An export is the written table of the header and the rendered rows. -/
theorem toCsv_eq (result : ResultSet) :
    toCsv result = join [rfc4180.carriageReturn, rfc4180.lineFeed]
      ((result.columns :: result.rows.map fun row => result.columns.map fun column => cellToString (cellOf row column)).map
        fun record => join [rfc4180.comma] (record.map escapeField)) := by
  simp only [toCsv, List.map_cons, List.map_map, Function.comp_def]
  rfl

/-- Whatever the cells are, the export is read as the header and what they are rendered as. -/
theorem parse_toCsv_rendered (result : ResultSet) (hcolumns : result.columns ≠ []) :
    parse rfc4180 (toCsv result) =
      some (result.columns :: result.rows.map fun row => result.columns.map fun column => cellToString (cellOf row column)) := by
  rw [toCsv_eq]
  refine parse_written readsBack_escapeField _ (List.cons_ne_nil _ _) fun record hrecord => ?_
  cases List.mem_cons.mp hrecord with
  | inl hheader => rw [hheader]; exact hcolumns
  | inr hrow =>
    obtain ⟨row, -, hrow⟩ := List.mem_map.mp hrow
    rw [← hrow]
    exact fun hnil => hcolumns (List.map_eq_nil_iff.mp hnil)

/-- A result set with a column whose cells are strings is exported as a text that is
read as the header and then the cells of every row, in the order of the columns. -/
theorem csv_read_back (result : ResultSet) (hcolumns : result.columns ≠ [])
    (cells : List (JsString × Cell) → JsString → JsString)
    (hcells : ∀ row ∈ result.rows, ∀ column ∈ result.columns, cellOf row column = .string (cells row column)) :
    parse rfc4180 (toCsv result) =
      some (result.columns :: result.rows.map fun row => result.columns.map fun column => cells row column) := by
  have hrows : (result.rows.map fun row => result.columns.map fun column => cellToString (cellOf row column)) =
      result.rows.map fun row => result.columns.map fun column => cells row column := by
    refine List.map_congr_left fun row hrow => List.map_congr_left fun column hcolumn => ?_
    rw [hcells row hrow column hcolumn]
    rfl
  rw [parse_toCsv_rendered result hcolumns, hrows]

/-- A column with a comma in its name, and a cell with quotes and line breaks. -/
def quotedResult : ResultSet where
  columns := [[97, 44], [98]]
  rows := [[([97, 44], .string [34, 13, 10, 34]), ([98], .string [])]]

theorem csv_read_back_sample :
    parse rfc4180 (toCsv quotedResult) = some (quotedResult.columns :: quotedResult.rows.map fun row =>
      quotedResult.columns.map fun column => cellToString (cellOf row column)) :=
  csv_read_back quotedResult (by decide) (fun row column => cellToString (cellOf row column)) (by decide)

end RagSystem.CsvExport
