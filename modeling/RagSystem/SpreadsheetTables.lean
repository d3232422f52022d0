import RagSystem.MarkdownTables

/-!
# Spreadsheets as tables

An uploaded spreadsheet becomes a markdown table: its first row is the header, and the
other rows are cut or padded to the header's width.
-/

namespace RagSystem.SpreadsheetTables

open MarkdownTables

set_option autoImplicit false

attribute [local instance (2000)] List.decidableBAll

/-- A cell: the string of its value, or `None`. -/
abbrev Cell := Option Text

/-- `str(cell) if cell is not None else ""`. -/
def cellText (cell : Cell) : Text := cell.getD []

/-- `_rows_to_markdown_table`. -/
def rowsToMarkdownTable : List (List Cell) → Text
  | [] => []
  | header :: rows =>
    List.intercalate ['\n'] (writtenRow (header.map cellText) :: writtenRow (List.replicate header.length "---".toList) ::
      rows.map fun row => writtenRow (fitted header.length (row.map cellText)))

/-- `_parse_csv`, of the rows that the reader of the file returns. -/
def parseCsv (rows : List (List Text)) : Text :=
  if rows = [] then "*(Empty CSV)*".toList else rowsToMarkdownTable (rows.map fun row => row.map some)

/-! ## Rows of one width -/

theorem length_fitted (width : ℕ) (cells : List Text) : (fitted width cells).length = width := by
  rw [fitted, List.length_take, List.length_append, List.length_replicate]
  omega

/-- A row of the width stays as it is. -/
theorem fitted_fitted (width : ℕ) (cells : List Text) : fitted width (fitted width cells) = fitted width cells := by
  rw [fitted, List.take_left' (length_fitted width cells)]

/-- What keeps the blank cell can be done before or after. -/
theorem map_fitted {f : Text → Text} (hf : f [] = []) (width : ℕ) (cells : List Text) :
    (fitted width cells).map f = fitted width (cells.map f) := by
  rw [fitted, fitted, List.map_take, List.map_append, List.map_replicate, hf]

/-- A row has the cells it keeps, and blank ones. -/
theorem mem_fitted {width : ℕ} {cells : List Text} {cell : Text} (h : cell ∈ fitted width cells) :
    cell ∈ cells.take width ∨ cell = [] := by
  rw [fitted, List.take_append, List.mem_append] at h
  cases h with
  | inl hkept => exact Or.inl hkept
  | inr hblank => exact Or.inr (List.eq_of_mem_replicate (List.mem_of_mem_take hblank))

theorem cellText_some (row : List Text) : (row.map some).map cellText = row := by
  rw [List.map_map]
  exact List.map_id row

/-! ## Reading the table -/

section

variable {header : List Text} {rows : List (List Text)}

/-- The table of an upload with a header. -/
theorem parseCsv_cons (header : List Text) (rows : List (List Text)) :
    parseCsv (header :: rows) =
      List.intercalate ['\n'] (writtenRow header :: writtenRow (dashes header.length) ::
        (rows.map (fitted header.length)).map writtenRow) := by
  rw [parseCsv, if_neg (List.cons_ne_nil _ _), List.map_cons, rowsToMarkdownTable, cellText_some, List.length_map, dashes,
    List.map_map, List.map_map]
  refine congrArg (fun lines => List.intercalate ['\n'] (_ :: _ :: lines)) (List.map_congr_left fun row _ => ?_)
  rw [Function.comp_apply, Function.comp_apply, cellText_some]

/-- The rows that are written can be written in a table. -/
theorem fitted_writable (hheader : header ≠ []) (hrows : ∀ row ∈ rows, ∀ cell ∈ row.take header.length, Plain cell) :
    ∀ row ∈ rows.map (fitted header.length), row ≠ [] ∧ ∀ cell ∈ row, Plain cell := by
  intro fit hfit
  obtain ⟨row, hrow, rfl⟩ := List.mem_map.mp hfit
  constructor
  · intro hnil
    have hlength := length_fitted header.length row
    rw [hnil, List.length_nil] at hlength
    exact hheader (List.length_eq_zero_iff.mp hlength.symm)
  · intro cell hcell
    cases mem_fitted hcell with
    | inl hkept => exact hrows row hrow cell hkept
    | inr hblank => exact hblank ▸ fun c hc => absurd hc List.not_mem_nil

/-- An upload with a header whose kept cells have no pipes and line ends is read back
from its table: every row has one line, and the cells that the header's width keeps,
without the blanks around them. -/
theorem csv_table_read_back (hheader : header ≠ []) (hplain : ∀ cell ∈ header, Plain cell)
    (hrows : ∀ row ∈ rows, ∀ cell ∈ row.take header.length, Plain cell) :
    readTable (parseCsv (header :: rows)) =
        some ⟨header.map trimmed, rows.map fun row => fitted header.length (row.map trimmed)⟩ ∧
      readLines (parseCsv (header :: rows)) =
        writtenRow header :: writtenRow (dashes header.length) :: rows.map fun row => writtenRow (fitted header.length row) := by
  have hblank : trimmed [] = [] := rfl
  rw [parseCsv_cons]
  constructor
  · rw [readTable_written hheader hplain (fitted_writable hheader hrows), List.map_map]
    refine congrArg (fun rows => some (Table.mk _ rows)) (List.map_congr_left fun row _ => ?_)
    rw [Function.comp_apply, map_fitted hblank, fitted_fitted]
  · rw [readLines_written hplain (fitted_writable hheader hrows), List.map_map]
    rfl

/-- A row longer than the header, and one shorter. -/
theorem csv_table_read_back_sample :
    readTable (parseCsv [["name".toList, "born".toList], ["Ada".toList, "1815".toList, "London".toList], ["Alan".toList]]) =
        some ⟨["name".toList, "born".toList], [["Ada".toList, "1815".toList], ["Alan".toList, []]]⟩ :=
  (csv_table_read_back (by decide) (by unfold Plain; decide) (by unfold Plain; decide)).1

/-- A row longer than the header has the table of the row cut. -/
theorem long_row_cut :
    parseCsv [["name".toList], ["Ada".toList, "1815".toList]] = parseCsv [["name".toList], ["Ada".toList]] ∧
      readTable (parseCsv [["name".toList], ["Ada".toList, "1815".toList]]) = some ⟨["name".toList], [["Ada".toList]]⟩ := by
  decide +kernel

end

end RagSystem.SpreadsheetTables
