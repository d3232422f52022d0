import Mathlib.Data.List.DropRight

/-!
# Tables of markdown

A reader of tables: a line of cells between pipes, a line of dashes with as many
cells, and rows up to a blank line, which are cut or padded to the width of the
first. White space around a cell is not part of it, and a pipe with a backslash
before it is no boundary. What stands in cells without pipes and line ends is read
back from lines that put a space on either side of it.
-/

namespace RagSystem.MarkdownTables

set_option autoImplicit false

attribute [local instance (2000)] List.decidableBAll

/-- A text. -/
abbrev Text := List Char

/-- A space or a tab. -/
def isBlank (c : Char) : Bool := c = ' ' || c = '\t'

/-- A line ends. -/
def isLineEnd (c : Char) : Bool := c = '\n' || c = '\r'

/-- A text without blanks around it. -/
def trimmed (text : Text) : Text := (text.dropWhile isBlank).rdropWhile isBlank

/-- A character more, at the front of the first line. -/
def onFirst (c : Char) : List Text → List Text
  | [] => [[c]]
  | line :: lines => (c :: line) :: lines

/-- The lines of a text. -/
@[grind =] def readLines : Text → List Text
  | [] => [[]]
  | '\r' :: '\n' :: text => [] :: readLines text
  | c :: text => if isLineEnd c then [] :: readLines text else onFirst c (readLines text)

/-- The text up to the first boundary, and the texts after. -/
@[grind =] def splitCells : Text → Text × List Text
  | [] => ([], [])
  | '\\' :: '|' :: text => ('|' :: (splitCells text).1, (splitCells text).2)
  | c :: text =>
    if c = '|' then ([], (splitCells text).1 :: (splitCells text).2) else (c :: (splitCells text).1, (splitCells text).2)

/-- What stands before the first cell. -/
def withoutLead : Text → Text
  | '|' :: text => text
  | text => text

/-- The cells of a line; the boundaries on its ends are no cells. -/
def readRow (line : Text) : List Text :=
  let split := splitCells (withoutLead (trimmed line))
  let cells := split.1 :: split.2
  (if cells.getLast? = some [] then cells.dropLast else cells).map trimmed

/-- Without a colon on either end. -/
def withoutColons (cell : Text) : Text :=
  let text := if cell.head? = some ':' then cell.tail else cell
  if text.getLast? = some ':' then text.dropLast else text

/-- A cell of the line of dashes. -/
def isDelimiter (cell : Text) : Bool := withoutColons cell ≠ [] && (withoutColons cell).all (· = '-')

/-- A row cut or padded to a width. -/
def fitted (width : ℕ) (cells : List Text) : List Text := (cells ++ List.replicate width []).take width

/-- A table. -/
structure Table where
  /-- The cells of its header. -/
  header : List Text
  /-- The cells of its rows. -/
  rows : List (List Text)
  deriving DecidableEq

/-- The table that a text begins with. -/
def readTable (text : Text) : Option Table :=
  match readLines text with
  | first :: second :: lines =>
    let header := readRow first
    if header.length = (readRow second).length ∧ (readRow second).all isDelimiter then
      some ⟨header, (lines.takeWhile fun line => trimmed line ≠ []).map fun line => fitted header.length (readRow line)⟩
    else none
  | _ => none

/-! ## Texts that are written -/

/-- A text for a cell, without pipes and line ends. -/
def Plain (text : Text) : Prop := ∀ c ∈ text, c ≠ '|' ∧ isLineEnd c = false

/-- A line of cells: a space on either side of each, pipes between them and around. -/
def writtenRow (cells : List Text) : Text := "| ".toList ++ List.intercalate " | ".toList cells ++ " |".toList

/-- A line without line ends is read to its end. -/
theorem readLines_line {line : Text} (h : ∀ c ∈ line, isLineEnd c = false) (rest : Text) :
    readLines (line ++ '\n' :: rest) = line :: readLines rest ∧ readLines line = [line] := by
  induction line with
  | nil => exact ⟨rfl, rfl⟩
  | cons c line ih =>
    have hc := h c List.mem_cons_self
    have hcr : c ≠ '\r' := by
      rintro rfl
      exact absurd hc (by decide)
    obtain ⟨hbefore, halone⟩ := ih fun d hd => h d (List.mem_cons_of_mem _ hd)
    constructor
    · rw [List.cons_append, readLines.eq_3 _ _ (fun _ he => absurd he hcr), if_neg (by simp [hc]), hbefore]
      rfl
    · rw [readLines.eq_3 _ _ (fun _ he => absurd he hcr), if_neg (by simp [hc]), halone]
      rfl

/-- Lines without line ends, joined by line ends, are read back. -/
theorem readLines_intercalate {lines : List Text} (hne : lines ≠ []) (h : ∀ line ∈ lines, ∀ c ∈ line, isLineEnd c = false) :
    readLines (List.intercalate ['\n'] lines) = lines := by
  induction lines with
  | nil => exact absurd rfl hne
  | cons line lines ih =>
    have hline := h line List.mem_cons_self
    cases lines with
    | nil => simpa [List.intercalate] using (readLines_line hline []).2
    | cons next lines =>
      have hrest := ih (List.cons_ne_nil _ _) fun other hother => h other (List.mem_cons_of_mem _ hother)
      rw [List.intercalate_cons_cons, List.append_assoc, List.singleton_append, (readLines_line hline _).1, hrest]

/-- What is neither a pipe nor a backslash before one is part of its cell. -/
theorem splitCells_cons {c : Char} {text : Text} (hpipe : c ≠ '|') (hnext : text.head? ≠ some '|') :
    splitCells (c :: text) = (c :: (splitCells text).1, (splitCells text).2) := by
  have hescape : ∀ rest, c = '\\' → text = '|' :: rest → False := by
    intro rest _ htext
    rw [htext] at hnext
    exact hnext rfl
  rw [splitCells.eq_3 _ _ hescape, if_neg hpipe]

theorem splitCells_pipe (text : Text) : splitCells ('|' :: text) = ([], (splitCells text).1 :: (splitCells text).2) := by
  rw [splitCells.eq_3 _ _ (fun _ h => absurd h (by decide)), if_pos rfl]

/-- A cell is split off at the pipe after it, if a space stands before the pipe. -/
theorem splitCells_cell {cell : Text} (h : Plain cell) (rest : Text) :
    splitCells (cell ++ ' ' :: '|' :: rest) = (cell ++ [' '], (splitCells rest).1 :: (splitCells rest).2) := by
  induction cell with
  | nil =>
    have hspace : splitCells (' ' :: '|' :: rest) = (' ' :: (splitCells ('|' :: rest)).1, (splitCells ('|' :: rest)).2) := by
      rw [splitCells.eq_3 _ _ (fun _ h => absurd h (by decide)), if_neg (by decide)]
    rw [List.nil_append, hspace, splitCells_pipe]
    rfl
  | cons c cell ih =>
    have hnext : (cell ++ ' ' :: '|' :: rest).head? ≠ some '|' := by
      cases cell with
      | nil => simp
      | cons d cell =>
        have hd := (h d (by simp)).1
        simpa using hd
    rw [List.cons_append, splitCells_cons (h c List.mem_cons_self).1 hnext, ih fun d hd => h d (List.mem_cons_of_mem _ hd)]
    rfl

/-- A cell with a space on either side. -/
def padded (cell : Text) : Text := ' ' :: (cell ++ [' '])

theorem splitCells_padded {cell : Text} (h : Plain cell) (rest : Text) :
    splitCells (' ' :: (cell ++ ' ' :: '|' :: rest)) = (padded cell, (splitCells rest).1 :: (splitCells rest).2) := by
  have hnext : (cell ++ ' ' :: '|' :: rest).head? ≠ some '|' := by
    cases cell with
    | nil => simp
    | cons c cell =>
      have hc := (h c List.mem_cons_self).1
      simpa using hc
  rw [splitCells_cons (by decide) hnext, splitCells_cell h]
  rfl

/-- The cells of a written row are split where they were joined. -/
theorem splitCells_cells {cells : List Text} {cell : Text} (hcell : Plain cell) (hcells : ∀ cell ∈ cells, Plain cell) :
    splitCells (' ' :: (List.intercalate " | ".toList (cell :: cells) ++ " |".toList)) = (padded cell, cells.map padded ++ [[]]) := by
  have hclose : " |".toList = [' ', '|'] := by decide
  have hjoin : " | ".toList = [' ', '|', ' '] := by decide
  rw [hclose, hjoin]
  induction cells generalizing cell with
  | nil => rw [List.intercalate_singleton, splitCells_padded hcell, splitCells]; rfl
  | cons next cells ih =>
    have hnext := ih (hcells next List.mem_cons_self) fun other hother => hcells other (List.mem_cons_of_mem _ hother)
    rw [List.intercalate_cons_cons, List.append_assoc, List.append_assoc, List.cons_append, List.cons_append, List.cons_append,
      List.nil_append, splitCells_padded hcell, hnext]
    rfl

/-- Spaces around a cell are no part of it. -/
theorem trimmed_padded (cell : Text) : trimmed (padded cell) = trimmed cell := by
  have hspace : isBlank ' ' = true := by decide
  rw [trimmed, trimmed, padded, List.dropWhile_cons_of_pos hspace, List.dropWhile_append]
  split
  · next hblank =>
    rw [List.isEmpty_iff.mp hblank]
    decide
  · rw [List.rdropWhile_concat_pos _ _ _ hspace]

/-- A written row has no blanks around it. -/
theorem trimmed_writtenRow (cells : List Text) : trimmed (writtenRow cells) = writtenRow cells := by
  have hpipe : isBlank '|' = false := by decide
  have hfront : writtenRow cells = '|' :: (' ' :: List.intercalate " | ".toList cells ++ " |".toList) := rfl
  have hback : writtenRow cells = "| ".toList ++ List.intercalate " | ".toList cells ++ [' '] ++ ['|'] := by
    rw [writtenRow, List.append_assoc _ [' '] ['|']]
    rfl
  have hdrop : (writtenRow cells).dropWhile isBlank = writtenRow cells := by
    rw [hfront, List.dropWhile_cons_of_neg (by simp [hpipe])]
  rw [trimmed, hdrop, hback, List.rdropWhile_concat_neg _ _ _ (by simp [hpipe])]

/-- The cells of a written row are read back, without the blanks around them. -/
theorem readRow_writtenRow {cells : List Text} (hne : cells ≠ []) (h : ∀ cell ∈ cells, Plain cell) :
    readRow (writtenRow cells) = cells.map trimmed := by
  cases cells with
  | nil => exact absurd rfl hne
  | cons cell cells =>
    have hlead : withoutLead (writtenRow (cell :: cells)) =
        ' ' :: (List.intercalate " | ".toList (cell :: cells) ++ " |".toList) := rfl
    have hsplit := splitCells_cells (h cell List.mem_cons_self) fun other hother => h other (List.mem_cons_of_mem _ hother)
    have hlast : padded cell :: (cells.map padded ++ [[]]) = (padded cell :: cells.map padded) ++ [[]] := rfl
    rw [readRow, trimmed_writtenRow, hlead, hsplit, hlast, List.getLast?_concat, if_pos rfl, List.dropLast_concat,
      List.map_cons, List.map_cons, List.map_map, trimmed_padded]
    exact congrArg (trimmed cell :: ·) (List.map_congr_left fun other _ => trimmed_padded other)

theorem writtenRow_lineFree {cells : List Text} (h : ∀ cell ∈ cells, Plain cell) : ∀ c ∈ writtenRow cells, isLineEnd c = false := by
  have hjoin : ∀ c ∈ " | ".toList, isLineEnd c = false := by decide
  have hopen : ∀ c ∈ "| ".toList, isLineEnd c = false := by decide
  have hclose : ∀ c ∈ " |".toList, isLineEnd c = false := by decide
  have hcells : ∀ cells : List Text, (∀ cell ∈ cells, Plain cell) →
      ∀ c ∈ List.intercalate " | ".toList cells, isLineEnd c = false := by
    intro cells
    induction cells with
    | nil => exact fun _ c hc => absurd hc List.not_mem_nil
    | cons cell cells ih =>
      intro h c hc
      cases cells with
      | nil =>
        rw [List.intercalate_singleton] at hc
        exact (h cell List.mem_cons_self c hc).2
      | cons next cells =>
        rw [List.intercalate_cons_cons, List.mem_append, List.mem_append] at hc
        rcases hc with (hc | hc) | hc
        · exact (h cell List.mem_cons_self c hc).2
        · exact hjoin c hc
        · exact ih (fun other hother => h other (List.mem_cons_of_mem _ hother)) c hc
  intro c hc
  rw [writtenRow, List.mem_append, List.mem_append] at hc
  rcases hc with (hc | hc) | hc
  · exact hopen c hc
  · exact hcells cells h c hc
  · exact hclose c hc

/-- The line of dashes of a width. -/
def dashes (width : ℕ) : List Text := List.replicate width "---".toList

theorem plain_dashes (width : ℕ) : ∀ cell ∈ dashes width, Plain cell := by
  intro cell hcell
  rw [List.eq_of_mem_replicate hcell, Plain]
  decide

/-- A written table has a line for each of its rows. -/
theorem readLines_written {header : List Text} {rows : List (List Text)} (hplain : ∀ cell ∈ header, Plain cell)
    (hrows : ∀ row ∈ rows, row ≠ [] ∧ ∀ cell ∈ row, Plain cell) :
    readLines (List.intercalate ['\n'] (writtenRow header :: writtenRow (dashes header.length) :: rows.map writtenRow)) =
      writtenRow header :: writtenRow (dashes header.length) :: rows.map writtenRow := by
  refine readLines_intercalate (List.cons_ne_nil _ _) fun line hline => ?_
  rcases List.mem_cons.mp hline with rfl | hline
  · exact writtenRow_lineFree hplain
  · rcases List.mem_cons.mp hline with rfl | hline
    · exact writtenRow_lineFree (plain_dashes _)
    · obtain ⟨row, hrow, rfl⟩ := List.mem_map.mp hline
      exact writtenRow_lineFree (hrows row hrow).2

/-- A written table is read back: its header, and its rows in the header's width, without
the blanks around their cells. -/
theorem readTable_written {header : List Text} {rows : List (List Text)} (hheader : header ≠ [])
    (hplain : ∀ cell ∈ header, Plain cell) (hrows : ∀ row ∈ rows, row ≠ [] ∧ ∀ cell ∈ row, Plain cell) :
    readTable (List.intercalate ['\n'] (writtenRow header :: writtenRow (dashes header.length) :: rows.map writtenRow)) =
      some ⟨header.map trimmed, rows.map fun row => fitted header.length (row.map trimmed)⟩ := by
  have hdashes : dashes header.length ≠ [] := by
    intro hnil
    have hlength := congrArg List.length hnil
    rw [dashes, List.length_replicate, List.length_nil] at hlength
    exact hheader (List.length_eq_zero_iff.mp hlength)
  have hdelimiter : (List.map trimmed (dashes header.length)).all isDelimiter = true := by
    rw [dashes, List.map_replicate, List.all_eq_true]
    intro cell hcell
    rw [List.eq_of_mem_replicate hcell]
    decide
  have hbody : (rows.map writtenRow).takeWhile (fun line => decide (trimmed line ≠ [])) = rows.map writtenRow := by
    rw [List.takeWhile_eq_self_iff]
    intro line hline
    obtain ⟨row, -, rfl⟩ := List.mem_map.mp hline
    rw [trimmed_writtenRow]
    rfl
  rw [readTable, readLines_written hplain hrows]
  dsimp only
  rw [readRow_writtenRow hheader hplain, readRow_writtenRow hdashes (plain_dashes _), if_pos ⟨by simp [dashes], hdelimiter⟩,
    hbody, List.map_map, List.length_map]
  refine congrArg (fun rows => some (Table.mk _ rows)) (List.map_congr_left fun row hrow => ?_)
  rw [Function.comp_apply, readRow_writtenRow (hrows row hrow).1 (hrows row hrow).2]

end RagSystem.MarkdownTables
