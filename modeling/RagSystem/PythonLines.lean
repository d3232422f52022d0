import Mathlib.Data.List.TakeWhile
import RagSystem.DocumentModels
import RagSystem.JsonText

/-!
# The lines of a text, as Python splits it

`str.splitlines` ends a line at more than a line feed: at every character that
Unicode calls a boundary. A text without control characters is one line of a
file if it has none of the others.
-/

namespace RagSystem.PythonLines

open DocumentModels
open JsonText (Plain)

set_option autoImplicit false

attribute [local instance (2000)] List.decidableBEx List.decidableBAll

/-- The characters that end a line. -/
def isLineBoundary (c : Char) : Bool :=
  let n := c.toNat
  (10 ≤ n && n ≤ 13) || (28 ≤ n && n ≤ 30) || n = 0x85 || n = 0x2028 || n = 0x2029

/-- The lines from here, when this much of the first was read, last character
first. -/
def splitlinesFrom (line : List Char) : List Char → List (List Char)
  | [] => if line = [] then [] else [line.reverse]
  -- both end the line together
  | '\r' :: '\n' :: text => line.reverse :: splitlinesFrom [] text
  | c :: text => if isLineBoundary c then line.reverse :: splitlinesFrom [] text else splitlinesFrom (c :: line) text

/-- `str.splitlines`. -/
def splitlines (text : String) : List String := (splitlinesFrom [] text.toList).map String.ofList

/-- The lines that are not blank, stripped. -/
def inkedLines (text : String) : List String := ((splitlines text).map strip).filter (· ≠ "")

/-- The pieces of a text between line boundaries. -/
def pieces (text : List Char) : List (List Char) := text.splitOnP isLineBoundary

section Lines

variable {line text rest : List Char}

/-- One character, no carriage return. -/
theorem splitlinesFrom_cons {c : Char} (hc : c ≠ '\r') :
    splitlinesFrom line (c :: text) =
      if isLineBoundary c then line.reverse :: splitlinesFrom [] text else splitlinesFrom (c :: line) text := by
  cases text with
  | nil => simp [splitlinesFrom]
  | cons next text => simp [splitlinesFrom, hc]

/-- The pieces of a text, from its first character. -/
theorem pieces_cons {c : Char} :
    pieces (c :: text) = if isLineBoundary c then [] :: pieces text else (pieces text).modifyHead (List.cons c) :=
  List.splitOnP_cons_eq_if_modifyHead c text

/-- Putting nothing in front of a list's first piece leaves the list. -/
theorem modifyHead_nothing (lines : List (List Char)) : lines.modifyHead (fun piece => piece) = lines := by
  cases lines with
  | nil => rfl
  | cons piece lines => rfl

/-- A text without control characters and a line feed are the pieces of the
text, each a line. -/
theorem splitlinesFrom_line (line rest : List Char) (hplain : Plain text) :
    splitlinesFrom line (text ++ '\n' :: rest) = (pieces text).modifyHead (line.reverse ++ ·) ++ splitlinesFrom [] rest := by
  induction text generalizing line with
  | nil =>
    have hfeed : isLineBoundary '\n' = true := by decide
    rw [List.nil_append, splitlinesFrom_cons (by decide), if_pos hfeed]
    simp [pieces]
  | cons c text ih =>
    have hfirst := List.forall_mem_cons.mp hplain
    have hreturn : c ≠ '\r' := by
      intro hc
      have hcode := hfirst.1
      rw [hc] at hcode
      exact absurd hcode (by decide)
    rw [List.cons_append, splitlinesFrom_cons hreturn, ih _ hfirst.2, ih _ hfirst.2, pieces_cons]
    cases hc : isLineBoundary c with
    | true => simp [modifyHead_nothing]
    | false =>
      have hcons : ((c :: line).reverse ++ ·) = (line.reverse ++ ·) ∘ List.cons c := by
        funext piece
        simp
      rw [hcons, ← List.modifyHead_modifyHead]
      rfl

/-- The lines of a file of such texts are their pieces. -/
theorem splitlinesFrom_lines {texts : List (List Char)} (hplain : ∀ text ∈ texts, Plain text) :
    splitlinesFrom [] (texts.flatMap fun text => text ++ ['\n']) = texts.flatMap pieces := by
  induction texts with
  | nil => rfl
  | cons text texts ih =>
    have hfirst := List.forall_mem_cons.mp hplain
    have hline := splitlinesFrom_line [] (texts.flatMap fun text => text ++ ['\n']) hfirst.1
    rw [List.flatMap_cons, List.append_assoc, List.singleton_append, hline, ih hfirst.2]
    simp [modifyHead_nothing]

/-- A text with no boundary is one piece. -/
theorem pieces_eq_singleton (hnone : ∀ c ∈ text, isLineBoundary c = false) : pieces text = [text] :=
  List.splitOnP_eq_singleton hnone

/-- At a boundary the pieces of a text part. -/
theorem pieces_append {c : Char} (hc : isLineBoundary c = true) : pieces (text ++ c :: rest) = pieces text ++ pieces rest :=
  List.splitOnP_append_cons text rest hc

/-- What is no boundary is in some piece. -/
theorem exists_piece {c : Char} (hin : c ∈ text) (hc : isLineBoundary c = false) : ∃ piece ∈ pieces text, c ∈ piece := by
  induction text with
  | nil => exact absurd hin List.not_mem_nil
  | cons d text ih =>
    rw [pieces_cons]
    cases hd : isLineBoundary d with
    | true =>
      have hlater : c ∈ text := by
        rcases List.mem_cons.mp hin with rfl | hlater
        · rw [hc] at hd
          contradiction
        · exact hlater
      obtain ⟨piece, hpiece, hmem⟩ := ih hlater
      exact ⟨piece, List.mem_cons_of_mem _ hpiece, hmem⟩
    | false =>
      cases hpieces : pieces text with
      | nil => exact absurd hpieces (List.splitOnP_ne_nil _ _)
      | cons first others =>
        rw [hpieces] at ih
        rcases List.mem_cons.mp hin with rfl | hlater
        · exact ⟨c :: first, List.mem_cons_self, List.mem_cons_self⟩
        · obtain ⟨piece, hpiece, hmem⟩ := ih hlater
          rcases List.mem_cons.mp hpiece with rfl | hother
          · exact ⟨d :: piece, List.mem_cons_self, List.mem_cons_of_mem _ hmem⟩
          · exact ⟨piece, List.mem_cons_of_mem _ hother, hmem⟩

end Lines

section Inked

variable {text : List Char}

/-- The inked lines of a text that is one line of a file. -/
def inkedPieces (text : List Char) : List String := ((pieces text).map fun piece => strip (String.ofList piece)).filter (· ≠ "")

/-- Dropping keeps what is not to be dropped. -/
theorem mem_dropWhile {c : Char} (hin : c ∈ text) (hc : isSpace c = false) : c ∈ text.dropWhile isSpace := by
  have hsplit : c ∈ text.takeWhile isSpace ++ text.dropWhile isSpace := by rwa [List.takeWhile_append_dropWhile]
  rcases List.mem_append.mp hsplit with htaken | hdropped
  · have hspace := List.mem_takeWhile_imp htaken
    rw [hc] at hspace
    contradiction
  · exact hdropped

/-- A text with more than white space is not blank. -/
theorem strip_ne_empty {c : Char} (hin : c ∈ text) (hc : isSpace c = false) : strip (String.ofList text) ≠ "" := by
  have hfront : c ∈ (text.dropWhile isSpace).reverse := List.mem_reverse.mpr (mem_dropWhile hin hc)
  have hboth : c ∈ ((text.dropWhile isSpace).reverse.dropWhile isSpace).reverse :=
    List.mem_reverse.mpr (mem_dropWhile hfront hc)
  intro hblank
  have hnil := congrArg String.toList hblank
  simp only [strip, String.toList_ofList] at hnil
  rw [hnil] at hboth
  exact absurd hboth List.not_mem_nil

/-- A text between two characters that are no white space is not stripped. -/
theorem strip_eq_self {first last : Char} (hfirst : isSpace first = false) (hlast : isSpace last = false) :
    strip (String.ofList (first :: (text ++ [last]))) = String.ofList (first :: (text ++ [last])) := by
  simp [strip, hfirst, hlast]

/-- A line boundary is white space. -/
theorem isSpace_of_isLineBoundary {c : Char} (hc : isLineBoundary c = true) : isSpace c = true := by
  simp only [isLineBoundary, Bool.or_eq_true, Bool.and_eq_true, decide_eq_true_eq] at hc
  simp only [isSpace, Bool.or_eq_true, Bool.and_eq_true, decide_eq_true_eq]
  omega

/-- A text with more than white space has an inked piece. -/
theorem inkedPieces_ne_nil {c : Char} (hin : c ∈ text) (hc : isSpace c = false) : inkedPieces text ≠ [] := by
  have hinner : isLineBoundary c = false := by
    by_contra hboundary
    have hspace := isSpace_of_isLineBoundary (by simpa using hboundary)
    rw [hc] at hspace
    contradiction
  obtain ⟨piece, hpiece, hmem⟩ := exists_piece hin hinner
  have hinked : strip (String.ofList piece) ∈ inkedPieces text := by
    refine List.mem_filter.mpr ⟨List.mem_map_of_mem hpiece, ?_⟩
    simpa using strip_ne_empty hmem hc
  exact List.ne_nil_of_mem hinked

/-- Between two characters that are no white space a text has one inked piece,
itself, or more, if there is a line boundary between them. -/
theorem inkedPieces_between (text : List Char) {first last : Char} (hfirst : isSpace first = false) (hlast : isSpace last = false) :
    if ∃ c ∈ text, isLineBoundary c = true then 2 ≤ (inkedPieces (first :: (text ++ [last]))).length
    else inkedPieces (first :: (text ++ [last])) = [String.ofList (first :: (text ++ [last]))] := by
  have hinner : ∀ {c}, isSpace c = false → isLineBoundary c = false := by
    intro c hc
    by_contra hboundary
    have hspace := isSpace_of_isLineBoundary (by simpa using hboundary)
    rw [hc] at hspace
    contradiction
  split
  · next hboundary =>
    obtain ⟨c, hin, hc⟩ := hboundary
    obtain ⟨front, back, hsplit⟩ := List.append_of_mem hin
    have htext : first :: (text ++ [last]) = (first :: front) ++ c :: (back ++ [last]) := by rw [hsplit]; simp
    have hparts : inkedPieces (first :: (text ++ [last])) =
        inkedPieces (first :: front) ++ inkedPieces (back ++ [last]) := by
      rw [htext, inkedPieces, pieces_append hc, List.map_append, List.filter_append]
      rfl
    have hfront : inkedPieces (first :: front) ≠ [] := inkedPieces_ne_nil List.mem_cons_self hfirst
    have hback : inkedPieces (back ++ [last]) ≠ [] :=
      inkedPieces_ne_nil (List.mem_append_right _ (List.mem_singleton_self _)) hlast
    have hfront' := List.length_pos_iff.mpr hfront
    have hback' := List.length_pos_iff.mpr hback
    rw [hparts, List.length_append]
    omega
  · next hnone =>
    have hall : ∀ c ∈ first :: (text ++ [last]), isLineBoundary c = false := by
      simp only [List.forall_mem_cons, List.forall_mem_append, List.not_mem_nil, false_implies, implies_true, and_true]
      refine ⟨hinner hfirst, fun c hin => ?_, hinner hlast⟩
      by_contra hc
      exact hnone ⟨c, hin, by simpa using hc⟩
    have hink : String.ofList (first :: (text ++ [last])) ≠ "" := by simp
    rw [inkedPieces, pieces_eq_singleton hall, List.map_singleton, strip_eq_self hfirst hlast]
    simp

/-- The inked lines of a file of texts without control characters. -/
theorem inkedLines_file {texts : List (List Char)} (hplain : ∀ text ∈ texts, Plain text) :
    inkedLines (String.ofList (texts.flatMap fun text => text ++ ['\n'])) = texts.flatMap inkedPieces := by
  rw [inkedLines, splitlines, String.toList_ofList, splitlinesFrom_lines hplain, List.map_map, List.map_flatMap,
    List.filter_flatMap]
  rfl

end Inked

end RagSystem.PythonLines
