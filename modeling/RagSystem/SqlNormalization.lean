import Mathlib.Data.List.TakeWhile
import RagSystem.ReplayRuns

/-!
# Queries with one fixture key

The normal form of a query that names its fixture, taken apart. Two queries with
one normal form are one text up to white space, letter case and trailing
semicolons, wherever these stand: quotes are not looked at.
-/

namespace RagSystem.SqlNormalization

open DocumentModels ReplayRuns

set_option autoImplicit false

/-- White space only. -/
def Blank (text : List Char) : Prop := ∀ c ∈ text, isSpace c = true

/-- The same text but for the length and the kind of each white space. -/
inductive Respaced : List Char → List Char → Prop where
  /-- Nothing. -/
  | nil : Respaced [] []
  /-- One character more. -/
  | cons {text text' : List Char} (c : Char) (h : Respaced text text') : Respaced (c :: text) (c :: text')
  /-- Some white space more. -/
  | space {text text' : List Char} (run run' : List Char) (hrun : run ≠ []) (hrun' : run' ≠ []) (hblank : Blank run)
      (hblank' : Blank run') (h : Respaced text text') : Respaced (run ++ text) (run' ++ text')

/-- Up to white space, the text is this one with white space before it and white
space and semicolons after it. -/
def Dressed (core text : List Char) : Prop :=
  ∃ lead tail, Blank lead ∧ (∀ c ∈ tail, c = ';' ∨ isSpace c = true) ∧ Respaced text (lead ++ core ++ tail)

/-- The queries differ only in white space, letter case and trailing
semicolons. -/
def SameQuery (casefold : String → String) (a b : String) : Prop :=
  ∃ core core', Dressed core a.toList ∧ Dressed core' b.toList ∧
    casefold (String.ofList core) = casefold (String.ofList core')

/-- White space in front joins the white space that is there. -/
theorem Respaced.more {c : Char} (hc : isSpace c = true) {text rest : List Char} (h : Respaced text (' ' :: rest)) :
    Respaced (c :: text) (' ' :: rest) := by
  have hblank : Blank [' '] := by simp [Blank, isSpace]
  generalize hall : ' ' :: rest = all at h
  cases h with
  | nil => contradiction
  | @cons text text' d h =>
    injection hall with hd hrest
    subst hd
    have htwo : Blank [c, ' '] := List.forall_mem_cons.mpr ⟨hc, hblank⟩
    exact .space [c, ' '] [' '] (by simp) (by simp) htwo hblank h
  | @space text text' run run' hrun hrun' hblank hblank' h =>
    have hlonger : Blank (c :: run) := List.forall_mem_cons.mpr ⟨hc, hblank⟩
    exact .space (c :: run) run' (by simp) hrun' hlonger hblank' h

/-- Collapsing only respaces. -/
theorem respaced_collapseSpace (text : List Char) : Respaced text (collapseSpace text) := by
  induction text with
  | nil => exact .nil
  | cons c text ih =>
    simp only [collapseSpace]
    split
    · next hc =>
      have hone : Blank [c] := by simpa [Blank] using hc
      have hblank : Blank [' '] := by simp [Blank, isSpace]
      split
      · next hhead =>
        cases hrest : collapseSpace text with
        | nil =>
          rw [hrest] at hhead
          contradiction
        | cons d rest =>
          rw [hrest] at hhead ih
          injection hhead with hd
          subst hd
          exact ih.more hc
      · exact .space [c] [' '] (by simp) (by simp) hone hblank ih
    · exact .cons c ih

/-- A text is white space, what stripping leaves, and white space. -/
theorem strip_split (text : List Char) :
    ∃ lead tail, Blank lead ∧ Blank tail ∧ text = lead ++ (strip (String.ofList text)).toList ++ tail := by
  have hlead : Blank (text.takeWhile isSpace) := fun c hc => List.mem_takeWhile_imp hc
  have htail : Blank ((text.dropWhile isSpace).reverse.takeWhile isSpace).reverse := by
    intro c hc
    exact List.mem_takeWhile_imp (List.mem_reverse.mp hc)
  refine ⟨_, _, hlead, htail, ?_⟩
  have hback : text.dropWhile isSpace = ((text.dropWhile isSpace).reverse.dropWhile isSpace).reverse ++
      ((text.dropWhile isSpace).reverse.takeWhile isSpace).reverse := by
    rw [← List.reverse_append, List.takeWhile_append_dropWhile, List.reverse_reverse]
  simp only [strip, String.toList_ofList, List.append_assoc]
  rw [← hback, List.takeWhile_append_dropWhile]

/-- A text is what is left of it and the semicolons that were dropped. -/
theorem dropSemicolons_split (text : List Char) :
    ∃ tail, (∀ c ∈ tail, c = ';' ∨ isSpace c = true) ∧ text = (dropSemicolons text.reverse).reverse ++ tail := by
  unfold dropSemicolons
  split
  · refine ⟨(text.reverse.takeWhile fun c => c = ';' || isSpace c).reverse, fun c hc => ?_, ?_⟩
    · simpa using List.mem_takeWhile_imp (List.mem_reverse.mp hc)
    · rw [← List.reverse_append, List.takeWhile_append_dropWhile, List.reverse_reverse]
  · exact ⟨[], by simp, by simp⟩

/-- A query is its normal form, dressed, before its case is folded. -/
theorem dressed_normal (sql : String) :
    Dressed (dropSemicolons (strip (String.ofList (collapseSpace sql.toList))).toList.reverse).reverse sql.toList := by
  obtain ⟨lead, blank, hlead, hblank, hsplit⟩ := strip_split (collapseSpace sql.toList)
  obtain ⟨tail, htail, hdropped⟩ := dropSemicolons_split (strip (String.ofList (collapseSpace sql.toList))).toList
  refine ⟨lead, tail ++ blank, hlead, ?_, ?_⟩
  · intro c hc
    rcases List.mem_append.mp hc with hc | hc
    · exact htail c hc
    · exact .inr (hblank c hc)
  · have hcollapsed := respaced_collapseSpace sql.toList
    rw [hsplit, hdropped] at hcollapsed
    simpa only [List.append_assoc] using hcollapsed

/-- Queries with one normal form differ only in white space, letter case and
trailing semicolons. -/
theorem sameQuery_of_normalizeSql {settings : ReplaySettings} {a b : String}
    (hsame : normalizeSql settings a = normalizeSql settings b) : SameQuery settings.casefold a b :=
  ⟨_, _, dressed_normal a, dressed_normal b, hsame⟩

end RagSystem.SqlNormalization
