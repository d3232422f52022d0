import Mathlib.Data.List.Basic
import RagSystem.SignificantDigits

/-!
# The text format of metrics

A line for a sample has the name of a metric, its labels in braces and a number;
other lines are comments. Names and label keys are words of few characters, label
values are quoted and escaped. What is written of such words is read back, and
nothing is read with other words.
-/

namespace RagSystem.ExpositionText

open Doubles SignificantDigits

set_option autoImplicit false

section Format

/-- A text: its code points. -/
abbrev Text := List ℕ

/-- The labels of a sample, each a key and a value. -/
abbrev Labels := List (Text × Text)

/-- What a sample is of: the name and the labels. -/
abbrev Identity := Text × Labels

/-- A digit. -/
def isDigitCode (code : ℕ) : Bool := 48 ≤ code && code ≤ 57

/-- What the key of a label may have. -/
def isLabelCode (code : ℕ) : Bool := isDigitCode code || (65 ≤ code && code ≤ 90) || (97 ≤ code && code ≤ 122) || code == 95

/-- What a name may have: also a colon. -/
def isNameCode (code : ℕ) : Bool := isLabelCode code || code == 58

/-- A word of such characters; the first is no digit. -/
def isWord (allowed : ℕ → Bool) (word : Text) : Bool :=
  match word with
  | [] => false
  | first :: _ => !isDigitCode first && word.all allowed

/-- An escaped character. -/
def escapeCode (code : ℕ) : Text :=
  if code = 92 then [92, 92] else if code = 34 then [92, 34] else if code = 10 then [92, 110] else [code]

/-- An escaped value. -/
def escaped (value : Text) : Text := value.flatMap escapeCode

/-- A label. -/
def labelText (label : Text × Text) : Text := label.1 ++ 61 :: 34 :: (escaped label.2 ++ [34])

/-- The labels, in braces; none are nothing. -/
def labelsText (labels : Labels) : Text :=
  if labels = [] then [] else 123 :: ([44].intercalate (labels.map labelText) ++ [125])

/-- The line of a sample. -/
def sampleLine (identity : Identity) (number : Text) : Text := identity.1 ++ (labelsText identity.2 ++ 32 :: number)

/-- Read a quoted value, to what follows the quote that ends it. -/
@[grind =] def readQuoted : Text → Option (Text × Text)
  | [] => none
  | 34 :: rest => some ([], rest)
  | 92 :: 92 :: rest => (readQuoted rest).map fun read => (92 :: read.1, read.2)
  | 92 :: 34 :: rest => (readQuoted rest).map fun read => (34 :: read.1, read.2)
  | 92 :: 110 :: rest => (readQuoted rest).map fun read => (10 :: read.1, read.2)
  | 92 :: _ => none
  | code :: rest => (readQuoted rest).map fun read => (code :: read.1, read.2)

/-- Read labels, so many at most, to what follows the brace that ends them. -/
@[grind =] def readLabels : ℕ → Text → Option (Labels × Text)
  | 0, _ => none
  | fuel + 1, text =>
    if isWord isLabelCode (text.takeWhile isLabelCode) then
      match text.dropWhile isLabelCode with
      | 61 :: 34 :: quoted =>
        match readQuoted quoted with
        | some (value, 44 :: rest) =>
          (readLabels fuel rest).map fun read => ((text.takeWhile isLabelCode, value) :: read.1, read.2)
        | some (value, 125 :: rest) => some ([(text.takeWhile isLabelCode, value)], rest)
        | _ => none
      | _ => none
    else none

/-- Read a number. -/
def readNumber (text : Text) : Option ℚ := (readNumeral (text.map Char.ofNat)).map signed

/-- Read the line of a sample. -/
def readSample (line : Text) : Option (Identity × ℚ) :=
  if isWord isNameCode (line.takeWhile isNameCode) then
    match line.dropWhile isNameCode with
    | 123 :: rest =>
      match readLabels rest.length rest with
      | some (labels, 32 :: number) => (readNumber number).map fun value => ((line.takeWhile isNameCode, labels), value)
      | _ => none
    | 32 :: number => (readNumber number).map fun value => ((line.takeWhile isNameCode, []), value)
    | _ => none
  else none

/-- A line that is skipped: an empty one, or a comment. -/
def skipped (line : Text) : Bool := line.isEmpty || line.head? == some 35

/-- Read lines. -/
def readLines : List Text → Option (List (Identity × ℚ))
  | [] => some []
  | line :: lines =>
    if skipped line then readLines lines
    else (readSample line).bind fun sample => (readLines lines).map fun samples => sample :: samples

/-- Read a text. -/
def readText (text : Text) : Option (List (Identity × ℚ)) := readLines (text.splitOn 10)

end Format

section Words

variable {allowed : ℕ → Bool} {word rest : Text} {value : Text}

theorem isWord_iff : isWord allowed word = true ↔
    word ≠ [] ∧ (∀ code ∈ word.head?, isDigitCode code = false) ∧ ∀ code ∈ word, allowed code = true := by
  cases word with
  | nil => simp [isWord]
  | cons first word => simp [isWord]

/-- A word is cut off before what may not be in one. -/
theorem takeWhile_word (hword : ∀ code ∈ word, allowed code = true) (hrest : ∀ code ∈ rest.head?, allowed code = false) :
    (word ++ rest).takeWhile allowed = word ∧ (word ++ rest).dropWhile allowed = rest := by
  rw [List.takeWhile_append_of_pos hword, List.dropWhile_append_of_pos hword]
  cases rest with
  | nil => simp
  | cons code rest =>
    have hstop : ¬ allowed code = true := by simp [hrest code rfl]
    rw [List.takeWhile_cons_of_neg hstop, List.dropWhile_cons_of_neg hstop, List.append_nil]
    exact ⟨rfl, rfl⟩

theorem readQuoted_plain {code : ℕ} (hquote : code ≠ 34) (hback : code ≠ 92) (rest : Text) :
    readQuoted (code :: rest) = (readQuoted rest).map fun read => (code :: read.1, read.2) := by
  rw [readQuoted]
  all_goals simp_all

/-- An escaped value is read back. -/
theorem readQuoted_escaped (value rest : Text) : readQuoted (escaped value ++ 34 :: rest) = some (value, rest) := by
  induction value with
  | nil => rfl
  | cons code value ih =>
    have hsplit : escaped (code :: value) = escapeCode code ++ escaped value := rfl
    rw [hsplit, List.append_assoc, escapeCode]
    by_cases hback : code = 92
    · rw [if_pos hback, hback]
      simp [readQuoted, ih]
    · by_cases hquote : code = 34
      · rw [if_neg hback, if_pos hquote, hquote]
        simp [readQuoted, ih]
      · by_cases hbreak : code = 10
        · rw [if_neg hback, if_neg hquote, if_pos hbreak, hbreak]
          simp [readQuoted, ih]
        · rw [if_neg hback, if_neg hquote, if_neg hbreak, List.singleton_append, readQuoted_plain hquote hback, ih]
          rfl

/-- An escaped value has no line break. -/
theorem not_mem_escaped (value : Text) : 10 ∉ escaped value := by
  rw [escaped, List.mem_flatMap]
  rintro ⟨code, -, hcode⟩
  rw [escapeCode] at hcode
  split_ifs at hcode <;> simp_all

end Words

section Samples

variable {labels : Labels} {identity : Identity} {number rest : Text} {value : ℚ}

/-- What can be read: the name and the keys are words. -/
def Readable (identity : Identity) : Prop :=
  isWord isNameCode identity.1 = true ∧ ∀ label ∈ identity.2, isWord isLabelCode label.1 = true

/-- Labels are read back, if they may be as many. -/
theorem readLabels_written {fuel : ℕ} (label : Text × Text) (others : Labels) (hfuel : others.length < fuel)
    (hkeys : ∀ other ∈ label :: others, isWord isLabelCode other.1 = true) (rest : Text) :
    readLabels fuel ([44].intercalate ((label :: others).map labelText) ++ 125 :: rest) = some (label :: others, rest) := by
  induction others generalizing label fuel with
  | nil =>
    obtain ⟨fewer, rfl⟩ : ∃ fewer, fuel = fewer + 1 := ⟨fuel - 1, by rw [List.length_nil] at hfuel; omega⟩
    have hkey := hkeys label List.mem_cons_self
    have hcut := takeWhile_word (isWord_iff.mp hkey).2.2
      (show ∀ code ∈ (61 :: 34 :: (escaped label.2 ++ 34 :: 125 :: rest)).head?, isLabelCode code = false by simp; decide)
    have htext : [44].intercalate ([label].map labelText) ++ 125 :: rest =
        label.1 ++ 61 :: 34 :: (escaped label.2 ++ 34 :: 125 :: rest) := by
      simp [List.intercalate, labelText]
    rw [htext, readLabels, hcut.1, hcut.2, if_pos hkey]
    simp only [readQuoted_escaped]
  | cons second others ih =>
    obtain ⟨fewer, rfl⟩ : ∃ fewer, fuel = fewer + 1 := ⟨fuel - 1, by rw [List.length_cons] at hfuel; omega⟩
    have hkey := hkeys label List.mem_cons_self
    have hfewer : others.length < fewer := by
      rw [List.length_cons] at hfuel
      omega
    have hrest := ih second hfewer fun other hother => hkeys other (List.mem_cons_of_mem _ hother)
    have hcut := takeWhile_word (isWord_iff.mp hkey).2.2
      (show ∀ code ∈ (61 :: 34 :: (escaped label.2 ++ 34 :: 44 ::
        ([44].intercalate ((second :: others).map labelText) ++ 125 :: rest))).head?, isLabelCode code = false by simp; decide)
    have htext : [44].intercalate ((label :: second :: others).map labelText) ++ 125 :: rest =
        label.1 ++ 61 :: 34 :: (escaped label.2 ++ 34 :: 44 ::
          ([44].intercalate ((second :: others).map labelText) ++ 125 :: rest)) := by
      rw [List.map_cons, List.map_cons, List.intercalate_cons_cons, ← List.map_cons, labelText]
      simp
    rw [htext, readLabels, hcut.1, hcut.2, if_pos hkey]
    simp only [readQuoted_escaped, hrest, Option.map_some]

/-- There are no more labels than characters. -/
theorem length_le_labels (labels : Labels) (rest : Text) :
    labels.length ≤ ([44].intercalate (labels.map labelText) ++ 125 :: rest).length := by
  induction labels with
  | nil => exact Nat.zero_le _
  | cons label labels ih =>
    cases labels with
    | nil =>
      simp only [List.length_cons, List.length_nil, List.length_append]
      omega
    | cons second others =>
      rw [List.map_cons, List.map_cons, List.intercalate_cons_cons, ← List.map_cons]
      simp only [List.length_cons, List.length_append] at ih ⊢
      simp only [labelText, List.length_append, List.length_cons] at ih ⊢
      omega

/-- The line of a sample is read back. -/
theorem readSample_written (hread : Readable identity) (hnumber : readNumber number = some value) :
    readSample (sampleLine identity number) = some (identity, value) := by
  obtain ⟨name, labels⟩ := identity
  obtain ⟨hname, hkeys⟩ := hread
  have hcut : ∀ rest : Text, (∀ code ∈ rest.head?, isNameCode code = false) →
      (name ++ rest).takeWhile isNameCode = name ∧ (name ++ rest).dropWhile isNameCode = rest :=
    fun rest hrest => takeWhile_word (isWord_iff.mp hname).2.2 hrest
  rw [sampleLine, labelsText]
  cases labels with
  | nil =>
    obtain ⟨htake, hdrop⟩ := hcut (32 :: number) (by simp; decide)
    rw [if_pos rfl, List.nil_append, readSample, htake, hdrop, if_pos hname]
    simp only [hnumber, Option.map_some]
  | cons label others =>
    rw [if_neg (List.cons_ne_nil label others)]
    have htext : 123 :: ([44].intercalate ((label :: others).map labelText) ++ [125]) ++ 32 :: number =
        123 :: ([44].intercalate ((label :: others).map labelText) ++ 125 :: 32 :: number) := by simp
    obtain ⟨htake, hdrop⟩ := hcut (123 :: ([44].intercalate ((label :: others).map labelText) ++ 125 :: 32 :: number))
      (by simp; decide)
    have hlength := length_le_labels (label :: others) (32 :: number)
    rw [List.length_cons] at hlength
    have hread := readLabels_written label others hlength hkeys (32 :: number)
    rw [htext, readSample, htake, hdrop, if_pos hname]
    simp only [hread, hnumber, Option.map_some]

/-- Only words are read as keys. -/
theorem readLabels_readable {fuel : ℕ} {text : Text} (h : readLabels fuel text = some (labels, rest)) :
    ∀ label ∈ labels, isWord isLabelCode label.1 = true := by
  induction fuel generalizing text labels with
  | zero => cases h
  | succ fuel ih =>
    rw [readLabels] at h
    split at h
    · next hkey =>
      split at h
      · split at h
        · simp only [Option.map_eq_some_iff, Prod.mk.injEq] at h
          obtain ⟨⟨others, after⟩, hothers, rfl, rfl⟩ := h
          intro label hlabel
          rcases List.mem_cons.mp hlabel with rfl | hin
          · exact hkey
          · exact ih hothers label hin
        · simp only [Option.some.injEq, Prod.mk.injEq] at h
          obtain ⟨rfl, rfl⟩ := h
          intro label hlabel
          rw [List.mem_singleton.mp hlabel]
          exact hkey
        · cases h
      · cases h
    · cases h

/-- And only words as names. -/
theorem readSample_readable {line : Text} (h : readSample line = some (identity, value)) : Readable identity := by
  rw [readSample] at h
  split at h
  · next hname =>
    split at h
    · split at h
      · next hlabels =>
        simp only [Option.map_eq_some_iff, Prod.mk.injEq] at h
        obtain ⟨_, -, rfl, -⟩ := h
        exact ⟨hname, readLabels_readable hlabels⟩
      · cases h
    · simp only [Option.map_eq_some_iff, Prod.mk.injEq] at h
      obtain ⟨_, -, rfl, -⟩ := h
      exact ⟨hname, fun _ hlabel => absurd hlabel List.not_mem_nil⟩
    · cases h
  · cases h

/-- What is read of a text can be read. -/
theorem readLines_readable {lines : List Text} {samples : List (Identity × ℚ)} (h : readLines lines = some samples) :
    ∀ sample ∈ samples, Readable sample.1 := by
  induction lines generalizing samples with
  | nil =>
    cases h
    exact fun _ hsample => absurd hsample List.not_mem_nil
  | cons line lines ih =>
    rw [readLines] at h
    split at h
    · exact ih h
    · simp only [Option.bind_eq_some_iff, Option.map_eq_some_iff] at h
      obtain ⟨first, hfirst, others, hothers, rfl⟩ := h
      intro sample hsample
      rcases List.mem_cons.mp hsample with rfl | hin
      · exact readSample_readable hfirst
      · exact ih hothers sample hin

end Samples

section Texts

/-- Lines that have these samples. -/
inductive Written : List Text → List (Identity × ℚ) → Prop where
  /-- None. -/
  | nil : Written [] []
  /-- A comment more. -/
  | comment {line : Text} {lines : List Text} {samples : List (Identity × ℚ)} (hmark : line.head? = some 35)
      (hbreak : 10 ∉ line) (hrest : Written lines samples) : Written (line :: lines) samples
  /-- A sample more. -/
  | sample {identity : Identity} {number : Text} {value : ℚ} {lines : List Text} {samples : List (Identity × ℚ)}
      (hread : Readable identity) (hnumber : readNumber number = some value) (hbreak : 10 ∉ number)
      (hrest : Written lines samples) : Written (sampleLine identity number :: lines) ((identity, value) :: samples)

variable {lines lines' : List Text} {samples samples' : List (Identity × ℚ)} {identity : Identity} {number : Text}

theorem Written.append (h : Written lines samples) (h' : Written lines' samples') :
    Written (lines ++ lines') (samples ++ samples') := by
  induction h with
  | nil => exact h'
  | comment hmark hbreak _ ih => exact .comment hmark hbreak ih
  | sample hread hnumber hbreak _ ih => exact .sample hread hnumber hbreak ih

/-- A word has no line break. -/
theorem not_mem_word {allowed : ℕ → Bool} {word : Text} (hword : isWord allowed word = true) (hbreak : allowed 10 = false) :
    10 ∉ word := by
  intro hin
  have hallowed := (isWord_iff.mp hword).2.2 10 hin
  rw [hbreak] at hallowed
  cases hallowed

/-- Nor have labels. -/
theorem not_mem_labelsText {labels : Labels} (hkeys : ∀ label ∈ labels, isWord isLabelCode label.1 = true) :
    10 ∉ labelsText labels := by
  rw [labelsText]
  split
  · exact List.not_mem_nil
  · have hlabel : ∀ label ∈ labels, 10 ∉ labelText label := by
      intro label hlabel
      have hkey := not_mem_word (hkeys label hlabel) (by decide)
      have hvalue := not_mem_escaped label.2
      simp [labelText, hkey, hvalue]
    have hjoined : ∀ texts : List Text, (∀ text ∈ texts, 10 ∉ text) → 10 ∉ [44].intercalate texts := by
      intro texts htexts
      induction texts with
      | nil => simp [List.intercalate]
      | cons first texts ih =>
        cases texts with
        | nil =>
          have hfirst := htexts first List.mem_cons_self
          simpa [List.intercalate] using hfirst
        | cons second others =>
          have hfirst := htexts first List.mem_cons_self
          have hothers := ih fun text htext => htexts text (List.mem_cons_of_mem _ htext)
          rw [List.intercalate_cons_cons]
          simp [hfirst, hothers]
    have hall := hjoined (labels.map labelText) (List.forall_mem_map.mpr hlabel)
    simp [hall]

theorem not_mem_sampleLine (hread : Readable identity) (hbreak : 10 ∉ number) : 10 ∉ sampleLine identity number := by
  have hname := not_mem_word hread.1 (by decide)
  have hlabels := not_mem_labelsText hread.2
  simp [sampleLine, hname, hlabels, hbreak]

/-- A sample's line is not skipped. -/
theorem skipped_sampleLine (hread : Readable identity) : skipped (sampleLine identity number) = false := by
  obtain ⟨hne, -, hall⟩ := isWord_iff.mp hread.1
  obtain ⟨name, labels⟩ := identity
  cases name with
  | nil => exact absurd rfl hne
  | cons first name =>
    have hfirst : first ≠ 35 := by
      rintro rfl
      have hallowed := hall 35 List.mem_cons_self
      exact absurd hallowed (by decide)
    simp [skipped, sampleLine, hfirst]

theorem Written.not_mem (h : Written lines samples) : ∀ line ∈ lines, 10 ∉ line := by
  induction h with
  | nil => exact fun _ hline => absurd hline List.not_mem_nil
  | comment _ hbreak _ ih => exact List.forall_mem_cons.mpr ⟨hbreak, ih⟩
  | sample hread _ hbreak _ ih => exact List.forall_mem_cons.mpr ⟨not_mem_sampleLine hread hbreak, ih⟩

theorem Written.readLines_append (h : Written lines samples) (others : List Text) :
    readLines (lines ++ others) = (readLines others).map fun read => samples ++ read := by
  induction h with
  | nil => simp
  | comment hmark _ _ ih =>
    rw [List.cons_append, readLines, if_pos (by simp [skipped, hmark]), ih]
  | sample hread hnumber _ _ ih =>
    rw [List.cons_append, readLines, if_neg (by simp [skipped_sampleLine hread]), readSample_written hread hnumber, ih]
    cases readLines others with
    | none => rfl
    | some read => rfl

/-- Lines, each ended by a line break. -/
theorem intercalate_concat (first : Text) (lines : List Text) :
    [10].intercalate (first :: lines) ++ [10] = [10].intercalate ((first :: lines) ++ [[]]) := by
  induction lines generalizing first with
  | nil => simp [List.intercalate]
  | cons second lines ih =>
    rw [List.intercalate_cons_cons, List.cons_append, List.cons_append, List.intercalate_cons_cons, ← List.cons_append, ← ih second]
    simp

/-- A text of such lines has their samples. -/
theorem Written.readText {first : Text} (h : Written (first :: lines) samples) :
    readText ([10].intercalate (first :: lines) ++ [10]) = some samples := by
  have hbreak : ∀ line ∈ (first :: lines) ++ [[]], 10 ∉ line := by
    intro line hline
    rcases List.mem_append.mp hline with hin | hlast
    · exact h.not_mem line hin
    · rw [List.mem_singleton.mp hlast]
      exact List.not_mem_nil
  rw [intercalate_concat, ExpositionText.readText, List.splitOn_intercalate 10 hbreak (by simp), h.readLines_append]
  simp [readLines, skipped]

end Texts

end RagSystem.ExpositionText
