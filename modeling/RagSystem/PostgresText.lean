import Mathlib.Data.List.Basic

/-!
# What PostgreSQL reads from a text

The lexical rules that decide which characters of a text are code: line
comments up to a line feed or carriage return, nested block comments, quoted
regions with doubled quotes, escape strings, dollar quotes, and semicolons
between statements. A reader takes one character after the other; what is read
is the same wherever blanks and comments stand between two words.
-/

namespace RagSystem.PostgresText

set_option autoImplicit false

section Reader

/-- What the reader makes of a character. -/
inductive Mark where
  /-- A character of a word or an operator. -/
  | code (c : Char)
  /-- A character of a quoted region, its quotes included. -/
  | quoted (c : Char)
  /-- Between words. -/
  | blank
  /-- Between statements. -/
  | semicolon
deriving DecidableEq

/-- The two quotes. -/
inductive Quote where
  /-- `'`. -/
  | single
  /-- `"`. -/
  | double
deriving DecidableEq

/-- The character of a quote. -/
def Quote.char : Quote → Char
  | .single => '\''
  | .double => '"'

/-- What the reader is in. Words and tags hold their last character first. -/
inductive LexMode where
  /-- Between tokens. -/
  | plain
  /-- In an identifier or keyword. -/
  | word (chars : List Char)
  /-- In a number. -/
  | number
  /-- After a dollar sign that may open a dollar quote. -/
  | dollarTag (tag : List Char)
  /-- After a minus that may open a comment. -/
  | dash
  /-- After a slash that may open a comment. -/
  | slash
  /-- In a quoted region. -/
  | quoted (quote : Quote)
  /-- After a quote that may close its region. -/
  | quotedEnd (quote : Quote)
  /-- In an escape string. -/
  | escape
  /-- After a backslash in an escape string. -/
  | escaped
  /-- After a quote that may close an escape string. -/
  | escapeEnd
  /-- In a line comment. -/
  | line
  /-- In block comments this deep, after a slash or a star if so. -/
  | block (depth : ℕ) (last : Option Char)
  /-- In a dollar-quoted string, with what follows the last dollar sign. -/
  | dollarBody (tag : List Char) (since : Option (List Char))
deriving DecidableEq

/-- White space of the lexer. -/
def isBlank (c : Char) : Bool :=
  c = ' ' || c = '\t' || c = '\n' || c = '\r' || c = '\x0b' || c = '\x0c'

/-- An identifier may begin so. -/
def isIdentStart (c : Char) : Bool := c.isAlpha || c = '_' || 128 ≤ c.toNat

/-- The word is the mark of an escape string. -/
def opensEscape (chars : List Char) : Bool := chars = ['e'] || chars = ['E']

/-- One character of code. -/
def readPlain (c : Char) : List Mark × LexMode :=
  if c = '-' then ([], .dash)
  else if c = '/' then ([], .slash)
  else if c = ';' then ([.semicolon], .plain)
  else if c = '\'' then ([.quoted c], .quoted .single)
  else if c = '"' then ([.quoted c], .quoted .double)
  else if c = '$' then ([.code c], .dollarTag [])
  else if isBlank c = true then ([.blank], .plain)
  else if isIdentStart c = true then ([.code c], .word [c])
  else if c.isDigit = true then ([.code c], .number)
  else ([.code c], .plain)

/-- One character after some of a word: it goes on, opens an escape string, or
is code again. -/
def readWord (chars : List Char) (c : Char) : List Mark × LexMode :=
  if c = '\'' ∧ opensEscape chars = true then ([.quoted c], .escape)
  else if isIdentStart c = true ∨ c.isDigit = true ∨ c = '$' then ([.code c], .word (c :: chars))
  else readPlain c

/-- One character after some of a tag. -/
def readTag (tag : List Char) (c : Char) : List Mark × LexMode :=
  if c = '\'' ∧ opensEscape tag = true then ([.quoted c], .escape)
  else if c = '$' then ([.code c], .dollarBody tag none)
  else if isIdentStart c = true then ([.code c], .dollarTag (c :: tag))
  else if c.isDigit = true then if tag = [] then ([.code c], .number) else ([.code c], .dollarTag (c :: tag))
  else readPlain c

/-- One character after some of a number. -/
def readNumber (c : Char) : List Mark × LexMode :=
  if c.isDigit = true ∨ isIdentStart c = true ∨ c = '.' then ([.code c], .number) else readPlain c

/-- One character in block comments: they nest. -/
def readBlock (depth : ℕ) (last : Option Char) (c : Char) : LexMode :=
  if c = '*' then if last = some '/' then .block (depth + 1) none else .block depth (some '*')
  else if c = '/' then
    if last = some '*' then if depth ≤ 1 then .plain else .block (depth - 1) none else .block depth (some '/')
  else .block depth none

/-- One character in a dollar-quoted string. -/
def readDollar (tag : List Char) (since : Option (List Char)) (c : Char) : LexMode :=
  if c = '$' then if since = some tag then .plain else .dollarBody tag (some [])
  else .dollarBody tag (since.map fun chars => c :: chars)

/-- Read one character. A minus, a slash or a quote waits for the next one. -/
def step : LexMode → Char → List Mark × LexMode
  | .plain, c => readPlain c
  | .word chars, c => readWord chars c
  | .number, c => readNumber c
  | .dollarTag tag, c => readTag tag c
  | .dash, c =>
    if c = '-' then ([.blank], .line)
    else
      let next := readPlain c
      (.code '-' :: next.1, next.2)
  | .slash, c =>
    if c = '*' then ([.blank], .block 1 none)
    else
      let next := readPlain c
      (.code '/' :: next.1, next.2)
  | .quoted q, c => ([.quoted c], if c = q.char then .quotedEnd q else .quoted q)
  | .quotedEnd q, c => if c = q.char then ([.quoted c], .quoted q) else readPlain c
  | .escape, c => ([.quoted c], if c = '\\' then .escaped else if c = '\'' then .escapeEnd else .escape)
  | .escaped, c => ([.quoted c], .escape)
  | .escapeEnd, c => if c = '\'' then ([.quoted c], .escape) else readPlain c
  | .line, c => if c = '\n' ∨ c = '\r' then ([.blank], .plain) else ([], .line)
  | .block depth last, c => ([], readBlock depth last c)
  | .dollarBody tag since, c => ([.quoted c], readDollar tag since c)

/-- At the end of the text what waits is code; an open region is an error. -/
def finish : LexMode → Option (List Mark)
  | .dash => some [.code '-']
  | .slash => some [.code '/']
  | .quoted _ => none
  | .escape => none
  | .escaped => none
  | .block _ _ => none
  | .dollarBody _ _ => none
  | _ => some []

/-- Read a text from a mode. -/
def read : LexMode → List Char → Option (List Mark)
  | m, [] => finish m
  | m, c :: rest => (read (step m c).2 rest).map fun marks => (step m c).1 ++ marks

end Reader

section Statements

/-- What stands before the next word. -/
inductive Gap where
  /-- The beginning. -/
  | start
  /-- Nothing. -/
  | none
  /-- Blanks. -/
  | blank
  /-- A semicolon, and perhaps blanks. -/
  | semicolon
deriving DecidableEq

/-- A gap with blanks after it. -/
def Gap.afterBlank : Gap → Gap
  | .none => .blank
  | g => g

/-- A gap with a semicolon after it. -/
def Gap.afterSemicolon : Gap → Gap
  | .start => .start
  | _ => .semicolon

/-- The one mark a gap is worth before a word. -/
def Gap.marks : Gap → List Mark
  | .blank => [.blank]
  | .semicolon => [.semicolon]
  | _ => []

/-- The words in order, with one mark for every gap between two. -/
def settle : Gap → List Mark → List Mark
  | _, [] => []
  | g, .blank :: rest => settle g.afterBlank rest
  | g, .semicolon :: rest => settle g.afterSemicolon rest
  | g, m :: rest => g.marks ++ m :: settle .none rest

/-- A statement: its words with a blank between two. -/
abbrev Statement := List Mark

/-- The statements some marks are. -/
def statementsOf (marks : List Mark) : List Statement :=
  ((settle .start marks).splitOn .semicolon).filter fun statement => statement ≠ []

/-- The statements PostgreSQL reads from a text. -/
def pgStatements (text : String) : Option (List Statement) := (read .plain text.toList).map statementsOf

example : (pgStatements "SELECT 1 --\r; DELETE FROM t").map List.length = some 2 := by decide +kernel

example : (pgStatements "SELECT E'\\'; --', $a$;$a$ /* /* */ ; */;").map List.length = some 1 := by decide +kernel

end Statements

section Words

variable {g : Gap} {m m' : LexMode} {c : Char} {a b : List Mark} {s s' : List Char}

/-- The gap after a mark. -/
def Gap.after : Gap → Mark → Gap
  | g, .blank => g.afterBlank
  | g, .semicolon => g.afterSemicolon
  | _, _ => .none

/-- The gap after some marks. -/
def Gap.afterAll (g : Gap) (marks : List Mark) : Gap := marks.foldl Gap.after g

/-- Blanks after blanks make no difference. -/
@[simp] theorem Gap.afterBlank_afterBlank (g : Gap) : g.afterBlank.afterBlank = g.afterBlank := by cases g <;> rfl

/-- Words are settled one after the other. -/
theorem settle_append (g : Gap) (a b : List Mark) : settle g (a ++ b) = settle g a ++ settle (g.afterAll a) b := by
  induction a generalizing g with
  | nil => rfl
  | cons m rest ih => cases m <;> simp [settle, Gap.afterAll, Gap.after, ih]

/-- The words a text has when read from a mode after a gap. -/
def wordsFrom (g : Gap) (m : LexMode) (s : List Char) : Option (List Mark) := (read m s).map (settle g)

/-- Texts of the same words have the same statements. -/
theorem pgStatements_congr {text text' : String}
    (h : wordsFrom .start .plain text.toList = wordsFrom .start .plain text'.toList) :
    pgStatements text = pgStatements text' := by
  have hmap : ∀ x : String, pgStatements x = (wordsFrom .start .plain x.toList).map fun words =>
      (words.splitOn .semicolon).filter fun statement => statement ≠ [] := by
    intro x
    simp only [pgStatements, wordsFrom, Option.map_map]
    rfl
  rw [hmap, hmap, h]

/-- The words of a text are those of its first character and those after it. -/
theorem wordsFrom_cons : wordsFrom g m (c :: s) =
    (wordsFrom (g.afterAll (step m c).1) (step m c).2 s).map fun words => settle g (step m c).1 ++ words := by
  simp only [wordsFrom, read, Option.map_map]
  congr 1
  funext marks
  exact settle_append _ _ _

/-- Texts that go on alike after one character are alike. -/
theorem wordsFrom_congr
    (h : wordsFrom (g.afterAll (step m c).1) (step m c).2 s = wordsFrom (g.afterAll (step m c).1) (step m c).2 s') :
    wordsFrom g m (c :: s) = wordsFrom g m (c :: s') := by
  rw [wordsFrom_cons, wordsFrom_cons, h]

/-- A character that marks nothing but blanks adds no word. -/
theorem settle_blanks (h : ∀ x ∈ a, x = .blank) : settle g a = [] := by
  induction a generalizing g with
  | nil => rfl
  | cons x rest ih =>
    have hx : x = .blank := h x List.mem_cons_self
    have hrest : settle g.afterBlank rest = [] := ih fun y hy => h y (List.mem_cons_of_mem _ hy)
    rw [hx, settle, hrest]

/-- Nor does it change a gap that ends in blanks. -/
theorem afterAll_blanks (hg : g.afterBlank = g) (h : ∀ x ∈ a, x = .blank) : g.afterAll a = g := by
  induction a with
  | nil => rfl
  | cons x rest ih =>
    have hx : x = .blank := h x List.mem_cons_self
    have hrest : g.afterAll rest = g := ih fun y hy => h y (List.mem_cons_of_mem _ hy)
    rw [Gap.afterAll, List.foldl_cons, hx, Gap.after, hg]
    exact hrest

/-- So it can be left out there. -/
theorem wordsFrom_skip (hg : g.afterBlank = g) (h : ∀ x ∈ (step m c).1, x = .blank) :
    wordsFrom g m (c :: s) = wordsFrom g (step m c).2 s := by
  rw [wordsFrom_cons, settle_blanks h, afterAll_blanks hg h]
  simp

/-- In block comments a character leaves them or stays inside. -/
theorem readBlock_mode (depth : ℕ) (last : Option Char) (c : Char) :
    readBlock depth last c = .plain ∨ ∃ d l, readBlock depth last c = .block d l := by
  unfold readBlock
  split
  · split <;> simp
  · split
    · split
      · split <;> simp
      · simp
    · simp

/-- Where a minus may open a comment, a blank ends what waits. -/
theorem step_blank_of_dash (h : (step m '-').2 = .dash) : step m ' ' = ((step m '-').1 ++ [.blank], .plain) := by
  have hc : readPlain '-' = ([], .dash) := by decide
  have hspace : readPlain ' ' = ([.blank], .plain) := by decide
  cases m with
  | quoted q =>
    simp only [step] at h
    split at h <;> cases h
  | quotedEnd q => cases q <;> simp [step, Quote.char, hc, hspace]
  | escape =>
    have hne : (step .escape '-') = ([.quoted '-'], .escape) := by decide
    rw [hne] at h
    cases h
  | escaped => simp [step] at h
  | line => simp [step] at h
  | block depth last =>
    rcases readBlock_mode depth last '-' with hm | ⟨d, l, hm⟩ <;> simp [step, hm] at h
  | dollarBody tag since => simp [step, readDollar] at h
  | _ => simp [step, readWord, readTag, readNumber, hc, hspace, isIdentStart] at h ⊢

/-- And where a slash may. -/
theorem step_blank_of_slash (h : (step m '/').2 = .slash) : step m ' ' = ((step m '/').1 ++ [.blank], .plain) := by
  have hc : readPlain '/' = ([], .slash) := by decide
  have hspace : readPlain ' ' = ([.blank], .plain) := by decide
  cases m with
  | quoted q =>
    simp only [step] at h
    split at h <;> cases h
  | quotedEnd q => cases q <;> simp [step, Quote.char, hc, hspace]
  | escape =>
    have hne : (step .escape '/') = ([.quoted '/'], .escape) := by decide
    rw [hne] at h
    cases h
  | escaped => simp [step] at h
  | line => simp [step] at h
  | block depth last =>
    rcases readBlock_mode depth last '/' with hm | ⟨d, l, hm⟩ <;> simp [step, hm] at h
  | dollarBody tag since => simp [step, readDollar] at h
  | _ => simp [step, readWord, readTag, readNumber, hc, hspace, isIdentStart] at h ⊢

end Words

section Separators

variable {g : Gap} {m : LexMode} {c : Char} {s t : List Char}

/-- White space or a semicolon. -/
def isSeparator (c : Char) : Bool := isBlank c || c = ';'

/-- The separators. -/
theorem isSeparator_iff : isSeparator c = true ↔
    c = ' ' ∨ c = '\t' ∨ c = '\n' ∨ c = '\r' ∨ c = '\x0b' ∨ c = '\x0c' ∨ c = ';' := by
  simp [isSeparator, isBlank, or_assoc]

/-- A mark between words or statements. -/
def Mark.separates (x : Mark) : Prop := x = .blank ∨ x = .semicolon

/-- After separating marks alone there are no words. -/
theorem settle_separators {a : List Mark} (h : ∀ x ∈ a, x.separates) : settle g a = [] := by
  induction a generalizing g with
  | nil => rfl
  | cons x rest ih =>
    have hrest : ∀ g', settle g' rest = [] := fun g' => ih fun y hy => h y (List.mem_cons_of_mem _ hy)
    rcases h x List.mem_cons_self with rfl | rfl
    · exact hrest _
    · exact hrest _

/-- In code a separator is read as such. -/
theorem readPlain_separator (hc : isSeparator c = true) : ∃ x, readPlain c = ([x], .plain) ∧ x.separates := by
  rcases isSeparator_iff.mp hc with rfl | rfl | rfl | rfl | rfl | rfl | rfl
  case inr.inr.inr.inr.inr.inr => exact ⟨.semicolon, by decide, .inr rfl⟩
  all_goals exact ⟨.blank, by decide, .inl rfl⟩

/-- A separator is no character the other modes look for. -/
theorem separator_other (hc : isSeparator c = true) :
    (c ≠ '\'' ∧ c ≠ '"' ∧ c ≠ '$' ∧ c ≠ '.' ∧ c ≠ '\\' ∧ c ≠ '*' ∧ c ≠ '/' ∧ c ≠ '-') ∧
      isIdentStart c = false ∧ c.isDigit = false := by
  rcases isSeparator_iff.mp hc with rfl | rfl | rfl | rfl | rfl | rfl | rfl <;> decide

/-- A separator neither closes an open region nor leaves one open. -/
theorem finish_step_separator (hc : isSeparator c = true) :
    (finish m = none → finish (step m c).2 = none) ∧
      ∀ p, finish m = some p → finish (step m c).2 = some [] ∧
        ∃ a, (step m c).1 = p ++ a ∧ ∀ x ∈ a, x.separates := by
  obtain ⟨x, hread, hx⟩ := readPlain_separator hc
  obtain ⟨⟨h1, h2, h3, h4, h5, h6, h7, h8⟩, hident, hdigit⟩ := separator_other hc
  have hcode : ∀ p, finish m = some p → step m c = (p ++ [x], .plain) →
      (finish m = none → finish (step m c).2 = none) ∧ ∀ p, finish m = some p → finish (step m c).2 = some [] ∧
        ∃ a, (step m c).1 = p ++ a ∧ ∀ x ∈ a, x.separates := by
    intro p hp hs
    refine ⟨fun hn => ?_, fun p' hp' => ?_⟩
    · rw [hp] at hn
      cases hn
    · have heq : p = p' := Option.some.inj (hp.symm.trans hp')
      rw [hs, heq]
      exact ⟨rfl, [x], rfl, by simpa using hx⟩
  cases m with
  | plain => exact hcode [] rfl (by simp [step, hread])
  | word chars => exact hcode [] rfl (by simp [step, readWord, hread, h1, h3, hident, hdigit])
  | number => exact hcode [] rfl (by simp [step, readNumber, hread, h4, hident, hdigit])
  | dollarTag tag => exact hcode [] rfl (by simp [step, readTag, hread, h1, h3, hident, hdigit])
  | dash => exact hcode [.code '-'] rfl (by simp [step, hread, h8])
  | slash => exact hcode [.code '/'] rfl (by simp [step, hread, h6])
  | quoted q =>
    have hq : c ≠ q.char := by cases q <;> simp [Quote.char, h1, h2]
    simp [step, finish, hq]
  | quotedEnd q =>
    have hq : c ≠ q.char := by cases q <;> simp [Quote.char, h1, h2]
    exact hcode [] rfl (by simp [step, hread, hq])
  | escape => simp [step, finish, h1, h5]
  | escaped => simp [step, finish]
  | escapeEnd => exact hcode [] rfl (by simp [step, hread, h1])
  | line =>
    refine ⟨fun hn => (nomatch hn), fun p hp => ?_⟩
    have hp : p = [] := (Option.some.inj hp).symm
    rw [hp]
    by_cases hend : c = '\n' ∨ c = '\r'
    · have hs : step .line c = ([.blank], .plain) := by simp [step, hend]
      rw [hs]
      exact ⟨rfl, [.blank], rfl, by simp [Mark.separates]⟩
    · have hs : step .line c = ([], .line) := by simp [step, hend]
      rw [hs]
      exact ⟨rfl, [], rfl, by simp⟩
  | block depth last => simp [step, finish, readBlock, h6, h7]
  | dollarBody tag since => simp [step, finish, readDollar, h3]

/-- Separators at the end add no words. -/
theorem wordsFrom_separators (h : ∀ c ∈ t, isSeparator c = true) : wordsFrom g m t = (finish m).map (settle g) := by
  induction t generalizing g m with
  | nil => rfl
  | cons c rest ih =>
    have hstep := finish_step_separator (m := m) (h c List.mem_cons_self)
    have hrest := ih (g := g.afterAll (step m c).1) (m := (step m c).2) fun y hy => h y (List.mem_cons_of_mem _ hy)
    rw [wordsFrom_cons, hrest]
    cases hm : finish m with
    | none => rw [hstep.1 hm]; rfl
    | some p =>
      obtain ⟨hfinish, a, ha, hseparates⟩ := hstep.2 p hm
      rw [hfinish, ha]
      simp [settle_append, settle_separators hseparates, settle]

/-- A text with separators at its end has the same words. -/
theorem wordsFrom_append (h : ∀ c ∈ t, isSeparator c = true) : wordsFrom g m (s ++ t) = wordsFrom g m s := by
  induction s generalizing g m with
  | nil => exact wordsFrom_separators h
  | cons c rest ih => exact wordsFrom_congr ih

/-- So does one with white space before it. -/
theorem wordsFrom_prepend (h : ∀ c ∈ t, isBlank c = true) : wordsFrom .start .plain (t ++ s) = wordsFrom .start .plain s := by
  induction t with
  | nil => rfl
  | cons c rest ih =>
    have hc : isBlank c = true := h c List.mem_cons_self
    have hread : step .plain c = ([.blank], .plain) := by
      have hvalue : c = ' ' ∨ c = '\t' ∨ c = '\n' ∨ c = '\r' ∨ c = '\x0b' ∨ c = '\x0c' := by
        simpa [isBlank, or_assoc] using hc
      rcases hvalue with rfl | rfl | rfl | rfl | rfl | rfl <;> decide
    have hblank : ∀ x ∈ (step .plain c).1, x = Mark.blank := by simp [hread]
    rw [List.cons_append, wordsFrom_skip rfl hblank, hread]
    exact ih fun y hy => h y (List.mem_cons_of_mem _ hy)

end Separators

end RagSystem.PostgresText
