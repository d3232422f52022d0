import RagSystem.SqlComments

/-!
# What the comment stripper keeps

A text whose quoted regions and block comments are all closed is a sequence of
segments. The stripper keeps every segment but the comments, puts one space
for each of these, and leaves a text without comments.
-/

namespace RagSystem.CommentStripping

open DocumentModels SqlComments

set_option autoImplicit false

section Segments

/-- The inside of a region quoted by `q`: a quote in it is doubled. -/
inductive QuotedBody (q : Char) : List Char → Prop where
  /-- Nothing. -/
  | nil : QuotedBody q []
  /-- Any other character. -/
  | char {c : Char} {body : List Char} (hc : c ≠ q) (h : QuotedBody q body) : QuotedBody q (c :: body)
  /-- A doubled quote. -/
  | doubled {body : List Char} (h : QuotedBody q body) : QuotedBody q (q :: q :: body)

/-- What is left of block comments this deep, to the end of the outermost. -/
inductive BlockBody : ℕ → List Char → Prop where
  /-- All are closed. -/
  | closed : BlockBody 0 []
  /-- One more is opened. -/
  | opens {depth : ℕ} {body : List Char} (h : BlockBody (depth + 2) body) : BlockBody (depth + 1) ('/' :: '*' :: body)
  /-- The innermost is closed. -/
  | closes {depth : ℕ} {body : List Char} (h : BlockBody depth body) : BlockBody (depth + 1) ('*' :: '/' :: body)
  /-- Any other character. -/
  | char {depth : ℕ} {c : Char} {body : List Char} (hopens : ¬ (c = '/' ∧ body.head? = some '*'))
      (hcloses : ¬ (c = '*' ∧ body.head? = some '/')) (h : BlockBody (depth + 1) body) : BlockBody (depth + 1) (c :: body)

/-- A part of a text. -/
inductive Segment where
  /-- A character of code. -/
  | code (c : Char)
  /-- A quoted region. -/
  | quoted (quote : Char) (body : List Char)
  /-- A line comment, without the newline that ends it. -/
  | lineComment (body : List Char)
  /-- A block comment; the body goes to its end. -/
  | blockComment (body : List Char)
  deriving DecidableEq

/-- Its characters. -/
def Segment.text : Segment → List Char
  | .code c => [c]
  | .quoted quote body => quote :: (body ++ [quote])
  | .lineComment body => '-' :: '-' :: body
  | .blockComment body => '/' :: '*' :: body

/-- It is a comment. -/
def Segment.isComment : Segment → Bool
  | .lineComment _ => true
  | .blockComment _ => true
  | _ => false

/-- It is a segment of its kind where this text follows: code opens neither a
comment nor a region, and no region or line comment ends too early. -/
def Segment.Fits (rest : List Char) : Segment → Prop
  | .code c => c ≠ '\'' ∧ c ≠ '"' ∧ ¬ (c = '-' ∧ rest.head? = some '-') ∧ ¬ (c = '/' ∧ rest.head? = some '*')
  | .quoted quote body => (quote = '\'' ∨ quote = '"') ∧ QuotedBody quote body ∧ rest.head? ≠ some quote
  | .lineComment body => '\n' ∉ body ∧ (rest = [] ∨ rest.head? = some '\n')
  | .blockComment body => BlockBody 1 body

/-- The characters of a sequence of segments. -/
abbrev textOf (segments : List Segment) : List Char := segments.flatMap Segment.text

theorem textOf_cons (segment : Segment) (segments : List Segment) :
    textOf (segment :: segments) = segment.text ++ textOf segments := List.flatMap_cons

/-- Every segment fits where it stands. -/
def Lexed : List Segment → Prop
  | [] => True
  | segment :: segments => segment.Fits (textOf segments) ∧ Lexed segments

/-- A comment is worth one space. -/
def Segment.stripped (segment : Segment) : Segment := if segment.isComment then .code ' ' else segment

end Segments

section Scanner

variable {rest body : List Char}

/-- Outside of a comment opener the scanner copies. -/
theorem scan_code {c : Char} (hline : ¬ (c = '-' ∧ rest.head? = some '-')) (hblock : ¬ (c = '/' ∧ rest.head? = some '*')) :
    scan .code (c :: rest) = c :: scan (codeMode c) rest := by
  rw [scan]
  · intro rest' hc hrest
    exact hline ⟨hc, by rw [hrest]; rfl⟩
  · intro rest' hc hrest
    exact hblock ⟨hc, by rw [hrest]; rfl⟩

/-- A quoted region is copied to its closing quote. -/
theorem scan_quoted {q : Char} (hbody : QuotedBody q body) (hrest : rest.head? ≠ some q) :
    scan (.quoted q) (body ++ q :: rest) = body ++ q :: scan .code rest := by
  induction hbody with
  | nil =>
    cases rest with
    | nil =>
      rw [List.nil_append, List.nil_append, scan]
      rw [scan]
    | cons c rest =>
      have hne : c ≠ q := fun hc => hrest (by rw [hc]; rfl)
      rw [List.nil_append, List.nil_append]
      conv => lhs; rw [scan, if_pos rfl, if_neg hne]
  | @char c body hc _ ih =>
    have hcopy : ∀ text : List Char, text ≠ [] → scan (.quoted q) (c :: text) = c :: scan (.quoted q) text := by
      intro text htext
      cases text with
      | nil => exact absurd rfl htext
      | cons c' text => rw [scan, if_neg hc]
    have hsome : body ++ q :: rest ≠ [] := by simp
    rw [List.cons_append, hcopy _ hsome, ih]
    rfl
  | @doubled body _ ih =>
    rw [List.cons_append, List.cons_append, scan, if_pos rfl, if_pos rfl, ih]
    rfl

/-- A line comment is dropped. -/
theorem scan_lineComment (hbody : '\n' ∉ body) (hrest : rest = [] ∨ rest.head? = some '\n') :
    scan .lineComment (body ++ rest) = scan .code rest := by
  induction body with
  | nil =>
    cases rest with
    | nil => rw [List.append_nil, scan, scan]
    | cons c rest =>
      have hc : c = '\n' := by simpa using hrest
      have hcopy : scan .code ('\n' :: rest) = '\n' :: scan .code rest :=
        scan_code (fun h => absurd h.1 (by decide)) (fun h => absurd h.1 (by decide))
      rw [List.nil_append, hc, hcopy]
      conv => lhs; rw [scan, if_pos rfl]
  | cons c body ih =>
    have hne : c ≠ '\n' := fun hc => hbody (hc ▸ List.mem_cons_self)
    have hlater : '\n' ∉ body := fun hin => hbody (List.mem_cons_of_mem _ hin)
    rw [List.cons_append, scan, if_neg hne]
    exact ih hlater

/-- What closes one of several comments leaves one fewer. -/
theorem closeBlock_succ (depth : ℕ) : closeBlock (depth + 2) = .blockComment (depth + 1) := by
  have hdeep : ¬ depth + 2 ≤ 1 := by omega
  rw [closeBlock, if_neg hdeep]
  rfl

/-- Block comments are dropped to the end of the outermost. -/
theorem scan_blockComment {depth : ℕ} (hbody : BlockBody (depth + 1) body) :
    scan (.blockComment (depth + 1)) (body ++ rest) = scan .code rest := by
  generalize hlevel : depth + 1 = level at hbody
  induction hbody generalizing depth with
  | closed => omega
  | @opens inner body _ ih =>
    rw [List.cons_append, List.cons_append, scan]
    have hinner : inner + 1 + 1 = inner + 2 := rfl
    exact ih hinner
  | @closes inner body h ih =>
    rw [List.cons_append, List.cons_append, scan]
    cases inner with
    | zero =>
      cases h with
      | closed => rfl
    | succ inner =>
      rw [closeBlock_succ]
      exact ih rfl
  | @char inner c body hopens hcloses h ih =>
    have hhead : (body ++ rest).head? = body.head? := by
      cases body with
      | nil => cases h
      | cons c' body => rfl
    rw [List.cons_append, scan]
    · exact ih rfl
    · intro rest' hc hrest
      exact hopens ⟨hc, by rw [← hhead, hrest]; rfl⟩
    · intro rest' hc hrest
      exact hcloses ⟨hc, by rw [← hhead, hrest]; rfl⟩

end Scanner

section Stripping

variable {segment : Segment} {segments : List Segment} {rest : List Char}

/-- One segment: it is copied, or one space stands for it. -/
theorem scan_segment (h : segment.Fits rest) :
    scan .code (segment.text ++ rest) = segment.stripped.text ++ scan .code rest := by
  cases segment with
  | code c =>
    obtain ⟨hsingle, hdouble, hline, hblock⟩ := h
    have hmode : codeMode c = .code := if_neg (not_or.mpr ⟨hsingle, hdouble⟩)
    have hcopy := scan_code hline hblock
    rw [hmode] at hcopy
    exact hcopy
  | quoted quote body =>
    obtain ⟨hquote, hbody, hrest⟩ := h
    have hmode : codeMode quote = .quoted quote := if_pos hquote
    have hnotLine : ¬ (quote = '-' ∧ (body ++ quote :: rest).head? = some '-') := by
      intro hdash
      rcases hquote with hq | hq
      · exact absurd (hq.symm.trans hdash.1) (by decide)
      · exact absurd (hq.symm.trans hdash.1) (by decide)
    have hnotBlock : ¬ (quote = '/' ∧ (body ++ quote :: rest).head? = some '*') := by
      intro hslash
      rcases hquote with hq | hq
      · exact absurd (hq.symm.trans hslash.1) (by decide)
      · exact absurd (hq.symm.trans hslash.1) (by decide)
    have hopen := scan_code hnotLine hnotBlock
    have hclose := scan_quoted hbody hrest
    have htext : (Segment.quoted quote body).text ++ rest = quote :: (body ++ quote :: rest) := by
      simp [Segment.text]
    rw [htext, hopen, hmode, hclose]
    simp [Segment.stripped, Segment.isComment, Segment.text]
  | lineComment body =>
    have hdropped := scan_lineComment h.1 h.2
    have hopen : scan .code ('-' :: '-' :: (body ++ rest)) = ' ' :: scan .lineComment (body ++ rest) := by rw [scan]
    exact hopen.trans (congrArg (' ' :: ·) hdropped)
  | blockComment body =>
    have hbody : BlockBody (0 + 1) body := h
    have hdropped : scan (.blockComment (0 + 1)) (body ++ rest) = scan .code rest := scan_blockComment hbody
    have hopen : scan .code ('/' :: '*' :: (body ++ rest)) = ' ' :: scan (.blockComment 1) (body ++ rest) := by rw [scan]
    exact hopen.trans (congrArg (' ' :: ·) hdropped)

/-- All segments: the comments are replaced, the rest is kept in order. -/
theorem scan_textOf (h : Lexed segments) : scan .code (textOf segments) = textOf (segments.map Segment.stripped) := by
  induction segments with
  | nil => rfl
  | cons segment segments ih =>
    have hfirst := scan_segment h.1
    have hrest := ih h.2
    rw [textOf_cons, List.map_cons, textOf_cons, hfirst, hrest]

/-- A segment begins as before, or with a space. -/
theorem head?_stripped (segments : List Segment) :
    (textOf (segments.map Segment.stripped)).head? = (textOf segments).head? ∨
      (textOf (segments.map Segment.stripped)).head? = some ' ' := by
  cases segments with
  | nil => exact .inl rfl
  | cons segment segments =>
    cases segment with
    | code c => exact .inl rfl
    | quoted quote body => exact .inl rfl
    | lineComment body => exact .inr rfl
    | blockComment body => exact .inr rfl

/-- A stripped segment fits before a text that begins as before, or with a space. -/
theorem Segment.Fits.stripped {after : List Char} (h : segment.Fits rest)
    (hhead : after.head? = rest.head? ∨ after.head? = some ' ') : segment.stripped.Fits after := by
  have hkept : ∀ c : Char, c ≠ ' ' → after.head? = some c → rest.head? = some c := by
    intro c hc hafter
    rcases hhead with hsame | hspace
    · rw [← hsame, hafter]
    · rw [hspace] at hafter
      exact absurd (Option.some.inj hafter).symm hc
  cases segment with
  | code c =>
    obtain ⟨hsingle, hdouble, hline, hblock⟩ := h
    refine ⟨hsingle, hdouble, fun hdash => hline ⟨hdash.1, ?_⟩, fun hslash => hblock ⟨hslash.1, ?_⟩⟩
    · exact hkept '-' (by decide) hdash.2
    · exact hkept '*' (by decide) hslash.2
  | quoted quote body =>
    obtain ⟨hquote, hbody, hrest⟩ := h
    refine ⟨hquote, hbody, fun hafter => hrest (hkept quote ?_ hafter)⟩
    rcases hquote with hq | hq
    · rw [hq]
      decide
    · rw [hq]
      decide
  | lineComment body => exact ⟨by decide, by decide, fun h => absurd h.1 (by decide), fun h => absurd h.1 (by decide)⟩
  | blockComment body => exact ⟨by decide, by decide, fun h => absurd h.1 (by decide), fun h => absurd h.1 (by decide)⟩

/-- What is left is again made of segments. -/
theorem lexed_stripped (h : Lexed segments) : Lexed (segments.map Segment.stripped) := by
  induction segments with
  | nil => trivial
  | cons segment segments ih => exact ⟨h.1.stripped (head?_stripped segments), ih h.2⟩

/-- There is no comment among them. -/
theorem isComment_stripped (segment : Segment) : segment.stripped.isComment = false := by
  cases segment with
  | code c => rfl
  | quoted quote body => rfl
  | lineComment body => rfl
  | blockComment body => rfl

/-- A stripped segment is worth itself. -/
theorem stripped_stripped (segment : Segment) : segment.stripped.stripped = segment.stripped := by
  have hplain := isComment_stripped segment
  rw [Segment.stripped, hplain]
  rfl

/-- A text all of whose quoted regions and block comments are closed: stripped,
it has its code and its quoted regions as they are and in order, with one
space for each comment; this is a text without comments; and stripping it
again changes nothing. -/
theorem comments_stripped (sql : String) (htext : textOf segments = sql.toList) (hlexed : Lexed segments) :
    (stripSqlComments sql).toList = textOf (segments.map Segment.stripped) ∧
    Lexed (segments.map Segment.stripped) ∧
    (∀ segment ∈ segments.map Segment.stripped, segment.isComment = false) ∧
    stripSqlComments (stripSqlComments sql) = stripSqlComments sql := by
  have hresult : (stripSqlComments sql).toList = textOf (segments.map Segment.stripped) := by
    rw [stripSqlComments, String.toList_ofList, ← htext, scan_textOf hlexed]
  refine ⟨hresult, lexed_stripped hlexed, fun segment hin => ?_, ?_⟩
  · obtain ⟨original, _, hsame⟩ := List.mem_map.mp hin
    rw [← hsame, isComment_stripped]
  · have htwice : (segments.map Segment.stripped).map Segment.stripped = segments.map Segment.stripped := by
      rw [List.map_map]
      exact List.map_congr_left fun segment _ => stripped_stripped segment
    have hagain := scan_textOf (lexed_stripped hlexed)
    rw [htwice] at hagain
    have hlists : (stripSqlComments (stripSqlComments sql)).toList = (stripSqlComments sql).toList := by
      conv => lhs; rw [stripSqlComments, String.toList_ofList, hresult, hagain]
      exact hresult.symm
    exact String.toList_inj.mp hlists

/-- A quoted comment opener, and a comment between two words. -/
def sampleSegments : List Segment := [.quoted '\'' ['-', '-'], .blockComment ['x', '*', '/'], .code 'a']

theorem comments_stripped_sample : stripSqlComments "'--'/*x*/a" = "'--' a" := by
  have hbody : QuotedBody '\'' ['-', '-'] := .char (by decide) (.char (by decide) .nil)
  have hblock : BlockBody 1 ['x', '*', '/'] := .char (by decide) (by decide) (.closes .closed)
  have hlexed : Lexed sampleSegments :=
    ⟨⟨.inl rfl, hbody, by decide⟩, hblock, ⟨by decide, by decide, by decide, by decide⟩, trivial⟩
  have htext : textOf sampleSegments = "'--'/*x*/a".toList := by decide
  have hstripped := (comments_stripped "'--'/*x*/a" htext hlexed).1
  have hresult : textOf (sampleSegments.map Segment.stripped) = "'--' a".toList := by decide
  exact String.toList_inj.mp (hstripped.trans hresult)

end Stripping

end RagSystem.CommentStripping
