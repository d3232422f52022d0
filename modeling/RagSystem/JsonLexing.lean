import RagSystem.JsonText

/-!
# Where the strings of a JSON text are

A text is gone through once, inside and outside of strings. What a reader takes
for a value has no backslash and no backtick outside of its strings and ends
outside. So a piece of a text that begins inside of a string is a value's text
only if it has neither at all.
-/

namespace RagSystem.JsonText

set_option autoImplicit false

attribute [local instance (2000)] List.decidableBAll

variable {M : Type}

/-- Where a character of the text stands. -/
inductive Mode where
  /-- Not in a string. -/
  | outside
  /-- In a string. -/
  | inside
  /-- In a string, after a backslash. -/
  | escaped
  deriving DecidableEq

/-- One character on: `none` where no reader goes on. -/
def Mode.next : Mode → Char → Option Mode
  | .outside, c => if c = '"' then some .inside else if c = '\\' ∨ c = '`' then none else some .outside
  | .inside, c => if c = '"' then some .outside else if c = '\\' then some .escaped else some .inside
  | .escaped, c => if c = '`' then none else some .inside

/-- A text on. -/
def lex (mode : Mode) : List Char → Option Mode
  | [] => some mode
  | c :: text => (mode.next c).bind fun mode => lex mode text

theorem lex_append (mode : Mode) (front back : List Char) :
    lex mode (front ++ back) = (lex mode front).bind fun mode => lex mode back := by
  induction front generalizing mode with
  | nil => rfl
  | cons c front ih =>
    rw [List.cons_append, lex, lex]
    cases mode.next c with
    | none => rfl
    | some next => exact ih next

/-- A text that ends somewhere has a part that ends somewhere. -/
theorem lex_front {mode last : Mode} {front back : List Char} (h : lex mode (front ++ back) = some last) :
    ∃ middle, lex mode front = some middle ∧ lex middle back = some last := by
  rw [lex_append] at h
  exact Option.bind_eq_some_iff.mp h

/-- No text without marks leaves its mode. -/
theorem lex_unmarked {text : List Char} (ht : ∀ c ∈ text, c ≠ '"' ∧ c ≠ '\\' ∧ c ≠ '`') :
    lex .outside text = some .outside ∧ lex .inside text = some .inside := by
  induction text with
  | nil => exact ⟨rfl, rfl⟩
  | cons c text ih =>
    have hc := List.forall_mem_cons.mp ht
    have hmore := ih hc.2
    simp [lex, Mode.next, hc.1, hmore]

/-- A character passed inside and outside is no mark, unless it is a quote, which
turns both round. -/
theorem next_both {c : Char} {next next' : Mode} (hinside : Mode.inside.next c = some next)
    (houtside : Mode.outside.next c = some next') : (c ≠ '\\' ∧ c ≠ '`') ∧
      (next = .inside ∧ next' = .outside ∨ next = .outside ∧ next' = .inside) := by
  by_cases hquote : c = '"'
  · subst hquote
    simp only [Mode.next, if_pos, Option.some.injEq] at hinside houtside
    exact ⟨by decide, .inr ⟨hinside.symm, houtside.symm⟩⟩
  · by_cases hmark : c = '\\' ∨ c = '`'
    · rw [Mode.next, if_neg hquote, if_pos hmark] at houtside
      cases houtside
    · obtain ⟨hback, htick⟩ := not_or.mp hmark
      simp only [Mode.next, if_neg hquote, if_neg hback, if_neg hmark, Option.some.injEq] at hinside houtside
      exact ⟨⟨hback, htick⟩, .inl ⟨hinside.symm, houtside.symm⟩⟩

/-- A text read from inside and from outside of a string has neither backslash nor backtick. -/
theorem unmarked_of_both {text : List Char} {last last' : Mode} (hinside : lex .inside text = some last)
    (houtside : lex .outside text = some last') : ∀ c ∈ text, c ≠ '\\' ∧ c ≠ '`' := by
  induction text generalizing last last' with
  | nil => simp
  | cons c text ih =>
    obtain ⟨next, hnext, hrest⟩ := Option.bind_eq_some_iff.mp hinside
    obtain ⟨next', hnext', hrest'⟩ := Option.bind_eq_some_iff.mp houtside
    obtain ⟨hplain, ⟨rfl, rfl⟩ | ⟨rfl, rfl⟩⟩ := next_both hnext hnext'
    · exact List.forall_mem_cons.mpr ⟨hplain, ih hrest hrest'⟩
    · exact List.forall_mem_cons.mpr ⟨hplain, ih hrest' hrest⟩

/-! ## What a reader takes -/

/-- Some string has a backtick. -/
def Ticked (strings : List String) : Prop := ∃ text ∈ strings, '`' ∈ text.toList

/-- A part of the text was taken for strings: it goes from one mode to another;
its backticks are theirs, and if nothing in it is escaped theirs are its. -/
structure Taken (first last : Mode) (used : List Char) (ticked : Prop) : Prop where
  /-- It leads from the one mode to the other. -/
  lexed : lex first used = some last
  /-- Its backticks are in the strings. -/
  found : '`' ∈ used → ticked
  /-- Unescaped, the strings' are in it. -/
  spelled : '\\' ∉ used → ticked → '`' ∈ used

theorem Taken.append {first middle last : Mode} {front back : List Char} {P Q : Prop}
    (hfront : Taken first middle front P) (hback : Taken middle last back Q) :
    Taken first last (front ++ back) (P ∨ Q) := by
  refine ⟨?_, fun hin => ?_, fun hback' hticked => ?_⟩
  · rw [lex_append, hfront.lexed]
    exact hback.lexed
  · exact (List.mem_append.mp hin).imp hfront.found hback.found
  · simp only [List.mem_append, not_or] at hback' ⊢
    exact hticked.imp (hfront.spelled hback'.1) (hback.spelled hback'.2)

theorem Taken.congr {first last : Mode} {used : List Char} {P Q : Prop} (h : Taken first last used P) (he : P ↔ Q) :
    Taken first last used Q :=
  ⟨h.lexed, fun hin => he.mp (h.found hin), fun hback hq => h.spelled hback (he.mpr hq)⟩

/-- Characters outside of strings. -/
theorem taken_outside {used : List Char} (hused : ∀ c ∈ used, c ≠ '"' ∧ c ≠ '\\' ∧ c ≠ '`') :
    Taken .outside .outside used False :=
  ⟨(lex_unmarked hused).1, fun hin => (hused _ hin).2.2 rfl, fun _ h => h.elim⟩

theorem taken_space (text : List Char) : Taken .outside .outside (text.takeWhile isSpace) False := by
  refine taken_outside fun c hc => ?_
  have hspace : isSpace c = true := by
    have hall := List.all_takeWhile (p := isSpace) (l := text)
    exact List.all_eq_true.mp hall c hc
  refine ⟨?_, ?_, ?_⟩ <;> rintro rfl <;> exact absurd hspace (by decide)

theorem takeWhile_skipSpace (text : List Char) : text.takeWhile isSpace ++ skipSpace text = text :=
  List.takeWhile_append_dropWhile

theorem hexValue_plain {c : Char} {n : ℕ} (h : hexValue c = some n) : c ≠ '"' ∧ c ≠ '\\' ∧ c ≠ '`' := by
  refine ⟨?_, ?_, ?_⟩ <;> rintro rfl <;> exact absurd h (by simp [hexValue])

/-- The digits of a code unit. -/
theorem codeUnit_plain {a b c d : Char} {n : ℕ} (h : codeUnit a b c d = some n) :
    ∀ x ∈ [a, b, c, d], x ≠ '"' ∧ x ≠ '\\' ∧ x ≠ '`' := by
  simp only [codeUnit, bind, Option.bind_eq_some_iff] at h
  obtain ⟨a', ha, b', hb, c', hc, d', hd, -⟩ := h
  simp [hexValue_plain ha, hexValue_plain hb, hexValue_plain hc, hexValue_plain hd]

/-- An escape is taken from after its backslash to its last character. -/
theorem parseEscape_lex {text rest : List Char} {c : Char} (h : parseEscape text = some (c, rest)) :
    ∃ used, text = used ++ rest ∧ lex .escaped used = some .inside ∧ '`' ∉ used := by
  have hone : ∀ (d : Char) (text : List Char), d ≠ '`' → some (c, text) = some (c, rest) →
      ∃ used, d :: text = used ++ rest ∧ lex .escaped used = some .inside ∧ '`' ∉ used := by
    intro d text hd he
    obtain rfl := (Prod.mk.inj (Option.some.inj he)).2
    exact ⟨[d], rfl, by simp [lex, Mode.next, hd], by simpa using Ne.symm hd⟩
  unfold parseEscape at h
  split at h
  iterate 8
    · obtain ⟨rfl, rfl⟩ := Prod.mk.inj (Option.some.inj h)
      exact hone _ _ (by decide) rfl
  · next a b d e text =>
    obtain ⟨unit, hunit, hchar⟩ := Option.bind_eq_some_iff.mp h
    have hdigits := codeUnit_plain hunit
    have hfour : lex .escaped ['u', a, b, d, e] = some .inside := by
      rw [lex]
      exact (lex_unmarked hdigits).2
    have hnone : '`' ∉ ['u', a, b, d, e] := by
      intro hin
      rcases List.mem_cons.mp hin with hbad | hin
      · exact absurd hbad (by decide)
      · exact (hdigits _ hin).2.2 rfl
    split at hchar
    · unfold parseLowSurrogate at hchar
      split at hchar
      · next a' b' d' e' text =>
        obtain ⟨low, hlow, hpair⟩ := Option.bind_eq_some_iff.mp hchar
        have hmore := codeUnit_plain hlow
        split at hpair
        · obtain ⟨-, rfl⟩ := Prod.mk.inj (Option.some.inj hpair)
          refine ⟨['u', a, b, d, e] ++ ['\\', 'u', a', b', d', e'], by simp, ?_, ?_⟩
          · rw [lex_append, hfour]
            exact (lex_unmarked hmore).2
          · refine fun hin => (List.mem_append.mp hin).elim hnone fun hin => ?_
            rcases List.mem_cons.mp hin with hbad | hin
            · exact absurd hbad (by decide)
            rcases List.mem_cons.mp hin with hbad | hin
            · exact absurd hbad (by decide)
            exact (hmore _ hin).2.2 rfl
        · cases hpair
      · cases hchar
    · split at hchar
      · cases hchar
      · obtain ⟨-, rfl⟩ := Prod.mk.inj (Option.some.inj hchar)
        exact ⟨['u', a, b, d, e], by simp, hfour, hnone⟩
  · cases h

/-- A string is taken from after its first quote to the last one. -/
theorem parseString_taken {fuel : ℕ} {text chars rest : List Char} (h : parseString fuel text = some (chars, rest)) :
    ∃ used, text = used ++ rest ∧ Taken .inside .outside used ('`' ∈ chars) := by
  induction fuel generalizing text chars with
  | zero => cases h
  | succ fuel ih =>
    cases text with
    | nil => cases h
    | cons c text =>
      unfold parseString at h
      split at h
      · next hquote =>
        cases h
        exact ⟨[c], rfl, by simp [lex, Mode.next, hquote], by simp [hquote], by simp⟩
      · next hquote =>
        split at h
        · next hback =>
          obtain ⟨⟨d, more⟩, hescape, hmap⟩ := Option.bind_eq_some_iff.mp h
          obtain ⟨⟨later, rest'⟩, hstring, he⟩ := Option.map_eq_some_iff.mp hmap
          cases he
          obtain ⟨front, rfl, hfront, hnone⟩ := parseEscape_lex hescape
          obtain ⟨used, rfl, htaken⟩ := ih hstring
          refine ⟨c :: (front ++ used), by simp, ?_, fun hin => ?_, fun hbackslash => absurd ?_ hbackslash⟩
          · rw [lex, Mode.next, if_neg hquote, if_pos hback, Option.bind_some, lex_append, hfront]
            exact htaken.lexed
          · have htick : '`' ∈ used := by
              rcases List.mem_cons.mp hin with hbad | hin
              · rw [← hbad] at hback
                exact absurd hback (by decide)
              · exact (List.mem_append.mp hin).resolve_left hnone
            exact List.mem_cons_of_mem _ (htaken.found htick)
          · simp [hback]
        · next hback =>
          split at h
          · cases h
          · obtain ⟨⟨later, rest'⟩, hstring, he⟩ := Option.map_eq_some_iff.mp h
            cases he
            obtain ⟨used, rfl, htaken⟩ := ih hstring
            refine ⟨c :: used, rfl, ?_, fun hin => ?_, fun hbackslash htick => ?_⟩
            · rw [lex, Mode.next, if_neg hquote, if_neg hback, Option.bind_some]
              exact htaken.lexed
            · exact List.mem_cons.mpr ((List.mem_cons.mp hin).imp id htaken.found)
            · have hused : '\\' ∉ used := fun hin => hbackslash (List.mem_cons_of_mem _ hin)
              exact List.mem_cons.mpr ((List.mem_cons.mp htick).imp id (htaken.spelled hused))

/-- A quoted string, quotes included. -/
theorem quoted_taken {fuel : ℕ} {text chars rest : List Char} (h : parseString fuel text = some (chars, rest)) :
    ∃ used, '"' :: text = used ++ rest ∧ Taken .outside .outside used ('`' ∈ chars) := by
  obtain ⟨used, rfl, htaken⟩ := parseString_taken h
  have hfirst : Taken .outside .inside ['"'] False := ⟨rfl, by simp, fun _ h => h.elim⟩
  exact ⟨'"' :: used, rfl, (hfirst.append htaken).congr (Iff.of_eq (false_or _))⟩

/-- White space and what follows it. -/
theorem taken_skipSpace {text used rest : List Char} {P : Prop} (hused : skipSpace text = used ++ rest)
    (h : Taken .outside .outside used P) : ∃ used', text = used' ++ rest ∧ Taken .outside .outside used' P := by
  refine ⟨text.takeWhile isSpace ++ used, ?_, ((taken_space text).append h).congr (Iff.of_eq (false_or _))⟩
  rw [List.append_assoc, ← hused, takeWhile_skipSpace]

/-- One mark outside of strings, after white space. -/
theorem taken_mark {text rest : List Char} {c : Char} (hc : c ≠ '"' ∧ c ≠ '\\' ∧ c ≠ '`')
    (htext : skipSpace text = c :: rest) : ∃ used, text = used ++ rest ∧ Taken .outside .outside used False :=
  taken_skipSpace (show skipSpace text = [c] ++ rest from htext) (taken_outside (by simpa using hc))

/-- Parts taken one after the other. -/
theorem taken_then {text middle rest front : List Char} {P Q : Prop} (hfront : text = front ++ middle)
    (h : Taken .outside .outside front P) (hback : ∃ used, middle = used ++ rest ∧ Taken .outside .outside used Q) :
    ∃ used, text = used ++ rest ∧ Taken .outside .outside used (P ∨ Q) := by
  obtain ⟨used, rfl, htaken⟩ := hback
  exact ⟨front ++ used, by rw [hfront, List.append_assoc], h.append htaken⟩

/-- A member's name and its colon. -/
theorem parseKey_taken {text rest : List Char} {key : String} (h : parseKey text = some (key, rest)) :
    ∃ used, text = used ++ rest ∧ Taken .outside .outside used ('`' ∈ key.toList) := by
  unfold parseKey at h
  split at h
  · next text' hspace =>
    obtain ⟨⟨chars, more⟩, hstring, hcolon⟩ := Option.bind_eq_some_iff.mp h
    split at hcolon
    · next rest' hmark =>
      obtain ⟨rfl, rfl⟩ := Prod.mk.inj (Option.some.inj hcolon)
      obtain ⟨used, hused, htaken⟩ := quoted_taken hstring
      obtain ⟨front, hfront, hname⟩ := taken_skipSpace (hspace.trans hused) htaken
      obtain ⟨all, hall, hboth⟩ := taken_then hfront hname (taken_mark (by decide) hmark)
      exact ⟨all, hall, hboth.congr (by simp)⟩
    · cases hcolon
  · cases h

/-- A number reader takes nothing that is a mark. -/
def NumbersUnmarked (scan : List Char → Option (M × List Char)) : Prop :=
  ∀ text m rest, scan text = some (m, rest) → ∃ used, text = used ++ rest ∧ ∀ c ∈ used, c ≠ '"' ∧ c ≠ '\\' ∧ c ≠ '`'

/-- What is read of a text was taken off it, strings and all. -/
def TakenOff {α : Type} (parser : List Char → Option (α × List Char)) (strings : α → List String) : Prop :=
  ∀ text a rest, parser text = some (a, rest) → ∃ used, text = used ++ rest ∧
    Taken .outside .outside used (Ticked (strings a))

theorem ticked_append (front back : List String) : Ticked (front ++ back) ↔ Ticked front ∨ Ticked back := by
  simp only [Ticked, List.mem_append, or_and_right, exists_or]

theorem ticked_cons (text : String) (texts : List String) : Ticked (text :: texts) ↔ '`' ∈ text.toList ∨ Ticked texts := by
  simp only [Ticked, List.mem_cons, or_and_right, exists_or, exists_eq_left]

theorem not_ticked_nil : ¬ Ticked [] := by simp [Ticked]

variable {scan : List Char → Option (M × List Char)}

/-- The items of an array. -/
theorem parseItems_taken {fuel : ℕ} (hvalue : TakenOff (parseValue scan fuel) Json.strings)
    (hitems : TakenOff (parseItems scan fuel) itemStrings) : TakenOff (parseItems scan (fuel + 1)) itemStrings := by
  intro text items rest h
  unfold parseItems at h
  obtain ⟨⟨item, more⟩, hitem, hnext⟩ := Option.bind_eq_some_iff.mp h
  obtain ⟨front, hfront, hfirst⟩ := hvalue _ _ _ hitem
  split at hnext
  · next text' hcomma =>
    obtain ⟨⟨later, rest'⟩, hlater, he⟩ := Option.map_eq_some_iff.mp hnext
    cases he
    obtain ⟨gap, hgap, hmark⟩ := taken_mark (by decide) hcomma
    obtain ⟨used, hused, htaken⟩ := taken_then hfront hfirst (taken_then hgap hmark (hitems _ _ _ hlater))
    exact ⟨used, hused, htaken.congr (by simp only [itemStrings, ticked_append, false_or])⟩
  · next text' hbracket =>
    cases hnext
    obtain ⟨used, hused, htaken⟩ := taken_then hfront hfirst (taken_mark (by decide) hbracket)
    exact ⟨used, hused, htaken.congr (by simp only [itemStrings, List.append_nil, or_false])⟩
  · cases hnext

/-- The members of an object. -/
theorem parseMembers_taken {fuel : ℕ} (hvalue : TakenOff (parseValue scan fuel) Json.strings)
    (hmembers : TakenOff (parseMembers scan fuel) memberStrings) :
    TakenOff (parseMembers scan (fuel + 1)) memberStrings := by
  intro text members rest h
  unfold parseMembers at h
  obtain ⟨⟨key, afterKey⟩, hkey, hrest⟩ := Option.bind_eq_some_iff.mp h
  obtain ⟨⟨value, more⟩, hread, hnext⟩ := Option.bind_eq_some_iff.mp hrest
  obtain ⟨front, hfront, hname⟩ := parseKey_taken hkey
  obtain ⟨middle, hmiddle, hfirst⟩ := hvalue _ _ _ hread
  split at hnext
  · next text' hcomma =>
    obtain ⟨⟨later, rest'⟩, hlater, he⟩ := Option.map_eq_some_iff.mp hnext
    cases he
    obtain ⟨gap, hgap, hmark⟩ := taken_mark (by decide) hcomma
    obtain ⟨used, hused, htaken⟩ := taken_then hfront hname
      (taken_then hmiddle hfirst (taken_then hgap hmark (hmembers _ _ _ hlater)))
    exact ⟨used, hused, htaken.congr (by simp only [memberStrings, ticked_cons, ticked_append, false_or])⟩
  · next text' hbrace =>
    cases hnext
    obtain ⟨used, hused, htaken⟩ := taken_then hfront hname (taken_then hmiddle hfirst (taken_mark (by decide) hbrace))
    exact ⟨used, hused, htaken.congr (by simp only [memberStrings, ticked_cons, List.append_nil, or_false])⟩
  · cases hnext

/-- A literal outside of strings. -/
theorem taken_literal {text rest literal : List Char} (hliteral : ∀ c ∈ literal, c ≠ '"' ∧ c ≠ '\\' ∧ c ≠ '`')
    (htext : skipSpace text = literal ++ rest) : ∃ used, text = used ++ rest ∧ Taken .outside .outside used (Ticked []) := by
  obtain ⟨used, hused, htaken⟩ := taken_skipSpace htext (taken_outside hliteral)
  exact ⟨used, hused, htaken.congr (by simp [not_ticked_nil])⟩

/-- A value. -/
theorem parseValue_taken (hscan : NumbersUnmarked scan) {fuel : ℕ} (hitems : TakenOff (parseItems scan fuel) itemStrings)
    (hmembers : TakenOff (parseMembers scan fuel) memberStrings) : TakenOff (parseValue scan (fuel + 1)) Json.strings := by
  intro text value rest h
  unfold parseValue at h
  split at h
  · next text' hspace =>
    obtain ⟨⟨chars, more⟩, hstring, he⟩ := Option.map_eq_some_iff.mp h
    cases he
    obtain ⟨used, hused, htaken⟩ := quoted_taken hstring
    obtain ⟨all, hall, hboth⟩ := taken_skipSpace (hspace.trans hused) htaken
    exact ⟨all, hall, hboth.congr (by simp [Json.strings, Ticked])⟩
  · next text' hspace =>
    obtain ⟨front, hfront, hopen⟩ := taken_mark (by decide) hspace
    split at h
    · next text'' hclose =>
      cases h
      obtain ⟨used, hused, htaken⟩ := taken_then hfront hopen (taken_mark (by decide) hclose)
      exact ⟨used, hused, htaken.congr (by simp [Json.strings, itemStrings, not_ticked_nil])⟩
    · obtain ⟨⟨items, more⟩, hread, he⟩ := Option.map_eq_some_iff.mp h
      cases he
      obtain ⟨used, hused, htaken⟩ := taken_then hfront hopen (hitems _ _ _ hread)
      exact ⟨used, hused, htaken.congr (by simp only [Json.strings, false_or])⟩
  · next text' hspace =>
    obtain ⟨front, hfront, hopen⟩ := taken_mark (by decide) hspace
    split at h
    · next text'' hclose =>
      cases h
      obtain ⟨used, hused, htaken⟩ := taken_then hfront hopen (taken_mark (by decide) hclose)
      exact ⟨used, hused, htaken.congr (by simp [Json.strings, memberStrings, not_ticked_nil])⟩
    · obtain ⟨⟨members, more⟩, hread, he⟩ := Option.map_eq_some_iff.mp h
      cases he
      obtain ⟨used, hused, htaken⟩ := taken_then hfront hopen (hmembers _ _ _ hread)
      exact ⟨used, hused, htaken.congr (by simp only [Json.strings, false_or])⟩
  · next text' hspace =>
    cases h
    exact taken_literal (by decide) (show skipSpace text = "true".toList ++ _ from hspace)
  · next text' hspace =>
    cases h
    exact taken_literal (by decide) (show skipSpace text = "false".toList ++ _ from hspace)
  · next text' hspace =>
    cases h
    exact taken_literal (by decide) (show skipSpace text = "null".toList ++ _ from hspace)
  · obtain ⟨⟨number, more⟩, hnumber, he⟩ := Option.map_eq_some_iff.mp h
    cases he
    obtain ⟨used, hused, hplain⟩ := hscan _ _ _ hnumber
    exact taken_literal hplain hused

/-- Whatever the fuel. -/
theorem takenOff_values (hscan : NumbersUnmarked scan) (fuel : ℕ) :
    TakenOff (parseValue scan fuel) Json.strings ∧ TakenOff (parseItems scan fuel) itemStrings ∧
      TakenOff (parseMembers scan fuel) memberStrings := by
  induction fuel with
  | zero =>
    refine ⟨?_, ?_, ?_⟩
    · intro text value rest h
      simp [parseValue] at h
    · intro text items rest h
      simp [parseItems] at h
    · intro text members rest h
      simp [parseMembers] at h
  | succ fuel ih =>
    exact ⟨parseValue_taken hscan ih.2.1 ih.2.2, parseItems_taken ih.1 ih.2.1, parseMembers_taken ih.1 ih.2.2⟩

/-- The whole text of a value. -/
theorem parse_taken (hscan : NumbersUnmarked scan) {text : List Char} {value : Json M} (h : parse scan text = some value) :
    Taken .outside .outside text (Ticked value.strings) := by
  obtain ⟨⟨value', rest⟩, hread, hend⟩ := Option.bind_eq_some_iff.mp h
  split at hend
  · next hspace =>
    cases hend
    obtain ⟨used, hused, htaken⟩ := (takenOff_values hscan _).1 _ _ _ hread
    have hgap := taken_space rest
    have hrest : rest.takeWhile isSpace = rest := by
      have hsplit := takeWhile_skipSpace rest
      rwa [hspace, List.append_nil] at hsplit
    rw [hrest] at hgap
    rw [hused]
    exact (htaken.append hgap).congr (Iff.of_eq (or_false _))
  · cases hend

end RagSystem.JsonText
