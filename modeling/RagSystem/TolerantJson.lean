import RagSystem.DocumentModels
import RagSystem.PythonJson

/-!
# JSON out of a model's reply

The readers of model replies take the text between the first two code fences
when there are two, and else the text, or what is between its first and its last
brace; then they read it as JSON. What a reader makes of an object afterwards is
left out, and so is how it fails: it has the object, or not.
-/

namespace RagSystem.TolerantJson

open JsonText hiding isSpace
open PythonNumbers PythonJson
open DocumentModels (isSpace)

set_option autoImplicit false

attribute [local instance (2000)] List.decidableBAll

/-- The members of an object. -/
abbrev Members := List (String × Json PyNumber)

/-- `str.strip`. -/
def strip (text : List Char) : List Char := ((text.dropWhile isSpace).reverse.dropWhile isSpace).reverse

/-- A code fence. -/
def fence : List Char := ['`', '`', '`']

/-- The text before its first fence, and after. -/
def cutFence : List Char → Option (List Char × List Char)
  | [] => none
  | c :: text =>
    if fence.isPrefixOf (c :: text) then some ([], text.drop 2)
    else (cutFence text).map fun cut => (c :: cut.1, cut.2)

/-- `(?:json)?`, whatever the case; the long s is one of its letters then. -/
def skipTag : List Char → List Char
  | a :: b :: c :: d :: text =>
    if a ∈ ['j', 'J'] ∧ b ∈ ['s', 'S', 'ſ'] ∧ c ∈ ['o', 'O'] ∧ d ∈ ['n', 'N'] then text else a :: b :: c :: d :: text
  | text => text

/-- After the first fence, its tag and white space. -/
def fenceBody (after : List Char) : List Char := (skipTag after).dropWhile isSpace

/-- The group of ```` ```(?:json)?\\s*(.*?)``` ````, searched for in a text. -/
def fencedGroup (text : List Char) : Option (List Char) :=
  (cutFence text).bind fun cut => (cutFence (fenceBody cut.2)).map (·.1)

/-- `\\{.*\\}`, searched for in a text: from the first brace to the last. -/
def bracedGroup (text : List Char) : Option (List Char) :=
  match text.dropWhile (· ≠ '\x7b') with
  | [] => none
  | first :: rest =>
    match rest.reverse.dropWhile (· ≠ '\x7d') with
    | [] => none
    | last :: body => some (first :: (last :: body).reverse)

/-- The text a reader of fenced replies reads. -/
def unfenced (text : List Char) : List Char :=
  match fencedGroup (strip text) with
  | some group => strip group
  | none => strip text

/-- The text a reader of replies in prose reads. -/
def unwrapped (text : List Char) : List Char :=
  match fencedGroup (strip text) with
  | some group => strip group
  | none =>
    match bracedGroup (strip text) with
    | some object => strip object
    | none => strip text

/-- On which texts `json.loads` runs out of stack. -/
abbrev StackLimit := List Char → Bool

variable (exhausts : StackLimit)

/-- The object `json.loads` makes of a text, if it makes one. -/
def loadsObject (text : List Char) : Option Members :=
  if exhausts text then none
  else
    match parse scanPython text with
    | some (.obj members) => some members
    | _ => none

/-! ## The readers -/

/-- `_parse_structured_answer`. -/
def parseStructuredAnswer (text : List Char) : Option Members := loadsObject exhausts (unfenced text)

/-- `_parse_json_object` of the claim mapper. -/
def parseJsonObject (text : List Char) : Option Members := loadsObject exhausts (unfenced text)

/-- `_extract_json_object` of the judge. -/
def judgeJsonObject (raw : List Char) : Option Members :=
  if strip raw = [] then none else loadsObject exhausts (unwrapped raw)

/-- `_extract_json_object` of the trace investigator. -/
def investigatorJsonObject (raw : List Char) : Option Members :=
  if strip raw = [] then none else loadsObject exhausts (unwrapped raw)

/-- The payload of `_parse_routing_response`. -/
def routingPayload (raw : List Char) : Option Members := loadsObject exhausts (unwrapped raw)

/-- The payload of `_parse_rewrite_response`. -/
def rewritePayload (raw : List Char) : Option Members :=
  if strip raw = [] then none else loadsObject exhausts (unwrapped raw)

/-- The readers. -/
inductive Extractor where
  | answer | claims | judge | investigator | routing | rewrite

/-- What a reader has of a reply. -/
def Extractor.read (exhausts : StackLimit) : Extractor → List Char → Option Members
  | .answer => parseStructuredAnswer exhausts
  | .claims => parseJsonObject exhausts
  | .judge => judgeJsonObject exhausts
  | .investigator => investigatorJsonObject exhausts
  | .routing => routingPayload exhausts
  | .rewrite => rewritePayload exhausts

/-! ## Fences -/

/-- A text with a fence. -/
def Fenced (text : List Char) : Prop := ∃ front back, text = front ++ fence ++ back

/-- A text with two, not overlapping. -/
def TwiceFenced (text : List Char) : Prop := ∃ front middle back, text = front ++ fence ++ middle ++ fence ++ back

theorem cutFence_cons {c : Char} {text : List Char} (hc : fence.isPrefixOf (c :: text) = false) :
    cutFence (c :: text) = (cutFence text).map fun cut => (c :: cut.1, cut.2) := by
  rw [cutFence, if_neg (by simp [hc])]

/-- A text is cut where a fence is. -/
theorem cutFence_eq_some {text front back : List Char} (h : cutFence text = some (front, back)) :
    text = front ++ fence ++ back := by
  induction text generalizing front with
  | nil => cases h
  | cons c text ih =>
    cases hc : fence.isPrefixOf (c :: text) with
    | true =>
      rw [cutFence, if_pos hc] at h
      cases h
      obtain ⟨rest, hrest⟩ := List.isPrefixOf_iff_prefix.mp hc
      simp only [fence, List.cons_append, List.nil_append, List.cons.injEq] at hrest
      obtain ⟨rfl, rfl⟩ := hrest
      rfl
    | false =>
      rw [cutFence_cons hc] at h
      obtain ⟨⟨front', back'⟩, hcut, he⟩ := Option.map_eq_some_iff.mp h
      cases he
      rw [ih hcut]
      rfl

/-- At the first one. -/
theorem cutFence_le {text front back : List Char} (htext : text = front ++ fence ++ back) :
    ∃ first rest, cutFence text = some (first, rest) ∧ first.length ≤ front.length := by
  induction text generalizing front with
  | nil => simp [fence] at htext
  | cons c text ih =>
    cases hc : fence.isPrefixOf (c :: text) with
    | true => exact ⟨[], text.drop 2, by rw [cutFence, if_pos hc], by simp⟩
    | false =>
      cases front with
      | nil =>
        rw [List.nil_append] at htext
        have hstart : fence.isPrefixOf (c :: text) = true := List.isPrefixOf_iff_prefix.mpr ⟨back, htext.symm⟩
        rw [hstart] at hc
        cases hc
      | cons d front =>
        have htail := (List.cons.inj htext).2
        obtain ⟨first, rest, hcut, hle⟩ := ih htail
        exact ⟨c :: first, rest, by rw [cutFence_cons hc, hcut, Option.map_some], by simpa using hle⟩

theorem cutFence_eq_none {text : List Char} : cutFence text = none ↔ ¬ Fenced text := by
  constructor
  · rintro hnone ⟨front, back, htext⟩
    obtain ⟨first, rest, hcut, -⟩ := cutFence_le htext
    rw [hnone] at hcut
    cases hcut
  · intro hfenced
    cases hcut : cutFence text with
    | none => rfl
    | some cut => exact absurd ⟨_, _, cutFence_eq_some hcut⟩ hfenced

/-- More text behind does not move the first fence. -/
theorem cutFence_append {text front back : List Char} (h : cutFence text = some (front, back)) (more : List Char) :
    cutFence (text ++ more) = some (front, back ++ more) := by
  induction text generalizing front with
  | nil => cases h
  | cons c text ih =>
    cases hc : fence.isPrefixOf (c :: text) with
    | true =>
      rw [cutFence, if_pos hc] at h
      cases h
      obtain ⟨rest, hrest⟩ := List.isPrefixOf_iff_prefix.mp hc
      have hstart : fence.isPrefixOf (c :: (text ++ more)) = true :=
        List.isPrefixOf_iff_prefix.mpr ⟨rest ++ more, by rw [← List.append_assoc, hrest, List.cons_append]⟩
      simp only [fence, List.cons_append, List.nil_append, List.cons.injEq] at hrest
      obtain ⟨rfl, rfl⟩ := hrest
      rw [List.cons_append, cutFence, if_pos hstart]
      rfl
    | false =>
      rw [cutFence_cons hc] at h
      obtain ⟨⟨front', back'⟩, hcut, he⟩ := Option.map_eq_some_iff.mp h
      cases he
      have hnot : fence.isPrefixOf (c :: (text ++ more)) = false := by
        by_contra hstart
        rw [Bool.not_eq_false, List.isPrefixOf_iff_prefix] at hstart
        have hlong : fence.length ≤ (c :: text).length := by
          have hcut' := congrArg List.length (cutFence_eq_some hcut)
          simp only [List.length_append] at hcut'
          simp only [List.length_cons]
          omega
        have hshort := List.prefix_of_prefix_length_le hstart (List.prefix_append (c :: text) more) hlong
        rw [List.isPrefixOf_iff_prefix.mpr hshort] at hc
        cases hc
      rw [List.cons_append, cutFence_cons hnot, ih hcut]
      rfl

/-- Before a line end the fence is the one behind it, when there is no other. -/
theorem cutFence_closing {text : List Char} (h : ¬ Fenced text) :
    cutFence (text ++ '\n' :: fence) = some (text ++ ['\n'], []) := by
  induction text with
  | nil => rfl
  | cons c text ih =>
    have hmore : ¬ Fenced text := fun ⟨front, back, htext⟩ => h ⟨c :: front, back, by rw [htext]; rfl⟩
    have hnot : fence.isPrefixOf (c :: (text ++ '\n' :: fence)) = false := by
      by_contra hstart
      rw [Bool.not_eq_false, List.isPrefixOf_iff_prefix] at hstart
      obtain ⟨back, hback⟩ := hstart
      match text, hback with
      | [], hback => simp [fence] at hback
      | [d], hback => simp [fence] at hback
      | d :: e :: text, hback =>
        simp only [fence, List.cons_append, List.nil_append, List.cons.injEq] at hback
        obtain ⟨rfl, rfl, rfl, -⟩ := hback
        exact h ⟨[], text, rfl⟩
    rw [List.cons_append, cutFence_cons hnot, ih hmore]
    rfl

/-- What has no backtick can be dropped in front of a fence. -/
theorem fenced_of_append {front back : List Char} (hfront : '`' ∉ front) (h : Fenced (front ++ back)) : Fenced back := by
  induction front with
  | nil => exact h
  | cons c front ih =>
    rw [List.mem_cons, not_or] at hfront
    obtain ⟨first, rest, htext⟩ := h
    cases first with
    | nil => exact absurd (List.cons.inj htext).1.symm hfront.1
    | cons d first => exact ih hfront.2 ⟨first, rest, (List.cons.inj htext).2⟩

/-- The tag and white space are no backticks. -/
theorem fenceBody_split (after : List Char) : ∃ front, after = front ++ fenceBody after ∧
    ∀ c ∈ front, c ≠ '"' ∧ c ≠ '\\' ∧ c ≠ '`' := by
  have htag : ∃ front, after = front ++ skipTag after ∧ ∀ c ∈ front, c ≠ '"' ∧ c ≠ '\\' ∧ c ≠ '`' := by
    unfold skipTag
    split
    · next a b c d text =>
      split
      · next htag =>
        refine ⟨[a, b, c, d], rfl, ?_⟩
        simp only [List.mem_cons, List.not_mem_nil, or_false] at htag
        simp only [List.forall_mem_cons]
        obtain ⟨ha, hb, hc, hd⟩ := htag
        refine ⟨?_, ?_, ?_, ?_, by simp⟩
        · rcases ha with rfl | rfl <;> decide
        · rcases hb with rfl | rfl | rfl <;> decide
        · rcases hc with rfl | rfl <;> decide
        · rcases hd with rfl | rfl <;> decide
      · exact ⟨[], rfl, by simp⟩
    · exact ⟨[], rfl, by simp⟩
  obtain ⟨front, hfront, hplain⟩ := htag
  refine ⟨front ++ (skipTag after).takeWhile isSpace, ?_, ?_⟩
  · rw [List.append_assoc, fenceBody, List.takeWhile_append_dropWhile, ← hfront]
  · refine List.forall_mem_append.mpr ⟨hplain, fun c hc => ?_⟩
    have hspace := List.mem_takeWhile_imp hc
    refine ⟨?_, ?_, ?_⟩ <;> rintro rfl <;> exact absurd hspace (by decide)

/-- The search finds two fences exactly when there are two. -/
theorem fencedGroup_eq_none {text : List Char} : fencedGroup text = none ↔ ¬ TwiceFenced text := by
  constructor
  · rintro hnone ⟨front, middle, back, htext⟩
    obtain ⟨first, rest, hcut, hle⟩ := cutFence_le (show text = front ++ fence ++ (middle ++ fence ++ back) by simp [htext])
    have hfenced : Fenced rest := by
      have hsame := (cutFence_eq_some hcut).symm.trans htext
      refine ⟨rest.take (front.length + middle.length - first.length), back, ?_⟩
      have hdrop := congrArg (List.drop (first ++ fence).length) hsame
      rw [List.drop_left] at hdrop
      have hlong : (first ++ fence).length ≤ (front ++ fence ++ middle).length := by
        simp only [List.length_append]
        omega
      rw [show front ++ fence ++ middle ++ fence ++ back = (front ++ fence ++ middle) ++ (fence ++ back) by simp,
        List.drop_append_of_le_length hlong] at hdrop
      have htake : rest.take (front.length + middle.length - first.length) =
          (front ++ fence ++ middle).drop (first ++ fence).length := by
        rw [hdrop, List.take_left']
        simp only [List.length_drop, List.length_append]
        omega
      rw [htake, hdrop]
      exact (List.append_assoc _ _ _).symm
    obtain ⟨gap, hgap, hplain⟩ := fenceBody_split rest
    have hbody : Fenced (fenceBody rest) := by
      rw [hgap] at hfenced
      exact fenced_of_append (fun hin => (hplain _ hin).2.2 rfl) hfenced
    have hcut' : cutFence (fenceBody rest) ≠ none := fun h => cutFence_eq_none.mp h hbody
    rw [fencedGroup, hcut, Option.bind_some, Option.map_eq_none_iff] at hnone
    exact hcut' hnone
  · intro htwice
    by_contra hsome
    obtain ⟨group, hgroup⟩ := Option.ne_none_iff_exists'.mp hsome
    obtain ⟨⟨front, after⟩, hcut, hmap⟩ := Option.bind_eq_some_iff.mp hgroup
    obtain ⟨⟨body, back⟩, hbody, -⟩ := Option.map_eq_some_iff.mp hmap
    obtain ⟨gap, hgap, -⟩ := fenceBody_split after
    refine htwice ⟨front, gap ++ body, back, ?_⟩
    rw [cutFence_eq_some hcut]
    conv_lhs => rw [hgap, cutFence_eq_some hbody]
    simp

/-! ## Texts of objects -/

/-- A text that `json.loads` reads as an object, with no white space around it. -/
structure Serialises (text : List Char) (members : Members) : Prop where
  /-- It is read as the object. -/
  read : parse scanPython text = some (.obj members)
  /-- It is in braces. -/
  braced : ∃ body, text = '\x7b' :: (body ++ ['\x7d'])

/-- What `json.dumps` writes serialises the object, in any layout, when its whole
numbers are not too long to be written. -/
theorem serialises_written (layout : Layout) {members : Members}
    (hnumbers : ∀ n ∈ (Json.obj members).numbers, readBack n = some n) :
    Serialises (written layout PyNumber.text (.obj members)) members := by
  have hread := parse_written layout pythonNumbers (.obj members)
  have hagree : Agree (receive readBack (.obj members)) (receive some (.obj members)) :=
    (receive_agree readBack some _).mpr fun n hn => ⟨n, hnumbers n hn, rfl⟩
  obtain ⟨value, hvalue, hsame⟩ := hagree
  rw [receive_some] at hsame
  refine ⟨?_, written_obj layout PyNumber.text members⟩
  have hreceived : receive pythonNumbers.received (.obj members) = some (.obj members) := by
    rw [hsame]
    exact hvalue
  exact hread.trans hreceived

variable {exhausts : StackLimit} {text : List Char} {members : Members}

/-- Only white space is stripped. -/
theorem strip_ends {first last : Char} (hfirst : isSpace first = false) (hlast : isSpace last = false)
    (body : List Char) {back : List Char} (hback : ∀ c ∈ back, isSpace c = true) :
    strip (first :: (body ++ [last]) ++ back) = first :: (body ++ [last]) := by
  have hreverse : ∀ c ∈ back.reverse, isSpace c = true := fun c hc => hback c (List.mem_reverse.mp hc)
  have hfront : (first :: (body ++ [last]) ++ back).dropWhile isSpace = first :: (body ++ [last]) ++ back :=
    List.dropWhile_cons_of_neg (by simp [hfirst])
  have hends : (first :: (body ++ [last]) ++ back).reverse = back.reverse ++ last :: (first :: body).reverse := by simp
  have hrest : (last :: (first :: body).reverse).dropWhile isSpace = last :: (first :: body).reverse :=
    List.dropWhile_cons_of_neg (by simp [hlast])
  rw [strip, hfront, hends, List.dropWhile_append_of_pos hreverse, hrest]
  simp

/-- Neither brace is white space. -/
theorem strip_braced (h : ∃ body, text = '\x7b' :: (body ++ ['\x7d'])) {back : List Char}
    (hback : ∀ c ∈ back, isSpace c = true) : strip (text ++ back) = text := by
  obtain ⟨body, rfl⟩ := h
  exact strip_ends (by decide) (by decide) body hback

/-- From its first brace to its last is the whole text. -/
theorem bracedGroup_braced (h : ∃ body, text = '\x7b' :: (body ++ ['\x7d'])) : bracedGroup text = some text := by
  obtain ⟨body, rfl⟩ := h
  simp [bracedGroup]

/-- A stripped text is a part of the text between white space. -/
theorem strip_split (text : List Char) : ∃ front back, text = front ++ strip text ++ back ∧
    (∀ c ∈ front, isSpace c = true) ∧ ∀ c ∈ back, isSpace c = true := by
  refine ⟨text.takeWhile isSpace, ((text.dropWhile isSpace).reverse.takeWhile isSpace).reverse, ?_, ?_, ?_⟩
  · have hmiddle : strip text ++ ((text.dropWhile isSpace).reverse.takeWhile isSpace).reverse = text.dropWhile isSpace := by
      rw [strip, ← List.reverse_append, List.takeWhile_append_dropWhile, List.reverse_reverse]
    rw [List.append_assoc, hmiddle, List.takeWhile_append_dropWhile]
  · exact fun c hc => List.mem_takeWhile_imp hc
  · exact fun c hc => List.mem_takeWhile_imp (List.mem_reverse.mp hc)

/-- White space is no mark of strings. -/
theorem space_unmarked {text : List Char} (h : ∀ c ∈ text, isSpace c = true) :
    ∀ c ∈ text, c ≠ '"' ∧ c ≠ '\\' ∧ c ≠ '`' := by
  intro c hc
  have hspace := h c hc
  refine ⟨?_, ?_, ?_⟩ <;> rintro rfl <;> exact absurd hspace (by decide)

/-- A fence is in a string, and the string goes on behind it. -/
theorem inside_of_fence {front back : List Char} {last : Mode}
    (h : lex .outside (front ++ fence ++ back) = some last) :
    lex .outside front = some .inside ∧ lex .inside back = some last := by
  rw [List.append_assoc] at h
  obtain ⟨middle, hfront, hrest⟩ := lex_front h
  cases middle with
  | inside => exact ⟨hfront, hrest⟩
  | outside => cases hrest
  | escaped => cases hrest

/-- White space around it does not change where a text ends outside of strings. -/
theorem lex_strip_outside {last : Mode} (hstrip : lex .outside (strip text) = some last) (hlast : last = .outside) :
    lex .outside text = some .outside := by
  obtain ⟨front, back, htext, hfront, hback⟩ := strip_split text
  have hafter := (lex_unmarked (space_unmarked hback)).1
  have hbefore := (lex_unmarked (space_unmarked hfront)).1
  rw [htext, lex_append, lex_append, hbefore, Option.bind_some, hstrip, hlast]
  exact hafter

/-- A text that begins inside of a string does so without its white space. -/
theorem lex_strip_inside {last : Mode} (h : lex .inside text = some last) : ∃ last', lex .inside (strip text) = some last' := by
  obtain ⟨front, back, htext, hfront, -⟩ := strip_split text
  rw [htext] at h
  obtain ⟨middle, hmiddle, -⟩ := lex_front h
  obtain ⟨first, hfirst, hrest⟩ := lex_front hmiddle
  rw [(lex_unmarked (space_unmarked hfront)).2] at hfirst
  obtain rfl := Option.some.inj hfirst
  exact ⟨_, hrest⟩

/-- What is between two fences in an object's text is no text of that object: it
begins in a string, so as a value's text it has no backtick, and the object has. -/
theorem group_not_read {group : List Char} (hs : Serialises text members) (hgroup : fencedGroup text = some group) :
    parse scanPython (strip group) ≠ some (.obj members) := by
  intro hread
  obtain ⟨⟨front, after⟩, hcut, hmap⟩ := Option.bind_eq_some_iff.mp hgroup
  obtain ⟨⟨body, back⟩, hbody, rfl⟩ := Option.map_eq_some_iff.mp hmap
  obtain ⟨gap, hgap, hplain⟩ := fenceBody_split after
  have hwhole := parse_taken scanPython_unmarked hs.read
  have htaken := parse_taken scanPython_unmarked hread
  have hlex := hwhole.lexed
  rw [cutFence_eq_some hcut] at hlex
  have hafter := (inside_of_fence hlex).2
  rw [hgap, lex_append, (lex_unmarked hplain).2, Option.bind_some, cutFence_eq_some hbody, List.append_assoc] at hafter
  obtain ⟨last, hinside, -⟩ := lex_front hafter
  obtain ⟨last', hstripped⟩ := lex_strip_inside hinside
  have hunmarked := unmarked_of_both hstripped htaken.lexed
  have htick : '`' ∈ text := by
    rw [cutFence_eq_some hcut]
    simp [fence]
  have hticked := hwhole.found htick
  exact (hunmarked '`' (htaken.spelled (fun hin => (hunmarked _ hin).1 rfl) hticked)).2 rfl

/-- What is before a fence in a value's text is no value's text: it ends in a string. -/
theorem front_not_read {front back : List Char} {value value' : Json PyNumber}
    (h : parse scanPython (front ++ fence ++ back) = some value) : parse scanPython (strip front) ≠ some value' := by
  intro hread
  have hinside := (inside_of_fence (parse_taken scanPython_unmarked h).lexed).1
  have houtside := lex_strip_outside (parse_taken scanPython_unmarked hread).lexed rfl
  rw [hinside] at houtside
  cases houtside

/-! ## What the readers have -/

/-- The text in one code fence. -/
def codeFenced (text : List Char) : List Char := "```json\n".toList ++ (text ++ '\n' :: fence)

/-- An object is had from its text unless the stack is too short. -/
theorem loadsObject_eq_some (hs : Serialises text members) :
    loadsObject exhausts text = some members ↔ exhausts text = false := by
  rw [loadsObject, hs.read]
  cases exhausts text <;> simp

/-- No object is had from a text that is not read as it. -/
theorem loadsObject_ne_some (h : parse scanPython text ≠ some (.obj members)) : loadsObject exhausts text ≠ some members := by
  unfold loadsObject
  split
  · simp
  · split
    · next members' hread =>
      intro he
      exact h (Option.some.inj he ▸ hread)
    · simp

theorem strip_serialised (hs : Serialises text members) : strip text = text := by
  have hself : strip (text ++ []) = text := strip_braced hs.braced fun _ hc => absurd hc List.not_mem_nil
  rwa [List.append_nil] at hself

/-- A fenced text is not blank. -/
theorem strip_codeFenced (text : List Char) : strip (codeFenced text) = codeFenced text := by
  have htick : isSpace '`' = false := by decide
  have hends : codeFenced text =
      '`' :: ('`' :: '`' :: 'j' :: 's' :: 'o' :: 'n' :: '\n' :: (text ++ ['\n', '`', '`']) ++ ['`']) ++ [] := by
    simp only [List.append_nil, List.cons_append, List.append_assoc, List.nil_append]
    rfl
  rw [hends, strip_ends htick htick _ (fun _ hc => absurd hc List.not_mem_nil), List.append_nil]

/-- Between the two fences around a text is what stands before the text's own first fence, if it has one. -/
theorem fencedGroup_codeFenced (hs : Serialises text members) :
    fencedGroup (codeFenced text) = (cutFence (text ++ '\n' :: fence)).map (·.1) := by
  obtain ⟨body, hbody⟩ := hs.braced
  have hopen : isSpace '\x7b' = false := by decide
  have hnewline : isSpace '\n' = true := by decide
  have hskip : fenceBody ('j' :: 's' :: 'o' :: 'n' :: '\n' :: (text ++ '\n' :: fence)) = text ++ '\n' :: fence := by
    rw [hbody]
    simp [fenceBody, skipTag, hopen, hnewline]
  have hcut : cutFence (codeFenced text) =
      some ([], 'j' :: 's' :: 'o' :: 'n' :: '\n' :: (text ++ '\n' :: fence)) := rfl
  rw [fencedGroup, hcut, Option.bind_some, hskip]

/-- A reader, by the text it reads. -/
theorem Extractor.read_eq (e : Extractor) {raw read : List Char} (hraw : strip raw ≠ []) (hfenced : unfenced raw = read)
    (hwrapped : unwrapped raw = read) : e.read exhausts raw = loadsObject exhausts read := by
  cases e with
  | answer => rw [Extractor.read, parseStructuredAnswer, hfenced]
  | claims => rw [Extractor.read, parseJsonObject, hfenced]
  | judge => rw [Extractor.read, judgeJsonObject, if_neg hraw, hwrapped]
  | investigator => rw [Extractor.read, investigatorJsonObject, if_neg hraw, hwrapped]
  | routing => rw [Extractor.read, routingPayload, hwrapped]
  | rewrite => rw [Extractor.read, rewritePayload, if_neg hraw, hwrapped]

/-- Every reader has an object from its bare text unless the text has two fences. -/
theorem Extractor.read_bare (e : Extractor) (hs : Serialises text members) :
    e.read exhausts text = some members ↔ ¬ TwiceFenced text ∧ exhausts text = false := by
  have hstrip := strip_serialised hs
  have hne : strip text ≠ [] := by
    obtain ⟨body, hbody⟩ := hs.braced
    rw [hstrip, hbody]
    exact List.cons_ne_nil _ _
  cases hgroup : fencedGroup text with
  | none =>
    have hbraced := bracedGroup_braced hs.braced
    have hfenced : unfenced text = text := by simp only [unfenced, hstrip, hgroup]
    have hwrapped : unwrapped text = text := by simp only [unwrapped, hstrip, hgroup, hbraced]
    rw [e.read_eq hne hfenced hwrapped, loadsObject_eq_some hs, and_iff_right (fencedGroup_eq_none.mp hgroup)]
  | some group =>
    have hfenced : unfenced text = strip group := by simp only [unfenced, hstrip, hgroup]
    have hwrapped : unwrapped text = strip group := by simp only [unwrapped, hstrip, hgroup]
    have htwice : TwiceFenced text := by
      by_contra hnot
      rw [fencedGroup_eq_none.mpr hnot] at hgroup
      cases hgroup
    rw [e.read_eq hne hfenced hwrapped]
    exact iff_of_false (loadsObject_ne_some (group_not_read hs hgroup)) fun h => h.1 htwice

/-- And from the text in a code fence unless it has a fence of its own. -/
theorem Extractor.read_codeFenced (e : Extractor) (hs : Serialises text members) :
    e.read exhausts (codeFenced text) = some members ↔ ¬ Fenced text ∧ exhausts text = false := by
  have hstrip := strip_codeFenced text
  have hne : strip (codeFenced text) ≠ [] := by
    rw [hstrip]
    exact List.cons_ne_nil _ _
  have hgroup := fencedGroup_codeFenced hs
  cases hcut : cutFence text with
  | none =>
    have hfree := cutFence_eq_none.mp hcut
    have hsame : strip (text ++ ['\n']) = text := strip_braced hs.braced (by decide)
    rw [cutFence_closing hfree, Option.map_some] at hgroup
    have hfenced : unfenced (codeFenced text) = text := by simp only [unfenced, hstrip, hgroup, hsame]
    have hwrapped : unwrapped (codeFenced text) = text := by simp only [unwrapped, hstrip, hgroup, hsame]
    rw [e.read_eq hne hfenced hwrapped, loadsObject_eq_some hs, and_iff_right hfree]
  | some cut =>
    obtain ⟨front, back⟩ := cut
    have htext := cutFence_eq_some hcut
    have hparse := hs.read
    rw [cutFence_append hcut, Option.map_some] at hgroup
    rw [htext] at hparse
    have hfenced : unfenced (codeFenced text) = strip front := by simp only [unfenced, hstrip, hgroup]
    have hwrapped : unwrapped (codeFenced text) = strip front := by simp only [unwrapped, hstrip, hgroup]
    rw [e.read_eq hne hfenced hwrapped]
    exact iff_of_false (loadsObject_ne_some (front_not_read hparse)) fun h => h.1 ⟨front, back, htext⟩

/-- Every reader has the object from its text exactly when the text has no two
fences, and from the text in a code fence exactly when it has none; both times if
the stack is not too short for it. -/
theorem json_read_back_iff (exhausts : StackLimit) (e : Extractor) (text : List Char) (members : Members)
    (hs : Serialises text members) :
    (e.read exhausts text = some members ↔ ¬ TwiceFenced text ∧ exhausts text = false) ∧
      (e.read exhausts (codeFenced text) = some members ↔ ¬ Fenced text ∧ exhausts text = false) :=
  ⟨e.read_bare hs, e.read_codeFenced hs⟩

/-- An answer without fences. -/
def plainAnswer : Members := [("answer", .str "Use a brace: \x7b."), ("confidence", .num (.int 1))]

theorem json_read_back_sample :
    (Extractor.judge.read (fun _ => false) (dumps PyNumber.text (.obj plainAnswer)) = some plainAnswer ↔
      ¬ TwiceFenced (dumps PyNumber.text (.obj plainAnswer)) ∧ (fun _ : List Char => false) [] = false) ∧
      (Extractor.judge.read (fun _ => false) (codeFenced (dumps PyNumber.text (.obj plainAnswer))) = some plainAnswer ↔
        ¬ Fenced (dumps PyNumber.text (.obj plainAnswer)) ∧ (fun _ : List Char => false) [] = false) := by
  have hs : Serialises (dumps PyNumber.text (.obj plainAnswer)) plainAnswer := by
    rw [← written_pythonLayout]
    refine serialises_written pythonLayout fun n hn => ?_
    simp only [plainAnswer, Json.numbers, memberNumbers, List.nil_append, List.append_nil, List.mem_singleton] at hn
    rw [hn]
    rfl
  exact json_read_back_iff (fun _ => false) .judge _ plainAnswer hs

/-- An answer that has a code block in it. -/
def fencedAnswer : Members := [("answer", .str "Run ```ls``` there.")]

/-- No reader has it back from what `json.dumps` writes, bare or in a code fence. -/
theorem fenced_answer_lost :
    Serialises "\x7b\"answer\": \"Run ```ls``` there.\"\x7d".toList fencedAnswer ∧
      ∀ e : Extractor, e.read (fun _ => false) "\x7b\"answer\": \"Run ```ls``` there.\"\x7d".toList ≠ some fencedAnswer ∧
        e.read (fun _ => false) (codeFenced "\x7b\"answer\": \"Run ```ls``` there.\"\x7d".toList) ≠ some fencedAnswer := by
  have hs : Serialises "\x7b\"answer\": \"Run ```ls``` there.\"\x7d".toList fencedAnswer :=
    have hnumbers : ∀ n ∈ (Json.obj fencedAnswer).numbers, readBack n = some n := by
      simp [fencedAnswer, Json.numbers, memberNumbers]
    serialises_written pythonLayout hnumbers
  have htwice : TwiceFenced "\x7b\"answer\": \"Run ```ls``` there.\"\x7d".toList :=
    ⟨"\x7b\"answer\": \"Run ".toList, "ls".toList, " there.\"\x7d".toList, rfl⟩
  have hfenced : Fenced "\x7b\"answer\": \"Run ```ls``` there.\"\x7d".toList :=
    ⟨"\x7b\"answer\": \"Run ".toList, "ls``` there.\"\x7d".toList, rfl⟩
  refine ⟨hs, fun e => ⟨fun hread => ?_, fun hread => ?_⟩⟩
  · exact ((e.read_bare hs).mp hread).1 htwice
  · exact ((e.read_codeFenced hs).mp hread).1 hfenced

end RagSystem.TolerantJson
