import Mathlib.Data.List.Sort
import Mathlib.Order.RelClasses

/-!
# Paging by keys

Items are listed in the order of their keys, a page at a time; a page starts
after the key of the last item of the page before. Nothing is kept between two
pages but that key, so that the items may change meanwhile: an item that stays,
with its key, is on one page.
-/

namespace RagSystem.KeysetPaging

set_option autoImplicit false

variable {α K : Type}

section Pages

variable (before : K → K → Prop) [DecidableRel before] (key : α → K)

/-- The items in the order of their keys; those of one key stay as they are. -/
def sortBy (items : List α) : List α := items.mergeSort fun a b => !decide (before (key b) (key a))

/-- The items after a boundary; without one, all. -/
def following (items : List α) : Option K → List α
  | none => items
  | some boundary => items.filter fun a => decide (before boundary (key a))

/-- A page: the first items after the boundary. -/
def page (size : ℕ) (boundary : Option K) (items : List α) : List α :=
  (following before key (sortBy before key items) boundary).take size

/-- The key of a page's last item, if items remain after it. -/
def nextBoundary (size : ℕ) (boundary : Option K) (items : List α) : Option K :=
  if size < (following before key (sortBy before key items) boundary).length then
    (page before key size boundary items).getLast?.map key
  else none

/-- Pages asked for one after the other, until none follows; the n-th is of the
items, and in the order of the keys, as they are then. -/
inductive Walk (keys : ℕ → α → K) (size : ℕ) (items : ℕ → List α) : ℕ → Option K → List (List α) → Prop
  /-- Nothing follows. -/
  | last {n : ℕ} {boundary : Option K} (hlast : nextBoundary before (keys n) size boundary (items n) = none) :
      Walk keys size items n boundary [page before (keys n) size boundary (items n)]
  /-- A page follows. -/
  | more {n : ℕ} {boundary : Option K} {next : K} {pages : List (List α)}
      (hnext : nextBoundary before (keys n) size boundary (items n) = some next)
      (hrest : Walk keys size items (n + 1) (some next) pages) :
      Walk keys size items n boundary (page before (keys n) size boundary (items n) :: pages)

end Pages

section Order

variable {before : K → K → Prop} [IsStrictTotalOrder K before] {a b c : K}

/-- The order of keys is strict. -/
theorem before_asymm (hab : before a b) : ¬ before b a := asymm hab

theorem before_trans (hab : before a b) (hbc : before b c) : before a c := IsTrans.trans _ _ _ hab hbc

/-- Of two keys one is before the other, or they are equal. -/
theorem before_of_ne (hne : a ≠ b) (hba : ¬ before b a) : before a b := by
  rcases trichotomous_of before a b with h | h | h
  · exact h
  · exact absurd h hne
  · exact absurd h hba

/-- Not being behind is transitive. -/
theorem not_before_trans (hba : ¬ before b a) (hcb : ¬ before c b) : ¬ before c a := by
  intro hca
  rcases trichotomous_of before b c with h | h | h
  · exact hba (before_trans h hca)
  · exact hba (h ▸ hca)
  · exact hcb h

end Order

section OnePage

variable {before : K → K → Prop} [DecidableRel before] {key : α → K} {size : ℕ} {boundary : Option K} {items : List α}

theorem sortBy_perm : (sortBy before key items).Perm items := List.mergeSort_perm items _

/-- The page before another one ends in the item whose key is handed on. -/
theorem page_of_next {next : K} (hnext : nextBoundary before key size boundary items = some next) :
    ∃ front last rest, following before key (sortBy before key items) boundary = front ++ last :: rest ∧
      page before key size boundary items = front ++ [last] ∧ next = key last := by
  unfold nextBoundary at hnext
  split at hnext
  · obtain ⟨last, hlast, rfl⟩ := Option.map_eq_some_iff.mp hnext
    obtain ⟨front, hfront⟩ := List.getLast?_eq_some_iff.mp hlast
    have htake := List.take_append_drop size (following before key (sortBy before key items) boundary)
    have hpage : (following before key (sortBy before key items) boundary).take size = front ++ [last] := hfront
    rw [hpage, List.append_assoc, List.singleton_append] at htake
    exact ⟨front, last, _, htake.symm, hfront, rfl⟩
  · cases hnext

/-- The last page has all that is left. -/
theorem page_of_last (hsize : 0 < size) (hlast : nextBoundary before key size boundary items = none) :
    page before key size boundary items = following before key (sortBy before key items) boundary := by
  unfold nextBoundary at hlast
  split at hlast
  · next hmore =>
    have hempty := List.getLast?_eq_none_iff.mp (Option.map_eq_none_iff.mp hlast)
    have hlength := congrArg List.length hempty
    simp only [page, List.length_take, List.length_nil] at hlength
    omega
  · next hmore => exact List.take_of_length_le (by omega)

theorem page_length_le : (page before key size boundary items).length ≤ size := by
  simp only [page, List.length_take]
  omega

/-- A walk's pages are not longer than the size. -/
theorem Walk.length_le {keys : ℕ → α → K} {items : ℕ → List α} {n : ℕ} {pages : List (List α)}
    (hw : Walk before keys size items n boundary pages) : ∀ p ∈ pages, p.length ≤ size := by
  induction hw with
  | last hlast => simpa using page_length_le
  | more hnext hrest ih =>
    rw [List.forall_mem_cons]
    exact ⟨page_length_le, ih⟩

end OnePage

section Changing

variable {before : K → K → Prop} [DecidableRel before] {key : α → K} {items : List α}

/-- At each of the first requests one of the items is one that `P` knows, and its
key is `k`. -/
structure Stays (keys : ℕ → α → K) (items : ℕ → List α) (P : α → Bool) (k : K) (requests : ℕ) : Prop where
  /-- It is there. -/
  present : ∀ n < requests, ∃ a ∈ items n, P a = true
  /-- It does not move. -/
  unmoved : ∀ n < requests, ∀ a ∈ items n, P a = true → keys n a = k

/-- Distinct keys leave only one item of a key. -/
theorem countP_eq_one {P : α → Bool} {k : K} (hdistinct : (items.map key).Nodup) (hpresent : ∃ a ∈ items, P a = true)
    (hunmoved : ∀ a ∈ items, P a = true → key a = k) : items.countP P = 1 := by
  induction items with
  | nil => simp at hpresent
  | cons first items ih =>
    rw [List.map_cons, List.nodup_cons] at hdistinct
    have hbehind := fun a ha => hunmoved a (List.mem_cons_of_mem first ha)
    by_cases hfirst : P first = true
    · have hnone : items.countP P = 0 := by
        rw [List.countP_eq_zero]
        intro a ha hp
        have hkey := (hunmoved first (by simp) hfirst).trans (hbehind a ha hp).symm
        exact hdistinct.1 (hkey ▸ List.mem_map_of_mem ha)
      rw [List.countP_cons_of_pos hfirst, hnone]
    · rw [List.countP_cons_of_neg hfirst]
      refine ih hdistinct.2 ?_ hbehind
      obtain ⟨a, ha, hp⟩ := hpresent
      rcases List.mem_cons.mp ha with rfl | ha
      · exact absurd hp hfirst
      · exact ⟨a, ha, hp⟩

/-- The key is still ahead of a boundary. -/
def ahead (before : K → K → Prop) [DecidableRel before] (k : K) : Option K → ℕ
  | none => 1
  | some boundary => if before boundary k then 1 else 0

/-- What stays is once among the items after a boundary ahead of which it is. -/
theorem countP_following {keys : ℕ → α → K} {items : ℕ → List α} {P : α → Bool} {k : K} {requests : ℕ}
    (hdistinct : ∀ n, ((items n).map (keys n)).Nodup) (hstays : Stays keys items P k requests) {n : ℕ}
    (hn : n < requests) (boundary : Option K) :
    (following before (keys n) (sortBy before (keys n) (items n)) boundary).countP P = ahead before k boundary := by
  have hone : (sortBy before (keys n) (items n)).countP P = 1 := by
    rw [sortBy_perm.countP_eq]
    exact countP_eq_one (hdistinct n) (hstays.present n hn) (hstays.unmoved n hn)
  cases boundary with
  | none => exact hone
  | some b =>
    have hkey : ∀ a ∈ sortBy before (keys n) (items n), (P a && decide (before b (keys n a))) = (P a && decide (before b k)) := by
      intro a ha
      cases hp : P a with
      | false => rfl
      | true => rw [hstays.unmoved n hn a (sortBy_perm.mem_iff.mp ha) hp]
    rw [following, List.countP_filter, List.countP_congr fun a ha => by rw [hkey a ha], ahead]
    by_cases hb : before b k
    · simpa [hb] using hone
    · simp [hb]

end Changing

section Sorted

variable {before : K → K → Prop} [DecidableRel before] [IsStrictTotalOrder K before] {key : α → K}

/-- Items of different keys are sorted strictly. -/
theorem sortBy_pairwise {items : List α} (hdistinct : (items.map key).Nodup) :
    (sortBy before key items).Pairwise fun a b => before (key a) (key b) := by
  have hweak : (sortBy before key items).Pairwise fun a b => ¬ before (key b) (key a) := by
    have hsorted : (sortBy before key items).Pairwise fun a b => (!decide (before (key b) (key a))) = true := by
      refine List.pairwise_mergeSort (fun a b c hab hbc => ?_) (fun a b => ?_) items
      · simp only [Bool.not_eq_true', decide_eq_false_iff_not] at hab hbc ⊢
        exact not_before_trans hab hbc
      · simp only [Bool.or_eq_true, Bool.not_eq_true', decide_eq_false_iff_not]
        by_cases hba : before (key b) (key a)
        · exact .inr (before_asymm hba)
        · exact .inl hba
    exact hsorted.imp fun h => by simpa using h
  have hne : (sortBy before key items).Pairwise fun a b => key a ≠ key b :=
    List.pairwise_map.mp (((sortBy_perm.map key).nodup_iff).mpr hdistinct)
  exact (hweak.and hne).imp fun h => before_of_ne h.2 h.1

/-- After a sorted list's item follow the items behind it. -/
theorem following_split {sorted front rest : List α} {last : α} {boundary : Option K}
    (hsorted : sorted.Pairwise fun a b => before (key a) (key b))
    (hsplit : following before key sorted boundary = front ++ last :: rest) :
    following before key sorted (some (key last)) = rest := by
  have hlast : last ∈ following before key sorted boundary := by rw [hsplit]; simp
  have hagain : following before key sorted (some (key last)) =
      following before key (following before key sorted boundary) (some (key last)) := by
    cases boundary with
    | none => rfl
    | some b =>
      have hb : before b (key last) := by simpa [following] using (List.mem_filter.mp hlast).2
      simp only [following, List.filter_filter]
      refine List.filter_congr fun a _ => ?_
      by_cases ha : before (key last) (key a)
      · simp [ha, before_trans hb ha]
      · simp [ha]
  have hpairwise : (front ++ last :: rest).Pairwise fun a b => before (key a) (key b) := by
    rw [← hsplit]
    cases boundary with
    | none => exact hsorted
    | some b => exact hsorted.filter _
  obtain ⟨-, hbehind, hcross⟩ := List.pairwise_append.mp hpairwise
  have hrest := (List.pairwise_cons.mp hbehind).1
  rw [hagain, hsplit, following, List.filter_append, List.filter_cons_of_neg (by simp [irrefl])]
  have hnone : front.filter (fun a => decide (before (key last) (key a))) = [] := by
    rw [List.filter_eq_nil_iff]
    intro a ha hbad
    exact before_asymm (hcross a ha last (by simp)) (by simpa using hbad)
  have hall : rest.filter (fun a => decide (before (key last) (key a))) = rest := by
    rw [List.filter_eq_self]
    exact fun a ha => by simpa using hrest a ha
  rw [hnone, hall, List.nil_append]

variable {size : ℕ} {boundary : Option K} {items : List α}

/-- Over items that do not change, the walk ends, and its pages are the items
after the boundary in order. -/
theorem exists_walk (hsize : 0 < size) (hdistinct : (items.map key).Nodup) (n : ℕ) (boundary : Option K) :
    ∃ pages, Walk before (fun _ => key) size (fun _ => items) n boundary pages ∧
      pages.flatten = following before key (sortBy before key items) boundary := by
  induction hlength : (following before key (sortBy before key items) boundary).length using Nat.strong_induction_on
    generalizing n boundary with
  | _ length ih =>
    cases hnext : nextBoundary before key size boundary items with
    | none => exact ⟨_, .last hnext, by simp [page_of_last hsize hnext]⟩
    | some next =>
      obtain ⟨front, last, rest, hsplit, hpage, rfl⟩ := page_of_next hnext
      have hrest := following_split (sortBy_pairwise hdistinct) hsplit
      have hshort : rest.length < length := by
        rw [← hlength, hsplit]
        simp only [List.length_append, List.length_cons]
        omega
      obtain ⟨pages, hwalk, hflatten⟩ := ih rest.length hshort (n + 1) (some (key last)) (by rw [hrest])
      refine ⟨_, .more hnext hwalk, ?_⟩
      rw [List.flatten_cons, hflatten, hrest, hpage, hsplit]
      simp

/-- What stays is on one page of the walk, once, when its key is ahead. -/
theorem Walk.countP_eq {keys : ℕ → α → K} {items : ℕ → List α} {P : α → Bool} {k : K} (hsize : 0 < size)
    (hdistinct : ∀ n, ((items n).map (keys n)).Nodup) {requests : ℕ} (hstays : Stays keys items P k requests) {n : ℕ}
    {pages : List (List α)} (hw : Walk before keys size items n boundary pages) (hn : n + pages.length ≤ requests) :
    pages.flatten.countP P = ahead before k boundary := by
  induction hw with
  | last hlast =>
    rw [List.flatten_cons, List.flatten_nil, List.append_nil, page_of_last hsize hlast]
    exact countP_following hdistinct hstays hn _
  | @more n boundary next pages hnext hrest ih =>
    obtain ⟨front, last, rest, hsplit, hpage, rfl⟩ := page_of_next hnext
    have hbehind := following_split (sortBy_pairwise (hdistinct n)) hsplit
    rw [List.length_cons] at hn
    have hall : (following before (keys n) (sortBy before (keys n) (items n)) boundary).countP P =
        ahead before k boundary := countP_following hdistinct hstays (by omega) boundary
    have hlater : (following before (keys n) (sortBy before (keys n) (items n)) (some (keys n last))).countP P =
        ahead before k (some (keys n last)) := countP_following hdistinct hstays (by omega) (some (keys n last))
    rw [hbehind] at hlater
    rw [List.flatten_cons, List.countP_append, ih (by omega), ← hlater, hpage, ← hall, hsplit]
    simp [List.countP_append, List.countP_cons]
    omega

end Sorted

/-! ## Tokens for keys -/

section Tokens

variable {T P ε : Type}

/-- Pages asked for with the token of the page before, until one has none; the
n-th request meets the items as they are then. -/
inductive Follows (request : ℕ → Option T → Except ε P) (nextToken : P → Option T) : ℕ → Option T → List P → Prop
  /-- The last page has no token. -/
  | last {n : ℕ} {token : Option T} {p : P} (hok : request n token = .ok p) (hnone : nextToken p = none) :
      Follows request nextToken n token [p]
  /-- Another one has the next page's. -/
  | more {n : ℕ} {token : Option T} {next : T} {p : P} {pages : List P} (hok : request n token = .ok p)
      (hnext : nextToken p = some next) (hrest : Follows request nextToken (n + 1) (some next) pages) :
      Follows request nextToken n token (p :: pages)

variable {request : ℕ → Option T → Except ε P} {nextToken : P → Option T}

/-- There is one way to follow the tokens. -/
theorem Follows.unique {n : ℕ} {token : Option T} {pages pages' : List P} (h : Follows request nextToken n token pages)
    (h' : Follows request nextToken n token pages') : pages = pages' := by
  induction h generalizing pages' with
  | last hok hnone =>
    cases h' with
    | last hok' hnone' => rw [Except.ok.inj (hok.symm.trans hok')]
    | more hok' hnext' hrest' =>
      rw [Except.ok.inj (hok'.symm.trans hok), hnone] at hnext'
      cases hnext'
  | more hok hnext hrest ih =>
    cases h' with
    | last hok' hnone' =>
      rw [Except.ok.inj (hok'.symm.trans hok), hnext] at hnone'
      cases hnone'
    | more hok' hnext' hrest' =>
      obtain rfl := Except.ok.inj (hok'.symm.trans hok)
      rw [hnext] at hnext'
      obtain rfl := Option.some.inj hnext'
      rw [ih hrest']

variable {before : K → K → Prop} [DecidableRel before] {keys : ℕ → α → K} {size : ℕ} {items : ℕ → List α}
  {contents : P → List α} {token : K → T}

/-- The requests answer with the pages of the items, and a token stands for a key. -/
def Answers (before : K → K → Prop) [DecidableRel before] (keys : ℕ → α → K) (size : ℕ) (items : ℕ → List α)
    (contents : P → List α) (token : K → T) (request : ℕ → Option T → Except ε P) (nextToken : P → Option T) : Prop :=
  ∀ n boundary, ∃ p, request n (boundary.map token) = .ok p ∧ contents p = page before (keys n) size boundary (items n) ∧
    nextToken p = (nextBoundary before (keys n) size boundary (items n)).map token

/-- Following the tokens is walking along the keys. -/
theorem Follows.walk (hanswers : Answers before keys size items contents token request nextToken) {n : ℕ}
    {boundary : Option K} {pages : List P} (h : Follows request nextToken n (boundary.map token) pages) :
    Walk before keys size items n boundary (pages.map contents) := by
  induction pages generalizing n boundary with
  | nil => cases h
  | cons p pages ih =>
    obtain ⟨p', hok', hcontents, hnext'⟩ := hanswers n boundary
    cases h with
    | last hok hnone =>
      obtain rfl := Except.ok.inj (hok.symm.trans hok')
      rw [hnone] at hnext'
      rw [List.map_cons, hcontents]
      exact .last (Option.map_eq_none_iff.mp hnext'.symm)
    | more hok hnext hrest =>
      obtain rfl := Except.ok.inj (hok.symm.trans hok')
      rw [hnext] at hnext'
      obtain ⟨k, hk, rfl⟩ := Option.map_eq_some_iff.mp hnext'.symm
      rw [List.map_cons, hcontents]
      exact .more hk (ih hrest)

/-- And the keys can be walked along by following the tokens. -/
theorem Walk.follows (hanswers : Answers before keys size items contents token request nextToken) {n : ℕ}
    {boundary : Option K} {pages : List (List α)} (h : Walk before keys size items n boundary pages) :
    ∃ answers, Follows request nextToken n (boundary.map token) answers ∧ answers.map contents = pages := by
  induction h with
  | @last n boundary hlast =>
    obtain ⟨p, hok, hcontents, hnext⟩ := hanswers n boundary
    rw [hlast] at hnext
    exact ⟨[p], .last hok hnext, by rw [List.map_singleton, hcontents]⟩
  | @more n boundary next pages hnext hrest ih =>
    obtain ⟨p, hok, hcontents, htoken⟩ := hanswers n boundary
    obtain ⟨answers, hfollows, hmap⟩ := ih
    rw [hnext] at htoken
    exact ⟨p :: answers, .more hok htoken hfollows, by rw [List.map_cons, hcontents, hmap]⟩

/-- Over items that do not change: following the tokens ends, and visits each
item once, in order, on pages of the size. -/
structure ListsAll (before : K → K → Prop) (key : α → K) (size : ℕ) (items : List α) (contents : P → List α)
    (request : Option T → Except ε P) (nextToken : P → Option T) : Prop where
  /-- It ends. -/
  ends : ∃ pages, Follows (fun _ => request) nextToken 0 none pages
  /-- Each item is visited once. -/
  complete : ∀ pages, Follows (fun _ => request) nextToken 0 none pages → (pages.flatMap contents).Perm items
  /-- They come in the order of their keys. -/
  ordered : ∀ pages, Follows (fun _ => request) nextToken 0 none pages →
    (pages.flatMap contents).Pairwise fun a b => before (key a) (key b)
  /-- No page is too long. -/
  short : ∀ pages, Follows (fun _ => request) nextToken 0 none pages → ∀ p ∈ pages, (contents p).length ≤ size

/-- While the items change: what stays is visited once. -/
structure KeepsPlace (keys : ℕ → α → K) (size : ℕ) (items : ℕ → List α) (contents : P → List α)
    (request : ℕ → Option T → Except ε P) (nextToken : P → Option T) : Prop where
  /-- It is on one page, once. -/
  once : ∀ pages, Follows request nextToken 0 none pages →
    ∀ P k, Stays keys items P k pages.length → (pages.flatMap contents).countP P = 1
  /-- No page is too long. -/
  short : ∀ pages, Follows request nextToken 0 none pages → ∀ p ∈ pages, (contents p).length ≤ size

theorem Follows.short (hanswers : Answers before keys size items contents token request nextToken) {pages : List P}
    (h : Follows request nextToken 0 none pages) : ∀ p ∈ pages, (contents p).length ≤ size := by
  have hwalk : Walk before keys size items 0 none (pages.map contents) := Follows.walk hanswers h
  exact fun p hp => hwalk.length_le _ (List.mem_map_of_mem hp)

variable [IsStrictTotalOrder K before]

theorem keepsPlace_of_answers (hanswers : Answers before keys size items contents token request nextToken)
    (hsize : 0 < size) (hdistinct : ∀ n, ((items n).map (keys n)).Nodup) :
    KeepsPlace keys size items contents request nextToken where
  once pages h P k hstays := by
    have hwalk : Walk before keys size items 0 none (pages.map contents) := Follows.walk hanswers h
    rw [List.flatMap_def]
    exact hwalk.countP_eq hsize hdistinct hstays (by simp)
  short pages h := h.short hanswers

theorem listsAll_of_answers {key : α → K} {items : List α} {request : Option T → Except ε P}
    (hanswers : Answers before (fun _ => key) size (fun _ => items) contents token (fun _ => request) nextToken)
    (hsize : 0 < size) (hdistinct : (items.map key).Nodup) :
    ListsAll before key size items contents request nextToken := by
  obtain ⟨walk, hwalk, hflatten⟩ : ∃ walk, Walk before (fun _ => key) size (fun _ => items) 0 none walk ∧
      walk.flatten = following before key (sortBy before key items) none := exists_walk hsize hdistinct 0 none
  obtain ⟨answers, hfollows, hmap⟩ := hwalk.follows hanswers
  have hvisited : ∀ pages, Follows (fun _ => request) nextToken 0 none pages →
      pages.flatMap contents = sortBy before key items := by
    intro pages h
    rw [h.unique hfollows, List.flatMap_def, hmap, hflatten]
    rfl
  refine ⟨⟨answers, hfollows⟩, fun pages h => ?_, fun pages h => ?_, fun pages h => h.short hanswers⟩
  · rw [hvisited pages h]
    exact sortBy_perm
  · rw [hvisited pages h]
    exact sortBy_pairwise hdistinct

end Tokens

end RagSystem.KeysetPaging
