import Mathlib.Data.Fintype.Card
import Mathlib.Data.List.FinRange
import Mathlib.Data.List.Sort

/-!
# Ranking by a score

Items are sorted by falling score, those of one score in their order. An item's
rank counts the items that beat it, so that the best of a list are named without
a sort: the sorted list has the item of rank one first, and so on.
-/

namespace RagSystem.StableRanking

set_option autoImplicit false

section Definitions

variable {α β : Type} [LinearOrder β] (score : α → β)

/-- Items by falling score, stable on ties. -/
def ranked (items : List α) : List α := items.mergeSort fun a b => score b ≤ score a

variable (items : List α)

/-- The item at one position beats the item at another: a better score, or the same and it comes first. -/
def Beats (i j : Fin items.length) : Prop :=
  score (items.get j) < score (items.get i) ∨ score (items.get i) = score (items.get j) ∧ i < j

instance (i j : Fin items.length) : Decidable (Beats score items i j) := instDecidableOr

/-- The rank of an item, counted from one. -/
def rank (i : Fin items.length) : ℕ := (Finset.univ.filter fun j => Beats score items j i).card + 1

/-- The positions of the k best items. -/
def best (k : ℕ) : Finset (Fin items.length) := Finset.univ.filter fun i => rank score items i ≤ k

/-- The comparison of positions: by falling score, and by position on ties. -/
def before (i j : Fin items.length) : Bool :=
  List.zipIdxLE (fun a b => score b ≤ score a) (items.get i, i.val) (items.get j, j.val)

/-- The positions, best first. -/
def order : List (Fin items.length) := (List.finRange items.length).mergeSort (before score items)

end Definitions

section Order

variable {α β : Type} [LinearOrder β] {score : α → β} {items : List α}

theorem Beats.irrefl (i : Fin items.length) : ¬ Beats score items i i := by
  rintro (hlt | ⟨-, hlt⟩)
  · exact lt_irrefl _ hlt
  · exact lt_irrefl _ hlt

theorem Beats.asymm {i j : Fin items.length} (h : Beats score items i j) : ¬ Beats score items j i := by
  rintro (hlt | ⟨heq, hlt⟩)
  · rcases h with hlt' | ⟨heq', -⟩
    · exact lt_asymm hlt hlt'
    · exact absurd heq' hlt.ne
  · rcases h with hlt' | ⟨-, hlt'⟩
    · exact absurd heq hlt'.ne
    · exact lt_asymm hlt hlt'

/-- The sorted items are those at the ordered positions. -/
theorem ranked_eq (score : α → β) (items : List α) : ranked score items = (order score items).map items.get := by
  have hindexed : items.zipIdx = (List.finRange items.length).map fun i => (items.get i, i.val) := by
    refine List.ext_getElem (by simp) ?_
    intro i hleft hright
    simp
  have hmapped : (order score items).map (fun i => (items.get i, i.val)) =
      (items.zipIdx).mergeSort (List.zipIdxLE fun a b => score b ≤ score a) := by
    rw [hindexed]
    exact List.map_mergeSort fun _ _ _ _ => rfl
  rw [ranked, ← List.mergeSort_zipIdx, ← hmapped, List.map_map]
  rfl

theorem order_perm (score : α → β) (items : List α) : (order score items).Perm (List.finRange items.length) :=
  List.mergeSort_perm _ _

theorem nodup_order (score : α → β) (items : List α) : (order score items).Nodup :=
  (order_perm score items).nodup_iff.mpr (List.nodup_finRange _)

@[simp] theorem length_order (score : α → β) (items : List α) : (order score items).length = items.length := by
  simp [order]

theorem mem_order (score : α → β) (i : Fin items.length) : i ∈ order score items :=
  (order_perm score items).mem_iff.mpr (List.mem_finRange i)

/-- Each position in the order beats those behind it. -/
theorem pairwise_order (score : α → β) (items : List α) : (order score items).Pairwise (Beats score items) := by
  have htrans : ∀ a b c : α, decide (score b ≤ score a) = true → decide (score c ≤ score b) = true →
      decide (score c ≤ score a) = true := by
    intro a b c hab hbc
    simp only [decide_eq_true_eq] at hab hbc ⊢
    exact hbc.trans hab
  have htotal : ∀ a b : α, (decide (score b ≤ score a) || decide (score a ≤ score b)) = true := by
    intro a b
    simpa using le_total (score b) (score a)
  have hsorted : (order score items).Pairwise fun i j => before score items i j = true :=
    List.pairwise_mergeSort
      (fun i j l => List.zipIdxLE_trans htrans (items.get i, i.val) (items.get j, j.val) (items.get l, l.val))
      (fun i j => List.zipIdxLE_total htotal (items.get i, i.val) (items.get j, j.val)) (List.finRange items.length)
  have hboth := hsorted.and (nodup_order score items)
  refine hboth.imp ?_
  rintro i j ⟨hle, hne⟩
  simp only [before, List.zipIdxLE, decide_eq_true_eq] at hle
  split at hle
  · next hji =>
    split at hle
    · next hij =>
      have hlt : i < j := lt_of_le_of_ne (by simpa using hle) hne
      exact Or.inr ⟨le_antisymm hij hji, hlt⟩
    · next hij => exact Or.inl (not_le.mp hij)
  · cases hle

/-- A position beats exactly those behind it in the order. -/
theorem beats_iff {l m : ℕ} (hl : l < (order score items).length) (hm : m < (order score items).length) :
    Beats score items (order score items)[l] (order score items)[m] ↔ l < m := by
  have hpairwise := List.pairwise_iff_getElem.mp (pairwise_order score items)
  constructor
  · intro h
    by_contra hle
    rcases Nat.lt_or_eq_of_le (not_lt.mp hle) with hlt | heq
    · exact h.asymm (hpairwise m l hm hl hlt)
    · subst heq
      exact h.irrefl _
  · exact hpairwise l m hl hm

/-- The first position of the order has rank one, and so on. -/
theorem rank_order {m : ℕ} (hm : m < (order score items).length) : rank score items (order score items)[m] = m + 1 := by
  have hbefore : (Finset.univ.filter fun j => Beats score items j (order score items)[m]) =
      ((order score items).take m).toFinset := by
    ext j
    obtain ⟨l, hl, rfl⟩ := List.getElem_of_mem (mem_order score j)
    simp only [Finset.mem_filter, Finset.mem_univ, true_and, beats_iff hl hm, List.mem_toFinset]
    constructor
    · intro hlt
      exact List.mem_take_iff_getElem.mpr ⟨l, by omega, rfl⟩
    · intro hmem
      obtain ⟨l', hl', hsame⟩ := List.mem_take_iff_getElem.mp hmem
      have hindex := (nodup_order score items).getElem_inj_iff.mp hsame
      omega
  have hnodup : ((order score items).take m).Nodup := (nodup_order score items).sublist (List.take_sublist m _)
  rw [rank, hbefore, List.toFinset_card_of_nodup hnodup, List.length_take, min_eq_left hm.le]

/-- The k best are the first k of the order. -/
theorem toFinset_take_order (score : α → β) (items : List α) (k : ℕ) :
    ((order score items).take k).toFinset = best score items k := by
  ext i
  obtain ⟨m, hm, rfl⟩ := List.getElem_of_mem (mem_order score i)
  rw [List.mem_toFinset, best, Finset.mem_filter, rank_order hm]
  constructor
  · intro hmem
    obtain ⟨l, hl, hsame⟩ := List.mem_take_iff_getElem.mp hmem
    have hindex := (nodup_order score items).getElem_inj_iff.mp hsame
    exact ⟨Finset.mem_univ _, by omega⟩
  · rintro ⟨-, hle⟩
    exact List.mem_take_iff_getElem.mpr ⟨m, by omega, rfl⟩

/-- They are k, or all where there are fewer. -/
theorem card_best (score : α → β) (items : List α) (k : ℕ) : (best score items k).card = min k items.length := by
  have hnodup : ((order score items).take k).Nodup := (nodup_order score items).sublist (List.take_sublist k _)
  rw [← toFinset_take_order, List.toFinset_card_of_nodup hnodup, List.length_take, length_order]

theorem best_mono (score : α → β) (items : List α) {k k' : ℕ} (h : k ≤ k') : best score items k ⊆ best score items k' := by
  intro i hi
  simp only [best, Finset.mem_filter, Finset.mem_univ, true_and] at hi ⊢
  exact hi.trans h

end Order

section Ties

variable {α β : Type} [LinearOrder β] {score : α → β} {items others : List α}

/-- The sorted items fall by score. -/
theorem pairwise_ranked (score : α → β) (items : List α) : (ranked score items).Pairwise fun a b => score b ≤ score a := by
  rw [ranked_eq]
  refine List.Pairwise.map _ ?_ (pairwise_order score items)
  rintro i j (hlt | ⟨heq, -⟩)
  · exact hlt.le
  · exact heq.ge

/-- A stable sort keeps the order of the items of one score. -/
theorem filter_eq_of_stable {sorted : List α} (hperm : sorted.Perm items)
    (hstable : ∀ part : List α, part.Sublist items → part.Pairwise (fun a b => score b ≤ score a) → part.Sublist sorted)
    (value : β) :
    sorted.filter (fun item => score item = value) = items.filter fun item => score item = value := by
  have hsublist : (items.filter fun item => score item = value).Sublist sorted := by
    refine hstable _ List.filter_sublist ?_
    refine List.pairwise_of_forall_mem_list ?_
    intro a ha b hb
    have hsame : score a = value := by simpa using (List.mem_filter.mp ha).2
    have hsame' : score b = value := by simpa using (List.mem_filter.mp hb).2
    rw [hsame, hsame']
  have hown := hsublist.filter fun item => score item = value
  simp only [List.filter_filter, Bool.and_self] at hown
  have hlength := (hperm.filter fun item => score item = value).length_eq
  exact (hown.eq_of_length hlength.symm).symm

theorem filter_ranked (score : α → β) (items : List α) (value : β) :
    (ranked score items).filter (fun item => score item = value) = items.filter fun item => score item = value := by
  refine filter_eq_of_stable (List.mergeSort_perm _ _) ?_ value
  intro part hpart hfalls
  refine List.sublist_mergeSort ?_ ?_ (hfalls.imp fun hle => by simpa using hle) hpart
  · intro a b c hab hbc
    simp only [decide_eq_true_eq] at hab hbc ⊢
    exact hbc.trans hab
  · intro a b
    simpa using le_total (score b) (score a)

/-- A list that falls by score is known by its items of each score. -/
theorem eq_of_filter_eq (hitems : items.Pairwise fun a b => score b ≤ score a)
    (hothers : others.Pairwise fun a b => score b ≤ score a)
    (h : ∀ value, items.filter (fun item => score item = value) = others.filter fun item => score item = value) :
    items = others := by
  have hmem : ∀ item, item ∈ items ↔ item ∈ others := by
    intro item
    have hsame := congrArg (item ∈ ·) (h (score item))
    simpa using hsame
  induction items generalizing others with
  | nil =>
    cases others with
    | nil => rfl
    | cons other others => exact absurd ((hmem other).mpr List.mem_cons_self) List.not_mem_nil
  | cons item items ih =>
    cases others with
    | nil => exact absurd ((hmem item).mp List.mem_cons_self) List.not_mem_nil
    | cons other others =>
      have hle : score other ≤ score item := by
        rcases List.mem_cons.mp ((hmem other).mpr List.mem_cons_self) with rfl | hlater
        · exact le_refl _
        · exact (List.pairwise_cons.mp hitems).1 other hlater
      have hge : score item ≤ score other := by
        rcases List.mem_cons.mp ((hmem item).mp List.mem_cons_self) with rfl | hlater
        · exact le_refl _
        · exact (List.pairwise_cons.mp hothers).1 item hlater
      have hscore : score other = score item := le_antisymm hle hge
      have hhead := h (score item)
      rw [List.filter_cons_of_pos (by simp), List.filter_cons_of_pos (by simp [hscore])] at hhead
      have hsame : item = other := (List.cons.inj hhead).1
      subst hsame
      have htails : ∀ value, items.filter (fun item => score item = value) =
          others.filter fun item => score item = value := by
        intro value
        have hvalue := h value
        by_cases hown : score item = value
        · rw [List.filter_cons_of_pos (by simp [hown]), List.filter_cons_of_pos (by simp [hown])] at hvalue
          exact (List.cons.inj hvalue).2
        · rw [List.filter_cons_of_neg (by simp [hown]), List.filter_cons_of_neg (by simp [hown])] at hvalue
          exact hvalue
      have htail : ∀ entry, entry ∈ items ↔ entry ∈ others := by
        intro entry
        have hentry := congrArg (entry ∈ ·) (htails (score entry))
        simpa using hentry
      rw [ih (List.pairwise_cons.mp hitems).2 (List.pairwise_cons.mp hothers).2 htails htail]

/-- Lists with the same items of each score, in the same order, are sorted to the same. -/
theorem ranked_eq_of_filter_eq
    (h : ∀ value, items.filter (fun item => score item = value) = others.filter fun item => score item = value) :
    ranked score items = ranked score others := by
  refine eq_of_filter_eq (pairwise_ranked score items) (pairwise_ranked score others) ?_
  intro value
  rw [filter_ranked, filter_ranked, h value]

/-- Any stable sort by falling score gives the ranking. -/
theorem eq_ranked_of_stable {sorted : List α} (hperm : sorted.Perm items)
    (hsorted : sorted.Pairwise fun a b => score b ≤ score a)
    (hstable : ∀ part : List α, part.Sublist items → part.Pairwise (fun a b => score b ≤ score a) → part.Sublist sorted) :
    sorted = ranked score items := by
  refine eq_of_filter_eq hsorted (pairwise_ranked score items) ?_
  intro value
  rw [filter_eq_of_stable hperm hstable value, filter_ranked]

/-- The ranking of what items are made into, by the scores of that. -/
theorem ranked_map {γ : Type} (f : γ → α) (items : List γ) :
    ranked score (items.map f) = (ranked (fun item => score (f item)) items).map f := by
  refine (@List.map_mergeSort _ _ _ _ f items ?_).symm
  intro a _ b _
  rfl

end Ties

end RagSystem.StableRanking
