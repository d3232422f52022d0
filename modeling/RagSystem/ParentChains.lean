import Mathlib.Data.Set.Card
import Mathlib.Logic.Relation

/-!
# Chains of parents

Things may have a parent. The ancestors of one are what its parents' parents
lead to; without cycles it has one more than its parent.
-/

namespace RagSystem.ParentChains

set_option autoImplicit false

section

variable {α : Type} (parent : α → Option α)

/-- One is the parent of the other. -/
def IsParent (child other : α) : Prop := parent child = some other

/-- What a chain of parents leads to. -/
def ancestors (child : α) : Set α := {other | Relation.TransGen (IsParent parent) child other}

/-- Nothing is its own ancestor. -/
def Acyclic : Prop := ∀ child, child ∉ ancestors parent child

variable {parent} {child other : α}

/-- Where a parent always ranks lower there are no cycles. -/
theorem acyclic_of_rank (rank : α → ℕ) (h : ∀ child other, parent child = some other → rank other < rank child) :
    Acyclic parent := by
  have hlower : ∀ child ancestor, ancestor ∈ ancestors parent child → rank ancestor < rank child := by
    intro child ancestor hancestor
    induction hancestor with
    | single hparent => exact h _ _ hparent
    | tail _ hparent ih => exact (h _ _ hparent).trans ih
  exact fun child hself => lt_irrefl _ (hlower child child hself)

theorem ancestors_of_none (h : parent child = none) : ancestors parent child = ∅ := by
  rw [Set.eq_empty_iff_forall_notMem]
  intro ancestor hancestor
  obtain ⟨next, hnext, -⟩ := Relation.TransGen.head'_iff.mp hancestor
  rw [IsParent, h] at hnext
  cases hnext

/-- The ancestors are the parent and its ancestors. -/
theorem ancestors_of_some (h : parent child = some other) : ancestors parent child = insert other (ancestors parent other) := by
  ext ancestor
  constructor
  · intro hancestor
    obtain ⟨next, hnext, hrest⟩ := Relation.TransGen.head'_iff.mp hancestor
    have hsame : other = next := Option.some.inj (h.symm.trans hnext)
    subst hsame
    rcases Relation.reflTransGen_iff_eq_or_transGen.mp hrest with heq | htrans
    · exact Or.inl heq
    · exact Or.inr htrans
  · rintro (rfl | htrans)
    · exact Relation.TransGen.single h
    · exact Relation.TransGen.head h htrans

/-- Without cycles that is one more. -/
theorem ncard_ancestors_of_some (hacyclic : Acyclic parent) (h : parent child = some other)
    (hfinite : (ancestors parent other).Finite) : (ancestors parent child).ncard = (ancestors parent other).ncard + 1 := by
  rw [ancestors_of_some h, Set.ncard_insert_of_notMem (hacyclic other) hfinite]

end

end RagSystem.ParentChains
