import Mathlib.Data.Nat.Notation
import Mathlib.Logic.Function.Basic

/-!
# Cells with generations

A cell holds at most one value and a generation number that every write
raises. A conditional write names the generation it saw, or that it saw
nothing. What anyone learnt together with a generation is still true as long
as the generation is the same: that is all a compare-and-swap relies on.
-/

namespace RagSystem.VersionedCell

set_option autoImplicit false

variable {α K : Type}

/-- A stored object, or the place for one. -/
structure Cell (α : Type) where
  /-- Raised by every write. -/
  generation : ℕ
  /-- The value, if there is one. -/
  content : Option α

/-- The condition of a conditional write. -/
inductive Precondition where
  /-- Nothing is stored yet. -/
  | ifNoneMatch
  /-- The stored object still has this generation. -/
  | ifMatch (generation : ℕ)

/-- The cell meets the condition of a write. -/
def Cell.admits (c : Cell α) : Precondition → Bool
  | .ifNoneMatch => c.content.isNone
  | .ifMatch g => c.content.isSome && c.generation == g

/-- The cell after a write. -/
def Cell.write (c : Cell α) (v : α) : Cell α := ⟨c.generation + 1, some v⟩

@[simp] theorem Cell.write_content (c : Cell α) (v : α) : (c.write v).content = some v := rfl

@[simp] theorem Cell.write_generation (c : Cell α) (v : α) :
    (c.write v).generation = c.generation + 1 := rfl

/-- `c'` is what `c` can become: only by writes, and not otherwise changed. -/
structure Cell.Later (c c' : Cell α) : Prop where
  /-- Generations only grow. -/
  generation_le : c.generation ≤ c'.generation
  /-- At the same generation nothing was written. -/
  same : c.generation = c'.generation → c' = c
  /-- A value is replaced, never removed. -/
  isSome : c.content.isSome → c'.content.isSome

/-- Nothing happened. -/
theorem Cell.Later.refl (c : Cell α) : c.Later c := ⟨Nat.le_refl _, fun _ => rfl, id⟩

/-- One change after another. -/
theorem Cell.Later.trans {c c' c'' : Cell α} (h : c.Later c') (h' : c'.Later c'') : c.Later c'' := by
  refine ⟨Nat.le_trans h.generation_le h'.generation_le, fun he => ?_, h'.isSome ∘ h.isSome⟩
  have hl := h.generation_le
  have hl' := h'.generation_le
  rw [h'.same (by omega), h.same (by omega)]

/-- A write is a change. -/
theorem Cell.later_write (c : Cell α) (v : α) : c.Later (c.write v) := by
  refine ⟨Nat.le_succ _, fun he => ?_, fun _ => rfl⟩
  rw [Cell.write_generation] at he
  omega

/-- What a conditional write is told to expect after a read. -/
def Cell.precondition (c : Cell α) : Precondition :=
  match c.content with
  | none => .ifNoneMatch
  | some _ => .ifMatch c.generation

/-- A write conditioned on an earlier read goes through only if the content
is still what was read. -/
theorem Cell.Later.content_of_admits {c c' : Cell α} (h : c.Later c')
    (ha : c'.admits c.precondition = true) : c'.content = c.content := by
  unfold Cell.precondition at ha
  cases hc : c.content with
  | none =>
    simp only [hc, Cell.admits, Option.isNone_iff_eq_none] at ha
    exact ha
  | some v =>
    simp only [hc, Cell.admits, Bool.and_eq_true, beq_iff_eq] at ha
    rw [h.same ha.2.symm, hc]

/-- The cell has moved on from the condition of a write for good. -/
def Cell.Surpassed (c : Cell α) : Precondition → Prop
  | .ifNoneMatch => c.content.isSome = true
  | .ifMatch g => g < c.generation

/-- It stays so. -/
theorem Cell.Surpassed.later {c c' : Cell α} {p : Precondition} (h : c.Surpassed p) (hl : c.Later c') :
    c'.Surpassed p := by
  cases p with
  | ifNoneMatch => exact hl.isSome h
  | ifMatch g =>
    have hlt : g < c.generation := h
    exact Nat.lt_of_lt_of_le hlt hl.generation_le

/-- Then the write is refused. -/
theorem Cell.Surpassed.admits {c : Cell α} {p : Precondition} (h : c.Surpassed p) : c.admits p = false := by
  cases p with
  | ifNoneMatch =>
    have hs : c.content.isSome = true := h
    simp only [Cell.admits, Option.isNone_eq_false_iff, hs]
  | ifMatch g =>
    have hlt : g < c.generation := h
    have hne : (c.generation == g) = false := by
      rw [beq_eq_false_iff_ne]
      omega
    simp only [Cell.admits, hne, Bool.and_false]

/-- A conditional write moves the cell on from its own condition. -/
theorem Cell.surpassed_write {c : Cell α} {p : Precondition} (h : c.admits p = true) (v : α) :
    (c.write v).Surpassed p := by
  cases p with
  | ifNoneMatch => rfl
  | ifMatch g =>
    simp only [Cell.admits, Bool.and_eq_true, beq_iff_eq] at h
    have hg : g = c.generation := h.2.symm
    show g < c.generation + 1
    omega

/-- A family of cells, one for each key. -/
abbrev Cells (P : K → Type) := (k : K) → Cell (P k)

variable {P : K → Type}

/-- Every cell of the family changes by writes only. -/
def Later (s s' : Cells P) : Prop := ∀ k, (s k).Later (s' k)

/-- Nothing happened. -/
theorem Later.refl (s : Cells P) : Later s s := fun k => .refl (s k)

/-- One change after another. -/
theorem Later.trans {s s' s'' : Cells P} (h : Later s s') (h' : Later s' s'') : Later s s'' :=
  fun k => (h k).trans (h' k)

variable [DecidableEq K]

/-- Write one cell of the family. -/
def put (s : Cells P) (k : K) (v : P k) : Cells P := Function.update s k ((s k).write v)

@[simp] theorem put_self (s : Cells P) (k : K) (v : P k) : put s k v k = (s k).write v :=
  Function.update_self ..

@[simp] theorem put_of_ne (s : Cells P) {k k' : K} (v : P k) (h : k' ≠ k) : put s k v k' = s k' :=
  Function.update_of_ne h ..

/-- A write is a change of the family. -/
theorem later_put (s : Cells P) (k : K) (v : P k) : Later s (put s k v) := by
  intro k'
  by_cases h : k' = k
  · subst h; rw [put_self]; exact Cell.later_write _ _
  · rw [put_of_ne s v h]; exact .refl _

end RagSystem.VersionedCell
