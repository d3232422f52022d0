import Mathlib.Data.List.Nodup
import Mathlib.Data.List.Zip

/-!
# Dicts and lists on a heap

Dicts and lists are objects that are changed in place; a value refers to them by
their address. A tree is held by a heap where its containers are laid out at
addresses of their own, its footprint. A deep copy lays the same tree out at
new addresses and leaves the old ones as they are.
-/

namespace RagSystem.ObjectHeap

set_option autoImplicit false

section Heap

/-- What is neither a dict nor a list; a float by its `repr`. -/
inductive Scalar where
  /-- `None`. -/
  | none
  /-- A `bool`. -/
  | bool (value : Bool)
  /-- An `int`. -/
  | int (value : ℤ)
  /-- A `float`. -/
  | float (text : String)
  /-- A `str`. -/
  | str (value : String)
  deriving DecidableEq

/-- A value, by its content. -/
inductive Tree where
  /-- A scalar. -/
  | scalar (value : Scalar)
  /-- A list. -/
  | list (items : List Tree)
  /-- A dict, its entries in the order in which they were set. -/
  | dict (entries : List (String × Tree))

/-- A value, as an object holds it. -/
inductive Slot where
  /-- A scalar. -/
  | scalar (value : Scalar)
  /-- A reference to an object. -/
  | ref (address : ℕ)
  deriving DecidableEq

/-- An object. -/
inductive Cell where
  /-- A list. -/
  | list (items : List Slot)
  /-- A dict. -/
  | dict (entries : List (String × Slot))
  deriving DecidableEq

/-- The objects, each at its address. -/
abbrev Heap := List Cell

/-- The values in an object. -/
def Cell.slots : Cell → List Slot
  | .list items => items
  | .dict entries => entries.map Prod.snd

/-- The object with other values. -/
def Cell.withSlots (slots : List Slot) : Cell → Cell
  | .list _ => .list slots
  | .dict entries => .dict ((entries.map Prod.fst).zip slots)

/-- The values in a container. -/
def Tree.children : Tree → List Tree
  | .scalar _ => []
  | .list items => items
  | .dict entries => entries.map Prod.snd

/-- An object is of the kind of a container; a dict has its keys, which are distinct. -/
def Shape : Cell → Tree → Prop
  | .list _, .list _ => True
  | .dict slots, .dict entries => slots.map Prod.fst = entries.map Prod.fst ∧ (slots.map Prod.fst).Nodup
  | _, _ => False

/-- Values that are held one by one, each with its footprint. -/
inductive HoldsAll {α β : Type} (R : α → β → List ℕ → Prop) : List α → List β → List ℕ → Prop where
  /-- None. -/
  | nil : HoldsAll R [] [] []
  /-- One more. -/
  | cons {a : α} {b : β} {footprint : List ℕ} {as : List α} {bs : List β} {rest : List ℕ} (head : R a b footprint)
      (tail : HoldsAll R as bs rest) : HoldsAll R (a :: as) (b :: bs) (footprint ++ rest)

/-- A heap holds a tree, of at most this height, at these addresses. -/
def Holds (heap : Heap) : ℕ → Slot → Tree → List ℕ → Prop
  | _, .scalar value, .scalar other, footprint => value = other ∧ footprint = []
  | _, .scalar _, _, _ => False
  | 0, .ref _, _, _ => False
  | n + 1, .ref address, tree, footprint => ∃ cell rest, heap[address]? = some cell ∧ Shape cell tree ∧
      footprint = address :: rest ∧ HoldsAll (Holds heap n) cell.slots tree.children rest

end Heap

section Frame

variable {α β : Type} {R S : α → β → List ℕ → Prop} {as as' : List α} {bs bs' : List β} {footprint rest : List ℕ}

theorem HoldsAll.mono (h : HoldsAll R as bs footprint)
    (himp : ∀ a b part, (∀ x ∈ part, x ∈ footprint) → R a b part → S a b part) : HoldsAll S as bs footprint := by
  induction h with
  | nil => exact .nil
  | cons head _ ih =>
    refine .cons (himp _ _ _ (fun x hx => List.mem_append_left _ hx) head) (ih ?_)
    intro a b part hpart
    exact himp a b part fun x hx => List.mem_append_right _ (hpart x hx)

theorem HoldsAll.append (h : HoldsAll R as bs footprint) (h' : HoldsAll R as' bs' rest) :
    HoldsAll R (as ++ as') (bs ++ bs') (footprint ++ rest) := by
  induction h with
  | nil => exact h'
  | cons head _ ih =>
    rw [List.append_assoc]
    exact .cons head ih

theorem HoldsAll.length_eq (h : HoldsAll R as bs footprint) : as.length = bs.length := by
  induction h with
  | nil => rfl
  | cons _ _ ih => rw [List.length_cons, List.length_cons, ih]

variable {heap heap' : Heap} {n : ℕ} {slot : Slot} {tree : Tree}

/-- A value that is held is a scalar or refers to an object. -/
theorem holds_iff : Holds heap n slot tree footprint ↔
    (∃ value, slot = .scalar value ∧ tree = .scalar value ∧ footprint = []) ∨
      ∃ m address cell rest, n = m + 1 ∧ slot = .ref address ∧ heap[address]? = some cell ∧ Shape cell tree ∧
        footprint = address :: rest ∧ HoldsAll (Holds heap m) cell.slots tree.children rest := by
  cases slot with
  | scalar value =>
    cases tree with
    | scalar other => simp [Holds, eq_comm]
    | list items => simp [Holds]
    | dict entries => simp [Holds]
  | ref address =>
    cases n with
    | zero => simp [Holds]
    | succ n => simp [Holds]

/-- A tree is held by any heap that agrees at its footprint. -/
theorem Holds.frame (h : Holds heap n slot tree footprint) (hsame : ∀ a ∈ footprint, heap'[a]? = heap[a]?) :
    Holds heap' n slot tree footprint := by
  induction n generalizing slot tree footprint with
  | zero =>
    rcases holds_iff.mp h with hscalar | ⟨m, _, _, _, hm, -⟩
    · exact holds_iff.mpr (Or.inl hscalar)
    · omega
  | succ n ih =>
    rcases holds_iff.mp h with hscalar | ⟨m, address, cell, rest, hm, rfl, hcell, hshape, rfl, hall⟩
    · exact holds_iff.mpr (Or.inl hscalar)
    · obtain rfl : n = m := by omega
      have hread : heap'[address]? = some cell := (hsame address List.mem_cons_self).trans hcell
      refine holds_iff.mpr (Or.inr ⟨n, address, cell, rest, rfl, rfl, hread, hshape, rfl, hall.mono ?_⟩)
      intro child subtree part hpart hheld
      exact ih hheld fun a ha => hsame a (List.mem_cons_of_mem _ (hpart a ha))

theorem HoldsAll.forall_mem {P : ℕ → Prop} (h : HoldsAll R as bs footprint)
    (hone : ∀ a b part, R a b part → ∀ x ∈ part, P x) : ∀ x ∈ footprint, P x := by
  induction h with
  | nil => exact fun _ hx => absurd hx List.not_mem_nil
  | cons head _ ih =>
    intro x hx
    rcases List.mem_append.mp hx with hhead | htail
    · exact hone _ _ _ head x hhead
    · exact ih x htail

/-- The addresses of a footprint are taken. -/
theorem Holds.lt_length (h : Holds heap n slot tree footprint) : ∀ a ∈ footprint, a < heap.length := by
  induction n generalizing slot tree footprint with
  | zero =>
    rcases holds_iff.mp h with ⟨value, -, -, rfl⟩ | ⟨m, _, _, _, hm, -⟩
    · exact fun _ hx => absurd hx List.not_mem_nil
    · omega
  | succ n ih =>
    rcases holds_iff.mp h with ⟨value, -, -, rfl⟩ | ⟨m, address, cell, rest, hm, rfl, hcell, -, rfl, hall⟩
    · exact fun _ hx => absurd hx List.not_mem_nil
    · obtain rfl : n = m := by omega
      intro a ha
      rcases List.mem_cons.mp ha with rfl | hin
      · exact (List.getElem?_eq_some_iff.mp hcell).1
      · exact hall.forall_mem (fun _ _ _ hheld => ih hheld) a hin

end Frame

section Copy

/-- The objects that were copied already, with their copies. -/
abbrev Memo := List (ℕ × ℕ)

/-- A step on each of some values, one after the other. -/
def copyAll (copy : Heap × Memo → Slot → Option (Slot × Heap × Memo)) :
    Heap × Memo → List Slot → Option (List Slot × Heap × Memo)
  | state, [] => some ([], state)
  | state, slot :: slots =>
    match copy state slot with
    | none => none
    | some (copied, state) =>
      match copyAll copy state slots with
      | none => none
      | some (rest, state) => some (copied :: rest, state)

/-- An empty object of a kind. -/
def Cell.empty : Cell → Cell
  | .list _ => .list []
  | .dict _ => .dict []

/-- `copy.deepcopy`, nested so many calls at most: an object is copied once, an empty one first. -/
def deepcopy : ℕ → Heap × Memo → Slot → Option (Slot × Heap × Memo)
  | _, state, .scalar value => some (.scalar value, state)
  | 0, _, .ref _ => none
  | fuel + 1, (heap, memo), .ref address =>
    match memo.lookup address with
    | some copied => some (.ref copied, heap, memo)
    | none =>
      match heap[address]? with
      | none => none
      | some cell =>
        match copyAll (deepcopy fuel) (heap ++ [cell.empty], (address, heap.length) :: memo) cell.slots with
        | none => none
        | some (slots, heap', memo') => some (.ref heap.length, heap'.set heap.length (cell.withSlots slots), memo')

variable {heap : Heap} {memo : Memo} {n fuel : ℕ} {slot : Slot} {tree : Tree} {footprint : List ℕ}

theorem lookup_cons_of_ne {a b : ℕ} (h : a ≠ b) (copied : ℕ) (memo : Memo) :
    List.lookup a ((b, copied) :: memo) = memo.lookup a := by
  rw [List.lookup_cons, beq_false_of_ne h]

/-- What is known of a copy: a footprint of its own behind what was there, which is as it was. -/
structure Fresh (before after : Heap) (memo memo' : Memo) (footprint copied : List ℕ) : Prop where
  /-- What was there. -/
  kept : ∀ a < before.length, after[a]? = before[a]?
  /-- There may be more. -/
  grown : before.length ≤ after.length
  /-- The copy is laid out at addresses of its own. -/
  distinct : copied.Nodup
  /-- They are new. -/
  new : ∀ a ∈ copied, before.length ≤ a ∧ a < after.length
  /-- Only the objects of the original were noted. -/
  noted : ∀ a, memo.lookup a = none → a ∉ footprint → memo'.lookup a = none

theorem Fresh.refl (heap : Heap) (memo : Memo) : Fresh heap heap memo memo [] [] :=
  ⟨fun _ _ => rfl, Nat.le_refl _, List.nodup_nil, fun _ h => absurd h List.not_mem_nil, fun _ h _ => h⟩

theorem Fresh.trans {heap heap' heap'' : Heap} {memo memo' memo'' : Memo} {footprint rest copied copied' : List ℕ}
    (h : Fresh heap heap' memo memo' footprint copied) (h' : Fresh heap' heap'' memo' memo'' rest copied') :
    Fresh heap heap'' memo memo'' (footprint ++ rest) (copied ++ copied') := by
  refine ⟨?_, Nat.le_trans h.grown h'.grown, ?_, ?_, ?_⟩
  · intro a ha
    rw [h'.kept a (Nat.lt_of_lt_of_le ha h.grown), h.kept a ha]
  · rw [List.nodup_append]
    refine ⟨h.distinct, h'.distinct, ?_⟩
    intro a ha b hb hsame
    have hlt := (h.new a ha).2
    have hle := (h'.new b hb).1
    omega
  · intro a ha
    rcases List.mem_append.mp ha with hfirst | hsecond
    · exact ⟨(h.new a hfirst).1, Nat.lt_of_lt_of_le (h.new a hfirst).2 h'.grown⟩
    · exact ⟨Nat.le_trans h.grown (h'.new a hsecond).1, (h'.new a hsecond).2⟩
  · intro a hnone hnot
    rw [List.mem_append, not_or] at hnot
    exact h'.noted a (h.noted a hnone hnot.1) hnot.2

/-- Values that are copied one after the other, if each is. -/
theorem copyAll_holds {copy : Heap × Memo → Slot → Option (Slot × Heap × Memo)} {slots : List Slot} {trees : List Tree}
    (hcopy : ∀ {heap memo slot tree footprint}, Holds heap n slot tree footprint → footprint.Nodup →
      (∀ a ∈ footprint, memo.lookup a = none) → ∃ slot' heap' memo' copied, copy (heap, memo) slot = some (slot', heap', memo') ∧
        Holds heap' n slot' tree copied ∧ Fresh heap heap' memo memo' footprint copied)
    (h : HoldsAll (Holds heap n) slots trees footprint) (hnodup : footprint.Nodup)
    (hmemo : ∀ a ∈ footprint, memo.lookup a = none) :
    ∃ slots' heap' memo' copied, copyAll copy (heap, memo) slots = some (slots', heap', memo') ∧
      HoldsAll (Holds heap' n) slots' trees copied ∧ Fresh heap heap' memo memo' footprint copied := by
  induction slots generalizing heap memo trees footprint with
  | nil =>
    cases h
    exact ⟨[], heap, memo, [], rfl, .nil, Fresh.refl heap memo⟩
  | cons slot slots ih =>
    cases h with
    | cons head tail =>
      rename_i tree part trees rest
      obtain ⟨hpart, hrest, hapart⟩ := List.nodup_append.mp hnodup
      obtain ⟨slot', heap₁, memo₁, copied, hfirst, hheld, hfresh⟩ :=
        hcopy head hpart fun a ha => hmemo a (List.mem_append_left _ ha)
      have htail : HoldsAll (Holds heap₁ n) slots trees rest :=
        tail.mono fun _ _ _ _ hone => hone.frame fun a ha => hfresh.kept a (hone.lt_length a ha)
      have hmemo₁ : ∀ a ∈ rest, memo₁.lookup a = none := by
        intro a ha
        have hnot : a ∉ part := fun hin => hapart a hin a ha rfl
        exact hfresh.noted a (hmemo a (List.mem_append_right _ ha)) hnot
      obtain ⟨slots', heap₂, memo₂, copied', hothers, hall, hfresh'⟩ := ih htail hrest hmemo₁
      have hstill : Holds heap₂ n slot' tree copied :=
        hheld.frame fun a ha => hfresh'.kept a (hfresh.new a ha).2
      refine ⟨slot' :: slots', heap₂, memo₂, copied ++ copied', ?_, .cons hstill hall, hfresh.trans hfresh'⟩
      simp [copyAll, hfirst, hothers]

/-- An object with other values of its own number has its shape. -/
theorem shape_withSlots {cell : Cell} {slots : List Slot} (h : Shape cell tree) (hlength : slots.length = cell.slots.length) :
    Shape (cell.withSlots slots) tree ∧ (cell.withSlots slots).slots = slots := by
  cases cell with
  | list items =>
    cases tree with
    | scalar value => exact h.elim
    | list others => exact ⟨trivial, rfl⟩
    | dict others => exact h.elim
  | dict entries =>
    have hkeys : (entries.map Prod.fst).length = slots.length := by simpa [Cell.slots] using hlength.symm
    have hfst : ((entries.map Prod.fst).zip slots).map Prod.fst = entries.map Prod.fst :=
      List.map_fst_zip (Nat.le_of_eq hkeys)
    refine ⟨?_, List.map_snd_zip (Nat.le_of_eq hkeys.symm)⟩
    cases tree with
    | scalar value => exact h.elim
    | list items => exact h.elim
    | dict others =>
      rw [Cell.withSlots, Shape, hfst]
      exact h

/-- A deep copy of a tree is laid out anew, and what was there stays. -/
theorem deepcopy_holds (h : Holds heap n slot tree footprint) (hfuel : n ≤ fuel) (hnodup : footprint.Nodup)
    (hmemo : ∀ a ∈ footprint, memo.lookup a = none) :
    ∃ slot' heap' memo' copied, deepcopy fuel (heap, memo) slot = some (slot', heap', memo') ∧
      Holds heap' n slot' tree copied ∧ Fresh heap heap' memo memo' footprint copied := by
  induction n generalizing heap memo slot tree footprint fuel with
  | zero =>
    rcases holds_iff.mp h with ⟨value, rfl, rfl, rfl⟩ | ⟨m, _, _, _, hm, -⟩
    · exact ⟨.scalar value, heap, memo, [], by simp [deepcopy], h, Fresh.refl heap memo⟩
    · omega
  | succ n ih =>
    rcases holds_iff.mp h with ⟨value, rfl, rfl, rfl⟩ | ⟨m, address, cell, rest, hm, rfl, hcell, hshape, rfl, hall⟩
    · exact ⟨.scalar value, heap, memo, [], by simp [deepcopy], h, Fresh.refl heap memo⟩
    · obtain rfl : n = m := by omega
      obtain ⟨fuel, rfl⟩ : ∃ fewer, fuel = fewer + 1 := ⟨fuel - 1, by omega⟩
      obtain ⟨haddress, hrest⟩ := List.nodup_cons.mp hnodup
      have hmiss : memo.lookup address = none := hmemo address List.mem_cons_self
      have hbegun : HoldsAll (Holds (heap ++ [cell.empty]) n) cell.slots tree.children rest := by
        refine hall.mono ?_
        intro child subtree part _ hheld
        exact hheld.frame fun a ha => List.getElem?_append_left (hheld.lt_length a ha)
      have hmemo' : ∀ a ∈ rest, ((address, heap.length) :: memo).lookup a = none := by
        intro a ha
        have hne : a ≠ address := fun hsame => haddress (hsame ▸ ha)
        rw [lookup_cons_of_ne hne]
        exact hmemo a (List.mem_cons_of_mem _ ha)
      have hle : n ≤ fuel := by omega
      have hcopy : ∀ {heap memo slot tree footprint}, Holds heap n slot tree footprint → footprint.Nodup →
          (∀ a ∈ footprint, memo.lookup a = none) → ∃ slot' heap' memo' copied,
            deepcopy fuel (heap, memo) slot = some (slot', heap', memo') ∧
              Holds heap' n slot' tree copied ∧ Fresh heap heap' memo memo' footprint copied :=
        fun hchild => ih hchild hle
      obtain ⟨slots, heap', memo', copied, hcopied, hheld, hfresh⟩ := copyAll_holds hcopy hbegun hrest hmemo'
      have hlength : slots.length = cell.slots.length := by rw [hheld.length_eq, hall.length_eq]
      obtain ⟨hshape', hslots⟩ := shape_withSlots hshape hlength
      have hbounds : heap.length < heap'.length := by
        have hgrown := hfresh.grown
        simp only [List.length_append, List.length_singleton] at hgrown
        omega
      have hcopied' : ∀ a ∈ copied, heap.length < a ∧ a < heap'.length := by
        intro a ha
        have hnew := hfresh.new a ha
        simp only [List.length_append, List.length_singleton] at hnew
        omega
      have hset : ∀ a, a ≠ heap.length → (heap'.set heap.length (cell.withSlots slots))[a]? = heap'[a]? :=
        fun a hne => List.getElem?_set_ne hne.symm
      have hread : (heap'.set heap.length (cell.withSlots slots))[heap.length]? = some (cell.withSlots slots) :=
        List.getElem?_set_self hbounds
      have hlaid : HoldsAll (Holds (heap'.set heap.length (cell.withSlots slots)) n) slots tree.children copied := by
        refine hheld.mono ?_
        intro child subtree part hpart hone
        exact hone.frame fun a ha => hset a (by have := hcopied' a (hpart a ha); omega)
      refine ⟨.ref heap.length, heap'.set heap.length (cell.withSlots slots), memo', heap.length :: copied, ?_, ?_, ?_⟩
      · rw [deepcopy, hmiss]
        dsimp only
        rw [hcell]
        dsimp only
        rw [hcopied]
      · refine holds_iff.mpr (Or.inr ⟨n, heap.length, _, copied, rfl, rfl, hread, hshape', rfl, ?_⟩)
        rw [hslots]
        exact hlaid
      · refine ⟨?_, ?_, ?_, ?_, ?_⟩
        · intro a ha
          rw [hset a (by omega), hfresh.kept a (by simp only [List.length_append, List.length_singleton]; omega)]
          exact List.getElem?_append_left ha
        · rw [List.length_set]
          omega
        · refine List.nodup_cons.mpr ⟨?_, hfresh.distinct⟩
          intro hin
          have hlt := (hcopied' _ hin).1
          omega
        · intro a ha
          rw [List.length_set]
          rcases List.mem_cons.mp ha with rfl | hin
          · omega
          · have hnew := hcopied' a hin
            omega
        · intro a hnone hnot
          rw [List.mem_cons, not_or] at hnot
          refine hfresh.noted a ?_ hnot.2
          rw [lookup_cons_of_ne hnot.1]
          exact hnone

end Copy

end RagSystem.ObjectHeap
