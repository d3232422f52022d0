import Mathlib.Data.List.Basic

/-!
# Trees with labelled nodes and keyed children

A syntax tree as parsers build them: every node has a label and a list of
children, each under a key. The nodes can be walked level by level, and a node
can be told together with the way that leads to it.
-/

namespace RagSystem.KeyedTrees

set_option autoImplicit false

/-- A node with its children in order, each under its key. -/
inductive Tree (L K : Type) : Type where
  /-- A label and the children. -/
  | node (label : L) (args : List (K × Tree L K))

variable {L K : Type}

/-- The label of a node. -/
def Tree.label : Tree L K → L
  | .node label _ => label

/-- The children of a node with their keys. -/
def Tree.args : Tree L K → List (K × Tree L K)
  | .node _ args => args

/-- The children of a node. -/
def Tree.children (t : Tree L K) : List (Tree L K) := t.args.map Prod.snd

/-- The children under a key. -/
def Tree.under [DecidableEq K] (t : Tree L K) (k : K) : List (Tree L K) :=
  (t.args.filter fun a => a.1 = k).map Prod.snd

mutual

/-- The number of levels of a tree. -/
def Tree.height : Tree L K → ℕ
  | .node _ args => argsHeight args + 1

/-- The number of levels of some keyed trees together. -/
def argsHeight : List (K × Tree L K) → ℕ
  | [] => 0
  | (_, t) :: rest => max t.height (argsHeight rest)

end

/-- A tree has a level. -/
theorem Tree.height_pos (t : Tree L K) : 0 < t.height := by
  cases t with
  | node label args =>
    rw [Tree.height]
    omega

/-- Each tree is as high as all of them together at most. -/
theorem height_le_argsHeight {args : List (K × Tree L K)} {k : K} {c : Tree L K} (hc : (k, c) ∈ args) :
    c.height ≤ argsHeight args := by
  induction args with
  | nil => contradiction
  | cons a rest ih =>
    rw [argsHeight]
    rcases List.mem_cons.mp hc with rfl | hc
    · exact Nat.le_max_left _ _
    · exact Nat.le_trans (ih hc) (Nat.le_max_right _ _)

/-- A child has fewer levels. -/
theorem height_child_lt {t c : Tree L K} (hc : c ∈ t.children) : c.height < t.height := by
  cases t with
  | node label args =>
    obtain ⟨⟨k, c'⟩, hin, rfl⟩ := List.mem_map.mp hc
    have hle : c'.height ≤ argsHeight args := height_le_argsHeight hin
    rw [Tree.height]
    exact Nat.lt_succ_of_le hle

/-- A child under a key is a child. -/
theorem mem_children_of_mem_args {t c : Tree L K} {k : K} (hc : (k, c) ∈ t.args) : c ∈ t.children :=
  List.mem_map.mpr ⟨(k, c), hc, rfl⟩

section Walk

/-- The first `n` levels below some nodes, level by level. -/
def levels : ℕ → List (Tree L K) → List (Tree L K)
  | 0, _ => []
  | n + 1, ts => ts ++ levels n (ts.flatMap Tree.children)

/-- All nodes of a tree, level by level. -/
def Tree.walk (t : Tree L K) : List (Tree L K) := levels t.height [t]

/-- `Within s t`: `s` is a node of `t`, at some depth. -/
inductive Within (s : Tree L K) : Tree L K → Prop where
  /-- The root. -/
  | root : Within s s
  /-- A node below a child. -/
  | child {t c : Tree L K} (hc : c ∈ t.children) (hs : Within s c) : Within s t

/-- A node is the root or stands below a child. -/
theorem within_iff {s t : Tree L K} : Within s t ↔ s = t ∨ ∃ c ∈ t.children, Within s c := by
  constructor
  · intro h
    cases h with
    | root => exact .inl rfl
    | child hc hs => exact .inr ⟨_, hc, hs⟩
  · rintro (rfl | ⟨c, hc, hs⟩)
    · exact .root
    · exact .child hc hs

/-- A node of a node is a node. -/
theorem Within.trans {r s t : Tree L K} (hr : Within r s) (hs : Within s t) : Within r t := by
  induction hs with
  | root => exact hr
  | child hc _ ih => exact .child hc ih

/-- Levels enough for every tree hold exactly their nodes. -/
theorem mem_levels {n : ℕ} {ts : List (Tree L K)} {s : Tree L K} (hn : ∀ t ∈ ts, t.height ≤ n) :
    s ∈ levels n ts ↔ ∃ t ∈ ts, Within s t := by
  induction n generalizing ts with
  | zero =>
    have hnone : ¬ ∃ t ∈ ts, Within s t := by
      rintro ⟨t, ht, -⟩
      have hpos := t.height_pos
      have hzero := hn t ht
      omega
    simp only [levels, List.not_mem_nil, hnone]
  | succ n ih =>
    have hbelow : ∀ c ∈ ts.flatMap Tree.children, c.height ≤ n := by
      intro c hc
      obtain ⟨t, ht, hc⟩ := List.mem_flatMap.mp hc
      have hlt := height_child_lt hc
      have hle := hn t ht
      omega
    rw [levels, List.mem_append, ih hbelow]
    constructor
    · rintro (hs | ⟨c, hc, hs⟩)
      · exact ⟨s, hs, .root⟩
      · obtain ⟨t, ht, hc⟩ := List.mem_flatMap.mp hc
        exact ⟨t, ht, .child hc hs⟩
    · rintro ⟨t, ht, hs⟩
      rcases within_iff.mp hs with rfl | ⟨c, hc, hs⟩
      · exact .inl ht
      · exact .inr ⟨c, List.mem_flatMap.mpr ⟨t, ht, hc⟩, hs⟩

/-- The walk passes exactly the nodes of the tree. -/
theorem mem_walk {s t : Tree L K} : s ∈ t.walk ↔ Within s t := by
  have hn : ∀ t' ∈ [t], t'.height ≤ t.height := by
    intro t' ht'
    exact Nat.le_of_eq (congrArg Tree.height (List.mem_singleton.mp ht'))
  simp only [Tree.walk, mem_levels hn, List.mem_singleton, exists_eq_left]

/-- The nodes of a tree that a test picks, in the order of the walk. -/
def Tree.findAll (t : Tree L K) (p : Tree L K → Bool) : List (Tree L K) := t.walk.filter p

/-- What is found is a node that passes the test. -/
theorem mem_findAll {s t : Tree L K} {p : Tree L K → Bool} : s ∈ t.findAll p ↔ Within s t ∧ p s = true := by
  rw [Tree.findAll, List.mem_filter, mem_walk]

/-- Nothing is found where no node passes the test. -/
theorem head?_findAll_eq_none {t : Tree L K} {p : Tree L K → Bool} :
    (t.findAll p).head? = none ↔ ∀ s, Within s t → p s = false := by
  rw [List.head?_eq_none_iff, List.eq_nil_iff_forall_not_mem]
  simp only [mem_findAll, not_and, Bool.not_eq_true]

/-- The first `n` levels below some nodes, without what stands below a node
where the walk stops. -/
def levelsUntil (stop : Tree L K → Bool) : ℕ → List (Tree L K) → List (Tree L K)
  | 0, _ => []
  | n + 1, ts => ts ++ levelsUntil stop n (ts.flatMap fun t => if stop t = true then [] else t.children)

/-- The nodes of a tree that do not stand below a node where the walk stops. -/
def Tree.walkUntil (t : Tree L K) (stop : Tree L K → Bool) : List (Tree L K) := levelsUntil stop t.height [t]

end Walk

section Addresses

/-- `Under t path s`: from the root `t` the way `path` leads to the node `s`.
The last step stands first: the node passed and the key taken there. -/
inductive Under (t : Tree L K) : List (Tree L K × K) → Tree L K → Prop where
  /-- No step. -/
  | root : Under t [] t
  /-- One step more. -/
  | step {path : List (Tree L K × K)} {s c : Tree L K} {k : K} (hs : Under t path s) (hc : (k, c) ∈ s.args) :
      Under t ((s, k) :: path) c

/-- Where a way leads is a node. -/
theorem Under.within {t s : Tree L K} {path : List (Tree L K × K)} (h : Under t path s) : Within s t := by
  induction h with
  | root => exact .root
  | step _ hc ih =>
    have hchild := Within.child (mem_children_of_mem_args hc) .root
    exact hchild.trans ih

end Addresses

end RagSystem.KeyedTrees
