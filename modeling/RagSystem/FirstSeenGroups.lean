import Mathlib.Data.List.Induction
import Mathlib.Data.List.Nodup

/-!
# Groups in first-seen order

Items are put into groups one after the other, by a key: into the group of their
key, or into a new one at the end. The groups have the keys in the order in which
they are first seen, and each has the items of its key, in their order.
-/

namespace RagSystem.FirstSeenGroups

set_option autoImplicit false

/-- A group. -/
structure Group (κ α : Type) where
  /-- The key of its items. -/
  key : κ
  /-- The item it began with. -/
  first : α
  /-- Its items. -/
  items : List α

section

variable {κ α β : Type} [DecidableEq κ]

/-- One item more. -/
def add (key : κ) (item : α) : List (Group κ α) → List (Group κ α)
  | [] => [⟨key, item, [item]⟩]
  | group :: groups =>
    if group.key = key then { group with items := group.items ++ [item] } :: groups else group :: add key item groups

/-- The groups of the items, by their keys. -/
def groupsOf (key : α → κ) (items : List α) : List (Group κ α) :=
  items.foldl (fun groups item => add (key item) item groups) []

/-- An item joins the group of its key, or begins one. -/
theorem add_cases (key : κ) (item : α) (groups : List (Group κ α)) :
    (key ∉ groups.map Group.key ∧ add key item groups = groups ++ [⟨key, item, [item]⟩]) ∨
      ∃ before group after, groups = before ++ group :: after ∧ group.key = key ∧
        add key item groups = before ++ { group with items := group.items ++ [item] } :: after := by
  induction groups with
  | nil => exact Or.inl ⟨List.not_mem_nil, rfl⟩
  | cons group groups ih =>
    rw [add]
    by_cases hkey : group.key = key
    · rw [if_pos hkey]
      exact Or.inr ⟨[], group, groups, rfl, hkey, rfl⟩
    · rw [if_neg hkey]
      rcases ih with ⟨hnew, hadd⟩ | ⟨before, found, after, hgroups, hfound, hadd⟩
      · refine Or.inl ⟨?_, by rw [hadd, List.cons_append]⟩
        rw [List.map_cons, List.mem_cons, not_or]
        exact ⟨fun h => hkey h.symm, hnew⟩
      · exact Or.inr ⟨group :: before, found, after, by rw [hgroups, List.cons_append], hfound,
          by rw [hadd, List.cons_append]⟩

/-- What groups of items are. -/
structure Groups (key : α → κ) (items : List α) (groups : List (Group κ α)) : Prop where
  /-- One group a key. -/
  distinct : (groups.map Group.key).Nodup
  /-- With the items of the key. -/
  items_eq : ∀ group ∈ groups, group.items = items.filter fun item => key item = group.key
  /-- The first of them is known. -/
  first_eq : ∀ group ∈ groups, group.items.head? = some group.first
  /-- Every item is in one. -/
  perm : (groups.flatMap Group.items).Perm items
  /-- They are in first-seen order. -/
  ordered : (groups.map Group.first).Sublist items

theorem Groups.nil (key : α → κ) : Groups key [] [] :=
  ⟨List.nodup_nil, fun _ h => absurd h List.not_mem_nil, fun _ h => absurd h List.not_mem_nil, List.Perm.nil,
    List.Sublist.slnil⟩

/-- An item is not among those of another key. -/
theorem filter_other {key : α → κ} {k : κ} {item : α} (hk : k ≠ key item) (items : List α) :
    (items ++ [item]).filter (fun other => key other = k) = items.filter fun other => key other = k := by
  rw [List.filter_append, List.filter_cons_of_neg (by simpa using hk.symm), List.filter_nil, List.append_nil]

/-- It is the last of its own. -/
theorem filter_own (key : α → κ) (item : α) (items : List α) :
    (items ++ [item]).filter (fun other => key other = key item) =
      items.filter (fun other => key other = key item) ++ [item] := by
  rw [List.filter_append, List.filter_cons_of_pos (by simp), List.filter_nil]

section Step

variable {key : α → κ} {items : List α} {groups : List (Group κ α)} {item : α}

/-- An item whose key no group has begins one. -/
theorem Groups.begin (h : Groups key items groups) (hnew : key item ∉ groups.map Group.key) :
    Groups key (items ++ [item]) (groups ++ [⟨key item, item, [item]⟩]) := by
  have hnone : items.filter (fun other => key other = key item) = [] := by
    rw [List.filter_eq_nil_iff]
    intro other hother
    obtain ⟨group, hgroup, hmem⟩ := List.mem_flatMap.mp (h.perm.mem_iff.mpr hother)
    rw [h.items_eq group hgroup, List.mem_filter] at hmem
    have hsame : key other = group.key := by simpa using hmem.2
    have hne : key other ≠ key item := fun he => hnew (he ▸ hsame ▸ List.mem_map_of_mem hgroup)
    simpa using hne
  have hmem : ∀ group ∈ groups ++ [⟨key item, item, [item]⟩],
      group ∈ groups ∧ group.key ≠ key item ∨ group = ⟨key item, item, [item]⟩ := by
    intro group hgroup
    cases List.mem_append.mp hgroup with
    | inl hold => exact Or.inl ⟨hold, fun he => hnew (he ▸ List.mem_map_of_mem hold)⟩
    | inr hlast => exact Or.inr (List.mem_singleton.mp hlast)
  refine ⟨?_, ?_, ?_, ?_, ?_⟩
  · rw [List.map_append, List.map_singleton]
    exact h.distinct.append (List.nodup_singleton _) (by simpa using hnew)
  · intro group hgroup
    rcases hmem group hgroup with ⟨hold, hne⟩ | rfl
    · rw [filter_other hne, h.items_eq group hold]
    · rw [filter_own, hnone, List.nil_append]
  · intro group hgroup
    rcases hmem group hgroup with ⟨hold, -⟩ | rfl
    · exact h.first_eq group hold
    · rfl
  · rw [List.flatMap_append, List.flatMap_singleton]
    exact h.perm.append (List.Perm.refl _)
  · rw [List.map_append, List.map_singleton]
    exact h.ordered.append (List.Sublist.refl _)

/-- An item whose key a group has joins it. -/
theorem Groups.join {before after : List (Group κ α)} {group : Group κ α}
    (h : Groups key items (before ++ group :: after)) (hkey : group.key = key item) :
    Groups key (items ++ [item]) (before ++ { group with items := group.items ++ [item] } :: after) := by
  have hdistinct := h.distinct
  rw [List.map_append, List.map_cons, List.nodup_append] at hdistinct
  obtain ⟨-, hafter, hbefore⟩ := hdistinct
  have hmem : ∀ other ∈ before ++ { group with items := group.items ++ [item] } :: after,
      other ∈ before ++ group :: after ∧ other.key ≠ key item ∨
        other = { group with items := group.items ++ [item] } := by
    intro other hmem
    rcases List.mem_append.mp hmem with hfront | hback
    · refine Or.inl ⟨List.mem_append_left _ hfront, fun he => ?_⟩
      exact hbefore _ (List.mem_map_of_mem hfront) _ List.mem_cons_self (he.trans hkey.symm)
    · cases List.mem_cons.mp hback with
      | inl hsame => exact Or.inr hsame
      | inr hlater =>
        refine Or.inl ⟨List.mem_append_right _ (List.mem_cons_of_mem _ hlater), fun he => ?_⟩
        exact (List.nodup_cons.mp hafter).1 (hkey.trans he.symm ▸ List.mem_map_of_mem hlater)
  have hgroup : group ∈ before ++ group :: after := List.mem_append_right _ List.mem_cons_self
  have hfirst := h.first_eq group hgroup
  refine ⟨?_, ?_, ?_, ?_, ?_⟩
  · simpa using h.distinct
  · intro other hother
    rcases hmem other hother with ⟨hold, hne⟩ | rfl
    · rw [filter_other hne, h.items_eq other hold]
    · dsimp only
      rw [hkey, filter_own, h.items_eq group hgroup, hkey]
  · intro other hother
    rcases hmem other hother with ⟨hold, -⟩ | rfl
    · exact h.first_eq other hold
    · dsimp only
      rw [List.head?_append, hfirst]
      rfl
  · have hperm := h.perm
    simp only [List.flatMap_append, List.flatMap_cons, List.append_assoc] at hperm ⊢
    have hlast : ([item] ++ after.flatMap Group.items).Perm (after.flatMap Group.items ++ [item]) := List.perm_append_comm
    have hmoved := (hlast.append_left group.items).append_left (before.flatMap Group.items)
    have hend := hperm.append (List.Perm.refl [item])
    exact hmoved.trans (by simpa only [List.append_assoc] using hend)
  · have hfirsts : (before ++ { group with items := group.items ++ [item] } :: after).map Group.first =
        (before ++ group :: after).map Group.first := by simp
    rw [hfirsts]
    exact h.ordered.trans (List.sublist_append_left _ _)

/-- An item more keeps them so. -/
theorem Groups.add (h : Groups key items groups) (item : α) :
    Groups key (items ++ [item]) (add (key item) item groups) := by
  rcases add_cases (key item) item groups with ⟨hnew, hadd⟩ | ⟨before, group, after, hgroups, hkey, hadd⟩
  · rw [hadd]
    exact h.begin hnew
  · rw [hadd]
    rw [hgroups] at h
    exact h.join hkey

end Step

/-- The groups of items are groups of them. -/
theorem groups_groupsOf (key : α → κ) (items : List α) : Groups key items (groupsOf key items) := by
  induction items using List.reverseRecOn with
  | nil => exact Groups.nil key
  | append_singleton items item ih =>
    rw [groupsOf, List.foldl_append]
    exact ih.add item

/-- The first items of the groups are the ones they began with. -/
theorem Groups.heads {key : α → κ} {items : List α} {groups : List (Group κ α)} (h : Groups key items groups) :
    (groups.map Group.items).filterMap List.head? = groups.map Group.first := by
  have hfirst := h.first_eq
  clear h
  induction groups with
  | nil => rfl
  | cons group groups ih =>
    rw [List.map_cons, List.filterMap_cons_some (hfirst group List.mem_cons_self), List.map_cons,
      ih fun other hother => hfirst other (List.mem_cons_of_mem _ hother)]

/-- A group's first item has its key. -/
theorem Groups.key_first {key : α → κ} {items : List α} {groups : List (Group κ α)} (h : Groups key items groups)
    {group : Group κ α} (hgroup : group ∈ groups) : key group.first = group.key := by
  have hmem : group.first ∈ group.items := List.mem_of_mem_head? (h.first_eq group hgroup)
  rw [h.items_eq group hgroup, List.mem_filter] at hmem
  simpa using hmem.2

/-- A group of other items. -/
def Group.map (f : α → β) (group : Group κ α) : Group κ β := ⟨group.key, f group.first, group.items.map f⟩

theorem add_map (f : α → β) (key : κ) (item : α) (groups : List (Group κ α)) :
    add key (f item) (groups.map (Group.map f)) = (add key item groups).map (Group.map f) := by
  induction groups with
  | nil => rfl
  | cons group groups ih =>
    rw [List.map_cons, add, add]
    by_cases hkey : group.key = key
    · rw [if_pos hkey, if_pos (show (Group.map f group).key = key from hkey)]
      simp [Group.map]
    · rw [if_neg hkey, if_neg (show ¬ (Group.map f group).key = key from hkey), ih, List.map_cons]

/-- Items are grouped as what they are made of, by the same keys. -/
theorem groupsOf_map (f : α → β) (key : β → κ) (items : List α) :
    groupsOf key (items.map f) = (groupsOf (fun item => key (f item)) items).map (Group.map f) := by
  induction items using List.reverseRecOn with
  | nil => rfl
  | append_singleton items item ih =>
    have hleft : groupsOf key (items.map f ++ [f item]) = add (key (f item)) (f item) (groupsOf key (items.map f)) := by
      rw [groupsOf, List.foldl_append]
      rfl
    have hright : groupsOf (fun item => key (f item)) (items ++ [item]) =
        add (key (f item)) item (groupsOf (fun item => key (f item)) items) := by
      rw [groupsOf, List.foldl_append]
      rfl
    rw [List.map_append, List.map_singleton, hleft, hright, ih, add_map]

end

end RagSystem.FirstSeenGroups
