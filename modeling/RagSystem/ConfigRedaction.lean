import Mathlib.Data.List.Infix
import RagSystem.ObjectHeap

/-!
# Redaction of settings

Settings are copied and the copy is walked: what is stored under a sensitive key
is replaced, and the dicts below other keys are walked in turn. A list is not
entered, so that a dict in one keeps what it has. What the walk leaves is told
twice: on the objects, as the code changes them, and by the content it stands for.
-/

namespace RagSystem.ConfigRedaction

open ObjectHeap

set_option autoImplicit false

section Source

/-- `REDACTED_PLACEHOLDER`. -/
def redactedPlaceholder : Scalar := .str "***REDACTED***"

/-- `SENSITIVE_KEY_PATTERNS`. -/
def sensitiveKeyPatterns : List String := ["api_key", "secret", "token", "credential", "password"]

variable (lower : String → String)

/-- `_is_sensitive_key`, where `lower` is `str.lower`. -/
def isSensitiveKey (key : String) : Bool :=
  sensitiveKeyPatterns.any fun pattern => decide (pattern.toList <:+: (lower key).toList)

/-- `d[key] = value`, of a key that is there. -/
def setKey (entries : List (String × Slot)) (key : String) (value : Slot) : List (String × Slot) :=
  entries.map fun entry => if entry.1 = key then (key, value) else entry

/-- The loop over the keys, one key; `recurse` is the call for a dict below it. -/
def redactKey (recurse : Heap → ℕ → Option Heap) (address : ℕ) (heap : Heap) (key : String) : Option Heap :=
  match heap[address]? with
  | some (.dict entries) =>
    if isSensitiveKey lower key then some (heap.set address (.dict (setKey entries key (.scalar redactedPlaceholder))))
    else
      match entries.lookup key with
      | some (.ref below) =>
        match heap[below]? with
        | some (.dict _) => recurse heap below
        | _ => some heap
      | _ => some heap
  | _ => none

/-- `_redact_dict_inplace`, nested so many calls at most. -/
def redactDictInplace : ℕ → Heap → ℕ → Option Heap
  | 0, _, _ => none
  | fuel + 1, heap, address =>
    match heap[address]? with
    | some (.dict entries) => (entries.map Prod.fst).foldlM (redactKey lower (redactDictInplace fuel) address) heap
    | _ => none

/-- `redact_settings`: the copy, and the heap with it. -/
def redactSettings (fuel : ℕ) (heap : Heap) (settings : ℕ) : Option (Slot × Heap) :=
  match deepcopy fuel (heap, []) (.ref settings) with
  | some (.ref copied, heap', _) => (redactDictInplace lower fuel heap' copied).map fun last => (.ref copied, last)
  | _ => none

end Source

section Content

variable (lower : String → String)

mutual

/-- What the walk makes of a value below a key that is not sensitive: a list is not entered. -/
def redactedValue : Tree → Tree
  | .scalar value => .scalar value
  | .list items => .list items
  | .dict entries => .dict (redactedEntries entries)

/-- What the walk makes of the entries of a dict. -/
def redactedEntries : List (String × Tree) → List (String × Tree)
  | [] => []
  | (key, value) :: entries =>
    (key, if isSensitiveKey lower key then .scalar redactedPlaceholder else redactedValue value) :: redactedEntries entries

end

mutual

/-- A value with another in the place of everything stored under a sensitive key, at any depth. -/
def maskWith (mask : Tree) : Tree → Tree
  | .scalar value => .scalar value
  | .list items => .list (maskItems mask items)
  | .dict entries => .dict (maskEntries mask entries)

/-- The items of a list. -/
def maskItems (mask : Tree) : List Tree → List Tree
  | [] => []
  | item :: items => maskWith mask item :: maskItems mask items

/-- The entries of a dict. -/
def maskEntries (mask : Tree) : List (String × Tree) → List (String × Tree)
  | [] => []
  | (key, value) :: entries =>
    (key, if isSensitiveKey lower key then mask else maskWith mask value) :: maskEntries mask entries

end

/-- The placeholder in the place of every sensitive value, at any depth. -/
def masked (settings : List (String × Tree)) : List (String × Tree) :=
  maskEntries lower (.scalar redactedPlaceholder) settings

/-- Settings that differ only in sensitive values. -/
def SameButSecrets (settings others : List (String × Tree)) : Prop := masked lower settings = masked lower others

mutual

/-- No dict in a value has a sensitive key. -/
def KeyFree : Tree → Prop
  | .scalar _ => True
  | .list items => KeyFreeItems items
  | .dict entries => KeyFreeEntries entries

/-- None in the items of a list has. -/
def KeyFreeItems : List Tree → Prop
  | [] => True
  | item :: items => KeyFree item ∧ KeyFreeItems items

/-- Nor have the entries of a dict. -/
def KeyFreeEntries : List (String × Tree) → Prop
  | [] => True
  | (key, value) :: entries => isSensitiveKey lower key = false ∧ KeyFree value ∧ KeyFreeEntries entries

end

mutual

/-- No dict below a list has a sensitive key. -/
def KeyFreeLists : Tree → Prop
  | .scalar _ => True
  | .list items => KeyFreeItems lower items
  | .dict entries => KeyFreeListsEntries entries

/-- The same of the entries of a dict; what is stored under a sensitive key does not matter. -/
def KeyFreeListsEntries : List (String × Tree) → Prop
  | [] => True
  | (key, value) :: entries => (isSensitiveKey lower key = false → KeyFreeLists value) ∧ KeyFreeListsEntries entries

end

/-- Redaction reaches every depth: every sensitive value is replaced and no other, and settings that differ only in
sensitive values are redacted to the same. -/
structure ReachesEveryDepth (settings : List (String × Tree)) : Prop where
  /-- The placeholder is in the place of every sensitive value, and everything else is unchanged. -/
  redacted : redactedEntries lower settings = masked lower settings
  /-- Sensitive values do not show. -/
  hidden : ∀ others, SameButSecrets lower settings others → redactedEntries lower settings = redactedEntries lower others

end Content

section Masks

variable {lower : String → String} {mask other : Tree}

mutual

/-- Without sensitive keys there is nothing to replace. -/
theorem maskWith_of_keyFree : (value : Tree) → KeyFree lower value → maskWith lower mask value = value
  | .scalar value, _ => by rw [maskWith]
  | .list items, h => by rw [maskWith, maskItems_of_keyFree items (by rwa [KeyFree] at h)]
  | .dict entries, h => by rw [maskWith, maskEntries_of_keyFree entries (by rwa [KeyFree] at h)]

theorem maskItems_of_keyFree : (items : List Tree) → KeyFreeItems lower items → maskItems lower mask items = items
  | [], _ => by rw [maskItems]
  | item :: items, h => by
    rw [KeyFreeItems] at h
    rw [maskItems, maskWith_of_keyFree item h.1, maskItems_of_keyFree items h.2]

theorem maskEntries_of_keyFree : (entries : List (String × Tree)) → KeyFreeEntries lower entries →
    maskEntries lower mask entries = entries
  | [], _ => by rw [maskEntries]
  | (key, value) :: entries, h => by
    rw [KeyFreeEntries] at h
    obtain ⟨hkey, hvalue, hentries⟩ := h
    rw [maskEntries, hkey, maskWith_of_keyFree value hvalue, maskEntries_of_keyFree entries hentries]
    rfl

end

mutual

/-- A value that two masks leave the same has no sensitive key. -/
theorem keyFree_of_maskWith (hne : mask ≠ other) : (value : Tree) →
    maskWith lower mask value = maskWith lower other value → KeyFree lower value
  | .scalar value, _ => by rw [KeyFree]; trivial
  | .list items, h => by
    rw [maskWith, maskWith, Tree.list.injEq] at h
    rw [KeyFree]
    exact keyFreeItems_of_maskItems hne items h
  | .dict entries, h => by
    rw [maskWith, maskWith, Tree.dict.injEq] at h
    rw [KeyFree]
    exact keyFreeEntries_of_maskEntries hne entries h

theorem keyFreeItems_of_maskItems (hne : mask ≠ other) : (items : List Tree) →
    maskItems lower mask items = maskItems lower other items → KeyFreeItems lower items
  | [], _ => by rw [KeyFreeItems]; trivial
  | item :: items, h => by
    rw [maskItems, maskItems, List.cons.injEq] at h
    rw [KeyFreeItems]
    exact ⟨keyFree_of_maskWith hne item h.1, keyFreeItems_of_maskItems hne items h.2⟩

theorem keyFreeEntries_of_maskEntries (hne : mask ≠ other) : (entries : List (String × Tree)) →
    maskEntries lower mask entries = maskEntries lower other entries → KeyFreeEntries lower entries
  | [], _ => by rw [KeyFreeEntries]; trivial
  | (key, value) :: entries, h => by
    rw [maskEntries, maskEntries, List.cons.injEq, Prod.mk.injEq] at h
    obtain ⟨⟨-, hvalue⟩, hentries⟩ := h
    rw [KeyFreeEntries]
    cases hkey : isSensitiveKey lower key with
    | true => exact absurd (by simpa [hkey] using hvalue) hne
    | false =>
      refine ⟨rfl, keyFree_of_maskWith hne value ?_, keyFreeEntries_of_maskEntries hne entries hentries⟩
      simpa [hkey] using hvalue

end

mutual

/-- A second mask replaces the first. -/
theorem maskWith_maskWith : (value : Tree) → maskWith lower mask (maskWith lower other value) = maskWith lower mask value
  | .scalar value => by simp only [maskWith]
  | .list items => by rw [maskWith, maskWith, maskWith, maskItems_maskItems items]
  | .dict entries => by rw [maskWith, maskWith, maskWith, maskEntries_maskEntries entries]

theorem maskItems_maskItems : (items : List Tree) →
    maskItems lower mask (maskItems lower other items) = maskItems lower mask items
  | [] => by simp only [maskItems]
  | item :: items => by rw [maskItems, maskItems, maskItems, maskWith_maskWith item, maskItems_maskItems items]

theorem maskEntries_maskEntries : (entries : List (String × Tree)) →
    maskEntries lower mask (maskEntries lower other entries) = maskEntries lower mask entries
  | [] => by simp only [maskEntries]
  | (key, value) :: entries => by
    rw [maskEntries, maskEntries, maskEntries, maskEntries_maskEntries entries]
    cases isSensitiveKey lower key with
    | true => rfl
    | false => simp only [Bool.false_eq_true, if_false, maskWith_maskWith value]

end

mutual

/-- Whether there are sensitive keys does not depend on what is stored under them. -/
theorem keyFree_maskWith : (value : Tree) → (KeyFree lower (maskWith lower mask value) ↔ KeyFree lower value)
  | .scalar value => by rw [maskWith]
  | .list items => by rw [maskWith, KeyFree, KeyFree, keyFreeItems_maskItems items]
  | .dict entries => by rw [maskWith, KeyFree, KeyFree, keyFreeEntries_maskEntries entries]

theorem keyFreeItems_maskItems : (items : List Tree) →
    (KeyFreeItems lower (maskItems lower mask items) ↔ KeyFreeItems lower items)
  | [] => by rw [maskItems]
  | item :: items => by
    rw [maskItems, KeyFreeItems, KeyFreeItems, keyFree_maskWith item, keyFreeItems_maskItems items]

theorem keyFreeEntries_maskEntries : (entries : List (String × Tree)) →
    (KeyFreeEntries lower (maskEntries lower mask entries) ↔ KeyFreeEntries lower entries)
  | [] => by rw [maskEntries]
  | (key, value) :: entries => by
    rw [maskEntries, KeyFreeEntries, KeyFreeEntries, keyFreeEntries_maskEntries entries]
    cases isSensitiveKey lower key with
    | true => simp
    | false => simp [keyFree_maskWith value]

end

mutual

theorem keyFreeLists_maskWith : (value : Tree) → (KeyFreeLists lower (maskWith lower mask value) ↔ KeyFreeLists lower value)
  | .scalar value => by rw [maskWith]
  | .list items => by rw [maskWith, KeyFreeLists, KeyFreeLists, keyFreeItems_maskItems items]
  | .dict entries => by rw [maskWith, KeyFreeLists, KeyFreeLists, keyFreeListsEntries_maskEntries entries]

theorem keyFreeListsEntries_maskEntries : (entries : List (String × Tree)) →
    (KeyFreeListsEntries lower (maskEntries lower mask entries) ↔ KeyFreeListsEntries lower entries)
  | [] => by rw [maskEntries]
  | (key, value) :: entries => by
    rw [maskEntries, KeyFreeListsEntries, KeyFreeListsEntries, keyFreeListsEntries_maskEntries entries]
    cases isSensitiveKey lower key with
    | true => simp
    | false => simp [keyFreeLists_maskWith value]

end

end Masks

section Condition

variable {lower : String → String} {mask : Tree}

mutual

/-- Where no list has a sensitive key below it, the walk replaces all there is. -/
theorem redactedValue_of_keyFreeLists : (value : Tree) → KeyFreeLists lower value →
    redactedValue lower value = maskWith lower (.scalar redactedPlaceholder) value
  | .scalar value, _ => by rw [redactedValue, maskWith]
  | .list items, h => by
    rw [KeyFreeLists] at h
    rw [redactedValue, maskWith, maskItems_of_keyFree items h]
  | .dict entries, h => by
    rw [KeyFreeLists] at h
    rw [redactedValue, maskWith, redactedEntries_of_keyFreeLists entries h]

theorem redactedEntries_of_keyFreeLists : (entries : List (String × Tree)) → KeyFreeListsEntries lower entries →
    redactedEntries lower entries = maskEntries lower (.scalar redactedPlaceholder) entries
  | [], _ => by rw [redactedEntries, maskEntries]
  | (key, value) :: entries, h => by
    rw [KeyFreeListsEntries] at h
    rw [redactedEntries, maskEntries, redactedEntries_of_keyFreeLists entries h.2]
    cases hkey : isSensitiveKey lower key with
    | true => rfl
    | false => rw [redactedValue_of_keyFreeLists value (h.1 hkey)]

end

mutual

/-- Where the walk replaces another mask everywhere, no list has a sensitive key below it. -/
theorem keyFreeLists_of_redactedValue (hne : mask ≠ .scalar redactedPlaceholder) : (value : Tree) →
    redactedValue lower (maskWith lower mask value) = maskWith lower (.scalar redactedPlaceholder) value →
      KeyFreeLists lower value
  | .scalar value, _ => by rw [KeyFreeLists]; trivial
  | .list items, h => by
    rw [maskWith, redactedValue, maskWith, Tree.list.injEq] at h
    rw [KeyFreeLists]
    exact keyFreeItems_of_maskItems hne items h
  | .dict entries, h => by
    rw [maskWith, redactedValue, maskWith, Tree.dict.injEq] at h
    rw [KeyFreeLists]
    exact keyFreeListsEntries_of_redactedEntries hne entries h

theorem keyFreeListsEntries_of_redactedEntries (hne : mask ≠ .scalar redactedPlaceholder) :
    (entries : List (String × Tree)) →
    redactedEntries lower (maskEntries lower mask entries) = maskEntries lower (.scalar redactedPlaceholder) entries →
      KeyFreeListsEntries lower entries
  | [], _ => by rw [KeyFreeListsEntries]; trivial
  | (key, value) :: entries, h => by
    rw [maskEntries, redactedEntries, maskEntries, List.cons.injEq, Prod.mk.injEq] at h
    obtain ⟨⟨-, hvalue⟩, hentries⟩ := h
    rw [KeyFreeListsEntries]
    refine ⟨?_, keyFreeListsEntries_of_redactedEntries hne entries hentries⟩
    intro hkey
    refine keyFreeLists_of_redactedValue hne value ?_
    simpa [hkey] using hvalue

end

/-- Redaction reaches every depth exactly where no dict below a list has a sensitive key. -/
theorem reachesEveryDepth_iff (settings : List (String × Tree)) :
    ReachesEveryDepth lower settings ↔ KeyFreeListsEntries lower settings := by
  constructor
  · intro h
    have hne : Tree.scalar .none ≠ .scalar redactedPlaceholder := by simp [redactedPlaceholder]
    have hsame : SameButSecrets lower settings (maskEntries lower (.scalar .none) settings) :=
      (maskEntries_maskEntries settings).symm
    have hhidden := (h.hidden _ hsame).symm.trans h.redacted
    exact keyFreeListsEntries_of_redactedEntries hne settings hhidden
  · intro h
    refine ⟨redactedEntries_of_keyFreeLists settings h, ?_⟩
    intro others hsame
    have hothers : KeyFreeListsEntries lower others := by
      have hmasked : KeyFreeListsEntries lower (masked lower settings) := (keyFreeListsEntries_maskEntries settings).mpr h
      rw [show masked lower settings = masked lower others from hsame] at hmasked
      exact (keyFreeListsEntries_maskEntries others).mp hmasked
    rw [redactedEntries_of_keyFreeLists settings h, redactedEntries_of_keyFreeLists others hothers]
    exact hsame

end Condition

section Walk

variable {lower : String → String} {heap : Heap} {n address : ℕ} {key : String} {slot : Slot} {value : Tree}
  {before after : List (String × Slot)} {entries : List (String × Tree)} {footprint part : List ℕ}

/-- What the walk of a value does to the heap: outside the footprint nothing changes, and what is left of the footprint
was in it. -/
structure Walked (heap heap' : Heap) (footprint left : List ℕ) : Prop where
  /-- Everything else is as it was. -/
  kept : ∀ a, a ∉ footprint → heap'[a]? = heap[a]?
  /-- Nothing new is referred to. -/
  left : left.Sublist footprint

theorem Walked.refl (heap : Heap) (footprint : List ℕ) : Walked heap heap footprint footprint :=
  ⟨fun _ _ => rfl, List.Sublist.refl _⟩

/-- A key that is not there is not set. -/
theorem setKey_of_not_mem (h : key ∉ before.map Prod.fst) (other : Slot) : setKey before key other = before := by
  induction before with
  | nil => rfl
  | cons entry before ih =>
    rw [List.map_cons, List.mem_cons, not_or] at h
    rw [setKey, List.map_cons, if_neg (Ne.symm h.1), ← setKey, ih h.2]

/-- Among distinct keys the entry of a key is set where it stands. -/
theorem setKey_middle (h : key ∉ before.map Prod.fst) (h' : key ∉ after.map Prod.fst) (slot other : Slot) :
    setKey (before ++ (key, slot) :: after) key other = before ++ (key, other) :: after := by
  rw [setKey, List.map_append, List.map_cons, if_pos rfl, ← setKey, ← setKey, setKey_of_not_mem h, setKey_of_not_mem h']

/-- And its value is looked up there. -/
theorem lookup_middle (h : key ∉ before.map Prod.fst) :
    (before ++ (key, slot) :: after).lookup key = some slot := by
  induction before with
  | nil => simp
  | cons entry before ih =>
    rw [List.map_cons, List.mem_cons, not_or] at h
    rw [List.cons_append, List.lookup_cons, beq_false_of_ne h.1]
    exact ih h.2

/-- What a key's value becomes. -/
def redactedAt (lower : String → String) (key : String) (value : Tree) : Tree :=
  if isSensitiveKey lower key then .scalar redactedPlaceholder else redactedValue lower value

/-- The loop at one key of a dict: its value becomes what it should, and the others stay. -/
theorem redactKey_holds {recurse : Heap → ℕ → Option Heap}
    (hrecurse : ∀ {heap below entries footprint}, Holds heap n (.ref below) (.dict entries) footprint → footprint.Nodup →
      ∃ heap' left, recurse heap below = some heap' ∧ Holds heap' n (.ref below) (.dict (redactedEntries lower entries)) left ∧
        Walked heap heap' footprint left)
    (hcell : heap[address]? = some (.dict (before ++ (key, slot) :: after)))
    (hbefore : key ∉ before.map Prod.fst) (hafter : key ∉ after.map Prod.fst)
    (hheld : Holds heap n slot value part) (hnodup : (address :: part).Nodup) :
    ∃ heap' slot' left, redactKey lower recurse address heap key = some heap' ∧
      heap'[address]? = some (.dict (before ++ (key, slot') :: after)) ∧
      Holds heap' n slot' (redactedAt lower key value) left ∧ left.Sublist part ∧
      ∀ a, a ∉ address :: part → heap'[a]? = heap[a]? := by
  obtain ⟨haddress, hpart⟩ := List.nodup_cons.mp hnodup
  rw [redactKey, hcell]
  dsimp only
  cases hsensitive : isSensitiveKey lower key with
  | true =>
    have hbound : address < heap.length := (List.getElem?_eq_some_iff.mp hcell).1
    refine ⟨_, .scalar redactedPlaceholder, [], rfl, ?_, ?_, List.nil_sublist part, ?_⟩
    · rw [List.getElem?_set_self hbound, setKey_middle hbefore hafter]
    · rw [redactedAt, hsensitive]
      exact holds_iff.mpr (Or.inl ⟨redactedPlaceholder, rfl, rfl, rfl⟩)
    · intro a ha
      have hne : address ≠ a := by
        rintro rfl
        exact ha List.mem_cons_self
      exact List.getElem?_set_ne hne
  | false =>
    rw [lookup_middle hbefore]
    have hat : redactedAt lower key value = redactedValue lower value := by rw [redactedAt, hsensitive]; rfl
    rw [hat]
    rcases holds_iff.mp hheld with ⟨scalar, rfl, rfl, rfl⟩ | ⟨m, below, cell, rest, rfl, rfl, hbelow, hshape, rfl, hall⟩
    · refine ⟨heap, .scalar scalar, [], rfl, hcell, ?_, List.Sublist.refl _, fun _ _ => rfl⟩
      rw [redactedValue]
      exact hheld
    · simp only [Bool.false_eq_true, if_false, hbelow]
      cases cell with
      | list items =>
        cases value with
        | scalar scalar => exact hshape.elim
        | dict others => exact hshape.elim
        | list others =>
          refine ⟨heap, .ref below, below :: rest, rfl, hcell, ?_, List.Sublist.refl _, fun _ _ => rfl⟩
          rw [redactedValue]
          exact hheld
      | dict slots =>
        cases value with
        | scalar scalar => exact hshape.elim
        | list others => exact hshape.elim
        | dict others =>
          obtain ⟨heap', left, hcall, hdone, hwalked⟩ := hrecurse hheld hpart
          refine ⟨heap', .ref below, left, hcall, ?_, ?_, hwalked.left, ?_⟩
          · rw [hwalked.kept address haddress, hcell]
          · rw [redactedValue]
            exact hdone
          · intro a ha
            exact hwalked.kept a fun hin => ha (List.mem_cons_of_mem _ hin)

/-- The loop over the keys of a dict, some of which are done. -/
theorem redactKeys_holds {recurse : Heap → ℕ → Option Heap}
    (hrecurse : ∀ {heap below entries footprint}, Holds heap n (.ref below) (.dict entries) footprint → footprint.Nodup →
      ∃ heap' left, recurse heap below = some heap' ∧ Holds heap' n (.ref below) (.dict (redactedEntries lower entries)) left ∧
        Walked heap heap' footprint left)
    {done todo : List (String × Slot)} {entriesDone entriesTodo : List (String × Tree)} {partDone partTodo : List ℕ}
    (hcell : heap[address]? = some (.dict (done ++ todo)))
    (hkeys : todo.map Prod.fst = entriesTodo.map Prod.fst) (hdistinct : ((done ++ todo).map Prod.fst).Nodup)
    (hdone : HoldsAll (Holds heap n) (done.map Prod.snd) (entriesDone.map Prod.snd) partDone)
    (htodo : HoldsAll (Holds heap n) (todo.map Prod.snd) (entriesTodo.map Prod.snd) partTodo)
    (hnodup : (address :: (partDone ++ partTodo)).Nodup) :
    ∃ heap' slots left, (todo.map Prod.fst).foldlM (redactKey lower recurse address) heap = some heap' ∧
      heap'[address]? = some (.dict (done ++ slots)) ∧ slots.map Prod.fst = todo.map Prod.fst ∧
      HoldsAll (Holds heap' n) ((done ++ slots).map Prod.snd)
        ((entriesDone ++ redactedEntries lower entriesTodo).map Prod.snd) left ∧
      Walked heap heap' (address :: (partDone ++ partTodo)) (address :: left) := by
  induction todo generalizing heap done entriesDone entriesTodo partDone partTodo with
  | nil =>
    cases entriesTodo with
    | cons entry entriesTodo => simp at hkeys
    | nil =>
      cases htodo
      refine ⟨heap, [], partDone, rfl, hcell, rfl, ?_, ?_⟩
      · simpa [redactedEntries] using hdone
      · rw [List.append_nil]
        exact Walked.refl heap _
  | cons entry todo ih =>
    obtain ⟨key, slot⟩ := entry
    cases entriesTodo with
    | nil => simp at hkeys
    | cons entry entriesTodo =>
      obtain ⟨other, value⟩ := entry
      obtain ⟨rfl, hrest⟩ : key = other ∧ todo.map Prod.fst = entriesTodo.map Prod.fst := by simpa using hkeys
      rw [List.map_cons, List.map_cons] at htodo
      cases htodo with
      | cons head tail =>
        rename_i part rest
        have horder : (done ++ (key, slot) :: todo).map Prod.fst = done.map Prod.fst ++ key :: todo.map Prod.fst := by simp
        rw [horder, List.nodup_middle, List.nodup_cons, List.mem_append, not_or] at hdistinct
        obtain ⟨⟨hbefore, hafter⟩, hothers⟩ := hdistinct
        have hone : (address :: part).Sublist (address :: (partDone ++ (part ++ rest))) :=
          ((List.sublist_append_left part rest).trans (List.sublist_append_right partDone _)).cons_cons address
        obtain ⟨heap₁, slot', left, hstep, hcell₁, hheld, hleft, hkept⟩ :=
          redactKey_holds hrecurse hcell hbefore hafter head (hnodup.sublist hone)
        obtain ⟨haddress, hparts⟩ := List.nodup_cons.mp hnodup
        obtain ⟨-, hparts', hapart⟩ := List.nodup_append.mp hparts
        obtain ⟨-, -, hapart'⟩ := List.nodup_append.mp hparts'
        have hdone₁ : HoldsAll (Holds heap₁ n) (done.map Prod.snd) (entriesDone.map Prod.snd) partDone := by
          refine hdone.mono fun _ _ _ hin hheld => hheld.frame fun a ha => hkept a ?_
          rw [List.mem_cons, not_or]
          refine ⟨?_, fun h => hapart a (hin a ha) a (List.mem_append_left _ h) rfl⟩
          rintro rfl
          exact haddress (List.mem_append_left _ (hin _ ha))
        have htodo₁ : HoldsAll (Holds heap₁ n) (todo.map Prod.snd) (entriesTodo.map Prod.snd) rest := by
          refine tail.mono fun _ _ _ hin hheld => hheld.frame fun a ha => hkept a ?_
          rw [List.mem_cons, not_or]
          refine ⟨?_, fun h => hapart' a h a (hin a ha) rfl⟩
          rintro rfl
          exact haddress (List.mem_append_right _ (List.mem_append_right _ (hin _ ha)))
        have hdone' : HoldsAll (Holds heap₁ n) ((done ++ [(key, slot')]).map Prod.snd)
            ((entriesDone ++ [(key, redactedAt lower key value)]).map Prod.snd) (partDone ++ (left ++ [])) := by
          rw [List.map_append, List.map_append]
          exact hdone₁.append (.cons hheld .nil)
        have hsub : (address :: ((partDone ++ (left ++ [])) ++ rest)).Sublist (address :: (partDone ++ (part ++ rest))) := by
          rw [List.append_nil, List.append_assoc]
          exact ((List.Sublist.refl partDone).append (hleft.append (List.Sublist.refl rest))).cons_cons address
        have hcell' : heap₁[address]? = some (.dict ((done ++ [(key, slot')]) ++ todo)) := by
          rw [hcell₁, List.append_assoc]
          rfl
        have hdistinct' : (((done ++ [(key, slot')]) ++ todo).map Prod.fst).Nodup := by
          have horder' : ((done ++ [(key, slot')]) ++ todo).map Prod.fst = done.map Prod.fst ++ key :: todo.map Prod.fst := by
            simp
          rw [horder', List.nodup_middle, List.nodup_cons, List.mem_append, not_or]
          exact ⟨⟨hbefore, hafter⟩, hothers⟩
        obtain ⟨heap', slots, leftover, hloop, hcell'', hkeys', hall, hwalked⟩ := ih hcell' hrest hdistinct' hdone' htodo₁
          (hnodup.sublist hsub)
        refine ⟨heap', (key, slot') :: slots, leftover, ?_, ?_, ?_, ?_, ?_, hwalked.left.trans hsub⟩
        · rw [List.map_cons, List.foldlM_cons, hstep]
          exact hloop
        · rw [hcell'', List.append_assoc]
          rfl
        · rw [List.map_cons, List.map_cons, hkeys']
        · rw [redactedEntries]
          simpa [redactedAt] using hall
        · intro a ha
          rw [hwalked.kept a fun h => ha (hsub.subset h), hkept a fun h => ha (hone.subset h)]

/-- The keys stay. -/
theorem redactedEntries_keys (entries : List (String × Tree)) :
    (redactedEntries lower entries).map Prod.fst = entries.map Prod.fst := by
  induction entries with
  | nil => rw [redactedEntries]
  | cons entry entries ih =>
    obtain ⟨key, value⟩ := entry
    rw [redactedEntries, List.map_cons, List.map_cons, ih]

/-- The walk of a dict: it then holds what it should, on what is left of its own footprint. -/
theorem redactDictInplace_holds {fuel : ℕ} (h : Holds heap n (.ref address) (.dict entries) footprint) (hfuel : n ≤ fuel)
    (hnodup : footprint.Nodup) : ∃ heap' left, redactDictInplace lower fuel heap address = some heap' ∧
      Holds heap' n (.ref address) (.dict (redactedEntries lower entries)) left ∧ Walked heap heap' footprint left := by
  induction n generalizing heap address entries footprint fuel with
  | zero =>
    rcases holds_iff.mp h with ⟨_, hslot, -⟩ | ⟨m, _, _, _, hm, -⟩
    · cases hslot
    · omega
  | succ n ih =>
    rcases holds_iff.mp h with ⟨_, hslot, -⟩ | ⟨m, _, cell, rest, hm, hslot, hcell, hshape, rfl, hall⟩
    · cases hslot
    · cases hslot
      obtain rfl : n = m := by omega
      obtain ⟨fuel, rfl⟩ : ∃ fewer, fuel = fewer + 1 := ⟨fuel - 1, by omega⟩
      have hle : n ≤ fuel := by omega
      cases cell with
      | list items => exact hshape.elim
      | dict slots =>
        obtain ⟨hkeys, hdistinct⟩ := hshape
        have hcell' : heap[address]? = some (.dict ([] ++ slots)) := hcell
        have hnone : HoldsAll (Holds heap n) (([] : List (String × Slot)).map Prod.snd)
            (([] : List (String × Tree)).map Prod.snd) [] := .nil
        obtain ⟨heap', slots', left, hloop, hread, hkeys', hall', hwalked⟩ :=
          redactKeys_holds (fun hchild hpart => ih hchild hle hpart) hcell' hkeys hdistinct hnone hall hnodup
        refine ⟨heap', address :: left, ?_, ?_, hwalked⟩
        · rw [redactDictInplace, hcell]
          exact hloop
        · have hshape : Shape (.dict slots') (.dict (redactedEntries lower entries)) := by
            refine ⟨?_, ?_⟩
            · rw [redactedEntries_keys, hkeys', hkeys]
            · rw [hkeys']
              exact hdistinct
          exact holds_iff.mpr (Or.inr ⟨n, address, _, left, rfl, rfl, hread, hshape, rfl, hall'⟩)

/-- `redact_settings` returns settings of its own, with what the walk makes of them, and leaves the input as it was. -/
theorem redactSettings_holds {fuel : ℕ} (h : Holds heap n (.ref address) (.dict entries) footprint) (hfuel : n ≤ fuel)
    (hnodup : footprint.Nodup) : ∃ copied heap' left, redactSettings lower fuel heap address = some (.ref copied, heap') ∧
      Holds heap' n (.ref copied) (.dict (redactedEntries lower entries)) left ∧ (∀ a ∈ left, heap.length ≤ a) ∧
        ∀ a < heap.length, heap'[a]? = heap[a]? := by
  have hmiss : ∀ a ∈ footprint, ([] : Memo).lookup a = none := fun _ _ => rfl
  obtain ⟨slot, heap₁, memo, copied, hcopy, hheld, hfresh⟩ := deepcopy_holds h hfuel hnodup hmiss
  rcases holds_iff.mp hheld with ⟨_, _, hdict, -⟩ | ⟨m, root, cell, rest, rfl, rfl, hcell, -, rfl, -⟩
  · cases hdict
  · obtain ⟨heap', left, hwalk, hdone, hwalked⟩ : ∃ heap' left, redactDictInplace lower fuel heap₁ root = some heap' ∧
        Holds heap' (m + 1) (.ref root) (.dict (redactedEntries lower entries)) left ∧
          Walked heap₁ heap' (root :: rest) left := redactDictInplace_holds hheld hfuel hfresh.distinct
    refine ⟨root, heap', left, ?_, hdone, ?_, ?_⟩
    · rw [redactSettings, hcopy]
      dsimp only
      rw [hwalk]
      rfl
    · intro a ha
      exact (hfresh.new a (hwalked.left.subset ha)).1
    · intro a ha
      have hnot : a ∉ root :: rest := by
        intro hin
        have hge := (hfresh.new a hin).1
        omega
      rw [hwalked.kept a hnot, hfresh.kept a ha]

end Walk

section Depth

/-- `redact_settings` leaves its input as it was and returns a copy with what the walk makes of it; that reaches every
depth exactly where no dict below a list has a sensitive key. -/
theorem redaction_reaches_iff (lower : String → String) {heap : Heap} {n fuel address : ℕ} {settings : List (String × Tree)}
    {footprint : List ℕ} (h : Holds heap n (.ref address) (.dict settings) footprint) (hfuel : n ≤ fuel)
    (hnodup : footprint.Nodup) :
    (∃ copied heap' left, redactSettings lower fuel heap address = some (.ref copied, heap') ∧
      Holds heap' n (.ref copied) (.dict (redactedEntries lower settings)) left ∧ (∀ a ∈ left, heap.length ≤ a) ∧
        ∀ a < heap.length, heap'[a]? = heap[a]?) ∧
      (ReachesEveryDepth lower settings ↔ KeyFreeListsEntries lower settings) := by
  exact ⟨redactSettings_holds h hfuel hnodup, reachesEveryDepth_iff settings⟩

/-- `str.lower`, of ASCII text. -/
def asciiLower (text : String) : String := String.ofList (text.toList.map Char.toLower)

/-- A list of endpoints, each with its own key. -/
def endpoints : List (String × Tree) :=
  [("endpoints", .list [.dict [("api_key", .scalar (.str "k"))]])]

/-- They are laid out. -/
def endpointsHeap : Heap :=
  [.dict [("endpoints", .ref 1)], .list [.ref 2], .dict [("api_key", .scalar (.str "k"))]]

theorem endpoints_held : Holds endpointsHeap 3 (.ref 0) (.dict endpoints) [0, 1, 2] := by
  have hkey : Holds endpointsHeap 0 (.scalar (.str "k")) (.scalar (.str "k")) [] := ⟨rfl, rfl⟩
  have hentry : Holds endpointsHeap 1 (.ref 2) (.dict [("api_key", .scalar (.str "k"))]) [2] :=
    ⟨_, [], rfl, ⟨rfl, by decide⟩, rfl, .cons hkey .nil⟩
  have hlist : Holds endpointsHeap 2 (.ref 1) (.list [.dict [("api_key", .scalar (.str "k"))]]) [1, 2] :=
    ⟨_, [2], rfl, trivial, rfl, .cons hentry .nil⟩
  exact ⟨_, [1, 2], rfl, ⟨rfl, by decide⟩, rfl, .cons hlist .nil⟩

theorem redaction_reaches_iff_endpoints :
    (∃ copied heap' left, redactSettings asciiLower 3 endpointsHeap 0 = some (.ref copied, heap') ∧
      Holds heap' 3 (.ref copied) (.dict (redactedEntries asciiLower endpoints)) left ∧ (∀ a ∈ left, 3 ≤ a) ∧
        ∀ a < 3, heap'[a]? = endpointsHeap[a]?) ∧
      (ReachesEveryDepth asciiLower endpoints ↔ KeyFreeListsEntries asciiLower endpoints) :=
  redaction_reaches_iff asciiLower endpoints_held (by decide) (by decide)

/-- The key of an endpoint is in the copy as it was. -/
theorem endpoint_key_kept : redactSettings asciiLower 3 endpointsHeap 0 =
      some (.ref 3, endpointsHeap ++ [.dict [("endpoints", .ref 4)], .list [.ref 5], .dict [("api_key", .scalar (.str "k"))]]) ∧
    isSensitiveKey asciiLower "api_key" = true ∧ ¬ ReachesEveryDepth asciiLower endpoints := by
  have hsensitive : isSensitiveKey asciiLower "api_key" = true := by decide
  refine ⟨by decide, hsensitive, ?_⟩
  rw [reachesEveryDepth_iff]
  intro h
  have hother : isSensitiveKey asciiLower "endpoints" = false := by decide
  have hlist := h.1 hother
  simp [KeyFreeLists, KeyFreeItems, KeyFree, KeyFreeEntries, hsensitive] at hlist

end Depth

end RagSystem.ConfigRedaction
