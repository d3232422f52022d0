import Mathlib.Data.List.Flatten
import Mathlib.Tactic.Common

/-!
# Reading a stream that arrives in pieces

A reader takes one item off the front of a buffer when a whole one is there.
Draining takes every whole item and keeps the rest. What is drained does not
depend on how the stream was cut: taking the pieces one at a time gives what
draining their concatenation gives.
-/

namespace RagSystem.PieceReading

set_option autoImplicit false

/-- A reader of items: what it takes off the front, and what is left. -/
structure ItemReader (α β : Type) where
  /-- The first item and the rest, `none` while no whole item is there. -/
  next : List α → Option (β × List α)
  /-- An item is never empty. -/
  shrinks : ∀ buffer item rest, next buffer = some (item, rest) → rest.length < buffer.length
  /-- A whole item stays the first one when more arrives. -/
  stable : ∀ buffer item rest more, next buffer = some (item, rest) →
    next (buffer ++ more) = some (item, rest ++ more)

variable {α β : Type} (reader : ItemReader α β)

namespace ItemReader

/-- Take whole items, at most `fuel` of them. -/
def drainUpTo : ℕ → List α → List β × List α
  | 0, buffer => ([], buffer)
  | fuel + 1, buffer =>
    match reader.next buffer with
    | none => ([], buffer)
    | some (item, rest) =>
      let later := drainUpTo fuel rest
      (item :: later.1, later.2)

/-- Take every whole item. -/
def drain (buffer : List α) : List β × List α := reader.drainUpTo buffer.length buffer

/-- Take every whole item as each piece is added: the items of each piece. -/
def readPieces : List α → List (List α) → List (List β) × List α
  | buffer, [] => ([], buffer)
  | buffer, piece :: pieces =>
    let drained := reader.drain (buffer ++ piece)
    let later := readPieces drained.2 pieces
    (drained.1 :: later.1, later.2)

/-- An empty buffer has no item. -/
theorem next_nil : reader.next [] = none := by
  cases hn : reader.next [] with
  | none => rfl
  | some found =>
    have hs := reader.shrinks [] found.1 found.2 hn
    simp only [List.length_nil, Nat.not_lt_zero] at hs

/-- Fuel past the buffer's length changes nothing. -/
theorem drainUpTo_enough (fuel more : ℕ) (buffer : List α) (hf : buffer.length ≤ fuel) (hm : fuel ≤ more) :
    reader.drainUpTo more buffer = reader.drainUpTo fuel buffer := by
  induction fuel generalizing more buffer with
  | zero =>
    have hb : buffer = [] := List.eq_nil_of_length_eq_zero (by omega)
    cases more with
    | zero => rfl
    | succ more =>
      cases hn : reader.next buffer with
      | none => simp only [drainUpTo, hn]
      | some found =>
        have hs := reader.shrinks buffer found.1 found.2 hn
        simp only [hb, List.length_nil] at hs
        omega
  | succ fuel ih =>
    cases more with
    | zero => omega
    | succ more =>
      cases hn : reader.next buffer with
      | none => simp only [drainUpTo, hn]
      | some found =>
        have hs := reader.shrinks buffer found.1 found.2 hn
        have hi := ih more found.2 (by omega) (by omega)
        simp only [drainUpTo, hn, hi]

/-- A buffer without a whole item stays as it is. -/
theorem drain_none {buffer : List α} (hn : reader.next buffer = none) : reader.drain buffer = ([], buffer) := by
  cases hl : buffer.length with
  | zero => simp only [drain, hl, drainUpTo]
  | succ fuel => simp only [drain, hl, drainUpTo, hn]

/-- The first whole item is the first one drained. -/
theorem drain_some {buffer rest : List α} {item : β} (hn : reader.next buffer = some (item, rest)) :
    reader.drain buffer = (item :: (reader.drain rest).1, (reader.drain rest).2) := by
  have hs := reader.shrinks buffer item rest hn
  cases hl : buffer.length with
  | zero => omega
  | succ fuel =>
    have he := reader.drainUpTo_enough rest.length fuel rest (Nat.le_refl _) (by omega)
    simp only [drain, hl, drainUpTo, hn, he]

/-- What is left has no whole item. -/
theorem drain_rest (buffer : List α) : reader.next (reader.drain buffer).2 = none := by
  induction hl : buffer.length using Nat.strongRecOn generalizing buffer with
  | ind length ih =>
    cases hn : reader.next buffer with
    | none => rw [reader.drain_none hn, hn]
    | some found =>
      have hs := reader.shrinks buffer found.1 found.2 hn
      rw [reader.drain_some hn]
      exact ih found.2.length (by omega) found.2 rfl

/-- Draining the front first changes nothing. -/
theorem drain_append (front back : List α) :
    reader.drain (front ++ back) =
      ((reader.drain front).1 ++ (reader.drain ((reader.drain front).2 ++ back)).1,
        (reader.drain ((reader.drain front).2 ++ back)).2) := by
  induction hl : front.length using Nat.strongRecOn generalizing front with
  | ind length ih =>
    cases hn : reader.next front with
    | none => simp only [reader.drain_none hn, List.nil_append]
    | some found =>
      have hs := reader.shrinks front found.1 found.2 hn
      have hm := reader.stable front found.1 found.2 back hn
      have hi := ih found.2.length (by omega) found.2 rfl
      rw [reader.drain_some hn, reader.drain_some hm, hi]
      simp only [List.cons_append]

/-- However the stream was cut, its items are those of the whole. -/
theorem readPieces_flatten {buffer : List α} (hb : reader.next buffer = none) (pieces : List (List α)) :
    ((reader.readPieces buffer pieces).1.flatten, (reader.readPieces buffer pieces).2) =
      reader.drain (buffer ++ pieces.flatten) := by
  induction pieces generalizing buffer with
  | nil => simp only [readPieces, List.flatten_nil, List.append_nil, reader.drain_none hb]
  | cons piece pieces ih =>
    have hi := ih (reader.drain_rest (buffer ++ piece))
    have hd := reader.drain_append (buffer ++ piece) pieces.flatten
    rw [← hi] at hd
    simp only [readPieces, List.flatten_cons]
    rw [← List.append_assoc, hd]

/-- Written items are drained, when the reader reads each back, and nothing is left. -/
theorem drain_written {write : β → List α} (hw : ∀ item rest, reader.next (write item ++ rest) = some (item, rest))
    (items : List β) : reader.drain (items.flatMap write) = (items, []) := by
  induction items with
  | nil => simp only [List.flatMap_nil, reader.drain_none reader.next_nil]
  | cons item items ih =>
    have hn := hw item (items.flatMap write)
    rw [List.flatMap_cons, reader.drain_some hn, ih]

/-- However written items were cut, reading the pieces gives the items. -/
theorem readPieces_written {write : β → List α}
    (hw : ∀ item rest, reader.next (write item ++ rest) = some (item, rest)) {items : List β} {pieces : List (List α)}
    (hp : pieces.flatten = items.flatMap write) :
    (reader.readPieces [] pieces).1.flatten = items ∧ (reader.readPieces [] pieces).2 = [] := by
  have hr := reader.readPieces_flatten reader.next_nil pieces
  rw [List.nil_append, hp, reader.drain_written hw] at hr
  have hi := Prod.mk.inj hr
  exact ⟨hi.1, hi.2⟩

end ItemReader

/-! ## UTF-8 -/

/-- The first character of UTF-8 bytes, once all of its bytes are there. -/
def nextChar (bytes : List UInt8) : Option (Char × List UInt8) :=
  (bytes.toByteArray.utf8DecodeChar? 0).map fun c => (c, bytes.drop c.utf8Size)

theorem nextChar_some {bytes rest : List UInt8} {c : Char} (hn : nextChar bytes = some (c, rest)) :
    bytes.toByteArray.utf8DecodeChar? 0 = some c ∧ rest = bytes.drop c.utf8Size ∧ c.utf8Size ≤ bytes.length := by
  obtain ⟨found, hf, he⟩ := Option.map_eq_some_iff.mp hn
  have hpair := Prod.mk.inj he
  rw [hpair.1] at hf hpair
  have hsize := ByteArray.le_size_of_utf8DecodeChar?_eq_some hf
  rw [List.size_toByteArray, Nat.zero_add] at hsize
  exact ⟨hf, hpair.2.symm, hsize⟩

/-- A UTF-8 decoder: what is left of a cut character waits for its other bytes. -/
def charReader : ItemReader UInt8 Char where
  next := nextChar
  shrinks := by
    intro bytes c rest hn
    have hc := nextChar_some hn
    have hpos := c.utf8Size_pos
    rw [hc.2.1, List.length_drop]
    omega
  stable := by
    intro bytes c rest more hn
    have hc := nextChar_some hn
    have hm := ByteArray.utf8DecodeChar?_append_eq_some hc.1 more.toByteArray
    rw [← List.toByteArray_append] at hm
    simp only [nextChar, hm, Option.map_some, List.drop_append_of_le_length hc.2.2, hc.2.1]

/-- An encoded character is decoded. -/
theorem nextChar_encoded (c : Char) (rest : List UInt8) :
    charReader.next (String.utf8EncodeChar c ++ rest) = some (c, rest) := by
  have hd : (String.utf8EncodeChar c ++ rest).toByteArray.utf8DecodeChar? 0 = some c := by
    rw [List.toByteArray_append]
    exact ByteArray.utf8DecodeChar?_utf8EncodeChar_append
  have hdrop : (String.utf8EncodeChar c ++ rest).drop c.utf8Size = rest := by
    rw [← String.length_utf8EncodeChar, List.drop_left]
  simp only [charReader, nextChar, hd, Option.map_some, hdrop]

end RagSystem.PieceReading
