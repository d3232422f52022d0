import Mathlib.Data.Nat.Notation
import Mathlib.Tactic.Common
import Mathlib.Tactic.IntervalCases

/-!
# Base64, written strictly and read loosely

The writer uses the letters that are safe in a URL. The reader is the lenient
one of Python: both alphabets are its letters, what is no letter it passes over,
and padding counts only where it completes a quad; then the rest of the text is
not looked at. The bits of the last letter that belong to no byte it drops.
-/

namespace RagSystem.Base64

set_option autoImplicit false

/-- The letter of six bits. -/
def letter (n : ℕ) : Char :=
  if n < 26 then Char.ofNat (n + 65)
  else if n < 52 then Char.ofNat (n + 71)
  else if n < 62 then Char.ofNat (n - 4)
  else if n = 62 then '-'
  else '_'

/-- The six bits of a letter of either alphabet. -/
def bits (c : Char) : Option ℕ :=
  if 'A' ≤ c ∧ c ≤ 'Z' then some (c.toNat - 65)
  else if 'a' ≤ c ∧ c ≤ 'z' then some (c.toNat - 71)
  else if '0' ≤ c ∧ c ≤ '9' then some (c.toNat + 4)
  else if c = '+' ∨ c = '-' then some 62
  else if c = '/' ∨ c = '_' then some 63
  else none

/-- The letters of some bytes, without padding. -/
def letters : List UInt8 → List Char
  | [] => []
  | [a] => [letter (a.toNat / 4), letter (a.toNat % 4 * 16)]
  | [a, b] => [letter (a.toNat / 4), letter (a.toNat % 4 * 16 + b.toNat / 16), letter (b.toNat % 16 * 4)]
  | a :: b :: c :: raw =>
    letter (a.toNat / 4) :: letter (a.toNat % 4 * 16 + b.toNat / 16) ::
      letter (b.toNat % 16 * 4 + c.toNat / 64) :: letter (c.toNat % 64) :: letters raw

/-- `"=" * (-len(text) % 4)`. -/
def padding (text : List Char) : List Char := List.replicate ((4 - text.length % 4) % 4) '='

/-- `base64.urlsafe_b64encode`. -/
def urlsafeEncode (raw : List UInt8) : List Char := letters raw ++ padding (letters raw)

/-- The bits of a quad that belong to no byte yet: none, six, four or two. -/
inductive Held where
  /-- Between quads. -/
  | none
  /-- After the first letter. -/
  | six (high : ℕ)
  /-- After the second. -/
  | four (high : ℕ)
  /-- After the third. -/
  | two (high : ℕ)

/-- How many letters of the quad were read. -/
def Held.position : Held → ℕ
  | .none => 0
  | .six _ => 1
  | .four _ => 2
  | .two _ => 3

/-- One more letter: the byte it completes, and what is held then. -/
def Held.take : Held → ℕ → List UInt8 × Held
  | .none, n => ([], .six n)
  | .six high, n => ([UInt8.ofNat (high * 4 + n / 16)], .four (n % 16))
  | .four high, n => ([UInt8.ofNat (high * 16 + n / 4)], .two (n % 4))
  | .two high, n => ([UInt8.ofNat (high * 64 + n)], .none)

/-- The bytes of a text, after a quad's first letters and so many pads. -/
def readFrom (held : Held) (pads : ℕ) : List Char → Option (List UInt8)
  | [] => if held.position = 0 then some [] else none
  | c :: text =>
    if c = '=' then
      if 2 ≤ held.position then
        -- the quad is complete with its pads, and what follows is not read
        if 4 ≤ held.position + (pads + 1) then some [] else readFrom held (pads + 1) text
      else readFrom held pads text
    else
      match bits c with
      | none => readFrom held pads text
      | some n => (readFrom (held.take n).2 0 text).map ((held.take n).1 ++ ·)

/-- `base64.urlsafe_b64decode` of a text: `none` where it raises. -/
def urlsafeDecode (text : List Char) : Option (List UInt8) :=
  if text.all fun c => c.toNat < 128 then readFrom .none 0 text else none

/-! ## Letters -/

theorem bits_letter {n : ℕ} (hn : n < 64) : bits (letter n) = some n := by
  interval_cases n <;> rfl

theorem letter_ne_pad {n : ℕ} (hn : n < 64) : letter n ≠ '=' := by
  interval_cases n <;> decide

theorem letter_ne_dot {n : ℕ} (hn : n < 64) : (letter n == '.') = false := by
  interval_cases n <;> decide

theorem letter_ascii {n : ℕ} (hn : n < 64) : (letter n).toNat < 128 := by
  interval_cases n <;> decide

/-- Letters of the writer. -/
def IsLetter (c : Char) : Prop := ∃ n < 64, c = letter n

theorem isLetter_letter {n : ℕ} (hn : n < 64) : IsLetter (letter n) := ⟨n, hn, rfl⟩

/-- The parts of bytes that make a letter fit into six bits. -/
theorem six_bits (a b : UInt8) : a.toNat / 4 < 64 ∧ a.toNat % 4 * 16 + b.toNat / 16 < 64 ∧
    a.toNat % 16 * 4 + b.toNat / 64 < 64 ∧ a.toNat % 64 < 64 ∧ a.toNat % 4 * 16 < 64 ∧ a.toNat % 16 * 4 < 64 := by
  have ha := a.toNat_lt
  have hb := b.toNat_lt
  omega

theorem forall_mem_letters (raw : List UInt8) : ∀ c ∈ letters raw, IsLetter c := by
  induction raw using letters.induct with
  | case1 => simp [letters]
  | case2 a =>
    have ha := six_bits a a
    simp [letters, isLetter_letter ha.1, isLetter_letter ha.2.2.2.2.1]
  | case3 a b =>
    have ha := six_bits a b
    have hb := six_bits b b
    simp [letters, isLetter_letter ha.1, isLetter_letter ha.2.1, isLetter_letter hb.2.2.2.2.2]
  | case4 a b c raw ih =>
    have ha := six_bits a b
    have hb := six_bits b c
    have hc := six_bits c c
    simp only [letters, List.forall_mem_cons]
    exact ⟨isLetter_letter ha.1, isLetter_letter ha.2.1, isLetter_letter hb.2.2.1, isLetter_letter hc.2.2.2.1, ih⟩

/-! ## What is written is read -/

/-- A letter of the writer adds its bits. -/
theorem readFrom_letter (held : Held) (pads : ℕ) {n : ℕ} (hn : n < 64) (text : List Char) :
    readFrom held pads (letter n :: text) = (readFrom (held.take n).2 0 text).map ((held.take n).1 ++ ·) := by
  rw [readFrom, if_neg (letter_ne_pad hn), bits_letter hn]

/-- The first letters of a quad give the first byte. -/
theorem first_byte (a b : UInt8) : UInt8.ofNat (a.toNat / 4 * 4 + (a.toNat % 4 * 16 + b.toNat / 16) / 16) = a := by
  have hb := b.toNat_lt
  have hparts : a.toNat / 4 * 4 + (a.toNat % 4 * 16 + b.toNat / 16) / 16 = a.toNat := by omega
  rw [hparts, UInt8.ofNat_toNat]

/-- The second byte. -/
theorem second_byte (a b c : UInt8) :
    UInt8.ofNat ((a.toNat % 4 * 16 + b.toNat / 16) % 16 * 16 + (b.toNat % 16 * 4 + c.toNat / 64) / 4) = b := by
  have hb := b.toNat_lt
  have hc := c.toNat_lt
  have hhigh : (a.toNat % 4 * 16 + b.toNat / 16) % 16 = b.toNat / 16 := by omega
  have hlow : (b.toNat % 16 * 4 + c.toNat / 64) / 4 = b.toNat % 16 := by omega
  have hparts : b.toNat / 16 * 16 + b.toNat % 16 = b.toNat := by omega
  rw [hhigh, hlow, hparts, UInt8.ofNat_toNat]

/-- The third byte. -/
theorem third_byte (b c : UInt8) : UInt8.ofNat ((b.toNat % 16 * 4 + c.toNat / 64) % 4 * 64 + c.toNat % 64) = c := by
  have hc := c.toNat_lt
  have hparts : (b.toNat % 16 * 4 + c.toNat / 64) % 4 * 64 + c.toNat % 64 = c.toNat := by omega
  rw [hparts, UInt8.ofNat_toNat]

/-- The letters of bytes, completed by their padding, are read as the bytes. -/
theorem readFrom_letters (raw : List UInt8) (pads : ℕ) :
    readFrom .none pads (letters raw ++ padding (letters raw)) = some raw := by
  induction raw using letters.induct generalizing pads with
  | case1 => rfl
  | case2 a =>
    have ha := six_bits a a
    have hbyte : UInt8.ofNat (a.toNat / 4 * 4 + a.toNat % 4 * 16 / 16) = a := by simpa using first_byte a 0
    simp only [letters, List.cons_append, List.nil_append, readFrom_letter _ _ ha.1, readFrom_letter _ _ ha.2.2.2.2.1,
      Held.take, hbyte]
    rfl
  | case3 a b =>
    have ha := six_bits a b
    have hb := six_bits b b
    have hsecond : UInt8.ofNat ((a.toNat % 4 * 16 + b.toNat / 16) % 16 * 16 + b.toNat % 16 * 4 / 4) = b := by
      simpa using second_byte a b 0
    simp only [letters, List.cons_append, List.nil_append, readFrom_letter _ _ ha.1, readFrom_letter _ _ ha.2.1,
      readFrom_letter _ _ hb.2.2.2.2.2, Held.take, first_byte, hsecond]
    rfl
  | case4 a b c raw ih =>
    have ha := six_bits a b
    have hb := six_bits b c
    have hc := six_bits c c
    have hpadding : padding (letters (a :: b :: c :: raw)) = padding (letters raw) := by
      simp only [padding, letters, List.length_cons]
      congr 2
      omega
    rw [hpadding]
    simp only [letters, List.cons_append, readFrom_letter _ _ ha.1, readFrom_letter _ _ ha.2.1,
      readFrom_letter _ _ hb.2.2.1, readFrom_letter _ _ hc.2.2.2.1, Held.take, first_byte, second_byte, third_byte, ih]
    rfl

theorem padding_ascii (text : List Char) : ∀ c ∈ padding text, c.toNat < 128 := by
  intro c hc
  rw [List.eq_of_mem_replicate hc]
  decide

/-- What is written is read back. -/
theorem urlsafeDecode_encode (raw : List UInt8) : urlsafeDecode (urlsafeEncode raw) = some raw := by
  have hascii : ∀ c ∈ urlsafeEncode raw, c.toNat < 128 := by
    intro c hc
    rcases List.mem_append.mp hc with hletter | hpad
    · obtain ⟨n, hn, rfl⟩ := forall_mem_letters raw c hletter
      exact letter_ascii hn
    · exact padding_ascii _ c hpad
  rw [urlsafeDecode, if_pos (by simpa using hascii)]
  exact readFrom_letters raw 0

/-! ## Canonical texts -/

/-- The bits of the last letter that belong to no byte. -/
def spareBits : List Char → ℕ
  | _ :: _ :: _ :: _ :: text => spareBits text
  | [_, _, c] => (bits c).getD 0 % 4
  | [_, c] => (bits c).getD 0 % 16
  | _ => 0

/-- Only letters of the writer, as many as bytes have, and no spare bit set. -/
structure Canonical (text : List Char) : Prop where
  /-- No foreign character, no padding, no other alphabet. -/
  isLetter : ∀ c ∈ text, IsLetter c
  /-- One letter is no byte. -/
  length_mod : text.length % 4 ≠ 1
  /-- Nothing is hidden in the last letter. -/
  spare : spareBits text = 0

/-- The letters of bytes are canonical. -/
theorem canonical_letters (raw : List UInt8) : Canonical (letters raw) := by
  refine ⟨forall_mem_letters raw, ?_, ?_⟩
  · induction raw using letters.induct with
    | case1 => simp [letters]
    | case2 a => simp [letters]
    | case3 a b => simp [letters]
    | case4 a b c raw ih =>
      simp only [letters, List.length_cons]
      omega
  · induction raw using letters.induct with
    | case1 => rfl
    | case2 a =>
      have ha := six_bits a a
      simp [letters, spareBits, bits_letter ha.2.2.2.2.1]
    | case3 a b =>
      have hb := six_bits b b
      simp [letters, spareBits, bits_letter hb.2.2.2.2.2]
    | case4 a b c raw ih => simpa only [letters, spareBits] using ih

theorem toNat_ofNat {n : ℕ} (hn : n < 256) : (UInt8.ofNat n).toNat = n := by
  simp [Nat.mod_eq_of_lt hn]

/-- A canonical text is the letters of some bytes. -/
theorem exists_letters {text : List Char} (ht : Canonical text) : ∃ raw, text = letters raw := by
  obtain ⟨hletter, hlength, hspare⟩ := ht
  induction text using spareBits.induct with
  | case1 c₀ c₁ c₂ c₃ text ih =>
    simp only [List.forall_mem_cons] at hletter
    obtain ⟨⟨n₀, h₀, rfl⟩, ⟨n₁, h₁, rfl⟩, ⟨n₂, h₂, rfl⟩, ⟨n₃, h₃, rfl⟩, htext⟩ := hletter
    obtain ⟨raw, rfl⟩ := ih htext (by simp only [List.length_cons] at hlength; omega) hspare
    refine ⟨UInt8.ofNat (n₀ * 4 + n₁ / 16) :: UInt8.ofNat (n₁ % 16 * 16 + n₂ / 4) :: UInt8.ofNat (n₂ % 4 * 64 + n₃) :: raw,
      ?_⟩
    have hfirst : (n₀ * 4 + n₁ / 16) / 4 = n₀ := by omega
    have hsecond : (n₀ * 4 + n₁ / 16) % 4 * 16 + (n₁ % 16 * 16 + n₂ / 4) / 16 = n₁ := by omega
    have hthird : (n₁ % 16 * 16 + n₂ / 4) % 16 * 4 + (n₂ % 4 * 64 + n₃) / 64 = n₂ := by omega
    have hfourth : (n₂ % 4 * 64 + n₃) % 64 = n₃ := by omega
    simp only [letters, toNat_ofNat (show n₀ * 4 + n₁ / 16 < 256 by omega),
      toNat_ofNat (show n₁ % 16 * 16 + n₂ / 4 < 256 by omega), toNat_ofNat (show n₂ % 4 * 64 + n₃ < 256 by omega),
      hfirst, hsecond, hthird, hfourth]
  | case2 c₀ c₁ c₂ =>
    simp only [List.forall_mem_cons] at hletter
    obtain ⟨⟨n₀, h₀, rfl⟩, ⟨n₁, h₁, rfl⟩, ⟨n₂, h₂, rfl⟩, -⟩ := hletter
    simp only [spareBits, bits_letter h₂, Option.getD_some] at hspare
    refine ⟨[UInt8.ofNat (n₀ * 4 + n₁ / 16), UInt8.ofNat (n₁ % 16 * 16 + n₂ / 4)], ?_⟩
    have hfirst : (n₀ * 4 + n₁ / 16) / 4 = n₀ := by omega
    have hsecond : (n₀ * 4 + n₁ / 16) % 4 * 16 + (n₁ % 16 * 16 + n₂ / 4) / 16 = n₁ := by omega
    have hthird : (n₁ % 16 * 16 + n₂ / 4) % 16 * 4 = n₂ := by omega
    simp only [letters, toNat_ofNat (show n₀ * 4 + n₁ / 16 < 256 by omega),
      toNat_ofNat (show n₁ % 16 * 16 + n₂ / 4 < 256 by omega), hfirst, hsecond, hthird]
  | case3 c₀ c₁ =>
    simp only [List.forall_mem_cons] at hletter
    obtain ⟨⟨n₀, h₀, rfl⟩, ⟨n₁, h₁, rfl⟩, -⟩ := hletter
    simp only [spareBits, bits_letter h₁, Option.getD_some] at hspare
    refine ⟨[UInt8.ofNat (n₀ * 4 + n₁ / 16)], ?_⟩
    have hfirst : (n₀ * 4 + n₁ / 16) / 4 = n₀ := by omega
    have hsecond : (n₀ * 4 + n₁ / 16) % 4 * 16 = n₁ := by omega
    simp only [letters, toNat_ofNat (show n₀ * 4 + n₁ / 16 < 256 by omega), hfirst, hsecond]
  | case4 text hquad hthree htwo =>
    match text, hlength with
    | [], _ => exact ⟨[], rfl⟩
    | [c], hlength => exact absurd rfl hlength
    | [c₀, c₁], _ => exact absurd rfl (htwo c₀ c₁)
    | [c₀, c₁, c₂], _ => exact absurd rfl (hthree c₀ c₁ c₂)
    | c₀ :: c₁ :: c₂ :: c₃ :: text, _ => exact absurd rfl (hquad c₀ c₁ c₂ c₃ text)

/-! ## Loose texts -/

/-- What is no letter and no padding is passed over. -/
theorem readFrom_foreign {c : Char} (hc : bits c = none) (hpad : c ≠ '=') (held : Held) (pads : ℕ) (text : List Char) :
    readFrom held pads (c :: text) = readFrom held pads text := by
  rw [readFrom, if_neg hpad, hc]

/-- Foreign characters before the padding change nothing. -/
theorem readFrom_foreign_inside {foreign : List Char} (hforeign : ∀ c ∈ foreign, bits c = none ∧ c ≠ '=')
    (text rest : List Char) (held : Held) (pads : ℕ) :
    readFrom held pads (text ++ foreign ++ rest) = readFrom held pads (text ++ rest) := by
  induction text generalizing held pads with
  | nil =>
    induction foreign with
    | nil => rfl
    | cons c foreign ih =>
      have hc := List.forall_mem_cons.mp hforeign
      have hmore := ih hc.2
      simp only [List.nil_append, List.cons_append] at hmore ⊢
      rw [readFrom_foreign hc.1.1 hc.1.2, hmore]
  | cons c text ih => simp only [List.cons_append, readFrom, ih]

end RagSystem.Base64
