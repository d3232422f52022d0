import RagSystem.JsonText

/-!
# JSON text in ASCII

What `json.dumps` writes when it is not told otherwise: every character past the
printable ones of ASCII is escaped, one past 16 bits as its two surrogates.
-/

namespace RagSystem.JsonText

set_option autoImplicit false

/-- `\uXXXX`: a code unit. -/
def escapeUnit (n : ℕ) : List Char :=
  ['\\', 'u', hexDigit (n / 4096), hexDigit (n / 256 % 16), hexDigit (n / 16 % 16), hexDigit (n % 16)]

/-- How a string's character is written with `ensure_ascii`. -/
def escapeAscii (c : Char) : List Char :=
  if c = '"' then ['\\', '"']
  else if c = '\\' then ['\\', '\\']
  else if c = '\n' then ['\\', 'n']
  else if c = '\r' then ['\\', 'r']
  else if c = '\t' then ['\\', 't']
  else if c = '\x08' then ['\\', 'b']
  else if c = '\x0c' then ['\\', 'f']
  else if 32 ≤ c.toNat ∧ c.toNat < 127 then [c]
  else if c.toNat < 0x10000 then escapeUnit c.toNat
  else escapeUnit (0xD800 + (c.toNat - 0x10000) / 0x400) ++ escapeUnit (0xDC00 + (c.toNat - 0x10000) % 0x400)

theorem hexValue_hexDigit {n : ℕ} (hn : n < 16) : hexValue (hexDigit n) = some n := by
  interval_cases n <;> rfl

/-- The digits of a code unit are read as the unit. -/
theorem codeUnit_digits {n : ℕ} (hn : n < 0x10000) :
    codeUnit (hexDigit (n / 4096)) (hexDigit (n / 256 % 16)) (hexDigit (n / 16 % 16)) (hexDigit (n % 16)) = some n := by
  have hvalue : ((n / 4096 * 16 + n / 256 % 16) * 16 + n / 16 % 16) * 16 + n % 16 = n := by omega
  simp only [codeUnit, hexValue_hexDigit (show n / 4096 < 16 by omega),
    hexValue_hexDigit (show n / 256 % 16 < 16 by omega), hexValue_hexDigit (show n / 16 % 16 < 16 by omega),
    hexValue_hexDigit (show n % 16 < 16 by omega), bind, Option.bind, pure, hvalue]

/-- A character is no surrogate. -/
theorem toNat_valid (c : Char) : c.toNat < 0xD800 ∨ (0xDFFF < c.toNat ∧ c.toNat < 0x110000) := by
  have hvalid : c.toNat.isValidChar := c.valid
  simpa only [Nat.isValidChar] using hvalid

/-- The escape of a character of 16 bits is read back. -/
theorem parseEscape_unit {c : Char} (hc : c.toNat < 0x10000) (rest : List Char) :
    parseEscape ((escapeUnit c.toNat).tail ++ rest) = some (c, rest) := by
  have hvalid := toNat_valid c
  simp only [escapeUnit, List.tail_cons, List.cons_append, List.nil_append, parseEscape, codeUnit_digits hc, bind,
    Option.bind]
  rw [if_neg (by omega), if_neg (by omega), Char.ofNat_toNat]

/-- Two surrogates are read as their character. -/
theorem parseEscape_pair {high low : ℕ} (hhigh : 0xD800 ≤ high ∧ high < 0xDC00) (hlow : 0xDC00 ≤ low ∧ low < 0xE000)
    (rest : List Char) : parseEscape ((escapeUnit high).tail ++ (escapeUnit low ++ rest)) =
      some (Char.ofNat (0x10000 + (high - 0xD800) * 0x400 + (low - 0xDC00)), rest) := by
  have hfirst := codeUnit_digits (show high < 0x10000 by omega)
  have hsecond := codeUnit_digits (show low < 0x10000 by omega)
  simp only [escapeUnit, List.tail_cons, List.cons_append, List.nil_append, parseEscape, hfirst, bind, Option.bind]
  rw [if_pos hhigh]
  simp only [parseLowSurrogate, hsecond, bind, Option.bind]
  rw [if_pos hlow]

/-- The character of the surrogates it is written as. -/
theorem surrogates_value {n : ℕ} (hn : 0x10000 ≤ n) (hmax : n < 0x110000) :
    ∃ high low, high = 0xD800 + (n - 0x10000) / 0x400 ∧ low = 0xDC00 + (n - 0x10000) % 0x400 ∧
      (0xD800 ≤ high ∧ high < 0xDC00) ∧ (0xDC00 ≤ low ∧ low < 0xE000) ∧
      0x10000 + (high - 0xD800) * 0x400 + (low - 0xDC00) = n := by
  refine ⟨_, _, rfl, rfl, ?_⟩
  omega

/-- An escape is read after its backslash. -/
theorem parseString_backslash (fuel : ℕ) (text : List Char) :
    parseString (fuel + 1) ('\\' :: text) = (parseEscape text).bind fun escaped =>
      (parseString fuel escaped.2).map fun later => (escaped.1 :: later.1, later.2) := by
  simp [parseString]

/-- A character written in ASCII is read back. -/
theorem parseString_escapeAscii (fuel : ℕ) (c : Char) (rest : List Char) :
    parseString (fuel + 1) (escapeAscii c ++ rest) = (parseString fuel rest).map fun later => (c :: later.1, later.2) := by
  unfold escapeAscii
  split
  · subst_vars; simp [parseString, parseEscape]
  split
  · subst_vars; simp [parseString, parseEscape]
  split
  · subst_vars; simp [parseString, parseEscape]
  split
  · subst_vars; simp [parseString, parseEscape]
  split
  · subst_vars; simp [parseString, parseEscape]
  split
  · subst_vars; simp [parseString, parseEscape]
  split
  · subst_vars; simp [parseString, parseEscape]
  split
  · rename_i hquote hback _ _ _ _ _ hprintable
    have hplain : ¬ c.toNat < 32 := by omega
    simp [parseString, hquote, hback, hplain]
  split
  · rename_i hunit
    have hread := parseEscape_unit hunit rest
    have hescape : escapeUnit c.toNat ++ rest = '\\' :: ((escapeUnit c.toNat).tail ++ rest) := rfl
    rw [hescape, parseString_backslash, hread]
    rfl
  · rename_i hunit
    have hvalid := toNat_valid c
    obtain ⟨high, low, hhigh, hlow, hfirst, hsecond, hvalue⟩ := surrogates_value (n := c.toNat) (by omega) (by omega)
    have hread := parseEscape_pair hfirst hsecond rest
    have hescape : escapeUnit high ++ escapeUnit low ++ rest = '\\' :: ((escapeUnit high).tail ++ (escapeUnit low ++ rest)) :=
      rfl
    rw [← hhigh, ← hlow, hescape, parseString_backslash, hread, hvalue, Char.ofNat_toNat]
    rfl

/-- The layout of `json.dumps(value, separators=(",", ":"))`. -/
def compactLayout : Layout where
  escape := escapeAscii
  afterComma := []
  afterColon := []
  read_escape := parseString_escapeAscii
  space_afterComma := isSpace_of_mem_nil
  space_afterColon := isSpace_of_mem_nil

end RagSystem.JsonText
