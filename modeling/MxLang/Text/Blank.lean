import MxLang.Text.Basic

/-!
# Blank characters

Three notions of blank are in use.  A record line separates its fields by spaces and tabs only
(`isGap`).  A word or an operand cannot hold or start with a character of the Unicode property
`White_Space` (`isSpace`).  What is trimmed off a text are these and the four information
separators U+001C to U+001F (`isTrimmed`).
-/

namespace MxLang.Text

/-- A space or a tab. -/
def isGap (c : Char) : Bool :=
  c = ' ' || c = '\t'

theorem isGap_iff {c : Char} : isGap c ↔ c = ' ' ∨ c = '\t' := by
  rw [isGap, Bool.or_eq_true, decide_eq_true_eq, decide_eq_true_eq]

/-- A character of the Unicode property `White_Space`. -/
def isSpace (c : Char) : Bool :=
  let n := c.toNat
  (0x9 ≤ n && n ≤ 0xD) || n = 0x20 || n = 0x85 || n = 0xA0 || n = 0x1680 ||
    (0x2000 ≤ n && n ≤ 0x200A) || n = 0x2028 || n = 0x2029 || n = 0x202F || n = 0x205F ||
    n = 0x3000

/-- A white-space character or one of the separators U+001C to U+001F. -/
def isTrimmed (c : Char) : Bool :=
  isSpace c || (0x1C ≤ c.toNat && c.toNat ≤ 0x1F)

/-- The text without blank characters at either end. -/
def strip (t : Text) : Text :=
  trim isTrimmed t

end MxLang.Text
