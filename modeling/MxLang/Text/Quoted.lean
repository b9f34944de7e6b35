import MxLang.Text.Printable

/-!
# Quoted text

Messages show a text between quotes.  Single quotes are used unless the text holds one and no
double quote.  A backslash, the quote in use, tab, line feed and carriage return are written with a
backslash, and a character that is not printable as a hexadecimal escape of two, four or eight
digits, the shortest that fits.
-/

namespace MxLang.Text

/-- The last `count` hexadecimal digits of `n`. -/
def hexDigits : (count n : Nat) → Text
  | 0, _ => []
  | k + 1, n => hexDigits k (n / 16) ++ [Nat.digitChar (n % 16)]

/-- The hexadecimal escape of a code point. -/
def hexEscape (n : Nat) : Text :=
  if n ≤ 0xFF then '\\' :: 'x' :: hexDigits 2 n
  else if n ≤ 0xFFFF then '\\' :: 'u' :: hexDigits 4 n
  else '\\' :: 'U' :: hexDigits 8 n

/-- A character as it stands between two `mark`s. -/
def escape (mark c : Char) : Text :=
  if c = mark || c = '\\' then ['\\', c]
  else if c = '\t' then ['\\', 't']
  else if c = '\n' then ['\\', 'n']
  else if c = '\r' then ['\\', 'r']
  else if isPrintable c.toNat then [c]
  else hexEscape c.toNat

/-- The quote a text is written in. -/
def quoteMark (t : Text) : Char :=
  if t.contains '\'' && !t.contains '"' then '"' else '\''

/-- The text between quotes. -/
def quote (t : Text) : Text :=
  quoteMark t :: t.flatMap (escape (quoteMark t)) ++ [quoteMark t]

/-- The character with code `n` between quotes: a surrogate is written as its escape, and a number
that is no code point as the replacement character. -/
def quoteCode (n : Int) : Text :=
  if n < 0 || 0x10FFFF < n then quote [Char.ofNat 0xFFFD]
  else if 0xD800 ≤ n && n ≤ 0xDFFF then '\'' :: hexEscape n.toNat ++ ['\'']
  else quote [Char.ofNat n.toNat]

end MxLang.Text
