/-!
# Text

Text is a list of characters, so lengths and positions count characters.  This module holds the
operations on it that no table of characters is needed for: cutting at a character, trimming both
ends, replacing the first occurrence, and sets of code points given by their ranges.
-/

namespace MxLang

/-- A text is the list of its characters. -/
abbrev Text := List Char

namespace Text

/-- The text without the characters of `p` at either end. -/
def trim (p : Char → Bool) (t : Text) : Text :=
  ((t.dropWhile p).reverse.dropWhile p).reverse

/-- The text with the first `a`, if there is one, replaced by `b`. -/
def replaceFirst (a b : Char) : Text → Text
  | [] => []
  | c :: t => if c = a then b :: t else c :: replaceFirst a b t

/-- What stands before the first `c`; the whole text if there is no `c`. -/
def before (c : Char) (t : Text) : Text :=
  t.takeWhile (· != c)

/-- Whether the text ends in `s`. -/
def endsIn (s t : Text) : Bool :=
  s.isSuffixOf t

/-- Whether the text starts with `s`. -/
def startsWith (s t : Text) : Bool :=
  s.isPrefixOf t

/-- The texts one after another with `sep` between them. -/
def joinWith (sep : Text) (ts : List Text) : Text :=
  sep.intercalate ts

/-- Whether a code point lies in one of the ranges, which stand in ascending order. -/
def inRanges (n : Nat) : List (Nat × Nat) → Bool
  | [] => false
  | (lo, hi) :: rest => if n < lo then false else if n ≤ hi then true else inRanges n rest

/-- The order of two texts by their code points, the shorter first if it starts the longer. -/
def precedes : Text → Text → Bool
  | [], _ => true
  | _ :: _, [] => false
  | a :: s, b :: t => if a = b then precedes s t else a.toNat < b.toNat

end Text

end MxLang
