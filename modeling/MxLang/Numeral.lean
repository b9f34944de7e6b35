import MxLang.Text.Blank
import MxLang.Text.Digit
import MxLang.Text.Quoted

/-!
# Decimal numerals

Integers are unbounded, but a numeral of more than 4300 digits is neither read nor written.  Three
kinds of numeral are read: the literal of the language, an optional sign and ASCII digits
(`readLiteral`); the preference of a record, decimal digits of any script (`readPreference`); and
the value of an option, which may also have blanks around it and single underscores between its
digits (`readLoose?`).
-/

namespace MxLang.Numeral

open MxLang.Text

/-- The greatest number of digits of a numeral. -/
def digitLimit : Nat := 4300

/-- Why a number and its numeral cannot be turned into each other. -/
inductive Error
  /-- The numeral has more digits than the limit. -/
  | tooLongToRead (digits : Nat)
  /-- The number would need more digits than the limit. -/
  | tooLongToWrite
  /-- The text holds a digit that is not decimal. -/
  | notDecimal (text : Text)
deriving DecidableEq, Repr

/-- The numeral of a natural number. -/
def writeNat (n : Nat) : Text :=
  Nat.toDigits 10 n

/-- The numeral of an integer, without regard to the limit. -/
def write (n : Int) : Text :=
  if n < 0 then '-' :: writeNat n.natAbs else writeNat n.natAbs

/-- The least natural number whose numeral has more digits than the limit. -/
def bound : Nat := Nat.pow 10 digitLimit

/-- Whether the numeral of the integer has no more digits than the limit. -/
def isWritable (n : Int) : Bool :=
  n.natAbs < bound

/-- The numeral of an integer. -/
def write? (n : Int) : Except Error Text :=
  if isWritable n then .ok (write n) else .error .tooLongToWrite

/-- The value of digits of any script, read from the left. -/
def value (digits : Text) : Nat :=
  digits.foldl (fun n c => 10 * n + (decimalValue? c).getD 0) 0

/-- The value of ASCII digits, read from the left. -/
def asciiValue (digits : Text) : Nat :=
  digits.foldl (fun n c => 10 * n + (c.toNat - 0x30)) 0

/-- A sign, if the text starts with one, and what follows it. -/
def splitSign : Text → Bool × Text
  | '+' :: t => (false, t)
  | '-' :: t => (true, t)
  | t => (false, t)

/-- The integer with the given sign. -/
def signed (negative : Bool) (n : Nat) : Int :=
  if negative then -(n : Int) else n

/-- An integer literal is an optional sign and one or more ASCII digits; other texts give
`none`. -/
def readLiteral (t : Text) : Except Error (Option Int) :=
  let (negative, digits) := splitSign t
  if digits.isEmpty || !digits.all isAsciiDigit then .ok none
  else if digitLimit < digits.length then .error (.tooLongToRead digits.length)
  else .ok (some (signed negative (asciiValue digits)))

/-- The value of a text of digits.  The limit is checked on the decimal digits before the first one
that is not decimal. -/
def readPreference (t : Text) : Except Error Nat :=
  let digits := t.takeWhile fun c => (decimalValue? c).isSome
  if digitLimit < digits.length then .error (.tooLongToRead digits.length)
  else if digits.length < t.length then .error (.notDecimal t)
  else .ok (value t)

/-- The digits of a numeral in which one underscore may stand between two digits. -/
def looseDigits? : Text → Option Text
  | [] => none
  | [c] => if (decimalValue? c).isSome then some [c] else none
  | c :: '_' :: d :: t =>
    if (decimalValue? c).isSome then (looseDigits? (d :: t)).map (c :: ·) else none
  | c :: t => if (decimalValue? c).isSome then (looseDigits? t).map (c :: ·) else none

/-- The integer that a loosely written text names. -/
def readLoose? (t : Text) : Option Int :=
  let (negative, t) := splitSign (trim isSpace t)
  match looseDigits? t with
  | some digits =>
    if digitLimit < digits.length then none else some (signed negative (value digits))
  | none => none

/-- The words for a failed conversion. -/
def Error.words : Error → Text
  | .tooLongToRead digits =>
    "Exceeds the limit (4300 digits) for integer string conversion: value has ".toList ++
      writeNat digits ++
      " digits; use sys.set_int_max_str_digits() to increase the limit".toList
  | .tooLongToWrite =>
    ("Exceeds the limit (4300 digits) for integer string conversion; " ++
      "use sys.set_int_max_str_digits() to increase the limit").toList
  | .notDecimal t =>
    "invalid literal for int() with base 10: ".toList ++ (quote t).take 200

end MxLang.Numeral
