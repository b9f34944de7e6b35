import MxLang.Decimal.Shortest
import MxLang.Numeral

/-!
# Lifetimes

How long a question to a name server may take, in seconds.  A lifetime is written with the fewest
digits that read back, positionally from 0.0001 up to below ten to the power of sixteen.
-/

namespace MxLang

open Text

/-- A number of seconds, given as a whole number or as a fraction. -/
inductive Lifetime
  | whole (seconds : Int)
  | real (seconds : Float)

namespace Lifetime

/-- A decimal with `digits` of which `point` stand before the point. -/
def positional (digits : Text) (point : Int) : Text :=
  if point ≤ 0 then "0.".toList ++ List.replicate (-point).toNat '0' ++ digits
  else if digits.length ≤ point then
    digits ++ List.replicate (point.toNat - digits.length) '0' ++ ".0".toList
  else digits.take point.toNat ++ '.' :: digits.drop point.toNat

/-- A power of ten with its sign and at least two digits. -/
def exponentText (e : Int) : Text :=
  let digits := Numeral.writeNat e.natAbs
  (if e < 0 then '-' else '+') :: List.replicate (2 - digits.length) '0' ++ digits

/-- A decimal in scientific notation. -/
def scientific (digits : Text) (point : Int) : Text :=
  (match digits with
    | c :: rest => if rest = [] then [c] else c :: '.' :: rest
    | [] => []) ++ 'e' :: exponentText (point - 1)

/-- The text of a finite positive fraction. -/
def decimalText (d : Decimal) : Text :=
  let digits := Numeral.writeNat d.coefficient
  let point := digits.length + d.exponent
  if d.coefficient = 0 then "0.0".toList
  else if -4 < point ∧ point ≤ 16 then positional digits point
  else scientific digits point

/-- The text of a lifetime. -/
def text : Lifetime → Text
  | whole n => Numeral.write n
  | real x =>
    if x.isNaN then "nan".toList
    else
      (if Nat.pow 2 63 ≤ x.toBits.toNat then ['-'] else []) ++
        if x.isInf then "inf".toList else decimalText (Decimal.ofFloat x)

/-- A name server asked with the given lifetime, as a source of records. -/
def description (l : Option Lifetime) : Text :=
  "DNSLookup(lifetime=".toList ++
    (match l with
      | some l => l.text
      | none => "None".toList) ++ ")".toList

/-- Decimal digits of every script become ASCII digits. -/
def asciiDigit (c : Char) : Char :=
  match decimalValue? c with
  | some v => Nat.digitChar v
  | none => c

/-- The text without underscores, each of which has to stand between two digits. -/
def withoutUnderscores? : Text → Option Text
  | [] => some []
  | c :: '_' :: d :: t =>
    if isAsciiDigit c && isAsciiDigit d then (withoutUnderscores? (d :: t)).map (c :: ·) else none
  | '_' :: _ => none
  | c :: t => (withoutUnderscores? t).map (c :: ·)

/-- The exponent at the end of a numeral: nothing, or the letter, a sign and digits. -/
def exponent? : Text → Option Int
  | [] => some 0
  | c :: t =>
    let (negative, digits) := Numeral.splitSign t
    if (c = 'e' || c = 'E') && !digits.isEmpty && digits.all isAsciiDigit then
      some (Numeral.signed negative (Numeral.asciiValue digits))
    else none

/-- The double nearest to `n · 10 ^ e`. -/
def nearest (n : Nat) (e : Int) : Float :=
  let size := (Numeral.writeNat n).length + e
  if n = 0 ∨ size < -400 then 0.0
  else if 400 < size then 1.0 / 0.0
  else Float.ofScientific n (e < 0) e.natAbs

/-- The value of an unsigned numeral with an optional fraction and exponent, or of a word for a
number that is not finite. -/
def magnitude? (t : Text) : Option Float :=
  let small := t.map fun c => if 'A' ≤ c && c ≤ 'Z' then Char.ofNat (c.toNat + 32) else c
  if small = "inf".toList || small = "infinity".toList then some (1.0 / 0.0)
  else if small = "nan".toList then some (0.0 / 0.0)
  else
    let before := t.takeWhile isAsciiDigit
    let rest := t.dropWhile isAsciiDigit
    let (after, rest) :=
      match rest with
      | '.' :: r => (r.takeWhile isAsciiDigit, r.dropWhile isAsciiDigit)
      | r => ([], r)
    if before.isEmpty && after.isEmpty then none
    else
      (exponent? rest).map fun e =>
        nearest (Numeral.asciiValue (before ++ after)) (e - after.length)

/-- The lifetime that a text names. -/
def read? (t : Text) : Option Lifetime :=
  match withoutUnderscores? ((trim isSpace t).map asciiDigit) with
  | none => none
  | some t =>
    let (negative, t) := Numeral.splitSign t
    (magnitude? t).map fun x => .real (if negative then -x else x)

end Lifetime

end MxLang
