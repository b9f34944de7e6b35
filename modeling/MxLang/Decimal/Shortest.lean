/-!
# The shortest decimal of a binary fraction

A positive binary fraction `m · 2^q` stands for all reals that round to it.  Among the decimals in
that interval those with the fewest digits are looked for, and of these the nearest to the fraction.
For each power of ten, from the greatest that is needed, the two multiples next to the fraction are
tried in exact arithmetic; the first power at which one of them lies in the interval wins.
-/

namespace MxLang

/-- A decimal `coefficient · 10 ^ exponent`. -/
structure Decimal where
  coefficient : Nat
  exponent : Int
deriving DecidableEq, Repr

namespace Decimal

/-- A fraction of natural numbers. -/
structure Ratio where
  num : Nat
  den : Nat

/-- The ratio `n · b ^ e`. -/
def scaled (n b : Nat) (e : Int) : Ratio :=
  if 0 ≤ e then ⟨n * Nat.pow b e.toNat, 1⟩ else ⟨n, Nat.pow b (-e).toNat⟩

/-- Whether `x < y`. -/
def Ratio.below (x y : Ratio) : Bool :=
  x.num * y.den < y.num * x.den

/-- The reals that round to a fraction: its ends, and whether they belong to it. -/
structure Interval where
  low : Ratio
  high : Ratio
  closed : Bool

/-- The interval of `m · 2 ^ q`.  Below a power of two the neighbour is only half as far away;
`narrow` tells whether that is so. -/
def interval (m : Nat) (q : Int) (narrow : Bool) : Interval :=
  ⟨scaled (4 * m - if narrow then 1 else 2) 2 (q - 2), scaled (4 * m + 2) 2 (q - 2), m % 2 = 0⟩

/-- Whether a ratio lies in the interval. -/
def Interval.holds (i : Interval) (x : Ratio) : Bool :=
  if i.closed then !x.below i.low && !i.high.below x else i.low.below x && x.below i.high

/-- The better of two neighbouring multiples of a power of ten: the one in the interval, or the
nearer one if both are, the even one of two equally near. -/
def choose (i : Interval) (v : Ratio) (c : Nat) (p : Int) : Option Decimal :=
  let low := i.holds (scaled c 10 p)
  let high := i.holds (scaled (c + 1) 10 p)
  let middle := scaled (10 * c + 5) 10 (p - 1)
  if low && high then
    if v.below middle then some ⟨c, p⟩
    else if middle.below v then some ⟨c + 1, p⟩
    else some ⟨if c % 2 = 0 then c else c + 1, p⟩
  else if low then some ⟨c, p⟩
  else if high then some ⟨c + 1, p⟩
  else none

/-- The multiples of `10 ^ p`, of `10 ^ (p - 1)` and so on are tried, `tries` powers in all. -/
def search (i : Interval) (v : Ratio) : (tries : Nat) → Int → Decimal
  | 0, p => ⟨0, p⟩
  | k + 1, p =>
    let grid := scaled 1 10 p
    match choose i v (v.num * grid.den / (v.den * grid.num)) p with
    | some d => d
    | none => search i v k (p - 1)

/-- The power of ten of the first digit of a positive ratio. -/
def leadingPower (v : Ratio) : Int :=
  if v.den ≤ v.num then ((Nat.toDigits 10 (v.num / v.den)).length : Int) - 1
  else
    let k := (Nat.toDigits 10 (v.den / v.num)).length
    if (v.num * Nat.pow 10 (k - 1)) < v.den then -(k : Int) else 1 - (k : Int)

/-- The decimal without zeros at the end of its coefficient. -/
def strip : (fuel : Nat) → Decimal → Decimal
  | 0, d => d
  | k + 1, d =>
    if d.coefficient % 10 = 0 ∧ d.coefficient ≠ 0 then strip k ⟨d.coefficient / 10, d.exponent + 1⟩
    else d

/-- The shortest decimal in the interval of `m · 2 ^ q`. -/
def shortest (m : Nat) (q : Int) (narrow : Bool) : Decimal :=
  let v := scaled m 2 q
  strip 20 (search (interval m q narrow) v 18 (leadingPower v))

/-- The shortest decimal that reads back as the absolute value of a finite double. -/
def ofFloat (x : Float) : Decimal :=
  let bits : Nat := x.toBits.toNat
  let fraction : Nat := bits % Nat.pow 2 52
  let power : Nat := bits / Nat.pow 2 52 % Nat.pow 2 11
  if power = 0 then
    if fraction = 0 then ⟨0, 0⟩ else shortest fraction (-1074) false
  else shortest (Nat.pow 2 52 + fraction) ((power : Int) - 1075) (fraction = 0 && 1 < power)

end Decimal

end MxLang
