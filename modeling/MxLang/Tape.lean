import MxLang.Numeral

/-!
# The tape

Memory is a tape of integers with one head.  Cells exist only up to the greatest index addressed so
far; a new cell holds zero, and a cell never goes away.  A fresh tape has its head on cell zero
without holding that cell.
-/

namespace MxLang

/-- The cells that exist and the index under the head. -/
structure Tape where
  head : Nat := 0
  cells : List Int := []
deriving DecidableEq, Repr

namespace Tape

/-- The tape with new cells up to the index, if it is beyond the last cell. -/
def growTo (i : Int) (t : Tape) : Tape :=
  { t with cells := t.cells ++ List.replicate (i + 1 - t.cells.length).toNat 0 }

/-- The head on the index. -/
def setHead (i : Nat) (t : Tape) : Tape :=
  { t.growTo i with head := i }

/-- The head one cell to the left; on cell zero it stays. -/
def moveLeft (t : Tape) : Tape :=
  if t.head = 0 then t else t.setHead (t.head - 1)

/-- The head one cell to the right. -/
def moveRight (t : Tape) : Tape :=
  t.setHead (t.head + 1)

/-- The tape with the cell under the head in existence. -/
def touch (t : Tape) : Tape :=
  t.growTo t.head

/-- The value under the head. -/
def get (t : Tape) : Int :=
  t.touch.cells.getD t.head 0

/-- The tape with the value under the head. -/
def set (value : Int) (t : Tape) : Tape :=
  { t with cells := t.touch.cells.set t.head value }

/-- The tape as text. -/
def text (t : Tape) : Text :=
  "Tape(head=".toList ++ Numeral.writeNat t.head ++ ", cells=[".toList ++
    Text.joinWith ", ".toList (t.cells.map Numeral.write) ++ "])".toList

/-- The tape as text, if every number in it can be written. -/
def text? (t : Tape) : Except Numeral.Error Text :=
  if t.cells.all Numeral.isWritable then .ok t.text else .error .tooLongToWrite

end Tape

end MxLang
