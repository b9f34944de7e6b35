import MxLang.Text.Lines

/-!
# Logical lines

A record may be spread over several lines with parentheses.  Lines are joined, without their
comments but for the last one, for as long as more parentheses have been opened than closed.
-/

namespace MxLang.Zone

open Text

/-- A logical line with the number of its first line. -/
structure Logical where
  number : Nat
  text : Text
deriving DecidableEq, Repr

/-- How far the lines of a zone have been joined. -/
structure Joining where
  /-- The logical lines so far, the latest first. -/
  done : List Logical := []
  /-- The open lines, the latest first. -/
  pending : List Text := []
  /-- The number of the first open line. -/
  start : Nat := 0
  /-- How many parentheses are open. -/
  depth : Int := 0
  /-- How many lines have been met. -/
  count : Nat := 0

/-- How many more parentheses a text opens than it closes. -/
def balance (t : Text) : Int :=
  (t.count '(' : Int) - t.count ')'

/-- Takes one more line into account. -/
def Joining.next (j : Joining) (line : Text) : Joining :=
  let body := before ';' line
  let number := j.count + 1
  let start := if j.pending = [] then number else j.start
  let depth := j.depth + balance body
  if 0 < depth then
    { j with pending := body :: j.pending, start, depth, count := number }
  else
    { done := ⟨start, joinWith [' '] (line :: j.pending).reverse⟩ :: j.done, count := number }

/-- Joins the lines of a zone. -/
def joining (t : Text) : Joining :=
  (splitLines t).foldl Joining.next {}

/-- The logical lines of a zone. -/
def logicalLines (t : Text) : List Logical :=
  (joining t).done.reverse

/-- The number of the line from which on the zone is still open at its end. -/
def unclosed? (t : Text) : Option Nat :=
  let j := joining t
  if j.pending = [] then none else some j.start

end MxLang.Zone
