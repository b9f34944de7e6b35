import MxLang.Opcode
import MxLang.Text.Blank

/-!
# Instructions

One line of assembly, or one decoded host, is an opcode and, for `push`, an operand.  The word
`push`, a run of spaces and tabs and a text that starts with no white space make a push; the choice
is made on these alone, and the operand then runs to the end of the line.  Every other line is an
opcode on its own.  A line feed ends what can be matched.
-/

namespace MxLang

/-- How a text fails to match a grammar. -/
inductive Mismatch
  /-- Nothing of the text matches. -/
  | unmatched
  /-- Only so many of its first characters match. -/
  | incomplete (consumed : Nat)
deriving DecidableEq, Repr

/-- An opcode word and the operand, if there is one. -/
structure Instruction where
  opcode : Text
  operand : Option Text
deriving DecidableEq, Repr

namespace Instruction

open Text

/-- The word that takes an operand. -/
def pushWord : Text := "push".toList

/-- What follows `push` and its gap, if the text is a push. -/
def pushOperand? : Text → Option Text
  | 'p' :: 'u' :: 's' :: 'h' :: rest =>
    match rest, rest.dropWhile isGap with
    | g :: _, c :: operand => if isGap g && !isSpace c then some (c :: operand) else none
    | _, _ => none
  | _ => none

/-- Splits a line into opcode and operand. -/
def parse (t : Text) : Except Mismatch Instruction :=
  match pushOperand? t with
  | some operand =>
    if operand.contains '\n' then .error (.incomplete (before '\n' t).length)
    else .ok ⟨pushWord, some (strip operand)⟩
  | none =>
    if before '\n' t = [] then .error .unmatched
    else if t.contains '\n' then .error (.incomplete (before '\n' t).length)
    else .ok ⟨strip t, none⟩

end Instruction

end MxLang
