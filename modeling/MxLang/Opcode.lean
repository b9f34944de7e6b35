import MxLang.Text.Basic

/-!
# Opcodes

The nineteen opcodes that stand alone.  The twentieth instruction, `push`, takes an operand and is
not among them.
-/

namespace MxLang

/-- An opcode without an operand. -/
inductive Opcode
  | left
  | right
  | pusht
  | pop
  | dup
  | del
  | eq
  | not
  | gt
  | lt
  | add
  | sub
  | mult
  | div
  | mod
  | read
  | print
  | jmp
  | jmpc
deriving DecidableEq, Repr

namespace Opcode

/-- Every opcode once. -/
def all : List Opcode :=
  [left, right, pusht, pop, dup, del, eq, not, gt, lt, add, sub, mult, div, mod, read, print, jmp,
    jmpc]

/-- The word for an opcode. -/
def name : Opcode → Text
  | left => "left".toList
  | right => "right".toList
  | pusht => "pusht".toList
  | pop => "pop".toList
  | dup => "dup".toList
  | del => "del".toList
  | eq => "eq".toList
  | not => "not".toList
  | gt => "gt".toList
  | lt => "lt".toList
  | add => "add".toList
  | sub => "sub".toList
  | mult => "mult".toList
  | div => "div".toList
  | mod => "mod".toList
  | read => "read".toList
  | print => "print".toList
  | jmp => "jmp".toList
  | jmpc => "jmpc".toList

/-- The opcode that a word names. -/
def ofName? (word : Text) : Option Opcode :=
  all.find? (·.name = word)

theorem mem_all (op : Opcode) : op ∈ all := by
  cases op <;> decide

theorem ofName?_name (op : Opcode) : ofName? op.name = some op := by
  cases op <;> decide

end Opcode

end MxLang
