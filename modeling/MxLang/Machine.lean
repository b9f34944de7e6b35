import MxLang.Notice
import MxLang.Tape
import MxLang.Text.Lines

/-!
# The machine

A stack and a tape of integers, the input still unread and the values printed so far.  `perform`
carries out one command and says where to jump, if anywhere.  A command that fails has taken its
operands off the stack and done nothing else; with too few operands the stack is left empty.

A line is handed to the output and then flushed, which passes it on.  Either can fail: a write that
fails may have taken a part of the line, and after a flush that fails the output holds the whole
line.  A value counts as printed, and its line as written, when both have succeeded.
-/

namespace MxLang

open Text

/-- What happens when the input is used up. -/
inductive InputEnd
  | endOfStream
  | fails (reason : Text)
  | interrupted
deriving DecidableEq, Repr

/-- The lines still unread, each with its line feed, and what comes after them. -/
structure Input where
  lines : List Text := []
  ending : InputEnd := .endOfStream
deriving DecidableEq, Repr

/-- The input that delivers a text and then ends. -/
def Input.ofText (t : Text) (ending : InputEnd := .endOfStream) : Input :=
  ⟨feedLines t, ending⟩

/-- The state of the machine. -/
structure Machine where
  /-- The top of the stack comes first. -/
  stack : List Int := []
  tape : Tape := {}
  input : Input := {}
  /-- The printed values, the latest first. -/
  printed : List Int := []
  /-- The reason for which every write fails, if it does. -/
  broken : Option Text := none
  /-- How many characters of a line a write that fails has taken. -/
  taken : Nat := 0
  /-- The reason for which every flush fails, if it does. -/
  clogged : Option Text := none
  /-- What failed prints have left with the output.  It is never passed on, since an output that
  fails once always does. -/
  held : Text := []
deriving DecidableEq, Repr

/-- A command of the machine. -/
inductive Command
  | push (value : Int)
  | bare (op : Opcode)
deriving DecidableEq, Repr

/-- Where to go on: at `target`, if the jump is `taken`. -/
structure Jump where
  target : Int := 0
  taken : Bool := false
deriving DecidableEq, Repr

/-- What a command leads to: the new state, also after a failure. -/
structure Effect where
  machine : Machine
  outcome : Except Failure Jump := .ok {}
  notices : List Notice := []

/-- The quotient rounded toward zero; there is none for the divisor zero. -/
def quotient? (a b : Int) : Option Int :=
  if b = 0 then none else some (a.tdiv b)

/-- The remainder of the quotient rounded toward zero. -/
def remainder? (a b : Int) : Option Int :=
  (quotient? a b).map fun q => a - b * q

/-- One for true, zero for false. -/
def truthValue (b : Bool) : Int :=
  if b then 1 else 0

/-- The command that a text stands for.  Only `push` has an operand, an integer literal. -/
def Command.ofText (t : Text) : Except Failure Command :=
  let unknown := Failure.ofStop { cause := .unknownOpcode t, opcode := t }
  match Instruction.parse t with
  | .error _ => .error unknown
  | .ok ⟨opcode, operand⟩ =>
    if opcode = Instruction.pushWord then
      match Numeral.readLiteral (operand.getD []) with
      | .error e => .error (.numeral e)
      | .ok (some value) => .ok (.push value)
      | .ok none =>
        .error (.ofStop { cause := .invalidPush (operand.getD []), opcode := Instruction.pushWord })
    else
      match Opcode.ofName? opcode, operand with
      | some op, none => .ok (.bare op)
      | _, _ => .error unknown

/-- The line that a printed value makes: the character with that code, and the number. -/
def printLine (value : Int) : Text :=
  quoteCode value ++ " (".toList ++ Numeral.write value ++ ")\n".toList

namespace Machine

/-- Too few operands: the stack is left empty. -/
def underflow (m : Machine) : Effect :=
  { machine := { m with stack := [] }, outcome := .error (.ofStop { cause := .stackUnderflow }) }

/-- A plain success. -/
def done (m : Machine) : Effect :=
  { machine := m }

/-- A failure in the given state. -/
def fail (m : Machine) (f : Failure) : Effect :=
  { machine := m, outcome := .error f }

/-- The state with a value on top of the stack. -/
def push (value : Int) (m : Machine) : Machine :=
  { m with stack := value :: m.stack }

/-- Takes the top off the stack. -/
def pop (m : Machine) : Machine × Except Failure Int :=
  match m.stack with
  | a :: rest => ({ m with stack := rest }, .ok a)
  | [] => (m, .error (.ofStop { cause := .stackUnderflow }))

/-- The stack as text, its bottom first. -/
def stackText (m : Machine) : Text :=
  "Stack([".toList ++ joinWith ", ".toList (m.stack.reverse.map Numeral.write) ++ "])".toList

/-- The stack as text, if every number in it can be written. -/
def stackText? (m : Machine) : Except Numeral.Error Text :=
  if m.stack.all Numeral.isWritable then .ok m.stackText else .error .tooLongToWrite

/-- Goes on with the top of the stack and the state without it. -/
def withOne (m : Machine) (k : Int → Machine → Effect) : Effect :=
  match m.stack with
  | a :: rest => k a { m with stack := rest }
  | [] => m.underflow

/-- Goes on with the top of the stack, the value below it, and the state without both. -/
def withTwo (m : Machine) (k : Int → Int → Machine → Effect) : Effect :=
  match m.stack with
  | a :: b :: rest => k a b { m with stack := rest }
  | _ => m.underflow

/-- Pushes the code of the first character of the next input line.  The line feed of a line counts
only when it is all there is. -/
def readChar (m : Machine) : Effect :=
  match m.input.lines with
  | [] =>
    match m.input.ending with
    | .endOfStream =>
      m.fail (.ofStop { cause := .inputExhausted, opcode := Opcode.read.name })
    | .fails reason =>
      m.fail (.ofStop { cause := .inputFailed reason, opcode := Opcode.read.name })
    | .interrupted => m.fail .interrupted
  | [] :: rest =>
    { m with input := { m.input with lines := rest } }.fail
      (.ofStop { cause := .inputExhausted, opcode := Opcode.read.name })
  | (c :: more) :: rest =>
    let m := { m with input := { m.input with lines := rest } }
    { machine := m.push c.toNat
      notices := if more = [] || more = ['\n'] then [] else [.overlongInput] }

/-- Leaves a text with the output and fails. -/
def hold (t reason : Text) (m : Machine) : Effect :=
  { m with held := m.held ++ t }.fail (.device reason)

/-- Takes the top of the stack, writes its line and flushes the output. -/
def printTop (m : Machine) : Effect :=
  m.withOne fun value m =>
    if Numeral.isWritable value then
      match m.broken, m.clogged with
      | some reason, _ => m.hold ((printLine value).take m.taken) reason
      | none, some reason => m.hold (printLine value) reason
      | none, none => done { m with printed := value :: m.printed }
    else m.fail (.numeral .tooLongToWrite)

/-- Pushes the result of a division, or stops at a zero divisor. -/
def divide (op : Opcode) (result : Int → Int → Option Int) (m : Machine) : Effect :=
  m.withTwo fun a b m =>
    match result a b with
    | some c => done (m.push c)
    | none => m.fail (.ofStop { cause := .divisionByZero op.name a, opcode := op.name })

/-- Carries out an opcode. -/
def performBare (m : Machine) : Opcode → Effect
  | .left => done { m with tape := m.tape.moveLeft }
  | .right => done { m with tape := m.tape.moveRight }
  | .pusht => done ({ m with tape := m.tape.touch }.push m.tape.get)
  | .pop => m.withOne fun a m => done { m with tape := m.tape.set a }
  | .dup => m.withOne fun a m => done ((m.push a).push a)
  | .del => m.withOne fun _ m => done m
  | .eq => m.withTwo fun a b m => done (m.push (truthValue (a == b)))
  | .gt => m.withTwo fun a b m => done (m.push (truthValue (a > b)))
  | .lt => m.withTwo fun a b m => done (m.push (truthValue (a < b)))
  | .not => m.withOne fun a m =>
    if a = 0 ∨ a = 1 then done (m.push (1 - a))
    else m.fail (.ofStop { cause := .notBinary a, opcode := Opcode.not.name })
  | .add => m.withTwo fun a b m => done (m.push (a + b))
  | .sub => m.withTwo fun a b m => done (m.push (a - b))
  | .mult => m.withTwo fun a b m => done (m.push (a * b))
  | .div => m.divide .div quotient?
  | .mod => m.divide .mod remainder?
  | .read => m.readChar
  | .print => m.printTop
  | .jmp => m.withOne fun a m => { machine := m, outcome := .ok ⟨a, true⟩ }
  | .jmpc => m.withTwo fun a b m => { machine := m, outcome := .ok ⟨a, b ≠ 0⟩ }

/-- Carries out a command. -/
def perform (m : Machine) : Command → Effect
  | .push value => done (m.push value)
  | .bare op => m.performBare op

/-- Carries out the command that a text stands for. -/
def run (m : Machine) (code : Text) : Effect :=
  match Command.ofText code with
  | .ok c => m.perform c
  | .error f => m.fail f

/-- The text written and passed on so far. -/
def output (m : Machine) : Text :=
  m.printed.reverse.flatMap printLine

/-- The text written since `n` values had been printed. -/
def outputSince (n : Nat) (m : Machine) : Text :=
  (m.printed.take (m.printed.length - n)).reverse.flatMap printLine

/-- One row of a state dump. -/
def dumpRow (what : Text) (i : Nat) (value : Int) : Text :=
  what ++ Numeral.writeNat i ++ ": ".toList ++ Numeral.write value ++ " (".toList ++
    quoteCode value ++ ")".toList

/-- A listing of the tape and of the stack, its bottom first. -/
def dump (m : Machine) : Text :=
  joinWith ['\n']
    ((("Tape is currently ".toList ++ Numeral.writeNat m.tape.cells.length ++
          " cells big".toList) ::
        m.tape.cells.mapIdx (dumpRow "Cell ".toList)) ++
      (("Stack is currently ".toList ++ Numeral.writeNat m.stack.length ++
          " entries big".toList) ::
        m.stack.reverse.mapIdx (dumpRow "Stack row ".toList)))

/-- The listing, if every number in it can be written. -/
def dump? (m : Machine) : Except Failure Text :=
  if m.tape.cells.all Numeral.isWritable && m.stack.all Numeral.isWritable then .ok m.dump
  else .error (.numeral .tooLongToWrite)

end Machine

end MxLang
