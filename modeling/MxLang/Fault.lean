import MxLang.Instruction
import MxLang.Numeral
import MxLang.Text.Utf8

/-!
# Faults and failures

A *fault* is a condition of the toolchain that is reported with a code: in a source, in a set of
records, in a zone, or while a program runs.  A *failure* is anything that ends an operation: a
fault, or one of the conditions that are not reported that way.
-/

namespace MxLang

/-- Why a program stops. -/
inductive StopCause
  | emptyProgram
  | unknownOpcode (command : Text)
  | invalidPush (operand : Text)
  | notBinary (value : Int)
  | divisionByZero (opcode : Text) (dividend : Int)
  | inputExhausted
  | inputFailed (reason : Text)
  | stepLimit (limit : Int)
  /-- No line stands at or after the counter; `jumped` tells whether a jump led there, and
  `target` where it went. -/
  | noNextLine (counter : Int) (jumped : Bool) (target : Option Int)
  | stackUnderflow
deriving DecidableEq, Repr

/-- A stop with the instruction it belongs to, as far as it is known. -/
structure Stop where
  cause : StopCause
  opcode : Text := []
  priority : Option Int := none
deriving DecidableEq, Repr

/-- What is wrong with a zone. -/
inductive ZoneFlaw
  /-- The line is no directive, record, comment or blank. -/
  | unreadable (line : Text)
  /-- The data of an MX record are not a number and a host. -/
  | badExchange
  /-- A parenthesis is still open at the end. -/
  | unbalanced
  /-- The bytes are no text. -/
  | notUtf8 (reason : Text.Utf8.Reason) (offset : Nat)
  | other (message : Text)
deriving DecidableEq, Repr

/-- A condition that is reported with a code. -/
inductive Fault
  | unrecognizedInstruction (line : Nat) (text : Text)
  | unresolvableOperand (line : Nat) (text operand : Text)
  | programTooLarge (count limit : Nat)
  | duplicatePriority (priority : Int) (codes : List Text)
  | lookupFailed (domain reason : Text)
  | zone (flaw : ZoneFlaw) (line : Nat) (text file : Text)
  | stop (s : Stop)
deriving DecidableEq, Repr

/-- Something that has to be known for the work to go on. -/
inductive Need
  | fileName
  | domainName
  | stepLimit
deriving DecidableEq, Repr

/-- Why a text names no path. -/
inductive PathFlaw
  /-- The home directory that it starts at is not known. -/
  | unknownHome
  /-- A null character is in it. -/
  | nullCharacter
deriving DecidableEq, Repr

/-- Whatever ends an operation. -/
inductive Failure
  | fault (f : Fault)
  /-- A text does not match its grammar. -/
  | mismatch (m : Mismatch)
  /-- A number and its numeral cannot be turned into each other. -/
  | numeral (e : Numeral.Error)
  /-- A file or a stream failed. -/
  | device (reason : Text)
  /-- The user broke off. -/
  | interrupted
  /-- The pointer names no line of the program. -/
  | noLine
  /-- A text names no path. -/
  | path (flaw : PathFlaw)
  /-- Nothing was given where a value is needed. -/
  | lacking (n : Need)
  /-- A failure of another party, passed on as it is. -/
  | foreign (kind message : Text)
deriving DecidableEq, Repr

/-- A stop without a known instruction takes the given one. -/
def Stop.annotate (opcode : Text) (priority : Int) (s : Stop) : Stop :=
  { s with
    opcode := if s.opcode.isEmpty then opcode else s.opcode
    priority := some (s.priority.getD priority) }

/-- Stops take the given instruction; other failures stay as they are. -/
def Failure.annotate (opcode : Text) (priority : Int) : Failure → Failure
  | .fault (.stop s) => .fault (.stop (s.annotate opcode priority))
  | f => f

/-- Whether every number that the words of a stop show can be written. -/
def StopCause.isWordable : StopCause → Bool
  | .notBinary value => Numeral.isWritable value
  | .divisionByZero _ dividend => Numeral.isWritable dividend
  | .stepLimit limit => Numeral.isWritable limit
  | .noNextLine counter jumped target =>
    if jumped then target.all Numeral.isWritable else Numeral.isWritable counter
  | _ => true

/-- A stop is reported as a fault if its words can be written, which fails for a number with too
many digits. -/
def Failure.ofStop (s : Stop) : Failure :=
  if s.cause.isWordable then .fault (.stop s) else .numeral .tooLongToWrite

end MxLang
