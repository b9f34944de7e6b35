import MxLang.Fault

/-!
# Diagnostics

A diagnostic is a fault in the form in which it is reported: a code, a message, the place it points
at, a severity, a hint and the data of the fault as named fields.  Kinds of diagnostics form a
tree; whoever handles a kind handles every kind below it.
-/

namespace MxLang

open Text

/-- How bad a condition is: a fatal one means that the program is broken. -/
inductive Severity
  | fatal
  | error
deriving DecidableEq, Repr

/-- The stage of the toolchain that reports. -/
inductive Phase
  | compile
  | decode
  | transport
  | runtime
deriving DecidableEq, Repr

/-- A class of conditions to filter by. -/
inductive Category
  | unrecognizedInstruction
  | unresolvableOperand
  | programTooLarge
  | duplicatePriority
  | lookupFailure
  | malformedZone
  | emptyProgram
  | unknownOpcode
  | invalidOperand
  | inputFailure
  | stepLimit
  | noNextInstruction
  | stackUnderflow
deriving DecidableEq, Repr

/-- The word for a severity. -/
def Severity.name : Severity → Text
  | fatal => "fatal".toList
  | error => "error".toList

/-- The word for a phase. -/
def Phase.name : Phase → Text
  | compile => "compile".toList
  | decode => "decode".toList
  | transport => "transport".toList
  | runtime => "runtime".toList

namespace Category

/-- Every category once, in the order of their numbers. -/
def all : List Category :=
  [unrecognizedInstruction, unresolvableOperand, programTooLarge, duplicatePriority, lookupFailure,
    malformedZone, emptyProgram, unknownOpcode, invalidOperand, inputFailure, stepLimit,
    noNextInstruction, stackUnderflow]

/-- The word for a category. -/
def name : Category → Text
  | unrecognizedInstruction => "UNRECOGNIZED_INSTRUCTION".toList
  | unresolvableOperand => "UNRESOLVABLE_OPERAND".toList
  | programTooLarge => "PROGRAM_TOO_LARGE".toList
  | duplicatePriority => "DUPLICATE_PRIORITY".toList
  | lookupFailure => "LOOKUP_FAILURE".toList
  | malformedZone => "MALFORMED_ZONE".toList
  | emptyProgram => "EMPTY_PROGRAM".toList
  | unknownOpcode => "UNKNOWN_OPCODE".toList
  | invalidOperand => "INVALID_OPERAND".toList
  | inputFailure => "INPUT_FAILURE".toList
  | stepLimit => "STEP_LIMIT".toList
  | noNextInstruction => "NO_NEXT_INSTRUCTION".toList
  | stackUnderflow => "STACK_UNDERFLOW".toList

/-- The number of a category, counted from one. -/
def number (c : Category) : Nat :=
  all.idxOf c + 1

end Category

/-- A structured code such as `MEX-1000`. -/
structure Code where
  family : Text := "MEX".toList
  number : Int
  category : Category
  phase : Phase
  severity : Severity := .error
deriving DecidableEq, Repr

namespace Code

/-- The numeral filled up with zeros to four characters, the sign included. -/
def fourDigits (n : Int) : Text :=
  let digits := Numeral.writeNat n.natAbs
  if n < 0 then '-' :: List.replicate (3 - digits.length) '0' ++ digits
  else List.replicate (4 - digits.length) '0' ++ digits

/-- The code as reports show it. -/
def text (c : Code) : Text :=
  c.family ++ '-' :: fourDigits c.number

/-- The code with its category. -/
def description (c : Code) : Text :=
  "ErrorCode(".toList ++ quote c.text ++ ", ".toList ++ c.category.name ++ ")".toList

/-- Codes are the same if family and number are. -/
def same (a b : Code) : Bool :=
  a.family == b.family && a.number == b.number

def unrecognizedInstruction : Code :=
  { number := 1000, category := .unrecognizedInstruction, phase := .compile }

def unresolvablePushOperand : Code :=
  { number := 1001, category := .unresolvableOperand, phase := .compile }

def programTooLarge : Code :=
  { number := 1002, category := .programTooLarge, phase := .compile }

def duplicatePriority : Code :=
  { number := 2000, category := .duplicatePriority, phase := .decode }

def lookupFailed : Code :=
  { number := 2001, category := .lookupFailure, phase := .decode }

def malformedZone : Code :=
  { number := 3000, category := .malformedZone, phase := .transport }

def emptyProgram : Code :=
  { number := 5000, category := .emptyProgram, phase := .runtime }

def unknownOpcode : Code :=
  { number := 5001, category := .unknownOpcode, phase := .runtime }

def invalidPushOperand : Code :=
  { number := 5002, category := .invalidOperand, phase := .runtime }

def invalidOperand : Code :=
  { number := 5003, category := .invalidOperand, phase := .runtime }

def divisionByZero : Code :=
  { number := 5004, category := .invalidOperand, phase := .runtime }

def inputExhausted : Code :=
  { number := 5005, category := .inputFailure, phase := .runtime }

def inputError : Code :=
  { number := 5006, category := .inputFailure, phase := .runtime }

def stepLimitExceeded : Code :=
  { number := 5007, category := .stepLimit, phase := .runtime }

def noNextInstruction : Code :=
  { number := 5008, category := .noNextInstruction, phase := .runtime }

def stackUnderflow : Code :=
  { number := 5009, category := .stackUnderflow, phase := .runtime, severity := .fatal }

/-- The codes with their names, in the order of the names. -/
def table : List (Text × Code) :=
  [("DIVISION_BY_ZERO".toList, divisionByZero),
    ("DUPLICATE_PRIORITY".toList, duplicatePriority),
    ("EMPTY_PROGRAM".toList, emptyProgram),
    ("INPUT_ERROR".toList, inputError),
    ("INPUT_EXHAUSTED".toList, inputExhausted),
    ("INVALID_OPERAND".toList, invalidOperand),
    ("INVALID_PUSH_OPERAND".toList, invalidPushOperand),
    ("LOOKUP_FAILED".toList, lookupFailed),
    ("MALFORMED_ZONE".toList, malformedZone),
    ("NO_NEXT_INSTRUCTION".toList, noNextInstruction),
    ("PROGRAM_TOO_LARGE".toList, programTooLarge),
    ("STACK_UNDERFLOW".toList, stackUnderflow),
    ("STEP_LIMIT_EXCEEDED".toList, stepLimitExceeded),
    ("UNKNOWN_OPCODE".toList, unknownOpcode),
    ("UNRECOGNIZED_INSTRUCTION".toList, unrecognizedInstruction),
    ("UNRESOLVABLE_PUSH_OPERAND".toList, unresolvablePushOperand)]

/-- The code with the given name. -/
def named? (name : Text) : Option Code :=
  table.lookup name

end Code

/-- A place: a line of a file, or the priority of an instruction. -/
structure Location where
  file : Text := []
  line : Int := 0
  priority : Option Int := none
deriving DecidableEq, Repr

/-- The known parts of the place, with colons between them. -/
def Location.text (l : Location) : Text :=
  if l.file = [] ∧ l.line = 0 ∧ l.priority = none then "<unknown location>".toList
  else
    joinWith [':']
      ((if l.file = [] then [] else [l.file]) ++
        (if 0 < l.line then [Numeral.write l.line] else []) ++
        (match l.priority with
          | some p => ["priority ".toList ++ Numeral.write p]
          | none => []))

/-- The value of a field. -/
inductive Field
  | absent
  | flag (b : Bool)
  | number (n : Int)
  | text (t : Text)
  | list (items : List Field)
  | record (entries : List (Text × Field))
deriving Inhabited

/-- A number that may be absent, as a field. -/
def Field.ofInt? : Option Int → Field
  | some n => .number n
  | none => .absent

/-- The kinds of diagnostics. -/
inductive Kind
  | general
  | compile
  | malformedSource
  | unrecognizedInstruction
  | unresolvableOperand
  | programTooLarge
  | decode
  | duplicatePriority
  | lookupFailed
  | zone
  | execution
  | emptyProgram
  | unknownOpcode
  | invalidPush
  | invalidOperand
  | divisionByZero
  | inputExhausted
  | inputFailed
  | stepLimit
  | noNextLine
  | fatalMachine
  | stackUnderflow
deriving DecidableEq, Repr

namespace Kind

/-- The kind and those above it, up to the most general one. -/
def lineage : Kind → List Kind
  | general => [general]
  | compile => [compile, general]
  | malformedSource => [malformedSource, compile, general]
  | unrecognizedInstruction => [unrecognizedInstruction, malformedSource, compile, general]
  | unresolvableOperand => [unresolvableOperand, malformedSource, compile, general]
  | programTooLarge => [programTooLarge, malformedSource, compile, general]
  | decode => [decode, general]
  | duplicatePriority => [duplicatePriority, decode, general]
  | lookupFailed => [lookupFailed, decode, general]
  | zone => [zone, general]
  | execution => [execution, general]
  | emptyProgram => [emptyProgram, execution, general]
  | unknownOpcode => [unknownOpcode, execution, general]
  | invalidPush => [invalidPush, execution, general]
  | invalidOperand => [invalidOperand, execution, general]
  | divisionByZero => [divisionByZero, invalidOperand, execution, general]
  | inputExhausted => [inputExhausted, execution, general]
  | inputFailed => [inputFailed, execution, general]
  | stepLimit => [stepLimit, execution, general]
  | noNextLine => [noNextLine, execution, general]
  | fatalMachine => [fatalMachine, execution, general]
  | stackUnderflow => [stackUnderflow, fatalMachine, execution, general]

/-- Whether `k` is `above` or lies below it. -/
def isA (above k : Kind) : Bool :=
  k.lineage.contains above

/-- The code of a diagnostic that is given none. -/
def code : Kind → Code
  | compile | malformedSource | unrecognizedInstruction => .unrecognizedInstruction
  | unresolvableOperand => .unresolvablePushOperand
  | programTooLarge => .programTooLarge
  | decode | duplicatePriority => .duplicatePriority
  | lookupFailed => .lookupFailed
  | zone => .malformedZone
  | general | execution | unknownOpcode | fatalMachine => .unknownOpcode
  | emptyProgram => .emptyProgram
  | invalidPush => .invalidPushOperand
  | invalidOperand => .invalidOperand
  | divisionByZero => .divisionByZero
  | inputExhausted => .inputExhausted
  | inputFailed => .inputError
  | stepLimit => .stepLimitExceeded
  | noNextLine => .noNextInstruction
  | stackUnderflow => .stackUnderflow

end Kind

/-- A condition in the form in which it is reported. -/
structure Diagnostic where
  kind : Kind
  message : Text
  code : Code := kind.code
  location : Location := {}
  severity : Severity := code.severity
  hint : Text := []
  fields : List (Text × Field) := []

namespace Diagnostic

/-- The report: one line, and a second one for the hint. -/
def text (d : Diagnostic) : Text :=
  d.location.text ++ ": ".toList ++ d.severity.name ++ ": ".toList ++ d.message ++ " [".toList ++
    d.code.text ++ "]".toList ++ if d.hint = [] then [] else "\nhint: ".toList ++ d.hint

/-- The diagnostic at another place. -/
def relocate (l : Location) (d : Diagnostic) : Diagnostic :=
  { d with location := l }

/-- What a diagnostic may be given in place of its own, and further fields. -/
structure Details where
  code : Option Code := none
  location : Option Location := none
  severity : Option Severity := none
  hint : Option Text := none
  fields : List (Text × Field) := []

/-- The diagnostic with the given details.  Without a severity of its own it has that of its
code. -/
def detail (x : Details) (d : Diagnostic) : Diagnostic :=
  let code := x.code.getD d.code
  { kind := d.kind
    message := d.message
    code
    location := x.location.getD d.location
    severity := x.severity.getD code.severity
    hint := x.hint.getD d.hint
    fields := d.fields ++ x.fields }

/-- A diagnostic of a running program that has only a message and, as far as they are known, the
opcode and the priority of the instruction. -/
def ofExecution (kind : Kind) (message opcode : Text) (priority : Option Int) : Diagnostic :=
  { kind
    message
    location := { priority }
    fields :=
      [("opcode".toList, .text opcode),
        ("priority".toList, .ofInt? priority)] }

/-- The field of the given name. -/
def field? (name : Text) (d : Diagnostic) : Option Field :=
  d.fields.lookup name

/-- The diagnostic with the value in a field that it has. -/
def setField (name : Text) (value : Field) (d : Diagnostic) : Diagnostic :=
  { d with fields := d.fields.map fun f => if f.1 = name then (f.1, value) else f }

/-- Fills in the running instruction: the opcode if there is none, the priority and with it the
place if there is none. -/
def annotate (opcode : Text) (priority : Int) (d : Diagnostic) : Diagnostic :=
  let d :=
    match d.field? "opcode".toList with
    | some (.text (_ :: _)) => d
    | _ => d.setField "opcode".toList (.text opcode)
  match d.field? "priority".toList with
  | some .absent =>
    (d.setField "priority".toList (.number priority)).relocate { priority := some priority }
  | _ => d

end Diagnostic

namespace StopCause

/-- The kind of diagnostic for a stop. -/
def kind : StopCause → Kind
  | emptyProgram => .emptyProgram
  | unknownOpcode _ => .unknownOpcode
  | invalidPush _ => .invalidPush
  | notBinary _ => .invalidOperand
  | divisionByZero .. => .divisionByZero
  | inputExhausted => .inputExhausted
  | inputFailed _ => .inputFailed
  | stepLimit _ => .stepLimit
  | noNextLine .. => .noNextLine
  | stackUnderflow => .stackUnderflow

/-- The words for a stop. -/
def message : StopCause → Text
  | emptyProgram => "Program contains no instructions".toList
  | unknownOpcode command => "Command not found: ".toList ++ quote command
  | invalidPush operand =>
    "Tried to push non-integer value ".toList ++ quote operand ++ " to the stack".toList
  | notBinary value =>
    "Tried to inverse non-binary integer value ".toList ++ Numeral.write value
  | divisionByZero opcode dividend =>
    "Division by zero (".toList ++ Numeral.write dividend ++ ' ' :: opcode ++ " 0)".toList
  | inputExhausted => "Failed to read character from input: end of stream".toList
  | inputFailed reason => "Failed to read character from input: ".toList ++ reason
  | stepLimit limit => "Execution exceeded ".toList ++ Numeral.write limit ++ " steps".toList
  | noNextLine counter jumped target =>
    if jumped then
      "Jump target ".toList ++
        (match target with
          | some t => Numeral.write t
          | none => "None".toList) ++
        " has no command at or after it".toList
    else "Found no commands after line ".toList ++ Numeral.write counter
  | stackUnderflow => "Tried to pop value from empty stack".toList

/-- The data of a stop. -/
def fields : StopCause → List (Text × Field)
  | invalidPush operand => [("operand".toList, .text operand)]
  | notBinary value => [("value".toList, .number value)]
  | divisionByZero _ dividend =>
    [("value".toList, .number 0), ("dividend".toList, .number dividend)]
  | inputFailed reason => [("reason".toList, .text reason)]
  | stepLimit limit => [("limit".toList, .number limit)]
  | noNextLine counter jumped target =>
    [("program_counter".toList, .number counter), ("jumped".toList, .flag jumped),
      ("target".toList, .ofInt? target)]
  | _ => []

end StopCause

/-- The words for a flaw of a zone. -/
def ZoneFlaw.message : ZoneFlaw → Text
  | unreadable line => "Cannot parse zone line: ".toList ++ quote (strip line)
  | badExchange => "MX record needs a numeric preference and a host".toList
  | unbalanced => "Unbalanced parentheses at end of zone".toList
  | notUtf8 reason offset =>
    "Zone file is not valid UTF-8: ".toList ++ reason.words ++ " at byte ".toList ++
      Numeral.writeNat offset
  | other message => message

/-- The kind of diagnostic for a fault. -/
def Fault.kind : Fault → Kind
  | unrecognizedInstruction .. => .unrecognizedInstruction
  | unresolvableOperand .. => .unresolvableOperand
  | programTooLarge .. => .programTooLarge
  | duplicatePriority .. => .duplicatePriority
  | lookupFailed .. => .lookupFailed
  | zone .. => .zone
  | stop s => s.cause.kind

/-- The words for a fault. -/
def Fault.message : Fault → Text
  | unrecognizedInstruction _ text => "Not a valid command: ".toList ++ quote text
  | unresolvableOperand _ _ operand =>
    "Not a label or an integer constant: ".toList ++ quote operand
  | programTooLarge count limit =>
    "Program has ".toList ++ Numeral.writeNat count ++
      " instructions, MX priorities address at most ".toList ++ Numeral.writeNat limit
  | duplicatePriority priority codes =>
    "Priority ".toList ++ Numeral.write priority ++ " is used by more than one record: ".toList ++
      joinWith ", ".toList (codes.map quote)
  | lookupFailed domain reason =>
    "Failed to resolve ".toList ++ quote domain ++
      if reason = [] then [] else ": ".toList ++ reason
  | zone flaw .. => flaw.message
  | stop s => s.cause.message

/-- The place a fault points at. -/
def Fault.location : Fault → Location
  | unrecognizedInstruction line _ | unresolvableOperand line .. => { line }
  | duplicatePriority priority _ => { priority := some priority }
  | zone _ line _ file => { file, line }
  | stop s => { priority := s.priority }
  | _ => {}

/-- The advice that goes with a fault. -/
def Fault.hint : Fault → Text
  | unresolvableOperand .. =>
    "Declare the label with a trailing ':' or use a base-10 integer".toList
  | _ => []

/-- The data of a fault. -/
def Fault.fields : Fault → List (Text × Field)
  | unrecognizedInstruction line text =>
    [("line".toList, .number line), ("text".toList, .text text)]
  | unresolvableOperand line text operand =>
    [("line".toList, .number line), ("text".toList, .text text),
      ("operand".toList, .text operand)]
  | programTooLarge count limit =>
    [("count".toList, .number count), ("limit".toList, .number limit)]
  | duplicatePriority priority codes =>
    [("priority".toList, .number priority), ("codes".toList, .list (codes.map .text))]
  | lookupFailed domain reason =>
    [("domain".toList, .text domain), ("reason".toList, .text reason)]
  | zone _ line text _ => [("line".toList, .number line), ("text".toList, .text text)]
  | stop s =>
    ("opcode".toList, .text s.opcode) :: ("priority".toList, .ofInt? s.priority) ::
      s.cause.fields

/-- The diagnostic for a fault. -/
def Fault.diagnostic (f : Fault) : Diagnostic :=
  { kind := f.kind
    message := f.message
    location := f.location
    hint := f.hint
    fields := f.fields }

/-- The words for a failure. -/
def Failure.words : Failure → Text
  | .fault f => f.diagnostic.text
  | .mismatch _ => "The text does not match its grammar.".toList
  | .numeral e => e.words
  | .device reason => reason
  | .interrupted => "Interrupted by user.".toList
  | .noLine => "list index out of range".toList
  | .path .nullCharacter => "embedded null byte".toList
  | .path .unknownHome => "Could not determine home directory.".toList
  | .lacking .fileName => "expected str, bytes or os.PathLike object, not list".toList
  | .lacking .domainName => "'list' object has no attribute 'endswith'".toList
  | .lacking .stepLimit => "'>=' not supported between instances of 'int' and 'list'".toList
  | .foreign _ words => words

end MxLang
