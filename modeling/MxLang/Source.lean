import MxLang.Notice
import MxLang.Text.Lines

/-!
# Sources

A source is a list of lines of assembly.  Comments, empty lines and blanks around a line are
dropped; a line that ends in a colon declares a label, and every other line is an instruction.
Instructions are numbered from zero, and a label stands for the number of the instruction after its
last declaration, so that a `push` can name a label declared further down.  Compiling gives one
record for each instruction.
-/

namespace MxLang

open Text

/-- A line of a source with its number, counted from one. -/
structure SourceLine where
  number : Nat
  text : Text
deriving DecidableEq, Repr

/-- An instruction with its priority. -/
structure Numbered where
  priority : Int
  source : SourceLine
deriving DecidableEq, Repr

/-- The labels and what they stand for, each name once. -/
abbrev Labels := List (Text × Int)

/-- Lets a name stand for a value instead of what it stood for. -/
def Labels.bind (name : Text) (value : Int) : Labels → Labels
  | [] => [(name, value)]
  | (n, v) :: rest =>
    if n = name then (n, value) :: rest else (n, v) :: Labels.bind name value rest

namespace Source

/-- The blanks around a line of assembly. -/
def isMargin (c : Char) : Bool :=
  c = ' ' || c = '\t' || c = '\r' || c = '\n'

/-- A line is left out if nothing or a comment is on it. -/
def isInert (t : Text) : Bool :=
  t.isEmpty || startsWith ['#'] t || startsWith [';'] t || startsWith ['/', '/'] t

/-- The lines that say something, without the blanks around them. -/
def clean (lines : List Text) : List SourceLine :=
  (lines.mapIdx fun i t => ⟨i + 1, trim isMargin t⟩).filter fun l => !isInert l.text

/-- The name that a line declares as a label. -/
def label? (l : SourceLine) : Option Text :=
  if endsIn [':'] l.text then some l.text.dropLast else none

/-- The instructions, numbered from zero. -/
def instructions (lines : List SourceLine) : List Numbered :=
  (lines.filter fun l => (label? l).isNone).mapIdx fun i l => ⟨i, l⟩

/-- How far the labels of a source have been collected. -/
structure Labelling where
  /-- The instructions met so far. -/
  count : Nat := 0
  labels : Labels := []
  /-- The names declared again, the latest first. -/
  redeclared : List Notice := []

/-- Takes one more line into account. -/
def Labelling.next (s : Labelling) (l : SourceLine) : Labelling :=
  match label? l with
  | none => { s with count := s.count + 1 }
  | some name =>
    { s with
      labels := s.labels.bind name s.count
      redeclared :=
        match s.labels.lookup name with
        | some was => .labelRedeclared l.number name s.count was :: s.redeclared
        | none => s.redeclared }

/-- Collects the labels of a source. -/
def labelling (lines : List SourceLine) : Labelling :=
  lines.foldl Labelling.next {}

/-- What the labels stand for. -/
def labels (lines : List SourceLine) : Labels :=
  (labelling lines).labels

/-- The value of the operand of a push: that of the label if it is one, or else that of the
literal. -/
def operandValue (labels : Labels) (operand : Text) : Except Failure (Option Int) :=
  match labels.lookup operand with
  | some value => .ok (some value)
  | none => (Numeral.readLiteral operand).mapError .numeral

/-- The words that become hosts as they are.  `push` is not among them, since its operand may be a
label. -/
def passThrough : List Text :=
  ["left".toList, "right".toList, "pusht".toList, "pop".toList, "dup".toList, "del".toList,
    "eq".toList, "not".toList, "gt".toList, "lt".toList, "add".toList, "sub".toList,
    "mult".toList, "div".toList, "mod".toList, "read".toList, "print".toList, "jmp".toList,
    "jmpc".toList]

/-- The record of an instruction. -/
def assemble (labels : Labels) (ns : Text) (n : Numbered) : Except Failure Record :=
  match Instruction.parse n.source.text with
  | .error m => .error (.mismatch m)
  | .ok ⟨opcode, none⟩ =>
    if opcode ∈ passThrough then .ok ⟨n.priority, Host.encode ns opcode⟩
    else .error (.fault (.unrecognizedInstruction n.source.number n.source.text))
  | .ok ⟨_, some operand⟩ =>
    match operandValue labels operand with
    | .error f => .error f
    | .ok none =>
      .error (.fault (.unresolvableOperand n.source.number n.source.text operand))
    | .ok (some value) =>
      if Numeral.isWritable value then
        .ok ⟨n.priority, Host.encode ns (Instruction.pushWord ++ ' ' :: Numeral.write value)⟩
      else .error (.numeral .tooLongToWrite)

/-- The records of the instructions, up to the first one that cannot be assembled. -/
def assembleAll (labels : Labels) (ns : Text) (code : List Numbered) :
    Except Failure (List Record) :=
  code.mapM (assemble labels ns)

/-- How many instructions the priorities of records can number. -/
def capacity : Nat := 65536

/-- The records of a source. -/
def compile (ns : Text) (lines : List Text) : Except Failure (List Record) :=
  let cleaned := clean lines
  let code := instructions cleaned
  if capacity < code.length then .error (.fault (.programTooLarge code.length capacity))
  else assembleAll (labels cleaned) ns code

/-- The notices about compiling a source. -/
def notices (ns : Text) (lines : List Text) : List Notice :=
  let cleaned := clean lines
  let code := instructions cleaned
  let s := labelling cleaned
  s.redeclared.reverse ++
    if capacity < code.length then []
    else
      .compiling code.length s.labels.length ::
        match assembleAll s.labels ns code with
        | .ok records => [.compiled records.length]
        | .error _ => []

/-- The records of a source given as one text. -/
def compileText (ns t : Text) : Except Failure (List Record) :=
  compile ns (splitFeeds t)

end Source

end MxLang
