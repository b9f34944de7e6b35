import MxLang.CommandLine.Arguments
import MxLang.Lifetime
import MxLang.Numeral

/-!
# Requests

What a command line asks for.  `read` gives the request, or tells why there is none: help or the
version was asked for, no command was named, or the tool was misused.  Words left over are judged
last, those of the tool before those of the command.
-/

namespace MxLang.CommandLine

open Text

/-- What a flag that takes a value was given. -/
inductive Setting (α : Type)
  /-- The flag did not occur. -/
  | unset
  | given (a : α)
  /-- The flag occurred with nothing as its value. -/
  | void
deriving DecidableEq, Repr

namespace Setting

/-- The setting that an occurrence of the flag makes. -/
def ofValue : Option α → Setting α
  | some a => given a
  | none => void

/-- The value, if one was given. -/
def get? : Setting α → Option α
  | given a => some a
  | _ => none

end Setting

/-- How a program is to be run. -/
structure Tuning where
  maxSteps : Setting Int := .unset
  dumpState : Bool := false
deriving DecidableEq, Repr

/-- Where a program is to be found. -/
structure Origin where
  zoneFile : Option Text := none
  domain : Setting Text := .unset
  timeout : Setting Lifetime := .unset

/-- What a command is to do. -/
inductive Request
  | compile (source : Text) (output baseDomain serial : Setting Text)
  | run (origin : Origin) (tuning : Tuning)
  | exec (source : Text) (tuning : Tuning)
  | disasm (origin : Origin)

/-- A request, and how much is to be told about the work. -/
structure Call where
  verbosity : Nat
  request : Request

/-- What the words of a command say. -/
structure Choices where
  /-- The word in the place of the command. -/
  word : Option Text := none
  output : Setting Text := .unset
  baseDomain : Setting Text := .unset
  serial : Setting Text := .unset
  origin : Origin := {}
  tuning : Tuning := {}

/-- The setting that a value makes when it is read; `kind` names what it has to be. -/
def readSetting (read? : Text → Option α) (f : Form) (flag : Flag) (kind : Text) :
    Option Text → Except Quit (Setting α)
  | none => .ok .void
  | some value =>
    match read? value with
    | some a => .ok (.given a)
    | none =>
      .error (flagMisuse f flag ("invalid ".toList ++ kind ++ " value: ".toList ++ quote value))

/-- What a flag says to a command. -/
def Choices.heed (f : Form) (flag : Flag) (value : Option Text) (c : Choices) :
    Except Quit Choices :=
  match flag with
  | .help => .error (.help f)
  | .version => .error .version
  | .verbose => .ok c
  | .output => .ok { c with output := .ofValue value }
  | .baseDomain => .ok { c with baseDomain := .ofValue value }
  | .serial => .ok { c with serial := .ofValue value }
  | .domain => .ok { c with origin := { c.origin with domain := .ofValue value } }
  | .timeout =>
    (readSetting Lifetime.read? f flag "float".toList value).map fun l =>
      { c with origin := { c.origin with timeout := l } }
  | .maxSteps =>
    (readSetting Numeral.readLoose? f flag "int".toList value).map fun n =>
      { c with tuning := { c.tuning with maxSteps := n } }
  | .dumpState => .ok { c with tuning := { c.tuning with dumpState := true } }

/-- The effects of the words of a command; a divider in its place does not count. -/
def Choices.effects (f : Form) : Effects Choices where
  flag := Choices.heed f
  place words c := .ok { c with word := (words.erase "--".toList).head? }

/-- The word of a place that has to be filled. -/
def Choices.source (f : Form) (c : Choices) : Except Quit Text :=
  match c.word with
  | some word => .ok word
  | none => .error (.misuse f "the following arguments are required: SOURCE".toList)

/-- The request of a command. -/
def Choices.request (f : Form) (c : Choices) : Except Quit Request :=
  let origin := { c.origin with zoneFile := c.word }
  match f with
  | .tool => .error .noCommand
  | .compile => (c.source f).map fun s => .compile s c.output c.baseDomain c.serial
  | .run => .ok (.run origin c.tuning)
  | .exec => (c.source f).map fun s => .exec s c.tuning
  | .disasm => .ok (.disasm origin)

/-- What the words of the tool say. -/
structure Summons where
  verbosity : Nat := 0
  request : Option Request := none
  /-- The words left over by the command. -/
  left : List Text := []

/-- What a flag says to the tool. -/
def Summons.heed (flag : Flag) (_ : Option Text) (s : Summons) : Except Quit Summons :=
  match flag with
  | .help => .error (.help .tool)
  | .version => .error .version
  | .verbose => .ok { s with verbosity := s.verbosity + 1 }
  | _ => .ok s

/-- The message about a word that names no command. -/
def unknownCommand (word : Text) : Quit :=
  .misuse .tool ("argument <command>: invalid choice: ".toList ++ quote word ++
    " (choose from ".toList ++ joinWith ", ".toList (Form.commands.map fun f => quote f.word) ++
    ")".toList)

/-- A command with its words. -/
def Summons.command (words : List Text) (s : Summons) : Except Quit Summons :=
  match words with
  | [] => .ok s
  | word :: rest =>
    match Form.commands.find? fun f => f.word = word with
    | none => .error (unknownCommand word)
    | some f => do
      let p ← arguments f (Choices.effects f) {} rest
      let r ← p.state.request f
      pure { s with request := some r, left := p.left }

/-- The effects of the words of the tool. -/
def Summons.effects : Effects Summons where
  flag := Summons.heed
  place := Summons.command

/-- Reads a command line. -/
def read (line : List Text) : Except Quit Call :=
  match arguments .tool Summons.effects {} line with
  | .error q => .error q
  | .ok p =>
    match p.left ++ p.state.left, p.state.request with
    | [], some r => .ok ⟨p.state.verbosity, r⟩
    | [], none => .error .noCommand
    | left, _ =>
      .error (.misuse .tool ("unrecognized arguments: ".toList ++ joinWith [' '] left))

end MxLang.CommandLine
