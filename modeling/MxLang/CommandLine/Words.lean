import MxLang.CommandLine.Help
import MxLang.Text.Digit
import MxLang.Text.Quoted

/-!
# Words of a command line

Every word is classified before any of them takes effect: a flag, an unknown flag, or a plain word.
A long flag may be cut short as long as one flag only starts so, and may carry its value after an
equals sign; a short flag may carry its value directly.  A word that looks like a negative number,
or holds a space and is no flag, is plain, and so is every word after the first `--`.
-/

namespace MxLang.CommandLine

open Text

/-- The flags of all forms. -/
inductive Flag
  | help
  | version
  | verbose
  | output
  | baseDomain
  | serial
  | domain
  | timeout
  | maxSteps
  | dumpState
deriving DecidableEq, Repr

namespace Flag

/-- How a flag is written. -/
def names : Flag → List Text
  | help => ["-h".toList, "--help".toList]
  | version => ["--version".toList]
  | verbose => ["-v".toList, "--verbose".toList]
  | output => ["-o".toList, "--output".toList]
  | baseDomain => ["--base-domain".toList]
  | serial => ["--serial".toList]
  | domain => ["--domain".toList]
  | timeout => ["--timeout".toList]
  | maxSteps => ["--max-steps".toList]
  | dumpState => ["--dump-state".toList]

/-- Whether the flag has a value. -/
def takesValue : Flag → Bool
  | help | version | verbose | dumpState => false
  | _ => true

/-- The flag as messages name it. -/
def label (f : Flag) : Text :=
  joinWith ['/'] f.names

end Flag

/-- The flags of a form. -/
def Form.flags : Form → List Flag
  | .tool => [.help, .version, .verbose]
  | .compile => [.help, .output, .baseDomain, .serial]
  | .run => [.help, .domain, .timeout, .maxSteps, .dumpState]
  | .exec => [.help, .maxSteps, .dumpState]
  | .disasm => [.help, .domain, .timeout]

/-- The flags of a form under each of their names. -/
def Form.names (f : Form) : List (Text × Flag) :=
  f.flags.flatMap fun flag => flag.names.map fun name => (name, flag)

/-- Why a command line does not lead to a request. -/
inductive Quit
  | help (f : Form)
  | version
  | noCommand
  | misuse (f : Form) (words : Text)
deriving DecidableEq, Repr

/-- A word of the command line. -/
inductive Word
  | plain (t : Text)
  /-- The first `--`. -/
  | divider
  /-- A flag under one of its names, with the value that stands in the same word. -/
  | flag (t : Text) (f : Flag) (name : Text) (attached : Option Text)
  | unknown (t : Text)
deriving DecidableEq, Repr

namespace Word

/-- The word as written. -/
def text : Word → Text
  | plain t => t
  | divider => "--".toList
  | flag t .. => t
  | unknown t => t

end Word

/-- What stands before and after the first equals sign. -/
def splitEquals (t : Text) : Text × Option Text :=
  match t.dropWhile (· != '=') with
  | [] => (t, none)
  | _ :: value => (before '=' t, some value)

/-- Whether the text is a minus sign and a decimal number; one line feed may follow it. -/
def isNegativeNumber : Text → Bool
  | '-' :: t =>
    let t := if endsIn ['\n'] t then t.dropLast else t
    let isDigit := fun c => (decimalValue? c).isSome
    match t.dropWhile isDigit with
    | [] => !t.isEmpty
    | '.' :: places => !places.isEmpty && places.all isDigit
    | _ => false
  | _ => false

/-- The flags that a cut long flag, or a short flag with a value, can stand for. -/
def candidates (f : Form) (t : Text) : List (Text × Flag × Option Text) :=
  if startsWith "--".toList t then
    let (name, value) := splitEquals t
    (f.names.filter fun n => startsWith name n.1).map fun (n, flag) => (n, flag, value)
  else
    f.names.filterMap fun (n, flag) =>
      if n = t.take 2 then some (n, flag, some (t.drop 2))
      else if startsWith t n then some (n, flag, none)
      else none

/-- The flag that is written in full, alone or before an equals sign. -/
def exactFlag? (f : Form) (t : Text) : Option Word :=
  match f.names.lookup t with
  | some flag => some (.flag t flag t none)
  | none =>
    match splitEquals t with
    | (name, some value) =>
      (f.names.lookup name).map fun flag => .flag t flag name (some value)
    | (_, none) => none

/-- Classifies a word before the first `--`. -/
def classify (f : Form) (t : Text) : Except Quit Word :=
  match t with
  | '-' :: _ :: _ =>
    match exactFlag? f t with
    | some w => .ok w
    | none =>
      match candidates f t with
      | [(name, flag, attached)] => .ok (.flag t flag name attached)
      | [] => .ok (if isNegativeNumber t || t.contains ' ' then .plain t else .unknown t)
      | several =>
        .error (.misuse f ("ambiguous option: ".toList ++ t ++ " could match ".toList ++
          joinWith ", ".toList (several.map Prod.fst)))
  | _ => .ok (.plain t)

/-- Classifies the words of a command line. -/
def classifyAll (f : Form) : List Text → Except Quit (List Word)
  | [] => .ok []
  | t :: rest =>
    if t = "--".toList then .ok (.divider :: rest.map .plain)
    else
      match classify f t with
      | .error q => .error q
      | .ok w => (classifyAll f rest).map (w :: ·)

end MxLang.CommandLine
