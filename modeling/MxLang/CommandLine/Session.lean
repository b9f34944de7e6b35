import MxLang.CommandLine.Request
import MxLang.Control
import MxLang.Diagnostic
import MxLang.Source
import MxLang.Zone.File
import MxLang.Zone.Writer

/-!
# Sessions

What the tool does with a command line, as a function of its surroundings: the files, the input,
the name server and the time.  `perform` gives the texts on both outputs, the files and the input
afterwards, and the exit status.

The status is 0 after success, 1 for a fault in a program, 2 if a file, a zone or a name server
cannot be used or the tool is misused, 3 if the machine cannot go on, and 130 if the user broke off.
-/

namespace MxLang.CommandLine

open Text

/-- What a session finds. -/
structure Surroundings where
  storage : Storage := []
  /-- The directory from which paths start. -/
  here : Path
  /-- The directory that a tilde names. -/
  home : Path
  input : Input := {}
  /-- Why nothing can be printed. -/
  broken : Option Text := none
  server : Lookup.Server := {}
  hour : Zone.Hour
  /-- The time as logs show it. -/
  clock : Text
  /-- How many instructions a run without a limit may execute before it is given up. -/
  patience : Nat := 0

/-- How a session closes. -/
inductive Close
  | exit (status : Nat)
  /-- A failure that the tool does not handle. -/
  | failed (f : Failure)
  /-- The patience ran out. -/
  | unfinished
deriving DecidableEq, Repr

/-- Something told on the error output. -/
inductive Remark
  | notice (n : Notice)
  | text (t : Text)
deriving DecidableEq, Repr

/-- What was asked of a name server. -/
structure Question where
  domain : Text
  timeout : Setting Lifetime

/-- What a session leaves behind. -/
structure Outcome where
  close : Close
  printed : Text := []
  remarks : List Remark := []
  storage : Storage
  input : Input
  question : Option Question := none

/-- A session that closes without changes. -/
def Surroundings.close (w : Surroundings) (c : Close) (remarks : List Remark) : Outcome :=
  { close := c, remarks, storage := w.storage, input := w.input }

/-- Adds remarks before those of an outcome. -/
def Outcome.after (remarks : List Remark) (o : Outcome) : Outcome :=
  { o with remarks := remarks ++ o.remarks }

/-- The report of a fault. -/
def report (d : Diagnostic) : Remark :=
  .text (d.text ++ ['\n'])

/-- The exit status after a fault of the given kind. -/
def status (k : Kind) : Nat :=
  if Kind.fatalMachine.isA k then 3
  else if Kind.zone.isA k || Kind.lookupFailed.isA k then 2
  else 1

/-- Closes after a failure that ends a command: a failed device and a break are told about, other
failures are passed on. -/
def Surroundings.fail (w : Surroundings) : Failure → Outcome
  | .device reason => w.close (.exit 2) [.notice (.deviceFailed reason)]
  | .interrupted => w.close (.exit 130) [.notice .brokenOff]
  | f => w.close (.failed f) []

/-- Closes after a failure before a program runs: faults are reported. -/
def Surroundings.refuse (w : Surroundings) : Failure → Outcome
  | .fault f => w.close (.exit (status f.kind)) [report f.diagnostic]
  | f => w.fail f

/-! ### Files -/

/-- The path of a file that has to exist. -/
def Surroundings.locate (w : Surroundings) (role name : Text) : Except Outcome Path :=
  match Path.resolve w.here w.home name with
  | .error flaw => .error (w.fail (.path flaw))
  | .ok p =>
    if w.storage.meetsOverlong p then .error (w.fail (.device (StorageError.nameTooLong p).words))
    else if (w.storage.find? p).isSome then .ok p
    else .error (w.close (.exit 2) [.notice (.missingFile role p.text)])

/-- The lines of a source file, or why it cannot be read. -/
def Surroundings.sourceLines (w : Surroundings) (p : Path) : Except Text (List Text) :=
  match w.storage.read p with
  | .error e => .error e.words
  | .ok bytes =>
    match Utf8.decode bytes with
    | .error flaw => .error (flaw.words bytes)
    | .ok t => .ok (splitFeeds (foldReturns t))

/-- Goes on with the path and the lines of a source file. -/
def Surroundings.withSource (w : Surroundings) (name : Text) (told : Path → List Remark)
    (k : Path → List Text → Outcome) : Outcome :=
  match w.locate "mexico source".toList name with
  | .error o => o
  | .ok p =>
    .after (told p)
      (match w.sourceLines p with
        | .error reason => w.close (.exit 2) [.notice (.cannotRead p.text reason)]
        | .ok lines => k p lines)

/-! ### Running -/

/-- The settings of a run. -/
def Surroundings.settings (w : Surroundings) (verbosity : Nat) (t : Tuning) : Settings :=
  { limit := t.maxSteps.get?
    trace := decide (2 ≤ verbosity)
    debug := decide (2 ≤ verbosity)
    patience := w.patience }

/-- What is told first after a run. -/
def endingReport : Ending → List Remark
  | .failed (.fault f) => [report f.diagnostic]
  | _ => []

/-- Closes after a run that is told about. -/
def Surroundings.closeRun (w : Surroundings) (c : Control) : Ending → Outcome
  | .halted => w.close (.exit 0) [.notice (.haltedAt c.counter c.steps)]
  | .failed (.fault f) => w.close (.exit (status f.kind)) []
  | .failed f => w.fail f
  | .unfinished => w.close .unfinished []

/-- Tells about the machine; a number that cannot be written is a failure in place of all that
would follow. -/
def Surroundings.dump (w : Surroundings) (m : Machine) (o : Outcome) : Outcome :=
  match m.dump? with
  | .ok text => o.after [.text (text ++ ['\n'])]
  | .error f => w.fail f

/-- Runs the lines.  A step limit that was given as nothing fails at the first instruction. -/
def Surroundings.runLines (w : Surroundings) (verbosity : Nat) (t : Tuning) (lines : List Line) :
    Control × Ending :=
  let s := w.settings verbosity t
  let m : Machine := { input := w.input, broken := w.broken }
  if t.maxSteps = .void then
    match Control.load lines { machine := m } with
    | (c, .ok ()) => c.report s (.failed (.lacking .stepLimit))
    | (c, .error f) => (c, .failed f)
  else Control.runProgram s m lines

/-- Runs a program. -/
def Surroundings.execute (w : Surroundings) (verbosity : Nat) (t : Tuning) (lines : List Line) :
    Outcome :=
  let (c, ending) := w.runLines verbosity t lines
  let o := w.closeRun c ending
  let o := if t.dumpState then w.dump c.machine o else o
  { o.after (c.journal.reverse.map .notice ++ endingReport ending) with
    printed := c.machine.output
    input := c.machine.input }

/-- Goes on with a program. -/
def Surroundings.withProgram (w : Surroundings) (program : Except Failure (List Line))
    (notices : List Notice) (k : List Line → Outcome) : Outcome :=
  .after (notices.map .notice)
    (match program with
      | .error f => w.refuse f
      | .ok lines => k lines)

/-! ### Commands -/

/-- Hands over the text of a zone: to the output if there is no name or a dash, or else to the file
of that name. -/
def Surroundings.deliver (w : Surroundings) (output : Setting Text) (text : Text) (count : Nat) :
    Outcome :=
  let done := w.close (.exit 0) [.notice (.wroteRecords count)]
  let refused := fun reason => w.close (.exit 2) [.notice (.cannotWrite reason)]
  match output with
  | .void => w.fail (.lacking .fileName)
  | .unset | .given ['-'] =>
    match w.broken with
    | some reason => refused reason
    | none => { done with printed := text }
  | .given name =>
    match Path.resolve w.here w.home name with
    | .error flaw => w.fail (.path flaw)
    | .ok p =>
      match w.storage.write p (Utf8.encode text) with
      | .error e => refused e.words
      | .ok s => { done with storage := s }

/-- The output as the notice about compiling names it. -/
def outputName : Setting Text → Text
  | .unset | .void | .given [] => "<stdout>".toList
  | .given name => name

/-- The serial of a zone: the hour if none is set. -/
def Surroundings.serialText (w : Surroundings) : Setting Text → Text
  | .unset => w.hour.serial
  | .given serial => serial
  | .void => "[]".toList

/-- The text of the zone of a program. -/
def Surroundings.zoneText (w : Surroundings) (baseDomain serial : Setting Text)
    (records : List Record) : Except Failure Text :=
  if baseDomain = .void then .error (.lacking .domainName)
  else
    Zone.render? (baseDomain.get?.getD Host.defaultNamespace) (w.serialText serial) records

/-- Compiles a source file to a zone. -/
def Surroundings.compile (w : Surroundings) (source : Text)
    (output baseDomain serial : Setting Text) : Outcome :=
  w.withSource source (fun p => [.notice (.compilingFile p.text (outputName output))])
    fun p lines =>
      .after ((Source.notices Host.defaultNamespace lines).map .notice)
        (match Source.compile Host.defaultNamespace lines with
          | .error (.fault f) =>
            w.close (.exit (status f.kind))
              [report (f.diagnostic.relocate { file := p.text, line := f.location.line })]
          | .error f => w.fail f
          | .ok records =>
            match w.zoneText baseDomain serial records with
            | .error f => w.fail f
            | .ok text => w.deliver output text records.length)

/-- Goes on with the program of an origin: that of a zone file, or without one that of a domain as
the name server knows it. -/
def Surroundings.withOrigin (w : Surroundings) (o : Origin) (k : List Line → Outcome) : Outcome :=
  let ns := Host.defaultNamespace
  let domain := o.domain.get?.getD []
  match o.zoneFile.getD [], domain with
  | [], [] => w.close (.exit 2) [.notice .nothingToResolve]
  | [], _ =>
    let answer := w.server.answer domain
    { w.withProgram (Lookup.program ns domain answer) (Lookup.notices ns domain [] answer) k with
      question := some ⟨domain, o.timeout⟩ }
  | name, _ =>
    match w.locate "zone file".toList name with
    | .error o => o
    | .ok p =>
      w.withProgram (Zone.program ns w.storage p domain)
        (Zone.programNotices ns w.storage p domain) k

/-- Runs the program of a source file. -/
def Surroundings.exec (w : Surroundings) (verbosity : Nat) (source : Text) (t : Tuning) : Outcome :=
  let ns := Host.defaultNamespace
  w.withSource source (fun _ => []) fun _ lines =>
    .after ((Source.notices ns lines).map .notice)
      (match Source.compile ns lines with
        | .error f => w.refuse f
        | .ok records =>
          w.withProgram (Program.ofRecords ns records) (Program.notices ns records)
            (w.execute verbosity t))

/-- What is printed of a listing, and what stops it. -/
def listing (broken : Option Text) : List Line → Text × Option Failure
  | [] => ([], none)
  | l :: rest =>
    match l.listing?, broken with
    | .error f, _ => ([], some f)
    | .ok _, some reason => ([], some (.device reason))
    | .ok text, none =>
      let (printed, stopped) := listing broken rest
      (text ++ '\n' :: printed, stopped)

/-- Prints the listing of a program. -/
def Surroundings.list (w : Surroundings) (lines : List Line) : Outcome :=
  let (printed, stopped) := listing w.broken lines
  let o :=
    match stopped with
    | none => w.close (.exit 0) []
    | some f => w.fail f
  { o with printed }

/-- Carries out a request. -/
def Surroundings.carryOut (w : Surroundings) (verbosity : Nat) : Request → Outcome
  | .compile source output baseDomain serial => w.compile source output baseDomain serial
  | .run origin t => w.withOrigin origin (w.execute verbosity t)
  | .exec source t => w.exec verbosity source t
  | .disasm origin => w.withOrigin origin w.list

/-! ### The whole session -/

/-- The least level of the notices that are told. -/
def leastLevel : (verbosity : Nat) → Level
  | 0 => .warning
  | 1 => .info
  | _ => .debug

/-- Whether a remark is told. -/
def Remark.isTold (l : Level) : Remark → Bool
  | .notice n => decide (l.rank ≤ n.level.rank)
  | .text _ => true

/-- A remark as the error output shows it. -/
def Remark.line (clock : Text) : Remark → Text
  | .text t => t
  | .notice n =>
    clock ++ " [".toList ++ (n.level.name ++ List.replicate 5 ' ').take 5 ++ "] ".toList ++
      n.speaker ++ ": ".toList ++ n.words ++ ['\n']

/-- What the error output shows. -/
def Outcome.told (clock : Text) (o : Outcome) : Text :=
  o.remarks.flatMap (Remark.line clock)

/-- Prints a text and closes; the tool does not handle an output that fails here. -/
def Surroundings.display (w : Surroundings) (text : Text) : Outcome :=
  match w.broken with
  | some reason => w.close (.failed (.device reason)) []
  | none => { w.close (.exit 0) [] with printed := text }

/-- Closes without a request. -/
def Surroundings.quit (w : Surroundings) : Quit → Outcome
  | .help f => w.display f.help
  | .version => w.display versionText
  | .noCommand => w.close (.exit 2) [.text Form.tool.help]
  | .misuse f words =>
    w.close (.exit 2) [.text (f.usage ++ f.title ++ ": error: ".toList ++ words ++ ['\n'])]

/-- Does what a command line asks for. -/
def Surroundings.perform (w : Surroundings) (line : List Text) : Outcome :=
  match read line with
  | .error q => w.quit q
  | .ok call =>
    let o := w.carryOut call.verbosity call.request
    { o with remarks := o.remarks.filter (Remark.isTold (leastLevel call.verbosity)) }

end MxLang.CommandLine
