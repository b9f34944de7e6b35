import MxLang.Program

/-!
# Notices

What the parts of the toolchain say about their work, beside their results.  Every notice has a
level, the part that gives it, and words.
-/

namespace MxLang

/-- How weighty a notice is, in ascending order. -/
inductive Level
  | debug
  | info
  | warning
  | error
deriving DecidableEq, Repr

/-- The place of a level in the order. -/
def Level.rank : Level → Nat
  | debug => 0
  | info => 1
  | warning => 2
  | error => 3

/-- The name of a level. -/
def Level.name : Level → Text
  | debug => "DEBUG".toList
  | info => "INFO".toList
  | warning => "WARNING".toList
  | error => "ERROR".toList

/-- Something said about the work. -/
inductive Notice
  | labelRedeclared (line : Nat) (name : Text) (now was : Int)
  | compiling (instructions labels : Nat)
  | compiled (records : Nat)
  | ignoredRecords (count : Nat) (ns : Text)
  | decodedLines (count : Nat)
  | resolving (domain : Text)
  | foundRecords (count : Nat) (domain : Text)
  | overlongInput
  | tracing (steps : Nat) (line : Line)
  | stateAfter (steps : Nat) (dump : Text)
  | halted (steps : Nat)
  | zoneWritten (domain path : Text)
  | zoneRead (records : Nat)
  | compilingFile (path dest : Text)
  | wroteRecords (count : Nat)
  | haltedAt (counter : Int) (steps : Nat)
  | brokenOff
  | missingFile (role path : Text)
  | cannotRead (path reason : Text)
  | cannotWrite (reason : Text)
  | deviceFailed (reason : Text)
  | nothingToResolve
deriving DecidableEq, Repr

namespace Notice

open Text Numeral

/-- How weighty the notice is. -/
def level : Notice → Level
  | labelRedeclared .. | overlongInput => .warning
  | compiling .. | compiled _ | ignoredRecords .. | decodedLines _ | tracing .. | stateAfter ..
  | zoneRead _ => .debug
  | resolving _ | foundRecords .. | halted _ | zoneWritten .. | compilingFile .. | wroteRecords _
  | haltedAt .. | brokenOff => .info
  | missingFile .. | cannotRead .. | cannotWrite _ | deviceFailed _ | nothingToResolve => .error

/-- The part of the toolchain that gives the notice. -/
def speaker : Notice → Text
  | labelRedeclared .. | compiling .. | compiled _ => "mexico.compiler".toList
  | ignoredRecords .. | decodedLines _ | resolving _ | foundRecords .. => "mexico.resolver".toList
  | overlongInput => "mexico.machine".toList
  | tracing .. | stateAfter .. | halted _ => "mexico.interpreter".toList
  | zoneWritten .. | zoneRead _ => "mexico.zone".toList
  | _ => "mexico".toList

/-- The domain as notices name it; without one all owners are meant. -/
def owners (domain : Text) : Text :=
  if domain.isEmpty then "all owners".toList else domain

/-- The words of the notice. -/
def words : Notice → Text
  | labelRedeclared line name now was =>
    "line ".toList ++ writeNat line ++ ": label ".toList ++ quote name ++
      " redeclared, now bound to ".toList ++ write now ++ " (was ".toList ++ write was ++
      ")".toList
  | compiling instructions labels =>
    "compiling ".toList ++ writeNat instructions ++ " instruction(s), ".toList ++
      writeNat labels ++ " label(s)".toList
  | compiled records => "compiled ".toList ++ writeNat records ++ " codeline(s)".toList
  | ignoredRecords count ns =>
    "ignored ".toList ++ writeNat count ++ " record(s) outside ".toList ++ ns
  | decodedLines count => "decoded ".toList ++ writeNat count ++ " codeline(s)".toList
  | resolving domain => "Resolving ".toList ++ owners domain ++ " for MX records".toList
  | foundRecords count domain =>
    "Found ".toList ++ writeNat count ++ " MX record(s) for ".toList ++ owners domain
  | overlongInput =>
    "Read more than one character - ignoring all but the first character.".toList
  | tracing steps line =>
    "step ".toList ++ writeNat steps ++ ": ".toList ++ line.listing
  | stateAfter steps dump =>
    "machine state after ".toList ++ writeNat steps ++ " step(s):\n".toList ++ dump
  | halted steps => "Program halted after ".toList ++ writeNat steps ++ " step(s)".toList
  | zoneWritten domain path =>
    "wrote zone for ".toList ++ domain ++ " to ".toList ++ path
  | zoneRead records => "read ".toList ++ writeNat records ++ " MX record(s)".toList
  | compilingFile path dest =>
    "Compiling ".toList ++ path ++ " → ".toList ++ dest
  | wroteRecords count => "Wrote ".toList ++ writeNat count ++ " record(s)".toList
  | haltedAt counter steps =>
    "Halted at line ".toList ++ write counter ++ " after ".toList ++ writeNat steps ++
      " step(s)".toList
  | brokenOff => "Interrupted by user.".toList
  | missingFile role path => role ++ " not found: ".toList ++ path
  | cannotRead path reason => "Cannot read ".toList ++ path ++ ": ".toList ++ reason
  | cannotWrite reason => "Cannot write zone: ".toList ++ reason
  | deviceFailed reason => "I/O failure: ".toList ++ reason
  | nothingToResolve => "Give a zone file or a --domain to resolve.".toList

/-- The notices of at least the given level. -/
def atLeast (l : Level) (notices : List Notice) : List Notice :=
  notices.filter fun n => l.rank ≤ n.level.rank

end Notice

/-- The notices about the records of a program. -/
def Program.notices (ns : Text) (records : List Record) : List Notice :=
  let skipped := records.countP fun r => !Host.isBelow ns r.host
  (if skipped = 0 then [] else [.ignoredRecords skipped ns]) ++
    match Program.ofRecords ns records with
    | .ok lines => [.decodedLines lines.length]
    | .error _ => []

end MxLang
