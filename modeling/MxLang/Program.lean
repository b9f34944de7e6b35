import MxLang.Fault
import MxLang.Host

/-!
# Programs and their records

A program is a list of lines, each with its priority, which is the line's number in the sense of
the language.  It travels as mail exchanger records.  `ofRecords` takes the records whose hosts lie
below the namespace, in ascending priority, and refuses two of one priority.
-/

namespace MxLang

/-- An instruction with its priority. -/
structure Line where
  priority : Int
  code : Text
deriving DecidableEq, Repr

/-- A mail exchanger record. -/
structure Record where
  priority : Int
  host : Text
deriving DecidableEq, Repr

/-- The code up to its first space. -/
def Line.opcode (l : Line) : Text :=
  Text.before ' ' l.code

/-- A line as listings show it. -/
def Line.listing (l : Line) : Text :=
  Numeral.write l.priority ++ ": ".toList ++ l.code

/-- The listing of a line, if its priority can be written. -/
def Line.listing? (l : Line) : Except Failure Text :=
  if Numeral.isWritable l.priority then .ok l.listing else .error (.numeral .tooLongToWrite)

/-- The line that a record holds. -/
def Record.line (ns : Text) (r : Record) : Line :=
  ⟨r.priority, Host.decode ns r.host⟩

namespace Program

/-- The lines in ascending priority; lines of one priority keep their order. -/
def sort (lines : List Line) : List Line :=
  lines.mergeSort fun a b => decide (a.priority ≤ b.priority)

/-- The first two neighbours of one priority. -/
def clash? : List Line → Option (Line × Line)
  | a :: b :: rest => if a.priority = b.priority then some (a, b) else clash? (b :: rest)
  | _ => none

/-- The lines in the records below a namespace, sorted. -/
def linesBelow (ns : Text) (records : List Record) : List Line :=
  sort ((records.filter fun r => Host.isBelow ns r.host).map (Record.line ns))

/-- The program in the records below a namespace. -/
def ofRecords (ns : Text) (records : List Record) : Except Failure (List Line) :=
  let lines := linesBelow ns records
  match clash? lines with
  | some (a, b) =>
    if Numeral.isWritable a.priority then
      .error (.fault (.duplicatePriority a.priority [a.code, b.code]))
    else .error (.numeral .tooLongToWrite)
  | none => .ok lines

end Program

end MxLang
