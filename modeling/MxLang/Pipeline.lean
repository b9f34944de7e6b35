import MxLang.Source
import MxLang.Zone.Reader
import MxLang.Zone.Writer

/-!
# From source to program

A source is compiled to records, the records are handed over, and the program is read back from
them.  They are handed over as they are, or written to a zone and read from it.
-/

namespace MxLang

/-- How records are handed over. -/
inductive Route
  | direct
  /-- Through the zone of an owner, from which the records of a domain are read. -/
  | zone (owner : Text) (domain : Option Text)

/-- The serial of a zone that is read at once. -/
def Route.serial : Text := ['1']

/-- The records at the end of the route. -/
def Route.carry : Route → List Record → Except Failure (List Record)
  | .direct, records => .ok records
  | .zone owner domain, records =>
    match Zone.render? owner Route.serial records with
    | .ok text => Zone.records domain [] text
    | .error f => .error f

/-- The notices about handing records over. -/
def Route.notices (r : Route) (records : List Record) : List Notice :=
  match r with
  | .direct => []
  | .zone .. => Zone.readNotices (r.carry records)

namespace Pipeline

/-- The program of a source. -/
def program (ns : Text) (r : Route) (lines : List Text) : Except Failure (List Line) :=
  match Source.compile ns lines with
  | .error f => .error f
  | .ok records =>
    match r.carry records with
    | .error f => .error f
    | .ok records => Program.ofRecords ns records

/-- The notices on the way from a source to its program. -/
def notices (ns : Text) (r : Route) (lines : List Text) : List Notice :=
  Source.notices ns lines ++
    match Source.compile ns lines with
    | .error _ => []
    | .ok records =>
      r.notices records ++
        match r.carry records with
        | .error _ => []
        | .ok records => Program.notices ns records

end Pipeline

end MxLang
