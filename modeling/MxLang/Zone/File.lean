import MxLang.Lookup
import MxLang.Storage
import MxLang.Zone.Reader

/-!
# Zone files as sources of records

A zone file answers for a domain with the records that the domain owns, and with all its records
for the empty domain.  The file is read again for every question.
-/

namespace MxLang.Zone

open Text

/-- The records that a domain has in a zone file. -/
def fileRecords (s : Storage) (p : Path) (domain : Text) : Except Failure (List Record) :=
  match s.read p with
  | .error e => .error (.device e.words)
  | .ok bytes => recordsOfBytes (domain? domain) p.text bytes

/-- The answer of a zone file. -/
def answer (s : Storage) (p : Path) (domain : Text) : Lookup.Answer :=
  (fileRecords s p domain).mapError .ofFailure

/-- The program that a domain has in a zone file. -/
def program (ns : Text) (s : Storage) (p : Path) (domain : Text) : Except Failure (List Line) :=
  Lookup.program ns domain (answer s p domain)

/-- The notices about looking up a program in a zone file. -/
def programNotices (ns : Text) (s : Storage) (p : Path) (domain : Text) : List Notice :=
  Lookup.notices ns domain (readNotices (fileRecords s p domain)) (answer s p domain)

/-- A zone file as a source of records. -/
def description (p : Path) : Text :=
  "ZoneFileLookup(".toList ++ quote p.text ++ ")".toList

end MxLang.Zone
