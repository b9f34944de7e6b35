import MxLang.Zone.Reader

/-!
# Writing zones

A zone file for a program holds an SOA record and the MX records of its instructions, all owned by
one domain.
-/

namespace MxLang.Zone

open Text

/-- The line of an MX record. -/
def exchangeLine (domain : Text) (r : Record) : Text :=
  domain ++ "\tIN MX\t".toList ++ Numeral.write r.priority ++ ' ' :: r.host ++ ['\n']

/-- The line of the SOA record. -/
def authorityLine (domain serial : Text) : Text :=
  domain ++ "\tIN SOA\t".toList ++ domain ++ " mexico.".toList ++ domain ++ " (".toList ++ serial ++
    " 1h 1h 1h 1h)\n".toList

/-- The text of a zone file. -/
def render (domain serial : Text) (records : List Record) : Text :=
  authorityLine (rooted domain) serial ++ records.flatMap (exchangeLine (rooted domain))

/-- The text of a zone file, if every priority can be written. -/
def render? (domain serial : Text) (records : List Record) : Except Failure Text :=
  if records.all fun r => Numeral.isWritable r.priority then .ok (render domain serial records)
  else .error (.numeral .tooLongToWrite)

/-- An hour of a day. -/
structure Hour where
  year : Nat
  month : Nat
  day : Nat
  hour : Nat

/-- A numeral filled up with zeros to the given width. -/
def padded (width n : Nat) : Text :=
  let digits := Numeral.writeNat n
  List.replicate (width - digits.length) '0' ++ digits

/-- The serial that stands for an hour. -/
def Hour.serial (h : Hour) : Text :=
  padded 4 h.year ++ padded 2 h.month ++ padded 2 h.day ++ padded 2 h.hour

end MxLang.Zone
