import MxLang.Notice
import MxLang.Text.LowerCase
import MxLang.Zone.Line
import MxLang.Zone.Logical

/-!
# Reading zones

The MX records of a zone, in order.  An owner without a final dot is completed with the current
origin, `@` is the origin itself, and an empty owner repeats that of the record before it, of
whatever type.  With a domain, only the records it owns are taken, names being compared in lower
case; the data of other records are not looked at.
-/

namespace MxLang.Zone

open Text

/-- The name with a final dot. -/
def rooted (name : Text) : Text :=
  if endsIn ['.'] name then name else name ++ ['.']

/-- What later lines depend on. -/
structure Scope where
  origin : Option Text := none
  owner : Text := []
deriving DecidableEq, Repr

/-- A name without a final dot is completed with the origin. -/
def Scope.complete (s : Scope) (name : Text) : Text :=
  match s.origin with
  | some origin => if endsIn ['.'] name then name else name ++ '.' :: origin
  | none => name

/-- The full name of an owner. -/
def Scope.ownerOf (s : Scope) (owner : Text) : Text :=
  if owner = [] then s.owner
  else if owner = ['@'] then s.origin.getD []
  else s.complete owner

/-- The MX record with the given data. -/
def exchange (s : Scope) (l : Logical) (file : Text) : List Text → Except Failure Record
  | [preference, host] =>
    if !preference.isEmpty && preference.all isAnyDigit then
      match Numeral.readPreference preference with
      | .ok priority => .ok ⟨priority, s.complete host⟩
      | .error e => .error (.numeral e)
    else .error (.fault (.zone .badExchange l.number l.text file))
  | _ => .error (.fault (.zone .badExchange l.number l.text file))

/-- How far a zone has been read. -/
structure Reading where
  scope : Scope := {}
  /-- The records so far, the latest first. -/
  records : List Record := []

/-- Whether records of the owner are wanted. -/
def isWanted (domain : Option Text) (owner : Text) : Bool :=
  match domain with
  | some d => lower owner == lower (rooted d)
  | none => true

/-- Reads one logical line. -/
def Reading.next (domain : Option Text) (file : Text) (r : Reading) (l : Logical) :
    Except Failure Reading :=
  match parseLine l.text with
  | .error _ => .error (.fault (.zone (.unreadable l.text) l.number l.text file))
  | .ok .blank => .ok r
  | .ok (.directive name args) =>
    match args with
    | origin :: _ =>
      if name = "$ORIGIN".toList then
        .ok { r with scope := { r.scope with origin := some (rooted origin) } }
      else .ok r
    | [] => .ok r
  | .ok (.entry e) =>
    let scope := { r.scope with owner := r.scope.ownerOf e.owner }
    if e.type = "MX".toList && isWanted domain scope.owner then
      match exchange scope l file e.data with
      | .ok record => .ok ⟨scope, record :: r.records⟩
      | .error f => .error f
    else .ok { r with scope }

/-- The MX records of a zone, those of the domain only if one is given. -/
def records (domain : Option Text) (file t : Text) : Except Failure (List Record) :=
  match (logicalLines t).foldlM (Reading.next domain file) {} with
  | .error f => .error f
  | .ok r =>
    match unclosed? t with
    | some number => .error (.fault (.zone .unbalanced number [] []))
    | none => .ok r.records.reverse

/-- A domain that names nothing selects every owner. -/
def domain? (domain : Text) : Option Text :=
  if domain = [] then none else some domain

/-- The MX records in the bytes of a zone file. -/
def recordsOfBytes (domain : Option Text) (file : Text) (bytes : List UInt8) :
    Except Failure (List Record) :=
  match Utf8.decode bytes with
  | .ok t => records domain file t
  | .error flaw =>
    let line := (bytes.take flaw.start).count 10 + 1
    .error (.fault (.zone (.notUtf8 flaw.reason flaw.start) line [] file))

/-- The notices about reading a zone. -/
def readNotices : Except Failure (List Record) → List Notice
  | .ok records => [.zoneRead records.length]
  | .error _ => []

end MxLang.Zone
