import MxLang.Notice

/-!
# Looking up programs

A source of records is asked for a domain and answers with records or with a failure.  A reason
that it gives becomes a fault of the lookup; a failure of the toolchain itself is passed on.
-/

namespace MxLang.Lookup

/-- How a source of records fails. -/
inductive Refusal
  /-- It gives a reason. -/
  | reason (words : Text)
  /-- It passes on a failure. -/
  | failure (f : Failure)
deriving DecidableEq, Repr

/-- What a source of records answers. -/
abbrev Answer := Except Refusal (List Record)

/-- A number that cannot be read and a device that fails are reasons of the source; other failures
are passed on. -/
def Refusal.ofFailure : Failure → Refusal
  | .numeral e => .reason e.words
  | .device words => .reason words
  | f => .failure f

/-- What can go wrong while records are fetched. -/
inductive Trouble
  /-- The name server cannot answer. -/
  | server (kind words : Text)
  /-- A device or a value is bad, or something is not found. -/
  | bad (words : Text)
  /-- Nothing is found under a key. -/
  | missingKey (key : Text)
  | fault (f : Fault)
  /-- Anything else. -/
  | foreign (kind words : Text)
deriving DecidableEq, Repr

/-- The refusal that trouble leads to.  Trouble of a name server is a reason only if the source is
known to ask one. -/
def Trouble.refusal (asksServer : Bool) : Trouble → Refusal
  | .server kind words =>
    if asksServer then .reason words else .failure (.foreign kind words)
  | .bad words => .reason words
  | .missingKey key => .reason (Text.quote key)
  | .fault f => .failure (.fault f)
  | .foreign kind words => .failure (.foreign kind words)

/-- A name server: what it answers for each name, or the trouble that it has with every one. -/
structure Server where
  answers : List (Text × List Record) := []
  trouble : Option Trouble := none

/-- The answer of a name server; a name that it does not know has no records. -/
def Server.answer (s : Server) (domain : Text) : Answer :=
  match s.trouble with
  | some t => .error (t.refusal true)
  | none => .ok ((s.answers.lookup domain).getD [])

/-- The program in the answer of a source. -/
def program (ns domain : Text) : Answer → Except Failure (List Line)
  | .ok records => Program.ofRecords ns records
  | .error (.reason words) => .error (.fault (.lookupFailed domain words))
  | .error (.failure f) => .error f

/-- The notices about a lookup; `source` are those of the source itself. -/
def notices (ns domain : Text) (source : List Notice) (answer : Answer) : List Notice :=
  .resolving domain :: source ++
    match answer with
    | .ok records => .foundRecords records.length domain :: Program.notices ns records
    | .error _ => []

end MxLang.Lookup
