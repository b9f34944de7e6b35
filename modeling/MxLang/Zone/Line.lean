import MxLang.Instruction
import MxLang.Text.Digit

/-!
# Lines of a zone

One logical line is a directive, a resource record or blank, with blanks and a comment at its end.
The parts of a record are recognised in order, and an optional part that matches is never taken
back: a time to live and a class count as such if a gap follows them, and what comes next has to be
the type.  A line that starts like neither a directive nor a record matches only as far as blanks
and a comment do, so a line that cannot be read is one of which a part is left over.
-/

namespace MxLang.Zone

open Text

/-- A resource record as written; the owner may be relative or empty. -/
structure Entry where
  owner : Text
  ttl : Option Text
  cls : Option Text
  type : Text
  data : List Text
deriving DecidableEq, Repr

/-- What a logical line says. -/
inductive LineContent
  | blank
  | directive (name : Text) (args : List Text)
  | entry (e : Entry)
deriving DecidableEq, Repr

/-- A character of a word. -/
def isWordChar (c : Char) : Bool :=
  !isSpace c && c != ';' && c != '"'

/-- An ASCII letter. -/
def isLetter (c : Char) : Bool :=
  ('a' ≤ c && c ≤ 'z') || ('A' ≤ c && c ≤ 'Z')

/-- An ASCII letter as a capital. -/
def capital (c : Char) : Char :=
  if 'a' ≤ c && c ≤ 'z' then Char.ofNat (c.toNat - 32) else c

/-- The longest run of characters of `p` and what follows it, unless the run is empty. -/
def run? (p : Char → Bool) (t : Text) : Option (Text × Text) :=
  if t.takeWhile p = [] then none else some (t.takeWhile p, t.dropWhile p)

/-- A word and what follows it. -/
def word? (t : Text) : Option (Text × Text) :=
  run? isWordChar t

/-- What follows a gap. -/
def afterGap? (t : Text) : Option Text :=
  (run? isGap t).map Prod.snd

/-- The rest of a quoted string after its opening quote, and what follows it.  A backslash takes
the next character with it, which cannot be a line feed. -/
def quotedRest? : Text → Option (Text × Text)
  | [] => none
  | ['\\'] => none
  | '\\' :: c :: t =>
    if c = '\n' then none else (quotedRest? t).map fun (s, rest) => ('\\' :: c :: s, rest)
  | c :: t =>
    if c = '"' then some (['"'], t)
    else (quotedRest? t).map fun (s, rest) => (c :: s, rest)

/-- A quoted string or a word, and what follows it. -/
def item? : Text → Option (Text × Text)
  | '"' :: t => (quotedRest? t).map fun (s, rest) => ('"' :: s, rest)
  | t => word? t

/-- As many items as there are, each after a gap, and what follows them. -/
def items (item : Text → Option (Text × Text)) (t : Text) : List Text × Text :=
  match (afterGap? t).bind item with
  | none => ([], t)
  | some (s, rest) =>
    if rest.length < t.length then
      let (more, rest) := items item rest
      (s :: more, rest)
    else ([], t)
termination_by t.length

/-- A time to live: digits and at most one unit letter. -/
def ttl? (t : Text) : Option (Text × Text) :=
  match run? isAsciiDigit t with
  | none => none
  | some (digits, c :: rest) =>
    if "smhdwSMHDW".toList.contains c then some (digits ++ [c], rest) else some (digits, c :: rest)
  | some (digits, []) => some (digits, [])

/-- The classes, written in capitals. -/
def classes : List Text :=
  ["IN".toList, "CH".toList, "HS".toList, "CS".toList]

/-- A class and what follows it. -/
def class? (t : Text) : Option (Text × Text) :=
  (classes.find? fun s => startsWith s t).map fun s => (s, t.drop s.length)

/-- A type and what follows it. -/
def type? : Text → Option (Text × Text)
  | c :: t =>
    if isLetter c then
      let p := fun c => isLetter c || isAsciiDigit c
      some (c :: t.takeWhile p, t.dropWhile p)
    else none
  | [] => none

/-- A part followed by a gap, if the text starts so; otherwise the text itself. -/
def optional (part : Text → Option (Text × Text)) (t : Text) : Option Text × Text :=
  match part t with
  | none => (none, t)
  | some (s, rest) =>
    match afterGap? rest with
    | some rest => (some s, rest)
    | none => (none, t)

/-- A directive and what follows it. -/
def directive? : Text → Option (LineContent × Text)
  | '$' :: t =>
    match run? isLetter t with
    | some (name, rest) =>
      let (args, rest) := items word? rest
      some (.directive ('$' :: name.map capital) args, rest)
    | none => none
  | _ => none

/-- A record and what follows it. -/
def entry? (t : Text) : Option (LineContent × Text) :=
  let owner := t.takeWhile isWordChar
  match afterGap? (t.dropWhile isWordChar) with
  | none => none
  | some rest =>
    let (ttl, rest) := optional ttl? rest
    let (cls, rest) := optional class? rest
    match type? rest with
    | none => none
    | some (type, rest) =>
      let (data, rest) := items item? rest
      some (.entry ⟨owner, ttl, cls, type.map capital, data⟩, rest)

/-- What the line says, and what follows it. -/
def content (t : Text) : LineContent × Text :=
  match directive? t with
  | some r => r
  | none =>
    match entry? t with
    | some r => r
    | none => (.blank, t)

/-- What follows blanks and a comment. -/
def afterComment (t : Text) : Text :=
  match t.dropWhile isGap with
  | ';' :: rest => rest.dropWhile (· != '\n')
  | rest => rest

/-- Reads a logical line. -/
def parseLine (t : Text) : Except Mismatch LineContent :=
  let (said, rest) := content t
  match afterComment rest with
  | [] => .ok said
  | left => .error (.incomplete (t.length - left.length))

end MxLang.Zone
