import MxLang.Fault
import MxLang.Text.Lines
import MxLang.Text.Quoted

/-!
# Files

A store of files and directories.  A path is a list of names from a directory that is known to
exist, its anchor; writing a file creates the directories on the way to it.
-/

namespace MxLang

open Text

/-- The names from the anchor on; the text of the anchor is empty for the root directory. -/
structure Path where
  anchor : Text
  parts : List Text
deriving DecidableEq, Repr

namespace Path

/-- The path as text. -/
def text (p : Path) : Text :=
  if p.parts = [] then (if p.anchor = [] then ['/'] else p.anchor)
  else p.anchor ++ '/' :: joinWith ['/'] p.parts

/-- The directory a path lies in. -/
def parent (p : Path) : Path :=
  { p with parts := p.parts.dropLast }

/-- Follows one name; two dots go up, but not above the anchor. -/
def follow (p : Path) (name : Text) : Path :=
  if name = ['.', '.'] then p.parent else { p with parts := p.parts ++ [name] }

/-- The path that a text names.  A slash in front starts at the root; a tilde as the first name
starts at `home`, and any other name at `here`.  A longer first name that starts with a tilde
belongs to an unknown user. -/
def resolve (here home : Path) (t : Text) : Except PathFlaw Path :=
  let names := (t.splitOn '/').filter fun n => n ≠ [] ∧ n ≠ ['.']
  let walk := fun (start : Path) (names : List Text) =>
    if t.contains '\x00' then .error .nullCharacter else .ok (names.foldl follow start)
  match t, names with
  | '/' :: _, _ => walk ⟨[], []⟩ names
  | _, ['~'] :: rest => walk home rest
  | _, ('~' :: user) :: _ =>
    if user.contains '\x00' then .error .nullCharacter else .error .unknownHome
  | _, _ => walk here names

/-- The paths above a path, from the anchor down, the path itself excluded. -/
def ancestors (p : Path) : List Path :=
  (List.range p.parts.length).map fun n => { p with parts := p.parts.take n }

end Path

/-- What a path can lead to. -/
inductive Node
  | file (bytes : List UInt8)
  | directory
deriving DecidableEq, Repr

/-- The files and directories that exist, apart from anchors. -/
abbrev Storage := List (Path × Node)

/-- Why a file cannot be read or written. -/
inductive StorageError
  | missing (p : Path)
  | occupied (p : Path)
  | notDirectory (p : Path)
  | isDirectory (p : Path)
  | nameTooLong (p : Path)
deriving DecidableEq, Repr

/-- The words for a storage error. -/
def StorageError.words : StorageError → Text
  | missing p => "[Errno 2] No such file or directory: ".toList ++ quote p.text
  | occupied p => "[Errno 17] File exists: ".toList ++ quote p.text
  | notDirectory p => "[Errno 20] Not a directory: ".toList ++ quote p.text
  | isDirectory p => "[Errno 21] Is a directory: ".toList ++ quote p.text
  | nameTooLong p => "[Errno 36] File name too long: ".toList ++ quote p.text

namespace Storage

/-- What is found at a path. -/
def find? (s : Storage) (p : Path) : Option Node :=
  if p.parts = [] then some .directory else s.lookup p

/-- The greatest number of bytes that a name can have. -/
def nameLimit : Nat := 255

/-- Where the first name of a path stands that is too long. -/
def overlong? (p : Path) : Option Nat :=
  p.parts.findIdx? fun name => decide (nameLimit < (Utf8.encode name).length)

/-- Whether looking for a path meets a directory in which its next name is too long. -/
def meetsOverlong (s : Storage) (p : Path) : Bool :=
  (overlong? p).any fun n => s.find? { p with parts := p.parts.take n } == some .directory

/-- Puts a node at a path in place of what was there. -/
def put (s : Storage) (p : Path) (n : Node) : Storage :=
  (p, n) :: s.filter fun e => e.1 ≠ p

/-- The bytes of a file. -/
def read (s : Storage) (p : Path) : Except StorageError (List UInt8) :=
  match s.find? p with
  | some (.file bytes) => .ok bytes
  | some .directory => .error (.isDirectory p)
  | none => .error (.missing p)

/-- Whether a file is at the path. -/
def isFile (s : Storage) (p : Path) : Bool :=
  match s.find? p with
  | some (.file _) => true
  | _ => false

/-- The store with a directory at the path and at every path above it. -/
def makeDirectory (s : Storage) (p : Path) : Except StorageError Storage :=
  if s.isFile p then .error (.occupied p)
  else if p.ancestors.any s.isFile then .error (.notDirectory p)
  else if s.meetsOverlong p then .error (.nameTooLong p)
  else if let some n := overlong? p then
    .error (.nameTooLong { p with parts := p.parts.take (n + 1) })
  else
    .ok ((p.ancestors ++ [p]).foldl
      (fun s q => if (s.find? q).isNone then s.put q .directory else s) s)

/-- The store with a file of the given bytes at the path. -/
def write (s : Storage) (p : Path) (bytes : List UInt8) : Except StorageError Storage :=
  match s.makeDirectory p.parent with
  | .error e => .error e
  | .ok s =>
    if s.find? p = some .directory then .error (.isDirectory p)
    else if s.meetsOverlong p then .error (.nameTooLong p)
    else .ok (s.put p (.file bytes))

end Storage

/-- The words for bytes that are no text. -/
def Text.Utf8.Flaw.words (f : Text.Utf8.Flaw) (bytes : List UInt8) : Text :=
  (if f.stop = f.start + 1 then
      "'utf-8' codec can't decode byte 0x".toList ++
        hexDigits 2 ((bytes.getD f.start 0).toNat) ++ " in position ".toList ++
        Numeral.writeNat f.start
    else
      "'utf-8' codec can't decode bytes in position ".toList ++ Numeral.writeNat f.start ++
        '-' :: Numeral.writeNat (f.stop - 1)) ++
    ": ".toList ++ f.reason.words

end MxLang
