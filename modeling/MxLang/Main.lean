import MxLang.CommandLine.Session
import Std.Time.Format

/-!
# The program

Reads the files that the command line names, the input and the clock, lets the session decide, and
hands its texts and files to the world.  Name servers cannot be asked from here.
-/

namespace MxLang.CommandLine

open Text

/-- The files that a request names. -/
def Request.files : Request → List Text
  | .compile source output .. => source :: output.get?.toList
  | .run origin _ | .disasm origin => origin.zoneFile.toList
  | .exec source _ => [source]

/-- Whether a request runs a program, which may read the input. -/
def Request.readsInput : Request → Bool
  | .run .. | .exec .. => true
  | _ => false

/-- The path of a directory given in full. -/
def directoryPath (name : String) : Path :=
  ⟨[], (name.toList.splitOn '/').filter (· ≠ [])⟩

/-- What an open file holds; a directory can be opened, but not read. -/
def readNode (handle : IO.FS.Handle) : IO Node := do
  try return .file (← handle.readBinToEnd).toList
  catch _ => return .directory

/-- What stands at a path. -/
def fetchNode (p : Path) : IO (Option Node) := do
  try return some (← readNode (← IO.FS.Handle.mk (String.ofList p.text) .read))
  catch _ => return none

/-- What stands at the paths and above them. -/
def fetchStorage (paths : List Path) : IO Storage := do
  let mut storage : Storage := []
  for p in paths do
    for q in p.ancestors ++ [p] do
      match ← fetchNode q with
      | some node => storage := storage.put q node
      | none => pure ()
  return storage

/-- All that is left of a stream. -/
partial def readRest (stream : IO.FS.Stream) (done : ByteArray) : IO ByteArray := do
  let bytes ← stream.read 65536
  if bytes.isEmpty then return done else readRest stream (done ++ bytes)

/-- The input of the program. -/
def fetchInput : IO Input := do
  let bytes := (← readRest (← IO.getStdin) .empty).toList
  match Utf8.decode bytes with
  | .ok t => return .ofText t
  | .error flaw => return .ofText [] (.fails (flaw.words bytes))

/-- The surroundings in which a request is carried out. -/
def fetchSurroundings (request : Option Request) : IO Surroundings := do
  let here := directoryPath (← IO.currentDir).toString
  let home := ((← IO.getEnv "HOME").map directoryPath).getD here
  let paths := ((request.map Request.files).getD []).filterMap fun name =>
    (Path.resolve here home name).toOption
  let storage ← fetchStorage paths
  let input ← if request.any Request.readsInput then fetchInput else pure {}
  let now ← Std.Time.PlainDateTime.now
  return {
    storage, here, home, input
    server := { trouble := some (.server [] "No name server can be asked.".toList) }
    hour := ⟨now.year.toInt.toNat, now.month.val.toNat, now.day.val.toNat, now.hour.val.toNat⟩
    clock := joinWith [':'] ([now.hour.val, now.minute.val, now.second.val].map fun n =>
      Zone.padded 2 n.toNat) }

/-- Carries out a command line with more and more patience until it closes. -/
partial def performPatiently (w : Surroundings) (line : List Text) : IO Outcome := do
  let o := w.perform line
  if o.close = .unfinished then performPatiently { w with patience := 2 * w.patience } line
  else return o

/-- Writes the files that a session has changed. -/
def saveStorage (before after : Storage) : IO Unit := do
  for (p, node) in after do
    match node with
    | .file bytes =>
      if before.find? p ≠ some node then
        IO.FS.createDirAll (String.ofList p.parent.text)
        IO.FS.writeBinFile (String.ofList p.text) ⟨bytes.toArray⟩
    | .directory => pure ()

/-- The exit status of a session. -/
def Close.status : Close → Nat
  | .exit n => n
  | _ => 1

end MxLang.CommandLine

open MxLang MxLang.CommandLine in
/-- Runs the tool. -/
def main (args : List String) : IO UInt32 := do
  let line := args.map String.toList
  let request := (read line).toOption.map Call.request
  let w ← fetchSurroundings request
  let o ← performPatiently { w with patience := 1000000 } line
  IO.print (String.ofList o.printed)
  IO.eprint (String.ofList (o.told w.clock))
  if let .failed f := o.close then IO.eprintln (String.ofList f.words)
  saveStorage w.storage o.storage
  return o.close.status.toUInt32
