import MxLang.Machine

/-!
# The control unit

Lines are numbered by their priorities, with gaps.  The counter holds a priority, the pointer the
index of the line to be executed.  After a plain instruction the counter goes up by one, after a
jump it is the target, and then the first line at or after the counter is sought.  Running past the
last line after a plain instruction halts the program; after a jump it is a fault.
-/

namespace MxLang

/-- How a program is run. -/
structure Settings where
  /-- The number of instructions after which a run is cut. -/
  limit : Option Int := none
  /-- Whether every instruction is told about. -/
  trace : Bool := false
  /-- Whether the state is told about at the end of a run. -/
  debug : Bool := false
  /-- How many instructions a run without a limit may execute before it is given up. -/
  patience : Nat := 0

/-- The state of the control unit. -/
structure Control where
  /-- The lines in ascending priority. -/
  program : List Line := []
  counter : Int := 0
  pointer : Nat := 0
  steps : Nat := 0
  machine : Machine := {}
  /-- What was said so far, the latest first. -/
  journal : List Notice := []

/-- How a run ends. -/
inductive Ending
  | halted
  | failed (f : Failure)
  /-- The patience ran out. -/
  | unfinished
deriving DecidableEq, Repr

namespace Control

/-- The line under the pointer. -/
def current? (c : Control) : Option Line :=
  c.program[c.pointer]?

/-- The first line of at least priority `n`, with its index; `start` is the index of the first
line of the list. -/
def firstFrom? (n : Int) (start : Nat) : List Line → Option (Nat × Line)
  | [] => none
  | l :: rest => if n ≤ l.priority then some (start, l) else firstFrom? n (start + 1) rest

/-- Moves to the first line at or after the counter. -/
def seek (jumped : Bool) (c : Control) : Control × Except Failure Unit :=
  match firstFrom? c.counter 0 c.program with
  | some (i, l) => ({ c with counter := l.priority, pointer := i }, .ok ())
  | none =>
    (c, .error (.ofStop
      { cause := .noNextLine c.counter jumped (if jumped then some c.counter else none) }))

/-- Takes the lines, in any order, as the new program. -/
def load (lines : List Line) (c : Control) : Control × Except Failure Unit :=
  let c := { c with program := Program.sort lines, counter := 0, pointer := 0, steps := 0 }
  if c.program = [] then (c, .error (.ofStop { cause := .emptyProgram })) else c.seek false

/-- Whether a failure says that a plain increment ran past the last line. -/
def isPastEnd : Failure → Bool
  | .fault (.stop { cause := .noNextLine _ false _, .. }) => true
  | _ => false

/-- Where the instruction of line `l` leads when it succeeds: the counter moves on and the next
line is sought.  The answer tells whether there is one. -/
def advance (l : Line) (jump : Jump) (c : Control) : Control × Except Failure Bool :=
  let c :=
    { c with
      steps := c.steps + 1
      counter := if jump.taken then jump.target else c.counter + 1 }
  match c.seek jump.taken with
  | (c, .ok ()) => (c, .ok true)
  | (c, .error f) =>
    if isPastEnd f then (c, .ok false) else (c, .error (f.annotate l.opcode l.priority))

/-- Executes the current line and moves on.  The answer is `false` once the program has run past
its last line. -/
def step (s : Settings) (c : Control) : Control × Except Failure Bool :=
  if s.limit.any fun limit => decide (limit ≤ (c.steps : Int)) then
    (c, .error (.ofStop
      { cause := .stepLimit (s.limit.getD 0), priority := some c.counter }))
  else
    match c.current? with
    | none => (c, .error .noLine)
    | some l =>
      let effect := c.machine.run l.code
      let c :=
        { c with
          machine := effect.machine
          journal :=
            effect.notices ++ (if s.trace then [.tracing c.steps l] else []) ++ c.journal }
      match effect.outcome with
      | .error f => (c, .error (f.annotate l.opcode l.priority))
      | .ok jump => c.advance l jump

/-- At most `fuel` steps. -/
def loop (s : Settings) : (fuel : Nat) → Control → Control × Ending
  | 0, c => (c, .unfinished)
  | fuel + 1, c =>
    match c.step s with
    | (c, .ok true) => loop s fuel c
    | (c, .ok false) => (c, .halted)
    | (c, .error f) => (c, .failed f)

/-- Enough steps to reach the limit, or the patience if there is none. -/
def fuel (s : Settings) (c : Control) : Nat :=
  match s.limit with
  | some limit => (limit - c.steps).toNat + 1
  | none => s.patience

/-- Tells about the state after a run; a number that cannot be written turns the ending into a
failure. -/
def report (s : Settings) (c : Control) (e : Ending) : Control × Ending :=
  if s.debug then
    match c.machine.dump? with
    | .ok text => ({ c with journal := .stateAfter c.steps text :: c.journal }, e)
    | .error f => (c, .failed f)
  else (c, e)

/-- Runs until the program ends. -/
def run (s : Settings) (c : Control) : Control × Ending :=
  if c.program = [] then (c, .failed (.ofStop { cause := .emptyProgram }))
  else
    let (c, e) := c.loop s (c.fuel s)
    match report s c e with
    | (c, .halted) => ({ c with journal := .halted c.steps :: c.journal }, .halted)
    | r => r

/-- Loads the lines into a fresh control unit and runs them. -/
def runProgram (s : Settings) (m : Machine) (lines : List Line) : Control × Ending :=
  match load lines { machine := m } with
  | (c, .ok ()) => c.run s
  | (c, .error f) => (c, .failed f)

end Control

end MxLang
