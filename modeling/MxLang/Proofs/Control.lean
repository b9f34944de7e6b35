import MxLang.Control
import MxLang.Proofs.Numeral
import MxLang.Proofs.Program

/-!
# What a step of the control unit can do

A step is cut off by the limit, fails in its instruction, or succeeds and moves on: these are
`step_of_isSpent`, `step_of_error` and `step_of_ok`.  Moving on finds a line, or a jump leads to
nowhere, or the program ends: these are `advance_of_some`, `advance_of_jump` and `advance_of_end`.
Proofs about steps go through them and never open `step`.

Every step that succeeds is counted (`steps_step`), so a run with a limit always comes to an end
(`loop_ne_unfinished`).  A whole run is this loop between a start, `runProgram_of_some`, and a
report, `reported`.
-/

namespace MxLang

/-- A program without a line to start with is told so. -/
theorem Failure.ofStop_noNextLine_zero :
    Failure.ofStop { cause := .noNextLine 0 false none }
      = .fault (.stop { cause := .noNextLine 0 false none }) := by
  rw [Failure.ofStop, StopCause.isWordable, if_neg Bool.false_ne_true,
    if_pos Numeral.isWritable_zero]

/-! ### Seeking the next line -/

namespace Control

variable {s : Settings} {c : Control} {l : Line}

theorem seek_of_some {jumped : Bool} {i : Nat}
    (h : firstFrom? c.counter 0 c.program = some (i, l)) :
    c.seek jumped = ({ c with counter := l.priority, pointer := i }, .ok ()) := by
  rw [seek, h]

theorem seek_of_none {jumped : Bool} (h : firstFrom? c.counter 0 c.program = none) :
    c.seek jumped = (c, .error (.ofStop
      { cause := .noNextLine c.counter jumped (if jumped then some c.counter else none) })) := by
  rw [seek, h]

/-- Where the counter goes from the line numbered `n`. -/
def following (n : Int) (jump : Jump) : Int :=
  if jump.taken then jump.target else n + 1

/-- The state after an instruction that succeeded, before the next line is sought. -/
def moved (jump : Jump) (c : Control) : Control :=
  { c with steps := c.steps + 1, counter := following c.counter jump }

theorem advance_of_some {jump : Jump} {i : Nat} {next : Line}
    (h : firstFrom? (following c.counter jump) 0 c.program = some (i, next)) :
    c.advance l jump
      = ({ c with steps := c.steps + 1, counter := next.priority, pointer := i }, .ok true) := by
  have hseek : (c.moved jump).seek jump.taken = _ := seek_of_some h
  unfold moved following at hseek
  rw [advance, hseek]

/-- A jump to where no line follows is a failure. -/
theorem advance_of_jump {jump : Jump} (ht : jump.taken = true)
    (h : firstFrom? (following c.counter jump) 0 c.program = none) :
    c.advance l jump = (c.moved jump, .error ((Failure.ofStop
      { cause := .noNextLine jump.target true (some jump.target) }).annotate
        l.opcode l.priority)) := by
  have hseek : (c.moved jump).seek jump.taken = _ := seek_of_none h
  have hpast : isPastEnd (.ofStop { cause := .noNextLine jump.target true (some jump.target) })
      = false := by
    rw [Failure.ofStop]
    split <;> rfl
  simp only [moved, following, ht, if_true] at hseek ⊢
  rw [advance]
  simp only [ht, if_true, hseek, hpast, Bool.false_eq_true, if_false]

/-- To run past the last line ends the program, if the number after it can be written. -/
theorem advance_of_end {jump : Jump} (ht : jump.taken = false)
    (h : firstFrom? (following c.counter jump) 0 c.program = none) :
    c.advance l jump = (c.moved jump,
      if Numeral.isWritable (c.counter + 1) then .ok false
      else .error (.numeral .tooLongToWrite)) := by
  have hseek : (c.moved jump).seek jump.taken = _ := seek_of_none h
  simp only [moved, following, ht, Bool.false_eq_true, if_false] at hseek ⊢
  rw [advance]
  simp only [ht, Bool.false_eq_true, if_false, hseek, Failure.ofStop, StopCause.isWordable]
  cases Numeral.isWritable (c.counter + 1) <;> rfl

/-! ### One step -/

/-- Whether so many instructions are all that the settings allow. -/
def isSpent (s : Settings) (steps : Nat) : Bool :=
  s.limit.any fun limit => decide (limit ≤ (steps : Int))

theorem exists_limit_of_isSpent {n : Nat} (h : isSpent s n = true) :
    ∃ limit, s.limit = some limit := by
  cases hlimit : s.limit with
  | none => simp [isSpent, hlimit] at h
  | some limit => exact ⟨limit, rfl⟩

/-- The state once the instruction of the line has been carried out, before moving on. -/
def executed (s : Settings) (l : Line) (c : Control) : Control :=
  { c with
    machine := (c.machine.run l.code).machine
    journal := (c.machine.run l.code).notices ++
      (if s.trace then [.tracing c.steps l] else []) ++ c.journal }

theorem step_of_isSpent (h : isSpent s c.steps = true) :
    c.step s = (c, .error (.ofStop
      { cause := .stepLimit (s.limit.getD 0), priority := some c.counter })) := by
  rw [step, ← isSpent, if_pos h]

theorem step_of_error {f : Failure} (hs : isSpent s c.steps = false) (hl : c.current? = some l)
    (hf : (c.machine.run l.code).outcome = .error f) :
    c.step s = (c.executed s l, .error (f.annotate l.opcode l.priority)) := by
  rw [step, ← isSpent, hs, if_neg Bool.false_ne_true, hl]
  simp only [hf]
  rfl

theorem step_of_ok {jump : Jump} (hs : isSpent s c.steps = false) (hl : c.current? = some l)
    (hj : (c.machine.run l.code).outcome = .ok jump) :
    c.step s = (c.executed s l).advance l jump := by
  rw [step, ← isSpent, hs, if_neg Bool.false_ne_true, hl]
  simp only [hj]
  rfl

theorem step_of_no_line (hs : isSpent s c.steps = false) (hl : c.current? = none) :
    c.step s = (c, .error .noLine) := by
  rw [step, ← isSpent, hs, if_neg Bool.false_ne_true, hl]

/-! ### Many steps -/

theorem steps_advance (jump : Jump) : (c.advance l jump).1.steps = c.steps + 1 := by
  cases h : firstFrom? (following c.counter jump) 0 c.program with
  | some found => rw [advance_of_some h]
  | none =>
    cases ht : jump.taken with
    | true => rw [advance_of_jump ht h]; rfl
    | false => rw [advance_of_end ht h]; rfl

/-- A step that succeeds was allowed, and is counted. -/
theorem steps_step {more : Bool} (h : (c.step s).2 = .ok more) :
    isSpent s c.steps = false ∧ (c.step s).1.steps = c.steps + 1 := by
  cases hs : isSpent s c.steps with
  | true =>
    rw [step_of_isSpent hs] at h
    cases h
  | false =>
    refine ⟨rfl, ?_⟩
    cases hl : c.current? with
    | none =>
      rw [step_of_no_line hs hl] at h
      cases h
    | some l =>
      cases hj : (c.machine.run l.code).outcome with
      | error f =>
        rw [step_of_error hs hl hj] at h
        cases h
      | ok jump =>
        rw [step_of_ok hs hl hj, steps_advance]
        rfl

theorem loop_of_more {n : Nat} {d : Control} (h : c.step s = (d, .ok true)) :
    c.loop s (n + 1) = d.loop s n := by
  rw [loop, h]

theorem loop_of_halt {n : Nat} {d : Control} (h : c.step s = (d, .ok false)) :
    c.loop s (n + 1) = (d, .halted) := by
  rw [loop, h]

theorem loop_of_error {n : Nat} {d : Control} {f : Failure} (h : c.step s = (d, .error f)) :
    c.loop s (n + 1) = (d, .failed f) := by
  rw [loop, h]

/-- **A run with a limit comes to an end**, given one more step than the limit leaves. -/
theorem loop_ne_unfinished {limit : Int} (hlimit : s.limit = some limit) :
    ∀ {n : Nat} {c : Control}, (limit - c.steps).toNat < n → (c.loop s n).2 ≠ .unfinished := by
  intro n
  induction n with
  | zero => intro c hn; omega
  | succ n ih =>
    intro c hn
    cases hstep : c.step s with
    | mk d answer =>
      match answer with
      | .error f => rw [loop_of_error hstep]; exact Ending.noConfusion
      | .ok false => rw [loop_of_halt hstep]; exact Ending.noConfusion
      | .ok true =>
        -- The step was allowed and has been counted, so the limit leaves one less.
        rw [loop_of_more hstep]
        have hok := steps_step (show (c.step s).2 = .ok true by rw [hstep])
        simp only [hstep, isSpent, hlimit, Option.any_some, decide_eq_false_iff_not] at hok
        exact ih (by omega)

/-! ### Whole runs -/

/-- The ending after the report on the state, which may fail itself. -/
def reported (s : Settings) (m : Machine) (e : Ending) : Ending :=
  if s.debug then
    match m.dump? with
    | .ok _ => e
    | .error f => .failed f
  else e

/-- A report leaves the ending as it is if all numbers in the state can be written. -/
theorem reported_of_debug (hdebug : s.debug = true) (m : Machine) (e : Ending) :
    reported s m e
      = if m.tape.cells.all Numeral.isWritable && m.stack.all Numeral.isWritable then e
        else .failed (.numeral .tooLongToWrite) := by
  rw [reported, if_pos hdebug, Machine.dump?]
  by_cases hall : (m.tape.cells.all Numeral.isWritable && m.stack.all Numeral.isWritable) = true
  · rw [if_pos hall, if_pos hall]
  · rw [if_neg hall, if_neg hall]

theorem report_eq (s : Settings) (c : Control) (e : Ending) :
    ∃ journal, report s c e = ({ c with journal := journal }, reported s c.machine e) := by
  unfold report reported
  split
  · cases c.machine.dump? with
    | ok text => exact ⟨_, rfl⟩
    | error f => exact ⟨c.journal, rfl⟩
  · exact ⟨c.journal, rfl⟩

/-- A run is a loop and a report; what is said on the way changes nothing else. -/
theorem run_of_ne_nil (h : c.program ≠ []) :
    ∃ journal, c.run s = ({ (c.loop s (c.fuel s)).1 with journal := journal },
      reported s (c.loop s (c.fuel s)).1.machine (c.loop s (c.fuel s)).2) := by
  obtain ⟨journal, hreport⟩ := report_eq s (c.loop s (c.fuel s)).1 (c.loop s (c.fuel s)).2
  rw [run, if_neg h]
  simp only [hreport]
  cases reported s (c.loop s (c.fuel s)).1.machine (c.loop s (c.fuel s)).2 with
  | halted => exact ⟨_, rfl⟩
  | failed f => exact ⟨_, rfl⟩
  | unfinished => exact ⟨_, rfl⟩

theorem runProgram_nil (s : Settings) (m : Machine) :
    runProgram s m []
      = ({ machine := m }, .failed (.fault (.stop { cause := .emptyProgram }))) := by
  rw [runProgram, load, Program.sort_eq_nil_iff.2 rfl, if_pos rfl]
  rfl

theorem runProgram_of_none {m : Machine} {lines : List Line} (hne : lines ≠ [])
    (h : firstFrom? 0 0 (Program.sort lines) = none) :
    runProgram s m lines = ({ program := Program.sort lines, machine := m },
      .failed (.fault (.stop { cause := .noNextLine 0 false none }))) := by
  have hseek : seek false { program := Program.sort lines, machine := m } = _ := seek_of_none h
  simp only [Bool.false_eq_true, if_false, Failure.ofStop_noNextLine_zero] at hseek
  rw [runProgram, load, if_neg (mt Program.sort_eq_nil_iff.1 hne)]
  dsimp only
  rw [hseek]

theorem load_of_some {m : Machine} {lines : List Line} {i : Nat}
    (h : firstFrom? 0 0 (Program.sort lines) = some (i, l)) :
    load lines { machine := m } = (
      { program := Program.sort lines, counter := l.priority, pointer := i, machine := m },
      .ok ()) := by
  have hne : Program.sort lines ≠ [] := by
    intro hnil
    rw [hnil] at h
    cases h
  have hseek : seek false { program := Program.sort lines, machine := m } = _ := seek_of_some h
  rw [load, if_neg hne]
  exact hseek

theorem runProgram_of_some {m : Machine} {lines : List Line} {i : Nat}
    (h : firstFrom? 0 0 (Program.sort lines) = some (i, l)) :
    runProgram s m lines = run s
      { program := Program.sort lines, counter := l.priority, pointer := i, machine := m } := by
  rw [runProgram, load_of_some h]

/-- A run that fails does so in its loop, or in the report. -/
theorem reported_eq_failed {m : Machine} {e : Ending} {f : Failure}
    (h : reported s m e = .failed f) : e = .failed f ∨ s.debug = true ∧ m.dump? = .error f := by
  unfold reported at h
  split at h
  · rename_i hdebug
    split at h
    · exact .inl h
    · rename_i hdump
      cases h
      exact .inr ⟨hdebug, hdump⟩
  · exact .inl h

theorem reported_ne_unfinished {m : Machine} {e : Ending} (h : e ≠ .unfinished) :
    reported s m e ≠ .unfinished := by
  unfold reported
  split
  · split
    · exact h
    · exact Ending.noConfusion
  · exact h

theorem run_ne_unfinished {limit : Int} (hlimit : s.limit = some limit) (c : Control) :
    (c.run s).2 ≠ .unfinished := by
  by_cases hne : c.program = []
  · rw [run, if_pos hne]
    exact Ending.noConfusion
  · obtain ⟨journal, hrun⟩ := run_of_ne_nil (s := s) hne
    have hfuel : c.fuel s = (limit - c.steps).toNat + 1 := by rw [fuel, hlimit]
    rw [hrun, hfuel]
    exact reported_ne_unfinished (loop_ne_unfinished hlimit (Nat.lt_succ_self _))

/-- **A program that is run with a limit halts or fails.** -/
theorem runProgram_ne_unfinished {limit : Int} (hlimit : s.limit = some limit) (m : Machine)
    (lines : List Line) : (runProgram s m lines).2 ≠ .unfinished := by
  rw [runProgram]
  cases load lines { machine := m } with
  | mk c answer =>
    cases answer with
    | ok _ => exact run_ne_unfinished hlimit c
    | error f => exact Ending.noConfusion

end Control

end MxLang
