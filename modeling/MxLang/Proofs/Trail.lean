import MxLang.Proofs.Halt
import MxLang.Proofs.Refinement

/-!
# The instructions of a run

A run carries out one instruction after another.  Its `trail` lists them in this order, each with
the machine as it was before the instruction.  The last one may have failed; an instruction that the
limit forbids has not been carried out and is not listed.

Each instruction starts from the machine that the one before it has left, and the run ends with the
machine that the last one has left: this is `leads_trail` for a loop and `leads_trailOf` for the run
of a program.  So what a run does to the machine can be read off its trail.

`StandsAt.stepped` says what a step can come to that starts on a line, all of it at once: it is cut
off, fails in its instruction, goes on to a line, jumps to nowhere, or ends the program.
-/

namespace MxLang

/-- An instruction that is carried out: its line, and the machine before it. -/
structure Execution where
  line : Line
  before : Machine

namespace Execution

/-- What the instruction does. -/
def effect (e : Execution) : Effect :=
  e.before.run e.line.code

/-- Each execution starts from the machine that the one before it has left, the first from `m`, and
the last leaves `m'`. -/
inductive Leads : Machine → List Execution → Machine → Prop
  | nil (m : Machine) : Leads m [] m
  | cons {l : Line} {m m' : Machine} {rest : List Execution}
      (h : Leads (m.run l.code).machine rest m') : Leads m (⟨l, m⟩ :: rest) m'

end Execution

namespace Control

open Execution

/-- The instructions that at most `fuel` steps carry out, in their order. -/
def trail (s : Settings) : (fuel : Nat) → Control → List Execution
  | 0, _ => []
  | fuel + 1, c =>
    if isSpent s c.steps then []
    else
      match c.current? with
      | none => []
      | some l =>
        ⟨l, c.machine⟩ ::
          match c.step s with
          | (d, .ok true) => trail s fuel d
          | _ => []

/-- The instructions that the run of a program carries out. -/
def trailOf (s : Settings) (m : Machine) (lines : List Line) : List Execution :=
  match load lines { machine := m } with
  | (c, .ok ()) => c.trail s (c.fuel s)
  | (_, .error _) => []

variable {s : Settings} {c d : Control} {l : Line} {n : Nat}

theorem trail_of_isSpent (h : isSpent s c.steps = true) : c.trail s n = [] := by
  cases n with
  | zero => rfl
  | succ n => rw [trail, if_pos h]

theorem trail_of_no_line (h : c.current? = none) : c.trail s n = [] := by
  cases n with
  | zero => rfl
  | succ n =>
    rw [trail, h]
    split <;> rfl

theorem trail_of_more (hs : isSpent s c.steps = false) (hl : c.current? = some l)
    (h : c.step s = (d, .ok true)) :
    c.trail s (n + 1) = ⟨l, c.machine⟩ :: d.trail s n := by
  rw [trail, hs, if_neg Bool.false_ne_true, hl]
  simp only [h]

theorem trail_of_last (hs : isSpent s c.steps = false) (hl : c.current? = some l)
    (h : (c.step s).2 ≠ .ok true) : c.trail s (n + 1) = [⟨l, c.machine⟩] := by
  rw [trail, hs, if_neg Bool.false_ne_true, hl]
  dsimp only
  split
  · rename_i hstep
    rw [hstep] at h
    exact absurd rfl h
  · rfl

/-- A step that is allowed leaves the machine as the instruction does. -/
theorem machine_step (hs : isSpent s c.steps = false) (hl : c.current? = some l) :
    (c.step s).1.machine = (c.machine.run l.code).machine := by
  cases hj : (c.machine.run l.code).outcome with
  | error f => rw [step_of_error hs hl hj]; rfl
  | ok jump => rw [step_of_ok hs hl hj, machine_advance]; rfl

/-- **The instructions of a loop lead from the machine it starts with to the one it ends with.** -/
theorem leads_trail (s : Settings) (n : Nat) (c : Control) :
    Leads c.machine (c.trail s n) (c.loop s n).1.machine := by
  induction n generalizing c with
  | zero => exact .nil _
  | succ n ih =>
    cases hs : isSpent s c.steps with
    | true =>
      rw [trail_of_isSpent hs, loop_of_error (step_of_isSpent hs)]
      exact .nil _
    | false =>
      cases hl : c.current? with
      | none =>
        rw [trail_of_no_line hl, loop_of_error (step_of_no_line hs hl)]
        exact .nil _
      | some l =>
        have hmachine := machine_step hs hl
        have hlast : Leads c.machine [⟨l, c.machine⟩] (c.step s).1.machine := by
          rw [hmachine]
          exact .cons (.nil _)
        cases hstep : c.step s with
        | mk d answer =>
          rw [hstep] at hmachine hlast
          match answer with
          | .error f =>
            rw [trail_of_last hs hl (by rw [hstep]; simp), loop_of_error hstep]
            exact hlast
          | .ok false =>
            rw [trail_of_last hs hl (by rw [hstep]; simp), loop_of_halt hstep]
            exact hlast
          | .ok true =>
            rw [trail_of_more hs hl hstep, loop_of_more hstep]
            apply Leads.cons
            rw [← hmachine]
            exact ih d

/-! ### Whole runs -/

theorem machine_load (lines : List Line) (c : Control) :
    (load lines c).1.machine = c.machine := by
  rw [load]
  dsimp only
  split
  · rfl
  · rw [seek]
    dsimp only
    split <;> rfl

variable {m : Machine} {lines : List Line}

/-- The run of a program that can be started is a loop and a report. -/
theorem exists_runProgram_eq (s : Settings) (hload : load lines { machine := m } = (c, .ok ())) :
    ∃ journal, runProgram s m lines = ({ (c.loop s (c.fuel s)).1 with journal := journal },
      reported s (c.loop s (c.fuel s)).1.machine (c.loop s (c.fuel s)).2) := by
  rw [runProgram_of_load hload]
  exact run_of_ne_nil (program_ne_nil_of_load hload)

theorem trailOf_of_load (hload : load lines { machine := m } = (c, .ok ())) :
    trailOf s m lines = c.trail s (c.fuel s) := by
  rw [trailOf, hload]

/-- **The instructions of a program lead from the machine it is run on to the one that its run
leaves.** -/
theorem leads_trailOf (s : Settings) (m : Machine) (lines : List Line) :
    Leads m (trailOf s m lines) (runProgram s m lines).1.machine := by
  have hm := machine_load lines { machine := m }
  cases hload : load lines { machine := m } with
  | mk c answer =>
    obtain rfl : c.machine = m := by
      rw [hload] at hm
      exact hm
    cases answer with
    | error f =>
      rw [runProgram_of_load_error hload, trailOf, hload]
      exact .nil _
    | ok _ =>
      obtain ⟨journal, hrun⟩ := exists_runProgram_eq s hload
      rw [trailOf_of_load hload, hrun]
      exact leads_trail s _ c

/-! ### What a step comes to -/

theorem StandsAt.mem (h : StandsAt lines l c) : l ∈ lines := by
  have hmem := List.mem_of_getElem? h.current
  rw [h.program] at hmem
  exact (Program.sort_perm lines).mem_iff.1 hmem

/-- What a step comes to that starts on line `l` of a program. -/
inductive Stepped (s : Settings) (lines : List Line) (l : Line) (c : Control) :
    Control × Except Failure Bool → Prop
  /-- The limit forbids it. -/
  | cut (hs : isSpent s c.steps = true) :
      Stepped s lines l c (c, .error (.ofStop
        { cause := .stepLimit (s.limit.getD 0), priority := some l.priority }))
  /-- The instruction fails. -/
  | failed {f : Failure} (hs : isSpent s c.steps = false)
      (hf : (c.machine.run l.code).outcome = .error f) :
      Stepped s lines l c (c.executed s l, .error (f.annotate l.opcode l.priority))
  /-- The instruction succeeds, and a line follows. -/
  | moved {d : Control} {jump : Jump} {next : Line} (hs : isSpent s c.steps = false)
      (hj : (c.machine.run l.code).outcome = .ok jump)
      (hnext : (Chart.ofLines lines).next? (following l.priority jump) = some next)
      (hd : StandsAt lines next d) (hsteps : d.steps = c.steps + 1) :
      Stepped s lines l c (d, .ok true)
  /-- The instruction jumps to where no line follows. -/
  | lost {jump : Jump} (hs : isSpent s c.steps = false)
      (hj : (c.machine.run l.code).outcome = .ok jump) (ht : jump.taken = true)
      (hnext : (Chart.ofLines lines).next? jump.target = none) :
      Stepped s lines l c ((c.executed s l).moved jump, .error ((Failure.ofStop
        { cause := .noNextLine jump.target true (some jump.target) }).annotate
          l.opcode l.priority))
  /-- The instruction succeeds as the last of the program. -/
  | ended {jump : Jump} (hs : isSpent s c.steps = false)
      (hj : (c.machine.run l.code).outcome = .ok jump) (ht : jump.taken = false)
      (hnext : (Chart.ofLines lines).next? (l.priority + 1) = none) :
      Stepped s lines l c ((c.executed s l).moved jump,
        if Numeral.isWritable (l.priority + 1) then .ok false
        else .error (.numeral .tooLongToWrite))

/-- **All that a step can come to.** -/
theorem StandsAt.stepped (h : StandsAt lines l c) (s : Settings) :
    Stepped s lines l c (c.step s) := by
  cases hs : isSpent s c.steps with
  | true =>
    rw [step_of_isSpent hs, h.counter]
    exact .cut hs
  | false =>
    cases hj : (c.machine.run l.code).outcome with
    | error f =>
      rw [step_of_error hs h.current hj]
      exact .failed hs hj
    | ok jump =>
      have hseek := (h.executed (s := s)).firstFrom?_eq jump
      rw [step_of_ok hs h.current hj]
      rcases firstFrom?_cases lines (following l.priority jump) with
        ⟨hnone, hnext⟩ | ⟨i, next, hsome, hnext, hget⟩
      · rw [hnone] at hseek
        cases ht : jump.taken with
        | true =>
          rw [advance_of_jump ht hseek]
          rw [following, ht, if_pos rfl] at hnext
          exact .lost hs hj ht hnext
        | false =>
          rw [advance_of_end ht hseek, (h.executed (s := s)).counter]
          rw [following, ht, if_neg Bool.false_ne_true] at hnext
          exact .ended hs hj ht hnext
      · rw [hsome] at hseek
        rw [advance_of_some hseek]
        refine .moved hs hj hnext ⟨h.program, ?_, rfl⟩ rfl
        show c.program[i]? = some next
        rw [h.program, hget]

/-- A program with a line to start with starts there. -/
theorem exists_load (h : (Chart.ofLines lines).next? 0 = some l) (m : Machine) :
    ∃ c, load lines { machine := m } = (c, .ok ()) ∧ StandsAt lines l c ∧ c.machine = m ∧
      c.steps = 0 := by
  rcases firstFrom?_cases lines 0 with ⟨-, hnext⟩ | ⟨i, first, hsome, hnext, hget⟩
  · rw [h] at hnext
    cases hnext
  · rw [h] at hnext
    obtain rfl := Option.some.inj hnext
    exact ⟨_, load_of_some hsome, ⟨rfl, hget, rfl⟩, rfl, rfl⟩

end Control

end MxLang
