import Mathlib.Logic.Function.Iterate
import MxLang.Proofs.Resume

/-!
# After the end of a program

A step that runs past the last line answers that the program has ended.  Nothing in the state says
so: the counter is past every line, but the pointer still stands on the line that was executed last
(`IsPast`), and the next step executes the line under the pointer.  So a program that has ended is
not at rest.  Unless the limit has been met, every further call executes its last line once more
(`IsPast.step`), and if that line jumps this time the program goes on from there
(`repeats_of_ended`).

A line that cannot jump is never left again.  `calls_of_isPast` follows any number of further calls
of `step` and `run` on such a line: each of them executes the line once.
-/

namespace MxLang

/-! ### Instructions that do not jump -/

/-- The line is a jump, with or without a condition. -/
def Line.IsJump (l : Line) : Prop :=
  Command.ofText l.code = .ok (.bare .jmp) ∨ Command.ofText l.code = .ok (.bare .jmpc)

/-- An effect that leads to the next line, if it succeeds. -/
def Effect.IsPlain (e : Effect) : Prop :=
  ∀ jump, e.outcome = .ok jump → jump.taken = false

namespace Machine

variable {m : Machine}

theorem isPlain_done (m : Machine) : m.done.IsPlain := by
  intro jump h
  obtain rfl := Except.ok.inj h
  rfl

theorem isPlain_fail (m : Machine) (f : Failure) : (m.fail f).IsPlain := by
  intro jump h
  cases h

theorem isPlain_withOne {k : Int → Machine → Effect} (hk : ∀ a n, (k a n).IsPlain) :
    (m.withOne k).IsPlain := by
  unfold withOne
  split
  · exact hk _ _
  · exact isPlain_fail _ _

theorem isPlain_withTwo {k : Int → Int → Machine → Effect} (hk : ∀ a b n, (k a b n).IsPlain) :
    (m.withTwo k).IsPlain := by
  unfold withTwo
  split
  · exact hk _ _ _
  · exact isPlain_fail _ _

theorem isPlain_readChar (m : Machine) : m.readChar.IsPlain := by
  unfold readChar
  split
  · split <;> exact isPlain_fail _ _
  · exact isPlain_fail _ _
  · intro jump h
    obtain rfl := Except.ok.inj h
    rfl

theorem isPlain_printTop (m : Machine) : m.printTop.IsPlain := by
  apply isPlain_withOne
  intro a n
  split
  · split
    · exact isPlain_fail _ _
    · exact isPlain_fail _ _
    · exact isPlain_done _
  · exact isPlain_fail _ _

theorem isPlain_divide (m : Machine) (op : Opcode) (result : Int → Int → Option Int) :
    (m.divide op result).IsPlain := by
  apply isPlain_withTwo
  intro a b n
  split
  · exact isPlain_done _
  · exact isPlain_fail _ _

theorem isPlain_performBare (m : Machine) {op : Opcode} (hj : op ≠ .jmp) (hc : op ≠ .jmpc) :
    (m.performBare op).IsPlain := by
  cases op with
  | left | right | pusht => exact isPlain_done _
  | pop | dup | del => exact isPlain_withOne fun _ _ => isPlain_done _
  | eq | gt | lt | add | sub | mult => exact isPlain_withTwo fun _ _ _ => isPlain_done _
  | not =>
    apply isPlain_withOne
    intro a n
    split
    · exact isPlain_done _
    · exact isPlain_fail _ _
  | div | mod => exact isPlain_divide _ _ _
  | read => exact isPlain_readChar _
  | print => exact isPlain_printTop _
  | jmp => exact absurd rfl hj
  | jmpc => exact absurd rfl hc

/-- **Only the two jumps jump.** -/
theorem isPlain_run {l : Line} (hl : ¬ l.IsJump) (m : Machine) : (m.run l.code).IsPlain := by
  unfold run
  split
  · rename_i c hc
    cases c with
    | push v => exact isPlain_done _
    | bare op =>
      apply isPlain_performBare
      · rintro rfl
        exact hl (.inl hc)
      · rintro rfl
        exact hl (.inr hc)
  · exact isPlain_fail _ _

end Machine

namespace Control

variable {s : Settings} {c d : Control} {l : Line}

/-! ### Past every line -/

theorem firstFrom?_eq_none_iff {n : Int} {p : List Line} {start : Nat} :
    firstFrom? n start p = none ↔ ∀ x ∈ p, x.priority < n := by
  induction p generalizing start with
  | nil => simp [firstFrom?]
  | cons x rest ih =>
    rw [firstFrom?, List.forall_mem_cons]
    by_cases hx : n ≤ x.priority
    · simp only [hx, if_true, reduceCtorEq, false_iff, not_and]
      omega
    · rw [if_neg hx, ih]
      exact ⟨fun h => ⟨by omega, h⟩, fun h => h.2⟩

/-- The counter has passed every line, and the pointer stands on line `l`. -/
structure IsPast (l : Line) (c : Control) : Prop where
  line : c.current? = some l
  counter : ∀ x ∈ c.program, x.priority < c.counter

theorem IsPast.moved {jump : Jump} (h : c.IsPast l) (ht : jump.taken = false) :
    (c.moved jump).IsPast l := by
  refine ⟨h.line, ?_⟩
  intro x hx
  have hlt := h.counter x hx
  simp only [Control.moved, following, ht, Bool.false_eq_true, if_false]
  omega

theorem IsPast.firstFrom?_eq_none (h : c.IsPast l) {jump : Jump} (ht : jump.taken = false) :
    firstFrom? (following c.counter jump) 0 c.program = none :=
  firstFrom?_eq_none_iff.2 (h.moved ht).counter

/-- What a step has done that ended the program: its line succeeded and did not jump, and no line
follows. -/
theorem step_eq_ok_false (h : c.step s = (d, .ok false)) :
    ∃ l jump, c.current? = some l ∧ jump.taken = false ∧ d = (c.executed s l).moved jump ∧
      ∀ x ∈ c.program, x.priority < c.counter + 1 := by
  have hs : isSpent s c.steps = false := (steps_step (congrArg Prod.snd h)).1
  cases hl : c.current? with
  | none =>
    rw [step_of_no_line hs hl] at h
    cases h
  | some l =>
    cases hj : (c.machine.run l.code).outcome with
    | error f =>
      rw [step_of_error hs hl hj] at h
      cases h
    | ok jump =>
      rw [step_of_ok hs hl hj] at h
      cases hseek : firstFrom? (following (c.executed s l).counter jump) 0
          (c.executed s l).program with
      | some found =>
        rw [advance_of_some hseek] at h
        cases h
      | none =>
        cases ht : jump.taken with
        | true =>
          rw [advance_of_jump ht hseek] at h
          cases h
        | false =>
          rw [advance_of_end ht hseek] at h
          refine ⟨l, jump, rfl, ht, (congrArg Prod.fst h).symm, ?_⟩
          intro x hx
          have hlt := firstFrom?_eq_none_iff.1 hseek x hx
          simp only [following, ht, Bool.false_eq_true, if_false] at hlt
          exact hlt

/-- The end of a program leaves the pointer where it was. -/
theorem isPast_of_step (h : c.step s = (d, .ok false)) :
    ∃ l, c.current? = some l ∧ d.IsPast l := by
  obtain ⟨l, jump, hl, ht, rfl, hlt⟩ := step_eq_ok_false h
  refine ⟨l, hl, hl, ?_⟩
  intro x hx
  have hx := hlt x hx
  simp only [Control.moved, following, ht, Bool.false_eq_true, if_false]
  exact hx

/-! ### One more step -/

/-- From the state `c` the line `l` has been executed, which led to the state `d` and the answer.
If the line fails or does not jump, the state is past every line as before; if it jumps to where
lines follow, the program goes on. -/
structure Repeats (l : Line) (c d : Control) (answer : Except Failure Bool) : Prop where
  machine : d.machine = (c.machine.run l.code).machine
  program : d.program = c.program
  steps : ∀ jump, (c.machine.run l.code).outcome = .ok jump → d.steps = c.steps + 1
  fails : ∀ f, (c.machine.run l.code).outcome = .error f →
    answer = .error (f.annotate l.opcode l.priority) ∧ d.steps = c.steps ∧ d.IsPast l
  ends : ∀ jump, (c.machine.run l.code).outcome = .ok jump → jump.taken = false →
    (answer = if Numeral.isWritable (c.counter + 1) then .ok false
      else .error (.numeral .tooLongToWrite)) ∧ d.IsPast l
  jumps : ∀ jump, (c.machine.run l.code).outcome = .ok jump → jump.taken = true →
    (∃ x ∈ c.program, jump.target ≤ x.priority) → answer = .ok true

theorem machine_advance (jump : Jump) : (c.advance l jump).1.machine = c.machine := by
  cases h : firstFrom? (following c.counter jump) 0 c.program with
  | some found => rw [advance_of_some h]
  | none =>
    cases ht : jump.taken with
    | true => rw [advance_of_jump ht h]; rfl
    | false => rw [advance_of_end ht h]; rfl

theorem advance_of_target {jump : Jump} (ht : jump.taken = true)
    (h : ∃ x ∈ c.program, jump.target ≤ x.priority) : (c.advance l jump).2 = .ok true := by
  cases hseek : firstFrom? (following c.counter jump) 0 c.program with
  | some found => rw [advance_of_some hseek]
  | none =>
    obtain ⟨x, hx, hle⟩ := h
    have hlt := firstFrom?_eq_none_iff.1 hseek x hx
    simp only [following, ht, if_true] at hlt
    omega

/-- **Past every line, a step executes the line under the pointer.** -/
theorem IsPast.step (h : c.IsPast l) (hs : isSpent s c.steps = false) :
    Repeats l c (c.step s).1 (c.step s).2 := by
  have hexecuted : (c.executed s l).IsPast l := ⟨h.line, h.counter⟩
  cases hj : (c.machine.run l.code).outcome with
  | error f =>
    rw [step_of_error hs h.line hj]
    refine ⟨rfl, rfl, ?_, ?_, ?_, ?_⟩
    · intro jump hjump
      rw [hj] at hjump
      cases hjump
    · intro g hg
      rw [hj] at hg
      cases hg
      exact ⟨rfl, rfl, hexecuted⟩
    · intro jump hjump
      rw [hj] at hjump
      cases hjump
    · intro jump hjump
      rw [hj] at hjump
      cases hjump
  | ok jump =>
    rw [step_of_ok hs h.line hj]
    refine ⟨machine_advance jump, program_advance l jump, ?_, ?_, ?_, ?_⟩
    · intro _ _
      exact steps_advance jump
    · intro f hf
      rw [hj] at hf
      cases hf
    · intro jump' hjump ht
      rw [hj] at hjump
      cases hjump
      rw [advance_of_end ht (hexecuted.firstFrom?_eq_none ht),
        show (c.executed s l).counter = c.counter from rfl]
      dsimp only
      exact ⟨rfl, hexecuted.moved ht⟩
    · intro jump' hjump ht hx
      rw [hj] at hjump
      cases hjump
      exact advance_of_target ht hx

/-! ### Many more calls -/

/-- A call of the control unit. -/
inductive Call
  | step (s : Settings)
  | run (s : Settings)

namespace Call

/-- The state after a call. -/
def perform : Call → Control → Control
  | .step s, c => (c.step s).1
  | .run s, c => (c.run s).1

/-- The call may execute an instruction after `n` steps: its limit has not been met, and a run
without a limit has patience. -/
def Allows (n : Nat) : Call → Prop
  | .step s => isSpent s n = false
  | .run s => isSpent s n = false ∧ (s.limit = none → 0 < s.patience)

end Call

theorem isSpent_of_le {n k : Nat} (hnk : n ≤ k) (h : isSpent s k = false) :
    isSpent s n = false := by
  cases hlimit : s.limit with
  | none => simp [isSpent, hlimit]
  | some limit =>
    simp only [isSpent, hlimit, Option.any_some, decide_eq_false_iff_not] at h ⊢
    omega

theorem Call.Allows.of_le {n k : Nat} {call : Call} (hnk : n ≤ k) (h : call.Allows k) :
    call.Allows n := by
  cases call with
  | step s => exact isSpent_of_le hnk h
  | run s => exact ⟨isSpent_of_le hnk h.1, h.2⟩

theorem fuel_pos (h : s.limit = none → 0 < s.patience) : 0 < c.fuel s := by
  unfold fuel
  split
  · exact Nat.succ_pos _
  · rename_i hlimit
    exact h hlimit

/-- A run that begins with the last step of the program is that step. -/
theorem run_of_last (hne : c.program ≠ []) (hfuel : 0 < c.fuel s)
    (h : (c.step s).2 ≠ .ok true) : (c.run s).1.silent = (c.step s).1.silent := by
  obtain ⟨journal, hrun⟩ := run_of_ne_nil (s := s) hne
  obtain ⟨n, hn⟩ : ∃ n, c.fuel s = n + 1 := ⟨c.fuel s - 1, by omega⟩
  have hloop : (c.loop s (c.fuel s)).1 = (c.step s).1 := by
    rw [hn]
    cases hstep : c.step s with
    | mk d answer =>
      rw [hstep] at h
      match answer with
      | .error f => rw [loop_of_error hstep]
      | .ok false => rw [loop_of_halt hstep]
      | .ok true => exact absurd rfl h
  rw [hrun, ← hloop]
  rfl

theorem IsPast.of_silent (h : c.IsPast l) (hsame : d.silent = c.silent) : d.IsPast l := by
  obtain ⟨journal, rfl⟩ := exists_journal hsame.symm
  exact ⟨h.line, h.counter⟩

theorem IsPast.program_ne_nil (h : c.IsPast l) : c.program ≠ [] := by
  intro hnil
  have hline := h.line
  rw [current?, hnil] at hline
  cases hline

/-- One more call past every line executes the line under the pointer, if that is no jump, and stays
there. -/
theorem IsPast.perform {call : Call} (h : c.IsPast l) (hl : ¬ l.IsJump)
    (hcall : call.Allows c.steps) :
    (call.perform c).IsPast l ∧ (call.perform c).steps ≤ c.steps + 1 ∧
      (call.perform c).machine = (c.machine.run l.code).machine := by
  -- The step that both kinds of call begin with.
  have hstep : ∀ s, isSpent s c.steps = false →
      (c.step s).1.IsPast l ∧ (c.step s).1.steps ≤ c.steps + 1 ∧
        (c.step s).1.machine = (c.machine.run l.code).machine ∧ (c.step s).2 ≠ .ok true := by
    intro s hs
    have hrepeat := h.step hs
    refine ⟨?_, (step_frame s c).2, hrepeat.machine, ?_⟩
    · cases hj : (c.machine.run l.code).outcome with
      | error f => exact (hrepeat.fails f hj).2.2
      | ok jump => exact (hrepeat.ends jump hj (Machine.isPlain_run hl _ jump hj)).2
    · cases hj : (c.machine.run l.code).outcome with
      | error f =>
        rw [(hrepeat.fails f hj).1]
        intro hok
        cases hok
      | ok jump =>
        rw [(hrepeat.ends jump hj (Machine.isPlain_run hl _ jump hj)).1]
        split
        · intro hok
          cases hok
        · intro hok
          cases hok
  cases call with
  | step s =>
    obtain ⟨hpast, hsteps, hmachine, -⟩ := hstep s hcall
    exact ⟨hpast, hsteps, hmachine⟩
  | run s =>
    obtain ⟨hpast, hsteps, hmachine, hlast⟩ := hstep s hcall.1
    have hsame := run_of_last h.program_ne_nil (fuel_pos hcall.2) hlast
    refine ⟨hpast.of_silent hsame, ?_, ?_⟩
    · show (c.run s).1.silent.steps ≤ c.steps + 1
      rw [hsame]
      exact hsteps
    · show (c.run s).1.silent.machine = _
      rw [hsame]
      exact hmachine

/-- **Each further call executes the last line once**, if that is no jump. -/
theorem calls_of_isPast (hl : ¬ l.IsJump) (calls : List Call) : ∀ {c : Control}, c.IsPast l →
    (∀ call ∈ calls, call.Allows (c.steps + calls.length)) →
    (calls.foldl (fun c call => call.perform c) c).IsPast l ∧
      (calls.foldl (fun c call => call.perform c) c).machine
        = (fun m => (Machine.run m l.code).machine)^[calls.length] c.machine := by
  induction calls with
  | nil => intro c h _; exact ⟨h, rfl⟩
  | cons call rest ih =>
    intro c h hall
    have hfirst : call.Allows c.steps :=
      (hall call List.mem_cons_self).of_le (Nat.le_add_right _ _)
    obtain ⟨hpast, hsteps, hmachine⟩ := h.perform hl hfirst
    have hrest : ∀ k ∈ rest, k.Allows ((call.perform c).steps + rest.length) := by
      intro k hk
      apply (hall k (List.mem_cons_of_mem _ hk)).of_le
      rw [List.length_cons]
      omega
    obtain ⟨hend, hmachines⟩ := ih hpast hrest
    refine ⟨hend, ?_⟩
    rw [List.foldl_cons, hmachines, hmachine, List.length_cons, Function.iterate_succ_apply]

/-- Where the limit has been met nothing is executed, and nothing is answered either. -/
theorem calls_of_isSpent (hs : isSpent s c.steps = true) (hne : c.program ≠ []) :
    ((c.step s).1 = c ∧ ∃ f, (c.step s).2 = .error f) ∧
      (c.run s).1.silent = c.silent ∧ ∃ f, (c.run s).2 = .failed f := by
  obtain ⟨limit, hlimit⟩ := exists_limit_of_isSpent hs
  have hfuel : c.fuel s = (limit - c.steps).toNat + 1 := by rw [fuel, hlimit]
  have hstep := step_of_isSpent hs
  obtain ⟨journal, hrun⟩ := run_of_ne_nil (s := s) hne
  rw [hfuel, loop_of_error hstep] at hrun
  rw [hstep, hrun]
  refine ⟨⟨rfl, _, rfl⟩, rfl, ?_⟩
  unfold reported
  split
  · split
    · exact ⟨_, rfl⟩
    · exact ⟨_, rfl⟩
  · exact ⟨_, rfl⟩

/-- **A program that has ended executes its last line again.**  Let a step have answered that the
program has ended.  The line that it executed is still under the pointer, and the counter is past
every line.  Where the limit has been met, a further step or run executes nothing, but it fails and
does not answer that the program has ended.  Anywhere else a further step executes that line once
more, with all that the line does to the machine, and after a jump the program goes on; and if the
line is no jump, any number of further calls execute it once each. -/
theorem repeats_of_ended (h : c.step s = (d, .ok false)) :
    ∃ l, c.current? = some l ∧ d.IsPast l ∧
      (∀ s', isSpent s' d.steps = true →
        ((d.step s').1 = d ∧ ∃ f, (d.step s').2 = .error f) ∧
          (d.run s').1.silent = d.silent ∧ ∃ f, (d.run s').2 = .failed f) ∧
      (∀ s', isSpent s' d.steps = false → Repeats l d (d.step s').1 (d.step s').2) ∧
      (¬ l.IsJump → ∀ calls : List Call,
        (∀ call ∈ calls, call.Allows (d.steps + calls.length)) →
          (calls.foldl (fun e call => call.perform e) d).IsPast l ∧
            (calls.foldl (fun e call => call.perform e) d).machine
              = (fun m => (Machine.run m l.code).machine)^[calls.length] d.machine) := by
  obtain ⟨l, hl, hpast⟩ := isPast_of_step h
  refine ⟨l, hl, hpast, ?_, ?_, ?_⟩
  · intro s' hs
    exact calls_of_isSpent hs hpast.program_ne_nil
  · intro s' hs
    exact hpast.step hs
  · intro hjump calls hcalls
    exact calls_of_isPast hjump calls hpast hcalls

/-- A conditional jump as the last line, not taken at first: the program ends, and goes on when it
is stepped again. -/
theorem repeats_of_ended_jump :
    (step {} { program := [⟨0, "jmpc".toList⟩], machine := { stack := [5, 0, 0, 1] } }).2
        = .ok false ∧
      (step {} (step {}
        { program := [⟨0, "jmpc".toList⟩], machine := { stack := [5, 0, 0, 1] } }).1).2
        = .ok true := by
  have hend : (step {}
      { program := [⟨0, "jmpc".toList⟩], machine := { stack := [5, 0, 0, 1] } }).2
      = .ok false := by
    decide +kernel
  obtain ⟨l, hl, -, -, hrepeats, -⟩ := repeats_of_ended (d := (step {} _).1) (Prod.ext rfl hend)
  obtain rfl := Option.some.inj hl
  refine ⟨hend, (hrepeats {} rfl).jumps ⟨0, true⟩ ?_ rfl ⟨⟨0, "jmpc".toList⟩, ?_, Int.le_refl 0⟩⟩
  · decide +kernel
  · rw [(step_frame _ _).1]
    exact List.mem_singleton_self _

/-- A program of one line that has ended, and the state after one more step. -/
theorem step_of_ended_push :
    (load [⟨0, "push 1".toList⟩] {}).2 = .ok () ∧
      (step {} (load [⟨0, "push 1".toList⟩] {}).1).2 = .ok false ∧
      (step {} (load [⟨0, "push 1".toList⟩] {}).1).1.machine.stack = [1] ∧
      (step {} (step {} (load [⟨0, "push 1".toList⟩] {}).1).1).1.machine.stack = [1, 1] ∧
      (step {} (step {} (load [⟨0, "push 1".toList⟩] {}).1).1).1.steps = 2 := by
  refine ⟨?_, ?_, ?_, ?_, ?_⟩ <;> decide +kernel

end Control

end MxLang
