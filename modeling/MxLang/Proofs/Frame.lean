import MxLang.Proofs.Resume

/-!
# Values underneath the stack

A command takes what it needs from the top of the stack and never asks how deep the stack is.  So
values that lie underneath can be told from nothing but an underflow: a run that does not end in one
is the same run over any other values, and leaves them where they are (`runProgram_above`).

`Machine.above` puts values underneath.  That the commands do not see them is said once for the
ways in which they take operands (`withOne_above`, `withTwo_above`) and then for all of them
(`perform_above`); a step keeps it (`step_above`), and so does a loop (`loop_above`).

What follows the loop is a report on the state, if the settings ask for it, and the report lists the
whole stack.  It fails over a number that cannot be written, and that failure takes the place of the
ending (`reported`).  So a value underneath can come to light after all, if it has too many digits:
`runProgram_above_unwritable`.
-/

namespace MxLang

/-! ### Want of operands -/

/-- Whether an operation failed for want of operands. -/
def Failure.isUnderflow : Failure → Bool
  | .fault (.stop s) => decide (s.cause = .stackUnderflow)
  | _ => false

/-- Whether a run ended for want of operands. -/
def Ending.isUnderflow : Ending → Bool
  | .failed f => f.isUnderflow
  | _ => false

/-- The answer of an operation that did not want for operands. -/
def IsSupplied {α : Type} (answer : Except Failure α) : Prop :=
  ∀ f, answer = .error f → f.isUnderflow = false

theorem Failure.isUnderflow_annotate (f : Failure) (opcode : Text) (n : Int) :
    (f.annotate opcode n).isUnderflow = f.isUnderflow := by
  unfold Failure.annotate
  split <;> rfl

theorem isSupplied_ok {α : Type} (a : α) : IsSupplied (.ok a) := by
  intro f hf
  cases hf

theorem isSupplied_error {α : Type} {f : Failure} :
    IsSupplied (.error f : Except Failure α) ↔ f.isUnderflow = false := by
  constructor
  · intro h
    exact h f rfl
  · intro h g hg
    cases hg
    exact h

/-! ### Commands -/

/-- The state with further values underneath its stack. -/
def Machine.above (b : List Int) (m : Machine) : Machine :=
  { m with stack := m.stack ++ b }

/-- The effect with further values underneath the stack. -/
def Effect.above (b : List Int) (e : Effect) : Effect :=
  { e with machine := e.machine.above b }

namespace Machine

variable {m : Machine} {b : List Int}

theorem not_isSupplied_underflow (m : Machine) : ¬ IsSupplied m.underflow.outcome := by
  intro h
  exact absurd (isSupplied_error.1 h) (by decide)

theorem withOne_above {k : Int → Machine → Effect}
    (hk : ∀ a m', k a (m'.above b) = (k a m').above b) (h : IsSupplied (m.withOne k).outcome) :
    (m.above b).withOne k = (m.withOne k).above b := by
  obtain ⟨stack, tape, input, printed, broken, taken, clogged, held⟩ := m
  cases stack with
  | nil => exact absurd h (not_isSupplied_underflow _)
  | cons a rest => exact hk a ⟨rest, tape, input, printed, broken, taken, clogged, held⟩

theorem withTwo_above {k : Int → Int → Machine → Effect}
    (hk : ∀ a c m', k a c (m'.above b) = (k a c m').above b)
    (h : IsSupplied (m.withTwo k).outcome) : (m.above b).withTwo k = (m.withTwo k).above b := by
  obtain ⟨stack, tape, input, printed, broken, taken, clogged, held⟩ := m
  match stack with
  | [] => exact absurd h (not_isSupplied_underflow _)
  | [_] => exact absurd h (not_isSupplied_underflow _)
  | a :: c :: rest => exact hk a c ⟨rest, tape, input, printed, broken, taken, clogged, held⟩

theorem readChar_above (m : Machine) (b : List Int) :
    (m.above b).readChar = m.readChar.above b := by
  obtain ⟨stack, tape, ⟨lines, ending⟩, printed, broken, taken, clogged, held⟩ := m
  match lines with
  | [] => cases ending <;> rfl
  | [] :: _ => rfl
  | (_ :: _) :: _ => rfl

theorem printTop_above (h : IsSupplied m.printTop.outcome) :
    (m.above b).printTop = m.printTop.above b := by
  refine withOne_above (fun v m' => ?_) h
  by_cases hv : Numeral.isWritable v
  · obtain ⟨stack, tape, input, printed, broken, taken, clogged, held⟩ := m'
    simp only [hv, if_true]
    cases broken with
    | some reason => rfl
    | none => cases clogged <;> rfl
  · simp only [hv]
    rfl

theorem divide_above {op : Opcode} {result : Int → Int → Option Int}
    (h : IsSupplied (m.divide op result).outcome) :
    (m.above b).divide op result = (m.divide op result).above b := by
  refine withTwo_above (fun a c m' => ?_) h
  cases result a c <;> rfl

theorem not_above (h : IsSupplied (m.performBare .not).outcome) :
    (m.above b).performBare .not = (m.performBare .not).above b := by
  refine withOne_above (fun a m' => ?_) h
  by_cases ha : a = 0 ∨ a = 1
  · simp only [if_pos ha]
    rfl
  · simp only [if_neg ha]
    rfl

theorem performBare_above {op : Opcode} (h : IsSupplied (m.performBare op).outcome) :
    (m.above b).performBare op = (m.performBare op).above b := by
  cases op with
  | left | right | pusht => rfl
  | pop | dup | del | jmp => exact withOne_above (fun _ _ => rfl) h
  | eq | gt | lt | add | sub | mult | jmpc => exact withTwo_above (fun _ _ _ => rfl) h
  | not => exact not_above h
  | div | mod => exact divide_above h
  | read => exact readChar_above m b
  | print => exact printTop_above h

theorem perform_above {c : Command} (h : IsSupplied (m.perform c).outcome) :
    (m.above b).perform c = (m.perform c).above b := by
  cases c with
  | push v => rfl
  | bare op => exact performBare_above h

/-- **A command that does not want for operands does not see what lies underneath them.** -/
theorem run_above {code : Text} (h : IsSupplied (m.run code).outcome) :
    (m.above b).run code = (m.run code).above b := by
  unfold run at h ⊢
  cases hc : Command.ofText code with
  | ok c =>
    rw [hc] at h
    exact perform_above h
  | error f => rfl

end Machine

/-! ### Steps and runs -/

/-- The settings without the report at the end. -/
def Settings.quiet (s : Settings) : Settings :=
  { s with debug := false }

namespace Control

/-- The control unit with further values underneath the stack of its machine. -/
def above (b : List Int) (c : Control) : Control :=
  { c with machine := c.machine.above b }

variable {s : Settings} {c : Control} {b : List Int} {l : Line}

@[simp] theorem counter_above (c : Control) (b : List Int) : (c.above b).counter = c.counter :=
  rfl

theorem executed_above (h : IsSupplied (c.machine.run l.code).outcome) :
    (c.above b).executed s l = (c.executed s l).above b := by
  have hrun : (c.above b).machine.run l.code = (c.machine.run l.code).above b := Machine.run_above h
  unfold executed
  rw [hrun]
  rfl

theorem advance_above (c : Control) (b : List Int) (l : Line) (jump : Jump) :
    (c.above b).advance l jump = ((c.advance l jump).1.above b, (c.advance l jump).2) := by
  cases hseek : firstFrom? (following c.counter jump) 0 c.program with
  | some found =>
    rw [advance_of_some hseek, advance_of_some (c := c.above b) hseek]
    rfl
  | none =>
    cases ht : jump.taken with
    | true =>
      rw [advance_of_jump ht hseek, advance_of_jump (c := c.above b) ht hseek]
      rfl
    | false =>
      have hend : (c.above b).advance l jump = _ := advance_of_end ht hseek
      rw [hend, advance_of_end ht hseek, counter_above]
      dsimp only
      rfl

/-- **A step that does not want for operands does not see what lies underneath them.** -/
theorem step_above (h : IsSupplied (c.step s).2) :
    (c.above b).step s = ((c.step s).1.above b, (c.step s).2) := by
  cases hs : isSpent s c.steps with
  | true =>
    rw [step_of_isSpent hs, step_of_isSpent (c := c.above b) hs]
    rfl
  | false =>
    cases hl : c.current? with
    | none =>
      rw [step_of_no_line hs hl, step_of_no_line (c := c.above b) hs hl]
    | some l =>
      cases hj : (c.machine.run l.code).outcome with
      | error f =>
        rw [step_of_error hs hl hj] at h ⊢
        have hf : IsSupplied (c.machine.run l.code).outcome := by
          rw [isSupplied_error, Failure.isUnderflow_annotate] at h
          rw [hj, isSupplied_error]
          exact h
        have hj' : ((c.above b).machine.run l.code).outcome = .error f := by
          show ((c.machine.above b).run l.code).outcome = _
          rw [Machine.run_above hf]
          exact hj
        rw [step_of_error (c := c.above b) hs hl hj', executed_above hf]
      | ok jump =>
        have hf : IsSupplied (c.machine.run l.code).outcome := by
          rw [hj]
          exact isSupplied_ok jump
        have hj' : ((c.above b).machine.run l.code).outcome = .ok jump := by
          show ((c.machine.above b).run l.code).outcome = _
          rw [Machine.run_above hf]
          exact hj
        rw [step_of_ok hs hl hj, step_of_ok (c := c.above b) hs hl hj', executed_above hf,
          advance_above]

/-- A loop that does not end in an underflow is the same loop over any values. -/
theorem loop_above {n : Nat} (h : (c.loop s n).2.isUnderflow = false) :
    (c.above b).loop s n = ((c.loop s n).1.above b, (c.loop s n).2) := by
  induction n generalizing c with
  | zero => rfl
  | succ n ih =>
    cases hstep : c.step s with
    | mk d answer =>
      have habove : IsSupplied (c.step s).2 → (c.above b).step s = (d.above b, answer) := by
        intro hs
        rw [step_above hs, hstep]
      rw [hstep] at habove
      match answer with
      | .error f =>
        rw [loop_of_error hstep] at h ⊢
        rw [loop_of_error (habove (isSupplied_error.2 h))]
      | .ok false =>
        rw [loop_of_halt hstep, loop_of_halt (habove (isSupplied_ok _))]
      | .ok true =>
        rw [loop_of_more hstep] at h ⊢
        rw [loop_of_more (habove (isSupplied_ok _))]
        exact ih h

theorem run_of_quiet (hdebug : s.debug = false) (hne : c.program ≠ []) :
    c.run s = ({ (c.loop s (c.fuel s)).1 with
        journal :=
          if (c.loop s (c.fuel s)).2 = .halted then
            .halted (c.loop s (c.fuel s)).1.steps :: (c.loop s (c.fuel s)).1.journal
          else (c.loop s (c.fuel s)).1.journal }, (c.loop s (c.fuel s)).2) := by
  rw [run, if_neg hne]
  cases hloop : c.loop s (c.fuel s) with
  | mk d e =>
    simp only [report, hdebug, Bool.false_eq_true, if_false]
    cases e <;> rfl

/-- A run without a report that does not end in an underflow is the same run over any values. -/
theorem run_above_of_quiet (hdebug : s.debug = false) (h : (c.run s).2.isUnderflow = false) :
    (c.above b).run s = ((c.run s).1.above b, (c.run s).2) := by
  by_cases hne : c.program = []
  · rw [run, run, if_pos hne, if_pos (show (c.above b).program = [] from hne)]
  · rw [run_of_quiet hdebug hne] at h ⊢
    have hloop : (c.above b).loop s ((c.above b).fuel s)
        = ((c.loop s (c.fuel s)).1.above b, (c.loop s (c.fuel s)).2) := loop_above h
    rw [run_of_quiet (c := c.above b) hdebug hne, hloop]
    rfl

/-! ### Reports -/

theorem loop_quiet (s : Settings) (n : Nat) (c : Control) : c.loop s.quiet n = c.loop s n := by
  induction n generalizing c with
  | zero => rfl
  | succ n ih =>
    cases hstep : c.step s with
    | mk d answer =>
      have hquiet : c.step s.quiet = (d, answer) := hstep
      match answer with
      | .error f => rw [loop_of_error hstep, loop_of_error hquiet]
      | .ok false => rw [loop_of_halt hstep, loop_of_halt hquiet]
      | .ok true => rw [loop_of_more hstep, loop_of_more hquiet, ih]

/-- Without a report a run ends as its loop does. -/
theorem ending_run_quiet (hne : c.program ≠ []) :
    (c.run s.quiet).2 = (c.loop s (c.fuel s)).2 := by
  rw [run_of_quiet rfl hne, loop_quiet]
  rfl

/-- The report on a state with values underneath the stack leaves the ending that the report without
them leaves, unless one of the values cannot be written. -/
theorem reported_above (s : Settings) (m : Machine) (b : List Int) (e : Ending) :
    reported s (m.above b) e = reported s m e ∨
      s.debug = true ∧ (∃ v ∈ b, Numeral.isWritable v = false) ∧
        reported s (m.above b) e = .failed (.numeral .tooLongToWrite) := by
  cases hdebug : s.debug with
  | false =>
    left
    rw [reported, reported, hdebug]
    rfl
  | true =>
    have hstack : (m.above b).stack.all Numeral.isWritable
        = (m.stack.all Numeral.isWritable && b.all Numeral.isWritable) := List.all_append
    rw [reported_of_debug hdebug, reported_of_debug hdebug, hstack]
    cases hb : b.all Numeral.isWritable with
    | true =>
      left
      rw [Bool.and_true]
      rfl
    | false =>
      right
      obtain ⟨v, hv, hw⟩ := List.all_eq_false.1 hb
      rw [Bool.and_false, Bool.and_false]
      exact ⟨rfl, ⟨v, hv, eq_false_of_ne_true hw⟩, rfl⟩

/-- **A run whose loop does not end in an underflow is the same run over any values**, but for what
the report makes of them. -/
theorem run_above (hne : c.program ≠ []) (h : (c.loop s (c.fuel s)).2.isUnderflow = false) :
    ((c.above b).run s).1.silent = ((c.run s).1.above b).silent ∧
      (((c.above b).run s).2 = (c.run s).2 ∨
        s.debug = true ∧ (∃ v ∈ b, Numeral.isWritable v = false) ∧
          ((c.above b).run s).2 = .failed (.numeral .tooLongToWrite)) := by
  have hloop : (c.above b).loop s ((c.above b).fuel s)
      = ((c.loop s (c.fuel s)).1.above b, (c.loop s (c.fuel s)).2) := loop_above h
  obtain ⟨journal, hrun⟩ := run_of_ne_nil (s := s) hne
  obtain ⟨journal', hrun'⟩ := run_of_ne_nil (s := s) (c := c.above b) hne
  rw [hloop] at hrun'
  rw [hrun, hrun']
  exact ⟨rfl, reported_above s _ b _⟩

/-- An underflow is hidden only by a report that fails. -/
theorem reported_of_isUnderflow {m : Machine} {e : Ending} (he : e.isUnderflow = true)
    (h : (reported s m e).isUnderflow = false) :
    s.debug = true ∧ reported s m e = .failed (.numeral .tooLongToWrite) := by
  cases hdebug : s.debug with
  | false =>
    rw [reported, hdebug, if_neg Bool.false_ne_true, he] at h
    cases h
  | true =>
    rw [reported_of_debug hdebug] at h ⊢
    split at h
    · rw [he] at h
      cases h
    · rename_i hall
      exact ⟨rfl, if_neg hall⟩

theorem load_above (lines : List Line) (c : Control) (b : List Int) :
    load lines (c.above b) = ((load lines c).1.above b, (load lines c).2) := by
  unfold load
  by_cases hnil : Program.sort lines = []
  · simp only [hnil, if_true]
    rfl
  · simp only [hnil, if_false, seek]
    cases firstFrom? 0 0 (Program.sort lines) <;> rfl

/-- **Values underneath the used part of the stack never matter, but to the report.**  Let a program
that is run from some state of the machine halt, fail or be given up, and not for want of operands.

Without a report on the state, the run with values underneath the stack ends in the same way and in
the same state, with the same steps, counter, tape, unread input and output, and with the values
still underneath the stack.  With a report this is so as well, except that the report may fail over
a value underneath that cannot be written, and then the run fails with it.  The only other case is
that the report of the run without the values has failed itself and has hidden a want of
operands. -/
theorem runProgram_above (s : Settings) (m : Machine) (lines : List Line) (b : List Int)
    (h : (runProgram s m lines).2.isUnderflow = false) :
    (s.debug = false →
      runProgram s (m.above b) lines
        = ((runProgram s m lines).1.above b, (runProgram s m lines).2)) ∧
    ((runProgram s (m.above b) lines).1.silent = ((runProgram s m lines).1.above b).silent ∧
        ((runProgram s (m.above b) lines).2 = (runProgram s m lines).2 ∨
          s.debug = true ∧ (∃ v ∈ b, Numeral.isWritable v = false) ∧
            (runProgram s (m.above b) lines).2 = .failed (.numeral .tooLongToWrite)) ∨
      s.debug = true ∧ (runProgram s.quiet m lines).2.isUnderflow = true ∧
        (runProgram s m lines).2 = .failed (.numeral .tooLongToWrite)) := by
  have habove := load_above lines { machine := m } b
  cases hload : load lines { machine := m } with
  | mk c answer =>
    rw [hload] at habove
    cases answer with
    | error f =>
      rw [runProgram_of_load_error hload, runProgram_of_load_error habove]
      exact ⟨fun _ => rfl, .inl ⟨rfl, .inl rfl⟩⟩
    | ok _ =>
      have hne := program_ne_nil_of_load hload
      rw [runProgram_of_load hload] at h ⊢
      rw [runProgram_of_load habove, runProgram_of_load hload]
      refine ⟨fun hdebug => run_above_of_quiet hdebug h, ?_⟩
      cases hunder : (c.loop s (c.fuel s)).2.isUnderflow with
      | false => exact .inl (run_above hne hunder)
      | true =>
        obtain ⟨journal, hrun⟩ := run_of_ne_nil (s := s) hne
        rw [hrun] at h ⊢
        obtain ⟨hdebug, hending⟩ := reported_of_isUnderflow hunder h
        exact .inr ⟨hdebug, by rw [ending_run_quiet hne, hunder], hending⟩

/-- A program that prints, jumps to where the stack says and fails over a zero divisor, its operands
already taken. -/
theorem runProgram_above_division :
    (runProgram { limit := some 20 } { stack := [4, 3, 7] }
        [⟨0, "print".toList⟩, ⟨2, "jmp".toList⟩, ⟨4, "push 0".toList⟩, ⟨6, "push 1".toList⟩,
          ⟨7, "div".toList⟩]).2.isUnderflow = false ∧
      runProgram { limit := some 20 } { stack := [4, 3, 7, 1, 2] }
          [⟨0, "print".toList⟩, ⟨2, "jmp".toList⟩, ⟨4, "push 0".toList⟩, ⟨6, "push 1".toList⟩,
            ⟨7, "div".toList⟩]
        = ((runProgram { limit := some 20 } { stack := [4, 3, 7] }
            [⟨0, "print".toList⟩, ⟨2, "jmp".toList⟩, ⟨4, "push 0".toList⟩, ⟨6, "push 1".toList⟩,
              ⟨7, "div".toList⟩]).1.above [1, 2],
          .failed (.fault (.stop
            { cause := .divisionByZero "div".toList 1
              opcode := "div".toList
              priority := some 7 }))) := by
  have hend : (runProgram { limit := some 20 } { stack := [4, 3, 7] }
      [⟨0, "print".toList⟩, ⟨2, "jmp".toList⟩, ⟨4, "push 0".toList⟩, ⟨6, "push 1".toList⟩,
        ⟨7, "div".toList⟩]).2
      = .failed (.fault (.stop
          { cause := .divisionByZero "div".toList 1
            opcode := "div".toList
            priority := some 7 })) := by
    rw [runProgram_of_ascending _ _ (by decide) (by decide)]
    decide +kernel
  have hunder : (runProgram { limit := some 20 } { stack := [4, 3, 7] }
      [⟨0, "print".toList⟩, ⟨2, "jmp".toList⟩, ⟨4, "push 0".toList⟩, ⟨6, "push 1".toList⟩,
        ⟨7, "div".toList⟩]).2.isUnderflow = false := by
    rw [hend]
    decide
  refine ⟨hunder, ?_⟩
  have habove := (runProgram_above { limit := some 20 } { stack := [4, 3, 7] }
    [⟨0, "print".toList⟩, ⟨2, "jmp".toList⟩, ⟨4, "push 0".toList⟩, ⟨6, "push 1".toList⟩,
      ⟨7, "div".toList⟩] [1, 2] hunder).1 rfl
  rw [hend] at habove
  exact habove

/-- The report on a state that the program has halted in fails over a value underneath the stack,
ten squared thirteen times. -/
theorem runProgram_above_unwritable :
    (runProgram { limit := some 9, debug := true } {} [⟨0, "push 1".toList⟩]).2 = .halted ∧
      (runProgram { limit := some 9, debug := true }
          (Machine.above [Int.ofNat (Nat.pow 10 8192)] {}) [⟨0, "push 1".toList⟩]).2
        = .failed (.numeral .tooLongToWrite) := by
  constructor <;> decide +kernel

end Control

end MxLang
