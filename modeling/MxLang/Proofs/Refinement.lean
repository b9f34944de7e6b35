import MxLang.Proofs.Chart
import MxLang.Proofs.Control
import MxLang.Proofs.Machine

/-!
# The control unit refines a machine on charts

`Chart.run` runs a program that is given as a chart.  It knows neither an order of lines nor an
index: it stands at a priority and goes to the least one at or after the next.
`runProgram_eq_worded` says that the control unit does the same, and with it that programs of one
chart cannot be told apart.

There is one difference.  The control unit notices the end of a program, a jump to nowhere and the
limit by a fault, and puts the fault into words at once.  When a number in these words has too many
digits the run ends in the failure to write it; `worded` is this turn.  A program whose last line
has such a priority cannot halt (`runProgram_ne_run_long`).
-/

namespace MxLang

/-- What can be seen of a run. -/
structure Observation where
  machine : Machine
  steps : Nat
  counter : Int
  ending : Ending
deriving DecidableEq

/-- The observation after the report on the state. -/
def Observation.reported (s : Settings) (o : Observation) : Observation :=
  { o with ending := Control.reported s o.machine o.ending }

/-! ### The machine on charts -/

namespace Chart

/-- At most `fuel` instructions, from the given line on. -/
def loop (s : Settings) (M : Chart) :
    (fuel : Nat) → (steps : Nat) → Line → Machine → Observation
  | 0, steps, l, m => ⟨m, steps, l.priority, .unfinished⟩
  | fuel + 1, steps, l, m =>
    if s.limit.any fun limit => decide (limit ≤ (steps : Int)) then
      ⟨m, steps, l.priority, .failed (.fault (.stop
        { cause := .stepLimit (s.limit.getD 0), priority := some l.priority }))⟩
    else
      let effect := m.run l.code
      match effect.outcome with
      | .error f =>
        ⟨effect.machine, steps, l.priority, .failed (f.annotate l.opcode l.priority)⟩
      | .ok ⟨target, true⟩ =>
        match M.next? target with
        | some next => loop s M fuel (steps + 1) next effect.machine
        | none =>
          ⟨effect.machine, steps + 1, target, .failed (.fault (.stop
            { cause := .noNextLine target true (some target)
              opcode := l.opcode
              priority := some l.priority }))⟩
      | .ok ⟨_, false⟩ =>
        match M.next? (l.priority + 1) with
        | some next => loop s M fuel (steps + 1) next effect.machine
        | none => ⟨effect.machine, steps + 1, l.priority + 1, .halted⟩

section

open Control

variable {s : Settings} {M : Chart} {fuel steps : Nat} {l : Line} {m : Machine}

theorem loop_of_isSpent (hs : isSpent s steps = true) :
    M.loop s (fuel + 1) steps l m = ⟨m, steps, l.priority, .failed (.fault (.stop
      { cause := .stepLimit (s.limit.getD 0), priority := some l.priority }))⟩ := by
  rw [loop, ← isSpent, if_pos hs]

theorem loop_of_error {f : Failure} (hs : isSpent s steps = false)
    (hf : (m.run l.code).outcome = .error f) :
    M.loop s (fuel + 1) steps l m = ⟨(m.run l.code).machine, steps, l.priority,
      .failed (f.annotate l.opcode l.priority)⟩ := by
  rw [loop, ← isSpent, hs, if_neg Bool.false_ne_true]
  simp only [hf]

theorem loop_of_some {jump : Jump} {next : Line} (hs : isSpent s steps = false)
    (hj : (m.run l.code).outcome = .ok jump)
    (h : M.next? (following l.priority jump) = some next) :
    M.loop s (fuel + 1) steps l m
      = M.loop s fuel (steps + 1) next (m.run l.code).machine := by
  rw [loop, ← isSpent, hs, if_neg Bool.false_ne_true]
  obtain ⟨target, taken⟩ := jump
  cases taken with
  | true =>
    have h' : M.next? target = some next := h
    simp only [hj, h']
  | false =>
    have h' : M.next? (l.priority + 1) = some next := h
    simp only [hj, h']

theorem loop_of_jump {target : Int} (hs : isSpent s steps = false)
    (hj : (m.run l.code).outcome = .ok ⟨target, true⟩) (h : M.next? target = none) :
    M.loop s (fuel + 1) steps l m = ⟨(m.run l.code).machine, steps + 1, target,
      .failed (.fault (.stop
        { cause := .noNextLine target true (some target)
          opcode := l.opcode
          priority := some l.priority }))⟩ := by
  rw [loop, ← isSpent, hs, if_neg Bool.false_ne_true]
  simp only [hj, h]

theorem loop_of_end {target : Int} (hs : isSpent s steps = false)
    (hj : (m.run l.code).outcome = .ok ⟨target, false⟩) (h : M.next? (l.priority + 1) = none) :
    M.loop s (fuel + 1) steps l m
      = ⟨(m.run l.code).machine, steps + 1, l.priority + 1, .halted⟩ := by
  rw [loop, ← isSpent, hs, if_neg Bool.false_ne_true]
  simp only [hj, h]

end

/-- How many instructions a run may be given: one more than the limit, so that it is met, or the
patience if there is none. -/
def allowance (s : Settings) : Nat :=
  match s.limit with
  | some limit => limit.toNat + 1
  | none => s.patience

/-- Runs the program from the least priority that is not negative. -/
def run (s : Settings) (m : Machine) (M : Chart) : Observation :=
  if M = ∅ then ⟨m, 0, 0, .failed (.fault (.stop { cause := .emptyProgram }))⟩
  else
    match M.next? 0 with
    | none => ⟨m, 0, 0, .failed (.fault (.stop { cause := .noNextLine 0 false none }))⟩
    | some l => (M.loop s (allowance s) 0 l m).reported s

end Chart

/-! ### Numbers that cannot be written -/

/-- A stop whose words cannot be written is a failure to write them. -/
def Failure.worded : Failure → Failure
  | .fault (.stop s) => .ofStop s
  | f => f

/-- Whether the numbers in the words for a failure can be written. -/
def Failure.isWordable : Failure → Bool
  | .fault (.stop s) => s.cause.isWordable
  | _ => true

theorem Failure.worded_eq_self_iff {f : Failure} : f.worded = f ↔ f.isWordable := by
  unfold Failure.worded Failure.isWordable
  split
  · rename_i s
    by_cases h : s.cause.isWordable
    · rw [Failure.ofStop, if_pos h]
      exact iff_of_true rfl h
    · rw [Failure.ofStop, if_neg h]
      exact iff_of_false Failure.noConfusion h
  · exact iff_of_true rfl rfl

theorem Failure.worded_ofStop (s : Stop) : (Failure.ofStop s).worded = .ofStop s := by
  by_cases h : s.cause.isWordable
  · rw [Failure.ofStop, if_pos h]
    exact if_pos h
  · rw [Failure.ofStop, if_neg h]
    rfl

theorem Failure.ofStop_annotate (s : Stop) (opcode : Text) (n : Int) :
    Failure.ofStop (s.annotate opcode n) = (Failure.ofStop s).annotate opcode n := by
  by_cases h : s.cause.isWordable
  · rw [Failure.ofStop, Failure.ofStop, if_pos h]
    exact if_pos h
  · rw [Failure.ofStop, Failure.ofStop, if_neg h]
    exact if_neg h

theorem Failure.worded_annotate (f : Failure) (opcode : Text) (n : Int) :
    (f.annotate opcode n).worded = f.worded.annotate opcode n := by
  cases f with
  | fault g =>
    cases g with
    | stop s => exact Failure.ofStop_annotate s opcode n
    | _ => rfl
  | _ => rfl

theorem worded_of_ofText {code : Text} {f : Failure} (h : Command.ofText code = .error f) :
    f.worded = f := by
  unfold Command.ofText at h
  split at h
  · exact Except.error.inj h ▸ Failure.worded_ofStop _
  · split at h
    · split at h
      · exact Except.error.inj h ▸ rfl
      · cases h
      · exact Except.error.inj h ▸ Failure.worded_ofStop _
    · split at h
      · cases h
      · exact Except.error.inj h ▸ Failure.worded_ofStop _

/-- The machine words its own failures. -/
theorem Machine.worded_of_run {m : Machine} {code : Text} {f : Failure}
    (h : (m.run code).outcome = .error f) : f.worded = f := by
  unfold Machine.run at h
  split at h
  · cases Machine.failing_of_perform h with
    | stop _ => exact Failure.worded_ofStop _
    | numeral e => rfl
    | device reason => rfl
    | interrupted => rfl
  · rename_i g hg
    exact Except.error.inj h ▸ worded_of_ofText hg

namespace Observation

/-- The observation once its ending has been put into words. -/
def worded (o : Observation) : Observation :=
  { o with
    ending :=
      match o.ending with
      | .halted =>
        if Numeral.isWritable o.counter then .halted else .failed (.numeral .tooLongToWrite)
      | .failed f => .failed f.worded
      | .unfinished => .unfinished }

/-- Whether the numbers in the words for the ending can be written. -/
def isWordable (o : Observation) : Bool :=
  match o.ending with
  | .halted => Numeral.isWritable o.counter
  | .failed f => f.isWordable
  | .unfinished => true

theorem worded_eq_self_iff {o : Observation} : o.worded = o ↔ o.isWordable := by
  obtain ⟨m, steps, counter, ending⟩ := o
  cases ending with
  | halted =>
    by_cases h : Numeral.isWritable counter <;> simp [worded, isWordable, h]
  | failed f =>
    rw [isWordable, ← Failure.worded_eq_self_iff]
    simp [worded]
  | unfinished => simp [worded, isWordable]

/-- The report on the state may come before or after the wording. -/
theorem worded_reported (s : Settings) (o : Observation) :
    (o.reported s).worded = o.worded.reported s := by
  have hmachine : o.worded.machine = o.machine := rfl
  unfold reported Control.reported
  rw [hmachine]
  split
  · split
    · rfl
    · rename_i f hf
      obtain rfl := Machine.eq_of_dump?_eq_error hf
      rfl
  · rfl

end Observation

/-! ### The control unit -/

namespace Control

/-- What can be seen of a run of the control unit. -/
def observe (r : Control × Ending) : Observation :=
  ⟨r.1.machine, r.1.steps, r.1.counter, r.2⟩

/-- Seeking in a sorted program and in its chart. -/
theorem firstFrom?_cases (lines : List Line) (n : Int) :
    (firstFrom? n 0 (Program.sort lines) = none ∧ (Chart.ofLines lines).next? n = none) ∨
      ∃ i l, firstFrom? n 0 (Program.sort lines) = some (i, l) ∧
        (Chart.ofLines lines).next? n = some l ∧ (Program.sort lines)[i]? = some l := by
  have hnext := map_snd_firstFrom?_sort lines n
  cases h : firstFrom? n 0 (Program.sort lines) with
  | none => exact .inl ⟨rfl, by rw [← hnext, h]; rfl⟩
  | some found =>
    obtain ⟨i, l⟩ := found
    refine .inr ⟨i, l, rfl, by rw [← hnext, h]; rfl, ?_⟩
    exact (getElem?_of_firstFrom? h).2

/-- The invariant of a run: the pointer is at a line of the sorted program, and the counter is the
priority of that line. -/
structure StandsAt (lines : List Line) (l : Line) (c : Control) : Prop where
  program : c.program = Program.sort lines
  current : c.current? = some l
  counter : c.counter = l.priority

namespace StandsAt

variable {lines : List Line} {l : Line} {c : Control} {s : Settings}

theorem executed (h : StandsAt lines l c) : StandsAt lines l (c.executed s l) :=
  ⟨h.program, h.current, h.counter⟩

theorem firstFrom?_eq (h : StandsAt lines l c) (jump : Jump) :
    firstFrom? (following c.counter jump) 0 c.program
      = firstFrom? (following l.priority jump) 0 (Program.sort lines) := by
  rw [h.counter, h.program]

/-- The instruction fails. -/
theorem observe_loop_of_error (h : StandsAt lines l c) {f : Failure}
    (hs : isSpent s c.steps = false) (hf : (c.machine.run l.code).outcome = .error f) (n : Nat) :
    observe (c.loop s (n + 1))
      = ((Chart.ofLines lines).loop s (n + 1) c.steps l c.machine).worded := by
  have hworded : (f.annotate l.opcode c.counter).worded = f.annotate l.opcode c.counter := by
    rw [Failure.worded_annotate, Machine.worded_of_run hf]
  rw [Control.loop_of_error (step_of_error hs h.current hf), Chart.loop_of_error hs hf, ← h.counter]
  simp only [Observation.worded, hworded]
  rfl

/-- The instruction succeeds, but no line follows. -/
theorem observe_loop_of_none (h : StandsAt lines l c) {jump : Jump}
    (hs : isSpent s c.steps = false) (hj : (c.machine.run l.code).outcome = .ok jump)
    (hnone : firstFrom? (following l.priority jump) 0 (Program.sort lines) = none)
    (hnext : (Chart.ofLines lines).next? (following l.priority jump) = none) (n : Nat) :
    observe (c.loop s (n + 1))
      = ((Chart.ofLines lines).loop s (n + 1) c.steps l c.machine).worded := by
  have hseek := (h.executed (s := s)).firstFrom?_eq jump
  have hstep := step_of_ok hs h.current hj
  rw [hnone] at hseek
  obtain ⟨target, taken⟩ := jump
  cases taken with
  | true =>
    rw [advance_of_jump rfl hseek, ← Failure.ofStop_annotate] at hstep
    rw [Control.loop_of_error hstep, Chart.loop_of_jump hs hj hnext]
    rfl
  | false =>
    -- The end is noticed by a fault, which is dropped again once it has been put into words.
    rw [advance_of_end rfl hseek] at hstep
    change c.step s = (_, if Numeral.isWritable (c.counter + 1) then _ else _) at hstep
    rw [Chart.loop_of_end hs hj hnext, ← h.counter]
    by_cases hw : Numeral.isWritable (c.counter + 1)
    · rw [if_pos hw] at hstep
      rw [Control.loop_of_halt hstep]
      simp only [Observation.worded, hw, if_true]
      rfl
    · rw [if_neg hw] at hstep
      rw [Control.loop_of_error hstep]
      simp only [Observation.worded, hw, Bool.false_eq_true, if_false]
      rfl

/-- **A step of the control unit is a step of the machine on charts**: both go on at the same line,
or both end, and the ends are the same up to their words. -/
theorem step (h : StandsAt lines l c) (s : Settings) :
    (∃ d next, c.step s = (d, .ok true) ∧ StandsAt lines next d ∧
      ∀ n, (Chart.ofLines lines).loop s (n + 1) c.steps l c.machine
        = (Chart.ofLines lines).loop s n d.steps next d.machine) ∨
    ∀ n, observe (c.loop s (n + 1))
      = ((Chart.ofLines lines).loop s (n + 1) c.steps l c.machine).worded := by
  cases hs : isSpent s c.steps with
  | true =>
    right
    intro n
    rw [Control.loop_of_error (step_of_isSpent hs), Chart.loop_of_isSpent hs, ← h.counter]
    rfl
  | false =>
    cases hj : (c.machine.run l.code).outcome with
    | error f => exact .inr (h.observe_loop_of_error hs hj)
    | ok jump =>
      rcases firstFrom?_cases lines (following l.priority jump) with
        ⟨hnone, hnext⟩ | ⟨i, next, hsome, hnext, hget⟩
      · exact .inr (h.observe_loop_of_none hs hj hnone hnext)
      · left
        have hseek := (h.executed (s := s)).firstFrom?_eq jump
        rw [hsome] at hseek
        have hstep := step_of_ok hs h.current hj
        rw [advance_of_some hseek] at hstep
        refine ⟨_, next, hstep, ⟨h.program, ?_, rfl⟩, fun n => Chart.loop_of_some hs hj hnext⟩
        show c.program[i]? = some next
        rw [h.program, hget]

/-- **A run of the control unit is a run of the machine on charts.** -/
theorem observe_loop (s : Settings) : ∀ (n : Nat) {l : Line} {c : Control}, StandsAt lines l c →
    observe (c.loop s n) = ((Chart.ofLines lines).loop s n c.steps l c.machine).worded := by
  intro n
  induction n with
  | zero =>
    intro l c h
    rw [Control.loop, Chart.loop, ← h.counter]
    rfl
  | succ n ih =>
    intro l c h
    rcases h.step s with ⟨d, next, hstep, hd, hchart⟩ | hend
    · rw [Control.loop_of_more hstep, hchart]
      exact ih hd
    · exact hend n

theorem observe_run (h : StandsAt lines l c) (hne : lines ≠ []) (hs : c.steps = 0) :
    observe (c.run s)
      = (((Chart.ofLines lines).loop s (Chart.allowance s) 0 l c.machine).reported s).worded := by
  have hfuel : c.fuel s = Chart.allowance s := by
    rw [fuel, Chart.allowance, hs]
    cases s.limit with
    | none => rfl
    | some limit => simp
  have hloop := h.observe_loop s (c.fuel s)
  obtain ⟨journal, hrun⟩ := run_of_ne_nil (s := s)
    (h.program ▸ mt Program.sort_eq_nil_iff.1 hne)
  rw [hs] at hloop
  rw [hrun, Observation.worded_reported, ← hfuel, ← hloop]
  rfl

end StandsAt

theorem observe_runProgram (s : Settings) (m : Machine) (lines : List Line) :
    observe (runProgram s m lines) = (Chart.run s m (Chart.ofLines lines)).worded := by
  by_cases hnil : lines = []
  · subst hnil
    rw [runProgram_nil, Chart.run, if_pos (Chart.ofLines_eq_empty_iff.2 rfl)]
    rfl
  · rw [Chart.run, if_neg (mt Chart.ofLines_eq_empty_iff.1 hnil)]
    rcases firstFrom?_cases lines 0 with ⟨hnone, hnext⟩ | ⟨i, l, hsome, hnext, hget⟩
    · rw [runProgram_of_none hnil hnone, hnext]
      simp only [Observation.worded, Failure.worded, Failure.ofStop_noNextLine_zero]
      rfl
    · rw [runProgram_of_some hsome, hnext]
      exact StandsAt.observe_run ⟨rfl, hget, rfl⟩ hnil rfl

/-- **The control unit is the machine on charts, up to numbers that cannot be written.**

For every program, setting and state of the machine, what a run shows is what the machine on charts
shows for the chart of the program, put into words; the two are the same just when every number in
the words can be written.  Programs of one chart cannot be told apart: lines of different
priorities may come in any order, and a line whose priority was given away before is never
executed. -/
theorem runProgram_eq_worded (s : Settings) (m : Machine) (lines : List Line) :
    observe (runProgram s m lines) = (Chart.run s m (Chart.ofLines lines)).worded ∧
    (observe (runProgram s m lines) = Chart.run s m (Chart.ofLines lines) ↔
      (Chart.run s m (Chart.ofLines lines)).isWordable) ∧
    (∀ other, Chart.ofLines other = Chart.ofLines lines →
      observe (runProgram s m other) = observe (runProgram s m lines)) ∧
    (∀ other, other.Perm lines → (lines.map (·.priority)).Nodup →
      Chart.ofLines other = Chart.ofLines lines) ∧
    ∀ front l rest, lines = front ++ l :: rest → (∃ a ∈ front, a.priority = l.priority) →
      Chart.ofLines (front ++ rest) = Chart.ofLines lines := by
  have hsame := observe_runProgram s m
  refine ⟨hsame lines, ?_, ?_, ?_, ?_⟩
  · rw [hsame lines]
    exact Observation.worded_eq_self_iff
  · intro other hchart
    rw [hsame, hsame, hchart]
  · intro other hperm hnodup
    exact Chart.ofLines_perm hperm hnodup
  · rintro front l rest rfl hfirst
    exact (Chart.ofLines_append_cons hfirst).symm

/-- Lines out of order with gaps, a negative priority and one that is given twice. -/
theorem runProgram_eq_worded_gaps :
    observe (runProgram { limit := some 9 } {}
        [⟨7, "print".toList⟩, ⟨-2, "del".toList⟩, ⟨7, "add".toList⟩, ⟨0, "push 1".toList⟩])
      = observe (runProgram { limit := some 9 } {}
        [⟨-2, "del".toList⟩, ⟨0, "push 1".toList⟩, ⟨7, "print".toList⟩]) := by
  obtain ⟨-, -, hsame, -, hlater⟩ := runProgram_eq_worded { limit := some 9 } {}
    [⟨7, "print".toList⟩, ⟨-2, "del".toList⟩, ⟨7, "add".toList⟩, ⟨0, "push 1".toList⟩]
  obtain ⟨-, -, -, hperm, -⟩ := runProgram_eq_worded { limit := some 9 } {}
    [⟨-2, "del".toList⟩, ⟨0, "push 1".toList⟩, ⟨7, "print".toList⟩]
  have hdropped := hlater [⟨7, "print".toList⟩, ⟨-2, "del".toList⟩] ⟨7, "add".toList⟩
    [⟨0, "push 1".toList⟩] rfl ⟨⟨7, "print".toList⟩, List.mem_cons_self, rfl⟩
  have hsorted := hperm [⟨7, "print".toList⟩, ⟨-2, "del".toList⟩, ⟨0, "push 1".toList⟩]
    (by decide) (by decide)
  exact (hsame _ (hsorted.symm.trans hdropped)).symm

/-! ### A program that cannot halt -/

theorem next?_singleton_zero {l : Line} (hl : 0 ≤ l.priority) :
    (Chart.ofLines [l]).next? 0 = some l := by
  rw [Chart.next?_eq_some_iff]
  refine ⟨?_, hl, fun k hk _ => ?_⟩
  · rw [Chart.lookup_ofLines, List.find?_cons_of_pos (by simp)]
    rfl
  · obtain ⟨a, ha, rfl⟩ := Chart.mem_ofLines.1 hk
    rw [List.mem_singleton.1 ha]

theorem next?_singleton_succ (l : Line) : (Chart.ofLines [l]).next? (l.priority + 1) = none := by
  rw [Chart.next?_eq_none_iff]
  intro k hk
  obtain ⟨a, ha, rfl⟩ := Chart.mem_ofLines.1 hk
  rw [List.mem_singleton.1 ha]
  exact Int.lt_succ _

/-- A program of one line that does not jump halts after it. -/
theorem run_singleton {l : Line} {m : Machine} (hl : 0 ≤ l.priority)
    (hj : (m.run l.code).outcome = .ok {}) :
    Chart.run { patience := 1 } m (Chart.ofLines [l])
      = ⟨(m.run l.code).machine, 1, l.priority + 1, .halted⟩ := by
  rw [Chart.run, if_neg (mt Chart.ofLines_eq_empty_iff.1 (List.cons_ne_nil l [])),
    next?_singleton_zero hl]
  show Observation.reported _ (Chart.loop _ _ (0 + 1) 0 l m) = _
  rw [Chart.loop_of_end rfl hj (next?_singleton_succ l)]
  rfl

/-- A line at the greatest priority that can be written: the machine on charts halts behind it, but
the control unit fails, because the number behind it cannot be written. -/
theorem runProgram_ne_run_long :
    (Chart.run { patience := 1 } {}
        (Chart.ofLines [⟨Numeral.bound - 1, "push 1".toList⟩])).ending = .halted ∧
      (runProgram { patience := 1 } {} [⟨Numeral.bound - 1, "push 1".toList⟩]).2
        = .failed (.numeral .tooLongToWrite) := by
  have hpos : (0 : Int) < Numeral.bound := Int.natCast_pos.2 Numeral.bound_pos
  have hlong : ¬ Numeral.isWritable (Numeral.bound - 1 + 1) := by
    rw [Int.sub_add_cancel, Numeral.isWritable, decide_eq_true_eq, Int.natAbs_natCast]
    exact Nat.lt_irrefl _
  have hrun := run_singleton (l := ⟨Numeral.bound - 1, "push 1".toList⟩) (m := {})
    (Int.le_sub_one_of_lt hpos) (by decide)
  have hobserve := observe_runProgram { patience := 1 } {} [⟨Numeral.bound - 1, "push 1".toList⟩]
  rw [hrun] at hobserve ⊢
  refine ⟨rfl, (congrArg Observation.ending hobserve).trans ?_⟩
  simp only [Observation.worded, if_neg hlong]

end Control

end MxLang
