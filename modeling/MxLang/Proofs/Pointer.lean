import MxLang.Proofs.Acceptance
import MxLang.Proofs.Chart
import MxLang.Proofs.Halt

/-!
# The line under the pointer

The control unit knows the line to be executed in two ways: by the number in the counter and by the
index in the pointer.  They agree (`IsAligned`) if the line under the pointer has the number in the
counter and all lines before it have smaller ones.

A step does one of three things (`Turn`).  It fails and leaves both where they are; it finds a line
and sets both to it; or it finds none, and then only the counter has moved, past every line.  So the
pointer always stands on a line, whatever steps have come to, and the two agree until a step finds
no line (`pointer_of_load`).  A step that finds no line tells so: it answers that the program has
ended, or fails because nothing follows a jump.  But if the number where it looked is too long to be
written, it fails with that instead (`step_past_writable`).
-/

namespace MxLang

/-! ### Failures that tell of no line -/

/-- Whether an operation failed because no line follows. -/
def Failure.isLost : Failure → Bool
  | .fault (.stop { cause := .noNextLine _ _ _, .. }) => true
  | _ => false

theorem Failure.isLost_annotate (f : Failure) (opcode : Text) (n : Int) :
    (f.annotate opcode n).isLost = f.isLost := by
  cases f with
  | fault g =>
    cases g with
    | stop y =>
      obtain ⟨cause, word, priority⟩ := y
      cases cause <;> rfl
    | _ => rfl
  | _ => rfl

theorem Failure.isLost_ofStop {y : Stop}
    (h : ∀ counter jumped target, y.cause ≠ .noNextLine counter jumped target) :
    (Failure.ofStop y).isLost = false := by
  obtain ⟨cause, word, priority⟩ := y
  rw [Failure.ofStop]
  split
  · cases cause with
    | noNextLine counter jumped target => exact absurd rfl (h counter jumped target)
    | _ => rfl
  · rfl

/-- The machine knows nothing of lines. -/
theorem Machine.isLost_of_run {m : Machine} {code : Text} {f : Failure}
    (h : (m.run code).outcome = .error f) : f.isLost = false := by
  have hcovers : Machine.Covers fun f => f.isLost = false := by
    refine ⟨fun y hy => Failure.isLost_ofStop ?_, rfl, fun _ => rfl, rfl⟩
    intro counter jumped target hcause
    rw [hcause] at hy
    cases hy
  unfold Machine.run at h
  split at h
  · exact hcovers.of_perform h
  · rename_i g hg
    have hblames := Command.blamesText_of_ofText hg
    obtain rfl := Except.error.inj h
    cases g with
    | fault g =>
      cases g with
      | stop y =>
        obtain ⟨cause, word, priority⟩ := y
        cases cause with
        | noNextLine counter jumped target => cases hblames
        | _ => rfl
      | _ => rfl
    | _ => rfl

namespace Control

variable {s : Settings} {c d : Control} {l : Line}

/-! ### What a step does to counter and pointer -/

/-- A step from `c` that has led to `d` tells that no line follows. -/
inductive TellsEnd (c d : Control) : Except Failure Bool → Prop
  /-- The program has ended. -/
  | ended : TellsEnd c d (.ok false)
  /-- A jump led to where no line follows. -/
  | lost {f : Failure} (h : f.isLost = true) : TellsEnd c d (.error f)
  /-- The instruction was carried out, but what comes after it cannot be written. -/
  | unwritable (h : d.steps = c.steps + 1) : TellsEnd c d (.error (.numeral .tooLongToWrite))

theorem tellsEnd_error_iff {f : Failure} : TellsEnd c d (.error f) ↔
    f.isLost = true ∨ f = .numeral .tooLongToWrite ∧ d.steps = c.steps + 1 := by
  constructor
  · intro h
    cases h with
    | lost h => exact .inl h
    | unwritable h => exact .inr ⟨rfl, h⟩
  · rintro (h | ⟨rfl, h⟩)
    · exact .lost h
    · exact .unwritable h

instance decidableTellsEnd (c d : Control) :
    (answer : Except Failure Bool) → Decidable (TellsEnd c d answer)
  | .ok false => .isTrue .ended
  | .ok true => .isFalse fun h => by cases h
  | .error _ => decidable_of_iff _ tellsEnd_error_iff.symm

/-- What a step from `c`, which has led to `d`, comes to. -/
inductive Turn (c d : Control) : Except Failure Bool → Prop
  /-- It fails, and counter and pointer stay. -/
  | stays {f : Failure} (hf : f.isLost = false) (hsteps : d.steps = c.steps)
      (hcounter : d.counter = c.counter) (hpointer : d.pointer = c.pointer) : Turn c d (.error f)
  /-- It finds the first line from some number on. -/
  | finds {n : Int} {l : Line} (h : firstFrom? n 0 c.program = some (d.pointer, l))
      (hcounter : d.counter = l.priority) : Turn c d (.ok true)
  /-- It finds no line, and the counter is past all of them. -/
  | leaves {answer : Except Failure Bool} (h : TellsEnd c d answer)
      (hpointer : d.pointer = c.pointer) (hpast : ∀ x ∈ c.program, x.priority < d.counter) :
      Turn c d answer

theorem turn_advance (s : Settings) (jump : Jump) :
    Turn c ((c.executed s l).advance l jump).1 ((c.executed s l).advance l jump).2 := by
  cases hseek : firstFrom? (following (c.executed s l).counter jump) 0
      (c.executed s l).program with
  | some found =>
    obtain ⟨i, next⟩ := found
    rw [advance_of_some hseek]
    exact .finds hseek rfl
  | none =>
    have hpast := firstFrom?_eq_none_iff.1 hseek
    cases ht : jump.taken with
    | true =>
      rw [advance_of_jump ht hseek]
      refine .leaves ?_ rfl hpast
      rw [Failure.ofStop]
      split
      · exact .lost rfl
      · exact .unwritable rfl
    | false =>
      rw [advance_of_end ht hseek]
      refine .leaves ?_ rfl hpast
      split
      · exact .ended
      · exact .unwritable rfl

/-- **All that a step can do to counter and pointer**, on whatever line the pointer stands. -/
theorem turn_step (hl : c.current? = some l) (s : Settings) : Turn c (c.step s).1 (c.step s).2 := by
  cases hs : isSpent s c.steps with
  | true =>
    rw [step_of_isSpent hs]
    exact .stays (Failure.isLost_ofStop fun _ _ _ h => StopCause.noConfusion h) rfl rfl rfl
  | false =>
    cases hj : (c.machine.run l.code).outcome with
    | error f =>
      rw [step_of_error hs hl hj]
      refine .stays ?_ rfl rfl rfl
      rw [Failure.isLost_annotate]
      exact Machine.isLost_of_run hj
    | ok jump =>
      rw [step_of_ok hs hl hj]
      exact turn_advance s jump

/-! ### Counter and pointer -/

/-- The line under the pointer has the number in the counter, and the lines before it have smaller
ones. -/
structure IsAligned (c : Control) : Prop where
  current : ∃ l, c.current? = some l ∧ l.priority = c.counter
  before : ∀ x ∈ c.program.take c.pointer, x.priority < c.counter

/-- The lines before the one that is found come too early. -/
theorem lt_of_firstFrom? {n : Int} {p : List Line} {start i : Nat}
    (h : firstFrom? n start p = some (i, l)) :
    n ≤ l.priority ∧ ∀ x ∈ p.take (i - start), x.priority < n := by
  induction p generalizing start with
  | nil => cases h
  | cons a rest ih =>
    rw [firstFrom?] at h
    split at h
    · rename_i ha
      cases h
      rw [Nat.sub_self, List.take_zero]
      exact ⟨ha, fun x hx => absurd hx List.not_mem_nil⟩
    · rename_i ha
      obtain ⟨hle, hbefore⟩ := ih h
      have hi := (getElem?_of_firstFrom? h).1
      rw [show i - start = (i - (start + 1)) + 1 by omega, List.take_succ_cons,
        List.forall_mem_cons]
      exact ⟨hle, by omega, hbefore⟩

/-- A line that is found is the one that counter and pointer agree on. -/
theorem isAligned_of_firstFrom? {n : Int}
    (h : firstFrom? n 0 c.program = some (c.pointer, l)) (hcounter : c.counter = l.priority) :
    c.IsAligned := by
  obtain ⟨hle, hbefore⟩ := lt_of_firstFrom? h
  refine ⟨⟨l, (getElem?_of_firstFrom? h).2, hcounter.symm⟩, ?_⟩
  intro x hx
  have hlt := hbefore x hx
  omega

theorem not_isAligned_of_past (h : ∀ x ∈ c.program, x.priority < c.counter) : ¬ c.IsAligned := by
  rintro ⟨⟨l, hl, hcounter⟩, -⟩
  have hlt := h l (List.mem_of_getElem? hl)
  omega

namespace Turn

variable {answer : Except Failure Bool}

/-- The pointer stays on a line. -/
theorem exists_current (h : Turn c d answer) (hprogram : d.program = c.program)
    (hl : c.current? = some l) : ∃ l, d.current? = some l := by
  cases h with
  | stays _ _ _ hpointer => exact ⟨l, by rw [current?, hprogram, hpointer]; exact hl⟩
  | finds h _ =>
    rw [← hprogram] at h
    exact ⟨_, (getElem?_of_firstFrom? h).2⟩
  | leaves _ hpointer _ => exact ⟨l, by rw [current?, hprogram, hpointer]; exact hl⟩

/-- Counter and pointer agree after a step that does not tell of the end. -/
theorem isAligned (h : Turn c d answer) (hprogram : d.program = c.program) (hc : c.IsAligned)
    (hend : ¬ TellsEnd c d answer) : d.IsAligned := by
  cases h with
  | stays _ _ hcounter hpointer =>
    obtain ⟨⟨l, hl, hpriority⟩, hbefore⟩ := hc
    refine ⟨⟨l, ?_, hcounter ▸ hpriority⟩, ?_⟩
    · rw [current?, hprogram, hpointer]
      exact hl
    · rw [hprogram, hpointer, hcounter]
      exact hbefore
  | finds h hcounter =>
    rw [← hprogram] at h
    exact isAligned_of_firstFrom? h hcounter
  | leaves h _ _ => exact absurd h hend

/-- They do not agree after a step that does. -/
theorem not_isAligned (h : Turn c d answer) (hprogram : d.program = c.program)
    (hend : TellsEnd c d answer) : ¬ d.IsAligned := by
  cases h with
  | stays hf hsteps _ _ =>
    cases hend with
    | lost hlost =>
      rw [hf] at hlost
      cases hlost
    | unwritable hcounted => omega
  | finds _ _ => cases hend
  | leaves _ _ hpast => exact not_isAligned_of_past (hprogram ▸ hpast)

end Turn

/-! ### Many steps -/

/-- The state after steps with the given settings, whatever they come to. -/
def afterSteps (c : Control) : List Settings → Control
  | [] => c
  | s :: rest => (c.step s).1.afterSteps rest

/-- None of the steps with the given settings tells that no line follows. -/
def KeepsOn (c : Control) : List Settings → Prop
  | [] => True
  | s :: rest => ¬ TellsEnd c (c.step s).1 (c.step s).2 ∧ (c.step s).1.KeepsOn rest

instance decidableKeepsOn : (c : Control) → (ss : List Settings) → Decidable (c.KeepsOn ss)
  | _, [] => .isTrue trivial
  | c, s :: rest =>
    haveI := decidableKeepsOn (c.step s).1 rest
    inferInstanceAs (Decidable (¬ TellsEnd c (c.step s).1 (c.step s).2 ∧
      (c.step s).1.KeepsOn rest))

theorem program_afterSteps (ss : List Settings) : ∀ c : Control,
    (c.afterSteps ss).program = c.program := by
  induction ss with
  | nil => intro c; rfl
  | cons s rest ih =>
    intro c
    rw [afterSteps, ih, (step_frame s c).1]

/-- **The pointer stays on a line**, whatever steps come to. -/
theorem exists_current_afterSteps (ss : List Settings) : ∀ {c : Control} {l : Line},
    c.current? = some l → ∃ l, (c.afterSteps ss).current? = some l := by
  induction ss with
  | nil => intro c l hl; exact ⟨l, hl⟩
  | cons s rest ih =>
    intro c l hl
    obtain ⟨l', hl'⟩ := (turn_step hl s).exists_current (step_frame s c).1 hl
    exact ih hl'

/-- **Counter and pointer agree** as long as no step tells that no line follows. -/
theorem isAligned_afterSteps (ss : List Settings) : ∀ {c : Control}, c.IsAligned → c.KeepsOn ss →
    (c.afterSteps ss).IsAligned := by
  induction ss with
  | nil => intro c hc _; exact hc
  | cons s rest ih =>
    intro c hc hon
    obtain ⟨l, hl, -⟩ := hc.current
    exact ih ((turn_step hl s).isAligned (step_frame s c).1 hc hon.1) hon.2

/-- A program that has been loaded is started on a line. -/
theorem isAligned_of_load {lines : List Line} (h : load lines d = (c, .ok ())) :
    c.program = Program.sort lines ∧ c.IsAligned := by
  have hprogram := (load_frame lines d).2.1
  rw [h] at hprogram
  refine ⟨hprogram, ?_⟩
  have hne : Program.sort lines ≠ [] := hprogram ▸ program_ne_nil_of_load h
  rw [load, if_neg hne] at h
  cases hseek : firstFrom? 0 0 (Program.sort lines) with
  | some found =>
    obtain ⟨i, l⟩ := found
    rw [seek_of_some hseek] at h
    obtain rfl := (Prod.mk.inj h).1
    exact isAligned_of_firstFrom? hseek rfl
  | none =>
    rw [seek_of_none hseek] at h
    cases h

/-- **Counter and pointer.**  Load lines into any control unit, with success, and let it take any
steps, under whatever settings each of them, and whatever they come to.  The program is then still
the sorted lines, and the pointer the index of one of them.  As long as no step has told that no
line follows, the line under the pointer has the number in the counter and every line before it a
smaller one.  A step that tells so leaves a state in which this is not the case. -/
theorem pointer_of_load {lines : List Line} (h : load lines d = (c, .ok ()))
    (ss : List Settings) :
    (c.afterSteps ss).program = Program.sort lines ∧
    ((c.afterSteps ss).program.Pairwise fun a b => a.priority ≤ b.priority) ∧
    (∃ l, (c.afterSteps ss).current? = some l) ∧
    (c.KeepsOn ss → (c.afterSteps ss).IsAligned) ∧
    ∀ s, TellsEnd (c.afterSteps ss) ((c.afterSteps ss).step s).1 ((c.afterSteps ss).step s).2 →
      ¬ ((c.afterSteps ss).step s).1.IsAligned := by
  obtain ⟨hprogram, haligned⟩ := isAligned_of_load h
  obtain ⟨l, hl, -⟩ := haligned.current
  obtain ⟨l', hl'⟩ := exists_current_afterSteps ss hl
  have hsame : (c.afterSteps ss).program = Program.sort lines :=
    (program_afterSteps ss c).trans hprogram
  refine ⟨hsame, ?_, ⟨l', hl'⟩, isAligned_afterSteps ss haligned, ?_⟩
  · rw [hsame]
    exact Program.pairwise_sort lines
  · intro s hend
    exact (turn_step hl' s).not_isAligned (step_frame s _).1 hend

/-- A negative priority and one that two lines have.  After a plain step and a jump onto itself, the
jump fails for want of a target and a further step for its limit; counter and pointer agree. -/
theorem pointer_of_load_stopped :
    let lines : List Line :=
      [⟨-2, "del".toList⟩, ⟨3, "push 7".toList⟩, ⟨7, "jmp".toList⟩, ⟨7, "del".toList⟩]
    let c : Control := { program := lines, counter := 3, pointer := 1 }
    load lines {} = (c, .ok ()) ∧ c.KeepsOn [{}, {}, {}, { limit := some 0 }] ∧
      (c.afterSteps [{}, {}, {}, { limit := some 0 }]).IsAligned := by
  intro lines c
  have hsort : Program.sort lines = lines := List.mergeSort_of_pairwise (by decide)
  have hload : load lines {} = (c, .ok ()) := by
    have hfirst : firstFrom? 0 0 (Program.sort lines) = some (1, ⟨3, "push 7".toList⟩) := by
      rw [hsort]
      rfl
    rw [load_of_some hfirst, hsort]
  have hon : c.KeepsOn [{}, {}, {}, { limit := some 0 }] := by decide +kernel
  exact ⟨hload, hon, (pointer_of_load hload _).2.2.2.1 hon⟩

/-- One line at the greatest priority that can be written.  A step executes it and neither answers
that the program has ended nor fails for want of a line, but the line under the pointer does not
have the number in the counter. -/
theorem step_past_writable :
    ∃ c d l, load [⟨Numeral.bound - 1, "push 1".toList⟩] {} = (c, .ok ()) ∧
      c.step {} = (d, .error (.numeral .tooLongToWrite)) ∧
      d.current? = some l ∧ l.priority ≠ d.counter := by
  have hpos : (0 : Int) < Numeral.bound := Int.natCast_pos.2 Numeral.bound_pos
  have hnonneg : (0 : Int) ≤ Numeral.bound - 1 := Int.le_sub_one_of_lt hpos
  have hlong : ¬ Numeral.isWritable (Numeral.bound - 1 + 1) := by
    rw [Int.sub_add_cancel, Numeral.isWritable, decide_eq_true_eq, Int.natAbs_natCast]
    exact Nat.lt_irrefl _
  -- From here on nothing depends on which number it is.
  generalize (Numeral.bound : Int) - 1 = n at hnonneg hlong
  have hsort : Program.sort [⟨n, "push 1".toList⟩] = [⟨n, "push 1".toList⟩] :=
    List.mergeSort_singleton _
  have hfirst : firstFrom? 0 0 (Program.sort [⟨n, "push 1".toList⟩])
      = some (0, ⟨n, "push 1".toList⟩) := by
    rw [hsort, firstFrom?, if_pos hnonneg]
  have hload := load_of_some (m := {}) hfirst
  rw [hsort] at hload
  have hlast : firstFrom? (n + 1) 0 [⟨n, "push 1".toList⟩] = none :=
    firstFrom?_eq_none_iff.2 (List.forall_mem_singleton.2 (Int.lt_succ n))
  have hrun : (Machine.run {} "push 1".toList).outcome = .ok ⟨0, false⟩ := by decide +kernel
  have hstep := step_of_ok (s := {}) (l := ⟨n, "push 1".toList⟩)
    (c := { program := [⟨n, "push 1".toList⟩], counter := n }) rfl rfl hrun
  have hend := (hstep.trans (advance_of_end rfl hlast)).trans (congrArg (Prod.mk _) (if_neg hlong))
  exact ⟨_, _, _, hload, hend, rfl, Int.ne_of_lt (Int.lt_succ n)⟩

end Control

end MxLang
