import Mathlib.Data.List.Forall2
import MxLang.Proofs.Control
import MxLang.Proofs.Machine
import MxLang.Proofs.RoundTrip

/-!
# Compiled programs behave as they were written

Between a source and the program decoded from its records every instruction has been spelled anew:
blanks and signs are gone, and labels are numbers.  `written` is the program without this: its
instructions are the lines of the source, and only a label is replaced by its position.  The two
programs run alike from every state of the machine (`runProgram_of_compile`).

`Line.Alike` is all that the argument needs to know of two programs: the same priorities, and texts
that are read as the same commands.  Control units with such programs make the same steps
(`Alike.step`), and so the same runs (`Alike.loop`).  A failure names the word of its instruction,
which may be spelled in two ways; `Failure.Alike` compares the rest.
-/

namespace MxLang

open Text

/-! ### Failures -/

/-- The failure without the word of the instruction it belongs to. -/
def Failure.anonymous : Failure → Failure
  | .fault (.stop s) => .fault (.stop { s with opcode := [] })
  | f => f

/-- Failures that differ at most in the word of the instruction, neither of them because a text
was refused. -/
structure Failure.Alike (f g : Failure) : Prop where
  anonymous : f.anonymous = g.anonymous
  accepted_left : f.isRefusal = false
  accepted_right : g.isRefusal = false

theorem Failure.Alike.refl {f : Failure} (hf : f.isRefusal = false) : f.Alike f :=
  ⟨rfl, hf, hf⟩

theorem Failure.Alike.annotate {f : Failure} (hf : f.isRefusal = false) (v w : Text) (n : Int) :
    (f.annotate v n).Alike (f.annotate w n) := by
  unfold Failure.annotate
  split
  · exact ⟨rfl, hf, hf⟩
  · exact .refl hf

/-- Answers that are equal, or failures that are alike. -/
inductive AlikeAnswer {α : Type} : Except Failure α → Except Failure α → Prop
  | ok (a : α) : AlikeAnswer (.ok a) (.ok a)
  | error {f g : Failure} (h : f.Alike g) : AlikeAnswer (.error f) (.error g)

/-- Endings of the same kind, with failures that are alike. -/
inductive Ending.Alike : Ending → Ending → Prop
  | halted : Alike .halted .halted
  | failed {f g : Failure} (h : f.Alike g) : Alike (.failed f) (.failed g)
  | unfinished : Alike .unfinished .unfinished

/-! ### Lines -/

/-- Lines of one priority that are read as one command, whatever their spelling. -/
def Line.Alike (a b : Line) : Prop :=
  a.priority = b.priority ∧ ∃ c, Command.ofText a.code = .ok c ∧ Command.ofText b.code = .ok c

theorem Machine.run_of_ofText {code : Text} {c : Command} (h : Command.ofText code = .ok c)
    (m : Machine) : m.run code = m.perform c := by
  rw [Machine.run, h]

theorem Line.Alike.run_eq {a b : Line} (h : a.Alike b) (m : Machine) :
    m.run a.code = m.run b.code := by
  obtain ⟨-, c, ha, hb⟩ := h
  rw [Machine.run_of_ofText ha, Machine.run_of_ofText hb]

theorem Line.Alike.isRefusal_of_run {a b : Line} (h : a.Alike b) {m : Machine} {f : Failure}
    (hf : (m.run a.code).outcome = .error f) : f.isRefusal = false := by
  obtain ⟨-, c, ha, -⟩ := h
  rw [Machine.run_of_ofText ha] at hf
  exact (Machine.failing_of_perform hf).isRefusal

namespace Control

theorem firstFrom?_alike (n : Int) {p q : List Line} (h : List.Forall₂ Line.Alike p q) :
    ∀ start, (firstFrom? n start p = none ∧ firstFrom? n start q = none) ∨
      ∃ i a b, firstFrom? n start p = some (i, a) ∧ firstFrom? n start q = some (i, b) ∧
        a.Alike b := by
  induction h with
  | nil => exact fun start => .inl ⟨rfl, rfl⟩
  | @cons a b p q hab _ ih =>
    intro start
    rw [firstFrom?, firstFrom?, ← hab.1]
    by_cases hn : n ≤ a.priority
    · rw [if_pos hn, if_pos hn]
      exact .inr ⟨start, a, b, rfl, rfl, hab⟩
    · rw [if_neg hn, if_neg hn]
      exact ih (start + 1)

/-! ### Two control units in step -/

/-- Control units in the same state, whose programs differ at most in spelling. -/
structure Alike (c d : Control) : Prop where
  program : List.Forall₂ Line.Alike c.program d.program
  counter : c.counter = d.counter
  pointer : c.pointer = d.pointer
  steps : c.steps = d.steps
  machine : c.machine = d.machine

namespace Alike

variable {c d : Control} {s : Settings}

theorem current? (h : Alike c d) :
    (c.current? = none ∧ d.current? = none) ∨
      ∃ a b, c.current? = some a ∧ d.current? = some b ∧ a.Alike b := by
  unfold Control.current?
  rw [← h.pointer]
  by_cases hi : c.pointer < c.program.length
  · have hj : c.pointer < d.program.length := h.program.length_eq ▸ hi
    exact .inr ⟨_, _, List.getElem?_eq_getElem hi, List.getElem?_eq_getElem hj,
      h.program.get hi hj⟩
  · have hj : ¬ c.pointer < d.program.length := h.program.length_eq ▸ hi
    exact .inl ⟨List.getElem?_eq_none (Nat.le_of_not_lt hi),
      List.getElem?_eq_none (Nat.le_of_not_lt hj)⟩

theorem moved (h : Alike c d) (jump : Jump) : Alike (c.moved jump) (d.moved jump) where
  program := h.program
  counter := by
    show following c.counter jump = following d.counter jump
    rw [h.counter]
  pointer := h.pointer
  steps := congrArg (· + 1) h.steps
  machine := h.machine

theorem executed (h : Alike c d) {a b : Line} (hab : a.Alike b) :
    Alike (c.executed s a) (d.executed s b) where
  program := h.program
  counter := h.counter
  pointer := h.pointer
  steps := h.steps
  machine := by
    show (c.machine.run a.code).machine = (d.machine.run b.code).machine
    rw [← h.machine, hab.run_eq]

theorem advance (h : Alike c d) {a b : Line} (hab : a.Alike b) (jump : Jump) :
    Alike (c.advance a jump).1 (d.advance b jump).1 ∧
      AlikeAnswer (c.advance a jump).2 (d.advance b jump).2 := by
  rcases firstFrom?_alike (following c.counter jump) h.program 0 with
    ⟨hc, hd⟩ | ⟨i, a', b', hc, hd, hab'⟩
  · rw [h.counter] at hd
    cases ht : jump.taken with
    | true =>
      rw [advance_of_jump ht hc, advance_of_jump ht hd, hab.1]
      exact ⟨h.moved jump, .error (.annotate (Failure.isRefusal_ofStop rfl) _ _ _)⟩
    | false =>
      rw [advance_of_end ht hc, advance_of_end ht hd, h.counter]
      refine ⟨h.moved jump, ?_⟩
      split
      · exact .ok false
      · exact .error (.refl rfl)
  · rw [h.counter] at hd
    rw [advance_of_some hc, advance_of_some hd]
    exact ⟨⟨h.program, hab'.1, rfl, congrArg (· + 1) h.steps, h.machine⟩, .ok true⟩

/-- **Control units that are alike stay alike for a step**, and the step answers alike. -/
theorem step (h : Alike c d) (s : Settings) :
    Alike (c.step s).1 (d.step s).1 ∧ AlikeAnswer (c.step s).2 (d.step s).2 := by
  cases hs : isSpent s c.steps with
  | true =>
    rw [step_of_isSpent hs, step_of_isSpent (h.steps ▸ hs), h.counter]
    exact ⟨h, .error (.refl (Failure.isRefusal_ofStop rfl))⟩
  | false =>
    have hs' : isSpent s d.steps = false := h.steps ▸ hs
    rcases h.current? with ⟨hc, hd⟩ | ⟨a, b, hc, hd, hab⟩
    · rw [step_of_no_line hs hc, step_of_no_line hs' hd]
      exact ⟨h, .error (.refl rfl)⟩
    · -- The texts may differ, but the machine carries out one command.
      have hrun : d.machine.run b.code = c.machine.run a.code := by
        rw [← h.machine, hab.run_eq]
      cases ho : (c.machine.run a.code).outcome with
      | error f =>
        rw [step_of_error hs hc ho, step_of_error hs' hd (hrun ▸ ho), hab.1]
        exact ⟨h.executed hab, .error (.annotate (hab.isRefusal_of_run ho) _ _ _)⟩
      | ok jump =>
        rw [step_of_ok hs hc ho, step_of_ok hs' hd (hrun ▸ ho)]
        exact (h.executed hab).advance hab jump

/-- **Control units that are alike stay alike for a run.** -/
theorem loop (s : Settings) : ∀ (n : Nat) {c d : Control}, Alike c d →
    Alike (c.loop s n).1 (d.loop s n).1 ∧ (c.loop s n).2.Alike (d.loop s n).2 := by
  intro n
  induction n with
  | zero => exact fun h => ⟨h, .unfinished⟩
  | succ n ih =>
    intro c d h
    obtain ⟨hstep, hanswer⟩ := h.step s
    cases hc : c.step s with
    | mk c' answer =>
      cases hd : d.step s with
      | mk d' answer' =>
        rw [hc, hd] at hstep hanswer
        cases hanswer with
        | error hf =>
          rw [loop_of_error hc, loop_of_error hd]
          exact ⟨hstep, .failed hf⟩
        | ok more =>
          cases more with
          | false =>
            rw [loop_of_halt hc, loop_of_halt hd]
            exact ⟨hstep, .halted⟩
          | true =>
            rw [loop_of_more hc, loop_of_more hd]
            exact ih hstep

theorem withJournals (h : Alike c d) (j k : List Notice) :
    Alike { c with journal := j } { d with journal := k } :=
  ⟨h.program, h.counter, h.pointer, h.steps, h.machine⟩

theorem reported {m : Machine} {e e' : Ending} (h : e.Alike e') :
    (reported s m e).Alike (reported s m e') := by
  unfold Control.reported
  split
  · split
    · exact h
    · rename_i f hf
      obtain rfl := Machine.eq_of_dump?_eq_error hf
      exact .failed (.refl rfl)
  · exact h

theorem run (h : Alike c d) (hne : c.program ≠ []) (s : Settings) :
    Alike (c.run s).1 (d.run s).1 ∧ (c.run s).2.Alike (d.run s).2 := by
  have hne' : d.program ≠ [] := by
    intro hnil
    have hp := h.program
    rw [hnil] at hp
    exact hne (List.forall₂_nil_right_iff.1 hp)
  have hfuel : d.fuel s = c.fuel s := by rw [fuel, fuel, h.steps]
  obtain ⟨j, hc⟩ := run_of_ne_nil (s := s) hne
  obtain ⟨k, hd⟩ := run_of_ne_nil (s := s) hne'
  obtain ⟨hloop, hending⟩ := loop s (c.fuel s) h
  rw [hc, hd, hfuel, ← hloop.machine]
  exact ⟨hloop.withJournals j k, reported hending⟩

end Alike

theorem runProgram_alike {p q : List Line} (h : List.Forall₂ Line.Alike p q)
    (hp : p.Pairwise fun a b => a.priority < b.priority)
    (hq : q.Pairwise fun a b => a.priority < b.priority) (s : Settings) (m : Machine) :
    Alike (runProgram s m p).1 (runProgram s m q).1 ∧
      (runProgram s m p).2.Alike (runProgram s m q).2 := by
  have hsp : Program.sort p = p := Program.sort_eq_of_perm (.refl p) hp
  have hsq : Program.sort q = q := Program.sort_eq_of_perm (.refl q) hq
  cases h with
  | nil =>
    rw [runProgram_nil]
    exact ⟨⟨.nil, rfl, rfl, rfl, rfl⟩, .failed (.refl rfl)⟩
  | @cons a b p q hab hpq =>
    have hall : List.Forall₂ Line.Alike (a :: p) (b :: q) := .cons hab hpq
    rcases firstFrom?_alike 0 hall 0 with ⟨hc, hd⟩ | ⟨i, a', b', hc, hd, hab'⟩
    · rw [runProgram_of_none (List.cons_ne_nil _ _) (by rwa [hsp]),
        runProgram_of_none (List.cons_ne_nil _ _) (by rwa [hsq]), hsp, hsq]
      exact ⟨⟨hall, rfl, rfl, rfl, rfl⟩, .failed (.refl rfl)⟩
    · have hstart : Alike
          { program := a :: p, counter := a'.priority, pointer := i, machine := m }
          { program := b :: q, counter := b'.priority, pointer := i, machine := m } :=
        ⟨hall, hab'.1, rfl, rfl, rfl⟩
      rw [runProgram_of_some (by rwa [hsp]), runProgram_of_some (by rwa [hsq]), hsp, hsq]
      exact hstart.run (List.cons_ne_nil a p) s

end Control

/-! ### The program as it was written -/

namespace Source

/-- The instruction with the position in place of the label, if it pushes one; any other
instruction as it is. -/
def resolve (lines : List SourceLine) (t : Text) : Text :=
  match Instruction.pushOperand? t with
  | none => t
  | some operand =>
    match position? lines (strip operand) with
    | none => t
    | some k => (Command.push k).text

/-- The instructions of a source as they were written, numbered from zero, with positions for
labels. -/
def written (lines : List Text) : List Line :=
  (body lines).mapIdx fun i l => ⟨i, resolve (clean lines) l.text⟩

theorem ofText_of_bare {t opcode : Text} {op : Opcode}
    (hp : Instruction.parse t = .ok ⟨opcode, none⟩) (ho : Opcode.ofName? opcode = some op) :
    Command.ofText t = .ok (.bare op) := by
  have hne : opcode ≠ Instruction.pushWord := by
    rw [Opcode.eq_name_of_ofName? ho]
    exact op.name_ne_pushWord
  rw [Command.ofText, hp]
  simp only [if_neg hne, ho]

theorem ofText_of_push {t operand : Text} {v : Int}
    (hp : Instruction.parse t = .ok ⟨Instruction.pushWord, some operand⟩)
    (hv : Numeral.readLiteral operand = .ok (some v)) : Command.ofText t = .ok (.push v) := by
  rw [Command.ofText, hp]
  simp only [if_true, Option.getD_some, hv]

theorem resolve_of_bare {lines : List SourceLine} {t opcode : Text}
    (hp : Instruction.parse t = .ok ⟨opcode, none⟩) : resolve lines t = t := by
  unfold resolve
  cases ho : Instruction.pushOperand? t with
  | none => rfl
  | some operand =>
    rw [Instruction.parse, ho] at hp
    dsimp only at hp
    split at hp <;> cases hp

theorem resolve_of_isPush {lines : List SourceLine} {t operand : Text}
    (ht : Instruction.IsPush t operand) :
    resolve lines t =
      match position? lines (strip operand) with
      | none => t
      | some k => (Command.push k).text := by
  rw [resolve, Instruction.pushOperand?_eq_some_iff.2 ht]

/-- **An instruction that compiles is read by the machine as the command it compiles to.** -/
theorem ofText_resolve {lines : List SourceLine} {l : SourceLine} {c : Command}
    (h : command (labels lines) l = .ok c) : Command.ofText (resolve lines l.text) = .ok c := by
  have hw := isWritable_of_command h
  rcases command_cases h with ⟨opcode, op, hp, ho, rfl⟩ | ⟨word, operand, v, hp, hv, -, rfl⟩
  · rw [resolve_of_bare hp]
    exact ofText_of_bare hp ho
  · rcases parse_eq_ok hp with ⟨raw, hraw, hi⟩ | hi
    · cases hi
      rw [resolve_of_isPush hraw]
      rcases operandValue_spec hv with ⟨k, hk, rfl⟩ | ⟨hk, hr⟩
      · rw [hk]
        exact Command.ofText_text hw
      · rw [hk]
        exact ofText_of_push hp hr
    · cases hi

/-- The canonical program and the written one differ only in spelling. -/
theorem alike_written {lines : List Text} {cs : List Command} (h : commands lines = .ok cs) :
    List.Forall₂ Line.Alike (Program.ofCommands cs) (written lines) := by
  obtain ⟨-, hall⟩ := commands_spec h
  have hlen := hall.length_eq
  rw [List.forall₂_iff_get]
  refine ⟨by simp [Program.ofCommands, written, hlen], fun i hi hj => ?_⟩
  have hi' : i < cs.length := by simpa [Program.ofCommands] using hi
  have hc := hall.get (by omega) hi'
  refine ⟨by simp [Program.ofCommands, written], cs[i], ?_, ?_⟩
  · simpa [Program.ofCommands] using Command.ofText_text (isWritable_of_command hc)
  · simpa [written] using ofText_resolve hc

/-- **Compiling keeps the behaviour of a program.**  The records of a source decode to a program
that runs as the instructions do that were written, in every setting and from every state of the
machine: it halts, fails or is given up with them, after as many steps, at the same counter and in
the same state.  Failures differ at most in the spelling of the instruction they name, and no text
is ever refused. -/
theorem runProgram_of_compile {ns : Text} {lines : List Text} {records : List Record}
    (h : compile ns lines = .ok records) :
    ∃ p, Program.ofRecords ns records = .ok p ∧ ∀ (s : Settings) (m : Machine),
      (Control.runProgram s m p).1.machine = (Control.runProgram s m (written lines)).1.machine ∧
      (Control.runProgram s m p).1.steps = (Control.runProgram s m (written lines)).1.steps ∧
      (Control.runProgram s m p).1.counter = (Control.runProgram s m (written lines)).1.counter ∧
      (Control.runProgram s m p).2.Alike (Control.runProgram s m (written lines)).2 ∧
      (s.limit.isSome → (Control.runProgram s m p).2 ≠ .unfinished) := by
  rw [compile_eq] at h
  cases hc : commands lines with
  | error f => rw [hc] at h; cases h
  | ok cs =>
    rw [hc] at h
    obtain rfl := Except.ok.inj h
    refine ⟨_, Program.ofRecords_of_perm_publish (.refl _), fun s m => ?_⟩
    obtain ⟨hstate, hending⟩ := Control.runProgram_alike (alike_written hc)
      (Program.pairwise_ofCommands cs) (Program.pairwise_numbered _ _) s m
    refine ⟨hstate.machine, hstate.steps, hstate.counter, hending, fun hlimit => ?_⟩
    obtain ⟨limit, hlimit⟩ := Option.isSome_iff_exists.1 hlimit
    exact Control.runProgram_ne_unfinished hlimit m _

/-- A source with a label declared further down and a blank that only the machine takes away. -/
theorem runProgram_of_compile_blank :
    ∃ p, Program.ofRecords "x".toList
        [⟨0, "push-2.x.".toList⟩, ⟨1, "jmp.x.".toList⟩, ⟨2, "add.x.".toList⟩] = .ok p ∧
      ∀ (s : Settings) (m : Machine), (Control.runProgram s m p).2.Alike (Control.runProgram s m
        (written (["push \t end", "jmp", "end:", "add\u00a0"].map String.toList))).2 := by
  have h : compile "x".toList (["push \t end", "jmp", "end:", "add\u00a0"].map String.toList)
      = .ok [⟨0, "push-2.x.".toList⟩, ⟨1, "jmp.x.".toList⟩, ⟨2, "add.x.".toList⟩] := by
    decide +kernel
  obtain ⟨p, hread, hrun⟩ := runProgram_of_compile h
  refine ⟨p, hread, fun s m => ?_⟩
  obtain ⟨-, -, -, hending, -⟩ := hrun s m
  exact hending

end Source

end MxLang
