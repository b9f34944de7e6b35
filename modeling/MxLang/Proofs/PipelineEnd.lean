import MxLang.Diagnostic
import MxLang.Pipeline
import MxLang.Proofs.Chart
import MxLang.Proofs.Preservation
import MxLang.Proofs.Resume
import MxLang.Proofs.SourceFault

/-!
# How a pipeline ends

A text is compiled, its records are decoded, and the program is run with some input and a limit.
The program halts, or a fault of the source or of the run is told.  There is one exception: a
numeral of too many digits, which a source may hold and a run may have to write.  Then the whole
ends in the failure of the numeral (`ending_print_long`).  `ending_told` says that there is nothing
else: no text fails to be parsed, no line is missing, and no number is at fault but those that are
shown.

`Failure.Explained` is what is said of a failure: it is a stop, or the failure to write one of the
numbers that are shown.  What the machine shows is the top of its stack: `IsRegular` says this of
all commands at once.  A step shows the limit as well (`IsSteady.step`), a run shows what its steps
show (`IsSteady.loop`), and then it may list the whole state (`explained_of_runProgram`).
-/

namespace MxLang

open Text

/-! ### Failures -/

theorem StopCause.isA_execution (c : StopCause) : Kind.isA .execution c.kind = true := by
  cases c <;> rfl

theorem StopCause.isWordable_jump (n : Int) :
    (noNextLine n true (some n)).isWordable = Numeral.isWritable n := by
  rw [isWordable, if_pos rfl, Option.all_some]

/-- A stop, or the failure to write one of the numbers that are shown. -/
inductive Failure.Explained (shown : Int → Prop) : Failure → Prop
  | stop (s : Stop) : Explained shown (.fault (.stop s))
  | numeral {v : Int} (hv : shown v) (hw : Numeral.isWritable v = false) :
      Explained shown (.numeral .tooLongToWrite)

namespace Failure.Explained

variable {shown other : Int → Prop} {f : Failure}

theorem mono (h : f.Explained shown) (hshown : ∀ v, shown v → other v) : f.Explained other := by
  cases h with
  | stop s => exact .stop s
  | numeral hv hw => exact .numeral (hshown _ hv) hw

theorem annotate (h : f.Explained shown) (opcode : Text) (n : Int) :
    (f.annotate opcode n).Explained shown := by
  cases h with
  | stop s => exact .stop _
  | numeral hv hw => exact .numeral hv hw

theorem ofStop {s : Stop} (h : s.cause.isWordable = true) : (Failure.ofStop s).Explained shown := by
  rw [Failure.ofStop, if_pos h]
  exact .stop s

/-- A stop that shows one number is explained if the number is one of those that are shown. -/
theorem ofStop_of_shown {s : Stop} {v : Int} (h : s.cause.isWordable = Numeral.isWritable v)
    (hv : shown v) : (Failure.ofStop s).Explained shown := by
  by_cases hw : Numeral.isWritable v
  · exact ofStop (h.trans hw)
  · rw [Bool.not_eq_true] at hw
    rw [Failure.ofStop, h, hw, if_neg Bool.false_ne_true]
    exact .numeral hv hw

end Failure.Explained

/-! ### What commands show -/

namespace Machine

/-- Why writing and flushing fail, if they do, and how the input ends. -/
def devices (m : Machine) : Option Text × Option Text × InputEnd :=
  (m.broken, m.clogged, m.input.ending)

/-- The output never fails, and the user does not break off. -/
def IsReliable (m : Machine) : Prop :=
  m.broken = none ∧ m.clogged = none ∧ m.input.ending ≠ .interrupted

/-- An effect on the state `m` as commands have it: it leaves the fate of output and input alone,
what it shows of the state is the top of the stack, and that is also where it jumps. -/
structure IsRegular (m : Machine) (e : Effect) : Prop where
  devices : e.machine.devices = m.devices
  failure : m.IsReliable → ∀ f, e.outcome = .error f → f.Explained (· ∈ m.stack.head?)
  jump : ∀ j, e.outcome = .ok j → j.taken = true → j.target ∈ m.stack.head?

variable {m n : Machine}

theorem IsRegular.done (hdevices : n.devices = m.devices) : m.IsRegular n.done where
  devices := hdevices
  failure := by
    intro _ f hf
    cases hf
  jump := by
    intro j hj ht
    cases hj
    cases ht

theorem IsRegular.fail {f : Failure} (hdevices : n.devices = m.devices)
    (hf : m.IsReliable → f.Explained (· ∈ m.stack.head?)) : m.IsRegular (n.fail f) where
  devices := hdevices
  failure := by
    intro hm g hg
    cases hg
    exact hf hm
  jump := by
    intro j hj
    cases hj

theorem isRegular_underflow (m : Machine) : m.IsRegular m.underflow :=
  .fail (n := { m with stack := [] }) rfl fun _ => .ofStop rfl

theorem isRegular_withOne {k : Int → Machine → Effect}
    (hk : ∀ a rest, m.stack = a :: rest → m.IsRegular (k a { m with stack := rest })) :
    m.IsRegular (m.withOne k) := by
  unfold withOne
  split
  · rename_i a rest hs
    exact hk a rest hs
  · exact m.isRegular_underflow

theorem isRegular_withTwo {k : Int → Int → Machine → Effect}
    (hk : ∀ a b rest, m.stack = a :: b :: rest → m.IsRegular (k a b { m with stack := rest })) :
    m.IsRegular (m.withTwo k) := by
  unfold withTwo
  split
  · rename_i a b rest hs
    exact hk a b rest hs
  · exact m.isRegular_underflow

theorem isRegular_readChar (m : Machine) : m.IsRegular m.readChar := by
  unfold readChar
  split
  · split
    · exact .fail rfl fun _ => .ofStop rfl
    · exact .fail rfl fun _ => .ofStop rfl
    · rename_i hending
      exact .fail rfl fun hm => absurd hending hm.2.2
  · exact .fail rfl fun _ => .ofStop rfl
  · refine ⟨rfl, ?_, ?_⟩
    · intro _ f hf
      cases hf
    · intro j hj ht
      cases hj
      cases ht

theorem isRegular_printTop (m : Machine) : m.IsRegular m.printTop := by
  refine isRegular_withOne fun a rest hs => ?_
  by_cases hw : Numeral.isWritable a
  · simp only [hw, if_true]
    split
    · rename_i reason hbroken
      refine .fail rfl fun hm => ?_
      rw [hm.1] at hbroken
      cases hbroken
    · rename_i reason _ hclogged
      refine .fail rfl fun hm => ?_
      rw [hm.2.1] at hclogged
      cases hclogged
    · exact .done rfl
  · rw [Bool.not_eq_true] at hw
    simp only [hw, Bool.false_eq_true, if_false]
    refine .fail rfl fun _ => .numeral (v := a) ?_ hw
    simp [hs]

theorem isRegular_divide (m : Machine) (op : Opcode) (result : Int → Int → Option Int) :
    m.IsRegular (m.divide op result) := by
  refine isRegular_withTwo fun a b rest hs => ?_
  cases result a b with
  | some c => exact .done rfl
  | none => exact .fail rfl fun _ => .ofStop_of_shown (v := a) rfl (by simp [hs])

theorem isRegular_not (m : Machine) : m.IsRegular (m.performBare .not) := by
  unfold performBare
  refine isRegular_withOne fun a rest hs => ?_
  by_cases ha : a = 0 ∨ a = 1
  · rw [if_pos ha]
    exact .done rfl
  · rw [if_neg ha]
    exact .fail rfl fun _ => .ofStop_of_shown (v := a) rfl (by simp [hs])

theorem isRegular_jump {a : Int} {rest : List Int} {taken : Bool} {stack : List Int}
    (hs : m.stack = a :: rest) :
    m.IsRegular { machine := { m with stack := stack }, outcome := .ok ⟨a, taken⟩ } where
  devices := rfl
  failure := by
    intro _ f hf
    cases hf
  jump := by
    intro j hj _
    cases hj
    simp [hs]

theorem isRegular_performBare (m : Machine) (op : Opcode) : m.IsRegular (m.performBare op) := by
  unfold performBare
  cases op with
  | left | right | pusht => exact .done rfl
  | pop | dup | del => exact isRegular_withOne fun _ _ _ => .done rfl
  | eq | gt | lt | add | sub | mult => exact isRegular_withTwo fun _ _ _ _ => .done rfl
  | not => exact m.isRegular_not
  | div | mod => exact m.isRegular_divide _ _
  | read => exact m.isRegular_readChar
  | print => exact m.isRegular_printTop
  | jmp => exact isRegular_withOne fun _ _ hs => isRegular_jump hs
  | jmpc => exact isRegular_withTwo fun _ _ _ hs => isRegular_jump hs

/-- **Commands are regular**, in every state. -/
theorem isRegular_perform (m : Machine) (c : Command) : m.IsRegular (m.perform c) := by
  cases c with
  | push v => exact .done rfl
  | bare op => exact m.isRegular_performBare op

theorem IsRegular.isReliable {e : Effect} (h : m.IsRegular e) (hm : m.IsReliable) :
    e.machine.IsReliable := by
  obtain ⟨hbroken, hrest⟩ := Prod.mk.inj h.devices
  obtain ⟨hclogged, hending⟩ := Prod.mk.inj hrest
  rw [IsReliable, hbroken, hclogged, hending]
  exact hm

/-- A listing that fails holds a number that cannot be written. -/
theorem exists_of_dump?_eq_error {f : Failure} (h : m.dump? = .error f) :
    ∃ v ∈ m.tape.cells ++ m.stack, Numeral.isWritable v = false := by
  by_contra hnone
  have hall : ∀ v ∈ m.tape.cells ++ m.stack, Numeral.isWritable v = true := by
    intro v hv
    by_contra hw
    exact hnone ⟨v, hv, Bool.not_eq_true _ ▸ hw⟩
  have hcells : m.tape.cells.all Numeral.isWritable = true :=
    List.all_eq_true.2 fun v hv => hall v (List.mem_append_left _ hv)
  have hstack : m.stack.all Numeral.isWritable = true :=
    List.all_eq_true.2 fun v hv => hall v (List.mem_append_right _ hv)
  rw [dump?, hcells, hstack] at h
  cases h

end Machine

/-! ### What runs show -/

/-- A program whose lines can be executed and leave room for the number after theirs. -/
def Program.IsRunnable (p : List Line) : Prop :=
  ∀ l ∈ p, (∃ c, Command.ofText l.code = .ok c) ∧ Numeral.isWritable (l.priority + 1) = true

namespace Control

/-- A control unit that stands on a line of a runnable program. -/
structure IsSteady (c : Control) : Prop where
  program : Program.IsRunnable c.program
  line : ∃ l, c.current? = some l ∧ c.counter = l.priority
  machine : c.machine.IsReliable

variable {s : Settings} {c : Control} {l : Line}

theorem mem_of_current? (h : c.current? = some l) : l ∈ c.program :=
  List.mem_of_getElem? h

theorem IsSteady.seek (h : c.IsSteady) {n : Int} {i : Nat} {steps : Nat} {next : Line}
    (hseek : firstFrom? n 0 c.program = some (i, next)) :
    IsSteady { c with steps := steps, counter := next.priority, pointer := i } where
  program := h.program
  line := ⟨next, (getElem?_of_firstFrom? hseek).2, rfl⟩
  machine := h.machine

/-- Moving on shows only where a jump goes, and stays on the lines of the program. -/
theorem IsSteady.advance (h : c.IsSteady) (l : Line) (jump : Jump) :
    (∀ f, (c.advance l jump).2 = .error f →
      jump.taken = true ∧ f.Explained (· = jump.target)) ∧
      ((c.advance l jump).2 = .ok true → (c.advance l jump).1.IsSteady) := by
  cases hseek : firstFrom? (following c.counter jump) 0 c.program with
  | some found =>
    rw [advance_of_some hseek]
    refine ⟨fun f hf => ?_, fun _ => h.seek hseek⟩
    cases hf
  | none =>
    cases ht : jump.taken with
    | true =>
      rw [advance_of_jump ht hseek]
      refine ⟨fun f hf => ⟨rfl, ?_⟩, fun hf => ?_⟩
      · obtain rfl := Except.error.inj hf
        refine Failure.Explained.annotate (.ofStop_of_shown (v := jump.target) ?_ ?_) _ _
        · exact StopCause.isWordable_jump _
        · rfl
      · cases hf
    | false =>
      -- The program ends here, and the number after that of its last line can be written.
      have hroom : Numeral.isWritable (c.counter + 1) = true := by
        obtain ⟨k, hk, hcounter⟩ := h.line
        rw [hcounter]
        exact (h.program k (mem_of_current? hk)).2
      rw [advance_of_end ht hseek, if_pos hroom]
      refine ⟨fun f hf => ?_, fun hf => ?_⟩
      · cases hf
      · cases hf

/-- **A step of a steady control unit shows the limit and the top of the stack only**, and if there
is more to do the control unit is still steady. -/
theorem IsSteady.step (h : c.IsSteady) (s : Settings) :
    (∀ f, (c.step s).2 = .error f →
      f.Explained fun v => s.limit = some v ∨ v ∈ c.machine.stack.head?) ∧
      ((c.step s).2 = .ok true → (c.step s).1.IsSteady) := by
  obtain ⟨l, hl, hcounter⟩ := h.line
  obtain ⟨⟨cmd, hcmd⟩, -⟩ := h.program l (mem_of_current? hl)
  have hregular : c.machine.IsRegular (c.machine.run l.code) := by
    rw [Machine.run_of_ofText hcmd]
    exact c.machine.isRegular_perform cmd
  cases hs : isSpent s c.steps with
  | true =>
    obtain ⟨limit, hlimit⟩ := exists_limit_of_isSpent hs
    rw [step_of_isSpent hs, hlimit, Option.getD_some]
    refine ⟨fun f hf => ?_, fun hf => ?_⟩
    · obtain rfl := Except.error.inj hf
      exact .ofStop_of_shown (v := limit) rfl (.inl rfl)
    · cases hf
  | false =>
    cases hj : (c.machine.run l.code).outcome with
    | error g =>
      rw [step_of_error hs hl hj]
      refine ⟨fun f hf => ?_, fun hf => ?_⟩
      · obtain rfl := Except.error.inj hf
        exact ((hregular.failure h.machine g hj).mono fun v hv => .inr hv).annotate _ _
      · cases hf
    | ok jump =>
      have hexecuted : (c.executed s l).IsSteady :=
        ⟨h.program, ⟨l, hl, hcounter⟩, hregular.isReliable h.machine⟩
      obtain ⟨hfails, hmore⟩ := hexecuted.advance l jump
      rw [step_of_ok hs hl hj]
      refine ⟨fun f hf => ?_, hmore⟩
      obtain ⟨ht, hf⟩ := hfails f hf
      refine hf.mono fun v hv => .inr ?_
      rw [hv]
      exact hregular.jump jump hj ht

/-- **A run of a steady control unit shows the limit and the top of the stack where it fails.** -/
theorem IsSteady.loop {n : Nat} {f : Failure} (h : c.IsSteady) (hf : (c.loop s n).2 = .failed f) :
    f.Explained fun v => s.limit = some v ∨
      ∃ j d, c.loop s j = (d, .unfinished) ∧ (d.step s).2 = .error f ∧
        v ∈ d.machine.stack.head? := by
  induction n generalizing c with
  | zero => cases hf
  | succ n ih =>
    obtain ⟨hfails, hmore⟩ := h.step s
    cases hstep : c.step s with
    | mk d answer =>
      rw [hstep] at hfails hmore
      match answer with
      | .error g =>
        rw [loop_of_error hstep] at hf
        cases hf
        refine (hfails f rfl).mono fun v hv => ?_
        exact hv.imp_right fun hv => ⟨0, c, rfl, congrArg Prod.snd hstep, hv⟩
      | .ok false =>
        rw [loop_of_halt hstep] at hf
        cases hf
      | .ok true =>
        rw [loop_of_more hstep] at hf
        refine (ih (hmore rfl) hf).mono fun v hv => ?_
        rcases hv with hv | ⟨j, e, hloop, hv⟩
        · exact .inl hv
        · exact .inr ⟨j + 1, e, (loop_of_more hstep).trans hloop, hv⟩

/-- The numbers that a run of a program may have to write: its limit, the value on top of the stack
where a step fails, and with debugging on the values of the state it ends in. -/
inductive Shows (s : Settings) (m : Machine) (p : List Line) (v : Int) : Prop
  | limit (hv : s.limit = some v)
  | top {c d : Control} {j : Nat} {f : Failure} (hload : load p { machine := m } = (c, .ok ()))
      (hloop : c.loop s j = (d, .unfinished)) (hfail : (d.step s).2 = .error f)
      (hv : v ∈ d.machine.stack.head?)
  | listed (hdebug : s.debug = true)
      (hv : v ∈ (runProgram s m p).1.machine.tape.cells ++ (runProgram s m p).1.machine.stack)

/-- **A runnable program fails with a stop, or over a number that it shows.** -/
theorem explained_of_runProgram {p : List Line} {m : Machine} {f : Failure}
    (hp : Program.IsRunnable p) (hm : m.IsReliable) (hf : (runProgram s m p).2 = .failed f) :
    f.Explained (Shows s m p) := by
  by_cases hnil : p = []
  · rw [hnil, runProgram_nil] at hf
    cases hf
    exact .stop _
  · cases hfirst : firstFrom? 0 0 (Program.sort p) with
    | none =>
      rw [runProgram_of_none hnil hfirst] at hf
      cases hf
      exact .stop _
    | some found =>
      obtain ⟨i, l⟩ := found
      have hload := load_of_some (m := m) hfirst
      have hsteady : IsSteady
          { program := Program.sort p, counter := l.priority, pointer := i, machine := m } :=
        ⟨fun a ha => hp a ((Program.sort_perm p).subset ha),
          ⟨l, (getElem?_of_firstFrom? hfirst).2, rfl⟩, hm⟩
      obtain ⟨journal, hrun⟩ := run_of_ne_nil (s := s) (program_ne_nil_of_load hload)
      rw [← runProgram_of_load hload] at hrun
      rw [hrun] at hf
      rcases reported_eq_failed hf with hf | ⟨hdebug, hdump⟩
      · refine (hsteady.loop hf).mono fun v hv => ?_
        rcases hv with hv | ⟨j, d, hloop, hfail, hv⟩
        · exact .limit hv
        · exact .top hload hloop hfail hv
      · obtain ⟨v, hv, hw⟩ := Machine.exists_of_dump?_eq_error hdump
        rw [Machine.eq_of_dump?_eq_error hdump]
        refine .numeral (.listed hdebug ?_) hw
        rw [hrun]
        exact hv

end Control

/-! ### From a text to an ending -/

theorem Program.isRunnable_ofCommands {lines : List Text} {cs : List Command}
    (h : Source.commands lines = .ok cs) : IsRunnable (ofCommands cs) := by
  obtain ⟨hlen, hall⟩ := Source.commands_spec h
  intro l hl
  obtain ⟨i, hi, rfl⟩ := List.mem_mapIdx.1 hl
  have hw : cs[i].isWritable := Source.isWritable_of_command (hall.get (hall.length_eq ▸ hi) hi)
  have hcap := Source.capacity_lt
  refine ⟨⟨cs[i], Command.ofText_text hw⟩, ?_⟩
  rw [Numeral.isWritable, decide_eq_true_eq]
  dsimp only
  omega

/-- A program of commands starts with its first line. -/
theorem Control.runProgram_ofCommands (s : Settings) (m : Machine) (c : Command)
    (cs : List Command) :
    runProgram s m (Program.ofCommands (c :: cs))
      = run s { program := Program.ofCommands (c :: cs), machine := m } := by
  have hasc := Program.pairwise_ofCommands (c :: cs)
  rw [Program.ofCommands, List.mapIdx_cons] at hasc ⊢
  exact runProgram_of_ascending s m hasc (Int.le_refl 0)

namespace Source

/-- A source without line feeds in its lines has commands, or a fault of it is told, or a literal
in it has too many digits. -/
theorem commands_eq_error {lines : List Text} {f : Failure} (hfeed : ∀ raw ∈ lines, '\n' ∉ raw)
    (h : commands lines = .error f) :
    (∃ g : Fault, f = .fault g ∧ Kind.isA .compile g.kind = true) ∨
      ∃ i t k, instructionAt? lines i = some t ∧ PushesDigits lines t k ∧
        Numeral.digitLimit < k ∧ f = .numeral (.tooLongToRead k) := by
  unfold commands at h
  split at h
  · cases h
    exact .inl ⟨_, rfl, rfl⟩
  · rename_i hsize
    obtain ⟨⟨number, t⟩, hl, hf⟩ := exists_of_mapM_eq_error h
    obtain ⟨i, ht, hnumber⟩ := mem_body_iff.1 hl
    cases hnumber
    have hne := ne_nil_of_instructionAt? ht
    have hn := lineFeed_not_mem_of_instructionAt? hfeed ht
    by_cases hflaw : ∃ g, Flaw lines i t g
    · obtain ⟨g, hg⟩ := hflaw
      rw [command_of_flaw hne hn hg] at hf
      cases hf
      exact .inl ⟨g, rfl, by cases hg <;> rfl⟩
    · by_cases hlong : ∃ k, PushesDigits lines t k ∧ Numeral.digitLimit < k
      · obtain ⟨k, hk, hlt⟩ := hlong
        rw [command_of_pushesDigits hn hk hlt] at hf
        cases hf
        exact .inr ⟨i, t, k, ht, hk, hlt, rfl⟩
      · have hdigits : ∀ k, PushesDigits lines t k → k ≤ Numeral.digitLimit :=
          fun k hk => Nat.not_lt.1 fun hlt => hlong ⟨k, hk, hlt⟩
        obtain ⟨c, hc⟩ :=
          exists_command hne hn (not_exists.1 hflaw) hdigits (Nat.not_lt.1 hsize)
        rw [hc] at hf
        cases hf

end Source

namespace Pipeline

/-- The program of a source is that of its commands, below every namespace. -/
theorem program_direct (ns : Text) (lines : List Text) :
    program ns .direct lines = (Source.commands lines).map Program.ofCommands := by
  rw [program, Source.compile_eq]
  cases Source.commands lines with
  | error f => rfl
  | ok cs => exact Program.ofRecords_of_perm_publish (List.Perm.refl _)

/-- How a text ends that is compiled, decoded and run with some input. -/
def ending (s : Settings) (ns text input : Text) : Ending :=
  match program ns .direct (splitFeeds text) with
  | .error f => .failed f
  | .ok p => (Control.runProgram s { input := .ofText input } p).2

/-- **A text that is compiled, decoded and run under a limit halts or fails with a fault of the
source or of the run, but for numerals of too many digits.**  Such a numeral is a literal of the
source, or it is that of a number which the run shows. -/
theorem ending_told (s : Settings) (n : Int) (ns text input : Text) :
    ending (s.within n) ns text input = .halted ∨
    (∃ g : Fault, ending (s.within n) ns text input = .failed (.fault g) ∧
      (Kind.isA .compile g.kind = true ∨ Kind.isA .execution g.kind = true)) ∨
    (∃ i t k, Source.instructionAt? (splitFeeds text) i = some t ∧
      Source.PushesDigits (splitFeeds text) t k ∧ 4300 < k ∧
      ending (s.within n) ns text input = .failed (.numeral (.tooLongToRead k))) ∨
    ∃ p v, program ns .direct (splitFeeds text) = .ok p ∧
      Control.Shows (s.within n) { input := .ofText input } p v ∧
      Numeral.isWritable v = false ∧
      ending (s.within n) ns text input = .failed (.numeral .tooLongToWrite) := by
  have hprogram := program_direct ns (splitFeeds text)
  cases hc : Source.commands (splitFeeds text) with
  | error f =>
    have hending : ending (s.within n) ns text input = .failed f := by
      rw [ending, hprogram, hc]
      rfl
    rw [hending]
    rcases Source.commands_eq_error (fun _ => lineFeed_not_mem_of_mem_splitFeeds) hc with
      ⟨g, rfl, hg⟩ | ⟨i, t, k, ht, hk, hlt, rfl⟩
    · exact .inr (.inl ⟨g, rfl, .inl hg⟩)
    · exact .inr (.inr (.inl ⟨i, t, k, ht, hk, hlt, rfl⟩))
  | ok cs =>
    rw [hc] at hprogram
    have hending : ending (s.within n) ns text input
        = (Control.runProgram (s.within n) { input := .ofText input }
          (Program.ofCommands cs)).2 := by
      rw [ending, hprogram]
      rfl
    cases he : ending (s.within n) ns text input with
    | halted => exact .inl rfl
    | unfinished => exact absurd (hending ▸ he) (Control.runProgram_ne_unfinished rfl _ _)
    | failed f =>
      have hexplained := Control.explained_of_runProgram (Program.isRunnable_ofCommands hc)
        ⟨rfl, rfl, InputEnd.noConfusion⟩ (hending ▸ he)
      cases hexplained with
      | stop x => exact .inr (.inl ⟨_, rfl, .inr (x.cause.isA_execution)⟩)
      | numeral hv hw => exact .inr (.inr (.inr ⟨_, _, hprogram, hv, hw, rfl⟩))

/-- Ten is squared thirteen times and then printed: the text compiles, every step has its operands,
and the number is too long to be written. -/
theorem ending_print_long :
    ending { limit := some 100 } "x".toList ("push 10\n".toList ++
        (List.replicate 13 "dup\nmult\n".toList).flatten ++ "print\n".toList) []
      = .failed (.numeral .tooLongToWrite) := by
  have hcommands : Source.commands (splitFeeds ("push 10\n".toList ++
      (List.replicate 13 "dup\nmult\n".toList).flatten ++ "print\n".toList))
      = .ok (.push 10 :: ((List.replicate 13 [.bare .dup, .bare .mult]).flatten
        ++ [.bare .print])) := by
    decide +kernel
  rw [ending, program_direct, hcommands]
  dsimp only [Except.map]
  rw [Control.runProgram_ofCommands]
  decide +kernel

end Pipeline

end MxLang
