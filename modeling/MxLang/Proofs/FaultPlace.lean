import MxLang.Proofs.PipelineEnd
import MxLang.Proofs.Trail

/-!
# Where a stop points

A stop is raised without a place: the machine knows the opcode at best, and the search for a next
line not even that (`Raises.isUnplaced`).  The control unit fills in the running line, and does so
with the words for the stop as well (`Fault.diagnostic_annotate`).  Only the stop at the limit is
raised with its place.

`endsAt_loop` says for all stops of a run, after any number of jumps, which line they belong to: the
last one of the trail, or the one under the pointer if the limit cut the run off.  The lines of a
compiled source name their opcodes before the first space (`Program.isNamed_ofCommands`), so the
stop of such a program names place and opcode of one of its lines (`stop_of_compile`).
-/

namespace MxLang

/-! ### Filling in the instruction -/

/-- The data of a cause are neither the opcode nor the priority. -/
theorem StopCause.map_fields {name : Text} (c : StopCause) (value : Field)
    (h : name = "opcode".toList ∨ name = "priority".toList) :
    (c.fields.map fun f => if f.1 = name then (f.1, value) else f) = c.fields := by
  rcases h with rfl | rfl <;> cases c <;> rfl

theorem Fault.setField_opcode (y : Stop) (opcode : Text) :
    (Fault.stop y).diagnostic.setField "opcode".toList (.text opcode)
      = (Fault.stop { y with opcode }).diagnostic := by
  have hfields := y.cause.map_fields (.text opcode) (.inl rfl)
  exact congrArg (fun rest => { (Fault.stop y).diagnostic with
    fields := ("opcode".toList, .text opcode) ::
      ("priority".toList, .ofInt? y.priority) :: rest }) hfields

theorem Fault.setField_priority (y : Stop) (n : Int) :
    ((Fault.stop y).diagnostic.setField "priority".toList (.number n)).relocate
        { priority := some n }
      = (Fault.stop { y with priority := some n }).diagnostic := by
  have hfields := y.cause.map_fields (.number n) (.inr rfl)
  exact congrArg (fun rest => { (Fault.stop y).diagnostic with
    location := { priority := some n }
    fields := ("opcode".toList, .text y.opcode) ::
      ("priority".toList, .number n) :: rest }) hfields

/-- **To annotate a stop annotates its diagnostic.** -/
theorem Fault.diagnostic_annotate (y : Stop) (opcode : Text) (n : Int) :
    (Fault.stop (y.annotate opcode n)).diagnostic
      = (Fault.stop y).diagnostic.annotate opcode n := by
  obtain ⟨cause, word, priority⟩ := y
  cases word with
  | nil =>
    cases priority with
    | none =>
      have hopcode := setField_opcode ⟨cause, [], none⟩ opcode
      have hpriority := setField_priority ⟨cause, opcode, none⟩ n
      rw [← hopcode] at hpriority
      exact hpriority.symm
    | some k => exact (setField_opcode ⟨cause, [], some k⟩ opcode).symm
  | cons a rest =>
    cases priority with
    | none => exact (setField_priority ⟨cause, a :: rest, none⟩ n).symm
    | some k => rfl

theorem Fault.field?_opcode {x : Stop} {word : Text} (h : x.opcode = word) :
    (Fault.stop x).diagnostic.field? "opcode".toList = some (.text word) := by
  rw [← h]
  rfl

theorem Fault.field?_priority {x : Stop} {n : Int} (h : x.priority = some n) :
    (Fault.stop x).diagnostic.field? "priority".toList = some (.number n) := by
  show some (Field.ofInt? x.priority) = _
  rw [h]
  rfl

theorem Fault.location_stop {x : Stop} {n : Int} (h : x.priority = some n) :
    (Fault.stop x).diagnostic.location = { priority := some n } := by
  rw [← h]
  rfl

/-- A stop as an instruction raises it: without a place, and with no opcode or its own. -/
structure Stop.IsUnplaced (word : Text) (y : Stop) : Prop where
  priority : y.priority = none
  opcode : y.opcode = [] ∨ y.opcode = word

theorem Stop.IsUnplaced.annotate {y : Stop} {word : Text} (h : y.IsUnplaced word) (n : Int) :
    y.annotate word n = { y with opcode := word, priority := some n } := by
  rw [Stop.annotate, h.priority, Option.getD_none]
  rcases h.opcode with hnil | hword
  · rw [hnil]
    rfl
  · rw [hword, ite_self]

theorem Failure.eq_of_ofStop {y z : Stop} (h : Failure.ofStop z = .fault (.stop y)) : y = z := by
  unfold Failure.ofStop at h
  split at h
  · cases h
    rfl
  · cases h

/-- A stop that comes out annotated was a stop before. -/
theorem Failure.exists_of_annotate {f : Failure} {opcode : Text} {n : Int} {x : Stop}
    (h : f.annotate opcode n = .fault (.stop x)) :
    ∃ y, f = .fault (.stop y) ∧ x = y.annotate opcode n := by
  cases f with
  | fault g =>
    cases g with
    | stop y =>
      cases h
      exact ⟨y, rfl, rfl⟩
    | _ => cases h
  | _ => cases h

/-! ### What the machine raises -/

/-- The word before the operand of a command. -/
def Command.word : Command → Text
  | .push _ => Instruction.pushWord
  | .bare op => op.name

theorem Command.before_text (c : Command) : Text.before ' ' c.text = c.word := by
  cases c with
  | push v => rfl
  | bare op =>
    rw [text, word, Text.before, List.takeWhile_eq_self_iff]
    intro a ha
    have hne : a ≠ ' ' := by
      rintro rfl
      exact Opcode.not_mem_name (by decide) ha
    simpa using hne

namespace Machine

variable {m : Machine} {word : Text} {y : Stop}

theorem isUnplaced_of_withOne {k : Int → Machine → Effect}
    (h : (m.withOne k).outcome = .error (.fault (.stop y)))
    (hk : ∀ a n, (k a n).outcome = .error (.fault (.stop y)) → y.IsUnplaced word) :
    y.IsUnplaced word := by
  unfold withOne at h
  split at h
  · exact hk _ _ h
  · obtain rfl := Failure.eq_of_ofStop (Except.error.inj h)
    exact ⟨rfl, .inl rfl⟩

theorem isUnplaced_of_withTwo {k : Int → Int → Machine → Effect}
    (h : (m.withTwo k).outcome = .error (.fault (.stop y)))
    (hk : ∀ a b n, (k a b n).outcome = .error (.fault (.stop y)) → y.IsUnplaced word) :
    y.IsUnplaced word := by
  unfold withTwo at h
  split at h
  · exact hk _ _ _ h
  · obtain rfl := Failure.eq_of_ofStop (Except.error.inj h)
    exact ⟨rfl, .inl rfl⟩

/-- A stop that names the opcode from the start. -/
theorem isUnplaced_of_fail {cause : StopCause}
    (h : (m.fail (.ofStop { cause, opcode := word })).outcome = .error (.fault (.stop y))) :
    y.IsUnplaced word := by
  obtain rfl := Failure.eq_of_ofStop (Except.error.inj h)
  exact ⟨rfl, .inr rfl⟩

theorem isUnplaced_of_readChar (h : m.readChar.outcome = .error (.fault (.stop y))) :
    y.IsUnplaced Opcode.read.name := by
  unfold readChar at h
  split at h
  · split at h
    · exact isUnplaced_of_fail h
    · exact isUnplaced_of_fail h
    · cases h
  · exact isUnplaced_of_fail h
  · cases h

theorem isUnplaced_of_printTop (h : m.printTop.outcome = .error (.fault (.stop y))) :
    y.IsUnplaced Opcode.print.name := by
  apply isUnplaced_of_withOne h
  intro a n h
  split at h
  · split at h <;> cases h
  · cases h

theorem isUnplaced_of_divide {op : Opcode} {result : Int → Int → Option Int}
    (h : (m.divide op result).outcome = .error (.fault (.stop y))) : y.IsUnplaced op.name := by
  apply isUnplaced_of_withTwo h
  intro a b n h
  split at h
  · cases h
  · exact isUnplaced_of_fail h

theorem isUnplaced_of_performBare {op : Opcode}
    (h : (m.performBare op).outcome = .error (.fault (.stop y))) : y.IsUnplaced op.name := by
  cases op with
  | left | right | pusht => cases h
  | pop | dup | del | jmp =>
    apply isUnplaced_of_withOne h
    intro a n h
    cases h
  | eq | gt | lt | add | sub | mult | jmpc =>
    apply isUnplaced_of_withTwo h
    intro a b n h
    cases h
  | not =>
    apply isUnplaced_of_withOne h
    intro a n h
    split at h
    · cases h
    · exact isUnplaced_of_fail h
  | div | mod => exact isUnplaced_of_divide h
  | read => exact isUnplaced_of_readChar h
  | print => exact isUnplaced_of_printTop h

/-- **Commands raise stops without a place**, and under no other name than their own. -/
theorem isUnplaced_of_perform {c : Command}
    (h : (m.perform c).outcome = .error (.fault (.stop y))) : y.IsUnplaced c.word := by
  cases c with
  | push v => cases h
  | bare op => exact isUnplaced_of_performBare h

end Machine

/-! ### The line that a run ends at -/

namespace Execution

/-- The stop that an execution raises: the instruction fails with it, or jumps to where no line
follows. -/
inductive Raises (e : Execution) : Stop → Prop
  | failed {y : Stop} (h : e.effect.outcome = .error (.fault (.stop y))) : Raises e y
  | lost {jump : Jump} (h : e.effect.outcome = .ok jump) (ht : jump.taken = true) :
      Raises e { cause := .noNextLine jump.target true (some jump.target) }

variable {e : Execution} {y : Stop}

theorem Raises.isUnplaced {c : Command} (h : e.Raises y)
    (hc : Command.ofText e.line.code = .ok c) : y.IsUnplaced c.word := by
  cases h with
  | failed h =>
    rw [effect, Machine.run_of_ofText hc] at h
    exact Machine.isUnplaced_of_perform h
  | lost h ht => exact ⟨rfl, .inl rfl⟩

theorem Raises.isLimit (h : e.Raises y) : y.cause.isLimit = false := by
  cases h with
  | failed h => exact Machine.isLimit_of_run h
  | lost h ht => rfl

end Execution

namespace Control

/-- A run that has carried out `es` and stands at `d` ends at line `l` with the stop `x`. -/
inductive EndsAt (l : Line) (d : Control) (es : List Execution) (x : Stop) : Prop
  /-- The limit forbids the line, which is the next one. -/
  | cut (hcause : x.cause.isLimit = true) (hplace : x.priority = some l.priority)
      (hnext : d.current? = some l)
  /-- The line was the last to be executed, and raised the stop. -/
  | raised {e : Execution} {y : Stop} (hlast : es.getLast? = some e) (hline : e.line = l)
      (hraises : e.Raises y) (hx : x = y.annotate l.opcode l.priority)

variable {s : Settings} {lines : List Line} {l : Line} {c d : Control} {x : Stop}

theorem EndsAt.cons {es : List Execution} (h : EndsAt l d es x) (e : Execution) :
    EndsAt l d (e :: es) x := by
  cases h with
  | cut hcause hplace hnext => exact .cut hcause hplace hnext
  | raised hlast hline hraises hx =>
    refine .raised ?_ hline hraises hx
    rw [List.getLast?_cons, hlast]
    rfl

/-- **A stop belongs to the line at which the run ends.** -/
theorem endsAt_loop (n : Nat) : ∀ {l : Line} {c : Control}, StandsAt lines l c →
    (c.loop s n).2 = .failed (.fault (.stop x)) →
      ∃ k ∈ lines, EndsAt k (c.loop s n).1 (c.trail s n) x := by
  induction n with
  | zero =>
    intro l c _ hx
    cases hx
  | succ n ih =>
    intro l c h hx
    have hstepped := h.stepped s
    generalize hstep : c.step s = r at hstepped
    cases hstepped with
    | cut hs =>
      rw [loop_of_error hstep] at hx ⊢
      obtain rfl := Failure.eq_of_ofStop (Ending.failed.inj hx)
      exact ⟨l, h.mem, .cut rfl rfl h.current⟩
    | failed hs hf =>
      rw [loop_of_error hstep] at hx ⊢
      rw [trail_of_last hs h.current (by rw [hstep]; simp)]
      obtain ⟨y, rfl, hy⟩ := Failure.exists_of_annotate (Ending.failed.inj hx)
      exact ⟨l, h.mem, .raised rfl rfl (.failed hf) hy⟩
    | moved hs hj hnext hd hsteps =>
      rw [loop_of_more hstep] at hx ⊢
      rw [trail_of_more hs h.current hstep]
      obtain ⟨k, hk, hends⟩ := ih hd hx
      exact ⟨k, hk, hends.cons _⟩
    | lost hs hj ht hnext =>
      rw [loop_of_error hstep] at hx ⊢
      rw [trail_of_last hs h.current (by rw [hstep]; simp)]
      obtain ⟨y, hstop, hy⟩ := Failure.exists_of_annotate (Ending.failed.inj hx)
      obtain rfl := Failure.eq_of_ofStop hstop
      exact ⟨l, h.mem, .raised rfl rfl (.lost hj ht) hy⟩
    | ended hs hj ht hnext =>
      -- A program that runs past its last line halts, or fails to write a number.
      by_cases hw : Numeral.isWritable (l.priority + 1)
      · rw [if_pos hw] at hstep
        rw [loop_of_halt hstep] at hx
        cases hx
      · rw [if_neg hw] at hstep
        rw [loop_of_error hstep] at hx
        cases hx

/-- The same for a program that has a line to start with. -/
theorem endsAt_runProgram {m : Machine} (hstart : (Chart.ofLines lines).next? 0 = some l)
    (hx : (runProgram s m lines).2 = .failed (.fault (.stop x))) :
    ∃ k ∈ lines, EndsAt k (runProgram s m lines).1 (trailOf s m lines) x := by
  obtain ⟨c, hload, hc, -, -⟩ := exists_load hstart m
  obtain ⟨journal, hrun⟩ := exists_runProgram_eq s hload
  rw [hrun] at hx ⊢
  rw [trailOf_of_load hload]
  rcases reported_eq_failed hx with hloop | ⟨-, hdump⟩
  · obtain ⟨k, hk, hends⟩ := endsAt_loop _ hc hloop
    refine ⟨k, hk, ?_⟩
    cases hends with
    | cut hcause hplace hnext => exact .cut hcause hplace hnext
    | raised hlast hline hraises hy => exact .raised hlast hline hraises hy
  · cases Machine.eq_of_dump?_eq_error hdump

end Control

/-! ### Compiled programs -/

namespace Program

/-- Every line is a command, whose word stands before the first space. -/
def IsNamed (p : List Line) : Prop :=
  ∀ l ∈ p, ∃ c, Command.ofText l.code = .ok c ∧ l.opcode = c.word

theorem isNamed_ofCommands {lines : List Text} {cs : List Command}
    (h : Source.commands lines = .ok cs) : IsNamed (ofCommands cs) := by
  obtain ⟨hlen, hall⟩ := Source.commands_spec h
  intro l hl
  obtain ⟨i, hi, rfl⟩ := List.mem_mapIdx.1 hl
  have hw : cs[i].isWritable := Source.isWritable_of_command (hall.get (hall.length_eq ▸ hi) hi)
  exact ⟨cs[i], Command.ofText_text hw, Command.before_text cs[i]⟩

theorem next?_ofCommands (c : Command) (cs : List Command) :
    (Chart.ofLines (ofCommands (c :: cs))).next? 0 = some ⟨0, c.text⟩ := by
  rw [Chart.next?_eq_some_iff]
  refine ⟨?_, Int.le_refl 0, fun k _ hk => hk⟩
  rw [Chart.lookup_ofLines, ofCommands, List.mapIdx_cons, List.find?_cons_of_pos (by simp)]
  rfl

end Program

namespace Source

open Control

/-- What is decoded from a compiled source is the program of its commands. -/
theorem exists_commands_of_ofRecords {ns : Text} {lines : List Text} {records : List Record}
    {p : List Line} (hcompile : compile ns lines = .ok records)
    (hdecode : Program.ofRecords ns records = .ok p) :
    ∃ cs, commands lines = .ok cs ∧ p = Program.ofCommands cs := by
  rw [compile_eq] at hcompile
  cases hcommands : commands lines with
  | error f =>
    rw [hcommands] at hcompile
    cases hcompile
  | ok cs =>
    rw [hcommands] at hcompile
    obtain rfl := Except.ok.inj hcompile
    rw [Program.ofRecords_of_perm_publish (List.Perm.refl _)] at hdecode
    exact ⟨cs, rfl, (Except.ok.inj hdecode).symm⟩

/-- **A stop points at the right line.**  If the program of a source stops, attribute, field and
place of the stop agree on the priority of one of its lines.  At the limit this is the next line;
any other stop was raised by the line that was executed last, and bears the name of its opcode. -/
theorem stop_of_compile {ns : Text} {lines : List Text} {records : List Record} {p : List Line}
    {s : Settings} {m : Machine} {x : Stop} (hcompile : compile ns lines = .ok records)
    (hdecode : Program.ofRecords ns records = .ok p) (hne : p ≠ [])
    (hx : (runProgram s m p).2 = .failed (.fault (.stop x))) :
    ∃ l ∈ p, x.priority = some l.priority ∧
      (Fault.stop x).diagnostic.field? "priority".toList = some (.number l.priority) ∧
      (Fault.stop x).diagnostic.location = { priority := some l.priority } ∧
      if x.cause.isLimit then (runProgram s m p).1.current? = some l
      else ∃ e y c, (trailOf s m p).getLast? = some e ∧ e.line = l ∧ e.Raises y ∧
        (Fault.stop x).diagnostic = (Fault.stop y).diagnostic.annotate l.opcode l.priority ∧
        Command.ofText l.code = .ok c ∧ x.opcode = c.word ∧
        (Fault.stop x).diagnostic.field? "opcode".toList = some (.text c.word) := by
  obtain ⟨cs, hcommands, rfl⟩ := exists_commands_of_ofRecords hcompile hdecode
  have hnamed := Program.isNamed_ofCommands hcommands
  cases cs with
  | nil => exact absurd rfl hne
  | cons first rest =>
    obtain ⟨l, hl, hends⟩ := endsAt_runProgram (Program.next?_ofCommands first rest) hx
    cases hends with
    | cut hcause hplace hnext =>
      refine ⟨l, hl, hplace, Fault.field?_priority hplace, Fault.location_stop hplace, ?_⟩
      rw [if_pos hcause]
      exact hnext
    | @raised e y hlast hline hraises hy =>
      obtain ⟨c, hc, hword⟩ := hnamed l hl
      have hunplaced : y.IsUnplaced l.opcode := by
        rw [hword]
        exact hraises.isUnplaced (hline ▸ hc)
      have hannotate := Fault.diagnostic_annotate y l.opcode l.priority
      rw [← hy] at hannotate
      rw [hunplaced.annotate] at hy
      have hplace : x.priority = some l.priority := by rw [hy]
      have hopcode : x.opcode = c.word := by rw [hy, hword]
      have hcause : x.cause.isLimit = false := by
        rw [hy]
        exact hraises.isLimit
      refine ⟨l, hl, hplace, Fault.field?_priority hplace, Fault.location_stop hplace, ?_⟩
      rw [hcause, if_neg Bool.false_ne_true]
      exact ⟨e, y, c, hlast, hline, hraises, hannotate, hc, hopcode, Fault.field?_opcode hopcode⟩

/-- A source that jumps over a line and then divides by zero. -/
theorem stop_of_compile_division :
    compile "x".toList
        (["push end", "jmp", "del", "end:", "push 0", "push 7", "div"].map String.toList)
        = .ok (publish "x".toList
            [.push 3, .bare .jmp, .bare .del, .push 0, .push 7, .bare .div]) ∧
      (runProgram { limit := some 9 } {} (Program.ofCommands
          [.push 3, .bare .jmp, .bare .del, .push 0, .push 7, .bare .div])).2
        = .failed (.fault (.stop
            { cause := .divisionByZero "div".toList 7
              opcode := "div".toList
              priority := some 5 })) ∧
      ∃ l ∈ Program.ofCommands
          [.push 3, .bare .jmp, .bare .del, .push 0, .push 7, .bare .div],
        some 5 = some l.priority ∧
          ∃ e : Execution, (trailOf { limit := some 9 } {} (Program.ofCommands
            [.push 3, .bare .jmp, .bare .del, .push 0, .push 7, .bare .div])).getLast?
              = some e ∧ e.line = l := by
  have hcompile : compile "x".toList
      (["push end", "jmp", "del", "end:", "push 0", "push 7", "div"].map String.toList)
      = .ok (publish "x".toList
          [.push 3, .bare .jmp, .bare .del, .push 0, .push 7, .bare .div]) := by
    decide +kernel
  have hx : (runProgram { limit := some 9 } {} (Program.ofCommands
      [.push 3, .bare .jmp, .bare .del, .push 0, .push 7, .bare .div])).2
      = .failed (.fault (.stop
          { cause := .divisionByZero "div".toList 7
            opcode := "div".toList
            priority := some 5 })) := by
    rw [runProgram_ofCommands]
    decide +kernel
  obtain ⟨l, hl, hplace, -, -, e, -, -, hlast, hline, -⟩ := stop_of_compile hcompile
    (Program.ofRecords_of_perm_publish (List.Perm.refl _)) (List.cons_ne_nil _ _) hx
  exact ⟨hcompile, hx, l, hl, hplace, e, hlast, hline⟩

end Source

end MxLang
