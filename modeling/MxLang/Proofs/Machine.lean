import MxLang.Machine

/-!
# How commands fail

`Failing` lists the failures that a command can end in, whatever state the machine is in
(`failing_of_perform`).  A text can also be refused: it names no opcode, or it pushes something that
is no number.  Once a text has been read as a command this cannot happen any more
(`Failing.isRefusal`).

The commands are gone through once, in `Covers.of_perform`: what holds of all failures for which a
machine itself can be the reason holds of those that commands end in.  In the same way
`IsBeside.performBare` says once what commands leave alone.
-/

namespace MxLang

/-- Whether the text of an instruction is the cause. -/
def StopCause.isRefusal : StopCause → Bool
  | .unknownOpcode _ | .invalidPush _ => true
  | _ => false

/-- Whether the cause lies in the machine: its operands or its input. -/
def StopCause.isInternal : StopCause → Bool
  | .notBinary _ | .divisionByZero _ _ | .inputExhausted | .inputFailed _ | .stackUnderflow => true
  | _ => false

theorem StopCause.isRefusal_of_isInternal {c : StopCause} (h : c.isInternal) :
    c.isRefusal = false := by
  cases c with
  | notBinary | divisionByZero | inputExhausted | inputFailed | stackUnderflow => rfl
  | _ => cases h

/-- Whether an operation failed because the text of an instruction was refused. -/
def Failure.isRefusal : Failure → Bool
  | .fault (.stop s) => s.cause.isRefusal
  | _ => false

theorem Failure.isRefusal_ofStop {s : Stop} (h : s.cause.isRefusal = false) :
    (Failure.ofStop s).isRefusal = false := by
  rw [Failure.ofStop]
  split
  · exact h
  · rfl

namespace Machine

/-- What a command can fail with: a stop for a reason in the machine, a number that cannot be
written, a broken output, or the user. -/
inductive Failing : Failure → Prop
  | stop {s : Stop} (hs : s.cause.isRefusal = false) : Failing (.ofStop s)
  | numeral (e : Numeral.Error) : Failing (.numeral e)
  | device (reason : Text) : Failing (.device reason)
  | interrupted : Failing .interrupted

theorem Failing.isRefusal {f : Failure} (h : Failing f) : f.isRefusal = false := by
  cases h with
  | stop hs => exact Failure.isRefusal_ofStop hs
  | numeral e => rfl
  | device reason => rfl
  | interrupted => rfl

variable {m : Machine} {f : Failure} {P : Failure → Prop}

/-- A property that the failures of commands have: each of them is a stop with one of the causes
that lie in the machine, or no stop at all. -/
structure Covers (P : Failure → Prop) : Prop where
  stop : ∀ s : Stop, s.cause.isInternal → P (.ofStop s)
  numeral : P (.numeral .tooLongToWrite)
  device : ∀ reason, P (.device reason)
  interrupted : P .interrupted

/-- An opcode that takes one value fails without a value, or in what it does with it. -/
theorem Covers.of_withOne (hP : Covers P) {k : Int → Machine → Effect}
    (h : (m.withOne k).outcome = .error f)
    (hk : ∀ a m', (k a m').outcome = .error f → P f) : P f := by
  unfold withOne at h
  split at h
  · exact hk _ _ h
  · exact Except.error.inj h ▸ hP.stop _ rfl

/-- An opcode that takes two values fails without them, or in what it does with them. -/
theorem Covers.of_withTwo (hP : Covers P) {k : Int → Int → Machine → Effect}
    (h : (m.withTwo k).outcome = .error f)
    (hk : ∀ a b m', (k a b m').outcome = .error f → P f) : P f := by
  unfold withTwo at h
  split at h
  · exact hk _ _ _ h
  · exact Except.error.inj h ▸ hP.stop _ rfl

theorem Covers.of_readChar (hP : Covers P) (h : m.readChar.outcome = .error f) : P f := by
  unfold readChar at h
  split at h
  · split at h
    · exact Except.error.inj h ▸ hP.stop _ rfl
    · exact Except.error.inj h ▸ hP.stop _ rfl
    · exact Except.error.inj h ▸ hP.interrupted
  · exact Except.error.inj h ▸ hP.stop _ rfl
  · cases h

theorem Covers.of_printTop (hP : Covers P) (h : m.printTop.outcome = .error f) : P f := by
  refine hP.of_withOne h fun value m' h => ?_
  split at h
  · split at h
    · exact Except.error.inj h ▸ hP.device _
    · exact Except.error.inj h ▸ hP.device _
    · cases h
  · exact Except.error.inj h ▸ hP.numeral

theorem Covers.of_divide (hP : Covers P) {op : Opcode} {result : Int → Int → Option Int}
    (h : (m.divide op result).outcome = .error f) : P f := by
  refine hP.of_withTwo h fun a b m' h => ?_
  split at h
  · cases h
  · exact Except.error.inj h ▸ hP.stop _ rfl

theorem Covers.of_not (hP : Covers P) (h : (m.performBare .not).outcome = .error f) : P f := by
  refine hP.of_withOne h fun a m' h => ?_
  split at h
  · cases h
  · exact Except.error.inj h ▸ hP.stop _ rfl

theorem Covers.of_performBare (hP : Covers P) {op : Opcode}
    (h : (m.performBare op).outcome = .error f) : P f := by
  cases op with
  | left | right | pusht => cases h
  | pop | dup | del | jmp => exact hP.of_withOne h fun _ _ h => nomatch h
  | eq | gt | lt | add | sub | mult | jmpc => exact hP.of_withTwo h fun _ _ _ h => nomatch h
  | not => exact hP.of_not h
  | div | mod => exact hP.of_divide h
  | read => exact hP.of_readChar h
  | print => exact hP.of_printTop h

theorem Covers.of_perform (hP : Covers P) {c : Command} (h : (m.perform c).outcome = .error f) :
    P f := by
  cases c with
  | push v => cases h
  | bare op => exact hP.of_performBare h

/-- **The failures of commands**, for every command and every state. -/
theorem failing_of_perform {c : Command} (h : (m.perform c).outcome = .error f) : Failing f := by
  have hcovers : Covers Failing :=
    ⟨fun _ hs => .stop (StopCause.isRefusal_of_isInternal hs), .numeral _, .device, .interrupted⟩
  exact hcovers.of_perform h

/-! ### What commands leave alone -/

/-- A part of the machine beside its stack and its tape. -/
structure IsBeside {α : Type} (part : Machine → α) : Prop where
  stack : ∀ (m : Machine) (s : List Int), part { m with stack := s } = part m
  tape : ∀ (m : Machine) (t : Tape), part { m with tape := t } = part m

section IsBeside

variable {α : Type} {part : Machine → α}

theorem IsBeside.withOne (h : IsBeside part) {k : Int → Machine → Effect}
    (hk : ∀ a n, part (k a n).machine = part n) : part (m.withOne k).machine = part m := by
  unfold Machine.withOne
  split
  · exact (hk _ _).trans (h.stack m _)
  · exact h.stack m _

theorem IsBeside.withTwo (h : IsBeside part) {k : Int → Int → Machine → Effect}
    (hk : ∀ a b n, part (k a b n).machine = part n) : part (m.withTwo k).machine = part m := by
  unfold Machine.withTwo
  split
  · exact (hk _ _ _).trans (h.stack m _)
  · exact h.stack m _

/-- **Only reading and printing reach beyond the stack and the tape.** -/
theorem IsBeside.performBare (h : IsBeside part) {op : Opcode} (hread : op ≠ .read)
    (hprint : op ≠ .print) : part (m.performBare op).machine = part m := by
  unfold Machine.performBare
  cases op with
  | left | right => exact h.tape m _
  | pusht => exact (h.stack _ _).trans (h.tape m _)
  | pop => exact h.withOne fun _ n => h.tape n _
  | dup => exact h.withOne fun a n => (h.stack (n.push a) _).trans (h.stack n _)
  | del | jmp => exact h.withOne fun _ _ => rfl
  | jmpc => exact h.withTwo fun _ _ _ => rfl
  | eq | gt | lt | add | sub | mult => exact h.withTwo fun _ _ n => h.stack n _
  | not =>
    apply h.withOne
    intro a n
    split
    · exact h.stack n _
    · rfl
  | div | mod =>
    apply h.withTwo
    intro a b n
    split
    · exact h.stack n _
    · rfl
  | read => exact absurd rfl hread
  | print => exact absurd rfl hprint

theorem IsBeside.readChar (h : IsBeside part)
    (hinput : ∀ (m : Machine) (i : Input), part { m with input := i } = part m) :
    part m.readChar.machine = part m := by
  unfold Machine.readChar
  split
  · split <;> rfl
  · exact hinput m _
  · exact (h.stack { m with input := _ } _).trans (hinput m _)

/-- What the input does not touch either is left alone by all but printing. -/
theorem IsBeside.performBare_of_ne_print (h : IsBeside part)
    (hinput : ∀ (m : Machine) (i : Input), part { m with input := i } = part m) {op : Opcode}
    (hprint : op ≠ .print) : part (m.performBare op).machine = part m := by
  by_cases hread : op = .read
  · subst hread
    exact h.readChar hinput
  · exact h.performBare hread hprint

end IsBeside

/-- A listing fails only over a number that cannot be written. -/
theorem eq_of_dump?_eq_error (h : m.dump? = .error f) : f = .numeral .tooLongToWrite := by
  rw [dump?] at h
  split at h
  · cases h
  · exact (Except.error.inj h).symm

end Machine

end MxLang
