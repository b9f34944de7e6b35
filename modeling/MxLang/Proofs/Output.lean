import MxLang.Proofs.Command
import MxLang.Proofs.Trail

/-!
# What a run prints

The text that a run writes is a log of its print instructions.  Each of them that succeeds adds one
line, in the order in which they are carried out, and nothing else adds anything: this is said of
one instruction in `printed_effect`, and of a whole run in `printed_of_leads`.

The lines can be told apart: a line ends in a line feed and holds no other, since the character in
it is quoted (`lineFeed_not_mem_quoteCode`).  The numeral can be told from the rest of its line,
since it stands between the last two parentheses.  So the text says what has been printed:
`flatMap_printLine_injective`.
-/

namespace MxLang

open Text

/-! ### Lines without a line feed in them -/

theorem Text.digitChar_ne_lineFeed {n : Nat} (hn : n < 16) : Nat.digitChar n ≠ '\n' := by
  have hall : ∀ k ∈ List.range 16, (Nat.digitChar k != '\n') = true :=
    List.all_eq_true.1 (by decide)
  exact bne_iff_ne.1 (hall n (List.mem_range.2 hn))

theorem Text.lineFeed_not_mem_hexDigits (count n : Nat) : '\n' ∉ hexDigits count n := by
  induction count generalizing n with
  | zero => exact List.not_mem_nil
  | succ k ih =>
    rw [hexDigits, List.mem_append, List.mem_singleton, not_or]
    exact ⟨ih (n / 16), (digitChar_ne_lineFeed (Nat.mod_lt n (by decide))).symm⟩

theorem Text.lineFeed_not_mem_hexEscape (n : Nat) : '\n' ∉ hexEscape n := by
  unfold hexEscape
  split
  · simp [lineFeed_not_mem_hexDigits]
  · split <;> simp [lineFeed_not_mem_hexDigits]

theorem Text.lineFeed_not_mem_escape {mark : Char} (hmark : mark ≠ '\n') (c : Char) :
    '\n' ∉ escape mark c := by
  unfold escape
  split
  · rename_i h
    rw [Bool.or_eq_true, decide_eq_true_eq, decide_eq_true_eq] at h
    have hc : c ≠ '\n' := by
      rcases h with rfl | rfl
      · exact hmark
      · decide
    simp [hc.symm]
  · split
    · decide
    · split
      · decide
      · rename_i hc
        split
        · decide
        · split
          · simp [Ne.symm hc]
          · exact lineFeed_not_mem_hexEscape _

theorem Text.lineFeed_not_mem_quote (t : Text) : '\n' ∉ quote t := by
  have hmark : quoteMark t ≠ '\n' := by
    unfold quoteMark
    split <;> decide
  rw [quote, List.cons_append, List.mem_cons, List.mem_append, List.mem_singleton, List.mem_flatMap]
  rintro (h | ⟨c, -, h⟩ | h)
  · exact hmark h.symm
  · exact lineFeed_not_mem_escape hmark c h
  · exact hmark h.symm

/-- A quoted character is written without a line feed, whatever its code. -/
theorem Text.lineFeed_not_mem_quoteCode (n : Int) : '\n' ∉ quoteCode n := by
  unfold quoteCode
  split
  · exact lineFeed_not_mem_quote _
  · split
    · simp [lineFeed_not_mem_hexEscape]
    · exact lineFeed_not_mem_quote _

/-- The line for a printed value, without the line feed that ends it. -/
def printBody (value : Int) : Text :=
  quoteCode value ++ " (".toList ++ Numeral.write value ++ [')']

theorem printLine_eq (value : Int) : printLine value = printBody value ++ ['\n'] := by
  rw [printLine, printBody, List.append_assoc _ [')']]
  rfl

theorem lineFeed_not_mem_printBody (value : Int) : '\n' ∉ printBody value := by
  have hquote := lineFeed_not_mem_quoteCode value
  have hwrite := Numeral.lineFeed_not_mem_write value
  simp [printBody, hquote, hwrite]

/-! ### The values in the text -/

/-- A list is cut in one way only at the first place of an element. -/
theorem eq_of_append_cons_eq {α : Type} {a : α} {x y s t : List α} (hx : a ∉ x) (hy : a ∉ y)
    (h : x ++ a :: s = y ++ a :: t) : x = y ∧ s = t := by
  rcases List.append_eq_append_iff.1 h with ⟨z, rfl, hz⟩ | ⟨z, rfl, hz⟩
  · cases z with
    | nil => simpa using hz
    | cons b z =>
      obtain ⟨rfl, -⟩ := List.cons.inj hz
      simp at hy
  · cases z with
    | nil => simpa using hz.symm
    | cons b z =>
      obtain ⟨rfl, -⟩ := List.cons.inj hz
      simp at hx

theorem Numeral.write_injective : Function.Injective Numeral.write := by
  intro v w h
  have hsign := congrArg splitSign h
  rw [splitSign_write, splitSign_write, Prod.mk.injEq] at hsign
  have habs : v.natAbs = w.natAbs := by
    rw [← asciiValue_writeNat v.natAbs, hsign.2, asciiValue_writeNat]
  rw [← signed_natAbs v, hsign.1, habs, signed_natAbs]

theorem parenthesis_not_mem_write (v : Int) : '(' ∉ Numeral.write v := by
  intro h
  rcases Numeral.mem_write h with h | h
  · exact absurd h (by decide)
  · exact absurd h (by decide)

theorem printBody_injective : Function.Injective printBody := by
  intro v w h
  -- Read from the right, the numeral stands between the first two parentheses.
  have hreverse : ∀ n, (printBody n).reverse
      = ')' :: ((Numeral.write n).reverse ++ '(' :: ' ' :: (quoteCode n).reverse) := by
    intro n
    simp [printBody]
  have hsame := congrArg List.reverse h
  rw [hreverse, hreverse, List.cons.injEq] at hsame
  have hv : '(' ∉ (Numeral.write v).reverse := mt List.mem_reverse.1 (parenthesis_not_mem_write v)
  have hw : '(' ∉ (Numeral.write w).reverse := mt List.mem_reverse.1 (parenthesis_not_mem_write w)
  have hnumeral := (eq_of_append_cons_eq hv hw hsame.2).1
  exact Numeral.write_injective (List.reverse_injective hnumeral)

/-- **The text says what has been printed.** -/
theorem flatMap_printLine_injective {vs ws : List Int}
    (h : vs.flatMap printLine = ws.flatMap printLine) : vs = ws := by
  induction vs generalizing ws with
  | nil =>
    cases ws with
    | nil => rfl
    | cons w ws => simp [printLine_eq] at h
  | cons v vs ih =>
    cases ws with
    | nil => simp [printLine_eq] at h
    | cons w ws =>
      rw [List.flatMap_cons, List.flatMap_cons, printLine_eq, printLine_eq, List.append_assoc,
        List.append_assoc] at h
      obtain ⟨hbody, hrest⟩ := eq_of_append_cons_eq (lineFeed_not_mem_printBody v)
        (lineFeed_not_mem_printBody w) h
      rw [printBody_injective hbody, ih hrest]

/-! ### What an instruction prints -/

namespace Machine

variable {m : Machine}

theorem isBeside_printed : IsBeside printed :=
  ⟨fun _ _ => rfl, fun _ _ => rfl⟩

/-- Only `print` prints. -/
theorem printed_performBare (m : Machine) {op : Opcode} (hop : op ≠ .print) :
    (m.performBare op).machine.printed = m.printed :=
  isBeside_printed.performBare_of_ne_print (fun _ _ => rfl) hop

/-- A value that is printed has been taken from the top of the stack. -/
theorem printed_printTop (m : Machine) :
    m.printTop.machine.printed
      = if m.printTop.outcome.isOk then m.stack.headD 0 :: m.printed else m.printed := by
  unfold printTop withOne
  split
  · rename_i a rest hs
    by_cases hw : Numeral.isWritable a
    · simp only [hw, if_true, hs]
      cases m.broken with
      | some reason => rfl
      | none => cases m.clogged <;> rfl
    · rw [Bool.not_eq_true] at hw
      simp only [hw, Bool.false_eq_true, if_false]
      rfl
  · rfl

end Machine

namespace Execution

/-- The value on top of the stack. -/
def top (e : Execution) : Int :=
  e.before.stack.headD 0

/-- Whether the instruction prints, and succeeds. -/
def isPrintout (e : Execution) : Bool :=
  decide (Command.ofText e.line.code = .ok (.bare .print)) && e.effect.outcome.isOk

/-- **What an instruction prints** is the top of the stack, if it is a print that succeeds. -/
theorem printed_effect (e : Execution) :
    e.effect.machine.printed
      = if e.isPrintout then e.top :: e.before.printed else e.before.printed := by
  unfold isPrintout effect Machine.run
  cases hcode : Command.ofText e.line.code with
  | error f => rfl
  | ok c =>
    by_cases hc : c = .bare .print
    · subst hc
      simp only [decide_true, Bool.true_and]
      exact Machine.printed_printTop e.before
    · have hprint : (e.before.perform c).machine.printed = e.before.printed := by
        cases c with
        | push v => rfl
        | bare op =>
          apply Machine.printed_performBare
          rintro rfl
          exact hc rfl
      have hdifferent : (Except.ok c : Except Failure Command) ≠ .ok (.bare .print) :=
        fun h => hc (Except.ok.inj h)
      simp only [hprint, decide_eq_false hdifferent, Bool.false_and, Bool.false_eq_true, if_false]

/-- **What a run prints** are the values of its printouts, in their order. -/
theorem printed_of_leads {m m' : Machine} {es : List Execution} (h : Leads m es m') :
    m'.printed = ((es.filter isPrintout).map top).reverse ++ m.printed := by
  induction h with
  | nil m => rfl
  | @cons l m m' rest h ih =>
    have hfirst := printed_effect ⟨l, m⟩
    rw [ih, show (m.run l.code).machine.printed = _ from hfirst, List.filter_cons]
    split
    · simp
    · rfl

end Execution

/-- A machine that has done nothing yet. -/
def Machine.fresh (input : Input) (broken : Option Text) : Machine :=
  { input := input, broken := broken }

namespace Control

/-- The prints of a run that succeed, in the order in which they are carried out. -/
def printouts (s : Settings) (m : Machine) (lines : List Line) : List Execution :=
  (trailOf s m lines).filter Execution.isPrintout

/-- **The output is a faithful log.**  Let a program be run on a fresh machine.  However the run
ends, what it has written is one line for each print that has succeeded, in the order in which they
were carried out.  A line ends in a line feed and holds no other.  And the text says which values
have been printed: runs with the same output have printed the same values in the same order. -/
theorem output_runProgram (s : Settings) (input : Input) (broken : Option Text)
    (lines : List Line) :
    (runProgram s (.fresh input broken) lines).1.machine.output
        = (printouts s (.fresh input broken) lines).flatMap (fun e => printLine e.top) ∧
      (∀ value, ∃ line, printLine value = line ++ ['\n'] ∧ '\n' ∉ line) ∧
      ∀ s' input' broken' lines',
        (runProgram s (.fresh input broken) lines).1.machine.output
          = (runProgram s' (.fresh input' broken') lines').1.machine.output →
        (printouts s (.fresh input broken) lines).map Execution.top
          = (printouts s' (.fresh input' broken') lines').map Execution.top := by
  have houtput : ∀ s input broken lines,
      (runProgram s (.fresh input broken) lines).1.machine.output
        = ((printouts s (.fresh input broken) lines).map Execution.top).flatMap printLine := by
    intro s input broken lines
    rw [Machine.output, Execution.printed_of_leads (leads_trailOf _ _ _), Machine.fresh,
      List.append_nil, List.reverse_reverse]
    rfl
  refine ⟨?_, ?_, ?_⟩
  · rw [houtput, List.flatMap_map]
  · intro value
    exact ⟨printBody value, printLine_eq value, lineFeed_not_mem_printBody value⟩
  · intro s' input' broken' lines' hsame
    rw [houtput, houtput] at hsame
    exact flatMap_printLine_injective hsame

end Control

end MxLang
