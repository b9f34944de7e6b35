import MxLang.Proofs.Trail

/-!
# What reads take from the input

Every read takes one line of the input, whatever else is carried out between the reads: the first
character of the line is pushed, and the rest of the line is lost.  When no line is left, a read
fails and changes nothing.  No other instruction touches the input.  `reads_in_order` says this of
all calls upon a control unit, those after a failure or after the end of the program included.

`IsLines` says what the lines of a text are, by their line feeds alone; the lines that the input
delivers are the only ones (`isLines_iff`).  One instruction takes a line or none (`input_effect`),
so after `k` reads the input lacks its first `k` lines (`input_of_leads`, `input_before_read`).
-/

namespace MxLang

/-! ### The lines of a text -/

namespace Text

/-- `IsLines t ls`: the text `t` is made of the lines `ls`.  A line ends at its line feed; only the
last may be without one, and then it is not empty. -/
inductive IsLines : Text → List Text → Prop
  | nil : IsLines [] []
  | last {line : Text} (hne : line ≠ []) (h : '\n' ∉ line) : IsLines line [line]
  | cons {line t : Text} {ls : List Text} (h : '\n' ∉ line) (hrest : IsLines t ls) :
      IsLines (line ++ '\n' :: t) ((line ++ ['\n']) :: ls)

theorem feedLinesOnto_eq (done : List Text) (begun t : Text) :
    feedLinesOnto done begun t = done.reverse ++ feedLinesOnto [] begun t := by
  induction t generalizing done begun with
  | nil =>
    rw [feedLinesOnto, feedLinesOnto]
    split
    · exact (List.append_nil _).symm
    · exact List.reverse_cons
  | cons c t ih =>
    rw [feedLinesOnto, feedLinesOnto]
    split
    · rw [ih (_ :: done), ih [_], List.reverse_cons, List.append_assoc]
      rfl
    · exact ih done (c :: begun)

/-- Characters of an open line are put to those before them. -/
theorem feedLinesOnto_append {line : Text} (h : '\n' ∉ line) (begun t : Text) :
    feedLinesOnto [] begun (line ++ t) = feedLinesOnto [] (line.reverse ++ begun) t := by
  induction line generalizing begun with
  | nil => rfl
  | cons c line ih =>
    rw [List.mem_cons, not_or] at h
    rw [List.cons_append, feedLinesOnto, if_neg (Ne.symm h.1), ih h.2, List.reverse_cons,
      List.append_assoc]
    rfl

theorem feedLines_last {line : Text} (hne : line ≠ []) (h : '\n' ∉ line) :
    feedLines line = [line] := by
  have hopen := feedLinesOnto_append h [] []
  rw [List.append_nil, List.append_nil] at hopen
  rw [feedLines, hopen, feedLinesOnto, if_neg (mt List.reverse_eq_nil_iff.1 hne)]
  simp

theorem feedLines_line {line : Text} (h : '\n' ∉ line) (t : Text) :
    feedLines (line ++ '\n' :: t) = (line ++ ['\n']) :: feedLines t := by
  rw [feedLines, feedLinesOnto_append h, feedLinesOnto, if_pos rfl, feedLinesOnto_eq]
  simp [feedLines]

/-- Every text has lines: one more character in front lengthens the first line, or is one. -/
theorem exists_isLines (t : Text) : ∃ ls, IsLines t ls := by
  induction t with
  | nil => exact ⟨[], .nil⟩
  | cons c t ih =>
    obtain ⟨ls, hls⟩ := ih
    by_cases hc : c = '\n'
    · subst hc
      have hline : IsLines ([] ++ '\n' :: t) (([] ++ ['\n']) :: ls) := .cons List.not_mem_nil hls
      exact ⟨_, hline⟩
    · have hcons : ∀ {line : Text}, '\n' ∉ line → '\n' ∉ c :: line := by
        intro line h
        rw [List.mem_cons, not_or]
        exact ⟨Ne.symm hc, h⟩
      cases hls with
      | nil => exact ⟨_, .last (List.cons_ne_nil _ _) (hcons List.not_mem_nil)⟩
      | last hne h => exact ⟨_, .last (List.cons_ne_nil _ _) (hcons h)⟩
      | cons h hrest => exact ⟨_, .cons (hcons h) hrest⟩

theorem IsLines.eq_feedLines {t : Text} {ls : List Text} (h : IsLines t ls) :
    ls = feedLines t := by
  induction h with
  | nil => rfl
  | last hne h => exact (feedLines_last hne h).symm
  | cons h _ ih => rw [feedLines_line h, ih]

/-- **The lines of a text are those that the input delivers.** -/
theorem isLines_iff {t : Text} {ls : List Text} : IsLines t ls ↔ ls = feedLines t := by
  refine ⟨IsLines.eq_feedLines, fun h => ?_⟩
  obtain ⟨ls', hls'⟩ := exists_isLines t
  rw [h, ← hls'.eq_feedLines]
  exact hls'

theorem IsLines.ne_nil {t : Text} {ls : List Text} (h : IsLines t ls) : ∀ l ∈ ls, l ≠ [] := by
  induction h with
  | nil => intro l hl; cases hl
  | last hne _ => intro l hl; exact List.mem_singleton.1 hl ▸ hne
  | cons _ _ ih =>
    rw [List.forall_mem_cons]
    exact ⟨List.append_ne_nil_of_right_ne_nil _ (List.cons_ne_nil _ _), ih⟩

end Text

/-! ### What an instruction takes -/

/-- The input without its first `n` lines. -/
def Input.skip (n : Nat) (i : Input) : Input :=
  { i with lines := i.lines.drop n }

theorem Input.skip_skip (n k : Nat) (i : Input) : (i.skip n).skip k = i.skip (n + k) := by
  rw [skip, skip, skip, List.drop_drop]

namespace Machine

variable {m : Machine}

/-- A read takes a line if there is one, also if the line is empty and it fails. -/
theorem input_readChar (m : Machine) : m.readChar.machine.input = m.input.skip 1 := by
  unfold readChar Input.skip
  split
  · rename_i hlines
    rw [hlines]
    have hsame : ({ m.input with lines := [] } : Input) = m.input := by rw [← hlines]
    split <;> exact hsame.symm
  · rename_i hlines
    rw [hlines]
    rfl
  · rename_i hlines
    rw [hlines]
    rfl

theorem readChar_of_line {c : Char} {more : Text} {rest : List Text}
    (h : m.input.lines = (c :: more) :: rest) :
    m.readChar.outcome = .ok {} ∧ m.readChar.machine =
      { m with stack := (c.toNat : Int) :: m.stack, input := ⟨rest, m.input.ending⟩ } := by
  unfold readChar
  rw [h]
  exact ⟨rfl, rfl⟩

theorem readChar_of_end (hlines : m.input.lines = []) (hend : m.input.ending = .endOfStream) :
    m.readChar
      = m.fail (.fault (.stop { cause := .inputExhausted, opcode := Opcode.read.name })) := by
  unfold readChar
  rw [hlines, hend]
  rfl

theorem isBeside_input : IsBeside input :=
  ⟨fun _ _ => rfl, fun _ _ => rfl⟩

theorem input_printTop (m : Machine) : m.printTop.machine.input = m.input := by
  apply isBeside_input.withOne
  intro value n
  split
  · split <;> rfl
  · rfl

/-- Only `read` takes anything from the input. -/
theorem input_performBare (m : Machine) {op : Opcode} (hop : op ≠ .read) :
    (m.performBare op).machine.input = m.input := by
  by_cases hprint : op = .print
  · subst hprint
    exact input_printTop m
  · exact isBeside_input.performBare hop hprint

end Machine

namespace Execution

/-- Whether the instruction is a read. -/
def isRead (e : Execution) : Bool :=
  decide (Command.ofText e.line.code = .ok (.bare .read))

theorem effect_of_isRead {e : Execution} (h : e.isRead) : e.effect = e.before.readChar := by
  rw [effect, Machine.run, of_decide_eq_true h]
  rfl

/-- An instruction that is no read leaves the input alone. -/
theorem input_effect_of_not_isRead {e : Execution} (h : e.isRead = false) :
    e.effect.machine.input = e.before.input := by
  have hcode := of_decide_eq_false h
  unfold effect Machine.run
  split
  · rename_i c hc
    cases c with
    | push v => rfl
    | bare op =>
      apply Machine.input_performBare
      rintro rfl
      exact hcode hc
  · rfl

/-- **What an instruction takes from the input** is one line, if it is a read. -/
theorem input_effect (e : Execution) :
    e.effect.machine.input = e.before.input.skip (if e.isRead then 1 else 0) := by
  cases h : e.isRead with
  | true =>
    rw [effect_of_isRead h]
    exact Machine.input_readChar e.before
  | false => exact input_effect_of_not_isRead h

variable {m m' : Machine} {es : List Execution}

/-- **What a run takes from the input** are as many lines as it has reads. -/
theorem input_of_leads (h : Leads m es m') : m'.input = m.input.skip (es.filter isRead).length := by
  induction h with
  | nil m => rfl
  | @cons l m m' rest h ih =>
    have hfirst := input_effect ⟨l, m⟩
    rw [ih, show (m.run l.code).machine.input = _ from hfirst, Input.skip_skip, List.filter_cons]
    congr 1
    split
    · rw [List.length_cons, Nat.add_comm]
    · rw [Nat.zero_add]

/-- **Before a read the input lacks one line for each read before it.** -/
theorem input_before_read (h : Leads m es m') {k : Nat} {e : Execution}
    (he : (es.filter isRead)[k]? = some e) : e.before.input = m.input.skip k := by
  induction h generalizing k with
  | nil m => cases he
  | @cons l m m' rest h ih =>
    have hfirst : (m.run l.code).machine.input = _ := input_effect ⟨l, m⟩
    rw [List.filter_cons] at he
    split at he
    · rename_i hread
      rw [hread, if_pos rfl] at hfirst
      cases k with
      | zero =>
        obtain rfl := Option.some.inj he
        rfl
      | succ k => rw [ih he, hfirst, Input.skip_skip, Nat.add_comm]
    · rename_i hread
      rw [if_neg hread] at hfirst
      rw [ih he, hfirst]
      rfl

theorem Leads.append {m₁ m₂ m₃ : Machine} {es₁ es₂ : List Execution} (h₁ : Leads m₁ es₁ m₂)
    (h₂ : Leads m₂ es₂ m₃) : Leads m₁ (es₁ ++ es₂) m₃ := by
  induction h₁ with
  | nil m => exact h₂
  | cons _ ih => exact .cons (ih h₂)

end Execution

/-! ### Many calls -/

namespace Control

open Execution Text

/-- The instructions that a call carries out. -/
def Call.trail : Call → Control → List Execution
  | .step s, c => c.trail s 1
  | .run s, c => c.trail s (c.fuel s)

/-- The instructions that calls carry out one after another. -/
def history : List Call → Control → List Execution
  | [], _ => []
  | call :: rest, c => call.trail c ++ history rest (call.perform c)

theorem Call.leads_trail (call : Call) (c : Control) :
    Leads c.machine (call.trail c) (call.perform c).machine := by
  cases call with
  | step s =>
    have hloop : (c.loop s 1).1 = (c.step s).1 := by
      cases hstep : c.step s with
      | mk d answer =>
        match answer with
        | .error f => rw [loop_of_error hstep]
        | .ok false => rw [loop_of_halt hstep]
        | .ok true => rw [loop_of_more hstep]; rfl
    show Leads c.machine (c.trail s 1) (c.step s).1.machine
    rw [← hloop]
    exact Control.leads_trail s 1 c
  | run s =>
    show Leads c.machine (c.trail s (c.fuel s)) (c.run s).1.machine
    by_cases hne : c.program = []
    · have hline : c.current? = none := by rw [current?, hne]; rfl
      rw [trail_of_no_line hline, Control.run, if_pos hne]
      exact .nil _
    · obtain ⟨journal, hrun⟩ := run_of_ne_nil (s := s) hne
      rw [hrun]
      exact Control.leads_trail s _ c

/-- **Calls lead from the machine they start with to the one they end with.** -/
theorem leads_history (calls : List Call) (c : Control) :
    Leads c.machine (history calls c) (calls.foldl (fun c call => call.perform c) c).machine := by
  induction calls generalizing c with
  | nil => exact .nil _
  | cons call rest ih => exact (call.leads_trail c).append (ih (call.perform c))

/-- The reads among the instructions that calls carry out, in their order. -/
def reads (calls : List Call) (c : Control) : List Execution :=
  (history calls c).filter isRead

theorem isRead_of_getElem? {calls : List Call} {c : Control} {k : Nat} {e : Execution}
    (h : (reads calls c)[k]? = some e) : e.isRead :=
  (List.mem_filter.1 (List.mem_of_getElem? h)).2

/-- **Each read takes the next line of the input.**  Let the input of a control unit deliver a text
with the lines `ls`, and let the control unit be called upon, to make a step or a run, any number of
times.  Of all reads that are carried out, read number `k`, counted from zero, meets line number
`k`: it pushes the code of the first character of the line, even if that is the line feed, and
leaves exactly the lines after it.  If there is no such line, the read fails because the input is
exhausted, and the machine stays as it was.  No other instruction changes the input, so in the end
it lacks one line for each read. -/
theorem reads_in_order {t : Text} {ls : List Text} (hls : IsLines t ls) {c : Control}
    (hinput : c.machine.input = .ofText t) (calls : List Call) :
    (∀ (k : Nat) (e : Execution), (reads calls c)[k]? = some e →
      (∀ line, ls[k]? = some line → ∃ first rest, line = first :: rest ∧
        e.effect.outcome = .ok {} ∧
        e.effect.machine = { e.before with
          stack := (first.toNat : Int) :: e.before.stack
          input := ⟨ls.drop (k + 1), .endOfStream⟩ }) ∧
      (ls[k]? = none →
        e.effect.outcome
            = .error (.fault (.stop { cause := .inputExhausted, opcode := Opcode.read.name })) ∧
          e.effect.machine = e.before)) ∧
    (∀ e ∈ history calls c, e.isRead = false → e.effect.machine.input = e.before.input) ∧
    (calls.foldl (fun c call => call.perform c) c).machine.input
      = ⟨ls.drop (reads calls c).length, .endOfStream⟩ := by
  have hskip : ∀ n, c.machine.input.skip n = ⟨ls.drop n, .endOfStream⟩ := by
    intro n
    rw [hinput, hls.eq_feedLines]
    rfl
  refine ⟨?_, fun e _ => input_effect_of_not_isRead, ?_⟩
  · intro k e he
    have hbefore : e.before.input = ⟨ls.drop k, .endOfStream⟩ := by
      rw [input_before_read (leads_history calls c) he, hskip]
    have hlines : e.before.input.lines = ls.drop k := congrArg Input.lines hbefore
    have hending : e.before.input.ending = .endOfStream := congrArg Input.ending hbefore
    rw [effect_of_isRead (isRead_of_getElem? he)]
    constructor
    · intro line hline
      obtain ⟨first, rest, rfl⟩ :=
        List.exists_cons_of_ne_nil (hls.ne_nil line (List.mem_of_getElem? hline))
      obtain ⟨hk, hget⟩ := List.getElem?_eq_some_iff.1 hline
      rw [List.drop_eq_getElem_cons hk, hget] at hlines
      obtain ⟨houtcome, hmachine⟩ := Machine.readChar_of_line hlines
      exact ⟨first, rest, rfl, houtcome, hending ▸ hmachine⟩
    · intro hnone
      rw [List.drop_eq_nil_of_le (List.getElem?_eq_none_iff.1 hnone)] at hlines
      rw [Machine.readChar_of_end hlines hending]
      exact ⟨rfl, rfl⟩
  · rw [input_of_leads (leads_history calls c), hskip]
    rfl

/-- A line of two characters and a lone line feed, read by three steps on one line: the second read
pushes the code of the line feed, and the third finds nothing. -/
theorem reads_in_order_lone_feed :
    IsLines "ab\n\n".toList ["ab\n".toList, "\n".toList] ∧
      ∃ e e' : Execution,
        (reads [.step {}, .step {}, .step {}] (load [⟨0, "read".toList⟩]
          { machine := { input := .ofText "ab\n\n".toList } }).1)[1]? = some e ∧
        e.effect.machine.stack = 10 :: e.before.stack ∧
        (reads [.step {}, .step {}, .step {}] (load [⟨0, "read".toList⟩]
          { machine := { input := .ofText "ab\n\n".toList } }).1)[2]? = some e' ∧
        e'.effect.machine = e'.before := by
  have hlast : IsLines ([] ++ '\n' :: []) [[] ++ ['\n']] := .cons List.not_mem_nil .nil
  have hls : IsLines ("ab".toList ++ '\n' :: ['\n']) ["ab".toList ++ ['\n'], ['\n']] :=
    .cons (by decide) hlast
  have hinput : (load [⟨0, "read".toList⟩]
      { machine := { input := .ofText "ab\n\n".toList } }).1.machine.input
      = .ofText "ab\n\n".toList :=
    congrArg Machine.input (machine_load _ _)
  have hlength : (reads [.step {}, .step {}, .step {}] (load [⟨0, "read".toList⟩]
      { machine := { input := .ofText "ab\n\n".toList } }).1).length = 3 := by
    decide +kernel
  obtain ⟨hreads, -, -⟩ := reads_in_order hls hinput [.step {}, .step {}, .step {}]
  have hsecond := List.getElem?_eq_getElem (hlength ▸ (by decide : 1 < 3))
  have hthird := List.getElem?_eq_getElem (hlength ▸ (by decide : 2 < 3))
  obtain ⟨first, rest, hline, -, hmachine⟩ := (hreads 1 _ hsecond).1 ['\n'] rfl
  obtain ⟨rfl, -⟩ := List.cons.inj hline
  exact ⟨hls, _, _, hsecond, congrArg Machine.stack hmachine, hthird,
    ((hreads 2 _ hthird).2 rfl).2⟩

end Control

end MxLang
