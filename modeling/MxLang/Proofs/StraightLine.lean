import MxLang.Proofs.Trail

/-!
# Programs without jumps

After every instruction the control unit seeks the next line in the whole program.  If no line
jumps, what it finds can be said beforehand: the `plan` of the program, which leaves out the lines
with a negative priority and all but the first line of each priority, and has the others in
ascending priority.  The counter only goes up, from each line of the plan to the next
(`next?_after`), so the run is a fold over the plan and comes to an end (`folded_runProgram`).

There is the one exception that every program has: behind a last line whose number is as great as
a number can be written, the end of the program is not noticed (`runProgram_unwritable_end`).
-/

namespace MxLang

/-! ### The plan of a program -/

namespace Program

/-- The first line of every priority. -/
def firsts : List Line → List Line
  | [] => []
  | l :: rest => l :: (firsts rest).filter fun a => decide (a.priority ≠ l.priority)

/-- The lines that a program without jumps executes, in their order. -/
def plan (lines : List Line) : List Line :=
  sort (firsts (lines.filter fun l => decide (0 ≤ l.priority)))

theorem mem_firsts {l : Line} {lines : List Line} :
    l ∈ firsts lines ↔ (lines.find? fun a => decide (a.priority = l.priority)) = some l := by
  induction lines with
  | nil => simp [firsts]
  | cons a rest ih =>
    rw [firsts, List.mem_cons, List.mem_filter, ih]
    by_cases h : a.priority = l.priority
    · rw [List.find?_cons_of_pos (by simpa using h)]
      simp [h, eq_comm]
    · rw [List.find?_cons_of_neg (by simpa using h)]
      have hne : l ≠ a := by
        rintro rfl
        exact h rfl
      simp [hne, Ne.symm h]

theorem pairwise_firsts (lines : List Line) :
    (firsts lines).Pairwise fun a b => a.priority ≠ b.priority := by
  induction lines with
  | nil => exact List.Pairwise.nil
  | cons a rest ih =>
    rw [firsts, List.pairwise_cons]
    refine ⟨?_, ih.sublist List.filter_sublist⟩
    intro b hb
    have hne := (List.mem_filter.1 hb).2
    exact (of_decide_eq_true hne).symm

theorem pairwise_plan (lines : List Line) :
    (plan lines).Pairwise fun a b => a.priority < b.priority := by
  have hne : (plan lines).Pairwise fun a b => a.priority ≠ b.priority :=
    ((sort_perm _).pairwise_iff fun h => h.symm).2 (pairwise_firsts _)
  refine ((pairwise_sort _).and hne).imp ?_
  rintro a b ⟨hle, hne⟩
  omega

theorem find?_filter_nonneg {k : Int} (hk : 0 ≤ k) (lines : List Line) :
    ((lines.filter fun l => decide (0 ≤ l.priority)).find? fun l => decide (l.priority = k))
      = lines.find? fun l => decide (l.priority = k) := by
  rw [List.find?_filter]
  congr 1
  funext l
  by_cases hl : l.priority = k <;> simp [hl, hk]

/-- **The plan holds what the chart holds** at priorities from zero on. -/
theorem mem_plan {l : Line} {lines : List Line} :
    l ∈ plan lines ↔ 0 ≤ l.priority ∧ (Chart.ofLines lines).lookup l.priority = some l.code := by
  rw [plan, (sort_perm _).mem_iff, mem_firsts, Chart.lookup_ofLines]
  constructor
  · intro h
    have hl : 0 ≤ l.priority := by simpa using (List.mem_filter.1 (List.mem_of_find?_eq_some h)).2
    rw [find?_filter_nonneg hl] at h
    exact ⟨hl, by rw [h]; rfl⟩
  · rintro ⟨hl, hcode⟩
    obtain ⟨a, ha, hac⟩ := Option.map_eq_some_iff.1 hcode
    have hap : a.priority = l.priority := by simpa using List.find?_some ha
    rw [find?_filter_nonneg hl, ha]
    obtain ⟨priority, code⟩ := a
    obtain rfl : priority = l.priority := hap
    obtain rfl : code = l.code := hac
    rfl

theorem plan_singleton {l : Line} (hl : 0 ≤ l.priority) : plan [l] = [l] := by
  rw [plan, List.filter_cons_of_pos (by simpa using hl)]
  exact sort_eq_of_perm (List.Perm.refl [l]) (List.pairwise_singleton _ l)

section

variable {lines front rest : List Line} {l : Line} {n : Int}

/-- What is sought from `n` on is the first line of the plan at or after `n`. -/
theorem next?_of_plan (hplan : plan lines = front ++ rest) (hn : 0 ≤ n)
    (hfront : ∀ a ∈ front, a.priority < n) (hrest : ∀ a ∈ rest, n ≤ a.priority) :
    (Chart.ofLines lines).next? n = rest.head? := by
  -- A key from `n` on belongs to a line of the plan, which is not one of those in front.
  have hkey : ∀ k ∈ Chart.ofLines lines, n ≤ k → ∃ a ∈ rest, a.priority = k := by
    intro k hk hnk
    obtain ⟨code, hcode⟩ := Finmap.mem_iff.1 hk
    have hmem : (⟨k, code⟩ : Line) ∈ plan lines := mem_plan.2 ⟨hn.trans hnk, hcode⟩
    rw [hplan, List.mem_append] at hmem
    rcases hmem with hmem | hmem
    · exact absurd (hfront _ hmem) (Int.not_lt.2 hnk)
    · exact ⟨_, hmem, rfl⟩
  cases rest with
  | nil =>
    rw [List.head?_nil, Chart.next?_eq_none_iff]
    intro k hk
    by_contra hnk
    obtain ⟨a, ha, -⟩ := hkey k hk (Int.not_lt.1 hnk)
    cases ha
  | cons l rest =>
    have hl : l ∈ plan lines := by
      rw [hplan]
      exact List.mem_append_right _ List.mem_cons_self
    have hsorted := pairwise_plan lines
    rw [hplan, List.pairwise_append, List.pairwise_cons] at hsorted
    rw [List.head?_cons, Chart.next?_eq_some_iff]
    refine ⟨(mem_plan.1 hl).2, hrest l List.mem_cons_self, ?_⟩
    intro k hk hnk
    obtain ⟨a, ha, rfl⟩ := hkey k hk hnk
    rcases List.mem_cons.1 ha with rfl | ha
    · exact le_rfl
    · exact (hsorted.2.1.1 a ha).le

/-- A run starts with the first line of the plan. -/
theorem next?_start (lines : List Line) :
    (Chart.ofLines lines).next? 0 = (plan lines).head? := by
  apply next?_of_plan (List.nil_append (plan lines)).symm le_rfl
  · intro a ha
    cases ha
  · intro a ha
    exact (mem_plan.1 ha).1

/-- **Behind a line of the plan, its next line is found**, whatever gap lies between them. -/
theorem next?_after (hplan : plan lines = front ++ l :: rest) :
    (Chart.ofLines lines).next? (l.priority + 1) = rest.head? := by
  have hl : l ∈ plan lines := by
    rw [hplan]
    exact List.mem_append_right _ List.mem_cons_self
  have hsorted := pairwise_plan lines
  rw [hplan, List.pairwise_append, List.pairwise_cons] at hsorted
  obtain ⟨-, ⟨hbehind, -⟩, hbefore⟩ := hsorted
  rw [List.append_cons] at hplan
  apply next?_of_plan hplan (by have := (mem_plan.1 hl).1; omega)
  · intro a ha
    rcases List.mem_append.1 ha with ha | ha
    · have := hbefore a ha l List.mem_cons_self
      omega
    · obtain rfl := List.mem_singleton.1 ha
      omega
  · intro a ha
    have := hbehind a ha
    omega

end

end Program

/-! ### The fold -/

/-- The machine after the code of a line, if it succeeds. -/
def Machine.runLine (m : Machine) (l : Line) : Except Failure Machine :=
  (m.run l.code).outcome.map fun _ => (m.run l.code).machine

theorem Machine.runLine_of_ok {m : Machine} {l : Line} {jump : Jump}
    (h : (m.run l.code).outcome = .ok jump) : m.runLine l = .ok (m.run l.code).machine := by
  rw [runLine, h]
  rfl

/-- The lines of the first list are taken one after another, from machine `m` on and after `start`
steps.  The second list holds those that are executed, and the observation is the end of it. -/
inductive Folded (m : Machine) (start : Nat) : List Line → List Line → Observation → Prop
  /-- All lines succeed.  The program ends behind the last one. -/
  | completed {plan : List Line} {m' : Machine} {last : Line}
      (hfold : plan.foldlM Machine.runLine m = .ok m') (hlast : plan.getLast? = some last) :
      Folded m start plan plan ⟨m', start + plan.length, last.priority + 1,
        if Numeral.isWritable (last.priority + 1) then .halted
        else .failed (.numeral .tooLongToWrite)⟩
  /-- The lines in front succeed and the next one fails. -/
  | stopped {front rest : List Line} {l : Line} {m' : Machine} {f : Failure}
      (hfold : front.foldlM Machine.runLine m = .ok m')
      (hfail : (m'.run l.code).outcome = .error f) :
      Folded m start (front ++ l :: rest) (front ++ [l]) ⟨(m'.run l.code).machine,
        start + front.length, l.priority, .failed (f.annotate l.opcode l.priority)⟩

namespace Folded

variable {m : Machine} {start : Nat} {l : Line} {o : Observation} {plan executed : List Line}

/-- A line that succeeds may be laid in front. -/
theorem cons {jump : Jump} (hj : (m.run l.code).outcome = .ok jump)
    (h : Folded (m.run l.code).machine (start + 1) plan executed o) :
    Folded m start (l :: plan) (l :: executed) o := by
  have hline := Machine.runLine_of_ok hj
  cases h with
  | completed hfold hlast =>
    rw [show start + 1 + plan.length = start + (l :: plan).length by
      rw [List.length_cons]; omega]
    refine .completed ?_ ?_
    · rw [List.foldlM_cons, hline]
      exact hfold
    · rw [List.getLast?_cons, hlast]
      rfl
  | @stopped front rest a m' f hfold hfail =>
    rw [show start + 1 + front.length = start + (l :: front).length by
      rw [List.length_cons]; omega, ← List.cons_append, ← List.cons_append]
    refine .stopped ?_ hfail
    rw [List.foldlM_cons, hline]
    exact hfold

end Folded

namespace Control

open Program

variable {s : Settings} {lines : List Line} {l : Line} {c : Control}

/-- A line that fails is the only one of what is left that is executed. -/
theorem StandsAt.folded_of_error (h : StandsAt lines l c) {f : Failure}
    (hs : isSpent s c.steps = false) (hf : (c.machine.run l.code).outcome = .error f)
    (rest : List Line) (n : Nat) :
    Folded c.machine c.steps (l :: rest) ((c.trail s (n + 1)).map (·.line))
      (observe (c.loop s (n + 1))) := by
  have hstep := step_of_error hs h.current hf
  rw [loop_of_error hstep, trail_of_last hs h.current (by rw [hstep]; simp)]
  have hfolded := @Folded.stopped c.machine c.steps [] rest l c.machine f rfl hf
  rw [← h.counter] at hfolded ⊢
  exact hfolded

/-- A line that succeeds and behind which the program ends is executed as the last one. -/
theorem StandsAt.folded_of_end (h : StandsAt lines l c) {jump : Jump}
    (hs : isSpent s c.steps = false) (hj : (c.machine.run l.code).outcome = .ok jump)
    (ht : jump.taken = false)
    (hstep : c.step s = ((c.executed s l).moved jump,
      if Numeral.isWritable (l.priority + 1) then .ok false
      else .error (.numeral .tooLongToWrite))) (n : Nat) :
    Folded c.machine c.steps [l] ((c.trail s (n + 1)).map (·.line))
      (observe (c.loop s (n + 1))) := by
  have hfolded := @Folded.completed c.machine c.steps [l] _ l
    (by rw [List.foldlM_cons, Machine.runLine_of_ok hj]; rfl) rfl
  have hcounter : ((c.executed s l).moved jump).counter = l.priority + 1 := by
    rw [← h.counter]
    exact if_neg (by rw [ht]; exact Bool.false_ne_true)
  by_cases hw : Numeral.isWritable (l.priority + 1)
  · rw [if_pos hw] at hstep hfolded
    rw [loop_of_halt hstep, trail_of_last hs h.current (by rw [hstep]; simp), observe, hcounter]
    exact hfolded
  · rw [if_neg hw] at hstep hfolded
    rw [loop_of_error hstep, trail_of_last hs h.current (by rw [hstep]; simp), observe, hcounter]
    exact hfolded

/-- **A loop without jumps and without a limit is a fold** over the rest of the plan. -/
theorem folded_loop (hjump : ∀ l ∈ lines, ¬ l.IsJump) (hlimit : s.limit = none) (n : Nat) :
    ∀ {front rest : List Line} {l : Line} {c : Control}, plan lines = front ++ l :: rest →
      StandsAt lines l c → rest.length < n →
        Folded c.machine c.steps (l :: rest) ((c.trail s n).map (·.line))
          (observe (c.loop s n)) := by
  -- Every step takes a line off the rest of the plan, so its length bounds the steps.
  induction n with
  | zero =>
    intro front rest l c _ _ hn
    omega
  | succ n ih =>
    intro front rest l c hplan h hn
    have hplain := Machine.isPlain_run (hjump l h.mem) c.machine
    have hafter := next?_after hplan
    have hstepped := h.stepped s
    generalize hstep : c.step s = r at hstepped
    cases hstepped with
    | cut hs =>
      obtain ⟨limit, hsome⟩ := exists_limit_of_isSpent hs
      rw [hlimit] at hsome
      cases hsome
    | failed hs hf => exact h.folded_of_error hs hf rest n
    | @moved d jump next hs hj hnext hd hsteps =>
      rw [following, hplain jump hj, if_neg Bool.false_ne_true, hafter] at hnext
      obtain ⟨rest, rfl⟩ := List.head?_eq_some_iff.1 hnext
      have hmachine := machine_step hs h.current
      rw [hstep] at hmachine
      rw [List.append_cons] at hplan
      have hfolded := ih hplan hd (by rw [List.length_cons] at hn; omega)
      rw [hmachine, hsteps] at hfolded
      rw [loop_of_more hstep, trail_of_more hs h.current hstep]
      exact hfolded.cons hj
    | lost hs hj ht hnext =>
      rw [hplain _ hj] at ht
      cases ht
    | ended hs hj ht hnext =>
      rw [hafter, List.head?_eq_none_iff] at hnext
      subst hnext
      exact h.folded_of_end hs hj ht hstep n

/-- **A program without jumps is a fold over its plan.**  If the plan is not empty and no limit is
set, its lines are executed one after another, each once, up to the first that fails.  A patience as
great as the number of its lines is enough, so such a run always comes to an end.  The report on the
state comes last, as in every run. -/
theorem folded_runProgram (m : Machine) (hjump : ∀ l ∈ lines, ¬ l.IsJump)
    (hne : plan lines ≠ []) (hlimit : s.limit = none)
    (hpatience : (plan lines).length ≤ s.patience) :
    ∃ o, Folded m 0 (plan lines) ((trailOf s m lines).map (·.line)) o ∧
      observe (runProgram s m lines) = o.reported s := by
  obtain ⟨l, rest, hplan⟩ := List.exists_cons_of_ne_nil hne
  have hstart := next?_start lines
  rw [hplan, List.head?_cons] at hstart
  obtain ⟨c, hload, hc, hmachine, hsteps⟩ := exists_load hstart m
  obtain ⟨journal, hrun⟩ := exists_runProgram_eq s hload
  have hfuel : c.fuel s = s.patience := by rw [fuel, hlimit]
  rw [hplan, List.length_cons] at hpatience
  have hfolded := folded_loop hjump hlimit (c.fuel s)
    (hplan.trans (List.nil_append _).symm) hc (by omega)
  rw [hmachine, hsteps, ← hplan] at hfolded
  rw [trailOf_of_load hload, hrun]
  exact ⟨_, hfolded, rfl⟩

/-- Lines out of order, with a gap, a line that is passed over and two of one priority. -/
theorem folded_runProgram_gaps :
    plan [⟨7, "print".toList⟩, ⟨-3, "del".toList⟩, ⟨2, "push 65".toList⟩, ⟨7, "del".toList⟩]
        = [⟨2, "push 65".toList⟩, ⟨7, "print".toList⟩] ∧
      ∃ o, Folded {} 0 [⟨2, "push 65".toList⟩, ⟨7, "print".toList⟩]
          ((trailOf { patience := 2 } {} [⟨7, "print".toList⟩, ⟨-3, "del".toList⟩,
            ⟨2, "push 65".toList⟩, ⟨7, "del".toList⟩]).map (·.line)) o ∧
        observe (runProgram { patience := 2 } {} [⟨7, "print".toList⟩, ⟨-3, "del".toList⟩,
          ⟨2, "push 65".toList⟩, ⟨7, "del".toList⟩]) = o.reported { patience := 2 } := by
  have hplan : plan
      [⟨7, "print".toList⟩, ⟨-3, "del".toList⟩, ⟨2, "push 65".toList⟩, ⟨7, "del".toList⟩]
      = [⟨2, "push 65".toList⟩, ⟨7, "print".toList⟩] :=
    sort_eq_of_perm (by decide) (by decide)
  have hjump : ∀ l ∈ [(⟨7, "print".toList⟩ : Line), ⟨-3, "del".toList⟩, ⟨2, "push 65".toList⟩,
      ⟨7, "del".toList⟩], ¬ l.IsJump := by
    unfold Line.IsJump
    decide +kernel
  have hfolded := folded_runProgram {} hjump (by rw [hplan]; exact List.cons_ne_nil _ _)
    (s := { patience := 2 }) rfl (by rw [hplan]; exact Nat.le_refl 2)
  rw [hplan] at hfolded
  exact ⟨hplan, hfolded⟩

/-- One line at the greatest priority that can be written: it does not jump and it succeeds, but the
program does not halt behind it. -/
theorem runProgram_unwritable_end :
    plan [⟨Numeral.bound - 1, "push 65".toList⟩] = [⟨Numeral.bound - 1, "push 65".toList⟩] ∧
      ¬ Line.IsJump ⟨Numeral.bound - 1, "push 65".toList⟩ ∧
      [(⟨Numeral.bound - 1, "push 65".toList⟩ : Line)].foldlM Machine.runLine {}
        = .ok { stack := [65] } ∧
      (runProgram { patience := 1 } {} [⟨Numeral.bound - 1, "push 65".toList⟩]).2
        = .failed (.numeral .tooLongToWrite) := by
  have hpos : (0 : Int) < Numeral.bound := Int.natCast_pos.2 Numeral.bound_pos
  have hnonneg : (0 : Int) ≤ Numeral.bound - 1 := Int.le_sub_one_of_lt hpos
  have hlong : ¬ Numeral.isWritable (Numeral.bound - 1 + 1) := by
    rw [Int.sub_add_cancel, Numeral.isWritable, decide_eq_true_eq, Int.natAbs_natCast]
    exact Nat.lt_irrefl _
  have hobserve := observe_runProgram { patience := 1 } {} [⟨Numeral.bound - 1, "push 65".toList⟩]
  rw [run_singleton (l := ⟨Numeral.bound - 1, "push 65".toList⟩) (m := {}) hnonneg
    (by decide)] at hobserve
  refine ⟨plan_singleton hnonneg, ?_, ?_, (congrArg Observation.ending hobserve).trans ?_⟩
  · unfold Line.IsJump
    decide +kernel
  · decide +kernel
  · simp only [Observation.worded, if_neg hlong]

end Control

end MxLang
