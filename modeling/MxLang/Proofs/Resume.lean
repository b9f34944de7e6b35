import MxLang.Proofs.Control
import MxLang.Proofs.Machine

/-!
# Limits cut runs, and cut runs can be resumed

Of two limits `n ≤ k` the smaller one decides only where a run is cut.  A run that comes to its end
before it meets the limit `n` is the same run under the limit `k`; one that meets it has executed
`n` instructions, stands where the run under `k` stands after `n` instructions, and goes on to the
end of that run when it is resumed with the limit `k` (`runProgram_resume`).

A step that neither limit forbids is the same step under both (`step_within`), so the two runs are
one for as many steps as `n` allows (`loop_within`); behind them the run under `n` is at its end or
is cut (`loop_within_cases`).

A cut is told by a fault that names the limit, and with debugging on the state is told as well.  A
limit or a value of too many digits cannot be told: the run is cut all the same, and can be resumed,
but it ends in the failure to write the number (`runProgram_limit_untold`).
-/

namespace MxLang

/-- The settings with another limit. -/
def Settings.within (s : Settings) (n : Int) : Settings :=
  { s with limit := some n }

/-! ### Stops at the limit -/

/-- Whether the limit is the cause. -/
def StopCause.isLimit : StopCause → Bool
  | .stepLimit _ => true
  | _ => false

/-- Whether an operation failed because the limit was met. -/
def Failure.isLimit : Failure → Bool
  | .fault (.stop s) => s.cause.isLimit
  | _ => false

/-- Whether a run ended because the limit was met. -/
def Ending.isLimit : Ending → Bool
  | .failed f => f.isLimit
  | _ => false

theorem Failure.isLimit_ofStop {s : Stop} (h : s.cause.isLimit = false) :
    (Failure.ofStop s).isLimit = false := by
  rw [Failure.ofStop]
  split
  · exact h
  · rfl

theorem Failure.isLimit_annotate (f : Failure) (opcode : Text) (n : Int) :
    (f.annotate opcode n).isLimit = f.isLimit := by
  unfold Failure.annotate
  split <;> rfl

theorem isLimit_of_ofText {code : Text} {f : Failure} (h : Command.ofText code = .error f) :
    f.isLimit = false := by
  unfold Command.ofText at h
  split at h
  · exact Except.error.inj h ▸ Failure.isLimit_ofStop rfl
  · split at h
    · split at h
      · exact Except.error.inj h ▸ rfl
      · cases h
      · exact Except.error.inj h ▸ Failure.isLimit_ofStop rfl
    · split at h
      · cases h
      · exact Except.error.inj h ▸ Failure.isLimit_ofStop rfl

/-- The machine knows nothing of limits. -/
theorem Machine.isLimit_of_run {m : Machine} {code : Text} {f : Failure}
    (h : (m.run code).outcome = .error f) : f.isLimit = false := by
  have hcovers : Machine.Covers fun f => f.isLimit = false := by
    refine ⟨fun s hs => Failure.isLimit_ofStop ?_, rfl, fun _ => rfl, rfl⟩
    cases hc : s.cause with
    | stepLimit limit => rw [hc] at hs; cases hs
    | _ => rfl
  unfold Machine.run at h
  split at h
  · exact hcovers.of_perform h
  · rename_i g hg
    exact Except.error.inj h ▸ isLimit_of_ofText hg

namespace Control

variable {s : Settings} {c d : Control} {n k : Int}

theorem isLimit_of_advance {l : Line} {jump : Jump} {f : Failure}
    (h : (c.advance l jump).2 = .error f) : f.isLimit = false := by
  cases hseek : firstFrom? (following c.counter jump) 0 c.program with
  | some found => rw [advance_of_some hseek] at h; cases h
  | none =>
    cases ht : jump.taken with
    | true =>
      rw [advance_of_jump ht hseek] at h
      rw [← Except.error.inj h, Failure.isLimit_annotate]
      exact Failure.isLimit_ofStop rfl
    | false =>
      rw [advance_of_end ht hseek] at h
      dsimp only at h
      split at h
      · cases h
      · exact Except.error.inj h ▸ rfl

theorem isLimit_of_step {f : Failure} (hs : isSpent s c.steps = false)
    (h : (c.step s).2 = .error f) : f.isLimit = false := by
  cases hl : c.current? with
  | none =>
    rw [step_of_no_line hs hl] at h
    exact Except.error.inj h ▸ rfl
  | some l =>
    cases hj : (c.machine.run l.code).outcome with
    | error g =>
      rw [step_of_error hs hl hj] at h
      rw [← Except.error.inj h, Failure.isLimit_annotate]
      exact Machine.isLimit_of_run hj
    | ok jump =>
      rw [step_of_ok hs hl hj] at h
      exact isLimit_of_advance h

theorem program_advance (l : Line) (jump : Jump) :
    (c.advance l jump).1.program = c.program := by
  cases h : firstFrom? (following c.counter jump) 0 c.program with
  | some found => rw [advance_of_some h]
  | none =>
    cases ht : jump.taken with
    | true => rw [advance_of_jump ht h]; rfl
    | false => rw [advance_of_end ht h]; rfl

/-! ### Runs one after the other -/

theorem loop_add {i j : Nat} (h : c.loop s j = (d, .unfinished)) :
    c.loop s (j + i) = d.loop s i := by
  fun_induction loop s j c with
  | case1 c =>
    obtain rfl := (Prod.mk.inj h).1
    rw [Nat.zero_add]
  | case2 j c b hstep ih =>
    rw [Nat.succ_add, loop_of_more hstep]
    exact ih h
  | case3 | case4 => cases h

theorem loop_of_ne_unfinished {i j : Nat} (h : (c.loop s j).2 ≠ .unfinished) :
    c.loop s (j + i) = c.loop s j := by
  fun_induction loop s j c with
  | case1 c => exact absurd rfl h
  | case2 j c b hstep ih =>
    rw [Nat.succ_add, loop_of_more hstep]
    exact ih h
  | case3 j c b hstep => rw [Nat.succ_add, loop_of_halt hstep]
  | case4 j c b f hstep => rw [Nat.succ_add, loop_of_error hstep]

theorem steps_of_unfinished {j : Nat} (h : c.loop s j = (d, .unfinished)) :
    d.steps = c.steps + j := by
  fun_induction loop s j c with
  | case1 c =>
    obtain rfl := (Prod.mk.inj h).1
    rfl
  | case2 j c b hstep ih =>
    have hb := (steps_step (show (c.step s).2 = .ok true by rw [hstep])).2
    have hd := ih h
    rw [hstep] at hb
    dsimp only at hb
    omega
  | case3 | case4 => cases h

/-- What a step leaves alone: the program, and the count of steps but for one. -/
theorem step_frame (s : Settings) (c : Control) :
    (c.step s).1.program = c.program ∧ (c.step s).1.steps ≤ c.steps + 1 := by
  cases hs : isSpent s c.steps with
  | true =>
    rw [step_of_isSpent hs]
    exact ⟨rfl, Nat.le_succ _⟩
  | false =>
    cases hl : c.current? with
    | none =>
      rw [step_of_no_line hs hl]
      exact ⟨rfl, Nat.le_succ _⟩
    | some l =>
      cases hj : (c.machine.run l.code).outcome with
      | error f =>
        rw [step_of_error hs hl hj]
        exact ⟨rfl, Nat.le_succ _⟩
      | ok jump =>
        rw [step_of_ok hs hl hj, steps_advance, program_advance]
        exact ⟨rfl, Nat.le_refl _⟩

theorem loop_frame (s : Settings) (j : Nat) (c : Control) :
    (c.loop s j).1.program = c.program ∧ (c.loop s j).1.steps ≤ c.steps + j := by
  fun_induction loop s j c with
  | case1 c => exact ⟨rfl, Nat.le_refl _⟩
  | case2 j c b hstep ih =>
    have hframe := step_frame s c
    rw [hstep] at hframe
    exact ⟨ih.1.trans hframe.1, by have := hframe.2; dsimp only at this; omega⟩
  | case3 j c b hstep =>
    have hframe := step_frame s c
    rw [hstep] at hframe
    exact ⟨hframe.1, by have := hframe.2; dsimp only at this ⊢; omega⟩
  | case4 j c b f hstep =>
    have hframe := step_frame s c
    rw [hstep] at hframe
    exact ⟨hframe.1, by have := hframe.2; dsimp only at this ⊢; omega⟩

/-! ### Two limits -/

theorem isSpent_within {j : Nat} : isSpent (s.within n) j = decide (n ≤ j) :=
  rfl

/-- A step that neither limit forbids does not depend on the limit. -/
theorem step_within (hn : isSpent (s.within n) c.steps = false)
    (hk : isSpent (s.within k) c.steps = false) : c.step (s.within n) = c.step (s.within k) := by
  cases hl : c.current? with
  | none => rw [step_of_no_line hn hl, step_of_no_line hk hl]
  | some l =>
    cases hj : (c.machine.run l.code).outcome with
    | error f =>
      rw [step_of_error hn hl hj, step_of_error hk hl hj]
      rfl
    | ok jump =>
      rw [step_of_ok hn hl hj, step_of_ok hk hl hj]
      rfl

/-- As long as the smaller limit allows, both runs are one, and nothing stops for the sake of a
limit. -/
theorem loop_within (hnk : n ≤ k) : ∀ (j : Nat) (c : Control), j ≤ (n - c.steps).toNat →
    c.loop (s.within n) j = c.loop (s.within k) j ∧
      (c.loop (s.within n) j).2.isLimit = false := by
  intro j
  induction j with
  | zero => intro c _; exact ⟨rfl, rfl⟩
  | succ j ih =>
    intro c hj
    have hn : isSpent (s.within n) c.steps = false := by
      rw [isSpent_within, decide_eq_false_iff_not]
      omega
    have hk : isSpent (s.within k) c.steps = false := by
      rw [isSpent_within, decide_eq_false_iff_not]
      omega
    have hsame := step_within hn hk
    cases hstep : c.step (s.within n) with
    | mk b answer =>
      rw [hstep] at hsame
      match answer with
      | .error f =>
        rw [loop_of_error hstep, loop_of_error hsame.symm]
        exact ⟨rfl, isLimit_of_step hn (by rw [hstep])⟩
      | .ok false =>
        rw [loop_of_halt hstep, loop_of_halt hsame.symm]
        exact ⟨rfl, rfl⟩
      | .ok true =>
        -- The step has been counted, so the limit leaves one less.
        have hb := (steps_step (show (c.step (s.within n)).2 = .ok true by rw [hstep])).2
        rw [hstep] at hb
        dsimp only at hb
        rw [loop_of_more hstep, loop_of_more hsame.symm]
        exact ih b (by omega)

/-- How a run under the limit `n` ends that is cut at line `counter`. -/
def cutEnding (n counter : Int) : Ending :=
  .failed (.ofStop { cause := .stepLimit n, priority := some counter })

theorem loop_of_cut (h : c.loop (s.within n) (n - c.steps).toNat = (d, .unfinished)) :
    c.loop (s.within n) (c.fuel (s.within n)) = (d, cutEnding n d.counter) := by
  have hd := steps_of_unfinished h
  have hspent : isSpent (s.within n) d.steps = true := by
    rw [isSpent_within, decide_eq_true_eq]
    omega
  show c.loop (s.within n) ((n - c.steps).toNat + 1) = _
  rw [loop_add h, loop_of_error (step_of_isSpent hspent)]
  rfl

/-- **Under the smaller limit a run ends as under the greater one, or it is cut** where the other
passes, and what is left of it is a part of the other. -/
theorem loop_within_cases (hnk : n ≤ k) (c : Control) :
    (c.loop (s.within n) (c.fuel (s.within n)) = c.loop (s.within k) (c.fuel (s.within k)) ∧
      (c.loop (s.within n) (c.fuel (s.within n))).1.steps ≤ c.steps + (n - c.steps).toNat ∧
      (c.loop (s.within n) (c.fuel (s.within n))).2.isLimit = false) ∨
    ∃ d, c.loop (s.within k) (n - c.steps).toNat = (d, .unfinished) ∧
      c.loop (s.within n) (c.fuel (s.within n)) = (d, cutEnding n d.counter) ∧
      d.loop (s.within k) (d.fuel (s.within k)) = c.loop (s.within k) (c.fuel (s.within k)) := by
  obtain ⟨hsame, hlimit⟩ := loop_within (s := s) hnk (n - c.steps).toNat c (Nat.le_refl _)
  by_cases hend : (c.loop (s.within n) (n - c.steps).toNat).2 = .unfinished
  · right
    obtain ⟨d, hd⟩ : ∃ d, c.loop (s.within n) (n - c.steps).toNat = (d, .unfinished) :=
      ⟨_, Prod.ext rfl hend⟩
    have hsteps := steps_of_unfinished hd
    have hfuel : c.fuel (s.within k) = (n - c.steps).toNat + d.fuel (s.within k) := by
      show (k - c.steps).toNat + 1 = _ + ((k - d.steps).toNat + 1)
      omega
    refine ⟨d, hsame ▸ hd, loop_of_cut hd, ?_⟩
    rw [hfuel, loop_add (hsame ▸ hd)]
  · left
    have hn : c.loop (s.within n) (c.fuel (s.within n))
        = c.loop (s.within n) (n - c.steps).toNat := loop_of_ne_unfinished hend
    have hfuel : c.fuel (s.within k)
        = (n - c.steps).toNat + ((k - c.steps).toNat + 1 - (n - c.steps).toNat) := by
      show (k - c.steps).toNat + 1 = _
      omega
    refine ⟨?_, ?_, ?_⟩
    · rw [hn, hfuel, loop_of_ne_unfinished (hsame ▸ hend), hsame]
    · rw [hn]
      exact (loop_frame _ _ c).2
    · rw [hn]
      exact hlimit

/-! ### What is said on the way -/

/-- The control unit without what was said so far. -/
def silent (c : Control) : Control :=
  { c with journal := [] }

theorem exists_journal (h : c.silent = d.silent) :
    ∃ journal, d = { c with journal := journal } := by
  obtain ⟨program, counter, pointer, steps, machine, journal⟩ := c
  obtain ⟨program', counter', pointer', steps', machine', journal'⟩ := d
  cases h
  exact ⟨journal', rfl⟩

theorem advance_silent (c : Control) (journal : List Notice) (l : Line) (jump : Jump) :
    (c.advance l jump).1.silent = (advance l jump { c with journal := journal }).1.silent ∧
      (c.advance l jump).2 = (advance l jump { c with journal := journal }).2 := by
  cases hseek : firstFrom? (following c.counter jump) 0 c.program with
  | some found =>
    rw [advance_of_some hseek, advance_of_some (c := { c with journal := journal }) hseek]
    exact ⟨rfl, rfl⟩
  | none =>
    cases ht : jump.taken with
    | true =>
      rw [advance_of_jump ht hseek, advance_of_jump (c := { c with journal := journal }) ht hseek]
      exact ⟨rfl, rfl⟩
    | false =>
      rw [advance_of_end ht hseek, advance_of_end (c := { c with journal := journal }) ht hseek]
      exact ⟨rfl, rfl⟩

/-- A step does not depend on what was said before it. -/
theorem step_silent (h : c.silent = d.silent) :
    (c.step s).1.silent = (d.step s).1.silent ∧ (c.step s).2 = (d.step s).2 := by
  obtain ⟨journal, rfl⟩ := exists_journal h
  cases hs : isSpent s c.steps with
  | true =>
    rw [step_of_isSpent hs, step_of_isSpent (c := { c with journal := journal }) hs]
    exact ⟨rfl, rfl⟩
  | false =>
    cases hl : c.current? with
    | none =>
      rw [step_of_no_line hs hl, step_of_no_line (c := { c with journal := journal }) hs hl]
      exact ⟨rfl, rfl⟩
    | some l =>
      cases hj : (c.machine.run l.code).outcome with
      | error f =>
        rw [step_of_error hs hl hj, step_of_error (c := { c with journal := journal }) hs hl hj]
        exact ⟨rfl, rfl⟩
      | ok jump =>
        rw [step_of_ok hs hl hj, step_of_ok (c := { c with journal := journal }) hs hl hj]
        exact advance_silent (c.executed s l) _ l jump

theorem loop_silent (s : Settings) : ∀ (j : Nat) {c d : Control}, c.silent = d.silent →
    (c.loop s j).1.silent = (d.loop s j).1.silent ∧ (c.loop s j).2 = (d.loop s j).2 := by
  intro j
  induction j with
  | zero => intro c d h; exact ⟨h, rfl⟩
  | succ j ih =>
    intro c d h
    obtain ⟨hstate, hanswer⟩ := step_silent (s := s) h
    cases hc : c.step s with
    | mk b answer =>
      cases hd : d.step s with
      | mk b' answer' =>
        rw [hc, hd] at hstate hanswer
        dsimp only at hstate hanswer
        subst hanswer
        match answer with
        | .error f =>
          rw [loop_of_error hc, loop_of_error hd]
          exact ⟨hstate, rfl⟩
        | .ok false =>
          rw [loop_of_halt hc, loop_of_halt hd]
          exact ⟨hstate, rfl⟩
        | .ok true =>
          rw [loop_of_more hc, loop_of_more hd]
          exact ih hstate

/-- Runs from states that differ in what was said end the same, but for what was said. -/
theorem run_silent (h : c.silent = d.silent) :
    (c.run s).1.silent = (d.run s).1.silent ∧ (c.run s).2 = (d.run s).2 := by
  obtain ⟨journal, rfl⟩ := exists_journal h
  by_cases hne : c.program = []
  · rw [run, run, if_pos hne, if_pos hne]
    exact ⟨rfl, rfl⟩
  · obtain ⟨hstate, hending⟩ := loop_silent s (c.fuel s) h
    obtain ⟨said, hc⟩ := run_of_ne_nil (s := s) hne
    obtain ⟨said', hd⟩ := run_of_ne_nil (s := s) (c := { c with journal := journal }) hne
    have hmachine : (c.loop s (c.fuel s)).1.machine
        = (loop s (c.fuel s) { c with journal := journal }).1.machine :=
      congrArg (fun c => c.silent.machine) hstate
    rw [hc, hd]
    refine ⟨hstate, ?_⟩
    show reported s _ _ = reported s _ _
    rw [hmachine, hending]
    rfl

/-! ### Whole runs -/

theorem load_frame (lines : List Line) (c : Control) :
    (load lines c).1.steps = 0 ∧ (load lines c).1.program = Program.sort lines ∧
      ∀ f, (load lines c).2 = .error f → f.isLimit = false := by
  rw [load]
  dsimp only
  split
  · refine ⟨rfl, rfl, fun f hf => ?_⟩
    exact Except.error.inj hf ▸ Failure.isLimit_ofStop rfl
  · rw [seek]
    dsimp only
    split
    · refine ⟨rfl, rfl, fun f hf => ?_⟩
      cases hf
    · exact ⟨rfl, rfl, fun f hf => Except.error.inj hf ▸ Failure.isLimit_ofStop rfl⟩

theorem program_ne_nil_of_load {lines : List Line} (h : load lines d = (c, .ok ())) :
    c.program ≠ [] := by
  have hprogram := (load_frame lines d).2.1
  rw [h] at hprogram
  rw [hprogram]
  intro hnil
  rw [load, if_pos hnil] at h
  cases h

/-- Loops that end the same are told about in the same way. -/
theorem run_within (h : c.loop (s.within n) (c.fuel (s.within n))
    = c.loop (s.within k) (c.fuel (s.within k))) : c.run (s.within n) = c.run (s.within k) := by
  rw [run, run, h]
  rfl

theorem isLimit_cutEnding (n counter : Int) :
    (cutEnding n counter).isLimit = Numeral.isWritable n := by
  rw [cutEnding, Failure.ofStop, StopCause.isWordable]
  by_cases h : Numeral.isWritable n
  · rw [if_pos h, h]
    rfl
  · rw [if_neg h, eq_false_of_ne_true h]
    rfl

theorem isLimit_reported {m : Machine} {e : Ending} (h : e.isLimit = false) :
    (reported s m e).isLimit = false := by
  unfold reported
  split
  · split
    · exact h
    · rename_i f hf
      rw [Machine.eq_of_dump?_eq_error hf]
      rfl
  · exact h

/-- Why a cut is not told: the limit cannot be written, or a value of the state that is told as
well. -/
theorem reported_cutEnding {m : Machine} {counter : Int}
    (h : (reported s m (cutEnding n counter)).isLimit = false) :
    reported s m (cutEnding n counter) = .failed (.numeral .tooLongToWrite) ∧
      (Numeral.isWritable n = false ∨
        s.debug = true ∧ m.dump? = .error (.numeral .tooLongToWrite)) := by
  have hcut : (cutEnding n counter).isLimit = false →
      cutEnding n counter = .failed (.numeral .tooLongToWrite) ∧ Numeral.isWritable n = false := by
    intro hlimit
    rw [isLimit_cutEnding] at hlimit
    refine ⟨?_, hlimit⟩
    rw [cutEnding, Failure.ofStop]
    show Ending.failed (if Numeral.isWritable n then _ else _) = _
    rw [hlimit, if_neg Bool.false_ne_true]
  unfold reported at h ⊢
  split at h
  · rename_i hdebug
    rw [if_pos hdebug]
    split at h
    · exact ⟨(hcut h).1, .inl (hcut h).2⟩
    · rename_i f hf
      rw [Machine.eq_of_dump?_eq_error hf]
      exact ⟨rfl, .inr ⟨hdebug, Machine.eq_of_dump?_eq_error hf ▸ hf⟩⟩
  · rename_i hdebug
    rw [if_neg hdebug]
    exact ⟨(hcut h).1, .inl (hcut h).2⟩

/-- A run under the limit `n` has executed just as many instructions as the limit allows, it has
left the state in which the run under `k` is after so many, and it ends as that run does when it is
resumed with the limit `k`. -/
structure IsCut (s : Settings) (m : Machine) (lines : List Line) (n k : Int) : Prop where
  steps : (runProgram (s.within n) m lines).1.steps = n.toNat
  state : ∃ c d, load lines { machine := m } = (c, .ok ()) ∧
    c.loop (s.within k) n.toNat = (d, .unfinished) ∧
    (runProgram (s.within n) m lines).1.silent = d.silent
  resumed : ((runProgram (s.within n) m lines).1.run (s.within k)).1.silent
      = (runProgram (s.within k) m lines).1.silent ∧
    ((runProgram (s.within n) m lines).1.run (s.within k)).2
      = (runProgram (s.within k) m lines).2

theorem runProgram_of_load {m : Machine} {lines : List Line}
    (h : load lines { machine := m } = (c, .ok ())) : runProgram s m lines = c.run s := by
  rw [runProgram, h]

theorem runProgram_of_load_error {m : Machine} {lines : List Line} {f : Failure}
    (h : load lines { machine := m } = (c, .error f)) : runProgram s m lines = (c, .failed f) := by
  rw [runProgram, h]

variable {m : Machine} {lines : List Line}

/-- A program runs alike under both limits, or its run is cut. -/
theorem runProgram_within_cases (s : Settings) (m : Machine) (lines : List Line) (hnk : n ≤ k) :
    (runProgram (s.within n) m lines = runProgram (s.within k) m lines ∧
      (runProgram (s.within n) m lines).1.steps ≤ n.toNat ∧
      (runProgram (s.within n) m lines).2.isLimit = false) ∨
    IsCut s m lines n k ∧ ∃ counter, (runProgram (s.within n) m lines).2
      = reported s (runProgram (s.within n) m lines).1.machine (cutEnding n counter) := by
  obtain ⟨hsteps, -, hfault⟩ := load_frame lines { machine := m }
  cases hload : load lines { machine := m } with
  | mk c answer =>
    rw [hload] at hsteps hfault
    cases answer with
    | error f =>
      left
      rw [runProgram_of_load_error hload, runProgram_of_load_error hload]
      exact ⟨rfl, Nat.le_trans (Nat.le_of_eq hsteps) (Nat.zero_le _), hfault f rfl⟩
    | ok _ =>
      have hne := program_ne_nil_of_load hload
      have hleft : n - (c.steps : Int) = n := by
        rw [show c.steps = 0 from hsteps]
        exact Int.sub_zero n
      obtain ⟨journal, hrun⟩ := run_of_ne_nil (s := s.within n) hne
      rw [← runProgram_of_load hload] at hrun
      rcases loop_within_cases (s := s) hnk c with ⟨hsame, hle, hlimit⟩ | ⟨d, hd, hcut, hrest⟩
      · left
        rw [hleft, show c.steps = 0 from hsteps, Nat.zero_add] at hle
        refine ⟨?_, ?_, ?_⟩
        · rw [runProgram_of_load hload, runProgram_of_load hload, run_within hsame]
        · rw [hrun]
          exact hle
        · rw [hrun]
          exact isLimit_reported hlimit
      · right
        rw [hleft] at hd
        rw [hcut] at hrun
        have hdne : d.program ≠ [] := by
          have hprogram := (loop_frame (s.within k) n.toNat c).1
          rw [hd] at hprogram
          rw [hprogram]
          exact hne
        have hstate : (runProgram (s.within n) m lines).1.silent = d.silent := by rw [hrun]; rfl
        refine ⟨⟨?_, ⟨c, d, hload, hd, hstate⟩, ?_⟩, d.counter, ?_⟩
        · rw [hrun]
          show d.steps = n.toNat
          rw [steps_of_unfinished hd, show c.steps = 0 from hsteps, Nat.zero_add]
        · -- Nothing but the journal tells the cut state from `d`, from where the long run goes on.
          obtain ⟨hfirst, hsecond⟩ := run_silent (s := s.within k) hstate
          obtain ⟨said, hlong⟩ := run_of_ne_nil (s := s.within k) hne
          obtain ⟨said', hshort⟩ := run_of_ne_nil (s := s.within k) hdne
          rw [hrest] at hshort
          rw [hfirst, hsecond, runProgram_of_load hload, hlong, hshort]
          exact ⟨rfl, rfl⟩
        · rw [hrun]
          rfl

/-- **A limit only cuts a run, and a cut run can be resumed.**

Under a limit every program halts or fails, and executes no more instructions than the limit says.
Let `n ≤ k`.  If the run under `n` is stopped by the limit it has been cut: it has made `n` steps of
the run under `k`, and resumed with the limit `k` it ends as that run does.  If it ends in any other
way the run under `k` is the same run, unless the stop could not be told because `n`, or a value in
a state that is told as well, has too many digits; even then the run has been cut and can be
resumed. -/
theorem runProgram_resume (s : Settings) (m : Machine) (lines : List Line) (hnk : n ≤ k) :
    (runProgram (s.within n) m lines).2 ≠ .unfinished ∧
    (runProgram (s.within n) m lines).1.steps ≤ n.toNat ∧
    ((runProgram (s.within n) m lines).2.isLimit = true → IsCut s m lines n k) ∧
    ((runProgram (s.within n) m lines).2.isLimit = false →
      runProgram (s.within n) m lines = runProgram (s.within k) m lines ∨
      IsCut s m lines n k ∧
        (runProgram (s.within n) m lines).2 = .failed (.numeral .tooLongToWrite) ∧
        (Numeral.isWritable n = false ∨ s.debug = true ∧
          (runProgram (s.within n) m lines).1.machine.dump?
            = .error (.numeral .tooLongToWrite))) := by
  refine ⟨runProgram_ne_unfinished rfl m lines, ?_⟩
  rcases runProgram_within_cases s m lines hnk with ⟨hsame, hle, hlimit⟩ | ⟨hcut, counter, hend⟩
  · refine ⟨hle, fun h => ?_, fun _ => .inl hsame⟩
    rw [hlimit] at h
    cases h
  · refine ⟨Nat.le_of_eq hcut.steps, fun _ => hcut, fun h => .inr ⟨hcut, ?_⟩⟩
    rw [hend] at h ⊢
    exact reported_cutEnding h

/-- A program whose lines stand in ascending order starts with the first of them. -/
theorem runProgram_of_ascending {l : Line} {rest : List Line} (s : Settings) (m : Machine)
    (hasc : (l :: rest).Pairwise fun a b => a.priority < b.priority) (hl : 0 ≤ l.priority) :
    runProgram s m (l :: rest)
      = run s { program := l :: rest, counter := l.priority, machine := m } := by
  have hsort := Program.sort_eq_of_perm (List.Perm.refl _) hasc
  have hfirst : firstFrom? 0 0 (Program.sort (l :: rest)) = some (0, l) := by
    rw [hsort, firstFrom?, if_pos hl]
  rw [runProgram_of_some hfirst, hsort]

/-- A program that jumps back for ever, cut right after a jump. -/
theorem runProgram_resume_jump :
    (runProgram (Settings.within {} 4) {}
        [⟨0, "push 0".toList⟩, ⟨3, "jmp".toList⟩]).2.isLimit = true ∧
      IsCut {} {} [⟨0, "push 0".toList⟩, ⟨3, "jmp".toList⟩] 4 7 := by
  have hlimit : (runProgram (Settings.within {} 4) {}
      [⟨0, "push 0".toList⟩, ⟨3, "jmp".toList⟩]).2.isLimit = true := by
    rw [runProgram_of_ascending _ _ (by decide) (by decide)]
    decide +kernel
  obtain ⟨-, -, hcut, -⟩ := runProgram_resume {} {} [⟨0, "push 0".toList⟩, ⟨3, "jmp".toList⟩]
    (by decide : (4 : Int) ≤ 7)
  exact ⟨hlimit, hcut hlimit⟩

/-- Ten is squared thirteen times and then deleted, and the state is to be told at the end.  Cut
before the deletion, the run is not seen to have been stopped by the limit, since the state cannot
be told; and yet it is not the run under the next limit, which halts. -/
theorem runProgram_limit_untold :
    let codes := "push 10".toList ::
      ((List.replicate 13 ["dup".toList, "mult".toList]).flatten ++ ["del".toList])
    let lines : List Line := codes.mapIdx fun i code => ⟨i, code⟩
    (runProgram (Settings.within { debug := true } 27) {} lines).2
        = .failed (.numeral .tooLongToWrite) ∧
      (runProgram (Settings.within { debug := true } 28) {} lines).2 = .halted := by
  intro codes lines
  have hlines : lines = ⟨0, "push 10".toList⟩ :: _ := List.mapIdx_cons
  have hasc : lines.Pairwise fun a b => a.priority < b.priority := by decide
  rw [hlines] at hasc ⊢
  rw [runProgram_of_ascending _ _ hasc (by decide), runProgram_of_ascending _ _ hasc (by decide)]
  constructor <;> decide +kernel

end Control

end MxLang
