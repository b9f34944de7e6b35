import Mathlib.Logic.Function.Basic
import MxLang.Tape

/-!
# The tape as an endless one

A tape holds only the cells up to the greatest index that has been addressed, but nobody can tell:
whatever is done with it, it answers like an `Endless` one, on which every cell is there from the
beginning and holds zero (`after_like_endless`).  All that shows of the cells is their number, and
that is settled by the indices that have been addressed.

`Represents` is kept by every operation.  New cells hold zero, as the endless tape does where
nothing has been written, so growing up to an index changes only the number of cells
(`Represents.growTo`); every other operation grows first and then changes one place on both sides.
-/

namespace MxLang

/-- What can be done with a tape. -/
inductive Tape.Op
  | left
  | right
  | get
  | set (value : Int)
  | growTo (i : Int)
  | setHead (i : Nat)
deriving DecidableEq, Repr

/-! ### Operations on both tapes -/

namespace Tape

/-- The tape after an operation, and the value that it gives, if it is `get`. -/
def act (t : Tape) : Op → Tape × Option Int
  | .left => (t.moveLeft, none)
  | .right => (t.moveRight, none)
  | .get => (t.touch, some t.get)
  | .set value => (t.set value, none)
  | .growTo i => (t.growTo i, none)
  | .setHead i => (t.setHead i, none)

/-- The tape after some operations. -/
def after (t : Tape) (ops : List Op) : Tape :=
  ops.foldl (fun t op => (t.act op).1) t

end Tape

/-- A tape that has a cell at every index. -/
structure Endless where
  head : Nat := 0
  cell : Nat → Int := fun _ => 0

namespace Endless

open Tape (Op)

/-- The endless tape after an operation, and the value that it gives, if it is `get`. -/
def act (e : Endless) : Op → Endless × Option Int
  | .left => ({ e with head := e.head - 1 }, none)
  | .right => ({ e with head := e.head + 1 }, none)
  | .get => (e, some (e.cell e.head))
  | .set value => ({ e with cell := Function.update e.cell e.head value }, none)
  | .growTo _ => (e, none)
  | .setHead i => ({ e with head := i }, none)

/-- The endless tape after some operations. -/
def after (e : Endless) (ops : List Op) : Endless :=
  ops.foldl (fun e op => (e.act op).1) e

/-- The index that an operation addresses.  A head that cannot move to the left addresses none, and
there is no negative index. -/
def addressed? (e : Endless) : Op → Option Nat
  | .left => if e.head = 0 then none else some (e.head - 1)
  | .right => some (e.head + 1)
  | .get => some e.head
  | .set _ => some e.head
  | .growTo i => i.toNat?
  | .setHead i => some i

/-- The indices that some operations address, one after another. -/
def addressed (e : Endless) : List Op → List Nat
  | [] => []
  | op :: ops => (e.addressed? op).toList ++ (e.act op).1.addressed ops

end Endless

/-! ### Growing -/

namespace Tape

theorem getD_growTo (t : Tape) (i : Int) (j : Nat) :
    (t.growTo i).cells.getD j 0 = t.cells.getD j 0 := by
  simp only [growTo, List.getD_eq_getElem?_getD]
  by_cases hj : j < t.cells.length
  · rw [List.getElem?_append_left hj]
  · rw [List.getElem?_append_right (Nat.not_lt.1 hj), List.getElem?_replicate,
      List.getElem?_eq_none (Nat.not_lt.1 hj)]
    split <;> rfl

theorem length_growTo (t : Tape) (i : Nat) :
    (t.growTo i).cells.length = max t.cells.length (i + 1) := by
  simp only [growTo, List.length_append, List.length_replicate]
  omega

theorem growTo_of_neg (t : Tape) {i : Int} (h : i < 0) : t.growTo i = t := by
  have hnone : (i + 1 - t.cells.length).toNat = 0 := by omega
  rw [growTo, hnone, List.replicate_zero, List.append_nil]

theorem moveLeft_of_zero {t : Tape} (h : t.head = 0) : t.moveLeft = t := by
  rw [moveLeft, if_pos h]

theorem moveLeft_of_pos {t : Tape} (h : t.head ≠ 0) : t.moveLeft = t.setHead (t.head - 1) := by
  rw [moveLeft, if_neg h]

theorem get_eq (t : Tape) : t.get = t.cells.getD t.head 0 :=
  t.getD_growTo t.head t.head

theorem length_act (t : Tape) (op : Op) : t.cells.length ≤ (t.act op).1.cells.length := by
  have hgrow : ∀ i : Int, t.cells.length ≤ (t.growTo i).cells.length := by
    intro i
    simp only [growTo, List.length_append]
    omega
  cases op with
  | left =>
    by_cases h : t.head = 0
    · show _ ≤ t.moveLeft.cells.length
      simp only [moveLeft_of_zero h, Nat.le_refl]
    · show _ ≤ t.moveLeft.cells.length
      simp only [moveLeft_of_pos h]
      exact hgrow _
  | right => exact hgrow _
  | get => exact hgrow _
  | set value =>
    show _ ≤ (t.touch.cells.set t.head value).length
    rw [List.length_set]
    exact hgrow _
  | growTo i => exact hgrow _
  | setHead i => exact hgrow _

/-- Cells never go away. -/
theorem length_after (t : Tape) (ops : List Op) :
    t.cells.length ≤ (t.after ops).cells.length := by
  induction ops generalizing t with
  | nil => exact Nat.le_refl _
  | cons op ops ih => exact Nat.le_trans (t.length_act op) (ih _)

/-! ### What both tapes have in common -/

/-- The tape stands for the endless one and holds the cells up to the greatest index of `seen`. -/
structure Represents (t : Tape) (e : Endless) (seen : List Nat) : Prop where
  head : t.head = e.head
  cells : ∀ i, t.cells.getD i 0 = e.cell i
  reached : ∀ i ∈ seen, i < t.cells.length
  extent : t.cells = [] ∨ ∃ i ∈ seen, t.cells.length = i + 1

namespace Represents

variable {t : Tape} {e : Endless} {seen : List Nat}

theorem growTo (h : Represents t e seen) (i : Nat) :
    Represents (t.growTo i) e (seen ++ [i]) where
  head := h.head
  cells := by
    intro j
    rw [Tape.getD_growTo, h.cells]
  reached := by
    intro j hj
    rw [Tape.length_growTo]
    rcases List.mem_append.1 hj with hj | hj
    · have := h.reached j hj
      omega
    · obtain rfl := List.mem_singleton.1 hj
      omega
  extent := by
    -- The greatest index is the new one, or that of the last cell there was.
    refine .inr ?_
    rcases h.extent with hnil | ⟨j, hj, hlen⟩
    · refine ⟨i, by simp, ?_⟩
      rw [Tape.length_growTo, hnil, List.length_nil]
      omega
    · by_cases hij : i ≤ j
      · refine ⟨j, List.mem_append_left _ hj, ?_⟩
        rw [Tape.length_growTo]
        omega
      · refine ⟨i, by simp, ?_⟩
        rw [Tape.length_growTo]
        omega

theorem setHead (h : Represents t e seen) (i : Nat) :
    Represents (t.setHead i) { e with head := i } (seen ++ [i]) where
  head := rfl
  cells := (h.growTo i).cells
  reached := (h.growTo i).reached
  extent := (h.growTo i).extent

theorem touch (h : Represents t e seen) : Represents t.touch e (seen ++ [e.head]) := by
  have hgrow := h.growTo t.head
  rw [h.head] at hgrow
  rw [Tape.touch, h.head]
  exact hgrow

theorem set (h : Represents t e seen) (value : Int) :
    Represents (t.set value) { e with cell := Function.update e.cell e.head value }
      (seen ++ [e.head]) := by
  have hlen : (t.set value).cells.length = t.touch.cells.length := List.length_set
  have hhead : e.head < t.touch.cells.length := h.touch.reached e.head (by simp)
  refine ⟨h.head, ?_, ?_, ?_⟩
  · intro i
    show (t.touch.cells.set t.head value).getD i 0 = Function.update e.cell e.head value i
    rw [h.head, List.getD_eq_getElem?_getD, List.getElem?_set]
    by_cases hi : e.head = i
    · subst hi
      rw [if_pos rfl, if_pos hhead, Function.update_self]
      rfl
    · rw [if_neg hi, Function.update_of_ne (Ne.symm hi), ← h.touch.cells i,
        List.getD_eq_getElem?_getD]
  · rw [hlen]
    exact h.touch.reached
  · refine .inr ?_
    rcases h.touch.extent with hnil | hsome
    · rw [hnil, List.length_nil] at hhead
      exact absurd hhead (Nat.not_lt_zero _)
    · rw [hlen]
      exact hsome

theorem get (h : Represents t e seen) : t.get = e.cell e.head := by
  rw [Tape.get_eq, h.cells, h.head]

/-- **Every operation does the same to both tapes** and addresses the index it is said to. -/
theorem act (h : Represents t e seen) (op : Op) :
    Represents (t.act op).1 (e.act op).1 (seen ++ (e.addressed? op).toList) := by
  cases op with
  | left =>
    by_cases hzero : e.head = 0
    · have hmove : (t.act .left).1 = t := Tape.moveLeft_of_zero (h.head.trans hzero)
      have hstay : (e.act .left).1 = e := by
        obtain ⟨head, cell⟩ := e
        cases hzero
        rfl
      have hnone : e.addressed? .left = none := if_pos hzero
      rw [hmove, hstay, hnone, Option.toList_none, List.append_nil]
      exact h
    · have hmove : (t.act .left).1 = t.setHead (e.head - 1) := by
        rw [← h.head]
        exact Tape.moveLeft_of_pos fun ht => hzero (h.head.symm.trans ht)
      have hsome : e.addressed? .left = some (e.head - 1) := if_neg hzero
      rw [hmove, hsome]
      exact h.setHead _
  | right =>
    have hmove : (t.act .right).1 = t.setHead (e.head + 1) := by
      rw [← h.head]
      rfl
    rw [hmove]
    exact h.setHead _
  | get => exact h.touch
  | set value => exact h.set value
  | growTo i =>
    cases i with
    | ofNat i => exact h.growTo i
    | negSucc i =>
      have hgrow : (t.act (.growTo (.negSucc i))).1 = t :=
        t.growTo_of_neg (Int.negSucc_lt_zero i)
      have hnone : e.addressed? (.growTo (.negSucc i)) = none := rfl
      rw [hgrow, hnone, Option.toList_none, List.append_nil]
      exact h
  | setHead i => exact h.setHead i

/-- **Both tapes answer alike.** -/
theorem answer (h : Represents t e seen) (op : Op) : (t.act op).2 = (e.act op).2 := by
  cases op with
  | get => exact congrArg some h.get
  | left | right | set | growTo | setHead => rfl

/-- Any number of operations does the same to both tapes. -/
theorem after (h : Represents t e seen) (ops : List Op) :
    Represents (t.after ops) (e.after ops) (seen ++ e.addressed ops) := by
  induction ops generalizing t e seen with
  | nil =>
    rw [Endless.addressed, List.append_nil]
    exact h
  | cons op ops ih =>
    rw [Endless.addressed, ← List.append_assoc]
    exact ih (h.act op)

theorem length_eq (h : Represents t e seen) : t.cells.length = seen.max?.elim 0 (· + 1) := by
  cases hmax : seen.max? with
  | none =>
    rw [List.max?_eq_none_iff] at hmax
    rcases h.extent with hnil | ⟨i, hi, -⟩
    · rw [hnil]
      rfl
    · rw [hmax] at hi
      cases hi
  | some i =>
    obtain ⟨hi, hle⟩ := List.max?_eq_some_iff.1 hmax
    have hlt := h.reached i hi
    rcases h.extent with hnil | ⟨j, hj, hlen⟩
    · rw [hnil] at hlt
      exact absurd hlt (Nat.not_lt_zero _)
    · have := hle j hj
      show _ = i + 1
      omega

end Represents

theorem represents_fresh : Represents {} {} [] where
  head := rfl
  cells := fun _ => rfl
  reached := by
    intro i hi
    cases hi
  extent := .inl rfl

/-- **A tape cannot be told from an endless one.**  After any operations on a fresh tape its head is
that of the endless tape, its cells hold what the endless tape holds, which is zero where there is
no cell, and every further operation gives the same answer.  Cells never go away, and there are
exactly those up to the greatest index that has been addressed, or none if none has. -/
theorem after_like_endless (ops : List Op) :
    (after {} ops).head = (Endless.after {} ops).head ∧
    (∀ i, (after {} ops).cells.getD i 0 = (Endless.after {} ops).cell i) ∧
    (∀ op, ((after {} ops).act op).2 = ((Endless.after {} ops).act op).2) ∧
    (∀ more, (after {} ops).cells.length ≤ (after {} (ops ++ more)).cells.length) ∧
    (after {} ops).cells.length = (Endless.addressed {} ops).max?.elim 0 (· + 1) := by
  have h : Represents (after {} ops) (Endless.after {} ops) (Endless.addressed {} ops) :=
    represents_fresh.after ops
  refine ⟨h.head, h.cells, h.answer, ?_, h.length_eq⟩
  intro more
  have happend : after {} (ops ++ more) = after (after {} ops) more := List.foldl_append
  rw [happend]
  exact length_after _ more

end Tape

end MxLang
