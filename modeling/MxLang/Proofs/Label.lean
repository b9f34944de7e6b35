import Mathlib.Data.List.Induction
import MxLang.Source

/-!
# What labels stand for

The labels of a source are collected in one pass from the first line to the last, a later
declaration taking the place of an earlier one.  `position?` says without any table what comes out
of it: a label stands for the number of instructions before its *last* declaration.
`lookup_labels` says that the table and `position?` agree for every name.

Both are followed from the end of the source: `labelling_concat` and `position?_concat` say what
one more line does to them.
-/

namespace MxLang

open Text

theorem Labels.lookup_cons_of_ne {n m : Text} (h : n ≠ m) (w : Int) (rest : Labels) :
    List.lookup n ((m, w) :: rest) = List.lookup n rest := by
  rw [List.lookup_cons, beq_false_of_ne h]

theorem Labels.lookup_bind (name n : Text) (v : Int) : ∀ labels : Labels,
    (Labels.bind name v labels).lookup n = if n = name then some v else labels.lookup n := by
  intro labels
  induction labels with
  | nil =>
    rw [Labels.bind]
    by_cases h : n = name
    · subst h; rw [if_pos rfl, List.lookup_cons_self]
    · rw [if_neg h, Labels.lookup_cons_of_ne h]
  | cons p rest ih =>
    obtain ⟨m, w⟩ := p
    rw [Labels.bind]
    by_cases hm : m = name
    · subst hm
      rw [if_pos rfl]
      by_cases h : n = m
      · subst h; rw [if_pos rfl, List.lookup_cons_self]
      · rw [if_neg h, Labels.lookup_cons_of_ne h, Labels.lookup_cons_of_ne h]
    · rw [if_neg hm]
      by_cases h : n = m
      · subst h; rw [if_neg hm, List.lookup_cons_self, List.lookup_cons_self]
      · rw [Labels.lookup_cons_of_ne h, Labels.lookup_cons_of_ne h, ih]

namespace Source

/-- Whether a line is an instruction, which is a line that declares no label. -/
def isInstruction (l : SourceLine) : Bool :=
  (label? l).isNone

/-- The number of instructions before the last declaration of the name, if there is one. -/
def position? (lines : List SourceLine) (name : Text) : Option Nat :=
  match lines.reverse.dropWhile fun l => label? l != some name with
  | [] => none
  | _ :: above => some (above.countP isInstruction)

theorem position?_concat (lines : List SourceLine) (l : SourceLine) (name : Text) :
    position? (lines ++ [l]) name
      = if label? l = some name then some (lines.countP isInstruction)
        else position? lines name := by
  rw [position?, List.reverse_append, List.reverse_singleton, List.singleton_append]
  by_cases h : label? l = some name
  · rw [if_pos h, List.dropWhile_cons_of_neg (by simp [h])]
    simp only [List.countP_reverse]
  · rw [if_neg h, List.dropWhile_cons_of_pos (by simp [h])]
    rfl

theorem position?_eq_none_iff {lines : List SourceLine} {name : Text} :
    position? lines name = none ↔ ∀ l ∈ lines, label? l ≠ some name := by
  induction lines using List.reverseRecOn with
  | nil => simp [position?]
  | append_singleton lines l ih =>
    rw [position?_concat, List.forall_mem_append, List.forall_mem_singleton]
    by_cases h : label? l = some name
    · simp [h]
    · rw [if_neg h, ih]
      exact ⟨fun hall => ⟨hall, h⟩, fun hall => hall.1⟩

theorem position?_le {lines : List SourceLine} {name : Text} {k : Nat}
    (h : position? lines name = some k) : k ≤ lines.countP isInstruction := by
  induction lines using List.reverseRecOn with
  | nil => cases h
  | append_singleton lines l ih =>
    rw [List.countP_append]
    rw [position?_concat] at h
    split at h
    · cases h
      exact Nat.le_add_right _ _
    · exact Nat.le_trans (ih h) (Nat.le_add_right _ _)

/-! ### One pass over the lines -/

theorem labelling_concat (lines : List SourceLine) (l : SourceLine) :
    labelling (lines ++ [l]) = (labelling lines).next l := by
  rw [labelling, List.foldl_append]
  rfl

theorem count_labelling (lines : List SourceLine) :
    (labelling lines).count = lines.countP isInstruction := by
  induction lines using List.reverseRecOn with
  | nil => rfl
  | append_singleton lines l ih =>
    rw [labelling_concat, List.countP_append, ← ih, Labelling.next]
    cases h : label? l with
    | none => simp [isInstruction, h]
    | some name => simp [isInstruction, h]

/-- **A label stands for the number of instructions before its last declaration.** -/
theorem lookup_labels (lines : List SourceLine) (name : Text) :
    (labels lines).lookup name = (position? lines name).map fun k : Nat => (k : Int) := by
  induction lines using List.reverseRecOn with
  | nil => rfl
  | append_singleton lines l ih =>
    rw [position?_concat, labels, labelling_concat, Labelling.next]
    cases h : label? l with
    | none =>
      rw [if_neg (by simp)]
      exact ih
    | some other =>
      simp only [Labels.lookup_bind, count_labelling]
      by_cases hn : name = other
      · subst hn
        rw [if_pos rfl, if_pos rfl]
        rfl
      · rw [if_neg hn, if_neg (by simpa using Ne.symm hn)]
        exact ih

end Source

end MxLang
