import MxLang.Proofs.LogicalLines
import MxLang.Proofs.ZoneFault

/-!
# The lines before a fault

What is wrong with a zone is told with the number of a line.  The lines before that one are a zone
that can be read (`records_front_of_fault`): the fault lies at the line it is told of, and none
comes before it.  This holds for all three kinds of fault, although an open parenthesis is found
only at the end of the text, and although the number is that of the first of several joined lines.

The joining of lines knows where it starts anew.  `Joining.IsTraced` says of every logical line, and
of the lines still open, that at the line before its number nothing was open and what had been
joined were the logical lines before it; it holds after every line (`isTraced_joined`).
-/

namespace MxLang.Zone

open Text

/-- The first `n` lines of a text, each ended by a line feed. -/
def front (n : Nat) (t : Text) : Text :=
  ((splitLines t).take n).flatMap (· ++ ['\n'])

theorem splitLines_front (n : Nat) (t : Text) :
    splitLines (front n t) = (splitLines t).take n := by
  refine splitLines_flatMap fun line hline c hc => ?_
  exact (of_mem_splitLines (List.mem_of_mem_take hline) c hc).2

/-! ### Where joining starts anew -/

/-- The lines joined one after another. -/
def joined (lines : List Text) : Joining :=
  lines.foldl Joining.next {}

theorem joined_concat (lines : List Text) (line : Text) :
    joined (lines ++ [line]) = (joined lines).next line := by
  rw [joined, List.foldl_append]
  rfl

theorem count_joined (lines : List Text) : (joined lines).count = lines.length :=
  (isNumbered_foldl lines).2

/-- Line `n` comes after lines that have been joined to `done`, with none of them open. -/
structure StartsAt (lines : List Text) (n : Nat) (done : List Logical) : Prop where
  le : n - 1 ≤ lines.length
  pending : (joined (lines.take (n - 1))).pending = []
  done : (joined (lines.take (n - 1))).done = done

theorem StartsAt.concat {lines : List Text} {n : Nat} {done : List Logical}
    (h : StartsAt lines n done) (line : Text) : StartsAt (lines ++ [line]) n done := by
  have htake : (lines ++ [line]).take (n - 1) = lines.take (n - 1) :=
    List.take_append_of_le_length h.le
  refine ⟨?_, htake ▸ h.pending, htake ▸ h.done⟩
  have hle := h.le
  rw [List.length_append]
  omega

/-- Every logical line starts anew after those before it, and so do the lines that are open. -/
structure Joining.IsTraced (lines : List Text) (j : Joining) : Prop where
  pending : j.pending ≠ [] → StartsAt lines j.start j.done
  done : ∀ later l earlier, j.done = later ++ l :: earlier → StartsAt lines l.number earlier

/-- One more line keeps the trace. -/
theorem Joining.IsTraced.next {lines : List Text} (h : (joined lines).IsTraced lines)
    (line : Text) : ((joined lines).next line).IsTraced (lines ++ [line]) := by
  -- The line that is open now has been open before, or joining starts anew with it.
  have hstart : StartsAt (lines ++ [line])
      (if (joined lines).pending = [] then (joined lines).count + 1 else (joined lines).start)
      (joined lines).done := by
    by_cases hp : (joined lines).pending = []
    · have htake : (lines ++ [line]).take (lines.length + 1 - 1) = lines := by
        rw [Nat.add_sub_cancel, List.take_left]
      rw [if_pos hp, count_joined]
      refine ⟨?_, ?_, ?_⟩
      · rw [List.length_append]
        omega
      · rw [htake, hp]
      · rw [htake]
    · rw [if_neg hp]
      exact (h.pending hp).concat line
  have hdone : ∀ later l earlier, (joined lines).done = later ++ l :: earlier →
      StartsAt (lines ++ [line]) l.number earlier := by
    intro later l earlier hsplit
    exact (h.done later l earlier hsplit).concat line
  unfold Joining.next
  dsimp only
  split
  · exact ⟨fun _ => hstart, hdone⟩
  · refine ⟨fun hp => absurd rfl hp, fun later l earlier hsplit => ?_⟩
    cases later with
    | nil =>
      obtain ⟨rfl, rfl⟩ := List.cons.inj hsplit
      exact hstart
    | cons first later => exact hdone later l earlier (List.cons.inj hsplit).2

theorem isTraced_joined (lines : List Text) : (joined lines).IsTraced lines := by
  induction lines using List.reverseRecOn with
  | nil =>
    refine ⟨fun hp => absurd rfl hp, fun later l earlier hsplit => ?_⟩
    exact absurd hsplit.symm (List.append_ne_nil_of_right_ne_nil _ (List.cons_ne_nil _ _))
  | append_singleton lines line ih =>
    rw [joined_concat]
    exact ih.next line

/-! ### The lines before a logical line -/

variable {t : Text}

/-- The front of a text, up to where joining starts anew, is closed. -/
theorem StartsAt.front {n : Nat} {done : List Logical} (h : StartsAt (splitLines t) n done) :
    logicalLines (front (n - 1) t) = done.reverse ∧ unclosed? (front (n - 1) t) = none := by
  have hjoining : joining (Zone.front (n - 1) t) = joined ((splitLines t).take (n - 1)) := by
    rw [joining, splitLines_front]
    rfl
  rw [unclosed?_eq_none_iff, logicalLines, hjoining]
  exact ⟨congrArg List.reverse h.done, h.pending⟩

/-- **Before a logical line there are the logical lines before it.** -/
theorem logicalLines_front {earlier later : List Logical} {l : Logical}
    (h : logicalLines t = earlier ++ l :: later) :
    logicalLines (front (l.number - 1) t) = earlier ∧
      unclosed? (front (l.number - 1) t) = none := by
  have hdone : (joined (splitLines t)).done = later.reverse ++ l :: earlier.reverse := by
    have hreverse := congrArg List.reverse h
    rw [logicalLines, List.reverse_reverse] at hreverse
    rw [show (joined (splitLines t)).done = _ from hreverse]
    simp
  have hfront := ((isTraced_joined (splitLines t)).done _ _ _ hdone).front
  rwa [List.reverse_reverse] at hfront

/-- **Before the lines that are open there are all logical lines.** -/
theorem logicalLines_front_of_unclosed? {n : Nat} (h : unclosed? t = some n) :
    logicalLines (front (n - 1) t) = logicalLines t ∧ unclosed? (front (n - 1) t) = none := by
  unfold unclosed? at h
  dsimp only at h
  split at h
  · cases h
  · rename_i hp
    obtain rfl := Option.some.inj h
    exact ((isTraced_joined (splitLines t)).pending hp).front

/-! ### Reading -/

variable {domain : Option Text} {file : Text}

/-- How a zone fails: at a logical line, or because it is still open at the end. -/
theorem records_eq_error {f : Failure} (h : records domain file t = .error f) :
    (∃ earlier l later r, logicalLines t = earlier ++ l :: later ∧
        earlier.foldlM (Reading.next domain file) {} = .ok r ∧
        r.next domain file l = .error f) ∨
      ∃ r n, (logicalLines t).foldlM (Reading.next domain file) {} = .ok r ∧
        unclosed? t = some n ∧ f = .fault (.zone .unbalanced n [] []) := by
  unfold records at h
  split at h
  · rename_i g hfold
    obtain rfl := Except.error.inj h
    exact .inl (exists_append_of_foldlM_eq_error hfold)
  · rename_i r hfold
    split at h
    · rename_i n hopen
      exact .inr ⟨r, n, hfold, hopen, (Except.error.inj h).symm⟩
    · cases h

theorem records_eq_ok_of_foldlM {r : Reading}
    (hfold : (logicalLines t).foldlM (Reading.next domain file) {} = .ok r)
    (hopen : unclosed? t = none) : records domain file t = .ok r.records.reverse := by
  rw [records, hfold]
  simp only [hopen]

theorem records_of_foldlM_eq_error {f : Failure}
    (hfold : (logicalLines t).foldlM (Reading.next domain file) {} = .error f) :
    records domain file t = .error f := by
  rw [records, hfold]

theorem foldlM_cons_of_error {ε α β : Type} {f : β → α → Except ε β} {a : α} {b : β} {e : ε}
    (h : f b a = .error e) (l : List α) : (a :: l).foldlM f b = .error e := by
  rw [List.foldlM_cons, h]
  rfl

/-- A zone fails at a logical line only after the lines before it have been read. -/
theorem exists_records_front {earlier later : List Logical} {l : Logical} {r : Reading}
    (hsplit : logicalLines t = earlier ++ l :: later)
    (hfold : earlier.foldlM (Reading.next domain file) {} = .ok r) :
    ∃ rs, records domain file (front (l.number - 1) t) = .ok rs := by
  obtain ⟨hlines, hclosed⟩ := logicalLines_front hsplit
  exact ⟨_, records_eq_ok_of_foldlM (hlines ▸ hfold) hclosed⟩

/-- **A fault is told at the first bad place.**  If a zone has a fault, for some domain, then the
number that is told with it is that of a line of the text, and the lines before it alone, each ended
by a line feed, can be read for that domain.  If the text ends inside a parenthesis, and the lines
before the one where that starts cannot be read, then what is wrong with them is told, and not the
parenthesis. -/
theorem records_front_of_fault (domain : Option Text) (file t : Text) :
    (∀ flaw n text name, records domain file t = .error (.fault (.zone flaw n text name)) →
      1 ≤ n ∧ n ≤ (splitLines t).length ∧
        ∃ rs, records domain file (front (n - 1) t) = .ok rs) ∧
    ∀ n f, unclosed? t = some n → records domain file (front (n - 1) t) = .error f →
      records domain file t = .error f := by
  constructor
  · intro flaw n text name h
    rcases records_eq_error h with
      ⟨earlier, l, later, r, hsplit, hfold, hnext⟩ | ⟨r, k, hfold, hopen, hf⟩
    · have hmem : l ∈ logicalLines t := by
        rw [hsplit]
        exact List.mem_append_right _ List.mem_cons_self
      obtain ⟨hone, hle⟩ := number_of_mem_logicalLines hmem
      rcases Reading.next_eq_error hnext with ⟨flaw', hf⟩ | ⟨-, e, hf⟩
      · cases hf
        exact ⟨hone, hle, exists_records_front hsplit hfold⟩
      · cases hf
    · cases hf
      obtain ⟨hone, hle⟩ := number_of_unclosed? hopen
      obtain ⟨hlines, hclosed⟩ := logicalLines_front_of_unclosed? hopen
      exact ⟨hone, hle, _, records_eq_ok_of_foldlM (hlines.symm ▸ hfold) hclosed⟩
  · intro n f hopen h
    obtain ⟨hlines, hclosed⟩ := logicalLines_front_of_unclosed? hopen
    rcases records_eq_error h with
      ⟨earlier, l, later, r, hsplit, hfold, hnext⟩ | ⟨r, k, -, hopen', -⟩
    · apply records_of_foldlM_eq_error
      rw [← hlines, hsplit, List.foldlM_append, hfold]
      exact foldlM_cons_of_error hnext later
    · rw [hclosed] at hopen'
      cases hopen'

/-- A line that cannot be read, between a record and a parenthesis that is never closed; lines end
in three ways. -/
theorem records_front_of_fault_unbalanced :
    unclosed? "a. MX 1 b.\u2028c \"\r\nd. MX ( 1\n e.".toList = some 3 ∧
      records none "z".toList "a. MX 1 b.\u2028c \"\r\nd. MX ( 1\n e.".toList
        = .error (.fault (.zone (.unreadable "c \"".toList) 2 "c \"".toList "z".toList)) ∧
      ∃ rs, records none "z".toList "a. MX 1 b.\n".toList = .ok rs := by
  obtain ⟨hfirst, hearlier⟩ :=
    records_front_of_fault none "z".toList "a. MX 1 b.\u2028c \"\r\nd. MX ( 1\n e.".toList
  have hopen : unclosed? "a. MX 1 b.\u2028c \"\r\nd. MX ( 1\n e.".toList = some 3 := by
    decide +kernel
  have hone : front 1 "a. MX 1 b.\u2028c \"\r\nd. MX ( 1\n e.".toList = "a. MX 1 b.\n".toList := by
    decide +kernel
  have htwo : front 2 "a. MX 1 b.\u2028c \"\r\nd. MX ( 1\n e.".toList
      = "a. MX 1 b.\nc \"\n".toList := by
    decide +kernel
  have hbad : records none "z".toList "a. MX 1 b.\nc \"\n".toList
      = .error (.fault (.zone (.unreadable "c \"".toList) 2 "c \"".toList "z".toList)) := by
    decide +kernel
  have hfault := hearlier 3 _ hopen (htwo ▸ hbad)
  obtain ⟨-, -, hread⟩ := hfirst _ _ _ _ hfault
  exact ⟨hopen, hfault, hone ▸ hread⟩

end MxLang.Zone
