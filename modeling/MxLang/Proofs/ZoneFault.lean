import Mathlib.Data.List.Induction
import MxLang.Proofs.Numeral
import MxLang.Zone.Reader

/-!
# What is wrong with a zone

A zone is read, or something is wrong with it.  What is wrong is told with the number of a line of
the text: for a line that cannot be read and for bad data of an MX record, with the name of the file
as well, and for a parenthesis that is still open at the end, without it.

One thing is not told that way.  The preference of an MX record is taken for a number if it consists
of digits, but not every such text can be read as one: a digit need not be decimal, and there can be
too many of them.  Then reading ends in the failure of the numeral (`records_superscript`).
`records_ok_or_told` says that there is nothing else.

The lines are counted once, while they are joined (`Joining.IsNumbered`); reading takes the numbers
from there.
-/

namespace MxLang.Zone

open Text

/-! ### Line numbers -/

/-- The numbers of the logical lines so far are numbers of lines that have been met, and so is that
of the first open line. -/
structure Joining.IsNumbered (j : Joining) : Prop where
  done : ∀ l ∈ j.done, 1 ≤ l.number ∧ l.number ≤ j.count
  start : j.pending ≠ [] → 1 ≤ j.start ∧ j.start ≤ j.count

theorem Joining.count_next (j : Joining) (line : Text) : (j.next line).count = j.count + 1 := by
  unfold Joining.next
  dsimp only
  split <;> rfl

/-- One more line keeps the numbers in order. -/
theorem Joining.IsNumbered.next {j : Joining} (h : j.IsNumbered) (line : Text) :
    (j.next line).IsNumbered := by
  -- The line that is open now has been open before, or it is the one just met.
  have hstart : 1 ≤ (if j.pending = [] then j.count + 1 else j.start) ∧
      (if j.pending = [] then j.count + 1 else j.start) ≤ j.count + 1 := by
    by_cases hp : j.pending = []
    · rw [if_pos hp]
      omega
    · have := h.start hp
      rw [if_neg hp]
      omega
  have hdone : ∀ l ∈ j.done, 1 ≤ l.number ∧ l.number ≤ j.count + 1 := by
    intro l hl
    have := h.done l hl
    omega
  unfold Joining.next
  dsimp only
  split
  · exact ⟨hdone, fun _ => hstart⟩
  · refine ⟨fun l hl => ?_, fun hp => absurd rfl hp⟩
    rcases List.mem_cons.1 hl with rfl | hl
    · exact hstart
    · exact hdone l hl

theorem isNumbered_foldl (lines : List Text) :
    (lines.foldl Joining.next {}).IsNumbered ∧
      (lines.foldl Joining.next {}).count = lines.length := by
  induction lines using List.reverseRecOn with
  | nil =>
    refine ⟨⟨fun l hl => ?_, fun hp => absurd rfl hp⟩, rfl⟩
    cases hl
  | append_singleton lines line ih =>
    rw [List.foldl_append, List.foldl_cons, List.foldl_nil, Joining.count_next, ih.2,
      List.length_append]
    exact ⟨ih.1.next line, rfl⟩

/-- **A logical line has the number of a line of the text.** -/
theorem number_of_mem_logicalLines {t : Text} {l : Logical} (h : l ∈ logicalLines t) :
    1 ≤ l.number ∧ l.number ≤ (splitLines t).length := by
  obtain ⟨hnumbered, hcount⟩ := isNumbered_foldl (splitLines t)
  rw [← hcount]
  exact hnumbered.done l (List.mem_reverse.1 h)

theorem number_of_unclosed? {t : Text} {n : Nat} (h : unclosed? t = some n) :
    1 ≤ n ∧ n ≤ (splitLines t).length := by
  obtain ⟨hnumbered, hcount⟩ := isNumbered_foldl (splitLines t)
  rw [← hcount]
  unfold unclosed? at h
  dsimp only at h
  split at h
  · cases h
  · rename_i hp
    cases h
    exact hnumbered.start hp

/-! ### Reading -/

/-- An MX record whose preference consists of digits and yet cannot be read: one of them is not
decimal, or there are too many. -/
def HasBadNumeral (l : Logical) : Prop :=
  ∃ e preference host, parseLine l.text = .ok (.entry e) ∧ e.type = "MX".toList ∧
    e.data = [preference, host] ∧ (∀ c ∈ preference, isAnyDigit c) ∧
    (Numeral.digitLimit < preference.length ∨ ∃ c ∈ preference, decimalValue? c = none)

/-- Data that give no record are told, or the preference is a numeral that cannot be read. -/
theorem exchange_eq_error {s : Scope} {l : Logical} {file : Text} {data : List Text} {f : Failure}
    (h : exchange s l file data = .error f) :
    f = .fault (.zone .badExchange l.number l.text file) ∨
      ∃ preference host e, data = [preference, host] ∧ (∀ c ∈ preference, isAnyDigit c) ∧
        Numeral.readPreference preference = .error e ∧ f = .numeral e := by
  unfold exchange at h
  split at h
  · rename_i preference host
    split at h
    · rename_i hdigits
      rw [Bool.and_eq_true, List.all_eq_true] at hdigits
      split at h
      · cases h
      · rename_i e he
        cases h
        exact .inr ⟨preference, host, e, rfl, hdigits.2, he, rfl⟩
    · cases h
      exact .inl rfl
  · cases h
    exact .inl rfl

/-- **What is wrong with a line is told with its number and the name of the file**, unless a numeral
cannot be read. -/
theorem Reading.next_eq_error {domain : Option Text} {file : Text} {r : Reading} {l : Logical}
    {f : Failure} (h : r.next domain file l = .error f) :
    (∃ flaw, f = .fault (.zone flaw l.number l.text file)) ∨
      HasBadNumeral l ∧ ∃ e, f = .numeral e := by
  unfold Reading.next at h
  split at h
  · cases h
    exact .inl ⟨_, rfl⟩
  · cases h
  · split at h
    · split at h <;> cases h
    · cases h
  · rename_i entry hparse
    dsimp only at h
    split at h
    · rename_i hmx
      rw [Bool.and_eq_true, decide_eq_true_eq] at hmx
      split at h
      · cases h
      · rename_i g hg
        cases h
        rcases exchange_eq_error hg with rfl | ⟨preference, host, e, hdata, hdigits, he, rfl⟩
        · exact .inl ⟨_, rfl⟩
        · exact .inr ⟨⟨entry, preference, host, hparse, hmx.1, hdata, hdigits,
            Numeral.of_readPreference_eq_error he⟩, e, rfl⟩
    · cases h

/-- A traversal that fails does so at some element, after it has got through those before it. -/
theorem exists_append_of_foldlM_eq_error {ε α β : Type} {f : β → α → Except ε β} {l : List α}
    {b : β} {e : ε} (h : l.foldlM f b = .error e) :
    ∃ before a after c, l = before ++ a :: after ∧ before.foldlM f b = .ok c ∧
      f c a = .error e := by
  induction l generalizing b with
  | nil => cases h
  | cons a l ih =>
    rw [List.foldlM_cons] at h
    cases ha : f b a with
    | error e' =>
      rw [ha] at h
      obtain rfl := Except.error.inj h
      exact ⟨[], a, l, b, rfl, rfl, ha⟩
    | ok c =>
      rw [ha] at h
      obtain ⟨before, x, after, d, rfl, hbefore, hx⟩ := ih h
      refine ⟨a :: before, x, after, d, rfl, ?_, hx⟩
      rw [List.foldlM_cons, ha]
      exact hbefore

theorem exists_of_foldlM_eq_error {ε α β : Type} {f : β → α → Except ε β} {l : List α} {b : β}
    {e : ε} (h : l.foldlM f b = .error e) : ∃ a ∈ l, ∃ c, f c a = .error e := by
  obtain ⟨before, a, after, c, rfl, -, ha⟩ := exists_append_of_foldlM_eq_error h
  exact ⟨a, List.mem_append_right _ List.mem_cons_self, c, ha⟩

/-- **What can come of a zone.**  Every text is read, for every domain and file, or one of three
things is wrong with it.  A logical line can be unreadable or have bad data, which is told with its
text, its number, which is that of a line of the text, and the name of the file.  A parenthesis can
be open from some line to the end, which is told with the number of that line alone.  Or the
preference of an MX record consists of digits that make no number, and the failure to read the
numeral is all that is told. -/
theorem records_ok_or_told (domain : Option Text) (file t : Text) :
    (∃ rs, records domain file t = .ok rs) ∨
    (∃ l ∈ logicalLines t, 1 ≤ l.number ∧ l.number ≤ (splitLines t).length ∧
      ∃ flaw, records domain file t = .error (.fault (.zone flaw l.number l.text file))) ∨
    (∃ n, unclosed? t = some n ∧ 1 ≤ n ∧ n ≤ (splitLines t).length ∧
      records domain file t = .error (.fault (.zone .unbalanced n [] []))) ∨
    ∃ l ∈ logicalLines t, HasBadNumeral l ∧
      ∃ e, records domain file t = .error (.numeral e) := by
  unfold records
  cases hfold : (logicalLines t).foldlM (Reading.next domain file) {} with
  | error f =>
    obtain ⟨l, hl, r, hnext⟩ := exists_of_foldlM_eq_error hfold
    obtain ⟨hone, hle⟩ := number_of_mem_logicalLines hl
    rcases Reading.next_eq_error hnext with ⟨flaw, rfl⟩ | ⟨hbad, e, rfl⟩
    · exact .inr (.inl ⟨l, hl, hone, hle, flaw, rfl⟩)
    · exact .inr (.inr (.inr ⟨l, hl, hbad, e, rfl⟩))
  | ok r =>
    cases hu : unclosed? t with
    | none => exact .inl ⟨_, rfl⟩
    | some n =>
      obtain ⟨hone, hle⟩ := number_of_unclosed? hu
      exact .inr (.inr (.inl ⟨n, rfl, hone, hle, rfl⟩))

/-- A digit that is not decimal, as a preference: neither the line nor the file is told. -/
theorem records_superscript :
    records none "a.zone".toList "h IN MX ² x".toList
      = .error (.numeral (.notDecimal "²".toList)) := by
  decide +kernel

end MxLang.Zone
