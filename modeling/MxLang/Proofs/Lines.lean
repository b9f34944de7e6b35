import Mathlib.Data.List.TakeWhile
import Mathlib.Data.Nat.Init
import MxLang.Text.Lines

/-!
# Lines of a text laid end to end

`splitLines` is computed with the lines found so far at hand; `splitLines_of_ne_nil` is the same
function without them, one line at a time.  A text that is empty or ends in a line feed is
*complete*: nothing that is put behind it can change its lines (`splitLines_append`).  A line
without line ends and a line feed after it are the simplest such text (`splitLines_line`), and
lines laid end to end with their line feeds are read back as they are (`splitLines_flatMap`).
-/

namespace MxLang.Text

theorem splitLinesOnto_nil (done : List Text) : splitLinesOnto done [] = done.reverse := by
  rw [splitLinesOnto, dif_pos rfl]

theorem splitLinesOnto_of_ne_nil {t : Text} (h : t ≠ []) (done : List Text) :
    splitLinesOnto done t = splitLinesOnto (t.takeWhile (!isLineEnd ·) :: done) (afterLine t) := by
  rw [splitLinesOnto, dif_neg h]

theorem splitLinesOnto_eq (done : List Text) (t : Text) :
    splitLinesOnto done t = done.reverse ++ splitLines t := by
  induction hn : t.length using Nat.strong_induction_on generalizing done t with
  | _ n ih =>
    subst hn
    by_cases ht : t = []
    · rw [ht, splitLines, splitLinesOnto_nil, splitLinesOnto_nil, List.reverse_nil, List.append_nil]
    · rw [splitLines, splitLinesOnto_of_ne_nil ht, splitLinesOnto_of_ne_nil ht,
        ih _ (afterLine_lt ht) _ _ rfl, ih _ (afterLine_lt ht) [_] _ rfl, List.reverse_cons,
        List.append_assoc, List.reverse_singleton]

@[simp] theorem splitLines_nil : splitLines [] = [] :=
  splitLinesOnto_nil []

theorem splitLines_of_ne_nil {t : Text} (h : t ≠ []) :
    splitLines t = t.takeWhile (!isLineEnd ·) :: splitLines (afterLine t) := by
  rw [splitLines, splitLinesOnto_of_ne_nil h, splitLinesOnto_eq, List.reverse_singleton,
    List.singleton_append]

/-! ### Complete texts -/

/-- A text that is empty or ends in a line feed. -/
def IsComplete (t : Text) : Prop :=
  t = [] ∨ t.getLast? = some '\n'

theorem isComplete_iff {t : Text} : IsComplete t ↔ t = [] ∨ endsIn ['\n'] t := by
  rw [IsComplete, endsIn, List.isSuffixOf_iff_suffix]
  refine or_congr_right ?_
  rw [List.getLast?_eq_some_iff]
  exact exists_congr fun s => eq_comm

theorem IsComplete.of_cons {c : Char} {t : Text} (h : IsComplete (c :: t)) : IsComplete t := by
  cases t with
  | nil => exact .inl rfl
  | cons d r => exact .inr (h.resolve_left (List.cons_ne_nil _ _))

theorem IsComplete.of_dropWhile {p : Char → Bool} : ∀ {t : Text}, IsComplete t →
    IsComplete (t.dropWhile p) := by
  intro t
  induction t with
  | nil => intro h; exact h
  | cons c r ih =>
    intro h
    by_cases hc : p c
    · rw [List.dropWhile_cons_of_pos hc]
      exact ih h.of_cons
    · rw [List.dropWhile_cons_of_neg hc]
      exact h

/-- What follows the first line of a text is the rest of it, one line end aside. -/
theorem afterLine_eq {t : Text} :
    afterLine t = [] ∧ t.dropWhile (!isLineEnd ·) = [] ∨
      (∃ r, t.dropWhile (!isLineEnd ·) = '\r' :: '\n' :: r ∧ afterLine t = r) ∨
      ∃ c r, t.dropWhile (!isLineEnd ·) = c :: r ∧ (c = '\r' → r.head? ≠ some '\n') ∧
        afterLine t = r := by
  unfold afterLine
  generalize t.dropWhile (!isLineEnd ·) = w
  cases w with
  | nil => exact .inl ⟨rfl, rfl⟩
  | cons c r =>
    refine .inr ?_
    by_cases hc : c = '\r' ∧ r.head? = some '\n'
    · obtain ⟨rfl, hr⟩ := hc
      cases r with
      | nil => cases hr
      | cons d r =>
        obtain rfl := Option.some.inj hr
        exact .inl ⟨r, rfl, rfl⟩
    · refine .inr ⟨c, r, rfl, fun h1 h2 => hc ⟨h1, h2⟩, ?_⟩
      split
      · rename_i heq
        cases heq
        exact absurd ⟨rfl, rfl⟩ hc
      · rename_i heq
        cases heq
        rfl
      · rename_i heq
        cases heq

theorem IsComplete.afterLine {t : Text} (h : IsComplete t) : IsComplete (afterLine t) := by
  have hd : IsComplete (t.dropWhile (!isLineEnd ·)) := h.of_dropWhile
  rcases afterLine_eq (t := t) with ⟨ha, -⟩ | ⟨r, hw, ha⟩ | ⟨c, r, hw, -, ha⟩
  · exact .inl ha
  · rw [ha]
    rw [hw] at hd
    exact hd.of_cons.of_cons
  · rw [ha]
    rw [hw] at hd
    exact hd.of_cons

theorem dropWhile_ne_nil_of_isComplete {t : Text} (h : IsComplete t) (ht : t ≠ []) :
    t.dropWhile (!isLineEnd ·) ≠ [] := by
  intro hd
  have hmem : '\n' ∈ t := List.mem_of_getLast? (h.resolve_left ht)
  have := List.dropWhile_eq_nil_iff.1 hd '\n' hmem
  exact absurd this (by decide)

/-- **The lines of a complete text stay what they are when more text follows.** -/
theorem splitLines_append {z : Text} (hz : IsComplete z) (t : Text) :
    splitLines (z ++ t) = splitLines z ++ splitLines t := by
  induction hn : z.length using Nat.strong_induction_on generalizing z with
  | _ n ih =>
    subst hn
    by_cases hne : z = []
    · rw [hne, List.nil_append, splitLines_nil, List.nil_append]
    · have hd := dropWhile_ne_nil_of_isComplete hz hne
      have hdrop : (z ++ t).dropWhile (!isLineEnd ·) = z.dropWhile (!isLineEnd ·) ++ t := by
        rw [List.dropWhile_append, if_neg (by simpa using hd)]
      have htake : (z ++ t).takeWhile (!isLineEnd ·) = z.takeWhile (!isLineEnd ·) := by
        rw [List.takeWhile_append, if_neg]
        intro hlen
        have hsplit := congrArg List.length
          (List.takeWhile_append_dropWhile (p := (!isLineEnd ·)) (l := z))
        rw [List.length_append, hlen] at hsplit
        exact hd (List.length_eq_zero_iff.1 (by omega))
      have hafter : afterLine (z ++ t) = afterLine z ++ t := by
        have hc : IsComplete (z.dropWhile (!isLineEnd ·)) := hz.of_dropWhile
        rw [afterLine, hdrop]
        rcases afterLine_eq (t := z) with ⟨-, hw⟩ | ⟨r, hw, ha⟩ | ⟨c, r, hw, hr, ha⟩
        · exact absurd hw hd
        · rw [hw, ha]
          rfl
        · rw [hw] at hc ⊢
          rw [ha, List.cons_append]
          split
          · rename_i rest heq
            obtain ⟨rfl, hrt⟩ := List.cons.inj heq
            -- the return cannot be the last character, so the line feed after it is in `r`
            cases r with
            | nil => exact absurd hc (by simp [IsComplete])
            | cons d r =>
              obtain ⟨rfl, -⟩ := List.cons.inj hrt
              exact absurd rfl (hr rfl)
          · rename_i heq
            obtain ⟨-, rfl⟩ := List.cons.inj heq
            rfl
          · rename_i heq
            cases heq
      rw [splitLines_of_ne_nil (by simp [hne]), splitLines_of_ne_nil hne, htake, hafter,
        ih _ (afterLine_lt hne) hz.afterLine rfl, List.cons_append]

/-! ### The characters of a line -/

theorem afterLine_suffix (t : Text) : afterLine t <:+ t := by
  have hdrop : t.dropWhile (!isLineEnd ·) <:+ t := List.dropWhile_suffix _
  rcases afterLine_eq (t := t) with ⟨ha, -⟩ | ⟨r, hw, ha⟩ | ⟨c, r, hw, -, ha⟩
  · rw [ha]
    exact List.nil_suffix
  · rw [ha]
    rw [hw] at hdrop
    exact ((List.suffix_cons _ _).trans (List.suffix_cons _ _)).trans hdrop
  · rw [ha]
    rw [hw] at hdrop
    exact (List.suffix_cons _ _).trans hdrop

/-- **A line holds characters of the text, and no line end.** -/
theorem of_mem_splitLines {t line : Text} (h : line ∈ splitLines t) :
    ∀ c ∈ line, c ∈ t ∧ isLineEnd c = false := by
  induction hn : t.length using Nat.strong_induction_on generalizing t with
  | _ n ih =>
    subst hn
    by_cases ht : t = []
    · rw [ht, splitLines_nil] at h
      cases h
    · rw [splitLines_of_ne_nil ht] at h
      intro c hc
      rcases List.mem_cons.1 h with rfl | h
      · refine ⟨List.takeWhile_subset _ hc, ?_⟩
        have hend := List.mem_takeWhile_imp hc
        rwa [Bool.not_eq_true'] at hend
      · obtain ⟨hmem, hend⟩ := ih _ (afterLine_lt ht) h rfl c hc
        exact ⟨(afterLine_suffix t).subset hmem, hend⟩

theorem splitLines_line {line : Text} (h : ∀ c ∈ line, isLineEnd c = false) (t : Text) :
    splitLines (line ++ '\n' :: t) = line :: splitLines t := by
  have hp : ∀ c ∈ line, (!isLineEnd c) = true := fun c hc => by rw [h c hc]; rfl
  have hafter : afterLine (line ++ '\n' :: t) = t := by
    rw [afterLine, List.dropWhile_append_of_pos hp]
    rfl
  have htake : ('\n' :: t).takeWhile (!isLineEnd ·) = [] := rfl
  rw [splitLines_of_ne_nil (by simp), hafter, List.takeWhile_append_of_pos hp, htake,
    List.append_nil]

theorem splitLines_flatMap {lines : List Text}
    (h : ∀ line ∈ lines, ∀ c ∈ line, isLineEnd c = false) :
    splitLines (lines.flatMap (· ++ ['\n'])) = lines := by
  induction lines with
  | nil => exact splitLines_nil
  | cons line rest ih =>
    obtain ⟨hline, hrest⟩ := List.forall_mem_cons.1 h
    rw [List.flatMap_cons, List.append_assoc, List.singleton_append, splitLines_line hline,
      ih hrest]

end MxLang.Text
