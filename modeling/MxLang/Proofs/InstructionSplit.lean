import MxLang.Proofs.HostCodec
import MxLang.Proofs.LabelUse

/-!
# How a line is split

A line is a push if it is the word `push`, a gap and a rest that starts with something visible;
every other line is an opcode on its own.  Four classes of characters meet here and no two of them
agree: the gap consists of spaces and tabs, the rest must not start with white space, what is
stripped is white space and the information separators, and no line feed is let through.  So a
separator after the gap makes a push with an empty operand, and a no-break space in place of the gap
makes an opcode.

`IsCut` and `IsSplit` say this without a way to compute it, and `IsCore` does the same for stripping
(`trim_eq_iff`).  The result for every text, with the two errors, is `parse_iff_split`: the line
feed decides whether there is one, the split which one it is.
-/

namespace MxLang

open Text

namespace Text

variable {p : Char → Bool} {t core : Text}

/-! ### What trimming leaves -/

/-- The text is `core` with characters of `p` around it, and `core` neither starts nor ends with
one. -/
structure IsCore (p : Char → Bool) (t core : Text) : Prop where
  text : ∃ front back, t = front ++ (core ++ back) ∧ (∀ c ∈ front, p c) ∧ ∀ c ∈ back, p c
  head : ∀ c ∈ core.head?, p c = false
  last : ∀ c ∈ core.getLast?, p c = false

/-- Nothing is left to be dropped after dropping. -/
theorem head?_dropWhile_eq_false : ∀ c ∈ (t.dropWhile p).head?, p c = false := by
  rw [← dropWhile_eq_self_iff_head?]
  exact List.dropWhile_idempotent p t

theorem isCore_trim (p : Char → Bool) (t : Text) : IsCore p t (trim p t) := by
  have hback : t.dropWhile p = trim p t ++ ((t.dropWhile p).reverse.takeWhile p).reverse := by
    rw [trim, ← List.reverse_append, List.takeWhile_append_dropWhile, List.reverse_reverse]
  refine ⟨⟨t.takeWhile p, ((t.dropWhile p).reverse.takeWhile p).reverse, ?_, ?_, ?_⟩, ?_, ?_⟩
  · rw [← hback, List.takeWhile_append_dropWhile]
  · intro c hc
    exact List.mem_takeWhile_imp hc
  · intro c hc
    exact List.mem_takeWhile_imp (List.mem_reverse.1 hc)
  · intro c hc
    -- The core starts where the text without its front does.
    refine head?_dropWhile_eq_false (p := p) (t := t) c ?_
    rw [hback, List.head?_append, Option.mem_def.1 hc]
    rfl
  · intro c hc
    rw [trim, List.getLast?_reverse] at hc
    exact head?_dropWhile_eq_false c hc

/-- **Trimming gives the core**, and a text has no other. -/
theorem trim_eq_iff : trim p t = core ↔ IsCore p t core := by
  constructor
  · rintro rfl
    exact isCore_trim p t
  · rintro ⟨⟨front, back, rfl, hfront, hback⟩, hhead, hlast⟩
    have hself := trim_eq_self_iff.2 ⟨hhead, hlast⟩
    cases core with
    | nil =>
      rw [trim, List.dropWhile_append_of_pos hfront, List.nil_append,
        List.dropWhile_eq_nil_iff.2 hback]
      rfl
    | cons c r =>
      have hc : ¬ p c = true := by
        rw [hhead c rfl]
        exact Bool.false_ne_true
      rw [trim, List.dropWhile_cons_of_neg hc] at hself
      rw [trim, List.dropWhile_append_of_pos hfront, List.cons_append,
        List.dropWhile_cons_of_neg hc, ← List.cons_append, List.reverse_append,
        List.dropWhile_append_of_pos fun d hd => hback d (List.mem_reverse.1 hd), hself]

/-! ### Before the first of a character -/

theorem length_before (c : Char) (t : Text) : (before c t).length = t.idxOf c := by
  induction t with
  | nil => rfl
  | cons d r ih =>
    by_cases hd : d = c
    · rw [hd, before_cons_self, List.idxOf_cons_self]
      rfl
    · rw [before_cons_of_ne hd, List.idxOf_cons_ne _ hd, List.length_cons, ih]

theorem before_eq_nil_iff {c : Char} : before c t = [] ↔ t = [] ∨ t.head? = some c := by
  cases t with
  | nil => exact iff_of_true rfl (.inl rfl)
  | cons d r =>
    by_cases hd : d = c
    · rw [hd, before_cons_self]
      exact iff_of_true rfl (.inr rfl)
    · rw [before_cons_of_ne hd]
      simp [hd]

end Text

namespace Instruction

variable {t rest : Text} {i : Instruction}

/-! ### The split of a line -/

/-- The text is `push`, the gap and the rest: the gap is the whole run of spaces and tabs after the
word, and not empty, and the rest starts with a character that is no white space. -/
structure IsCut (t gap rest : Text) : Prop where
  text : t = pushWord ++ (gap ++ rest)
  gap_ne_nil : gap ≠ []
  maximal : (gap ++ rest).takeWhile isGap = gap
  visible : ∃ c ∈ rest.head?, isSpace c = false

/-- What a line is split into: a push with the core of the rest, or an opcode, the core of the
line, if it cannot be cut. -/
inductive IsSplit (t : Text) : Instruction → Prop
  | push {gap rest operand : Text} (hcut : IsCut t gap rest)
      (hcore : IsCore isTrimmed rest operand) : IsSplit t ⟨pushWord, some operand⟩
  | bare {opcode : Text} (hcut : ¬ ∃ gap rest, IsCut t gap rest)
      (hcore : IsCore isTrimmed t opcode) : IsSplit t ⟨opcode, none⟩

theorem isPush_iff_isCut : IsPush t rest ↔ ∃ gap, IsCut t gap rest := by
  constructor
  · rintro ⟨gap, c, more, rfl, hne, hgap, rfl, hc⟩
    refine ⟨gap, rfl, hne, ?_, c, rfl, hc⟩
    have hstop : ¬ isGap c = true := by
      rw [isGap_eq_false_of_isSpace hc]
      exact Bool.false_ne_true
    rw [List.takeWhile_append_of_pos hgap, List.takeWhile_cons_of_neg hstop, List.append_nil]
  · rintro ⟨gap, rfl, hne, hmax, c, hhead, hc⟩
    obtain ⟨more, rfl⟩ := List.head?_eq_some_iff.1 hhead
    refine ⟨gap, c, more, rfl, hne, ?_, rfl, hc⟩
    intro g hg
    rw [← hmax] at hg
    exact List.mem_takeWhile_imp hg

/-- **A line is split in one way.** -/
theorem IsSplit.unique {j : Instruction} (hi : IsSplit t i) (hj : IsSplit t j) : i = j := by
  cases hi with
  | push hcut hcore =>
    cases hj with
    | push hcut' hcore' =>
      have hpush := isPush_iff_isCut.2 ⟨_, hcut⟩
      obtain rfl := hpush.unique (isPush_iff_isCut.2 ⟨_, hcut'⟩)
      rw [← trim_eq_iff.2 hcore, ← trim_eq_iff.2 hcore']
    | bare hcut' _ => exact absurd ⟨_, _, hcut⟩ hcut'
  | bare hcut hcore =>
    cases hj with
    | push hcut' _ => exact absurd ⟨_, _, hcut'⟩ hcut
    | bare _ hcore' => rw [← trim_eq_iff.2 hcore, ← trim_eq_iff.2 hcore']

/-! ### Lines without and with a line feed -/

/-- Without a line feed, a line that is not empty is split. -/
theorem exists_isSplit (hne : t ≠ []) (hn : '\n' ∉ t) : ∃ i, parse t = .ok i ∧ IsSplit t i := by
  by_cases hpush : ∃ rest, IsPush t rest
  · obtain ⟨rest, hrest⟩ := hpush
    obtain ⟨gap, hcut⟩ := isPush_iff_isCut.1 hrest
    exact ⟨_, parse_of_isPush hrest hn, .push hcut (isCore_trim _ _)⟩
  · have hbare : ¬ ∃ gap rest, IsCut t gap rest := by
      rintro ⟨gap, rest, hcut⟩
      exact hpush ⟨rest, isPush_iff_isCut.2 ⟨gap, hcut⟩⟩
    exact ⟨_, parse_of_not_isPush (not_exists.1 hpush) hne hn, .bare hbare (isCore_trim _ _)⟩

/-- In a push, no line feed comes before the rest. -/
theorem IsPush.lineFeed_mem (h : IsPush t rest) (hn : '\n' ∈ t) : '\n' ∈ rest := by
  obtain ⟨gap, c, more, rfl, -, hgap, -, -⟩ := h
  rcases List.mem_append.1 hn with hword | hn
  · exact absurd hword (by decide)
  · rcases List.mem_append.1 hn with hg | hrest
    · exact absurd (hgap _ hg) (by decide)
    · exact hrest

theorem IsPush.before_ne_nil (h : IsPush t rest) : before '\n' t ≠ [] := by
  obtain ⟨gap, c, more, rfl, -, -, -, -⟩ := h
  exact List.cons_ne_nil _ _

/-- With a line feed there is an error, and it tells where the line feed is, whether the text before
it starts a push or not. -/
theorem parse_of_lineFeed (hn : '\n' ∈ t) :
    parse t = .error (if before '\n' t = [] then .unmatched else .incomplete (t.idxOf '\n')) := by
  rw [parse]
  cases hpush : pushOperand? t with
  | some rest =>
    have h := pushOperand?_eq_some_iff.1 hpush
    have hmem : rest.contains '\n' = true := List.contains_iff_mem.2 (h.lineFeed_mem hn)
    simp only [hmem, if_true, if_neg h.before_ne_nil, length_before]
  | none =>
    have hmem : t.contains '\n' = true := List.contains_iff_mem.2 hn
    simp only [hmem, if_true, length_before]
    split <;> rfl

/-- **What becomes of every text.**  It is split just if it is not empty and holds no line feed, and
then into a push or an opcode as `IsSplit` tells; an empty text and one that starts with a line feed
match nothing; and any other text with a line feed matches up to the first one. -/
theorem parse_iff_split (t : Text) :
    ((∃ i, parse t = .ok i) ↔ t ≠ [] ∧ '\n' ∉ t) ∧
    (∀ i, parse t = .ok i ↔ t ≠ [] ∧ '\n' ∉ t ∧ IsSplit t i) ∧
    (parse t = .error .unmatched ↔ t = [] ∨ t.head? = some '\n') ∧
    (∀ n, parse t = .error (.incomplete n) ↔
      '\n' ∈ t ∧ t.head? ≠ some '\n' ∧ n = t.idxOf '\n') := by
  by_cases hn : '\n' ∈ t
  · have hne : t ≠ [] := List.ne_nil_of_mem hn
    rw [parse_of_lineFeed hn]
    simp only [before_eq_nil_iff, hne, hn, false_or]
    by_cases hhead : t.head? = some '\n'
    · simp [hhead]
    · simp [hhead, eq_comm]
  · by_cases hne : t = []
    · subst hne
      rw [show parse [] = .error .unmatched from rfl]
      simp
    · obtain ⟨i, hparse, hsplit⟩ := exists_isSplit hne hn
      have hhead : t.head? ≠ some '\n' := fun h => hn (List.mem_of_mem_head? h)
      rw [hparse]
      refine ⟨by simp [hne, hn], ?_, by simp [hne, hhead], by simp [hn]⟩
      intro j
      constructor
      · intro h
        cases h
        exact ⟨hne, hn, hsplit⟩
      · rintro ⟨-, -, h⟩
        rw [hsplit.unique h]

/-- A separator after the gap is no white space, but it is stripped. -/
example : parse "push \x1c".toList = .ok ⟨pushWord, some []⟩ := by decide

/-- A no-break space is stripped, but it makes no gap. -/
example : parse "push\u00a0".toList = .ok ⟨pushWord, none⟩ := by decide

end Instruction

end MxLang
