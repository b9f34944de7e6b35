import Mathlib.Data.List.DropRight
import MxLang.Machine
import MxLang.Proofs.Numeral

/-!
# Commands and their texts

Every command has one text that the assembler writes for it: the bare word of an opcode, or `push`,
one space and the numeral.  This file says that nothing is lost with it: the machine reads the
command back (`ofText_text`), and the host of the text, below any namespace, gives the text back
(`decode_encode_text`).

The host codec exchanges the first space for a dash and, the other way, the first dash for a space.
The sign of a negative operand is a dash too, but the one that stands for the space comes before
it, and no opcode word has a dash or a space.
-/

namespace MxLang

open Text

/-! ### Trimming and replacing -/

namespace Text

theorem dropWhile_eq_self {p : Char → Bool} {t : Text} (h : ∀ c ∈ t, p c = false) :
    t.dropWhile p = t := by
  cases t with
  | nil => rfl
  | cons c r =>
    rw [List.dropWhile_cons_of_neg]
    rw [h c List.mem_cons_self]
    decide

theorem trim_eq_self {p : Char → Bool} {t : Text} (h : ∀ c ∈ t, p c = false) : trim p t = t := by
  rw [trim, dropWhile_eq_self h, dropWhile_eq_self fun c hc => h c (List.mem_reverse.1 hc),
    List.reverse_reverse]

theorem mem_of_mem_trim {p : Char → Bool} {t : Text} {c : Char} (h : c ∈ trim p t) : c ∈ t := by
  rw [trim, List.mem_reverse] at h
  exact (List.dropWhile_subset p) (List.mem_reverse.1 ((List.dropWhile_subset p) h))

theorem replaceFirst_of_not_mem {a b : Char} : ∀ {t : Text}, a ∉ t → replaceFirst a b t = t := by
  intro t
  induction t with
  | nil => intro _; rfl
  | cons c r ih =>
    intro h
    rw [List.mem_cons, not_or] at h
    rw [replaceFirst, if_neg (Ne.symm h.1), ih h.2]

theorem replaceFirst_append {a b : Char} : ∀ {s : Text} (t : Text), a ∉ s →
    replaceFirst a b (s ++ a :: t) = s ++ b :: t := by
  intro s
  induction s with
  | nil => intro t _; rw [List.nil_append, replaceFirst, if_pos rfl, List.nil_append]
  | cons c r ih =>
    intro t h
    rw [List.mem_cons, not_or] at h
    rw [List.cons_append, replaceFirst, if_neg (Ne.symm h.1), ih t h.2, List.cons_append]

end Text

/-! ### The text of a command -/

/-- The text that the assembler writes for a command. -/
def Command.text : Command → Text
  | .push value => Instruction.pushWord ++ ' ' :: Numeral.write value
  | .bare op => op.name

/-- Whether the text of the command keeps to the limit on digits. -/
def Command.isWritable : Command → Bool
  | .push value => Numeral.isWritable value
  | .bare _ => true

/-- An opcode word is a word of small letters. -/
theorem Opcode.isLower_of_mem_name {op : Opcode} {c : Char} (h : c ∈ op.name) : c.isLower := by
  have hall : op.name.all Char.isLower = true := by cases op <;> decide
  exact List.all_eq_true.1 hall c h

theorem Opcode.name_ne_nil (op : Opcode) : op.name ≠ [] := by
  cases op <;> decide

theorem Opcode.name_ne_pushWord (op : Opcode) : op.name ≠ Instruction.pushWord := by
  cases op <;> decide

theorem Opcode.eq_name_of_ofName? {word : Text} {op : Opcode} (h : ofName? word = some op) :
    word = op.name := by
  have hf := List.find?_some (p := fun o : Opcode => decide (o.name = word)) h
  exact (of_decide_eq_true hf).symm

theorem Opcode.name_injective {a b : Opcode} (h : a.name = b.name) : a = b :=
  Option.some.inj ((ofName?_name a).symm.trans (h ▸ ofName?_name b))

theorem Opcode.not_mem_name {op : Opcode} {c : Char} (h : c.isLower = false) : c ∉ op.name := by
  intro hc
  rw [isLower_of_mem_name hc] at h
  cases h

theorem Numeral.mem_write {v : Int} {c : Char} (h : c ∈ Numeral.write v) :
    c = '-' ∨ isAsciiDigit c := by
  rw [Numeral.write] at h
  split at h
  · rcases List.mem_cons.1 h with rfl | h
    · exact .inl rfl
    · exact .inr (Numeral.isAsciiDigit_of_mem_writeNat h)
  · exact .inr (Numeral.isAsciiDigit_of_mem_writeNat h)

theorem Numeral.write_ne_nil (v : Int) : Numeral.write v ≠ [] := by
  rw [Numeral.write]
  split
  · exact List.cons_ne_nil _ _
  · exact Numeral.writeNat_ne_nil _

theorem Command.text_ne_nil (c : Command) : c.text ≠ [] := by
  cases c with
  | push v => exact List.cons_ne_nil _ _
  | bare op => exact op.name_ne_nil

/-! ### Below a namespace and back -/

namespace Host

theorem isBelow_encode (ns : Text) {code : Text} (h : code ≠ []) : isBelow ns (encode ns code) := by
  have hpos : 0 < (replaceFirst ' ' '-' code).length := by
    cases code with
    | nil => exact absurd rfl h
    | cons c t =>
      rw [replaceFirst]
      split <;> exact Nat.succ_pos _
  rw [isBelow, Bool.and_eq_true, decide_eq_true_eq]
  refine ⟨List.isSuffixOf_iff_suffix.2 (List.suffix_append _ _), ?_⟩
  rw [encode, List.length_append]
  omega

theorem decode_encode (ns code : Text) :
    decode ns (encode ns code) = replaceFirst '-' ' ' (replaceFirst ' ' '-' code) := by
  rw [decode, encode, List.length_append, Nat.add_sub_cancel, List.take_left]

/-- **The host of a command gives its text back**, whatever the namespace. -/
theorem decode_encode_text (ns : Text) (c : Command) : decode ns (encode ns c.text) = c.text := by
  rw [decode_encode]
  cases c with
  | push v =>
    rw [Command.text, replaceFirst_append _ (by decide), replaceFirst_append _ (by decide)]
  | bare op =>
    rw [Command.text, replaceFirst_of_not_mem (Opcode.not_mem_name (by decide)),
      replaceFirst_of_not_mem (Opcode.not_mem_name (by decide))]

end Host

/-! ### The machine reads the text -/

theorem isTrimmed_of_isAsciiDigit {c : Char} (h : isAsciiDigit c) : isTrimmed c = false := by
  simp only [isAsciiDigit, Bool.and_eq_true, decide_eq_true_eq] at h
  simp only [isTrimmed, isSpace, Bool.or_eq_false_iff, Bool.and_eq_false_iff,
    decide_eq_false_iff_not]
  omega

theorem isTrimmed_of_mem_write {v : Int} {c : Char} (h : c ∈ Numeral.write v) :
    isTrimmed c = false := by
  rcases Numeral.mem_write h with rfl | h
  · decide
  · exact isTrimmed_of_isAsciiDigit h

theorem isSpace_eq_false_of_isTrimmed {c : Char} (h : isTrimmed c = false) : isSpace c = false :=
  (Bool.or_eq_false_iff.1 h).1

theorem Numeral.lineFeed_not_mem_write (v : Int) : '\n' ∉ Numeral.write v := by
  intro h
  exact absurd (isTrimmed_of_mem_write h) (by decide)

/-- The text is `push`, a gap of spaces and tabs, and an operand that starts with no white
space. -/
def Instruction.IsPush (t operand : Text) : Prop :=
  ∃ gap c rest, t = Instruction.pushWord ++ (gap ++ operand) ∧ gap ≠ [] ∧ (∀ g ∈ gap, isGap g) ∧
    operand = c :: rest ∧ isSpace c = false

theorem isGap_eq_false_of_isSpace {c : Char} (h : isSpace c = false) : isGap c = false := by
  by_contra hg
  rw [Bool.not_eq_false, isGap_iff] at hg
  rcases hg with rfl | rfl <;> exact absurd h (by decide)

theorem Instruction.pushOperand?_eq_some_iff {t operand : Text} :
    Instruction.pushOperand? t = some operand ↔ Instruction.IsPush t operand := by
  constructor
  · intro h
    unfold Instruction.pushOperand? at h
    split at h
    · rename_i rest
      split at h
      · rename_i g more c operand' hdrop
        split at h
        · rename_i hc
          cases h
          rw [Bool.and_eq_true, Bool.not_eq_true'] at hc
          refine ⟨(g :: more).takeWhile isGap, c, operand', ?_, ?_, ?_, rfl, hc.2⟩
          · rw [← hdrop, List.takeWhile_append_dropWhile]
            rfl
          · rw [List.takeWhile_cons_of_pos hc.1]
            exact List.cons_ne_nil _ _
          · exact fun x hx => List.mem_takeWhile_imp hx
        · cases h
      · cases h
    · cases h
  · rintro ⟨gap, c, rest, rfl, hne, hg, rfl, hc⟩
    have hd : (gap ++ c :: rest).dropWhile isGap = c :: rest := by
      rw [List.dropWhile_append_of_pos hg, List.dropWhile_cons_of_neg]
      rw [isGap_eq_false_of_isSpace hc]
      decide
    cases gap with
    | nil => exact absurd rfl hne
    | cons g more =>
      show Instruction.pushOperand? ('p' :: 'u' :: 's' :: 'h' :: g :: (more ++ c :: rest)) = _
      rw [List.cons_append] at hd
      unfold Instruction.pushOperand?
      simp only [hd, hc, hg g List.mem_cons_self]
      rfl

theorem Instruction.IsPush.unique {t a b : Text} (ha : Instruction.IsPush t a)
    (hb : Instruction.IsPush t b) : a = b :=
  Option.some.inj
    ((Instruction.pushOperand?_eq_some_iff.2 ha).symm.trans
      (Instruction.pushOperand?_eq_some_iff.2 hb))

theorem Opcode.not_name_prefix_pushWord (op : Opcode) : ¬ op.name <+: Instruction.pushWord := by
  cases op <;> decide

/-- A push is no bare opcode: an opcode word that starts with `push` goes on with a letter. -/
theorem Instruction.IsPush.strip_ne_name {t operand : Text} (h : Instruction.IsPush t operand)
    (op : Opcode) : strip t ≠ op.name := by
  obtain ⟨gap, c, rest, rfl, hne, hg, -, -⟩ := h
  cases gap with
  | nil => exact absurd rfl hne
  | cons g more =>
    intro hs
    have hp : op.name <+: Instruction.pushWord ++ g :: (more ++ operand) := by
      rw [← hs]
      exact List.rdropWhile_prefix isTrimmed (Instruction.pushWord ++ g :: (more ++ operand))
    by_cases hlen : op.name.length ≤ Instruction.pushWord.length
    · exact op.not_name_prefix_pushWord
        (List.prefix_of_prefix_length_le hp (List.prefix_append _ _) hlen)
    · have hword : Instruction.pushWord ++ [g] <+: op.name := by
        refine List.prefix_of_prefix_length_le ?_ hp (by simp; omega)
        rw [List.append_cons]
        exact List.prefix_append _ _
      have hmem : g ∈ op.name := hword.subset (by simp)
      have hgap := hg g List.mem_cons_self
      rw [isGap_iff] at hgap
      rcases hgap with rfl | rfl <;> exact Opcode.not_mem_name (by decide) hmem

theorem Instruction.pushOperand?_push (v : Int) :
    Instruction.pushOperand? (Instruction.pushWord ++ ' ' :: Numeral.write v)
      = some (Numeral.write v) := by
  rw [Instruction.pushOperand?_eq_some_iff]
  cases hw : Numeral.write v with
  | nil => exact absurd hw (Numeral.write_ne_nil v)
  | cons c t =>
    have hc : isSpace c = false :=
      isSpace_eq_false_of_isTrimmed (isTrimmed_of_mem_write (v := v) (by rw [hw]; simp))
    exact ⟨[' '], c, t, rfl, by decide, List.all_eq_true.1 (by decide), rfl, hc⟩

theorem Instruction.parse_push (v : Int) :
    Instruction.parse (Instruction.pushWord ++ ' ' :: Numeral.write v)
      = .ok ⟨Instruction.pushWord, some (Numeral.write v)⟩ := by
  have hn : (Numeral.write v).contains '\n' = false := by
    rw [List.contains_eq_mem, decide_eq_false_iff_not]
    exact Numeral.lineFeed_not_mem_write v
  rw [Instruction.parse, Instruction.pushOperand?_push]
  simp only [hn, strip, trim_eq_self fun c (hc : c ∈ Numeral.write v) => isTrimmed_of_mem_write hc]
  rfl

theorem Instruction.parse_name (op : Opcode) : Instruction.parse op.name = .ok ⟨op.name, none⟩ := by
  cases op <;> decide

/-- **The machine reads back the command of a text** that keeps to the limit on digits. -/
theorem Command.ofText_text {c : Command} (h : c.isWritable) : Command.ofText c.text = .ok c := by
  cases c with
  | push v =>
    rw [Command.text, Command.ofText, Instruction.parse_push]
    simp only [if_pos, Option.getD_some, Numeral.readLiteral_write h]
  | bare op =>
    rw [Command.text, Command.ofText, Instruction.parse_name]
    simp only [if_neg op.name_ne_pushWord, Opcode.ofName?_name]

end MxLang
