import Mathlib.Data.Nat.Digits.Defs
import MxLang.Proofs.Numeral

/-!
# Literals read and printed again

A numeral is a sign, which may be missing, and one or more of the digits `0` to `9` (`IsNumeral`);
its value is that of the digits in base ten, with the sign (`valueOf`).  The reader of literals
takes the numerals whose digits keep to the limit, and counts the digits as they are written:
leading zeros count, the sign does not.

No numeral of an integer has fewer digits than its decimal text, which has no leading zeros.  So
whatever can be read can be printed, and what is printed is read as the same number, from no more
digits than before (`readLiteral_reprinted`).
-/

namespace MxLang.Numeral

open MxLang.Text

variable {t sign digits : Text} {n v : Int}

/-! ### Numerals and their values -/

/-- The text is a sign, if there is one, and one or more digits. -/
structure IsNumeral (t sign digits : Text) : Prop where
  text : t = sign ++ digits
  sign : sign = [] ∨ sign = ['+'] ∨ sign = ['-']
  digits_ne_nil : digits ≠ []
  isDigit : ∀ c ∈ digits, c.isDigit

/-- The value of digits in base ten, with the sign before them. -/
def valueOf (sign digits : Text) : Int :=
  signed (sign = ['-']) (Nat.ofDigits 10 (digits.reverse.map fun c => c.toNat - '0'.toNat))

theorem isDigit_iff_isAsciiDigit {c : Char} : c.isDigit ↔ isAsciiDigit c := by
  constructor
  · exact isAsciiDigit_of_isDigit
  · intro h
    simp only [isAsciiDigit, Bool.and_eq_true, decide_eq_true_eq] at h
    simp only [Char.isDigit, Bool.and_eq_true, decide_eq_true_eq, ge_iff_le,
      UInt32.le_iff_toNat_le]
    exact h

/-- Reading digits from the left gives their value in base ten. -/
theorem ofDigits_eq_asciiValue (digits : Text) :
    Nat.ofDigits 10 (digits.reverse.map fun c => c.toNat - '0'.toNat) = asciiValue digits := by
  rw [Nat.ofDigits_eq_foldr, List.foldr_map, List.foldr_reverse, asciiValue]
  refine List.foldl_ext _ _ _ fun n c _ => ?_
  rw [Nat.add_comm]
  rfl

theorem valueOf_eq_signed (sign digits : Text) :
    valueOf sign digits = signed (sign = ['-']) (asciiValue digits) := by
  rw [valueOf, ofDigits_eq_asciiValue]

/-- Sign and digits are what the text is cut into. -/
theorem splitSign_of_isNumeral (h : IsNumeral t sign digits) :
    splitSign t = (decide (sign = ['-']), digits) := by
  obtain ⟨rfl, rfl | rfl | rfl, hne, hd⟩ := h
  · cases digits with
    | nil => exact absurd rfl hne
    | cons c r =>
      exact splitSign_of_isAsciiDigit (isAsciiDigit_of_isDigit (hd c List.mem_cons_self))
  · rfl
  · rfl

theorem IsNumeral.isLiteral (h : IsNumeral t sign digits) :
    IsLiteral t (valueOf sign digits) := by
  refine isLiteral_iff.2 ?_
  rw [splitSign_of_isNumeral h, valueOf_eq_signed]
  exact ⟨h.digits_ne_nil, fun c hc => isAsciiDigit_of_isDigit (h.isDigit c hc), rfl⟩

theorem IsLiteral.exists_isNumeral (h : IsLiteral t v) :
    ∃ sign digits, IsNumeral t sign digits := by
  obtain ⟨sign, digits, ht, hne, hd, hv⟩ := h
  refine ⟨sign, digits, ht, ?_, hne, fun c hc => isDigit_iff_isAsciiDigit.2 (hd c hc)⟩
  rcases hv with ⟨hs, -⟩ | ⟨hs | hs, -⟩
  · exact .inr (.inr hs)
  · exact .inl hs
  · exact .inr (.inl hs)

/-! ### Reading -/

/-- A numeral is read, unless it has too many digits. -/
theorem readLiteral_of_isNumeral (h : IsNumeral t sign digits) :
    readLiteral t =
      if digitLimit < digits.length then .error (.tooLongToRead digits.length)
      else .ok (some (valueOf sign digits)) := by
  rw [readLiteral_of_isLiteral h.isLiteral, splitSign_of_isNumeral h]

theorem readLiteral_of_not_isNumeral (h : ¬ ∃ sign digits, IsNumeral t sign digits) :
    readLiteral t = .ok none :=
  readLiteral_of_not_isLiteral fun _ hv => h hv.exists_isNumeral

theorem readLiteral_eq_some_iff :
    readLiteral t = .ok (some v) ↔ ∃ sign digits, IsNumeral t sign digits ∧
      digits.length ≤ digitLimit ∧ v = valueOf sign digits := by
  constructor
  · intro h
    obtain ⟨sign, digits, hnum⟩ := (isLiteral_of_readLiteral h).exists_isNumeral
    rw [readLiteral_of_isNumeral hnum] at h
    split at h
    · cases h
    · rename_i hlen
      exact ⟨sign, digits, hnum, by omega, (Option.some.inj (Except.ok.inj h)).symm⟩
  · rintro ⟨sign, digits, hnum, hlen, rfl⟩
    rw [readLiteral_of_isNumeral hnum, if_neg (by omega)]

theorem readLiteral_eq_error_iff {k : Nat} :
    readLiteral t = .error (.tooLongToRead k) ↔ ∃ sign digits, IsNumeral t sign digits ∧
      digits.length = k ∧ digitLimit < k := by
  constructor
  · intro h
    by_cases hex : ∃ sign digits, IsNumeral t sign digits
    · obtain ⟨sign, digits, hnum⟩ := hex
      rw [readLiteral_of_isNumeral hnum] at h
      split at h
      · rename_i hlen
        cases h
        exact ⟨sign, digits, hnum, rfl, hlen⟩
      · cases h
    · rw [readLiteral_of_not_isNumeral hex] at h
      cases h
  · rintro ⟨sign, digits, hnum, rfl, hlen⟩
    rw [readLiteral_of_isNumeral hnum, if_pos hlen]

theorem readLiteral_eq_none_iff :
    readLiteral t = .ok none ↔ ¬ ∃ sign digits, IsNumeral t sign digits := by
  constructor
  · rintro h ⟨sign, digits, hnum⟩
    rw [readLiteral_of_isNumeral hnum] at h
    split at h <;> cases h
  · exact readLiteral_of_not_isNumeral

/-! ### Printing -/

theorem write_eq_toString (n : Int) : write n = (toString n).toList := by
  cases n with
  | ofNat k =>
    have hk : ¬ Int.ofNat k < 0 := Int.not_lt.2 (Int.natCast_nonneg k)
    rw [write, if_neg hk]
    exact String.toList_ofList.symm
  | negSucc k =>
    rw [write, if_pos (Int.negSucc_lt_zero k)]
    show '-' :: Nat.toDigits 10 (k + 1) = ("-" ++ (k + 1).repr).toList
    rw [String.toList_append]
    exact congrArg ('-' :: ·) String.toList_ofList.symm

/-- The limit on the numbers is the limit on their digits. -/
theorem isWritable_iff : isWritable n ↔ (Nat.toDigits 10 n.natAbs).length ≤ digitLimit := by
  rw [isWritable, decide_eq_true_eq]
  exact length_writeNat_le_iff.symm

theorem isNumeral_write (n : Int) : ∃ sign, IsNumeral (write n) sign (writeNat n.natAbs) := by
  have hd : ∀ c ∈ writeNat n.natAbs, c.isDigit :=
    fun c hc => isDigit_iff_isAsciiDigit.2 (isAsciiDigit_of_mem_writeNat hc)
  rw [write]
  split
  · exact ⟨['-'], rfl, .inr (.inr rfl), writeNat_ne_nil _, hd⟩
  · exact ⟨[], rfl, .inl rfl, writeNat_ne_nil _, hd⟩

/-- The decimal text of a number has no more digits than any other of its numerals. -/
theorem IsNumeral.length_writeNat_le (h : IsNumeral t sign digits) :
    (writeNat (valueOf sign digits).natAbs).length ≤ digits.length := by
  have hd : ∀ c ∈ digits, isAsciiDigit c := fun c hc => isAsciiDigit_of_isDigit (h.isDigit c hc)
  rw [valueOf_eq_signed, natAbs_signed, writeNat,
    Nat.length_toDigits_le_iff (by decide) (List.length_pos_iff.2 h.digits_ne_nil)]
  exact asciiValue_lt hd

/-- **What is read as a literal, and what becomes of it when it is printed.**  A text has a value
just if it is a numeral with no more digits than the limit, and the value is the one in base ten; a
longer numeral is an error that tells the number of its digits; every other text has no value.  The
decimal text of an integer whose digits keep to the limit is read as that integer.  So a literal
that was read can be printed, and its print is read as the same integer from no more digits. -/
theorem readLiteral_reprinted :
    (∀ (t : Text) (v : Int), readLiteral t = .ok (some v) ↔
      ∃ sign digits, IsNumeral t sign digits ∧ digits.length ≤ digitLimit ∧
        v = valueOf sign digits) ∧
    (∀ (t : Text) (k : Nat), readLiteral t = .error (.tooLongToRead k) ↔
      ∃ sign digits, IsNumeral t sign digits ∧ digits.length = k ∧ digitLimit < k) ∧
    (∀ t : Text, readLiteral t = .ok none ↔ ¬ ∃ sign digits, IsNumeral t sign digits) ∧
    (∀ n : Int, (Nat.toDigits 10 n.natAbs).length ≤ digitLimit →
      write? n = .ok (toString n).toList ∧
        readLiteral (toString n).toList = .ok (some n)) ∧
    (∀ (t : Text) (v : Int), readLiteral t = .ok (some v) →
      ∃ s, write? v = .ok s ∧ readLiteral s = .ok (some v) ∧
        ∀ sign digits sign' digits', IsNumeral t sign digits → IsNumeral s sign' digits' →
          digits'.length ≤ digits.length) := by
  have hprint : ∀ n : Int, isWritable n → write? n = .ok (write n) := fun n hn => if_pos hn
  refine ⟨fun t v => readLiteral_eq_some_iff, fun t k => readLiteral_eq_error_iff,
    fun t => readLiteral_eq_none_iff, ?_, ?_⟩
  · intro n hlen
    have hn := isWritable_iff.2 hlen
    rw [← write_eq_toString]
    exact ⟨hprint n hn, readLiteral_write hn⟩
  · intro t v hv
    have hw := isWritable_of_readLiteral hv
    refine ⟨write v, hprint v hw, readLiteral_write hw, ?_⟩
    intro sign digits sign' digits' ht hs
    obtain ⟨sign'', hwritten⟩ := isNumeral_write v
    obtain rfl : digits' = writeNat v.natAbs :=
      congrArg Prod.snd ((splitSign_of_isNumeral hs).symm.trans (splitSign_of_isNumeral hwritten))
    rw [(isLiteral_of_readLiteral hv).unique ht.isLiteral]
    exact ht.length_writeNat_le

/-- Leading zeros count as digits, and are not printed again. -/
theorem readLiteral_reprinted_zeros :
    IsNumeral "-007".toList ['-'] "007".toList ∧ readLiteral "-007".toList = .ok (some (-7)) ∧
      write? (-7) = .ok "-7".toList ∧ readLiteral "-7".toList = .ok (some (-7)) ∧
      ∃ s, write? (-7) = .ok s ∧ ∀ sign digits, IsNumeral s sign digits → digits.length ≤ 3 := by
  obtain ⟨hread, -, -, hprint, hagain⟩ := readLiteral_reprinted
  have hnum : IsNumeral "-007".toList ['-'] "007".toList :=
    ⟨rfl, .inr (.inr rfl), by decide, List.all_eq_true.1 (by decide)⟩
  have hseven : readLiteral "-007".toList = .ok (some (-7)) :=
    (hread _ _).2 ⟨_, _, hnum, by decide, by decide⟩
  obtain ⟨hwrite, hback⟩ := hprint (-7) (by decide)
  obtain ⟨s, hs, -, hlen⟩ := hagain _ _ hseven
  exact ⟨hnum, hseven, hwrite, hback, s, hs, fun sign digits h => hlen _ _ _ _ hnum h⟩

end MxLang.Numeral
