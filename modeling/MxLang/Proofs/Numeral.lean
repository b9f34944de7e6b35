import Mathlib.Data.List.Basic
import Mathlib.Data.List.Induction
import Mathlib.Data.List.TakeWhile
import MxLang.Numeral

/-!
# Numerals read back

A numeral that is written can be read: as a literal of the language (`readLiteral_write`) and, for
a natural number, as the preference of a record (`readPreference_writeNat`).  Both rest on three
facts about `writeNat`: it gives ASCII digits, their value is the number, and there are no more of
them than the limit when the number is below its power of ten.

`IsLiteral t v` says in words of its own what a literal is.  The reader takes literals and nothing
else (`readLiteral_of_isLiteral`, `readLiteral_of_not_isLiteral`), up to the limit on their digits.
-/

namespace MxLang.Numeral

open MxLang.Text

/-! ### The digits of a natural number -/

theorem isAsciiDigit_of_isDigit {c : Char} (h : c.isDigit) : isAsciiDigit c := by
  simp only [Char.isDigit, Bool.and_eq_true, decide_eq_true_eq, ge_iff_le,
    UInt32.le_iff_toNat_le] at h
  simp only [isAsciiDigit, Bool.and_eq_true, decide_eq_true_eq]
  exact h

theorem isAsciiDigit_of_mem_writeNat {n : Nat} {c : Char} (h : c ∈ writeNat n) :
    isAsciiDigit c :=
  isAsciiDigit_of_isDigit (Nat.isDigit_of_mem_toDigits (by omega) (by omega) h)

theorem writeNat_ne_nil (n : Nat) : writeNat n ≠ [] :=
  Nat.toDigits_ne_nil

theorem asciiValue_writeNat (n : Nat) : asciiValue (writeNat n) = n := by
  have h := Nat.ofDigitChars_ten_toDigits (n := n)
  rw [Nat.ofDigitChars_eq_foldl] at h
  exact h

theorem bound_pos : 0 < bound := by
  have hpow : ∀ k, 0 < Nat.pow 10 k := fun k => Nat.pow_pos (by decide)
  unfold bound
  exact hpow _

theorem isWritable_zero : isWritable 0 = true :=
  decide_eq_true bound_pos

/-- A number has too many digits just if it is not below the power of ten for the limit. -/
theorem length_writeNat_le_iff {n : Nat} : (writeNat n).length ≤ digitLimit ↔ n < bound := by
  have hpow : ∀ k, 0 < k → ((Nat.toDigits 10 n).length ≤ k ↔ n < Nat.pow 10 k) :=
    fun k hk => Nat.length_toDigits_le_iff (by omega) hk
  unfold bound
  exact hpow _ (by decide)

/-! ### Literals -/

/-- A literal is an optional sign and one or more ASCII digits; `v` is its value. -/
def IsLiteral (t : Text) (v : Int) : Prop :=
  ∃ sign digits, t = sign ++ digits ∧ digits ≠ [] ∧ (∀ c ∈ digits, isAsciiDigit c) ∧
    (sign = ['-'] ∧ v = -(asciiValue digits : Int) ∨
      (sign = [] ∨ sign = ['+']) ∧ v = asciiValue digits)

theorem splitSign_spec (t : Text) :
    t = '-' :: (splitSign t).2 ∧ (splitSign t).1 = true ∨
      (t = (splitSign t).2 ∨ t = '+' :: (splitSign t).2) ∧ (splitSign t).1 = false := by
  unfold splitSign
  split
  · exact .inr ⟨.inr rfl, rfl⟩
  · exact .inl ⟨rfl, rfl⟩
  · exact .inr ⟨.inl rfl, rfl⟩

theorem splitSign_of_isAsciiDigit {c : Char} {t : Text} (h : isAsciiDigit c) :
    splitSign (c :: t) = (false, c :: t) := by
  unfold splitSign
  split
  · rename_i heq
    obtain ⟨rfl, -⟩ := List.cons.inj heq
    exact absurd h (by decide)
  · rename_i heq
    obtain ⟨rfl, -⟩ := List.cons.inj heq
    exact absurd h (by decide)
  · rfl

/-- A text is a literal if digits, and nothing else, are left of it without its sign. -/
theorem isLiteral_iff {t : Text} {v : Int} :
    IsLiteral t v ↔ (splitSign t).2 ≠ [] ∧ (∀ c ∈ (splitSign t).2, isAsciiDigit c) ∧
      v = signed (splitSign t).1 (asciiValue (splitSign t).2) := by
  constructor
  · rintro ⟨sign, digits, rfl, hne, hd, ⟨rfl, rfl⟩ | ⟨rfl | rfl, rfl⟩⟩
    · exact ⟨hne, hd, rfl⟩
    · cases digits with
      | nil => exact absurd rfl hne
      | cons c r =>
        rw [List.nil_append, splitSign_of_isAsciiDigit (hd c List.mem_cons_self)]
        exact ⟨hne, hd, rfl⟩
    · exact ⟨hne, hd, rfl⟩
  · rintro ⟨hne, hd, rfl⟩
    rcases splitSign_spec t with ⟨ht, hs⟩ | ⟨ht | ht, hs⟩
    · rw [hs]
      exact ⟨['-'], (splitSign t).2, ht, hne, hd, .inl ⟨rfl, rfl⟩⟩
    · rw [hs]
      exact ⟨[], (splitSign t).2, ht, hne, hd, .inr ⟨.inl rfl, rfl⟩⟩
    · rw [hs]
      exact ⟨['+'], (splitSign t).2, ht, hne, hd, .inr ⟨.inr rfl, rfl⟩⟩

/-- A text is a literal for at most one value. -/
theorem IsLiteral.unique {t : Text} {v w : Int} (hv : IsLiteral t v) (hw : IsLiteral t w) :
    v = w := by
  rw [(isLiteral_iff.1 hv).2.2, (isLiteral_iff.1 hw).2.2]

/-- A literal is read, unless it has too many digits. -/
theorem readLiteral_of_isLiteral {t : Text} {v : Int} (h : IsLiteral t v) :
    readLiteral t =
      if digitLimit < (splitSign t).2.length then
        .error (.tooLongToRead (splitSign t).2.length)
      else .ok (some v) := by
  obtain ⟨hne, hd, rfl⟩ := isLiteral_iff.1 h
  have hall : (splitSign t).2.all isAsciiDigit = true := List.all_eq_true.2 hd
  have hempty : (splitSign t).2.isEmpty = false := List.isEmpty_eq_false_iff.2 hne
  simp only [readLiteral, hall, hempty, Bool.not_true, Bool.or_false, Bool.false_eq_true, if_false]

theorem readLiteral_of_not_isLiteral {t : Text} (h : ∀ v, ¬ IsLiteral t v) :
    readLiteral t = .ok none := by
  have hbad : ((splitSign t).2.isEmpty || !(splitSign t).2.all isAsciiDigit) = true := by
    by_contra hgood
    simp only [Bool.or_eq_true, List.isEmpty_iff, Bool.not_eq_true', not_or, Bool.not_eq_false,
      List.all_eq_true] at hgood
    exact h _ (isLiteral_iff.2 ⟨hgood.1, hgood.2, rfl⟩)
  simp only [readLiteral, hbad, if_true]

/-- What the reader takes for a literal is one, and it gives its value. -/
theorem isLiteral_of_readLiteral {t : Text} {v : Int} (h : readLiteral t = .ok (some v)) :
    IsLiteral t v := by
  by_cases hlit : ∃ w, IsLiteral t w
  · obtain ⟨w, hw⟩ := hlit
    rw [readLiteral_of_isLiteral hw] at h
    split at h
    · cases h
    · cases h
      exact hw
  · rw [readLiteral_of_not_isLiteral (not_exists.1 hlit)] at h
    cases h

theorem decimalValue?_of_isAsciiDigit {c : Char} (h : isAsciiDigit c) :
    decimalValue? c = some (c.toNat - 0x30) := by
  simp only [isAsciiDigit, Bool.and_eq_true, decide_eq_true_eq] at h
  have hz : (decide (0x30 ≤ c.toNat) && decide (c.toNat < 0x30 + 10)) = true := by
    rw [Bool.and_eq_true, decide_eq_true_eq, decide_eq_true_eq]
    omega
  have hf : (decimalZeros.find? fun z => decide (z ≤ c.toNat) && decide (c.toNat < z + 10))
      = some 0x30 := by
    rw [show decimalZeros = 0x30 :: decimalZeros.tail from rfl]
    exact List.find?_cons_of_pos hz
  rw [decimalValue?, hf]
  rfl

theorem decimalValue?_getD_lt (c : Char) : (decimalValue? c).getD 0 < 10 := by
  unfold decimalValue?
  cases hf : decimalZeros.find? fun z => decide (z ≤ c.toNat) && decide (c.toNat < z + 10) with
  | none => exact Nat.zero_lt_succ 9
  | some z =>
    have hz := List.find?_some hf
    simp only [Bool.and_eq_true, decide_eq_true_eq] at hz
    show c.toNat - z < 10
    omega

/-- A numeral of `k` digits is less than ten to the `k`. -/
theorem value_lt (digits : Text) : value digits < Nat.pow 10 digits.length := by
  induction digits using List.reverseRecOn with
  | nil => exact Nat.one_pos
  | append_singleton digits c ih =>
    have hc := decimalValue?_getD_lt c
    have hvalue : value (digits ++ [c]) = 10 * value digits + (decimalValue? c).getD 0 := by
      rw [value, List.foldl_append]
      rfl
    have hpow : Nat.pow 10 (digits ++ [c]).length = Nat.pow 10 digits.length * 10 := by
      rw [List.length_append]
      rfl
    omega

theorem value_eq_asciiValue {digits : Text} (h : ∀ c ∈ digits, isAsciiDigit c) :
    value digits = asciiValue digits := by
  unfold value asciiValue
  refine List.foldl_ext _ _ _ fun n c hc => ?_
  rw [decimalValue?_of_isAsciiDigit (h c hc)]
  rfl

theorem asciiValue_lt {digits : Text} (h : ∀ c ∈ digits, isAsciiDigit c) :
    asciiValue digits < Nat.pow 10 digits.length := by
  rw [← value_eq_asciiValue h]
  exact value_lt digits

theorem natAbs_signed (negative : Bool) (n : Nat) : (signed negative n).natAbs = n := by
  cases negative with
  | true => exact (Int.natAbs_neg n).trans (Int.natAbs_natCast n)
  | false => exact Int.natAbs_natCast n

/-- A literal that can be read can be written. -/
theorem isWritable_of_isLiteral {t : Text} {v : Int} (h : IsLiteral t v)
    (hlen : (splitSign t).2.length ≤ digitLimit) : isWritable v := by
  obtain ⟨-, hd, rfl⟩ := isLiteral_iff.1 h
  have hlt : ∀ k, (splitSign t).2.length ≤ k → asciiValue (splitSign t).2 < Nat.pow 10 k :=
    fun k hk => Nat.lt_of_lt_of_le (asciiValue_lt hd) (Nat.pow_le_pow_right (by decide) hk)
  rw [isWritable, decide_eq_true_eq, natAbs_signed]
  unfold bound
  exact hlt _ hlen

/-- What has been read can be written. -/
theorem isWritable_of_readLiteral {t : Text} {v : Int} (h : readLiteral t = .ok (some v)) :
    isWritable v := by
  have hlit := isLiteral_of_readLiteral h
  apply isWritable_of_isLiteral hlit
  rw [readLiteral_of_isLiteral hlit] at h
  split at h
  · cases h
  · omega

/-- A literal fails to be read only over the number of its digits. -/
theorem readLiteral_eq_error {t : Text} {e : Error} (h : readLiteral t = .error e) :
    ∃ digits, e = .tooLongToRead digits := by
  unfold readLiteral at h
  dsimp only at h
  split at h
  · cases h
  · split at h
    · exact ⟨_, (Except.error.inj h).symm⟩
    · cases h

theorem splitSign_writeNat (n : Nat) : splitSign (writeNat n) = (false, writeNat n) := by
  cases hw : writeNat n with
  | nil => exact absurd hw (writeNat_ne_nil n)
  | cons c t =>
    exact splitSign_of_isAsciiDigit (isAsciiDigit_of_mem_writeNat (n := n) (by rw [hw]; simp))

theorem splitSign_write (v : Int) :
    splitSign (write v) = (decide (v < 0), writeNat v.natAbs) := by
  by_cases hv : v < 0
  · rw [write, if_pos hv, decide_eq_true hv]
    rfl
  · rw [write, if_neg hv, decide_eq_false hv, splitSign_writeNat]

theorem signed_natAbs (v : Int) : signed (decide (v < 0)) v.natAbs = v := by
  by_cases hv : v < 0
  · rw [signed, decide_eq_true hv, if_pos rfl]
    omega
  · rw [signed, decide_eq_false hv, if_neg (by decide)]
    omega

/-- **A written integer is read back.** -/
theorem readLiteral_write {v : Int} (h : isWritable v) : readLiteral (write v) = .ok (some v) := by
  have hlen : (writeNat v.natAbs).length ≤ digitLimit :=
    length_writeNat_le_iff.2 (by simpa only [isWritable, decide_eq_true_eq] using h)
  have hall : (writeNat v.natAbs).all isAsciiDigit = true :=
    List.all_eq_true.2 fun c hc => isAsciiDigit_of_mem_writeNat hc
  have hne : (writeNat v.natAbs).isEmpty = false := by
    rw [List.isEmpty_eq_false_iff]
    exact writeNat_ne_nil _
  simp only [readLiteral, splitSign_write, hne, hall, asciiValue_writeNat, signed_natAbs,
    Bool.not_true, Bool.or_false, Bool.false_eq_true, if_false, if_neg (Nat.not_lt.2 hlen)]

/-! ### Preferences -/

theorem isAnyDigit_of_isAsciiDigit {c : Char} (h : isAsciiDigit c) : isAnyDigit c := by
  rw [isAnyDigit, decimalValue?_of_isAsciiDigit h]
  rfl

/-- **A written natural number is read back as a preference.** -/
theorem readPreference_writeNat {n : Nat} (h : n < bound) :
    readPreference (writeNat n) = .ok n := by
  have hd : (writeNat n).takeWhile (fun c => (decimalValue? c).isSome) = writeNat n := by
    refine List.takeWhile_eq_self_iff.2 fun c hc => ?_
    rw [decimalValue?_of_isAsciiDigit (isAsciiDigit_of_mem_writeNat hc)]
    rfl
  have hv : value (writeNat n) = n := by
    rw [value_eq_asciiValue fun c hc => isAsciiDigit_of_mem_writeNat hc, asciiValue_writeNat]
  simp only [readPreference, hd, hv, if_neg (Nat.not_lt.2 (length_writeNat_le_iff.2 h)),
    if_neg (Nat.lt_irrefl _)]

/-- A preference that has been read can be written. -/
theorem isWritable_of_readPreference {t : Text} {n : Nat} (h : readPreference t = .ok n) :
    isWritable n := by
  have hlt : ∀ k, t.length ≤ k → value t < Nat.pow 10 k :=
    fun k hk => Nat.lt_of_lt_of_le (value_lt t) (Nat.pow_le_pow_right (by decide) hk)
  simp only [readPreference] at h
  split at h
  · cases h
  · rename_i hlong
    split at h
    · cases h
    · rename_i hall
      obtain rfl := Except.ok.inj h
      rw [isWritable, decide_eq_true_eq, Int.natAbs_natCast]
      unfold bound
      exact hlt _ (by omega)

/-- A preference that cannot be read has too many digits, or one that is not decimal. -/
theorem of_readPreference_eq_error {t : Text} {e : Error} (h : readPreference t = .error e) :
    digitLimit < t.length ∨ ∃ c ∈ t, decimalValue? c = none := by
  by_cases hdec : ∀ c ∈ t, (decimalValue? c).isSome
  · have hall : t.takeWhile (fun c => (decimalValue? c).isSome) = t :=
      List.takeWhile_eq_self_iff.2 hdec
    simp only [readPreference, hall, Nat.lt_irrefl, if_false] at h
    split at h
    · rename_i hlen
      exact .inl hlen
    · cases h
  · simp only [not_forall] at hdec
    obtain ⟨c, hc, hnone⟩ := hdec
    exact .inr ⟨c, hc, Option.not_isSome_iff_eq_none.1 hnone⟩

end MxLang.Numeral
