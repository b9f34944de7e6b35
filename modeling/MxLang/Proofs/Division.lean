import MxLang.Proofs.Command

/-!
# Division toward zero

The machine divides by rounding the quotient toward zero, so the remainder has the sign of the
dividend.  `IsTruncated a b q r` says what that means without naming a way to compute it, and it
leaves no choice: for a divisor other than zero there is just one such quotient and one such
remainder (`isTruncated_iff`).  Rounding down and the Euclidean division satisfy it for some signs
only.

`Machine.divides_toward_zero` says that `quotient?` and `remainder?` give that pair, that the
quotient is the one of the magnitudes with the sign that the two numbers call for, and that the two
opcodes push these values and change nothing else.
-/

namespace MxLang

/-- The quotient `q` and the remainder `r` of a division of `a` by `b` toward zero: together they
give `a` back, the remainder is smaller than the divisor, and it is zero or has the sign of `a`. -/
structure IsTruncated (a b q r : Int) : Prop where
  dividend : a = b * q + r
  small : r.natAbs < b.natAbs
  sign : r = 0 ∨ r.sign = a.sign

section Division

variable {a b q r : Int}

/-- The sign of the remainder bounds it on one side by zero. -/
theorem IsTruncated.nonneg (h : IsTruncated a b q r) (ha : 0 ≤ a) : 0 ≤ r := by
  rcases h.sign with hr | hr
  · omega
  · rw [← Int.sign_nonneg_iff, hr, Int.sign_nonneg_iff]
    exact ha

theorem IsTruncated.nonpos (h : IsTruncated a b q r) (ha : a ≤ 0) : r ≤ 0 := by
  rcases h.sign with hr | hr
  · omega
  · rw [← Int.sign_nonpos_iff, hr, Int.sign_nonpos_iff]
    exact ha

/-- **There is one quotient and one remainder.** -/
theorem isTruncated_iff (hb : b ≠ 0) :
    IsTruncated a b q r ↔ a.tdiv b = q ∧ a.tmod b = r := by
  constructor
  · intro h
    have hdividend := h.dividend
    have hsmall := h.small
    -- The dividend decides on which side of zero the remainder lies.
    rcases Int.le_total 0 a with ha | ha
    · have hr := h.nonneg ha
      exact (Int.tdiv_tmod_unique ha hb).2 ⟨by omega, hr, by omega⟩
    · have hr := h.nonpos ha
      exact (Int.tdiv_tmod_unique' ha hb).2 ⟨by omega, by omega, hr⟩
  · rintro ⟨rfl, rfl⟩
    refine ⟨(Int.mul_tdiv_add_tmod a b).symm, ?_, ?_⟩
    · rw [Int.natAbs_tmod]
      exact Nat.mod_lt _ (Int.natAbs_pos.2 hb)
    · by_cases hdvd : b ∣ a
      · exact .inl (Int.tmod_eq_zero_of_dvd hdvd)
      · rw [Int.sign_tmod, if_neg hdvd]
        exact .inr rfl

theorem quotient?_of_ne_zero (a : Int) (hb : b ≠ 0) : quotient? a b = some (a.tdiv b) := by
  rw [quotient?, if_neg hb]

theorem remainder?_of_ne_zero (a : Int) (hb : b ≠ 0) : remainder? a b = some (a.tmod b) := by
  rw [remainder?, quotient?_of_ne_zero a hb, Option.map_some, Int.tmod_def]

/-- The quotient of two numbers is that of their magnitudes, negative if their signs differ. -/
theorem tdiv_eq_signed (a b : Int) :
    a.tdiv b = Numeral.signed (decide (a < 0) != decide (b < 0)) (a.natAbs / b.natAbs) := by
  have hnat : ∀ n : Nat, decide (Int.ofNat n < 0) = false :=
    fun n => decide_eq_false (Int.not_lt.2 (Int.natCast_nonneg n))
  have hneg : ∀ n : Nat, decide (Int.negSucc n < 0) = true :=
    fun n => decide_eq_true (Int.negSucc_lt_zero n)
  cases a with
  | ofNat m =>
    cases b with
    | ofNat n => rw [hnat, hnat]; rfl
    | negSucc n => rw [hnat, hneg]; rfl
  | negSucc m =>
    cases b with
    | ofNat n => rw [hneg, hnat]; rfl
    | negSucc n => rw [hneg, hneg]; rfl

end Division

namespace Machine

variable {m : Machine} {a b c : Int} {rest : List Int}

/-- A division that has a result replaces the two operands by it. -/
theorem divide_of_some {op : Opcode} {result : Int → Int → Option Int}
    (hstack : m.stack = a :: b :: rest) (hc : result a b = some c) :
    m.divide op result = done { m with stack := c :: rest } := by
  rw [divide, withTwo, hstack]
  simp only [hc, push]

/-- **The opcodes divide toward zero.**  For every dividend and every divisor but zero there is a
quotient and a remainder; they are the only numbers that the law of the division allows; and every
text that stands for one of the two opcodes, in every state with the dividend on top of the stack
and the divisor below it, succeeds and leaves the quotient or the remainder in their place, with
all else as it was. -/
theorem divides_toward_zero (a b : Int) (hb : b ≠ 0) :
    ∃ q r, quotient? a b = some q ∧ remainder? a b = some r ∧
      q = Numeral.signed (decide (a < 0) != decide (b < 0)) (a.natAbs / b.natAbs) ∧
      IsTruncated a b q r ∧ (∀ q' r', IsTruncated a b q' r' → q' = q ∧ r' = r) ∧
      ∀ (m : Machine) (rest : List Int) (code : Text), m.stack = a :: b :: rest →
        (Command.ofText code = .ok (.bare .div) →
          m.run code = done { m with stack := q :: rest }) ∧
        (Command.ofText code = .ok (.bare .mod) →
          m.run code = done { m with stack := r :: rest }) := by
  have hq := quotient?_of_ne_zero a hb
  have hr := remainder?_of_ne_zero a hb
  refine ⟨a.tdiv b, a.tmod b, hq, hr, tdiv_eq_signed a b, (isTruncated_iff hb).2 ⟨rfl, rfl⟩, ?_, ?_⟩
  · intro q' r' h
    obtain ⟨rfl, rfl⟩ := (isTruncated_iff hb).1 h
    exact ⟨rfl, rfl⟩
  · intro m rest code hstack
    constructor
    · intro hcode
      rw [run, hcode]
      exact divide_of_some hstack hq
    · intro hcode
      rw [run, hcode]
      exact divide_of_some hstack hr

/-- Minus seven by two, where rounding down and the Euclidean division give minus four and one. -/
theorem divides_toward_zero_negative :
    (2 : Int) ≠ 0 ∧ IsTruncated (-7) 2 (-3) (-1) ∧ ¬ IsTruncated (-7) 2 (-4) 1 ∧
      ({ stack := [-7, 2, 5] } : Machine).run Opcode.div.name = done { stack := [-3, 5] } ∧
      ({ stack := [-7, 2, 5] } : Machine).run Opcode.mod.name = done { stack := [-1, 5] } := by
  obtain ⟨q, r, hq, hr, -, hlaw, honly, hrun⟩ := divides_toward_zero (-7) 2 (by decide)
  obtain rfl : -3 = q := Option.some.inj ((by decide : some (-3) = quotient? (-7) 2).trans hq)
  obtain rfl : -1 = r := Option.some.inj ((by decide : some (-1) = remainder? (-7) 2).trans hr)
  have hdiv := (hrun { stack := [-7, 2, 5] } [5] Opcode.div.name rfl).1
  have hmod := (hrun { stack := [-7, 2, 5] } [5] Opcode.mod.name rfl).2
  have hother : ¬ IsTruncated (-7) 2 (-4) 1 := by
    intro h
    exact absurd (honly _ _ h).2 (by decide)
  have hname : ∀ op : Opcode, Command.ofText op.name = .ok (.bare op) := by
    intro op
    exact Command.ofText_text (c := .bare op) rfl
  exact ⟨by decide, hlaw, hother, hdiv (hname .div), hmod (hname .mod)⟩

end Machine

end MxLang
