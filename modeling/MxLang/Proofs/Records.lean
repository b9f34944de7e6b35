import Mathlib.Data.List.Count
import Mathlib.Order.Bounds.Defs
import MxLang.Proofs.Numeral
import MxLang.Proofs.Program

/-!
# Which program records hold

Records below a namespace are the lines of one program, and all others are foreign to it.  If their
priorities are distinct the program is their lines in strictly ascending order, whatever else stands
between the records and however they are ordered (`ofRecords_eq_ok_iff`).  If not, the clash that is
reported lies at the least priority that occurs twice, and names the first two lines that claim it
(`ofRecords_of_some`).

The search for a clash runs over sorted lines.  Up to where it stops the priorities are strictly
ascending (`clash?_eq_some`), so no smaller one occurs twice, and since sorting is stable the two
lines it stops at are the first two of their priority.

The report writes the priority down.  One with too many digits cannot be written, and the clash is
then reported as that failure instead (`clashFailure`).
-/

namespace MxLang.Program

/-- The records below a namespace, in the order they came in. -/
def below (ns : Text) (records : List Record) : List Record :=
  records.filter fun r => Host.isBelow ns r.host

theorem linesBelow_eq (ns : Text) (records : List Record) :
    linesBelow ns records = sort ((below ns records).map (Record.line ns)) :=
  rfl

/-! ### Searching for a clash -/

theorem pairwise_of_clash?_eq_none : ∀ {lines : List Line},
    lines.Pairwise (fun a b => a.priority ≤ b.priority) → clash? lines = none →
    lines.Pairwise fun a b => a.priority < b.priority := by
  intro lines
  induction lines with
  | nil => intro _ _; exact .nil
  | cons a r ih =>
    intro hs hc
    obtain ⟨ha, hr⟩ := List.pairwise_cons.1 hs
    cases r with
    | nil => exact List.pairwise_singleton _ _
    | cons b t =>
      rw [clash?] at hc
      by_cases hab : a.priority = b.priority
      · rw [if_pos hab] at hc
        cases hc
      · rw [if_neg hab] at hc
        have hlt := ih hr hc
        refine List.pairwise_cons.2 ⟨fun l hl => ?_, hlt⟩
        have hle := ha b List.mem_cons_self
        rcases List.mem_cons.1 hl with rfl | hl
        · omega
        · have := (List.pairwise_cons.1 hlt).1 l hl
          omega

/-- The lines before a clash, and the first of the two that clash, hold no clash. -/
theorem clash?_eq_some : ∀ {lines : List Line} {a b : Line}, clash? lines = some (a, b) →
    ∃ front rest, lines = front ++ a :: b :: rest ∧ a.priority = b.priority ∧
      clash? (front ++ [a]) = none := by
  intro lines
  induction lines with
  | nil => intro a b h; cases h
  | cons x r ih =>
    intro a b h
    cases r with
    | nil => cases h
    | cons y t =>
      rw [clash?] at h
      by_cases hxy : x.priority = y.priority
      · rw [if_pos hxy] at h
        cases h
        exact ⟨[], t, rfl, hxy, rfl⟩
      · rw [if_neg hxy] at h
        obtain ⟨front, rest, heq, hab, hnone⟩ := ih h
        refine ⟨x :: front, rest, by rw [heq]; rfl, hab, ?_⟩
        -- The line after `x` is `y`, whether or not anything stands before the clash.
        obtain ⟨more, hmore⟩ : ∃ more, front ++ [a] = y :: more := by
          cases front with
          | nil => exact ⟨[], by rw [(List.cons.inj heq).1]; rfl⟩
          | cons z more => exact ⟨more ++ [a], by rw [(List.cons.inj heq).1]; rfl⟩
        rw [hmore] at hnone
        rw [List.cons_append, hmore, clash?, if_neg hxy, hnone]

/-! ### Lines of one priority -/

theorem filter_eq_nil_of_lt {lines : List Line} {n : Int} (h : ∀ l ∈ lines, l.priority < n) :
    lines.filter (fun l => decide (l.priority = n)) = [] := by
  refine List.filter_eq_nil_iff.2 fun l hl => ?_
  have := h l hl
  rw [decide_eq_true_eq]
  omega

theorem filter_eq_nil_of_gt {lines : List Line} {n : Int} (h : ∀ l ∈ lines, n < l.priority) :
    lines.filter (fun l => decide (l.priority = n)) = [] := by
  refine List.filter_eq_nil_iff.2 fun l hl => ?_
  have := h l hl
  rw [decide_eq_true_eq]
  omega

theorem length_filter_le_one {lines : List Line} (n : Int)
    (h : lines.Pairwise fun a b => a.priority < b.priority) :
    (lines.filter fun l => decide (l.priority = n)).length ≤ 1 := by
  have hnodup : (lines.map (·.priority)).Nodup := List.pairwise_map.2 (h.imp Int.ne_of_lt)
  have hcount : (lines.map (·.priority)).count n
      = (lines.filter fun l => decide (l.priority = n)).length := by
    rw [List.count, List.countP_map, List.countP_eq_length_filter]
    rfl
  rw [← hcount]
  exact List.nodup_iff_count_le_one.1 hnodup n

section Clash

variable {lines front rest : List Line} {a b : Line}

/-- At the first clash of sorted lines stand the first two lines of their priority. -/
theorem filter_of_clash (hsorted : sort lines = front ++ a :: b :: rest)
    (hab : a.priority = b.priority)
    (hfront : (front ++ [a]).Pairwise fun a b => a.priority < b.priority) :
    ∃ more, lines.filter (fun l => decide (l.priority = a.priority)) = a :: b :: more := by
  have hlt : ∀ l ∈ front, l.priority < a.priority := fun l hl =>
    (List.pairwise_append.1 hfront).2.2 l hl a (List.mem_singleton.2 rfl)
  refine ⟨rest.filter fun l => decide (l.priority = a.priority), ?_⟩
  rw [← filter_sort, hsorted, List.filter_append, filter_eq_nil_of_lt hlt, List.nil_append,
    List.filter_cons_of_pos (by simp), List.filter_cons_of_pos (by simp [hab])]

/-- Below the first clash of sorted lines no priority occurs twice. -/
theorem length_filter_of_lt_clash (hsorted : sort lines = front ++ a :: b :: rest)
    (hab : a.priority = b.priority)
    (hfront : (front ++ [a]).Pairwise fun a b => a.priority < b.priority) {n : Int}
    (hn : n < a.priority) : (lines.filter fun l => decide (l.priority = n)).length ≤ 1 := by
  have hle := pairwise_sort lines
  have hsplit : sort lines = (front ++ [a]) ++ b :: rest := by
    rw [hsorted, List.append_assoc, List.singleton_append]
  rw [hsplit] at hle
  have hgt : ∀ l ∈ b :: rest, n < l.priority := by
    intro l hl
    have := (List.pairwise_append.1 hle).2.2 a (by simp) l hl
    omega
  rw [← filter_sort, hsplit, List.filter_append, filter_eq_nil_of_gt hgt, List.append_nil]
  exact length_filter_le_one n hfront

end Clash

/-! ### Reading the records below a namespace -/

variable {ns : Text} {records : List Record}

theorem map_priority_line (ns : Text) (records : List Record) :
    (records.map (Record.line ns)).map (·.priority) = records.map (·.priority) := by
  rw [List.map_map]
  rfl

theorem filter_map_line (n : Int) :
    (records.map (Record.line ns)).filter (fun l => decide (l.priority = n))
      = (records.filter fun r => decide (r.priority = n)).map (Record.line ns) := by
  rw [List.filter_map]
  rfl

theorem count_priority (n : Int) :
    (records.map (·.priority)).count n
      = (records.filter fun r => decide (r.priority = n)).length := by
  rw [List.count, List.countP_map, List.countP_eq_length_filter]
  rfl

/-- What is reported for a clash of two records at a priority. -/
def clashFailure (ns : Text) (n : Int) (a b : Record) : Failure :=
  if Numeral.isWritable n then
    .fault (.duplicatePriority n [Host.decode ns a.host, Host.decode ns b.host])
  else .numeral .tooLongToWrite

theorem ofRecords_of_none (h : clash? (linesBelow ns records) = none) :
    ofRecords ns records = .ok (linesBelow ns records) := by
  rw [ofRecords, h]

theorem nodup_of_none (h : clash? (linesBelow ns records) = none) :
    ((below ns records).map (·.priority)).Nodup := by
  have hlt := pairwise_of_clash?_eq_none (pairwise_sort _) h
  have hnodup : ((linesBelow ns records).map (·.priority)).Nodup :=
    List.pairwise_map.2 (hlt.imp Int.ne_of_lt)
  rw [← map_priority_line ns]
  exact ((sort_perm _).map _).nodup_iff.1 hnodup

/-- **A clash is reported at the least priority that occurs twice**, with its first two records. -/
theorem ofRecords_of_some {x y : Line} (h : clash? (linesBelow ns records) = some (x, y)) :
    ∃ n a b more, IsLeast {k | 1 < ((below ns records).map (·.priority)).count k} n ∧
      (below ns records).filter (fun r => decide (r.priority = n)) = a :: b :: more ∧
      ofRecords ns records = .error (clashFailure ns n a b) := by
  obtain ⟨front, rest, hsorted, hxy, hnone⟩ := clash?_eq_some h
  rw [linesBelow_eq] at hsorted
  have hle : (front ++ [x]).Pairwise fun a b => a.priority ≤ b.priority := by
    have hs := pairwise_sort ((below ns records).map (Record.line ns))
    rw [hsorted, List.append_cons] at hs
    exact (List.pairwise_append.1 hs).1
  have hfront := pairwise_of_clash?_eq_none hle hnone
  obtain ⟨more, hfilter⟩ := filter_of_clash hsorted hxy hfront
  rw [filter_map_line] at hfilter
  obtain ⟨a, tail, hrecords, rfl, htail⟩ := List.map_eq_cons_iff.1 hfilter
  obtain ⟨b, others, rfl, rfl, -⟩ := List.map_eq_cons_iff.1 htail
  refine ⟨a.priority, a, b, others, ⟨?_, ?_⟩, hrecords, ?_⟩
  · have htwo : (a :: b :: others).length = others.length + 2 := rfl
    have hcount : ((below ns records).map (·.priority)).count a.priority
        = (a :: b :: others).length := (count_priority a.priority).trans (congrArg _ hrecords)
    rw [htwo] at hcount
    show 1 < List.count _ _
    omega
  · intro k hk
    by_contra hlt
    have hone := length_filter_of_lt_clash hsorted hxy hfront (Int.not_le.1 hlt)
    rw [filter_map_line, List.length_map, ← count_priority] at hone
    exact absurd hk (Nat.not_lt.2 hone)
  · rw [ofRecords, h, clashFailure]
    show (if Numeral.isWritable a.priority then _ else _) = _
    by_cases hw : Numeral.isWritable a.priority
    · rw [if_pos hw, if_pos hw]
      rfl
    · rw [if_neg hw, if_neg hw]

theorem not_nodup_of_isLeast {n : Int}
    (h : IsLeast {k | 1 < ((below ns records).map (·.priority)).count k} n) :
    ¬ ((below ns records).map (·.priority)).Nodup := by
  intro hnodup
  have hone := List.nodup_iff_count_le_one.1 hnodup n
  exact absurd h.1 (Nat.not_lt.2 hone)

/-- Records are read without a clash just when their priorities are distinct. -/
theorem clash?_linesBelow_eq_none_iff :
    clash? (linesBelow ns records) = none ↔ ((below ns records).map (·.priority)).Nodup := by
  refine ⟨nodup_of_none, fun hnodup => ?_⟩
  cases h : clash? (linesBelow ns records) with
  | none => rfl
  | some found =>
    obtain ⟨n, -, -, -, hleast, -, -⟩ := ofRecords_of_some h
    exact absurd hnodup (not_nodup_of_isLeast hleast)

theorem ofRecords_of_nodup (h : ((below ns records).map (·.priority)).Nodup) :
    ofRecords ns records = .ok (linesBelow ns records) :=
  ofRecords_of_none (clash?_linesBelow_eq_none_iff.2 h)

/-- The lines of records of distinct priorities in strictly ascending order are the program. -/
theorem ofRecords_eq_ok_iff {p : List Line} :
    ofRecords ns records = .ok p ↔
      p.Pairwise (fun a b => a.priority < b.priority) ∧
        p.Perm ((below ns records).map (Record.line ns)) := by
  constructor
  · intro h
    cases hc : clash? (linesBelow ns records) with
    | none =>
      rw [ofRecords_of_none hc] at h
      obtain rfl := Except.ok.inj h
      exact ⟨pairwise_of_clash?_eq_none (pairwise_sort _) hc, sort_perm _⟩
    | some found =>
      obtain ⟨n, a, b, more, -, -, herror⟩ := ofRecords_of_some hc
      rw [herror] at h
      cases h
  · rintro ⟨hlt, hperm⟩
    have hlines : linesBelow ns records = p := sort_eq_of_perm hperm.symm hlt
    rw [ofRecords_of_none (by rw [hlines]; exact clash?_eq_none hlt), hlines]

end MxLang.Program
