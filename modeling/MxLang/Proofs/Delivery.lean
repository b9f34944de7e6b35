import MxLang.Proofs.Compile
import MxLang.Proofs.Reading
import MxLang.Proofs.Records

/-!
# What delivered records are read as

Records are delivered in three ways: a source is compiled to them, a zone is read, or a name server
is asked (`Delivered`).  Whichever it is, their priorities can be written: the compiler numbers its
instructions, what has been read from a zone has not too many digits, and a name server knows
preferences of 16 bits only.  So a clash of delivered records is always reported as one
(`ofRecords_sorted_or_clash`).
-/

namespace MxLang

/-! ### Priorities of delivered records -/

/-- The records of a compiled source, of a zone, or of a name server. -/
inductive Delivered (records : List Record) : Prop
  | compiled (ns : Text) (lines : List Text) (h : Source.compile ns lines = .ok records)
  | zone (domain : Option Text) (file t : Text) (h : Zone.records domain file t = .ok records)
  | server (h : ∀ r ∈ records, 0 ≤ r.priority ∧ r.priority < 65536)

theorem Record.isWritable_of_lt_capacity {r : Record} (h : 0 ≤ r.priority)
    (hlt : r.priority < Source.capacity) : Numeral.isWritable r.priority := by
  have hcap := Source.capacity_lt
  rw [Numeral.isWritable, decide_eq_true_eq]
  omega

theorem Source.isWritable_of_compile {ns : Text} {lines : List Text} {records : List Record}
    (h : compile ns lines = .ok records) : ∀ r ∈ records, Numeral.isWritable r.priority := by
  intro r hr
  obtain ⟨i, c, hi, rfl⟩ := exists_of_mem_compile h hr
  exact Record.isWritable_of_lt_capacity (Int.natCast_nonneg i) (Int.ofNat_lt.2 hi)

namespace Zone

variable {domain : Option Text} {file : Text}

theorem isWritable_of_exchange {s : Scope} {l : Logical} {data : List Text} {r : Record}
    (h : exchange s l file data = .ok r) : Numeral.isWritable r.priority := by
  unfold exchange at h
  split at h
  · split at h
    · split at h
      · rename_i hread
        obtain rfl := Except.ok.inj h
        exact Numeral.isWritable_of_readPreference hread
      · cases h
    · cases h
  · cases h

theorem isWritable_of_gives {s : Scope} {l : Logical} {c : LineContent} {new : List Record}
    (h : gives domain file s l c = .ok new) : ∀ r ∈ new, Numeral.isWritable r.priority := by
  unfold gives at h
  split at h
  · rename_i e
    split at h
    · cases hx : exchange (s.after (.entry e)) l file e.data with
      | error f =>
        rw [hx] at h
        cases h
      | ok r =>
        rw [hx] at h
        obtain rfl := Except.ok.inj h
        intro x hx'
        obtain rfl := List.mem_singleton.1 hx'
        exact isWritable_of_exchange hx
    · obtain rfl := Except.ok.inj h
      exact fun r hr => absurd hr List.not_mem_nil
  · obtain rfl := Except.ok.inj h
    exact fun r hr => absurd hr List.not_mem_nil

theorem isWritable_of_next {r r' : Reading} {l : Logical} (h : r.next domain file l = .ok r')
    (hr : ∀ x ∈ r.records, Numeral.isWritable x.priority) :
    ∀ x ∈ r'.records, Numeral.isWritable x.priority := by
  obtain ⟨c, new, -, hnew, rfl⟩ := Reading.next_eq_ok h
  intro x hx
  rcases List.mem_append.1 hx with hx | hx
  · exact isWritable_of_gives hnew x hx
  · exact hr x hx

theorem isWritable_of_foldlM {lines : List Logical} : ∀ {r r' : Reading},
    lines.foldlM (Reading.next domain file) r = .ok r' →
    (∀ x ∈ r.records, Numeral.isWritable x.priority) →
    ∀ x ∈ r'.records, Numeral.isWritable x.priority := by
  induction lines with
  | nil =>
    intro r r' h hr
    obtain rfl := Except.ok.inj h
    exact hr
  | cons l rest ih =>
    intro r r' h hr
    rw [List.foldlM_cons] at h
    cases hn : r.next domain file l with
    | error f =>
      rw [hn] at h
      cases h
    | ok r₁ =>
      rw [hn] at h
      exact ih h (isWritable_of_next hn hr)

theorem isWritable_of_records {t : Text} {rs : List Record} (h : records domain file t = .ok rs) :
    ∀ r ∈ rs, Numeral.isWritable r.priority := by
  unfold records at h
  split at h
  · cases h
  · rename_i r hr
    split at h
    · cases h
    · obtain rfl := Except.ok.inj h
      intro x hx
      exact isWritable_of_foldlM hr (fun x hx => absurd hx List.not_mem_nil) x
        (List.mem_reverse.1 hx)

end Zone

/-- **The priorities of delivered records can be written.** -/
theorem Delivered.isWritable {records : List Record} (h : Delivered records) :
    ∀ r ∈ records, Numeral.isWritable r.priority := by
  cases h with
  | compiled ns lines h => exact Source.isWritable_of_compile h
  | zone domain file t h => exact Zone.isWritable_of_records h
  | server h => exact fun r hr => Record.isWritable_of_lt_capacity (h r hr).1 (h r hr).2

/-! ### Programs and clashes -/

namespace Program

/-- **What the records of a domain are read as.**

They hold a program just when no priority occurs twice below the namespace.  The program then
consists of the lines of these records in strictly ascending order, and nothing else about the
records matters.  If a priority does occur twice, the report is about the least such priority and
names the first two records that have it.  That is so for all records that are delivered; of records
made up otherwise, a priority with too many digits to be written would be reported as such. -/
theorem ofRecords_sorted_or_clash (ns : Text) (records : List Record) :
    ((∃ p, ofRecords ns records = .ok p) ↔ ((below ns records).map (·.priority)).Nodup) ∧
    (∀ p, ofRecords ns records = .ok p ↔
      p.Pairwise (fun a b => a.priority < b.priority) ∧
        p.Perm ((below ns records).map (Record.line ns))) ∧
    (∀ p other, ofRecords ns records = .ok p → (below ns other).Perm (below ns records) →
      ofRecords ns other = .ok p) ∧
    (¬ ((below ns records).map (·.priority)).Nodup →
      ∃ n a b more, IsLeast {k | 1 < ((below ns records).map (·.priority)).count k} n ∧
        (below ns records).filter (fun r => decide (r.priority = n)) = a :: b :: more ∧
        (Delivered records → ofRecords ns records
          = .error (.fault (.duplicatePriority n [Host.decode ns a.host, Host.decode ns b.host]))) ∧
        ofRecords ns records = .error (if Numeral.isWritable n then
          .fault (.duplicatePriority n [Host.decode ns a.host, Host.decode ns b.host])
        else .numeral .tooLongToWrite)) := by
  refine ⟨⟨?_, fun h => ⟨_, ofRecords_of_nodup h⟩⟩, fun p => ofRecords_eq_ok_iff, ?_, ?_⟩
  · rintro ⟨p, hp⟩
    obtain ⟨hlt, hperm⟩ := ofRecords_eq_ok_iff.1 hp
    have hnodup : (p.map (·.priority)).Nodup := List.pairwise_map.2 (hlt.imp Int.ne_of_lt)
    rw [← map_priority_line ns]
    exact (hperm.map _).nodup_iff.1 hnodup
  · intro p other hp hother
    obtain ⟨hlt, hperm⟩ := ofRecords_eq_ok_iff.1 hp
    exact ofRecords_eq_ok_iff.2 ⟨hlt, hperm.trans (hother.map _).symm⟩
  · intro hdup
    cases hc : clash? (linesBelow ns records) with
    | none => exact absurd (nodup_of_none hc) hdup
    | some found =>
      obtain ⟨n, a, b, more, hleast, hfilter, herror⟩ := ofRecords_of_some hc
      refine ⟨n, a, b, more, hleast, hfilter, fun hdelivered => ?_, herror⟩
      have ha : a ∈ (below ns records).filter fun r => decide (r.priority = n) := by
        rw [hfilter]
        exact List.mem_cons_self
      obtain ⟨hbelow, hn⟩ := List.mem_filter.1 ha
      have hw := hdelivered.isWritable a (List.mem_filter.1 hbelow).1
      rw [of_decide_eq_true hn] at hw
      rw [herror, clashFailure, if_pos hw]

/-- A foreign record that shares a priority does no harm, and of two clashes the one at the smaller
priority is reported, though the other one comes first. -/
theorem ofRecords_sorted_or_clash_foreign :
    ofRecords "a.b".toList
        [⟨4, "print.a.b.".toList⟩, ⟨4, "mx.b.".toList⟩, ⟨0, "push-3.a.b.".toList⟩]
      = .ok [⟨0, "push 3".toList⟩, ⟨4, "print".toList⟩] ∧
    ∃ n a b more,
      IsLeast {k | 1 < ((below "a.b".toList [⟨5, "add.a.b.".toList⟩, ⟨5, "dup.a.b.".toList⟩,
        ⟨2, "sub.a.b.".toList⟩, ⟨2, "del.a.b.".toList⟩]).map (·.priority)).count k} n ∧
      (below "a.b".toList [⟨5, "add.a.b.".toList⟩, ⟨5, "dup.a.b.".toList⟩,
        ⟨2, "sub.a.b.".toList⟩, ⟨2, "del.a.b.".toList⟩]).filter (fun r => decide (r.priority = n))
        = a :: b :: more ∧
      ofRecords "a.b".toList [⟨5, "add.a.b.".toList⟩, ⟨5, "dup.a.b.".toList⟩,
        ⟨2, "sub.a.b.".toList⟩, ⟨2, "del.a.b.".toList⟩]
        = .error (.fault (.duplicatePriority n
            [Host.decode "a.b".toList a.host, Host.decode "a.b".toList b.host])) := by
  constructor
  · obtain ⟨-, hiff, -, -⟩ := ofRecords_sorted_or_clash "a.b".toList
      [⟨4, "print.a.b.".toList⟩, ⟨4, "mx.b.".toList⟩, ⟨0, "push-3.a.b.".toList⟩]
    exact (hiff _).2 ⟨by decide +kernel, by decide +kernel⟩
  · obtain ⟨-, -, -, hclash⟩ := ofRecords_sorted_or_clash "a.b".toList
      [⟨5, "add.a.b.".toList⟩, ⟨5, "dup.a.b.".toList⟩, ⟨2, "sub.a.b.".toList⟩,
        ⟨2, "del.a.b.".toList⟩]
    obtain ⟨n, a, b, more, hleast, hfilter, hreport, -⟩ := hclash (by decide +kernel)
    exact ⟨n, a, b, more, hleast, hfilter, hreport (.server (by decide))⟩

end Program

end MxLang
