import Mathlib.Data.List.TakeWhile
import MxLang.Proofs.ZoneLine

/-!
# How a record stands on its line

A record is an owner, a gap, perhaps a time to live and perhaps a class, each with a gap after it,
the type, and the rest of the line, which the data are taken from.  A `Layout` is a line cut into
these parts, with what has to hold where one part ends and the next begins.  The last of its
conditions is the one that does not follow from the shape of a part: a type without a class before
it may be the name of a class only if no gap follows it, for otherwise it would be the class.

`Layout.content_text` says what is read from a layout.  `parseLine_eq_entry_iff` says that a line
is read as a record exactly if there is a layout of it whose data end where the line does, up to
blanks and a comment.
-/

namespace MxLang.Zone

open Text

/-! ### What a recogniser has taken -/

theorem run?_eq_some {p : Char → Bool} {t s rest : Text} (h : run? p t = some (s, rest)) :
    IsRun p s ∧ t = s ++ rest ∧ Stops p rest := by
  unfold run? at h
  split at h
  · cases h
  · rename_i hne
    cases h
    refine ⟨⟨hne, fun c hc => List.mem_takeWhile_imp hc⟩, List.takeWhile_append_dropWhile.symm,
      fun c hc => ?_⟩
    have := List.head?_dropWhile_not p t
    rw [Option.mem_def.1 hc] at this
    simpa using this

theorem afterGap?_eq_some {t rest : Text} (h : afterGap? t = some rest) :
    ∃ g, IsRun isGap g ∧ t = g ++ rest ∧ Stops isGap rest := by
  obtain ⟨⟨g, r⟩, hr, rfl⟩ := Option.map_eq_some_iff.1 h
  exact ⟨g, run?_eq_some hr⟩

theorem afterGap?_eq_none_iff {t : Text} : afterGap? t = none ↔ Stops isGap t := by
  rw [afterGap?, Option.map_eq_none_iff, run?]
  cases t with
  | nil => exact ⟨fun _ => stops_nil _, fun _ => rfl⟩
  | cons c r => by_cases hc : isGap c <;> simp [stops_cons, hc]

/-- An optional part is there with a gap after it, or no gap follows what could be the part. -/
theorem optional_cases {part : Text → Option (Text × Text)} {t rest : Text} {o : Option Text}
    (h : optional part t = (o, rest)) :
    (∃ s g, o = some s ∧ part t = some (s, g ++ rest) ∧ IsRun isGap g) ∨
      o = none ∧ rest = t ∧ ∀ s r, part t = some (s, r) → Stops isGap r := by
  unfold optional at h
  split at h
  · rename_i hp
    cases h
    exact .inr ⟨rfl, rfl, fun s r hs => by rw [hp] at hs; cases hs⟩
  · rename_i s r hp
    split at h
    · rename_i rest hr
      cases h
      obtain ⟨g, hg, rfl, -⟩ := afterGap?_eq_some hr
      exact .inl ⟨s, g, rfl, hp, hg⟩
    · rename_i hr
      cases h
      refine .inr ⟨rfl, rfl, fun s' r' hs => ?_⟩
      rw [hp] at hs
      cases hs
      exact afterGap?_eq_none_iff.1 hr

theorem optional_eq_none_of_stops {part : Text → Option (Text × Text)} {t : Text}
    (h : ∀ s r, part t = some (s, r) → Stops isGap r) : optional part t = (none, t) := by
  cases hp : part t with
  | none => exact optional_eq_none hp
  | some q =>
    rw [optional, hp]
    simp only [afterGap?_eq_none_iff.2 (h q.1 q.2 hp)]

/-! ### Letters, digits and gaps -/

theorem isLetter_iff {c : Char} :
    isLetter c ↔ 97 ≤ c.toNat ∧ c.toNat ≤ 122 ∨ 65 ≤ c.toNat ∧ c.toNat ≤ 90 := by
  simp only [isLetter, Bool.or_eq_true, Bool.and_eq_true, decide_eq_true_eq, Char.le_def,
    UInt32.le_iff_toNat_le]
  rfl

theorem isAsciiDigit_iff {c : Char} : isAsciiDigit c ↔ 48 ≤ c.toNat ∧ c.toNat ≤ 57 := by
  rw [isAsciiDigit, Bool.and_eq_true, decide_eq_true_eq, decide_eq_true_eq]

theorem isAsciiDigit_of_isLetter {c : Char} (h : isLetter c) : isAsciiDigit c = false := by
  rw [isLetter_iff] at h
  rw [Bool.eq_false_iff, ne_eq, isAsciiDigit_iff]
  omega

/-- Letters and digits are characters of words. -/
theorem isWordChar_of_alphanumeric {c : Char} (h : isLetter c || isAsciiDigit c) :
    isWordChar c := by
  rw [Bool.or_eq_true, isLetter_iff, isAsciiDigit_iff] at h
  have hspace : isSpace c = false := by
    unfold isSpace
    simp only [Bool.or_eq_false_iff, Bool.and_eq_false_iff, decide_eq_false_iff_not]
    omega
  have hsemicolon : c ≠ ';' := by
    rintro rfl
    revert h
    decide
  have hquote : c ≠ '"' := by
    rintro rfl
    revert h
    decide
  simp [isWordChar, hspace, hsemicolon, hquote]

theorem alphanumeric_of_isGap {c : Char} (h : isGap c) :
    (isLetter c || isAsciiDigit c) = false := by
  rw [isGap_iff] at h
  rcases h with rfl | rfl <;> decide

/-! ### Times to live -/

/-- A time to live as written: digits and at most one unit letter. -/
def IsTtl (s : Text) : Prop :=
  ∃ digits unit, s = digits ++ unit ∧ IsRun isAsciiDigit digits ∧
    (unit = [] ∨ ∃ c ∈ "smhdwSMHDW".toList, unit = [c])

theorem IsRun.head {p : Char → Bool} {s : Text} (h : IsRun p s) : ∃ c r, s = c :: r ∧ p c := by
  obtain ⟨hne, hall⟩ := h
  cases s with
  | nil => exact absurd rfl hne
  | cons c r => exact ⟨c, r, rfl, hall c List.mem_cons_self⟩

theorem ttl?_append {s g t : Text} (hs : IsTtl s) (hg : IsRun isGap g) :
    ttl? (s ++ (g ++ t)) = some (s, g ++ t) := by
  obtain ⟨digits, unit, rfl, hd, hu⟩ := hs
  obtain ⟨c, r, rfl, hc⟩ := hg.head
  rcases hu with rfl | ⟨u, hu, rfl⟩
  · have hstop : Stops isAsciiDigit (c :: (r ++ t)) :=
      stops_cons.2 (Bool.or_eq_false_iff.1 (alphanumeric_of_isGap hc)).2
    have hunit : "smhdwSMHDW".toList.contains c = false := by
      rw [isGap_iff] at hc
      rcases hc with rfl | rfl <;> decide
    rw [List.append_nil, List.cons_append, ttl?, run?_append hd hstop]
    simp only [hunit, Bool.false_eq_true, if_false]
  · have hunits : ∀ u ∈ "smhdwSMHDW".toList, (!isAsciiDigit u) = true :=
      List.all_eq_true.1 (by decide)
    have hstop : Stops isAsciiDigit (u :: (c :: r ++ t)) :=
      stops_cons.2 (Bool.not_eq_eq_eq_not.1 (hunits u hu))
    rw [List.append_assoc, List.singleton_append, ttl?, run?_append hd hstop]
    simp only [List.contains_iff_mem.2 hu, if_true]

theorem ttl?_eq_some {t s rest : Text} (h : ttl? t = some (s, rest)) : IsTtl s ∧ t = s ++ rest := by
  unfold ttl? at h
  split at h
  · cases h
  · rename_i digits c r hr
    obtain ⟨hd, ht, -⟩ := run?_eq_some hr
    split at h
    · rename_i hu
      cases h
      refine ⟨⟨digits, [c], rfl, hd, .inr ⟨c, List.contains_iff_mem.1 hu, rfl⟩⟩, ?_⟩
      rw [ht, List.append_assoc, List.singleton_append]
    · cases h
      exact ⟨⟨s, [], (List.append_nil _).symm, hd, .inl rfl⟩, ht⟩
  · rename_i digits hr
    obtain ⟨hd, ht, -⟩ := run?_eq_some hr
    cases h
    exact ⟨⟨s, [], (List.append_nil _).symm, hd, .inl rfl⟩, ht⟩

theorem ttl?_eq_none {t : Text} (h : Stops isAsciiDigit t) : ttl? t = none := by
  cases t with
  | nil => rfl
  | cons c r =>
    have hrun : run? isAsciiDigit (c :: r) = none := by
      rw [run?, List.takeWhile_cons_of_neg (by rw [stops_cons.1 h]; decide), if_pos rfl]
    rw [ttl?, hrun]

/-! ### Classes and types -/

theorem class?_append {s : Text} (hs : s ∈ classes) (t : Text) : class? (s ++ t) = some (s, t) := by
  simp only [classes, List.mem_cons, List.not_mem_nil, or_false] at hs
  rcases hs with rfl | rfl | rfl | rfl <;> rfl

theorem class?_eq_some {t s rest : Text} (h : class? t = some (s, rest)) :
    s ∈ classes ∧ t = s ++ rest := by
  obtain ⟨k, hk, hq⟩ := Option.map_eq_some_iff.1 h
  obtain ⟨rfl, rfl⟩ := Prod.mk.inj hq
  have hstart := List.find?_some hk
  obtain ⟨r, rfl⟩ := List.isPrefixOf_iff_prefix.1 hstart
  exact ⟨List.mem_of_find?_eq_some hk, by rw [List.drop_left]⟩

theorem type?_eq_some {t s rest : Text} (h : type? t = some (s, rest)) :
    IsTypeName s ∧ t = s ++ rest ∧ Stops (fun c => isLetter c || isAsciiDigit c) rest := by
  cases t with
  | nil => cases h
  | cons c r =>
    rw [type?] at h
    split at h
    · rename_i hc
      cases h
      refine ⟨⟨c, _, rfl, hc, fun d hd => ?_⟩, ?_, fun d hd => ?_⟩
      · have := List.mem_takeWhile_imp hd
        exact this
      · rw [List.cons_append, List.takeWhile_append_dropWhile]
      · have := List.head?_dropWhile_not (fun c => isLetter c || isAsciiDigit c) r
        rw [Option.mem_def.1 hd] at this
        simpa using this
    · cases h

/-- Every class is two capitals. -/
theorem eq_pair_of_mem_classes {s : Text} (h : s ∈ classes) :
    ∃ a b, s = [a, b] ∧ isLetter a ∧ isLetter b := by
  simp only [classes, List.mem_cons, List.not_mem_nil, or_false] at h
  rcases h with rfl | rfl | rfl | rfl <;> exact ⟨_, _, rfl, by decide, by decide⟩

theorem isTypeName_of_mem_classes {s : Text} (h : s ∈ classes) : IsTypeName s := by
  obtain ⟨a, b, rfl, ha, hb⟩ := eq_pair_of_mem_classes h
  refine ⟨a, [b], rfl, ha, fun d hd => ?_⟩
  obtain rfl := List.mem_singleton.1 hd
  rw [hb, Bool.true_or]

/-- A type is not taken for a class, unless it is the name of one and a gap follows it. -/
theorem optional_class?_of_type {s t : Text} (hs : IsTypeName s)
    (ht : Stops (fun c => isLetter c || isAsciiDigit c) t) (hclass : s ∈ classes → Stops isGap t) :
    optional class? (s ++ t) = (none, s ++ t) := by
  refine optional_eq_none_of_stops fun k r hk => ?_
  obtain ⟨hmem, heq⟩ := class?_eq_some hk
  obtain ⟨a, b, rfl, -, hb⟩ := eq_pair_of_mem_classes hmem
  obtain ⟨c, s, rfl, -, hall⟩ := hs
  -- The class is two characters; the type is shorter than that, or the class itself, or longer.
  obtain ⟨rfl, htail⟩ := List.cons.inj heq
  clear heq hk
  match s, htail with
  | [], htail =>
    obtain rfl : t = b :: r := htail
    have := stops_cons.1 ht
    rw [hb, Bool.true_or] at this
    cases this
  | [d], htail =>
    obtain ⟨rfl, rfl⟩ := List.cons.inj htail
    exact hclass hmem
  | d :: e :: s, htail =>
    obtain ⟨-, rfl⟩ := List.cons.inj htail
    exact stops_cons.2 (isGap_of_isWordChar (isWordChar_of_alphanumeric (hall e (by simp))))

/-! ### Layouts -/

/-- A record line cut into its parts.  A time to live and a class stand with the gap after them. -/
structure Layout where
  owner : Text
  gap : Text
  ttl : Option (Text × Text)
  cls : Option (Text × Text)
  type : Text
  /-- The data and what follows them. -/
  rest : Text
  owner_word : ∀ c ∈ owner, isWordChar c
  /-- The line does not start like a directive. -/
  owner_plain : ∀ c r, owner = '$' :: c :: r → isLetter c = false
  gap_run : IsRun isGap gap
  ttl_read : ∀ q ∈ ttl, IsTtl q.1 ∧ IsRun isGap q.2
  cls_read : ∀ q ∈ cls, q.1 ∈ classes ∧ IsRun isGap q.2
  type_name : IsTypeName type
  type_ends : Stops (fun c => isLetter c || isAsciiDigit c) rest
  /-- The type is not taken for a class. -/
  type_alone : cls = none → type ∈ classes → Stops isGap rest

/-- A part and the gap after it, if the part is there. -/
def spaced : Option (Text × Text) → Text
  | none => []
  | some (s, g) => s ++ g

namespace Layout

/-- The line. -/
def text (p : Layout) : Text :=
  p.owner ++ (p.gap ++ (spaced p.ttl ++ (spaced p.cls ++ (p.type ++ p.rest))))

/-- The record on the line. -/
def entry (p : Layout) : Entry :=
  ⟨p.owner, p.ttl.map Prod.fst, p.cls.map Prod.fst, p.type.map capital, (items item? p.rest).1⟩

/-- From the class or the type on the line goes on with a letter. -/
theorem letter_after_ttl (p : Layout) :
    ∃ c r, spaced p.cls ++ (p.type ++ p.rest) = c :: r ∧ isLetter c := by
  cases hcls : p.cls with
  | none =>
    obtain ⟨c, r, htype, hc, -⟩ := p.type_name
    exact ⟨c, r ++ p.rest, by rw [htype]; rfl, hc⟩
  | some q =>
    obtain ⟨a, b, hq, ha, -⟩ := eq_pair_of_mem_classes (p.cls_read q hcls).1
    exact ⟨a, _, by rw [spaced, hq]; rfl, ha⟩

theorem stops_gap_after_ttl (p : Layout) : Stops isGap (spaced p.cls ++ (p.type ++ p.rest)) := by
  obtain ⟨c, r, heq, hc⟩ := p.letter_after_ttl
  rw [heq, stops_cons]
  exact isGap_of_isWordChar (isWordChar_of_alphanumeric (by rw [hc, Bool.true_or]))

theorem optional_class? (p : Layout) :
    optional class? (spaced p.cls ++ (p.type ++ p.rest))
      = (p.cls.map Prod.fst, p.type ++ p.rest) := by
  cases hcls : p.cls with
  | none =>
    rw [spaced, List.nil_append]
    exact optional_class?_of_type p.type_name p.type_ends (p.type_alone hcls)
  | some q =>
    obtain ⟨hmem, hgap⟩ := p.cls_read q hcls
    rw [spaced, List.append_assoc]
    exact optional_eq_some (class?_append hmem _) hgap p.type_name.stops_gap

theorem optional_ttl? (p : Layout) :
    optional ttl? (spaced p.ttl ++ (spaced p.cls ++ (p.type ++ p.rest)))
      = (p.ttl.map Prod.fst, spaced p.cls ++ (p.type ++ p.rest)) := by
  cases httl : p.ttl with
  | none =>
    obtain ⟨c, r, heq, hc⟩ := p.letter_after_ttl
    refine optional_eq_none (ttl?_eq_none ?_)
    rw [spaced, List.nil_append, heq]
    exact stops_cons.2 (isAsciiDigit_of_isLetter hc)
  | some q =>
    obtain ⟨hread, hgap⟩ := p.ttl_read q httl
    rw [spaced, List.append_assoc]
    exact optional_eq_some (ttl?_append hread hgap) hgap p.stops_gap_after_ttl

theorem stops_gap_after_gap (p : Layout) :
    Stops isGap (spaced p.ttl ++ (spaced p.cls ++ (p.type ++ p.rest))) := by
  cases httl : p.ttl with
  | none => exact p.stops_gap_after_ttl
  | some q =>
    obtain ⟨⟨digits, unit, hq, hd, -⟩, -⟩ := p.ttl_read q httl
    obtain ⟨c, r, rfl, hc⟩ := hd.head
    rw [spaced, hq]
    refine stops_cons.2 (isGap_of_isWordChar (isWordChar_of_alphanumeric ?_))
    rw [hc, Bool.or_true]

theorem entry?_text (p : Layout) :
    entry? p.text = some (.entry p.entry, (items item? p.rest).2) :=
  entry?_of_parts p.owner_word p.gap_run p.stops_gap_after_gap p.optional_ttl? p.optional_class?
    (type?_append p.type_name p.type_ends) rfl

end Layout

/-! ### Lines that are read as records -/

/-- A line starts like a directive if a letter follows a dollar sign. -/
theorem directive?_eq_none_iff {t : Text} :
    directive? t = none ↔ ∀ c r, t = '$' :: c :: r → isLetter c = false := by
  unfold directive?
  split
  · rename_i t
    cases t with
    | nil =>
      refine ⟨fun _ c r h => ?_, fun _ => rfl⟩
      cases h
    | cons d u =>
      by_cases hd : isLetter d
      · refine ⟨fun h => ?_, fun h => absurd hd (by rw [h d u rfl]; decide)⟩
        rw [run?, List.takeWhile_cons_of_pos hd, if_neg (List.cons_ne_nil _ _)] at h
        cases h
      · refine ⟨fun _ c r h => ?_, fun _ => ?_⟩
        · cases h
          exact Bool.eq_false_iff.2 hd
        · rw [run?, List.takeWhile_cons_of_neg hd, if_pos rfl]
  · rename_i hne
    exact ⟨fun _ c r h => absurd h (hne _), fun _ => rfl⟩

theorem Layout.directive?_text (p : Layout) : directive? p.text = none := by
  refine directive?_eq_none_iff.2 fun c r h => ?_
  obtain ⟨d, g, hgap, hd⟩ := p.gap_run.head
  rw [text, hgap] at h
  -- The dollar sign is the whole owner, and then a gap follows it, or it is followed in the owner.
  match howner : p.owner with
  | [] =>
    rw [howner] at h
    obtain ⟨rfl, -⟩ := List.cons.inj h
    exact absurd hd (by decide)
  | [e] =>
    rw [howner] at h
    obtain ⟨-, htail⟩ := List.cons.inj h
    obtain ⟨rfl, -⟩ := List.cons.inj htail
    exact (Bool.or_eq_false_iff.1 (alphanumeric_of_isGap hd)).1
  | e :: f :: o =>
    rw [howner] at h
    cases h
    exact p.owner_plain c o howner

/-- **What is read from a layout** is its record; what follows the data is left over. -/
theorem Layout.content_text (p : Layout) :
    content p.text = (.entry p.entry, (items item? p.rest).2) := by
  simp only [content, p.directive?_text, p.entry?_text]

theorem parseLine_eq_ok_iff {t : Text} {c : LineContent} :
    parseLine t = .ok c ↔ (content t).1 = c ∧ afterComment (content t).2 = [] := by
  unfold parseLine
  dsimp only
  split
  · rename_i hend
    rw [Except.ok.injEq, and_iff_left hend]
  · rename_i hend
    refine ⟨fun h => ?_, fun h => absurd h.2 hend⟩
    cases h

/-- A text that starts with a record, and not like a directive, is laid out in parts. -/
theorem exists_layout_of_entry? {t : Text} {q : LineContent × Text} (hd : directive? t = none)
    (h : entry? t = some q) : ∃ p : Layout, p.text = t := by
  unfold entry? at h
  dsimp only at h
  split at h
  · cases h
  rename_i rest hgap
  obtain ⟨g, hg, hrest, -⟩ := afterGap?_eq_some hgap
  generalize httl : optional ttl? rest = a at h
  generalize hcls : optional class? a.2 = b at h
  obtain ⟨ttl, rest₁⟩ := a
  obtain ⟨cls, rest₂⟩ := b
  dsimp only at hcls h
  split at h
  · cases h
  rename_i type rest₃ htype
  obtain ⟨hname, rfl, hends⟩ := type?_eq_some htype
  have howner : ∀ c ∈ t.takeWhile isWordChar, isWordChar c := fun c hc => List.mem_takeWhile_imp hc
  have htext : t.takeWhile isWordChar ++ (g ++ rest) = t := by
    rw [← hrest, List.takeWhile_append_dropWhile]
  have hplain : ∀ c r, t.takeWhile isWordChar = '$' :: c :: r → isLetter c = false := by
    intro c r hw
    refine directive?_eq_none_iff.1 hd c (r ++ (g ++ rest)) ?_
    rw [← htext, hw]
    rfl
  -- What is optional is there, or the text goes on where the part would have been.
  obtain ⟨o, ho, hread⟩ : ∃ o : Option (Text × Text), spaced o ++ rest₁ = rest ∧
      ∀ q ∈ o, IsTtl q.1 ∧ IsRun isGap q.2 := by
    rcases optional_cases httl with ⟨s, g', rfl, hs, hg'⟩ | ⟨rfl, rfl, -⟩
    · obtain ⟨hmatch, rfl⟩ := ttl?_eq_some hs
      refine ⟨some (s, g'), List.append_assoc _ _ _, fun q hq => ?_⟩
      cases hq
      exact ⟨hmatch, hg'⟩
    · refine ⟨none, rfl, fun q hq => ?_⟩
      cases hq
  rcases optional_cases hcls with ⟨s, g', rfl, hs, hg'⟩ | ⟨rfl, rfl, halone⟩
  · obtain ⟨hmem, rfl⟩ := class?_eq_some hs
    refine ⟨⟨_, g, o, some (s, g'), type, rest₃, howner, hplain, hg, hread, ?_, hname, hends, ?_⟩,
      ?_⟩
    · intro q hq
      cases hq
      exact ⟨hmem, hg'⟩
    · intro hnone
      cases hnone
    · refine Eq.trans ?_ htext
      simp only [← ho, Layout.text, spaced, List.append_assoc]
  · refine ⟨⟨_, g, o, none, type, rest₃, howner, hplain, hg, hread, ?_, hname, hends, ?_⟩, ?_⟩
    · intro q hq
      cases hq
    · intro _ hmem
      exact halone type rest₃ (class?_append hmem _)
    · refine Eq.trans ?_ htext
      rw [← ho]
      rfl

theorem directive?_eq_some {t : Text} {q : LineContent × Text} (h : directive? t = some q) :
    ∃ name args, q.1 = .directive name args := by
  unfold directive? at h
  split at h
  · split at h
    · cases h
      exact ⟨_, _, rfl⟩
    · cases h
  · cases h

/-- **A line is read as a record exactly if it can be laid out as one** whose data end where the
line does, up to blanks and a comment. -/
theorem parseLine_eq_entry_iff {t : Text} {e : Entry} :
    parseLine t = .ok (.entry e) ↔
      ∃ p : Layout, p.text = t ∧ p.entry = e ∧ afterComment (items item? p.rest).2 = [] := by
  constructor
  · intro h
    obtain ⟨hsaid, -⟩ := parseLine_eq_ok_iff.1 h
    unfold content at hsaid
    split at hsaid
    · rename_i q hd
      obtain ⟨name, args, hq⟩ := directive?_eq_some hd
      rw [hq] at hsaid
      cases hsaid
    · rename_i hd
      split at hsaid
      · rename_i q he
        obtain ⟨p, rfl⟩ := exists_layout_of_entry? hd he
        rw [parseLine_eq_ok_iff, p.content_text] at h
        exact ⟨p, rfl, LineContent.entry.inj h.1, h.2⟩
      · cases hsaid
  · rintro ⟨p, rfl, rfl, hend⟩
    rw [parseLine_eq_ok_iff, p.content_text]
    exact ⟨rfl, hend⟩

end MxLang.Zone
