import Mathlib.Data.List.Forall2
import MxLang.Proofs.Lines
import MxLang.Proofs.Reading
import MxLang.Proofs.RecordLayout

/-!
# The letters of keywords

The type of a record can be written in capital or small letters, but the class cannot: `in` is no
class, so it is read as the type, and the type as the first of the data.  What else is on the line
stays as it was, so its owner still holds for the lines after it, but an MX record is lost
(`Reclassed.exists_parseLine`).  For the same reason a type must not become the name of a class when
no class is there.

Two zones that differ in the letters only have the same logical lines up to the letters, since no
letter ends a line, starts a comment or is a parenthesis (`logicalLines_map_capital`).  So it is
enough to compare what the lines say one by one.
-/

namespace MxLang.Zone

open Text

/-! ### Capitals -/

theorem toNat_capital (c : Char) :
    (capital c).toNat
      = if 97 ≤ c.toNat ∧ c.toNat ≤ 122 then c.toNat - 32 else c.toNat := by
  have hiff : ('a' ≤ c && c ≤ 'z') = true ↔ 97 ≤ c.toNat ∧ c.toNat ≤ 122 := by
    simp only [Bool.and_eq_true, decide_eq_true_eq, Char.le_def, UInt32.le_iff_toNat_le]
    rfl
  unfold capital
  by_cases h : 97 ≤ c.toNat ∧ c.toNat ≤ 122
  · have hvalid : (c.toNat - 32).isValidChar := by
      left
      omega
    rw [if_pos (hiff.2 h), if_pos h, Char.ofNat, dif_pos hvalid]
    rfl
  · rw [if_neg (fun hc => h (hiff.1 hc)), if_neg h]

theorem isLetter_capital (c : Char) : isLetter (capital c) = isLetter c := by
  rw [Bool.eq_iff_iff, isLetter_iff, isLetter_iff, toNat_capital]
  split <;> omega

theorem isAsciiDigit_capital (c : Char) : isAsciiDigit (capital c) = isAsciiDigit c := by
  rw [Bool.eq_iff_iff, isAsciiDigit_iff, isAsciiDigit_iff, toNat_capital]
  split <;> omega

theorem isLineEnd_capital (c : Char) : isLineEnd (capital c) = isLineEnd c := by
  unfold isLineEnd
  rw [Bool.eq_iff_iff, toNat_capital]
  simp only [Bool.or_eq_true, Bool.and_eq_true, decide_eq_true_eq]
  split <;> omega

/-- Capitals are letters, so no other character becomes one or comes from one. -/
theorem capital_eq_iff {c x : Char} (hx : isLetter x = false) : capital c = x ↔ c = x := by
  have hletter : ¬(97 ≤ x.toNat ∧ x.toNat ≤ 122 ∨ 65 ≤ x.toNat ∧ x.toNat ≤ 90) := by
    rw [← isLetter_iff, hx]
    decide
  rw [← Char.toNat_inj, ← Char.toNat_inj, toNat_capital]
  split <;> omega

/-! ### Logical lines do not depend on the letters -/

theorem takeWhile_map_capital {p : Char → Bool} (hp : ∀ c, p (capital c) = p c) (t : Text) :
    (t.map capital).takeWhile p = (t.takeWhile p).map capital := by
  rw [List.takeWhile_map, show p ∘ capital = p from funext hp]

theorem dropWhile_map_capital {p : Char → Bool} (hp : ∀ c, p (capital c) = p c) (t : Text) :
    (t.map capital).dropWhile p = (t.dropWhile p).map capital := by
  rw [List.dropWhile_map, show p ∘ capital = p from funext hp]

theorem afterLine_map_capital (t : Text) :
    afterLine (t.map capital) = (afterLine t).map capital := by
  have hdrop := dropWhile_map_capital (p := (!isLineEnd ·))
    (fun c => congrArg not (isLineEnd_capital c)) t
  unfold afterLine
  rw [hdrop]
  cases t.dropWhile (!isLineEnd ·) with
  | nil => rfl
  | cons c r =>
    rw [List.map_cons]
    split
    · rename_i rest heq
      obtain ⟨hc, hr⟩ := List.cons.inj heq
      obtain rfl := (capital_eq_iff (by decide)).1 hc
      cases r with
      | nil => cases hr
      | cons d r =>
        obtain ⟨hd, rfl⟩ := List.cons.inj hr
        obtain rfl := (capital_eq_iff (by decide)).1 hd
        rfl
    · rename_i hne heq
      obtain ⟨rfl, rfl⟩ := List.cons.inj heq
      split
      · rename_i rest heq'
        cases heq'
        exact (hne _ rfl rfl).elim
      · rename_i heq'
        cases heq'
        rfl
      · rename_i heq'
        cases heq'
    · rename_i heq
      cases heq

theorem splitLines_map_capital (t : Text) :
    splitLines (t.map capital) = (splitLines t).map (List.map capital) := by
  induction hn : t.length using Nat.strong_induction_on generalizing t with
  | _ n ih =>
    subst hn
    by_cases ht : t = []
    · rw [ht, List.map_nil, splitLines_nil, List.map_nil]
    · rw [splitLines_of_ne_nil (by simpa using ht), splitLines_of_ne_nil ht, List.map_cons,
        takeWhile_map_capital (fun c => congrArg not (isLineEnd_capital c)), afterLine_map_capital,
        ih _ (afterLine_lt ht) _ rfl]

theorem before_map_capital (t : Text) : before ';' (t.map capital) = (before ';' t).map capital :=
  takeWhile_map_capital (fun c => by
    rw [Bool.eq_iff_iff, bne_iff_ne, bne_iff_ne, ne_eq, capital_eq_iff (by decide)]) t

theorem count_map_capital {x : Char} (hx : isLetter x = false) (t : Text) :
    (t.map capital).count x = t.count x := by
  rw [List.count_eq_countP, List.countP_map, List.count_eq_countP]
  refine List.countP_congr fun c _ => ?_
  rw [Function.comp_apply, beq_iff_eq, beq_iff_eq, capital_eq_iff hx]

theorem balance_map_capital (t : Text) : balance (t.map capital) = balance t := by
  rw [balance, balance, count_map_capital (by decide), count_map_capital (by decide)]

theorem joinWith_map_capital (ts : List Text) :
    joinWith [' '] (ts.map (List.map capital)) = (joinWith [' '] ts).map capital := by
  unfold joinWith
  induction ts with
  | nil => rfl
  | cons t ts ih =>
    cases ts with
    | nil => simp only [List.map_cons, List.map_nil, List.intercalate_singleton]
    | cons u ts =>
      rw [List.map_cons] at ih
      rw [List.map_cons, List.map_cons, List.intercalate_cons_cons, List.intercalate_cons_cons, ih,
        List.map_append, List.map_append]
      rfl

/-- The logical line in capitals. -/
def Logical.capitals (l : Logical) : Logical :=
  ⟨l.number, l.text.map capital⟩

/-- The lines joined so far, in capitals. -/
def Joining.capitals (j : Joining) : Joining :=
  { j with done := j.done.map Logical.capitals, pending := j.pending.map (List.map capital) }

theorem Joining.next_capitals (j : Joining) (line : Text) :
    j.capitals.next (line.map capital) = (j.next line).capitals := by
  have hpending : j.pending.map (List.map capital) = [] ↔ j.pending = [] := List.map_eq_nil_iff
  unfold Joining.next
  simp only [Joining.capitals, before_map_capital, balance_map_capital, hpending]
  split
  · rfl
  · rw [← List.map_cons, ← List.map_reverse, joinWith_map_capital]
    rfl

theorem joining_map_capital (t : Text) : joining (t.map capital) = (joining t).capitals := by
  have hfold : ∀ (lines : List Text) (j : Joining),
      (lines.map (List.map capital)).foldl Joining.next j.capitals
        = (lines.foldl Joining.next j).capitals := by
    intro lines
    induction lines with
    | nil => intro j; rfl
    | cons line rest ih =>
      intro j
      rw [List.map_cons, List.foldl_cons, List.foldl_cons, Joining.next_capitals, ih]
  rw [joining, joining, splitLines_map_capital]
  exact hfold _ {}

theorem logicalLines_map_capital (t : Text) :
    logicalLines (t.map capital) = (logicalLines t).map Logical.capitals := by
  rw [logicalLines, logicalLines, joining_map_capital, List.map_reverse]
  rfl

theorem unclosed?_map_capital (t : Text) : unclosed? (t.map capital) = unclosed? t := by
  unfold unclosed?
  simp only [joining_map_capital, Joining.capitals, List.map_eq_nil_iff]

/-- Logical lines that correspond have the same numbers. -/
theorem forall₂_number {R : Logical → Logical → Prop} {t t' : Text}
    (hcase : t.map capital = t'.map capital)
    (h : List.Forall₂ R (logicalLines t) (logicalLines t')) :
    List.Forall₂ (fun l l' => l.number = l'.number ∧ R l l') (logicalLines t)
      (logicalLines t') := by
  have hmap : (logicalLines t).map Logical.capitals = (logicalLines t').map Logical.capitals := by
    rw [← logicalLines_map_capital, hcase, logicalLines_map_capital]
  generalize logicalLines t = ls at h hmap ⊢
  generalize logicalLines t' = ls' at h hmap ⊢
  induction h with
  | nil => exact .nil
  | cons hl _ ih =>
    obtain ⟨hhead, htail⟩ := List.cons.inj hmap
    have hnumber := congrArg Logical.number hhead
    exact .cons ⟨hnumber, hl⟩ (ih htail)

/-! ### Keywords in other letters -/

theorem IsTypeName.of_map_capital {s s' : Text} (h : s.map capital = s'.map capital)
    (hs : IsTypeName s') : IsTypeName s := by
  obtain ⟨c', r', rfl, hc, hr⟩ := hs
  cases s with
  | nil => cases h
  | cons c r =>
    obtain ⟨hcc, hrr⟩ := List.cons.inj h
    refine ⟨c, r, rfl, by rw [← isLetter_capital, hcc, isLetter_capital, hc], fun d hd => ?_⟩
    -- The capital of `d` is that of some character of the other name.
    have hmem : capital d ∈ r'.map capital := hrr ▸ List.mem_map_of_mem hd
    obtain ⟨d', hd', heq⟩ := List.mem_map.1 hmem
    rw [← isLetter_capital, ← isAsciiDigit_capital, ← heq, isLetter_capital, isAsciiDigit_capital]
    exact hr d' hd'

theorem map_capital_of_mem_classes {s : Text} (h : s ∈ classes) : s.map capital = s := by
  simp only [classes, List.mem_cons, List.not_mem_nil, or_false] at h
  rcases h with rfl | rfl | rfl | rfl <;> rfl

/-- A record with its type in other letters. -/
def Layout.retype (p : Layout) (s : Text) (hs : s.map capital = p.type.map capital)
    (halone : p.cls = none → s ∈ classes → Stops isGap p.rest) : Layout :=
  { p with
    type := s
    type_name := p.type_name.of_map_capital hs
    type_alone := halone }

/-- **A record says the same with its type in other letters.** -/
theorem Layout.content_retype (p : Layout) {s : Text} (hs : s.map capital = p.type.map capital)
    (halone : p.cls = none → s ∈ classes → Stops isGap p.rest) :
    content (p.retype s hs halone).text = content p.text := by
  have hentry : (p.retype s hs halone).entry = p.entry := by
    unfold Layout.entry Layout.retype
    dsimp only
    rw [hs]
  rw [Layout.content_text, Layout.content_text, hentry]
  rfl

/-- A line, and the line with the type of its record in other letters.  A type without a class
before it must not turn into a class that way. -/
inductive Retyped : Text → Text → Prop
  | same (line : Text) : Retyped line line
  | type (p : Layout) (s : Text) (hs : s.map capital = p.type.map capital)
      (halone : p.cls = none → s ∈ classes → Stops isGap p.rest) :
      Retyped p.text (p.retype s hs halone).text

/-- The line of a record with a class, and the line with the class, and perhaps the type, in other
letters. -/
inductive Reclassed : Text → Text → Prop
  | cls (p : Layout) {c g : Text} (c' s : Text) (hcls : p.cls = some (c, g))
      (hc : c'.map capital = c.map capital) (hne : c' ≠ c)
      (hs : s.map capital = p.type.map capital) :
      Reclassed p.text (p.owner ++ (p.gap ++ (spaced p.ttl ++ (c' ++ (g ++ (s ++ p.rest))))))

theorem Retyped.content_eq {line line' : Text} (h : Retyped line line') :
    content line' = content line := by
  cases h with
  | same => rfl
  | type p s hs halone => exact p.content_retype hs halone

theorem Retyped.parseLine_eq_ok_iff {line line' : Text} (h : Retyped line line')
    (c : LineContent) : parseLine line = .ok c ↔ parseLine line' = .ok c := by
  rw [Zone.parseLine_eq_ok_iff, Zone.parseLine_eq_ok_iff, h.content_eq]

theorem IsTypeName.isRun_word {s : Text} (hs : IsTypeName s) : IsRun isWordChar s := by
  obtain ⟨c, r, rfl, hc, hr⟩ := hs
  refine ⟨List.cons_ne_nil c r, fun d hd => isWordChar_of_alphanumeric ?_⟩
  rcases List.mem_cons.1 hd with rfl | hd
  · rw [hc, Bool.true_or]
  · exact hr d hd

/-- If nothing is left over behind the data, then no word goes on where they start. -/
theorem stops_word_of_afterComment {rest : Text}
    (h : afterComment (items item? rest).2 = []) : Stops isWordChar rest := by
  cases rest with
  | nil => exact stops_nil _
  | cons c r =>
    rw [stops_cons]
    by_contra hc
    rw [Bool.not_eq_false] at hc
    have hgap := isGap_of_isWordChar hc
    have hitems : items item? (c :: r) = ([], c :: r) := by
      rw [items, afterGap?_eq_none_iff.2 (stops_cons.2 hgap)]
      rfl
    rw [hitems, afterComment, List.dropWhile_cons_of_neg (by rw [hgap]; decide)] at h
    split at h
    · rename_i heq
      cases heq
      exact absurd hc (by decide)
    · cases h

/-- **A class in other letters is taken for the type**, and the type for the first of the data. -/
theorem Reclassed.exists_parseLine {line line' : Text} {said : LineContent}
    (h : Reclassed line line') (hread : parseLine line = .ok said) :
    ∃ e c s, said = .entry e ∧ c ∈ classes ∧
      parseLine line' = .ok (.entry ⟨e.owner, e.ttl, none, c, s :: e.data⟩) := by
  cases h with
  | @cls p c g c' s hcls hc hne hs =>
    obtain ⟨hmem, hgap⟩ := p.cls_read _ hcls
    dsimp only at hmem hgap
    rw [parseLine_eq_ok_iff, p.content_text] at hread
    obtain ⟨rfl, hend⟩ := hread
    have hname : IsTypeName s := p.type_name.of_map_capital hs
    have hstop : Stops isWordChar p.rest := stops_word_of_afterComment hend
    obtain ⟨d, g', rfl, hd⟩ := hgap.head
    -- The rest of the line now starts with the gap before the type.
    let q : Layout :=
      { p with
        cls := none
        type := c'
        rest := (d :: g') ++ (s ++ p.rest)
        cls_read := fun q hq => by cases hq
        type_name := (isTypeName_of_mem_classes hmem).of_map_capital hc
        type_ends := stops_cons.2 (alphanumeric_of_isGap hd)
        type_alone := fun _ hmem' => by
          rw [map_capital_of_mem_classes hmem, map_capital_of_mem_classes hmem'] at hc
          exact absurd hc hne }
    have hitems : items item? q.rest = (s :: (items item? p.rest).1, (items item? p.rest).2) :=
      items_cons hgap (isItem_of_isRun hname.isRun_word) hstop
    have hentry : q.entry = ⟨p.entry.owner, p.entry.ttl, none, c, s :: p.entry.data⟩ := by
      rw [Layout.entry, hitems]
      show Entry.mk _ _ _ (c'.map capital) _ = _
      rw [hc, map_capital_of_mem_classes hmem]
      rfl
    refine ⟨p.entry, c, s, rfl, hmem, parseLine_eq_ok_iff.2 ?_⟩
    have hq := q.content_text
    rw [hitems, hentry] at hq
    exact ⟨congrArg Prod.fst hq, (congrArg (afterComment ·.2) hq).trans hend⟩

/-! ### Zones with keywords in other letters -/

theorem Retyped.saysSame {l l' : Logical} (h : Retyped l.text l'.text)
    (hnumber : l.number = l'.number) : l.SaysSame l' :=
  ⟨hnumber, h.parseLine_eq_ok_iff⟩

/-- What a line with its class in other letters does: the same to the lines after it, but it gives
no record. -/
theorem Reclassed.effect {line line' : Text} {said : LineContent} (h : Reclassed line line')
    (hread : parseLine line = .ok said) :
    ∃ said', parseLine line' = .ok said' ∧ (∀ s : Scope, s.after said' = s.after said) ∧
      ∀ domain file s l, gives domain file s l said' = .ok [] := by
  obtain ⟨e, c, s, rfl, hc, hread'⟩ := h.exists_parseLine hread
  refine ⟨_, hread', fun s => rfl, fun domain file s l => ?_⟩
  have hmx : decide (c = "MX".toList) = false := by
    refine decide_eq_false ?_
    rintro rfl
    exact absurd hc (by decide)
  rw [gives, hmx, Bool.false_and, if_neg Bool.false_ne_true]

/-- A reading that has taken only some of the records. -/
structure Lags (r' r : Reading) : Prop where
  scope : r'.scope = r.scope
  records : r'.records.Sublist r.records

/-- One more line for both readings, with its keywords in other letters for the one that lags. -/
theorem Lags.next {domain : Option Text} {file : Text} {l l' : Logical} {r r' r₁ : Reading}
    (hlags : Lags r' r) (hnumber : l.number = l'.number)
    (h : Retyped l.text l'.text ∨ Reclassed l.text l'.text)
    (hnext : r.next domain file l = .ok r₁) :
    ∃ r₁', r'.next domain file l' = .ok r₁' ∧ Lags r₁' r₁ := by
  obtain ⟨said, new, hread, hnew, rfl⟩ := Reading.next_eq_ok hnext
  rcases h with h | h
  · have hread' : parseLine l'.text = .ok said := (h.parseLine_eq_ok_iff said).1 hread
    refine ⟨⟨r.scope.after said, new ++ r'.records⟩, ?_, rfl,
      (List.Sublist.refl new).append hlags.records⟩
    rw [Reading.next_of_parseLine hread', hlags.scope, gives_of_eq_ok hnumber hnew]
    rfl
  · obtain ⟨said', hread', hafter, hnone⟩ := h.effect hread
    refine ⟨⟨r.scope.after said, r'.records⟩, ?_, rfl,
      hlags.records.trans (List.sublist_append_right new r.records)⟩
    rw [Reading.next_of_parseLine hread', hlags.scope, hnone, hafter]
    rfl

theorem Lags.foldlM {domain : Option Text} {file : Text} {ls ls' : List Logical}
    (h : List.Forall₂ (fun l l' : Logical => l.number = l'.number ∧
      (Retyped l.text l'.text ∨ Reclassed l.text l'.text)) ls ls') {r r' r₁ : Reading}
    (hlags : Lags r' r) (hfold : ls.foldlM (Reading.next domain file) r = .ok r₁) :
    ∃ r₁', ls'.foldlM (Reading.next domain file) r' = .ok r₁' ∧ Lags r₁' r₁ := by
  induction h generalizing r r' with
  | nil =>
    cases hfold
    exact ⟨r', rfl, hlags⟩
  | @cons l l' ls ls' hl _ ih =>
    rw [List.foldlM_cons] at hfold
    cases hnext : r.next domain file l with
    | error f =>
      rw [hnext] at hfold
      cases hfold
    | ok r₂ =>
      rw [hnext] at hfold
      obtain ⟨r₂', hnext', hlags'⟩ := hlags.next hl.1 hl.2 hnext
      rw [List.foldlM_cons, hnext']
      exact ih hlags' hfold

/-- **Keywords in other letters.**  Let the letters of two zones differ, if at all, in the types and
the classes of records.  If they differ in types alone, then the zones are read alike, for every
domain and every file: they give the same records, or they fail in the same way at the same line.
If classes differ as well, then the zone with the classes in other letters is still read, but
records can be missing.  The lines that have lost their record are those with a class in other
letters: each of them does to a reading what it did before, but gives no record. -/
theorem records_respelled {t t' : Text} (hcase : t.map capital = t'.map capital)
    (hlines : List.Forall₂ (fun l l' => Retyped l.text l'.text ∨ Reclassed l.text l'.text)
      (logicalLines t) (logicalLines t')) (domain : Option Text) (file : Text) :
    (List.Forall₂ (fun l l' => Retyped l.text l'.text) (logicalLines t) (logicalLines t') →
      (records domain file t).mapError Failure.place
        = (records domain file t').mapError Failure.place) ∧
    (∀ rs, records domain file t = .ok rs →
      ∃ rs', records domain file t' = .ok rs' ∧ rs'.Sublist rs) ∧
    ∀ (l l' : Logical) (r r₁ : Reading), Reclassed l.text l'.text →
      r.next domain file l = .ok r₁ →
      r.next domain file l' = .ok { r₁ with records := r.records } := by
  have hopen : unclosed? t = unclosed? t' := by
    rw [← unclosed?_map_capital, hcase, unclosed?_map_capital]
  refine ⟨fun hretyped => ?_, fun rs hrs => ?_, fun l l' r r₁ h hnext => ?_⟩
  · refine records_place ?_ hopen domain file
    exact (forall₂_number hcase hretyped).imp fun l l' h => h.2.saysSame h.1
  · rw [records, ← hopen]
    unfold records at hrs
    cases hfold : (logicalLines t).foldlM (Reading.next domain file) {} with
    | error f =>
      rw [hfold] at hrs
      cases hrs
    | ok r =>
      obtain ⟨r', hfold', hlags⟩ := Lags.foldlM (forall₂_number hcase hlines) ⟨rfl, .slnil⟩ hfold
      rw [hfold] at hrs
      rw [hfold']
      dsimp only at hrs ⊢
      split at hrs
      · cases hrs
      · cases hrs
        exact ⟨_, rfl, hlags.records.reverse⟩
  · obtain ⟨said, new, hread, -, rfl⟩ := Reading.next_eq_ok hnext
    obtain ⟨said', hread', hafter, hnone⟩ := h.effect hread
    rw [Reading.next_of_parseLine hread', hnone, hafter]
    rfl

/-- The line `h IN mx 1 x.` -/
def smallLayout : Layout where
  owner := "h".toList
  gap := " ".toList
  ttl := none
  cls := some ("IN".toList, " ".toList)
  type := "mx".toList
  rest := " 1 x.".toList
  owner_word := List.all_eq_true.1 (by decide)
  owner_plain := fun c r h => by cases h
  gap_run := ⟨by decide, List.all_eq_true.1 (by decide)⟩
  ttl_read := fun q hq => by cases hq
  cls_read := fun q hq => by
    cases hq
    exact ⟨by decide, by decide, List.all_eq_true.1 (by decide)⟩
  type_name := ⟨'m', ['x'], rfl, by decide, List.all_eq_true.1 (by decide)⟩
  type_ends := stops_cons.2 (by decide)
  type_alone := fun h => by cases h

/-- A record with its type, and then with its class as well, in other letters. -/
theorem records_respelled_mx :
    (records none [] "h IN mx 1 x.\n@ MX 2 y.".toList).mapError Failure.place
        = (records none [] "h IN Mx 1 x.\n@ MX 2 y.".toList).mapError Failure.place ∧
      ∃ rs', records none [] "h In MX 1 x.\n@ MX 2 y.".toList = .ok rs' ∧
        rs'.Sublist [⟨1, "x.".toList⟩, ⟨2, "y.".toList⟩] := by
  have hread : records none [] "h IN mx 1 x.\n@ MX 2 y.".toList
      = .ok [⟨1, "x.".toList⟩, ⟨2, "y.".toList⟩] := by decide +kernel
  have hlines : logicalLines "h IN mx 1 x.\n@ MX 2 y.".toList
      = [⟨1, smallLayout.text⟩, ⟨2, "@ MX 2 y.".toList⟩] := by decide +kernel
  have hlines₁ : logicalLines "h IN Mx 1 x.\n@ MX 2 y.".toList
      = [⟨1, "h IN Mx 1 x.".toList⟩, ⟨2, "@ MX 2 y.".toList⟩] := by decide +kernel
  have hlines₂ : logicalLines "h In MX 1 x.\n@ MX 2 y.".toList
      = [⟨1, "h In MX 1 x.".toList⟩, ⟨2, "@ MX 2 y.".toList⟩] := by decide +kernel
  have hretyped : Retyped smallLayout.text "h IN Mx 1 x.".toList :=
    .type smallLayout "Mx".toList rfl fun h => by cases h
  have hreclassed : Reclassed smallLayout.text "h In MX 1 x.".toList :=
    .cls smallLayout "In".toList "MX".toList rfl rfl (by decide) rfl
  have hboth : List.Forall₂ (fun l l' => Retyped l.text l'.text)
      (logicalLines "h IN mx 1 x.\n@ MX 2 y.".toList)
      (logicalLines "h IN Mx 1 x.\n@ MX 2 y.".toList) := by
    rw [hlines, hlines₁]
    exact .cons hretyped (.cons (.same _) .nil)
  constructor
  · exact (records_respelled (by decide) (hboth.imp fun _ _ h => .inl h) none []).1 hboth
  · refine (records_respelled (by decide) ?_ none []).2.1 _ hread
    rw [hlines, hlines₂]
    exact .cons (.inr hreclassed) (.cons (.inl (.same _)) .nil)

/-- A class in small letters: the record is lost. -/
theorem records_small_class :
    records none [] "h IN MX 1 x.".toList = .ok [⟨1, "x.".toList⟩] ∧
      records none [] "h in MX 1 x.".toList = .ok [] := by
  decide +kernel

end MxLang.Zone
