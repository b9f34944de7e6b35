import Mathlib
import MxLang.Proofs.Compile
import MxLang.Proofs.LogicalLines
import MxLang.Proofs.ZoneLine
import MxLang.Zone.Writer

/-!
# Zones carry programs

The text of a written zone can be put behind any zone that can be read, and reading the whole gives
the records of that zone and then the written ones (`records_append_render`).  Nothing that the
earlier zone leaves behind matters, since every name that is written has its final dot and every
line its owner.

A written line passes three stages.  It is one line of the text, since it holds no line end; it is
a logical line of its own, since its parentheses are balanced and it holds no semicolon
(`logicalLines_append`); and it is read as the record it was written from (`next_authority`,
`next_exchange`).  What this takes of a record is `IsPortable`, and compiled records have it.
-/

namespace MxLang.Zone

open Text

/-! ### Names -/

/-- A character that can stand in a name: no white space, no line end, and none of the characters
that comments, quoted strings and parentheses are made with. -/
def isPlain (c : Char) : Bool :=
  !isSpace c && !isLineEnd c && c != ';' && c != '"' && c != '(' && c != ')'

theorem isPlain_spec {c : Char} (h : isPlain c) :
    isWordChar c ∧ isLineEnd c = false ∧ c ≠ ';' ∧ c ≠ '(' ∧ c ≠ ')' := by
  simp only [isPlain, Bool.and_eq_true, Bool.not_eq_true', bne_iff_ne] at h
  obtain ⟨⟨⟨⟨⟨hs, hl⟩, hc⟩, hq⟩, ho⟩, hcl⟩ := h
  refine ⟨?_, hl, hc, ho, hcl⟩
  simp [isWordChar, hs, hc, hq]

theorem isPlain_of_isAsciiDigit {c : Char} (h : isAsciiDigit c) : isPlain c := by
  simp only [isAsciiDigit, Bool.and_eq_true, decide_eq_true_eq] at h
  have hne : ∀ d : Char, (d.toNat < 0x30 ∨ 0x39 < d.toNat) → c ≠ d := by
    rintro d hd rfl
    omega
  simp only [isPlain, isSpace, isLineEnd, Bool.and_eq_true, Bool.not_eq_true', bne_iff_ne,
    Bool.or_eq_false_iff, Bool.and_eq_false_iff, decide_eq_false_iff_not]
  refine ⟨⟨⟨⟨⟨by omega, by omega⟩, ?_⟩, ?_⟩, ?_⟩, ?_⟩ <;> exact hne _ (by decide)

/-- A name that can own the records of a written zone. -/
structure IsOwner (name : Text) : Prop where
  plain : ∀ c ∈ name, isPlain c
  rooted : endsIn ['.'] name
  noDirective : name.head? ≠ some '$'

theorem isOwner_rooted {name : Text} (hp : ∀ c ∈ name, isPlain c) (hd : name.head? ≠ some '$') :
    IsOwner (rooted name) := by
  rw [rooted]
  split
  · rename_i h
    exact ⟨hp, h, hd⟩
  · refine ⟨?_, List.isSuffixOf_iff_suffix.2 (List.suffix_append _ _), ?_⟩
    · intro c hc
      rcases List.mem_append.1 hc with hc | hc
      · exact hp c hc
      · obtain rfl := List.mem_singleton.1 hc
        decide
    · cases name with
      | nil => decide
      | cons c r => exact hd

theorem ne_nil_of_endsIn {name : Text} (h : endsIn ['.'] name) : name ≠ [] := by
  rintro rfl
  exact absurd h (by decide)

theorem isRun_of_isPlain {s : Text} (hne : s ≠ []) (h : ∀ c ∈ s, isPlain c) :
    IsRun isWordChar s :=
  ⟨hne, fun c hc => (isPlain_spec (h c hc)).1⟩

/-! ### The lines that are written -/

/-- The text of a record of class `IN` with the given data, separated by single spaces. -/
def entryLine (owner type first : Text) (more : List Text) : Text :=
  owner ++ "\tIN ".toList ++ type ++ '\t' :: (first ++ more.flatMap (' ' :: ·))

/-- **A written record is read with the owner, type and data it was written with.** -/
theorem parseLine_entryLine {owner type first : Text} {more : List Text}
    (ho : IsRun isWordChar owner) (hd : owner.head? ≠ some '$') (ht : IsTypeName type)
    (hi : ∀ i ∈ first :: more, IsRun isWordChar i) :
    parseLine (entryLine owner type first more)
      = .ok (.entry ⟨owner, none, some "IN".toList, type.map capital, first :: more⟩) := by
  have hgap : ∀ c, isGap c → IsRun isGap [c] := fun c hc =>
    ⟨List.cons_ne_nil _ _, fun d hd => List.mem_singleton.1 hd ▸ hc⟩
  have hdata : items item? ('\t' :: (first ++ more.flatMap (' ' :: ·))) = (first :: more, []) := by
    have h := items_append (stops_nil isWordChar) (items_nil item?)
      ((['\t'], first) :: more.map fun i => ([' '], i)) (by
        intro p hp
        rcases List.mem_cons.1 hp with rfl | hp
        · exact ⟨hgap _ (by decide), isItem_of_isRun (hi first List.mem_cons_self)⟩
        · obtain ⟨i, him, rfl⟩ := List.mem_map.1 hp
          exact ⟨hgap _ (by decide), isItem_of_isRun (hi i (List.mem_cons_of_mem _ him))⟩)
    simpa [List.flatMap_map, Function.comp_def] using h
  refine parseLine_of_entry? ?_ ?_
  · rw [entryLine]
    cases owner with
    | nil => exact absurd rfl ho.1
    | cons c r => exact hd
  · rw [entryLine, List.append_assoc, List.append_assoc]
    exact entry?_of_parts ho.2 (g := ['\t']) (hgap _ (by decide)) (stops_cons.2 (by decide))
      (optional_eq_none rfl) (optional_eq_some rfl (g := [' ']) (hgap _ (by decide)) ht.stops_gap)
      (type?_append ht (stops_cons.2 (by decide))) hdata

theorem balance_append (s t : Text) : balance (s ++ t) = balance s + balance t := by
  simp only [balance, List.count_append]
  omega

theorem balance_eq_zero {s : Text} (h : ∀ c ∈ s, isPlain c) : balance s = 0 := by
  have h1 : s.count '(' = 0 := List.count_eq_zero.2 fun hc => absurd (h _ hc) (by decide)
  have h2 : s.count ')' = 0 := List.count_eq_zero.2 fun hc => absurd (h _ hc) (by decide)
  rw [balance, h1, h2]
  rfl

theorem balance_cons {c : Char} (h : isGap c) (t : Text) : balance (c :: t) = balance t := by
  rw [isGap_iff] at h
  rcases h with rfl | rfl <;> simp [balance]

theorem balance_flatMap (more : List Text) :
    balance (more.flatMap (' ' :: ·)) = (more.map balance).sum := by
  induction more with
  | nil => rfl
  | cons i rest ih =>
    rw [List.flatMap_cons, balance_append, ih, balance_cons (by decide), List.map_cons,
      List.sum_cons]

theorem balance_entryLine (owner type first : Text) (more : List Text) :
    balance (entryLine owner type first more)
      = balance owner + balance type + balance first + (more.map balance).sum := by
  have hin : balance "\tIN ".toList = 0 := by decide
  rw [entryLine, balance_append, balance_append, balance_append, balance_cons (by decide),
    balance_append, balance_flatMap, hin]
  omega

/-- A character that neither ends a line nor starts a comment. -/
def isInline (c : Char) : Bool :=
  !isLineEnd c && c != ';'

theorem all_isInline {s : Text} (h : ∀ c ∈ s, isPlain c) : s.all isInline := by
  refine List.all_eq_true.2 fun c hc => ?_
  obtain ⟨-, hl, hs, -, -⟩ := isPlain_spec (h c hc)
  simp [isInline, hl, hs]

theorem all_isInline_entryLine (owner type first : Text) (more : List Text) :
    (entryLine owner type first more).all isInline
      = (owner.all isInline && type.all isInline && first.all isInline &&
          more.all fun i => i.all isInline) := by
  have hin : "\tIN ".toList.all isInline = true := by decide
  have htab : isInline '\t' = true := by decide
  have hspace : isInline ' ' = true := by decide
  simp only [entryLine, List.all_append, List.all_cons, List.all_flatMap, hin, htab, hspace,
    Bool.and_true, Bool.true_and, Bool.and_assoc]

/-- A line that is a logical line by itself. -/
structure IsBalanced (line : Text) : Prop where
  inline : line.all isInline
  balance : balance line = 0

theorem IsBalanced.isLineEnd {line : Text} (h : IsBalanced line) :
    ∀ c ∈ line, isLineEnd c = false := by
  intro c hc
  have hi := List.all_eq_true.1 h.inline c hc
  rw [isInline, Bool.and_eq_true, Bool.not_eq_true'] at hi
  exact hi.1

theorem IsBalanced.before {line : Text} (h : IsBalanced line) : before ';' line = line := by
  refine List.takeWhile_eq_self_iff.2 fun c hc => ?_
  have hi := List.all_eq_true.1 h.inline c hc
  rw [isInline, Bool.and_eq_true] at hi
  exact hi.2

/-! ### Joining -/

theorem IsBalanced.isClosed {line : Text} (h : IsBalanced line) : IsClosed line := by
  rw [IsClosed, h.before, h.balance]

/-- Where no line is open, no parenthesis is. -/
theorem depth_eq_zero_of_pending (lines : List Text) :
    (lines.foldl Joining.next {}).pending = [] → (lines.foldl Joining.next {}).depth = 0 := by
  induction lines using List.reverseRecOn with
  | nil => intro _; rfl
  | append_singleton lines l _ =>
    rw [List.foldl_append, List.foldl_cons, List.foldl_nil, Joining.next]
    split
    · intro h; cases h
    · intro _; rfl

/-- **Balanced lines behind a zone that is closed are logical lines of their own.** -/
theorem logicalLines_append {z t : Text} (hz : IsComplete z) (hu : unclosed? z = none)
    (ht : ∀ l ∈ splitLines t, IsBalanced l) :
    ∃ numbered : List Logical, numbered.map (·.text) = splitLines t ∧
      logicalLines (z ++ t) = logicalLines z ++ numbered ∧ unclosed? (z ++ t) = none := by
  have hp : (joining z).pending = [] := unclosed?_eq_none_iff.1 hu
  have hsettled : (joining z).IsSettled := ⟨hp, depth_eq_zero_of_pending _ hp⟩
  obtain ⟨hdone, hend⟩ :=
    foldl_next_of_closed (splitLines t) hsettled fun l hl => (ht l hl).isClosed
  have hj : joining (z ++ t) = (splitLines t).foldl Joining.next (joining z) := by
    rw [joining, splitLines_append hz, List.foldl_append]
    rfl
  refine ⟨numberedFrom (joining z).count (splitLines t), map_text_numberedFrom _ _, ?_, ?_⟩
  · rw [logicalLines, hj, hdone, List.reverse_append, List.reverse_reverse]
    rfl
  · rw [unclosed?_eq_none_iff, hj]
    exact hend.1

/-! ### Reading -/

/-- What a record needs to survive in a zone: a preference that can be read, and a host that is one
word with a final dot. -/
structure IsPortable (r : Record) : Prop where
  priority : ∃ n : Nat, n < Numeral.bound ∧ r.priority = n
  plain : ∀ c ∈ r.host, isPlain c
  rooted : endsIn ['.'] r.host

theorem Scope.complete_eq_self (s : Scope) {name : Text} (h : endsIn ['.'] name) :
    s.complete name = name := by
  rw [Scope.complete]
  split
  · rw [if_pos h]
  · rfl

theorem Scope.ownerOf_eq_self (s : Scope) {name : Text} (h : endsIn ['.'] name) :
    s.ownerOf name = name := by
  have hat : name ≠ ['@'] := by
    rintro rfl
    exact absurd h (by decide)
  rw [Scope.ownerOf, if_neg (ne_nil_of_endsIn h), if_neg hat, s.complete_eq_self h]

theorem write_natCast (n : Nat) : Numeral.write (n : Int) = Numeral.writeNat n := by
  rw [Numeral.write, if_neg (by omega), Int.natAbs_natCast]

theorem isPlain_of_mem_writeNat {n : Nat} : ∀ c ∈ Numeral.writeNat n, isPlain c :=
  fun _ hc => isPlain_of_isAsciiDigit (Numeral.isAsciiDigit_of_mem_writeNat hc)

/-- The data of an MX record are read as the record they were written from. -/
theorem exchange_eq {r : Record} (hr : IsPortable r) (s : Scope) (l : Logical) (file : Text) :
    exchange s l file [Numeral.write r.priority, r.host] = .ok r := by
  obtain ⟨⟨n, hn, hpr⟩, -, hroot⟩ := hr
  have hne : (Numeral.writeNat n).isEmpty = false := by
    rw [List.isEmpty_eq_false_iff]
    exact Numeral.writeNat_ne_nil n
  have hall : (Numeral.writeNat n).all isAnyDigit = true :=
    List.all_eq_true.2 fun c hc =>
      Numeral.isAnyDigit_of_isAsciiDigit (Numeral.isAsciiDigit_of_mem_writeNat hc)
  rw [hpr, write_natCast, exchange]
  simp only [hne, hall, Numeral.readPreference_writeNat hn, s.complete_eq_self hroot]
  rw [← hpr]
  rfl

theorem isWanted_of_eq {selected : Option Text} {owner : Text}
    (h : ∀ d ∈ selected, lower (rooted d) = lower owner) : isWanted selected owner := by
  cases selected with
  | none => rfl
  | some d =>
    rw [isWanted, beq_iff_eq]
    exact (h d rfl).symm

/-! ### The two kinds of written lines -/

/-- The line of an MX record, without the line feed. -/
def exchangeText (domain : Text) (r : Record) : Text :=
  entryLine domain "MX".toList (Numeral.write r.priority) [r.host]

/-- The line of the SOA record, without the line feed. -/
def authorityText (domain serial : Text) : Text :=
  entryLine domain "SOA".toList domain ["mexico.".toList ++ domain, '(' :: serial,
    "1h".toList, "1h".toList, "1h".toList, "1h)".toList]

theorem exchangeLine_eq (domain : Text) (r : Record) :
    exchangeLine domain r = exchangeText domain r ++ ['\n'] := by
  simp [exchangeLine, exchangeText, entryLine]

theorem authorityLine_eq (domain serial : Text) :
    authorityLine domain serial = authorityText domain serial ++ ['\n'] := by
  simp [authorityLine, authorityText, entryLine]

variable {domain serial file : Text} {selected : Option Text}

theorem isBalanced_exchangeText (hd : IsOwner domain) {r : Record} (hr : IsPortable r) :
    IsBalanced (exchangeText domain r) := by
  obtain ⟨⟨n, -, hn⟩, hhost, -⟩ := hr
  have hdigits : ∀ c ∈ Numeral.write r.priority, isPlain c := by
    rw [hn, write_natCast]
    exact isPlain_of_mem_writeNat
  constructor
  · rw [exchangeText, all_isInline_entryLine, all_isInline hd.plain, all_isInline hdigits,
      List.all_cons, all_isInline hhost]
    rfl
  · rw [exchangeText, balance_entryLine, balance_eq_zero hd.plain, balance_eq_zero hdigits,
      List.map_singleton, balance_eq_zero hhost]
    rfl

theorem isBalanced_authorityText (hd : IsOwner domain) (hs : ∀ c ∈ serial, isAsciiDigit c) :
    IsBalanced (authorityText domain serial) := by
  have hserial : ∀ c ∈ serial, isPlain c := fun c hc => isPlain_of_isAsciiDigit (hs c hc)
  constructor
  · simp only [authorityText, all_isInline_entryLine, all_isInline hd.plain, List.all_cons,
      List.all_append, all_isInline hserial]
    rfl
  · have hopen : balance ('(' :: serial) = 1 := by
      rw [← List.singleton_append, balance_append, balance_eq_zero hserial]
      rfl
    rw [authorityText, balance_entryLine, balance_eq_zero hd.plain]
    simp only [List.map_cons, balance_append, balance_eq_zero hd.plain, hopen]
    rfl

theorem parseLine_exchangeText (hd : IsOwner domain) {r : Record} (hr : IsPortable r) :
    parseLine (exchangeText domain r)
      = .ok (.entry ⟨domain, none, some "IN".toList, "MX".toList,
          [Numeral.write r.priority, r.host]⟩) := by
  obtain ⟨⟨n, -, hn⟩, hhost, hroot⟩ := hr
  refine parseLine_entryLine (isRun_of_isPlain (ne_nil_of_endsIn hd.rooted) hd.plain)
    hd.noDirective ⟨'M', ['X'], rfl, by decide, List.all_eq_true.1 (by decide)⟩ ?_
  intro i hi
  rcases List.mem_cons.1 hi with rfl | hi
  · rw [hn, write_natCast]
    exact isRun_of_isPlain (Numeral.writeNat_ne_nil n) isPlain_of_mem_writeNat
  · obtain rfl := List.mem_singleton.1 hi
    exact isRun_of_isPlain (ne_nil_of_endsIn hroot) hhost

theorem exists_parseLine_authorityText (hd : IsOwner domain)
    (hs : ∀ c ∈ serial, isAsciiDigit c) :
    ∃ data, parseLine (authorityText domain serial)
      = .ok (.entry ⟨domain, none, some "IN".toList, "SOA".toList, data⟩) := by
  have hne := ne_nil_of_endsIn hd.rooted
  have hword : ∀ c ∈ domain, isWordChar c := fun c hc => (isPlain_spec (hd.plain c hc)).1
  refine ⟨_, parseLine_entryLine ⟨hne, hword⟩ hd.noDirective
    ⟨'S', ['O', 'A'], rfl, by decide, List.all_eq_true.1 (by decide)⟩ ?_⟩
  have hconst : ∀ i ∈ ["1h".toList, "1h".toList, "1h".toList, "1h)".toList],
      IsRun isWordChar i := by
    intro i hi
    simp only [List.mem_cons, List.not_mem_nil, or_false] at hi
    rcases hi with rfl | rfl | rfl | rfl <;>
      exact ⟨by decide, List.all_eq_true.1 (by decide)⟩
  intro i hi
  rcases List.mem_cons.1 hi with rfl | hi
  · exact ⟨hne, hword⟩
  rcases List.mem_cons.1 hi with rfl | hi
  · refine ⟨by simp, fun c hc => ?_⟩
    rcases List.mem_append.1 hc with hc | hc
    · exact List.all_eq_true.1 (by decide : "mexico.".toList.all isWordChar = true) c hc
    · exact hword c hc
  rcases List.mem_cons.1 hi with rfl | hi
  · refine ⟨List.cons_ne_nil _ _, fun c hc => ?_⟩
    rcases List.mem_cons.1 hc with rfl | hc
    · decide
    · exact (isPlain_spec (isPlain_of_isAsciiDigit (hs c hc))).1
  · exact hconst i hi

/-! ### Reading the written lines -/

theorem next_authority (hd : IsOwner domain) (hs : ∀ c ∈ serial, isAsciiDigit c) (r : Reading)
    {l : Logical} (hl : l.text = authorityText domain serial) :
    Reading.next selected file r l = .ok { r with scope := { r.scope with owner := domain } } := by
  obtain ⟨data, hp⟩ := exists_parseLine_authorityText hd hs
  rw [Reading.next, hl, hp]
  simp only [r.scope.ownerOf_eq_self hd.rooted]
  rfl

theorem next_exchange (hd : IsOwner domain)
    (hw : ∀ d ∈ selected, lower (rooted d) = lower domain) {x : Record} (hx : IsPortable x)
    (r : Reading) {l : Logical} (hl : l.text = exchangeText domain x) :
    Reading.next selected file r l
      = .ok ⟨{ r.scope with owner := domain }, x :: r.records⟩ := by
  rw [Reading.next, hl, parseLine_exchangeText hd hx]
  simp only [r.scope.ownerOf_eq_self hd.rooted, isWanted_of_eq hw, exchange_eq hx]
  rfl

/-- The lines of records give the records, whatever has been read before. -/
theorem foldlM_exchange (file : Text) (hd : IsOwner domain)
    (hw : ∀ d ∈ selected, lower (rooted d) = lower domain) :
    ∀ (xs : List Record) (numbered : List Logical) (r : Reading), (∀ x ∈ xs, IsPortable x) →
      numbered.map (·.text) = xs.map (exchangeText domain) →
      ∃ scope, numbered.foldlM (Reading.next selected file) r
        = .ok ⟨scope, xs.reverse ++ r.records⟩ := by
  intro xs
  induction xs with
  | nil =>
    intro numbered r _ hn
    rw [List.map_nil, List.map_eq_nil_iff] at hn
    subst hn
    exact ⟨r.scope, rfl⟩
  | cons x rest ih =>
    intro numbered r hx hn
    obtain ⟨l, more, rfl, hl, hmore⟩ := List.map_eq_cons_iff.1 hn
    obtain ⟨scope, hs⟩ := ih more ⟨{ r.scope with owner := domain }, x :: r.records⟩
      (fun y hy => hx y (List.mem_cons_of_mem _ hy)) hmore
    refine ⟨scope, ?_⟩
    rw [List.foldlM_cons, next_exchange hd hw (hx x List.mem_cons_self) r hl]
    rw [List.reverse_cons, List.append_assoc, List.singleton_append]
    exact hs

theorem splitLines_render (hd : IsOwner (rooted domain)) (hs : ∀ c ∈ serial, isAsciiDigit c)
    {xs : List Record} (hx : ∀ x ∈ xs, IsPortable x) :
    splitLines (render domain serial xs)
      = authorityText (rooted domain) serial :: xs.map (exchangeText (rooted domain)) := by
  have hbody : splitLines (xs.flatMap (exchangeLine (rooted domain)))
      = xs.map (exchangeText (rooted domain)) := by
    induction xs with
    | nil => exact splitLines_nil
    | cons x rest ih =>
      rw [List.flatMap_cons, exchangeLine_eq, List.append_assoc, List.singleton_append,
        splitLines_line (isBalanced_exchangeText hd (hx x List.mem_cons_self)).isLineEnd,
        ih fun y hy => hx y (List.mem_cons_of_mem _ hy), List.map_cons]
  rw [render, authorityLine_eq, List.append_assoc, List.singleton_append,
    splitLines_line (isBalanced_authorityText hd hs).isLineEnd, hbody]

/-- **A zone written behind another adds its records**, and takes none away. -/
theorem records_append {z : Text} {xs earlier : List Record} (hz : IsComplete z)
    (hd : IsOwner (rooted domain)) (hs : ∀ c ∈ serial, isAsciiDigit c)
    (hw : ∀ d ∈ selected, lower (rooted d) = lower (rooted domain))
    (hx : ∀ x ∈ xs, IsPortable x) (hr : records selected file z = .ok earlier) :
    records selected file (z ++ render domain serial xs) = .ok (earlier ++ xs) := by
  rw [records] at hr
  cases hfold : (logicalLines z).foldlM (Reading.next selected file) {} with
  | error f => rw [hfold] at hr; cases hr
  | ok r =>
    rw [hfold] at hr
    cases hu : unclosed? z with
    | some n => rw [hu] at hr; cases hr
    | none =>
      rw [hu] at hr
      obtain rfl := Except.ok.inj hr
      have hlines := splitLines_render hd hs hx
      obtain ⟨numbered, htext, hlog, hu'⟩ := logicalLines_append hz hu
        (t := render domain serial xs) (by
          rw [hlines]
          intro l hl
          rcases List.mem_cons.1 hl with rfl | hl
          · exact isBalanced_authorityText hd hs
          · obtain ⟨x, hxs, rfl⟩ := List.mem_map.1 hl
            exact isBalanced_exchangeText hd (hx x hxs))
      rw [hlines] at htext
      obtain ⟨l, more, rfl, hl, hmore⟩ := List.map_eq_cons_iff.1 htext
      obtain ⟨scope, hrest⟩ := foldlM_exchange file hd hw xs more
        { r with scope := { r.scope with owner := rooted domain } } hx hmore
      have hall : (logicalLines (z ++ render domain serial xs)).foldlM
          (Reading.next selected file) {} = .ok ⟨scope, xs.reverse ++ r.records⟩ := by
        rw [hlog, List.foldlM_append, hfold]
        show (l :: more).foldlM (Reading.next selected file) r = _
        rw [List.foldlM_cons, next_authority hd hs r hl]
        exact hrest
      rw [records, hall]
      simp only [hu', List.reverse_append, List.reverse_reverse]

/-! ### Compiled records -/

theorem isPlain_of_mem_suffix {ns : Text} (h : ∀ c ∈ ns, isPlain c) :
    ∀ c ∈ Host.suffix ns, isPlain c := by
  intro c hc
  rw [Host.suffix, List.cons_append, List.mem_cons, List.mem_append, List.mem_singleton] at hc
  rcases hc with rfl | hc | rfl
  · decide
  · exact h c (mem_of_mem_trim hc)
  · decide

theorem isPlain_of_mem_encode {ns : Text} (h : ∀ c ∈ ns, isPlain c) (cmd : Command) :
    ∀ c ∈ Host.encode ns cmd.text, isPlain c := by
  intro c hc
  rcases List.mem_append.1 hc with hc | hc
  · cases cmd with
    | push v =>
      rw [Command.text, replaceFirst_append _ (by decide), List.mem_append, List.mem_cons] at hc
      rcases hc with hc | rfl | hc
      · exact List.all_eq_true.1 (by decide : Instruction.pushWord.all isPlain = true) c hc
      · decide
      · rcases Numeral.mem_write hc with rfl | hc
        · decide
        · exact isPlain_of_isAsciiDigit hc
    | bare op =>
      rw [Command.text, replaceFirst_of_not_mem (Opcode.not_mem_name (by decide))] at hc
      have hall : op.name.all isPlain = true := by cases op <;> decide
      exact List.all_eq_true.1 hall c hc
  · exact isPlain_of_mem_suffix h c hc

theorem isPortable_of_compile {ns : Text} (hns : ∀ c ∈ ns, isPlain c) {lines : List Text}
    {xs : List Record} (h : Source.compile ns lines = .ok xs) : ∀ x ∈ xs, IsPortable x := by
  intro x hx
  obtain ⟨i, c, hi, rfl⟩ := Source.exists_of_mem_compile h hx
  refine ⟨⟨i, hi.trans Source.capacity_lt, rfl⟩, isPlain_of_mem_encode hns c, ?_⟩
  rw [endsIn, List.isSuffixOf_iff_suffix]
  exact (List.suffix_append _ _).trans (List.suffix_append _ _)

theorem render?_eq_ok (domain serial : Text) {xs : List Record} (h : ∀ x ∈ xs, IsPortable x) :
    render? domain serial xs = .ok (render domain serial xs) := by
  rw [render?, if_pos]
  refine List.all_eq_true.2 fun x hx => ?_
  obtain ⟨n, hn, hp⟩ := (h x hx).priority
  rw [Numeral.isWritable, decide_eq_true_eq, hp, Int.natAbs_natCast]
  exact hn

/-- **A compiled program survives in a zone, behind any other zone.**  The program's namespace and
the owner are plain names, the zone before it is complete and can be read, and the records that are
asked for are all of them or those of the owner. -/
theorem records_append_render {ns domain serial z file : Text} {lines : List Text}
    {xs earlier : List Record} {selected : Option Text} (hc : Source.compile ns lines = .ok xs)
    (hns : ∀ c ∈ ns, isPlain c) (hd : ∀ c ∈ domain, isPlain c) (hdir : domain.head? ≠ some '$')
    (hs : ∀ c ∈ serial, isAsciiDigit c) (hz : z = [] ∨ endsIn ['\n'] z)
    (hw : ∀ d ∈ selected, lower (rooted d) = lower (rooted domain))
    (hr : records selected file z = .ok earlier) :
    ∃ text, render? domain serial xs = .ok text ∧
      records selected file (z ++ text) = .ok (earlier ++ xs) := by
  have hx := isPortable_of_compile hns hc
  exact ⟨_, render?_eq_ok domain serial hx,
    records_append (isComplete_iff.2 hz) (isOwner_rooted hd hdir) hs hw hx hr⟩

/-- A program behind a zone that has set an origin, owns a record of the domain itself and ends
with a relative owner and an unmatched parenthesis in a comment. -/
theorem records_append_render_origin :
    ∃ text, render? "Ex.org".toList "2024".toList
        [⟨0, "push--5.a-b.".toList⟩, ⟨1, "push-0.a-b.".toList⟩, ⟨2, "jmp.a-b.".toList⟩]
          = .ok text ∧
      records (some "eX.ORG".toList) []
        ("$ORIGIN net\nex.ORG. 1h MX 7 mail\nwww A 1 ; (\n".toList ++ text)
          = .ok [⟨7, "mail.net.".toList⟩, ⟨0, "push--5.a-b.".toList⟩, ⟨1, "push-0.a-b.".toList⟩,
              ⟨2, "jmp.a-b.".toList⟩] := by
  have hc : Source.compile "a-b".toList (["loop:", "push -5", "push loop", "jmp"].map String.toList)
      = .ok [⟨0, "push--5.a-b.".toList⟩, ⟨1, "push-0.a-b.".toList⟩, ⟨2, "jmp.a-b.".toList⟩] := by
    decide +kernel
  have hr : records (some "eX.ORG".toList) []
      "$ORIGIN net\nex.ORG. 1h MX 7 mail\nwww A 1 ; (\n".toList
      = .ok [⟨7, "mail.net.".toList⟩] := by
    cbv
  have hw : ∀ d ∈ some "eX.ORG".toList, lower (rooted d) = lower (rooted "Ex.org".toList) := by
    intro d hd
    obtain rfl := Option.some.inj hd
    decide +kernel
  exact records_append_render hc (List.all_eq_true.1 (by decide)) (List.all_eq_true.1 (by decide))
    (by decide) (List.all_eq_true.1 (by decide)) (.inr (by decide)) hw hr

end MxLang.Zone
