import Mathlib.Data.List.Basic
import MxLang.Zone.Line

/-!
# Reading what has been written

The recognisers of a zone line are greedy: each takes the longest run it can.  So a part that is
written out is recognised as that part whenever what follows it *stops* the run (`Stops`), and this
is all that has to be checked where two parts meet.  `run?_append` is the fact for one run,
`items_append` for a list of items with a gap before each of them, and `entry?_of_parts` puts the
parts of a record together.  A quoted string is no run and needs nothing to stop it: where it ends
is said by its own characters (`quotedRest?_eq_some_iff`).
-/

namespace MxLang.Zone

open Text

/-- A text of one or more characters of `p`. -/
def IsRun (p : Char → Bool) (s : Text) : Prop :=
  s ≠ [] ∧ ∀ c ∈ s, p c

/-- A text that does not go on with a character of `p`. -/
def Stops (p : Char → Bool) (t : Text) : Prop :=
  ∀ c ∈ t.head?, p c = false

theorem stops_nil (p : Char → Bool) : Stops p [] := by
  intro c hc
  cases hc

theorem stops_cons {p : Char → Bool} {c : Char} {t : Text} : Stops p (c :: t) ↔ p c = false := by
  simp [Stops]

theorem Stops.of_append {p : Char → Bool} {s t : Text} (hs : s ≠ []) (h : Stops p s) :
    Stops p (s ++ t) := by
  cases s with
  | nil => exact absurd rfl hs
  | cons c r => exact stops_cons.2 (stops_cons.1 h)

theorem takeWhile_of_stops {p : Char → Bool} {s t : Text} (hs : ∀ c ∈ s, p c) (ht : Stops p t) :
    (s ++ t).takeWhile p = s := by
  rw [List.takeWhile_append_of_pos hs]
  cases t with
  | nil => rw [List.takeWhile_nil, List.append_nil]
  | cons c r =>
    rw [List.takeWhile_cons_of_neg (by rw [stops_cons.1 ht]; decide), List.append_nil]

theorem dropWhile_of_stops {p : Char → Bool} {s t : Text} (hs : ∀ c ∈ s, p c) (ht : Stops p t) :
    (s ++ t).dropWhile p = t := by
  rw [List.dropWhile_append_of_pos hs]
  cases t with
  | nil => rfl
  | cons c r => rw [List.dropWhile_cons_of_neg (by rw [stops_cons.1 ht]; decide)]

/-! ### Runs, gaps and items -/

theorem run?_append {p : Char → Bool} {s t : Text} (hs : IsRun p s) (ht : Stops p t) :
    run? p (s ++ t) = some (s, t) := by
  rw [run?, takeWhile_of_stops hs.2 ht, dropWhile_of_stops hs.2 ht, if_neg hs.1]

theorem afterGap?_append {g t : Text} (hg : IsRun isGap g) (ht : Stops isGap t) :
    afterGap? (g ++ t) = some t := by
  rw [afterGap?, run?_append hg ht]
  rfl

theorem isWordChar_of_isGap {c : Char} (h : isGap c) : isWordChar c = false := by
  rw [isGap_iff] at h
  rcases h with rfl | rfl <;> decide

theorem isGap_of_isWordChar {c : Char} (h : isWordChar c) : isGap c = false := by
  by_contra hg
  rw [Bool.not_eq_false] at hg
  rw [isWordChar_of_isGap hg] at h
  cases h

theorem IsRun.stops_word {g t : Text} (hg : IsRun isGap g) : Stops isWordChar (g ++ t) := by
  obtain ⟨hne, hall⟩ := hg
  cases g with
  | nil => exact absurd rfl hne
  | cons c r => exact stops_cons.2 (isWordChar_of_isGap (hall c List.mem_cons_self))

theorem IsRun.stops_gap {w t : Text} (hw : IsRun isWordChar w) : Stops isGap (w ++ t) := by
  obtain ⟨hne, hall⟩ := hw
  cases w with
  | nil => exact absurd rfl hne
  | cons c r => exact stops_cons.2 (isGap_of_isWordChar (hall c List.mem_cons_self))

/-- A text that `item` recognises as a whole, whatever follows it that is no part of a word. -/
def IsItem (item : Text → Option (Text × Text)) (i : Text) : Prop :=
  i ≠ [] ∧ Stops isGap i ∧ ∀ t, Stops isWordChar t → item (i ++ t) = some (i, t)

theorem isItem_of_isRun {w : Text} (hw : IsRun isWordChar w) : IsItem item? w := by
  refine ⟨hw.1, by simpa using hw.stops_gap (t := []), fun t ht => ?_⟩
  have hq : ∀ r, w ++ t ≠ '"' :: r := by
    intro r he
    cases w with
    | nil => exact hw.1 rfl
    | cons c s =>
      obtain ⟨rfl, -⟩ := List.cons.inj he
      exact absurd (hw.2 '"' List.mem_cons_self) (by decide)
  unfold item?
  split
  · rename_i r he
    exact absurd he (hq r)
  · exact run?_append hw ht

theorem items_cons {item : Text → Option (Text × Text)} {g i t : Text} (hg : IsRun isGap g)
    (hi : IsItem item i) (ht : Stops isWordChar t) :
    items item (g ++ (i ++ t)) = (i :: (items item t).1, (items item t).2) := by
  obtain ⟨hne, hgap, hread⟩ := hi
  have hlen : 0 < g.length := List.length_pos_iff.2 hg.1
  rw [items, afterGap?_append hg (hgap.of_append hne), Option.bind_some, hread t ht]
  dsimp only
  rw [if_pos (by simp only [List.length_append]; omega)]

/-- **Items with a gap before each of them are recognised one by one.** -/
theorem items_append {item : Text → Option (Text × Text)} {t : Text} (ht : Stops isWordChar t)
    (hend : items item t = ([], t)) : ∀ parts : List (Text × Text),
    (∀ p ∈ parts, IsRun isGap p.1 ∧ IsItem item p.2) →
    items item (parts.flatMap (fun p => p.1 ++ p.2) ++ t) = (parts.map (·.2), t) := by
  intro parts
  induction parts with
  | nil => intro _; exact hend
  | cons p rest ih =>
    intro h
    obtain ⟨g, i⟩ := p
    obtain ⟨hg, hi⟩ := h (g, i) List.mem_cons_self
    have hrest : Stops isWordChar (rest.flatMap (fun p => p.1 ++ p.2) ++ t) := by
      cases rest with
      | nil => exact ht
      | cons q more =>
        have hq := (h q (by simp)).1
        rw [List.flatMap_cons, List.append_assoc, List.append_assoc]
        exact hq.stops_word
    have htext : ((g, i) :: rest).flatMap (fun p => p.1 ++ p.2) ++ t
        = g ++ (i ++ (rest.flatMap (fun p => p.1 ++ p.2) ++ t)) := by
      rw [List.flatMap_cons, List.append_assoc, List.append_assoc]
    rw [htext, items_cons hg hi hrest, ih fun q hq => h q (List.mem_cons_of_mem _ hq)]
    rfl

theorem items_nil (item : Text → Option (Text × Text)) : items item [] = ([], []) := by
  rw [items]
  rfl

/-! ### Quoted strings -/

/-- What stands for one character of a quoted string: a character other than a quote and a
backslash, or a backslash with any character but a line feed. -/
inductive IsQuotedUnit : Text → Prop
  | plain {c : Char} (hquote : c ≠ '"') (hslash : c ≠ '\\') : IsQuotedUnit [c]
  | escaped {c : Char} (hfeed : c ≠ '\n') : IsQuotedUnit ['\\', c]

/-- Units and the closing quote. -/
def IsQuotedRest (s : Text) : Prop :=
  ∃ units : List Text, (∀ u ∈ units, IsQuotedUnit u) ∧ s = units.flatten ++ ['"']

/-- A quoted string, from its opening quote to its closing one. -/
def IsQuoted (s : Text) : Prop :=
  ∃ rest, IsQuotedRest rest ∧ s = '"' :: rest

theorem isQuotedRest_quote : IsQuotedRest ['"'] :=
  ⟨[], fun _ h => absurd h List.not_mem_nil, rfl⟩

theorem IsQuotedRest.cons {u s : Text} (hu : IsQuotedUnit u) (hs : IsQuotedRest s) :
    IsQuotedRest (u ++ s) := by
  obtain ⟨units, hunits, rfl⟩ := hs
  refine ⟨u :: units, ?_, ?_⟩
  · intro v hv
    rcases List.mem_cons.1 hv with rfl | hv
    · exact hu
    · exact hunits v hv
  · rw [List.flatten_cons, List.append_assoc]

theorem quotedRest?_quote (t : Text) : quotedRest? ('"' :: t) = some (['"'], t) := by
  rw [quotedRest?]
  · rfl
  · intro h
    cases h
  · intro c r h
    cases h

theorem quotedRest?_unit {u : Text} (hu : IsQuotedUnit u) (t : Text) :
    quotedRest? (u ++ t) = (quotedRest? t).map fun q => (u ++ q.1, q.2) := by
  cases hu with
  | plain hquote hslash =>
    rw [List.singleton_append, quotedRest?, if_neg hquote]
    · rfl
    · intro h
      exact absurd h hslash
    · intro c r h
      exact absurd h hslash
  | escaped hfeed =>
    show quotedRest? ('\\' :: _ :: t) = _
    rw [quotedRest?, if_neg hfeed]
    rfl

theorem quotedRest?_append {s : Text} (hs : IsQuotedRest s) (t : Text) :
    quotedRest? (s ++ t) = some (s, t) := by
  obtain ⟨units, hunits, rfl⟩ := hs
  induction units with
  | nil => exact quotedRest?_quote t
  | cons u rest ih =>
    have hrest := ih fun v hv => hunits v (List.mem_cons_of_mem _ hv)
    rw [List.flatten_cons, List.append_assoc u, List.append_assoc u,
      quotedRest?_unit (hunits u List.mem_cons_self), hrest]
    rfl

/-- **The rest of a quoted string** is what the units and the closing quote make up. -/
theorem quotedRest?_eq_some_iff {t s rest : Text} :
    quotedRest? t = some (s, rest) ↔ IsQuotedRest s ∧ t = s ++ rest := by
  constructor
  · intro h
    fun_induction quotedRest? t generalizing s with
    | case1 | case2 => cases h
    | case3 t => cases h
    | case4 c t hfeed ih =>
      obtain ⟨⟨s', rest'⟩, hr, hq⟩ := Option.map_eq_some_iff.1 h
      cases hq
      obtain ⟨hs, rfl⟩ := ih hr
      exact ⟨.cons (.escaped hfeed) hs, rfl⟩
    | case5 t _ _ =>
      cases h
      exact ⟨isQuotedRest_quote, rfl⟩
    | case6 c t hlast hmore hquote ih =>
      obtain ⟨⟨s', rest'⟩, hr, hq⟩ := Option.map_eq_some_iff.1 h
      cases hq
      obtain ⟨hs, rfl⟩ := ih hr
      have hslash : c ≠ '\\' := by
        intro hc
        cases hrest : s' ++ rest with
        | nil => exact hlast hc hrest
        | cons d r => exact hmore d r hc hrest
      exact ⟨.cons (.plain hquote hslash) hs, rfl⟩
  · rintro ⟨hs, rfl⟩
    exact quotedRest?_append hs rest

theorem isItem_of_isQuoted {s : Text} (hs : IsQuoted s) : IsItem item? s := by
  obtain ⟨rest, hrest, rfl⟩ := hs
  refine ⟨List.cons_ne_nil _ _, stops_cons.2 (by decide), ?_⟩
  intro t _
  rw [List.cons_append, item?, quotedRest?_append hrest t]
  rfl

/-! ### Records -/

theorem optional_eq_none {part : Text → Option (Text × Text)} {t : Text} (h : part t = none) :
    optional part t = (none, t) := by
  rw [optional, h]

theorem optional_eq_some {part : Text → Option (Text × Text)} {t s g rest : Text}
    (h : part t = some (s, g ++ rest)) (hg : IsRun isGap g) (hr : Stops isGap rest) :
    optional part t = (some s, rest) := by
  rw [optional, h]
  simp only [afterGap?_append hg hr]

/-- The name of a type of records. -/
def IsTypeName (s : Text) : Prop :=
  ∃ c r, s = c :: r ∧ isLetter c ∧ ∀ d ∈ r, isLetter d || isAsciiDigit d

theorem IsTypeName.stops_gap {s t : Text} (hs : IsTypeName s) : Stops isGap (s ++ t) := by
  obtain ⟨c, r, rfl, hc, -⟩ := hs
  refine stops_cons.2 ?_
  by_contra hg
  rw [Bool.not_eq_false, isGap_iff] at hg
  rcases hg with rfl | rfl <;> exact absurd hc (by decide)

theorem type?_append {s t : Text} (hs : IsTypeName s)
    (ht : Stops (fun c => isLetter c || isAsciiDigit c) t) : type? (s ++ t) = some (s, t) := by
  obtain ⟨c, r, rfl, hc, hr⟩ := hs
  rw [List.cons_append, type?, if_pos hc]
  simp only [takeWhile_of_stops hr ht, dropWhile_of_stops hr ht]

/-- **A record is read from its parts**, each of which is recognised where the one before it
ends. -/
theorem entry?_of_parts {owner g rest rest₁ rest₂ rest₃ rest₄ type : Text}
    {ttl cls : Option Text} {data : List Text} (ho : ∀ c ∈ owner, isWordChar c)
    (hg : IsRun isGap g) (hr : Stops isGap rest)
    (httl : optional ttl? rest = (ttl, rest₁)) (hcls : optional class? rest₁ = (cls, rest₂))
    (htype : type? rest₂ = some (type, rest₃)) (hdata : items item? rest₃ = (data, rest₄)) :
    entry? (owner ++ (g ++ rest))
      = some (.entry ⟨owner, ttl, cls, type.map capital, data⟩, rest₄) := by
  unfold entry?
  simp only [takeWhile_of_stops ho hg.stops_word, dropWhile_of_stops ho hg.stops_word,
    afterGap?_append hg hr, httl, hcls, htype, hdata]

theorem directive?_eq_none {t : Text} (h : t.head? ≠ some '$') : directive? t = none := by
  unfold directive?
  split
  · exact absurd rfl h
  · rfl

theorem parseLine_of_entry? {t : Text} {c : LineContent} (hd : t.head? ≠ some '$')
    (he : entry? t = some (c, [])) : parseLine t = .ok c := by
  rw [parseLine, content, directive?_eq_none hd, he]
  rfl

end MxLang.Zone
