import Mathlib.Data.List.TakeWhile
import MxLang.Proofs.Lines
import MxLang.Proofs.Reading
import MxLang.Proofs.RecordLayout

/-!
# Comments

A comment is met in two places.  Where lines are joined it is cut off every line but the last of a
group, and the parentheses in it do not count; the last line keeps it, and there it is left to the
grammar.  `withoutComments` cuts every line at its first semicolon, and `records_withoutComments`
says that this changes nothing, in a zone without quotes.

For the grammar this comes down to one property of a recogniser: it stops at a semicolon as it stops
at the end of the text (`IsPart`).  Runs have it, every part of a line inherits it from them, and so
the line says the same with a comment and without (`parseLine_append_comment`).  Quotes are the
exception, for a quoted string goes on over a semicolon.
-/

namespace MxLang.Zone

open Text

/-! ### Parts of a line before a comment -/

/-- What has been read, and what is left over with the comment `c` behind it. -/
def commented {α : Type} (c : Text) (q : α × Text) : α × Text :=
  (q.1, q.2 ++ ';' :: c)

/-- A recogniser that leaves the end of a text over, and that stops at a comment as it does at the
end, unless there are quotes. -/
structure IsPart {α : Type} (part : Text → Option (α × Text)) : Prop where
  suffix : ∀ {t : Text} {q : α × Text}, '"' ∉ t → part t = some q → q.2 <:+ t
  comment : ∀ {t : Text} (c : Text), '"' ∉ t → part (t ++ ';' :: c) = (part t).map (commented c)

theorem not_mem_of_suffix {x : Char} {s t : Text} (h : s <:+ t) (ht : x ∉ t) : x ∉ s :=
  fun hs => ht (h.subset hs)

theorem takeWhile_append_comment {p : Char → Bool} (hp : p ';' = false) (t c : Text) :
    (t ++ ';' :: c).takeWhile p = t.takeWhile p := by
  induction t with
  | nil => simp [hp]
  | cons d t ih => by_cases hd : p d <;> simp [hd, ih]

theorem dropWhile_append_comment {p : Char → Bool} (hp : p ';' = false) (t c : Text) :
    (t ++ ';' :: c).dropWhile p = t.dropWhile p ++ ';' :: c := by
  induction t with
  | nil => simp [hp]
  | cons d t ih => by_cases hd : p d <;> simp [hd, ih]

/-- A comment behind a text gives it no other head but the semicolon. -/
theorem head?_append_comment {x : Char} (hx : x ≠ ';') {t : Text} (h : t.head? ≠ some x)
    (c : Text) : (t ++ ';' :: c).head? ≠ some x := by
  cases t with
  | nil =>
    intro hhead
    exact hx (Option.some.inj hhead).symm
  | cons d t => exact h

theorem run?_append_comment {p : Char → Bool} (hp : p ';' = false) (t c : Text) :
    run? p (t ++ ';' :: c) = (run? p t).map (commented c) := by
  rw [run?, run?, takeWhile_append_comment hp, dropWhile_append_comment hp]
  split <;> rfl

theorem isPart_run {p : Char → Bool} (hp : p ';' = false) : IsPart (run? p) where
  suffix _ h := ⟨_, (run?_eq_some h).2.1.symm⟩
  comment c _ := run?_append_comment hp _ c

theorem isPart_word : IsPart word? :=
  isPart_run (by decide)

theorem afterGap?_append_comment (t c : Text) :
    afterGap? (t ++ ';' :: c) = (afterGap? t).map (· ++ ';' :: c) := by
  rw [afterGap?, afterGap?, run?_append_comment (by decide), Option.map_map, Option.map_map]
  rfl

theorem afterGap?_suffix {t rest : Text} (h : afterGap? t = some rest) : rest <:+ t := by
  obtain ⟨g, -, rfl, -⟩ := afterGap?_eq_some h
  exact List.suffix_append _ _

theorem item?_eq_word? {t : Text} (h : t.head? ≠ some '"') : item? t = word? t := by
  unfold item?
  split
  · exact absurd rfl h
  · rfl

theorem isPart_item : IsPart item? := by
  -- Without a quote at its head, a text can only start with a word.
  have hhead : ∀ {t : Text}, '"' ∉ t → t.head? ≠ some '"' := fun ht h =>
    ht (List.mem_of_mem_head? h)
  refine ⟨fun {t q} ht h => ?_, fun {t} c ht => ?_⟩
  · rw [item?_eq_word? (hhead ht)] at h
    exact isPart_word.suffix ht h
  · rw [item?_eq_word? (hhead ht), item?_eq_word? (head?_append_comment (by decide) (hhead ht) c)]
    exact isPart_word.comment c ht

theorem isPart_ttl : IsPart ttl? := by
  refine ⟨fun _ h => ⟨_, (ttl?_eq_some h).2.symm⟩, fun {t} c _ => ?_⟩
  rw [ttl?, ttl?, run?_append_comment (by decide)]
  cases run? isAsciiDigit t with
  | none => rfl
  | some q =>
    obtain ⟨digits, rest⟩ := q
    cases rest with
    | nil => rfl
    | cons d rest =>
      dsimp only [Option.map_some, commented, List.cons_append]
      split <;> rfl

/-- A text without semicolons that starts a text with a comment stands before the comment. -/
theorem prefix_of_append_comment {s r t c : Text} (hs : ';' ∉ s) (h : t ++ ';' :: c = s ++ r) :
    ∃ r', t = s ++ r' := by
  rcases List.append_eq_append_iff.1 h with ⟨a, rfl, ha⟩ | ⟨a, rfl, -⟩
  · cases a with
    | nil => exact ⟨[], by simp⟩
    | cons d a =>
      obtain ⟨rfl, -⟩ := List.cons.inj ha
      exact absurd (by simp) hs
  · exact ⟨a, rfl⟩

theorem isPart_class : IsPart class? := by
  refine ⟨fun _ h => ⟨_, (class?_eq_some h).2.symm⟩, fun {t} c _ => ?_⟩
  cases h : class? t with
  | some q =>
    obtain ⟨hs, rfl⟩ := class?_eq_some h
    rw [List.append_assoc, class?_append hs]
    rfl
  | none =>
    cases h' : class? (t ++ ';' :: c) with
    | none => rfl
    | some q =>
      obtain ⟨hs, heq⟩ := class?_eq_some h'
      have hplain : ∀ s ∈ classes, (!s.contains ';') = true := List.all_eq_true.1 (by decide)
      have hnot : ';' ∉ q.1 := by simpa using hplain q.1 hs
      obtain ⟨r, rfl⟩ := prefix_of_append_comment hnot heq
      rw [class?_append hs] at h
      cases h

theorem isPart_type : IsPart type? := by
  refine ⟨fun _ h => ⟨_, (type?_eq_some h).2.1.symm⟩, fun {t} c _ => ?_⟩
  cases t with
  | nil => rfl
  | cons d t =>
    rw [List.cons_append, type?, type?]
    dsimp only
    rw [takeWhile_append_comment (by decide), dropWhile_append_comment (by decide)]
    split <;> rfl

/-! ### Lines before a comment -/

section

variable {part : Text → Option (Text × Text)}

theorem IsPart.optional_comment (h : IsPart part) {t : Text} (ht : '"' ∉ t) (c : Text) :
    optional part (t ++ ';' :: c) = commented c (optional part t) := by
  rw [optional, optional, h.comment c ht]
  cases part t with
  | none => rfl
  | some q =>
    dsimp only [Option.map_some, commented]
    rw [afterGap?_append_comment]
    cases afterGap? q.2 <;> rfl

theorem IsPart.optional_suffix (h : IsPart part) {t : Text} (ht : '"' ∉ t) :
    (optional part t).2 <:+ t := by
  cases hopt : optional part t with
  | mk o rest =>
    rcases optional_cases hopt with ⟨s, g, -, hp, -⟩ | ⟨-, rfl, -⟩
    · exact (List.suffix_append g _).trans (h.suffix ht hp)
    · exact List.suffix_rfl

/-- An item after a gap is a part like the item itself. -/
theorem IsPart.afterGap (h : IsPart part) : IsPart fun t => (afterGap? t).bind part := by
  refine ⟨fun {t q} ht hq => ?_, fun {t} c ht => ?_⟩
  · obtain ⟨rest, hgap, hpart⟩ := Option.bind_eq_some_iff.1 hq
    have hrest := afterGap?_suffix hgap
    exact (h.suffix (not_mem_of_suffix hrest ht) hpart).trans hrest
  · rw [afterGap?_append_comment]
    cases hgap : afterGap? t with
    | none => rfl
    | some rest => exact h.comment c (not_mem_of_suffix (afterGap?_suffix hgap) ht)

/-- **Items are taken up to a comment as they are up to the end.** -/
theorem IsPart.items_comment (h : IsPart part) (c : Text) {t : Text} (ht : '"' ∉ t) :
    items part (t ++ ';' :: c) = commented c (items part t) ∧ (items part t).2 <:+ t := by
  induction hn : t.length using Nat.strong_induction_on generalizing t with
  | _ n ih =>
    subst hn
    rw [items, items.eq_def part t, h.afterGap.comment c ht]
    cases hitem : (afterGap? t).bind part with
    | none => exact ⟨rfl, List.suffix_rfl⟩
    | some q =>
      have hq : q.2 <:+ t := h.afterGap.suffix ht hitem
      have hlength : (q.2 ++ ';' :: c).length < (t ++ ';' :: c).length ↔ q.2.length < t.length := by
        simp only [List.length_append]
        omega
      dsimp only [Option.map_some, commented]
      by_cases hlt : q.2.length < t.length
      · obtain ⟨hmore, hsuffix⟩ := ih _ hlt (not_mem_of_suffix hq ht) rfl
        rw [if_pos hlt, if_pos (hlength.2 hlt), hmore]
        exact ⟨rfl, hsuffix.trans hq⟩
      · rw [if_neg hlt, if_neg (mt hlength.1 hlt)]
        exact ⟨rfl, List.suffix_rfl⟩

end

theorem isPart_directive : IsPart directive? := by
  have hitems := isPart_word.items_comment
  refine ⟨fun {t q} ht h => ?_, fun {t} c ht => ?_⟩
  · unfold directive? at h
    split at h
    · rename_i r
      have hr : '"' ∉ r := fun hr => ht (List.mem_cons_of_mem _ hr)
      split at h
      · rename_i name rest hname
        have hrest : rest <:+ r := (isPart_run (by decide)).suffix hr hname
        cases h
        have hargs := (hitems [] (not_mem_of_suffix hrest hr)).2
        exact (hargs.trans hrest).trans (List.suffix_cons _ _)
      · cases h
    · cases h
  · by_cases hd : t.head? = some '$'
    · obtain ⟨r, rfl⟩ := List.head?_eq_some_iff.1 hd
      have hr : '"' ∉ r := fun hr => ht (List.mem_cons_of_mem _ hr)
      rw [List.cons_append, directive?, directive?, run?_append_comment (by decide)]
      cases hname : run? isLetter r with
      | none => rfl
      | some q =>
        have hrest : q.2 <:+ r := (isPart_run (by decide)).suffix hr hname
        dsimp only [Option.map_some, commented]
        rw [(hitems c (not_mem_of_suffix hrest hr)).1]
        rfl
    · rw [directive?_eq_none hd, directive?_eq_none (head?_append_comment (by decide) hd c)]
      rfl

/-- What stands before the type leaves the end of the text over. -/
theorem beforeType_suffix {t : Text} (ht : '"' ∉ t) :
    (optional class? (optional ttl? t).2).2 <:+ t := by
  have httl := isPart_ttl.optional_suffix ht
  exact (isPart_class.optional_suffix (not_mem_of_suffix httl ht)).trans httl

theorem isPart_record : IsPart entry? := by
  have hitems := isPart_item.items_comment
  have hgap : ∀ {t rest : Text}, afterGap? (t.dropWhile isWordChar) = some rest → rest <:+ t :=
    fun h => (afterGap?_suffix h).trans (List.dropWhile_suffix _)
  refine ⟨fun {t q} ht h => ?_, fun {t} c ht => ?_⟩
  · unfold entry? at h
    dsimp only at h
    split at h
    · cases h
    · rename_i rest howner
      have hrest := not_mem_of_suffix (hgap howner) ht
      have hbefore := beforeType_suffix hrest
      split at h
      · cases h
      · rename_i type after htype
        have hafter : after <:+ _ := isPart_type.suffix (not_mem_of_suffix hbefore hrest) htype
        have hall := (hafter.trans hbefore).trans (hgap howner)
        cases h
        exact (hitems [] (not_mem_of_suffix hall ht)).2.trans hall
  · unfold entry?
    rw [takeWhile_append_comment (by decide), dropWhile_append_comment (by decide),
      afterGap?_append_comment]
    cases howner : afterGap? (t.dropWhile isWordChar) with
    | none => rfl
    | some rest =>
      have hrest := not_mem_of_suffix (hgap howner) ht
      have hbefore := beforeType_suffix hrest
      have hquote := not_mem_of_suffix hbefore hrest
      dsimp only [Option.map_some]
      rw [isPart_ttl.optional_comment hrest]
      dsimp only [commented]
      rw [isPart_class.optional_comment
        (not_mem_of_suffix (isPart_ttl.optional_suffix hrest) hrest)]
      dsimp only [commented]
      rw [isPart_type.comment c hquote]
      cases htype : type? (optional class? (optional ttl? rest).2).2 with
      | none => rfl
      | some q =>
        have hafter := isPart_type.suffix hquote htype
        dsimp only [Option.map_some, commented]
        rw [(hitems c (not_mem_of_suffix hafter hquote)).1]
        rfl

theorem content_append_comment {t : Text} (ht : '"' ∉ t) (c : Text) :
    content (t ++ ';' :: c) = commented c (content t) := by
  rw [content, content, isPart_directive.comment c ht, isPart_record.comment c ht]
  cases directive? t with
  | some q => rfl
  | none => cases entry? t <;> rfl

theorem content_suffix {t : Text} (ht : '"' ∉ t) : (content t).2 <:+ t := by
  unfold content
  split
  · rename_i q hq
    exact isPart_directive.suffix ht hq
  · split
    · rename_i q hq
      exact isPart_record.suffix ht hq
    · exact List.suffix_rfl

theorem afterComment_append_comment {t c : Text} (ht : ';' ∉ t) (hc : '\n' ∉ c) :
    afterComment (t ++ ';' :: c) = [] ↔ afterComment t = [] := by
  rw [afterComment, afterComment, dropWhile_append_comment (by decide)]
  have hw : ';' ∉ t.dropWhile isGap := not_mem_of_suffix (List.dropWhile_suffix _) ht
  generalize t.dropWhile isGap = w at hw ⊢
  cases w with
  | nil =>
    have hall : c.dropWhile (· != '\n') = [] :=
      List.dropWhile_eq_nil_iff.2 fun d hd => bne_iff_ne.2 fun h => hc (h ▸ hd)
    exact iff_of_true hall rfl
  | cons d w =>
    have hd : d ≠ ';' := fun h => hw (h ▸ List.mem_cons_self)
    simp [hd]

/-- **A line says the same with a comment and without.** -/
theorem parseLine_append_comment {t c : Text} (hquote : '"' ∉ t) (hplain : ';' ∉ t)
    (hc : '\n' ∉ c) (said : LineContent) :
    parseLine (t ++ ';' :: c) = .ok said ↔ parseLine t = .ok said := by
  rw [parseLine_eq_ok_iff, parseLine_eq_ok_iff, content_append_comment hquote]
  exact and_congr_right fun _ =>
    afterComment_append_comment (not_mem_of_suffix (content_suffix hquote) hplain) hc

/-! ### Joining lines with and without comments -/

theorem before_or_comment (line : Text) :
    before ';' line = line ∨ ∃ c, before ';' line ++ ';' :: c = line := by
  have hsplit : before ';' line ++ line.dropWhile (· != ';') = line :=
    List.takeWhile_append_dropWhile
  have hhead := List.head?_dropWhile_not (· != ';') line
  cases hw : line.dropWhile (· != ';') with
  | nil =>
    rw [hw, List.append_nil] at hsplit
    exact .inl hsplit
  | cons d c =>
    rw [hw] at hsplit hhead
    obtain rfl : d = ';' := by simpa using hhead
    exact .inr ⟨c, hsplit⟩

/-- A line that is cut has no comment, and no quote that it had not before. -/
theorem before_plain {line : Text} (hquote : '"' ∉ line) :
    '"' ∉ before ';' line ∧ ';' ∉ before ';' line := by
  refine ⟨fun h => hquote (List.takeWhile_subset _ h), fun h => ?_⟩
  have := List.mem_takeWhile_imp h
  exact absurd this (by decide)

theorem before_before (line : Text) : before ';' (before ';' line) = before ';' line :=
  List.takeWhile_idem

/-- What is put behind the last text is put behind the joined texts. -/
theorem joinWith_append_last (sep a b : Text) (ts : List Text) :
    joinWith sep (ts ++ [a ++ b]) = joinWith sep (ts ++ [a]) ++ b := by
  induction ts with
  | nil => simp [joinWith]
  | cons s ts ih =>
    cases ts with
    | nil => simp [joinWith, List.intercalate_cons_cons]
    | cons u ts =>
      simp only [joinWith, List.cons_append, List.intercalate_cons_cons, List.append_assoc] at ih ⊢
      rw [ih]

theorem not_mem_joinWith {x : Char} {sep : Text} (hsep : x ∉ sep) {ts : List Text}
    (h : ∀ t ∈ ts, x ∉ t) : x ∉ joinWith sep ts := by
  induction ts with
  | nil => simp [joinWith]
  | cons t ts ih =>
    obtain ⟨ht, hts⟩ := List.forall_mem_cons.1 h
    cases ts with
    | nil => simpa [joinWith] using ht
    | cons u ts =>
      have hmore := ih hts
      simp only [joinWith, List.intercalate_cons_cons, List.mem_append, not_or] at hmore ⊢
      exact ⟨⟨ht, hsep⟩, hmore⟩

/-- Joinings that differ only in what the finished lines have as their comments. -/
structure Joining.Alike (j j' : Joining) : Prop where
  done : List.Forall₂ Logical.SaysSame j.done j'.done
  pending : j.pending = j'.pending
  start : j.start = j'.start
  depth : j.depth = j'.depth
  count : j.count = j'.count
  /-- No open line has a quote or a comment. -/
  plain : ∀ p ∈ j.pending, '"' ∉ p ∧ ';' ∉ p

/-- A group of open lines says the same whether its last line has its comment or not. -/
theorem parseLine_join {pending : List Text} (hpending : ∀ p ∈ pending, '"' ∉ p ∧ ';' ∉ p)
    {line : Text} (hquote : '"' ∉ line) (hfeed : '\n' ∉ line) (said : LineContent) :
    parseLine (joinWith [' '] (line :: pending).reverse) = .ok said ↔
      parseLine (joinWith [' '] (before ';' line :: pending).reverse) = .ok said := by
  rcases before_or_comment line with hline | ⟨c, hline⟩
  · rw [hline]
  · have hbody : ∀ p ∈ pending.reverse ++ [before ';' line], '"' ∉ p ∧ ';' ∉ p := by
      intro p hp
      rcases List.mem_append.1 hp with hp | hp
      · exact hpending p (List.mem_reverse.1 hp)
      · obtain rfl := List.mem_singleton.1 hp
        exact before_plain hquote
    have hc : '\n' ∉ c := fun h => hfeed (by rw [← hline]; simp [h])
    rw [List.reverse_cons, List.reverse_cons]
    nth_rewrite 1 [← hline]
    rw [joinWith_append_last]
    exact parseLine_append_comment (not_mem_joinWith (by decide) fun p hp => (hbody p hp).1)
      (not_mem_joinWith (by decide) fun p hp => (hbody p hp).2) hc said

/-- **One line, with its comment and without, is joined alike.** -/
theorem Joining.Alike.next {j j' : Joining} (h : j.Alike j') {line : Text} (hquote : '"' ∉ line)
    (hfeed : '\n' ∉ line) : (j.next line).Alike (j'.next (before ';' line)) := by
  unfold Joining.next
  simp only [before_before, ← h.pending, ← h.start, ← h.depth, ← h.count]
  split
  · refine ⟨h.done, rfl, rfl, rfl, rfl, fun p hp => ?_⟩
    rcases List.mem_cons.1 hp with rfl | hp
    · exact before_plain hquote
    · exact h.plain p hp
  · refine ⟨.cons ⟨rfl, parseLine_join h.plain hquote hfeed⟩ h.done, rfl, rfl, rfl, rfl, ?_⟩
    intro p hp
    cases hp

theorem Joining.Alike.foldl {lines : List Text} (hlines : ∀ line ∈ lines, '"' ∉ line ∧ '\n' ∉ line)
    {j j' : Joining} (h : j.Alike j') :
    (lines.foldl Joining.next j).Alike ((lines.map (before ';')).foldl Joining.next j') := by
  induction lines generalizing j j' with
  | nil => exact h
  | cons line rest ih =>
    obtain ⟨hline, hrest⟩ := List.forall_mem_cons.1 hlines
    rw [List.map_cons, List.foldl_cons, List.foldl_cons]
    exact ih hrest (h.next hline.1 hline.2)

/-! ### Zones without their comments -/

/-- The zone with every line cut at its first semicolon and ended by a line feed. -/
def withoutComments (t : Text) : Text :=
  ((splitLines t).map (before ';')).flatMap (· ++ ['\n'])

theorem splitLines_withoutComments (t : Text) :
    splitLines (withoutComments t) = (splitLines t).map (before ';') := by
  refine splitLines_flatMap fun line hline c hc => ?_
  obtain ⟨full, hfull, rfl⟩ := List.mem_map.1 hline
  exact (of_mem_splitLines hfull c (List.takeWhile_subset _ hc)).2

theorem joining_withoutComments {t : Text} (ht : '"' ∉ t) :
    (joining t).Alike (joining (withoutComments t)) := by
  rw [joining, joining, splitLines_withoutComments]
  refine Joining.Alike.foldl (fun line hline => ⟨fun h => ?_, fun h => ?_⟩)
    ⟨.nil, rfl, rfl, rfl, rfl, fun p hp => by cases hp⟩
  · exact ht (of_mem_splitLines hline _ h).1
  · exact absurd (of_mem_splitLines hline _ h).2 (by decide)

/-- **Comments are inert.**  In a zone without quotes, every line can be cut at its first semicolon:
the same records are read for every domain, or reading fails in the same way at the same line. -/
theorem records_withoutComments {t : Text} (ht : '"' ∉ t) (domain : Option Text) (file : Text) :
    (records domain file t).mapError Failure.place
      = (records domain file (withoutComments t)).mapError Failure.place := by
  have hjoin := joining_withoutComments ht
  refine records_place (List.rel_reverse hjoin.done) ?_ domain file
  unfold unclosed?
  simp only [hjoin.pending, hjoin.start]

/-- Comments with parentheses in them, one of them in the middle of a record. -/
theorem records_withoutComments_group :
    '"' ∉ "a. MX ( ; ))\n 1 ; (\n b. ) ; (\n MX 2 c. ;(\n".toList ∧
      withoutComments "a. MX ( ; ))\n 1 ; (\n b. ) ; (\n MX 2 c. ;(\n".toList
        = "a. MX ( \n 1 \n b. ) \n MX 2 c. \n".toList ∧
      (records none [] "a. MX ( ; ))\n 1 ; (\n b. ) ; (\n MX 2 c. ;(\n".toList).mapError
          Failure.place
        = (records none [] "a. MX ( \n 1 \n b. ) \n MX 2 c. \n".toList).mapError
          Failure.place := by
  have hquote : '"' ∉ "a. MX ( ; ))\n 1 ; (\n b. ) ; (\n MX 2 c. ;(\n".toList := by decide
  have hcut : withoutComments "a. MX ( ; ))\n 1 ; (\n b. ) ; (\n MX 2 c. ;(\n".toList
      = "a. MX ( \n 1 \n b. ) \n MX 2 c. \n".toList := by decide +kernel
  have hsame := records_withoutComments hquote none []
  rw [hcut] at hsame
  exact ⟨hquote, hcut, hsame⟩

end MxLang.Zone
