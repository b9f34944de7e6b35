import MxLang.Proofs.Lines
import MxLang.Proofs.ZoneLine
import MxLang.Zone.Reader

/-!
# Lines that are not joined

A line is a logical line by itself if, before its first semicolon, it opens no more parentheses than
it closes (`IsClosed`).  If that holds of all lines of a zone nothing is joined, and otherwise
something is: `logicalLines_eq_lines_iff`.

Where parentheses are counted nothing is known of quoted strings, which a record may well have.
`places` tells for each character of a line before its comment whether it stands in a quoted string,
as the data of a record have them (`places_of_quotedRest?`).  A line is *quiet* if all parentheses
before its comment are quoted; then what is counted is `quotedBody`, the quoted characters before
the first semicolon, be that quoted too or not (`balance_before`).  So the quoted strings of a quiet
line can open a parenthesis that joins the lines after it to this one: `logicalLines_of_quiet` says
when, and `records_quoted_paren` shows a record that is lost.
-/

namespace MxLang.Zone

open Text

/-! ### Joining line by line -/

/-- The line closes before its first semicolon all parentheses that it opens there. -/
def IsClosed (line : Text) : Prop :=
  balance (before ';' line) ≤ 0

/-- The lines as logical lines, numbered from the one after `n`. -/
def numberedFrom (n : Nat) (lines : List Text) : List Logical :=
  lines.mapIdx fun i line => ⟨n + i + 1, line⟩

theorem numberedFrom_cons (n : Nat) (line : Text) (rest : List Text) :
    numberedFrom n (line :: rest) = ⟨n + 1, line⟩ :: numberedFrom (n + 1) rest := by
  rw [numberedFrom, numberedFrom, List.mapIdx_cons]
  simp only [Nat.add_zero, List.cons.injEq, true_and]
  congr 1
  funext i line
  rw [Nat.add_assoc n 1 i, Nat.add_comm 1 i]

theorem map_text_numberedFrom (n : Nat) (lines : List Text) :
    (numberedFrom n lines).map (·.text) = lines := by
  induction lines generalizing n with
  | nil => rfl
  | cons line rest ih => rw [numberedFrom_cons, List.map_cons, ih]

/-- No line is open. -/
def Joining.IsSettled (j : Joining) : Prop :=
  j.pending = [] ∧ j.depth = 0

theorem Joining.next_of_closed {j : Joining} {line : Text} (hj : j.IsSettled) (h : IsClosed line) :
    j.next line = { done := ⟨j.count + 1, line⟩ :: j.done, count := j.count + 1 } := by
  obtain ⟨hp, hd⟩ := hj
  have hdepth : ¬ 0 < j.depth + balance (before ';' line) := by
    rw [hd]
    unfold IsClosed at h
    omega
  rw [Joining.next]
  simp [hdepth, hp, joinWith]

theorem Joining.done_of_not_closed {j : Joining} {line : Text} (hj : j.IsSettled)
    (h : ¬ IsClosed line) : (j.next line).done = j.done := by
  have hdepth : 0 < j.depth + balance (before ';' line) := by
    rw [hj.2]
    unfold IsClosed at h
    omega
  rw [Joining.next]
  simp only [hdepth, if_true]

theorem Joining.length_done_next (j : Joining) (line : Text) :
    (j.next line).done.length ≤ j.done.length + 1 := by
  unfold Joining.next
  dsimp only
  split
  · exact Nat.le_succ _
  · exact Nat.le_refl _

theorem length_done_foldl (lines : List Text) : ∀ j : Joining,
    (lines.foldl Joining.next j).done.length ≤ j.done.length + lines.length := by
  induction lines with
  | nil => intro j; exact Nat.le_refl _
  | cons line rest ih =>
    intro j
    have hrest := ih (j.next line)
    have hfirst := j.length_done_next line
    rw [List.foldl_cons, List.length_cons]
    omega

/-- **Closed lines are logical lines of their own.** -/
theorem foldl_next_of_closed (lines : List Text) : ∀ {j : Joining}, j.IsSettled →
    (∀ line ∈ lines, IsClosed line) →
    (lines.foldl Joining.next j).done = (numberedFrom j.count lines).reverse ++ j.done ∧
      (lines.foldl Joining.next j).IsSettled := by
  induction lines with
  | nil => intro j hj _; exact ⟨rfl, hj⟩
  | cons line rest ih =>
    intro j hj h
    rw [List.foldl_cons, Joining.next_of_closed hj (h line List.mem_cons_self)]
    obtain ⟨hdone, hsettled⟩ :=
      ih (j := { done := ⟨j.count + 1, line⟩ :: j.done, count := j.count + 1 }) ⟨rfl, rfl⟩
        fun l hl => h l (List.mem_cons_of_mem _ hl)
    refine ⟨?_, hsettled⟩
    rw [hdone, numberedFrom_cons, List.reverse_cons, List.append_assoc, List.singleton_append]

/-- Only closed lines give as many logical lines as there are lines. -/
theorem isClosed_of_length_done (lines : List Text) : ∀ {j : Joining}, j.IsSettled →
    (lines.foldl Joining.next j).done.length = j.done.length + lines.length →
    ∀ line ∈ lines, IsClosed line := by
  induction lines with
  | nil => intro j _ _ line hline; cases hline
  | cons first rest ih =>
    intro j hj hlen
    rw [List.foldl_cons, List.length_cons] at hlen
    by_cases h : IsClosed first
    · rw [Joining.next_of_closed hj h] at hlen
      rw [List.forall_mem_cons]
      refine ⟨h, ih (j := { done := ⟨j.count + 1, first⟩ :: j.done, count := j.count + 1 })
        ⟨rfl, rfl⟩ ?_⟩
      rw [hlen, List.length_cons]
      omega
    · -- The line stays open, and the lines after it cannot make up for it.
      have hle := length_done_foldl rest (j.next first)
      rw [Joining.done_of_not_closed hj h] at hle
      omega

variable {t : Text}

theorem unclosed?_eq_none_iff : unclosed? t = none ↔ (joining t).pending = [] := by
  unfold unclosed?
  dsimp only
  by_cases h : (joining t).pending = []
  · simp [h]
  · simp [h]

/-- **Nothing is joined in a zone just if all its lines are closed.** -/
theorem logicalLines_eq_lines_iff :
    logicalLines t = numberedFrom 0 (splitLines t) ∧ unclosed? t = none ↔
      ∀ line ∈ splitLines t, IsClosed line := by
  rw [unclosed?_eq_none_iff, logicalLines, joining]
  have hstart : Joining.IsSettled {} := ⟨rfl, rfl⟩
  constructor
  · rintro ⟨hlines, -⟩
    apply isClosed_of_length_done (splitLines t) hstart
    have hlen := congrArg List.length hlines
    rw [List.length_reverse, numberedFrom, List.length_mapIdx] at hlen
    rw [hlen]
    exact (Nat.zero_add _).symm
  · intro h
    obtain ⟨hdone, hsettled⟩ := foldl_next_of_closed (splitLines t) hstart h
    refine ⟨?_, hsettled.1⟩
    rw [hdone, List.append_nil, List.reverse_reverse]

/-- A zone of closed lines is read line by line. -/
theorem records_of_closed (h : ∀ line ∈ splitLines t, IsClosed line) (domain : Option Text)
    (file : Text) :
    records domain file t
      = ((numberedFrom 0 (splitLines t)).foldlM (Reading.next domain file) {}).map
          fun r => r.records.reverse := by
  obtain ⟨hlines, hclosed⟩ := logicalLines_eq_lines_iff.2 h
  unfold records
  rw [hlines, hclosed]
  cases (numberedFrom 0 (splitLines t)).foldlM (Reading.next domain file) {} <;> rfl

/-! ### Quoted strings -/

/-- Where a character of a line stands that is not in its comment. -/
inductive Place
  | bare
  | quoted
deriving DecidableEq, Repr

/-- The characters of a line up to its comment, with their places; the first `left` of them are in a
quoted string that has been opened.  A quote that is not closed opens no string. -/
def placesFrom (left : Nat) : Text → List (Char × Place)
  | [] => []
  | c :: t =>
    match left with
    | k + 1 => (c, .quoted) :: placesFrom k t
    | 0 =>
      if c = ';' then []
      else
        match if c = '"' then quotedRest? t else none with
        | some (s, _) => (c, .quoted) :: placesFrom s.length t
        | none => (c, .bare) :: placesFrom 0 t

/-- The characters of a line up to its comment, with their places. -/
def places (line : Text) : List (Char × Place) :=
  placesFrom 0 line

/-- Every parenthesis of the line stands in a quoted string or in the comment. -/
def isQuiet (line : Text) : Bool :=
  (places line).all fun p => p.2 = .quoted || (p.1 != '(' && p.1 != ')')

/-- The quoted characters before the first semicolon. -/
def quotedBody (line : Text) : Text :=
  (((places line).takeWhile fun p => p.1 != ';').filter fun p => p.2 = .quoted).map Prod.fst

theorem placesFrom_length_append (s rest : Text) :
    placesFrom s.length (s ++ rest) = s.map (·, Place.quoted) ++ placesFrom 0 rest := by
  induction s with
  | nil => rfl
  | cons c s ih => rw [List.length_cons, List.cons_append, placesFrom, ih]; rfl

/-- A quoted string is quoted as a whole, and what follows it starts anew. -/
theorem places_of_quotedRest? {s rest : Text} (h : quotedRest? t = some (s, rest)) :
    places ('"' :: t) = ('"' :: s).map (·, Place.quoted) ++ places rest := by
  have hfirst : places ('"' :: t) = ('"', .quoted) :: placesFrom s.length t := by
    simp [places, placesFrom, h]
  rw [hfirst, (quotedRest?_eq_some_iff.1 h).2, placesFrom_length_append]
  rfl

/-- The comment begins at a semicolon, so everything before the first one has its place. -/
theorem before_eq_map_placesFrom (left : Nat) (line : Text) :
    before ';' line = ((placesFrom left line).takeWhile fun p => p.1 != ';').map Prod.fst := by
  rw [before]
  induction line generalizing left with
  | nil => rfl
  | cons c t ih =>
    by_cases hc : c = ';'
    · subst hc
      cases left with
      | zero => rfl
      | succ k => rfl
    · have hne : (c != ';') = true := by simpa using hc
      have hpair : ∀ (place : Place) (ps : List (Char × Place)),
          ((c, place) :: ps).takeWhile (fun p => p.1 != ';')
            = (c, place) :: ps.takeWhile fun p => p.1 != ';' := by
        intro place ps
        rw [List.takeWhile_cons, if_pos hne]
      rw [List.takeWhile_cons, if_pos hne]
      cases left with
      | zero =>
        rw [placesFrom, if_neg hc]
        split
        · rename_i s rest _
          rw [hpair, List.map_cons, ← ih s.length]
        · rw [hpair, List.map_cons, ← ih 0]
      | succ k => rw [placesFrom, hpair, List.map_cons, ← ih k]

theorem balance_filter_quoted {ps : List (Char × Place)}
    (h : ∀ p ∈ ps, p.2 = .quoted ∨ p.1 ≠ '(' ∧ p.1 ≠ ')') :
    balance (ps.map Prod.fst) = balance ((ps.filter fun p => p.2 = .quoted).map Prod.fst) := by
  induction ps with
  | nil => rfl
  | cons p rest ih =>
    have hrest := ih fun q hq => h q (List.mem_cons_of_mem _ hq)
    unfold balance at hrest ⊢
    by_cases hp : p.2 = .quoted
    · simp only [List.filter_cons, hp, decide_true, if_true, List.map_cons, List.count_cons]
      omega
    · obtain ⟨hopen, hclose⟩ := (h p List.mem_cons_self).resolve_left hp
      simp only [List.filter_cons, hp, decide_false, Bool.false_eq_true, if_false, List.map_cons,
        List.count_cons_of_ne hopen, List.count_cons_of_ne hclose]
      exact hrest

/-- **In a quiet line only quoted parentheses are counted.** -/
theorem balance_before {line : Text} (h : isQuiet line) :
    balance (before ';' line) = balance (quotedBody line) := by
  rw [before_eq_map_placesFrom 0, quotedBody]
  apply balance_filter_quoted
  intro p hp
  have hp := List.all_eq_true.1 h p ((List.takeWhile_sublist _).subset hp)
  simpa [bne_iff_ne] using hp

/-- **Quiet lines and joining.**  In a zone all of whose parentheses are in quoted strings and
comments, every line is a logical line by itself, and no line is open at the end, just if in no line
the quoted strings open more parentheses than they close before the first semicolon.  Then the zone
is read line by line. -/
theorem logicalLines_of_quiet (hquiet : ∀ line ∈ splitLines t, isQuiet line) :
    (logicalLines t = numberedFrom 0 (splitLines t) ∧ unclosed? t = none ↔
      ∀ line ∈ splitLines t, balance (quotedBody line) ≤ 0) ∧
    ((∀ line ∈ splitLines t, balance (quotedBody line) ≤ 0) → ∀ domain file,
      records domain file t
        = ((numberedFrom 0 (splitLines t)).foldlM (Reading.next domain file) {}).map
            fun r => r.records.reverse) := by
  have hiff : (∀ line ∈ splitLines t, IsClosed line) ↔
      ∀ line ∈ splitLines t, balance (quotedBody line) ≤ 0 := by
    refine forall₂_congr fun line hline => ?_
    rw [IsClosed, balance_before (hquiet line hline)]
  refine ⟨logicalLines_eq_lines_iff.trans hiff, ?_⟩
  intro h domain file
  exact records_of_closed (hiff.2 h) domain file

/-- Parentheses in a quoted string with an escaped quote between them, and in a comment. -/
theorem logicalLines_of_quiet_escaped :
    (∀ line ∈ splitLines "a TXT \"(\\\")\" ; (\nb MX 1 x.\n".toList, isQuiet line) ∧
      logicalLines "a TXT \"(\\\")\" ; (\nb MX 1 x.\n".toList
        = numberedFrom 0 (splitLines "a TXT \"(\\\")\" ; (\nb MX 1 x.\n".toList) ∧
      unclosed? "a TXT \"(\\\")\" ; (\nb MX 1 x.\n".toList = none := by
  have hquiet : ∀ line ∈ splitLines "a TXT \"(\\\")\" ; (\nb MX 1 x.\n".toList, isQuiet line :=
    List.all_eq_true.1 (by decide +kernel)
  have hbody : ∀ line ∈ splitLines "a TXT \"(\\\")\" ; (\nb MX 1 x.\n".toList,
      decide (balance (quotedBody line) ≤ 0) = true :=
    List.all_eq_true.1 (by decide +kernel)
  obtain ⟨hiff, -⟩ := logicalLines_of_quiet hquiet
  exact ⟨hquiet, hiff.2 fun line hline => of_decide_eq_true (hbody line hline)⟩

/-- A parenthesis in a quoted string takes the next two lines into its record, and with them an MX
record. -/
theorem records_quoted_paren :
    (∀ line ∈ splitLines "a IN TXT \"(\"\nb IN MX 1 x.\nc IN TXT \")\"\n".toList, isQuiet line) ∧
      logicalLines "a IN TXT \"(\"\nb IN MX 1 x.\nc IN TXT \")\"\n".toList
        = [⟨1, "a IN TXT \"(\" b IN MX 1 x. c IN TXT \")\"".toList⟩] ∧
      records none [] "a IN TXT \"(\"\nb IN MX 1 x.\nc IN TXT \")\"\n".toList = .ok [] := by
  refine ⟨List.all_eq_true.1 (by decide +kernel), ?_, ?_⟩ <;> decide +kernel

end MxLang.Zone
