import MxLang.Proofs.Transport
import MxLang.Proofs.ZoneFront

/-!
# Lines and logical lines

The lines of a zone fall into groups, one for each logical line, and a rest.  Within a group more
parentheses have been opened than closed after every line but the last (`IsOpen`), and not more
after the last; in the rest this is so after every line.  There is one such grouping only
(`IsGrouping.unique`), as the first place where parentheses are closed ends a group.

Joining finds it.  `Joining.Shows` says how its state tells of groups and rest, and one more line is
either added to the rest or ends a group (`Joining.Shows.next_open`, `Joining.Shows.next_closed`).
So every logical line is the text of a group with the number of its first line, and a zone is left
open just if there is a rest (`logicalLines_grouping`).
-/

namespace MxLang.Zone

open Text

/-! ### Groups -/

/-- How many more parentheses the lines open than they close, comments apart. -/
def depth (lines : List Text) : Int :=
  balance (lines.flatMap (before ';'))

theorem depth_concat (lines : List Text) (line : Text) :
    depth (lines ++ [line]) = depth lines + balance (before ';' line) := by
  rw [depth, List.flatMap_append, balance_append, List.flatMap_singleton]
  rfl

/-- After every one of the lines more parentheses have been opened than closed. -/
def IsOpen (lines : List Text) : Prop :=
  ∀ front, front ≠ [] → front <+: lines → 0 < depth front

theorem isOpen_nil : IsOpen [] := by
  intro front hne hpre
  exact absurd (List.prefix_nil.1 hpre) hne

theorem IsOpen.concat {lines : List Text} {line : Text} (h : IsOpen lines)
    (hdepth : 0 < depth (lines ++ [line])) : IsOpen (lines ++ [line]) := by
  intro front hne hpre
  rcases List.prefix_concat_iff.1 hpre with rfl | hpre
  · exact hdepth
  · exact h front hne hpre

/-- Lines that make a logical line. -/
@[ext]
structure Group where
  front : List Text
  last : Text
  isOpen : IsOpen front
  isClosed : depth (front ++ [last]) ≤ 0

namespace Group

def lines (g : Group) : List Text :=
  g.front ++ [g.last]

/-- The lines joined by blanks, without their comments but for the last one. -/
def text (g : Group) : Text :=
  joinWith [' '] (g.front.map (before ';') ++ [g.last])

theorem lines_ne_nil (g : Group) : g.lines ≠ [] :=
  List.append_ne_nil_of_right_ne_nil _ (List.cons_ne_nil _ _)

/-- Lines that are open do not begin with a group. -/
theorem not_prefix_of_isOpen (g : Group) {lines : List Text} (h : IsOpen lines) :
    ¬ g.lines <+: lines := by
  intro hpre
  exact absurd (h g.lines g.lines_ne_nil hpre) (Int.not_lt.2 g.isClosed)

/-- No group goes on where another one has ended. -/
theorem length_lines_le {g h : Group} {lines : List Text} (hg : g.lines <+: lines)
    (hh : h.lines <+: lines) : h.lines.length ≤ g.lines.length := by
  by_contra hlt
  have hpre := List.prefix_of_prefix_length_le hg hh (by omega)
  rcases List.prefix_concat_iff.1 hpre with heq | hfront
  · exact hlt (congrArg List.length heq).ge
  · exact g.not_prefix_of_isOpen h.isOpen hfront

/-- Lines begin with at most one group. -/
theorem eq_of_begins {g h : Group} {lines : List Text} (hg : g.lines <+: lines)
    (hh : h.lines <+: lines) : g = h := by
  have hlen : g.lines.length = h.lines.length :=
    Nat.le_antisymm (length_lines_le hh hg) (length_lines_le hg hh)
  have hlines : g.lines = h.lines :=
    (List.prefix_of_prefix_length_le hg hh hlen.le).eq_of_length hlen
  obtain ⟨hfront, hlast⟩ := List.append_inj' hlines rfl
  exact Group.ext hfront (List.cons.inj hlast).1

end Group

/-- The lines are those of the groups, one after another, and a rest that is still open. -/
structure IsGrouping (lines : List Text) (groups : List Group) (rest : List Text) : Prop where
  lines_eq : groups.flatMap Group.lines ++ rest = lines
  isOpen : IsOpen rest

namespace IsGrouping

variable {lines rest rest' : List Text} {groups groups' : List Group}

/-- **Lines are grouped in one way only.** -/
theorem unique (h : IsGrouping lines groups rest) (h' : IsGrouping lines groups' rest') :
    groups' = groups ∧ rest' = rest := by
  induction groups generalizing lines groups' with
  | nil =>
    have hrest : rest = lines := h.lines_eq
    cases groups' with
    | nil => exact ⟨rfl, h'.lines_eq.trans hrest.symm⟩
    | cons g more =>
      have heq := h'.lines_eq
      rw [List.flatMap_cons, List.append_assoc, ← hrest] at heq
      exact absurd ⟨_, heq⟩ (g.not_prefix_of_isOpen h.isOpen)
  | cons g more ih =>
    have heq := h.lines_eq
    rw [List.flatMap_cons, List.append_assoc] at heq
    cases groups' with
    | nil =>
      have hrest : rest' = lines := h'.lines_eq
      rw [← hrest] at heq
      exact absurd ⟨_, heq⟩ (g.not_prefix_of_isOpen h'.isOpen)
    | cons g' more' =>
      have heq' := h'.lines_eq
      rw [List.flatMap_cons, List.append_assoc] at heq'
      obtain rfl := Group.eq_of_begins ⟨_, heq⟩ ⟨_, heq'⟩
      have hmore := List.append_cancel_left (heq'.trans heq.symm)
      obtain ⟨rfl, rfl⟩ := ih ⟨rfl, h.isOpen⟩ ⟨hmore, h'.isOpen⟩
      exact ⟨rfl, rfl⟩

theorem concat_open (h : IsGrouping lines groups rest) {line : Text}
    (hdepth : 0 < depth (rest ++ [line])) :
    IsGrouping (lines ++ [line]) groups (rest ++ [line]) := by
  refine ⟨?_, h.isOpen.concat hdepth⟩
  rw [← List.append_assoc, h.lines_eq]

theorem concat_closed (h : IsGrouping lines groups rest) {line : Text}
    (hdepth : depth (rest ++ [line]) ≤ 0) :
    IsGrouping (lines ++ [line]) (groups ++ [⟨rest, line, h.isOpen, hdepth⟩]) [] := by
  refine ⟨?_, isOpen_nil⟩
  rw [List.append_nil, List.flatMap_append, List.flatMap_singleton, Group.lines,
    ← List.append_assoc, h.lines_eq]

end IsGrouping

/-! ### Joining -/

/-- The logical lines of the groups, if `n` lines come before them. -/
def logicalsFrom (n : Nat) : List Group → List Logical
  | [] => []
  | g :: rest => ⟨n + 1, g.text⟩ :: logicalsFrom (n + g.lines.length) rest

theorem logicalsFrom_concat (groups : List Group) (g : Group) : ∀ n,
    logicalsFrom n (groups ++ [g])
      = logicalsFrom n groups ++ [⟨n + (groups.flatMap Group.lines).length + 1, g.text⟩] := by
  induction groups with
  | nil => intro n; rfl
  | cons first more ih =>
    intro n
    rw [List.cons_append, logicalsFrom, ih, logicalsFrom, List.flatMap_cons, List.length_append,
      Nat.add_assoc n]
    rfl

namespace Joining

/-- What has been joined are the groups, and what is open is the rest. -/
structure Shows (groups : List Group) (rest : List Text) (j : Joining) : Prop where
  done : j.done = (logicalsFrom 0 groups).reverse
  pending : j.pending = (rest.map (before ';')).reverse
  depth : j.depth = Zone.depth rest
  start : rest ≠ [] → j.start = (groups.flatMap Group.lines).length + 1
  count : j.count = (groups.flatMap Group.lines).length + rest.length

namespace Shows

variable {groups : List Group} {rest : List Text} {j : Joining} {line : Text}

theorem pending_eq_nil_iff (h : j.Shows groups rest) : j.pending = [] ↔ rest = [] := by
  rw [h.pending, List.reverse_eq_nil_iff, List.map_eq_nil_iff]

theorem depth_next (h : j.Shows groups rest) :
    j.depth + balance (before ';' line) = Zone.depth (rest ++ [line]) := by
  rw [h.depth, depth_concat]

/-- Where a group starts that one more line belongs to. -/
theorem start_next (h : j.Shows groups rest) :
    (if j.pending = [] then j.count + 1 else j.start)
      = (groups.flatMap Group.lines).length + 1 := by
  by_cases hrest : rest = []
  · rw [if_pos (h.pending_eq_nil_iff.2 hrest), h.count, hrest]
    rfl
  · rw [if_neg (fun hp => hrest (h.pending_eq_nil_iff.1 hp)), h.start hrest]

/-- A line that leaves a parenthesis open is added to the rest. -/
theorem next_open (h : j.Shows groups rest) (hdepth : 0 < Zone.depth (rest ++ [line])) :
    (j.next line).Shows groups (rest ++ [line]) := by
  have hnext : 0 < j.depth + balance (before ';' line) := h.depth_next ▸ hdepth
  unfold Joining.next
  dsimp only
  rw [if_pos hnext]
  refine ⟨h.done, ?_, h.depth_next, fun _ => h.start_next, ?_⟩
  · rw [h.pending, List.map_append, List.reverse_append]
    rfl
  · rw [h.count, List.length_append, List.length_singleton, Nat.add_assoc]

/-- A line that leaves none open ends a group. -/
theorem next_closed (h : j.Shows groups rest) (hopen : IsOpen rest)
    (hdepth : Zone.depth (rest ++ [line]) ≤ 0) :
    (j.next line).Shows (groups ++ [⟨rest, line, hopen, hdepth⟩]) [] := by
  have hnext : ¬ 0 < j.depth + balance (before ';' line) := by
    rw [h.depth_next]
    omega
  unfold Joining.next
  dsimp only
  rw [if_neg hnext]
  refine ⟨?_, rfl, rfl, fun hne => absurd rfl hne, ?_⟩
  · rw [logicalsFrom_concat, List.reverse_append, ← h.done, h.start_next, h.pending,
      List.reverse_cons, List.reverse_reverse, Nat.zero_add]
    rfl
  · rw [h.count, List.flatMap_append, List.flatMap_singleton, List.length_append, Group.lines,
      List.length_append]
    rfl

end Shows

/-- **Joining groups the lines.** -/
theorem exists_isGrouping (lines : List Text) :
    ∃ groups rest, IsGrouping lines groups rest ∧ (joined lines).Shows groups rest := by
  induction lines using List.reverseRecOn with
  | nil => exact ⟨[], [], ⟨rfl, isOpen_nil⟩, rfl, rfl, rfl, fun hne => absurd rfl hne, rfl⟩
  | append_singleton lines line ih =>
    obtain ⟨groups, rest, hgroup, hshows⟩ := ih
    rw [joined_concat]
    by_cases hdepth : 0 < Zone.depth (rest ++ [line])
    · exact ⟨_, _, hgroup.concat_open hdepth, hshows.next_open hdepth⟩
    · have hclosed := Int.not_lt.1 hdepth
      exact ⟨_, _, hgroup.concat_closed hclosed, hshows.next_closed hgroup.isOpen hclosed⟩

end Joining

/-! ### Zones -/

variable {t : Text} {groups : List Group} {rest : List Text}

theorem unclosed?_of_shows (h : (joined (splitLines t)).Shows groups rest) :
    unclosed? t = if rest = [] then none else some ((groups.flatMap Group.lines).length + 1) := by
  have hopen : unclosed? t = if (joined (splitLines t)).pending = [] then none
      else some (joined (splitLines t)).start := rfl
  by_cases hrest : rest = []
  · rw [hopen, if_pos (h.pending_eq_nil_iff.2 hrest), if_pos hrest]
  · rw [hopen, if_neg (fun hp => hrest (h.pending_eq_nil_iff.1 hp)), if_neg hrest, h.start hrest]

/-- **Logical lines and lines.**  The lines of a text are, in one way only, the lines of groups one
after another and a rest that is still open.  The logical lines are the texts of the groups, each
with the number of the first line of its group.  If there is a rest, the text is left open from its
first line on, and that is what reading fails with once all logical lines have been read; if there
is none, it does not fail. -/
theorem logicalLines_grouping (t : Text) :
    ∃ groups rest, IsGrouping (splitLines t) groups rest ∧
      (∀ groups' rest', IsGrouping (splitLines t) groups' rest' →
        groups' = groups ∧ rest' = rest) ∧
      logicalLines t = logicalsFrom 0 groups ∧
      (unclosed? t = if rest = [] then none
        else some ((groups.flatMap Group.lines).length + 1)) ∧
      ∀ domain file r, (logicalLines t).foldlM (Reading.next domain file) {} = .ok r →
        records domain file t = if rest = [] then .ok r.records.reverse
          else .error (.fault
            (.zone .unbalanced ((groups.flatMap Group.lines).length + 1) [] [])) := by
  obtain ⟨groups, rest, hgroup, hshows⟩ := Joining.exists_isGrouping (splitLines t)
  have hopen := unclosed?_of_shows hshows
  refine ⟨groups, rest, hgroup, fun _ _ h => hgroup.unique h, ?_, hopen, ?_⟩
  · rw [logicalLines, joining, ← joined, hshows.done, List.reverse_reverse]
  · intro domain file r hfold
    by_cases hrest : rest = []
    · rw [if_pos hrest] at hopen ⊢
      exact records_eq_ok_of_foldlM hfold hopen
    · rw [if_neg hrest] at hopen ⊢
      rw [records, hfold]
      simp only [hopen]

/-- A parenthesis in a comment and an empty line, a group that closes more than it has opened, and a
line after it that is open all the same. -/
theorem logicalLines_grouping_excess :
    let t := "a TXT (;c(\n\n x));d\ny (".toList
    logicalLines t = [⟨1, "a TXT (   x));d".toList⟩] ∧ unclosed? t = some 4 ∧
      records none [] t = .error (.fault (.zone .unbalanced 4 [] [])) := by
  intro t
  obtain ⟨groups, rest, -, hunique, hlines, hopen, hrecords⟩ := logicalLines_grouping t
  have hsplit : splitLines t
      = ["a TXT (;c(".toList, [], " x));d".toList, "y (".toList] := by decide +kernel
  have hfirst : IsOpen ["a TXT (;c(".toList] := isOpen_nil.concat (by decide)
  have hfront : IsOpen ["a TXT (;c(".toList, []] := hfirst.concat (by decide)
  have hrest : IsOpen ["y (".toList] := isOpen_nil.concat (by decide)
  have hgroup : IsGrouping (splitLines t)
      [⟨["a TXT (;c(".toList, []], " x));d".toList, hfront, by decide⟩] ["y (".toList] :=
    ⟨hsplit.symm, hrest⟩
  obtain ⟨rfl, rfl⟩ := hunique _ _ hgroup
  have htext : logicalLines t = [⟨1, "a TXT (   x));d".toList⟩] := hlines
  have hread : ((logicalLines t).foldlM (Reading.next none []) {}).isOk = true := by
    rw [htext]
    decide +kernel
  cases hfold : (logicalLines t).foldlM (Reading.next none []) {} with
  | ok r => exact ⟨htext, hopen, hrecords none [] r hfold⟩
  | error f =>
    rw [hfold] at hread
    cases hread

end MxLang.Zone
