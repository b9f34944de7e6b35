import Mathlib.Data.Set.Function
import MxLang.Proofs.Command

/-!
# Which texts survive as hosts

The host of a text has a dash for the first space, and the text of a host has a space for the first
dash.  Neither undoes the other on all texts: a dash that stands before the first space becomes a
space on the way back, and the dash that was written for the space stays one.  `roundTrip_iff` says
that there is no other obstacle, whatever the namespace, in either direction.

Both directions are one fact about exchanging two characters,
`replaceFirst_replaceFirst_eq_self_iff`; the namespace drops out before it is used
(`decode_encode`, `decode_append`).
-/

namespace MxLang

open Text

/-! ### Replacing the first of two characters, and back -/

namespace Text

theorem before_cons_self (a : Char) (t : Text) : before a (a :: t) = [] := by
  rw [before, List.takeWhile_cons_of_neg]
  simp

theorem before_cons_of_ne {a c : Char} (h : c ≠ a) (t : Text) :
    before a (c :: t) = c :: before a t := by
  rw [before, List.takeWhile_cons_of_pos, before]
  simpa using h

/-- **A replacement is undone by the opposite one just if nothing comes before it**: the first `a`
turns into `b`, and it is the first `b` that turns back. -/
theorem replaceFirst_replaceFirst_eq_self_iff {a b : Char} (hab : a ≠ b) (t : Text) :
    replaceFirst b a (replaceFirst a b t) = t ↔ b ∉ before a t := by
  induction t with
  | nil => exact iff_of_true rfl List.not_mem_nil
  | cons c r ih =>
    by_cases hca : c = a
    · subst hca
      rw [replaceFirst, if_pos rfl, replaceFirst, if_pos rfl, before_cons_self]
      exact iff_of_true rfl List.not_mem_nil
    · rw [replaceFirst, if_neg hca, replaceFirst, before_cons_of_ne hca, List.mem_cons]
      by_cases hcb : c = b
      · -- This `b` comes before every `a`, and is taken for one.
        subst hcb
        rw [if_pos rfl]
        refine iff_of_false (fun h => hab (List.cons.inj h).1) ?_
        exact not_not_intro (.inl rfl)
      · rw [if_neg hcb, List.cons.injEq, ih, not_or]
        exact ⟨fun h => ⟨Ne.symm hcb, h.2⟩, fun h => ⟨rfl, h.2⟩⟩

theorem mem_of_mem_before {a b : Char} {t : Text} (h : b ∈ before a t) : b ∈ t :=
  (List.takeWhile_sublist _).subset h

end Text

/-! ### Hosts -/

namespace Host

/-- A host below a namespace is something and the ending of the namespace. -/
theorem exists_append_of_isBelow {ns h : Text} (hb : isBelow ns h) :
    ∃ stem, h = stem ++ suffix ns := by
  rw [isBelow, Bool.and_eq_true, endsIn, List.isSuffixOf_iff_suffix] at hb
  obtain ⟨stem, hstem⟩ := hb.1
  exact ⟨stem, hstem.symm⟩

theorem decode_append (ns stem : Text) :
    decode ns (stem ++ suffix ns) = replaceFirst '-' ' ' stem := by
  rw [decode, List.length_append, Nat.add_sub_cancel, List.take_left]

/-- A host is the host of its text just if no space stands before its first dash. -/
theorem encode_decode_append_iff (ns stem : Text) :
    encode ns (decode ns (stem ++ suffix ns)) = stem ++ suffix ns ↔ ' ' ∉ before '-' stem := by
  rw [decode_append, encode, List.append_cancel_right_eq,
    replaceFirst_replaceFirst_eq_self_iff (by decide)]

/-- **What a host keeps of a text, and a text of a host.**  A text is read back from its host, below
any namespace, just if no dash stands before its first space; if it has no space, it must have no
dash.  A host below the namespace is written anew from its text just if, its namespace aside, no
space stands before its first dash.  So hosts without spaces have different texts. -/
theorem roundTrip_iff (ns : Text) :
    (∀ code, decode ns (encode ns code) = code ↔ '-' ∉ before ' ' code) ∧
      (∀ h, isBelow ns h → ∃ stem, h = stem ++ suffix ns ∧
        (encode ns (decode ns h) = h ↔ ' ' ∉ before '-' stem)) ∧
      Set.InjOn (decode ns) {h | isBelow ns h ∧ ' ' ∉ h} := by
  refine ⟨?_, ?_, ?_⟩
  · intro code
    rw [decode_encode]
    exact replaceFirst_replaceFirst_eq_self_iff (by decide) code
  · intro h hb
    obtain ⟨stem, rfl⟩ := exists_append_of_isBelow hb
    exact ⟨stem, rfl, encode_decode_append_iff ns stem⟩
  · have hback : ∀ h, isBelow ns h → ' ' ∉ h → encode ns (decode ns h) = h := by
      intro h hb hspace
      obtain ⟨stem, rfl⟩ := exists_append_of_isBelow hb
      refine (encode_decode_append_iff ns stem).2 fun hmem => hspace ?_
      exact List.mem_append_left _ (mem_of_mem_before hmem)
    rintro g ⟨hg, hgspace⟩ h ⟨hh, hhspace⟩ hsame
    rw [← hback g hg hgspace, hsame, hback h hh hhspace]

/-- A namespace with a dash and a space in it: a negative operand and its host survive, a dash
before the space and a space before the dash do not. -/
theorem roundTrip_iff_negative :
    decode "a-b c".toList (encode "a-b c".toList "push -5".toList) = "push -5".toList ∧
      decode "a-b c".toList (encode "a-b c".toList "a-b 5".toList) ≠ "a-b 5".toList ∧
      isBelow "a-b c".toList "push--5.a-b c.".toList ∧
      encode "a-b c".toList (decode "a-b c".toList "push--5.a-b c.".toList)
        = "push--5.a-b c.".toList ∧
      isBelow "a-b c".toList "a b-5.a-b c.".toList ∧
      encode "a-b c".toList (decode "a-b c".toList "a b-5.a-b c.".toList)
        ≠ "a b-5.a-b c.".toList := by
  obtain ⟨htext, hhost, -⟩ := roundTrip_iff "a-b c".toList
  have hgood : isBelow "a-b c".toList "push--5.a-b c.".toList := by decide
  have hbad : isBelow "a-b c".toList "a b-5.a-b c.".toList := by decide
  refine ⟨(htext _).2 (by decide), mt (htext _).1 (by decide), hgood, ?_, hbad, ?_⟩
  · obtain ⟨stem, hstem, hiff⟩ := hhost _ hgood
    have hsame : "push--5".toList ++ suffix "a-b c".toList = stem ++ suffix "a-b c".toList := hstem
    obtain rfl := List.append_cancel_right hsame
    exact hiff.2 (by decide)
  · obtain ⟨stem, hstem, hiff⟩ := hhost _ hbad
    have hsame : "a b-5".toList ++ suffix "a-b c".toList = stem ++ suffix "a-b c".toList := hstem
    obtain rfl := List.append_cancel_right hsame
    exact mt hiff.1 (by decide)

end Host

end MxLang
