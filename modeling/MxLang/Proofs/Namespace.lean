import MxLang.Proofs.Records
import MxLang.Proofs.RoundTrip

/-!
# Programs that share a domain

The records of two programs may stand in one domain, in any order and with the same priorities.
Each program is read back as if it stood alone, as long as the ending of its namespace does not end
that of the other one (`ofRecords_of_shared_domain`).

A host of the other program is the token of an instruction and the ending of the other namespace.
If it also ended in the first namespace, one of the two endings would end the other.  The first
cannot end the second by assumption, so it would be longer and reach into the token; but an ending
starts with a dot, and no token holds one (`dot_not_mem_token`).
-/

namespace MxLang

open Text

/-- The token of a command holds no dot. -/
theorem dot_not_mem_token (c : Command) : '.' ∉ replaceFirst ' ' '-' c.text := by
  intro h
  cases c with
  | push v =>
    rw [Command.text, replaceFirst_append _ (by decide), List.mem_append, List.mem_cons] at h
    rcases h with h | h | h
    · exact absurd h (by decide)
    · exact absurd h (by decide)
    · rcases Numeral.mem_write h with h | h
      · exact absurd h (by decide)
      · exact absurd h (by decide)
  | bare op =>
    rw [Command.text, replaceFirst_of_not_mem (Opcode.not_mem_name (by decide))] at h
    exact Opcode.not_mem_name (by decide) h

/-- **A host without a dot in its token lies below no namespace but those that end its own.** -/
theorem Host.isBelow_encode_eq_false {ns other code : Text} (hdot : '.' ∉ replaceFirst ' ' '-' code)
    (hs : ¬ suffix ns <:+ suffix other) : isBelow ns (encode other code) = false := by
  rw [isBelow, Bool.and_eq_false_iff]
  left
  by_contra hends
  rw [Bool.not_eq_false, endsIn, List.isSuffixOf_iff_suffix] at hends
  have hown : suffix other <:+ encode other code := List.suffix_append _ _
  rcases List.suffix_or_suffix_of_suffix hends hown with hle | ⟨front, hfront⟩
  · exact hs hle
  · -- The longer ending is `front` and the shorter one, and `front` starts with its dot.
    have hne : front ≠ [] := by
      rintro rfl
      exact hs ⟨[], hfront.symm⟩
    have hmem : '.' ∈ front := by
      cases front with
      | nil => exact absurd rfl hne
      | cons c t =>
        obtain rfl : c = '.' := (List.cons.inj hfront).1
        exact List.mem_cons_self
    obtain ⟨start, hstart⟩ := hends
    rw [← hfront, ← List.append_assoc, encode] at hstart
    have htoken : start ++ front = replaceFirst ' ' '-' code := List.append_cancel_right hstart
    exact hdot (htoken ▸ List.mem_append_right _ hmem)

namespace Program

open Source

variable {ns other : Text}

theorem below_publish (ns : Text) (cs : List Command) : below ns (publish ns cs) = publish ns cs :=
  List.filter_eq_self.2 fun _ hr => isBelow_of_mem_publish hr

theorem below_publish_eq_nil (hs : ¬ Host.suffix ns <:+ Host.suffix other) (cs : List Command) :
    below ns (publish other cs) = [] := by
  refine List.filter_eq_nil_iff.2 fun r hr => ?_
  obtain ⟨i, hi, rfl⟩ := List.mem_mapIdx.1 hr
  rw [Host.isBelow_encode_eq_false (dot_not_mem_token _) hs]
  exact Bool.false_ne_true

/-- Published commands are read back from among the records of another namespace. -/
theorem ofRecords_of_perm_publish_append {cs ds : List Command} {records : List Record}
    (hs : ¬ Host.suffix ns <:+ Host.suffix other)
    (hp : records.Perm (publish ns cs ++ publish other ds)) :
    ofRecords ns records = .ok (ofCommands cs) := by
  have hbelow : (below ns records).Perm (publish ns cs) := by
    have h := hp.filter fun r => Host.isBelow ns r.host
    rw [List.filter_append] at h
    change (below ns records).Perm (below ns (publish ns cs) ++ below ns (publish other ds)) at h
    rwa [below_publish, below_publish_eq_nil hs, List.append_nil] at h
  refine ofRecords_eq_ok_iff.2 ⟨pairwise_ofCommands cs, ?_⟩
  rw [← map_line_publish ns cs]
  exact (hbelow.map _).symm

/-- **Programs of unrelated namespaces can share a domain.**  Whatever the order of the records and
whatever priorities they share, the program of the namespace is the one that its own records give,
which is the canonical program of its source. -/
theorem ofRecords_of_shared_domain {lines others : List Text} {own foreign records : List Record}
    (hown : compile ns lines = .ok own) (hforeign : compile other others = .ok foreign)
    (hs : ¬ Host.suffix ns <:+ Host.suffix other) (hp : records.Perm (own ++ foreign)) :
    ∃ p, ofRecords ns records = .ok p ∧ ofRecords ns own = .ok p ∧ IsCanonical lines p := by
  rw [compile_eq] at hown hforeign
  cases hc : commands lines with
  | error f => rw [hc] at hown; cases hown
  | ok cs =>
    cases hd : commands others with
    | error f => rw [hd] at hforeign; cases hforeign
    | ok ds =>
      rw [hc] at hown
      rw [hd] at hforeign
      obtain rfl := Except.ok.inj hown
      obtain rfl := Except.ok.inj hforeign
      exact ⟨ofCommands cs, ofRecords_of_perm_publish_append hs hp,
        ofRecords_of_perm_publish (List.Perm.refl _), isCanonical_ofCommands hc⟩

/-- The namespace is the other one with an opcode word in front, so that a host of the other program
is the namespace itself but for its first dot; and both programs use the same priorities. -/
theorem ofRecords_of_shared_domain_component :
    ∃ p, ofRecords "dup.b".toList [⟨1, "dup.b.".toList⟩, ⟨0, "push-1.dup.b.".toList⟩,
        ⟨0, "add.b.".toList⟩, ⟨1, "print.dup.b.".toList⟩] = .ok p ∧
      ofRecords "dup.b".toList [⟨0, "push-1.dup.b.".toList⟩, ⟨1, "print.dup.b.".toList⟩] = .ok p ∧
      IsCanonical (["push 1", "print"].map String.toList) p := by
  have hown : compile "dup.b".toList (["push 1", "print"].map String.toList)
      = .ok [⟨0, "push-1.dup.b.".toList⟩, ⟨1, "print.dup.b.".toList⟩] := by
    decide +kernel
  have hforeign : compile "b".toList (["add", "dup"].map String.toList)
      = .ok [⟨0, "add.b.".toList⟩, ⟨1, "dup.b.".toList⟩] := by
    decide +kernel
  exact ofRecords_of_shared_domain hown hforeign (by decide) (by decide +kernel)

end Program

end MxLang
