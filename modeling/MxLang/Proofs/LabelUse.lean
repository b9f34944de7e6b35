import MxLang.Proofs.SourceFault

/-!
# Labels in use

A label is declared by a line that ends in a colon, and used by `push` and its name.  The two lines
are read in different ways.  A declaration loses the blanks of assembly around it and its colon, and
the rest is the name, whatever it looks like.  A use is an instruction: it must not end in a colon
itself, or it is a declaration, and its operand loses all white space around it.

So a name that neither ends in a colon nor has white space at an end is found where it is used, and
stands for the number of instructions before its last declaration; it may have blanks and colons
inside, and it may look like a number, an instruction or a comment.  A name that ends in a colon
cannot be used: the line that pushes it declares another label.  `compile_push_label` states both.
-/

namespace MxLang

open Text

/-! ### The ends of a text -/

namespace Text

theorem dropWhile_eq_self_iff_head? {p : Char → Bool} {t : Text} :
    t.dropWhile p = t ↔ ∀ c ∈ t.head?, p c = false := by
  cases t with
  | nil => simp
  | cons c r =>
    by_cases hc : p c
    · have hlen := length_dropWhile_le p r
      rw [List.dropWhile_cons_of_pos hc]
      simp only [List.head?_cons, Option.mem_some_iff, forall_eq', hc, Bool.true_eq_false,
        iff_false]
      intro h
      rw [h, List.length_cons] at hlen
      omega
    · simp [List.dropWhile_cons_of_neg hc, hc]

/-- A text is trimmed if neither of its ends is to be taken off. -/
theorem trim_eq_self_iff {p : Char → Bool} {t : Text} :
    trim p t = t ↔ (∀ c ∈ t.head?, p c = false) ∧ ∀ c ∈ t.getLast?, p c = false := by
  rw [← dropWhile_eq_self_iff_head?, ← List.head?_reverse, ← dropWhile_eq_self_iff_head?, trim]
  constructor
  · intro h
    -- What is taken off at the end cannot be put back, so nothing was taken off at the start.
    have hlen := congrArg List.length h
    have hend := length_dropWhile_le p (t.dropWhile p).reverse
    have hstart : t.dropWhile p = t := by
      refine (List.dropWhile_suffix p).eq_of_length ?_
      have hle := length_dropWhile_le p t
      rw [List.length_reverse] at hlen hend
      omega
    rw [hstart] at h
    refine ⟨hstart, ?_⟩
    rw [← List.reverse_inj, List.reverse_reverse]
    exact h
  · rintro ⟨hstart, hend⟩
    rw [hstart, hend, List.reverse_reverse]

theorem endsIn_singleton_iff {c : Char} {t : Text} : endsIn [c] t ↔ t.getLast? = some c := by
  rw [endsIn, List.isSuffixOf_iff_suffix, List.getLast?_eq_some_iff]
  exact exists_congr fun s => eq_comm

end Text

namespace Source

variable {lines : List Text} {name : Text} {i : Nat}

/-! ### The line that uses a label -/

/-- The line that pushes a label. -/
def useOf (name : Text) : Text :=
  Instruction.pushWord ++ ' ' :: name

theorem getLast?_useOf (hne : name ≠ []) : (useOf name).getLast? = name.getLast? := by
  rw [useOf, ← List.singleton_append, ← List.append_assoc]
  exact List.getLast?_append_of_ne_nil _ hne

theorem isInert_useOf (name : Text) : isInert (useOf name) = false := rfl

theorem isTrimmed_of_isMargin {c : Char} (h : isMargin c) : isTrimmed c := by
  simp only [isMargin, Bool.or_eq_true, decide_eq_true_eq] at h
  rcases h with ((rfl | rfl) | rfl) | rfl <;> decide

theorem trim_useOf (hne : name ≠ []) (h : ∀ c ∈ name.getLast?, isMargin c = false) :
    trim isMargin (useOf name) = useOf name := by
  rw [trim_eq_self_iff, getLast?_useOf hne]
  refine ⟨?_, h⟩
  intro c hc
  obtain rfl := Option.some.inj hc
  decide

/-- Without white space around the name and a colon at its end, the line is an instruction. -/
theorem instructionAt?_useOf (huse : lines[i]? = some (useOf name)) (hne : name ≠ [])
    (hcolon : endsIn [':'] name = false) (hstrip : strip name = name) :
    instructionAt? lines i = some (useOf name) := by
  have hlast : ∀ c ∈ name.getLast?, isMargin c = false := by
    intro c hc
    have htrimmed := (trim_eq_self_iff.1 hstrip).2 c hc
    by_contra hmargin
    rw [isTrimmed_of_isMargin (Bool.not_eq_false _ ▸ hmargin)] at htrimmed
    cases htrimmed
  refine instructionAt?_eq_some_iff.2
    ⟨⟨_, huse, (trim_useOf hne hlast).symm⟩, isInert_useOf name, ?_⟩
  rw [← Bool.not_eq_true, endsIn_singleton_iff] at hcolon ⊢
  rw [getLast?_useOf hne]
  exact hcolon

theorem isPush_useOf (hne : name ≠ []) (hstrip : strip name = name) :
    Instruction.IsPush (useOf name) name := by
  cases name with
  | nil => exact absurd rfl hne
  | cons c rest =>
    have hc : isTrimmed c = false := (trim_eq_self_iff.1 hstrip).1 c rfl
    exact ⟨[' '], c, rest, rfl, by decide, List.all_eq_true.1 (by decide), rfl,
      isSpace_eq_false_of_isTrimmed hc⟩

/-- **The use of a declared label is the push of its position.** -/
theorem command_useOf {k : Nat} (hk : position? (clean lines) name = some k) (hne : name ≠ [])
    (hstrip : strip name = name) (hfeed : '\n' ∉ name) (hsize : (body lines).length ≤ capacity)
    (number : Nat) :
    command (labels (clean lines)) ⟨number, useOf name⟩ = .ok (.push k) := by
  have hn : '\n' ∉ useOf name := by
    simp only [useOf, List.mem_append, List.mem_cons, not_or]
    exact ⟨by decide, by decide, hfeed⟩
  obtain ⟨hvalue, hw⟩ := operandValue_of_position? hk hsize
  unfold command
  rw [Instruction.parse_of_isPush (isPush_useOf hne hstrip) hn, hstrip]
  simp only [hvalue, hw, if_true]

/-- A line that pushes a name with a colon at its end declares a label. -/
theorem declares_of_useOf (huse : lines[i]? = some (useOf name)) (hcolon : endsIn [':'] name) :
    Declares lines (useOf name.dropLast) ∧ instructionAt? lines i = none := by
  obtain ⟨front, rfl⟩ := List.getLast?_eq_some_iff.1 (endsIn_singleton_iff.1 hcolon)
  have hline : useOf (front ++ [':']) = useOf front ++ [':'] := by simp [useOf]
  have htrim : trim isMargin (useOf (front ++ [':'])) = useOf (front ++ [':']) := by
    refine trim_useOf (by simp) ?_
    intro c hc
    rw [List.getLast?_concat] at hc
    obtain rfl := Option.some.inj hc
    decide
  rw [List.dropLast_concat]
  refine ⟨⟨_, List.mem_of_getElem? huse, htrim.trans hline, rfl⟩, ?_⟩
  cases hat : instructionAt? lines i with
  | none => rfl
  | some t =>
    obtain ⟨⟨raw, hraw, rfl⟩, -, hend⟩ := instructionAt?_eq_some_iff.1 hat
    obtain rfl := Option.some.inj (huse.symm.trans hraw)
    rw [htrim, hline, ← Bool.not_eq_true, endsIn_singleton_iff, List.getLast?_concat] at hend
    exact absurd rfl hend

/-! ### The record of a use -/

/-- The records of a source stand in the order of its instructions. -/
theorem getElem?_of_compile {ns : Text} {records : List Record} {p : Nat} {l : SourceLine}
    {c : Command} (h : compile ns lines = .ok records) (hl : (body lines)[p]? = some l)
    (hc : command (labels (clean lines)) l = .ok c) :
    records[p]? = some ⟨p, Host.encode ns c.text⟩ := by
  rw [compile_eq] at h
  cases hcs : commands lines with
  | error f =>
    rw [hcs] at h
    cases h
  | ok cs =>
    rw [hcs] at h
    obtain rfl := Except.ok.inj h
    obtain ⟨-, hall⟩ := commands_spec hcs
    obtain ⟨hp, rfl⟩ := List.getElem?_eq_some_iff.1 hl
    have hp' : p < cs.length := hall.length_eq ▸ hp
    have hcommand := hall.get hp hp'
    rw [List.get_eq_getElem, List.get_eq_getElem, hc] at hcommand
    rw [publish, List.getElem?_mapIdx, List.getElem?_eq_getElem hp', ← Except.ok.inj hcommand]
    rfl

/-- **Declared labels in use.**  Let a source declare a name that is not empty, and let its line
`i`, counted from zero, push that name.  If the name ends in a colon, the line is no instruction but
declares a label itself.  If it does not, and neither has white space at an end nor holds a line
feed, the line is an instruction, and unless the source is too large it is assembled, below every
namespace, to the push of the number of instructions before the last declaration of the name; and
that is the record it has in what the source compiles to. -/
theorem compile_push_label (hdeclared : Declares lines name) (hne : name ≠ [])
    (huse : lines[i]? = some (useOf name)) :
    (endsIn [':'] name = true →
      Declares lines (useOf name.dropLast) ∧ instructionAt? lines i = none) ∧
    (endsIn [':'] name = false → strip name = name → '\n' ∉ name →
      ∃ k p : Nat, position? (clean lines) name = some k ∧
        (body lines)[p]? = some ⟨i + 1, useOf name⟩ ∧
        ((body lines).length ≤ capacity → ∀ ns,
          assemble (labels (clean lines)) ns ⟨p, ⟨i + 1, useOf name⟩⟩
            = .ok ⟨p, Host.encode ns (useOf (Numeral.write k))⟩) ∧
        ∀ ns records, compile ns lines = .ok records →
          records[p]? = some ⟨p, Host.encode ns (useOf (Numeral.write k))⟩) := by
  refine ⟨declares_of_useOf huse, ?_⟩
  intro hcolon hstrip hfeed
  obtain ⟨k, hk⟩ := exists_position? hdeclared
  have hat := instructionAt?_useOf huse hne hcolon hstrip
  have hmem : ⟨i + 1, useOf name⟩ ∈ body lines := mem_body_iff.2 ⟨i, hat, rfl⟩
  obtain ⟨p, hp⟩ := List.getElem?_of_mem hmem
  refine ⟨k, p, hk, hp, ?_, ?_⟩
  · intro hsize ns
    rw [assemble_eq, command_useOf hk hne hstrip hfeed hsize]
    rfl
  · intro ns records h
    have hsize : (body lines).length ≤ capacity := by
      by_contra hlarge
      rw [compile_eq, commands, if_pos (Nat.not_le.1 hlarge)] at h
      cases h
    exact getElem?_of_compile h hp (command_useOf hk hne hstrip hfeed hsize _)

/-- A name with a blank and a colon inside, used before it is declared and declared twice. -/
theorem compile_push_label_redeclared :
    Declares ["push x: y".toList, "x: y:".toList, "add".toList, "\tx: y: ".toList]
        "x: y".toList ∧
      ∃ p : Nat,
        (body ["push x: y".toList, "x: y:".toList, "add".toList, "\tx: y: ".toList])[p]?
          = some ⟨1, useOf "x: y".toList⟩ ∧
        ∀ ns records,
          compile ns ["push x: y".toList, "x: y:".toList, "add".toList, "\tx: y: ".toList]
            = .ok records →
          records[p]? = some ⟨p, Host.encode ns (useOf "2".toList)⟩ := by
  have hdeclared : Declares
      ["push x: y".toList, "x: y:".toList, "add".toList, "\tx: y: ".toList] "x: y".toList :=
    ⟨"x: y:".toList, List.mem_cons_of_mem _ List.mem_cons_self, by decide, by decide⟩
  obtain ⟨-, huse⟩ := compile_push_label (i := 0) hdeclared (by decide) rfl
  obtain ⟨k, p, hk, hp, -, hrecord⟩ := huse (by decide) (by decide) (by decide)
  have hlast : position?
      (clean ["push x: y".toList, "x: y:".toList, "add".toList, "\tx: y: ".toList])
      "x: y".toList = some 2 := by
    decide
  obtain rfl := Option.some.inj (hk.symm.trans hlast)
  exact ⟨hdeclared, p, hp, hrecord⟩

/-- A label whose name ends in a colon, and one whose name ends in a blank: the line that pushes the
first declares another label, and the line that pushes the second is refused. -/
theorem compile_push_colon :
    Declares ["a::".toList, "push a:".toList] "a:".toList ∧
      compile "n".toList ["a::".toList, "push a:".toList] = .ok [] ∧
      Declares ["loop :".toList, "push loop ".toList] "loop ".toList ∧
      compile "n".toList ["loop :".toList, "push loop ".toList]
        = .error (.fault (.unresolvableOperand 2 "push loop".toList "loop".toList)) := by
  refine ⟨⟨_, List.mem_cons_self, ?_, ?_⟩, ?_, ⟨_, List.mem_cons_self, ?_, ?_⟩, ?_⟩ <;> decide

end Source

end MxLang
