import MxLang.Proofs.Preservation

/-!
# Instructions that are accepted

An instruction is read twice, by the assembler when it writes the host and by the machine when it
carries the instruction out.  Each has its own way to take a text apart: a `push` without an operand
is an unknown instruction to the one and a bad operand to the other.  Without labels they accept the
same texts all the same, and read the same commands from them (`command_nil_eq_ok_iff`).

The machine refuses a text before it looks at its own state, so a text is refused in every state or
in none.  `Failure.blamesText` tells such a refusal from the failure of a command that has been
read.
-/

namespace MxLang

open Text

/-- Whether the text of an instruction is to blame: it names no opcode, it pushes what is no number,
or its numeral has too many digits to be read. -/
def Failure.blamesText : Failure → Bool
  | .numeral (.tooLongToRead _) => true
  | f => f.isRefusal

theorem Failure.blamesText_ofStop {s : Stop} (h : s.cause.isRefusal = false) :
    (Failure.ofStop s).blamesText = false := by
  rw [Failure.ofStop]
  split
  · exact h
  · rfl

/-! ### Two readers -/

/-- What a text can be that the machine reads as a command. -/
theorem Command.ofText_cases {t : Text} {c : Command} (h : Command.ofText t = .ok c) :
    (∃ opcode op, Instruction.parse t = .ok ⟨opcode, none⟩ ∧ Opcode.ofName? opcode = some op ∧
        c = .bare op) ∨
      ∃ operand v, Instruction.parse t = .ok ⟨Instruction.pushWord, some operand⟩ ∧
        Numeral.readLiteral operand = .ok (some v) ∧ c = .push v := by
  unfold Command.ofText at h
  dsimp only at h
  split at h
  · cases h
  · rename_i opcode operand hparse
    split at h
    · rename_i hpush
      subst hpush
      split at h
      · cases h
      · rename_i v hv
        obtain rfl := Except.ok.inj h
        cases operand with
        | some operand => exact .inr ⟨operand, v, hparse, hv, rfl⟩
        | none => cases hv
      · cases h
    · split at h
      · rename_i op hop
        exact .inl ⟨opcode, op, hparse, hop, (Except.ok.inj h).symm⟩
      · cases h

theorem Source.operandValue_nil (operand : Text) :
    operandValue [] operand = (Numeral.readLiteral operand).mapError .numeral :=
  rfl

/-- **Without labels the assembler reads a command just where the machine does**, and the same. -/
theorem Source.command_nil_eq_ok_iff {l : SourceLine} {c : Command} :
    command [] l = .ok c ↔ Command.ofText l.text = .ok c := by
  constructor
  · intro h
    rcases command_cases h with ⟨opcode, op, hp, ho, rfl⟩ | ⟨word, operand, v, hp, hv, -, rfl⟩
    · exact ofText_of_bare hp ho
    · have hword : word = Instruction.pushWord := by
        rcases parse_eq_ok hp with ⟨_, -, hi⟩ | hi <;> cases hi
        rfl
      subst hword
      apply ofText_of_push hp
      rw [operandValue_nil] at hv
      cases hr : Numeral.readLiteral operand with
      | error e => rw [hr] at hv; cases hv
      | ok value => rw [hr] at hv; exact congrArg Except.ok (Except.ok.inj hv)
  · intro h
    unfold command
    rcases Command.ofText_cases h with ⟨opcode, op, hp, ho, rfl⟩ | ⟨operand, v, hp, hv, rfl⟩
    · simp only [hp, ho]
    · have hw := Numeral.isWritable_of_readLiteral hv
      simp only [hp, operandValue_nil, hv, Except.mapError, hw, if_true]

/-! ### Refusals -/

/-- A text that is no command is to blame for it. -/
theorem Command.blamesText_of_ofText {t : Text} {f : Failure} (h : Command.ofText t = .error f) :
    f.blamesText = true := by
  unfold Command.ofText at h
  dsimp only at h
  split at h
  · exact Except.error.inj h ▸ rfl
  · split at h
    · split at h
      · rename_i e he
        obtain ⟨digits, rfl⟩ := Numeral.readLiteral_eq_error he
        exact Except.error.inj h ▸ rfl
      · cases h
      · exact Except.error.inj h ▸ rfl
    · split at h
      · cases h
      · exact Except.error.inj h ▸ rfl

namespace Machine

variable {m : Machine} {f : Failure} {t : Text}

/-- A command that fails does so for a reason in the machine. -/
theorem blamesText_of_perform {c : Command} (h : (m.perform c).outcome = .error f) :
    f.blamesText = false := by
  have hcovers : Covers fun f => f.blamesText = false := by
    refine ⟨fun s hs => ?_, rfl, fun _ => rfl, rfl⟩
    exact Failure.blamesText_ofStop (StopCause.isRefusal_of_isInternal hs)
  exact hcovers.of_perform h

theorem run_of_refused (h : Command.ofText t = .error f) (m : Machine) : m.run t = m.fail f := by
  rw [run, h]

/-- **A text is a command just if the machine refuses it in no state.** -/
theorem exists_ofText_iff :
    (∃ c, Command.ofText t = .ok c) ↔
      ∀ (m : Machine) f, (m.run t).outcome = .error f → f.blamesText = false := by
  constructor
  · rintro ⟨c, hc⟩ m f hf
    rw [run_of_ofText hc] at hf
    exact blamesText_of_perform hf
  · intro h
    cases ht : Command.ofText t with
    | ok c => exact ⟨c, rfl⟩
    | error f =>
      have hfalse := h {} f (congrArg Effect.outcome (run_of_refused ht {}))
      rw [Command.blamesText_of_ofText ht] at hfalse
      cases hfalse

end Machine

namespace Source

variable {ns : Text} {n : Numbered}

/-- What is assembled without labels is the host of the command that the machine reads. -/
theorem assemble_nil_eq_ok_iff {r : Record} :
    assemble [] ns n = .ok r ↔
      ∃ c, Command.ofText n.source.text = .ok c ∧ r = ⟨n.priority, Host.encode ns c.text⟩ := by
  rw [assemble_eq]
  constructor
  · intro h
    cases hc : command [] n.source with
    | error f => rw [hc] at h; cases h
    | ok c =>
      rw [hc] at h
      exact ⟨c, command_nil_eq_ok_iff.1 hc, (Except.ok.inj h).symm⟩
  · rintro ⟨c, hc, rfl⟩
    rw [command_nil_eq_ok_iff.2 hc]
    rfl

theorem exists_assemble_nil_iff :
    (∃ r, assemble [] ns n = .ok r) ↔ ∃ c, Command.ofText n.source.text = .ok c := by
  constructor
  · rintro ⟨r, hr⟩
    obtain ⟨c, hc, -⟩ := assemble_nil_eq_ok_iff.1 hr
    exact ⟨c, hc⟩
  · rintro ⟨c, hc⟩
    exact ⟨_, assemble_nil_eq_ok_iff.2 ⟨c, hc, rfl⟩⟩

/-- **Assembler and machine accept the same instructions.**  A text can be assembled without labels
just if there is no state in which the machine finds fault with the text.  A text that cannot be
assembled is refused in every state, with one failure, and the state is left as it was.  And the
machine does the same with a text that can be assembled as with what is read from its host: from
every state it asks for the same jump or fails alike, and leaves the same state. -/
theorem assemble_iff_accepted (ns : Text) (n : Numbered) :
    ((∃ r, assemble [] ns n = .ok r) ↔
      ∀ (m : Machine) f, (m.run n.source.text).outcome = .error f → f.blamesText = false) ∧
    ((¬ ∃ r, assemble [] ns n = .ok r) →
      ∃ f : Failure, f.blamesText ∧ ∀ m : Machine, m.run n.source.text = m.fail f) ∧
    ∀ r, assemble [] ns n = .ok r →
      ∀ m : Machine, m.run (Host.decode ns r.host) = m.run n.source.text := by
  refine ⟨exists_assemble_nil_iff.trans Machine.exists_ofText_iff, ?_, ?_⟩
  · rw [exists_assemble_nil_iff]
    intro hnone
    cases ht : Command.ofText n.source.text with
    | ok c => exact absurd ⟨c, ht⟩ hnone
    | error f => exact ⟨f, Command.blamesText_of_ofText ht, Machine.run_of_refused ht⟩
  · intro r hr m
    obtain ⟨c, hc, rfl⟩ := assemble_nil_eq_ok_iff.1 hr
    have hw : c.isWritable := isWritable_of_command (command_nil_eq_ok_iff.2 hc)
    rw [Host.decode_encode_text, Machine.run_of_ofText hc,
      Machine.run_of_ofText (Command.ofText_text hw)]

/-- A literal with a sign, leading zeros and blanks of several kinds is spelled anew, and the word
`push` on its own is refused. -/
theorem assemble_iff_accepted_spelling :
    (∀ m : Machine, m.run "push -7".toList = m.run "push\t -007\u3000".toList) ∧
      ∃ f : Failure, f.blamesText ∧ ∀ m : Machine, m.run " push".toList = m.fail f := by
  obtain ⟨-, -, hrun⟩ := assemble_iff_accepted "x".toList ⟨3, 9, "push\t -007\u3000".toList⟩
  obtain ⟨-, hrefused, -⟩ := assemble_iff_accepted "x".toList ⟨0, 1, " push".toList⟩
  have hhost : assemble [] "x".toList ⟨3, 9, "push\t -007\u3000".toList⟩
      = .ok ⟨3, "push--7.x.".toList⟩ := by
    decide +kernel
  have herror : assemble [] "x".toList ⟨0, 1, " push".toList⟩
      = .error (.fault (.unrecognizedInstruction 1 " push".toList)) := by
    decide +kernel
  refine ⟨hrun _ hhost, hrefused ?_⟩
  rintro ⟨r, hr⟩
  rw [herror] at hr
  cases hr

end Source

end MxLang
