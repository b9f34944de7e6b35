import Mathlib.Data.List.Forall2
import MxLang.Proofs.Command
import MxLang.Proofs.Label

/-!
# What compiling gives

A source is compiled in two steps that the assembler takes at once: every instruction is read as a
command, and the commands are written as records, numbered from zero.  Only the second step knows
the namespace.  `commands` is the first step alone, and `compile_eq` says

    compile ns lines = (commands lines).map (publish ns).

What command a line stands for is said by `Denotes`, in terms of the line's text and of the
positions of the labels only; `commands_spec` ties `commands` to it.
-/

namespace MxLang

open Text

/-! ### Lists in `Except` -/

/-- All results of a successful traversal are results of its steps, in order. -/
theorem mapM_eq_ok_iff {ε α β : Type} {f : α → Except ε β} : ∀ {l : List α} {bs : List β},
    l.mapM f = .ok bs ↔ List.Forall₂ (fun a b => f a = .ok b) l bs := by
  intro l
  induction l with
  | nil =>
    intro bs
    rw [List.mapM_nil, List.forall₂_nil_left_iff]
    exact ⟨fun h => (Except.ok.inj h).symm, fun h => h ▸ rfl⟩
  | cons a r ih =>
    intro bs
    rw [List.mapM_cons, List.forall₂_cons_left_iff]
    constructor
    · intro h
      cases ha : f a with
      | error e => rw [ha] at h; cases h
      | ok b =>
        cases hr : r.mapM f with
        | error e => rw [ha, hr] at h; cases h
        | ok cs =>
          rw [ha, hr] at h
          exact ⟨b, cs, rfl, ih.1 hr, (Except.ok.inj h).symm⟩
    · rintro ⟨b, cs, ha, hr, rfl⟩
      rw [ha, ih.2 hr]
      rfl

namespace Source

/-- The instruction lines of a source. -/
def body (lines : List Text) : List SourceLine :=
  (clean lines).filter isInstruction

/-- The command of an instruction line. -/
def command (labels : Labels) (l : SourceLine) : Except Failure Command :=
  match Instruction.parse l.text with
  | .error m => .error (.mismatch m)
  | .ok ⟨opcode, none⟩ =>
    match Opcode.ofName? opcode with
    | some op => .ok (.bare op)
    | none => .error (.fault (.unrecognizedInstruction l.number l.text))
  | .ok ⟨_, some operand⟩ =>
    match operandValue labels operand with
    | .error f => .error f
    | .ok none => .error (.fault (.unresolvableOperand l.number l.text operand))
    | .ok (some value) =>
      if Numeral.isWritable value then .ok (.push value) else .error (.numeral .tooLongToWrite)

/-- The commands of a source. -/
def commands (lines : List Text) : Except Failure (List Command) :=
  if capacity < (body lines).length then
    .error (.fault (.programTooLarge (body lines).length capacity))
  else (body lines).mapM (command (labels (clean lines)))

/-- The records of commands. -/
def publish (ns : Text) (cs : List Command) : List Record :=
  cs.mapIdx fun i c => ⟨i, Host.encode ns c.text⟩

/-! ### Reading before writing -/

/-- **The words that the compiler lets through are the opcodes of the machine**, each of them
once. -/
theorem passThrough_eq : passThrough = Opcode.all.map Opcode.name := rfl

theorem mem_passThrough_iff {word : Text} :
    word ∈ passThrough ↔ ∃ op, Opcode.ofName? word = some op := by
  rw [passThrough_eq, List.mem_map]
  constructor
  · rintro ⟨op, -, rfl⟩
    exact ⟨op, Opcode.ofName?_name op⟩
  · rintro ⟨op, hop⟩
    exact ⟨op, Opcode.mem_all op, (Opcode.eq_name_of_ofName? hop).symm⟩

theorem assemble_eq (labels : Labels) (ns : Text) (n : Numbered) :
    assemble labels ns n
      = (command labels n.source).map fun c => ⟨n.priority, Host.encode ns c.text⟩ := by
  unfold assemble command
  cases Instruction.parse n.source.text with
  | error m => rfl
  | ok i =>
    obtain ⟨opcode, operand⟩ := i
    cases operand with
    | none =>
      dsimp only
      cases hop : Opcode.ofName? opcode with
      | some op =>
        rw [if_pos (mem_passThrough_iff.2 ⟨op, hop⟩), Opcode.eq_name_of_ofName? hop]
        rfl
      | none =>
        have hmem : opcode ∉ passThrough := by
          rw [mem_passThrough_iff, hop]
          rintro ⟨op, h⟩
          cases h
        rw [if_neg hmem]
        rfl
    | some operand =>
      dsimp only
      cases operandValue labels operand with
      | error f => rfl
      | ok value =>
        cases value with
        | none => rfl
        | some v =>
          dsimp only
          cases Numeral.isWritable v <;> rfl

theorem mapM_assemble (labels : Labels) (ns : Text) : ∀ (ls : List SourceLine) (place : Nat → Int),
    (ls.mapIdx fun i l => ⟨place i, l⟩).mapM (assemble labels ns)
      = (ls.mapM (command labels)).map
          (List.mapIdx fun i c => ⟨place i, Host.encode ns c.text⟩) := by
  intro ls
  induction ls with
  | nil => intro _; rfl
  | cons l rest ih =>
    intro place
    rw [List.mapIdx_cons, List.mapM_cons, List.mapM_cons, assemble_eq,
      ih fun i => place (i + 1)]
    cases command labels l with
    | error f => rfl
    | ok c =>
      cases rest.mapM (command labels) with
      | error f => rfl
      | ok cs =>
        show Except.ok _ = Except.ok _
        rw [List.mapIdx_cons]

theorem capacity_lt : capacity < Numeral.bound := by
  have hpow : ∀ k, 5 ≤ k → capacity < Nat.pow 10 k := fun k hk =>
    Nat.lt_of_lt_of_le (by decide : capacity < 10 ^ 5) (Nat.pow_le_pow_right (by decide) hk)
  unfold Numeral.bound
  exact hpow _ (by decide)

theorem length_instructions (cleaned : List SourceLine) :
    (instructions cleaned).length = (cleaned.filter isInstruction).length :=
  List.length_mapIdx

/-- **Compiling is reading and then writing**, and only writing knows the namespace. -/
theorem compile_eq (ns : Text) (lines : List Text) :
    compile ns lines = (commands lines).map (publish ns) := by
  unfold compile commands
  simp only [length_instructions]
  show (if capacity < (body lines).length then _ else _) = _
  split
  · rfl
  · exact mapM_assemble _ ns _ fun i => i

/-! ### The command that a line stands for -/

/-- `Denotes lines t c`: in a source of the given lines, the instruction `t` stands for the
command `c`. -/
inductive Denotes (lines : List SourceLine) : Text → Command → Prop
  /-- An opcode word, blanks around it not counting. -/
  | bare {t : Text} {op : Opcode} (ht : strip t = op.name) : Denotes lines t (.bare op)
  /-- A push of a declared label. -/
  | label {t operand : Text} {k : Nat} (ht : Instruction.IsPush t operand)
      (hk : position? lines (strip operand) = some k) : Denotes lines t (.push k)
  /-- A push of an integer literal that is no declared label. -/
  | literal {t operand : Text} {v : Int} (ht : Instruction.IsPush t operand)
      (hk : position? lines (strip operand) = none)
      (hv : Numeral.IsLiteral (strip operand) v) : Denotes lines t (.push v)

theorem operandValue_spec {lines : List SourceLine} {operand : Text} {v : Int}
    (h : operandValue (labels lines) operand = .ok (some v)) :
    (∃ k : Nat, position? lines operand = some k ∧ v = k) ∨
      position? lines operand = none ∧ Numeral.readLiteral operand = .ok (some v) := by
  rw [operandValue, lookup_labels] at h
  cases hk : position? lines operand with
  | some k =>
    rw [hk] at h
    exact .inl ⟨k, rfl, (Option.some.inj (Except.ok.inj h)).symm⟩
  | none =>
    rw [hk] at h
    refine .inr ⟨rfl, ?_⟩
    cases hr : Numeral.readLiteral operand with
    | error e => rw [hr] at h; cases h
    | ok o => rw [hr] at h; exact congrArg Except.ok (Except.ok.inj h)

theorem parse_eq_ok {t : Text} {i : Instruction} (h : Instruction.parse t = .ok i) :
    (∃ operand, Instruction.IsPush t operand ∧
        i = ⟨Instruction.pushWord, some (strip operand)⟩) ∨
      i = ⟨strip t, none⟩ := by
  unfold Instruction.parse at h
  split at h
  · rename_i operand ho
    split at h
    · cases h
    · exact .inl ⟨operand, Instruction.pushOperand?_eq_some_iff.1 ho, (Except.ok.inj h).symm⟩
  · split at h
    · cases h
    · split at h
      · cases h
      · exact .inr (Except.ok.inj h).symm

/-- What an instruction that has a command can be. -/
theorem command_cases {labels : Labels} {l : SourceLine} {c : Command}
    (h : command labels l = .ok c) :
    (∃ opcode op, Instruction.parse l.text = .ok ⟨opcode, none⟩ ∧
        Opcode.ofName? opcode = some op ∧ c = .bare op) ∨
      ∃ word operand v, Instruction.parse l.text = .ok ⟨word, some operand⟩ ∧
        operandValue labels operand = .ok (some v) ∧ Numeral.isWritable v ∧ c = .push v := by
  unfold command at h
  split at h
  · cases h
  · rename_i opcode hp
    split at h
    · rename_i op ho
      exact .inl ⟨opcode, op, hp, ho, (Except.ok.inj h).symm⟩
    · cases h
  · rename_i word operand hp
    split at h
    · cases h
    · cases h
    · rename_i v hv
      split at h
      · rename_i hw
        exact .inr ⟨word, operand, v, hp, hv, hw, (Except.ok.inj h).symm⟩
      · cases h

theorem denotes_of_command {lines : List SourceLine} {l : SourceLine} {c : Command}
    (h : command (labels lines) l = .ok c) : Denotes lines l.text c := by
  rcases command_cases h with ⟨opcode, op, hp, ho, rfl⟩ | ⟨word, operand, v, hp, hv, -, rfl⟩
  · rcases parse_eq_ok hp with ⟨_, _, hi⟩ | hi
    · cases hi
    · cases hi
      exact .bare (Opcode.eq_name_of_ofName? ho)
  · rcases parse_eq_ok hp with ⟨raw, hraw, hi⟩ | hi
    · cases hi
      rcases operandValue_spec hv with ⟨k, hk, rfl⟩ | ⟨hk, hr⟩
      · exact .label hraw hk
      · exact .literal hraw hk (Numeral.isLiteral_of_readLiteral hr)
    · cases hi

theorem isWritable_of_command {labels : Labels} {l : SourceLine} {c : Command}
    (h : command labels l = .ok c) : c.isWritable := by
  rcases command_cases h with ⟨_, _, _, _, rfl⟩ | ⟨_, _, _, _, _, hw, rfl⟩
  · rfl
  · exact hw

/-- An instruction stands for at most one command. -/
theorem Denotes.unique {lines : List SourceLine} {t : Text} {c d : Command}
    (hc : Denotes lines t c) (hd : Denotes lines t d) : c = d := by
  cases hc with
  | bare ht =>
    cases hd with
    | bare hu => exact congrArg Command.bare (Opcode.name_injective (ht.symm.trans hu))
    | label hu _ => exact absurd ht (hu.strip_ne_name _)
    | literal hu _ _ => exact absurd ht (hu.strip_ne_name _)
  | label ht hk =>
    cases hd with
    | bare hu => exact absurd hu (ht.strip_ne_name _)
    | label hu hj =>
      rw [ht.unique hu, hj] at hk
      rw [Option.some.inj hk]
    | literal hu hj _ =>
      rw [ht.unique hu, hj] at hk
      cases hk
  | literal ht hk hv =>
    cases hd with
    | bare hu => exact absurd hu (ht.strip_ne_name _)
    | label hu hj =>
      rw [ht.unique hu, hj] at hk
      cases hk
    | literal hu _ hw =>
      rw [ht.unique hu] at hv
      rw [hv.unique hw]

/-- **Every command of a source is the one its line stands for**, and there are no more of them
than priorities. -/
theorem commands_spec {lines : List Text} {cs : List Command} (h : commands lines = .ok cs) :
    cs.length ≤ capacity ∧
      List.Forall₂ (fun l c => command (labels (clean lines)) l = .ok c) (body lines) cs := by
  unfold commands at h
  split at h
  · cases h
  · rename_i hlen
    have hall := mapM_eq_ok_iff.1 h
    exact ⟨hall.length_eq ▸ Nat.le_of_not_lt hlen, hall⟩

/-- A record of a source has a number below the capacity, and its host is that of a command. -/
theorem exists_of_mem_compile {ns : Text} {lines : List Text} {records : List Record} {r : Record}
    (h : compile ns lines = .ok records) (hr : r ∈ records) :
    ∃ (i : Nat) (c : Command), i < capacity ∧ r = ⟨i, Host.encode ns c.text⟩ := by
  rw [compile_eq] at h
  cases hc : commands lines with
  | error f =>
    rw [hc] at h
    cases h
  | ok cs =>
    rw [hc] at h
    obtain rfl := Except.ok.inj h
    obtain ⟨i, hi, rfl⟩ := List.mem_mapIdx.1 hr
    exact ⟨i, cs[i], Nat.lt_of_lt_of_le hi (commands_spec hc).1, rfl⟩

end Source

end MxLang
