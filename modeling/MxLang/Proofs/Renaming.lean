import MxLang.Proofs.LabelUse

/-!
# Other names for labels

What a label is called does not matter.  `rename r lines` writes `r x` for every label `x`: where it
is declared, and where a push names it; all other lines stay as they are.  If different labels get
different names, and none gets a name that the source pushes as something else, then the renamed
source compiles to the same records (`compile_rename`).

The names may look like numbers, opcodes or other labels of the source.  They cannot be mistaken for
those, since a label is looked for before a number is read, and since only pushes name labels.  That
a new name is told from all other text of a source is a matter of its characters (`IsName`).

Renaming touches one line at a time (`clean_rename`).  It takes the declared names to the new ones
(`declares_rename`), leaves every label where it was (`position?_rename`), and gives every
instruction the command it had (`command_renameLine`).
-/

namespace MxLang

open Text

namespace Source

/-! ### Names for labels -/

/-- A control character. -/
def isControl (c : Char) : Bool :=
  c.toNat < 0x20 || (0x7F ≤ c.toNat && c.toNat ≤ 0x9F)

/-- A name for a label: it has no white space and no control characters, it does not end in a colon,
and it is neither empty nor the start of a comment. -/
structure IsName (name : Text) : Prop where
  visible : ∀ c ∈ name, isSpace c = false ∧ isControl c = false
  noColon : endsIn [':'] name = false
  notInert : isInert name = false

variable {name : Text}

theorem IsName.ne_nil (h : IsName name) : name ≠ [] := by
  rintro rfl
  exact absurd h.notInert (by decide)

theorem IsName.isTrimmed_eq_false (h : IsName name) : ∀ c ∈ name, isTrimmed c = false := by
  intro c hc
  obtain ⟨hspace, hcontrol⟩ := h.visible c hc
  simp only [isControl, Bool.or_eq_false_iff, Bool.and_eq_false_iff, decide_eq_false_iff_not]
    at hcontrol
  simp only [isTrimmed, hspace, Bool.false_or, Bool.and_eq_false_iff, decide_eq_false_iff_not]
  omega

theorem IsName.isMargin_eq_false (h : IsName name) : ∀ c ∈ name, isMargin c = false := by
  intro c hc
  by_contra hmargin
  have htrimmed := isTrimmed_of_isMargin (Bool.not_eq_false _ ▸ hmargin)
  rw [h.isTrimmed_eq_false c hc] at htrimmed
  cases htrimmed

theorem IsName.strip_eq (h : IsName name) : strip name = name :=
  trim_eq_self h.isTrimmed_eq_false

theorem IsName.lineFeed_not_mem (h : IsName name) : '\n' ∉ name := by
  intro hmem
  exact absurd (h.isTrimmed_eq_false _ hmem) (by decide)

/-! ### The lines that declare and use labels -/

/-- The line that declares a label. -/
def declarationOf (name : Text) : Text :=
  name ++ [':']

theorem endsIn_declarationOf (name : Text) : endsIn [':'] (declarationOf name) = true :=
  List.isSuffixOf_iff_suffix.2 (List.suffix_append _ _)

theorem IsName.trim_declarationOf (h : IsName name) :
    trim isMargin (declarationOf name) = declarationOf name := by
  apply trim_eq_self
  intro c hc
  rcases List.mem_append.1 hc with hc | hc
  · exact h.isMargin_eq_false c hc
  · obtain rfl := List.mem_singleton.1 hc
    decide

theorem IsName.isInert_declarationOf (h : IsName name) : isInert (declarationOf name) = false := by
  have hinert := h.notInert
  cases name with
  | nil => exact absurd hinert (by decide)
  | cons a rest =>
    -- A comment is told by two characters at most, and the colon is none of them.
    cases rest with
    | nil => simpa [declarationOf, isInert, startsWith, List.isPrefixOf] using hinert
    | cons b rest => simpa [declarationOf, isInert, startsWith, List.isPrefixOf] using hinert

theorem IsName.trim_useOf (h : IsName name) : trim isMargin (useOf name) = useOf name :=
  Source.trim_useOf h.ne_nil fun c hc => h.isMargin_eq_false c (List.mem_of_getLast? hc)

theorem IsName.endsIn_useOf (h : IsName name) : endsIn [':'] (useOf name) = false := by
  have hcolon := h.noColon
  rw [← Bool.not_eq_true, endsIn_singleton_iff] at hcolon ⊢
  rw [getLast?_useOf h.ne_nil]
  exact hcolon

/-! ### Renaming -/

instance (lines : List Text) (name : Text) : Decidable (Declares lines name) :=
  inferInstanceAs (Decidable (∃ raw ∈ lines,
    trim isMargin raw = name ++ [':'] ∧ isInert (name ++ [':']) = false))

/-- What takes the place of a line without the blanks around it, if it declares a label or pushes a
declared one. -/
def replacement? (r : Text → Text) (lines : List Text) (t : Text) : Option Text :=
  if isInert t then none
  else if endsIn [':'] t then some (declarationOf (r t.dropLast))
  else
    match Instruction.pushOperand? t with
    | some operand =>
      if Declares lines (strip operand) then some (useOf (r (strip operand))) else none
    | none => none

/-- The source with its labels renamed. -/
def rename (r : Text → Text) (lines : List Text) : List Text :=
  lines.map fun line => (replacement? r lines (trim isMargin line)).getD line

/-- An instruction of the source pushes the operand, white space around it not counting. -/
def Pushes (lines : List Text) (operand : Text) : Prop :=
  ∃ i t raw, instructionAt? lines i = some t ∧ Instruction.IsPush t raw ∧ operand = strip raw

/-- A choice of other names for the labels of a source. -/
structure IsRenaming (r : Text → Text) (lines : List Text) : Prop where
  /-- Different labels get different names. -/
  injective : ∀ x y, Declares lines x → Declares lines y → r x = r y → x = y
  isName : ∀ x, Declares lines x → IsName (r x)
  /-- No label gets a name that is pushed as something else than a label. -/
  fresh : ∀ x operand, Declares lines x → Pushes lines operand → ¬ Declares lines operand →
    r x ≠ operand

variable {r : Text → Text} {lines : List Text}

/-- What takes the place of a line declares a label where the line does, or uses a label where the
line does. -/
theorem replacement?_eq_some {t new : Text} (h : replacement? r lines t = some new) :
    isInert t = false ∧
      ((∃ x, t = declarationOf x ∧ new = declarationOf (r x)) ∨
        ∃ operand, endsIn [':'] t = false ∧ Instruction.IsPush t operand ∧
          Declares lines (strip operand) ∧ new = useOf (r (strip operand))) := by
  unfold replacement? at h
  split at h
  · cases h
  · rename_i hinert
    refine ⟨Bool.not_eq_true _ ▸ hinert, ?_⟩
    split at h
    · rename_i hend
      obtain ⟨x, rfl⟩ := List.isSuffixOf_iff_suffix.1 hend
      rw [List.dropLast_concat] at h
      exact .inl ⟨x, rfl, (Option.some.inj h).symm⟩
    · rename_i hend
      split at h
      · rename_i operand hpush
        split at h
        · rename_i hdeclared
          exact .inr ⟨operand, Bool.not_eq_true _ ▸ hend,
            Instruction.pushOperand?_eq_some_iff.1 hpush, hdeclared, (Option.some.inj h).symm⟩
        · cases h
      · cases h

theorem replacement?_declarationOf {x : Text} (h : isInert (declarationOf x) = false) :
    replacement? r lines (declarationOf x) = some (declarationOf (r x)) := by
  have hlast : (declarationOf x).dropLast = x := List.dropLast_concat
  rw [replacement?, h, endsIn_declarationOf, hlast]
  rfl

/-! ### One line at a time -/

/-- What takes the place of a line of the source is written without blanks around it, and is neither
left out nor another kind of line than the line was. -/
theorem IsRenaming.replacement? (hr : IsRenaming r lines) {line new : Text} (hline : line ∈ lines)
    (h : replacement? r lines (trim isMargin line) = some new) :
    trim isMargin new = new ∧ isInert new = false := by
  obtain ⟨hinert, ⟨x, htrim, rfl⟩ | ⟨operand, -, -, hdeclared, rfl⟩⟩ := replacement?_eq_some h
  · rw [htrim] at hinert
    have hname := hr.isName x ⟨line, hline, htrim, hinert⟩
    exact ⟨hname.trim_declarationOf, hname.isInert_declarationOf⟩
  · have hname := hr.isName _ hdeclared
    exact ⟨hname.trim_useOf, isInert_useOf _⟩

/-- The renamed form of a line that says something. -/
def renameLine (r : Text → Text) (lines : List Text) (l : SourceLine) : SourceLine :=
  { l with text := (replacement? r lines l.text).getD l.text }

theorem IsRenaming.trim_getD (hr : IsRenaming r lines) {line : Text} (hline : line ∈ lines) :
    trim isMargin ((Source.replacement? r lines (trim isMargin line)).getD line)
      = (Source.replacement? r lines (trim isMargin line)).getD (trim isMargin line) := by
  cases hnew : Source.replacement? r lines (trim isMargin line) with
  | none => rfl
  | some new => exact (hr.replacement? hline hnew).1

theorem IsRenaming.isInert_getD (hr : IsRenaming r lines) {line : Text} (hline : line ∈ lines) :
    isInert ((Source.replacement? r lines (trim isMargin line)).getD (trim isMargin line))
      = isInert (trim isMargin line) := by
  cases hnew : Source.replacement? r lines (trim isMargin line) with
  | none => rfl
  | some new =>
    rw [(replacement?_eq_some hnew).1]
    exact (hr.replacement? hline hnew).2

/-- **Renaming goes line by line**, and leaves out no line that said something. -/
theorem IsRenaming.clean_rename (hr : IsRenaming r lines) :
    clean (rename r lines) = (clean lines).map (renameLine r lines) := by
  have hlines : (rename r lines).mapIdx (fun i t => ⟨i + 1, trim isMargin t⟩)
      = (lines.mapIdx fun i t => ⟨i + 1, trim isMargin t⟩).map (renameLine r lines) := by
    refine List.ext_getElem (by simp [rename]) fun i h₁ h₂ => ?_
    simp only [rename, List.getElem_mapIdx, List.getElem_map, renameLine, SourceLine.mk.injEq,
      true_and]
    exact hr.trim_getD (List.getElem_mem _)
  rw [clean, hlines, List.filter_map, clean]
  congr 1
  refine List.filter_congr fun l hl => ?_
  obtain ⟨i, hi, rfl⟩ := List.mem_mapIdx.1 hl
  exact congrArg not (hr.isInert_getD (List.getElem_mem hi))

theorem IsRenaming.label?_renameLine (hr : IsRenaming r lines) {l : SourceLine}
    (hl : l ∈ clean lines) : label? (renameLine r lines l) = (label? l).map r := by
  obtain ⟨i, raw, hraw, rfl, hinert⟩ := mem_clean_iff.1 hl
  dsimp only at hinert
  cases hlabel : label? ⟨i + 1, trim isMargin raw⟩ with
  | some x =>
    have htext : trim isMargin raw = declarationOf x := label?_eq_some_iff.1 hlabel
    rw [renameLine, htext, replacement?_declarationOf (htext ▸ hinert)]
    exact label?_eq_some_iff.2 rfl
  | none =>
    have hend : endsIn [':'] (trim isMargin raw) = false := by
      have hinstruction := isInstruction_eq ⟨i + 1, trim isMargin raw⟩
      rw [isInstruction, hlabel] at hinstruction
      simpa using hinstruction.symm
    have hnew : endsIn [':'] (renameLine r lines ⟨i + 1, trim isMargin raw⟩).text = false := by
      dsimp only [renameLine]
      cases hnew : Source.replacement? r lines (trim isMargin raw) with
      | none => exact hend
      | some new =>
        obtain ⟨-, ⟨x, htrim, -⟩ | ⟨operand, -, -, hdeclared, rfl⟩⟩ := replacement?_eq_some hnew
        · rw [htrim, endsIn_declarationOf] at hend
          cases hend
        · exact (hr.isName _ hdeclared).endsIn_useOf
    rw [label?, hnew]
    rfl

theorem IsRenaming.isInstruction_renameLine (hr : IsRenaming r lines) {l : SourceLine}
    (hl : l ∈ clean lines) : isInstruction (renameLine r lines l) = isInstruction l := by
  rw [isInstruction, hr.label?_renameLine hl, Option.isNone_map]
  rfl

theorem IsRenaming.body_rename (hr : IsRenaming r lines) :
    body (rename r lines) = (body lines).map (renameLine r lines) := by
  rw [body, hr.clean_rename, List.filter_map, body]
  congr 1
  exact List.filter_congr fun l hl => hr.isInstruction_renameLine hl

/-! ### What labels stand for -/

/-- **The labels of the renamed source are the new names.** -/
theorem IsRenaming.declares_rename (hr : IsRenaming r lines) {n : Text} :
    Declares (rename r lines) n ↔ ∃ x, Declares lines x ∧ r x = n := by
  rw [declares_iff, hr.clean_rename]
  constructor
  · rintro ⟨_, hmem, hlabel⟩
    obtain ⟨l, hl, rfl⟩ := List.mem_map.1 hmem
    rw [hr.label?_renameLine hl] at hlabel
    obtain ⟨x, hx, rfl⟩ := Option.map_eq_some_iff.1 hlabel
    exact ⟨x, declares_iff.2 ⟨l, hl, hx⟩, rfl⟩
  · rintro ⟨x, hx, rfl⟩
    obtain ⟨l, hl, hlabel⟩ := declares_iff.1 hx
    refine ⟨renameLine r lines l, List.mem_map_of_mem hl, ?_⟩
    rw [hr.label?_renameLine hl, hlabel]
    rfl

/-- A line-by-line change that renames labels leaves a label where it was, if no other label gets
its name. -/
theorem position?_map {f : SourceLine → SourceLine} {x : Text} (ls : List SourceLine)
    (hlabel : ∀ l ∈ ls, label? (f l) = (label? l).map r)
    (hother : ∀ l ∈ ls, ∀ y, label? l = some y → r y = r x → y = x) :
    position? (ls.map f) (r x) = position? ls x := by
  induction ls using List.reverseRecOn with
  | nil => rfl
  | append_singleton ls l ih =>
    rw [List.forall_mem_append, List.forall_mem_singleton] at hlabel hother
    have hsame : label? (f l) = some (r x) ↔ label? l = some x := by
      rw [hlabel.2, Option.map_eq_some_iff]
      constructor
      · rintro ⟨y, hy, heq⟩
        rw [hy, hother.2 y hy heq]
      · intro hx
        exact ⟨x, hx, rfl⟩
    have hcount : (ls.map f).countP isInstruction = ls.countP isInstruction := by
      rw [List.countP_map]
      refine List.countP_congr fun l hl => ?_
      rw [Function.comp_apply, isInstruction, hlabel.1 l hl, Option.isNone_map]
      rfl
    rw [List.map_append, List.map_singleton, position?_concat, position?_concat, hcount,
      ih hlabel.1 hother.1, if_congr hsame rfl rfl]

/-- **Every label stays where it was.** -/
theorem IsRenaming.position?_rename (hr : IsRenaming r lines) {x : Text} (hx : Declares lines x) :
    position? (clean (rename r lines)) (r x) = position? (clean lines) x := by
  rw [hr.clean_rename]
  apply position?_map
  · intro l hl
    exact hr.label?_renameLine hl
  · intro l hl y hy heq
    exact hr.injective y x (declares_iff.2 ⟨l, hl, hy⟩) hx heq

/-! ### Commands -/

theorem replacement?_of_isPush {t operand : Text} (hinert : isInert t = false)
    (hend : endsIn [':'] t = false) (ht : Instruction.IsPush t operand) :
    replacement? r lines t
      = if Declares lines (strip operand) then some (useOf (r (strip operand))) else none := by
  rw [replacement?, hinert, hend, Instruction.pushOperand?_eq_some_iff.2 ht]
  rfl

theorem replacement?_of_not_isPush {t : Text} (hend : endsIn [':'] t = false)
    (ht : ∀ operand, ¬ Instruction.IsPush t operand) : replacement? r lines t = none := by
  cases hnew : replacement? r lines t with
  | none => rfl
  | some new =>
    obtain ⟨-, ⟨x, rfl, -⟩ | ⟨operand, -, hpush, -, -⟩⟩ := replacement?_eq_some hnew
    · rw [endsIn_declarationOf] at hend
      cases hend
    · exact absurd hpush (ht operand)

/-- What a push is read as. -/
theorem eq_of_parse_of_isPush {t operand : Text} {i : Instruction}
    (h : Instruction.parse t = .ok i) (ht : Instruction.IsPush t operand) :
    i = ⟨Instruction.pushWord, some (strip operand)⟩ := by
  rw [Instruction.parse, Instruction.pushOperand?_eq_some_iff.2 ht] at h
  dsimp only at h
  split at h
  · cases h
  · exact (Except.ok.inj h).symm

/-- **Every instruction keeps its command.** -/
theorem IsRenaming.command_renameLine (hr : IsRenaming r lines) {l : SourceLine} {c : Command}
    (hsize : (body lines).length ≤ capacity) (hl : l ∈ body lines)
    (h : command (labels (clean lines)) l = .ok c) :
    command (labels (clean (rename r lines))) (renameLine r lines l) = .ok c := by
  obtain ⟨i, hat, -⟩ := mem_body_iff.1 hl
  obtain ⟨-, hinert, hend⟩ := instructionAt?_eq_some_iff.1 hat
  rcases command_cases h with ⟨opcode, op, hp, ho, rfl⟩ | ⟨word, operand, v, hp, hv, hw, rfl⟩
  · -- An opcode word stays as it is, and needs no labels.
    have hbare : ∀ operand, ¬ Instruction.IsPush l.text operand := by
      intro operand ht
      cases eq_of_parse_of_isPush hp ht
    rw [renameLine, replacement?_of_not_isPush hend hbare, Option.getD_none]
    unfold command
    rw [hp]
    simp only [ho]
  · obtain ⟨raw, ht, hi⟩ | hi := parse_eq_ok hp
    · cases hi
      rw [renameLine, replacement?_of_isPush hinert hend ht]
      by_cases hdeclared : Declares lines (strip raw)
      · -- The new name of a label is at the place of the old one.
        obtain ⟨k, hk⟩ := exists_position? hdeclared
        have hname := hr.isName _ hdeclared
        have hvalue := (operandValue_of_position? hk hsize).1
        obtain rfl := Option.some.inj (Except.ok.inj (hv.symm.trans hvalue))
        have hsize' : (body (rename r lines)).length ≤ capacity := by
          rw [hr.body_rename, List.length_map]
          exact hsize
        rw [if_pos hdeclared, Option.getD_some]
        exact command_useOf ((hr.position?_rename hdeclared).trans hk) hname.ne_nil hname.strip_eq
          hname.lineFeed_not_mem hsize' l.number
      · -- A literal is no new name either.
        have hliteral : ¬ Declares (rename r lines) (strip raw) := by
          rw [hr.declares_rename]
          rintro ⟨x, hx, heq⟩
          exact hr.fresh x _ hx ⟨i, l.text, raw, hat, ht, rfl⟩ hdeclared heq
        rw [operandValue_of_not_declares hdeclared,
          ← operandValue_of_not_declares hliteral] at hv
        rw [if_neg hdeclared, Option.getD_none]
        unfold command
        rw [hp]
        simp only [hv, hw, if_true]
    · cases hi

/-- **The names of labels do not matter.**  Let a source compile, and let its labels be given other
names: different names to different labels, each without white space or control characters, not
empty, without a colon at the end, not the start of a comment, and not an operand that the source
pushes as something else than a label.  With these names where labels are declared and where they
are pushed, the source compiles to the same records. -/
theorem compile_rename {ns : Text} {records : List Record} (hr : IsRenaming r lines)
    (h : compile ns lines = .ok records) : compile ns (rename r lines) = .ok records := by
  rw [compile_eq] at h ⊢
  cases hcs : commands lines with
  | error f =>
    rw [hcs] at h
    cases h
  | ok cs =>
    obtain ⟨hlen, hall⟩ := commands_spec hcs
    have hsize : (body lines).length ≤ capacity := hall.length_eq ▸ hlen
    have hrenamed : commands (rename r lines) = .ok cs := by
      rw [commands, hr.body_rename, List.length_map, if_neg (Nat.not_lt.2 hsize),
        mapM_eq_ok_iff, List.forall₂_map_left_iff]
      have hmem := (List.forall₂_and_left (p := (· ∈ body lines)) _ _).2 ⟨fun l hl => hl, hall⟩
      exact hmem.imp fun l c hc => hr.command_renameLine hsize hc.1 hc.2
    rw [hcs] at h
    rw [hrenamed]
    exact h

/-- Two labels change their names with each other.  One of them looks like a number, is declared
twice and used before that; another number is pushed as such. -/
theorem compile_rename_swapped :
    compile "n".toList
        ["push 1".toList, "1:".toList, "push 7".toList, " a: ".toList, "1:".toList,
          "push\ta".toList]
      = .ok [⟨0, "push-2.n.".toList⟩, ⟨1, "push-7.n.".toList⟩, ⟨2, "push-2.n.".toList⟩] ∧
    compile "n".toList
        ["push a".toList, "a:".toList, "push 7".toList, "1:".toList, "a:".toList,
          "push 1".toList]
      = .ok [⟨0, "push-2.n.".toList⟩, ⟨1, "push-7.n.".toList⟩, ⟨2, "push-2.n.".toList⟩] := by
  obtain ⟨lines, hlines⟩ : ∃ lines, lines = ["push 1".toList, "1:".toList, "push 7".toList,
    " a: ".toList, "1:".toList, "push\ta".toList] := ⟨_, rfl⟩
  obtain ⟨r, hr⟩ : ∃ r : Text → Text, r = fun x => if x = ['1'] then ['a'] else ['1'] := ⟨_, rfl⟩
  have hfirst : compile "n".toList lines
      = .ok [⟨0, "push-2.n.".toList⟩, ⟨1, "push-7.n.".toList⟩, ⟨2, "push-2.n.".toList⟩] := by
    rw [hlines]
    decide +kernel
  have hnames : ∀ x, Declares lines x → x = ['1'] ∨ x = ['a'] := by
    intro x hx
    obtain ⟨l, hl, hlabel⟩ := declares_iff.1 hx
    have hall : (clean lines).filterMap label? = [['1'], ['a'], ['1']] := by
      rw [hlines]
      decide
    have hmem := List.mem_filterMap.2 ⟨l, hl, hlabel⟩
    rw [hall] at hmem
    simpa [or_comm] using hmem
  have hoperands : ∀ operand, Pushes lines operand →
      operand = ['1'] ∨ operand = ['7'] ∨ operand = ['a'] := by
    rintro _ ⟨i, t, raw, hat, ht, rfl⟩
    have hall : (body lines).filterMap (fun l => (Instruction.pushOperand? l.text).map strip)
        = [['1'], ['7'], ['a']] := by
      rw [hlines]
      decide
    have hmem : strip raw ∈ (body lines).filterMap
        fun l => (Instruction.pushOperand? l.text).map strip := by
      refine List.mem_filterMap.2 ⟨⟨i + 1, t⟩, mem_body_iff.2 ⟨i, hat, rfl⟩, ?_⟩
      rw [Instruction.pushOperand?_eq_some_iff.2 ht]
      rfl
    rw [hall] at hmem
    simpa using hmem
  have hdeclared : Declares lines ['1'] ∧ Declares lines ['a'] := by
    rw [hlines]
    decide
  have hone : r ['1'] = ['a'] := by rw [hr]; rfl
  have ha : r ['a'] = ['1'] := by rw [hr]; rfl
  have hrenaming : IsRenaming r lines := by
    refine ⟨?_, ?_, ?_⟩
    · intro x y hx hy
      rcases hnames x hx with rfl | rfl <;> rcases hnames y hy with rfl | rfl <;> simp [hone, ha]
    · intro x hx
      rcases hnames x hx with rfl | rfl
      · rw [hone]
        exact ⟨List.forall_mem_singleton.2 (by decide), by decide, by decide⟩
      · rw [ha]
        exact ⟨List.forall_mem_singleton.2 (by decide), by decide, by decide⟩
    · intro x operand hx hpush hnot
      rcases hoperands operand hpush with rfl | rfl | rfl
      · exact absurd hdeclared.1 hnot
      · rcases hnames x hx with rfl | rfl <;> simp [hone, ha]
      · exact absurd hdeclared.2 hnot
  have hsecond := compile_rename hrenaming hfirst
  have hsource : rename r lines = ["push a".toList, "a:".toList, "push 7".toList, "1:".toList,
      "a:".toList, "push 1".toList] := by
    rw [hr, hlines]
    decide
  rw [hsource] at hsecond
  rw [hlines] at hfirst
  exact ⟨hfirst, hsecond⟩

end Source

end MxLang
