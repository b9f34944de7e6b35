import Mathlib.Data.Nat.Find
import MxLang.Proofs.Compile

/-!
# What is wrong with a source

A source that is not too large compiles, or its first instruction that has no command is reported.
This file says which instructions these are without the assembler: `instructionAt?` finds the
instruction on a line of the source as it was written, `Declares` the labels, and `Flaw` lists the
two things that can be wrong with an instruction and the fault that tells each of them.  A literal
of too many digits is none of them; `PushesDigits` singles it out.

An instruction with a flaw is refused with its fault (`command_of_flaw`), one that pushes too many
digits fails to be read (`command_of_pushesDigits`), and any other one has a command
(`exists_command`).  `compileText_first_flaw` puts this together for a text, whose lines hold no
line feed, so that every one of them can be parsed.
-/

namespace MxLang

open Text

/-! ### Lines between line feeds -/

theorem Text.lineFeed_not_mem_of_mem_splitFeeds {t line : Text} (h : line ∈ splitFeeds t) :
    '\n' ∉ line := by
  unfold splitFeeds at h
  induction t generalizing line with
  | nil =>
    rw [List.splitOn_nil, List.mem_singleton] at h
    simp [h]
  | cons c t ih =>
    rw [List.splitOn_cons_eq_if_modifyHead] at h
    by_cases hc : c = '\n'
    · rw [if_pos (by simp [hc])] at h
      rcases List.mem_cons.1 h with rfl | h
      · simp
      · exact ih h
    · rw [if_neg (by simp [hc])] at h
      cases hs : t.splitOn '\n' with
      | nil => exact absurd hs (List.splitOn_ne_nil _ _)
      | cons first rest =>
        rw [hs] at h ih
        rcases List.mem_cons.1 h with rfl | h
        · have hfirst := ih (List.mem_cons_self)
          simp [hfirst, Ne.symm hc]
        · exact ih (List.mem_cons_of_mem _ h)

namespace Instruction

variable {t operand : Text}

theorem parse_of_isPush (h : IsPush t operand) (hn : '\n' ∉ t) :
    parse t = .ok ⟨pushWord, some (strip operand)⟩ := by
  have hop : operand.contains '\n' = false := by
    obtain ⟨gap, c, rest, rfl, -, -, -, -⟩ := h
    simp only [List.mem_append, not_or] at hn
    simp [hn.2.2]
  rw [parse, pushOperand?_eq_some_iff.2 h]
  simp only [hop, Bool.false_eq_true, if_false]

theorem parse_of_not_isPush (h : ∀ operand, ¬ IsPush t operand) (hne : t ≠ []) (hn : '\n' ∉ t) :
    parse t = .ok ⟨strip t, none⟩ := by
  have hpush : pushOperand? t = none := by
    cases ho : pushOperand? t with
    | none => rfl
    | some operand => exact absurd (pushOperand?_eq_some_iff.1 ho) (h operand)
  have hbefore : before '\n' t = t := by
    refine List.takeWhile_eq_self_iff.2 fun c hc => ?_
    have : c ≠ '\n' := fun he => hn (he ▸ hc)
    simp [this]
  have hmem : t.contains '\n' = false := by simp [hn]
  rw [parse, hpush]
  simp only [hbefore, hmem, hne, Bool.false_eq_true, if_false]

end Instruction

/-! ### Lists in `Except` -/

section

variable {ε α β : Type} {f : α → Except ε β}

theorem mapM_of_error {front rest : List α} {a : α} {e : ε}
    (hfront : ∀ x ∈ front, ∃ y, f x = .ok y) (ha : f a = .error e) :
    (front ++ a :: rest).mapM f = .error e := by
  induction front with
  | nil =>
    rw [List.nil_append, List.mapM_cons, ha]
    rfl
  | cons x front ih =>
    obtain ⟨y, hy⟩ := hfront x List.mem_cons_self
    rw [List.cons_append, List.mapM_cons, hy, ih fun z hz => hfront z (List.mem_cons_of_mem _ hz)]
    rfl

theorem exists_mapM_eq_ok {l : List α} (h : ∀ x ∈ l, ∃ y, f x = .ok y) :
    ∃ ys, l.mapM f = .ok ys := by
  induction l with
  | nil => exact ⟨[], rfl⟩
  | cons x l ih =>
    obtain ⟨y, hy⟩ := h x List.mem_cons_self
    obtain ⟨ys, hys⟩ := ih fun z hz => h z (List.mem_cons_of_mem _ hz)
    refine ⟨y :: ys, ?_⟩
    rw [List.mapM_cons, hy, hys]
    rfl

theorem exists_of_mapM_eq_error {l : List α} {e : ε} (h : l.mapM f = .error e) :
    ∃ x ∈ l, f x = .error e := by
  induction l with
  | nil => cases h
  | cons x l ih =>
    rw [List.mapM_cons] at h
    cases hx : f x with
    | error e' =>
      rw [hx] at h
      cases h
      exact ⟨x, List.mem_cons_self, hx⟩
    | ok y =>
      cases hl : l.mapM f with
      | error e' =>
        rw [hx, hl] at h
        cases h
        obtain ⟨z, hz, hfz⟩ := ih hl
        exact ⟨z, List.mem_cons_of_mem _ hz, hfz⟩
      | ok ys =>
        rw [hx, hl] at h
        cases h

end

namespace Source

/-! ### The lines of a source -/

/-- The instruction on a line of a source, counted from zero: the line without the blanks around
it, if it is neither left out nor a label. -/
def instructionAt? (lines : List Text) (i : Nat) : Option Text :=
  (lines[i]?.map (trim isMargin)).filter fun t => !isInert t && !endsIn [':'] t

/-- The name is declared as a label somewhere in the source. -/
def Declares (lines : List Text) (name : Text) : Prop :=
  ∃ raw ∈ lines, trim isMargin raw = name ++ [':'] ∧ isInert (name ++ [':']) = false

variable {lines : List Text}

theorem instructionAt?_eq_some_iff {i : Nat} {t : Text} :
    instructionAt? lines i = some t ↔
      (∃ raw, lines[i]? = some raw ∧ t = trim isMargin raw) ∧ isInert t = false ∧
        endsIn [':'] t = false := by
  rw [instructionAt?, Option.filter_eq_some_iff, Option.map_eq_some_iff, Bool.and_eq_true,
    Bool.not_eq_true', Bool.not_eq_true']
  simp only [eq_comm]

theorem ne_nil_of_instructionAt? {i : Nat} {t : Text} (h : instructionAt? lines i = some t) :
    t ≠ [] := by
  rintro rfl
  exact absurd (instructionAt?_eq_some_iff.1 h).2.1 (by decide)

/-- No line feed is in an instruction of a source without line feeds in its lines. -/
theorem lineFeed_not_mem_of_instructionAt? {i : Nat} {t : Text}
    (hfeed : ∀ raw ∈ lines, '\n' ∉ raw) (h : instructionAt? lines i = some t) : '\n' ∉ t := by
  obtain ⟨⟨raw, hraw, rfl⟩, -⟩ := instructionAt?_eq_some_iff.1 h
  intro hmem
  exact hfeed raw (List.mem_of_getElem? hraw) (mem_of_mem_trim hmem)

theorem label?_eq_some_iff {l : SourceLine} {name : Text} :
    label? l = some name ↔ l.text = name ++ [':'] := by
  rw [label?]
  constructor
  · intro h
    split at h
    · rename_i hend
      obtain ⟨s, hs⟩ := List.isSuffixOf_iff_suffix.1 hend
      cases h
      rw [← hs, List.dropLast_concat]
    · cases h
  · intro h
    have hend : endsIn [':'] (name ++ [':']) = true :=
      List.isSuffixOf_iff_suffix.2 (List.suffix_append _ _)
    rw [h, if_pos hend, List.dropLast_concat]

theorem isInstruction_eq (l : SourceLine) : isInstruction l = !endsIn [':'] l.text := by
  rw [isInstruction, label?]
  cases endsIn [':'] l.text <;> rfl

theorem mem_clean_iff {l : SourceLine} :
    l ∈ clean lines ↔
      ∃ i raw, lines[i]? = some raw ∧ l = ⟨i + 1, trim isMargin raw⟩ ∧ isInert l.text = false := by
  simp only [clean, List.mem_filter, List.mem_mapIdx, Bool.not_eq_true']
  constructor
  · rintro ⟨⟨i, hi, rfl⟩, hinert⟩
    exact ⟨i, lines[i], List.getElem?_eq_getElem hi, rfl, hinert⟩
  · rintro ⟨i, raw, hraw, rfl, hinert⟩
    obtain ⟨hi, rfl⟩ := List.getElem?_eq_some_iff.1 hraw
    exact ⟨⟨i, hi, rfl⟩, hinert⟩

/-- The instructions keep their line numbers. -/
theorem mem_body_iff {l : SourceLine} :
    l ∈ body lines ↔ ∃ i, instructionAt? lines i = some l.text ∧ l.number = i + 1 := by
  simp only [body, List.mem_filter, mem_clean_iff, isInstruction_eq, Bool.not_eq_true',
    instructionAt?_eq_some_iff]
  constructor
  · rintro ⟨⟨i, raw, hraw, rfl, hinert⟩, hend⟩
    exact ⟨i, ⟨⟨raw, hraw, rfl⟩, hinert, hend⟩, rfl⟩
  · obtain ⟨number, text⟩ := l
    rintro ⟨i, ⟨⟨raw, hraw, htext⟩, hinert, hend⟩, hnumber⟩
    cases htext
    cases hnumber
    exact ⟨⟨i, raw, hraw, rfl, hinert⟩, hend⟩

theorem pairwise_body (lines : List Text) :
    (body lines).Pairwise fun a b => a.number < b.number := by
  refine List.Pairwise.filter _ (List.Pairwise.filter _ ?_)
  rw [List.pairwise_iff_getElem]
  intro i j hi hj hij
  simp only [List.getElem_mapIdx]
  omega

/-- The instructions before the one on line `i` are those on the lines before it. -/
theorem body_eq_append {i : Nat} {t : Text} (h : instructionAt? lines i = some t) :
    ∃ front rest, body lines = front ++ ⟨i + 1, t⟩ :: rest ∧
      ∀ x ∈ front, ∃ j < i, instructionAt? lines j = some x.text ∧ x.number = j + 1 := by
  obtain ⟨front, rest, hbody⟩ :=
    List.append_of_mem (mem_body_iff.2 ⟨i, h, rfl⟩ : (⟨i + 1, t⟩ : SourceLine) ∈ body lines)
  refine ⟨front, rest, hbody, fun x hx => ?_⟩
  have hpair := pairwise_body lines
  rw [hbody, List.pairwise_append] at hpair
  have hlt : x.number < i + 1 := hpair.2.2 x hx _ List.mem_cons_self
  obtain ⟨j, hj, hnumber⟩ := mem_body_iff.1 (hbody ▸ List.mem_append_left _ hx : x ∈ body lines)
  exact ⟨j, by omega, hj, hnumber⟩

theorem declares_iff {name : Text} :
    Declares lines name ↔ ∃ l ∈ clean lines, label? l = some name := by
  simp only [mem_clean_iff, label?_eq_some_iff]
  constructor
  · rintro ⟨raw, hraw, htrim, hinert⟩
    obtain ⟨i, hi⟩ := List.getElem?_of_mem hraw
    exact ⟨_, ⟨i, raw, hi, rfl, htrim ▸ hinert⟩, htrim⟩
  · rintro ⟨_, ⟨i, raw, hraw, rfl, hinert⟩, htext⟩
    exact ⟨raw, List.mem_of_getElem? hraw, htext, htext ▸ hinert⟩

/-! ### What can be wrong with an instruction -/

/-- `Flaw lines i t g`: in a source of the given lines, the instruction `t` on line `i`, counted
from zero, has the fault `g`. -/
inductive Flaw (lines : List Text) (i : Nat) (t : Text) : Fault → Prop
  /-- A push of something that is neither a declared label nor a literal. -/
  | unresolvable {operand : Text} (ht : Instruction.IsPush t operand)
      (hl : ¬ Declares lines (strip operand)) (hv : ∀ v, ¬ Numeral.IsLiteral (strip operand) v) :
      Flaw lines i t (.unresolvableOperand (i + 1) t (strip operand))
  /-- Neither a push nor an opcode word, blanks around it not counting. -/
  | unrecognized (hp : ∀ operand, ¬ Instruction.IsPush t operand)
      (ho : ∀ op : Opcode, strip t ≠ op.name) :
      Flaw lines i t (.unrecognizedInstruction (i + 1) t)

/-- The instruction pushes a literal of `k` digits that is no declared label. -/
def PushesDigits (lines : List Text) (t : Text) (k : Nat) : Prop :=
  ∃ operand v, Instruction.IsPush t operand ∧ ¬ Declares lines (strip operand) ∧
    Numeral.IsLiteral (strip operand) v ∧ (Numeral.splitSign (strip operand)).2.length = k

variable {i k : Nat} {t : Text}

theorem exists_position? {name : Text} (h : Declares lines name) :
    ∃ n, position? (clean lines) name = some n := by
  cases hk : position? (clean lines) name with
  | none =>
    obtain ⟨l, hl, hname⟩ := declares_iff.1 h
    exact absurd hname (position?_eq_none_iff.1 hk l hl)
  | some n => exact ⟨n, rfl⟩

theorem operandValue_of_position? {name : Text} {n : Nat}
    (hn : position? (clean lines) name = some n) (hsize : (body lines).length ≤ capacity) :
    operandValue (labels (clean lines)) name = .ok (some n) ∧ Numeral.isWritable n := by
  refine ⟨by rw [operandValue, lookup_labels, hn]; rfl, ?_⟩
  have hle := position?_le hn
  have hcount : (clean lines).countP isInstruction = (body lines).length :=
    List.countP_eq_length_filter
  have hcap := capacity_lt
  rw [Numeral.isWritable, decide_eq_true_eq, Int.natAbs_natCast]
  omega

theorem operandValue_of_not_declares {name : Text} (h : ¬ Declares lines name) :
    operandValue (labels (clean lines)) name = (Numeral.readLiteral name).mapError .numeral := by
  have hk : position? (clean lines) name = none := by
    rw [position?_eq_none_iff]
    intro l hl hname
    exact h (declares_iff.2 ⟨l, hl, hname⟩)
  rw [operandValue, lookup_labels, hk]
  rfl

theorem command_of_flaw {g : Fault} (hne : t ≠ []) (hn : '\n' ∉ t) (h : Flaw lines i t g) :
    command (labels (clean lines)) ⟨i + 1, t⟩ = .error (.fault g) := by
  unfold command
  cases h with
  | unresolvable ht hl hv =>
    rw [Instruction.parse_of_isPush ht hn]
    simp only [operandValue_of_not_declares hl, Numeral.readLiteral_of_not_isLiteral hv]
    rfl
  | unrecognized hp ho =>
    have hnone : Opcode.ofName? (strip t) = none := by
      cases hop : Opcode.ofName? (strip t) with
      | none => rfl
      | some op => exact absurd (Opcode.eq_name_of_ofName? hop) (ho op)
    rw [Instruction.parse_of_not_isPush hp hne hn]
    simp only [hnone]

theorem command_of_pushesDigits (hn : '\n' ∉ t) (h : PushesDigits lines t k)
    (hk : Numeral.digitLimit < k) :
    command (labels (clean lines)) ⟨i + 1, t⟩ = .error (.numeral (.tooLongToRead k)) := by
  obtain ⟨operand, v, ht, hl, hv, rfl⟩ := h
  unfold command
  rw [Instruction.parse_of_isPush ht hn]
  simp only [operandValue_of_not_declares hl, Numeral.readLiteral_of_isLiteral hv, if_pos hk]
  rfl

/-- **An instruction without a flaw has a command**, if its digits are not too many. -/
theorem exists_command (hne : t ≠ []) (hn : '\n' ∉ t) (hflaw : ∀ g, ¬ Flaw lines i t g)
    (hdigits : ∀ k, PushesDigits lines t k → k ≤ Numeral.digitLimit)
    (hsize : (body lines).length ≤ capacity) :
    ∃ c, command (labels (clean lines)) ⟨i + 1, t⟩ = .ok c := by
  unfold command
  by_cases hp : ∃ operand, Instruction.IsPush t operand
  · obtain ⟨operand, ht⟩ := hp
    rw [Instruction.parse_of_isPush ht hn]
    by_cases hl : Declares lines (strip operand)
    · obtain ⟨n, hn⟩ := exists_position? hl
      obtain ⟨hvalue, hw⟩ := operandValue_of_position? hn hsize
      exact ⟨.push n, by simp only [hvalue, hw, if_true]⟩
    · by_cases hv : ∃ v, Numeral.IsLiteral (strip operand) v
      · obtain ⟨v, hv⟩ := hv
        have hlen := hdigits _ ⟨operand, v, ht, hl, hv, rfl⟩
        have hw := Numeral.isWritable_of_isLiteral hv hlen
        refine ⟨.push v, ?_⟩
        simp only [operandValue_of_not_declares hl, Numeral.readLiteral_of_isLiteral hv,
          if_neg (Nat.not_lt.2 hlen), Except.mapError, hw, if_true]
      · exact absurd (.unresolvable ht hl (not_exists.1 hv)) (hflaw _)
  · have hp := not_exists.1 hp
    rw [Instruction.parse_of_not_isPush hp hne hn]
    by_cases ho : ∃ op : Opcode, strip t = op.name
    · obtain ⟨op, ho⟩ := ho
      exact ⟨.bare op, by simp only [ho, Opcode.ofName?_name]⟩
    · exact absurd (.unrecognized hp (not_exists.1 ho)) (hflaw _)

/-! ### The first flaw -/

/-- The fault of the first instruction that has one. -/
def FirstFlaw (lines : List Text) (g : Fault) : Prop :=
  ∃ i t, instructionAt? lines i = some t ∧ Flaw lines i t g ∧
    ∀ j < i, ∀ u, instructionAt? lines j = some u → ∀ g', ¬ Flaw lines j u g'

theorem exists_firstFlaw (h : ∃ i t g, instructionAt? lines i = some t ∧ Flaw lines i t g) :
    ∃ g, FirstFlaw lines g := by
  classical
  obtain ⟨t, g, ht, hg⟩ := Nat.find_spec h
  refine ⟨g, Nat.find h, t, ht, hg, ?_⟩
  intro j hj u hu g' hg'
  exact Nat.find_min h hj ⟨u, g', hu, hg'⟩

section

variable (hfeed : ∀ raw ∈ lines, '\n' ∉ raw) (hsize : (body lines).length ≤ capacity)
  (hdigits : ∀ i t k, instructionAt? lines i = some t → PushesDigits lines t k →
    k ≤ Numeral.digitLimit)

include hfeed hsize hdigits

theorem commands_of_firstFlaw {g : Fault} (h : FirstFlaw lines g) :
    commands lines = .error (.fault g) := by
  obtain ⟨i, t, ht, hg, hfirst⟩ := h
  obtain ⟨front, rest, hbody, hfront⟩ := body_eq_append ht
  rw [commands, if_neg (Nat.not_lt.2 hsize), hbody]
  refine mapM_of_error (fun x hx => ?_) (command_of_flaw (ne_nil_of_instructionAt? ht)
    (lineFeed_not_mem_of_instructionAt? hfeed ht) hg)
  obtain ⟨number, u⟩ := x
  obtain ⟨j, hj, hu, hnumber⟩ := hfront _ hx
  cases hnumber
  exact exists_command (ne_nil_of_instructionAt? hu) (lineFeed_not_mem_of_instructionAt? hfeed hu)
    (hfirst j hj u hu) (fun k => hdigits j u k hu) hsize

theorem exists_commands (h : ∀ i t g, instructionAt? lines i = some t → ¬ Flaw lines i t g) :
    ∃ cs, commands lines = .ok cs := by
  rw [commands, if_neg (Nat.not_lt.2 hsize)]
  refine exists_mapM_eq_ok fun x hx => ?_
  obtain ⟨number, t⟩ := x
  obtain ⟨i, ht, hnumber⟩ := mem_body_iff.1 hx
  cases hnumber
  exact exists_command (ne_nil_of_instructionAt? ht) (lineFeed_not_mem_of_instructionAt? hfeed ht)
    (fun g => h i t g ht) (fun k => hdigits i t k ht) hsize

/-- A source that is not too large compiles, or the fault of its first flaw is told. -/
theorem commands_ok_or_firstFlaw :
    (∃ cs, commands lines = .ok cs) ∧
        (∀ i t g, instructionAt? lines i = some t → ¬ Flaw lines i t g) ∨
      ∃ g, commands lines = .error (.fault g) ∧ FirstFlaw lines g := by
  by_cases h : ∃ i t g, instructionAt? lines i = some t ∧ Flaw lines i t g
  · obtain ⟨g, hg⟩ := exists_firstFlaw h
    exact .inr ⟨g, commands_of_firstFlaw hfeed hsize hdigits hg, hg⟩
  · have hnone : ∀ i t g, instructionAt? lines i = some t → ¬ Flaw lines i t g :=
      fun i t g ht hg => h ⟨i, t, g, ht, hg⟩
    exact .inl ⟨exists_commands hfeed hsize hdigits hnone, hnone⟩

end

/-- **Compiling fails with the fault of the first flaw, and with nothing else.**  A text with more
instructions than priorities is refused for its size, whatever else is wrong with it.  Any other
text, in which no literal has too many digits, compiles just when none of its instructions has a
flaw, and otherwise the first flaw is told, with the number of its line and the instruction without
the blanks around it. -/
theorem compileText_first_flaw (ns text : Text)
    (hdigits : ∀ i t k, instructionAt? (splitFeeds text) i = some t →
      PushesDigits (splitFeeds text) t k → k ≤ 4300) :
    (65536 < (body (splitFeeds text)).length →
      compileText ns text
        = .error (.fault (.programTooLarge (body (splitFeeds text)).length 65536))) ∧
    ((body (splitFeeds text)).length ≤ 65536 →
      (∀ g, compileText ns text = .error (.fault g) ↔ FirstFlaw (splitFeeds text) g) ∧
      ((∃ records, compileText ns text = .ok records) ↔
        ∀ i t g, instructionAt? (splitFeeds text) i = some t → ¬ Flaw (splitFeeds text) i t g)) ∧
    ∀ f, compileText ns text = .error f → ∃ g, f = .fault g := by
  have hfeed : ∀ raw ∈ splitFeeds text, '\n' ∉ raw :=
    fun raw hraw => lineFeed_not_mem_of_mem_splitFeeds hraw
  have hlarge : 65536 < (body (splitFeeds text)).length → compileText ns text
      = .error (.fault (.programTooLarge (body (splitFeeds text)).length 65536)) := by
    intro hsize
    rw [compileText, compile_eq, commands, if_pos (show capacity < _ from hsize)]
    rfl
  rw [compileText, compile_eq] at hlarge ⊢
  refine ⟨hlarge, fun hsize => ?_, fun f hf => ?_⟩
  · rcases commands_ok_or_firstFlaw hfeed hsize hdigits with ⟨⟨cs, hcs⟩, hnone⟩ | ⟨g, hg, hfirst⟩
    · rw [hcs]
      refine ⟨fun g => ⟨fun h => ?_, ?_⟩, fun _ => hnone, fun _ => ⟨_, rfl⟩⟩
      · cases h
      · rintro ⟨i, t, ht, hflaw, -⟩
        exact absurd hflaw (hnone i t g ht)
    · rw [hg]
      refine ⟨fun g' => ⟨fun h => ?_, fun h => ?_⟩, fun h => ?_, fun h => ?_⟩
      · cases h
        exact hfirst
      · rw [← hg, commands_of_firstFlaw hfeed hsize hdigits h]
        rfl
      · obtain ⟨records, h⟩ := h
        cases h
      · obtain ⟨i, t, ht, hflaw, -⟩ := hfirst
        exact absurd hflaw (h i t g ht)
  · by_cases hsize : 65536 < (body (splitFeeds text)).length
    · rw [hlarge hsize] at hf
      cases hf
      exact ⟨_, rfl⟩
    · rcases commands_ok_or_firstFlaw hfeed (Nat.not_lt.1 hsize) hdigits with
        ⟨⟨cs, hcs⟩, -⟩ | ⟨g, hg, -⟩
      · rw [hcs] at hf
        cases hf
      · rw [hg] at hf
        cases hf
        exact ⟨g, rfl⟩

/-- The digits of a literal are characters of a line. -/
theorem exists_le_length (ht : instructionAt? lines i = some t) (hk : PushesDigits lines t k) :
    ∃ raw ∈ lines, k ≤ raw.length := by
  obtain ⟨⟨raw, hraw, rfl⟩, -⟩ := instructionAt?_eq_some_iff.1 ht
  obtain ⟨operand, v, ⟨gap, c, rest, htrim, -⟩, -, -, rfl⟩ := hk
  have hlen : ∀ (p : Char → Bool) (u : Text), (trim p u).length ≤ u.length := by
    intro p u
    rw [trim, List.length_reverse]
    refine Nat.le_trans (length_dropWhile_le p _) ?_
    rw [List.length_reverse]
    exact length_dropWhile_le p u
  have hsign : ∀ u : Text, (Numeral.splitSign u).2.length ≤ u.length := by
    intro u
    have hle : ∀ {a : Char} {w : Text}, u = a :: w → w.length ≤ u.length :=
      fun hu => hu ▸ Nat.le_succ _
    rcases Numeral.splitSign_spec u with ⟨hu, -⟩ | ⟨hu | hu, -⟩
    · exact hle hu
    · exact Nat.le_of_eq (congrArg List.length hu).symm
    · exact hle hu
  refine ⟨raw, List.mem_of_getElem? hraw, ?_⟩
  have hwhole := congrArg List.length htrim
  have hfirst := hsign (strip operand)
  have hsecond := hlen isTrimmed operand
  have hthird := hlen isMargin raw
  simp only [List.length_append] at hwhole
  rw [strip] at hfirst ⊢
  omega

/-- A text with a comment, a label declared further down and two instructions that have no command:
only the first of them is told, and its operand is no number. -/
theorem compileText_first_flaw_hex :
    compileText "x".toList "push end\n; none\n push\t-0x1 \nend:\nfoo".toList
        = .error (.fault (.unresolvableOperand 3 "push\t-0x1".toList "-0x1".toList)) ∧
      FirstFlaw (splitFeeds "push end\n; none\n push\t-0x1 \nend:\nfoo".toList)
        (.unresolvableOperand 3 "push\t-0x1".toList "-0x1".toList) := by
  have hshort : (splitFeeds "push end\n; none\n push\t-0x1 \nend:\nfoo".toList).all
      (fun raw => decide (raw.length ≤ 4300)) = true := by
    decide +kernel
  have hcompile : compileText "x".toList "push end\n; none\n push\t-0x1 \nend:\nfoo".toList
      = .error (.fault (.unresolvableOperand 3 "push\t-0x1".toList "-0x1".toList)) := by
    decide +kernel
  obtain ⟨-, hfirst, -⟩ := compileText_first_flaw "x".toList
    "push end\n; none\n push\t-0x1 \nend:\nfoo".toList (fun i t k ht hk => by
      obtain ⟨raw, hraw, hle⟩ := exists_le_length ht hk
      exact Nat.le_trans hle (of_decide_eq_true (List.all_eq_true.1 hshort raw hraw)))
  exact ⟨hcompile, ((hfirst (by decide +kernel)).1 _).1 hcompile⟩

end Source

end MxLang
