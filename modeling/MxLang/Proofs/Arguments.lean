import Mathlib.Data.List.Basic
import MxLang.CommandLine.Request

/-!
# Command lines that are read as requests

The tool classifies every word behind a command and then hands all of them over as they were
written (`read_of_arguments`).  The command classifies them again: its own plain word fills its
place, and the options of a run are understood by `run` and `exec` alike (`interpret_options`).

A word that starts with a dash and holds a space is plain for a form in which no flag matches it,
and a flag for another form.  So what a word is has to be said for each form; `IsPlain` does.  Of
the tool it is only asked that it does not find the word ambiguous (`IsClear`).
-/

namespace MxLang.CommandLine

open Text

/-! ### Words -/

/-- Whether a form takes the word for a plain one. -/
def IsPlain (f : Form) (t : Text) : Prop :=
  classify f t = .ok (.plain t)

instance (f : Form) (t : Text) : Decidable (IsPlain f t) :=
  inferInstanceAs (Decidable (classify f t = .ok (.plain t)))

/-- Whether a form can classify the word, which it cannot if the word is short for several flags. -/
def IsClear (f : Form) (t : Text) : Prop :=
  ∃ w, classify f t = .ok w

instance (f : Form) (t : Text) : Decidable (IsClear f t) :=
  match h : classify f t with
  | .ok w => .isTrue ⟨w, h⟩
  | .error _ => .isFalse fun ⟨w, hw⟩ => by
    rw [hw] at h
    cases h

theorem text_of_exactFlag? {f : Form} {t : Text} {w : Word} (h : exactFlag? f t = some w) :
    w.text = t := by
  unfold exactFlag? at h
  split at h
  · obtain rfl := Option.some.inj h
    rfl
  · split at h
    · obtain ⟨flag, -, rfl⟩ := Option.map_eq_some_iff.1 h
      rfl
    · cases h

/-- Classifying a word does not change it. -/
theorem text_of_classify {f : Form} {t : Text} {w : Word} (h : classify f t = .ok w) :
    w.text = t := by
  unfold classify at h
  split at h
  · split at h
    · rename_i v hv
      obtain rfl := Except.ok.inj h
      exact text_of_exactFlag? hv
    · split at h
      · obtain rfl := Except.ok.inj h
        rfl
      · split at h <;> (obtain rfl := Except.ok.inj h; rfl)
      · cases h
  · obtain rfl := Except.ok.inj h
    rfl

theorem text_of_classifyAll {f : Form} : ∀ {ts : List Text} {ws : List Word},
    classifyAll f ts = .ok ws → ws.map Word.text = ts := by
  intro ts
  induction ts with
  | nil =>
    intro ws h
    obtain rfl := Except.ok.inj h
    rfl
  | cons t rest ih =>
    intro ws h
    rw [classifyAll] at h
    split at h
    · rename_i ht
      obtain rfl := Except.ok.inj h
      simp [ht, Word.text, Function.comp_def]
    · split at h
      · cases h
      · rename_i w hw
        cases hr : classifyAll f rest with
        | error q => rw [hr] at h; cases h
        | ok vs =>
          rw [hr] at h
          obtain rfl := Except.ok.inj h
          rw [List.map_cons, text_of_classify hw, ih hr]

/-- The divider could be short for several flags of every form. -/
theorem ne_divider_of_classify {f : Form} {t : Text} {w : Word} (h : classify f t = .ok w) :
    t ≠ "--".toList := by
  rintro rfl
  have hd : (classify f "--".toList).isOk = false := by
    cases f <;> decide
  rw [h] at hd
  cases hd

theorem classifyAll_cons {f : Form} {t : Text} {w : Word} {rest : List Text} {ws : List Word}
    (h : classify f t = .ok w) (hr : classifyAll f rest = .ok ws) :
    classifyAll f (t :: rest) = .ok (w :: ws) := by
  rw [classifyAll, if_neg (ne_divider_of_classify h), h]
  dsimp only
  rw [hr]
  rfl

/-! ### What words do -/

section Interpret

variable {σ : Type} {f : Form} {e : Effects σ} {p : Progress σ} {s : σ} {rest : List Word}
  {t v name : Text} {flag : Flag}

theorem interpret_nil : interpret f e p [] = .ok p := by
  rw [interpret]

theorem interpret_fill {n : Nat} (hn : f.place.fill (.plain t :: rest) = n + 1)
    (ho : p.isOpen = true)
    (hs : e.place (((.plain t :: rest).take (n + 1)).map Word.text) p.state = .ok s) :
    interpret f e p (.plain t :: rest)
      = interpret f e { p with state := s, isOpen := false } (rest.drop n) := by
  rw [interpret, if_pos ho, hn]
  · dsimp only
    rw [hs]
  · intro t h
    cases h
  · intro t flag name attached h
    cases h

/-- A plain word fills the place of a command. -/
theorem interpret_plain (hf : f.place ≠ .everything) (ho : p.isOpen = true)
    (hr : rest.head? ≠ some .divider) (hs : e.place [t] p.state = .ok s) :
    interpret f e p (.plain t :: rest)
      = interpret f e { p with state := s, isOpen := false } rest := by
  have hfill : f.place.fill (.plain t :: rest) = 1 := by
    unfold Place.fill
    split <;> simp_all
  exact interpret_fill hfill ho hs

theorem interpret_bare (hv : flag.takesValue = false) (hs : e.flag flag none p.state = .ok s) :
    interpret f e p (.flag t flag name none :: rest)
      = interpret f e { p with state := s } rest := by
  have hflags : flagsOf f flag name none = .ok { bare := [flag] } := by
    rw [flagsOf, lastAlone, hv]
    rfl
  rw [interpret, hflags]
  have hbare : bareFlags e [flag] p.state = .ok s := by
    rw [bareFlags, List.foldlM_cons, hs]
    rfl
  dsimp only
  rw [hbare]

/-- A flag takes the plain word behind it as its value. -/
theorem interpret_separate (hv : flag.takesValue = true)
    (hs : valuedFlag e flag v p.state = .ok s) :
    interpret f e p (.flag t flag name none :: .plain v :: rest)
      = interpret f e { p with state := s } rest := by
  have hflags : flagsOf f flag name none = .ok { last := some (flag, none) } := by
    rw [flagsOf, lastAlone, hv]
    rfl
  rw [interpret, hflags]
  have hlast : lastFlag f e flag (.plain v :: rest) [] p.state = .ok s := hs
  dsimp only
  rw [hlast, List.drop_one, List.tail_cons]

/-- A long flag takes what stands behind the equals sign as its value. -/
theorem interpret_attached (hn : startsWith "--".toList name) (hv : flag.takesValue = true)
    (hs : valuedFlag e flag v p.state = .ok s) :
    interpret f e p (.flag t flag name (some v) :: rest)
      = interpret f e { p with state := s } rest := by
  have hflags : flagsOf f flag name (some v) = .ok { last := some (flag, some v) } := by
    rw [flagsOf, if_pos hn, lastWith, if_pos hv]
  rw [interpret, hflags]
  have hlast : bareFlags e [] p.state >>= valuedFlag e flag v = .ok s := hs
  dsimp only
  rw [hlast]

end Interpret

/-! ### The tool -/

/-- **The tool hands the words behind a command over to it.** -/
theorem read_of_arguments {f : Form} (hf : f ∈ Form.commands) {rest : List Text} {ws : List Word}
    (hw : classifyAll .tool rest = .ok ws) {p : Progress Choices}
    (hp : arguments f (Choices.effects f) {} rest = .ok p) (hl : p.left = []) {r : Request}
    (hr : p.state.request f = .ok r) : read (f.word :: rest) = .ok ⟨0, r⟩ := by
  have hplain : classify .tool f.word = .ok (.plain f.word) := by
    cases f <;> decide
  have hfind : Form.commands.find? (fun g => g.word = f.word) = some f := by
    cases f <;> first | decide | exact absurd hf (by decide)
  have hplace : Summons.effects.place (f.word :: rest) {}
      = .ok { request := some r, left := [] } := by
    change Summons.command (f.word :: rest) {} = _
    rw [Summons.command, hfind]
    dsimp only
    rw [hp]
    change (p.state.request f >>= fun r => _) = _
    rw [hr, ← hl]
    rfl
  have htool : arguments .tool Summons.effects {} (f.word :: rest)
      = .ok { state := { request := some r, left := [] }, isOpen := false } := by
    have hfill : Form.tool.place.fill (.plain f.word :: ws) = ws.length + 1 := rfl
    rw [arguments, classifyAll_cons hplain hw]
    dsimp only
    rw [interpret_fill hfill rfl (s := { request := some r, left := [] }), List.drop_length,
      interpret_nil]
    rw [← List.length_cons (a := Word.plain f.word), List.take_length, List.map_cons,
      text_of_classifyAll hw]
    exact hplace
  rw [read, htool]
  rfl

/-! ### The options of a run -/

/-- What a value of `--max-steps` sets; the divider stands for nothing. -/
def stepLimit? (t : Text) : Option (Setting Int) :=
  if t = "--".toList then some .void else (Numeral.readLoose? t).map .given

/-- A value of `--max-steps` with what it sets. -/
structure StepLimit where
  text : Text
  setting : Setting Int
  reads : stepLimit? text = some setting

/-- An option of a run as it is written out. -/
inductive RunOption
  | dumpState
  /-- `--max-steps` and the value in a word of its own. -/
  | maxSteps (l : StepLimit) (isPlain : ∀ f ∈ [Form.tool, .run, .exec], IsPlain f l.text)
  /-- `--max-steps=` with the value. -/
  | maxStepsEq (l : StepLimit)

namespace RunOption

/-- The words of an option. -/
def words : RunOption → List Text
  | dumpState => ["--dump-state".toList]
  | maxSteps l _ => ["--max-steps".toList, l.text]
  | maxStepsEq l => ["--max-steps=".toList ++ l.text]

/-- What an option sets. -/
def tune : RunOption → Tuning → Tuning
  | dumpState, t => { t with dumpState := true }
  | maxSteps l _, t | maxStepsEq l, t => { t with maxSteps := l.setting }

/-- How both `run` and `exec` classify the words of an option. -/
def classified : RunOption → List Word
  | dumpState => [.flag "--dump-state".toList .dumpState "--dump-state".toList none]
  | maxSteps l _ =>
    [.flag "--max-steps".toList .maxSteps "--max-steps".toList none, .plain l.text]
  | maxStepsEq l =>
    [.flag ("--max-steps=".toList ++ l.text) .maxSteps "--max-steps".toList (some l.text)]

/-- The words of options. -/
def allWords (options : List RunOption) : List Text :=
  options.flatMap words

/-- What options set, the later ones in place of the earlier. -/
def tuning (options : List RunOption) : Tuning :=
  options.foldl (fun t o => o.tune t) {}

end RunOption

theorem classify_maxStepsEq {f : Form} (hf : f = .run ∨ f = .exec) (v : Text) :
    classify f ("--max-steps=".toList ++ v)
      = .ok (.flag ("--max-steps=".toList ++ v) .maxSteps "--max-steps".toList (some v)) := by
  rcases hf with rfl | rfl <;> rfl

theorem exists_classify_maxStepsEq (v : Text) :
    ∃ w, classify .tool ("--max-steps=".toList ++ v) = .ok w :=
  ⟨_, rfl⟩

theorem classifyAll_options {f : Form} (hf : f = .run ∨ f = .exec) (options : List RunOption) :
    classifyAll f (RunOption.allWords options) = .ok (options.flatMap RunOption.classified) := by
  induction options with
  | nil => rfl
  | cons o rest ih =>
    rw [RunOption.allWords, List.flatMap_cons, List.flatMap_cons]
    cases o with
    | dumpState =>
      refine classifyAll_cons ?_ ih
      rcases hf with rfl | rfl <;> decide
    | maxSteps l isPlain =>
      have hplain : IsPlain f l.text := isPlain f (by simpa using Or.inr hf)
      refine classifyAll_cons ?_ (classifyAll_cons hplain ih)
      rcases hf with rfl | rfl <;> decide
    | maxStepsEq l => exact classifyAll_cons (classify_maxStepsEq hf l.text) ih

theorem exists_classifyAll_options (options : List RunOption) :
    ∃ ws, classifyAll .tool (RunOption.allWords options) = .ok ws := by
  induction options with
  | nil => exact ⟨[], rfl⟩
  | cons o rest ih =>
    obtain ⟨ws, hws⟩ := ih
    rw [RunOption.allWords, List.flatMap_cons]
    cases o with
    | dumpState => exact ⟨_, classifyAll_cons (w := .unknown "--dump-state".toList) (by decide) hws⟩
    | maxSteps l isPlain =>
      exact ⟨_, classifyAll_cons (w := .unknown "--max-steps".toList) (by decide)
        (classifyAll_cons (isPlain .tool List.mem_cons_self) hws)⟩
    | maxStepsEq l =>
      obtain ⟨w, hw⟩ := exists_classify_maxStepsEq l.text
      exact ⟨_, classifyAll_cons hw hws⟩

theorem valuedFlag_maxSteps (f : Form) (l : StepLimit) (c : Choices) :
    valuedFlag (Choices.effects f) .maxSteps l.text c
      = .ok { c with tuning := { c.tuning with maxSteps := l.setting } } := by
  have h := l.reads
  rw [stepLimit?] at h
  change Choices.heed f .maxSteps _ c = _
  rw [Choices.heed]
  split at h
  · rename_i ht
    rw [if_pos ht, readSetting, ← Option.some.inj h]
    rfl
  · rename_i ht
    obtain ⟨n, hn, hset⟩ := Option.map_eq_some_iff.1 h
    rw [if_neg ht, readSetting, hn, ← hset]
    rfl

/-- **The options of a run take effect one after another**, whichever command is given them. -/
theorem interpret_options {f : Form} : ∀ (options : List RunOption) {p : Progress Choices},
    interpret f (Choices.effects f) p (options.flatMap RunOption.classified)
      = .ok { p with state := { p.state with
          tuning := options.foldl (fun t o => o.tune t) p.state.tuning } } := by
  intro options
  induction options with
  | nil => intro p; exact interpret_nil
  | cons o rest ih =>
    intro p
    rw [List.flatMap_cons]
    cases o with
    | dumpState =>
      have hs : (Choices.effects f).flag .dumpState none p.state
          = .ok { p.state with tuning := RunOption.dumpState.tune p.state.tuning } := rfl
      exact (interpret_bare rfl hs).trans ih
    | maxSteps l isPlain => exact (interpret_separate rfl (valuedFlag_maxSteps f l _)).trans ih
    | maxStepsEq l =>
      exact (interpret_attached (by decide) rfl (valuedFlag_maxSteps f l _)).trans ih

/-! ### The three command lines -/

/-- The line that compiles a source to a zone file. -/
def compileLine (source zone : Text) : List Text :=
  Form.compile.word :: source :: ["-o".toList, zone]

/-- The line that runs the program of a file with options. -/
def runLine (f : Form) (file : Text) (options : List RunOption) : List Text :=
  f.word :: file :: RunOption.allWords options

theorem place_effects {f g : Form} {t : Text} (h : IsPlain g t) (c : Choices) :
    (Choices.effects f).place [t] c = .ok { c with word := some t } := by
  change Except.ok _ = _
  rw [List.erase_cons_tail (by simpa using ne_divider_of_classify h)]
  rfl

/-- **The line of `compile` is read as its request.** -/
theorem read_compileLine {source zone : Text} (hst : IsClear .tool source)
    (hsc : IsPlain .compile source) (hzt : IsClear .tool zone) (hzc : IsPlain .compile zone) :
    read (compileLine source zone) = .ok ⟨0, .compile source (.given zone) .unset .unset⟩ := by
  obtain ⟨v, hv⟩ := hst
  obtain ⟨w, hw⟩ := hzt
  have htool : classifyAll .tool [source, "-o".toList, zone]
      = .ok [v, .unknown "-o".toList, w] :=
    classifyAll_cons hv (classifyAll_cons (by decide) (classifyAll_cons hw rfl))
  have hwords : classifyAll .compile [source, "-o".toList, zone]
      = .ok [.plain source, .flag "-o".toList .output "-o".toList none, .plain zone] :=
    classifyAll_cons hsc (classifyAll_cons (by decide) (classifyAll_cons hzc rfl))
  have hout : ∀ c : Choices, valuedFlag (Choices.effects .compile) .output zone c
      = .ok { c with output := .given zone } := by
    intro c
    rw [valuedFlag, if_neg (ne_divider_of_classify hzc)]
    rfl
  have hargs : arguments .compile (Choices.effects .compile) {} [source, "-o".toList, zone]
      = .ok { state := { word := some source, output := .given zone }, isOpen := false } := by
    rw [arguments, hwords]
    dsimp only
    rw [interpret_plain (by decide) rfl (by simp) (place_effects hsc _),
      interpret_separate rfl (hout _), interpret_nil]
  exact read_of_arguments (by decide) htool hargs rfl rfl

theorem arguments_options {f : Form} (hf : f = .run ∨ f = .exec) (options : List RunOption) :
    arguments f (Choices.effects f) {} (RunOption.allWords options)
      = .ok { state := { tuning := RunOption.tuning options } } := by
  rw [arguments, classifyAll_options hf options]
  exact interpret_options options

theorem arguments_runLine {f : Form} (hf : f = .run ∨ f = .exec) {file : Text}
    (hp : IsPlain f file) (options : List RunOption) :
    arguments f (Choices.effects f) {} (file :: RunOption.allWords options)
      = .ok { state := { word := some file, tuning := RunOption.tuning options },
              isOpen := false } := by
  have hplace : f.place ≠ .everything := by
    rcases hf with rfl | rfl <;> decide
  have hhead : (options.flatMap RunOption.classified).head? ≠ some .divider := by
    cases options with
    | nil => exact nofun
    | cons o rest => cases o <;> exact nofun
  rw [arguments, classifyAll_cons hp (classifyAll_options hf options)]
  dsimp only
  rw [interpret_plain hplace rfl hhead (place_effects hp _), interpret_options]
  rfl

/-- **`run` and `exec` understand their options alike.** -/
theorem read_runLine {f : Form} (hf : f = .run ∨ f = .exec) {file : Text}
    (ht : IsClear .tool file) (hp : IsPlain f file) (options : List RunOption) {r : Request}
    (hr : Choices.request f { word := some file, tuning := RunOption.tuning options } = .ok r) :
    read (runLine f file options) = .ok ⟨0, r⟩ := by
  obtain ⟨w, hw⟩ := ht
  obtain ⟨ws, hws⟩ := exists_classifyAll_options options
  refine read_of_arguments ?_ (classifyAll_cons hw hws) (arguments_runLine hf hp options) rfl hr
  rcases hf with rfl | rfl <;> decide

end MxLang.CommandLine
