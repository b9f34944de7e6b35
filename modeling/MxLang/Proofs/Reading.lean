import Mathlib.Data.List.Forall2
import MxLang.Zone.Reader

/-!
# Zones that are read alike

A line that can be read changes the scope of the lines after it and may give a record
(`Reading.next_of_parseLine`).  Both depend on what the line says alone; its number and its text are
only told where something is wrong with it.  So two zones whose lines say the same, one by one, are
read alike: they give the same records, or they fail in the same way at the same line
(`records_place`).
-/

namespace MxLang

/-- What is told of a failure but for the text of the line. -/
def Failure.place : Failure → Failure
  | .fault (.zone (.unreadable _) line _ file) => .fault (.zone (.unreadable []) line [] file)
  | .fault (.zone flaw line _ file) => .fault (.zone flaw line [] file)
  | f => f

namespace Zone

open Text

/-! ### What a line does -/

/-- What the lines after a line depend on, from what it says. -/
def Scope.after (s : Scope) : LineContent → Scope
  | .blank => s
  | .directive name (origin :: _) =>
    if name = "$ORIGIN".toList then { s with origin := some (rooted origin) } else s
  | .directive _ [] => s
  | .entry e => { s with owner := s.ownerOf e.owner }

/-- The records that a line gives, at most one. -/
def gives (domain : Option Text) (file : Text) (s : Scope) (l : Logical) :
    LineContent → Except Failure (List Record)
  | .entry e =>
    if e.type = "MX".toList && isWanted domain (s.ownerOf e.owner) then
      (exchange (s.after (.entry e)) l file e.data).map ([·])
    else .ok []
  | _ => .ok []

/-- **A line that can be read does two things**: it changes the scope, and it may give a record. -/
theorem Reading.next_of_parseLine {l : Logical} {c : LineContent} (h : parseLine l.text = .ok c)
    (domain : Option Text) (file : Text) (r : Reading) :
    r.next domain file l
      = (gives domain file r.scope l c).map fun new => ⟨r.scope.after c, new ++ r.records⟩ := by
  unfold Reading.next
  rw [h]
  cases c with
  | blank => rfl
  | directive name args =>
    cases args with
    | nil => rfl
    | cons origin args =>
      dsimp only [gives, Scope.after, Except.map]
      split <;> rfl
  | entry e =>
    dsimp only [gives]
    split
    · dsimp only [Scope.after]
      cases exchange { r.scope with owner := r.scope.ownerOf e.owner } l file e.data <;> rfl
    · rfl

/-- What is taken from a line has been read from it. -/
theorem Reading.next_eq_ok {domain : Option Text} {file : Text} {r r₁ : Reading} {l : Logical}
    (h : r.next domain file l = .ok r₁) :
    ∃ c new, parseLine l.text = .ok c ∧ gives domain file r.scope l c = .ok new ∧
      r₁ = ⟨r.scope.after c, new ++ r.records⟩ := by
  cases hp : parseLine l.text with
  | error e =>
    rw [Reading.next, hp] at h
    cases h
  | ok c =>
    rw [Reading.next_of_parseLine hp] at h
    cases hg : gives domain file r.scope l c with
    | error f =>
      rw [hg] at h
      cases h
    | ok new =>
      rw [hg] at h
      exact ⟨c, new, rfl, hg, (Except.ok.inj h).symm⟩

/-! ### Lines that say the same -/

/-- Two logical lines that say the same, or nothing that can be read, and have the same number. -/
structure Logical.SaysSame (l l' : Logical) : Prop where
  number : l.number = l'.number
  content : ∀ c, parseLine l.text = .ok c ↔ parseLine l'.text = .ok c

/-- Two computations that agree but for some of what is told of their failure. -/
theorem mapError_eq_cases {ε ε' α : Type} {g : ε → ε'} {x x' : Except ε α}
    (h : x.mapError g = x'.mapError g) :
    (∃ a, x = .ok a ∧ x' = .ok a) ∨ ∃ e e', x = .error e ∧ x' = .error e' ∧ g e = g e' := by
  cases x with
  | error e =>
    cases x' with
    | error e' => exact .inr ⟨e, e', rfl, rfl, Except.error.inj h⟩
    | ok a' => cases h
  | ok a =>
    cases x' with
    | error e' => cases h
    | ok a' => exact .inl ⟨a, rfl, congrArg Except.ok (Except.ok.inj h).symm⟩

theorem mapError_map {ε ε' α β : Type} {g : ε → ε'} {x x' : Except ε α}
    (h : x.mapError g = x'.mapError g) (f : α → β) :
    (x.map f).mapError g = (x'.map f).mapError g := by
  rcases mapError_eq_cases h with ⟨a, rfl, rfl⟩ | ⟨e, e', rfl, rfl, he⟩
  · rfl
  · exact congrArg Except.error he

theorem exchange_place (s : Scope) {l l' : Logical} (h : l.number = l'.number) (file : Text)
    (data : List Text) :
    (exchange s l file data).mapError Failure.place
      = (exchange s l' file data).mapError Failure.place := by
  have hbad : Failure.place (.fault (.zone .badExchange l.number l.text file))
      = Failure.place (.fault (.zone .badExchange l'.number l'.text file)) := by
    rw [h]
    rfl
  unfold exchange
  split
  · split
    · rfl
    · exact congrArg Except.error hbad
  · exact congrArg Except.error hbad

theorem gives_place (domain : Option Text) (file : Text) (s : Scope) {l l' : Logical}
    (h : l.number = l'.number) (c : LineContent) :
    (gives domain file s l c).mapError Failure.place
      = (gives domain file s l' c).mapError Failure.place := by
  cases c with
  | blank => rfl
  | directive name args => rfl
  | entry e =>
    dsimp only [gives]
    split
    · exact mapError_map (exchange_place (s.after (.entry e)) h file e.data) _
    · rfl

theorem gives_of_eq_ok {domain : Option Text} {file : Text} {s : Scope} {l l' : Logical}
    {c : LineContent} {new : List Record} (h : l.number = l'.number)
    (hnew : gives domain file s l c = .ok new) : gives domain file s l' c = .ok new := by
  rcases mapError_eq_cases (gives_place domain file s h c) with ⟨new', hl, hl'⟩ | ⟨f, -, hl, -, -⟩
  · rw [hnew] at hl
    cases hl
    exact hl'
  · rw [hnew] at hl
    cases hl

/-- **Lines that say the same do the same to a reading.** -/
theorem Reading.next_place {l l' : Logical} (h : l.SaysSame l') (domain : Option Text) (file : Text)
    (r : Reading) :
    (r.next domain file l).mapError Failure.place
      = (r.next domain file l').mapError Failure.place := by
  cases hp : parseLine l.text with
  | error e =>
    cases hp' : parseLine l'.text with
    | error e' =>
      rw [Reading.next, Reading.next, hp, hp', h.number]
      rfl
    | ok c =>
      rw [(h.content c).2 hp'] at hp
      cases hp
  | ok c =>
    rw [Reading.next_of_parseLine hp, Reading.next_of_parseLine ((h.content c).1 hp)]
    exact mapError_map (gives_place domain file r.scope h.number c) _

theorem foldlM_place {ls ls' : List Logical} (h : List.Forall₂ Logical.SaysSame ls ls')
    (domain : Option Text) (file : Text) (r : Reading) :
    (ls.foldlM (Reading.next domain file) r).mapError Failure.place
      = (ls'.foldlM (Reading.next domain file) r).mapError Failure.place := by
  induction h generalizing r with
  | nil => rfl
  | cons hsame _ ih =>
    rw [List.foldlM_cons, List.foldlM_cons]
    rcases mapError_eq_cases (r.next_place hsame domain file) with
      ⟨r₁, hl, hl'⟩ | ⟨f, f', hl, hl', hplace⟩
    · rw [hl, hl']
      exact ih r₁
    · rw [hl, hl']
      exact congrArg Except.error hplace

/-- **Zones whose logical lines say the same are read alike**: with the same records, or with the
same failure at the same line. -/
theorem records_place {t t' : Text}
    (hlines : List.Forall₂ Logical.SaysSame (logicalLines t) (logicalLines t'))
    (hopen : unclosed? t = unclosed? t') (domain : Option Text) (file : Text) :
    (records domain file t).mapError Failure.place
      = (records domain file t').mapError Failure.place := by
  unfold records
  rw [hopen]
  rcases mapError_eq_cases (foldlM_place hlines domain file {}) with
    ⟨r, hl, hl'⟩ | ⟨f, f', hl, hl', hplace⟩
  · rw [hl, hl']
  · rw [hl, hl']
    exact congrArg Except.error hplace

end Zone

end MxLang
