import MxLang.CommandLine.Words

/-!
# Arguments

Words take effect from left to right.  A flag takes its value from its own word or is followed by a
plain word; short flags without values may share one word.  A divider that stands as a value counts
as none.  Between flags, plain words fill the place of the form, if it is still open; words for
which there is no place are left over.
-/

namespace MxLang.CommandLine

open Text

/-- The plain words that a form takes. -/
inductive Place
  /-- One word. -/
  | one
  /-- One word or none. -/
  | optional
  /-- A word and everything after it. -/
  | everything
deriving DecidableEq, Repr

/-- The place of a form. -/
def Form.place : Form → Place
  | .tool => .everything
  | .compile | .exec => .one
  | .run | .disasm => .optional

/-- How many words at the front fill a place, none if they do not fit; a divider next to them
belongs to them. -/
def Place.fill : Place → List Word → Nat
  | .everything, .plain t :: rest => (Word.plain t :: rest).length
  | .everything, .divider :: .plain t :: rest => (Word.divider :: .plain t :: rest).length
  | .everything, _ => 0
  | _, .plain _ :: .divider :: _ => 2
  | _, .plain _ :: _ => 1
  | _, .divider :: .plain _ :: _ => 2
  | .optional, .divider :: _ => 1
  | _, _ => 0

/-- What words do to a state: a flag with its value, if there is one, and the words in the place of
the form. -/
structure Effects (σ : Type) where
  flag : Flag → Option Text → σ → Except Quit σ
  place : List Text → σ → Except Quit σ

/-- What is known after some words. -/
structure Progress (σ : Type) where
  state : σ
  /-- Whether the place of the form is still to be filled. -/
  isOpen : Bool := true
  /-- The words left over. -/
  left : List Text := []

/-- A message about a flag. -/
def flagMisuse (f : Form) (flag : Flag) (words : Text) : Quit :=
  .misuse f ("argument ".toList ++ flag.label ++ ": ".toList ++ words)

/-- The message about a value for a flag that has none. -/
def ignoredValue (f : Form) (flag : Flag) (value : Text) : Quit :=
  flagMisuse f flag ("ignored explicit argument ".toList ++ quote value)

/-- The flags of one word. -/
structure Cluster where
  /-- The flags without a value. -/
  bare : List Flag := []
  /-- The last flag, if it has a value, with the value if it stands in the word. -/
  last : Option (Flag × Option Text) := none

/-- A flag with a value in the same word, as the last one of the word. -/
def lastWith (f : Form) (flag : Flag) (value : Text) : Except Quit Cluster :=
  if flag.takesValue then .ok { last := some (flag, some value) }
  else .error (ignoredValue f flag value)

/-- A flag without a value in its word. -/
def lastAlone (flag : Flag) : Cluster :=
  if flag.takesValue then { last := some (flag, none) } else { bare := [flag] }

/-- The short flag `flag` and what is attached to it: its value, or more short flags if it has
none. -/
def cluster (f : Form) (flag : Flag) : Text → Except Quit Cluster
  | [] => lastWith f flag []
  | c :: more =>
    match flag.takesValue, f.names.lookup ['-', c] with
    | false, some next =>
      (if more = [] then .ok (lastAlone next) else cluster f next more).map fun r =>
        { r with bare := flag :: r.bare }
    | _, _ => lastWith f flag (c :: more)

/-- The flags of a word. -/
def flagsOf (f : Form) (flag : Flag) (name : Text) : Option Text → Except Quit Cluster
  | none => .ok (lastAlone flag)
  | some value =>
    if startsWith "--".toList name then lastWith f flag value else cluster f flag value

/-- Flags without values, one after another. -/
def bareFlags (e : Effects σ) (flags : List Flag) (s : σ) : Except Quit σ :=
  flags.foldlM (fun s flag => e.flag flag none s) s

/-- A flag with a value, which the divider is not. -/
def valuedFlag (e : Effects σ) (flag : Flag) (value : Text) (s : σ) : Except Quit σ :=
  e.flag flag (if value = "--".toList then none else some value) s

/-- The last flag of a word takes the next word as its value if it stands without one. -/
def lastFlag (f : Form) (e : Effects σ) (flag : Flag) (rest : List Word) (bare : List Flag)
    (s : σ) : Except Quit σ :=
  match rest with
  | .plain value :: _ => bareFlags e bare s >>= valuedFlag e flag value
  | _ => .error (flagMisuse f flag "expected one argument".toList)

/-- The words take effect. -/
def interpret (f : Form) (e : Effects σ) (p : Progress σ) (words : List Word) :
    Except Quit (Progress σ) :=
  match words with
  | .unknown t :: rest => interpret f e { p with left := p.left ++ [t] } rest
  | .flag _ flag name attached :: rest =>
    match flagsOf f flag name attached with
    | .error q => .error q
    | .ok c =>
      match c.last with
      | none =>
        match bareFlags e c.bare p.state with
        | .error q => .error q
        | .ok s => interpret f e { p with state := s } rest
      | some (last, some value) =>
        match bareFlags e c.bare p.state >>= valuedFlag e last value with
        | .error q => .error q
        | .ok s => interpret f e { p with state := s } rest
      | some (last, none) =>
        match lastFlag f e last rest c.bare p.state with
        | .error q => .error q
        | .ok s => interpret f e { p with state := s } (rest.drop 1)
  | w :: rest =>
    match if p.isOpen then f.place.fill (w :: rest) else 0 with
    | 0 => interpret f e { p with left := p.left ++ [w.text] } rest
    | n + 1 =>
      match e.place (((w :: rest).take (n + 1)).map Word.text) p.state with
      | .error q => .error q
      | .ok s => interpret f e { p with state := s, isOpen := false } (rest.drop n)
  | [] => .ok p
termination_by words.length

/-- A command line takes effect. -/
def arguments (f : Form) (e : Effects σ) (s : σ) (line : List Text) :
    Except Quit (Progress σ) :=
  match classifyAll f line with
  | .error q => .error q
  | .ok words => interpret f e { state := s } words

end MxLang.CommandLine
