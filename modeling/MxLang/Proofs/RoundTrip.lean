import MxLang.Proofs.Compile
import MxLang.Proofs.Program

/-!
# From source to records and back

The records of a compiled source may come back in any order, and the program read from them is the
same: one line for each instruction of the source, numbered from zero in the order of the source,
with the text of the command that the instruction stands for (`ofRecords_of_perm_compile`).

`IsCanonical` describes that program by the source alone; there is at most one such program
(`IsCanonical.unique`).  That reading the records gives it is `ofRecords_of_perm_publish`, which
knows of the source only its commands: every host lies below the namespace and gives its text
back, and the numbers are strictly ascending, so sorting undoes every rearrangement.
-/

namespace MxLang.Program

open Text Source

/-- The program of commands, numbered from zero. -/
def ofCommands (cs : List Command) : List Line :=
  cs.mapIdx fun i c => ⟨i, c.text⟩

/-- A program that holds, numbered from zero, the commands that the instructions of a source stand
for. -/
structure IsCanonical (lines : List Text) (p : List Line) : Prop where
  length_le : p.length ≤ 65536
  priorities : p.map (·.priority) = (List.range p.length).map fun i : Nat => (i : Int)
  codes : List.Forall₂ (fun l q => ∃ c, Denotes (clean lines) l.text c ∧ q.code = c.text)
    (body lines) p

/-! ### There is only one canonical program -/

theorem eq_of_map_eq {p q : List Line} (hp : p.map (·.priority) = q.map (·.priority))
    (hc : p.map (·.code) = q.map (·.code)) : p = q := by
  have hlen : p.length = q.length := by simpa using congrArg List.length hp
  refine List.ext_getElem hlen fun i hi hj => ?_
  have h1 := List.getElem_of_eq hp (i := i) (by simpa using hi)
  have h2 := List.getElem_of_eq hc (i := i) (by simpa using hi)
  rw [List.getElem_map, List.getElem_map] at h1 h2
  cases hpi : p[i] with
  | mk a s =>
    cases hqi : q[i] with
    | mk b t =>
      rw [hpi, hqi] at h1 h2
      exact congrArg₂ Line.mk h1 h2

theorem map_code_eq {cleaned : List SourceLine} : ∀ {ls : List SourceLine} {p q : List Line},
    List.Forall₂ (fun l r => ∃ c, Denotes cleaned l.text c ∧ r.code = c.text) ls p →
    List.Forall₂ (fun l r => ∃ c, Denotes cleaned l.text c ∧ r.code = c.text) ls q →
    p.map (·.code) = q.map (·.code) := by
  intro ls p q hp
  induction hp generalizing q with
  | nil => intro hq; cases hq; rfl
  | cons ha _ ih =>
    intro hq
    cases hq with
    | cons hb hr =>
      obtain ⟨c, hc, ha⟩ := ha
      obtain ⟨d, hd, hb⟩ := hb
      rw [List.map_cons, List.map_cons, ih hr, ha, hb, hc.unique hd]

theorem IsCanonical.unique {lines : List Text} {p q : List Line} (hp : IsCanonical lines p)
    (hq : IsCanonical lines q) : p = q := by
  have hlen : p.length = q.length := by rw [← hp.codes.length_eq, hq.codes.length_eq]
  refine eq_of_map_eq ?_ (map_code_eq hp.codes hq.codes)
  rw [hp.priorities, hq.priorities, hlen]

/-! ### The program of commands -/

theorem pairwise_ofCommands (cs : List Command) :
    (ofCommands cs).Pairwise fun a b => a.priority < b.priority :=
  pairwise_numbered _ cs

theorem priorities_ofCommands (cs : List Command) :
    (ofCommands cs).map (·.priority)
      = (List.range (ofCommands cs).length).map fun i : Nat => (i : Int) := by
  refine List.ext_getElem (by simp) fun i hi hj => ?_
  simp [ofCommands]

theorem isCanonical_ofCommands {lines : List Text} {cs : List Command}
    (h : commands lines = .ok cs) : IsCanonical lines (ofCommands cs) := by
  obtain ⟨hlen, hall⟩ := commands_spec h
  refine ⟨by simpa [ofCommands, capacity] using hlen, priorities_ofCommands cs, ?_⟩
  rw [List.forall₂_iff_get]
  refine ⟨by simpa [ofCommands] using hall.length_eq, fun i hi hj => ?_⟩
  have hj' : i < cs.length := by simpa [ofCommands] using hj
  refine ⟨cs[i], denotes_of_command (hall.get hi hj'), ?_⟩
  simp [ofCommands]

/-! ### Reading the records -/

theorem map_line_publish (ns : Text) (cs : List Command) :
    (publish ns cs).map (Record.line ns) = ofCommands cs := by
  refine List.ext_getElem (by simp [publish, ofCommands]) fun i hi hj => ?_
  simp [publish, ofCommands, Record.line, Host.decode_encode_text]

theorem isBelow_of_mem_publish {ns : Text} {cs : List Command} {r : Record}
    (h : r ∈ publish ns cs) : Host.isBelow ns r.host := by
  obtain ⟨i, hi, rfl⟩ := List.mem_mapIdx.1 h
  exact Host.isBelow_encode ns (Command.text_ne_nil _)

/-- **The records of commands give the commands back, in whatever order they come.** -/
theorem ofRecords_of_perm_publish {ns : Text} {cs : List Command} {records : List Record}
    (hp : records.Perm (publish ns cs)) : ofRecords ns records = .ok (ofCommands cs) := by
  have hall : records.filter (fun r => Host.isBelow ns r.host) = records := by
    rw [List.filter_eq_self]
    exact fun r hr => isBelow_of_mem_publish (hp.subset hr)
  have hlines : linesBelow ns records = ofCommands cs := by
    rw [linesBelow, hall]
    refine sort_eq_of_perm ?_ (pairwise_ofCommands cs)
    rw [← map_line_publish ns cs]
    exact hp.map _
  rw [ofRecords, hlines, clash?_eq_none (pairwise_ofCommands cs)]

/-- **Compiled records decode to the canonical program of their source.**  The order of the
records does not matter, and neither does the namespace: below any other the same source compiles
as well, and decodes to the same program. -/
theorem ofRecords_of_perm_compile {ns : Text} {lines : List Text} {records rearranged : List Record}
    (h : compile ns lines = .ok records) (hp : rearranged.Perm records) :
    ∃ p, ofRecords ns rearranged = .ok p ∧ IsCanonical lines p ∧
      (∀ q, IsCanonical lines q → q = p) ∧
      ∀ ns', ∃ records', compile ns' lines = .ok records' ∧
        ∀ rearranged', rearranged'.Perm records' → ofRecords ns' rearranged' = .ok p := by
  rw [compile_eq] at h
  cases hc : commands lines with
  | error f => rw [hc] at h; cases h
  | ok cs =>
    rw [hc] at h
    obtain rfl := Except.ok.inj h
    have hcan := isCanonical_ofCommands hc
    refine ⟨ofCommands cs, ofRecords_of_perm_publish hp, hcan, fun q hq => hq.unique hcan, ?_⟩
    intro ns'
    refine ⟨publish ns' cs, ?_, fun _ hr => ofRecords_of_perm_publish hr⟩
    rw [compile_eq, hc]
    rfl

/-- A source with a forward and a redeclared label, a label that looks like a number and a negative
literal, its records out of order below a namespace with a dash. -/
theorem ofRecords_of_perm_compile_redeclared :
    ∃ p, ofRecords "a-b".toList
        [⟨3, "push--5.a-b.".toList⟩, ⟨0, "push-5.a-b.".toList⟩, ⟨4, "push-2.a-b.".toList⟩,
          ⟨1, "push-7.a-b.".toList⟩, ⟨2, "jmpc.a-b.".toList⟩] = .ok p ∧
      IsCanonical (["end:", "push end", "# none", "push\t +07", "7:", "jmpc", "push -5", "push 7",
        "end:"].map String.toList) p := by
  have h : compile "a-b".toList (["end:", "push end", "# none", "push\t +07", "7:", "jmpc",
      "push -5", "push 7", "end:"].map String.toList)
      = .ok [⟨0, "push-5.a-b.".toList⟩, ⟨1, "push-7.a-b.".toList⟩, ⟨2, "jmpc.a-b.".toList⟩,
          ⟨3, "push--5.a-b.".toList⟩, ⟨4, "push-2.a-b.".toList⟩] := by
    decide +kernel
  have hp : List.Perm [⟨3, "push--5.a-b.".toList⟩, ⟨0, "push-5.a-b.".toList⟩,
      ⟨4, "push-2.a-b.".toList⟩, ⟨1, "push-7.a-b.".toList⟩, ⟨2, "jmpc.a-b.".toList⟩]
      [⟨0, "push-5.a-b.".toList⟩, ⟨1, "push-7.a-b.".toList⟩, ⟨2, "jmpc.a-b.".toList⟩,
        ⟨3, "push--5.a-b.".toList⟩, (⟨4, "push-2.a-b.".toList⟩ : Record)] := by
    decide +kernel
  obtain ⟨p, hread, hcan, -⟩ := ofRecords_of_perm_compile h hp
  exact ⟨p, hread, hcan⟩

end MxLang.Program
