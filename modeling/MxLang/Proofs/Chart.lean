import Mathlib.Data.Finmap
import Mathlib.Data.Finset.Max
import MxLang.Control
import MxLang.Proofs.Program

/-!
# Programs as finite maps

What matters of a program is which instruction stands at which priority.  A `Chart` is a finite map
that says just that; among lines of one priority it keeps the first (`lookup_ofLines`).  Neither the
order of lines of different priorities nor a line whose priority was given away before leaves a
trace in it (`ofLines_perm`, `ofLines_append_cons`).

The control unit walks through sorted lines and takes the first one at or after the counter.  This
is the line of the chart at the least such priority: `map_snd_firstFrom?_sort`.
-/

namespace MxLang

/-- The code at every priority. -/
abbrev Chart := Finmap fun _ : Int => Text

namespace Chart

/-- A line as an entry of a chart. -/
def entry (l : Line) : (_ : Int) × Text :=
  ⟨l.priority, l.code⟩

/-- The chart of a program, which keeps the first line of every priority. -/
def ofLines (lines : List Line) : Chart :=
  (lines.map entry).toFinmap

theorem lookup_ofLines (lines : List Line) (k : Int) :
    (ofLines lines).lookup k
      = (lines.find? fun l => decide (l.priority = k)).map (·.code) := by
  rw [ofLines, Finmap.dlookup_list_toFinmap]
  induction lines with
  | nil => rfl
  | cons l rest ih =>
    rw [List.map_cons, entry]
    by_cases h : l.priority = k
    · subst h
      rw [List.dlookup_cons_eq, List.find?_cons_of_pos (by simp)]
      rfl
    · rw [List.dlookup_cons_ne _ _ (Ne.symm h), List.find?_cons_of_neg (by simpa using h)]
      exact ih

theorem mem_ofLines {lines : List Line} {k : Int} :
    k ∈ ofLines lines ↔ ∃ l ∈ lines, l.priority = k := by
  rw [← Finmap.lookup_isSome, lookup_ofLines, Option.isSome_map, List.find?_isSome]
  simp only [decide_eq_true_eq]

theorem ofLines_eq_empty_iff {lines : List Line} : ofLines lines = ∅ ↔ lines = [] := by
  constructor
  · intro h
    cases lines with
    | nil => rfl
    | cons l rest =>
      have hmem : l.priority ∈ ofLines (l :: rest) := mem_ofLines.2 ⟨l, List.mem_cons_self, rfl⟩
      rw [h] at hmem
      exact absurd hmem Finmap.notMem_empty
  · rintro rfl
    rfl

/-- The order of lines of different priorities does not matter. -/
theorem ofLines_perm {lines other : List Line} (hp : other.Perm lines)
    (hd : (lines.map (·.priority)).Nodup) : ofLines other = ofLines lines := by
  refine Finmap.ext_lookup fun k => ?_
  rw [ofLines, ofLines, Finmap.dlookup_list_toFinmap, Finmap.dlookup_list_toFinmap]
  refine List.perm_dlookup k ?_ (hp.map entry)
  show ((other.map entry).map Sigma.fst).Nodup
  rw [List.map_map]
  exact (hp.map _).nodup_iff.2 hd

/-- A line does not matter if a line before it has its priority. -/
theorem ofLines_append_cons {front rest : List Line} {l : Line}
    (h : ∃ a ∈ front, a.priority = l.priority) :
    ofLines (front ++ l :: rest) = ofLines (front ++ rest) := by
  refine Finmap.ext_lookup fun k => ?_
  rw [lookup_ofLines, lookup_ofLines, List.find?_append, List.find?_append]
  by_cases hk : l.priority = k
  · obtain ⟨a, ha, hal⟩ := h
    have hsome : (front.find? fun b => decide (b.priority = k)).isSome :=
      List.find?_isSome.2 ⟨a, ha, by simp [hal, hk]⟩
    rw [Option.or_of_isSome hsome, Option.or_of_isSome hsome]
  · rw [List.find?_cons_of_neg (by simpa using hk)]

/-! ### The line at the least priority -/

/-- The line at the least priority that is at least `n`. -/
def next? (M : Chart) (n : Int) : Option Line :=
  if h : (M.keys.filter (n ≤ ·)).Nonempty then
    (M.lookup ((M.keys.filter (n ≤ ·)).min' h)).map fun code =>
      ⟨(M.keys.filter (n ≤ ·)).min' h, code⟩
  else none

theorem mem_keys_filter {M : Chart} {n k : Int} :
    k ∈ M.keys.filter (n ≤ ·) ↔ k ∈ M ∧ n ≤ k := by
  rw [Finset.mem_filter, Finmap.mem_keys]

theorem next?_eq_none_iff {M : Chart} {n : Int} : M.next? n = none ↔ ∀ k ∈ M, k < n := by
  unfold next?
  split
  · rename_i h
    obtain ⟨hk, hn⟩ := mem_keys_filter.1 (Finset.min'_mem _ h)
    obtain ⟨code, hcode⟩ := Finmap.mem_iff.1 hk
    rw [hcode]
    constructor
    · intro hnone
      cases hnone
    · intro hall
      exact absurd (hall _ hk) (Int.not_lt.2 hn)
  · rename_i h
    constructor
    · intro _ k hk
      by_contra hn
      exact h ⟨k, mem_keys_filter.2 ⟨hk, Int.not_lt.1 hn⟩⟩
    · exact fun _ => rfl

theorem next?_eq_some_iff {M : Chart} {n : Int} {l : Line} :
    M.next? n = some l ↔
      M.lookup l.priority = some l.code ∧ n ≤ l.priority ∧
        ∀ k ∈ M, n ≤ k → l.priority ≤ k := by
  unfold next?
  constructor
  · intro h
    split at h
    · rename_i hne
      obtain ⟨code, hcode, rfl⟩ := Option.map_eq_some_iff.1 h
      refine ⟨hcode, (mem_keys_filter.1 (Finset.min'_mem _ hne)).2, fun k hk hn => ?_⟩
      exact Finset.min'_le _ _ (mem_keys_filter.2 ⟨hk, hn⟩)
    · cases h
  · rintro ⟨hcode, hn, hleast⟩
    have hmem : l.priority ∈ M.keys.filter (n ≤ ·) :=
      mem_keys_filter.2 ⟨Finmap.mem_of_lookup_eq_some hcode, hn⟩
    have hne : (M.keys.filter (n ≤ ·)).Nonempty := ⟨_, hmem⟩
    have hmin : (M.keys.filter (n ≤ ·)).min' hne = l.priority := by
      obtain ⟨hk, hle⟩ := mem_keys_filter.1 (Finset.min'_mem _ hne)
      exact Int.le_antisymm (Finset.min'_le _ _ hmem) (hleast _ hk hle)
    rw [dif_pos hne, hmin, hcode]
    rfl

end Chart

/-! ### The first line at or after the counter -/

namespace Control

theorem map_snd_firstFrom? (n : Int) : ∀ (start : Nat) (p : List Line),
    (firstFrom? n start p).map Prod.snd = p.find? fun l => decide (n ≤ l.priority) := by
  intro start p
  induction p generalizing start with
  | nil => rfl
  | cons l rest ih =>
    rw [firstFrom?]
    by_cases h : n ≤ l.priority
    · rw [if_pos h, List.find?_cons_of_pos (by simpa using h)]
      rfl
    · rw [if_neg h, List.find?_cons_of_neg (by simpa using h)]
      exact ih (start + 1)

/-- The index that is found is that of the line. -/
theorem getElem?_of_firstFrom? {n : Int} {l : Line} : ∀ {start i : Nat} {p : List Line},
    firstFrom? n start p = some (i, l) → start ≤ i ∧ p[i - start]? = some l := by
  intro start i p
  induction p generalizing start with
  | nil => intro h; cases h
  | cons a rest ih =>
    intro h
    rw [firstFrom?] at h
    split at h
    · cases h
      exact ⟨Nat.le_refl _, by rw [Nat.sub_self]; rfl⟩
    · obtain ⟨hle, hget⟩ := ih h
      refine ⟨by omega, ?_⟩
      rw [show i - start = (i - (start + 1)) + 1 by omega, List.getElem?_cons_succ]
      exact hget

/-- In sorted lines, the first line at or after `n` has the least priority of all such lines, and no
other line of its priority stands before it. -/
theorem find?_of_pairwise {n : Int} {l : Line} : ∀ {p : List Line},
    (p.Pairwise fun a b => a.priority ≤ b.priority) →
    (p.find? fun a => decide (n ≤ a.priority)) = some l →
    (p.find? fun a => decide (a.priority = l.priority)) = some l ∧
      ∀ a ∈ p, n ≤ a.priority → l.priority ≤ a.priority := by
  intro p
  induction p with
  | nil => intro _ h; cases h
  | cons b rest ih =>
    intro hp h
    obtain ⟨hb, hrest⟩ := List.pairwise_cons.1 hp
    by_cases hn : n ≤ b.priority
    · rw [List.find?_cons_of_pos (by simpa using hn)] at h
      cases h
      refine ⟨List.find?_cons_of_pos (by simp), fun a ha _ => ?_⟩
      rcases List.mem_cons.1 ha with rfl | ha
      · exact Int.le_refl _
      · exact hb a ha
    · rw [List.find?_cons_of_neg (by simpa using hn)] at h
      obtain ⟨hfirst, hleast⟩ := ih hrest h
      have hl : n ≤ l.priority := by simpa using List.find?_some h
      refine ⟨?_, fun a ha hna => ?_⟩
      · rw [List.find?_cons_of_neg (by simp; omega)]
        exact hfirst
      · rcases List.mem_cons.1 ha with rfl | ha
        · exact absurd hna hn
        · exact hleast a ha hna

/-- **Seeking in sorted lines is looking up the least priority in their chart.** -/
theorem map_snd_firstFrom?_sort (lines : List Line) (n : Int) :
    (firstFrom? n 0 (Program.sort lines)).map Prod.snd = (Chart.ofLines lines).next? n := by
  rw [map_snd_firstFrom?]
  have hmem : ∀ {l : Line}, l ∈ Program.sort lines ↔ l ∈ lines := (Program.sort_perm lines).mem_iff
  cases h : (Program.sort lines).find? fun l => decide (n ≤ l.priority) with
  | none =>
    symm
    rw [Chart.next?_eq_none_iff]
    intro k hk
    obtain ⟨l, hl, rfl⟩ := Chart.mem_ofLines.1 hk
    have hn := List.find?_eq_none.1 h l (hmem.2 hl)
    simpa using hn
  | some l =>
    symm
    obtain ⟨hfirst, hleast⟩ := find?_of_pairwise (Program.pairwise_sort lines) h
    rw [Chart.next?_eq_some_iff]
    refine ⟨?_, by simpa using List.find?_some h, fun k hk hn => ?_⟩
    · -- Sorting keeps the order of lines of one priority, so it keeps the first of them.
      rw [Chart.lookup_ofLines, ← List.head?_filter, ← Program.filter_sort, List.head?_filter,
        hfirst]
      rfl
    · obtain ⟨a, ha, rfl⟩ := Chart.mem_ofLines.1 hk
      exact hleast a (hmem.2 ha) hn

end Control

end MxLang
