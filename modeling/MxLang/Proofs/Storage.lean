import Mathlib.Data.List.Basic
import MxLang.Storage

/-!
# Writing and finding files

A file that was written is read back (`read_of_write`), and what was found anywhere else before is
still found (`find?_of_write`).  Writing creates directories on the way, and a directory that
appears can make a path that was looked for in vain fail because of a name that is too long.  A
store is sound if all its names are short enough; writing keeps it so (`IsSound.write`).
-/

namespace MxLang.Storage

variable {s s' : Storage} {p q : Path} {n : Node} {bytes : List UInt8}

/-! ### One node -/

theorem lookup_filter_of_ne (h : q ≠ p) :
    (s.filter fun e => e.1 ≠ p).lookup q = s.lookup q := by
  induction s with
  | nil => rfl
  | cons e rest ih =>
    obtain ⟨r, m⟩ := e
    by_cases hr : r = p
    · subst hr
      rw [List.filter_cons_of_neg (by simp), ih, List.lookup_cons, beq_false_of_ne h]
    · rw [List.filter_cons_of_pos (by simpa using hr), List.lookup_cons, List.lookup_cons, ih]

theorem parts_ne_nil_of_find? (h : s.find? p ≠ some .directory) : p.parts ≠ [] := by
  intro hp
  exact h (if_pos hp)

theorem find?_put (hp : p.parts ≠ []) :
    (s.put p n).find? q = if q = p then some n else s.find? q := by
  split
  · rename_i h
    subst h
    rw [find?, if_neg hp, put, List.lookup_cons_self]
  · rename_i h
    rw [find?, find?, put, List.lookup_cons, beq_false_of_ne h]
    dsimp only
    rw [lookup_filter_of_ne h]

/-! ### Directories -/

/-- Puts a directory at a path where nothing is. -/
def ensure (s : Storage) (p : Path) : Storage :=
  if (s.find? p).isNone then s.put p .directory else s

theorem find?_ensure (s : Storage) (p q : Path) :
    (s.ensure p).find? q
      = if q = p then some ((s.find? p).getD .directory) else s.find? q := by
  rw [ensure]
  cases h : s.find? p with
  | none =>
    rw [Option.isNone_none, if_pos rfl, find?_put (parts_ne_nil_of_find? (by rw [h]; exact nofun))]
    rfl
  | some n =>
    rw [if_neg (by simp)]
    split
    · rename_i hq
      rw [hq, h]
      rfl
    · rfl

theorem find?_foldl_ensure : ∀ (qs : List Path) (s : Storage) (q : Path),
    (qs.foldl ensure s).find? q
      = if q ∈ qs then some ((s.find? q).getD .directory) else s.find? q := by
  intro qs
  induction qs with
  | nil => intro s q; simp
  | cons p rest ih =>
    intro s q
    rw [List.foldl_cons, ih, find?_ensure]
    by_cases hq : q = p
    · subst hq
      simp
    · simp [hq]

/-- What making a directory does, and what it has found out. -/
theorem makeDirectory_cases (h : s.makeDirectory p = .ok s') :
    s' = (p.ancestors ++ [p]).foldl ensure s ∧ s.isFile p = false ∧ overlong? p = none := by
  unfold makeDirectory at h
  split at h
  · cases h
  split at h
  · cases h
  split at h
  · cases h
  split at h
  · cases h
  rename_i hfile _ _ _ hlong
  exact ⟨(Except.ok.inj h).symm, eq_false_of_ne_true hfile,
    Option.eq_none_iff_forall_ne_some.2 hlong⟩

/-! ### Files -/

/-- What writing a file does, and what it has found out. -/
theorem write_cases (h : s.write p bytes = .ok s') :
    ∃ t, s.makeDirectory p.parent = .ok t ∧ t.find? p ≠ some .directory ∧
      t.meetsOverlong p = false ∧ s' = t.put p (.file bytes) := by
  unfold write at h
  split at h
  · cases h
  rename_i t ht
  split at h
  · cases h
  split at h
  · cases h
  rename_i hdir hlong
  exact ⟨t, ht, hdir, eq_false_of_ne_true hlong, (Except.ok.inj h).symm⟩

theorem find?_self_of_write (h : s.write p bytes = .ok s') : s'.find? p = some (.file bytes) := by
  obtain ⟨t, -, hdir, -, rfl⟩ := write_cases h
  rw [find?_put (parts_ne_nil_of_find? hdir), if_pos rfl]

/-- **A file that was written is read back.** -/
theorem read_of_write (h : s.write p bytes = .ok s') : s'.read p = .ok bytes := by
  rw [read, find?_self_of_write h]

/-- **Writing a file leaves what is found elsewhere.** -/
theorem find?_of_write (h : s.write p bytes = .ok s') (hq : q ≠ p) (hn : s.find? q = some n) :
    s'.find? q = some n := by
  obtain ⟨t, ht, hdir, -, rfl⟩ := write_cases h
  obtain ⟨rfl, -⟩ := makeDirectory_cases ht
  rw [find?_put (parts_ne_nil_of_find? hdir), if_neg hq, find?_foldl_ensure, hn]
  simp

/-! ### Names that are too long -/

theorem lt_length_of_overlong? {k : Nat} (h : overlong? p = some k) : k < p.parts.length :=
  (List.findIdx?_eq_some_iff_findIdx_eq.1 h).1

theorem meetsOverlong_of_write (h : s.write p bytes = .ok s') : s'.meetsOverlong p = false := by
  obtain ⟨t, -, hdir, hlong, rfl⟩ := write_cases h
  rw [meetsOverlong] at hlong ⊢
  cases hk : overlong? p with
  | none => rfl
  | some k =>
    have hne : ({ p with parts := p.parts.take k } : Path) ≠ p := by
      intro heq
      have hlen := congrArg (fun r : Path => r.parts.length) heq
      have hlt := lt_length_of_overlong? hk
      simp only [List.length_take] at hlen
      omega
    rw [hk] at hlong
    rw [Option.any_some] at hlong ⊢
    rw [find?_put (parts_ne_nil_of_find? hdir), if_neg hne]
    exact hlong

/-- Whether every name in the store is short enough. -/
def IsSound (s : Storage) : Prop :=
  ∀ e ∈ s, overlong? e.1 = none

instance (s : Storage) : Decidable s.IsSound :=
  inferInstanceAs (Decidable (∀ e ∈ s, overlong? e.1 = none))

theorem IsSound.overlong?_eq_none (hs : s.IsSound) (h : s.find? p = some n) :
    overlong? p = none := by
  by_cases hp : p.parts = []
  · rw [overlong?, hp]
    rfl
  · rw [find?, if_neg hp] at h
    obtain ⟨l₁, l₂, rfl, -⟩ := List.lookup_eq_some_iff.1 h
    exact hs (p, n) (List.mem_append_right _ List.mem_cons_self)

theorem IsSound.meetsOverlong (hs : s.IsSound) (h : s.find? p = some n) (t : Storage) :
    t.meetsOverlong p = false := by
  rw [Storage.meetsOverlong, hs.overlong?_eq_none h]
  rfl

theorem IsSound.put (hs : s.IsSound) (hp : overlong? p = none) (n : Node) :
    (s.put p n).IsSound := by
  intro e he
  rcases List.mem_cons.1 he with rfl | he
  · exact hp
  · exact hs e (List.mem_of_mem_filter he)

theorem IsSound.foldl_ensure (hs : s.IsSound) {qs : List Path}
    (hqs : ∀ q ∈ qs, overlong? q = none) : (qs.foldl ensure s).IsSound := by
  induction qs generalizing s with
  | nil => exact hs
  | cons q rest ih =>
    rw [List.foldl_cons]
    refine ih ?_ fun r hr => hqs r (List.mem_cons_of_mem _ hr)
    rw [ensure]
    split
    · exact hs.put (hqs q List.mem_cons_self) _
    · exact hs

theorem overlong?_of_mem_ancestors (h : overlong? p = none) (hq : q ∈ p.ancestors) :
    overlong? q = none := by
  obtain ⟨k, -, rfl⟩ := List.mem_map.1 hq
  rw [overlong?, List.findIdx?_eq_none_iff] at h ⊢
  exact fun name hname => h name (List.mem_of_mem_take hname)

/-- Below a directory a name that is too long is always met. -/
theorem overlong?_of_parent (hparent : overlong? p.parent = none)
    (hdir : s.find? p.parent = some .directory) (h : s.meetsOverlong p = false) :
    overlong? p = none := by
  cases hk : overlong? p with
  | none => rfl
  | some k =>
    obtain ⟨hlt, hlong, -⟩ := List.findIdx?_eq_some_iff_getElem.1 hk
    have hlast : k = p.parts.length - 1 := by
      by_contra hne
      have hmem : p.parts[k] ∈ p.parent.parts := by
        rw [Path.parent, List.dropLast_eq_take]
        exact List.mem_take_iff_getElem.2 ⟨k, by omega, rfl⟩
      rw [overlong?, List.findIdx?_eq_none_iff] at hparent
      rw [hparent _ hmem] at hlong
      cases hlong
    have hpath : ({ p with parts := p.parts.take k } : Path) = p.parent := by
      rw [hlast, ← List.dropLast_eq_take]
      rfl
    rw [Storage.meetsOverlong, hk, Option.any_some, hpath, hdir] at h
    exact absurd h (by decide)

/-- **Writing keeps a store sound.** -/
theorem IsSound.write (hs : s.IsSound) (h : s.write p bytes = .ok s') : s'.IsSound := by
  obtain ⟨t, ht, -, hlong, rfl⟩ := write_cases h
  obtain ⟨rfl, hfile, hparent⟩ := makeDirectory_cases ht
  have hdir : ((p.parent.ancestors ++ [p.parent]).foldl ensure s).find? p.parent
      = some .directory := by
    rw [find?_foldl_ensure, if_pos (by simp)]
    rw [isFile] at hfile
    cases hf : s.find? p.parent with
    | none => rfl
    | some n =>
      cases n with
      | directory => rfl
      | file b => rw [hf] at hfile; cases hfile
  refine (hs.foldl_ensure ?_).put (overlong?_of_parent hparent hdir hlong) _
  intro q hq
  rcases List.mem_append.1 hq with hq | hq
  · exact overlong?_of_mem_ancestors hparent hq
  · obtain rfl := List.mem_singleton.1 hq
    exact hparent

end MxLang.Storage
