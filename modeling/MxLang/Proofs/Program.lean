import Mathlib.Data.List.Nodup
import MxLang.Program

/-!
# Sorted programs

Sorting keeps the lines (`sort_perm`), puts them in ascending priority (`pairwise_sort`) and leaves
lines of one priority in the order they had (`filter_sort`).  Lines whose priorities are strictly
ascending are therefore what every rearrangement of them is sorted to (`sort_eq_of_perm`), and they
hold no clash.
-/

namespace MxLang.Program

theorem order_trans (a b c : Line) (hab : decide (a.priority ≤ b.priority) = true)
    (hbc : decide (b.priority ≤ c.priority) = true) : decide (a.priority ≤ c.priority) = true := by
  rw [decide_eq_true_eq] at hab hbc ⊢
  exact Int.le_trans hab hbc

theorem order_total (a b : Line) :
    (decide (a.priority ≤ b.priority) || decide (b.priority ≤ a.priority)) = true := by
  rw [Bool.or_eq_true, decide_eq_true_eq, decide_eq_true_eq]
  exact Int.le_total _ _

theorem sort_perm (lines : List Line) : (sort lines).Perm lines :=
  List.mergeSort_perm lines _

theorem pairwise_sort (lines : List Line) :
    (sort lines).Pairwise fun a b => a.priority ≤ b.priority :=
  (List.pairwise_mergeSort order_trans order_total lines).imp of_decide_eq_true

theorem sort_eq_nil_iff {lines : List Line} : sort lines = [] ↔ lines = [] := by
  constructor
  · intro h
    exact List.nil_perm.1 (h ▸ sort_perm lines)
  · rintro rfl
    exact List.mergeSort_nil

/-- Lines numbered from zero are strictly ascending. -/
theorem pairwise_numbered {α : Type} (code : α → Text) (l : List α) :
    (l.mapIdx fun i a => (⟨i, code a⟩ : Line)).Pairwise fun a b => a.priority < b.priority := by
  rw [List.pairwise_iff_getElem]
  intro i j hi hj hij
  simp only [List.getElem_mapIdx]
  omega

/-- **Sorting a rearrangement of strictly ascending lines restores them.** -/
theorem sort_eq_of_perm {lines sorted : List Line} (hp : lines.Perm sorted)
    (hs : sorted.Pairwise fun a b => a.priority < b.priority) : sort lines = sorted := by
  have hle : sorted.Pairwise fun a b => a.priority ≤ b.priority := hs.imp Int.le_of_lt
  refine List.Perm.eq_of_pairwise ?_ (pairwise_sort lines) hle ((sort_perm lines).trans hp)
  intro a b ha hb hab hba
  have hmem : a ∈ sorted := ((sort_perm lines).trans hp).subset ha
  have hd : (sorted.map (·.priority)).Nodup := List.pairwise_map.2 (hs.imp Int.ne_of_lt)
  exact List.inj_on_of_nodup_map hd hmem hb (Int.le_antisymm hab hba)

theorem clash?_eq_none : ∀ {lines : List Line},
    lines.Pairwise (fun a b => a.priority < b.priority) → clash? lines = none := by
  intro lines
  induction lines with
  | nil => intro _; rfl
  | cons a r ih =>
    intro h
    obtain ⟨ha, hr⟩ := List.pairwise_cons.1 h
    cases r with
    | nil => rfl
    | cons b t =>
      rw [clash?, if_neg (Int.ne_of_lt (ha b List.mem_cons_self))]
      exact ih hr

/-- **Sorting is stable**: the lines of one priority keep their order. -/
theorem filter_sort (lines : List Line) (n : Int) :
    (sort lines).filter (fun l => decide (l.priority = n))
      = lines.filter fun l => decide (l.priority = n) := by
  have hsame : (lines.filter fun l => decide (l.priority = n)).Pairwise
      fun a b => decide (a.priority ≤ b.priority) = true := by
    refine List.pairwise_of_forall_mem_list fun a ha b hb => ?_
    rw [List.mem_filter, decide_eq_true_eq] at ha hb
    rw [decide_eq_true_eq]
    omega
  have hsub : (lines.filter fun l => decide (l.priority = n)).Sublist (sort lines) :=
    List.sublist_mergeSort order_trans order_total hsame List.filter_sublist
  have hfil := hsub.filter fun l => decide (l.priority = n)
  rw [List.filter_filter] at hfil
  simp only [Bool.and_self] at hfil
  exact (hfil.eq_of_length ((sort_perm lines).filter _).length_eq.symm).symm

end MxLang.Program
