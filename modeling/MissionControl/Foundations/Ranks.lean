import Mathlib.Data.List.Sort

/-!
The entry of a list at a rank: what comes there when the list is sorted, and the first or the last
where there is no such rank.
-/

set_option autoImplicit false
set_option relaxedAutoImplicit false

namespace MissionControl.Foundations.Ranks

variable {α : Type} [LinearOrder α]

/-- The entry at a rank, counted from 1. -/
def nearest (rank : Int) (l : List α) : Option α :=
  let sorted := l.insertionSort (· ≤ ·)
  let index := min ((sorted.length : Int) - 1) (max 0 (rank - 1))
  sorted[index.toNat]?

/-- In a sorted list, what comes up to an index is no greater than what is there. -/
theorem lt_countP_of_sorted {l : List α} (hsorted : l.Pairwise (· ≤ ·)) {i : Nat}
    (hi : i < l.length) : i < l.countP fun a => a ≤ l[i] := by
  have hall : ∀ a ∈ l.take (i + 1), decide (a ≤ l[i]) = true := by
    intro a ha
    obtain ⟨j, hj, rfl⟩ := List.mem_iff_getElem.mp ha
    rw [List.length_take] at hj
    rw [List.getElem_take, decide_eq_true_eq]
    rcases Nat.lt_or_ge j i with hlt | hge
    · exact List.pairwise_iff_getElem.mp hsorted j i (by omega) hi hlt
    · have hji : j = i := by omega
      subst hji
      exact le_rfl
  have htake : (l.take (i + 1)).countP (fun a => a ≤ l[i]) = i + 1 := by
    rw [List.countP_eq_length.mpr hall, List.length_take]
    omega
  have hle : (l.take (i + 1)).countP (fun a => a ≤ l[i]) ≤ l.countP fun a => a ≤ l[i] :=
    (List.take_sublist (i + 1) l).countP_le
  omega

theorem sorted_insertionSort (l : List α) : (l.insertionSort (· ≤ ·)).Pairwise (· ≤ ·) :=
  List.pairwise_insertionSort (· ≤ ·) l

/-- Where a list has entries, one of them has the rank: at least as many come up to it. -/
theorem nearest_spec {l : List α} (hl : l ≠ []) {rank : Int} (hrank : rank ≤ l.length) :
    ∃ a ∈ l, nearest rank l = some a ∧ rank ≤ l.countP fun b => b ≤ a := by
  have hperm : (l.insertionSort (· ≤ ·)).Perm l := List.perm_insertionSort (· ≤ ·) l
  have hlength := hperm.length_eq
  have hpos : 0 < l.length := List.length_pos_iff.mpr hl
  set sorted := l.insertionSort (· ≤ ·) with hsorted
  set index := (min ((sorted.length : Int) - 1) (max 0 (rank - 1))).toNat with hindex
  have hlt : index < sorted.length := by omega
  refine ⟨sorted[index], hperm.mem_iff.mp (List.getElem_mem hlt), ?_, ?_⟩
  · exact List.getElem?_eq_getElem hlt
  · have hcount := lt_countP_of_sorted (sorted_insertionSort l) hlt
    rw [← hperm.countP_eq]
    have hge : rank ≤ (index : Int) + 1 := by omega
    have hcount' : (index : Int) + 1 ≤ sorted.countP fun b => b ≤ sorted[index] := by
      exact_mod_cast hcount
    exact hge.trans hcount'

/-- A higher rank has no smaller entry. -/
theorem nearest_mono {l : List α} {rank rank' : Int} (hrank : rank ≤ rank') {a b : α}
    (ha : nearest rank l = some a) (hb : nearest rank' l = some b) : a ≤ b := by
  obtain ⟨hi, rfl⟩ := List.getElem?_eq_some_iff.mp ha
  obtain ⟨hj, rfl⟩ := List.getElem?_eq_some_iff.mp hb
  have hle : (min (((l.insertionSort (· ≤ ·)).length : Int) - 1) (max 0 (rank - 1))).toNat
      ≤ (min (((l.insertionSort (· ≤ ·)).length : Int) - 1) (max 0 (rank' - 1))).toNat := by
    omega
  rcases Nat.lt_or_eq_of_le hle with hlt | heq
  · exact List.pairwise_iff_getElem.mp (sorted_insertionSort l) _ _ hi hj hlt
  · simp only [heq, le_refl]

theorem nearest_nil (rank : Int) : nearest rank ([] : List α) = none := rfl

end MissionControl.Foundations.Ranks
