import Mathlib.Logic.Function.Iterate
import MissionControl.Foundations.Query

/-!
Rows that are served in batches: the first few of them in an order, of which some leave and the
others are stuck and stay. Stuck rows in front can fill every batch.
-/

set_option autoImplicit false
set_option relaxedAutoImplicit false

namespace MissionControl.Foundations.Batches

open Query

universe v

variable {α : Type} {le : α → α → Prop} {stuck : α → Bool}

/-- Among rows of which fewer than `n` are stuck and not behind a row that is not, the first `n`
are not all stuck. -/
theorem exists_not_stuck [DecidableRel le] (order : OrderBy le) {rows : List α} {n : Nat} {a : α}
    (ha : a ∈ rows) (hfree : stuck a = false)
    (hfew : rows.countP (fun b => stuck b && decide (le b a)) < n) :
    ∃ b ∈ (order.arrange rows).take n, stuck b = false := by
  by_contra hnone
  push Not at hnone
  obtain ⟨front, back, hsplit⟩ := List.append_of_mem ((order.perm rows).mem_iff.mpr ha)
  have hsorted := order.sorted rows
  rw [hsplit] at hsorted hnone
  have hlong : n ≤ front.length := by
    by_contra hshort
    have hmem : a ∈ (front ++ a :: back).take n := by
      rw [List.take_append, List.mem_append]
      right
      obtain ⟨m, hm⟩ := Nat.exists_eq_succ_of_ne_zero (Nat.sub_ne_zero_of_lt (not_le.mp hshort))
      rw [hm, List.take_succ_cons]
      exact List.mem_cons_self
    exact hnone a hmem hfree
  have hstuck : ∀ b ∈ front.take n, (stuck b && decide (le b a)) = true := by
    intro b hb
    have hfront : b ∈ front := List.mem_of_mem_take hb
    have hle : le b a := (List.pairwise_append.mp hsorted).2.2 b hfront a List.mem_cons_self
    have htake : b ∈ (front ++ a :: back).take n := by
      rw [List.take_append, List.mem_append]
      exact .inl hb
    simpa [hle] using hnone b htake
  have hcount : n ≤ rows.countP fun b => stuck b && decide (le b a) := by
    calc
      n = (front.take n).length := by rw [List.length_take, Nat.min_eq_left hlong]
      _ = (front.take n).countP fun b => stuck b && decide (le b a) :=
        (List.countP_eq_length.mpr hstuck).symm
      _ ≤ front.countP fun b => stuck b && decide (le b a) :=
        (List.take_sublist n front).countP_le
      _ ≤ (front ++ a :: back).countP fun b => stuck b && decide (le b a) :=
        (List.sublist_append_left front _).countP_le
      _ = rows.countP fun b => stuck b && decide (le b a) := by
        rw [← hsplit, (order.perm rows).countP_eq]
  omega

/-- Stuck rows before others. -/
def StuckFirst (stuck : α → Bool) (a b : α) : Prop := stuck b = true → stuck a = true

instance decidableStuckFirst (stuck : α → Bool) : DecidableRel (StuckFirst stuck) :=
  fun a b => inferInstanceAs (Decidable (stuck b = true → stuck a = true))

theorem sorts_stuckFirst (stuck : α → Bool) : Sorts (StuckFirst stuck) := by
  constructor
  · intro a b
    cases ha : stuck a with
    | true => exact .inl fun _ => ha
    | false => exact .inr fun hcontra => by simp [ha] at hcontra
  · exact fun a b c hab hbc hc => hab (hbc hc)

/-- Where stuck rows come first, `n` of them that are not behind a row keep it out of a batch. -/
theorem not_mem_batch [DecidableRel le] (order : OrderBy (ThenBy le (StuckFirst stuck)))
    {rows : List α} {n : Nat} {a : α} (hfree : stuck a = false)
    (hmany : n ≤ rows.countP fun b => stuck b && decide (le b a)) :
    a ∉ (order.arrange rows).take n := by
  intro ha
  obtain ⟨front, back, hsplit⟩ := List.append_of_mem ha
  have hlength : front.length < n := by
    have hle : (front ++ a :: back).length ≤ n := hsplit ▸ List.length_take_le n _
    simp only [List.length_append, List.length_cons] at hle
    omega
  have hsorted := order.sorted rows
  rw [← List.take_append_drop n (order.arrange rows), hsplit, List.append_assoc] at hsorted
  have hbehind : ∀ b ∈ a :: back ++ (order.arrange rows).drop n,
      ¬ (stuck b && decide (le b a)) = true := by
    intro b hb hstuck
    simp only [Bool.and_eq_true, decide_eq_true_eq] at hstuck
    rcases List.mem_cons.mp hb with rfl | hb
    · simp [hfree] at hstuck
    · have hafter := (List.pairwise_append.mp hsorted).2.1
      rw [List.cons_append] at hafter
      have hle := (List.pairwise_cons.mp hafter).1 b hb
      have hcontra := hle.2 hstuck.2 hstuck.1
      simp [hfree] at hcontra
  have hcount : rows.countP (fun b => stuck b && decide (le b a)) ≤ front.length := by
    rw [← (order.perm rows).countP_eq, ← List.take_append_drop n (order.arrange rows), hsplit,
      List.append_assoc, List.countP_append, List.countP_eq_zero.mpr hbehind]
    exact List.countP_le_length
  omega

/-- A run whose steps lower a measure until it is done gets done. -/
theorem exists_done {σ : Type v} {run : Nat → σ} {R : σ → σ → Prop} {Inv Done : σ → Prop}
    (measure : σ → Nat) (kept : ∀ s t, Inv s → R s t → Inv t)
    (lowers : ∀ s t, Inv s → ¬ Done s → R s t → measure t < measure s) (hstart : Inv (run 0))
    (hrun : ∀ i, R (run i) (run (i + 1))) : ∃ k, Done (run k) := by
  have hinv : ∀ i, Inv (run i) := by
    intro i
    induction i with
    | zero => exact hstart
    | succ i ih => exact kept _ _ ih (hrun i)
  by_contra hnever
  push Not at hnever
  have hlow : ∀ i, measure (run i) + i ≤ measure (run 0) := by
    intro i
    induction i with
    | zero => simp
    | succ i ih =>
      have hlt := lowers _ _ (hinv i) (hnever i) (hrun i)
      omega
  have hlast := hlow (measure (run 0) + 1)
  omega

/-- Steps that are always possible make up a run. -/
theorem exists_run {σ : Type v} {R : σ → σ → Prop} {Inv : σ → Prop}
    (total : ∀ s, Inv s → ∃ t, R s t ∧ Inv t) {s : σ} (hs : Inv s) :
    ∃ run : Nat → σ, run 0 = s ∧ ∀ i, R (run i) (run (i + 1)) := by
  choose f hf using total
  let next (x : {s // Inv s}) : {s // Inv s} := ⟨f x.1 x.2, (hf x.1 x.2).2⟩
  refine ⟨fun i => (next^[i] ⟨s, hs⟩).1, rfl, ?_⟩
  intro i
  simp only [Function.iterate_succ_apply']
  exact (hf _ _).1

end MissionControl.Foundations.Batches
