import Mathlib.Algebra.BigOperators.Group.List.Basic
import Mathlib.Algebra.GroupWithZero.Nat
import Mathlib.Algebra.Ring.Int.Defs
import Mathlib.Tactic.Abel
import MissionControl.Foundations.Lists

/-!
Rows in groups by a key, as `GROUP BY` makes them, and records that are merged where their keys are
equal. Neither loses anything of a sum.
-/

set_option autoImplicit false
set_option relaxedAutoImplicit false

namespace MissionControl.Foundations.Groups

open Lists

variable {α β κ : Type} [DecidableEq κ]

/-- The rows of each key, in the order in which the keys come first. -/
def groups (key : α → κ) (rows : List α) : List (κ × List α) :=
  (keepFirst id [] (rows.map key)).map fun k => (k, rows.filter fun a => key a = k)

theorem nodup_keys (key : α → κ) (rows : List α) : ((groups key rows).map Prod.fst).Nodup := by
  have hkeys : (groups key rows).map Prod.fst = (keepFirst id [] (rows.map key)).map id := by
    simp [groups, Function.comp_def]
  rw [hkeys]
  exact nodup_map_keepFirst [] _

theorem mem_groups {key : α → κ} {rows : List α} {g : κ × List α} :
    g ∈ groups key rows ↔ (∃ a ∈ rows, key a = g.1) ∧ g.2 = rows.filter fun a => key a = g.1 := by
  have hkey : ∀ k, k ∈ keepFirst id [] (rows.map key) ↔ ∃ a ∈ rows, key a = k := by
    intro k
    have hmap : k ∈ (keepFirst id [] (rows.map key)).map id ↔ _ := mem_map_keepFirst
    rw [List.map_id] at hmap
    rw [hmap]
    simp
  simp only [groups, List.mem_map, hkey]
  constructor
  · rintro ⟨k, hk, rfl⟩
    exact ⟨hk, rfl⟩
  · rintro ⟨hk, hrows⟩
    exact ⟨g.1, hk, Prod.ext rfl hrows.symm⟩

/-- A row whose key is there already joins the group of the key. -/
theorem groups_append_of_mem {key : α → κ} {rows : List α} {a : α} (ha : key a ∈ rows.map key) :
    groups key (rows ++ [a]) =
      (groups key rows).map fun g => if g.1 = key a then (g.1, g.2 ++ [a]) else g := by
  rw [groups, List.map_append, List.map_singleton, keepFirst_append_singleton, if_pos (.inr ha),
    List.append_nil, groups, List.map_map]
  refine List.map_congr_left fun k _ => ?_
  by_cases hk : k = key a
  · simp [hk]
  · have hne : key a ≠ k := Ne.symm hk
    simp [hk, hne]

/-- A row with a new key begins a group. -/
theorem groups_append_of_not_mem {key : α → κ} {rows : List α} {a : α}
    (ha : key a ∉ rows.map key) : groups key (rows ++ [a]) = groups key rows ++ [(key a, [a])] := by
  have hkeys : ∀ k ∈ keepFirst id [] (rows.map key), key a ≠ k := by
    rintro k hk rfl
    exact ha (mem_of_mem_keepFirst hk).1
  have hnone : (rows.filter fun b => key b = key a) = [] := by
    rw [List.filter_eq_nil_iff]
    intro b hb hcontra
    exact ha (of_decide_eq_true hcontra ▸ List.mem_map_of_mem hb)
  rw [groups, List.map_append, List.map_singleton, keepFirst_append_singleton,
    if_neg (by simpa using ha), List.map_append, groups]
  congr 1
  · refine List.map_congr_left fun k hk => ?_
    simp [hkeys k hk]
  · simp [hnone]

section

variable {M : Type} [AddCommMonoid M] (f : α → M)

/-- What a predicate splits is summed in two parts. -/
theorem sum_filter_add (p : α → Bool) (rows : List α) :
    ((rows.filter p).map f).sum + ((rows.filter fun a => !p a).map f).sum = (rows.map f).sum := by
  induction rows with
  | nil => simp
  | cons a rows ih =>
    rw [List.map_cons, List.sum_cons, ← ih]
    by_cases hp : p a = true
    · simp [hp, add_assoc]
    · simp [hp, add_left_comm]

/-- The sums of the groups of keys that all rows have. -/
theorem sum_filter_keys (key : α → κ) {keys : List κ} (hnodup : keys.Nodup) (rows : List α)
    (hkeys : ∀ a ∈ rows, key a ∈ keys) :
    (keys.map fun k => ((rows.filter fun a => key a = k).map f).sum).sum = (rows.map f).sum := by
  induction keys generalizing rows with
  | nil =>
    cases rows with
    | nil => rfl
    | cons a rows => exact absurd (hkeys a List.mem_cons_self) List.not_mem_nil
  | cons k keys ih =>
    obtain ⟨hk, hnodup⟩ := List.nodup_cons.mp hnodup
    have hrest : ∀ a ∈ rows.filter fun a => !decide (key a = k), key a ∈ keys := by
      intro a ha
      obtain ⟨hmem, hne⟩ := List.mem_filter.mp ha
      exact (List.mem_cons.mp (hkeys a hmem)).resolve_left (by simpa using hne)
    rw [List.map_cons, List.sum_cons, ← sum_filter_add f (fun a => decide (key a = k)) rows,
      ← ih hnodup _ hrest]
    congr 2
    refine List.map_congr_left fun k' hk' => ?_
    rw [List.filter_filter]
    congr 2
    refine List.filter_congr fun a _ => ?_
    by_cases hkey : key a = k'
    · have hne : k' ≠ k := by
        rintro rfl
        exact hk hk'
      simp [hkey, hne]
    · simp [hkey]

/-- The groups of the rows have the sum of the rows. -/
theorem sum_groups (key : α → κ) (rows : List α) :
    ((groups key rows).map fun g => (g.2.map f).sum).sum = (rows.map f).sum := by
  have hkeys : ∀ a ∈ rows, key a ∈ keepFirst id [] (rows.map key) := by
    intro a ha
    have hmap : key a ∈ (keepFirst id [] (rows.map key)).map id :=
      mem_map_keepFirst.mpr ⟨by simpa using ⟨a, ha, rfl⟩, List.not_mem_nil⟩
    rwa [List.map_id] at hmap
  have hnodup : (keepFirst id [] (rows.map key)).Nodup := by
    have hmap : ((keepFirst id [] (rows.map key)).map id).Nodup := nodup_map_keepFirst [] _
    rwa [List.map_id] at hmap
  rw [groups, List.map_map]
  exact sum_filter_keys f key hnodup rows hkeys

/-- Only what satisfies a predicate counts. -/
theorem sum_map_ite (p : α → Prop) [DecidablePred p] (rows : List α) :
    (rows.map fun a => if p a then f a else 0).sum = ((rows.filter fun a => p a).map f).sum := by
  induction rows with
  | nil => rfl
  | cons a rows ih =>
    rw [List.map_cons, List.sum_cons, ih]
    by_cases hp : p a
    · simp [hp]
    · simp [hp]

/-- The groups of the keys that satisfy a predicate have the sum of their rows. -/
theorem sum_groups_of (key : α → κ) (p : κ → Prop) [DecidablePred p] (rows : List α) :
    ((groups key rows).map fun g => if p g.1 then (g.2.map f).sum else 0).sum
      = ((rows.filter fun a => p (key a)).map f).sum := by
  rw [← sum_map_ite f, ← sum_groups (fun a => if p (key a) then f a else 0) key rows]
  refine congrArg List.sum (List.map_congr_left fun g hg => ?_)
  obtain ⟨-, hrows⟩ := mem_groups.mp hg
  have hkey : ∀ a ∈ g.2, key a = g.1 := by
    intro a ha
    rw [hrows] at ha
    simpa using (List.mem_filter.mp ha).2
  by_cases hk : p g.1
  · rw [if_pos hk]
    refine congrArg List.sum (List.map_congr_left fun a ha => ?_)
    rw [if_pos ((hkey a ha).symm ▸ hk)]
  · rw [if_neg hk]
    symm
    refine List.sum_eq_zero fun u hu => ?_
    obtain ⟨a, ha, rfl⟩ := List.mem_map.mp hu
    exact if_neg fun hcontra => hk (hkey a ha ▸ hcontra)

/-- Of records with different keys, one alone counts for its key. -/
theorem sum_of_key {key : α → κ} {rows : List α} (hnodup : (rows.map key).Nodup) {a : α}
    (ha : a ∈ rows) : (rows.map fun b => if key b = key a then f b else 0).sum = f a := by
  induction rows with
  | nil => exact absurd ha List.not_mem_nil
  | cons b rows ih =>
    rw [List.map_cons] at hnodup
    obtain ⟨hb, hnodup⟩ := List.nodup_cons.mp hnodup
    rw [List.map_cons, List.sum_cons]
    rcases List.mem_cons.mp ha with rfl | ha
    · have hzero : (rows.map fun b => if key b = key a then f b else 0).sum = 0 := by
        refine List.sum_eq_zero fun u hu => ?_
        obtain ⟨c, hmem, rfl⟩ := List.mem_map.mp hu
        refine if_neg fun hcontra => hb ?_
        rw [← hcontra]
        exact List.mem_map_of_mem hmem
      rw [if_pos rfl, hzero, add_zero]
    · have hne : key b ≠ key a := by
        intro hcontra
        rw [hcontra] at hb
        exact hb (List.mem_map_of_mem ha)
      rw [if_neg hne, zero_add, ih hnodup ha]

end

omit [DecidableEq κ] in
/-- A sum over different keys in which one summand changes. -/
theorem sum_of_change {M : Type} [AddCommGroup M] {keys : List κ} (hnodup : keys.Nodup) {k : κ}
    (hk : k ∈ keys) {f f' : κ → M} (hother : ∀ k', k' ≠ k → f' k' = f k') :
    (keys.map f').sum = (keys.map f).sum + (f' k - f k) := by
  obtain ⟨front, back, rfl⟩ := List.append_of_mem hk
  have hnot : k ∉ front ++ back := (List.nodup_middle.mp hnodup).notMem
  have hsame : ∀ l : List κ, k ∉ l → l.map f' = l.map f := by
    intro l hl
    refine List.map_congr_left fun k' hk' => hother k' ?_
    rintro rfl
    exact hl hk'
  simp only [List.mem_append, not_or] at hnot
  simp only [List.map_append, List.map_cons, List.sum_append, List.sum_cons, hsame front hnot.1,
    hsame back hnot.2]
  abel

/-! ### Merging -/

/-- Add a record to the one with its key, or at the end if there is none. -/
def addTo (key : α → κ) (combine : α → α → α) (l : List α) (a : α) : List α :=
  if l.any fun b => key b = key a then l.map fun b => if key b = key a then combine b a else b
  else l ++ [a]

section

variable {key : α → κ} {combine : α → α → α}

theorem map_addTo (hkey : ∀ b a, key (combine b a) = key b) (l : List α) (a : α) :
    (addTo key combine l a).map key
      = if key a ∈ l.map key then l.map key else l.map key ++ [key a] := by
  have hany : (l.any fun b => key b = key a) = decide (key a ∈ l.map key) := by
    rw [Bool.eq_iff_iff]
    simp
  rw [addTo, hany]
  by_cases hmem : key a ∈ l.map key
  · rw [if_pos (decide_eq_true hmem), if_pos hmem, List.map_map]
    refine List.map_congr_left fun b _ => ?_
    rw [Function.comp_apply]
    split
    · exact hkey b a
    · rfl
  · rw [if_neg (by simpa using hmem), if_neg hmem, List.map_append]
    rfl

/-- Merged records have different keys. -/
theorem nodup_addTo (hkey : ∀ b a, key (combine b a) = key b) {l : List α}
    (h : (l.map key).Nodup) (a : α) : ((addTo key combine l a).map key).Nodup := by
  rw [map_addTo hkey]
  split
  · exact h
  · rename_i hnew
    rw [List.nodup_append]
    refine ⟨h, List.nodup_singleton _, fun k hk k' hk' => ?_⟩
    rw [List.mem_singleton] at hk'
    rintro rfl
    exact hnew (hk' ▸ hk)

/-- Nothing is lost or counted twice where a record is merged. -/
theorem sum_addTo {M : Type} [AddCommMonoid M] {f : α → M}
    (hf : ∀ b a, key b = key a → f (combine b a) = f b + f a) {l : List α}
    (h : (l.map key).Nodup) (a : α) :
    ((addTo key combine l a).map f).sum = (l.map f).sum + f a := by
  rw [addTo]
  split
  · rename_i hany
    obtain ⟨b, hb, hkey⟩ := List.any_eq_true.mp hany
    replace hkey : key b = key a := of_decide_eq_true hkey
    obtain ⟨front, back, rfl⟩ := List.append_of_mem hb
    rw [List.map_append, List.map_cons] at h
    have hother : ∀ c ∈ front ++ back, (if key c = key a then combine c a else c) = c := by
      intro c hc
      refine if_neg fun hcontra => ?_
      have hmem : key b ∈ front.map key ++ back.map key := by
        rw [← List.map_append, hkey, ← hcontra]
        exact List.mem_map_of_mem hc
      exact (List.nodup_middle.mp h).notMem hmem
    have hfront : (front.map fun c => if key c = key a then combine c a else c) = front :=
      (List.map_congr_left fun c hc => hother c (List.mem_append_left _ hc)).trans
        (List.map_id front)
    have hback : (back.map fun c => if key c = key a then combine c a else c) = back :=
      (List.map_congr_left fun c hc => hother c (List.mem_append_right _ hc)).trans
        (List.map_id back)
    rw [List.map_append, List.map_cons, hfront, hback, if_pos hkey]
    simp only [List.map_append, List.map_cons, List.sum_append, List.sum_cons, hf b a hkey]
    rw [add_right_comm (f b), ← add_assoc, add_assoc]
  · rw [List.map_append, List.sum_append]
    simp

end

end MissionControl.Foundations.Groups
