import Mathlib.Data.List.Sort
import MissionControl.Foundations.Groups

/-!
Plain objects as dictionaries: a loop looks a key up, puts something fresh in its place if it finds
nothing, and changes what is there. A key that the object inherits is found, and what is found is
not what the loop would have put there.
-/

set_option autoImplicit false
set_option relaxedAutoImplicit false

namespace MissionControl.Foundations.Dictionaries

open Groups
open Lists

variable {α β κ : Type} [DecidableEq κ]

/-- `if (!t[k]) t[k] = fresh`, and then a method that changes `t[k]`; what is inherited does not
have the method, and the call throws. -/
def upsert (inherited : κ → Bool) (fresh : β) (change : β → β) (t : List (κ × β)) (k : κ) :
    Option (List (κ × β)) :=
  match t.lookup k with
  | some _ => some (t.map fun e => if e.1 = k then (k, change e.2) else e)
  | none => if inherited k then none else some (t ++ [(k, change fresh)])

/-- The loop over the rows, each of which changes what is under its key. -/
def collect (inherited : κ → Bool) (key : α → κ) (fresh : β) (change : α → β → β)
    (rows : List α) : Option (List (κ × β)) :=
  rows.foldlM (fun t a => upsert inherited fresh (change a) t (key a)) []

/-- `Object.entries(t)`: the keys that are indices of an array come first, in their order. -/
def entries (index : κ → Option Nat) (t : List (κ × β)) : List (κ × β) :=
  (t.filter fun e => (index e.1).isSome).insertionSort
      (fun a b => (index a.1).getD 0 ≤ (index b.1).getD 0) ++
    t.filter fun e => !(index e.1).isSome

omit [DecidableEq κ] in
theorem entries_perm (index : κ → Option Nat) (t : List (κ × β)) : (entries index t).Perm t := by
  refine ((List.perm_insertionSort _ _).append_right _).trans ?_
  exact List.filter_append_perm (fun e => (index e.1).isSome) t

omit [DecidableEq κ] in
theorem mem_entries {index : κ → Option Nat} {t : List (κ × β)} {e : κ × β} :
    e ∈ entries index t ↔ e ∈ t :=
  (entries_perm index t).mem_iff

/-! ### Groups -/

/-- What the loop leaves where nothing is inherited: each key with its rows, one after another. -/
def folded (key : α → κ) (fresh : β) (change : α → β → β) (rows : List α) : List (κ × β) :=
  (groups key rows).map fun g => (g.1, g.2.foldl (fun x a => change a x) fresh)

section

variable (key : α → κ) (fresh : β) (change : α → β → β) (rows : List α)

theorem map_fst_folded :
    (folded key fresh change rows).map Prod.fst = keepFirst id [] (rows.map key) := by
  simp [folded, groups, Function.comp_def]

theorem nodup_folded : ((folded key fresh change rows).map Prod.fst).Nodup := by
  have hkeys := nodup_keys key rows
  simpa [folded, Function.comp_def] using hkeys

variable {key fresh change rows}

theorem mem_folded {e : κ × β} :
    e ∈ folded key fresh change rows ↔
      (∃ a ∈ rows, key a = e.1) ∧
        e.2 = (rows.filter fun a => key a = e.1).foldl (fun x a => change a x) fresh := by
  simp only [folded, List.mem_map, mem_groups]
  constructor
  · rintro ⟨g, ⟨hkey, hrows⟩, rfl⟩
    exact ⟨hkey, by rw [hrows]⟩
  · rintro ⟨hkey, hvalue⟩
    exact ⟨(e.1, _), ⟨hkey, rfl⟩, Prod.ext rfl hvalue.symm⟩

theorem mem_keys_folded (k : κ) :
    k ∈ (folded key fresh change rows).map Prod.fst ↔ k ∈ rows.map key := by
  have hkeys : k ∈ (keepFirst id [] (rows.map key)).map id ↔ _ := mem_map_keepFirst
  rw [List.map_id] at hkeys
  rw [map_fst_folded, hkeys]
  simp

theorem lookup_folded (k : κ) :
    (folded key fresh change rows).lookup k = none ↔ k ∉ rows.map key := by
  rw [List.lookup_eq_none_iff, ← mem_keys_folded ]
  simp only [bne_iff_ne, List.mem_map, not_exists, not_and]
  constructor
  · intro hne e he hkey
    exact hne e he hkey.symm
  · intro hne e he hkey
    exact hne e he hkey.symm

/-- What the loop leaves under the key of a row. -/
theorem lookup_folded_of_mem {k : κ} (hk : k ∈ rows.map key) :
    (folded key fresh change rows).lookup k =
      some ((rows.filter fun a => key a = k).foldl (fun x a => change a x) fresh) := by
  cases hlookup : (folded key fresh change rows).lookup k with
  | none => exact absurd hk ((lookup_folded k).mp hlookup)
  | some x =>
    obtain ⟨front, back, hsplit, -⟩ := List.lookup_eq_some_iff.mp hlookup
    have hmem : (k, x) ∈ folded key fresh change rows := by
      rw [hsplit]
      simp
    exact congrArg some (mem_folded.mp hmem).2

theorem folded_append_of_mem {a : α} (ha : key a ∈ rows.map key) :
    folded key fresh change (rows ++ [a]) =
      (folded key fresh change rows).map fun e =>
        if e.1 = key a then (key a, change a e.2) else e := by
  rw [folded, groups_append_of_mem ha, folded, List.map_map, List.map_map]
  refine List.map_congr_left fun g _ => ?_
  by_cases hg : g.1 = key a
  · simp [hg]
  · simp [hg]

theorem folded_append_of_not_mem {a : α} (ha : key a ∉ rows.map key) :
    folded key fresh change (rows ++ [a]) =
      folded key fresh change rows ++ [(key a, change a fresh)] := by
  rw [folded, groups_append_of_not_mem ha, folded, List.map_append]
  rfl

theorem upsert_folded (inherited : κ → Bool) (a : α)
    (hnone : ∀ b ∈ rows, inherited (key b) = false) :
    upsert inherited fresh (change a) (folded key fresh change rows) (key a) =
      if inherited (key a) then none else some (folded key fresh change (rows ++ [a])) := by
  unfold upsert
  cases hlookup : (folded key fresh change rows).lookup (key a) with
  | none =>
    rw [folded_append_of_not_mem ((lookup_folded (key a)).mp hlookup)]
  | some x =>
    have ha : key a ∈ rows.map key := by
      by_contra hcontra
      rw [(lookup_folded (key a)).mpr hcontra] at hlookup
      cases hlookup
    obtain ⟨b, hb, hkey⟩ := List.mem_map.mp ha
    have hown : inherited (key a) = false := hkey ▸ hnone b hb
    rw [folded_append_of_mem ha, hown]
    rfl

end

/-- The loop ends with every row under its key, or a key of a row is inherited and it throws. -/
theorem collect_eq (inherited : κ → Bool) (key : α → κ) (fresh : β) (change : α → β → β)
    (rows : List α) :
    collect inherited key fresh change rows =
      if ∀ a ∈ rows, inherited (key a) = false then some (folded key fresh change rows)
      else none := by
  induction rows using List.reverseRecOn with
  | nil => rfl
  | append_singleton rows a ih =>
    rw [collect, List.foldlM_append]
    rw [collect] at ih
    rw [ih]
    by_cases hrows : ∀ b ∈ rows, inherited (key b) = false
    · rw [if_pos hrows]
      simp only [List.foldlM_cons, List.foldlM_nil, bind_pure, Option.bind_eq_bind,
        Option.bind_some]
      rw [upsert_folded inherited a hrows]
      by_cases ha : inherited (key a) = true
      · rw [if_pos ha, if_neg]
        intro hcontra
        rw [hcontra a (by simp)] at ha
        cases ha
      · rw [if_neg ha, if_pos]
        intro b hb
        rcases List.mem_append.mp hb with hb | hb
        · exact hrows b hb
        · rw [List.mem_singleton.mp hb]
          exact Bool.eq_false_iff.mpr ha
    · rw [if_neg hrows, if_neg]
      · rfl
      · intro hcontra
        exact hrows fun b hb => hcontra b (List.mem_append_left _ hb)

theorem collect_eq_some_iff {inherited : κ → Bool} {key : α → κ} {fresh : β}
    {change : α → β → β} {rows : List α} {t : List (κ × β)} :
    collect inherited key fresh change rows = some t ↔
      (∀ a ∈ rows, inherited (key a) = false) ∧ t = folded key fresh change rows := by
  rw [collect_eq]
  split
  · rename_i hnone
    rw [Option.some.injEq]
    exact ⟨fun h => ⟨hnone, h.symm⟩, fun h => h.2.symm⟩
  · rename_i hsome
    constructor
    · intro h
      cases h
    · rintro ⟨hnone, -⟩
      exact absurd hnone hsome

/-- `push(f(a))`. -/
def push {γ : Type} (f : α → γ) (a : α) (items : List γ) : List γ := items ++ [f a]

/-- `add(f(a))`. -/
def add {γ : Type} [DecidableEq γ] (f : α → γ) (a : α) (items : List γ) : List γ :=
  if f a ∈ items then items else items ++ [f a]

omit [DecidableEq κ] in
theorem foldl_push {γ : Type} (f : α → γ) (rows : List α) (items : List γ) :
    rows.foldl (fun xs a => push f a xs) items = items ++ rows.map f := by
  induction rows generalizing items with
  | nil => simp
  | cons a rows ih =>
    rw [List.foldl_cons, ih]
    simp [push]

omit [DecidableEq κ] in
theorem mem_foldl_add {γ : Type} [DecidableEq γ] (f : α → γ) (rows : List α) (items : List γ)
    (c : γ) : c ∈ rows.foldl (fun xs a => add f a xs) items ↔ c ∈ items ∨ ∃ a ∈ rows, f a = c := by
  induction rows generalizing items with
  | nil => simp
  | cons a rows ih =>
    have hadd : c ∈ add f a items ↔ c ∈ items ∨ f a = c := by
      unfold add
      split
      · rename_i hmem
        constructor
        · exact .inl
        · rintro (hc | rfl)
          · exact hc
          · exact hmem
      · simp [eq_comm]
    rw [List.foldl_cons, ih, hadd]
    simp [or_assoc]

/-- The arrays that a loop with `push` fills. -/
theorem folded_push {γ : Type} (key : α → κ) (f : α → γ) (rows : List α) :
    folded key [] (push f) rows = (groups key rows).map fun g => (g.1, g.2.map f) := by
  simp [folded, foldl_push]

end MissionControl.Foundations.Dictionaries
