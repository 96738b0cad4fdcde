import Mathlib.Data.List.Count
import Mathlib.Data.List.Nodup
import Mathlib.Data.List.Perm.Basic
import MissionControl.Foundations.Lists

/-!
Forests that are grown from a flat list, of which every entry may name another one as its parent.
If the parents are in the list and come before in some order, then each entry is grown exactly once,
and below its parent.
-/

set_option autoImplicit false
set_option relaxedAutoImplicit false

namespace MissionControl.Foundations.Forests

open Lists

universe u v

variable {α : Type u}

inductive RoseTree (α : Type u) where
  | node (value : α) (children : List (RoseTree α))

namespace RoseTree

def value : RoseTree α → α
  | node a _ => a

mutual

/-- The values of a tree, each before those below it. -/
def flatten : RoseTree α → List α
  | node a ts => a :: flattenAll ts

def flattenAll : List (RoseTree α) → List α
  | [] => []
  | t :: ts => flatten t ++ flattenAll ts

/-- The pairs of a value and one right below it. -/
def edges : RoseTree α → List (α × α)
  | node a ts => ts.map (fun t => (a, t.value)) ++ edgesAll ts

def edgesAll : List (RoseTree α) → List (α × α)
  | [] => []
  | t :: ts => edges t ++ edgesAll ts

end

section Grown

variable (next : α → List α)

mutual

/-- The children of every value are those that come next. -/
def Grown : RoseTree α → Prop
  | node a ts => ts.map value = next a ∧ GrownAll ts

def GrownAll : List (RoseTree α) → Prop
  | [] => True
  | t :: ts => Grown t ∧ GrownAll ts

end

/-- The tree of a value, unless it is deeper than `fuel`. -/
def grow : Nat → α → Option (RoseTree α)
  | 0, _ => none
  | fuel + 1, a => ((next a).mapM (grow fuel)).map (node a)

variable {next}

theorem grownAll_iff {ts : List (RoseTree α)} : GrownAll next ts ↔ ∀ t ∈ ts, Grown next t := by
  induction ts with
  | nil => simp [GrownAll]
  | cons t ts ih => simp [GrownAll, ih]

theorem grown_of_grow {fuel : Nat} {a : α} {t : RoseTree α} (h : grow next fuel a = some t) :
    t.value = a ∧ Grown next t := by
  induction fuel generalizing a t with
  | zero => cases h
  | succ fuel ih =>
    obtain ⟨ts, hts, rfl⟩ := Option.map_eq_some_iff.mp h
    have hgrown := mapM_eq_some_iff.mp hts
    refine ⟨rfl, ?_, ?_⟩
    · have hvalues : ts.map value = (next a).map id :=
        map_eq_of_forall₂ (f := id) (g := value) (fun b t hb => (ih hb).1) hgrown
      rw [hvalues, List.map_id]
    · rw [grownAll_iff]
      intro t ht
      obtain ⟨b, -, hb⟩ := mem_of_forall₂ hgrown ht
      exact (ih hb).2

/-- Where every step leads to a smaller rank, a tree is not deeper than the rank of its root. -/
theorem exists_grow {P : α → Prop} {rank : α → Nat}
    (hnext : ∀ a b, P a → b ∈ next a → P b ∧ rank b < rank a) {fuel : Nat} {a : α} (ha : P a)
    (hfuel : rank a < fuel) : ∃ t, grow next fuel a = some t := by
  induction fuel generalizing a with
  | zero => omega
  | succ fuel ih =>
    obtain ⟨ts, hts⟩ : ∃ ts, (next a).mapM (grow next fuel) = some ts := by
      rw [exists_mapM]
      intro b hb
      obtain ⟨hP, hlower⟩ := hnext a b ha hb
      rw [Option.isSome_iff_exists]
      exact ih hP (by omega)
    exact ⟨node a ts, by rw [grow, hts, Option.map_some]⟩

mutual

theorem flatten_perm : ∀ t : RoseTree α, Grown next t →
    (flatten t).Perm (t.value :: (flatten t).flatMap next)
  | node a ts, h => by
    have hrest := flattenAll_perm ts h.2
    rw [h.1] at hrest
    rw [flatten, value, List.flatMap_cons]
    exact hrest.cons a

theorem flattenAll_perm : ∀ ts : List (RoseTree α), GrownAll next ts →
    (flattenAll ts).Perm (ts.map value ++ (flattenAll ts).flatMap next)
  | [], _ => List.Perm.refl _
  | t :: ts, h => by
    have hfirst := flatten_perm t h.1
    have hrest := flattenAll_perm ts h.2
    rw [flattenAll, List.map_cons, List.flatMap_append, List.cons_append]
    refine (hfirst.append hrest).trans ?_
    rw [List.cons_append]
    refine List.Perm.cons _ ?_
    rw [← List.append_assoc, ← List.append_assoc]
    exact List.perm_append_comm.append_right _

end

mutual

theorem mem_edges : ∀ (t : RoseTree α) (a b : α), Grown next t →
    ((a, b) ∈ edges t ↔ a ∈ flatten t ∧ b ∈ next a)
  | node c ts, a, b, h => by
    have hrest := mem_edgesAll ts a b h.2
    rw [edges, flatten, List.mem_append, hrest]
    simp only [List.mem_map, Prod.mk.injEq, List.mem_cons]
    constructor
    · rintro (⟨t, ht, rfl, rfl⟩ | ⟨ha, hb⟩)
      · refine ⟨.inl rfl, ?_⟩
        rw [← h.1]
        exact List.mem_map_of_mem ht
      · exact ⟨.inr ha, hb⟩
    · rintro ⟨rfl | ha, hb⟩
      · rw [← h.1] at hb
        obtain ⟨t, ht, rfl⟩ := List.mem_map.mp hb
        exact .inl ⟨t, ht, rfl, rfl⟩
      · exact .inr ⟨ha, hb⟩

theorem mem_edgesAll : ∀ (ts : List (RoseTree α)) (a b : α), GrownAll next ts →
    ((a, b) ∈ edgesAll ts ↔ a ∈ flattenAll ts ∧ b ∈ next a)
  | [], a, b, _ => by simp [edgesAll, flattenAll]
  | t :: ts, a, b, h => by
    rw [edgesAll, flattenAll, List.mem_append, List.mem_append, mem_edges t a b h.1,
      mem_edgesAll ts a b h.2, or_and_right]

end

end Grown

end RoseTree

/-! ### Parents -/

section Parents

variable {κ : Type v} [DecidableEq κ] (key : α → κ) (parent : α → Option κ) (nodes : List α)

/-- The entries that name no parent. -/
def roots : List α := nodes.filter fun b => parent b = none

/-- The entries that name one as their parent. -/
def childrenOf (a : α) : List α := nodes.filter fun b => parent b = some (key a)

variable {key parent nodes}

theorem count_flatMap_childrenOf [DecidableEq α] (hnodup : nodes.Nodup) {b : α} {k : κ}
    (hb : b ∈ nodes) (hk : parent b = some k) (l : List α) :
    (l.flatMap (childrenOf key parent nodes)).count b = l.countP fun a => key a = k := by
  induction l with
  | nil => rfl
  | cons a l ih =>
    rw [List.flatMap_cons, List.count_append, ih, List.countP_cons, Nat.add_comm]
    congr 1
    by_cases ha : key a = k
    · have hmem : b ∈ childrenOf key parent nodes a := by simp [childrenOf, hb, hk, ha]
      have hone : (childrenOf key parent nodes a).count b = 1 :=
        List.count_eq_one_of_mem (hnodup.filter _) hmem
      simp [hone, ha]
    · have hnot : b ∉ childrenOf key parent nodes a := by
        simp [childrenOf, hk, Ne.symm ha]
      rw [List.count_eq_zero_of_not_mem hnot]
      simp [ha]

/-- A forest that is grown from the roots has every entry exactly once, if the parents are
entries of a lower rank. -/
theorem flattenAll_perm_nodes [DecidableEq α] (hkeys : (nodes.map key).Nodup) (rank : α → Nat)
    (hparents : ∀ b ∈ nodes, ∀ k ∈ parent b, ∃ a ∈ nodes, key a = k ∧ rank a < rank b)
    {ts : List (RoseTree α)} (hroots : ts.map RoseTree.value = roots parent nodes)
    (hgrown : RoseTree.GrownAll (childrenOf key parent nodes) ts) :
    (RoseTree.flattenAll ts).Perm nodes := by
  have hnodup : nodes.Nodup := hkeys.of_map key
  have hperm := RoseTree.flattenAll_perm ts hgrown
  rw [hroots] at hperm
  have hsub : ∀ b ∈ RoseTree.flattenAll ts, b ∈ nodes := by
    intro b hb
    rcases List.mem_append.mp (hperm.mem_iff.mp hb) with hroot | hchild
    · exact List.mem_of_mem_filter hroot
    · obtain ⟨a, -, hchild⟩ := List.mem_flatMap.mp hchild
      exact List.mem_of_mem_filter hchild
  have hcount : ∀ b, (RoseTree.flattenAll ts).count b = (roots parent nodes).count b +
      ((RoseTree.flattenAll ts).flatMap (childrenOf key parent nodes)).count b := by
    intro b
    rw [← List.count_append]
    exact hperm.count_eq b
  -- Every entry is there as often as its parent is, and a root once.
  have honce : ∀ n b, b ∈ nodes → rank b = n → (RoseTree.flattenAll ts).count b = 1 := by
    intro n
    induction n using Nat.strongRecOn with
    | ind n ih =>
      intro b hb hrank
      rw [hcount b]
      cases hk : parent b with
      | none =>
        have hroot : b ∈ roots parent nodes := by simp [roots, hb, hk]
        have hchild : b ∉ (RoseTree.flattenAll ts).flatMap (childrenOf key parent nodes) := by
          simp [childrenOf, hk]
        have hone : (roots parent nodes).count b = 1 :=
          List.count_eq_one_of_mem (hnodup.filter _) hroot
        rw [hone, List.count_eq_zero_of_not_mem hchild]
      | some k =>
        obtain ⟨p, hp, rfl, hlower⟩ := hparents b hb k hk
        have hroot : b ∉ roots parent nodes := by simp [roots, hk]
        have hkey : ((RoseTree.flattenAll ts).countP fun a => key a = key p) =
            (RoseTree.flattenAll ts).count p := by
          rw [List.count]
          apply List.countP_congr
          intro a ha
          rw [decide_eq_true_eq, beq_iff_eq]
          exact ⟨fun hsame => List.inj_on_of_nodup_map hkeys (hsub a ha) hp hsame,
            fun hsame => hsame ▸ rfl⟩
        rw [List.count_eq_zero_of_not_mem hroot, count_flatMap_childrenOf hnodup hb hk, hkey,
          ih (rank p) (by omega) p hp rfl]
  rw [List.perm_iff_count]
  intro b
  by_cases hb : b ∈ nodes
  · rw [honce (rank b) b hb rfl, List.count_eq_one_of_mem hnodup hb]
  · rw [List.count_eq_zero_of_not_mem hb, List.count_eq_zero_of_not_mem fun hin => hb (hsub b hin)]

end Parents

end MissionControl.Foundations.Forests
