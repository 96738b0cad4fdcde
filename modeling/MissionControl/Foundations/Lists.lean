import Mathlib.Data.List.Induction
import Mathlib.Data.List.Nodup

/-!
Lists addressed by position: erasing or replacing one entry, seen as a change in the middle
of two unchanged parts, and what replacing an entry leaves alone. Lists as tables under keys
that a counter issues, and as logs, which only grow at their end.
-/

set_option autoImplicit false
set_option relaxedAutoImplicit false

namespace MissionControl.Foundations.Lists

universe u v

variable {α : Type u} {β : Type v}

/-- The entry at an index splits the list, and both edits at the index act on the split. -/
theorem split_at_index {l : List α} {i : Nat} {a : α} (h : l[i]? = some a) :
    ∃ pre post, l = pre ++ a :: post ∧ l.eraseIdx i = pre ++ post ∧
      ∀ b, l.set i b = pre ++ b :: post := by
  obtain ⟨hi, ha⟩ := List.getElem?_eq_some_iff.mp h
  refine ⟨l.take i, l.drop (i + 1), ?_, List.eraseIdx_eq_take_drop_succ l i, fun b => ?_⟩
  · have hdrop : l.drop i = a :: l.drop (i + 1) := by
      rw [List.drop_eq_getElem_cons hi, ha]
    rw [← hdrop, List.take_append_drop]
  · rw [List.set_eq_take_append_cons_drop, if_pos hi]

/-- Replacing an entry by one with the same image does not change the mapped list. -/
theorem map_set_of_eq {f : α → β} {l : List α} {i : Nat} {a b : α} (h : l[i]? = some a)
    (hf : f b = f a) : (l.set i b).map f = l.map f := by
  obtain ⟨pre, post, rfl, -, hset⟩ := split_at_index h
  rw [hset b]
  simp only [List.map_append, List.map_cons, hf]

/-- Writing one entry is not seen through a function that the write keeps. -/
theorem map_modify_of_eq {f : α → β} {g : α → α} (h : ∀ a, f (g a) = f a) (l : List α) (i : Nat) :
    (l.modify i g).map f = l.map f := by
  apply List.ext_getElem?
  intro j
  rw [List.getElem?_map, List.getElem?_map, List.getElem?_modify]
  cases l[j]? with
  | none => rfl
  | some a =>
    show some (f (if i = j then g a else a)) = some (f a)
    split
    · rw [h a]
    · rfl

/-- A list of at most one entry whose middle part is not empty has nothing around it. -/
theorem eq_nil_of_length_append_cons {pre post : List α} {a : α}
    (h : (pre ++ a :: post).length ≤ 1) : pre = [] ∧ post = [] := by
  simp only [List.length_append, List.length_cons] at h
  have hpre : pre.length = 0 := by omega
  have hpost : post.length = 0 := by omega
  exact ⟨List.length_eq_zero_iff.mp hpre, List.length_eq_zero_iff.mp hpost⟩

/-- A list without repetitions has each value at most once among the images. -/
theorem countP_le_one_of_nodup_map [DecidableEq β] {f : α → β} {l : List α}
    (h : (l.map f).Nodup) (b : β) : l.countP (fun a => f a = b) ≤ 1 := by
  have hcount : (l.map f).count b = l.countP fun a => f a = b := by
    rw [List.count, List.countP_map]
    congr 1
  rw [← hcount]
  exact List.nodup_iff_count_le_one.mp h b

/-- Where a key strictly increases along a list, an entry with the greatest key is the last. -/
theorem getLast?_of_greatest {key : α → Nat} {l : List α} {a : α}
    (hincreasing : l.Pairwise fun b c => key b < key c) (ha : a ∈ l)
    (hgreatest : ∀ b ∈ l, key b ≤ key a) : l.getLast? = some a := by
  have hne : l ≠ [] := List.ne_nil_of_mem ha
  have hsplit := List.dropLast_append_getLast hne
  have hlast : l.getLast hne = a := by
    by_contra hother
    rw [← hsplit] at ha hincreasing
    have hbefore : a ∈ l.dropLast := by
      rcases List.mem_append.mp ha with hbefore | hend
      · exact hbefore
      · exact absurd (List.mem_singleton.mp hend).symm hother
    have hlt : key a < key (l.getLast hne) :=
      (List.pairwise_append.mp hincreasing).2.2 a hbefore _ (List.mem_singleton_self _)
    have hle := hgreatest _ (List.getLast_mem hne)
    omega
  rw [List.getLast?_eq_some_getLast hne, hlast]

/-- Updating the entries with a property that the update keeps, read at the first of them. -/
theorem find?_update {P : α → Prop} [DecidablePred P] {f : α → α} (hf : ∀ a, P a → P (f a))
    (l : List α) : (l.map fun a => if P a then f a else a).find? (fun a => P a) =
      (l.find? fun a => P a).map f := by
  induction l with
  | nil => rfl
  | cons a l ih =>
    by_cases ha : P a
    · have hfa := hf a ha
      simp only [List.map_cons, ha, if_true, List.find?_cons, hfa, decide_true, Option.map_some]
    · simp only [List.map_cons, ha, if_false, List.find?_cons, decide_false, ih]

/-! ### Filters -/

/-- A filter that keeps what a search finds does not disturb the search. -/
theorem find?_filter_of_found {p q : α → Bool} {l : List α}
    (h : ∀ a, l.find? p = some a → q a = true) : (l.filter q).find? p = l.find? p := by
  induction l with
  | nil => rfl
  | cons a l ih =>
    cases hp : p a with
    | true =>
      have hq : q a = true := h a (by rw [List.find?_cons_of_pos hp])
      rw [List.filter_cons_of_pos hq, List.find?_cons_of_pos hp, List.find?_cons_of_pos hp]
    | false =>
      have hp' : ¬ p a = true := by simp [hp]
      rw [List.find?_cons_of_neg hp'] at h ⊢
      cases hq : q a with
      | true => rw [List.filter_cons_of_pos hq, List.find?_cons_of_neg hp', ih h]
      | false => rw [List.filter_cons_of_neg (by simp [hq]), ih h]

theorem find?_filter_of_imp {p q : α → Bool} {l : List α}
    (h : ∀ a ∈ l, p a = true → q a = true) : (l.filter q).find? p = l.find? p :=
  find?_filter_of_found fun a ha => h a (List.mem_of_find?_eq_some ha) (List.find?_some ha)

theorem any_filter_of_imp {p q : α → Bool} {l : List α}
    (h : ∀ a ∈ l, p a = true → q a = true) : (l.filter q).any p = l.any p := by
  rw [← List.isSome_find?, ← List.isSome_find?, find?_filter_of_imp h]

theorem filter_filter_of_imp {p q : α → Bool} {l : List α}
    (h : ∀ a ∈ l, p a = true → q a = true) : (l.filter q).filter p = l.filter p := by
  rw [List.filter_filter]
  apply List.filter_congr
  intro a ha
  cases hp : p a with
  | false => simp
  | true => simp [h a ha hp]

/-- In a list without repetitions a filter keeps a single entry if it is the only one. -/
theorem filter_eq_singleton_iff {p : α → Bool} {l : List α} {a : α} (hl : l.Nodup) :
    l.filter p = [a] ↔ a ∈ l ∧ p a = true ∧ ∀ b ∈ l, p b = true → b = a := by
  constructor
  · intro h
    have hmem : a ∈ l.filter p := by
      rw [h]
      exact List.mem_singleton_self a
    refine ⟨(List.mem_filter.mp hmem).1, (List.mem_filter.mp hmem).2, fun b hb hpb => ?_⟩
    have hb' : b ∈ l.filter p := List.mem_filter.mpr ⟨hb, hpb⟩
    rw [h] at hb'
    exact List.mem_singleton.mp hb'
  · rintro ⟨ha, hpa, honly⟩
    have hnodup : (l.filter p).Nodup := hl.filter p
    have hmem : a ∈ l.filter p := List.mem_filter.mpr ⟨ha, hpa⟩
    apply List.perm_singleton.mp
    apply (List.perm_ext_iff_of_nodup hnodup (List.nodup_singleton a)).mpr
    intro b
    rw [List.mem_filter, List.mem_singleton]
    constructor
    · rintro ⟨hb, hpb⟩
      exact honly b hb hpb
    · rintro rfl
      exact ⟨ha, hpa⟩

/-- A rewriting that does not touch what a filter reads. -/
theorem filter_map_of_keeps {q : α → Bool} {f : α → α} (h : ∀ a, q (f a) = q a) (l : List α) :
    (l.map f).filter q = (l.filter q).map f := by
  rw [List.filter_map]
  congr 2
  funext a
  exact h a

/-- A rewriting that leaves what a filter keeps as it is. -/
theorem filter_map_of_id {q : α → Bool} {f : α → α} (h : ∀ a, q (f a) = q a)
    (hid : ∀ a, q a = true → f a = a) (l : List α) : (l.map f).filter q = l.filter q := by
  rw [filter_map_of_keeps h]
  conv_rhs => rw [← List.map_id' (l.filter q)]
  exact List.map_congr_left fun a ha => hid a (List.mem_filter.mp ha).2

/-- A rewriting that puts some entries out of a filter and leaves the others as they are. -/
theorem filter_map_of_drops {q keep : α → Bool} {f : α → α}
    (h : ∀ a, q (f a) = (q a && keep a)) (hid : ∀ a, q a = true → keep a = true → f a = a)
    (l : List α) : (l.map f).filter q = (l.filter q).filter keep := by
  rw [List.filter_map, List.filter_filter]
  have hfilter : l.filter (q ∘ f) = l.filter fun a => keep a && q a :=
    List.filter_congr fun a _ => (h a).trans (Bool.and_comm _ _)
  rw [hfilter]
  conv_rhs => rw [← List.map_id' (l.filter _)]
  apply List.map_congr_left
  intro a ha
  obtain ⟨hkeep, hq⟩ := (Bool.and_eq_true _ _).mp (List.mem_filter.mp ha).2
  exact hid a hq hkeep

/-- A filter that drops an entry that counts lowers the count. -/
theorem countP_filter_lt {p keep : α → Bool} {l : List α} {a : α} (ha : a ∈ l) (hp : p a = true)
    (hdrop : keep a = false) : (l.filter keep).countP p < l.countP p := by
  have hdropped : 0 < (l.filter fun b => !keep b).countP p :=
    List.countP_pos_iff.mpr ⟨a, List.mem_filter.mpr ⟨ha, by simp [hdrop]⟩, hp⟩
  have hsplit := List.countP_eq_countP_filter_add l p keep
  omega

/-- A list splits in one way at a separator that its second part lacks. -/
theorem append_cons_inj {sep : α} {xs xs' ys ys' : List α} (hys : sep ∉ ys) (hys' : sep ∉ ys')
    (h : xs ++ sep :: ys = xs' ++ sep :: ys') : xs = xs' ∧ ys = ys' := by
  rcases List.append_eq_append_iff.mp h with ⟨zs, hxs, hrest⟩ | ⟨zs, hxs, hrest⟩
  · cases zs with
    | nil => exact ⟨by rw [hxs, List.append_nil], (List.cons.inj hrest).2⟩
    | cons z zs =>
      rw [(List.cons.inj hrest).2] at hys
      exact absurd (List.mem_append_right _ List.mem_cons_self) hys
  · cases zs with
    | nil => exact ⟨by rw [hxs, List.append_nil], (List.cons.inj hrest).2.symm⟩
    | cons z zs =>
      rw [(List.cons.inj hrest).2] at hys'
      exact absurd (List.mem_append_right _ List.mem_cons_self) hys'

/-- A list that goes on after the part without `a` goes on with `a`. -/
theorem exists_after_takeWhile_ne [DecidableEq α] {a : α} {l : List α}
    (h : l.takeWhile (· ≠ a) ≠ l) :
    ∃ rest, l = l.takeWhile (· ≠ a) ++ a :: rest ∧ l.drop ((l.takeWhile (· ≠ a)).length + 1) = rest := by
  induction l with
  | nil => exact absurd rfl h
  | cons b l ih =>
    by_cases hb : b = a
    · subst hb
      exact ⟨l, by simp, by simp⟩
    · have hcons : (b :: l).takeWhile (· ≠ a) = b :: l.takeWhile (· ≠ a) :=
        List.takeWhile_cons_of_pos (by simpa using hb)
      rw [hcons] at h ⊢
      obtain ⟨rest, hrest, hdrop⟩ := ih fun hl => h (by rw [hl])
      exact ⟨rest, congrArg (b :: ·) hrest, hdrop⟩

/-- The parts of a list between its separators have none. -/
theorem not_mem_of_mem_splitOn [DecidableEq α] (a : α) (l : List α) :
    ∀ part ∈ l.splitOn a, a ∉ part := by
  induction l with
  | nil => simp
  | cons b l ih =>
    intro part hpart
    rw [List.splitOn_cons_eq_if_modifyHead] at hpart
    by_cases hb : b = a
    · rw [if_pos (by simpa using hb)] at hpart
      rcases List.mem_cons.mp hpart with rfl | hpart
      · simp
      · exact ih part hpart
    · rw [if_neg (by simpa using hb)] at hpart
      cases hsplit : l.splitOn a with
      | nil => exact absurd hsplit (List.splitOn_ne_nil _ _)
      | cons first rest =>
        rw [hsplit] at ih hpart
        rw [List.modifyHead_cons] at hpart
        rcases List.mem_cons.mp hpart with rfl | hpart
        · have hfirst := ih first List.mem_cons_self
          intro hmem
          rcases List.mem_cons.mp hmem with heq | hmem
          · exact hb heq.symm
          · exact hfirst hmem
        · exact ih part (List.mem_cons_of_mem _ hpart)

/-! ### Keys -/

/-- No two entries have one key, and the counter that issues the keys is above all of them. -/
structure Keyed (key : α → Nat) (l : List α) (next : Nat) : Prop where
  unique : (l.map key).Nodup
  fresh : ∀ a ∈ l, key a < next

namespace Keyed

variable {key : α → Nat} {l : List α} {next : Nat}

theorem eq_of_key (h : Keyed key l next) {a b : α} (ha : a ∈ l) (hb : b ∈ l)
    (hkey : key a = key b) : a = b :=
  List.inj_on_of_nodup_map h.unique ha hb hkey

theorem map (h : Keyed key l next) {g : α → α} (hg : ∀ a, key (g a) = key a) :
    Keyed key (l.map g) next := by
  have hkeys : (l.map g).map key = l.map key := by
    rw [List.map_map]
    exact List.map_congr_left fun a _ => hg a
  constructor
  · rw [hkeys]
    exact h.unique
  · intro a ha
    obtain ⟨old, hold, rfl⟩ := List.mem_map.mp ha
    rw [hg old]
    exact h.fresh old hold

/-- An entry that gets the next key. -/
theorem snoc (h : Keyed key l next) {a : α} (ha : key a = next) :
    Keyed key (l ++ [a]) (next + 1) := by
  constructor
  · rw [List.map_append, List.nodup_append]
    refine ⟨h.unique, List.nodup_singleton _, ?_⟩
    intro k hk k' hk'
    obtain ⟨b, hb, rfl⟩ := List.mem_map.mp hk
    have hlt := h.fresh b hb
    rw [List.mem_singleton.mp hk', ha]
    omega
  · intro b hb
    rcases List.mem_append.mp hb with hb | hb
    · have hlt := h.fresh b hb
      omega
    · rw [List.mem_singleton.mp hb, ha]
      omega

theorem filter (h : Keyed key l next) (keep : α → Bool) : Keyed key (l.filter keep) next := by
  constructor
  · exact h.unique.sublist (List.filter_sublist.map key)
  · intro a ha
    exact h.fresh a (List.mem_of_mem_filter ha)

end Keyed

/-! ### Logs -/

/-- Every entry of a log fits the entries before it. -/
def Throughout (P : List α → α → Prop) (l : List α) : Prop :=
  ∀ front a back, l = front ++ a :: back → P front a

variable {P Q : List α → α → Prop} {l : List α}

theorem throughout_nil : Throughout P [] := by
  intro front a back h
  exact absurd h.symm (List.append_ne_nil_of_right_ne_nil front (List.cons_ne_nil a back))

theorem throughout_cons {a : α} :
    Throughout P (a :: l) ↔ P [] a ∧ Throughout (fun front => P (a :: front)) l := by
  constructor
  · intro h
    exact ⟨h [] a l rfl, fun front b back hl => h (a :: front) b back (by rw [hl]; rfl)⟩
  · rintro ⟨ha, h⟩ front b back hsplit
    cases front with
    | nil =>
      obtain ⟨rfl, -⟩ := List.cons.inj hsplit
      exact ha
    | cons first front =>
      obtain ⟨rfl, hl⟩ := List.cons.inj hsplit
      exact h front b back hl

theorem throughout_snoc {a : α} : Throughout P (l ++ [a]) ↔ Throughout P l ∧ P l a := by
  constructor
  · intro h
    refine ⟨?_, h l a [] rfl⟩
    intro front b back hl
    exact h front b (back ++ [a]) (by rw [hl, List.append_assoc, List.cons_append])
  · rintro ⟨h, ha⟩ front b back hsplit
    rcases List.eq_nil_or_concat back with rfl | ⟨back, c, rfl⟩
    · obtain ⟨rfl, hab⟩ := List.append_inj' hsplit rfl
      obtain rfl := List.singleton_inj.mp hab
      exact ha
    · have hsplit : l ++ [a] = (front ++ b :: back) ++ [c] := by
        rw [hsplit, List.concat_eq_append, List.append_assoc, List.cons_append]
      obtain ⟨hl, -⟩ := List.append_inj' hsplit rfl
      exact h front b back hl

theorem Throughout.append {l' : List α} (h : Throughout P l)
    (hnew : ∀ front a back, l' = front ++ a :: back → P (l ++ front) a) :
    Throughout P (l ++ l') := by
  induction l' using List.reverseRecOn with
  | nil => rwa [List.append_nil]
  | append_singleton l' a ih =>
    rw [← List.append_assoc, throughout_snoc]
    refine ⟨ih ?_, hnew l' a [] rfl⟩
    intro front b back hl
    exact hnew front b (back ++ [a]) (by rw [hl, List.append_assoc, List.cons_append])

theorem Throughout.mono (hPQ : ∀ front a, P front a → Q front a) (h : Throughout P l) :
    Throughout Q l :=
  fun front a back hl => hPQ front a (h front a back hl)

/-! ### The first entry of each key -/

section KeepFirst

variable {κ : Type v} [DecidableEq κ] {key : α → κ} {seen : List κ}

/-- Keep an entry where neither an entry before nor what has been seen has its key. -/
def keepFirst (key : α → κ) : List κ → List α → List α
  | _, [] => []
  | seen, a :: l =>
    if key a ∈ seen then keepFirst key seen l else a :: keepFirst key (key a :: seen) l

section

-- The equations of `keepFirst` are made here, once for all the proofs that rewrite with them.
attribute [local simp] keepFirst

end

theorem mem_of_mem_keepFirst {a : α} (h : a ∈ keepFirst key seen l) : a ∈ l ∧ key a ∉ seen := by
  induction l generalizing seen with
  | nil => cases h
  | cons b l ih =>
    rw [keepFirst] at h
    split at h
    · exact ⟨List.mem_cons_of_mem b (ih h).1, (ih h).2⟩
    · rename_i hnew
      rcases List.mem_cons.mp h with rfl | h
      · exact ⟨List.mem_cons_self, hnew⟩
      · obtain ⟨hmem, hseen⟩ := ih h
        exact ⟨List.mem_cons_of_mem b hmem, fun hcontra => hseen (List.mem_cons_of_mem _ hcontra)⟩

/-- Every key that is new has an entry that is kept. -/
theorem mem_map_keepFirst {k : κ} :
    k ∈ (keepFirst key seen l).map key ↔ k ∈ l.map key ∧ k ∉ seen := by
  induction l generalizing seen with
  | nil => simp [keepFirst]
  | cons a l ih =>
    rw [keepFirst]
    split
    · rename_i hseen
      rw [ih, List.map_cons, List.mem_cons]
      constructor
      · rintro ⟨hk, hnew⟩
        exact ⟨.inr hk, hnew⟩
      · rintro ⟨rfl | hk, hnew⟩
        · exact absurd hseen hnew
        · exact ⟨hk, hnew⟩
    · rename_i hnew
      rw [List.map_cons, List.map_cons, List.mem_cons, List.mem_cons, ih, List.mem_cons]
      constructor
      · rintro (rfl | ⟨hk, hother⟩)
        · exact ⟨.inl rfl, hnew⟩
        · exact ⟨.inr hk, fun hcontra => hother (.inr hcontra)⟩
      · rintro ⟨rfl | hk, hother⟩
        · exact .inl rfl
        · by_cases hkey : k = key a
          · exact .inl hkey
          · exact .inr ⟨hk, fun hcontra => hcontra.elim hkey hother⟩

/-- No two entries that are kept have one key. -/
theorem nodup_map_keepFirst (seen : List κ) (l : List α) :
    ((keepFirst key seen l).map key).Nodup := by
  induction l generalizing seen with
  | nil => exact List.nodup_nil
  | cons a l ih =>
    rw [keepFirst]
    split
    · exact ih seen
    · rw [List.map_cons, List.nodup_cons]
      refine ⟨fun hcontra => ?_, ih (key a :: seen)⟩
      exact (mem_map_keepFirst.mp hcontra).2 List.mem_cons_self

/-- The keys of the entries that are kept are the first of each. -/
theorem map_keepFirst (key : α → κ) (seen : List κ) (l : List α) :
    (keepFirst key seen l).map key = keepFirst id seen (l.map key) := by
  induction l generalizing seen with
  | nil => rfl
  | cons a l ih =>
    rw [List.map_cons, keepFirst, keepFirst]
    simp only [id]
    split
    · exact ih seen
    · rw [List.map_cons, ih]

/-- An entry at the end is kept if its key has not been there. -/
theorem keepFirst_append_singleton (seen l : List κ) (k : κ) :
    keepFirst id seen (l ++ [k]) =
      keepFirst id seen l ++ if k ∈ seen ∨ k ∈ l then [] else [k] := by
  induction l generalizing seen with
  | nil => simp [keepFirst]
  | cons a l ih =>
    rw [List.cons_append, keepFirst, keepFirst]
    simp only [id]
    split
    · rename_i hseen
      rw [ih]
      congr 1
      refine if_congr ?_ rfl rfl
      by_cases hk : k = a
      · simp [hk, hseen]
      · simp [hk]
    · rename_i hnew
      rw [ih, List.cons_append]
      congr 2
      refine if_congr ?_ rfl rfl
      simp only [List.mem_cons]
      tauto

/-- Keeping the first of each key commutes with a map under which the key is read. -/
theorem keepFirst_map {γ : Type v} (f : γ → α) (key : α → κ) (seen : List κ) (l : List γ) :
    keepFirst key seen (l.map f) = (keepFirst (fun c => key (f c)) seen l).map f := by
  induction l generalizing seen with
  | nil => rfl
  | cons c l ih =>
    rw [List.map_cons, keepFirst, keepFirst]
    split
    · exact ih seen
    · rw [List.map_cons, ih]

theorem keepFirst_sublist (key : α → κ) (seen : List κ) (l : List α) :
    (keepFirst key seen l).Sublist l := by
  induction l generalizing seen with
  | nil => exact List.Sublist.slnil
  | cons a l ih =>
    rw [keepFirst]
    split
    · exact (ih seen).cons a
    · exact (ih _).cons_cons a

theorem keepFirst_of_nodup (h : (l.map key).Nodup) (hnew : ∀ a ∈ l, key a ∉ seen) : keepFirst key seen l = l := by
  induction l generalizing seen with
  | nil => rfl
  | cons a l ih =>
    rw [List.map_cons, List.nodup_cons] at h
    rw [keepFirst, if_neg (hnew a List.mem_cons_self), ih h.2]
    intro b hb
    rw [List.mem_cons, not_or]
    refine ⟨fun heq => h.1 ?_, hnew b (List.mem_cons_of_mem a hb)⟩
    rw [← heq]
    exact List.mem_map_of_mem hb

/-- What is kept is the same but for its order as any list of the same entries whose keys differ. -/
theorem keepFirst_perm {l' : List α} (hnodup : (l'.map key).Nodup) (hmem : ∀ a, a ∈ l' ↔ a ∈ l) :
    (keepFirst key [] l).Perm l' := by
  have hkept : (keepFirst key [] l).Nodup := (nodup_map_keepFirst [] l).of_map
  refine (List.perm_ext_iff_of_nodup hkept hnodup.of_map).mpr fun a => ?_
  constructor
  · intro ha
    exact (hmem a).mpr (mem_of_mem_keepFirst ha).1
  · intro ha
    have hkey : key a ∈ (keepFirst key [] l).map key :=
      mem_map_keepFirst.mpr ⟨List.mem_map_of_mem ((hmem a).mp ha), List.not_mem_nil⟩
    obtain ⟨b, hb, hsame⟩ := List.mem_map.mp hkey
    have hb' : b ∈ l' := (hmem b).mpr (mem_of_mem_keepFirst hb).1
    rwa [← List.inj_on_of_nodup_map hnodup hb' ha hsame]

end KeepFirst

/-! ### Texts and results that are put together -/

theorem infix_intercalate {sep x : List α} {xs : List (List α)} (h : x ∈ xs) :
    ∃ front back, sep.intercalate xs = front ++ x ++ back := by
  induction xs with
  | nil => cases h
  | cons y xs ih =>
    by_cases hxs : xs = []
    · subst hxs
      obtain rfl := List.mem_singleton.mp h
      exact ⟨[], [], by simp⟩
    · rw [List.intercalate_cons_of_ne_nil hxs]
      rcases List.mem_cons.mp h with rfl | h
      · exact ⟨[], sep ++ sep.intercalate xs, by simp⟩
      · obtain ⟨front, back, heq⟩ := ih h
        exact ⟨y ++ sep ++ front, back, by simp [heq]⟩

theorem mem_or_eq_of_mem_intercalate {sep a : α} {ls : List (List α)}
    (h : a ∈ [sep].intercalate ls) : a = sep ∨ ∃ l ∈ ls, a ∈ l := by
  induction ls with
  | nil => simp at h
  | cons l ls ih =>
    by_cases hrest : ls = []
    · subst hrest
      exact .inr ⟨l, List.mem_cons_self, by simpa using h⟩
    · rw [List.intercalate_cons_of_ne_nil hrest, List.append_assoc, List.mem_append] at h
      rcases h with h | h
      · exact .inr ⟨l, List.mem_cons_self, h⟩
      · rcases List.mem_append.mp h with h | h
        · exact .inl (List.mem_singleton.mp h)
        · rcases ih h with heq | ⟨other, hother, ha⟩
          · exact .inl heq
          · exact .inr ⟨other, List.mem_cons_of_mem _ hother, ha⟩

theorem map_intercalate (f : α → β) (sep : List α) (xs : List (List α)) :
    (sep.intercalate xs).map f = (sep.map f).intercalate (xs.map (List.map f)) := by
  induction xs with
  | nil => rfl
  | cons x xs ih =>
    by_cases hxs : xs = []
    · subst hxs
      simp
    · have hmap : xs.map (List.map f) ≠ [] := by simpa using hxs
      rw [List.intercalate_cons_of_ne_nil hxs, List.map_cons, List.intercalate_cons_of_ne_nil hmap]
      simp [ih]

theorem mapM_eq_some_iff {f : α → Option β} {l : List α} {l' : List β} :
    l.mapM f = some l' ↔ List.Forall₂ (fun a b => f a = some b) l l' := by
  induction l generalizing l' with
  | nil => simp [eq_comm]
  | cons a l ih =>
    simp only [List.mapM_cons, Option.bind_eq_bind, Option.bind_eq_some_iff, Option.pure_def,
      Option.some.injEq, ih]
    constructor
    · rintro ⟨b, hb, rest, hrest, rfl⟩
      exact .cons hb hrest
    · intro h
      cases h with
      | cons hb hrest => exact ⟨_, hb, _, hrest, rfl⟩

theorem exists_mapM {f : α → Option β} {l : List α} :
    (∃ l', l.mapM f = some l') ↔ ∀ a ∈ l, (f a).isSome = true := by
  induction l with
  | nil => simp
  | cons a l ih =>
    rw [List.forall_mem_cons, ← ih, Option.isSome_iff_exists]
    simp only [List.mapM_cons, Option.bind_eq_bind, Option.bind_eq_some_iff, Option.pure_def,
      Option.some.injEq]
    constructor
    · rintro ⟨-, b, hb, rest, hrest, -⟩
      exact ⟨⟨b, hb⟩, rest, hrest⟩
    · rintro ⟨⟨b, hb⟩, rest, hrest⟩
      exact ⟨_, b, hb, rest, hrest, rfl⟩

theorem mem_of_forall₂ {R : α → β → Prop} {l : List α} {l' : List β}
    (h : List.Forall₂ R l l') {b : β} (hb : b ∈ l') : ∃ a ∈ l, R a b := by
  induction h with
  | nil => cases hb
  | @cons a b' l l' hab _ ih =>
    rcases List.mem_cons.mp hb with rfl | hb
    · exact ⟨a, List.mem_cons_self, hab⟩
    · obtain ⟨c, hc, hcb⟩ := ih hb
      exact ⟨c, List.mem_cons_of_mem a hc, hcb⟩

theorem map_eq_of_forall₂ {γ : Type v} {R : α → β → Prop} {f : α → γ} {g : β → γ}
    (hR : ∀ a b, R a b → g b = f a) {l : List α} {l' : List β} (h : List.Forall₂ R l l') :
    l'.map g = l.map f := by
  induction h with
  | nil => rfl
  | cons hab _ ih => rw [List.map_cons, List.map_cons, hR _ _ hab, ih]

theorem countP_or_of_disjoint {p q : α → Bool} (h : ∀ a, p a = true → q a = false)
    (l : List α) : l.countP (fun a => p a || q a) = l.countP p + l.countP q := by
  induction l with
  | nil => rfl
  | cons a l ih =>
    rw [List.countP_cons, List.countP_cons, List.countP_cons, ih]
    cases hp : p a with
    | true => simp [h a hp, Nat.add_right_comm]
    | false => simp [Nat.add_assoc]

/-- The search from the end of a range finds the last number that fits. -/
theorem find?_reverse_range {p : Nat → Bool} {n N : Nat} (hn : n < N) (hp : p n = true)
    (hlater : ∀ m, n < m → m < N → p m = false) : (List.range N).reverse.find? p = some n := by
  induction N with
  | zero => omega
  | succ N ih =>
    rw [List.range_succ, List.reverse_append, List.reverse_singleton, List.singleton_append]
    by_cases heq : n = N
    · subst heq
      rw [List.find?_cons_of_pos hp]
    · rw [List.find?_cons_of_neg (by simp [hlater N (by omega) (by omega)])]
      exact ih (by omega) fun m hnm hm => hlater m hnm (by omega)

end MissionControl.Foundations.Lists
