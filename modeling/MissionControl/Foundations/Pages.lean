import MissionControl.Foundations.Query

/-!
The first rows of a list that is sorted by a key, and then by another where that one does not
decide. What was sorted by one key is sometimes read as sorted by a coarser one.
-/

set_option autoImplicit false
set_option relaxedAutoImplicit false

namespace MissionControl.Foundations.Pages

open Query

variable {α : Type} {key rank tie : α → Nat} {n : Nat}

/-- The order by one key and then by another. -/
abbrev By (key tie : α → Nat) : α → α → Prop :=
  ThenBy (fun a b => key a ≤ key b) fun a b => tie a ≤ tie b

theorem by_iff {a b : α} :
    By key tie a b ↔ key a < key b ∨ (key a = key b ∧ tie a ≤ tie b) := by
  simp only [By, ThenBy]
  omega

theorem sorts_by (key tie : α → Nat) : Sorts (By key tie) :=
  (sorts_by_key key).thenBy (sorts_by_key tie)

/-- Two rows of a sorted list are the same or in the order. -/
theorem related_of_mem {R : α → α → Prop} {l : List α} (h : l.Pairwise R) {a b : α} (ha : a ∈ l)
    (hb : b ∈ l) (hne : a ≠ b) : R a b ∨ R b a := by
  induction l with
  | nil => cases ha
  | cons c l ih =>
    obtain ⟨hhead, htail⟩ := List.pairwise_cons.mp h
    rcases List.mem_cons.mp ha with rfl | hatail
    · exact .inl (hhead b ((List.mem_cons.mp hb).resolve_left (Ne.symm hne)))
    · rcases List.mem_cons.mp hb with rfl | hbtail
      · exact .inr (hhead a hatail)
      · exact ih htail hatail hbtail

/-- What is left out comes after what is not. -/
theorem rel_of_not_mem_take {R : α → α → Prop} {l : List α} (h : l.Pairwise R) {a b : α}
    (ha : a ∈ l.take n) (hb : b ∈ l) (hout : b ∉ l.take n) : R a b := by
  rw [← List.take_append_drop n l] at h hb
  have hdrop := (List.mem_append.mp hb).resolve_left hout
  exact (List.pairwise_append.mp h).2.2 a ha b hdrop

/-- Rows with the key of a row are among the first exactly if few rows have a smaller one. -/
theorem exists_mem_take_iff {l : List α} (h : l.Pairwise fun a b => key a ≤ key b) {t : α}
    (ht : t ∈ l) :
    (∃ t' ∈ l.take n, key t' = key t) ↔ l.countP (fun a => key a < key t) < n := by
  constructor
  · rintro ⟨t', ht', hkey⟩
    obtain ⟨front, back, hsplit⟩ := List.append_of_mem ht'
    have hl : l = front ++ t' :: back ++ l.drop n := by rw [← hsplit, List.take_append_drop]
    have hshort : front.length < n := by
      have hlength := List.length_take_le n l
      rw [hsplit, List.length_append, List.length_cons] at hlength
      omega
    have hrest : (t' :: back ++ l.drop n).countP (fun a => key a < key t) = 0 := by
      rw [hl, List.append_assoc] at h
      rw [List.countP_eq_zero]
      intro a ha
      have hle : key t' ≤ key a := by
        rcases List.mem_cons.mp ha with rfl | ha
        · exact Nat.le_refl _
        · exact (List.pairwise_cons.mp (List.pairwise_append.mp h).2.1).1 a ha
      simp only [decide_eq_true_eq, not_lt]
      omega
    calc
      l.countP (fun a => key a < key t)
        = front.countP (fun a => key a < key t) := by
          rw [hl, List.append_assoc, List.countP_append, hrest, Nat.add_zero]
      _ ≤ front.length := List.countP_le_length
      _ < n := hshort
  · intro hfew
    by_contra hnone
    push Not at hnone
    have hout : t ∉ l.take n := fun hmem => hnone t hmem rfl
    have hsmall : ∀ a ∈ l.take n, decide (key a < key t) = true := by
      intro a ha
      have hle : key a ≤ key t := rel_of_not_mem_take h ha ht hout
      have hne := hnone a ha
      simp only [decide_eq_true_eq]
      omega
    have hlong : n ≤ l.length := by
      by_contra hshort
      rw [List.take_of_length_le (by omega)] at hout
      exact hout ht
    have hcount : n ≤ l.countP fun a => key a < key t := by
      calc
        n = (l.take n).length := by rw [List.length_take, Nat.min_eq_left hlong]
        _ = (l.take n).countP fun a => key a < key t := (List.countP_eq_length.mpr hsmall).symm
        _ ≤ l.countP fun a => key a < key t := (List.take_sublist n l).countP_le
    omega

/-- Some row with the key of a row is among the first. -/
def Shown (key : α → Nat) (n : Nat) (l : List α) (t : α) : Prop :=
  l.countP (fun a => key a < key t) < n

instance (l : List α) (t : α) : Decidable (Shown key n l t) :=
  inferInstanceAs (Decidable (_ < _))

/-- The first rows are sorted by the other key, and none that is left out comes before one of them
in it. -/
def Ranked (rank tie : α → Nat) (rows returned : List α) : Prop :=
  (∀ o ∈ rows, o ∉ returned → ∀ r ∈ returned, rank r ≤ rank o) ∧ returned.Pairwise (By rank tie)

/-- The keys agree where it shows. -/
def Agree (key rank tie : α → Nat) (n : Nat) (rows : List α) : Prop :=
  ∀ r ∈ rows, ∀ o ∈ rows, key r < key o →
    (Shown key n rows r → rank r ≤ rank o) ∧
      (Shown key n rows o → rank o ≤ rank r → tie r ≤ tie o)

instance (rows : List α) : Decidable (Agree key rank tie n rows) := by
  unfold Agree
  infer_instance

section

variable {l : List α} (hsorted : l.Pairwise (By key tie))
  (hrank : ∀ a b : α, key a = key b → rank a = rank b)

include hsorted hrank

/-- A row that comes first in one order does so in the other. -/
theorem by_of_agree (hagree : Agree key rank tie n l) {r o : α} (hr : r ∈ l.take n) (ho : o ∈ l)
    (hle : By key tie r o) : rank r ≤ rank o ∧ (o ∈ l.take n → By rank tie r o) := by
  have hkeys : l.Pairwise fun a b => key a ≤ key b := hsorted.imp fun h => h.1
  have hshown : ∀ a ∈ l.take n, Shown key n l a := fun a ha =>
    (exists_mem_take_iff hkeys (List.mem_of_mem_take ha)).mp ⟨a, ha, rfl⟩
  rcases by_iff.mp hle with hlt | ⟨heq, htie⟩
  · obtain ⟨hranks, hties⟩ := hagree r (List.mem_of_mem_take hr) o ho hlt
    have hle := hranks (hshown r hr)
    refine ⟨hle, fun hmem => by_iff.mpr ?_⟩
    have htie := hties (hshown o hmem)
    omega
  · have hsame := hrank r o heq
    exact ⟨hsame.le, fun _ => by_iff.mpr (.inr ⟨hsame, htie⟩)⟩

theorem agree_of_ranked (h : Ranked rank tie l (l.take n)) : Agree key rank tie n l := by
  have hkeys : l.Pairwise fun a b => key a ≤ key b := hsorted.imp fun h => h.1
  have hboth : (l.take n).Pairwise fun a b => By key tie a b ∧ By rank tie a b :=
    (hsorted.sublist (List.take_sublist n l)).and h.2
  intro r hr o ho hlt
  constructor
  · intro hshown
    obtain ⟨r', hr', hkey⟩ := (exists_mem_take_iff hkeys hr).mpr hshown
    rw [← hrank r' r hkey]
    by_cases hmem : o ∈ l.take n
    · have hne : r' ≠ o := by
        rintro rfl
        omega
      rcases related_of_mem hboth hr' hmem hne with hrel | hrel
      · exact hrel.2.1
      · have hback : key o ≤ key r' := hrel.1.1
        omega
    · exact h.1 o ho hmem r' hr'
  · intro hshown hle
    -- A row with the key of `o` that is no later than `o`.
    obtain ⟨o', ho', hkey, htie⟩ : ∃ o' ∈ l.take n, key o' = key o ∧ tie o' ≤ tie o := by
      by_cases hmem : o ∈ l.take n
      · exact ⟨o, hmem, rfl, Nat.le_refl _⟩
      · obtain ⟨o', ho', hkey⟩ := (exists_mem_take_iff hkeys ho).mpr hshown
        have hrel := by_iff.mp (rel_of_not_mem_take hsorted ho' ho hmem)
        exact ⟨o', ho', hkey, by omega⟩
    have hmem : r ∈ l.take n := by
      by_contra hout
      have hrel : key o' ≤ key r := (rel_of_not_mem_take hsorted ho' hr hout).1
      omega
    have hne : r ≠ o' := by
      rintro rfl
      omega
    have hsame := hrank o' o hkey
    rcases related_of_mem hboth hmem ho' hne with hrel | hrel
    · have hby := by_iff.mp hrel.2
      omega
    · have hback : key o' ≤ key r := hrel.1.1
      omega

/-- The first rows of a list that is sorted by one key are those of the other, and sorted by it,
exactly if the keys agree where it shows. -/
theorem ranked_take_iff : Ranked rank tie l (l.take n) ↔ Agree key rank tie n l := by
  constructor
  · exact agree_of_ranked hsorted hrank
  · intro hagree
    constructor
    · intro o ho hout r hr
      exact (by_of_agree hsorted hrank hagree hr ho (rel_of_not_mem_take hsorted hr ho hout)).1
    · have htake := hsorted.sublist (List.take_sublist n l)
      refine htake.imp_of_mem fun ha hb hle => ?_
      exact (by_of_agree hsorted hrank hagree ha (List.mem_of_mem_take hb) hle).2 hb

end

/-- Neither depends on the order of the rows. -/
theorem agree_perm {l l' : List α} (h : l.Perm l') :
    Agree key rank tie n l ↔ Agree key rank tie n l' := by
  unfold Agree Shown
  simp only [h.mem_iff, h.countP_eq]

theorem ranked_perm {l l' returned : List α} (h : l.Perm l') :
    Ranked rank tie l returned ↔ Ranked rank tie l' returned := by
  unfold Ranked
  simp only [h.mem_iff]

end MissionControl.Foundations.Pages
