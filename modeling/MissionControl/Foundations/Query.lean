import Mathlib.Data.List.Infix

/-!
Queries that order rows and return the first of them or a page. The order need not decide
between two rows, and then the query may return either of them, or both in either order.
-/

set_option autoImplicit false
set_option relaxedAutoImplicit false

namespace MissionControl.Foundations.Query

variable {α : Type}

/-- A way to answer `ORDER BY … LIMIT 1`: some row that no other row comes strictly before. -/
structure FirstBy (le : α → α → Prop) where
  pick : List α → Option α
  mem : ∀ rows r, pick rows = some r → r ∈ rows
  least : ∀ rows r, pick rows = some r → ∀ r' ∈ rows, le r r'
  found : ∀ rows, rows ≠ [] → ∃ r, pick rows = some r

/-- An order that compares any two rows, possibly as equals. -/
structure Sorts (le : α → α → Prop) : Prop where
  total : ∀ a b, le a b ∨ le b a
  trans : ∀ a b c, le a b → le b c → le a c

/-- `ORDER BY` a first order, and a second one where the first does not decide. -/
def ThenBy (le le' : α → α → Prop) (a b : α) : Prop := le a b ∧ (le b a → le' a b)

instance decidableThenBy {le le' : α → α → Prop} [DecidableRel le] [DecidableRel le'] :
    DecidableRel (ThenBy le le') :=
  fun a b => inferInstanceAs (Decidable (le a b ∧ (le b a → le' a b)))

theorem Sorts.thenBy {le le' : α → α → Prop} (h : Sorts le) (h' : Sorts le') :
    Sorts (ThenBy le le') := by
  constructor
  · intro a b
    by_cases hab : le a b
    · by_cases hba : le b a
      · rcases h'.total a b with hsecond | hsecond
        · exact .inl ⟨hab, fun _ => hsecond⟩
        · exact .inr ⟨hba, fun _ => hsecond⟩
      · exact .inl ⟨hab, fun hcontra => absurd hcontra hba⟩
    · have hba := (h.total a b).resolve_left hab
      exact .inr ⟨hba, fun hcontra => absurd hcontra hab⟩
  · rintro a b c ⟨hab, hab'⟩ ⟨hbc, hbc'⟩
    refine ⟨h.trans a b c hab hbc, ?_⟩
    intro hca
    have hba : le b a := h.trans b c a hbc hca
    have hcb : le c b := h.trans c a b hca hab
    exact h'.trans a b c (hab' hba) (hbc' hcb)

theorem sorts_by_key (key : α → Nat) : Sorts fun a b => key a ≤ key b :=
  ⟨fun a b => Nat.le_total (key a) (key b), fun _ _ _ => Nat.le_trans⟩

theorem Sorts.reverse {le : α → α → Prop} (h : Sorts le) : Sorts fun a b => le b a :=
  ⟨fun a b => h.total b a, fun a b c hba hcb => h.trans c b a hcb hba⟩

theorem Sorts.refl {le : α → α → Prop} (h : Sorts le) (a : α) : le a a := (h.total a a).elim id id

/-- The answer that takes the first of the least rows. -/
def pickFirst (le : α → α → Prop) [DecidableRel le] : List α → Option α
  | [] => none
  | a :: rows =>
    match pickFirst le rows with
    | none => some a
    | some b => if le a b then some a else some b

variable {le : α → α → Prop} [DecidableRel le]

theorem pickFirst_eq_none {rows : List α} : pickFirst le rows = none ↔ rows = [] := by
  cases rows with
  | nil => simp only [pickFirst]
  | cons a rows =>
    constructor
    · intro h
      unfold pickFirst at h
      split at h
      · cases h
      · split at h <;> cases h
    · intro h
      cases h

theorem pickFirst_mem {rows : List α} {r : α} (h : pickFirst le rows = some r) : r ∈ rows := by
  induction rows with
  | nil => cases h
  | cons a rows ih =>
    unfold pickFirst at h
    split at h
    · obtain rfl := Option.some.inj h
      exact List.mem_cons_self
    · rename_i b hb
      split at h
      · obtain rfl := Option.some.inj h
        exact List.mem_cons_self
      · exact List.mem_cons_of_mem a (ih (hb.trans h))

theorem pickFirst_least (sorts : Sorts le) {rows : List α} {r : α}
    (h : pickFirst le rows = some r) : ∀ r' ∈ rows, le r r' := by
  induction rows generalizing r with
  | nil => cases h
  | cons a rows ih =>
    intro r' hr'
    unfold pickFirst at h
    split at h
    · rename_i hnone
      obtain rfl := Option.some.inj h
      rw [pickFirst_eq_none.mp hnone] at hr'
      rw [List.mem_singleton.mp hr']
      exact sorts.refl a
    · rename_i b hb
      split at h
      · rename_i hab
        obtain rfl := Option.some.inj h
        rcases List.mem_cons.mp hr' with rfl | hr'
        · exact sorts.refl r'
        · exact sorts.trans a b r' hab (ih hb r' hr')
      · rename_i hab
        obtain rfl := Option.some.inj h
        rcases List.mem_cons.mp hr' with rfl | hr'
        · exact (sorts.total r' b).resolve_left hab
        · exact ih hb r' hr'

def FirstBy.first (sorts : Sorts le) : FirstBy le where
  pick := pickFirst le
  mem _ _ := pickFirst_mem
  least _ _ := pickFirst_least sorts
  found _ hrows := Option.ne_none_iff_exists'.mp fun h => hrows (pickFirst_eq_none.mp h)

/-! ### Pages -/

/-- A way to answer `ORDER BY`: the rows in some order that the comparison allows. -/
structure OrderBy (le : α → α → Prop) where
  arrange : List α → List α
  perm : ∀ rows, (arrange rows).Perm rows
  sorted : ∀ rows, (arrange rows).Pairwise le

/-- The answer that leaves rows where they are if the comparison does not decide. -/
def OrderBy.stable (sorts : Sorts le) : OrderBy le where
  arrange rows := rows.mergeSort fun a b => decide (le a b)
  perm rows := List.mergeSort_perm rows _
  sorted rows := by
    have hsorted : (rows.mergeSort fun a b => decide (le a b)).Pairwise
        fun a b => decide (le a b) = true := by
      apply List.pairwise_mergeSort
      · intro a b c hab hbc
        exact decide_eq_true (sorts.trans a b c (of_decide_eq_true hab) (of_decide_eq_true hbc))
      · intro a b
        rw [Bool.or_eq_true, decide_eq_true_eq, decide_eq_true_eq]
        exact sorts.total a b
    exact hsorted.imp of_decide_eq_true

/-- An order that decides more answers a query that asks for less. -/
def OrderBy.weaken {le le' : α → α → Prop} (order : OrderBy le') (h : ∀ a b, le' a b → le a b) :
    OrderBy le where
  arrange := order.arrange
  perm := order.perm
  sorted rows := (order.sorted rows).imp fun hle => h _ _ hle

/-- `LIMIT ? OFFSET ?`. A negative limit is none, and a negative offset is no offset. -/
def page (limit offset : Int) (rows : List α) : List α :=
  if limit < 0 then rows.drop offset.toNat else (rows.drop offset.toNat).take limit.toNat

theorem page_sublist (limit offset : Int) (rows : List α) : (page limit offset rows).Sublist rows := by
  unfold page
  split
  · exact List.drop_sublist _ rows
  · exact (List.take_sublist _ _).trans (List.drop_sublist _ rows)

/-! ### Patterns -/

/-- `text LIKE pattern`, on texts as lists of characters: `%` stands for any text, `_` for any
character, and a letter from A to Z for itself in either case. -/
def like : List Char → List Char → Bool
  | [], text => text.isEmpty
  | p :: pattern, text =>
    if p = '%' then text.tails.any fun rest => like pattern rest
    else
      match text with
      | [] => false
      | c :: text => (p = '_' || p.toLower = c.toLower) && like pattern text

theorem like_self_append_any (text : List Char) : like (text ++ ['%']) text = true := by
  induction text with
  | nil => rfl
  | cons c text ih =>
    by_cases hc : c = '%'
    · simp only [List.cons_append, like, hc, if_true, List.any_eq_true, List.mem_tails]
      exact ⟨text, List.suffix_cons _ text, ih⟩
    · simp only [List.cons_append, like, hc, if_false, decide_true, Bool.or_true, Bool.true_and, ih]

/-- Every text contains itself, whatever wildcards are in it. -/
theorem like_any_self_any (text : List Char) : like ('%' :: (text ++ ['%'])) text = true := by
  simp only [like, if_true, List.any_eq_true, List.mem_tails]
  exact ⟨text, List.suffix_refl text, like_self_append_any text⟩

/-- A page of one row, which no offset skips, is that row unless the limit is 0. -/
theorem page_singleton {limit : Int} (h : limit ≠ 0) (a : α) : page limit 0 [a] = [a] := by
  rw [page]
  split
  · rfl
  · have hpos : 0 < limit.toNat := by omega
    obtain ⟨n, hn⟩ := Nat.exists_eq_succ_of_ne_zero (Nat.ne_of_gt hpos)
    simp [hn]

theorem OrderBy.arrange_singleton {le : α → α → Prop} (order : OrderBy le) (a : α) :
    order.arrange [a] = [a] :=
  List.perm_singleton.mp (order.perm [a])

theorem OrderBy.arrange_nil {le : α → α → Prop} (order : OrderBy le) : order.arrange [] = [] :=
  List.perm_nil.mp (order.perm [])

theorem page_zero (offset : Int) (rows : List α) : page 0 offset rows = [] := rfl


end MissionControl.Foundations.Query
