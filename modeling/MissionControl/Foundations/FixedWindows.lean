import Mathlib.Algebra.Order.Monoid.Defs
import Mathlib.Data.List.Chain
import Mathlib.Data.List.Count
import Mathlib.Data.List.Induction
import Mathlib.Data.List.Perm.Basic

/-!
Entries that come one after the other, grouped by windows of one length. An entry that no window is
open for begins one; it is closed, so an entry right at its end still belongs to it. No interval of
that length meets more than two windows.
-/

set_option autoImplicit false
set_option relaxedAutoImplicit false

namespace MissionControl.Foundations.FixedWindows

universe u v

variable {α : Type u} {T : Type v}

/-- The entry that begins a window, and those that fall into it later. -/
structure Window (α : Type u) where
  first : α
  rest : List α
  deriving DecidableEq

def Window.entries (w : Window α) : List α := w.first :: w.rest

section Definitions

variable [Add T] [LE T] [DecidableLE T] (time : α → T) (length : T)

/-- One more entry; the latest window comes first. -/
def enter (ws : List (Window α)) (a : α) : List (Window α) :=
  match ws with
  | [] => [⟨a, []⟩]
  | w :: ws =>
    if time a ≤ time w.first + length then ⟨w.first, w.rest ++ [a]⟩ :: ws else ⟨a, []⟩ :: w :: ws

def windows (l : List α) : List (Window α) := l.foldl (enter time length) []

variable {time length}

@[simp] theorem windows_nil : windows time length [] = [] := rfl

@[simp] theorem windows_snoc (l : List α) (a : α) :
    windows time length (l ++ [a]) = enter time length (windows time length l) a := by
  simp [windows]

theorem windows_eq_nil_iff {l : List α} : windows time length l = [] ↔ l = [] := by
  induction l using List.reverseRecOn with
  | nil => simp
  | append_singleton l a _ =>
    rw [windows_snoc]
    cases windows time length l with
    | nil => simp [enter]
    | cons w ws =>
      rw [enter]
      split <;> simp

theorem windows_perm (l : List α) :
    ((windows time length l).flatMap Window.entries).Perm l := by
  induction l using List.reverseRecOn with
  | nil => exact List.Perm.nil
  | append_singleton l a ih =>
    rw [windows_snoc]
    refine List.Perm.trans ?_ (ih.append_right [a])
    cases windows time length l with
    | nil => exact List.Perm.refl _
    | cons w ws =>
      rw [enter]
      split
      · simp only [List.flatMap_cons, Window.entries, List.cons_append, List.append_assoc]
        refine List.Perm.cons w.first (List.Perm.append_left w.rest ?_)
        exact (List.perm_append_singleton a _).symm
      · rw [List.flatMap_cons, Window.entries, List.singleton_append]
        exact (List.perm_append_singleton a _).symm

end Definitions

/-- If only the first entries have a property, then not more of them have it. -/
theorem countP_le_of_index {p : α → Bool} {l : List α} {m : Nat}
    (h : ∀ i a, l[i]? = some a → p a = true → i < m) : l.countP p ≤ m := by
  have hdrop : (l.drop m).countP p = 0 := by
    rw [List.countP_eq_zero]
    intro a ha hp
    obtain ⟨i, hi⟩ := List.mem_iff_getElem?.mp ha
    rw [List.getElem?_drop] at hi
    have hlt := h (m + i) a hi hp
    omega
  have htake : (l.take m).countP p ≤ (l.take m).length := List.countP_le_length
  rw [List.length_take] at htake
  calc l.countP p = (l.take m).countP p + (l.drop m).countP p := by
        rw [← List.countP_append, List.take_append_drop]
    _ ≤ m := by omega

/-! ### What an interval meets -/

section Intervals

variable [AddCommMonoid T] [LinearOrder T] {time : α → T} {length : T}

/-- A window has the entries that come up to its end. -/
def Within (time : α → T) (length : T) (w : Window α) : Prop :=
  ∀ a ∈ w.entries, time w.first ≤ time a ∧ time a ≤ time w.first + length

/-- Each window begins after the one before it has ended. -/
def Apart (time : α → T) (length : T) (w w' : Window α) : Prop :=
  time w'.first + length < time w.first

theorem apart_windows (l : List α) :
    (windows time length l).IsChain (Apart time length) := by
  induction l using List.reverseRecOn with
  | nil => exact List.IsChain.nil
  | append_singleton l a ih =>
    rw [windows_snoc]
    cases hws : windows time length l with
    | nil => exact List.IsChain.singleton _
    | cons w ws =>
      rw [hws] at ih
      rw [enter]
      split
      · cases ws with
        | nil => exact List.IsChain.singleton _
        | cons w' ws =>
          rw [List.isChain_cons_cons] at ih ⊢
          exact ih
      · rename_i hover
        rw [List.isChain_cons_cons]
        exact ⟨not_le.mp hover, ih⟩

/-- The entries with a property that come from `start` to the end of a window that begins then. -/
def between (time : α → T) (length start : T) (p : α → Bool) (a : α) : Bool :=
  p a && decide (start ≤ time a) && decide (time a ≤ start + length)

variable {start : T} {p : α → Bool} {m : Nat} {ws : List (Window α)}

theorem countP_between_le (hcount : ∀ w ∈ ws, w.entries.countP p ≤ m) {w : Window α}
    (hw : w ∈ ws) : w.entries.countP (between time length start p) ≤ m := by
  refine le_trans (List.countP_mono_left ?_) (hcount w hw)
  intro a _ ha
  rw [between, Bool.and_eq_true, Bool.and_eq_true] at ha
  exact ha.1.1

/-- Windows that have ended before the interval do not meet it. -/
theorem countP_before (hchain : ws.IsChain (Apart time length))
    (hwithin : ∀ w ∈ ws, Within time length w)
    (hbefore : ∀ w ∈ ws.head?, time w.first + length < start) :
    (ws.flatMap Window.entries).countP (between time length start p) = 0 := by
  induction ws with
  | nil => rfl
  | cons w ws ih =>
    have hended := hbefore w rfl
    have hw := hwithin w List.mem_cons_self
    rw [List.flatMap_cons, List.countP_append, ih hchain.tail
      fun w' hw' => hwithin w' (List.mem_cons_of_mem w hw')]
    · rw [Nat.add_zero, List.countP_eq_zero]
      intro a ha hbetween
      simp only [between, Bool.and_eq_true, decide_eq_true_eq] at hbetween
      exact absurd (lt_of_le_of_lt (hw a ha).2 hended) (not_lt.mpr hbetween.1.2)
    · intro w' hw'
      have hapart : Apart time length w w' := (List.isChain_cons.mp hchain).1 w' hw'
      have hopen := (hw w.first List.mem_cons_self).2
      exact lt_trans hapart (lt_of_le_of_lt hopen hended)

/-- Of the windows that begin before the interval only the last one meets it. -/
theorem countP_begun_before (hchain : ws.IsChain (Apart time length))
    (hwithin : ∀ w ∈ ws, Within time length w) (hcount : ∀ w ∈ ws, w.entries.countP p ≤ m)
    (hbefore : ∀ w ∈ ws.head?, time w.first < start) :
    (ws.flatMap Window.entries).countP (between time length start p) ≤ m := by
  cases ws with
  | nil => exact Nat.zero_le m
  | cons w ws =>
    have htail : ws.IsChain (Apart time length) := hchain.tail
    have hended : ∀ w' ∈ ws.head?, time w'.first + length < start := fun w' hw' =>
      lt_trans ((List.isChain_cons.mp hchain).1 w' hw') (hbefore w rfl)
    have hrest : (ws.flatMap Window.entries).countP (between time length start p) = 0 :=
      countP_before htail (fun w' hw' => hwithin w' (List.mem_cons_of_mem w hw')) hended
    rw [List.flatMap_cons, List.countP_append, hrest]
    exact countP_between_le hcount List.mem_cons_self

variable [IsOrderedCancelAddMonoid T]

theorem within_of_mem_windows (hlength : 0 ≤ length) {l : List α}
    (hsorted : l.Pairwise fun a b => time a ≤ time b) :
    ∀ w ∈ windows time length l, Within time length w := by
  have hsingle : ∀ a : α, Within time length ⟨a, []⟩ := by
    intro a b hb
    obtain rfl := List.mem_singleton.mp hb
    exact ⟨le_rfl, le_add_of_nonneg_right hlength⟩
  induction l using List.reverseRecOn with
  | nil => simp
  | append_singleton l a ih =>
    rw [List.pairwise_append] at hsorted
    obtain ⟨hsorted, -, hlast⟩ := hsorted
    have hrest := ih hsorted
    have hperm : ((windows time length l).flatMap Window.entries).Perm l := windows_perm l
    rw [windows_snoc]
    cases hws : windows time length l with
    | nil =>
      intro w hw
      obtain rfl := List.mem_singleton.mp hw
      exact hsingle a
    | cons w ws =>
      rw [hws] at hrest hperm
      rw [enter]
      split
      · rename_i hopen
        intro w' hw'
        rcases List.mem_cons.mp hw' with rfl | hw'
        · intro b hb
          have hfirst : w.first ∈ l :=
            hperm.mem_iff.mp (List.mem_flatMap.mpr ⟨w, List.mem_cons_self, List.mem_cons_self⟩)
          rcases List.mem_append.mp (show b ∈ w.entries ++ [a] from hb) with hb | hb
          · exact hrest w List.mem_cons_self b hb
          · obtain rfl := List.mem_singleton.mp hb
            exact ⟨hlast _ hfirst _ (List.mem_singleton_self _), hopen⟩
        · exact hrest w' (List.mem_cons_of_mem w hw')
      · intro w' hw'
        rcases List.mem_cons.mp hw' with rfl | hw'
        · exact hsingle a
        · exact hrest w' hw'

/-- An interval as long as a window meets at most two windows. -/
theorem countP_between_windows (hchain : ws.IsChain (Apart time length))
    (hwithin : ∀ w ∈ ws, Within time length w) (hcount : ∀ w ∈ ws, w.entries.countP p ≤ m) :
    (ws.flatMap Window.entries).countP (between time length start p) ≤ 2 * m := by
  induction ws with
  | nil => exact Nat.zero_le _
  | cons w ws ih =>
    have hwithin' : ∀ w' ∈ ws, Within time length w' :=
      fun w' hw' => hwithin w' (List.mem_cons_of_mem w hw')
    have hcount' : ∀ w' ∈ ws, w'.entries.countP p ≤ m :=
      fun w' hw' => hcount w' (List.mem_cons_of_mem w hw')
    have hfirst : w.entries.countP (between time length start p) ≤ m :=
      countP_between_le hcount List.mem_cons_self
    have htail : ws.IsChain (Apart time length) := hchain.tail
    rw [List.flatMap_cons, List.countP_append]
    by_cases hlate : start + length < time w.first
    · have hnone : w.entries.countP (between time length start p) = 0 := by
        rw [List.countP_eq_zero]
        intro a ha hbetween
        simp only [between, Bool.and_eq_true, decide_eq_true_eq] at hbetween
        have hbegun := (hwithin w List.mem_cons_self a ha).1
        exact absurd (lt_of_lt_of_le hlate hbegun) (not_lt.mpr hbetween.2)
      have hrest := ih htail hwithin' hcount'
      omega
    · have hbefore : ∀ w' ∈ ws.head?, time w'.first < start := by
        intro w' hw'
        have hapart : Apart time length w w' := (List.isChain_cons.mp hchain).1 w' hw'
        exact lt_of_add_lt_add_right (lt_of_lt_of_le hapart (not_lt.mp hlate))
      have hrest : (ws.flatMap Window.entries).countP (between time length start p) ≤ m :=
        countP_begun_before htail hwithin' hcount' hbefore
      omega

/-- At most twice as many entries with the property come in an interval as in a window. -/
theorem countP_between_le_two_mul (hlength : 0 ≤ length) {l : List α}
    (hsorted : l.Pairwise fun a b => time a ≤ time b)
    (hcount : ∀ w ∈ windows time length l, w.entries.countP p ≤ m) (start : T) :
    l.countP (between time length start p) ≤ 2 * m := by
  have hperm : ((windows time length l).flatMap Window.entries).Perm l := windows_perm l
  rw [← hperm.countP_eq]
  exact countP_between_windows (apart_windows l) (within_of_mem_windows hlength hsorted) hcount

end Intervals

end MissionControl.Foundations.FixedWindows
