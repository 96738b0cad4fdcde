import MissionControl.Foundations.Transition

/-!
Two runs of one machine that differ in some of their events only. What an observer sees of a
state is a relation between states. If the other events do not change what it sees, and the
shared ones keep states alike that are alike, then runs with the same shared events end in states
that the observer cannot tell apart.
-/

set_option autoImplicit false
set_option relaxedAutoImplicit false

namespace MissionControl.Foundations.Noninterference

open MissionControl.Foundations.Transition

universe u v

variable {State : Type u} {Event : Type v} {M : Machine State Event}
variable {shared : Event → Bool} {guard : State → Event → Prop} {Inv : State → Prop}
variable {Alike : State → State → Prop}

/-- The conditions on the steps of a machine under which an observer learns only of the shared
events. -/
structure Unwinds (M : Machine State Event) (shared : Event → Bool)
    (guard : State → Event → Prop) (Inv : State → Prop) (Alike : State → State → Prop) : Prop where
  equivalence : Equivalence Alike
  kept : ∀ s e s', Inv s → guard s e → M.step s e = some s' → Inv s'
  /-- An event that is not shared is not seen. -/
  unseen : ∀ s e s', Inv s → shared e = false → guard s e → M.step s e = some s' → Alike s' s
  /-- A shared event does the same to states that are alike. -/
  respected : ∀ s t e s' t', Inv s → Inv t → Alike s t → shared e = true → guard s e →
    guard t e → M.step s e = some s' → M.step t e = some t' → Alike s' t'

namespace Unwinds

variable (h : Unwinds M shared guard Inv Alike)
include h

/-- A run without shared events is not seen. -/
theorem alike_of_unshared {s s' : State} {trace : List Event} (hs : Inv s)
    (hmeets : M.Meets guard s trace) (hrun : M.run s trace = some s')
    (hnone : trace.filter shared = []) : Alike s' s := by
  induction trace generalizing s with
  | nil =>
    obtain rfl : s = s' := Option.some.inj hrun
    exact h.equivalence.refl s
  | cons e trace ih =>
    obtain ⟨s₁, hstep, hrest⟩ := (Machine.run_cons_eq_some M).mp hrun
    rw [List.filter_eq_nil_iff] at hnone
    have hunshared : shared e = false := by simpa using hnone e List.mem_cons_self
    have htail : trace.filter shared = [] := by
      rw [List.filter_eq_nil_iff]
      exact fun e' he' => hnone e' (List.mem_cons_of_mem e he')
    have hseen := ih (h.kept s e s₁ hs hmeets.1 hstep) (hmeets.2 s₁ hstep) hrest htail
    exact h.equivalence.trans hseen (h.unseen s e s₁ hs hunshared hmeets.1 hstep)

/-- Runs with the same shared events, from states that are alike, end in states that are. -/
theorem alike_of_runs {s t s' t' : State} {trace trace' : List Event} (hs : Inv s) (ht : Inv t)
    (hmeets : M.Meets guard s trace) (hmeets' : M.Meets guard t trace')
    (hrun : M.run s trace = some s') (hrun' : M.run t trace' = some t')
    (hsame : trace.filter shared = trace'.filter shared) (halike : Alike s t) : Alike s' t' := by
  induction trace generalizing s t trace' with
  | nil =>
    obtain rfl : s = s' := Option.some.inj hrun
    have hseen := h.alike_of_unshared ht hmeets' hrun' (hsame.symm.trans List.filter_nil)
    exact h.equivalence.trans halike (h.equivalence.symm hseen)
  | cons e trace ih =>
    obtain ⟨s₁, hstep, hrest⟩ := (Machine.run_cons_eq_some M).mp hrun
    have hs₁ := h.kept s e s₁ hs hmeets.1 hstep
    cases hshared : shared e with
    | false =>
      have htail : trace.filter shared = trace'.filter shared := by
        rw [← hsame, List.filter_cons_of_neg (by simp [hshared])]
      have hseen := h.unseen s e s₁ hs hshared hmeets.1 hstep
      exact ih hs₁ ht (hmeets.2 s₁ hstep) hmeets' hrest hrun' htail
        (h.equivalence.trans hseen halike)
    | true =>
      -- The other run comes to the same event after some that are not shared.
      rw [List.filter_cons_of_pos hshared] at hsame
      obtain ⟨front, back, rfl, hfront, -, hback⟩ := List.filter_eq_cons_iff.mp hsame.symm
      rw [Machine.run_append, Option.bind_eq_some_iff] at hrun'
      obtain ⟨t₀, hrunFront, hrunBack⟩ := hrun'
      obtain ⟨t₁, hstep', hrest'⟩ := (Machine.run_cons_eq_some M).mp hrunBack
      have hmeetsFront := hmeets'.append_left
      have hmeetsBack := hmeets'.append_right hrunFront
      have ht₀ : Inv t₀ := Machine.run_invariant h.kept ht hmeetsFront hrunFront
      have hunshared : front.filter shared = [] := by
        rw [List.filter_eq_nil_iff]
        exact hfront
      have hseen := h.alike_of_unshared ht hmeetsFront hrunFront hunshared
      have halike₀ : Alike s t₀ := h.equivalence.trans halike (h.equivalence.symm hseen)
      have halike₁ := h.respected s t₀ e s₁ t₁ hs ht₀ halike₀ hshared hmeets.1 hmeetsBack.1 hstep
        hstep'
      exact ih hs₁ (h.kept t₀ e t₁ ht₀ hmeetsBack.1 hstep') (hmeets.2 s₁ hstep)
        (hmeetsBack.2 t₁ hstep') hrest hrest' hback.symm halike₁

end Unwinds

end MissionControl.Foundations.Noninterference
