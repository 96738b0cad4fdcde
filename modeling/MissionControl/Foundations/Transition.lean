import Mathlib.Data.List.Basic

/-!
Deterministic partial machines: an event is either disabled in a state or leads to exactly
one next state, so a finite trace of events names one run. A guard restricts the steps of a
run; the invariant rules below lift a one-step fact to every run that meets its guard.
-/

set_option autoImplicit false
set_option relaxedAutoImplicit false

namespace MissionControl.Foundations.Transition

universe u v

variable {State : Type u} {Event : Type v}

/-- A partial machine; `none` marks an event that cannot happen in the state. -/
structure Machine (State : Type u) (Event : Type v) where
  step : State → Event → Option State

namespace Machine

variable (M : Machine State Event)

/-- Execute a trace, stopping at the first disabled event. -/
def run : State → List Event → Option State
  | s, [] => some s
  | s, e :: trace => (M.step s e).bind fun s' => run s' trace

theorem run_cons_eq_some {s t : State} {e : Event} {trace : List Event} :
    M.run s (e :: trace) = some t ↔ ∃ s', M.step s e = some s' ∧ M.run s' trace = some t := by
  simp only [run, Option.bind_eq_some_iff]

theorem run_append (s : State) (front back : List Event) :
    M.run s (front ++ back) = (M.run s front).bind fun s' => M.run s' back := by
  induction front generalizing s with
  | nil => rfl
  | cons e front ih =>
    rw [List.cons_append, run, run, Option.bind_assoc]
    congr 1
    funext s'
    exact ih s'

/-- Every executed step of the run satisfies `guard` in the state it is taken from. -/
def Meets (guard : State → Event → Prop) : State → List Event → Prop
  | _, [] => True
  | s, e :: trace => guard s e ∧ ∀ s', M.step s e = some s' → Meets guard s' trace

variable {M} {guard : State → Event → Prop}

instance decidableMeets [∀ s e, Decidable (guard s e)] :
    ∀ (s : State) (trace : List Event), Decidable (M.Meets guard s trace)
  | _, [] => inferInstanceAs (Decidable True)
  | s, e :: trace =>
    match hstep : M.step s e with
    | none => decidable_of_iff (guard s e) <| by
        simp only [Meets, hstep]
        exact ⟨fun h => ⟨h, fun _ hs => by cases hs⟩, fun h => h.1⟩
    | some s' =>
      have := decidableMeets s' trace
      decidable_of_iff (guard s e ∧ M.Meets guard s' trace) <| by
        simp only [Meets, hstep, Option.some.injEq, forall_eq']

theorem Meets.append_left {s : State} {front back : List Event}
    (h : M.Meets guard s (front ++ back)) : M.Meets guard s front := by
  induction front generalizing s with
  | nil => trivial
  | cons e front ih => exact ⟨h.1, fun s' hs => ih (h.2 s' hs)⟩

theorem Meets.append_right {s t : State} {front back : List Event}
    (h : M.Meets guard s (front ++ back)) (hr : M.run s front = some t) :
    M.Meets guard t back := by
  induction front generalizing s with
  | nil =>
    obtain rfl : s = t := Option.some.inj hr
    exact h
  | cons e front ih =>
    obtain ⟨s', hs, hr⟩ := (run_cons_eq_some M).mp hr
    exact ih (h.2 s' hs) hr

/-- The trivial guard restricts nothing. -/
theorem Meets.of_forall (hg : ∀ s e, guard s e) (s : State) (trace : List Event) :
    M.Meets guard s trace := by
  induction trace generalizing s with
  | nil => trivial
  | cons e trace ih => exact ⟨hg s e, fun s' _ => ih s'⟩

/-- The invariant rule: what guarded steps preserve holds at the end of a guarded run. -/
theorem run_invariant {Inv : State → Prop}
    (preserved : ∀ s e s', Inv s → guard s e → M.step s e = some s' → Inv s')
    {s t : State} {trace : List Event} (hs : Inv s) (hm : M.Meets guard s trace)
    (hr : M.run s trace = some t) : Inv t := by
  induction trace generalizing s with
  | nil =>
    obtain rfl : s = t := Option.some.inj hr
    exact hs
  | cons e trace ih =>
    obtain ⟨s', hstep, hr⟩ := (run_cons_eq_some M).mp hr
    exact ih (preserved s e s' hs hm.1 hstep) (hm.2 s' hstep) hr

/-- The invariant rule where every step preserves the invariant. -/
theorem invariant_of_run {Inv : State → Prop}
    (preserved : ∀ s e s', Inv s → M.step s e = some s' → Inv s')
    {s t : State} {trace : List Event} (hs : Inv s) (hr : M.run s trace = some t) : Inv t := by
  have hpreserved : ∀ s e s', Inv s → True → M.step s e = some s' → Inv s' :=
    fun s e s' h _ => preserved s e s' h
  exact run_invariant hpreserved hs (Meets.of_forall (fun _ _ => trivial) s trace) hr

/-- Guards that agree wherever an invariant holds restrict runs alike, if what they let through keeps
the invariant. -/
theorem meets_iff {Inv : State → Prop} {guard' : State → Event → Prop}
    (agree : ∀ s, Inv s → ∀ e, guard s e ↔ guard' s e)
    (kept : ∀ s e s', Inv s → guard s e → M.step s e = some s' → Inv s') {s : State} (hs : Inv s)
    (trace : List Event) : M.Meets guard s trace ↔ M.Meets guard' s trace := by
  induction trace generalizing s with
  | nil => exact Iff.rfl
  | cons e trace ih =>
    constructor
    · rintro ⟨hguard, hrest⟩
      refine ⟨(agree s hs e).mp hguard, fun s' hstep => ?_⟩
      exact (ih (kept s e s' hs hguard hstep)).mp (hrest s' hstep)
    · rintro ⟨hguard, hrest⟩
      have hguard := (agree s hs e).mpr hguard
      refine ⟨hguard, fun s' hstep => ?_⟩
      exact (ih (kept s e s' hs hguard hstep)).mpr (hrest s' hstep)

/-- Guards that agree wherever an invariant holds restrict its runs alike. -/
theorem meets_congr {Inv : State → Prop} {guard' : State → Event → Prop}
    (agree : ∀ s, Inv s → ∀ e, guard s e ↔ guard' s e)
    (preserved : ∀ s e s', Inv s → M.step s e = some s' → Inv s') {s : State} (hs : Inv s)
    (trace : List Event) : M.Meets guard s trace ↔ M.Meets guard' s trace :=
  meets_iff agree (fun s e s' h _ => preserved s e s' h) hs trace

/-- The run rule for a reflexive transitive relation between the ends of a guarded run. -/
theorem run_relation {Inv : State → Prop} {R : State → State → Prop}
    (refl : ∀ s, R s s) (trans : ∀ s t r, R s t → R t r → R s r)
    (preserved : ∀ s e s', Inv s → guard s e → M.step s e = some s' → Inv s' ∧ R s s')
    {s t : State} {trace : List Event} (hs : Inv s) (hm : M.Meets guard s trace)
    (hr : M.run s trace = some t) : R s t := by
  induction trace generalizing s with
  | nil =>
    obtain rfl : s = t := Option.some.inj hr
    exact refl s
  | cons e trace ih =>
    obtain ⟨s', hstep, hr⟩ := (run_cons_eq_some M).mp hr
    obtain ⟨hinv, hrel⟩ := preserved s e s' hs hm.1 hstep
    exact trans s s' t hrel (ih hinv (hm.2 s' hstep) hr)

/-- What holds at the end of a run and not at its beginning was brought about by one of its steps,
and the guard held there. -/
theorem exists_origin {P : State → Prop} {s t : State} {trace : List Event} (hs : ¬ P s) (ht : P t)
    (hm : M.Meets guard s trace) (hr : M.run s trace = some t) :
    ∃ front e back r r', trace = front ++ e :: back ∧ M.run s front = some r ∧
      M.step r e = some r' ∧ guard r e ∧ ¬ P r ∧ P r' := by
  induction trace generalizing s with
  | nil =>
    obtain rfl : s = t := Option.some.inj hr
    exact absurd ht hs
  | cons e trace ih =>
    obtain ⟨s', hstep, hr⟩ := (run_cons_eq_some M).mp hr
    by_cases hnext : P s'
    · exact ⟨[], e, trace, s, s', rfl, rfl, hstep, hm.1, hs, hnext⟩
    · obtain ⟨front, e', back, r, r', rfl, hfront, hrest⟩ := ih hnext (hm.2 s' hstep) hr
      exact ⟨e :: front, e', back, r, r', rfl,
        (run_cons_eq_some M).mpr ⟨s', hstep, hfront⟩, hrest⟩

/-- `P` holds in every state that the run passes through, its ends included. -/
def Always (M : Machine State Event) (P : State → Prop) (s : State) (trace : List Event) : Prop :=
  ∀ front back t, trace = front ++ back → M.run s front = some t → P t

theorem always_cons {P : State → Prop} {s : State} {e : Event} {trace : List Event} :
    M.Always P s (e :: trace) ↔ P s ∧ ∀ s', M.step s e = some s' → M.Always P s' trace := by
  constructor
  · intro h
    refine ⟨h [] (e :: trace) s rfl rfl, ?_⟩
    intro s' hs front back t hsplit hr
    exact h (e :: front) back t (by rw [hsplit, List.cons_append])
      ((run_cons_eq_some M).mpr ⟨s', hs, hr⟩)
  · rintro ⟨hhead, htail⟩ front back t hsplit hr
    cases front with
    | nil =>
      obtain rfl : s = t := Option.some.inj hr
      exact hhead
    | cons e' front =>
      obtain ⟨rfl, htrace⟩ := List.cons.inj hsplit
      obtain ⟨s', hs, hr⟩ := (run_cons_eq_some M).mp hr
      exact htail s' hs front back t htrace hr

/-- The exactness rule. If a guarded step keeps the invariant and an unguarded step breaks
`P`, then `P` holds throughout a run exactly when all its steps are guarded. -/
theorem always_iff_meets {Inv P : State → Prop}
    (sound : ∀ s, Inv s → P s)
    (kept : ∀ s e s', Inv s → guard s e → M.step s e = some s' → Inv s')
    (broken : ∀ s e, Inv s → ¬ guard s e → ∃ s', M.step s e = some s' ∧ ¬ P s')
    {s : State} (hs : Inv s) (trace : List Event) :
    M.Always P s trace ↔ M.Meets guard s trace := by
  induction trace generalizing s with
  | nil =>
    refine ⟨fun _ => trivial, ?_⟩
    intro _ front back t hsplit hr
    obtain ⟨rfl, -⟩ := List.append_eq_nil_iff.mp hsplit.symm
    obtain rfl : s = t := Option.some.inj hr
    exact sound s hs
  | cons e trace ih =>
    rw [always_cons]
    constructor
    · rintro ⟨-, htail⟩
      have hguard : guard s e := by
        by_contra hn
        obtain ⟨s', hstep, hbad⟩ := broken s e hs hn
        exact hbad (htail s' hstep [] trace s' rfl rfl)
      exact ⟨hguard, fun s' hstep => (ih (kept s e s' hs hguard hstep)).mp (htail s' hstep)⟩
    · rintro ⟨hguard, htail⟩
      exact ⟨sound s hs, fun s' hstep =>
        (ih (kept s e s' hs hguard hstep)).mpr (htail s' hstep)⟩

end Machine

end MissionControl.Foundations.Transition
