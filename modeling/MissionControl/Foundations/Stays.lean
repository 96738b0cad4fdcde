import Mathlib.Data.List.Basic

/-!
Stays: who comes at several moments stays from each of them until the next one, and the last stay
is not over. Coming once more ends the stay that is not over and begins another.
-/

set_option autoImplicit false
set_option relaxedAutoImplicit false

namespace MissionControl.Foundations.Stays

universe u

variable {T : Type u}

/-- When a stay began, and how long it lasted once it is over. -/
structure Stay (T : Type u) where
  since : T
  lasted : Option T

def Stay.isOpen (s : Stay T) : Bool := s.lasted.isNone

variable [Sub T]

/-- The stay, ended at a moment unless it is over. -/
def Stay.leave (t : T) (s : Stay T) : Stay T :=
  match s.lasted with
  | none => ⟨s.since, some (t - s.since)⟩
  | some _ => s

/-- The stays of who comes at these moments. -/
def stays : List T → List (Stay T)
  | [] => []
  | [t] => [⟨t, none⟩]
  | t :: t' :: ts => ⟨t, some (t' - t)⟩ :: stays (t' :: ts)

theorem map_since_stays (ts : List T) : (stays ts).map Stay.since = ts := by
  induction ts using stays.induct with
  | case1 => rfl
  | case2 t => rfl
  | case3 t t' ts ih => rw [stays, List.map_cons, ih]

theorem stays_append_singleton (ts : List T) (t : T) :
    stays (ts ++ [t]) = (stays ts).map (Stay.leave t) ++ [⟨t, none⟩] := by
  induction ts using stays.induct with
  | case1 => rfl
  | case2 s => rfl
  | case3 s s' ts ih =>
    have hcons : stays (s :: s' :: ts ++ [t]) = ⟨s, some (s' - s)⟩ :: stays (s' :: ts ++ [t]) := rfl
    rw [hcons, ih]
    rfl

theorem countP_isOpen_stays (ts : List T) : (stays ts).countP Stay.isOpen ≤ 1 := by
  induction ts using stays.induct with
  | case1 => exact Nat.zero_le 1
  | case2 t => exact List.countP_le_length
  | case3 t t' ts ih =>
    rw [stays, List.countP_cons_of_neg (by simp [Stay.isOpen])]
    exact ih

/-- A stay lasts until the next moment, if there is one. -/
theorem getElem?_stays {ts : List T} {i : Nat} {s : Stay T} (h : (stays ts)[i]? = some s) :
    s.lasted = ts[i + 1]?.map fun t => t - s.since := by
  induction ts using stays.induct generalizing i with
  | case1 => simp [stays] at h
  | case2 t =>
    obtain ⟨hi, rfl⟩ := List.getElem?_eq_some_iff.mp h
    simp [stays]
  | case3 t t' ts ih =>
    cases i with
    | zero =>
      obtain rfl := Option.some.inj h
      rfl
    | succ i => exact ih h

end MissionControl.Foundations.Stays
