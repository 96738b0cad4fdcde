import MissionControl.Foundations.JsText

/-!
Letters in lower case: what is in lower case stays as it is, and characters beyond ASCII stay apart
from those of ASCII.
-/

set_option autoImplicit false
set_option relaxedAutoImplicit false

namespace MissionControl.Foundations.LetterCase

open JsText

theorem toLower_of_large {c : Char} (h : 128 ≤ c.toNat) : c.toLower = c := by
  have hlarge : ¬ (c.val ≥ 'A'.val ∧ c.val ≤ 'Z'.val) := by
    rintro ⟨-, hle⟩
    have hle : c.toNat ≤ 90 := hle
    omega
  exact dif_neg hlarge

/-- What is true of all characters of ASCII is true of a small one. -/
theorem of_small {p : Char → Prop} [DecidablePred p] (hall : ∀ n < 128, p (Char.ofNat n)) {c : Char}
    (h : c.toNat < 128) : p c := by
  have hc := hall c.toNat h
  rwa [Char.ofNat_toNat] at hc

/-- A character that only it is the lower case of, as is checked for ASCII. -/
theorem toLower_eq_iff {d : Char}
    (hall : ∀ n < 128, (Char.ofNat n).toLower = d ↔ Char.ofNat n = d) {c : Char} :
    c.toLower = d ↔ c = d := by
  by_cases h : c.toNat < 128
  · exact of_small (p := fun c => c.toLower = d ↔ c = d) hall h
  · rw [toLower_of_large (by omega)]

@[simp]
theorem toLower_toLower (c : Char) : c.toLower.toLower = c.toLower := by
  by_cases h : c.toNat < 128
  · exact of_small (p := fun c => c.toLower.toLower = c.toLower) (by decide) h
  · rw [toLower_of_large (c := c) (by omega), toLower_of_large (by omega)]

theorem lowerChar_small {c : Char} (h : c.toNat < 128) : lowerChar c = [c.toLower] := by
  rw [lowerChar, if_neg (by omega), if_neg (by omega)]

/-- Lower case stays as it is. -/
theorem lowerChar_lowerChar (c : Char) : (lowerChar c).flatMap lowerChar = lowerChar c := by
  unfold lowerChar
  split
  · decide
  · split
    · decide
    · rename_i hkelvin hdotted
      rw [List.flatMap_singleton]
      by_cases h : c.toNat < 128
      · have hsmall : c.toLower.toNat < 128 :=
          of_small (p := fun c => c.toLower.toNat < 128) (by decide) h
        rw [if_neg (by omega), if_neg (by omega), toLower_toLower]
      · rw [toLower_of_large (c := c) (by omega), if_neg hkelvin, if_neg hdotted,
          toLower_of_large (by omega)]

theorem toLowerCase_toLowerCase (s : String) : toLowerCase (toLowerCase s) = toLowerCase s := by
  have hlower : ∀ cs : List Char, (cs.flatMap lowerChar).flatMap lowerChar = cs.flatMap lowerChar := by
    intro cs
    induction cs with
    | nil => rfl
    | cons c cs ih => rw [List.flatMap_cons, List.flatMap_append, lowerChar_lowerChar, ih]
  rw [toLowerCase, toLowerCase, String.toList_ofList, hlower]

theorem toLowerCase_ne_empty {s : String} (h : s ≠ "") : toLowerCase s ≠ "" := by
  intro hempty
  have hchars : s.toList.flatMap lowerChar = [] := by
    have hlist := congrArg String.toList hempty
    simpa [toLowerCase] using hlist
  cases hs : s.toList with
  | nil => exact h (String.toList_eq_nil_iff.mp hs)
  | cons c cs =>
    rw [hs, List.flatMap_cons] at hchars
    have hc : lowerChar c = [] := (List.append_eq_nil_iff.mp hchars).1
    unfold lowerChar at hc
    split at hc
    · cases hc
    · split at hc <;> cases hc

end MissionControl.Foundations.LetterCase
