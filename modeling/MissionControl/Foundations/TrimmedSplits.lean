import Mathlib.Data.List.DropRight
import Mathlib.Data.List.Forall2
import Mathlib.Data.List.Induction
import MissionControl.Foundations.JsText

/-!
Texts that are split at a character and whose parts are then trimmed: it does not matter whether the
text was trimmed before.
-/

set_option autoImplicit false
set_option relaxedAutoImplicit false

namespace MissionControl.Foundations.TrimmedSplits

open JsText (isWhiteSpace trimChars trimChars_eq_nil_iff)

variable {sep c : Char}

/-! ### White space at the ends -/

theorem trimChars_cons_of_blank (hc : isWhiteSpace c = true) (cs : List Char) :
    trimChars (c :: cs) = trimChars cs := by
  rw [trimChars, List.dropWhile_cons_of_pos hc, trimChars]

theorem trimChars_concat_of_blank (cs : List Char) (hc : isWhiteSpace c = true) :
    trimChars (cs ++ [c]) = trimChars cs := by
  by_cases hblank : ∀ d ∈ cs, isWhiteSpace d = true
  · have hboth : ∀ d ∈ cs ++ [c], isWhiteSpace d = true :=
      List.forall_mem_append.mpr ⟨hblank, List.forall_mem_singleton.mpr hc⟩
    rw [trimChars_eq_nil_iff.mpr hblank, trimChars_eq_nil_iff.mpr hboth]
  · have hne : cs.dropWhile isWhiteSpace ≠ [] := fun hnil =>
      hblank (List.dropWhile_eq_nil_iff.mp hnil)
    have hdrop : (cs ++ [c]).dropWhile isWhiteSpace = cs.dropWhile isWhiteSpace ++ [c] := by
      rw [List.dropWhile_append, if_neg (by simpa using hne)]
    rw [trimChars, hdrop, List.reverse_append, List.reverse_singleton, List.singleton_append,
      List.dropWhile_cons_of_pos hc, trimChars]

/-! ### Parts -/

/-- Trimmed parts, whatever stands before them. -/
def SameEnd (part part' : List Char) : Prop :=
  ∀ front, trimChars (front ++ part) = trimChars (front ++ part')

/-- White space at the end is at the end of the last part. -/
theorem splitOn_concat_of_blank (hc : isWhiteSpace c = true) (hne : c ≠ sep) (cs : List Char) :
    List.Forall₂ SameEnd ((cs ++ [c]).splitOn sep) (cs.splitOn sep) := by
  induction cs with
  | nil =>
    have hsplit : [c].splitOn sep = [[c]] :=
      List.splitOn_eq_singleton (by simpa using Ne.symm hne)
    rw [List.nil_append, hsplit, List.splitOn_nil]
    refine .cons (fun front => ?_) .nil
    rw [List.append_nil, trimChars_concat_of_blank front hc]
  | cons d cs ih =>
    rw [List.cons_append, List.splitOn_cons_eq_if_modifyHead, List.splitOn_cons_eq_if_modifyHead]
    split
    · exact .cons (fun _ => rfl) ih
    · generalize (cs ++ [c]).splitOn sep = parts, cs.splitOn sep = parts' at ih
      cases ih with
      | nil => exact .nil
      | cons hpart hparts =>
        refine .cons (fun front => ?_) hparts
        have hpart := hpart (front ++ [d])
        simpa using hpart

theorem map_trimChars_concat (hc : isWhiteSpace c = true) (hne : c ≠ sep) (cs : List Char) :
    ((cs ++ [c]).splitOn sep).map trimChars = (cs.splitOn sep).map trimChars := by
  have hparts := (splitOn_concat_of_blank hc hne cs).imp fun part part' (h : SameEnd part part') =>
    h []
  simp only [List.nil_append] at hparts
  rw [← List.forall₂_eq_eq_eq, List.forall₂_map_left_iff, List.forall₂_map_right_iff]
  exact hparts

theorem map_trimChars_cons (hc : isWhiteSpace c = true) (hne : c ≠ sep) (cs : List Char) :
    ((c :: cs).splitOn sep).map trimChars = (cs.splitOn sep).map trimChars := by
  rw [List.splitOn_cons_eq_if_modifyHead, if_neg (by simpa using hne)]
  cases cs.splitOn sep with
  | nil => rfl
  | cons part parts =>
    rw [List.modifyHead_cons, List.map_cons, List.map_cons, trimChars_cons_of_blank hc]

/-- The trimmed parts of a trimmed text are the trimmed parts of the text. -/
theorem map_trimChars_splitOn (hsep : isWhiteSpace sep = false) (cs : List Char) :
    ((trimChars cs).splitOn sep).map trimChars = (cs.splitOn sep).map trimChars := by
  have hne {c : Char} (hc : isWhiteSpace c = true) : c ≠ sep := by
    rintro rfl
    rw [hc] at hsep
    cases hsep
  have hleft : ((cs.dropWhile isWhiteSpace).splitOn sep).map trimChars =
      (cs.splitOn sep).map trimChars := by
    induction cs with
    | nil => rfl
    | cons c cs ih =>
      by_cases hc : isWhiteSpace c = true
      · rw [List.dropWhile_cons_of_pos hc, ih, map_trimChars_cons hc (hne hc)]
      · rw [List.dropWhile_cons_of_neg hc]
  have hright (l : List Char) : ((l.rdropWhile isWhiteSpace).splitOn sep).map trimChars =
      (l.splitOn sep).map trimChars := by
    induction l using List.reverseRecOn with
    | nil => rfl
    | append_singleton l c ih =>
      by_cases hc : isWhiteSpace c = true
      · rw [List.rdropWhile_concat_pos _ _ _ hc, ih, map_trimChars_concat hc (hne hc)]
      · rw [List.rdropWhile_concat_neg _ _ _ hc]
  exact (hright _).trans hleft

end MissionControl.Foundations.TrimmedSplits
