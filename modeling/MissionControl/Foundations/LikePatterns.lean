import MissionControl.Foundations.LetterCase
import MissionControl.Foundations.Query

/-!
What the patterns of `LIKE` match: a pattern in two parts matches a text in two parts, a pattern
without wildcards the same text up to letter case, and a pattern between two `%` a stretch of the
text.
-/

set_option autoImplicit false
set_option relaxedAutoImplicit false

namespace MissionControl.Foundations.LikePatterns

open LetterCase Query

@[simp]
theorem like_nil (text : List Char) : like [] text = true ↔ text = [] := by
  simp [like]

theorem like_any_cons {pattern text : List Char} :
    like ('%' :: pattern) text = true ↔
      ∃ front rest, text = front ++ rest ∧ like pattern rest = true := by
  simp only [like, if_true, List.any_eq_true, List.mem_tails]
  constructor
  · rintro ⟨rest, ⟨front, rfl⟩, hrest⟩
    exact ⟨front, rest, rfl, hrest⟩
  · rintro ⟨front, rest, rfl, hrest⟩
    exact ⟨rest, List.suffix_append front rest, hrest⟩

theorem like_cons {p : Char} {pattern text : List Char} (hp : p ≠ '%') :
    like (p :: pattern) text = true ↔
      ∃ c rest, text = c :: rest ∧ (p = '_' ∨ p.toLower = c.toLower) ∧ like pattern rest = true := by
  cases text with
  | nil => simp [like, hp]
  | cons c text => simp [like, hp]

/-- The parts of a pattern match parts of the text. -/
theorem like_append {pattern pattern' text : List Char} :
    like (pattern ++ pattern') text = true ↔
      ∃ front back, text = front ++ back ∧ like pattern front = true ∧ like pattern' back = true := by
  induction pattern generalizing text with
  | nil => simp
  | cons p pattern ih =>
    by_cases hp : p = '%'
    · subst hp
      rw [List.cons_append, like_any_cons]
      constructor
      · rintro ⟨skipped, rest, rfl, hrest⟩
        obtain ⟨front, back, rfl, hfront, hback⟩ := ih.mp hrest
        exact ⟨skipped ++ front, back, (List.append_assoc ..).symm,
          like_any_cons.mpr ⟨skipped, front, rfl, hfront⟩, hback⟩
      · rintro ⟨front, back, rfl, hfront, hback⟩
        obtain ⟨skipped, rest, rfl, hrest⟩ := like_any_cons.mp hfront
        exact ⟨skipped, rest ++ back, List.append_assoc .., ih.mpr ⟨rest, back, rfl, hrest, hback⟩⟩
    · rw [List.cons_append, like_cons hp]
      constructor
      · rintro ⟨c, rest, rfl, hc, hrest⟩
        obtain ⟨front, back, rfl, hfront, hback⟩ := ih.mp hrest
        exact ⟨c :: front, back, rfl, (like_cons hp).mpr ⟨c, front, rfl, hc, hfront⟩, hback⟩
      · rintro ⟨front, back, rfl, hfront, hback⟩
        obtain ⟨c, rest, rfl, hc, hrest⟩ := (like_cons hp).mp hfront
        exact ⟨c, rest ++ back, rfl, hc, ih.mpr ⟨rest, back, rfl, hrest, hback⟩⟩

@[simp]
theorem like_any (text : List Char) : like ['%'] text = true :=
  like_any_cons.mpr ⟨text, [], (List.append_nil text).symm, rfl⟩

/-- `%…%` matches what has a stretch that the pattern matches. -/
theorem like_between {pattern text : List Char} :
    like ('%' :: (pattern ++ ['%'])) text = true ↔
      ∃ front stretch back, text = front ++ stretch ++ back ∧ like pattern stretch = true := by
  rw [like_any_cons]
  constructor
  · rintro ⟨front, rest, rfl, hrest⟩
    obtain ⟨stretch, back, rfl, hstretch, -⟩ := like_append.mp hrest
    exact ⟨front, stretch, back, (List.append_assoc ..).symm, hstretch⟩
  · rintro ⟨front, stretch, back, rfl, hstretch⟩
    exact ⟨front, stretch ++ back, List.append_assoc ..,
      like_append.mpr ⟨stretch, back, rfl, hstretch, like_any back⟩⟩

/-- A character that is no letter and no wildcard matches itself. -/
theorem like_literal {c : Char} (hany : c ≠ '%') (hone : c ≠ '_') {text : List Char} :
    like [c] text = true ↔ ∃ d, text = [d] ∧ c.toLower = d.toLower := by
  rw [like_cons hany]
  simp [hone]

/-- Letter case does not matter. -/
theorem like_congr {text text' : List Char} (pattern : List Char)
    (h : text.map Char.toLower = text'.map Char.toLower) : like pattern text = like pattern text' := by
  suffices hone : ∀ {text text' : List Char}, text.map Char.toLower = text'.map Char.toLower →
      like pattern text = true → like pattern text' = true by
    exact Bool.eq_iff_iff.mpr ⟨hone h, hone h.symm⟩
  intro text text' hsame htext
  induction pattern generalizing text text' with
  | nil =>
    rw [like_nil] at htext ⊢
    subst htext
    simpa using hsame.symm
  | cons p pattern ih =>
    by_cases hp : p = '%'
    · subst hp
      obtain ⟨front, rest, rfl, hrest⟩ := like_any_cons.mp htext
      rw [List.map_append] at hsame
      obtain ⟨front', rest', rfl, -, hrest'⟩ := List.map_eq_append_iff.mp hsame.symm
      exact like_any_cons.mpr ⟨front', rest', rfl, ih hrest'.symm hrest⟩
    · obtain ⟨c, rest, rfl, hc, hrest⟩ := (like_cons hp).mp htext
      rw [List.map_cons] at hsame
      obtain ⟨c', rest', rfl, hc', hrest'⟩ := List.map_eq_cons_iff.mp hsame.symm
      refine (like_cons hp).mpr ⟨c', rest', rfl, ?_, ih hrest'.symm hrest⟩
      rwa [hc']

/-- A pattern without wildcards matches the same text. -/
theorem like_plain {pattern text : List Char} (hany : '%' ∉ pattern) (hone : '_' ∉ pattern) :
    like pattern text = true ↔ pattern.map Char.toLower = text.map Char.toLower := by
  induction pattern generalizing text with
  | nil =>
    rw [like_nil]
    constructor
    · rintro rfl
      rfl
    · intro h
      exact List.map_eq_nil_iff.mp h.symm
  | cons p pattern ih =>
    simp only [List.mem_cons, not_or] at hany hone
    rw [like_cons (Ne.symm hany.1), List.map_cons]
    constructor
    · rintro ⟨c, rest, rfl, hc, hrest⟩
      rw [List.map_cons, hc.resolve_left (Ne.symm hone.1), (ih hany.2 hone.2).mp hrest]
    · intro h
      obtain ⟨c, rest, rfl, hc, hrest⟩ := List.map_eq_cons_iff.mp h.symm
      exact ⟨c, rest, rfl, .inr hc.symm, (ih hany.2 hone.2).mpr hrest.symm⟩

/-- A pattern matches what it is itself, whatever wildcards are in it. -/
theorem like_self (text : List Char) : like text text = true := by
  induction text with
  | nil => rfl
  | cons c text ih =>
    by_cases hc : c = '%'
    · subst hc
      exact like_any_cons.mpr ⟨['%'], text, rfl, ih⟩
    · exact (like_cons hc).mpr ⟨c, text, rfl, .inr rfl, ih⟩

end MissionControl.Foundations.LikePatterns
