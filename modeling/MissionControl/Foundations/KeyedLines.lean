import Mathlib.Data.List.Basic

/-!
Lines of which some carry a value under a key, and one key can have several lines. Who reads the
lines in order is left with the last value of a key; who updates a key changes its first line.
-/

set_option autoImplicit false
set_option relaxedAutoImplicit false

namespace MissionControl.Foundations.KeyedLines

variable {Line Key Value : Type} [DecidableEq Key] (entry : Line → Option (Key × Value))

/-- The value that a line has for a key. -/
def valueFor (key : Key) (line : Line) : Option Value :=
  ((entry line).filter fun pair => pair.1 = key).map Prod.snd

/-- The values of a key, in the order of the lines. -/
def values (lines : List Line) (key : Key) : List Value := lines.filterMap (valueFor entry key)

/-- The value of a key where the later lines count. -/
def reading (lines : List Line) (key : Key) : Option Value := (values entry lines key).getLast?

/-- The first line of a key with another value, in what `write` makes of it. -/
def updateFirst (write : Line → Line) (key : Key) (lines : List Line) : List Line :=
  lines.replaceF fun line => if (valueFor entry key line).isSome then some (write line) else none

section

variable {entry} {key other : Key} {value : Value}

theorem valueFor_eq_some {line : Line} :
    valueFor entry key line = some value ↔ entry line = some (key, value) := by
  rw [valueFor, Option.map_eq_some_iff]
  constructor
  · rintro ⟨⟨key', value'⟩, hpair, rfl⟩
    obtain ⟨hentry, hkey⟩ := Option.filter_eq_some_iff.mp hpair
    obtain rfl : key' = key := by simpa using hkey
    exact hentry
  · intro hentry
    exact ⟨(key, value), by simp [hentry], rfl⟩

@[simp]
theorem values_append (lines lines' : List Line) :
    values entry (lines ++ lines') key = values entry lines key ++ values entry lines' key :=
  List.filterMap_append

theorem values_cons (line : Line) (lines : List Line) : values entry (line :: lines) key =
    (valueFor entry key line).toList ++ values entry lines key := by
  rw [values, List.filterMap_cons]
  cases valueFor entry key line <;> rfl

/-- Lines that carry the same leave the same values. -/
theorem values_map {f : Line → Line} {lines : List Line}
    (h : ∀ line ∈ lines, entry (f line) = entry line) :
    values entry (lines.map f) key = values entry lines key := by
  rw [values, List.filterMap_map, values]
  refine List.filterMap_congr fun line hline => ?_
  simp [valueFor, h line hline]

theorem values_eq_nil_iff {lines : List Line} :
    values entry lines key = [] ↔ ∀ line ∈ lines, valueFor entry key line = none := by
  simp [values]

/-- An update puts its value in front of the other values of the key. -/
theorem values_updateFirst_self {write : Line → Line} {lines : List Line}
    (hwrite : ∀ line ∈ lines, ∀ old, entry line = some (key, old) →
      entry (write line) = some (key, value)) {old : Value} {rest : List Value}
    (h : values entry lines key = old :: rest) :
    values entry (updateFirst entry write key lines) key = value :: rest := by
  induction lines with
  | nil => cases h
  | cons line lines ih =>
    rw [values_cons] at h
    rw [updateFirst, List.replaceF_cons]
    cases hline : valueFor entry key line with
    | none =>
      rw [hline] at h
      have hrest := ih (fun line hmem => hwrite line (List.mem_cons_of_mem _ hmem)) h
      simp only [Option.isSome_none, Bool.false_eq_true, if_false, values_cons, hline]
      exact hrest
    | some found =>
      rw [hline] at h
      obtain ⟨-, rfl⟩ := List.cons.inj h
      have hwritten := hwrite line List.mem_cons_self _ (valueFor_eq_some.mp hline)
      simp only [Option.isSome_some, if_true, values_cons, valueFor_eq_some.mpr hwritten]
      rfl

theorem values_updateFirst_other {write : Line → Line} {lines : List Line}
    (hwrite : ∀ line ∈ lines, ∀ old, entry line = some (key, old) →
      entry (write line) = some (key, value)) (hother : other ≠ key) :
    values entry (updateFirst entry write key lines) other = values entry lines other := by
  induction lines with
  | nil => rfl
  | cons line lines ih =>
    rw [updateFirst, List.replaceF_cons]
    cases hline : valueFor entry key line with
    | none =>
      have hrest := ih fun line hmem => hwrite line (List.mem_cons_of_mem _ hmem)
      simp only [Option.isSome_none, Bool.false_eq_true, if_false, values_cons]
      exact congrArg _ hrest
    | some found =>
      have hentry := valueFor_eq_some.mp hline
      have hwritten := hwrite line List.mem_cons_self _ hentry
      have hold : valueFor entry other line = none := by
        simp [valueFor, hentry, hother.symm]
      have hnew : valueFor entry other (write line) = none := by
        simp [valueFor, hwritten, hother.symm]
      simp only [Option.isSome_some, if_true, values_cons, hold, hnew]

/-- What a write leaves alone, an update leaves alone. -/
theorem filterMap_updateFirst {α : Type} {f : Line → Option α} {write : Line → Line}
    (hwrite : ∀ line, f (write line) = f line) (lines : List Line) :
    (updateFirst entry write key lines).filterMap f = lines.filterMap f := by
  induction lines with
  | nil => rfl
  | cons line lines ih =>
    rw [updateFirst, List.replaceF_cons]
    by_cases hline : (valueFor entry key line).isSome = true
    · simp only [if_pos hline, List.filterMap_cons, hwrite]
    · rw [if_neg hline]
      simp only [List.filterMap_cons]
      cases f line with
      | none => exact ih
      | some a => exact congrArg (a :: ·) ih

/-- Every line after an update was there before, or is the one that was written. -/
theorem mem_updateFirst {write : Line → Line} {lines : List Line} {line : Line}
    (h : line ∈ updateFirst entry write key lines) :
    line ∈ lines ∨ ∃ old value, old ∈ lines ∧ entry old = some (key, value) ∧ line = write old := by
  obtain hsame | ⟨old, new, front, back, -, hnew, hlines, hupdated⟩ :=
    List.exists_or_eq_self_of_replaceF
      (fun line => if (valueFor entry key line).isSome then some (write line) else none) lines
  · rw [updateFirst, hsame] at h
    exact .inl h
  · rw [updateFirst, hupdated] at h
    split at hnew
    · rename_i hsome
      obtain rfl := Option.some.inj hnew
      obtain ⟨value, hvalue⟩ := Option.isSome_iff_exists.mp hsome
      rcases List.mem_append.mp h with hmem | hmem
      · exact .inl (hlines ▸ List.mem_append_left _ hmem)
      · rcases List.mem_cons.mp hmem with rfl | hmem
        · exact .inr ⟨old, value, by simp [hlines], valueFor_eq_some.mp hvalue, rfl⟩
        · exact .inl (hlines ▸ List.mem_append_right _ (List.mem_cons_of_mem _ hmem))
    · cases hnew

variable (entry) in
/-- Removing the lines of some keys leaves the other keys their values. -/
theorem values_filter {keep : Line → Bool} {keys : List Key} [Decidable (key ∈ keys)]
    {lines : List Line}
    (hkeep : ∀ line ∈ lines, ∀ key value, entry line = some (key, value) →
      (keep line = true ↔ key ∉ keys)) :
    values entry (lines.filter keep) key = if key ∈ keys then [] else values entry lines key := by
  induction lines with
  | nil => simp [values]
  | cons line lines ih =>
    have hrest := ih fun line hmem => hkeep line (List.mem_cons_of_mem _ hmem)
    have hline : valueFor entry key line = none ∨ (keep line = true ↔ key ∉ keys) := by
      cases hvalue : valueFor entry key line with
      | none => exact .inl rfl
      | some value =>
        exact .inr (hkeep line List.mem_cons_self key value (valueFor_eq_some.mp hvalue))
    rw [values_cons]
    rcases hline with hnone | hkept
    · rw [hnone, Option.toList_none, List.nil_append, ← hrest, List.filter_cons]
      split
      · rw [values_cons, hnone, Option.toList_none, List.nil_append]
      · rfl
    · by_cases hkey : key ∈ keys
      · rw [List.filter_cons_of_neg (mt hkept.mp (not_not.mpr hkey)), hrest, if_pos hkey, if_pos hkey]
      · rw [List.filter_cons_of_pos (hkept.mpr hkey), values_cons, hrest, if_neg hkey, if_neg hkey]

end

end MissionControl.Foundations.KeyedLines
