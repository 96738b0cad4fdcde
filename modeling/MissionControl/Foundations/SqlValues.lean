import MissionControl.Foundations.JsonValues

/-!
Values of a database whose columns have an affinity only: what a statement is given for its
parameters, and what a column makes of it.
-/

set_option autoImplicit false
set_option relaxedAutoImplicit false

namespace MissionControl.Foundations.SqlValues

open Schema (Json)

inductive Value where
  | null
  | number (n : Rat)
  | text (s : String)
  deriving DecidableEq

/-- A value that is read back, as a condition. -/
def Value.truthy : Value → Bool
  | .null => false
  | .number n => n ≠ 0
  | .text s => s ≠ ""

/-- The text of a number, and the number that a text reads as, if it reads as one. -/
structure Conversions where
  numberText : Rat → String
  textNumber : String → Option Rat

inductive Affinity where
  | integer
  | text
  deriving DecidableEq

/-! ### Columns -/

section

variable (conv : Conversions)

/-- What a column keeps of a value. -/
def Affinity.apply : Affinity → Value → Value
  | .integer, .text s => ((conv.textNumber s).map Value.number).getD (.text s)
  | .text, .number n => .text (conv.numberText n)
  | _, value => value

/-- `key = ?`, for a key that is a number. -/
def equalsKey (key : Nat) : Value → Bool
  | .null => false
  | .number n => n = key
  | .text s => conv.textNumber s = some (key : Rat)

end

/-- The order of a query: null, the numbers, the texts. -/
def Value.le : Value → Value → Bool
  | .null, _ => true
  | .number _, .null => false
  | .number m, .number n => m ≤ n
  | .number _, .text _ => true
  | .text _, .null => false
  | .text _, .number _ => false
  | .text s, .text s' => s ≤ s'

/-! ### Parameters -/

def bindValue : Json → Option Value
  | .null => some .null
  | .number n => some (.number n)
  | .string s => some (.text s)
  | .bool _ => none
  | .array _ => none
  | .object _ => none

/-- An array stands for its elements, and an object for named parameters, of which there are none. -/
def bindArgument : Json → Option (List Value)
  | .array items => items.mapM bindValue
  | .object _ => some []
  | value => (bindValue value).map fun value => [value]

def isObject : Json → Bool
  | .object _ => true
  | _ => false

/-- The values of the parameters of a statement, if it can be run with these arguments. -/
def bindParameters (parameters : Nat) (arguments : List Json) : Option (List Value) :=
  if 1 < arguments.countP isObject then none
  else ((arguments.mapM bindArgument).map List.flatten).filter fun values =>
    values.length = parameters

theorem length_of_bindParameters {parameters : Nat} {arguments : List Json} {values : List Value}
    (h : bindParameters parameters arguments = some values) : values.length = parameters := by
  unfold bindParameters at h
  split at h
  · cases h
  · simpa using (Option.filter_eq_some_iff.mp h).2

theorem flatten_of_bindParameters {parameters : Nat} {arguments : List Json} {values : List Value}
    (h : bindParameters parameters arguments = some values) :
    ∃ parts, arguments.mapM bindArgument = some parts ∧ values = parts.flatten := by
  unfold bindParameters at h
  split at h
  · cases h
  · obtain ⟨hparts, -⟩ := Option.filter_eq_some_iff.mp h
    obtain ⟨parts, hparts', rfl⟩ := Option.map_eq_some_iff.mp hparts
    exact ⟨parts, hparts', rfl⟩

/-- One parameter is bound to one value. -/
theorem bindParameters_singleton {argument : Json} {values : List Value}
    (h : bindParameters 1 [argument] = some values) :
    ∃ value, values = [value] ∧ bindArgument argument = some [value] := by
  have hlength := length_of_bindParameters h
  obtain ⟨parts, hparts, rfl⟩ := flatten_of_bindParameters h
  obtain ⟨part, hpart, rfl⟩ : ∃ part, bindArgument argument = some part ∧ parts = [part] := by
    cases hargument : bindArgument argument with
    | none => simp [hargument] at hparts
    | some part =>
      refine ⟨part, rfl, ?_⟩
      simpa [hargument] using hparts.symm
  simp only [List.flatten_cons, List.flatten_nil, List.append_nil] at hlength ⊢
  obtain ⟨value, rfl⟩ := List.length_eq_one_iff.mp hlength
  exact ⟨value, rfl, hpart⟩

/-- The last parameter is bound to the last argument, if that stands for one value. -/
theorem bindParameters_snoc (arguments : List Json) {parameters : Nat} {argument : Json}
    {value : Value} {values : List Value} (hargument : bindArgument argument = some [value])
    (h : bindParameters parameters (arguments ++ [argument]) = some values) :
    ∃ front, values = front ++ [value] := by
  obtain ⟨parts, hparts, rfl⟩ := flatten_of_bindParameters h
  rw [List.mapM_append] at hparts
  cases hfront : arguments.mapM bindArgument with
  | none => simp [hfront] at hparts
  | some front =>
    have hsplit : parts = front ++ [[value]] := by
      simpa [hfront, hargument] using hparts.symm
    exact ⟨front.flatten, by simp [hsplit]⟩

end MissionControl.Foundations.SqlValues
