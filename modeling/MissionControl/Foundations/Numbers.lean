import MissionControl.Foundations.JsonValues

/-!
Numbers with infinities and with one that is no number, how they compare, and the number that a
JSON value is taken for. Sums and products of finite numbers are exact.
-/

set_option autoImplicit false
set_option relaxedAutoImplicit false

namespace MissionControl.Foundations.Numbers

open Schema (Json lookup)

inductive Number where
  | nan
  | finite (x : Rat)
  | infinite (negative : Bool)
  deriving DecidableEq

namespace Number

/-- `a < b`. -/
def lt : Number → Number → Bool
  | .finite x, .finite y => x < y
  | .finite _, .infinite negative => !negative
  | .infinite negative, .finite _ => negative
  | .infinite negative, .infinite negative' => negative && !negative'
  | _, _ => false

/-- `a <= b`, which is `b >= a`. -/
def le (a b : Number) : Bool := a ≠ .nan ∧ b ≠ .nan ∧ lt b a = false

/-- `start - amount * unit`. -/
def before (start : Int) (unit : Nat) : Number → Number
  | .nan => .nan
  | .finite x => .finite (start - x * unit)
  | .infinite negative => .infinite !negative

/-- `a * unit`, for a unit that is not zero. -/
def times (unit : Nat) : Number → Number
  | .nan => .nan
  | .finite x => .finite (x * unit)
  | .infinite negative => .infinite negative

@[simp] theorem lt_nan (a : Number) : lt a .nan = false := by cases a <;> rfl

@[simp] theorem nan_lt (a : Number) : lt .nan a = false := rfl

@[simp] theorem nan_le (a : Number) : le .nan a = false := rfl

@[simp] theorem le_nan (a : Number) : le a .nan = false := by cases a <;> rfl

/-- `≥` is the opposite of `<` where both sides are numbers. -/
theorem le_eq_not_lt {a b : Number} (ha : a ≠ .nan) (hb : b ≠ .nan) : le a b = !lt b a := by
  cases h : lt b a with
  | true => simp [le, h]
  | false => simp [le, h, ha, hb]

/-- Nothing is below what is infinitely low. -/
theorem lt_negInfinite (a : Number) : lt a (.infinite true) = false := by
  cases a with
  | nan => rfl
  | finite x => rfl
  | infinite negative => cases negative <;> rfl

end Number

/-- The text of a number, and the number that a text reads as. -/
structure Conversions where
  numberText : Rat → String
  textNumber : String → Number

section

variable (conv : Conversions)

mutual

/-- `String(value)`; `none` is the exception that an object with a `toString` of its own throws,
since what it holds there is no function. -/
def toText : Json → Option String
  | .null => some "null"
  | .bool b => some (if b then "true" else "false")
  | .number n => some (conv.numberText n)
  | .string s => some s
  | .array items => (itemTexts items).map (",".intercalate ·)
  | .object fields => if lookup fields "toString" = none then some "[object Object]" else none

/-- The texts that `join` puts together. -/
def itemTexts : List Json → Option (List String)
  | [] => some []
  | .null :: rest => (itemTexts rest).map ("" :: ·)
  | item :: rest => (toText item).bind fun text => (itemTexts rest).map (text :: ·)

end

/-- `Number(value)`; `none` is an exception. -/
def toNumber : Json → Option Number
  | .null => some (.finite 0)
  | .bool b => some (.finite (if b then 1 else 0))
  | .number n => some (.finite n)
  | .string s => some (conv.textNumber s)
  | value => (toText conv value).map conv.textNumber

/-- The number that a comparison takes a property for, which may be missing. -/
def fieldNumber : Option Json → Option Number
  | none => some .nan
  | some value => toNumber conv value

end

end MissionControl.Foundations.Numbers
