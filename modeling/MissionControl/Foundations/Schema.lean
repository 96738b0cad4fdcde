import Mathlib.Data.Rat.Defs

/-!
Schemas over JSON values, with the two ways a field may be missing: an optional field is left
out of the result, and a default takes the place of what is missing. A field that is made
optional still asks its inner schema when that one accepts a missing value, so a default under
an optional field is applied.
-/

set_option autoImplicit false
set_option relaxedAutoImplicit false

namespace MissionControl.Foundations.Schema

inductive Json where
  | null
  | bool (b : Bool)
  | number (n : Rat)
  | string (s : String)
  | array (items : List Json)
  | object (fields : List (String × Json))

/-- The value of a key, `none` where the object does not have it. -/
def lookup (fields : List (String × Json)) (key : String) : Option Json :=
  (fields.find? fun field => field.1 = key).map Prod.snd

inductive Code where
  | invalidType
  | invalidValue
  | tooSmall
  | tooBig
  deriving DecidableEq

/-- What a schema complains of; `message` is the text the schema gives for it, if any. -/
structure Issue where
  path : List String
  code : Code
  message : Option String
  deriving DecidableEq

abbrev Parsed (α : Type) := Except (List Issue) α

/-- A check of a value that has the right type. -/
structure Check (α : Type) where
  holds : α → Bool
  code : Code
  message : Option String

/-- The schema of a field. The result `none` stands for a field that stays undefined. -/
structure FieldSchema (α : Type) where
  /-- Whether the schema itself has an answer to a missing value. -/
  optin : Bool
  parse : Option Json → Parsed (Option α)

variable {α : Type}

def invalidType : Parsed α := .error [⟨[], .invalidType, none⟩]

/-- All checks are made, and every failure is reported. -/
def checked (checks : List (Check α)) (value : α) : Parsed α :=
  match checks.filter fun check => !check.holds value with
  | [] => .ok value
  | failed => .error (failed.map fun check => ⟨[], check.code, check.message⟩)

def required (parse : Json → Parsed α) : FieldSchema α where
  optin := false
  parse
    | none => invalidType
    | some value => (parse value).map some

def optional (field : FieldSchema α) : FieldSchema α where
  optin := true
  parse
    | none => if field.optin then field.parse none else .ok none
    | some value => field.parse (some value)

def withDefault (default : α) (field : FieldSchema α) : FieldSchema α where
  optin := true
  parse
    | none => .ok (some default)
    | some value => field.parse (some value)

def string (checks : List (Check String)) : FieldSchema String :=
  required fun
    | .string s => checked checks s
    | _ => invalidType

def number (checks : List (Check Rat)) : FieldSchema Rat :=
  required fun
    | .number n => checked checks n
    | _ => invalidType

/-- The largest integer such that it and all below it are exact as numbers. -/
def maxSafeInteger : Nat := 9007199254740991

/-- An integer between two bounds that are not negative. -/
def int (lo hi : Nat) : FieldSchema Nat :=
  required fun
    | .number n =>
      if n.den ≠ 1 then invalidType
      else if n.num < lo then .error [⟨[], .tooSmall, none⟩]
      else if hi < n.num then .error [⟨[], .tooBig, none⟩]
      else .ok n.num.toNat
    | _ => invalidType

/-- One of a list of texts, read as the value that it names. -/
def oneOf (options : List (String × α)) : FieldSchema α :=
  required fun
    | .string s =>
      match options.find? fun option => option.1 = s with
      | some option => .ok option.2
      | none => .error [⟨[], .invalidValue, none⟩]
    | _ => .error [⟨[], .invalidValue, none⟩]

/-- Run the parser of an element over a list, and keep every issue under its position. -/
def parseItems (parse : Json → Parsed α) : Nat → List Json → Parsed (List α)
  | _, [] => .ok []
  | i, item :: items =>
    match parse item, parseItems parse (i + 1) items with
    | .ok a, .ok rest => .ok (a :: rest)
    | .ok _, .error issues => .error issues
    | .error issues, .ok _ => .error (issues.map fun e => { e with path := toString i :: e.path })
    | .error issues, .error more =>
      .error (issues.map (fun e => { e with path := toString i :: e.path }) ++ more)

def array (parse : Json → Parsed α) (checks : List (Check (List α))) : FieldSchema (List α) :=
  required fun
    | .array items =>
      match parseItems parse 0 items with
      | .ok values => checked checks values
      | .error issues => .error issues
    | _ => invalidType

def record : FieldSchema (List (String × Json)) :=
  required fun
    | .object fields => .ok fields
    | _ => invalidType

/-! ### Objects -/

section Objects

variable {ι : Type} {V : ι → Type} (keys : List ι) (name : ι → String)
  (schema : (i : ι) → FieldSchema (V i))

/-- The issues of one field of an object, each under the name of the field. -/
def issuesAt (fields : List (String × Json)) (i : ι) : List Issue :=
  match (schema i).parse (lookup fields (name i)) with
  | .ok _ => []
  | .error issues => issues.map fun e => { e with path := name i :: e.path }

def valueAt (fields : List (String × Json)) (i : ι) : Option (V i) :=
  match (schema i).parse (lookup fields (name i)) with
  | .ok value => value
  | .error _ => none

/-- Read the fields of an object; keys that the schema does not name are dropped. -/
def parseObject : Json → Parsed ((i : ι) → Option (V i))
  | .object fields =>
    match keys.flatMap (issuesAt name schema fields) with
    | [] => .ok (valueAt name schema fields)
    | issues => .error issues
  | _ => invalidType

variable {keys name schema}

theorem parseObject_ok {json : Json} {data : (i : ι) → Option (V i)}
    (h : parseObject keys name schema json = .ok data) :
    ∃ fields, json = .object fields ∧ (∀ i ∈ keys, issuesAt name schema fields i = []) ∧
      ∀ i, data i = valueAt name schema fields i := by
  unfold parseObject at h
  split at h
  · rename_i fields
    split at h
    · rename_i hissues
      obtain rfl := Except.ok.inj h
      exact ⟨fields, rfl, List.flatMap_eq_nil_iff.mp hissues, fun _ => rfl⟩
    · cases h
  · cases h

end Objects

theorem oneOf_parse (options : List (String × α)) (json : Json) :
    (∃ a, (oneOf options).parse (some json) = .ok (some a)) ∨
      (oneOf options).parse (some json) = .error [⟨[], .invalidValue, none⟩] := by
  cases json with
  | string s =>
    cases hfind : options.find? fun option => option.1 = s with
    | none => exact .inr (by simp only [oneOf, required, hfind]; rfl)
    | some option => exact .inl ⟨option.2, by simp only [oneOf, required, hfind]; rfl⟩
  | _ => exact .inr rfl

/-! ### Checks -/

section

variable {parse : Json → Parsed α} {checks : List (Check α)} {listChecks : List (Check (List α))}

theorem holds_of_checked {value a : α} (h : checked checks value = .ok a) :
    ∀ check ∈ checks, check.holds a = true := by
  unfold checked at h
  split at h
  · rename_i hpassed
    obtain rfl := Except.ok.inj h
    intro check hcheck
    simpa using List.filter_eq_nil_iff.mp hpassed check hcheck
  · cases h

/-- A list that is read passes its checks. -/
theorem holds_of_array {json : Option Json} {values : List α}
    (h : (array parse listChecks).parse json = .ok (some values)) :
    ∀ check ∈ listChecks, check.holds values = true := by
  unfold array required at h
  dsimp only at h
  split at h
  · cases h
  · split at h
    · split at h
      · rename_i items found hitems
        cases hchecked : checked listChecks found with
        | error issues => simp [hchecked, Except.map] at h
        | ok passed =>
          obtain rfl : passed = values := by simpa [hchecked, Except.map] using h
          exact holds_of_checked hchecked
      · cases h
    · cases h

theorem parse_of_valueAt {ι : Type} {V : ι → Type} {name : ι → String}
    {schema : (i : ι) → FieldSchema (V i)} {fields : List (String × Json)} {i : ι} {value : V i}
    (h : valueAt name schema fields i = some value) :
    (schema i).parse (lookup fields (name i)) = .ok (some value) := by
  unfold valueAt at h
  split at h
  · rename_i heq
    rw [heq, h]
  · cases h

end

end MissionControl.Foundations.Schema
