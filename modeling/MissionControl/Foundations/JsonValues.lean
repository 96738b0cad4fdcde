import MissionControl.Foundations.Schema
import Mathlib.Data.List.Basic
import Mathlib.Data.List.Nodup

/-!
JSON values as programs handle them: whether two are equal, which of them are falsy, and the
properties of objects in their order, where the names that are array indices come first. A text
format gives the values that texts stand for.
-/

set_option autoImplicit false
set_option relaxedAutoImplicit false

namespace MissionControl.Foundations.JsonValues

open Schema (Json lookup)

/-! ### Equality -/

mutual

def same : Json → Json → Bool
  | .null, .null => true
  | .bool b, .bool b' => b == b'
  | .number n, .number n' => n == n'
  | .string s, .string s' => s == s'
  | .array items, .array items' => sameItems items items'
  | .object fields, .object fields' => sameFields fields fields'
  | _, _ => false

def sameItems : List Json → List Json → Bool
  | [], [] => true
  | v :: items, v' :: items' => same v v' && sameItems items items'
  | _, _ => false

def sameFields : List (String × Json) → List (String × Json) → Bool
  | [], [] => true
  | (k, v) :: fields, (k', v') :: fields' => k == k' && (same v v' && sameFields fields fields')
  | _, _ => false

end

mutual

theorem same_iff : ∀ v v' : Json, same v v' = true ↔ v = v'
  | .null, v' => by cases v' <;> simp [same]
  | .bool b, v' => by cases v' <;> simp [same]
  | .number n, v' => by cases v' <;> simp [same]
  | .string s, v' => by cases v' <;> simp [same]
  | .array items, v' => by
    cases v' with
    | array items' => simpa [same] using sameItems_iff items items'
    | _ => simp [same]
  | .object fields, v' => by
    cases v' with
    | object fields' => simpa [same] using sameFields_iff fields fields'
    | _ => simp [same]

theorem sameItems_iff : ∀ items items' : List Json, sameItems items items' = true ↔ items = items'
  | [], items' => by cases items' <;> simp [sameItems]
  | v :: items, items' => by
    cases items' with
    | nil => simp [sameItems]
    | cons v' items' => simp [sameItems, same_iff v v', sameItems_iff items items']

theorem sameFields_iff : ∀ fields fields' : List (String × Json),
    sameFields fields fields' = true ↔ fields = fields'
  | [], fields' => by cases fields' <;> simp [sameFields]
  | (k, v) :: fields, fields' => by
    cases fields' with
    | nil => simp [sameFields]
    | cons field' fields' =>
      obtain ⟨k', v'⟩ := field'
      simp [sameFields, same_iff v v', sameFields_iff fields fields', and_assoc]

end

instance decidableEqJson : DecidableEq Json := fun v v' => decidable_of_iff _ (same_iff v v')

/-! ### Truth -/

/-- Whether a condition takes the value as true. -/
def truthy : Json → Bool
  | .null => false
  | .bool b => b
  | .number n => n ≠ 0
  | .string s => s ≠ ""
  | .array _ => true
  | .object _ => true

/-! ### Properties -/

/-- The number that decimal digits stand for. -/
def decimal (digits : List Char) : Nat :=
  digits.foldl (fun n c => 10 * n + (c.toNat - '0'.toNat)) 0

/-- The index that the name of a property stands for, if it is the name of an element. -/
def arrayIndex (key : String) : Option Nat :=
  match key.toList with
  | [] => none
  | c :: cs =>
    if (c :: cs).all Char.isDigit ∧ (c ≠ '0' ∨ cs = []) ∧ decimal (c :: cs) < 4294967295 then
      some (decimal (c :: cs))
    else none

/-- The names of elements come first, by their index; the others stay in the order in which they
were added. -/
def comesBefore (i : Nat) (field : String × Json) : Bool :=
  (arrayIndex field.1).any (· < i)

/-- The names of the properties, in their order. -/
def names (fields : List (String × Json)) : List String := fields.map Prod.fst

/-- Assign to a property of an object; one that is new gets its place among the others. -/
def setField (fields : List (String × Json)) (key : String) (value : Json) : List (String × Json) :=
  if key ∈ names fields then
    fields.map fun field => if field.1 = key then (key, value) else field
  else
    match arrayIndex key with
    | none => fields ++ [(key, value)]
    | some i => fields.takeWhile (comesBefore i) ++ (key, value) :: fields.dropWhile (comesBefore i)

/-- The properties with these names that have a value. -/
def select (keys : List String) (value : String → Option Json) : List (String × Json) :=
  keys.filterMap fun key => (value key).map fun v => (key, v)

/-- `{ ...target, ...source }`. -/
def spread (target source : List (String × Json)) : List (String × Json) :=
  source.foldl (fun result field => setField result field.1 field.2) target

/-- The value of a property that the object has of its own; other values have none. -/
def getField (value : Json) (key : String) : Option Json :=
  match value with
  | .object fields => lookup fields key
  | _ => none

/-- The value at the end of a path of properties. -/
def valueAt (value : Json) : List String → Option Json
  | [] => some value
  | key :: rest => (getField value key).bind fun inner => valueAt inner rest

@[simp]
theorem lookup_nil (key : String) : lookup [] key = none := rfl

theorem lookup_cons (k : String) (v : Json) (fields : List (String × Json)) (key : String) :
    lookup ((k, v) :: fields) key = if k = key then some v else lookup fields key := by
  by_cases h : k = key <;> simp [lookup, h]

theorem lookup_append (fields fields' : List (String × Json)) (key : String) :
    lookup (fields ++ fields') key = (lookup fields key).or (lookup fields' key) := by
  induction fields with
  | nil => simp
  | cons field fields ih =>
    obtain ⟨k, v⟩ := field
    by_cases h : k = key <;> simp [lookup_cons, h, ih]

@[simp]
theorem names_nil : names [] = [] := rfl

@[simp]
theorem names_cons (k : String) (v : Json) (fields : List (String × Json)) :
    names ((k, v) :: fields) = k :: names fields := rfl

theorem lookup_eq_none_iff {fields : List (String × Json)} {key : String} :
    lookup fields key = none ↔ key ∉ names fields := by
  induction fields with
  | nil => simp
  | cons field fields ih =>
    obtain ⟨k, v⟩ := field
    by_cases h : k = key
    · simp [lookup_cons, h]
    · have hne : ¬ key = k := fun hcontra => h hcontra.symm
      simp [lookup_cons, h, hne, ih]

theorem mem_names_of_lookup {fields : List (String × Json)} {key : String} {value : Json}
    (h : lookup fields key = some value) : key ∈ names fields := by
  by_contra hnot
  rw [lookup_eq_none_iff.mpr hnot] at h
  cases h

theorem exists_lookup {fields : List (String × Json)} {key : String} (h : key ∈ names fields) :
    ∃ value, lookup fields key = some value := by
  rw [← Option.ne_none_iff_exists']
  exact fun hnone => lookup_eq_none_iff.mp hnone h

theorem mem_of_lookup {fields : List (String × Json)} {key : String} {value : Json}
    (h : lookup fields key = some value) : (key, value) ∈ fields := by
  obtain ⟨found, hfound, rfl⟩ := Option.map_eq_some_iff.mp h
  have hkey : found.1 = key := by simpa using List.find?_some hfound
  exact hkey ▸ List.mem_of_find?_eq_some hfound

theorem lookup_of_mem {fields : List (String × Json)} (hnodup : (names fields).Nodup)
    {key : String} {value : Json} (h : (key, value) ∈ fields) : lookup fields key = some value := by
  induction fields with
  | nil => cases h
  | cons field fields ih =>
    obtain ⟨k, v⟩ := field
    obtain ⟨hk, hnodup⟩ := List.nodup_cons.mp hnodup
    rcases List.mem_cons.mp h with h | h
    · obtain ⟨rfl, rfl⟩ := Prod.mk.inj h
      simp [lookup_cons]
    · have hne : k ≠ key := by
        intro heq
        have hmem : key ∈ names fields := List.mem_map_of_mem h
        exact hk (heq ▸ hmem)
      rw [lookup_cons, if_neg hne]
      exact ih hnodup h

/-- Objects with the same names, each of them once, and the same values are the same. -/
theorem fields_ext {fields fields' : List (String × Json)} (hnames : names fields = names fields')
    (hnodup : (names fields).Nodup) (h : ∀ key, lookup fields key = lookup fields' key) :
    fields = fields' := by
  induction fields generalizing fields' with
  | nil =>
    cases fields' with
    | nil => rfl
    | cons field' fields' => cases hnames
  | cons field fields ih =>
    obtain ⟨k, v⟩ := field
    cases fields' with
    | nil => cases hnames
    | cons field' fields' =>
      obtain ⟨k', v'⟩ := field'
      obtain ⟨rfl, htail⟩ := List.cons.inj hnames
      replace hnames : names fields = names fields' := htail
      obtain ⟨hk, hnodup⟩ := List.nodup_cons.mp hnodup
      have hv : v = v' := by simpa [lookup_cons] using h k
      have hrest : ∀ key, lookup fields key = lookup fields' key := by
        intro key
        by_cases hkey : k = key
        · subst hkey
          rw [lookup_eq_none_iff.mpr hk, lookup_eq_none_iff.mpr (hnames ▸ hk)]
        · simpa [lookup_cons, hkey] using h key
      rw [hv, ih hnames hnodup hrest]

theorem names_map_set (fields : List (String × Json)) (key : String) (value : Json) :
    names (fields.map fun field => if field.1 = key then (key, value) else field) =
      names fields := by
  induction fields with
  | nil => rfl
  | cons field fields ih =>
    obtain ⟨k, v⟩ := field
    by_cases hk : k = key
    · simpa [hk] using ih
    · simpa [hk] using ih

theorem lookup_map_set (fields : List (String × Json)) (key other : String) (value : Json) :
    lookup (fields.map fun field => if field.1 = key then (key, value) else field) other =
      if key = other ∧ key ∈ names fields then some value else lookup fields other := by
  induction fields with
  | nil => simp
  | cons field fields ih =>
    obtain ⟨k, v⟩ := field
    by_cases hk : k = key
    · subst hk
      by_cases hother : k = other
      · simp [lookup_cons, hother]
      · simpa [lookup_cons, hother] using ih
    · by_cases hother : k = other
      · subst hother
        have hne : ¬ key = k := fun hcontra => hk hcontra.symm
        simp [lookup_cons, hk, hne]
      · have hne : ¬ key = k := fun hcontra => hk hcontra.symm
        simpa [lookup_cons, hk, hother, hne] using ih

/-- Assigning to a property that is there keeps all of them in their places. -/
theorem names_setField_of_mem {fields : List (String × Json)} {key : String} (value : Json)
    (h : key ∈ names fields) : names (setField fields key value) = names fields := by
  rw [setField, if_pos h, names_map_set]

theorem mem_names_setField {fields : List (String × Json)} {key other : String} {value : Json} :
    other ∈ names (setField fields key value) ↔ other = key ∨ other ∈ names fields := by
  rw [setField]
  split
  · rename_i hmem
    rw [names_map_set]
    constructor
    · exact .inr
    · rintro (rfl | h)
      · exact hmem
      · exact h
  · cases arrayIndex key with
    | none => simp [names, or_comm]
    | some i =>
      have hsplit := congrArg names
        (List.takeWhile_append_dropWhile (p := comesBefore i) (l := fields))
      rw [← hsplit]
      simp only [names, List.map_append, List.map_cons, List.mem_append, List.mem_cons]
      tauto

theorem lookup_setField (fields : List (String × Json)) (key other : String) (value : Json) :
    lookup (setField fields key value) other =
      if key = other then some value else lookup fields other := by
  rw [setField]
  split
  · rename_i hmem
    simp [lookup_map_set, hmem]
  · rename_i hmem
    cases arrayIndex key with
    | none =>
      by_cases h : key = other
      · subst h
        simp [lookup_append, lookup_cons, lookup_eq_none_iff.mpr hmem]
      · simp [lookup_append, lookup_cons, h]
    | some i =>
      have hsplit := congrArg (lookup · other)
        (List.takeWhile_append_dropWhile (p := comesBefore i) (l := fields))
      simp only [lookup_append] at hsplit
      by_cases h : key = other
      · subst h
        have hfront : lookup (fields.takeWhile (comesBefore i)) key = none := by
          rw [lookup_eq_none_iff]
          intro hfront
          apply hmem
          have hmap : (fields.takeWhile (comesBefore i)).map Prod.fst ⊆ fields.map Prod.fst :=
            List.map_subset _ (List.takeWhile_prefix _).subset
          exact hmap hfront
        simp [lookup_append, lookup_cons, hfront]
      · simp [lookup_append, lookup_cons, h, hsplit]

@[simp]
theorem lookup_setField_self (fields : List (String × Json)) (key : String) (value : Json) :
    lookup (setField fields key value) key = some value := by
  simp [lookup_setField]

theorem lookup_setField_ne (fields : List (String × Json)) {key other : String} (value : Json)
    (h : key ≠ other) : lookup (setField fields key value) other = lookup fields other := by
  simp [lookup_setField, h]

/-- Assigning the value that is there. -/
theorem setField_lookup {fields : List (String × Json)} {key : String} {value : Json}
    (hnodup : (names fields).Nodup) (h : lookup fields key = some value) :
    setField fields key value = fields := by
  have hnames := names_setField_of_mem value (mem_names_of_lookup h)
  refine fields_ext hnames (hnames ▸ hnodup) ?_
  intro other
  by_cases hother : key = other
  · subst hother
    simp [h]
  · exact lookup_setField_ne fields value hother

theorem lookup_spread {target source : List (String × Json)} (hnodup : (names source).Nodup)
    (key : String) : lookup (spread target source) key = (lookup source key).or (lookup target key) := by
  induction source generalizing target with
  | nil => rfl
  | cons field source ih =>
    obtain ⟨k, v⟩ := field
    obtain ⟨hk, hnodup⟩ := List.nodup_cons.mp hnodup
    have hstep : spread target ((k, v) :: source) = spread (setField target k v) source := rfl
    rw [hstep, ih hnodup, lookup_setField, lookup_cons]
    by_cases hkey : k = key
    · subst hkey
      simp [lookup_eq_none_iff.mpr hk]
    · simp [hkey]

/-- The names that are new come after the others. -/
theorem names_spread {target source : List (String × Json)} (hnodup : (names source).Nodup)
    (hindex : ∀ key ∈ names source, arrayIndex key = none) :
    names (spread target source) =
      names target ++ (names source).filter fun key => key ∉ names target := by
  induction source generalizing target with
  | nil => simp [spread]
  | cons field source ih =>
    obtain ⟨k, v⟩ := field
    obtain ⟨hk, hnodup⟩ := List.nodup_cons.mp hnodup
    have hrest : ∀ key ∈ names source, arrayIndex key = none :=
      fun key hkey => hindex key (List.mem_cons_of_mem k hkey)
    have hstep : spread target ((k, v) :: source) = spread (setField target k v) source := rfl
    rw [hstep, ih hnodup hrest, names_cons]
    by_cases hmem : k ∈ names target
    · rw [names_setField_of_mem v hmem, List.filter_cons_of_neg (by simpa using hmem)]
    · have hnew : names (setField target k v) = names target ++ [k] := by
        rw [setField, if_neg hmem, hindex k List.mem_cons_self]
        simp [names]
      rw [hnew, List.filter_cons_of_pos (by simpa using hmem), List.append_assoc,
        List.singleton_append]
      congr 2
      apply List.filter_congr
      intro key hkey
      have hne : key ≠ k := fun hcontra => hk (hcontra ▸ hkey)
      simp [hne]

theorem names_select (keys : List String) (value : String → Option Json) :
    names (select keys value) = keys.filter fun key => (value key).isSome := by
  induction keys with
  | nil => rfl
  | cons key keys ih =>
    unfold select at ih ⊢
    cases hvalue : value key with
    | none => simp [hvalue, ih]
    | some v => simp [hvalue, ih]

theorem lookup_select (keys : List String) (value : String → Option Json) (key : String) :
    lookup (select keys value) key = if key ∈ keys then value key else none := by
  induction keys with
  | nil => rfl
  | cons k keys ih =>
    unfold select at ih ⊢
    by_cases hk : k = key
    · subst hk
      cases hvalue : value k with
      | none => simpa [hvalue] using ih
      | some v => simp [hvalue, lookup_cons]
    · have hne : ¬ key = k := fun hcontra => hk hcontra.symm
      cases hvalue : value k with
      | none => simpa [hvalue, hne] using ih
      | some v => simpa [hvalue, lookup_cons, hk, hne] using ih

theorem nodup_setField {fields : List (String × Json)} (h : (names fields).Nodup) (key : String)
    (value : Json) : (names (setField fields key value)).Nodup := by
  rw [setField]
  split
  · rwa [names_map_set]
  · rename_i hmem
    cases arrayIndex key with
    | none =>
      have happend : names (fields ++ [(key, value)]) = names fields ++ [key] := by simp [names]
      simp only [happend, List.nodup_append, h, List.nodup_singleton, true_and]
      intro a ha b hb
      rw [List.mem_singleton.mp hb]
      exact fun hcontra => hmem (hcontra ▸ ha)
    | some i =>
      have hsplit : names fields =
          names (fields.takeWhile (comesBefore i)) ++ names (fields.dropWhile (comesBefore i)) := by
        simp only [names, ← List.map_append, List.takeWhile_append_dropWhile]
      have hinsert : (names (fields.takeWhile (comesBefore i) ++
          (key, value) :: fields.dropWhile (comesBefore i))).Perm (key :: names fields) := by
        rw [hsplit]
        simp [names]
      exact hinsert.nodup_iff.mpr (List.nodup_cons.mpr ⟨hmem, h⟩)

theorem nodup_spread {target : List (String × Json)} (h : (names target).Nodup)
    (source : List (String × Json)) : (names (spread target source)).Nodup := by
  induction source generalizing target with
  | nil => exact h
  | cons field source ih => exact ih (nodup_setField h field.1 field.2)

/-! ### Texts -/

mutual

/-- No object in the value has two properties of one name. -/
def distinct : Json → Bool
  | .array items => distinctItems items
  | .object fields => decide (names fields).Nodup && distinctFields fields
  | _ => true

def distinctItems : List Json → Bool
  | [] => true
  | v :: items => distinct v && distinctItems items

def distinctFields : List (String × Json) → Bool
  | [] => true
  | (_, v) :: fields => distinct v && distinctFields fields

end

/-- How values are written as texts and read back. A value may be too large for a text. -/
structure Format (Text : Type) where
  parse : Text → Option Json
  print : Json → Option Text
  parse_print : ∀ value text, print value = some text → parse text = some value
  parse_distinct : ∀ value text, parse text = some value → distinct value = true

/-- Texts that are the values themselves. -/
def Format.plain : Format Json where
  parse value := if distinct value then some value else none
  print value := if distinct value then some value else none
  parse_print value text h := by
    split at h
    · rename_i hdistinct
      obtain rfl := Option.some.inj h
      exact if_pos hdistinct
    · cases h
  parse_distinct value text h := by
    split at h
    · rename_i hdistinct
      exact Option.some.inj h ▸ hdistinct
    · cases h

/-- A text is of one value. -/
theorem Format.print_injective {Text : Type} (format : Format Text) {v v' : Json} {text : Text}
    (h : format.print v = some text) (h' : format.print v' = some text) : v = v' :=
  Option.some.inj ((format.parse_print v text h).symm.trans (format.parse_print v' text h'))

theorem distinct_of_lookup {fields : List (String × Json)} {key : String} {value : Json}
    (hfields : distinctFields fields = true) (h : lookup fields key = some value) :
    distinct value = true := by
  induction fields with
  | nil => simp at h
  | cons field fields ih =>
    obtain ⟨k, v⟩ := field
    simp only [distinctFields, Bool.and_eq_true] at hfields
    rw [lookup_cons] at h
    split at h
    · exact Option.some.inj h ▸ hfields.1
    · exact ih hfields.2 h

theorem distinct_of_mem {items : List Json} {item : Json} (hitems : distinctItems items = true)
    (h : item ∈ items) : distinct item = true := by
  induction items with
  | nil => cases h
  | cons v items ih =>
    simp only [distinctItems, Bool.and_eq_true] at hitems
    rcases List.mem_cons.mp h with rfl | h
    · exact hitems.1
    · exact ih hitems.2 h

theorem distinct_getField {value inner : Json} {key : String} (hvalue : distinct value = true)
    (h : getField value key = some inner) : distinct inner = true := by
  cases value with
  | object fields =>
    simp only [distinct, Bool.and_eq_true] at hvalue
    exact distinct_of_lookup hvalue.2 h
  | _ => cases h

theorem nodup_of_distinct {fields : List (String × Json)} (h : distinct (.object fields) = true) :
    (names fields).Nodup := by
  simp only [distinct, Bool.and_eq_true, decide_eq_true_eq] at h
  exact h.1

theorem distinctFields_of_distinct {fields : List (String × Json)}
    (h : distinct (.object fields) = true) : distinctFields fields = true := by
  simp only [distinct, Bool.and_eq_true] at h
  exact h.2

theorem distinctFields_select (keys : List String) {value : String → Option Json}
    (h : ∀ key v, value key = some v → distinct v = true) :
    distinctFields (select keys value) = true := by
  induction keys with
  | nil => rfl
  | cons key keys ih =>
    unfold select at ih ⊢
    cases hvalue : value key with
    | none => simpa [hvalue] using ih
    | some v => simp [hvalue, distinctFields, h key v hvalue, ih]

/-! ### Values without the order of properties -/

mutual

/-- The same value, up to the order in which objects have their properties. -/
def alike : Json → Json → Bool
  | .null, .null => true
  | .bool b, .bool b' => b == b'
  | .number n, .number n' => n == n'
  | .string s, .string s' => s == s'
  | .array items, .array items' => alikeItems items items'
  | .object fields, .object fields' =>
    decide (names fields' ⊆ names fields) && alikeFields fields fields'
  | _, _ => false

def alikeItems : List Json → List Json → Bool
  | [], [] => true
  | v :: items, v' :: items' => alike v v' && alikeItems items items'
  | _, _ => false

def alikeFields : List (String × Json) → List (String × Json) → Bool
  | [], _ => true
  | (k, v) :: fields, fields' =>
    (match lookup fields' k with
      | some v' => alike v v'
      | none => false) && alikeFields fields fields'

end

theorem alikeFields_iff {fields fields' : List (String × Json)} :
    alikeFields fields fields' = true ↔
      ∀ field ∈ fields, ∃ v', lookup fields' field.1 = some v' ∧ alike field.2 v' = true := by
  induction fields with
  | nil => simp [alikeFields]
  | cons field fields ih =>
    obtain ⟨k, v⟩ := field
    cases hlookup : lookup fields' k with
    | none => simp [alikeFields, hlookup]
    | some v' => simp [alikeFields, hlookup, ih]

/-- Objects are alike if they have the same names and alike values. -/
theorem alike_object {fields fields' : List (String × Json)} (hnodup : (names fields).Nodup) :
    alike (.object fields) (.object fields') = true ↔
      names fields' ⊆ names fields ∧
      ∀ key v, lookup fields key = some v →
        ∃ v', lookup fields' key = some v' ∧ alike v v' = true := by
  rw [alike, Bool.and_eq_true, decide_eq_true_eq, alikeFields_iff]
  apply and_congr_right
  intro _
  constructor
  · intro h key v hlookup
    exact h (key, v) (mem_of_lookup hlookup)
  · intro h field hfield
    exact h field.1 field.2 (lookup_of_mem hnodup hfield)

mutual

theorem alike_refl : ∀ v : Json, distinct v = true → alike v v = true
  | .null, _ => rfl
  | .bool _, _ => by simp [alike]
  | .number _, _ => by simp [alike]
  | .string _, _ => by simp [alike]
  | .array items, h => by simpa [alike] using alikeItems_refl items h
  | .object fields, h => by
    have hfields := distinctFields_of_distinct h
    simp only [alike, List.Subset.refl, decide_true, Bool.true_and]
    rw [alikeFields_iff]
    intro field hfield
    exact ⟨field.2, lookup_of_mem (nodup_of_distinct h) hfield,
      alike_refl_of_mem fields hfields field hfield⟩

theorem alikeItems_refl : ∀ items : List Json, distinctItems items = true →
    alikeItems items items = true
  | [], _ => rfl
  | v :: items, h => by
    simp only [distinctItems, Bool.and_eq_true] at h
    simp [alikeItems, alike_refl v h.1, alikeItems_refl items h.2]

theorem alike_refl_of_mem : ∀ fields : List (String × Json), distinctFields fields = true →
    ∀ field ∈ fields, alike field.2 field.2 = true
  | [], _ => by simp
  | (_, v) :: fields, h => by
    simp only [distinctFields, Bool.and_eq_true] at h
    simp only [List.forall_mem_cons]
    exact ⟨alike_refl v h.1, alike_refl_of_mem fields h.2⟩

end

/-- Objects that differ at one property are alike if the values of that property are. -/
theorem alike_object_of_ne {fields fields' : List (String × Json)} {key : String} {value : Json}
    (hdistinct : distinct (.object fields) = true) (hnodup : (names fields').Nodup)
    (hsame : ∀ other, key ≠ other → lookup fields' other = lookup fields other)
    (hvalue : lookup fields' key = some value) :
    alike (.object fields') (.object fields) = true ↔
      ∃ v, lookup fields key = some v ∧ alike value v = true := by
  rw [alike_object hnodup]
  constructor
  · rintro ⟨-, hvalues⟩
    exact hvalues key value hvalue
  · rintro ⟨v, hv, halike⟩
    constructor
    · intro other hother
      by_cases hkey : key = other
      · subst hkey
        exact mem_names_of_lookup hvalue
      · obtain ⟨w, hw⟩ := exists_lookup hother
        exact mem_names_of_lookup ((hsame other hkey).trans hw)
    · intro other w hw
      by_cases hkey : key = other
      · subst hkey
        obtain rfl := Option.some.inj (hvalue.symm.trans hw)
        exact ⟨v, hv, halike⟩
      · rw [hsame other hkey] at hw
        exact ⟨w, hw, alike_refl w (distinct_of_lookup (distinctFields_of_distinct hdistinct) hw)⟩

theorem alikeItems_length {items items' : List Json} (h : alikeItems items items' = true) :
    items.length = items'.length := by
  induction items generalizing items' with
  | nil =>
    cases items' with
    | nil => rfl
    | cons v' items' => cases h
  | cons v items ih =>
    cases items' with
    | nil => cases h
    | cons v' items' =>
      simp only [alikeItems, Bool.and_eq_true] at h
      simp only [List.length_cons, ih h.2]

/-- Lists that differ at one element are alike if these elements are. -/
theorem alikeItems_middle {front back : List Json} (hfront : distinctItems front = true)
    (hback : distinctItems back = true) (v v' : Json) :
    alikeItems (front ++ v :: back) (front ++ v' :: back) = alike v v' := by
  induction front with
  | nil => simp [alikeItems, alikeItems_refl back hback]
  | cons a front ih =>
    simp only [distinctItems, Bool.and_eq_true] at hfront
    simp [alikeItems, alike_refl a hfront.1, ih hfront.2]

theorem distinctItems_append {front back : List Json} :
    distinctItems (front ++ back) = (distinctItems front && distinctItems back) := by
  induction front with
  | nil => rfl
  | cons a front ih => simp only [List.cons_append, distinctItems, ih, Bool.and_assoc]

end MissionControl.Foundations.JsonValues
