import MissionControl.Foundations.JsonValues

/-!
Places in JSON values, and the replacement of what stands under certain names. At a place under
such a name there is what the first of the names on the way was replaced by, and at every other
place there is what was there, with the same replacements inside of it.
-/

set_option autoImplicit false
set_option relaxedAutoImplicit false

namespace MissionControl.Foundations.JsonPlaces

open JsonValues
open Schema (Json lookup)

/-! ### Places -/

/-- The name of a property, or the index of an element. -/
inductive Step where
  | key (name : String)
  | index (i : Nat)
  deriving DecidableEq

def child : Json → Step → Option Json
  | .object fields, .key name => lookup fields name
  | .array items, .index i => items[i]?
  | _, _ => none

/-- What stands in a value at the end of a path. -/
def place (v : Json) : List Step → Option Json
  | [] => some v
  | s :: path => (child v s).bind fun inner => place inner path

theorem place_append (v : Json) (front back : List Step) :
    place v (front ++ back) = (place v front).bind fun inner => place inner back := by
  induction front generalizing v with
  | nil => rfl
  | cons s front ih =>
    simp only [List.cons_append, place, ih, Option.bind_assoc]

/-- What there is of a value besides what stands in it. -/
inductive Outline where
  | null
  | bool (b : Bool)
  | number (n : Rat)
  | string (s : String)
  | array (length : Nat)
  | object (names : List String)
  deriving DecidableEq

def outline : Json → Outline
  | .null => .null
  | .bool b => .bool b
  | .number n => .number n
  | .string s => .string s
  | .array items => .array items.length
  | .object fields => .object (names fields)

/-! ### Replacements -/

section Replace

variable (isName : String → Bool) (f : Json → Json)

mutual

/-- The value with `f` applied to what stands under a name, unless it stands under another. -/
def replace : Json → Json
  | .array items => .array (replaceItems items)
  | .object fields => .object (replaceFields fields)
  | v => v

def replaceItems : List Json → List Json
  | [] => []
  | item :: items => replace item :: replaceItems items

def replaceFields : List (String × Json) → List (String × Json)
  | [] => []
  | (name, v) :: fields => (name, if isName name then f v else replace v) :: replaceFields fields

end

def Step.satisfies : Step → Bool
  | .key name => isName name
  | .index _ => false

/-- The part of a path up to the first name, and the rest of it. -/
def cut : List Step → Option (List Step × List Step)
  | [] => none
  | s :: path =>
    if s.satisfies isName then some ([s], path)
    else (cut path).map fun parts => (s :: parts.1, parts.2)

variable {isName f}

theorem replaceItems_getElem? (items : List Json) (i : Nat) :
    (replaceItems isName f items)[i]? = items[i]?.map (replace isName f) := by
  induction items generalizing i with
  | nil => simp [replaceItems]
  | cons item items ih =>
    cases i with
    | zero => simp [replaceItems]
    | succ i => simp [replaceItems, ih]

theorem lookup_replaceFields (fields : List (String × Json)) (name : String) :
    lookup (replaceFields isName f fields) name =
      (lookup fields name).map (if isName name then f else replace isName f) := by
  induction fields with
  | nil => simp [replaceFields]
  | cons field fields ih =>
    obtain ⟨k, v⟩ := field
    rw [replaceFields, lookup_cons, lookup_cons]
    by_cases hk : k = name
    · subst hk
      simp only [if_true, Option.map_some]
      split <;> rfl
    · simp only [hk, if_false, ih]

theorem length_replaceItems (items : List Json) :
    (replaceItems isName f items).length = items.length := by
  induction items with
  | nil => rfl
  | cons item items ih => simp [replaceItems, ih]

theorem names_replaceFields (fields : List (String × Json)) :
    names (replaceFields isName f fields) = names fields := by
  induction fields with
  | nil => rfl
  | cons field fields ih =>
    obtain ⟨name, v⟩ := field
    simp [replaceFields, ih]

@[simp]
theorem outline_replace (v : Json) : outline (replace isName f v) = outline v := by
  cases v with
  | array items => simp [replace, outline, length_replaceItems]
  | object fields => simp [replace, outline, names_replaceFields]
  | _ => simp [replace]

theorem child_replace (v : Json) (s : Step) :
    child (replace isName f v) s =
      (child v s).map (if s.satisfies isName then f else replace isName f) := by
  cases v with
  | array items =>
    cases s with
    | key name => simp [replace, child]
    | index i => simp [replace, child, replaceItems_getElem?, Step.satisfies]
  | object fields =>
    cases s with
    | key name =>
      rw [replace, child, lookup_replaceFields]
      rfl
    | index i => simp [replace, child]
  | _ => simp [replace, child]

/-- At a place under no name there is what was there, replaced inside. -/
theorem place_replace_of_cut_eq_none {path : List Step} (h : cut isName path = none) (v : Json) :
    place (replace isName f v) path = (place v path).map (replace isName f) := by
  induction path generalizing v with
  | nil => rfl
  | cons s path ih =>
    rw [cut] at h
    split at h
    · cases h
    · rename_i hname
      rw [place, place, child_replace, if_neg hname, Option.bind_map]
      cases child v s with
      | none => rfl
      | some inner => simp [ih (Option.map_eq_none_iff.mp h)]

/-- At a place under a name there is what the first name on the way was replaced by. -/
theorem place_replace_of_cut_eq_some {path front back : List Step}
    (h : cut isName path = some (front, back)) (v : Json) :
    place (replace isName f v) path = (place v front).bind fun inner => place (f inner) back := by
  induction path generalizing v front with
  | nil => cases h
  | cons s path ih =>
    rw [cut] at h
    split at h
    · rename_i hname
      obtain ⟨rfl, rfl⟩ := Prod.mk.inj (Option.some.inj h)
      rw [place, child_replace, if_pos hname, Option.bind_map, place]
      cases child v s with
      | none => rfl
      | some inner => simp [place]
    · rename_i hname
      obtain ⟨⟨front', back'⟩, hcut, hparts⟩ := Option.map_eq_some_iff.mp h
      obtain ⟨rfl, rfl⟩ := Prod.mk.inj hparts
      rw [place, child_replace, if_neg hname, Option.bind_map, place]
      cases child v s with
      | none => rfl
      | some inner => simp [ih hcut]

theorem cut_eq_none_iff {path : List Step} :
    cut isName path = none ↔ ∀ s ∈ path, s.satisfies isName = false := by
  induction path with
  | nil => simp [cut]
  | cons s path ih =>
    by_cases hname : s.satisfies isName = true
    · simp [cut, hname]
    · simp [cut, hname, ih]

/-- The path is cut after the first name on it. -/
theorem cut_eq_some_iff {path front back : List Step} :
    cut isName path = some (front, back) ↔ path = front ++ back ∧
      ∃ before s, front = before ++ [s] ∧ s.satisfies isName = true ∧
        ∀ s' ∈ before, s'.satisfies isName = false := by
  induction path generalizing front with
  | nil =>
    constructor
    · intro h
      cases h
    · rintro ⟨hpath, before, s, rfl, -, -⟩
      simp at hpath
  | cons t path ih =>
    by_cases hname : t.satisfies isName = true
    · rw [cut, if_pos hname]
      constructor
      · intro h
        obtain ⟨rfl, rfl⟩ := Prod.mk.inj (Option.some.inj h)
        exact ⟨rfl, [], t, rfl, hname, by simp⟩
      · rintro ⟨hpath, before, s, rfl, hs, hbefore⟩
        cases before with
        | nil =>
          obtain ⟨rfl, rfl⟩ := List.cons.inj hpath
          rfl
        | cons t' before =>
          obtain ⟨rfl, -⟩ := List.cons.inj hpath
          have hnot := hbefore t List.mem_cons_self
          rw [hname] at hnot
          cases hnot
    · rw [cut, if_neg hname]
      constructor
      · intro h
        obtain ⟨⟨front', back'⟩, hcut, hparts⟩ := Option.map_eq_some_iff.mp h
        obtain ⟨rfl, rfl⟩ := Prod.mk.inj hparts
        obtain ⟨rfl, before, s, rfl, hs, hbefore⟩ := ih.mp hcut
        refine ⟨rfl, t :: before, s, rfl, hs, ?_⟩
        intro s' hs'
        rcases List.mem_cons.mp hs' with rfl | hs'
        · exact Bool.eq_false_iff.mpr hname
        · exact hbefore s' hs'
      · rintro ⟨hpath, before, s, rfl, hs, hbefore⟩
        cases before with
        | nil =>
          obtain ⟨rfl, -⟩ := List.cons.inj hpath
          exact absurd hs hname
        | cons t' before =>
          obtain ⟨rfl, hrest⟩ := List.cons.inj hpath
          have hcut : cut isName path = some (before ++ [s], back) :=
            ih.mpr ⟨hrest, before, s, rfl, hs, fun s' hs' => hbefore s' (List.mem_cons_of_mem t hs')⟩
          rw [hcut]
          rfl

end Replace

end MissionControl.Foundations.JsonPlaces
