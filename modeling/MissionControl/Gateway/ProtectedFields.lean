import MissionControl.Gateway.ConfigRoute

/-!
The password and the secret of the gateway. Their own paths are refused, but an update of
`gateway` or of `gateway.auth` takes them along.
-/

set_option autoImplicit false
set_option relaxedAutoImplicit false

namespace MissionControl.Gateway.ProtectedFields

open MissionControl.Foundations.JsonValues
open MissionControl.Foundations.Schema (Json lookup)
open MissionControl.Gateway.ConfigRoute

def protectedFields : List (List String) :=
  [["gateway", "auth", "password"], ["gateway", "auth", "secret"]]

/-- The paths above the protected ones. -/
def enclosing : List (List String) := [["gateway"], ["gateway", "auth"]]

/-- The walk stays among the properties of objects of the document, and its end is one. -/
def lands (unseen : Unseen) (path : List String) (current : Json) : List String → Bool
  | [] => false
  | [key] =>
    match current with
    | .object fields => !((lookup fields key).isNone && unseen.setter path key)
    | _ => false
  | key :: next :: rest =>
    match current with
    | .object fields =>
      match lookup fields key with
      | some inner => lands unseen (path ++ [key]) inner (next :: rest)
      | none =>
        !unseen.found path key && lands unseen (path ++ [key]) (.object []) (next :: rest)
    | _ => false

/-- What the last of the updates that replace `gateway` or `gateway.auth` in the document puts
there, with the path that it has. -/
def lastReplacement (unseen : Nat → Unseen) :
    Nat → Json → List (String × Json) → Option (List String × Json)
  | _, _, [] => none
  | n, parsed, (dotPath, value) :: updates =>
    match setNestedValue (unseen n) parsed dotPath value with
    | none => none
    | some parsed' =>
      (lastReplacement unseen (n + 1) parsed' updates).or
        (if keysOf dotPath ∈ enclosing ∧ lands (unseen n) [] parsed (keysOf dotPath) then
          some (keysOf dotPath, value)
        else none)

variable {unseen : Unseen} {path : List String} {doc doc' value : Json} {key : String}

/-! ### One step of a walk -/

@[simp]
theorem valueAt_nil (value : Json) : valueAt value [] = some value := rfl

theorem valueAt_cons (value : Json) (key : String) (rest : List String) :
    valueAt value (key :: rest) = (getField value key).bind fun inner => valueAt inner rest := rfl

theorem valueAt_empty_cons (key : String) (rest : List String) :
    valueAt (.object []) (key :: rest) = none := rfl

/-- No property of an object of the document changes. -/
def Untouched (doc doc' : Json) : Prop :=
  doc' = doc ∨ ∃ items items', doc = .array items ∧ doc' = .array items'

theorem untouched_outside {ends : Bool} (h : outside doc ends = some doc') : Untouched doc doc' := by
  unfold outside at h
  split at h
  · exact .inl (Option.some.inj h).symm
  · cases h

theorem Untouched.valueAt_cons (h : Untouched doc doc') (key : String) (rest : List String) :
    valueAt doc' (key :: rest) = valueAt doc (key :: rest) := by
  obtain rfl | ⟨items, items', rfl, rfl⟩ := h
  · rfl
  · rfl

theorem assign_cases (h : assign unseen path doc key value = some doc') :
    (lands unseen path doc [key] = false ∧ Untouched doc doc') ∨
    ∃ fields, lands unseen path doc [key] = true ∧ doc = .object fields ∧
      doc' = .object (setField fields key value) := by
  cases doc with
  | null => cases h
  | bool b =>
    simp only [assign] at h
    split at h
    · exact .inl ⟨rfl, untouched_outside h⟩
    · cases h
  | number n =>
    simp only [assign] at h
    split at h
    · exact .inl ⟨rfl, untouched_outside h⟩
    · cases h
  | string s =>
    simp only [assign] at h
    split at h
    · exact .inl ⟨rfl, untouched_outside h⟩
    · cases h
  | array items =>
    left
    refine ⟨rfl, ?_⟩
    simp only [assign] at h
    split at h
    · exact .inr ⟨items, _, rfl, (Option.some.inj h).symm⟩
    · split at h
      · obtain ⟨length, -, rfl⟩ := Option.map_eq_some_iff.mp h
        exact .inr ⟨items, _, rfl, rfl⟩
      · exact untouched_outside h
  | object fields =>
    simp only [assign] at h
    split at h
    · rename_i hsetter
      left
      refine ⟨?_, untouched_outside h⟩
      simp [lands, hsetter]
    · rename_i hsetter
      right
      refine ⟨fields, ?_, rfl, (Option.some.inj h).symm⟩
      simp only [not_and, Bool.not_eq_true] at hsetter
      simp only [lands, Bool.not_eq_true', Bool.and_eq_false_iff, Option.isNone_eq_false_iff]
      by_cases hnone : lookup fields key = none
      · exact .inr (hsetter hnone)
      · exact .inl (Option.isSome_iff_ne_none.mpr hnone)

/-- A walk that does not end here changes nothing or goes on in the value of the property. -/
theorem setNested_cases {next : String} {rest : List String}
    (h : setNested unseen path doc (key :: next :: rest) value = some doc') :
    (lands unseen path doc (key :: next :: rest) = false ∧ Untouched doc doc') ∨
    ∃ fields inner inner', doc = .object fields ∧ (lookup fields key).getD (.object []) = inner ∧
      lands unseen path doc (key :: next :: rest) =
        lands unseen (path ++ [key]) inner (next :: rest) ∧
      setNested unseen (path ++ [key]) inner (next :: rest) value = some inner' ∧
      doc' = .object (setField fields key inner') := by
  cases doc with
  | null => simp [setNested] at h
  | bool b =>
    simp only [setNested] at h
    split at h
    · exact .inl ⟨rfl, untouched_outside h⟩
    · cases h
  | number n =>
    simp only [setNested] at h
    split at h
    · exact .inl ⟨rfl, untouched_outside h⟩
    · cases h
  | string s =>
    simp only [setNested] at h
    split at h
    · exact .inl ⟨rfl, untouched_outside h⟩
    · cases h
  | array items =>
    left
    refine ⟨rfl, ?_⟩
    simp only [setNested] at h
    split at h
    · exact untouched_outside h
    · split at h
      · obtain ⟨item', -, rfl⟩ := Option.map_eq_some_iff.mp h
        exact .inr ⟨items, _, rfl, rfl⟩
      · split at h
        · exact untouched_outside h
        · obtain ⟨item', -, rfl⟩ := Option.map_eq_some_iff.mp h
          exact .inr ⟨items, _, rfl, rfl⟩
  | object fields =>
    simp only [setNested] at h
    cases hlookup : lookup fields key with
    | some inner =>
      simp only [hlookup] at h
      obtain ⟨inner', hinner, rfl⟩ := Option.map_eq_some_iff.mp h
      right
      exact ⟨fields, inner, inner', rfl, by simp [hlookup], by simp [lands, hlookup], hinner, rfl⟩
    | none =>
      simp only [hlookup] at h
      cases hfound : unseen.found path key with
      | true =>
        simp only [hfound, if_true] at h
        left
        exact ⟨by simp [lands, hlookup, hfound], untouched_outside h⟩
      | false =>
        simp only [hfound, Bool.false_eq_true, if_false] at h
        obtain ⟨inner', hinner, rfl⟩ := Option.map_eq_some_iff.mp h
        right
        exact ⟨fields, .object [], inner', rfl, by simp [hlookup],
          by simp [lands, hlookup, hfound], hinner, rfl⟩

/-! ### One update -/

/-- A walk leaves the value at a path alone that neither leads to its end nor goes on from it. -/
theorem valueAt_setNested_apart {keys target : List String}
    (h : setNested unseen path doc keys value = some doc') (hkeys : ¬ keys <+: target)
    (htarget : ¬ target <+: keys) : valueAt doc' target = valueAt doc target := by
  induction keys generalizing path doc doc' target with
  | nil => exact absurd (List.nil_prefix) hkeys
  | cons key rest ih =>
    cases target with
    | nil => exact absurd (List.nil_prefix) htarget
    | cons first target =>
      cases rest with
      | nil =>
        have hne : key ≠ first := by
          rintro rfl
          exact hkeys ⟨target, rfl⟩
        obtain ⟨-, huntouched⟩ | ⟨fields, -, rfl, rfl⟩ := assign_cases h
        · exact huntouched.valueAt_cons first target
        · simp only [valueAt_cons, getField, lookup_setField_ne fields value hne]
      | cons next rest =>
        obtain ⟨-, huntouched⟩ | ⟨fields, inner, inner', rfl, hinner, -, hrest, rfl⟩ :=
          setNested_cases h
        · exact huntouched.valueAt_cons first target
        · by_cases hfirst : key = first
          · subst hfirst
            have hkeys' : ¬ (next :: rest) <+: target := by
              simpa using hkeys
            have htarget' : ¬ target <+: (next :: rest) := by
              simpa using htarget
            have hsame := ih hrest hkeys' htarget'
            simp only [valueAt_cons, getField, lookup_setField_self, Option.bind_some, hsame]
            cases hlookup : lookup fields key with
            | some value => simp [← hinner, hlookup]
            | none =>
              obtain rfl : inner = .object [] := by simp [← hinner, hlookup]
              cases target with
              | nil => exact absurd (List.nil_prefix) htarget'
              | cons second target => rfl
          · simp only [valueAt_cons, getField, lookup_setField_ne fields inner' hfirst]

/-- A walk that lands gives the end of its path the value; another one changes nothing there. -/
theorem valueAt_setNested_append {keys : List String}
    (h : setNested unseen path doc keys value = some doc') (tail : List String) :
    valueAt doc' (keys ++ tail) =
      if lands unseen path doc keys then valueAt value tail else valueAt doc (keys ++ tail) := by
  induction keys generalizing path doc doc' with
  | nil => simp [setNested] at h
  | cons key rest ih =>
    cases rest with
    | nil =>
      obtain ⟨hlands, huntouched⟩ | ⟨fields, hlands, rfl, rfl⟩ := assign_cases h
      · simpa [hlands] using huntouched.valueAt_cons key tail
      · simp [hlands, valueAt_cons, getField]
    | cons next rest =>
      obtain ⟨hlands, huntouched⟩ | ⟨fields, inner, inner', rfl, hinner, hlands, hrest, rfl⟩ :=
        setNested_cases h
      · simpa [hlands] using huntouched.valueAt_cons key (next :: rest ++ tail)
      · have hvalue := ih hrest
        rw [hlands]
        simp only [List.cons_append, valueAt_cons _ key, getField, lookup_setField_self,
          Option.bind_some] at hvalue ⊢
        rw [hvalue]
        cases hlookup : lookup fields key with
        | some value => simp [← hinner, hlookup]
        | none =>
          obtain rfl : inner = .object [] := by simp [← hinner, hlookup]
          simp only [valueAt_empty_cons, Option.bind_none]

/-! ### All updates of a request -/

theorem intercalate_prefix (sep : List Char) (front rest : List (List Char)) :
    sep.intercalate front <+: sep.intercalate (front ++ rest) := by
  induction front with
  | nil => simp
  | cons a front ih =>
    cases front with
    | nil =>
      cases rest with
      | nil => exact List.prefix_refl _
      | cons b rest => simp
    | cons b front => simpa using ih

theorem keysOf_ne_nil (dotPath : String) : keysOf dotPath ≠ [] := by
  simp [keysOf]

/-- A path that goes through a protected field, or ends there, is refused. -/
theorem isBlocked_of_prefix {dotPath : String} {target : List String}
    (htarget : target ∈ protectedFields) (h : target <+: keysOf dotPath) :
    isBlocked dotPath = true := by
  obtain ⟨rest, hrest⟩ := h
  have hsplit : dotPath.toList.splitOn '.' = (target ++ rest).map String.toList := by
    rw [hrest, keysOf, List.map_map]
    simp
  have hpath : ['.'].intercalate (target.map String.toList) <+: dotPath.toList := by
    have hfront := intercalate_prefix ['.'] (target.map String.toList) (rest.map String.toList)
    rwa [← List.map_append, ← hsplit, List.intercalate_splitOn] at hfront
  have hjoined : ∀ target ∈ protectedFields, ∃ blocked ∈ blockedPaths,
      blocked.toList = ['.'].intercalate (target.map String.toList) := by
    decide +kernel
  obtain ⟨blocked, hmem, hblocked⟩ := hjoined target htarget
  rw [isBlocked, List.any_eq_true]
  exact ⟨blocked, hmem, decide_eq_true (hblocked ▸ hpath)⟩

/-- A path that leads to a protected field without reaching it is one of the two above both. -/
theorem mem_enclosing {keys target : List String} (htarget : target ∈ protectedFields)
    (hfront : keys <+: target) (hnil : keys ≠ []) (hne : keys ≠ target) : keys ∈ enclosing := by
  rw [← List.mem_inits] at hfront
  simp only [protectedFields, List.mem_cons, List.not_mem_nil, or_false] at htarget
  obtain rfl | rfl := htarget
  · simp_all [enclosing]
  · simp_all [enclosing]

theorem prefix_of_enclosing {keys target : List String} (hkeys : keys ∈ enclosing)
    (htarget : target ∈ protectedFields) : keys <+: target := by
  have hall : ∀ keys ∈ enclosing, ∀ target ∈ protectedFields, keys <+: target := by
    decide +kernel
  exact hall keys hkeys target htarget

/-- What one update makes of a protected field. -/
theorem valueAt_setNestedValue {dotPath : String} {target : List String}
    (htarget : target ∈ protectedFields) (hblocked : isBlocked dotPath = false)
    (h : setNestedValue unseen doc dotPath value = some doc') :
    valueAt doc' target =
      if keysOf dotPath ∈ enclosing ∧ lands unseen [] doc (keysOf dotPath) then
        valueAt value (target.drop (keysOf dotPath).length)
      else valueAt doc target := by
  by_cases henclosing : keysOf dotPath ∈ enclosing
  · obtain ⟨tail, htail⟩ := prefix_of_enclosing henclosing htarget
    have hvalue := valueAt_setNested_append h tail
    have hdrop : target.drop (keysOf dotPath).length = tail := by
      rw [← htail, List.drop_left]
    rw [htail] at hvalue
    simp only [hvalue, henclosing, true_and, hdrop]
  · have hthrough : ¬ target <+: keysOf dotPath := by
      intro hfront
      have hcontra := isBlocked_of_prefix htarget hfront
      rw [hblocked] at hcontra
      cases hcontra
    have hapart : ¬ keysOf dotPath <+: target := by
      intro hfront
      apply henclosing
      apply mem_enclosing htarget hfront (keysOf_ne_nil dotPath)
      rintro hsame
      exact hthrough (hsame ▸ List.prefix_refl _)
    simp only [henclosing, false_and, if_false]
    exact valueAt_setNested_apart h hapart hthrough

/-- The protected fields are what the last replacement of what is around them put there. -/
theorem valueAt_applyUpdates {unseen : Nat → Unseen} {n : Nat} {updates : List (String × Json)}
    {target : List String} (htarget : target ∈ protectedFields)
    (hblocked : ∀ update ∈ updates, isBlocked update.1 = false)
    (h : applyUpdates unseen n doc updates = some doc') :
    valueAt doc' target =
      match lastReplacement unseen n doc updates with
      | none => valueAt doc target
      | some (keys, value) => valueAt value (target.drop keys.length) := by
  induction updates generalizing n doc with
  | nil =>
    obtain rfl := Option.some.inj h
    rfl
  | cons update updates ih =>
    obtain ⟨dotPath, value⟩ := update
    rw [applyUpdates] at h
    cases hstep : setNestedValue (unseen n) doc dotPath value with
    | none => simp [hstep] at h
    | some mid =>
      simp only [hstep] at h
      have hrest := ih (fun update hmem => hblocked update (List.mem_cons_of_mem _ hmem)) h
      have hfirst := valueAt_setNestedValue htarget (hblocked _ List.mem_cons_self) hstep
      rw [hrest]
      simp only [lastReplacement, hstep]
      cases hlast : lastReplacement unseen (n + 1) mid updates with
      | some replacement => rfl
      | none =>
        rw [Option.none_or]
        by_cases hlands : keysOf dotPath ∈ enclosing ∧
            lands (unseen n) [] doc (keysOf dotPath) = true
        · simpa only [if_pos hlands] using hfirst
        · simpa only [if_neg hlands] using hfirst

/-! ### The route -/

/-- The updates put the same password and secret where they replace what is around them. -/
def Carries (env : Environment) (doc : Json) (updates : List (String × Json)) : Prop :=
  ∀ keys value, lastReplacement env.unseen 0 doc updates = some (keys, value) →
    ∀ target ∈ protectedFields, valueAt value (target.drop keys.length) = valueAt doc target

variable {Text : Type}

/-- The values of the protected fields are those of the file before, and a request that fails
leaves the file as it was. -/
def Guarded (format : Format Text) (before : Option Text) (result : Reply × Option Text) : Prop :=
  (∀ raw raw' doc doc', before = some raw → format.parse raw = some doc →
    result.2 = some raw' → format.parse raw' = some doc' →
    ∀ target ∈ protectedFields, valueAt doc' target = valueAt doc target) ∧
  (result.1.isError = true → result.2 = before)

/-- If the request gets as far as writing the file, then its updates carry the fields along, and
the row of the audit log is inserted unless the text of the file stays the same. -/
def Harmless (format : Format Text) (env : Environment) (file : Option Text) (body : Option Json) :
    Prop :=
  ∀ updates raw doc text, env.configPath = true →
    body.bind gatewayConfigUpdateSchema = some updates →
    (∀ update ∈ updates, isBlocked update.1 = false) → file = some raw →
    format.parse raw = some doc → rewrite format env updates raw = some text → env.writes = true →
    Carries env doc updates ∧ (env.audits = true ∨ text = raw)

/-- Updates carry the protected fields along exactly when these have the same values after all of
them. -/
theorem carries_iff {env : Environment} {updates : List (String × Json)}
    (hblocked : ∀ update ∈ updates, isBlocked update.1 = false)
    (happly : applyUpdates env.unseen 0 doc updates = some doc') :
    Carries env doc updates ↔
      ∀ target ∈ protectedFields, valueAt doc' target = valueAt doc target := by
  constructor
  · intro hcarries target htarget
    rw [valueAt_applyUpdates htarget hblocked happly]
    cases hlast : lastReplacement env.unseen 0 doc updates with
    | none => rfl
    | some replacement => exact hcarries replacement.1 replacement.2 hlast target htarget
  · intro hsame keys value hlast target htarget
    rw [← hsame target htarget, valueAt_applyUpdates htarget hblocked happly, hlast]

def passwordFile : Json :=
  .object [("gateway", .object [("port", .number 18789), ("auth", .object
    [("mode", .string "password"), ("password", .string "hunter2")])])]

/-- The one update replaces `gateway.auth` by an object with a mode only. -/
def modeUpdate : Json :=
  .object [("updates", .object [("gateway.auth", .object [("mode", .string "token")])])]

end MissionControl.Gateway.ProtectedFields
