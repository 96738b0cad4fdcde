import MissionControl.Foundations.JsonValues

/-!
The merge of two objects: a property of the source takes the place of the target's, except where
both are objects, which are merged in turn. What the target has besides is kept.
-/

set_option autoImplicit false
set_option relaxedAutoImplicit false

namespace MissionControl.Gateway.DeepMerge

open MissionControl.Foundations.JsonValues
open MissionControl.Foundations.Schema (Json lookup)

/-- `result[key] = value` on an object made by a spread. Without a property of its own that is
called `__proto__`, it takes the assignment to that name for its prototype. -/
def assignOwn (result : List (String × Json)) (key : String) (value : Json) : List (String × Json) :=
  if key = "__proto__" ∧ lookup result key = none then result else setField result key value

mutual

/-- What a merge puts in the place of a value. -/
def mergeValue (target : Option Json) : Json → Json
  | .object source =>
    match target with
    | some (.object target) => .object (mergeFields target target source)
    | _ => .object source
  | value => value

/-- The loop of `deepMerge` over the properties of the source. -/
def mergeFields (target result : List (String × Json)) :
    List (String × Json) → List (String × Json)
  | [] => result
  | (key, value) :: source =>
    mergeFields target (assignOwn result key (mergeValue (lookup target key) value)) source

end

/-- `deepMerge` of two objects. -/
def deepMerge (target source : List (String × Json)) : List (String × Json) :=
  mergeFields target target source

/-- What becomes of a value if a source has another one for it, or none. -/
def overlay (value : Json) : Option Json → Json
  | none => value
  | some source => mergeValue (some value) source

variable {target result source : List (String × Json)} {key : String}

/-! ### The loop -/

/-- The assignment is lost. -/
def Lost (result : List (String × Json)) (key : String) : Prop :=
  key = "__proto__" ∧ lookup result key = none

instance decidableLost (result : List (String × Json)) (key : String) :
    Decidable (Lost result key) :=
  inferInstanceAs (Decidable (_ ∧ _))

theorem lookup_assignOwn (result : List (String × Json)) (key other : String) (value : Json) :
    lookup (assignOwn result key value) other =
      if key = other ∧ ¬ Lost result key then some value else lookup result other := by
  unfold assignOwn Lost
  by_cases hlost : key = "__proto__" ∧ lookup result key = none
  · rw [if_pos hlost, if_neg]
    exact fun h => h.2 hlost
  · rw [if_neg hlost, lookup_setField]
    by_cases hother : key = other
    · rw [if_pos hother, if_pos ⟨hother, hlost⟩]
    · rw [if_neg hother, if_neg fun h => hother h.1]

theorem mem_names_assignOwn {other : String} {value : Json} :
    other ∈ names (assignOwn result key value) ↔
      (other = key ∧ ¬ Lost result key) ∨ other ∈ names result := by
  unfold assignOwn Lost
  split
  · rename_i hlost
    constructor
    · exact .inr
    · rintro (⟨-, hcontra⟩ | h)
      · exact absurd hlost hcontra
      · exact h
  · rename_i hlost
    simp only [mem_names_setField, hlost, not_false_eq_true, and_true]

theorem nodup_assignOwn (h : (names result).Nodup) (key : String) (value : Json) :
    (names (assignOwn result key value)).Nodup := by
  unfold assignOwn
  split
  · exact h
  · exact nodup_setField h key value

theorem nodup_mergeFields (h : (names result).Nodup) :
    (names (mergeFields target result source)).Nodup := by
  induction source generalizing result with
  | nil => exact h
  | cons field source ih =>
    obtain ⟨k, v⟩ := field
    exact ih (nodup_assignOwn h k _)

/-- A merge gives every property of the source its value, unless the assignment is lost. -/
theorem lookup_mergeFields (hnodup : (names source).Nodup) (key : String) :
    lookup (mergeFields target result source) key =
      match lookup source key with
      | none => lookup result key
      | some value =>
        if Lost result key then none else some (mergeValue (lookup target key) value) := by
  induction source generalizing result with
  | nil => simp [mergeFields]
  | cons field source ih =>
    obtain ⟨k, v⟩ := field
    obtain ⟨hk, hnodup⟩ := List.nodup_cons.mp hnodup
    rw [mergeFields, ih hnodup, lookup_cons]
    by_cases hkey : k = key
    · subst hkey
      rw [lookup_eq_none_iff.mpr hk, if_pos rfl]
      simp only [lookup_assignOwn, true_and]
      by_cases hlost : Lost result k
      · simp [hlost, hlost.2]
      · simp [hlost]
    · rw [if_neg hkey]
      have hsame : lookup (assignOwn result k (mergeValue (lookup target k) v)) key =
          lookup result key := by
        rw [lookup_assignOwn, if_neg fun h => hkey h.1]
      have hlost : Lost (assignOwn result k (mergeValue (lookup target k) v)) key ↔
          Lost result key := by
        simp only [Lost, hsame]
      simp only [hsame, hlost]

/-! ### One merge -/

theorem nodup_deepMerge (h : (names target).Nodup) : (names (deepMerge target source)).Nodup :=
  nodup_mergeFields h

theorem deepMerge_nil (target : List (String × Json)) : deepMerge target [] = target := rfl

/-- A property of the target is overlaid. -/
theorem lookup_deepMerge {value : Json} (hnodup : (names source).Nodup)
    (h : lookup target key = some value) :
    lookup (deepMerge target source) key = some (overlay value (lookup source key)) := by
  rw [deepMerge, lookup_mergeFields hnodup]
  cases hsource : lookup source key with
  | none => exact h
  | some v =>
    have hkept : ¬ Lost target key := by
      rintro ⟨-, hnone⟩
      rw [h] at hnone
      cases hnone
    simp only [if_neg hkept, h, overlay]

/-- A property that the source does not have is left alone. -/
theorem lookup_deepMerge_of_none (hnodup : (names source).Nodup) (h : lookup source key = none) :
    lookup (deepMerge target source) key = lookup target key := by
  rw [deepMerge, lookup_mergeFields hnodup, h]

theorem mem_names_deepMerge (hnodup : (names source).Nodup) :
    key ∈ names (deepMerge target source) ↔
      key ∈ names target ∨ (key ∈ names source ∧ key ≠ "__proto__") := by
  by_cases htarget : key ∈ names target
  · obtain ⟨value, hvalue⟩ := exists_lookup htarget
    have hmerged := mem_names_of_lookup (lookup_deepMerge hnodup hvalue)
    simp [htarget, hmerged]
  · have hnone := lookup_eq_none_iff.mpr htarget
    rw [← not_iff_not, ← lookup_eq_none_iff, deepMerge, lookup_mergeFields hnodup]
    cases hsource : lookup source key with
    | none =>
      have hnot := lookup_eq_none_iff.mp hsource
      simp [hnone, htarget, hnot]
    | some v =>
      have hmem := mem_names_of_lookup hsource
      by_cases hproto : key = "__proto__"
      · subst hproto
        simp [Lost, hnone, htarget]
      · simp [Lost, hproto, htarget, hmem]

/-! ### A merge that undoes another one -/

/-- The properties of a source that is none, or an object. -/
def sourceFields : Option Json → Option (List (String × Json))
  | none => some []
  | some (.object fields) => some fields
  | some _ => none

/-- A source adds no property. -/
def adds (source target : List (String × Json)) : Bool :=
  !decide (∀ key ∈ names source, key ∈ names target ∨ key = "__proto__")

/-- The last of two sources is the value itself. -/
def repeats (value : Json) (first second : Option Json) : Bool :=
  match second.or first with
  | none => true
  | some last => alike last value

mutual

/-- Two sources, one after the other, leave the value as it is: neither adds a property, and where
one of them replaces a value, the last one that does has the same value. -/
def undone : Json → Option Json → Option Json → Bool
  | .object fields, first, second =>
    match sourceFields first, sourceFields second with
    | some first', some second' =>
      !adds first' fields && !adds second' fields && undoneFields fields first' second'
    | _, _ => repeats (.object fields) first second
  | value, first, second => repeats value first second

def undoneFields : List (String × Json) → List (String × Json) → List (String × Json) → Bool
  | [], _, _ => true
  | (key, value) :: fields, first, second =>
    undone value (lookup first key) (lookup second key) && undoneFields fields first second

end

theorem overlay_object {source : Option Json} {fields : List (String × Json)}
    (h : sourceFields source = some fields) :
    overlay (.object target) source = .object (deepMerge target fields) := by
  cases source with
  | none =>
    obtain rfl := Option.some.inj h
    rfl
  | some value =>
    cases value with
    | object inner =>
      obtain rfl := Option.some.inj h
      rfl
    | _ => cases h

theorem distinct_sourceFields {source : Option Json} {fields : List (String × Json)}
    (hdistinct : ∀ value, source = some value → distinct value = true)
    (h : sourceFields source = some fields) : distinct (.object fields) = true := by
  cases source with
  | none =>
    obtain rfl := Option.some.inj h
    rfl
  | some value =>
    cases value with
    | object inner =>
      obtain rfl := Option.some.inj h
      exact hdistinct _ rfl
    | _ => cases h

theorem undone_of_none {value : Json} (h : sourceFields (some value) = none)
    (first second : Option Json) : undone value first second = repeats value first second := by
  cases value with
  | object fields => cases h
  | _ => simp [undone]

theorem mergeValue_of_source {target : Option Json} {source : Json}
    (h : sourceFields (some source) = none) : mergeValue target source = source := by
  cases source with
  | object fields => cases h
  | _ => rfl

theorem mergeValue_of_target {value : Json} (h : sourceFields (some value) = none) (source : Json) :
    mergeValue (some value) source = source := by
  cases value with
  | object fields => cases h
  | _ => cases source <;> rfl

theorem alike_object_of_none {value : Json} (h : sourceFields (some value) = none)
    (fields : List (String × Json)) : alike (.object fields) value = false := by
  cases value with
  | object fields => cases h
  | _ => rfl

/-- Unless objects are merged all along, the last source is what remains. -/
theorem repeats_eq {value : Json} {first second : Option Json} (hdistinct : distinct value = true)
    (h : sourceFields (some value) = none ∨ sourceFields first = none ∨
      sourceFields second = none) :
    repeats value first second = alike (overlay (overlay value first) second) value := by
  cases second with
  | none =>
    cases first with
    | none => exact (alike_refl value hdistinct).symm
    | some n =>
      obtain hvalue | hn | hcontra := h
      · simp only [overlay, mergeValue_of_target hvalue, repeats, Option.none_or]
      · simp only [overlay, mergeValue_of_source hn, repeats, Option.none_or]
      · cases hcontra
  | some o =>
    simp only [repeats, Option.some_or]
    cases ho : sourceFields (some o) with
    | none => simp only [overlay, mergeValue_of_source ho]
    | some oFields =>
      cases first with
      | none =>
        obtain hvalue | hcontra | hcontra := h
        · simp only [overlay, mergeValue_of_target hvalue]
        · cases hcontra
        · rw [ho] at hcontra
          cases hcontra
      | some n =>
        cases hn : sourceFields (some n) with
        | none =>
          simp only [overlay, mergeValue_of_source hn, mergeValue_of_target hn]
        | some nFields =>
          have hvalue : sourceFields (some value) = none := by
            simpa only [hn, ho, reduceCtorEq, or_false] using h
          have hmerged : overlay (overlay value (some n)) (some o) =
              .object (deepMerge nFields oFields) := by
            simp only [overlay, mergeValue_of_target hvalue]
            cases n with
            | object nFields' =>
              obtain rfl := Option.some.inj hn
              exact overlay_object ho
            | _ => cases hn
          rw [hmerged, alike_object_of_none hvalue]
          cases o with
          | object oFields' => exact alike_object_of_none hvalue oFields'
          | _ => cases ho

theorem adds_eq_false {source target : List (String × Json)} :
    adds source target = false ↔
      ∀ key ∈ names source, key ≠ "__proto__" → key ∈ names target := by
  simp only [adds, Bool.not_eq_false', decide_eq_true_eq]
  constructor
  · intro h key hkey hne
    exact (h key hkey).resolve_right hne
  · intro h key hkey
    by_cases hne : key = "__proto__"
    · exact .inr hne
    · exact .inl (h key hkey hne)

/-- Two merges leave an object as it is exactly when no property is new and each keeps its
value. -/
theorem merged_twice_alike_iff {fields first second : List (String × Json)}
    (hfields : (names fields).Nodup) (hfirst : (names first).Nodup)
    (hsecond : (names second).Nodup) :
    alike (.object (deepMerge (deepMerge fields first) second)) (.object fields) = true ↔
      (adds first fields = false ∧ adds second fields = false) ∧
      ∀ field ∈ fields, alike (overlay (overlay field.2 (lookup first field.1))
        (lookup second field.1)) field.2 = true := by
  have hmerged : ∀ key value, lookup fields key = some value →
      lookup (deepMerge (deepMerge fields first) second) key =
        some (overlay (overlay value (lookup first key)) (lookup second key)) :=
    fun key value h => lookup_deepMerge hsecond (lookup_deepMerge hfirst h)
  rw [alike_object (nodup_deepMerge (nodup_deepMerge hfields)), adds_eq_false, adds_eq_false]
  constructor
  · rintro ⟨-, hvalues⟩
    have hnames : ∀ key ∈ names (deepMerge (deepMerge fields first) second), key ∈ names fields := by
      intro key hkey
      obtain ⟨v, hv⟩ := exists_lookup hkey
      obtain ⟨v', hv', -⟩ := hvalues key v hv
      exact mem_names_of_lookup hv'
    refine ⟨⟨?_, ?_⟩, ?_⟩
    · intro key hkey hne
      apply hnames
      rw [mem_names_deepMerge hsecond, mem_names_deepMerge hfirst]
      exact .inl (.inr ⟨hkey, hne⟩)
    · intro key hkey hne
      apply hnames
      rw [mem_names_deepMerge hsecond]
      exact .inr ⟨hkey, hne⟩
    · intro field hfield
      have hlookup := lookup_of_mem hfields hfield
      obtain ⟨v', hv', halike⟩ := hvalues field.1 _ (hmerged field.1 field.2 hlookup)
      rw [hlookup] at hv'
      exact Option.some.inj hv' ▸ halike
  · rintro ⟨⟨hnew, hnew'⟩, hvalues⟩
    constructor
    · intro key hkey
      rw [mem_names_deepMerge hsecond, mem_names_deepMerge hfirst]
      exact .inl (.inl hkey)
    · intro key v hv
      have hkey : key ∈ names fields := by
        have hmem := mem_names_of_lookup hv
        rw [mem_names_deepMerge hsecond, mem_names_deepMerge hfirst] at hmem
        obtain (hmem | ⟨hmem, hne⟩) | ⟨hmem, hne⟩ := hmem
        · exact hmem
        · exact hnew key hmem hne
        · exact hnew' key hmem hne
      obtain ⟨value, hvalue⟩ := exists_lookup hkey
      refine ⟨value, hvalue, ?_⟩
      rw [hmerged key value hvalue] at hv
      rw [← Option.some.inj hv]
      exact hvalues (key, value) (mem_of_lookup hvalue)

mutual

/-- Two merges leave a value as it is exactly when the second source undoes the first. -/
theorem undone_iff : ∀ (value : Json) (first second : Option Json), distinct value = true →
    (∀ v, first = some v → distinct v = true) → (∀ v, second = some v → distinct v = true) →
    (undone value first second = true ↔
      alike (overlay (overlay value first) second) value = true)
  | .null, _, _, hvalue, _, _ => by rw [undone_of_none rfl, repeats_eq hvalue (.inl rfl)]
  | .bool _, _, _, hvalue, _, _ => by rw [undone_of_none rfl, repeats_eq hvalue (.inl rfl)]
  | .number _, _, _, hvalue, _, _ => by rw [undone_of_none rfl, repeats_eq hvalue (.inl rfl)]
  | .string _, _, _, hvalue, _, _ => by rw [undone_of_none rfl, repeats_eq hvalue (.inl rfl)]
  | .array _, _, _, hvalue, _, _ => by rw [undone_of_none rfl, repeats_eq hvalue (.inl rfl)]
  | .object fields, first, second, hvalue, hfirst, hsecond => by
    cases hn : sourceFields first with
    | none => simp only [undone, hn, repeats_eq hvalue (.inr (.inl hn))]
    | some n =>
      cases ho : sourceFields second with
      | none => simp only [undone, hn, ho, repeats_eq hvalue (.inr (.inr ho))]
      | some o =>
        have hnDistinct := distinct_sourceFields hfirst hn
        have hoDistinct := distinct_sourceFields hsecond ho
        have hrest := undoneFields_iff fields n o (distinctFields_of_distinct hvalue)
          (distinctFields_of_distinct hnDistinct) (distinctFields_of_distinct hoDistinct)
        rw [overlay_object hn, overlay_object ho, merged_twice_alike_iff (nodup_of_distinct hvalue)
          (nodup_of_distinct hnDistinct) (nodup_of_distinct hoDistinct), ← hrest]
        simp only [undone, hn, ho, Bool.and_eq_true, Bool.not_eq_true']

theorem undoneFields_iff : ∀ (fields first second : List (String × Json)),
    distinctFields fields = true → distinctFields first = true → distinctFields second = true →
    (undoneFields fields first second = true ↔
      ∀ field ∈ fields, alike (overlay (overlay field.2 (lookup first field.1))
        (lookup second field.1)) field.2 = true)
  | [], _, _, _, _, _ => by simp [undoneFields]
  | (key, value) :: fields, first, second, hfields, hfirst, hsecond => by
    simp only [distinctFields, Bool.and_eq_true] at hfields
    have hvalue := undone_iff value (lookup first key) (lookup second key) hfields.1
      (fun v hv => distinct_of_lookup hfirst hv) (fun v hv => distinct_of_lookup hsecond hv)
    have hrest := undoneFields_iff fields first second hfields.2 hfirst hsecond
    simp only [undoneFields, Bool.and_eq_true, hvalue, hrest, List.forall_mem_cons]

end

end MissionControl.Gateway.DeepMerge
