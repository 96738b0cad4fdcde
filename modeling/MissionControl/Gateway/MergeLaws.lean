import MissionControl.Gateway.DeepMerge

/-!
The laws of `deepMerge`: merging again changes nothing, the leaves of the source are there in the
result, what no path of the source meets stays, and sources whose paths end apart can be merged in
either order.
-/

set_option autoImplicit false
set_option relaxedAutoImplicit false

namespace MissionControl.Gateway.MergeLaws

open MissionControl.Foundations.JsonValues
open MissionControl.Foundations.Schema (Json lookup)
open DeepMerge

/-! ### Paths -/

/-- `null`, a scalar or an array. -/
def leaf : Json → Bool
  | .object _ => false
  | _ => true

/-- A path of the value overwrites the path, or enters it. -/
def Touches (value : Json) (path : List String) : Prop :=
  ∃ other v, valueAt value other = some v ∧
    (path <+: other ∨ (other <+: path ∧ leaf v = true))

/-- The path leads to a leaf or to an empty object. -/
def Ends (value : Json) (path : List String) : Prop :=
  ∃ v, valueAt value path = some v ∧ (leaf v = true ∨ v = .object [])

/-- No path where one ends is on the way of the other. -/
def Apart (value value' : Json) : Prop :=
  ∀ path path', Ends value path → Ends value' path' → ¬ path <+: path' ∧ ¬ path' <+: path

mutual

/-- No property that a merge can get to is called `__proto__`. -/
def protoFree : Json → Bool
  | .object fields => protoFreeFields fields
  | _ => true

def protoFreeFields : List (String × Json) → Bool
  | [] => true
  | (key, value) :: fields =>
    decide (key ≠ "__proto__") && (protoFree value && protoFreeFields fields)

end

/-! ### What is claimed -/

structure Lawful (a b c : List (String × Json)) : Prop where
  again : deepMerge (deepMerge a b) b = deepMerge a b
  leaves : ∀ path v, valueAt (.object b) path = some v → leaf v = true →
    valueAt (.object (deepMerge a b)) path = some v
  kept : ∀ path v, valueAt (.object a) path = some v → ¬ Touches (.object b) path →
    valueAt (.object (deepMerge a b)) path = some v
  order : Apart (.object b) (.object c) →
    alike (.object (deepMerge (deepMerge a b) c)) (.object (deepMerge (deepMerge a c) b)) = true

variable {target : Option Json} {source : List (String × Json)} {key : String}

/-! ### One property -/

theorem lookup_proto {fields : List (String × Json)} (h : protoFreeFields fields = true) :
    lookup fields "__proto__" = none := by
  induction fields with
  | nil => rfl
  | cons field fields ih =>
    obtain ⟨k, v⟩ := field
    simp only [protoFreeFields, Bool.and_eq_true, decide_eq_true_eq] at h
    rw [lookup_cons, if_neg h.1]
    exact ih h.2.2

theorem protoFree_of_lookup {fields : List (String × Json)} {value : Json}
    (h : protoFreeFields fields = true) (hlookup : lookup fields key = some value) :
    protoFree value = true := by
  induction fields with
  | nil => simp at hlookup
  | cons field fields ih =>
    obtain ⟨k, v⟩ := field
    simp only [protoFreeFields, Bool.and_eq_true] at h
    rw [lookup_cons] at hlookup
    split at hlookup
    · exact Option.some.inj hlookup ▸ h.2.1
    · exact ih h.2.2 hlookup

/-- A property of a value that may be none. -/
def inner (target : Option Json) (key : String) : Option Json :=
  target.bind fun value => getField value key

theorem mergeValue_none (value : Json) : mergeValue none value = value := by
  cases value <;> rfl

theorem mergeValue_leaf {value : Json} (h : leaf value = true) : mergeValue target value = value := by
  cases value with
  | object fields => cases h
  | _ => rfl

/-- What a merge with an object makes of a property. -/
theorem getField_mergeValue (hnodup : (names source).Nodup)
    (hproto : protoFreeFields source = true) (target : Option Json) (key : String) :
    getField (mergeValue target (.object source)) key =
      ((lookup source key).map (mergeValue (inner target key))).or (inner target key) := by
  have hnone (hinner : inner target key = none) : lookup source key =
      ((lookup source key).map (mergeValue (inner target key))).or (inner target key) := by
    rw [hinner]
    cases hlookup : lookup source key with
    | none => rfl
    | some value => simp [mergeValue_none]
  cases target with
  | none => exact hnone rfl
  | some value =>
    cases value with
    | object fields =>
      have hkept {value : Json} (h : lookup source key = some value) : ¬ Lost fields key := by
        rintro ⟨rfl, -⟩
        rw [lookup_proto hproto] at h
        cases h
      show lookup (mergeFields fields fields source) key = _
      rw [lookup_mergeFields hnodup]
      cases hlookup : lookup source key with
      | none => simp [inner, getField]
      | some value => simp [inner, getField, hkept hlookup]
    | _ => exact hnone rfl

/-- A target, if there is one, in which no object has two properties of one name. -/
def DistinctTarget (target : Option Json) : Prop :=
  ∀ value, target = some value → distinct value = true

theorem distinctTarget_inner (h : DistinctTarget target) (key : String) :
    DistinctTarget (inner target key) := by
  intro v hv
  obtain ⟨value, rfl, hfield⟩ := Option.bind_eq_some_iff.mp hv
  exact distinct_getField (h value rfl) hfield

/-- A merge with an object is an object. -/
theorem exists_merged (hnodup : (names source).Nodup) (htarget : DistinctTarget target) :
    ∃ fields, mergeValue target (.object source) = .object fields ∧ (names fields).Nodup := by
  cases target with
  | none => exact ⟨source, rfl, hnodup⟩
  | some value =>
    cases value with
    | object fields =>
      exact ⟨_, rfl, nodup_mergeFields (nodup_of_distinct (htarget _ rfl))⟩
    | _ => exact ⟨source, rfl, hnodup⟩

theorem distinct_object_iff {fields : List (String × Json)} (h : (names fields).Nodup) :
    distinct (.object fields) = true ↔
      ∀ key value, lookup fields key = some value → distinct value = true := by
  constructor
  · intro hdistinct key value hlookup
    exact distinct_of_lookup (distinctFields_of_distinct hdistinct) hlookup
  · intro hvalues
    have hall : ∀ fields' : List (String × Json), fields' ⊆ fields →
        distinctFields fields' = true := by
      intro fields' hsub
      induction fields' with
      | nil => rfl
      | cons field fields' ih =>
        obtain ⟨hfield, hsub⟩ := List.cons_subset.mp hsub
        have hvalue := hvalues field.1 field.2 (lookup_of_mem h hfield)
        simp [distinctFields, hvalue, ih hsub]
    simp [distinct, h, hall fields (List.Subset.refl _)]

/-! ### Merging again -/

/-- A merge that assigns what is there changes nothing. -/
theorem mergeFields_self {fields : List (String × Json)} (hnodup : (names fields).Nodup)
    (h : ∀ field ∈ source, lookup fields field.1 =
      some (mergeValue (lookup fields field.1) field.2)) :
    mergeFields fields fields source = fields := by
  induction source with
  | nil => rfl
  | cons field source ih =>
    obtain ⟨k, v⟩ := field
    obtain ⟨hfield, hsource⟩ := List.forall_mem_cons.mp h
    have hkept : ¬ (k = "__proto__" ∧ lookup fields k = none) := by
      rintro ⟨-, hnone⟩
      rw [hfield] at hnone
      cases hnone
    rw [mergeFields, assignOwn, if_neg hkept, setField_lookup hnodup hfield]
    exact ih hsource

mutual

theorem mergeValue_again : ∀ (value : Json) (target : Option Json), distinct value = true →
    protoFree value = true → DistinctTarget target →
    mergeValue (some (mergeValue target value)) value = mergeValue target value
  | .object source, target, hvalue, hproto, htarget => by
    obtain ⟨fields, hmerged, hfields⟩ := exists_merged (nodup_of_distinct hvalue) htarget
    rw [hmerged]
    apply congrArg Json.object
    apply mergeFields_self hfields
    intro field hfield
    have hlookup : lookup fields field.1 = some (mergeValue (inner target field.1) field.2) := by
      have hget := getField_mergeValue (nodup_of_distinct hvalue) hproto target field.1
      rw [hmerged, lookup_of_mem (nodup_of_distinct hvalue) hfield] at hget
      exact hget
    rw [hlookup]
    exact congrArg some (mergeValue_again_of_mem source (distinctFields_of_distinct hvalue) hproto
      field hfield _ (distinctTarget_inner htarget _)).symm
  | .null, _, _, _, _ => rfl
  | .bool _, _, _, _, _ => rfl
  | .number _, _, _, _, _ => rfl
  | .string _, _, _, _, _ => rfl
  | .array _, _, _, _, _ => rfl

theorem mergeValue_again_of_mem : ∀ (fields : List (String × Json)),
    distinctFields fields = true → protoFreeFields fields = true → ∀ field ∈ fields,
    ∀ target, DistinctTarget target →
    mergeValue (some (mergeValue target field.2)) field.2 = mergeValue target field.2
  | [], _, _ => by simp
  | (_, value) :: fields, hdistinct, hproto => by
    simp only [distinctFields, Bool.and_eq_true] at hdistinct
    simp only [protoFreeFields, Bool.and_eq_true] at hproto
    rw [List.forall_mem_cons]
    constructor
    · intro target htarget
      exact mergeValue_again value target hdistinct.1 hproto.2.1 htarget
    · exact mergeValue_again_of_mem fields hdistinct.2 hproto.2.2

end

/-! ### What is at a path -/

/-- A value with something below it is an object. -/
theorem exists_object {value v : Json} {rest : List String}
    (h : valueAt value (key :: rest) = some v) :
    ∃ fields w, value = .object fields ∧ lookup fields key = some w ∧ valueAt w rest = some v := by
  obtain ⟨w, hfield, hrest⟩ := Option.bind_eq_some_iff.mp h
  cases value with
  | object fields => exact ⟨fields, w, rfl, hfield, hrest⟩
  | _ => cases hfield

theorem valueAt_mergeValue_source {path : List String} {value v : Json} (target : Option Json)
    (hvalue : distinct value = true) (hproto : protoFree value = true)
    (h : valueAt value path = some v) (hv : leaf v = true) :
    valueAt (mergeValue target value) path = some v := by
  induction path generalizing value target with
  | nil =>
    obtain rfl := Option.some.inj h
    rw [mergeValue_leaf hv, valueAt]
  | cons key rest ih =>
    obtain ⟨source, w, rfl, hlookup, hrest⟩ := exists_object h
    have hw := distinct_of_lookup (distinctFields_of_distinct hvalue) hlookup
    rw [valueAt, getField_mergeValue (nodup_of_distinct hvalue) hproto, hlookup, Option.map_some,
      Option.some_or, Option.bind_some]
    exact ih _ hw (protoFree_of_lookup hproto hlookup) hrest

theorem touches_cons {w : Json} {rest : List String} (hlookup : lookup source key = some w)
    (h : Touches w rest) : Touches (.object source) (key :: rest) := by
  obtain ⟨other, v, hv, hmeets⟩ := h
  refine ⟨key :: other, v, ?_, ?_⟩
  · rw [valueAt, getField, hlookup]
    exact hv
  · simpa [List.cons_prefix_cons] using hmeets

theorem valueAt_mergeValue_target {path : List String} {value old v : Json}
    (hvalue : distinct value = true) (hproto : protoFree value = true)
    (h : valueAt old path = some v) (hfree : ¬ Touches value path) :
    valueAt (mergeValue (some old) value) path = some v := by
  induction path generalizing value old with
  | nil => exact absurd ⟨[], value, rfl, .inl (List.prefix_refl _)⟩ hfree
  | cons key rest ih =>
    obtain ⟨fields, w, rfl, hlookup, hrest⟩ := exists_object h
    cases value with
    | object source =>
      rw [valueAt, getField_mergeValue (nodup_of_distinct hvalue) hproto]
      have hinner : inner (some (.object fields)) key = some w := hlookup
      cases hsource : lookup source key with
      | none =>
        rw [Option.map_none, Option.none_or, hinner, Option.bind_some]
        exact hrest
      | some u =>
        have hu := distinct_of_lookup (distinctFields_of_distinct hvalue) hsource
        rw [Option.map_some, Option.some_or, Option.bind_some, hinner]
        exact ih hu (protoFree_of_lookup hproto hsource) hrest
          fun htouch => hfree (touches_cons hsource htouch)
    | _ => exact absurd ⟨[], _, rfl, .inr ⟨List.nil_prefix, rfl⟩⟩ hfree

/-! ### The order of two sources -/

theorem exists_ends : ∀ value : Json, ∃ path, Ends value path
  | .object [] => ⟨[], _, rfl, .inr rfl⟩
  | .object ((key, value) :: fields) => by
    obtain ⟨path, v, hv, hend⟩ := exists_ends value
    refine ⟨key :: path, v, ?_, hend⟩
    rw [valueAt, getField, lookup_cons, if_pos rfl]
    exact hv
  | .null => ⟨[], _, rfl, .inl rfl⟩
  | .bool _ => ⟨[], _, rfl, .inl rfl⟩
  | .number _ => ⟨[], _, rfl, .inl rfl⟩
  | .string _ => ⟨[], _, rfl, .inl rfl⟩
  | .array _ => ⟨[], _, rfl, .inl rfl⟩

theorem ends_cons {w : Json} {path : List String} (hlookup : lookup source key = some w)
    (h : Ends w path) : Ends (.object source) (key :: path) := by
  obtain ⟨v, hv, hend⟩ := h
  refine ⟨v, ?_, hend⟩
  rw [valueAt, getField, hlookup]
  exact hv

theorem Apart.inner {first second : List (String × Json)} {v w : Json}
    (h : Apart (.object first) (.object second)) (hfirst : lookup first key = some v)
    (hsecond : lookup second key = some w) : Apart v w := by
  intro path path' hpath hpath'
  have hkeyed := h _ _ (ends_cons hfirst hpath) (ends_cons hsecond hpath')
  simpa [List.cons_prefix_cons] using hkeyed

/-- Of two values whose paths end apart, neither ends at once. -/
theorem Apart.objects {first second : Json} (h : Apart first second) :
    leaf first = false ∧ leaf second = false := by
  obtain ⟨path, hpath⟩ := exists_ends first
  obtain ⟨path', hpath'⟩ := exists_ends second
  constructor
  · by_contra hleaf
    have hroot : Ends first [] := ⟨first, rfl, .inl (Bool.not_eq_false _ ▸ hleaf)⟩
    exact (h [] path' hroot hpath').1 List.nil_prefix
  · by_contra hleaf
    have hroot : Ends second [] := ⟨second, rfl, .inl (Bool.not_eq_false _ ▸ hleaf)⟩
    exact (h path [] hpath hroot).2 List.nil_prefix

mutual

theorem distinct_mergeValue : ∀ (value : Json) (target : Option Json), distinct value = true →
    protoFree value = true → DistinctTarget target → distinct (mergeValue target value) = true
  | .object source, target, hvalue, hproto, htarget => by
    obtain ⟨fields, hmerged, hfields⟩ := exists_merged (nodup_of_distinct hvalue) htarget
    rw [hmerged, distinct_object_iff hfields]
    intro key v hlookup
    have hget := getField_mergeValue (nodup_of_distinct hvalue) hproto target key
    rw [hmerged, getField, hlookup] at hget
    cases hsource : lookup source key with
    | none =>
      rw [hsource, Option.map_none, Option.none_or] at hget
      exact distinctTarget_inner htarget key v hget.symm
    | some u =>
      rw [hsource, Option.map_some, Option.some_or] at hget
      obtain rfl := Option.some.inj hget
      exact distinct_mergeValue_of_mem source (distinctFields_of_distinct hvalue) hproto _
        (mem_of_lookup hsource) _ (distinctTarget_inner htarget key)
  | .null, _, h, _, _ => h
  | .bool _, _, h, _, _ => h
  | .number _, _, h, _, _ => h
  | .string _, _, h, _, _ => h
  | .array _, _, h, _, _ => h

theorem distinct_mergeValue_of_mem : ∀ (fields : List (String × Json)),
    distinctFields fields = true → protoFreeFields fields = true → ∀ field ∈ fields,
    ∀ target, DistinctTarget target → distinct (mergeValue target field.2) = true
  | [], _, _ => by simp
  | (_, value) :: fields, hdistinct, hproto => by
    simp only [distinctFields, Bool.and_eq_true] at hdistinct
    simp only [protoFreeFields, Bool.and_eq_true] at hproto
    rw [List.forall_mem_cons]
    constructor
    · intro target htarget
      exact distinct_mergeValue value target hdistinct.1 hproto.2.1 htarget
    · exact distinct_mergeValue_of_mem fields hdistinct.2 hproto.2.2

end

/-- Both have the property, with alike values, or neither. -/
def AlikeAt (value value' : Option Json) : Prop :=
  (value = none ∧ value' = none) ∨
    ∃ v v', value = some v ∧ value' = some v' ∧ alike v v' = true

theorem AlikeAt.refl {value : Option Json} (h : DistinctTarget value) : AlikeAt value value := by
  cases value with
  | none => exact .inl ⟨rfl, rfl⟩
  | some v => exact .inr ⟨v, v, rfl, rfl, alike_refl v (h v rfl)⟩

theorem alike_of_alikeAt {fields fields' : List (String × Json)} (hnodup : (names fields).Nodup)
    (h : ∀ key, AlikeAt (lookup fields key) (lookup fields' key)) :
    alike (.object fields) (.object fields') = true := by
  rw [alike_object hnodup]
  constructor
  · intro key hkey
    obtain ⟨v', hv'⟩ := exists_lookup hkey
    rcases h key with ⟨-, hnone⟩ | ⟨v, -, hv, -⟩
    · rw [hv'] at hnone
      cases hnone
    · exact mem_names_of_lookup hv
  · intro key v hv
    rcases h key with ⟨hnone, -⟩ | ⟨w, v', hw, hv', halike⟩
    · rw [hv] at hnone
      cases hnone
    · rw [hv] at hw
      exact ⟨v', hv', Option.some.inj hw ▸ halike⟩

theorem distinctTarget_some {value : Json} (h : distinct value = true) :
    DistinctTarget (some value) := by
  intro v hv
  exact Option.some.inj hv ▸ h

/-- What two merges make of a property. -/
theorem getField_mergeValue_twice {first second : List (String × Json)}
    (hfirst : distinct (.object first) = true) (hsecond : distinct (.object second) = true)
    (hproto : protoFreeFields first = true) (hproto' : protoFreeFields second = true)
    (target : Option Json) (key : String) :
    getField (mergeValue (some (mergeValue target (.object first))) (.object second)) key =
      ((lookup second key).map (mergeValue
        (((lookup first key).map (mergeValue (inner target key))).or (inner target key)))).or
        (((lookup first key).map (mergeValue (inner target key))).or (inner target key)) := by
  have hinner : inner (some (mergeValue target (.object first))) key =
      ((lookup first key).map (mergeValue (inner target key))).or (inner target key) :=
    getField_mergeValue (nodup_of_distinct hfirst) hproto target key
  rw [getField_mergeValue (nodup_of_distinct hsecond) hproto', hinner]

mutual

theorem mergeValue_comm : ∀ (first second : Json) (target : Option Json),
    distinct first = true → distinct second = true → protoFree first = true →
    protoFree second = true → DistinctTarget target → Apart first second →
    alike (mergeValue (some (mergeValue target first)) second)
      (mergeValue (some (mergeValue target second)) first) = true
  | .object first, .object second, target, hfirst, hsecond, hproto, hproto', htarget, hapart => by
    have hmerged := distinct_mergeValue _ target hfirst hproto htarget
    have hmerged' := distinct_mergeValue _ target hsecond hproto' htarget
    obtain ⟨fields, hfields, hnodup⟩ := exists_merged (nodup_of_distinct hsecond)
      (distinctTarget_some hmerged)
    obtain ⟨fields', hfields', -⟩ := exists_merged (nodup_of_distinct hfirst)
      (distinctTarget_some hmerged')
    rw [hfields, hfields']
    apply alike_of_alikeAt hnodup
    intro key
    have hget := getField_mergeValue_twice hfirst hsecond hproto hproto' target key
    have hget' := getField_mergeValue_twice hsecond hfirst hproto' hproto target key
    rw [hfields, getField] at hget
    rw [hfields', getField] at hget'
    rw [hget, hget']
    have hinner := distinctTarget_inner htarget key
    cases hu : lookup first key with
    | none =>
      cases hw : lookup second key with
      | none => exact .refl hinner
      | some w =>
        have hdistinct := distinct_of_lookup (distinctFields_of_distinct hsecond) hw
        exact .refl (distinctTarget_some
          (distinct_mergeValue w _ hdistinct (protoFree_of_lookup hproto' hw) hinner))
    | some u =>
      cases hw : lookup second key with
      | none =>
        have hdistinct := distinct_of_lookup (distinctFields_of_distinct hfirst) hu
        exact .refl (distinctTarget_some
          (distinct_mergeValue u _ hdistinct (protoFree_of_lookup hproto hu) hinner))
      | some w =>
        have hdistinct := distinct_of_lookup (distinctFields_of_distinct hsecond) hw
        exact .inr ⟨_, _, rfl, rfl, mergeValue_comm_of_mem first
          (distinctFields_of_distinct hfirst) hproto (key, u) (mem_of_lookup hu) w _ hdistinct
          (protoFree_of_lookup hproto' hw) hinner (hapart.inner hu hw)⟩
  | .object _, .null, _, _, _, _, _, _, hapart => absurd hapart.objects.2 (by decide)
  | .object _, .bool _, _, _, _, _, _, _, hapart => absurd hapart.objects.2 (by simp [leaf])
  | .object _, .number _, _, _, _, _, _, _, hapart => absurd hapart.objects.2 (by simp [leaf])
  | .object _, .string _, _, _, _, _, _, _, hapart => absurd hapart.objects.2 (by simp [leaf])
  | .object _, .array _, _, _, _, _, _, _, hapart => absurd hapart.objects.2 (by simp [leaf])
  | .null, _, _, _, _, _, _, _, hapart => absurd hapart.objects.1 (by decide)
  | .bool _, _, _, _, _, _, _, _, hapart => absurd hapart.objects.1 (by simp [leaf])
  | .number _, _, _, _, _, _, _, _, hapart => absurd hapart.objects.1 (by simp [leaf])
  | .string _, _, _, _, _, _, _, _, hapart => absurd hapart.objects.1 (by simp [leaf])
  | .array _, _, _, _, _, _, _, _, hapart => absurd hapart.objects.1 (by simp [leaf])

theorem mergeValue_comm_of_mem : ∀ (fields : List (String × Json)),
    distinctFields fields = true → protoFreeFields fields = true → ∀ field ∈ fields,
    ∀ (second : Json) (target : Option Json), distinct second = true →
    protoFree second = true → DistinctTarget target → Apart field.2 second →
    alike (mergeValue (some (mergeValue target field.2)) second)
      (mergeValue (some (mergeValue target second)) field.2) = true
  | [], _, _ => by simp
  | (_, value) :: fields, hdistinct, hproto => by
    simp only [distinctFields, Bool.and_eq_true] at hdistinct
    simp only [protoFreeFields, Bool.and_eq_true] at hproto
    rw [List.forall_mem_cons]
    constructor
    · intro second target hsecond hproto' htarget hapart
      exact mergeValue_comm value second target hdistinct.1 hsecond hproto.2.1 hproto' htarget
        hapart
    · exact mergeValue_comm_of_mem fields hdistinct.2 hproto.2.2

end

/-- The laws hold of all objects; only the sources have to be without `__proto__`. -/
theorem deepMerge_lawful {a b c : List (String × Json)} (ha : distinct (.object a) = true)
    (hb : distinct (.object b) = true) (hc : distinct (.object c) = true)
    (hprotoB : protoFree (.object b) = true) (hprotoC : protoFree (.object c) = true) :
    Lawful a b c where
  again := by
    have hagain := mergeValue_again (.object b) (some (.object a)) hb hprotoB
      (distinctTarget_some ha)
    exact Json.object.inj hagain
  leaves path v hpath hleaf :=
    valueAt_mergeValue_source (some (.object a)) hb hprotoB hpath hleaf
  kept path v hpath hfree := valueAt_mergeValue_target hb hprotoB hpath hfree
  order hapart :=
    mergeValue_comm (.object b) (.object c) (some (.object a)) hb hc hprotoB hprotoC
      (distinctTarget_some ha) hapart

theorem model_and_tools_merge : Lawful
    [("model", .object [("primary", .string "gpt"), ("fallbacks", .array [])])]
    [("model", .object [("primary", .string "claude")])]
    [("tools", .object [("allow", .array [.string "read"])])] :=
  deepMerge_lawful (by decide +kernel) (by decide +kernel) (by decide +kernel)
    (by decide +kernel) (by decide +kernel)

end MissionControl.Gateway.MergeLaws
