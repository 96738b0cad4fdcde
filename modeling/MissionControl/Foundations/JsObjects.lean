import Mathlib.Algebra.Order.Field.Rat
import Mathlib.Data.List.Nodup
import Mathlib.Logic.Function.Basic

/-!
Objects of JavaScript with their prototypes, as far as a program reads, adds to and asks for
properties under any name. The objects of the program are ordinary ones; those of the language can
be reached from them and changed through them.
-/

set_option autoImplicit false
set_option relaxedAutoImplicit false

namespace MissionControl.Foundations.JsObjects

/-! ### Objects -/

/-- Where a function of the language is found. -/
inductive Holder where
  | global
  | object
  | objectPrototype
  | functionPrototype
  deriving DecidableEq

/-- An object: of the language, or one of the program's own. -/
inductive Ref (ι : Type) where
  | objectPrototype
  | functionPrototype
  | builtin (holder : Holder) (name : String)
  | own (i : ι)
  deriving DecidableEq

inductive Value (ι : Type) where
  | undefined
  | null
  | number (q : ℚ)
  | nan
  | text (s : String)
  | object (r : Ref ι)
  deriving DecidableEq

/-- An own property: one that can be written, one that cannot, the accessor `__proto__`, or an
accessor that throws. -/
inductive Property (ι : Type) where
  | value (v : Value ι)
  | fixed (v : Value ι)
  | proto
  | restricted
  deriving DecidableEq

abbrev Properties (ι : Type) := List (String × Property ι)

abbrev Heap (ι : Type) := Ref ι → Properties ι

variable {ι : Type}

/-- Write an own property where it is, or at the end. -/
def write (props : Properties ι) (k : String) (p : Property ι) : Properties ι :=
  if k ∈ props.map Prod.fst then props.map fun e => if e.1 = k then (k, p) else e
  else props ++ [(k, p)]

def store [DecidableEq ι] (h : Heap ι) (r : Ref ι) (k : String) (v : Value ι) : Heap ι :=
  Function.update h r (write (h r) k (.value v))

/-- `[[Prototype]]`. -/
def proto : Ref ι → Option (Ref ι)
  | .objectPrototype => none
  | .functionPrototype => some .objectPrototype
  | .builtin _ _ => some .functionPrototype
  | .own _ => some .objectPrototype

/-- The objects in which a property is looked up. -/
def chain : Ref ι → List (Ref ι)
  | .objectPrototype => [.objectPrototype]
  | .functionPrototype => [.functionPrototype, .objectPrototype]
  | .builtin holder name => [.builtin holder name, .functionPrototype, .objectPrototype]
  | .own i => [.own i, .objectPrototype]

def find (h : Heap ι) (r : Ref ι) (k : String) : Option (Property ι) :=
  (chain r).findSome? fun o => (h o).lookup k

/-- `k in r`. -/
def has (h : Heap ι) (r : Ref ι) (k : String) : Bool := (find h r k).isSome

/-- `r[k]`, which may throw. -/
def read (h : Heap ι) (r : Ref ι) (k : String) : Option (Value ι) :=
  match find h r k with
  | none => some .undefined
  | some (.value v) => some v
  | some (.fixed v) => some v
  | some .proto => some ((proto r).elim .null .object)
  | some .restricted => none

/-- `r[k] = v`, which may throw. No object is ever written under `__proto__`, and the accessor
ignores anything else. -/
def put [DecidableEq ι] (h : Heap ι) (r : Ref ι) (k : String) (v : Value ι) : Option (Heap ι) :=
  match find h r k with
  | none => some (store h r k v)
  | some (.value _) => some (store h r k v)
  | some (.fixed _) => none
  | some .proto => some h
  | some .restricted => none

/-! ### Values -/

def toBoolean : Value ι → Bool
  | .undefined => false
  | .null => false
  | .number q => decide (q ≠ 0)
  | .nan => false
  | .text s => decide (s ≠ "")
  | .object _ => true

/-- What `Function.prototype.toString` answers. -/
def functionText : Ref ι → String
  | .builtin _ name => "function " ++ name ++ "() \x7b [native code] \x7d"
  | _ => "function () \x7b [native code] \x7d"

/-- The primitive value of a value, which an object has from its `toString`: what is found under
`valueOf` answers with the object, or is no function. -/
def toPrimitive (h : Heap ι) : Value ι → Option (Value ι)
  | .object r =>
    match read h r "toString" with
    | some (.object (.builtin .functionPrototype "toString")) => some (.text (functionText r))
    | some (.object (.builtin .objectPrototype "toString")) => some (.text "[object Object]")
    | _ => none
  | v => some v

/-- A primitive value plus 1. -/
def plusOne : Value ι → Value ι
  | .undefined => .nan
  | .null => .number 1
  | .number q => .number (q + 1)
  | .nan => .nan
  | .text s => .text (s ++ "1")
  | .object r => .object r

def sub : Value ι → Value ι → Value ι
  | .number q, .number q' => .number (q - q')
  | _, _ => .nan

/-- A quotient, of which the divisor is no zero. -/
def div : Value ι → Value ι → Value ι
  | .number q, .number q' => .number (q / q')
  | _, _ => .nan

def positive : Value ι → Bool
  | .number q => decide (0 < q)
  | _ => false

/-! ### Statements -/

/-- `r[k] += 1`. -/
def increment [DecidableEq ι] (h : Heap ι) (r : Ref ι) (k : String) : Option (Heap ι) := do
  let v ← read h r k
  let primitive ← toPrimitive h v
  put h r k (plusOne primitive)

/-- What goes on, or throws and leaves the heap as it is. -/
def attempt (h : Heap ι) : Option (Heap ι) → Except (Heap ι) (Heap ι)
  | none => .error h
  | some h' => .ok h'

theorem attempt_eq_ok {h h' : Heap ι} {o : Option (Heap ι)} (hok : attempt h o = .ok h') :
    o = some h' := by
  cases o with
  | none => cases hok
  | some h'' => rw [Except.ok.inj hok]

/-- `v[k] += 1`, which strict code refuses on what is no object. -/
def incrementAt [DecidableEq ι] (h : Heap ι) (v : Option (Value ι)) (k : String) :
    Except (Heap ι) (Heap ι) :=
  match v with
  | some (.object r) => attempt h (increment h r k)
  | _ => .error h

/-- `k in v`, which throws on what is no object. -/
def hasIn (h : Heap ι) (v : Option (Value ι)) (k : String) : Option Bool :=
  match v with
  | some (.object r) => some (has h r k)
  | _ => none

/-- The own properties with their values. -/
def entries (h : Heap ι) (r : Ref ι) : List (String × Value ι) :=
  (h r).filterMap fun e =>
    match e.2 with
    | .value v => some (e.1, v)
    | .fixed v => some (e.1, v)
    | _ => none

/-! ### The objects of the language -/

def method (holder : Holder) (name : String) : String × Property ι :=
  (name, .value (.object (.builtin holder name)))

def objectMethods : List String :=
  ["__defineGetter__", "__defineSetter__", "hasOwnProperty", "__lookupGetter__", "__lookupSetter__",
    "isPrototypeOf", "propertyIsEnumerable", "toString", "valueOf", "toLocaleString"]

def statics : List String :=
  ["assign", "getOwnPropertyDescriptor", "getOwnPropertyDescriptors", "getOwnPropertyNames",
    "getOwnPropertySymbols", "hasOwn", "is", "preventExtensions", "seal", "create",
    "defineProperties", "defineProperty", "freeze", "getPrototypeOf", "setPrototypeOf",
    "isExtensible", "isFrozen", "isSealed", "keys", "entries", "fromEntries", "values", "groupBy"]

/-- The `length` of a method of `Object.prototype`. -/
def arity (name : String) : ℚ :=
  if name ∈ ["__defineGetter__", "__defineSetter__"] then 2
  else if name ∈ ["toString", "valueOf", "toLocaleString"] then 0
  else 1

/-- A process in which nothing has been added to the objects of the language. Of the functions,
those have properties that are values of `Object.prototype`. -/
def realm : Heap ι
  | .objectPrototype =>
    ("constructor", .value (.object (.builtin .global "Object"))) :: ("__proto__", .proto) ::
      objectMethods.map (method .objectPrototype)
  | .functionPrototype =>
    [("length", .fixed (.number 0)), ("name", .fixed (.text "")), ("arguments", .restricted),
      ("caller", .restricted), ("constructor", .value (.object (.builtin .global "Function")))] ++
      ["apply", "bind", "call", "toString"].map (method .functionPrototype)
  | .builtin .global "Object" =>
    [("length", .fixed (.number 1)), ("name", .fixed (.text "Object")),
      ("prototype", .fixed (.object .objectPrototype))] ++ statics.map (method .object)
  | .builtin .objectPrototype name =>
    [("length", .fixed (.number (arity name))), ("name", .fixed (.text name))]
  | .builtin _ _ => []
  | .own _ => []

/-- What every object has under a name. -/
def members : List String := "constructor" :: "__proto__" :: objectMethods

/-! ### Own properties -/

section

variable {props : Properties ι} {k k' : String} {p : Property ι}

theorem mem_of_lookup {p : Property ι} (h : props.lookup k = some p) : (k, p) ∈ props := by
  induction props with
  | nil => cases h
  | cons e props ih =>
    obtain ⟨k', p'⟩ := e
    by_cases hk : k = k'
    · subst hk
      rw [List.lookup_cons_self] at h
      rw [Option.some.inj h]
      exact List.mem_cons_self
    · rw [List.lookup_cons, beq_false_of_ne hk] at h
      exact List.mem_cons_of_mem _ (ih h)

theorem lookup_of_mem (hnodup : (props.map Prod.fst).Nodup) (h : (k, p) ∈ props) :
    props.lookup k = some p := by
  induction props with
  | nil => cases h
  | cons e props ih =>
    obtain ⟨hnew, hnodup⟩ := List.nodup_cons.mp hnodup
    rcases List.mem_cons.mp h with rfl | h
    · exact List.lookup_cons_self
    · have hk : k ≠ e.1 := by
        rintro rfl
        exact hnew (List.mem_map.mpr ⟨(e.1, p), h, rfl⟩)
      rw [List.lookup_cons, beq_false_of_ne hk]
      exact ih hnodup h

theorem lookup_eq_none_iff : props.lookup k = none ↔ k ∉ props.map Prod.fst := by
  induction props with
  | nil => simp
  | cons e props ih =>
    obtain ⟨k', p'⟩ := e
    by_cases hk : k = k'
    · subst hk
      simp
    · rw [List.lookup_cons, beq_false_of_ne hk]
      simp [ih, hk]

theorem isSome_lookup_iff : (props.lookup k).isSome = true ↔ k ∈ props.map Prod.fst := by
  rw [← not_iff_not, ← lookup_eq_none_iff, Bool.not_eq_true, Option.isSome_eq_false_iff,
    Option.isNone_iff_eq_none]

theorem lookup_map_of_ne (hk : k' ≠ k) :
    (props.map fun e => if e.1 = k then (k, p) else e).lookup k' = props.lookup k' := by
  induction props with
  | nil => rfl
  | cons e props ih =>
    obtain ⟨name, p'⟩ := e
    by_cases hname : name = k
    · subst hname
      simp [List.lookup_cons, beq_false_of_ne hk, ih]
    · by_cases hk' : k' = name
      · subst hk'
        simp [hname]
      · simp [hname, List.lookup_cons, beq_false_of_ne hk', ih]

theorem lookup_map_self (hk : k ∈ props.map Prod.fst) :
    (props.map fun e => if e.1 = k then (k, p) else e).lookup k = some p := by
  induction props with
  | nil => cases hk
  | cons e props ih =>
    obtain ⟨name, p'⟩ := e
    by_cases hname : name = k
    · subst hname
      simp
    · have hk' : k ∈ props.map Prod.fst := by
        simpa [Ne.symm hname] using hk
      simp only [List.map_cons, hname, if_false]
      rw [List.lookup_cons, beq_false_of_ne (Ne.symm hname)]
      exact ih hk'

@[simp] theorem lookup_write_self : (write props k p).lookup k = some p := by
  rw [write]
  split
  · rename_i hk
    exact lookup_map_self hk
  · rename_i hk
    rw [List.lookup_append, lookup_eq_none_iff.mpr hk]
    simp

theorem lookup_write_of_ne (hk : k' ≠ k) : (write props k p).lookup k' = props.lookup k' := by
  rw [write]
  split
  · exact lookup_map_of_ne hk
  · rw [List.lookup_append, List.lookup_cons, beq_false_of_ne hk]
    simp

/-- Writing keeps the names, and adds one that is new. -/
theorem map_fst_write :
    (write props k p).map Prod.fst
      = if k ∈ props.map Prod.fst then props.map Prod.fst else props.map Prod.fst ++ [k] := by
  rw [write]
  split
  · rw [List.map_map]
    refine List.map_congr_left fun e _ => ?_
    rw [Function.comp_apply]
    split
    · rename_i hname
      exact hname.symm
    · rfl
  · rw [List.map_append]
    rfl

theorem nodup_write (h : (props.map Prod.fst).Nodup) : ((write props k p).map Prod.fst).Nodup := by
  rw [map_fst_write]
  split
  · exact h
  · rename_i hnew
    exact List.nodup_append.mpr ⟨h, List.nodup_singleton k, by
      intro name hname name' hname'
      rw [List.mem_singleton] at hname'
      subst hname'
      rintro rfl
      exact hnew hname⟩

end

/-! ### Lookups -/

section

variable {h : Heap ι} {r : Ref ι} {i : ι} {k : String} {v : Value ι}

theorem find_of_lookup {p : Property ι} (hown : (h r).lookup k = some p) : find h r k = some p := by
  cases r <;> simp [find, chain, hown]

/-- What an object of the program lacks is found in `Object.prototype`. -/
theorem find_own (hown : (h (.own i)).lookup k = none) :
    find h (.own i) k = (h .objectPrototype).lookup k := by
  simp only [find, chain, List.findSome?_cons, hown, List.findSome?_nil]
  cases (h .objectPrototype).lookup k <;> rfl

theorem read_of_lookup (hown : (h r).lookup k = some (.value v)) : read h r k = some v := by
  rw [read, find_of_lookup hown]

theorem has_of_lookup {p : Property ι} (hown : (h r).lookup k = some p) : has h r k = true := by
  rw [has, find_of_lookup hown]
  rfl

/-- An object of the program has a property if it owns it or `Object.prototype` does. -/
theorem has_own_iff :
    has h (.own i) k = true ↔
      k ∈ (h (.own i)).map Prod.fst ∨ k ∈ (h .objectPrototype).map Prod.fst := by
  cases hown : (h (.own i)).lookup k with
  | some p =>
    have hmem : k ∈ (h (.own i)).map Prod.fst := List.mem_map_of_mem (mem_of_lookup hown)
    simp only [has_of_lookup hown, hmem, true_or]
  | none =>
    rw [has, find_own hown, isSome_lookup_iff]
    exact ⟨.inr, fun hk => hk.resolve_left (lookup_eq_none_iff.mp hown)⟩

end

/-! ### What statements do -/

section

variable [DecidableEq ι] {h h' : Heap ι} {r r' : Ref ι} {k : String} {v : Value ι}

@[simp] theorem store_self : store h r k v r = write (h r) k (.value v) :=
  Function.update_self ..

theorem store_of_ne (hr : r' ≠ r) : store h r k v r' = h r' :=
  Function.update_of_ne hr ..

/-- Nothing but a property of the object is written, and nothing under `__proto__`. -/
theorem put_cases (hput : put h r k v = some h') :
    h' = h ∨ (h' = store h r k v ∧ find h r k ≠ some .proto) := by
  unfold put at hput
  split at hput
  · rename_i hfind
    exact .inr ⟨(Option.some.inj hput).symm, by simp [hfind]⟩
  · rename_i hfind
    exact .inr ⟨(Option.some.inj hput).symm, by simp [hfind]⟩
  · cases hput
  · exact .inl (Option.some.inj hput).symm
  · cases hput

theorem increment_cases (hstep : increment h r k = some h') :
    ∃ v w, read h r k = some v ∧ toPrimitive h v = some w ∧
      (h' = h ∨ (h' = store h r k (plusOne w) ∧ find h r k ≠ some .proto)) := by
  unfold increment at hstep
  obtain ⟨v, hv, hstep⟩ := Option.bind_eq_some_iff.mp hstep
  obtain ⟨w, hw, hput⟩ := Option.bind_eq_some_iff.mp hstep
  exact ⟨v, w, hv, hw, put_cases hput⟩

/-- Other objects stay as they are. -/
theorem increment_frame (hstep : increment h r k = some h') (hr : r' ≠ r) : h' r' = h r' := by
  obtain ⟨v, w, -, -, rfl | ⟨rfl, -⟩⟩ := increment_cases hstep
  · rfl
  · exact store_of_ne hr

/-- A number of the object's own is counted up. -/
theorem increment_number {q : ℚ} (hown : (h r).lookup k = some (.value (.number q))) :
    increment h r k = some (store h r k (.number (q + 1))) := by
  simp only [increment, read_of_lookup hown, toPrimitive, Option.bind_eq_bind, Option.bind_some,
    plusOne]
  rw [put, find_of_lookup hown]

end

/-! ### `Object.prototype` -/

/-- What a program may find under the name of a member of all objects: an object of the language, or
a text that it was added to. -/
def Foreign (v : Value ι) : Prop :=
  (∃ r, v = .object r ∧ ∀ i, r ≠ .own i) ∨ ∃ s, v = .text s ∧ s ≠ ""

/-- However it was added to, `Object.prototype` has its members, and else no number but NaN. -/
structure Rooted (h : Heap ι) : Prop where
  member : ∀ k ∈ members, (h .objectPrototype).lookup k = some .proto ∨
    ∃ v, (h .objectPrototype).lookup k = some (.value v) ∧ Foreign v
  other : ∀ k ∉ members, (h .objectPrototype).lookup k = none ∨
    (h .objectPrototype).lookup k = some (.value .nan)

section

variable {h h' : Heap ι} {r : Ref ι} {i : ι} {k : String} {v w : Value ι}

theorem Foreign.truthy (hv : Foreign v) : toBoolean v = true := by
  rcases hv with ⟨r, rfl, -⟩ | ⟨s, rfl, hs⟩
  · rfl
  · simpa [toBoolean] using hs

/-- What is added to is a text that is not empty. -/
theorem Foreign.plusOne (hv : Foreign v) (hw : toPrimitive h v = some w) :
    Foreign (plusOne w) := by
  have htext : ∃ s, w = .text s := by
    rcases hv with ⟨r, rfl, -⟩ | ⟨s, rfl, hs⟩
    · unfold toPrimitive at hw
      split at hw
      · rename_i heq
        split at hw
        · exact ⟨_, (Option.some.inj hw).symm⟩
        · exact ⟨_, (Option.some.inj hw).symm⟩
        · cases hw
      · rename_i hne
        exact absurd rfl (hne r)
    · exact ⟨s, (Option.some.inj hw).symm⟩
  obtain ⟨s, rfl⟩ := htext
  refine .inr ⟨s ++ "1", rfl, ?_⟩
  intro hempty
  have hlength := congrArg String.length hempty
  simp at hlength

theorem rooted_realm : Rooted (realm : Heap ι) := by
  have hnames : (realm (ι := ι) .objectPrototype).map Prod.fst = members := rfl
  constructor
  · intro k hk
    simp only [members, objectMethods, List.mem_cons, List.not_mem_nil, or_false] at hk
    rcases hk with rfl | rfl | rfl | rfl | rfl | rfl | rfl | rfl | rfl | rfl | rfl | rfl
    · exact .inr ⟨_, rfl, .inl ⟨_, rfl, by simp⟩⟩
    · exact .inl rfl
    all_goals exact .inr ⟨_, rfl, .inl ⟨_, rfl, by simp⟩⟩
  · intro k hk
    exact .inl (lookup_eq_none_iff.mpr (hnames ▸ hk))

theorem Rooted.congr (hrooted : Rooted h) (hsame : h' .objectPrototype = h .objectPrototype) :
    Rooted h' := by
  constructor
  · rw [hsame]
    exact hrooted.member
  · rw [hsame]
    exact hrooted.other

/-- An object of the program has every member. -/
theorem Rooted.has_member (hrooted : Rooted h) (hk : k ∈ members) : has h (.own i) k = true := by
  rw [has_own_iff, ← isSome_lookup_iff, ← isSome_lookup_iff]
  rcases hrooted.member k hk with hp | ⟨v, hp, -⟩
  · simp [hp]
  · simp [hp]

/-- A member that an object of the program does not own is foreign to it. -/
theorem Rooted.read_member (hrooted : Rooted h) (hk : k ∈ members)
    (hown : (h (.own i)).lookup k = none) : ∃ v, read h (.own i) k = some v ∧ Foreign v := by
  rw [read, find_own hown]
  rcases hrooted.member k hk with hp | ⟨v, hp, hv⟩
  · rw [hp]
    exact ⟨_, rfl, .inl ⟨.objectPrototype, rfl, by simp⟩⟩
  · rw [hp]
    exact ⟨v, rfl, hv⟩

variable [DecidableEq ι]

/-- Whatever is counted up, `Object.prototype` keeps its members. -/
theorem Rooted.increment (hrooted : Rooted h) (hstep : increment h r k = some h') : Rooted h' := by
  by_cases hr : r = .objectPrototype
  · subst hr
    obtain ⟨v, w, hv, hw, rfl | ⟨rfl, hproto⟩⟩ := increment_cases hstep
    · exact hrooted
    · have hfind : find h .objectPrototype k = (h .objectPrototype).lookup k := by
        simp only [find, chain, List.findSome?_cons, List.findSome?_nil]
        cases (h .objectPrototype).lookup k <;> rfl
      rw [read, hfind] at hv
      rw [hfind] at hproto
      constructor
      · intro k' hk'
        by_cases hk : k' = k
        · subst hk
          rcases hrooted.member k' hk' with hp | ⟨v', hp, hforeign⟩
          · exact absurd hp hproto
          · rw [hp] at hv
            obtain rfl := Option.some.inj hv
            exact .inr ⟨plusOne w, by rw [store_self, lookup_write_self], hforeign.plusOne hw⟩
        · rw [store_self, lookup_write_of_ne hk]
          exact hrooted.member k' hk'
      · intro k' hk'
        by_cases hk : k' = k
        · subst hk
          have hnan : plusOne w = .nan := by
            rcases hrooted.other k' hk' with hp | hp
            · rw [hp] at hv
              obtain rfl := Option.some.inj hv
              obtain rfl := Option.some.inj hw
              rfl
            · rw [hp] at hv
              obtain rfl := Option.some.inj hv
              obtain rfl := Option.some.inj hw
              rfl
          exact .inr (by rw [store_self, lookup_write_self, hnan])
        · rw [store_self, lookup_write_of_ne hk]
          exact hrooted.other k' hk'
  · exact hrooted.congr (increment_frame hstep (Ne.symm hr))

/-- What is done to a value that is foreign leaves the program's objects as they are. -/
theorem incrementAt_foreign (hrooted : Rooted h) (hv : Foreign v)
    (hstep : incrementAt h (some v) k = .ok h') : Rooted h' ∧ ∀ i, h' (.own i) = h (.own i) := by
  rcases hv with ⟨r, rfl, hr⟩ | ⟨s, rfl, -⟩
  · have hincrement := attempt_eq_ok hstep
    exact ⟨hrooted.increment hincrement, fun i => increment_frame hincrement (Ne.symm (hr i))⟩
  · cases hstep

end

end MissionControl.Foundations.JsObjects
