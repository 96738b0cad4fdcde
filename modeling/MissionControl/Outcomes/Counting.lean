import MissionControl.Foundations.Groups
import MissionControl.Outcomes.Routes

/-!
What a row does to the objects in which the outcomes are counted, whatever stands in it and whatever
earlier rows have done to the objects of the language.
-/

set_option autoImplicit false
set_option relaxedAutoImplicit false

namespace MissionControl.Outcomes.Counting

open MissionControl.Foundations
open MissionControl.Foundations.JsObjects
open Routes

/-! ### Numbers in properties -/

/-- The number under a name. -/
def slot (name : String) (props : Properties Local) : ℚ :=
  match props.lookup name with
  | some (.value (.number q)) => q
  | _ => 0

/-- The five buckets together. -/
def bucketSum (props : Properties Local) : ℚ := (buckets.map fun name => slot name props).sum

def fields : List String := "total" :: "success_rate" :: buckets

/-- Own numbers under all names. -/
def Numeric (names : List String) (props : Properties Local) : Prop :=
  ∀ name ∈ names, props.lookup name = some (.value (.number (slot name props)))

instance (names : List String) (props : Properties Local) : Decidable (Numeric names props) :=
  inferInstanceAs (Decidable (∀ name ∈ names, _))

section

variable {names : List String} {name k : String} {props : Properties Local} {p : Property Local}
  {q : ℚ}

theorem slot_of_lookup (h : props.lookup name = some (.value (.number q))) :
    slot name props = q := by
  rw [slot, h]

@[simp] theorem slot_write_self : slot k (write props k (.value (.number q))) = q :=
  slot_of_lookup lookup_write_self

theorem slot_write_of_ne (hk : name ≠ k) : slot name (write props k p) = slot name props := by
  rw [slot, slot, lookup_write_of_ne hk]

theorem Numeric.write_number (h : Numeric names props) :
    Numeric names (write props k (.value (.number q))) := by
  intro name hname
  by_cases hk : name = k
  · subst hk
    rw [lookup_write_self, slot_write_self]
  · rw [lookup_write_of_ne hk, slot_write_of_ne hk]
    exact h name hname

theorem Numeric.write_other (h : Numeric names props) (hk : k ∉ names) :
    Numeric names (write props k p) := by
  intro name hname
  have hne : name ≠ k := fun hcontra => hk (hcontra ▸ hname)
  rw [lookup_write_of_ne hne, slot_write_of_ne hne]
  exact h name hname

/-- What is no bucket does not count in them. -/
theorem bucketSum_write_of_not_mem (hk : k ∉ buckets) :
    bucketSum (write props k p) = bucketSum props := by
  refine congrArg List.sum (List.map_congr_left fun name hname => slot_write_of_ne ?_)
  rintro rfl
  exact hk hname

theorem bucketSum_write (hk : k ∈ buckets) :
    bucketSum (write props k (.value (.number (slot k props + 1)))) = bucketSum props + 1 := by
  have hchange : bucketSum (write props k (.value (.number (slot k props + 1))))
      = bucketSum props + (slot k (write props k (.value (.number (slot k props + 1))))
          - slot k props) :=
    Groups.sum_of_change (by decide) hk fun name hname => slot_write_of_ne hname
  rw [hchange, slot_write_self, add_sub_cancel_left]

end

/-! ### One object -/

section

variable {h h' : Heap Local} {i : Local} {outcome : String}

/-- The name under which an outcome is counted in an object of the route. -/
def bucketOf (h : Heap Local) (i : Local) (outcome : String) : String :=
  if has h (.own i) outcome then outcome else "unknown"

theorem countOutcome_own {target : Heap Local → Option (Value Local)}
    (htarget : target h = some (.object (.own i))) :
    countOutcome target outcome h = attempt h (increment h (.own i) (bucketOf h i outcome)) := by
  simp only [countOutcome, htarget, hasIn, bucketOf, incrementAt]
  cases has h (.own i) outcome <;> rfl

/-- Whatever is counted up in an object, its numbers stay numbers, and the buckets gain one at most,
and nothing if what is counted up is no bucket. -/
theorem increment_bucket {names : List String} {name : String} (hbuckets : buckets ⊆ names)
    (hnumeric : Numeric names (h (.own i)))
    (hstep : increment h (.own i) name = some h') :
    Numeric names (h' (.own i)) ∧
      bucketSum (h' (.own i)) = bucketSum (h (.own i)) + if name ∈ buckets then 1 else 0 := by
  by_cases hname : name ∈ names
  · rw [increment_number (hnumeric name hname)] at hstep
    obtain rfl := (Option.some.inj hstep).symm
    rw [store_self]
    refine ⟨hnumeric.write_number, ?_⟩
    split
    · rename_i hbucket
      exact bucketSum_write hbucket
    · rename_i hbucket
      rw [bucketSum_write_of_not_mem hbucket, add_zero]
  · have hbucket : name ∉ buckets := fun hcontra => hname (hbuckets hcontra)
    rw [if_neg hbucket, add_zero]
    obtain ⟨v, w, -, -, rfl | ⟨rfl, -⟩⟩ := increment_cases hstep
    · exact ⟨hnumeric, rfl⟩
    · rw [store_self]
      exact ⟨hnumeric.write_other hname, bucketSum_write_of_not_mem hbucket⟩

end

/-! ### Tables -/

section

variable {h h' : Heap Local} {t : Grouping} {key outcome : String}

def keys (t : Grouping) (h : Heap Local) : List String := (h (.own (.table t))).map Prod.fst

/-- A sum over the groups of a table. -/
def overGroups (t : Grouping) (f : Properties Local → ℚ) (h : Heap Local) : ℚ :=
  ((keys t h).map fun key => f (h (.own (.group t key)))).sum

/-- A table has groups with numbers, and none under the name of a member of all objects. -/
structure Shaped (t : Grouping) (h : Heap Local) : Prop where
  nodup : (keys t h).Nodup
  entry : ∀ key ∈ keys t h, (h (.own (.table t))).lookup key
    = some (.value (.object (.own (.group t key))))
  member : ∀ key ∈ keys t h, key ∉ members
  numeric : ∀ key ∈ keys t h, Numeric fields (h (.own (.group t key)))

/-- The heap in which a key has a group. -/
def ensured (t : Grouping) (key : String) (h : Heap Local) : Heap Local :=
  if key ∈ keys t h then h
  else store (Function.update h (.own (.group t key)) newGroup) (.own (.table t)) key
    (.object (.own (.group t key)))

theorem Shaped.groupAt (hshaped : Shaped t h) (hkey : key ∈ keys t h) :
    groupAt t key h = some (.object (.own (.group t key))) :=
  read_of_lookup (hshaped.entry key hkey)

/-- Under a member of all objects there is no group, but something foreign. -/
theorem Shaped.groupAt_member (hshaped : Shaped t h) (hrooted : Rooted h) (hkey : key ∈ members) :
    ∃ v, Routes.groupAt t key h = some v ∧ Foreign v := by
  refine hrooted.read_member hkey (lookup_eq_none_iff.mpr fun hmem => ?_)
  exact hshaped.member key hmem hkey

theorem ensureGroup_eq (hshaped : Shaped t h) (hrooted : Rooted h) (hkey : key ∉ members) :
    ensureGroup t key h = .ok (ensured t key h) := by
  by_cases hmem : key ∈ keys t h
  · rw [ensureGroup, hshaped.groupAt hmem, ensured, if_pos hmem]
    rfl
  · have hown : (h (.own (.table t))).lookup key = none := lookup_eq_none_iff.mpr hmem
    rw [ensured, if_neg hmem]
    have hput : ∀ h' : Heap Local, h' (.own (.table t)) = h (.own (.table t)) →
        h' .objectPrototype = h .objectPrototype → ∀ v,
        put h' (.own (.table t)) key v = some (store h' (.own (.table t)) key v) := by
      intro h' htable hroot v
      rw [put, find_own (by rw [htable]; exact hown), hroot]
      rcases hrooted.other key hkey with hp | hp
      · rw [hp]
      · rw [hp]
    have hat : ∃ v, Routes.groupAt t key h = some v ∧ toBoolean v = false := by
      rw [Routes.groupAt, JsObjects.read, find_own hown]
      rcases hrooted.other key hkey with hp | hp
      · rw [hp]
        exact ⟨.undefined, rfl, rfl⟩
      · rw [hp]
        exact ⟨.nan, rfl, rfl⟩
    obtain ⟨v, hv, hfalse⟩ := hat
    rw [ensureGroup, hv]
    simp only [hfalse, Bool.false_eq_true, if_false]
    rw [hput]
    · rfl
    · exact Function.update_of_ne (by simp) ..
    · exact Function.update_of_ne (by simp) ..

theorem keys_ensured :
    keys t (ensured t key h) = if key ∈ keys t h then keys t h else keys t h ++ [key] := by
  rw [ensured]
  split
  · rfl
  · rename_i hnew
    have htable : Function.update h (.own (.group t key)) newGroup (.own (.table t))
        = h (.own (.table t)) := Function.update_of_ne (by simp) ..
    rw [keys, store_self, htable, map_fst_write]
    exact if_neg hnew

theorem mem_keys_ensured : key ∈ keys t (ensured t key h) := by
  rw [keys_ensured]
  split
  · assumption
  · simp

theorem ensured_group {key' : String} :
    ensured t key h (.own (.group t key'))
      = if key' = key ∧ key ∉ keys t h then newGroup else h (.own (.group t key')) := by
  rw [ensured]
  by_cases hmem : key ∈ keys t h
  · rw [if_pos hmem, if_neg fun hcontra => hcontra.2 hmem]
  · rw [if_neg hmem, store_of_ne (by simp)]
    by_cases hkey : key' = key
    · subst hkey
      rw [Function.update_self, if_pos ⟨rfl, hmem⟩]
    · rw [Function.update_of_ne (by simpa using hkey), if_neg fun hcontra => hkey hcontra.1]

/-- Only the table and the group are touched. -/
theorem ensured_frame {r : Ref Local} (htable : r ≠ .own (.table t))
    (hgroup : r ≠ .own (.group t key)) : ensured t key h r = h r := by
  rw [ensured]
  split
  · rfl
  · rw [store_of_ne htable, Function.update_of_ne hgroup]

theorem numeric_newGroup : Numeric fields newGroup := by
  decide +kernel

theorem Shaped.ensured (hshaped : Shaped t h) (hkey : key ∉ members) :
    Shaped t (ensured t key h) := by
  by_cases hmem : key ∈ keys t h
  · rw [Counting.ensured, if_pos hmem]
    exact hshaped
  · have hkeys : keys t (Counting.ensured t key h) = keys t h ++ [key] := by
      rw [keys_ensured, if_neg hmem]
    have hold : ∀ key' ∈ keys t h, key' ≠ key := by
      rintro key' hkey' rfl
      exact hmem hkey'
    constructor
    · rw [hkeys]
      refine List.nodup_append.mpr ⟨hshaped.nodup, List.nodup_singleton key, ?_⟩
      intro key' hkey' key'' hkey''
      rw [List.mem_singleton] at hkey''
      rw [hkey'']
      exact hold key' hkey'
    · intro key' hkey'
      rw [Counting.ensured, if_neg hmem, store_self]
      by_cases heq : key' = key
      · subst heq
        exact lookup_write_self
      · rw [lookup_write_of_ne heq, Function.update_of_ne (by simp)]
        rw [hkeys, List.mem_append, List.mem_singleton] at hkey'
        exact hshaped.entry key' (hkey'.resolve_right heq)
    · intro key' hkey'
      rw [hkeys, List.mem_append, List.mem_singleton] at hkey'
      rcases hkey' with hkey' | rfl
      · exact hshaped.member key' hkey'
      · exact hkey
    · intro key' hkey'
      rw [ensured_group]
      split
      · exact numeric_newGroup
      · rename_i hne
        rw [hkeys, List.mem_append, List.mem_singleton] at hkey'
        refine hshaped.numeric key' (hkey'.resolve_right fun heq => hne ⟨heq, hmem⟩)

/-- A new group counts nothing. -/
theorem overGroups_ensured {f : Properties Local → ℚ} (hf : f newGroup = 0) :
    overGroups t f (ensured t key h) = overGroups t f h := by
  have hsame : ∀ key' ∈ keys t h,
      f (ensured t key h (.own (.group t key'))) = f (h (.own (.group t key'))) := by
    intro key' hkey'
    rw [ensured_group, if_neg]
    rintro ⟨rfl, hmem⟩
    exact hmem hkey'
  rw [overGroups, keys_ensured]
  split
  · exact congrArg List.sum (List.map_congr_left hsame)
  · rename_i hmem
    rw [List.map_append, List.sum_append, List.map_congr_left hsame, List.map_singleton,
      ensured_group, if_pos ⟨rfl, hmem⟩, hf]
    simp [overGroups]

/-- What stays where one group of a table changes. -/
theorem Shaped.regroup (hshaped : Shaped t h)
    (hframe : ∀ r, r ≠ .own (.group t key) → h' r = h r)
    (hnumeric : Numeric fields (h' (.own (.group t key)))) : Shaped t h' := by
  have htable : h' (.own (.table t)) = h (.own (.table t)) := hframe _ (by simp)
  have hkeys : keys t h' = keys t h := by
    rw [keys, htable, keys]
  refine ⟨hkeys ▸ hshaped.nodup, ?_, ?_, ?_⟩
  · intro key' hkey'
    rw [htable]
    exact hshaped.entry key' (hkeys ▸ hkey')
  · intro key' hkey'
    exact hshaped.member key' (hkeys ▸ hkey')
  · intro key' hkey'
    by_cases heq : key' = key
    · subst heq
      exact hnumeric
    · rw [hframe _ (by simpa using heq)]
      exact hshaped.numeric key' (hkeys ▸ hkey')

theorem overGroups_regroup (hshaped : Shaped t h) (hkey : key ∈ keys t h)
    (hframe : ∀ r, r ≠ .own (.group t key) → h' r = h r) (f : Properties Local → ℚ) :
    overGroups t f h' = overGroups t f h
      + (f (h' (.own (.group t key))) - f (h (.own (.group t key)))) := by
  have hkeys : keys t h' = keys t h := by
    rw [keys, hframe _ (by simp), keys]
  rw [overGroups, hkeys]
  refine Groups.sum_of_change hshaped.nodup hkey fun key' hne => ?_
  rw [hframe _ (by simpa using hne)]

/-- The heap in which the total of a group is counted up. -/
def totalled (t : Grouping) (key : String) (h : Heap Local) : Heap Local :=
  store (ensured t key h) (.own (.group t key)) "total"
    (.number (slot "total" (ensured t key h (.own (.group t key))) + 1))

theorem Shaped.congr (hshaped : Shaped t h) (htable : h' (.own (.table t)) = h (.own (.table t)))
    (hgroup : ∀ key, h' (.own (.group t key)) = h (.own (.group t key))) : Shaped t h' := by
  have hkeys : keys t h' = keys t h := by
    rw [keys, htable, keys]
  refine ⟨hkeys ▸ hshaped.nodup, ?_, ?_, ?_⟩
  · intro key hkey
    rw [htable]
    exact hshaped.entry key (hkeys ▸ hkey)
  · intro key hkey
    exact hshaped.member key (hkeys ▸ hkey)
  · intro key hkey
    rw [hgroup]
    exact hshaped.numeric key (hkeys ▸ hkey)

theorem overGroups_congr (htable : h' (.own (.table t)) = h (.own (.table t)))
    (hgroup : ∀ key, h' (.own (.group t key)) = h (.own (.group t key)))
    (f : Properties Local → ℚ) : overGroups t f h' = overGroups t f h := by
  have hkeys : keys t h' = keys t h := by
    rw [keys, htable, keys]
  rw [overGroups, hkeys]
  exact congrArg List.sum (List.map_congr_left fun key _ => by rw [hgroup])

/-- What a group is after its total has been counted up. -/
theorem totalled_group :
    totalled t key h (.own (.group t key))
      = write (ensured t key h (.own (.group t key))) "total"
          (.value (.number (slot "total" (ensured t key h (.own (.group t key))) + 1))) :=
  store_self

/-- Nothing but a group and its table is touched. -/
theorem totalled_frame {r : Ref Local} (htable : r ≠ .own (.table t))
    (hgroup : r ≠ .own (.group t key)) : totalled t key h r = h r := by
  rw [totalled, store_of_ne hgroup, ensured_frame htable hgroup]

theorem Shaped.totalled (hshaped : Shaped t h) (hkey : key ∉ members) :
    Shaped t (totalled t key h) := by
  refine (hshaped.ensured hkey).regroup (fun r hr => store_of_ne hr) ?_
  rw [totalled_group]
  exact ((hshaped.ensured hkey).numeric key mem_keys_ensured).write_number

theorem mem_keys_totalled : key ∈ keys t (totalled t key h) := by
  rw [keys, Counting.totalled, store_of_ne (by simp)]
  exact mem_keys_ensured

theorem overGroups_totalled (hshaped : Shaped t h) (hkey : key ∉ members)
    {f : Properties Local → ℚ} (hf : f newGroup = 0) :
    overGroups t f (totalled t key h) = overGroups t f h
      + (f (totalled t key h (.own (.group t key)))
        - f (ensured t key h (.own (.group t key)))) := by
  have hframe : ∀ r, r ≠ .own (.group t key) → totalled t key h r = ensured t key h r :=
    fun r hr => store_of_ne hr
  rw [overGroups_regroup (hshaped.ensured hkey) mem_keys_ensured hframe, overGroups_ensured hf]

/-- A row is counted in its group, by the total and by one more name. -/
theorem tally_eq (hshaped : Shaped t h) (hrooted : Rooted h) (hkey : key ∉ members) :
    tally t key outcome h = attempt (totalled t key h) (increment (totalled t key h)
      (.own (.group t key)) (bucketOf (totalled t key h) (.group t key) outcome)) := by
  have hensured := hshaped.ensured hkey
  have hincrement : incrementAt (ensured t key h) (groupAt t key (ensured t key h)) "total"
      = .ok (totalled t key h) := by
    rw [hensured.groupAt mem_keys_ensured, incrementAt,
      increment_number (hensured.numeric key mem_keys_ensured "total" (by decide))]
    rfl
  rw [tally, ensureGroup_eq hshaped hrooted hkey]
  show (incrementAt (ensured t key h) _ "total" >>= countOutcome _ _) = _
  rw [hincrement]
  exact countOutcome_own ((hshaped.totalled hkey).groupAt mem_keys_totalled)

end

end MissionControl.Outcomes.Counting
