import Mathlib.Algebra.Order.BigOperators.Group.List
import Mathlib.Tactic.Linarith
import Mathlib.Tactic.Ring
import MissionControl.Outcomes.Counting

/-!
The loop over the done tasks. A grouping gains one at most for a task, and nothing for one whose
outcome or key is the name of a property that the objects have anyway; without such names every task
is counted once.
-/

set_option autoImplicit false
set_option relaxedAutoImplicit false

namespace MissionControl.Outcomes.Loop

open MissionControl.Foundations
open MissionControl.Foundations.JsObjects
open Routes Counting

/-- What a group has besides its buckets. -/
def otherNames : List String := "total" :: "success_rate" :: members

/-- No name in the row is one that the objects have anyway. -/
def Plain (row : TaskRow) : Prop :=
  outcomeOf row ∉ otherNames ∧ assigneeOf row ∉ members ∧ priorityOf row ∉ members

theorem not_mem_buckets : ∀ name ∈ otherNames, name ∉ buckets := by
  decide

instance (row : TaskRow) : Decidable (Plain row) :=
  inferInstanceAs (Decidable (_ ∧ _ ∧ _))

/-! ### At most one for a row -/

section

variable {h h' : Heap Local} {t : Grouping} {key outcome : String}

theorem bucketOf_other (hrooted : Rooted h) {i : Local} (hnumeric : Numeric fields (h (.own i)))
    (houtcome : outcome ∈ otherNames) : bucketOf h i outcome = outcome := by
  have hhas : has h (.own i) outcome = true := by
    rw [otherNames, List.mem_cons, List.mem_cons] at houtcome
    rcases houtcome with rfl | rfl | hmember
    · exact has_of_lookup (hnumeric _ (by decide))
    · exact has_of_lookup (hnumeric _ (by decide))
    · exact hrooted.has_member hmember
  rw [bucketOf, if_pos hhas]

theorem countOutcome_foreign {v : Value Local} {target : Heap Local → Option (Value Local)}
    (hrooted : Rooted h) (htarget : target h = some v) (hv : Foreign v)
    (hcount : countOutcome target outcome h = .ok h') :
    Rooted h' ∧ ∀ i, h' (.own i) = h (.own i) := by
  unfold countOutcome at hcount
  rw [htarget] at hcount
  split at hcount
  · cases hcount
  · exact incrementAt_foreign hrooted hv hcount
  · exact incrementAt_foreign hrooted hv hcount

/-- A row whose key all objects have counts for no group. -/
theorem tally_member (hrooted : Rooted h) (hshaped : Shaped t h) (hkey : key ∈ members)
    (htally : tally t key outcome h = .ok h') : Rooted h' ∧ ∀ i, h' (.own i) = h (.own i) := by
  obtain ⟨v, hv, hforeign⟩ := hshaped.groupAt_member hrooted hkey
  have hensure : ensureGroup t key h = .ok h := by
    rw [ensureGroup, hv]
    simp only [hforeign.truthy, if_true]
  rw [tally, hensure] at htally
  cases htotal : incrementAt h (groupAt t key h) "total" with
  | error h₁ =>
    have herror : (incrementAt h (groupAt t key h) "total" >>= fun h => countOutcome (groupAt t key)
        outcome h) = .ok h' := htally
    rw [htotal] at herror
    cases herror
  | ok h₁ =>
    have hcount : (incrementAt h (groupAt t key h) "total" >>= fun h => countOutcome (groupAt t key)
        outcome h) = .ok h' := htally
    rw [htotal] at hcount
    rw [hv] at htotal
    obtain ⟨hrooted₁, hown₁⟩ := incrementAt_foreign hrooted hforeign htotal
    have hshaped₁ : Shaped t h₁ := hshaped.congr (hown₁ _) fun key => hown₁ _
    obtain ⟨v₁, hv₁, hforeign₁⟩ := hshaped₁.groupAt_member hrooted₁ hkey
    obtain ⟨hrooted', hown'⟩ := countOutcome_foreign hrooted₁ hv₁ hforeign₁ hcount
    exact ⟨hrooted', fun i => (hown' i).trans (hown₁ i)⟩

/-- A row gives the buckets of a grouping one at most, and nothing unless its names are plain. -/
theorem tally_bound (hrooted : Rooted h) (hshaped : Shaped t h)
    (htally : tally t key outcome h = .ok h') :
    Rooted h' ∧ Shaped t h' ∧
      (∀ i, i ≠ .table t → i ≠ .group t key → h' (.own i) = h (.own i)) ∧
      overGroups t bucketSum h'
        ≤ overGroups t bucketSum h + if key ∈ members ∨ outcome ∈ otherNames then 0 else 1 := by
  by_cases hkey : key ∈ members
  · obtain ⟨hrooted', hown⟩ := tally_member hrooted hshaped hkey htally
    refine ⟨hrooted', hshaped.congr (hown _) fun key => hown _, fun i _ _ => hown i, ?_⟩
    rw [overGroups_congr (hown _) (fun key => hown _), if_pos (.inl hkey), add_zero]
  · rw [tally_eq hshaped hrooted hkey] at htally
    have hstep := attempt_eq_ok htally
    have hrooted₁ : Rooted (totalled t key h) :=
      hrooted.congr (totalled_frame (by simp) (by simp))
    have hshaped₁ := hshaped.totalled hkey
    have hnumeric := hshaped₁.numeric key mem_keys_totalled
    obtain ⟨hnumeric', hbuckets⟩ := increment_bucket (by decide : buckets ⊆ fields) hnumeric hstep
    have hframe : ∀ r, r ≠ .own (.group t key) → h' r = totalled t key h r :=
      fun r hr => increment_frame hstep hr
    refine ⟨hrooted₁.increment hstep, hshaped₁.regroup hframe hnumeric', ?_, ?_⟩
    · intro i htable hgroup
      rw [hframe _ (by simpa using hgroup)]
      exact totalled_frame (by simpa using htable) (by simpa using hgroup)
    · have hsum : overGroups t bucketSum (totalled t key h) = overGroups t bucketSum h := by
        rw [overGroups_totalled hshaped hkey (by decide +kernel), totalled_group,
          bucketSum_write_of_not_mem (by decide), sub_self, add_zero]
      rw [overGroups_regroup hshaped₁ mem_keys_totalled hframe, hbuckets, hsum, add_sub_cancel_left]
      by_cases houtcome : outcome ∈ otherNames
      · have hname : outcome ∉ buckets := not_mem_buckets outcome houtcome
        rw [bucketOf_other hrooted₁ hnumeric houtcome, if_neg hname, if_pos (.inr houtcome)]
      · rw [if_neg (not_or.mpr ⟨hkey, houtcome⟩)]
        split <;> norm_num

end

/-- The key of a row in a grouping. -/
def keyOf (row : TaskRow) : Grouping → String
  | .byAgent => assigneeOf row
  | .byPriority => priorityOf row

/-- A grouping counts the row in its buckets. -/
def Counts (t : Grouping) (row : TaskRow) : Prop :=
  ¬ (keyOf row t ∈ members ∨ outcomeOf row ∈ otherNames)

instance (t : Grouping) (row : TaskRow) : Decidable (Counts t row) :=
  inferInstanceAs (Decidable (¬ _))

theorem plain_iff {row : TaskRow} : Plain row ↔ ∀ t, Counts t row := by
  simp only [Plain, Counts, not_or]
  constructor
  · rintro ⟨houtcome, hassignee, hpriority⟩ t
    cases t with
    | byAgent => exact ⟨hassignee, houtcome⟩
    | byPriority => exact ⟨hpriority, houtcome⟩
  · intro h
    exact ⟨(h .byAgent).2, (h .byAgent).1, (h .byPriority).1⟩

/-- What the loop keeps, whatever the rows are. -/
structure Kept (h : Heap Local) : Prop where
  rooted : Rooted h
  shaped : ∀ t, Shaped t h

section

variable {h h' : Heap Local} {row : TaskRow}

theorem countSummary_eq {outcome : String} :
    countOutcome summaryByOutcome outcome h
      = attempt h (increment h (.own .byOutcome) (bucketOf h .byOutcome outcome)) :=
  countOutcome_own rfl

/-- The statements of the loop, one after the other. -/
theorem countRow_steps (hrow : countRow h row = .ok h') :
    ∃ h₁ h₂, increment h (.own .byOutcome) (bucketOf h .byOutcome (outcomeOf row)) = some h₁ ∧
      tally .byAgent (assigneeOf row) (outcomeOf row) h₁ = .ok h₂ ∧
      tally .byPriority (priorityOf row) (outcomeOf row) h₂ = .ok h' := by
  rw [countRow, countSummary_eq] at hrow
  cases hsummary : increment h (.own .byOutcome) (bucketOf h .byOutcome (outcomeOf row)) with
  | none =>
    rw [hsummary] at hrow
    cases hrow
  | some h₁ =>
    rw [hsummary] at hrow
    replace hrow : (tally .byAgent (assigneeOf row) (outcomeOf row) h₁ >>= fun h =>
      tally .byPriority (priorityOf row) (outcomeOf row) h) = .ok h' := hrow
    cases hagent : tally .byAgent (assigneeOf row) (outcomeOf row) h₁ with
    | error h₂ =>
      rw [hagent] at hrow
      cases hrow
    | ok h₂ =>
      rw [hagent] at hrow
      exact ⟨h₁, h₂, rfl, hagent, hrow⟩

/-- A row gives each grouping one at most, and nothing if the grouping does not count it. -/
theorem countRow_bound (hkept : Kept h) (hrow : countRow h row = .ok h') :
    Kept h' ∧ ∀ t, overGroups t bucketSum h'
      ≤ overGroups t bucketSum h + if Counts t row then 1 else 0 := by
  obtain ⟨h₁, h₂, hsummary, hagent, hpriority⟩ := countRow_steps hrow
  have hframe : ∀ i, i ≠ .byOutcome → h₁ (.own i) = h (.own i) :=
    fun i hi => increment_frame hsummary (by simpa using hi)
  have hrooted₁ := hkept.rooted.increment hsummary
  have hshaped₁ : ∀ t, Shaped t h₁ := fun t =>
    (hkept.shaped t).congr (hframe _ (by simp)) fun key => hframe _ (by simp)
  have hsum₁ : ∀ t, overGroups t bucketSum h₁ = overGroups t bucketSum h := fun t =>
    overGroups_congr (hframe _ (by simp)) (fun key => hframe _ (by simp)) bucketSum
  obtain ⟨hrooted₂, hshaped₂, hframe₂, hbound₂⟩ := tally_bound hrooted₁ (hshaped₁ .byAgent) hagent
  have hother₂ : Shaped .byPriority h₂ :=
    (hshaped₁ .byPriority).congr (hframe₂ _ (by simp) (by simp))
      fun key => hframe₂ _ (by simp) (by simp)
  have hsum₂ : overGroups .byPriority bucketSum h₂ = overGroups .byPriority bucketSum h₁ :=
    overGroups_congr (hframe₂ _ (by simp) (by simp)) (fun key => hframe₂ _ (by simp) (by simp))
      bucketSum
  obtain ⟨hrooted₃, hshaped₃, hframe₃, hbound₃⟩ := tally_bound hrooted₂ hother₂ hpriority
  have hother₃ : Shaped .byAgent h' :=
    hshaped₂.congr (hframe₃ _ (by simp) (by simp)) fun key => hframe₃ _ (by simp) (by simp)
  have hsum₃ : overGroups .byAgent bucketSum h' = overGroups .byAgent bucketSum h₂ :=
    overGroups_congr (hframe₃ _ (by simp) (by simp)) (fun key => hframe₃ _ (by simp) (by simp))
      bucketSum
  refine ⟨⟨hrooted₃, fun t => ?_⟩, fun t => ?_⟩
  · cases t with
    | byAgent => exact hother₃
    | byPriority => exact hshaped₃
  · have hcounted : (if Counts t row then (1 : ℚ) else 0)
        = if keyOf row t ∈ members ∨ outcomeOf row ∈ otherNames then 0 else 1 := by
      by_cases hother : keyOf row t ∈ members ∨ outcomeOf row ∈ otherNames
      · rw [if_pos hother, if_neg fun hcontra => hcontra hother]
      · have hcounts : Counts t row := hother
        rw [if_neg hother, if_pos hcounts]
    rw [hcounted]
    cases t with
    | byAgent =>
      rw [hsum₃, ← hsum₁]
      exact hbound₂
    | byPriority =>
      rw [← hsum₁, ← hsum₂]
      exact hbound₃

/-- The buckets of a grouping have no more than the rows that it counts. -/
theorem loop_bound {rows : List TaskRow} (hkept : Kept h)
    (hloop : rows.foldlM countRow h = .ok h') :
    Kept h' ∧ ∀ t, overGroups t bucketSum h'
      ≤ overGroups t bucketSum h + rows.countP fun row => Counts t row := by
  induction rows generalizing h with
  | nil =>
    rw [List.foldlM_nil] at hloop
    obtain rfl := Except.ok.inj hloop
    exact ⟨hkept, fun t => by simp⟩
  | cons row rows ih =>
    rw [List.foldlM_cons] at hloop
    cases hrow : countRow h row with
    | error h₁ =>
      rw [hrow] at hloop
      cases hloop
    | ok h₁ =>
      rw [hrow] at hloop
      obtain ⟨hkept₁, hbound₁⟩ := countRow_bound hkept hrow
      obtain ⟨hkept', hbound'⟩ := ih hkept₁ hloop
      refine ⟨hkept', fun t => (hbound' t).trans ?_⟩
      rw [List.countP_cons]
      have hbound := hbound₁ t
      by_cases hcounts : Counts t row
      · rw [if_pos hcounts] at hbound
        simp only [hcounts, decide_true, if_true]
        push_cast
        linarith
      · rw [if_neg hcounts] at hbound
        simp only [hcounts, decide_false, Bool.false_eq_true, if_false]
        push_cast
        linarith

end

/-! ### Exactly one for a plain row -/

/-- Nothing has been added to the objects of the language. -/
def Fresh (h : Heap Local) : Prop := ∀ r, (∀ i, r ≠ .own i) → h r = realm r

theorem Fresh.rooted {h : Heap Local} (hfresh : Fresh h) : Rooted h :=
  rooted_realm.congr (hfresh .objectPrototype (by simp))

theorem Fresh.store {h : Heap Local} (hfresh : Fresh h) {i : Local} {k : String} {v : Value Local} :
    Fresh (store h (.own i) k v) := by
  intro r hr
  rw [store_of_ne (hr i)]
  exact hfresh r hr

/-- A group that has its buckets for its total. -/
structure Balanced (props : Properties Local) : Prop where
  names : ∀ name ∈ props.map Prod.fst, name ∈ fields
  total : bucketSum props = slot "total" props
  nonneg : ∀ name ∈ buckets, 0 ≤ slot name props

section

variable {h : Heap Local} {t : Grouping} {key outcome name : String} {props : Properties Local}

/-- A plain outcome is counted in a bucket. -/
theorem bucketOf_plain (hfresh : Fresh h) {i : Local}
    (hnames : ∀ name ∈ (h (.own i)).map Prod.fst, name ∈ fields) (houtcome : outcome ∉ otherNames) :
    bucketOf h i outcome ∈ buckets := by
  rw [bucketOf]
  split
  · rename_i hhas
    rw [otherNames, List.mem_cons, List.mem_cons, not_or, not_or] at houtcome
    rcases has_own_iff.mp hhas with hown | hroot
    · have hfield := hnames outcome hown
      rw [fields, List.mem_cons, List.mem_cons] at hfield
      exact (hfield.resolve_left houtcome.1).resolve_left houtcome.2.1
    · rw [hfresh .objectPrototype (by simp)] at hroot
      exact absurd hroot houtcome.2.2
  · decide

theorem write_names (hnames : ∀ name ∈ props.map Prod.fst, name ∈ fields) {k : String}
    {p : Property Local} (hk : k ∈ fields) :
    ∀ name ∈ (write props k p).map Prod.fst, name ∈ fields := by
  intro name hname
  rw [map_fst_write] at hname
  split at hname
  · exact hnames name hname
  · rw [List.mem_append, List.mem_singleton] at hname
    rcases hname with hname | rfl
    · exact hnames name hname
    · exact hk

theorem bucket_ne_total : ∀ name ∈ buckets, name ≠ "total" := by
  decide

theorem bucket_mem_fields : ∀ name ∈ buckets, name ∈ fields := by
  decide

theorem nonneg_write (hnonneg : ∀ name ∈ buckets, 0 ≤ slot name props) {k : String} {q : ℚ}
    (hq : 0 ≤ q) : ∀ name ∈ buckets, 0 ≤ slot name (write props k (.value (.number q))) := by
  intro name hname
  by_cases hk : name = k
  · subst hk
    rwa [slot_write_self]
  · rw [slot_write_of_ne hk]
    exact hnonneg name hname

theorem Balanced.total_nonneg (hbalanced : Balanced props) : 0 ≤ slot "total" props := by
  rw [← hbalanced.total, bucketSum]
  refine List.sum_nonneg fun q hq => ?_
  obtain ⟨name, hname, rfl⟩ := List.mem_map.mp hq
  exact hbalanced.nonneg name hname

/-- The total and a bucket are counted up together. -/
theorem Balanced.counted (hbalanced : Balanced props) (hname : name ∈ buckets) :
    Balanced (write (write props "total" (.value (.number (slot "total" props + 1)))) name
        (.value (.number (slot name props + 1)))) ∧
      slot "total" (write (write props "total" (.value (.number (slot "total" props + 1)))) name
        (.value (.number (slot name props + 1)))) = slot "total" props + 1 := by
  have hslot : slot name (write props "total" (.value (.number (slot "total" props + 1))))
      = slot name props := slot_write_of_ne (bucket_ne_total name hname)
  have htotal : slot "total" (write (write props "total" (.value (.number (slot "total" props + 1))))
      name (.value (.number (slot name props + 1)))) = slot "total" props + 1 := by
    rw [slot_write_of_ne (bucket_ne_total name hname).symm, slot_write_self]
  refine ⟨⟨?_, ?_, ?_⟩, htotal⟩
  · exact write_names (write_names hbalanced.names (by decide)) (bucket_mem_fields name hname)
  · rw [htotal, ← hslot, bucketSum_write hname, bucketSum_write_of_not_mem (by decide),
      hbalanced.total]
  · refine nonneg_write (nonneg_write hbalanced.nonneg ?_) ?_
    · exact add_nonneg hbalanced.total_nonneg zero_le_one
    · exact add_nonneg (hbalanced.nonneg name hname) zero_le_one

theorem balanced_newGroup : Balanced newGroup := by
  constructor <;> decide +kernel

/-- In a process to which nothing has been added, a plain row is counted in one bucket of its
group. -/
theorem tally_plain (hfresh : Fresh h) (hshaped : Shaped t h)
    (hbalanced : ∀ key ∈ keys t h, Balanced (h (.own (.group t key)))) (hkey : key ∉ members)
    (houtcome : outcome ∉ otherNames) :
    ∃ h', tally t key outcome h = .ok h' ∧ Fresh h' ∧ Shaped t h' ∧
      (∀ key ∈ keys t h', Balanced (h' (.own (.group t key)))) ∧
      (∀ i, i ≠ .table t → i ≠ .group t key → h' (.own i) = h (.own i)) ∧
      overGroups t (slot "total") h' = overGroups t (slot "total") h + 1 := by
  have hfresh₁ : Fresh (totalled t key h) := by
    intro r hr
    rw [totalled_frame (hr _) (hr _)]
    exact hfresh r hr
  have hshaped₁ := hshaped.totalled hkey
  have hnumeric := hshaped₁.numeric key mem_keys_totalled
  have hensured : Balanced (ensured t key h (.own (.group t key))) := by
    rw [ensured_group]
    by_cases hmem : key ∈ keys t h
    · rw [if_neg fun hcontra => hcontra.2 hmem]
      exact hbalanced key hmem
    · rw [if_pos ⟨rfl, hmem⟩]
      exact balanced_newGroup
  have hbucket : bucketOf (totalled t key h) (.group t key) outcome ∈ buckets := by
    refine bucketOf_plain hfresh₁ ?_ houtcome
    rw [totalled_group]
    exact write_names hensured.names (by decide)
  set name := bucketOf (totalled t key h) (.group t key) outcome with hname
  have hslot : slot name (totalled t key h (.own (.group t key)))
      = slot name (ensured t key h (.own (.group t key))) := by
    rw [totalled_group, slot_write_of_ne (bucket_ne_total name hbucket)]
  have hstep := increment_number (hnumeric name (bucket_mem_fields name hbucket))
  rw [hslot] at hstep
  set h' := store (totalled t key h) (.own (.group t key)) name
    (.number (slot name (ensured t key h (.own (.group t key))) + 1)) with hh'
  have hframe : ∀ r, r ≠ .own (.group t key) → h' r = totalled t key h r :=
    fun r hr => store_of_ne hr
  obtain ⟨hcounted, htotal⟩ := hensured.counted hbucket
  have hgroup : h' (.own (.group t key))
      = write (write (ensured t key h (.own (.group t key))) "total" (.value (.number
          (slot "total" (ensured t key h (.own (.group t key))) + 1)))) name
          (.value (.number (slot name (ensured t key h (.own (.group t key))) + 1))) := by
    rw [hh', store_self, totalled_group]
  refine ⟨h', ?_, hfresh₁.store, ?_, ?_, ?_, ?_⟩
  · rw [tally_eq hshaped hfresh.rooted hkey, ← hname, hstep]
    rfl
  · refine hshaped₁.regroup hframe ?_
    rw [hh', store_self]
    exact hnumeric.write_number
  · intro key' hkey'
    by_cases heq : key' = key
    · subst heq
      rw [hgroup]
      exact hcounted
    · have hold : key' ∈ keys t h := by
        rw [keys, hframe _ (by simp), totalled, store_of_ne (by simp)] at hkey'
        have hkeys : key' ∈ keys t (ensured t key h) := hkey'
        rw [keys_ensured] at hkeys
        split at hkeys
        · exact hkeys
        · exact (List.mem_append.mp hkeys).resolve_right (by simpa using heq)
      rw [hframe _ (by simpa using heq), totalled, store_of_ne (by simpa using heq), ensured_group,
        if_neg fun hcontra => heq hcontra.1]
      exact hbalanced key' hold
  · intro i htable hi
    rw [hframe _ (by simpa using hi)]
    exact totalled_frame (by simpa using htable) (by simpa using hi)
  · rw [overGroups_regroup hshaped₁ mem_keys_totalled hframe,
      overGroups_totalled hshaped hkey (by decide +kernel), hgroup, htotal]
    ring

/-- What the loop keeps as long as the rows are plain. -/
structure Clean (h : Heap Local) : Prop where
  fresh : Fresh h
  shaped : ∀ t, Shaped t h
  balanced : ∀ t, ∀ key ∈ keys t h, Balanced (h (.own (.group t key)))
  names : ∀ name ∈ (h (.own .byOutcome)).map Prod.fst, name ∈ fields
  numeric : Numeric buckets (h (.own .byOutcome))
  nonneg : ∀ name ∈ buckets, 0 ≤ slot name (h (.own .byOutcome))

theorem Clean.kept (hclean : Clean h) : Kept h := ⟨hclean.fresh.rooted, hclean.shaped⟩

theorem bucketOf_eq_success {i : Local} (hnumeric : Numeric buckets (h (.own i))) :
    bucketOf h i outcome = "success" ↔ outcome = "success" := by
  constructor
  · intro heq
    rw [bucketOf] at heq
    split at heq
    · exact heq
    · exact absurd heq (by decide)
  · rintro rfl
    rw [bucketOf, if_pos (has_of_lookup (hnumeric "success" (by decide)))]

theorem balanced_congr {h' : Heap Local} {t : Grouping}
    (hbalanced : ∀ key ∈ keys t h, Balanced (h (.own (.group t key))))
    (hown : ∀ i, i = .table t ∨ (∃ key, i = .group t key) → h' (.own i) = h (.own i)) :
    ∀ key ∈ keys t h', Balanced (h' (.own (.group t key))) := by
  intro key hkey
  rw [keys, hown _ (.inl rfl)] at hkey
  rw [hown _ (.inr ⟨key, rfl⟩)]
  exact hbalanced key hkey

/-- A plain row is counted once in the summary and once in each grouping. -/
theorem countRow_plain {row : TaskRow} (hclean : Clean h) (hplain : Plain row) :
    ∃ h', countRow h row = .ok h' ∧ Clean h' ∧
      (∀ t, overGroups t (slot "total") h' = overGroups t (slot "total") h + 1) ∧
      bucketSum (h' (.own .byOutcome)) = bucketSum (h (.own .byOutcome)) + 1 ∧
      slot "success" (h' (.own .byOutcome)) = slot "success" (h (.own .byOutcome))
        + if outcomeOf row = "success" then 1 else 0 := by
  obtain ⟨houtcome, hassignee, hpriority⟩ := hplain
  have hbucket := bucketOf_plain hclean.fresh hclean.names houtcome
  have hsuccess : bucketOf h .byOutcome (outcomeOf row) = "success" ↔ outcomeOf row = "success" :=
    bucketOf_eq_success hclean.numeric
  set name := bucketOf h .byOutcome (outcomeOf row) with hname
  have hstep := increment_number (hclean.numeric name hbucket)
  set h₁ := store h (.own .byOutcome) name (.number (slot name (h (.own .byOutcome)) + 1)) with hh₁
  have hsummary : h₁ (.own .byOutcome) = write (h (.own .byOutcome)) name
      (.value (.number (slot name (h (.own .byOutcome)) + 1))) := store_self
  have hframe₁ : ∀ i, i ≠ .byOutcome → h₁ (.own i) = h (.own i) :=
    fun i hi => store_of_ne (by simpa using hi)
  have hshaped₁ : ∀ t, Shaped t h₁ := fun t =>
    (hclean.shaped t).congr (hframe₁ _ (by simp)) fun key => hframe₁ _ (by simp)
  have hbalanced₁ : ∀ t, ∀ key ∈ keys t h₁, Balanced (h₁ (.own (.group t key))) := by
    intro t
    refine balanced_congr (hclean.balanced t) ?_
    rintro i (rfl | ⟨key, rfl⟩)
    · exact hframe₁ _ (by simp)
    · exact hframe₁ _ (by simp)
  obtain ⟨h₂, hagent, hfresh₂, hshaped₂, hbalanced₂, hframe₂, htotal₂⟩ :=
    tally_plain hclean.fresh.store (hshaped₁ .byAgent) (hbalanced₁ .byAgent) hassignee houtcome
  have hother₂ : Shaped .byPriority h₂ :=
    (hshaped₁ .byPriority).congr (hframe₂ _ (by simp) (by simp))
      fun key => hframe₂ _ (by simp) (by simp)
  have hbalancedOther₂ :
      ∀ key ∈ keys .byPriority h₂, Balanced (h₂ (.own (.group .byPriority key))) := by
    refine balanced_congr (hbalanced₁ .byPriority) ?_
    rintro i (rfl | ⟨key, rfl⟩)
    · exact hframe₂ _ (by simp) (by simp)
    · exact hframe₂ _ (by simp) (by simp)
  obtain ⟨h₃, hpriorities, hfresh₃, hshaped₃, hbalanced₃, hframe₃, htotal₃⟩ :=
    tally_plain hfresh₂ hother₂ hbalancedOther₂ hpriority houtcome
  have hagents : ∀ i, i = .table .byAgent ∨ (∃ key, i = .group .byAgent key) →
      h₃ (.own i) = h₂ (.own i) := by
    rintro i (rfl | ⟨key, rfl⟩)
    · exact hframe₃ _ (by simp) (by simp)
    · exact hframe₃ _ (by simp) (by simp)
  have hsame : h₃ (.own .byOutcome) = h₁ (.own .byOutcome) := by
    rw [hframe₃ _ (by simp) (by simp), hframe₂ _ (by simp) (by simp)]
  refine ⟨h₃, ?_, ⟨hfresh₃, ?_, ?_, ?_, ?_, ?_⟩, ?_, ?_, ?_⟩
  · rw [countRow, countSummary_eq, ← hname, hstep]
    show (tally .byAgent (assigneeOf row) (outcomeOf row) h₁ >>= fun h =>
      tally .byPriority (priorityOf row) (outcomeOf row) h) = _
    rw [hagent]
    exact hpriorities
  · intro t
    cases t with
    | byAgent => exact hshaped₂.congr (hagents _ (.inl rfl)) fun key => hagents _ (.inr ⟨key, rfl⟩)
    | byPriority => exact hshaped₃
  · intro t
    cases t with
    | byAgent => exact balanced_congr hbalanced₂ hagents
    | byPriority => exact hbalanced₃
  · rw [hsame, hsummary]
    exact write_names hclean.names (bucket_mem_fields name hbucket)
  · rw [hsame, hsummary]
    exact hclean.numeric.write_number
  · rw [hsame, hsummary]
    exact nonneg_write hclean.nonneg (add_nonneg (hclean.nonneg name hbucket) zero_le_one)
  · intro t
    have hsum₁ : overGroups t (slot "total") h₁ = overGroups t (slot "total") h :=
      overGroups_congr (hframe₁ _ (by simp)) (fun key => hframe₁ _ (by simp)) _
    rw [← hsum₁]
    cases t with
    | byAgent =>
      rw [← htotal₂]
      exact overGroups_congr (hagents _ (.inl rfl)) (fun key => hagents _ (.inr ⟨key, rfl⟩)) _
    | byPriority =>
      rw [htotal₃]
      congr 1
      exact overGroups_congr (hframe₂ _ (by simp) (by simp))
        (fun key => hframe₂ _ (by simp) (by simp)) _
  · rw [hsame, hsummary, bucketSum_write hbucket]
  · rw [hsame, hsummary]
    by_cases hsuccessful : outcomeOf row = "success"
    · rw [if_pos hsuccessful, ← hsuccess.mpr hsuccessful, slot_write_self]
    · rw [if_neg hsuccessful, slot_write_of_ne fun hcontra => hsuccessful (hsuccess.mp hcontra.symm),
        add_zero]

/-- Plain rows are each counted once. -/
theorem loop_plain {rows : List TaskRow} (hclean : Clean h) (hplain : ∀ row ∈ rows, Plain row) :
    ∃ h', rows.foldlM countRow h = .ok h' ∧ Clean h' ∧
      (∀ t, overGroups t (slot "total") h' = overGroups t (slot "total") h + rows.length) ∧
      bucketSum (h' (.own .byOutcome)) = bucketSum (h (.own .byOutcome)) + rows.length ∧
      slot "success" (h' (.own .byOutcome)) = slot "success" (h (.own .byOutcome))
        + rows.countP fun row => outcomeOf row = "success" := by
  induction rows generalizing h with
  | nil => exact ⟨h, rfl, hclean, fun t => by simp, by simp, by simp⟩
  | cons row rows ih =>
    obtain ⟨hrow, hrows⟩ := List.forall_mem_cons.mp hplain
    obtain ⟨h₁, hstep, hclean₁, htotal₁, hbuckets₁, hsuccess₁⟩ := countRow_plain hclean hrow
    obtain ⟨h', hloop, hclean', htotal', hbuckets', hsuccess'⟩ := ih hclean₁ hrows
    refine ⟨h', ?_, hclean', fun t => ?_, ?_, ?_⟩
    · rw [List.foldlM_cons, hstep]
      exact hloop
    · rw [htotal', htotal₁, List.length_cons]
      push_cast
      ring
    · rw [hbuckets', hbuckets₁, List.length_cons]
      push_cast
      ring
    · rw [hsuccess', hsuccess₁, List.countP_cons]
      by_cases hsuccessful : outcomeOf row = "success"
      · simp only [hsuccessful, decide_true, if_true]
        push_cast
        ring
      · simp only [hsuccessful, decide_false, if_false, Bool.false_eq_true]
        push_cast
        ring

end

end MissionControl.Outcomes.Loop
