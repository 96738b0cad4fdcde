import Mathlib.Algebra.Order.Field.Basic
import MissionControl.Outcomes.Loop

/-!
The report on outcomes counts every task once, in each of its three ways, unless a task has an
outcome, an assignee or a priority that is the name of a property which the counting objects have
anyway.
-/

set_option autoImplicit false
set_option relaxedAutoImplicit false

namespace MissionControl.Outcomes.Conservation

open MissionControl.Foundations
open MissionControl.Foundations.JsObjects
open Routes Counting Loop

/-! ### The purpose -/

/-- What a serialised object has under a name. -/
def field (props : List (String × Value Local)) (name : String) : Value Local :=
  (props.lookup name).getD .undefined

/-- Numbers with a sum. -/
def SumTo (values : List (Value Local)) (sum : ℚ) : Prop :=
  ∃ qs : List ℚ, values = qs.map .number ∧ qs.sum = sum

def IsRate (v : Value Local) : Prop := ∃ q, v = .number q ∧ 0 ≤ q ∧ q ≤ 1

/-- Groups that share the done tasks out. -/
structure GroupsConserve (groups : List (String × List (String × Value Local))) (done : ℚ) :
    Prop where
  totals : SumTo (groups.map fun group => field group.2 "total") done
  buckets : ∀ group ∈ groups, ∃ total, field group.2 "total" = .number total ∧
    SumTo (buckets.map (field group.2)) total
  rates : ∀ group ∈ groups, IsRate (field group.2 "success_rate")

structure ReportConserves (report : Report) : Prop where
  byOutcome : SumTo (buckets.map (field report.byOutcome)) report.totalDone
  byAgent : GroupsConserve report.byAgent report.totalDone
  byPriority : GroupsConserve report.byPriority report.totalDone
  successRate : IsRate report.successRate

/-- The request succeeds, with a report that conserves the tasks. -/
def Conserves : Response → Prop
  | .failed => False
  | .ok report => ReportConserves report

/-! ### Rates -/

section

variable {h h' : Heap Local} {t : Grouping} {key : String} {props : Properties Local}

/-- The rate of a group, in numbers. -/
def rated (props : Properties Local) : ℚ :=
  if 0 < slot "total" props - slot "unknown" props then
    slot "success" props / (slot "total" props - slot "unknown" props)
  else 0

theorem rate_number (success withOutcome : ℚ) :
    rate (.number success) (.number withOutcome)
      = .number (if 0 < withOutcome then success / withOutcome else 0) := by
  rw [rate, positive]
  by_cases hpositive : 0 < withOutcome
  · rw [if_pos (decide_eq_true hpositive), if_pos hpositive]
    rfl
  · rw [if_neg (by simpa using hpositive), if_neg hpositive]

theorem quotient_bounds {success withOutcome : ℚ} (hnonneg : 0 ≤ success)
    (hle : success ≤ withOutcome) :
    0 ≤ (if 0 < withOutcome then success / withOutcome else 0) ∧
      (if 0 < withOutcome then success / withOutcome else 0) ≤ 1 := by
  split
  · rename_i hpositive
    exact ⟨div_nonneg hnonneg hpositive.le, (div_le_one hpositive).mpr hle⟩
  · exact ⟨le_rfl, zero_le_one⟩

/-- A group that is in balance has a rate. -/
theorem rated_bounds (hbalanced : Balanced props) : 0 ≤ rated props ∧ rated props ≤ 1 := by
  refine quotient_bounds (hbalanced.nonneg "success" (by decide)) ?_
  have hsum := hbalanced.total
  have hfailed := hbalanced.nonneg "failed" (by decide)
  have hpartial := hbalanced.nonneg "partial" (by decide)
  have habandoned := hbalanced.nonneg "abandoned" (by decide)
  simp only [bucketSum, buckets, List.map_cons, List.map_nil, List.sum_cons, List.sum_nil] at hsum
  linarith

/-- A group with its rate. -/
def withRate (props : Properties Local) : Properties Local :=
  write props "success_rate" (.value (.number (rated props)))

theorem setRate_group (hnumeric : Numeric fields (h (.own (.group t key)))) :
    setRate h (.object (.own (.group t key)))
      = .ok (store h (.own (.group t key)) "success_rate"
          (.number (rated (h (.own (.group t key)))))) := by
  rw [setRate, read_of_lookup (hnumeric "total" (by decide)),
    read_of_lookup (hnumeric "unknown" (by decide)), read_of_lookup (hnumeric "success" (by decide))]
  simp only [sub, rate_number]
  rw [put, find_of_lookup (hnumeric "success_rate" (by decide))]
  rfl

/-- What the loop over the groups leaves. -/
structure Rated (t : Grouping) (keys : List String) (h h' : Heap Local) : Prop where
  frame : ∀ r, (∀ key ∈ keys, r ≠ .own (.group t key)) → h' r = h r
  group : ∀ key ∈ keys, h' (.own (.group t key)) = withRate (h (.own (.group t key)))

theorem foldlM_setRate {keys : List String} (hnodup : keys.Nodup)
    (hnumeric : ∀ key ∈ keys, Numeric fields (h (.own (.group t key)))) :
    ∃ h', (keys.map fun key => Value.object (.own (.group t key))).foldlM setRate h = .ok h' ∧
      Rated t keys h h' := by
  induction keys generalizing h with
  | nil => exact ⟨h, rfl, fun _ _ => rfl, fun _ hkey => absurd hkey List.not_mem_nil⟩
  | cons key keys ih =>
    obtain ⟨hnew, hnodup⟩ := List.nodup_cons.mp hnodup
    obtain ⟨hfirst, hrest⟩ := List.forall_mem_cons.mp hnumeric
    have hne : ∀ key' ∈ keys, key' ≠ key := by
      rintro key' hkey' rfl
      exact hnew hkey'
    set h₁ := store h (.own (.group t key)) "success_rate"
      (.number (rated (h (.own (.group t key))))) with hh₁
    have hother : ∀ key' ∈ keys, h₁ (.own (.group t key')) = h (.own (.group t key')) :=
      fun key' hkey' => store_of_ne (by simpa using hne key' hkey')
    obtain ⟨h', hloop, hrated⟩ := ih (h := h₁) hnodup fun key' hkey' => by
      rw [hother key' hkey']
      exact hrest key' hkey'
    refine ⟨h', ?_, ?_, ?_⟩
    · rw [List.map_cons, List.foldlM_cons, setRate_group hfirst]
      exact hloop
    · intro r hr
      rw [hrated.frame r fun key' hkey' => hr key' (List.mem_cons_of_mem _ hkey')]
      exact store_of_ne (hr key List.mem_cons_self)
    · intro key' hkey'
      rcases List.mem_cons.mp hkey' with rfl | hkey'
      · rw [hrated.frame _ fun key'' hkey'' => by simpa using (hne key'' hkey'').symm, hh₁,
          store_self]
        rfl
      · rw [hrated.group key' hkey', hother key' hkey']

theorem table_eq (hshaped : Shaped t h) :
    h (.own (.table t)) = (keys t h).map fun key =>
      (key, .value (.object (.own (.group t key)))) := by
  rw [keys, List.map_map]
  refine (List.map_id _).symm.trans (List.map_congr_left fun e he => ?_)
  have hkey : e.1 ∈ keys t h := List.mem_map_of_mem he
  have hvalue := hshaped.entry e.1 hkey
  rw [lookup_of_mem hshaped.nodup he] at hvalue
  exact Prod.ext rfl (Option.some.inj hvalue)

theorem entries_eq (hshaped : Shaped t h) :
    entries h (.own (.table t)) = (keys t h).map fun key => (key, .object (.own (.group t key))) := by
  rw [entries, table_eq hshaped, List.filterMap_map, ← List.filterMap_eq_map]
  rfl

/-- Where the rates are set, all groups have theirs. -/
theorem setRates_rated (hshaped : Shaped t h) (hrates : setRates t h = .ok h') :
    Rated t (keys t h) h h' := by
  unfold setRates at hrates
  split at hrates
  · rw [entries_eq hshaped, List.map_map] at hrates
    obtain ⟨h'', hloop, hrated⟩ := foldlM_setRate hshaped.nodup hshaped.numeric
    have hsame : Except.ok h'' = Except.ok h' := hloop.symm.trans hrates
    rwa [Except.ok.inj hsame] at hrated
  · cases hrates

theorem setRates_fresh (hfresh : Fresh h) (hshaped : Shaped t h) : ∃ h', setRates t h = .ok h' := by
  have hvalues : JsObjects.read h (.builtin .global "Object") "values"
      = some (.object (.builtin .object "values")) := by
    refine read_of_lookup ?_
    rw [hfresh _ (by simp)]
    rfl
  obtain ⟨h', hloop, -⟩ := foldlM_setRate hshaped.nodup hshaped.numeric
  refine ⟨h', ?_⟩
  rw [setRates, hvalues, entries_eq hshaped, List.map_map]
  exact hloop

end

/-! ### Reports -/

section

variable {h h' : Heap Local} {t : Grouping} {name k : String} {v : Value Local}

/-- What an object owns is in its serialisation. -/
theorem field_entries {r : Ref Local} (hown : (h r).lookup name = some (.value v)) :
    field (entries h r) name = v := by
  have hlookup : (entries h r).lookup name = some v := by
    rw [entries]
    generalize h r = props at hown
    induction props with
    | nil => cases hown
    | cons e props ih =>
      obtain ⟨k, p⟩ := e
      by_cases hk : name = k
      · subst hk
        rw [List.lookup_cons_self] at hown
        obtain rfl := Option.some.inj hown
        simp
      · rw [List.lookup_cons, beq_false_of_ne hk] at hown
        cases p with
        | value w => simp [List.lookup_cons, beq_false_of_ne hk, ih hown]
        | fixed w => simp [List.lookup_cons, beq_false_of_ne hk, ih hown]
        | proto => simp [ih hown]
        | restricted => simp [ih hown]
  rw [field, hlookup]
  rfl

theorem groupsOf_eq (hshaped : Shaped t h) :
    groupsOf h t = (keys t h).map fun key => (key, entries h (.own (.group t key))) := by
  rw [groupsOf, entries_eq hshaped, List.map_map]
  rfl

theorem sumTo_map {α : Type} {l : List α} {f : α → ℚ} {sum : ℚ} :
    SumTo (l.map fun a => .number (f a)) sum ↔ (l.map f).sum = sum := by
  constructor
  · rintro ⟨qs, hqs, rfl⟩
    have hinjective : Function.Injective (Value.number (ι := Local)) := fun q q' h =>
      Value.number.inj h
    have hmap : (l.map f).map (Value.number (ι := Local)) = qs.map Value.number := by
      rw [List.map_map]
      exact hqs
    rw [List.map_injective_iff.mpr hinjective hmap]
  · intro h
    exact ⟨l.map f, by rw [List.map_map]; rfl, h⟩

theorem sumTo_buckets {r : Ref Local} (hnumeric : Numeric buckets (h r)) {sum : ℚ} :
    SumTo (buckets.map (field (entries h r))) sum ↔ bucketSum (h r) = sum := by
  have hfields : buckets.map (field (entries h r))
      = buckets.map fun name => .number (slot name (h r)) :=
    List.map_congr_left fun name hname => field_entries (hnumeric name hname)
  rw [hfields]
  exact sumTo_map

theorem numeric_buckets {props : Properties Local} (hnumeric : Numeric fields props) :
    Numeric buckets props :=
  fun name hname => hnumeric name (bucket_mem_fields name hname)

/-- What the groups of a table share out, in numbers. -/
theorem groupsConserve_iff (hshaped : Shaped t h) {done : ℚ} :
    GroupsConserve (groupsOf h t) done ↔
      overGroups t (slot "total") h = done ∧ ∀ key ∈ keys t h,
        bucketSum (h (.own (.group t key))) = slot "total" (h (.own (.group t key))) ∧
          0 ≤ slot "success_rate" (h (.own (.group t key))) ∧
            slot "success_rate" (h (.own (.group t key))) ≤ 1 := by
  have hfield : ∀ key ∈ keys t h, ∀ name ∈ fields,
      field (entries h (.own (.group t key))) name = .number (slot name (h (.own (.group t key)))) :=
    fun key hkey name hname => field_entries (hshaped.numeric key hkey name hname)
  have htotals : SumTo ((groupsOf h t).map fun group => field group.2 "total") done ↔
      overGroups t (slot "total") h = done := by
    have hmap : (groupsOf h t).map (fun group => field group.2 "total")
        = (keys t h).map fun key => .number (slot "total" (h (.own (.group t key)))) := by
      rw [groupsOf_eq hshaped, List.map_map]
      exact List.map_congr_left fun key hkey => hfield key hkey "total" (by decide)
    rw [hmap]
    exact sumTo_map
  constructor
  · intro hconserve
    refine ⟨htotals.mp hconserve.totals, fun key hkey => ?_⟩
    have hmem : (key, entries h (.own (.group t key))) ∈ groupsOf h t := by
      rw [groupsOf_eq hshaped]
      exact List.mem_map_of_mem hkey
    obtain ⟨total, htotal, hbuckets⟩ := hconserve.buckets _ hmem
    obtain ⟨q, hq, hrate⟩ := hconserve.rates _ hmem
    have htotal' := (hfield key hkey "total" (by decide)).symm.trans htotal
    have hq' := (hfield key hkey "success_rate" (by decide)).symm.trans hq
    rw [Value.number.inj htotal', Value.number.inj hq']
    exact ⟨(sumTo_buckets (numeric_buckets (hshaped.numeric key hkey))).mp hbuckets, hrate⟩
  · rintro ⟨hsum, hgroups⟩
    refine ⟨htotals.mpr hsum, ?_, ?_⟩
    · intro group hgroup
      rw [groupsOf_eq hshaped] at hgroup
      obtain ⟨key, hkey, rfl⟩ := List.mem_map.mp hgroup
      exact ⟨_, hfield key hkey "total" (by decide),
        (sumTo_buckets (numeric_buckets (hshaped.numeric key hkey))).mpr (hgroups key hkey).1⟩
    · intro group hgroup
      rw [groupsOf_eq hshaped] at hgroup
      obtain ⟨key, hkey, rfl⟩ := List.mem_map.mp hgroup
      exact ⟨_, hfield key hkey "success_rate" (by decide), (hgroups key hkey).2⟩

end

/-! ### Rated groups -/

section

variable {h h₁ h₂ h₃ : Heap Local} {t : Grouping} {key : String}

/-- The objects with the rates of every grouping set. -/
structure Finished (h h' : Heap Local) : Prop where
  shaped : ∀ t, Shaped t h'
  keys : ∀ t, keys t h' = keys t h
  group : ∀ t, ∀ key ∈ Counting.keys t h,
    h' (.own (.group t key)) = withRate (h (.own (.group t key)))
  frame : ∀ r, (∀ t key, r ≠ .own (.group t key)) → h' r = h r

theorem numeric_withRate {names : List String} {props : Properties Local}
    (hnumeric : Numeric names props) : Numeric names (withRate props) :=
  hnumeric.write_number

theorem slot_withRate {name : String} (hname : name ≠ "success_rate") (props : Properties Local) :
    slot name (withRate props) = slot name props :=
  slot_write_of_ne hname

theorem bucketSum_withRate (props : Properties Local) :
    bucketSum (withRate props) = bucketSum props :=
  bucketSum_write_of_not_mem (by decide)

theorem Rated.table {keys : List String} (hrated : Rated t keys h h₁) (t' : Grouping) :
    h₁ (.own (.table t')) = h (.own (.table t')) :=
  hrated.frame _ fun _ _ => by simp

theorem Rated.shaped (hrated : Rated t (keys t h) h h₁) (hshaped : Shaped t h) : Shaped t h₁ := by
  have hkeys : keys t h₁ = keys t h := by
    rw [keys, hrated.table, keys]
  refine ⟨hkeys ▸ hshaped.nodup, ?_, ?_, ?_⟩
  · intro key hkey
    rw [hrated.table]
    exact hshaped.entry key (hkeys ▸ hkey)
  · intro key hkey
    exact hshaped.member key (hkeys ▸ hkey)
  · intro key hkey
    rw [hrated.group key (hkeys ▸ hkey)]
    exact numeric_withRate (hshaped.numeric key (hkeys ▸ hkey))

/-- Rates are set in the groups of one table after the other. -/
theorem finished_of_rates (hshaped : ∀ t, Shaped t h₁) (hagents : setRates .byAgent h₁ = .ok h₂)
    (hpriorities : setRates .byPriority h₂ = .ok h₃) : Finished h₁ h₃ := by
  have hrated₂ := setRates_rated (hshaped .byAgent) hagents
  have hgroup₂ : ∀ key, h₂ (.own (.group .byPriority key)) = h₁ (.own (.group .byPriority key)) :=
    fun key => hrated₂.frame _ fun _ _ => by simp
  have hshaped₂ : Shaped .byPriority h₂ :=
    (hshaped .byPriority).congr (hrated₂.table _) hgroup₂
  have hrated₃ := setRates_rated hshaped₂ hpriorities
  have hgroup₃ : ∀ key, h₃ (.own (.group .byAgent key)) = h₂ (.own (.group .byAgent key)) :=
    fun key => hrated₃.frame _ fun _ _ => by simp
  have hkeys₂ : Counting.keys .byPriority h₂ = Counting.keys .byPriority h₁ := by
    rw [Counting.keys, hrated₂.table, Counting.keys]
  refine ⟨fun t => ?_, fun t => ?_, fun t key hkey => ?_, fun r hr => ?_⟩
  · cases t with
    | byAgent => exact (hrated₂.shaped (hshaped .byAgent)).congr (hrated₃.table _) hgroup₃
    | byPriority => exact hrated₃.shaped hshaped₂
  · rw [Counting.keys, hrated₃.table, hrated₂.table, Counting.keys]
  · cases t with
    | byAgent => rw [hgroup₃, hrated₂.group key hkey]
    | byPriority => rw [hrated₃.group key (hkeys₂ ▸ hkey), hgroup₂]
  · rw [hrated₃.frame r fun key _ => hr .byPriority key,
      hrated₂.frame r fun key _ => hr .byAgent key]

theorem Finished.overGroups (hfinished : Finished h h₃) {f : Properties Local → ℚ}
    (hf : ∀ props, f (withRate props) = f props) :
    Counting.overGroups t f h₃ = Counting.overGroups t f h := by
  rw [Counting.overGroups, hfinished.keys]
  refine congrArg List.sum (List.map_congr_left fun key hkey => ?_)
  rw [hfinished.group t key hkey, hf]

/-- The report of a grouping, from what the loop counted. -/
theorem Finished.groupsConserve_iff (hfinished : Finished h h₃) {done : ℚ} :
    GroupsConserve (groupsOf h₃ t) done ↔
      Counting.overGroups t (slot "total") h = done ∧ ∀ key ∈ Counting.keys t h,
        bucketSum (h (.own (.group t key))) = slot "total" (h (.own (.group t key))) ∧
          0 ≤ rated (h (.own (.group t key))) ∧ rated (h (.own (.group t key))) ≤ 1 := by
  rw [Conservation.groupsConserve_iff (hfinished.shaped t), hfinished.keys,
    hfinished.overGroups (slot_withRate (by decide))]
  refine and_congr_right fun _ => forall₂_congr fun key hkey => ?_
  rw [hfinished.group t key hkey, bucketSum_withRate, slot_withRate (by decide)]
  have hrate : slot "success_rate" (withRate (h (.own (.group t key))))
      = rated (h (.own (.group t key))) := slot_write_self
  rw [hrate]

end

/-! ### The route -/

section

variable {h h' : Heap Local} {request : Request} {rows : List TaskRow}

theorem clean_start (hfresh : Fresh h) : Clean (start h) := by
  refine ⟨fun r hr => ?_, fun t => ?_, fun t key hkey => ?_, ?_, ?_, ?_⟩
  · cases r with
    | own i => exact absurd rfl (hr i)
    | objectPrototype => exact hfresh _ hr
    | functionPrototype => exact hfresh _ hr
    | builtin holder name => exact hfresh _ hr
  · refine ⟨List.nodup_nil, ?_, ?_, ?_⟩ <;> exact fun key hkey => absurd hkey List.not_mem_nil
  · exact absurd hkey List.not_mem_nil
  · show ∀ name ∈ outcomeBuckets.map Prod.fst, name ∈ fields
    decide
  · show Numeric buckets outcomeBuckets
    decide +kernel
  · show ∀ name ∈ buckets, 0 ≤ slot name outcomeBuckets
    decide +kernel

theorem overGroups_start (t : Grouping) (f : Properties Local → ℚ) :
    overGroups t f (start h) = 0 := rfl

/-- A request that is answered has gone through the loop and both loops over rates. -/
theorem countAll_steps (hall : countAll rows h = .ok h') :
    ∃ h₁ h₂, rows.foldlM countRow (start h) = .ok h₁ ∧ setRates .byAgent h₁ = .ok h₂ ∧
      setRates .byPriority h₂ = .ok h' := by
  unfold countAll at hall
  cases hloop : rows.foldlM countRow (start h) with
  | error h₁ =>
    rw [hloop] at hall
    cases hall
  | ok h₁ =>
    rw [hloop] at hall
    replace hall : (setRates .byAgent h₁ >>= fun h => setRates .byPriority h) = .ok h' := hall
    cases hagents : setRates .byAgent h₁ with
    | error h₂ =>
      rw [hagents] at hall
      cases hall
    | ok h₂ =>
      rw [hagents] at hall
      exact ⟨h₁, h₂, rfl, hagents, hall⟩

/-- Where a report conserves the tasks, each grouping counts every one of them. -/
theorem counts_of_conserve (hfresh : Fresh h) (hall : countAll rows h = .ok h') {t : Grouping}
    (hconserve : GroupsConserve (groupsOf h' t) rows.length) : ∀ row ∈ rows, Counts t row := by
  obtain ⟨h₁, h₂, hloop, hagents, hpriorities⟩ := countAll_steps hall
  obtain ⟨hkept, hbound⟩ := loop_bound (clean_start hfresh).kept hloop
  have hfinished := finished_of_rates hkept.shaped hagents hpriorities
  obtain ⟨htotal, hgroups⟩ := hfinished.groupsConserve_iff.mp hconserve
  have hbuckets : overGroups t bucketSum h₁ = rows.length := by
    rw [← htotal]
    exact congrArg List.sum (List.map_congr_left fun key hkey => (hgroups key hkey).1)
  have hle : (rows.length : ℚ) ≤ rows.countP fun row => Counts t row := by
    have hsum := hbound t
    rwa [hbuckets, overGroups_start, zero_add] at hsum
  have hlength : rows.countP (fun row => Counts t row) = rows.length :=
    Nat.le_antisymm List.countP_le_length (by exact_mod_cast hle)
  intro row hrow
  exact of_decide_eq_true (List.countP_eq_length.mp hlength row hrow)

theorem withOutcome_eq (totals : Totals) :
    (rows.foldl Totals.add totals).withOutcome
      = totals.withOutcome + rows.countP fun row => outcomeOf row ≠ "unknown" := by
  induction rows generalizing totals with
  | nil => rfl
  | cons row rows ih =>
    rw [List.foldl_cons, ih, List.countP_cons, Totals.add]
    by_cases houtcome : outcomeOf row = "unknown"
    · simp [houtcome]
    · simp [houtcome]
      omega

/-- Plain tasks are conserved, and leave the objects of the language as they are. -/
theorem conserves_of_plain (hfresh : Fresh h) (hplain : ∀ row ∈ doneRows request, Plain row) :
    Conserves (Routes.get h request).1 ∧ Fresh (Routes.get h request).2 := by
  obtain ⟨h₁, hloop, hclean, htotals, hbuckets, hsuccess⟩ := loop_plain (clean_start hfresh) hplain
  obtain ⟨h₂, hagents⟩ := setRates_fresh hclean.fresh (hclean.shaped .byAgent)
  have hrated₂ := setRates_rated (hclean.shaped .byAgent) hagents
  have hfresh₂ : Fresh h₂ := by
    intro r hr
    rw [hrated₂.frame r fun key _ => hr _]
    exact hclean.fresh r hr
  have hshaped₂ : Shaped .byPriority h₂ :=
    (hclean.shaped .byPriority).congr (hrated₂.table _) fun key => hrated₂.frame _ fun _ _ => by simp
  obtain ⟨h₃, hpriorities⟩ := setRates_fresh hfresh₂ hshaped₂
  have hfinished := finished_of_rates hclean.shaped hagents hpriorities
  have hsummary : h₃ (.own .byOutcome) = h₁ (.own .byOutcome) := hfinished.frame _ (by simp)
  have hnumeric : Numeric buckets (h₃ (.own .byOutcome)) := by
    rw [hsummary]
    exact hclean.numeric
  have hall : countAll (doneRows request) h = .ok h₃ := by
    rw [countAll, hloop]
    show (setRates .byAgent h₁ >>= fun h => setRates .byPriority h) = _
    rw [hagents]
    exact hpriorities
  have hget : Routes.get h request = (.ok (report request h₃ (rate
      (.number (slot "success" (h₃ (.own .byOutcome))))
      (.number ((doneRows request).foldl Totals.add ⟨0, 0, 0, 0, []⟩).withOutcome))), h₃) := by
    rw [Routes.get, hall]
    simp only [summaryRate, read_of_lookup (hnumeric "success" (by decide)), Option.map_some]
  have hgroups : ∀ t, GroupsConserve (groupsOf h₃ t) (doneRows request).length := by
    intro t
    refine hfinished.groupsConserve_iff.mpr ⟨?_, fun key hkey => ?_⟩
    · rw [htotals, overGroups_start, zero_add]
    · exact ⟨(hclean.balanced t key hkey).total, rated_bounds (hclean.balanced t key hkey)⟩
  rw [hget]
  refine ⟨⟨?_, hgroups .byAgent, hgroups .byPriority, ?_⟩, ?_⟩
  · refine (sumTo_buckets hnumeric).mpr ?_
    have hstart : bucketSum (start h (.own .byOutcome)) = 0 := by
      show bucketSum outcomeBuckets = 0
      decide +kernel
    rw [hsummary, hbuckets, hstart, zero_add]
    rfl
  · have hstart : slot "success" (start h (.own .byOutcome)) = 0 := by
      show slot "success" outcomeBuckets = 0
      decide +kernel
    have hle : (doneRows request).countP (fun row => outcomeOf row = "success")
        ≤ (doneRows request).countP fun row => outcomeOf row ≠ "unknown" := by
      refine List.countP_mono_left fun row _ hrow => ?_
      rw [decide_eq_true_eq] at hrow
      rw [hrow]
      decide
    show IsRate (rate _ _)
    rw [rate_number, hsummary, hsuccess, hstart, zero_add, withOutcome_eq]
    refine ⟨_, rfl, quotient_bounds (Nat.cast_nonneg _) ?_⟩
    simpa using hle
  · intro r hr
    show h₃ r = realm r
    rw [hfinished.frame r fun t key => hr _]
    exact hclean.fresh r hr

theorem plain_of_conserves (hfresh : Fresh h) (hconserve : Conserves (Routes.get h request).1) :
    ∀ row ∈ doneRows request, Plain row := by
  unfold Routes.get at hconserve
  split at hconserve
  · cases hconserve
  · rename_i h₃ hall
    split at hconserve
    · cases hconserve
    · intro row hrow
      refine plain_iff.mpr fun t => ?_
      cases t with
      | byAgent => exact counts_of_conserve hfresh hall hconserve.byAgent row hrow
      | byPriority => exact counts_of_conserve hfresh hall hconserve.byPriority row hrow

end

/-- In every run of requests to a process in which nothing has been added to the objects of the
language, all reports conserve the done tasks, whatever else stands in them, if and only if no done
task has an outcome, an assignee or a priority with the name of a property that the counting objects
have anyway. -/
theorem outcomes_conserve_iff (requests : List Request) :
    (∀ response ∈ run realm requests, Conserves response) ↔
      ∀ request ∈ requests, ∀ row ∈ doneRows request, Plain row := by
  suffices hrun : ∀ h : Heap Local, Fresh h → ((∀ response ∈ run h requests, Conserves response) ↔
      ∀ request ∈ requests, ∀ row ∈ doneRows request, Plain row) by
    exact hrun realm fun r _ => rfl
  induction requests with
  | nil =>
    intro h _
    simp [run]
  | cons request requests ih =>
    intro h hfresh
    rw [run, List.forall_mem_cons, List.forall_mem_cons]
    constructor
    · rintro ⟨hfirst, hrest⟩
      have hplain := plain_of_conserves hfresh hfirst
      exact ⟨hplain, (ih _ (conserves_of_plain hfresh hplain).2).mp hrest⟩
    · rintro ⟨hplain, hrest⟩
      obtain ⟨hconserve, hfresh'⟩ := conserves_of_plain hfresh hplain
      exact ⟨hconserve, (ih _ hfresh').mpr hrest⟩

/-- A done task that is assigned to an agent called constructor. -/
def strange : Request where
  tasks := [⟨1, 1, "done", some "constructor", some "medium", some "success", none, some 0, some 100,
    some 200, 200⟩]
  workspaceId := 1
  timeframe := none
  now := 86400

/-- The task is in no group of `by_agent`. -/
theorem strange_assignee_lost :
    ¬ ∀ request : Request, Conserves (Routes.get realm request).1 := by
  intro h
  have hlost : ∃ report, (Routes.get realm strange).1 = .ok report ∧ report.byAgent = [] ∧
      report.totalDone = 1 := by
    refine ⟨_, rfl, ?_, ?_⟩
    · decide +kernel
    · decide +kernel
  obtain ⟨report, hreport, hagents, hdone⟩ := hlost
  have hconserve := h strange
  rw [hreport] at hconserve
  obtain ⟨qs, hqs, hsum⟩ := hconserve.byAgent.totals
  rw [hagents, List.map_nil] at hqs
  rw [List.map_eq_nil_iff.mp hqs.symm, hdone] at hsum
  norm_num at hsum

end MissionControl.Outcomes.Conservation
