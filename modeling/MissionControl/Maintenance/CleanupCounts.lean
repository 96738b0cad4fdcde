import MissionControl.Maintenance.Cleanup
import Mathlib.Algebra.Order.BigOperators.Group.List
import Mathlib.Algebra.Order.Group.Nat

/-!
What the preview, the two runs of the route and the scheduler say of each target, as numbers that
are read off the data before any of them runs.
-/

set_option autoImplicit false
set_option relaxedAutoImplicit false

namespace MissionControl.Maintenance.CleanupCounts

open MissionControl.Foundations.Numbers
open MissionControl.Foundations.Schema (Json)
open Cleanup

/-! ### Counts by target -/

/-- `stale_count` of a target. -/
def staleCount (preview : List PreviewEntry) (target : Target) : Nat :=
  ((preview.filter fun e => e.table = target.label).map PreviewEntry.staleCount).sum

/-- `deleted` of a target; what has no result counts as nothing. -/
def deletedCount (results : List CleanupResult) (target : Target) : Nat :=
  ((results.filter fun r => r.table = target.label).map CleanupResult.deleted).sum

def addedCount (added : List (Target × Nat)) (target : Target) : Nat :=
  ((added.filter fun a => a.1 = target).map Prod.snd).sum

section

variable (rt : Runtime) (now : Nat) (ret : Retention) (w : World)

/-- The times of the records as comparisons take them, unless one of them throws. -/
def timestamps : List Json → Option (List Number)
  | [] => some []
  | r :: rest => (timestampOf rt r).bind fun x => (timestamps rest).map (x :: ·)

def tokenTimes : Option (List Number) := (tokenRecords w).bind (timestamps rt)

/-- The cutoff of the token usage file. -/
def tokensCutoff : Number := cutoffMs now ret.tokenUsage

/-- The entries that the loop over a store comes to before one that throws. -/
def readable (cutoff : Number) (es : List (String × Json)) : List (String × Json) :=
  es.takeWhile fun e => (isStaleEntry rt cutoff e.2).isSome

/-- A store with an entry that throws, or that cannot be replaced, has nothing stale before
the exception. -/
def StoreSound (cutoff : Number) (s : Store) : Prop :=
  ∀ es, s.content.bind entries = some es →
    (∃ e ∈ es, isStaleEntry rt cutoff e.2 = none) ∨ s.writable = false →
      ∀ e ∈ readable rt cutoff es, isStaleEntry rt cutoff e.2 ≠ some true

end

variable {rt : Runtime} {now : Nat} {ret : Retention}

theorem label_inj {a b : Target} : a.label = b.label ↔ a = b := by
  constructor
  · intro h
    cases a with
    | table t =>
      cases b with
      | table t' =>
        cases t <;> cases t' <;> first | rfl | exact absurd h (by decide)
      | tokenUsage => cases t <;> exact absurd h (by decide)
      | gatewaySessions => cases t <;> exact absurd h (by decide)
    | tokenUsage =>
      cases b with
      | table t' => cases t' <;> exact absurd h (by decide)
      | tokenUsage => rfl
      | gatewaySessions => exact absurd h (by decide)
    | gatewaySessions =>
      cases b with
      | table t' => cases t' <;> exact absurd h (by decide)
      | tokenUsage => exact absurd h (by decide)
      | gatewaySessions => rfl
  · rintro rfl
    rfl

theorem deletedCount_push (p : Progress) (w : World) (own target : Target) (n : Nat)
    (date : String) (days : Number) :
    deletedCount (p.push w ⟨own.label, n, date, days⟩).results target =
      deletedCount p.results target + if own = target then n else 0 := by
  simp only [deletedCount, Progress.push, List.filter_append, List.map_append, List.sum_append]
  congr 1
  by_cases h : own = target
  · simp [h]
  · have hlabel : own.label ≠ target.label := fun heq => h (label_inj.mp heq)
    simp [h, hlabel]

theorem addedCount_append (added : List (Target × Nat)) (own target : Target) (n : Nat) :
    addedCount (added ++ [(own, n)]) target =
      addedCount added target + if own = target then n else 0 := by
  simp only [addedCount, List.filter_append, List.map_append, List.sum_append]
  congr 1
  by_cases h : own = target
  · simp [h]
  · simp [h]

/-! ### Tables -/

section

variable (rt : Runtime) (now : Nat) (ret : Retention)

/-- What a scheduler's cleanup removes from a table. -/
def tableStale (rows : List Row) (t : Table) : Nat :=
  if disabled (ret.days t) then 0 else rows.countP (isStaleRow (tableCutoff now ret t))

/-- What the route says of a table. -/
def tableShown (rows : List Row) (t : Table) : Nat :=
  if (dateText rt ((tableCutoff now ret t).times 1000)).isSome then tableStale now ret rows t else 0

end

variable (rt now ret) in
theorem staleCount_previewTable (w : World) (t : Table) :
    (previewTable rt now ret w t).staleCount = tableShown rt now ret (w.rows t) t ∧
      (previewTable rt now ret w t).table = (Target.table t).label := by
  rw [previewTable, tableShown, tableStale]
  by_cases hdisabled : disabled (ret.days t) = true
  · simp [hdisabled, Target.label]
  · cases hdate : dateText rt ((tableCutoff now ret t).times 1000) with
    | none => simp [hdisabled, Target.label]
    | some date => simp [hdisabled, Target.label, countRows]

theorem deletedCount_cleanTable (dryRun : Bool) (p : Progress) (t : Table) (target : Target) :
    deletedCount (cleanTable rt now ret dryRun p t).results target =
      deletedCount p.results target +
        if .table t = target then tableShown rt now ret (p.world.rows t) t else 0 := by
  rw [cleanTable, tableShown, tableStale]
  by_cases hdisabled : disabled (ret.days t) = true
  · simp [hdisabled]
  · have hlabel : t.label = (Target.table t).label := rfl
    rw [if_neg hdisabled, if_neg hdisabled, hlabel]
    dsimp only
    cases dateText rt ((tableCutoff now ret t).times 1000) with
    | none => exact deletedCount_push p _ (.table t) target 0 "" (ret.days t)
    | some date => exact deletedCount_push p _ (.table t) target _ date (ret.days t)

variable (rt now ret) in
theorem cleanTable_world (dryRun : Bool) (p : Progress) (t : Table) :
    (cleanTable rt now ret dryRun p t).world = p.world ∨
      dryRun = false ∧ (cleanTable rt now ret dryRun p t).world =
        deleteRows p.world t (tableCutoff now ret t) := by
  rw [cleanTable]
  by_cases hdisabled : disabled (ret.days t) = true
  · rw [if_pos hdisabled]
    exact .inl rfl
  · rw [if_neg hdisabled]
    dsimp only
    cases dryRun with
    | true =>
      left
      cases dateText rt ((tableCutoff now ret t).times 1000) with
      | none => rfl
      | some date => rfl
    | false =>
      right
      refine ⟨rfl, ?_⟩
      cases dateText rt ((tableCutoff now ret t).times 1000) with
      | none => rfl
      | some date => rfl

/-- Two worlds that differ in rows only. -/
structure SameFiles (w w' : World) : Prop where
  tokens : w'.tokens = w.tokens
  tokensWritable : w'.tokensWritable = w.tokensWritable
  stores : w'.stores = w.stores

theorem SameFiles.trans {w w' w'' : World} (h : SameFiles w w') (h' : SameFiles w' w'') :
    SameFiles w w'' :=
  ⟨h'.tokens.trans h.tokens, h'.tokensWritable.trans h.tokensWritable, h'.stores.trans h.stores⟩

theorem sameFiles_cleanTable (dryRun : Bool) (p : Progress) (t : Table) :
    SameFiles p.world (cleanTable rt now ret dryRun p t).world := by
  rcases cleanTable_world rt now ret dryRun p t with h | ⟨-, h⟩
  · rw [h]
    exact ⟨rfl, rfl, rfl⟩
  · rw [h]
    exact ⟨rfl, rfl, rfl⟩

theorem rows_deleteRows_ne (w : World) (cutoff : Number) {t t' : Table} (h : t' ≠ t) :
    (deleteRows w t cutoff).rows t' = w.rows t' := Function.update_of_ne h _ _

theorem rows_cleanTable_ne (dryRun : Bool) (p : Progress) {t t' : Table} (h : t' ≠ t) :
    (cleanTable rt now ret dryRun p t).world.rows t' = p.world.rows t' := by
  rcases cleanTable_world rt now ret dryRun p t with hw | ⟨-, hw⟩
  · rw [hw]
  · rw [hw, rows_deleteRows_ne _ _ h]

/-- The loop over some tables, each of them once. -/
theorem deletedCount_cleanTables (dryRun : Bool) (ts : List Table) (hnodup : ts.Nodup)
    (p : Progress) (target : Target) :
    deletedCount (ts.foldl (cleanTable rt now ret dryRun) p).results target =
      deletedCount p.results target +
        (ts.map fun t => if .table t = target then tableShown rt now ret (p.world.rows t) t
          else 0).sum := by
  induction ts generalizing p with
  | nil => rfl
  | cons t ts ih =>
    obtain ⟨ht, hnodup⟩ := List.nodup_cons.mp hnodup
    have hrest : ts.map (fun t' => if Target.table t' = target then
          tableShown rt now ret ((cleanTable rt now ret dryRun p t).world.rows t') t' else 0) =
        ts.map fun t' => if Target.table t' = target then
          tableShown rt now ret (p.world.rows t') t' else 0 := by
      apply List.map_congr_left
      intro t' ht'
      have hne : t' ≠ t := fun heq => ht (heq ▸ ht')
      rw [rows_cleanTable_ne dryRun p hne]
    rw [List.foldl_cons, ih hnodup, hrest, deletedCount_cleanTable, List.map_cons, List.sum_cons]
    omega

theorem sameFiles_cleanTables (dryRun : Bool) (ts : List Table) (p : Progress) :
    SameFiles p.world (ts.foldl (cleanTable rt now ret dryRun) p).world := by
  induction ts generalizing p with
  | nil => exact ⟨rfl, rfl, rfl⟩
  | cons t ts ih => exact (sameFiles_cleanTable dryRun p t).trans (ih _)

theorem world_cleanTables_dry (ts : List Table) (p : Progress) :
    (ts.foldl (cleanTable rt now ret true) p).world = p.world := by
  induction ts generalizing p with
  | nil => rfl
  | cons t ts ih =>
    rw [List.foldl_cons, ih]
    rcases cleanTable_world rt now ret true p t with h | ⟨h, -⟩
    · exact h
    · cases h

/-! ### Tables, in the scheduler -/

theorem addedCount_sweepTable (s : Sweep) (t : Table) (target : Target) :
    addedCount (sweepTable now ret s t).added target = addedCount s.added target +
      if .table t = target then tableStale now ret (s.world.rows t) t else 0 := by
  rw [sweepTable, tableStale]
  by_cases hdisabled : disabled (ret.days t) = true
  · simp [hdisabled]
  · rw [if_neg hdisabled, if_neg hdisabled]
    exact addedCount_append s.added (.table t) target _

variable (now ret) in
theorem sweepTable_world (s : Sweep) (t : Table) :
    (sweepTable now ret s t).world = s.world ∨
      (sweepTable now ret s t).world = deleteRows s.world t (tableCutoff now ret t) := by
  rw [sweepTable]
  split
  · exact .inl rfl
  · exact .inr rfl

theorem addedCount_sweepTables (ts : List Table) (hnodup : ts.Nodup) (s : Sweep)
    (target : Target) :
    addedCount (ts.foldl (sweepTable now ret) s).added target = addedCount s.added target +
      (ts.map fun t => if .table t = target then tableStale now ret (s.world.rows t) t
        else 0).sum := by
  induction ts generalizing s with
  | nil => rfl
  | cons t ts ih =>
    obtain ⟨ht, hnodup⟩ := List.nodup_cons.mp hnodup
    have hrest : ts.map (fun t' => if Target.table t' = target then
          tableStale now ret ((sweepTable now ret s t).world.rows t') t' else 0) =
        ts.map fun t' => if Target.table t' = target then
          tableStale now ret (s.world.rows t') t' else 0 := by
      apply List.map_congr_left
      intro t' ht'
      have hne : t' ≠ t := fun heq => ht (heq ▸ ht')
      rcases sweepTable_world now ret s t with hw | hw
      · rw [hw]
      · rw [hw, rows_deleteRows_ne _ _ hne]
    rw [List.foldl_cons, ih hnodup, hrest, addedCount_sweepTable, List.map_cons, List.sum_cons]
    omega

theorem sameFiles_sweepTables (ts : List Table) (s : Sweep) :
    SameFiles s.world (ts.foldl (sweepTable now ret) s).world := by
  induction ts generalizing s with
  | nil => exact ⟨rfl, rfl, rfl⟩
  | cons t ts ih =>
    refine SameFiles.trans ?_ (ih _)
    rcases sweepTable_world now ret s t with hw | hw
    · rw [hw]
      exact ⟨rfl, rfl, rfl⟩
    · rw [hw]
      exact ⟨rfl, rfl, rfl⟩

/-- The tables are the four of them, each once. -/
theorem sum_tables (f : Table → Nat) (target : Target) :
    (getRetentionTargets.map fun t => if .table t = target then f t else 0).sum =
      match target with
      | .table t => f t
      | _ => 0 := by
  cases target with
  | table t => cases t <;> simp [getRetentionTargets]
  | tokenUsage => simp [getRetentionTargets]
  | gatewaySessions => simp [getRetentionTargets]

/-! ### The token usage file -/

theorem filterRecords_of_timestamps {items : List Json} {times : List Number}
    (h : timestamps rt items = some times) (test : Number → Bool) :
    ∃ kept, filterRecords rt test items = some kept ∧ kept.length = times.countP test := by
  induction items generalizing times with
  | nil =>
    obtain rfl := Option.some.inj h
    exact ⟨[], rfl, rfl⟩
  | cons r rest ih =>
    obtain ⟨x, hx, htimes⟩ := Option.bind_eq_some_iff.mp h
    obtain ⟨xs, hxs, rfl⟩ := Option.map_eq_some_iff.mp htimes
    obtain ⟨kept, hkept, hlength⟩ := ih hxs
    refine ⟨if test x then r :: kept else kept, ?_, ?_⟩
    · rw [filterRecords, hx, Option.bind_some, hkept, Option.map_some]
    · cases htest : test x with
      | true => simp [htest, hlength]
      | false => simp [htest, hlength]

theorem filterRecords_of_none {items : List Json} (h : timestamps rt items = none)
    (test : Number → Bool) : filterRecords rt test items = none := by
  induction items with
  | nil => cases h
  | cons r rest ih =>
    rw [timestamps] at h
    rw [filterRecords]
    cases hx : timestampOf rt r with
    | none => rfl
    | some x =>
      rw [hx, Option.bind_some, Option.map_eq_none_iff] at h
      rw [Option.bind_some, ih h]
      rfl

theorem length_timestamps {items : List Json} {times : List Number}
    (h : timestamps rt items = some times) : times.length = items.length := by
  induction items generalizing times with
  | nil =>
    obtain rfl := Option.some.inj h
    rfl
  | cons r rest ih =>
    obtain ⟨x, hx, htimes⟩ := Option.bind_eq_some_iff.mp h
    obtain ⟨xs, hxs, rfl⟩ := Option.map_eq_some_iff.mp htimes
    rw [List.length_cons, List.length_cons, ih hxs]

section

variable (rt : Runtime) (now : Nat) (ret : Retention)

/-- The records older than the cutoff. -/
def olderTokens (w : World) : Nat :=
  ((tokenTimes rt w).map (List.countP (Number.lt · (tokensCutoff now ret)))).getD 0

/-- The records that are not younger than the cutoff. -/
def unfitTokens (w : World) : Nat :=
  ((tokenTimes rt w).map (List.countP fun x => !Number.le (tokensCutoff now ret) x)).getD 0

/-- What the route says of the token usage file. -/
def tokensDeleted (dryRun : Bool) (w : World) : Nat :=
  if enabled ret.tokenUsage = true ∧ (dateText rt (tokensCutoff now ret)).isSome = true ∧
      (dryRun = true ∨ w.tokensWritable = true) then unfitTokens rt now ret w
  else 0

/-- What a scheduler's cleanup removes from the token usage file. -/
def tokensSwept (w : World) : Nat :=
  if enabled ret.tokenUsage = true ∧ w.tokensWritable = true then unfitTokens rt now ret w else 0

end

theorem tokenTimes_congr {w w' : World} (h : SameFiles w w') : tokenTimes rt w' = tokenTimes rt w := by
  rw [tokenTimes, tokenTimes, tokenRecords, tokenRecords, h.tokens]

variable (rt now ret) in
theorem staleCount_previewTokens (w : World) :
    (previewTokens rt now ret w).staleCount =
        (if (dateText rt (tokensCutoff now ret)).isSome then olderTokens rt now ret w else 0) ∧
      (previewTokens rt now ret w).table = Target.tokenUsage.label := by
  have hfiltered : ((tokenRecords w).bind
      (filterRecords rt (Number.lt · (tokensCutoff now ret)))).map List.length =
        (tokenTimes rt w).map (List.countP (Number.lt · (tokensCutoff now ret))) := by
    rw [tokenTimes]
    cases tokenRecords w with
    | none => rfl
    | some items =>
      rw [Option.bind_some, Option.bind_some]
      cases htimes : timestamps rt items with
      | none => rw [filterRecords_of_none htimes, Option.map_none, Option.map_none]
      | some times =>
        obtain ⟨kept, hkept, hlength⟩ := filterRecords_of_timestamps htimes
          (Number.lt · (tokensCutoff now ret))
        rw [hkept, Option.map_some, Option.map_some, hlength]
  have hcutoff : cutoffMs now ret.tokenUsage = tokensCutoff now ret := rfl
  rw [previewTokens, olderTokens, ← hfiltered, hcutoff]
  cases (tokenRecords w).bind (filterRecords rt (Number.lt · (tokensCutoff now ret))) with
  | none => simp [Target.label]
  | some stale =>
    cases dateText rt (tokensCutoff now ret) with
    | none => simp [Target.label]
    | some date => simp [Target.label]

variable (now ret) in
/-- A file whose records have times: what the others keep of it, and how many they do not. -/
theorem filterRecords_unfit {w : World} {items : List Json} {times : List Number}
    (hitems : tokenRecords w = some items) (htimes : timestamps rt items = some times) :
    ∃ kept, filterRecords rt (Number.le (tokensCutoff now ret) ·) items = some kept ∧
      items.length - kept.length = unfitTokens rt now ret w := by
  obtain ⟨kept, hkept, hlength⟩ := filterRecords_of_timestamps htimes
    (Number.le (tokensCutoff now ret) ·)
  refine ⟨kept, hkept, ?_⟩
  have hpartition : times.length = _ + _ :=
    List.length_eq_countP_add_countP (Number.le (tokensCutoff now ret) ·)
  have hcount : times.countP (fun x => decide ¬ Number.le (tokensCutoff now ret) x = true) =
      times.countP fun x => !Number.le (tokensCutoff now ret) x := by
    apply List.countP_congr
    intro x _
    simp
  rw [hcount] at hpartition
  have hunfit : unfitTokens rt now ret w =
      times.countP fun x => !Number.le (tokensCutoff now ret) x := by
    rw [unfitTokens, tokenTimes, hitems, Option.bind_some, htimes]
    rfl
  rw [← length_timestamps htimes, hlength, hunfit]
  omega

theorem tokenTimes_eq_none {w : World} (h : tokenTimes rt w = none) :
    tokenRecords w = none ∨
      ∃ items, tokenRecords w = some items ∧ timestamps rt items = none := by
  rw [tokenTimes] at h
  cases hitems : tokenRecords w with
  | none => exact .inl rfl
  | some items =>
    rw [hitems] at h
    exact .inr ⟨items, rfl, h⟩

theorem cleanTokens_of_none {p : Progress} (dryRun : Bool) (h : tokenTimes rt p.world = none) :
    cleanTokens rt now ret dryRun p = p := by
  rw [cleanTokens]
  split
  · rfl
  · rcases tokenTimes_eq_none h with hitems | ⟨items, hitems, htimes⟩
    · rw [hitems]
    · rw [hitems]
      dsimp only
      rw [filterRecords_of_none htimes]

variable (now) in
/-- `cleanTokens` on a file whose records have times. -/
theorem cleanTokens_of_some {p : Progress} (dryRun : Bool) (henabled : enabled ret.tokenUsage = true)
    {items : List Json} (hitems : tokenRecords p.world = some items) {times : List Number}
    (htimes : timestamps rt items = some times) :
    ∃ kept, items.length - kept.length = unfitTokens rt now ret p.world ∧
      cleanTokens rt now ret dryRun p =
        match if dryRun then some p.world else writeTokens p.world items kept with
        | none => p
        | some w =>
          match dateText rt (tokensCutoff now ret) with
          | some date =>
            p.push w ⟨tokensLabel, unfitTokens rt now ret p.world, date, ret.tokenUsage⟩
          | none => { p with world := w } := by
  obtain ⟨kept, hkept, hremoved⟩ := filterRecords_unfit now ret hitems htimes
  refine ⟨kept, hremoved, ?_⟩
  rw [cleanTokens, if_neg (not_not.mpr henabled), hitems]
  dsimp only
  have hfilter : filterRecords rt (Number.le (cutoffMs now ret.tokenUsage) ·) items = some kept :=
    hkept
  rw [hfilter, ← hremoved]
  rfl

theorem deletedCount_cleanTokens (dryRun : Bool) (p : Progress) (target : Target) :
    deletedCount (cleanTokens rt now ret dryRun p).results target =
      deletedCount p.results target +
        if .tokenUsage = target then tokensDeleted rt now ret dryRun p.world else 0 := by
  by_cases henabled : enabled ret.tokenUsage = true
  · cases htimes : tokenTimes rt p.world with
    | none =>
      rw [cleanTokens_of_none dryRun htimes, tokensDeleted, unfitTokens, htimes]
      simp
    | some times =>
      obtain ⟨items, hitems, htimes⟩ := Option.bind_eq_some_iff.mp htimes
      obtain ⟨kept, hremoved, heq⟩ := cleanTokens_of_some now dryRun henabled hitems htimes
      have hpushed : ∀ w, deletedCount (match dateText rt (tokensCutoff now ret) with
          | some date =>
            p.push w ⟨tokensLabel, unfitTokens rt now ret p.world, date, ret.tokenUsage⟩
          | none => { p with world := w }).results target = deletedCount p.results target +
            if .tokenUsage = target then
              if (dateText rt (tokensCutoff now ret)).isSome then unfitTokens rt now ret p.world
              else 0
            else 0 := by
        intro w
        cases dateText rt (tokensCutoff now ret) with
        | none => simp
        | some date => exact deletedCount_push p w .tokenUsage target _ date ret.tokenUsage
      rw [heq, tokensDeleted]
      cases dryRun with
      | true => simpa [henabled] using hpushed p.world
      | false =>
        by_cases hnothing : items.length - kept.length = 0
        · have hzero : unfitTokens rt now ret p.world = 0 := hremoved.symm.trans hnothing
          have hwritten : writeTokens p.world items kept = some p.world := by
            rw [writeTokens, if_pos hnothing]
          simpa [hwritten, hzero] using hpushed p.world
        · cases hwritable : p.world.tokensWritable with
          | true =>
            have hwritten : writeTokens p.world items kept =
                some { p.world with tokens := some (.array kept) } := by
              rw [writeTokens, if_neg hnothing, if_pos hwritable]
            simpa [hwritten, henabled] using hpushed { p.world with tokens := some (.array kept) }
          | false =>
            have hwritten : writeTokens p.world items kept = none := by
              rw [writeTokens, if_neg hnothing, hwritable]
              rfl
            simp [hwritten]
  · rw [cleanTokens, if_pos henabled, tokensDeleted]
    simp [henabled]

theorem stores_of_writeTokens {w w' : World} {items kept : List Json}
    (h : writeTokens w items kept = some w') : w'.stores = w.stores := by
  rw [writeTokens] at h
  split at h
  · rw [Option.some.inj h]
  · split at h
    · rw [← Option.some.inj h]
    · cases h

variable (rt now ret) in
/-- The session stores stay, and on a dry run everything does. -/
theorem cleanTokens_world (dryRun : Bool) (p : Progress) :
    (cleanTokens rt now ret dryRun p).world.stores = p.world.stores ∧
      (dryRun = true → (cleanTokens rt now ret dryRun p).world = p.world) := by
  by_cases henabled : enabled ret.tokenUsage = true
  · cases htimes : tokenTimes rt p.world with
    | none =>
      rw [cleanTokens_of_none dryRun htimes]
      exact ⟨rfl, fun _ => rfl⟩
    | some times =>
      obtain ⟨items, hitems, htimes⟩ := Option.bind_eq_some_iff.mp htimes
      obtain ⟨kept, -, heq⟩ := cleanTokens_of_some now dryRun henabled hitems htimes
      have hworld : ∀ w, (match dateText rt (tokensCutoff now ret) with
          | some date =>
            p.push w ⟨tokensLabel, unfitTokens rt now ret p.world, date, ret.tokenUsage⟩
          | none => { p with world := w }).world = w := by
        intro w
        cases dateText rt (tokensCutoff now ret) with
        | none => rfl
        | some date => rfl
      rw [heq]
      cases dryRun with
      | true => exact ⟨congrArg World.stores (hworld p.world), fun _ => hworld p.world⟩
      | false =>
        refine ⟨?_, fun h => by cases h⟩
        rw [if_neg Bool.false_ne_true]
        cases hwritten : writeTokens p.world items kept with
        | none => rfl
        | some w => exact (congrArg World.stores (hworld w)).trans (stores_of_writeTokens hwritten)
  · rw [cleanTokens, if_pos henabled]
    exact ⟨rfl, fun _ => rfl⟩

variable (rt now ret) in
/-- The scheduler on the token usage file. -/
theorem sweepTokens_spec (s : Sweep) (target : Target) :
    addedCount (sweepTokens rt now ret s).added target = addedCount s.added target +
        (if .tokenUsage = target then tokensSwept rt now ret s.world else 0) ∧
      (sweepTokens rt now ret s).world.stores = s.world.stores := by
  by_cases henabled : enabled ret.tokenUsage = true
  · cases htimes : tokenTimes rt s.world with
    | none =>
      have hsame : sweepTokens rt now ret s = s := by
        rw [sweepTokens, if_neg (not_not.mpr henabled)]
        rcases tokenTimes_eq_none htimes with hitems | ⟨items, hitems, hnone⟩
        · rw [hitems]
        · rw [hitems]
          dsimp only
          rw [filterRecords_of_none hnone]
      rw [hsame, tokensSwept, unfitTokens, htimes]
      simp
    | some times =>
      obtain ⟨items, hitems, htimes⟩ := Option.bind_eq_some_iff.mp htimes
      obtain ⟨kept, hkept, hremoved⟩ := filterRecords_unfit now ret hitems htimes
      have hfilter : filterRecords rt (Number.le (cutoffMs now ret.tokenUsage) ·) items =
          some kept := hkept
      rw [sweepTokens, if_neg (not_not.mpr henabled), hitems]
      dsimp only
      rw [hfilter]
      dsimp only
      rw [tokensSwept, ← hremoved]
      by_cases hnothing : items.length - kept.length = 0
      · simp [hnothing]
      · cases hwritable : s.world.tokensWritable with
        | true =>
          have hwritten : writeTokens s.world items kept =
              some { s.world with tokens := some (.array kept) } := by
            rw [writeTokens, if_neg hnothing, if_pos hwritable]
          rw [if_neg hnothing, hwritten]
          refine ⟨?_, rfl⟩
          simpa [henabled] using addedCount_append s.added .tokenUsage target _
        | false =>
          have hwritten : writeTokens s.world items kept = none := by
            rw [writeTokens, if_neg hnothing, hwritable]
            rfl
          simp [hnothing, hwritten]
  · rw [sweepTokens, if_pos henabled, tokensSwept]
    simp [henabled]

/-! ### The session stores -/

theorem countEntries_of_prune {cutoff : Number} {es next : List (String × Json)} {n : Nat}
    (h : pruneEntries rt cutoff es = some (next, n)) : countEntries rt cutoff es = n := by
  induction es generalizing next n with
  | nil =>
    obtain ⟨-, rfl⟩ := Prod.mk.inj (Option.some.inj h)
    rfl
  | cons e rest ih =>
    obtain ⟨key, entry⟩ := e
    obtain ⟨stale, hstale, hrest⟩ := Option.bind_eq_some_iff.mp h
    obtain ⟨⟨nextRest, m⟩, hm, heq⟩ := Option.map_eq_some_iff.mp hrest
    rw [countEntries, hstale]
    dsimp only at heq ⊢
    rw [ih hm]
    cases stale with
    | true =>
      obtain ⟨-, rfl⟩ := Prod.mk.inj heq
      exact Nat.add_comm 1 m
    | false =>
      rw [if_neg Bool.false_ne_true] at heq
      rw [if_neg Bool.false_ne_true, Nat.zero_add]
      split at heq
      · exact (Prod.mk.inj heq).2
      · exact (Prod.mk.inj heq).2

theorem pruneEntries_eq_none {cutoff : Number} {es : List (String × Json)} :
    pruneEntries rt cutoff es = none ↔ ∃ e ∈ es, isStaleEntry rt cutoff e.2 = none := by
  induction es with
  | nil =>
    constructor
    · intro h
      cases h
    · rintro ⟨e, he, -⟩
      cases he
  | cons e rest ih =>
    rw [pruneEntries]
    cases hstale : isStaleEntry rt cutoff e.2 with
    | none => simp [hstale]
    | some stale => simp [hstale, ih]

/-- What the count has seen is what is stale before an exception. -/
theorem countEntries_eq_zero {cutoff : Number} {es : List (String × Json)} :
    countEntries rt cutoff es = 0 ↔
      ∀ e ∈ readable rt cutoff es, isStaleEntry rt cutoff e.2 ≠ some true := by
  induction es with
  | nil => simp [countEntries, readable]
  | cons e rest ih =>
    obtain ⟨key, entry⟩ := e
    rw [readable] at ih
    rw [countEntries, readable]
    cases hstale : isStaleEntry rt cutoff entry with
    | none => simp [hstale]
    | some stale =>
      cases stale with
      | true => simp [hstale]
      | false => simp [hstale, ih]

theorem pruneStore_le (cutoff : Number) (s : Store) :
    (pruneStore rt cutoff s).2 ≤ countStore rt cutoff s := by
  rw [pruneStore, countStore]
  cases hes : s.content.bind entries with
  | none => simp
  | some es =>
    rw [Option.bind_some, Option.map_some, Option.getD_some]
    cases hprune : pruneEntries rt cutoff es with
    | none => exact Nat.zero_le _
    | some pruned =>
      rw [countEntries_of_prune hprune]
      dsimp only
      split
      · exact Nat.le_refl _
      · exact Nat.zero_le _

/-- Counting and pruning a store agree exactly on the sound ones. -/
theorem pruneStore_eq_iff (cutoff : Number) (s : Store) :
    (pruneStore rt cutoff s).2 = countStore rt cutoff s ↔ StoreSound rt cutoff s := by
  rw [pruneStore, countStore, StoreSound]
  cases hes : s.content.bind entries with
  | none => simp
  | some es =>
    rw [Option.bind_some, Option.map_some, Option.getD_some]
    simp only [Option.some.injEq, forall_eq', ← countEntries_eq_zero, ← pruneEntries_eq_none]
    cases hprune : pruneEntries rt cutoff es with
    | none => exact ⟨fun h _ => h.symm, fun h => (h (.inl rfl)).symm⟩
    | some pruned =>
      rw [countEntries_of_prune hprune]
      cases hwritable : s.writable with
      | true =>
        by_cases hpos : 0 < pruned.2
        · simp [hpos]
        · have hzero : pruned.2 = 0 := by omega
          simp [hzero]
      | false =>
        simp only [Bool.false_eq_true, and_false, if_false]
        exact ⟨fun h _ => h.symm, fun h => (h (.inr trivial)).symm⟩

/-- Where one list of numbers is below another, their sums agree only if they do. -/
theorem sum_map_eq_iff {α : Type} {f g : α → Nat} {l : List α} (h : ∀ a ∈ l, f a ≤ g a) :
    (l.map f).sum = (l.map g).sum ↔ ∀ a ∈ l, f a = g a := by
  induction l with
  | nil => simp
  | cons a l ih =>
    have ha : f a ≤ g a := h a List.mem_cons_self
    have hrest : ∀ b ∈ l, f b ≤ g b := fun b hb => h b (List.mem_cons_of_mem a hb)
    have hsum : (l.map f).sum ≤ (l.map g).sum := List.sum_le_sum hrest
    have ih := ih hrest
    simp only [List.map_cons, List.sum_cons, List.forall_mem_cons, ← ih]
    omega

section

variable (rt : Runtime) (now : Nat) (ret : Retention) (w : World)

/-- What the preview and a dry run say of the session stores. -/
def sessionsCounted : Nat :=
  if enabled ret.gatewaySessions then countStaleGatewaySessions rt now w ret.gatewaySessions else 0

/-- What a cleanup removes from the session stores. -/
def sessionsPruned : Nat :=
  if enabled ret.gatewaySessions then
    (pruneGatewaySessionsOlderThan rt now w ret.gatewaySessions).2
  else 0

end

theorem sessionsCounted_congr {w w' : World} (h : w'.stores = w.stores) :
    sessionsCounted rt now ret w' = sessionsCounted rt now ret w := by
  rw [sessionsCounted, sessionsCounted, countStaleGatewaySessions, countStaleGatewaySessions, h]

theorem sessionsPruned_congr {w w' : World} (h : w'.stores = w.stores) :
    sessionsPruned rt now ret w' = sessionsPruned rt now ret w := by
  rw [sessionsPruned, sessionsPruned, pruneGatewaySessionsOlderThan,
    pruneGatewaySessionsOlderThan, h]
  by_cases hkeeps : keepsSessions ret.gatewaySessions = true
  · rw [if_pos hkeeps, if_pos hkeeps]
  · rw [if_neg hkeeps, if_neg hkeeps]

/-- An amount of days that is positive and whose cutoff a date can hold is finite. -/
theorem keepsSessions_of_date {days : Number} (henabled : enabled days = true)
    (hdate : dateText rt (cutoffMs now days) ≠ none) : keepsSessions days = false := by
  cases days with
  | nan => cases henabled
  | infinite negative => exact absurd rfl hdate
  | finite x =>
    have hpos : Number.lt (.finite 0) (.finite x) = true := henabled
    show Number.le (.finite x) (.finite 0) = false
    rw [Number.le_eq_not_lt (by simp) (by simp), hpos]
    rfl

theorem sessions_agree_iff {w : World} (hdate : enabled ret.gatewaySessions = true →
    dateText rt (cutoffMs now ret.gatewaySessions) ≠ none) :
    sessionsPruned rt now ret w = sessionsCounted rt now ret w ↔
      (enabled ret.gatewaySessions = true → ∀ s ∈ w.stores,
        StoreSound rt (cutoffMs now ret.gatewaySessions) s) := by
  rw [sessionsPruned, sessionsCounted]
  by_cases henabled : enabled ret.gatewaySessions = true
  · have hfinite := keepsSessions_of_date henabled (hdate henabled)
    rw [if_pos henabled, if_pos henabled, pruneGatewaySessionsOlderThan,
      countStaleGatewaySessions, hfinite, if_neg Bool.false_ne_true, if_neg Bool.false_ne_true]
    dsimp only
    have hle : ∀ s ∈ w.stores,
        (Prod.snd ∘ pruneStore rt (cutoffMs now ret.gatewaySessions)) s ≤
          countStore rt (cutoffMs now ret.gatewaySessions) s := fun s _ => pruneStore_le _ s
    rw [List.map_map, sum_map_eq_iff hle]
    simp only [Function.comp_apply, pruneStore_eq_iff, henabled, true_implies]
  · simp [henabled]

theorem cleanSessions_spec (dryRun : Bool) (p : Progress)
    (hdate : enabled ret.gatewaySessions = true →
      dateText rt (cutoffMs now ret.gatewaySessions) ≠ none) :
    ∃ p', cleanSessions rt now ret dryRun p = .ok p' ∧ (dryRun = true → p'.world = p.world) ∧
      ∀ target, deletedCount p'.results target = deletedCount p.results target +
        if .gatewaySessions = target then
          if dryRun then sessionsCounted rt now ret p.world else sessionsPruned rt now ret p.world
        else 0 := by
  rw [cleanSessions, sessionsCounted, sessionsPruned]
  by_cases henabled : enabled ret.gatewaySessions = true
  · obtain ⟨date, hdate⟩ := Option.ne_none_iff_exists'.mp (hdate henabled)
    rw [if_neg (not_not.mpr henabled), if_pos henabled, if_pos henabled]
    dsimp only
    rw [hdate]
    refine ⟨_, rfl, ?_, ?_⟩
    · rintro rfl
      rfl
    · intro target
      have hpush := deletedCount_push p (if dryRun = true then p.world else
        (pruneGatewaySessionsOlderThan rt now p.world ret.gatewaySessions).1) .gatewaySessions target
        (if dryRun = true then countStaleGatewaySessions rt now p.world ret.gatewaySessions else
          (pruneGatewaySessionsOlderThan rt now p.world ret.gatewaySessions).2) date
            ret.gatewaySessions
      cases dryRun with
      | true => exact hpush
      | false => exact hpush
  · rw [if_pos henabled]
    refine ⟨p, rfl, fun _ => rfl, fun target => ?_⟩
    simp [henabled]

theorem cleanSessions_error (dryRun : Bool) (p : Progress)
    (henabled : enabled ret.gatewaySessions = true)
    (hdate : dateText rt (cutoffMs now ret.gatewaySessions) = none) :
    ∃ w, cleanSessions rt now ret dryRun p = .error w := by
  rw [cleanSessions, if_neg (not_not.mpr henabled)]
  dsimp only
  rw [hdate]
  exact ⟨_, rfl⟩

/-! ### All targets -/

section

variable (rt : Runtime) (now : Nat) (ret : Retention) (w : World)

def previewed : Target → Nat
  | .table t => tableShown rt now ret (w.rows t) t
  | .tokenUsage => if (dateText rt (tokensCutoff now ret)).isSome then olderTokens rt now ret w else 0
  | .gatewaySessions => sessionsCounted rt now ret w

def deleted (dryRun : Bool) : Target → Nat
  | .table t => tableShown rt now ret (w.rows t) t
  | .tokenUsage => tokensDeleted rt now ret dryRun w
  | .gatewaySessions =>
    if dryRun then sessionsCounted rt now ret w else sessionsPruned rt now ret w

def swept : Target → Nat
  | .table t => tableStale now ret (w.rows t) t
  | .tokenUsage => tokensSwept rt now ret w
  | .gatewaySessions => sessionsPruned rt now ret w

end

theorem unfitTokens_congr {w w' : World} (h : SameFiles w w') :
    unfitTokens rt now ret w' = unfitTokens rt now ret w := by
  rw [unfitTokens, unfitTokens, tokenTimes_congr h]

theorem nodup_targets : getRetentionTargets.Nodup := by decide

theorem cleanAll_spec (dryRun : Bool) (w : World) (hdate : enabled ret.gatewaySessions = true →
    dateText rt (cutoffMs now ret.gatewaySessions) ≠ none) :
    ∃ p, cleanAll rt now ret dryRun w = .ok p ∧ (dryRun = true → p.world = w) ∧
      ∀ target, deletedCount p.results target = deleted rt now ret w dryRun target := by
  obtain ⟨tables, htables⟩ : ∃ p : Progress, p =
      getRetentionTargets.foldl (cleanTable rt now ret dryRun) ⟨w, [], 0⟩ := ⟨_, rfl⟩
  have hfiles : SameFiles w tables.world :=
    htables ▸ sameFiles_cleanTables dryRun getRetentionTargets ⟨w, [], 0⟩
  have hdry : dryRun = true → tables.world = w := by
    rintro rfl
    exact htables ▸ world_cleanTables_dry getRetentionTargets ⟨w, [], 0⟩
  have hcount : ∀ target, deletedCount tables.results target =
      match target with
      | .table t => tableShown rt now ret (w.rows t) t
      | _ => 0 := by
    intro target
    rw [htables, deletedCount_cleanTables dryRun _ nodup_targets, sum_tables]
    exact Nat.zero_add _
  obtain ⟨hstores, htokensDry⟩ :=
    cleanTokens_world rt now ret dryRun tables
  obtain ⟨p, hp, hpDry, hpCount⟩ :=
    cleanSessions_spec dryRun (cleanTokens rt now ret dryRun tables) hdate
  refine ⟨p, ?_, ?_, ?_⟩
  · rw [cleanAll, ← htables, hp]
  · intro h
    rw [hpDry h, htokensDry h, hdry h]
  · intro target
    have hsame := hstores.trans hfiles.stores
    rw [hpCount, deletedCount_cleanTokens, hcount, sessionsCounted_congr hsame,
      sessionsPruned_congr hsame, tokensDeleted, unfitTokens_congr hfiles, hfiles.tokensWritable,
      ← tokensDeleted]
    cases target with
    | table t => simp [deleted]
    | tokenUsage => simp [deleted]
    | gatewaySessions => simp [deleted]

theorem runCleanup_spec (w : World) (target : Target) :
    addedCount (runCleanup rt now ret w).2.1 target = swept rt now ret w target := by
  obtain ⟨tables, htables⟩ : ∃ s : Sweep, s =
      getRetentionTargets.foldl (sweepTable now ret) ⟨w, []⟩ := ⟨_, rfl⟩
  have hfiles : SameFiles w tables.world :=
    htables ▸ sameFiles_sweepTables getRetentionTargets ⟨w, []⟩
  have hcount : addedCount tables.added target =
      match target with
      | .table t => tableStale now ret (w.rows t) t
      | _ => 0 := by
    rw [htables, addedCount_sweepTables _ nodup_targets, sum_tables]
    exact Nat.zero_add _
  obtain ⟨htokens, hstores⟩ := sweepTokens_spec rt now ret tables target
  have hsessions : addedCount (sweepSessions rt now ret (sweepTokens rt now ret tables)).added
      target = addedCount (sweepTokens rt now ret tables).added target +
        if .gatewaySessions = target then
          sessionsPruned rt now ret (sweepTokens rt now ret tables).world else 0 := by
    rw [sweepSessions, sessionsPruned]
    by_cases henabled : enabled ret.gatewaySessions = true
    · rw [if_neg (not_not.mpr henabled), if_pos henabled]
      exact addedCount_append _ .gatewaySessions target _
    · simp [henabled]
  rw [runCleanup, ← htables]
  dsimp only
  rw [hsessions, htokens, hcount, sessionsPruned_congr (hstores.trans hfiles.stores), tokensSwept,
    unfitTokens_congr hfiles, hfiles.tokensWritable, ← tokensSwept]
  cases target with
  | table t => simp [swept]
  | tokenUsage => simp [swept]
  | gatewaySessions => simp [swept]

theorem staleCount_cons {e : PreviewEntry} {own : Target} (h : e.table = own.label)
    (rest : List PreviewEntry) (target : Target) :
    staleCount (e :: rest) target =
      (if own = target then e.staleCount else 0) + staleCount rest target := by
  simp only [staleCount, List.filter_cons, h]
  by_cases hown : own = target
  · simp [hown]
  · have hlabel : own.label ≠ target.label := fun heq => hown (label_inj.mp heq)
    simp [hown, hlabel]

variable (rt now ret) in
theorem staleCount_previewSessions (w : World) :
    (previewSessions rt now ret w).staleCount = sessionsCounted rt now ret w ∧
      (previewSessions rt now ret w).table = Target.gatewaySessions.label := by
  rw [previewSessions, sessionsCounted]
  by_cases henabled : enabled ret.gatewaySessions = true
  · simp [henabled, Target.label]
  · simp [henabled, Target.label]

variable (rt now ret) in
theorem staleCount_preview (w : World) (target : Target) :
    staleCount (getRetentionTargets.map (previewTable rt now ret w) ++
      [previewTokens rt now ret w, previewSessions rt now ret w]) target =
        previewed rt now ret w target := by
  have hfiles : staleCount [previewTokens rt now ret w, previewSessions rt now ret w] target =
      match target with
      | .table _ => 0
      | target => previewed rt now ret w target := by
    obtain ⟨htokens, htokensLabel⟩ := staleCount_previewTokens rt now ret w
    obtain ⟨hsessions, hsessionsLabel⟩ := staleCount_previewSessions rt now ret w
    rw [staleCount_cons htokensLabel, staleCount_cons hsessionsLabel, htokens, hsessions]
    cases target with
    | table t => simp [staleCount]
    | tokenUsage => simp [staleCount, previewed]
    | gatewaySessions => simp [staleCount, previewed]
  have htables : ∀ (ts : List Table) (rest : List PreviewEntry),
      staleCount (ts.map (previewTable rt now ret w) ++ rest) target =
        (ts.map fun t => if .table t = target then tableShown rt now ret (w.rows t) t else 0).sum +
          staleCount rest target := by
    intro ts rest
    induction ts with
    | nil => simp
    | cons t ts ih =>
      obtain ⟨hcount, hlabel⟩ := staleCount_previewTable rt now ret w t
      rw [List.map_cons, List.cons_append, staleCount_cons hlabel, ih, hcount, List.map_cons,
        List.sum_cons]
      omega
  rw [htables, sum_tables, hfiles]
  cases target with
  | table t => rfl
  | tokenUsage => exact Nat.zero_add _
  | gatewaySessions => exact Nat.zero_add _

end MissionControl.Maintenance.CleanupCounts
