import Mathlib.Algebra.Order.Field.Basic
import Mathlib.Data.List.Induction
import Mathlib.Tactic.Linarith
import MissionControl.Regression.Routes

/-!
What the comparison says of the done tasks. Every task is in one window, and the percentiles are
those of its sample; but a task that was completed before it was created counts as an intervention
and not as a sample, so that the rates are rates only if there are not too many such tasks.
-/

set_option autoImplicit false
set_option relaxedAutoImplicit false

namespace MissionControl.Regression.Metrics

open MissionControl.Foundations.Ranks
open Routes

/-! ### The loop -/

/-- The loop does not go on to the next task. -/
def inWindow (window : Window) (task : TaskRow) : Bool :=
  (task.completedAt.filter (· ≠ 0)).any fun completedAt =>
    decide ((window.start : ℚ) ≤ completedAt) && decide (completedAt < (window.stop : ℚ))

/-- The task was not completed before it was created. -/
def inOrder (task : TaskRow) : Bool :=
  task.completedAt.any fun completedAt => decide (task.createdAt ≤ completedAt)

def latency (task : TaskRow) : ℚ := task.completedAt.getD 0 - task.createdAt

/-- The tasks that count in a window. -/
def counted (window : Window) (tasks : List TaskRow) : List TaskRow :=
  tasks.filter (inWindow window)

/-- The latencies of the tasks of a window. -/
def sample (window : Window) (tasks : List TaskRow) : List ℚ :=
  ((counted window tasks).filter inOrder).map latency

section

variable {window : Window} {tasks : List TaskRow} {task : TaskRow} {found : Found}

theorem inWindow_iff :
    inWindow window task = true ↔ ∃ completedAt, task.completedAt = some completedAt ∧
      completedAt ≠ 0 ∧ (window.start : ℚ) ≤ completedAt ∧ completedAt < (window.stop : ℚ) := by
  rw [inWindow]
  cases task.completedAt with
  | none => simp
  | some completedAt =>
    by_cases hzero : completedAt = 0
    · simp [hzero]
    · simp [hzero, Option.filter]

theorem visit_of_not_inWindow (h : inWindow window task = false) :
    visit window found task = found := by
  rw [inWindow] at h
  rw [visit]
  split
  · rfl
  · rename_i completedAt hcompleted
    rw [hcompleted] at h
    have hout : completedAt < window.start ∨ (window.stop : ℚ) ≤ completedAt := by
      by_contra hcontra
      rw [not_or, not_lt, not_le] at hcontra
      simp [hcontra.1, hcontra.2] at h
    rw [if_pos hout]

theorem visit_of_inWindow (h : inWindow window task = true) :
    visit window found task
      = ⟨if inOrder task then found.latencySamples ++ [latency task] else found.latencySamples,
        if isTaskIntervened task then found.interventionCount + 1 else found.interventionCount⟩ := by
  obtain ⟨completedAt, hcompleted, hzero, hstart, hstop⟩ := inWindow_iff.mp h
  have hfilter : task.completedAt.filter (· ≠ 0) = some completedAt := by
    rw [hcompleted]
    exact Option.filter_eq_some_iff.mpr ⟨rfl, decide_eq_true hzero⟩
  have hin : ¬ (completedAt < window.start ∨ (window.stop : ℚ) ≤ completedAt) := by
    rw [not_or, not_lt, not_le]
    exact ⟨hstart, hstop⟩
  have horder : inOrder task = decide (task.createdAt ≤ completedAt) := by
    rw [inOrder, hcompleted]
    rfl
  have hlatency : latency task = completedAt - task.createdAt := by
    rw [latency, hcompleted]
    rfl
  simp only [visit, hfilter, hin, if_false, horder, hlatency, decide_eq_true_eq]

/-- What the loop finds: the sample of the window and the interventions among its tasks. -/
theorem visitAll_eq :
    visitAll window tasks
      = ⟨sample window tasks, (counted window tasks).countP isTaskIntervened⟩ := by
  induction tasks using List.reverseRecOn with
  | nil => rfl
  | append_singleton tasks task ih =>
    have hstep : visitAll window (tasks ++ [task]) = visit window (visitAll window tasks) task := by
      rw [visitAll, List.foldl_append, List.foldl_cons, List.foldl_nil, visitAll]
    rw [hstep, ih]
    cases hwindow : inWindow window task with
    | false =>
      rw [visit_of_not_inWindow hwindow]
      simp [sample, counted, List.filter_append, hwindow]
    | true =>
      rw [visit_of_inWindow hwindow]
      cases horder : inOrder task <;> cases hintervened : isTaskIntervened task <;>
        simp [sample, counted, List.filter_append, hwindow, horder, hintervened]

end

/-! ### Percentiles -/

/-- An element of the sample, if there is one, that a share of the sample comes up to. -/
def IsPercentile (values : List ℚ) (percentile : ℚ) (v : Option ℚ) : Prop :=
  (values = [] ∧ v = none) ∨
    ∃ x ∈ values, v = some x ∧ percentile / 100 * values.length ≤ values.countP fun y => y ≤ x

theorem isPercentile {values : List ℚ} {percentile : ℚ} (hpercentile : percentile ≤ 100) :
    IsPercentile values percentile (percentileNearestRank values percentile) := by
  rw [percentileNearestRank]
  by_cases hvalues : values = []
  · rw [if_pos hvalues]
    exact .inl ⟨hvalues, rfl⟩
  · rw [if_neg hvalues]
    have hlength : (0 : ℚ) ≤ values.length := Nat.cast_nonneg _
    have hrank : ⌈percentile / 100 * values.length⌉ ≤ (values.length : Int) := by
      rw [Int.ceil_le]
      push_cast
      nlinarith
    obtain ⟨x, hx, hnearest, hcount⟩ := nearest_spec hvalues hrank
    refine .inr ⟨x, hx, hnearest, (Int.le_ceil _).trans ?_⟩
    exact_mod_cast hcount

theorem percentile_mono {values : List ℚ} {percentile percentile' x y : ℚ}
    (hle : percentile ≤ percentile') (hx : percentileNearestRank values percentile = some x)
    (hy : percentileNearestRank values percentile' = some y) : x ≤ y := by
  rw [percentileNearestRank] at hx hy
  by_cases hvalues : values = []
  · rw [if_pos hvalues] at hx
    cases hx
  · rw [if_neg hvalues] at hx hy
    refine nearest_mono (Int.ceil_le_ceil ?_) hx hy
    have hlength : (0 : ℚ) ≤ values.length := Nat.cast_nonneg _
    gcongr

/-! ### Rates -/

/-- The interventions among tasks that were completed before they were created are made up for by
tasks in order without one, unless no task is in order. -/
def Matched (tasks : List TaskRow) : Prop :=
  (∀ task ∈ tasks, inOrder task = false) ∨
    tasks.countP (fun task => !inOrder task && isTaskIntervened task)
      ≤ tasks.countP fun task => inOrder task && !isTaskIntervened task

theorem countP_add (tasks : List TaskRow) :
    tasks.countP isTaskIntervened + tasks.countP (fun task => inOrder task && !isTaskIntervened task)
      = tasks.countP inOrder + tasks.countP fun task => !inOrder task && isTaskIntervened task := by
  induction tasks with
  | nil => rfl
  | cons task tasks ih =>
    simp only [List.countP_cons]
    cases inOrder task <;> cases isTaskIntervened task <;> simp <;> omega

/-- The rate is one just if the tasks are matched. -/
theorem rate_bounds_iff (tasks : List TaskRow) :
    (0 ≤ (if 0 < tasks.countP inOrder then
        (tasks.countP isTaskIntervened : ℚ) / tasks.countP inOrder else 0) ∧
      (if 0 < tasks.countP inOrder then
        (tasks.countP isTaskIntervened : ℚ) / tasks.countP inOrder else 0) ≤ 1) ↔ Matched tasks := by
  have hadd := countP_add tasks
  rw [Matched]
  by_cases hsample : 0 < tasks.countP inOrder
  · have hsome : ¬ ∀ task ∈ tasks, inOrder task = false := by
      intro hnone
      have hzero : tasks.countP inOrder = 0 := List.countP_eq_zero.mpr fun task htask => by
        rw [hnone task htask]
        exact Bool.false_ne_true
      omega
    have hpos : (0 : ℚ) < tasks.countP inOrder := by exact_mod_cast hsample
    rw [if_pos hsample, div_le_one hpos, Nat.cast_le]
    constructor
    · rintro ⟨-, hle⟩
      exact .inr (by omega)
    · intro hmatched
      have hle := hmatched.resolve_left hsome
      exact ⟨div_nonneg (Nat.cast_nonneg _) hpos.le, by omega⟩
  · rw [if_neg hsample]
    have hnone : ∀ task ∈ tasks, inOrder task = false := by
      intro task htask
      have hzero : tasks.countP inOrder = 0 := by omega
      simpa using List.countP_eq_zero.mp hzero task htask
    exact ⟨fun _ => .inl hnone, fun _ => ⟨le_rfl, zero_le_one⟩⟩

/-! ### The comparison -/

/-- The statistics of a window describe its tasks. -/
structure Describes (tasks : List TaskRow) (stats : WindowStats) : Prop where
  sampleSize : stats.sampleSize = (sample stats.window tasks).length
  interventions : stats.interventions.count = (counted stats.window tasks).countP isTaskIntervened
  p50 : IsPercentile (sample stats.window tasks) 50 stats.latencySeconds.p50
  p95 : IsPercentile (sample stats.window tasks) 95 stats.latencySeconds.p95
  ordered : ∀ x y, stats.latencySeconds.p50 = some x → stats.latencySeconds.p95 = some y → x ≤ y
  rate : 0 ≤ stats.interventions.rate ∧ stats.interventions.rate ≤ 1

/-- The rows that a report is made of. -/
def rowsFor (request : Request) (report : Report) : List TaskRow :=
  rowsOf request.now report.lookbackSeconds report.betaStart request

def Counts (request : Request) (report : Report) (stats : WindowStats) (task : TaskRow) : Prop :=
  task ∈ counted stats.window (rowsFor request report)

/-- Every completed task is in one window at most, and in one if it was completed since the start of
the baseline; and the windows are described. -/
structure Sound (request : Request) (report : Report) : Prop where
  apart : ∀ task, Counts request report report.baseline task →
    ¬ Counts request report report.post task
  once : ∀ task ∈ request.tasks, task.workspaceId = request.workspaceId → task.status = "done" →
    ∀ completedAt, task.completedAt = some completedAt →
      (report.baseline.window.start : ℚ) ≤ completedAt → completedAt ≤ (request.now : ℚ) →
        Counts request report report.baseline task ∨ Counts request report report.post task
  baseline : Describes (rowsFor request report) report.baseline
  post : Describes (rowsFor request report) report.post

/-- The condition on the rows of the query. -/
structure Orderly (env : Environment) (request : Request) (betaStart : Int) : Prop where
  epoch : ∀ task ∈ rowsOf request.now (lookbackSeconds env request) betaStart request,
    task.completedAt ≠ some 0
  baseline : Matched (counted (baselineWindow request.now (lookbackSeconds env request) betaStart)
    (rowsOf request.now (lookbackSeconds env request) betaStart request))
  post : Matched (counted (postWindow request.now betaStart)
    (rowsOf request.now (lookbackSeconds env request) betaStart request))

section

variable {env : Environment} {request : Request} {betaStart : Int} {label : Label} {window : Window}
  {tasks : List TaskRow} {task : TaskRow}

theorem length_sample : (sample window tasks).length = (counted window tasks).countP inOrder := by
  rw [sample, List.length_map, List.countP_eq_length_filter]

/-- But for the rate, statistics always describe their window. -/
theorem describes_iff :
    Describes tasks (buildWindowStats label window tasks) ↔ Matched (counted window tasks) := by
  have hsample : (visitAll window tasks).latencySamples = sample window tasks := by
    rw [visitAll_eq]
  have hcount : (visitAll window tasks).interventionCount
      = (counted window tasks).countP isTaskIntervened := by
    rw [visitAll_eq]
  have hrate : (buildWindowStats label window tasks).interventions.rate
      = if 0 < (counted window tasks).countP inOrder then
        ((counted window tasks).countP isTaskIntervened : ℚ) / (counted window tasks).countP inOrder
        else 0 := by
    rw [buildWindowStats]
    dsimp only
    rw [hsample, hcount, length_sample]
  rw [← rate_bounds_iff, ← hrate]
  constructor
  · intro hdescribes
    exact hdescribes.rate
  · intro hbounds
    refine ⟨?_, ?_, ?_, ?_, ?_, hbounds⟩
    · exact congrArg List.length hsample
    · exact hcount
    · show IsPercentile (sample window tasks) 50
        (percentileNearestRank (visitAll window tasks).latencySamples 50)
      rw [hsample]
      exact isPercentile (by norm_num)
    · show IsPercentile (sample window tasks) 95
        (percentileNearestRank (visitAll window tasks).latencySamples 95)
      rw [hsample]
      exact isPercentile (by norm_num)
    · intro x y hx hy
      exact percentile_mono (by norm_num) hx hy

theorem mem_rowsOf {lookback : Int} :
    task ∈ rowsOf request.now lookback betaStart request ↔
      task ∈ request.tasks ∧ task.workspaceId = request.workspaceId ∧ task.status = "done" ∧
        ∃ completedAt, task.completedAt = some completedAt ∧
          ((baselineWindow request.now lookback betaStart).start : ℚ) ≤ completedAt ∧
            completedAt < ((postWindow request.now betaStart).stop : ℚ) := by
  rw [rowsOf, List.mem_filter]
  simp only [Bool.and_eq_true, decide_eq_true_eq, Option.any_eq_true, and_assoc]

/-- A task that is in both windows would be completed before the beta and since. -/
theorem windows_apart {lookback : Int}
    (hbaseline : inWindow (baselineWindow request.now lookback betaStart) task = true) :
    inWindow (postWindow request.now betaStart) task = false := by
  rw [Bool.eq_false_iff]
  intro hpost
  obtain ⟨x, hx, -, -, hstop⟩ := inWindow_iff.mp hbaseline
  obtain ⟨y, hy, -, hstart, -⟩ := inWindow_iff.mp hpost
  rw [hx] at hy
  rw [← Option.some.inj hy] at hstart
  exact absurd hstop (not_lt.mpr hstart)

/-- What is completed since the start of the baseline is in a window unless it was at 0. -/
theorem mem_window {lookback : Int} {completedAt : ℚ}
    (hcompleted : task.completedAt = some completedAt) (hzero : completedAt ≠ 0)
    (hstart : ((baselineWindow request.now lookback betaStart).start : ℚ) ≤ completedAt)
    (hstop : completedAt < ((postWindow request.now betaStart).stop : ℚ)) :
    inWindow (baselineWindow request.now lookback betaStart) task = true ∨
      inWindow (postWindow request.now betaStart) task = true := by
  rcases lt_or_ge completedAt (betaStart : ℚ) with hbefore | hsince
  · exact .inl (inWindow_iff.mpr ⟨completedAt, hcompleted, hzero, hstart, hbefore⟩)
  · exact .inr (inWindow_iff.mpr ⟨completedAt, hcompleted, hzero, hsince, hstop⟩)

theorem sound_iff :
    Sound request (report env request betaStart) ↔ Orderly env request betaStart := by
  set lookback := lookbackSeconds env request with hlookback
  set rows := rowsOf request.now lookback betaStart request with hrows
  have hcounts : ∀ window, ∀ task ∈ rows,
      (task ∈ counted window rows ↔ inWindow window task = true) :=
    fun window task htask => List.mem_filter.trans (and_iff_right htask)
  constructor
  · intro hsound
    refine ⟨fun task htask hcontra => ?_, describes_iff.mp hsound.baseline,
      describes_iff.mp hsound.post⟩
    obtain ⟨hmem, hworkspace, hstatus, completedAt, hcompleted, hstart, -⟩ := mem_rowsOf.mp htask
    have hzero : completedAt = 0 := Option.some.inj (hcompleted.symm.trans hcontra)
    have hnone : ∀ window, inWindow window task = false := by
      intro window
      rw [inWindow, hcontra]
      rfl
    have hnow : completedAt ≤ (request.now : ℚ) := by
      rw [hzero]
      exact Nat.cast_nonneg _
    rcases hsound.once task hmem hworkspace hstatus completedAt hcompleted hstart hnow with h | h
    · exact absurd (List.mem_filter.mp h).2 (by rw [hnone]; exact Bool.false_ne_true)
    · exact absurd (List.mem_filter.mp h).2 (by rw [hnone]; exact Bool.false_ne_true)
  · intro horderly
    refine ⟨fun task hbaseline hpost => ?_, ?_, describes_iff.mpr horderly.baseline,
      describes_iff.mpr horderly.post⟩
    · have hfalse := windows_apart (List.mem_filter.mp hbaseline).2
      have htrue := (List.mem_filter.mp hpost).2
      exact absurd (htrue.symm.trans hfalse) (by decide)
    · intro task hmem hworkspace hstatus completedAt hcompleted hstart hnow
      have hstop : completedAt < ((postWindow request.now betaStart).stop : ℚ) := by
        have hlt : (request.now : ℚ) < ((request.now + 1 : Int) : ℚ) := by
          push_cast
          linarith
        exact lt_of_le_of_lt hnow hlt
      have hrow : task ∈ rows :=
        mem_rowsOf.mpr ⟨hmem, hworkspace, hstatus, completedAt, hcompleted, hstart, hstop⟩
      have hzero : completedAt ≠ 0 := by
        rintro rfl
        exact horderly.epoch task hrow hcompleted
      rcases mem_window hcompleted hzero hstart hstop with h | h
      · exact .inl ((hcounts _ task hrow).mpr h)
      · exact .inr ((hcounts _ task hrow).mpr h)

end

/-- For all tasks, every start of a beta that is not in the future and every lookback, the request
succeeds with windows that are sound, if and only if the rows are orderly. -/
theorem regression_sound_iff (env : Environment) (request : Request) (betaStart : Int)
    (hbeta : betaStartOf env request = some betaStart) (hzero : betaStart ≠ 0)
    (hpast : betaStart ≤ request.now) :
    (∃ report, Routes.get env request = .ok report ∧ Sound request report) ↔
      Orderly env request betaStart := by
  have hget : Routes.get env request = .ok (report env request betaStart) := by
    have hfilter : (betaStartOf env request).filter (· ≠ 0) = some betaStart := by
      rw [hbeta]
      exact Option.filter_eq_some_iff.mpr ⟨rfl, decide_eq_true hzero⟩
    simp only [Routes.get, hfilter, not_lt.mpr hpast, if_false]
  rw [← sound_iff]
  constructor
  · rintro ⟨report', hreport, hsound⟩
    rw [hget] at hreport
    rwa [← Response.ok.inj hreport] at hsound
  · intro hsound
    exact ⟨_, hget, hsound⟩

/-! ### Samples -/

/-- Reads 1000, the start of the beta in the samples. -/
def thousand : Environment :=
  ⟨fun text => if text = "1000" then .finite 1000 else .nan, fun _ => none⟩

def doneTask (id : Nat) (createdAt completedAt : ℚ) (outcome : String) : TaskRow :=
  ⟨id, 1, "done", createdAt, some completedAt, some 0, some outcome, none⟩

def comparison (tasks : List TaskRow) : Request := ⟨tasks, 1, some "1000", none, none, 2000⟩

/-- A task before the beta, and since then one that failed and one that did not. -/
theorem regression_sound_sample :
    ∃ report, Routes.get thousand (comparison [doneTask 1 800 900 "success",
      doneTask 2 1100 1200 "failed", doneTask 3 1100 1500 "success"]) = .ok report ∧
      Sound (comparison [doneTask 1 800 900 "success", doneTask 2 1100 1200 "failed",
        doneTask 3 1100 1500 "success"]) report := by
  refine (regression_sound_iff thousand _ 1000 (by decide +kernel) (by decide) (by decide)).mpr ?_
  constructor
  · decide +kernel
  · exact .inr (by decide +kernel)
  · exact .inr (by decide +kernel)

/-- Of two tasks that failed, one is dated back to before it was created: the rate is 2. -/
theorem dated_back_exceeds :
    ¬ ∀ (env : Environment) (request : Request) (betaStart : Int),
      betaStartOf env request = some betaStart → betaStart ≠ 0 → betaStart ≤ request.now →
        ∃ report, Routes.get env request = .ok report ∧ Sound request report := by
  intro h
  obtain ⟨report, hreport, hsound⟩ := h thousand
    (comparison [doneTask 1 1100 1200 "failed", doneTask 2 1300 1200 "failed"]) 1000
    (by decide +kernel) (by decide) (by decide)
  obtain rfl := Response.ok.inj hreport
  exact absurd hsound.post.rate.2 (by decide +kernel)

end MissionControl.Regression.Metrics
