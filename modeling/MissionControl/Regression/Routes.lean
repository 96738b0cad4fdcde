import Mathlib.Algebra.Order.Field.Rat
import Mathlib.Data.Rat.Floor
import MissionControl.Foundations.JsText
import MissionControl.Foundations.Numbers
import MissionControl.Foundations.Ranks

/-!
The comparison of the done tasks before and after a start of a beta: latencies and interventions in
two windows of time.
-/

set_option autoImplicit false
set_option relaxedAutoImplicit false

namespace MissionControl.Regression.Routes

open MissionControl.Foundations.JsText
open MissionControl.Foundations.Numbers (Number)
open MissionControl.Foundations.Ranks

/-- The columns of `tasks` that the comparison reads. -/
structure TaskRow where
  id : Nat
  workspaceId : Nat
  status : String
  createdAt : ℚ
  completedAt : Option ℚ
  retryCount : Option ℚ
  outcome : Option String
  errorMessage : Option String
  deriving DecidableEq

/-- What the language makes of texts. -/
structure Environment where
  /-- `Number(text)`. -/
  number : String → Number
  /-- `Date.parse(text)`, in milliseconds. -/
  dateParse : String → Option Int

structure Request where
  tasks : List TaskRow
  workspaceId : Nat
  betaStart : Option String
  cutover : Option String
  lookbackSeconds : Option String
  now : Nat

/-! ### Parameters -/

def parseTimestamp (env : Environment) (value : Option String) : Option Int :=
  match truthy value with
  | none => none
  | some value =>
    let trimmed := trim value
    if trimmed = "" then none
    else
      match env.number trimmed with
      | .finite x => if 0 < x then some ⌊x⌋ else (env.dateParse trimmed).map (· / 1000)
      | _ => (env.dateParse trimmed).map (· / 1000)

def betaStartOf (env : Environment) (request : Request) : Option Int :=
  parseTimestamp env ((truthy request.betaStart).or request.cutover)

def lookbackRaw (env : Environment) (request : Request) : Number :=
  match truthy request.lookbackSeconds with
  | none => .finite (7 * 24 * 60 * 60)
  | some text => env.number text

def lookbackSeconds (env : Environment) (request : Request) : Int :=
  min (30 * 24 * 60 * 60) (max 60 (match lookbackRaw env request with
    | .finite x => ⌊x⌋
    | _ => 7 * 24 * 60 * 60))

/-! ### Windows -/

/-- From the start on, and before the end. -/
structure Window where
  start : Int
  stop : Int
  deriving DecidableEq

section

variable (now : Nat) (lookback betaStart : Int)

/-- The tasks that are completed in the current second are in it. -/
def postWindow : Window := ⟨betaStart, now + 1⟩

def postDuration : Int :=
  max 60 ((postWindow now betaStart).stop - (postWindow now betaStart).start)

def baselineDuration : Int := min lookback (postDuration now betaStart)

def baselineWindow : Window :=
  ⟨max 0 (betaStart - baselineDuration now lookback betaStart), betaStart⟩

/-- The rows of the query. -/
def rowsOf (request : Request) : List TaskRow :=
  request.tasks.filter fun task =>
    decide (task.workspaceId = request.workspaceId) && decide (task.status = "done") &&
      task.completedAt.any fun completedAt =>
        decide (((baselineWindow now lookback betaStart).start : ℚ) ≤ completedAt) &&
          decide (completedAt < ((postWindow now betaStart).stop : ℚ))

end

/-! ### Statistics -/

/-- The percentile times the length is an integer or a twentieth away from one, so that its ceiling
is not changed where the product is rounded. -/
def percentileNearestRank (values : List ℚ) (percentile : ℚ) : Option ℚ :=
  if values = [] then none else nearest ⌈percentile / 100 * values.length⌉ values

def average (values : List ℚ) : Option ℚ :=
  if values = [] then none else some (values.foldl (fun acc value => acc + value) 0 / values.length)

def isTaskIntervened (task : TaskRow) : Bool :=
  let outcome := toLowerCase (task.outcome.getD "")
  let hasErrorMessage := trim (task.errorMessage.getD "") ≠ ""
  decide (0 < task.retryCount.getD 0) || decide hasErrorMessage || decide (outcome = "failed") ||
    decide (outcome = "partial") || decide (outcome = "abandoned")

/-- What the loop over the tasks has found. -/
structure Found where
  latencySamples : List ℚ
  interventionCount : Nat
  deriving DecidableEq

/-- One turn of the loop. A time of completion that is 0 is falsy. -/
def visit (window : Window) (found : Found) (task : TaskRow) : Found :=
  match task.completedAt.filter (· ≠ 0) with
  | none => found
  | some completedAt =>
    if completedAt < window.start ∨ (window.stop : ℚ) ≤ completedAt then found
    else
      ⟨if task.createdAt ≤ completedAt then found.latencySamples ++ [completedAt - task.createdAt]
        else found.latencySamples,
        if isTaskIntervened task then found.interventionCount + 1 else found.interventionCount⟩

def visitAll (window : Window) (tasks : List TaskRow) : Found := tasks.foldl (visit window) ⟨[], 0⟩

inductive Label where
  | baseline
  | post
  deriving DecidableEq

structure Latency where
  p50 : Option ℚ
  p95 : Option ℚ
  avg : Option ℚ
  deriving DecidableEq

structure Interventions where
  count : Nat
  rate : ℚ
  deriving DecidableEq

structure WindowStats where
  label : Label
  window : Window
  sampleSize : Nat
  latencySeconds : Latency
  interventions : Interventions
  deriving DecidableEq

def buildWindowStats (label : Label) (window : Window) (tasks : List TaskRow) : WindowStats :=
  let found := visitAll window tasks
  let sampleSize := found.latencySamples.length
  { label := label
    window := window
    sampleSize := sampleSize
    latencySeconds :=
      { p50 := percentileNearestRank found.latencySamples 50
        p95 := percentileNearestRank found.latencySamples 95
        avg := average found.latencySamples }
    interventions :=
      { count := found.interventionCount
        rate := if 0 < sampleSize then found.interventionCount / sampleSize else 0 } }

/-! ### The route -/

structure Report where
  betaStart : Int
  lookbackSeconds : Int
  baseline : WindowStats
  post : WindowStats
  p95LatencySeconds : Option ℚ
  interventionRate : ℚ

inductive Response where
  /-- 400, with its error. -/
  | refused (error : String)
  | ok (report : Report)

/-- The difference of two times, where both are known. -/
def p95Delta (post baseline : Option ℚ) : Option ℚ :=
  match post, baseline with
  | some post, some baseline => some (post - baseline)
  | _, _ => none

def report (env : Environment) (request : Request) (betaStart : Int) : Report :=
  let lookback := lookbackSeconds env request
  let rows := rowsOf request.now lookback betaStart request
  let baseline := buildWindowStats .baseline (baselineWindow request.now lookback betaStart) rows
  let post := buildWindowStats .post (postWindow request.now betaStart) rows
  { betaStart := betaStart
    lookbackSeconds := lookback
    baseline := baseline
    post := post
    p95LatencySeconds := p95Delta post.latencySeconds.p95 baseline.latencySeconds.p95
    interventionRate := post.interventions.rate - baseline.interventions.rate }

/-- `GET /api/tasks/regression`. -/
def get (env : Environment) (request : Request) : Response :=
  match (betaStartOf env request).filter (· ≠ 0) with
  | none =>
    .refused "beta_start query parameter is required (unix seconds or ISO timestamp)"
  | some betaStart =>
    if (request.now : Int) < betaStart then .refused "beta_start must not be in the future"
    else .ok (report env request betaStart)

end MissionControl.Regression.Routes
