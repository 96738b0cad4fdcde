import Mathlib.Data.List.Sort
import MissionControl.Foundations.JsObjects
import MissionControl.Foundations.JsText

/-!
The report on the outcomes of tasks. It counts in plain objects, whose properties are named after
what stands in the rows.
-/

set_option autoImplicit false
set_option relaxedAutoImplicit false

namespace MissionControl.Outcomes.Routes

open MissionControl.Foundations.JsObjects
open MissionControl.Foundations.JsText

/-- The columns of `tasks` that the report reads. -/
structure TaskRow where
  id : Nat
  workspaceId : Nat
  status : String
  assignedTo : Option String
  priority : Option String
  outcome : Option String
  errorMessage : Option String
  retryCount : Option ℚ
  createdAt : Option ℚ
  completedAt : Option ℚ
  updatedAt : ℚ
  deriving DecidableEq

structure Request where
  tasks : List TaskRow
  workspaceId : Nat
  timeframe : Option String
  now : Int

/-! ### The query -/

def timeframe (request : Request) : String :=
  toLowerCase (trim ((truthy request.timeframe).getD "all"))

def resolveSince (now : Int) (timeframe : String) : Int :=
  if timeframe = "day" then now - 24 * 60 * 60
  else if timeframe = "week" then now - 7 * 24 * 60 * 60
  else if timeframe = "month" then now - 30 * 24 * 60 * 60
  else 0

def doneRows (request : Request) : List TaskRow :=
  let since := resolveSince request.now (timeframe request)
  request.tasks.filter fun row =>
    decide (row.workspaceId = request.workspaceId) && decide (row.status = "done") &&
      (decide (since = 0) || decide ((since : ℚ) ≤ row.completedAt.getD row.updatedAt))

def outcomeOf (row : TaskRow) : String := (truthy row.outcome).getD "unknown"

def assigneeOf (row : TaskRow) : String := (truthy row.assignedTo).getD "unassigned"

def priorityOf (row : TaskRow) : String := (truthy row.priority).getD "unknown"

/-! ### The objects -/

inductive Grouping where
  | byAgent
  | byPriority
  deriving DecidableEq

/-- The objects that the route makes. -/
inductive Local where
  | byOutcome
  | table (t : Grouping)
  | group (t : Grouping) (key : String)
  deriving DecidableEq

def buckets : List String := ["success", "failed", "partial", "abandoned", "unknown"]

def zero (name : String) : String × Property Local := (name, .value (.number 0))

def outcomeBuckets : Properties Local := buckets.map zero

/-- `{ ...outcomeBuckets(), total: 0, success_rate: 0 }`. -/
def newGroup : Properties Local := outcomeBuckets ++ [zero "total", zero "success_rate"]

/-- The objects before the loop. -/
def start (h : Heap Local) : Heap Local
  | .own .byOutcome => outcomeBuckets
  | .own (.table _) => []
  | r => h r

/-! ### The loop -/

/-- Count an outcome in what an expression evaluates to. -/
def countOutcome (target : Heap Local → Option (Value Local)) (outcome : String) (h : Heap Local) :
    Except (Heap Local) (Heap Local) :=
  match hasIn h (target h) outcome with
  | none => .error h
  | some true => incrementAt h (target h) outcome
  | some false => incrementAt h (target h) "unknown"

def summaryByOutcome (_ : Heap Local) : Option (Value Local) := some (.object (.own .byOutcome))

/-- `byAgent[assignedTo]`, `byPriority[priority]`. -/
def groupAt (t : Grouping) (key : String) (h : Heap Local) : Option (Value Local) :=
  read h (.own (.table t)) key

/-- Make the group of a key where there is none. -/
def ensureGroup (t : Grouping) (key : String) (h : Heap Local) : Except (Heap Local) (Heap Local) :=
  match groupAt t key h with
  | none => .error h
  | some v =>
    if toBoolean v then .ok h
    else
      let h := Function.update h (.own (.group t key)) newGroup
      attempt h (put h (.own (.table t)) key (.object (.own (.group t key))))

def tally (t : Grouping) (key outcome : String) (h : Heap Local) :
    Except (Heap Local) (Heap Local) := do
  let h ← ensureGroup t key h
  let h ← incrementAt h (groupAt t key h) "total"
  countOutcome (groupAt t key) outcome h

/-- `errorMap.set(errorMessage, (errorMap.get(errorMessage) || 0) + 1)`. -/
def countError (errors : List (String × Nat)) (message : String) : List (String × Nat) :=
  if message ∈ errors.map Prod.fst then
    errors.map fun e => if e.1 = message then (message, e.2 + 1) else e
  else errors ++ [(message, 1)]

/-- What the loop counts outside of objects. -/
structure Totals where
  withOutcome : Nat
  retryCount : ℚ
  resolutionSeconds : ℚ
  resolutionCount : Nat
  errors : List (String × Nat)
  deriving DecidableEq

def Totals.add (totals : Totals) (row : TaskRow) : Totals where
  withOutcome := if outcomeOf row ≠ "unknown" then totals.withOutcome + 1 else totals.withOutcome
  retryCount := totals.retryCount + row.retryCount.getD 0
  resolutionSeconds :=
    match row.completedAt.filter (· ≠ 0), row.createdAt.filter (· ≠ 0) with
    | some completedAt, some createdAt =>
      if createdAt ≤ completedAt then totals.resolutionSeconds + (completedAt - createdAt)
      else totals.resolutionSeconds
    | _, _ => totals.resolutionSeconds
  resolutionCount :=
    match row.completedAt.filter (· ≠ 0), row.createdAt.filter (· ≠ 0) with
    | some completedAt, some createdAt =>
      if createdAt ≤ completedAt then totals.resolutionCount + 1 else totals.resolutionCount
    | _, _ => totals.resolutionCount
  errors :=
    let message := trim (row.errorMessage.getD "")
    if message = "" then totals.errors else countError totals.errors message

/-- What the loop does to the objects. -/
def countRow (h : Heap Local) (row : TaskRow) : Except (Heap Local) (Heap Local) := do
  let h ← countOutcome summaryByOutcome (outcomeOf row) h
  let h ← tally .byAgent (assigneeOf row) (outcomeOf row) h
  tally .byPriority (priorityOf row) (outcomeOf row) h

/-! ### Rates -/

/-- `withOutcome > 0 ? success / withOutcome : 0`. -/
def rate (success withOutcome : Value Local) : Value Local :=
  if positive withOutcome then div success withOutcome else .number 0

/-- The rate of a group, from what its properties are. -/
def setRate (h : Heap Local) (v : Value Local) : Except (Heap Local) (Heap Local) :=
  match v with
  | .object r =>
    match read h r "total", read h r "unknown", read h r "success" with
    | some total, some unknown, some success =>
      attempt h (put h r "success_rate" (rate success (sub total unknown)))
    | _, _, _ => .error h
  | _ => .error h

/-- The loop over `Object.values(…)`, which throws if `Object.values` is no function any more. -/
def setRates (t : Grouping) (h : Heap Local) : Except (Heap Local) (Heap Local) :=
  match read h (.builtin .global "Object") "values" with
  | some (.object (.builtin .object "values")) =>
    ((entries h (.own (.table t))).map Prod.snd).foldlM setRate h
  | _ => .error h

/-! ### The route -/

structure Report where
  timeframe : String
  totalDone : Nat
  withOutcome : Nat
  byOutcome : List (String × Value Local)
  avgRetryCount : ℚ
  avgTimeToResolutionSeconds : ℚ
  successRate : Value Local
  byAgent : List (String × List (String × Value Local))
  byPriority : List (String × List (String × Value Local))
  commonErrors : List (String × Nat)
  recordCount : Nat

inductive Response where
  /-- 500, Failed to fetch task outcomes. -/
  | failed
  | ok (report : Report)

/-- The groups of a table, with their properties. -/
def groupsOf (h : Heap Local) (t : Grouping) : List (String × List (String × Value Local)) :=
  (entries h (.own (.table t))).map fun e =>
    match e.2 with
    | .object r => (e.1, entries h r)
    | _ => (e.1, [])

def average (sum : ℚ) (count : Nat) : ℚ := if 0 < count then sum / count else 0

def summaryRate (h : Heap Local) (withOutcome : Nat) : Option (Value Local) :=
  (read h (.own .byOutcome) "success").map fun success => rate success (.number withOutcome)

def countAll (rows : List TaskRow) (h : Heap Local) : Except (Heap Local) (Heap Local) := do
  let h ← rows.foldlM countRow (start h)
  let h ← setRates .byAgent h
  setRates .byPriority h

def report (request : Request) (h : Heap Local) (successRate : Value Local) : Report :=
  let rows := doneRows request
  let totals := rows.foldl Totals.add ⟨0, 0, 0, 0, []⟩
  { timeframe := timeframe request
    totalDone := rows.length
    withOutcome := totals.withOutcome
    byOutcome := entries h (.own .byOutcome)
    avgRetryCount := average totals.retryCount rows.length
    avgTimeToResolutionSeconds := average totals.resolutionSeconds totals.resolutionCount
    successRate := successRate
    byAgent := groupsOf h .byAgent
    byPriority := groupsOf h .byPriority
    commonErrors := (totals.errors.insertionSort fun a b => b.2 ≤ a.2).take 10
    recordCount := rows.length }

/-- `GET /api/tasks/outcomes`, in a process whose objects are those of a heap. -/
def get (h : Heap Local) (request : Request) : Response × Heap Local :=
  match countAll (doneRows request) h with
  | .error h => (.failed, h)
  | .ok h =>
    match summaryRate h ((doneRows request).foldl Totals.add ⟨0, 0, 0, 0, []⟩).withOutcome with
    | none => (.failed, h)
    | some successRate => (.ok (report request h successRate), h)

/-- One request after the other. -/
def run : Heap Local → List Request → List Response
  | _, [] => []
  | h, request :: requests => (get h request).1 :: run (get h request).2 requests

end MissionControl.Outcomes.Routes
