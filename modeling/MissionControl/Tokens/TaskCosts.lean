import MissionControl.Foundations.Calendar
import MissionControl.Foundations.Dictionaries
import MissionControl.Foundations.JsObjects

/-!
The cost report of tasks. Records of usage are put together by task, by agent and by project, the
records of a task by model and by day. Sums and averages are exact.
-/

set_option autoImplicit false
set_option relaxedAutoImplicit false

namespace MissionControl.Tokens.TaskCosts

open MissionControl.Foundations.Calendar
open MissionControl.Foundations.Dictionaries
open MissionControl.Foundations.JsText
open MissionControl.Foundations.JsonValues (arrayIndex)
open MissionControl.Foundations.Numbers (Number)

/-! ### Records and tasks -/

structure TokenCostRecord where
  model : String
  agentName : String
  timestamp : Number
  totalTokens : ℚ
  cost : ℚ
  taskId : Option Number
  deriving DecidableEq

structure TokenStats where
  totalTokens : ℚ
  totalCost : ℚ
  requestCount : Nat
  avgTokensPerRequest : Int
  avgCostPerRequest : ℚ
  deriving DecidableEq

/-- Projects and tickets have whole numbers. -/
structure TaskCostMetadata where
  title : String
  status : String
  priority : String
  assignedTo : Option String
  projectId : Option Int
  projectName : Option String
  projectSlug : Option String
  projectTicketNo : Option Int
  projectPrefix : Option String
  deriving DecidableEq

/-- `Record<number, TaskCostMetadata>`; the text of a number names no member of an object. -/
abbrev TaskMetadata := ℚ → Option TaskCostMetadata

/-- `Number(record.taskId)`, if it is finite. -/
def attributed (record : TokenCostRecord) : Option ℚ :=
  match record.taskId with
  | some (.finite taskId) => some taskId
  | _ => none

/-! ### Statistics -/

/-- `Math.round`. -/
def round (x : ℚ) : Int := (x + 1 / 2).floor

def calculateStats (records : List TokenCostRecord) : TokenStats :=
  if records.length = 0 then ⟨0, 0, 0, 0, 0⟩
  else
    let totalTokens := records.foldl (fun sum r => sum + r.totalTokens) 0
    let totalCost := records.foldl (fun sum r => sum + r.cost) 0
    let requestCount := records.length
    ⟨totalTokens, totalCost, requestCount, round (totalTokens / requestCount),
      totalCost / requestCount⟩

/-- The keys that `{}` has already. -/
def inherited (key : String) : Bool := key ∈ Foundations.JsObjects.members

def groupByModel (records : List TokenCostRecord) : Option (List (String × TokenStats)) :=
  (collect inherited TokenCostRecord.model [] (push id) records).map fun modelGroups =>
    (entries arrayIndex modelGroups).map fun group => (group.1, calculateStats group.2)

structure DayTotals where
  cost : ℚ
  tokens : ℚ
  deriving DecidableEq

/-- A record with the text of its day; `toISOString` throws on an invalid date. -/
def dated (record : TokenCostRecord) : Option (String × TokenCostRecord) :=
  (timeClip record.timestamp).map fun time => (isoDate time, record)

def addToDay (turn : String × TokenCostRecord) (totals : DayTotals) : DayTotals :=
  ⟨totals.cost + turn.2.cost, totals.tokens + turn.2.totalTokens⟩

def buildTimeline (localeCompare : String → String → Int) (records : List TokenCostRecord) :
    Option (List (String × DayTotals)) := do
  let turns ← records.mapM dated
  let byDate ← collect inherited Prod.fst ⟨0, 0⟩ addToDay turns
  some ((entries arrayIndex byDate).insertionSort fun a b => localeCompare a.1 b.1 ≤ 0)

/-! ### The report -/

def formatTicketRef (ticketPrefix : Option String) (num : Option Int) : Option String :=
  (truthy ticketPrefix).bind fun text =>
    num.bind fun n => if n ≤ 0 then none else some (text ++ "-" ++ padStart 3 (toString n.toNat))

structure ProjectRef where
  id : Option Int
  name : Option String
  slug : Option String
  ticketRef : Option String
  deriving DecidableEq

structure TaskCostEntry where
  taskId : ℚ
  title : String
  status : String
  priority : String
  assignedTo : Option String
  project : ProjectRef
  stats : TokenStats
  models : List (String × TokenStats)
  timeline : List (String × DayTotals)
  deriving DecidableEq

/-- `AgentTaskCostEntry` and `ProjectTaskCostEntry`. -/
structure GroupCostEntry where
  stats : TokenStats
  taskCount : Nat
  taskIds : List ℚ
  deriving DecidableEq

structure TaskCostReport where
  summary : TokenStats
  tasks : List TaskCostEntry
  agents : List (String × GroupCostEntry)
  projects : List (String × GroupCostEntry)
  unattributed : TokenStats
  deriving DecidableEq

/-- A turn of a loop over the attributed records that comes past `continue`. -/
structure Turn where
  taskId : ℚ
  found : TaskCostMetadata
  record : TokenCostRecord
  deriving DecidableEq

def turn? (taskMetadata : TaskMetadata) (record : TokenCostRecord) : Option Turn :=
  (attributed record).bind fun taskId =>
    (taskMetadata taskId).map fun found => ⟨taskId, found, record⟩

/-- The key of a task in `Object.entries`, if it is an index. -/
def taskIndex (taskId : ℚ) : Option Nat :=
  if taskId.den = 1 ∧ 0 ≤ taskId.num ∧ taskId.num < 4294967295 then some taskId.num.toNat else none

def taskEntry (localeCompare : String → String → Int) (taskMetadata : TaskMetadata)
    (group : ℚ × List TokenCostRecord) : Option TaskCostEntry := do
  let found ← taskMetadata group.1
  let models ← groupByModel group.2
  let timeline ← buildTimeline localeCompare group.2
  some
    { taskId := group.1
      title := found.title
      status := found.status
      priority := found.priority
      assignedTo := truthy found.assignedTo
      project :=
        { id := found.projectId
          name := found.projectName
          slug := found.projectSlug
          ticketRef := formatTicketRef found.projectPrefix found.projectTicketNo }
      stats := calculateStats group.2
      models := models
      timeline := timeline }

/-- `meta.project_id ? String(meta.project_id) : 'unscoped'`. -/
def projectKey (found : TaskCostMetadata) : String :=
  match found.projectId with
  | none => "unscoped"
  | some projectId => if projectId = 0 then "unscoped" else toString projectId

def groupEntry (taskIdsOf : List (String × List ℚ)) (group : String × List TokenCostRecord) :
    String × GroupCostEntry :=
  let taskIds := ((taskIdsOf.lookup group.1).getD []).insertionSort (· ≤ ·)
  (group.1, ⟨calculateStats group.2, taskIds.length, taskIds⟩)

/-- `none` is an exception. -/
def buildTaskCostReport (localeCompare : String → String → Int) (records : List TokenCostRecord)
    (taskMetadata : TaskMetadata) : Option TaskCostReport := do
  let unattributedRecords := records.filter fun record => (attributed record).isNone
  let turns := records.filterMap (turn? taskMetadata)
  let byTask ← collect (fun _ => false) Turn.taskId [] (push Turn.record) turns
  let unsorted ← (entries taskIndex byTask).mapM (taskEntry localeCompare taskMetadata)
  let tasks := unsorted.insertionSort fun a b => b.stats.totalCost - a.stats.totalCost ≤ 0
  let byAgent ← collect inherited (fun t => t.record.agentName) [] (push Turn.record) turns
  -- the two loops over the tasks and the records of each
  let agentTurns := tasks.flatMap fun task =>
    ((byTask.lookup task.taskId).getD []).map fun record => (record.agentName, task.taskId)
  let agentTaskIds ← collect inherited Prod.fst [] (add Prod.snd) agentTurns
  let byProject ← collect inherited (fun t => projectKey t.found) [] (push Turn.record) turns
  let projectTaskIds ← collect inherited (fun t => projectKey t.found) [] (add Turn.taskId) turns
  some
    { summary := calculateStats (records.filter fun record => (turn? taskMetadata record).isSome)
      tasks := tasks
      agents := (entries arrayIndex byAgent).map (groupEntry agentTaskIds)
      projects := (entries arrayIndex byProject).map (groupEntry projectTaskIds)
      unattributed := calculateStats unattributedRecords }

end MissionControl.Tokens.TaskCosts
