import MissionControl.Events.Producers
import MissionControl.Foundations.Lists

/-!
The import of GitHub issues by `POST /api/github`, at the moment the issues have arrived.
-/

set_option autoImplicit false
set_option relaxedAutoImplicit false

namespace MissionControl.Workload.GitHubImport

open MissionControl.Foundations.JsText
open MissionControl.Foundations.Lists
open MissionControl.Foundations.Schema (Json lookup)
open MissionControl.Tasks.Validation
open MissionControl.Tasks.Database
open MissionControl.Tasks.Routes (insertTask)
open MissionControl.Events.Bus
open MissionControl.Events.Stores
open MissionControl.Events.Producers (taskColumns)

structure GitHubIssue where
  number : Nat
  title : String
  body : Option String
  closed : Bool
  labels : List String
  htmlUrl : String
  deriving DecidableEq

/-- What the import of a request has in common for all issues; the two times are those of the
clock in seconds and as a text. -/
structure Import where
  repo : String
  actor : String
  assignAgent : Option String
  workspaceId : Nat
  syncedAt : String
  deriving DecidableEq

def mapPriority : List String → TaskPriority
  | [] => .medium
  | label :: labels =>
    let lower := toLowerCase label
    if lower = "priority:critical" ∨ lower = "critical" then .critical
    else if lower = "priority:high" ∨ lower = "high" then .high
    else if lower = "priority:low" ∨ lower = "low" then .low
    else if lower = "priority:medium" then .medium
    else mapPriority labels

/-- The issue has been imported into the workspace before. -/
def imported (db : Db) (params : Import) (issue : GitHubIssue) : Bool :=
  db.tasks.any fun t =>
    lookup (t.metadata.getD []) "github_repo" = some (.string params.repo) ∧
      lookup (t.metadata.getD []) "github_issue_number" = some (natural issue.number) ∧
      t.workspaceId = params.workspaceId

/-- The row of an issue; the other columns have their defaults. -/
def newTask (id now : Nat) (params : Import) (issue : GitHubIssue) : Task where
  id := id
  workspaceId := params.workspaceId
  title := issue.title
  description := some (issue.body.getD "")
  status := if issue.closed then .done else .inbox
  priority := mapPriority issue.labels
  projectId := none
  projectTicketNo := none
  assignedTo := truthy params.assignAgent
  createdBy := params.actor
  createdAt := now
  updatedAt := now
  dueDate := none
  estimatedHours := none
  actualHours := none
  outcome := none
  errorMessage := none
  resolution := none
  feedbackRating := none
  feedbackNotes := none
  retryCount := 0
  completedAt := none
  tags := some issue.labels
  metadata := some
    [("github_repo", .string params.repo), ("github_issue_number", natural issue.number),
      ("github_issue_url", .string issue.htmlUrl), ("github_synced_at", .string params.syncedAt),
      ("github_state", .string (if issue.closed then "closed" else "open"))]
  pipelineRunId := none
  prUrl := none

/-- The rows after one issue. -/
def writeIssue (now : Nat) (params : Import) (db : Db) (issue : GitHubIssue) : Db :=
  if imported db params issue then db
  else insertTask db (newTask db.nextTaskId now params issue)

def importIssue (params : Import) (w : World) (issue : GitHubIssue) : World :=
  if imported w.tasks params issue then w
  else
    let task := newTask w.tasks.nextTaskId w.now params issue
    ({ w with tasks := insertTask w.tasks task }.logActivity "task_created" "task" task.id
      params.actor ("Imported from GitHub: " ++ params.repo ++ "#" ++ toString issue.number)
      (some (.object [("github_issue", natural issue.number), ("github_repo", .string params.repo)]))
      params.workspaceId).broadcast .taskCreated (.object (taskColumns task))

/-- `handleSync`, with the count of what it has imported. -/
def handleSync (params : Import) (w : World) (issues : List GitHubIssue) : World :=
  let synced := issues.foldl (importIssue params) w
  let count := synced.tasks.tasks.length - w.tasks.tasks.length
  synced.broadcast .githubSynced (.object
    [("repo", .string params.repo), ("imported", natural count),
      ("skipped", natural (issues.length - count)), ("errors", natural 0),
      ("timestamp", natural w.now)])

/-! ### Rows -/

theorem tasks_importIssue (params : Import) (w : World) (issue : GitHubIssue) :
    (importIssue params w issue).tasks = writeIssue w.now params w.tasks issue ∧
      (importIssue params w issue).now = w.now := by
  unfold importIssue writeIssue
  split <;> exact ⟨rfl, rfl⟩

theorem tasks_handleSync (params : Import) (w : World) (issues : List GitHubIssue) :
    (handleSync params w issues).tasks = issues.foldl (writeIssue w.now params) w.tasks := by
  unfold handleSync
  change (issues.foldl (importIssue params) w).tasks = _
  induction issues generalizing w with
  | nil => rfl
  | cons issue issues ih =>
    obtain ⟨htasks, hnow⟩ := tasks_importIssue params w issue
    rw [List.foldl_cons, List.foldl_cons, ih, htasks, hnow]

theorem keyed_writeIssue {db : Db} (h : Keyed Task.id db.tasks db.nextTaskId) (now : Nat)
    (params : Import) (issue : GitHubIssue) :
    Keyed Task.id (writeIssue now params db issue).tasks
      (writeIssue now params db issue).nextTaskId := by
  unfold writeIssue
  split
  · exact h
  · exact h.snoc rfl

end MissionControl.Workload.GitHubImport
