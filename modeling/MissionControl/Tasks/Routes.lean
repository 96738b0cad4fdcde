import MissionControl.Foundations.Transition
import MissionControl.Tasks.Database

/-!
The requests that write tasks: creation, the two updates, the queue poll and the quality
review. Each is given the state after authentication and the rate limit, and is one step: the
database calls are synchronous. Reading a row back for the answer changes nothing.
-/

set_option autoImplicit false
set_option relaxedAutoImplicit false

namespace MissionControl.Tasks.Routes

open MissionControl.Foundations.JsText
open MissionControl.Foundations.Query
open MissionControl.Foundations.Schema (Json)
open Validation Database

/-! ### Task status -/

def hasAssignee (assignedTo : Option String) : Bool :=
  ((truthy assignedTo).map trim).any (· ≠ "")

def normalizeTaskCreateStatus (requestedStatus : Option TaskStatus) (assignedTo : Option String) :
    TaskStatus :=
  let status := requestedStatus.getD .inbox
  if status = .inbox ∧ hasAssignee assignedTo then .assigned else status

def normalizeTaskUpdateStatus (currentStatus : TaskStatus) (requestedStatus : Option TaskStatus)
    (assignedTo : Option String) (assignedToProvided : Bool) : Option TaskStatus :=
  match requestedStatus with
  | some status => some status
  | none =>
    if ¬ assignedToProvided then none
    else if hasAssignee assignedTo ∧ currentStatus = .inbox then some .assigned
    else if ¬ hasAssignee assignedTo ∧ currentStatus = .assigned then some .inbox
    else none

/-! ### Effects that several requests share -/

def mentionEffects (workspaceId taskId : Nat) (actor title : String) (recipients : List String) :
    List Effect :=
  recipients.flatMap fun recipient =>
    .subscription workspaceId taskId recipient ::
      (if recipient = actor then []
       else [.notification workspaceId recipient "mention" "You were mentioned in a task description"
         (actor ++ " mentioned you in task \"" ++ title ++ "\"") taskId])

def assignmentEffects (workspaceId taskId : Nat) (assignee title : String) : List Effect :=
  [.subscription workspaceId taskId assignee,
    .notification workspaceId assignee "assignment" "Task Assigned"
      ("You have been assigned to task: " ++ title) taskId]

/-! ### Creation -/

/-- The row that `POST /api/tasks` inserts. -/
def newTask (ctx : Context) (body : TaskBody) (title actor : String) (id projectId ticketNo : Nat) :
    Task :=
  let normalizedStatus := normalizeTaskCreateStatus (body .status) (body .assigned_to)
  { id := id
    workspaceId := ctx.user.workspaceId
    title := title
    description := body .description
    status := normalizedStatus
    priority := (body .priority).getD .medium
    projectId := some projectId
    projectTicketNo := some ticketNo
    assignedTo := body .assigned_to
    createdBy := actor
    createdAt := ctx.now
    updatedAt := ctx.now
    dueDate := body .due_date
    estimatedHours := body .estimated_hours
    actualHours := body .actual_hours
    outcome := body .outcome
    errorMessage := body .error_message
    resolution := body .resolution
    feedbackRating := body .feedback_rating
    feedbackNotes := body .feedback_notes
    retryCount := (body .retry_count).getD 0
    completedAt := (body .completed_at).or (if normalizedStatus = .done then some ctx.now else none)
    tags := some ((body .tags).getD [])
    metadata := some ((body .metadata).getD [])
    pipelineRunId := none
    prUrl := none }

def insertTask (db : Db) (task : Task) : Db :=
  { db with tasks := db.tasks ++ [task], nextTaskId := db.nextTaskId + 1 }

/-- `createTaskTx`: the row it inserts under a fresh number of its project. -/
def createTaskTx (ctx : Context) (db : Db) (requested : Option Nat)
    (row : (id projectId ticketNo : Nat) → Task) : Option Db :=
  (resolveProjectId db ctx.user.workspaceId requested).bind fun projectId =>
    let (db, ticketNo) := allocateTicket db ctx.user.workspaceId projectId
    ticketNo.map fun no => insertTask db (row db.nextTaskId projectId no)

/-- `POST /api/tasks`. -/
def postTask (ctx : Context) (db : Db) (json : Json) : Db × Response :=
  let workspaceId := ctx.user.workspaceId
  match validateBody createTaskSchema json with
  | .error issues => (db, .invalid issues)
  | .ok body =>
    let title := (body .title).getD ""
    let actor := (truthy ctx.user.displayName).getD (orElse ctx.user.username "system")
    if db.tasks.any fun t => t.title = title ∧ t.workspaceId = workspaceId then
      (db, .error 409 "Task with this title already exists")
    else
      let mentionResolution := ctx.mentions ((body .description).getD "")
      if mentionResolution.unresolved ≠ [] then
        (db, .unknownMentions mentionResolution.unresolved)
      else
        match createTaskTx ctx db (body .project_id) (newTask ctx body title actor) with
        | none => (db, .error 500 "Failed to create task")
        | some created =>
          let taskId := db.nextTaskId
          (created.emit (
            [.activity workspaceId "task_created" taskId actor ("Created task: " ++ title)] ++
            (if actor = "" then [] else [.subscription workspaceId taskId actor]) ++
            mentionEffects workspaceId taskId actor title mentionResolution.recipients ++
            (match truthy (body .assigned_to) with
              | some assignee => assignmentEffects workspaceId taskId assignee title
              | none => []) ++
            [.broadcast "task.created" taskId none]), .task 201 taskId)

/-- What the Nimbus integration makes a task of. -/
structure NimbusTask where
  actor : String
  title : String
  description : String
  priority : Option TaskPriority
  projectId : Option Nat
  tags : List String
  metadata : List (String × Json)

/-- `createTask` of the Nimbus integration. -/
def nimbusTask (ctx : Context) (db : Db) (params : NimbusTask) : Db × Response :=
  let row (id projectId ticketNo : Nat) : Task :=
    { id := id
      workspaceId := ctx.user.workspaceId
      title := params.title
      description := some params.description
      status := .inbox
      priority := params.priority.getD .medium
      projectId := some projectId
      projectTicketNo := some ticketNo
      assignedTo := none
      createdBy := params.actor
      createdAt := ctx.now
      updatedAt := ctx.now
      dueDate := none
      estimatedHours := none
      actualHours := none
      outcome := none
      errorMessage := none
      resolution := none
      feedbackRating := none
      feedbackNotes := none
      retryCount := 0
      completedAt := none
      tags := some params.tags
      metadata := some params.metadata
      pipelineRunId := none
      prUrl := none }
  match createTaskTx ctx db params.projectId row with
  | none => (db, .error 500 "No active project available in workspace")
  | some created =>
    (created.emit [.activity ctx.user.workspaceId "task_created" db.nextTaskId params.actor
      ("Created task: " ++ params.title)], .task 200 db.nextTaskId)

/-! ### Bulk update -/

/-- One round of the bulk update's transaction; an error rolls the whole transaction back. -/
def bulkItem (ctx : Context) (db : Db) (item : BulkItem) : Except String Db :=
  let workspaceId := ctx.user.workspaceId
  match db.task? workspaceId item.id with
  | none => .ok db
  | some oldTask =>
    if item.status = .done ∧ ¬ hasAegisApproval ctx db item.id then
      .error ("Aegis approval required for task " ++ toString item.id)
    else
      let written := db.updateTask workspaceId item.id fun t =>
        if item.status = .done then
          { t with
            status := item.status
            updatedAt := ctx.now
            completedAt := t.completedAt.or (some ctx.now) }
        else { t with status := item.status, updatedAt := ctx.now }
      .ok (if oldTask.status = item.status then written
        else written.emit [.activity workspaceId "task_updated" item.id ctx.user.username
          ("Task moved from " ++ oldTask.status.text ++ " to " ++ item.status.text)])

def bulkItems (ctx : Context) : Db → List BulkItem → Except String Db
  | db, [] => .ok db
  | db, item :: items =>
    match bulkItem ctx db item with
    | .ok db => bulkItems ctx db items
    | .error message => .error message

/-- `PUT /api/tasks`. -/
def putTasks (ctx : Context) (db : Db) (json : Json) : Db × Response :=
  match parseBulkUpdate json with
  | .error issues => (db, .invalid issues)
  | .ok items =>
    match bulkItems ctx db items with
    | .error message => (db, .error 403 message)
    | .ok db => (db.emit (items.map fun item =>
        .broadcast "task.status_changed" item.id (some item.status)), .success items.length)

/-! ### Update -/

/-- The columns that `PUT /api/tasks/[id]` is given a value for. -/
def fieldsToUpdate (body : TaskBody) (normalizedStatus : Option TaskStatus) : List TaskField :=
  TaskField.all.filter fun
    | .status => normalizedStatus.isSome
    | field => (body field).isSome

/-- `!task.completed_at`: no time, or zero. -/
def notCompleted (task : Task) : Bool := task.completedAt = none ∨ task.completedAt = some 0

/-- The row after the update: one branch for each field, and the times and number with them. -/
def updatedTask (body : TaskBody) (normalizedStatus : Option TaskStatus)
    (nextProjectTicketNo : Option Nat) (now : Nat) (task : Task) : Task :=
  { task with
    title := (body .title).getD task.title
    description := (body .description).or task.description
    status := normalizedStatus.getD task.status
    priority := (body .priority).getD task.priority
    projectId := (body .project_id).or task.projectId
    projectTicketNo := nextProjectTicketNo.or task.projectTicketNo
    assignedTo := (body .assigned_to).or task.assignedTo
    dueDate := (body .due_date).or task.dueDate
    estimatedHours := (body .estimated_hours).or task.estimatedHours
    actualHours := (body .actual_hours).or task.actualHours
    outcome := (body .outcome).or task.outcome
    errorMessage := (body .error_message).or task.errorMessage
    resolution := (body .resolution).or task.resolution
    feedbackRating := (body .feedback_rating).or task.feedbackRating
    feedbackNotes := (body .feedback_notes).or task.feedbackNotes
    retryCount := (body .retry_count).getD task.retryCount
    completedAt := (body .completed_at).or
      (if normalizedStatus = some .done ∧ notCompleted task then some now else task.completedAt)
    tags := (body .tags).or task.tags
    metadata := (body .metadata).or task.metadata
    updatedAt := now }

def textOr (fallback : String) (value : Option String) : String := (truthy value).getD fallback

def projectText : Option Nat → String
  | none => "none"
  | some id => if id = 0 then "none" else toString id

/-- The `changes` of an update, as the activity lists them. -/
def changes (body : TaskBody) (normalizedStatus : Option TaskStatus) (task : Task) : List String :=
  (match normalizedStatus with
    | some status =>
      if status = task.status then [] else ["status: " ++ task.status.text ++ " → " ++ status.text]
    | none => []) ++
  (match body .assigned_to with
    | some assignee =>
      if some assignee = task.assignedTo then []
      else ["assigned: " ++ textOr "unassigned" task.assignedTo ++ " → " ++ orElse assignee "unassigned"]
    | none => []) ++
  (match truthy (body .title) with
    | some title => if title = task.title then [] else ["title updated"]
    | none => []) ++
  (match body .priority with
    | some priority =>
      if priority = task.priority then []
      else ["priority: " ++ task.priority.text ++ " → " ++ priority.text]
    | none => []) ++
  (match body .project_id with
    | some projectId =>
      if some projectId = task.projectId then []
      else ["project: " ++ projectText task.projectId ++ " → " ++ toString projectId]
    | none => []) ++
  (match body .outcome with
    | some outcome =>
      if some outcome = task.outcome then []
      else ["outcome: " ++ (task.outcome.map TaskOutcome.text).getD "unset" ++ " → " ++ outcome.text]
    | none => [])

def updateEffects (ctx : Context) (body : TaskBody) (normalizedStatus : Option TaskStatus)
    (task : Task) : List Effect :=
  let workspaceId := ctx.user.workspaceId
  let previous := (ctx.mentions (task.description.getD "")).recipients
  let changed := changes body normalizedStatus task
  (match normalizedStatus, truthy task.assignedTo with
    | some status, some assignee =>
      if status = task.status then []
      else [.notification workspaceId assignee "status_change" "Task Status Updated"
        ("Task \"" ++ task.title ++ "\" status changed to " ++ status.text) task.id]
    | _, _ => []) ++
  (match truthy (body .assigned_to) with
    | some assignee =>
      if some assignee = task.assignedTo then []
      else assignmentEffects workspaceId task.id assignee task.title
    | none => []) ++
  (match body .description with
    | some description =>
      mentionEffects workspaceId task.id ctx.user.username (textOr task.title (body .title))
        ((ctx.mentions description).recipients.filter (· ∉ previous))
    | none => []) ++
  (if changed = [] then []
    else [.activity workspaceId "task_updated" task.id ctx.user.username
      ("Task updated: " ++ ", ".intercalate changed)]) ++
  [.broadcast "task.updated" task.id none]

/-- The move of a task to the project of the body: the state after the number is taken, and the
number, or the answer that ends the request. -/
def moveProject (ctx : Context) (db : Db) (task : Task) (projectId : Option Nat) :
    Db × Except Response (Option Nat) :=
  let workspaceId := ctx.user.workspaceId
  match projectId with
  | none => (db, .ok none)
  | some projectId =>
    if ¬ (db.project? workspaceId projectId).any (fun p => p.status = .active) then
      (db, .error (.error 400 "Project not found or archived"))
    else if task.projectId = some projectId then (db, .ok none)
    else
      match allocateTicket db workspaceId projectId with
      | (db, none) => (db, .error (.error 500 "Failed to allocate project ticket number"))
      | (db, some ticketNo) => (db, .ok (some ticketNo))

/-- `PUT /api/tasks/[id]`. -/
def putTask (ctx : Context) (db : Db) (taskId : Nat) (json : Json) : Db × Response :=
  let workspaceId := ctx.user.workspaceId
  match validateBody updateTaskSchema json with
  | .error issues => (db, .invalid issues)
  | .ok body =>
    match db.task? workspaceId taskId with
    | none => (db, .error 404 "Task not found")
    | some currentTask =>
      let normalizedStatus := normalizeTaskUpdateStatus currentTask.status (body .status)
        (body .assigned_to) (body .assigned_to).isSome
      let unresolved := (((body .description).map ctx.mentions).map
        MentionResolution.unresolved).getD []
      if unresolved ≠ [] then (db, .unknownMentions unresolved)
      else if normalizedStatus = some .done ∧ ¬ hasAegisApproval ctx db taskId then
        (db, .error 403 "Aegis approval is required to move task to done.")
      else
        match moveProject ctx db currentTask (body .project_id) with
        | (db, .error response) => (db, response)
        | (db, .ok nextProjectTicketNo) =>
          if fieldsToUpdate body normalizedStatus = [] then (db, .error 400 "No fields to update")
          else
            ((db.updateTask workspaceId taskId
              (updatedTask body normalizedStatus nextProjectTicketNo ctx.now)).emit
                (updateEffects ctx body normalizedStatus currentTask), .task 200 taskId)

/-! ### Queue -/

def claimable (workspaceId : Nat) (agent : String) (task : Task) : Bool :=
  task.workspaceId = workspaceId ∧ (task.status = .assigned ∨ task.status = .inbox) ∧
    (task.assignedTo = none ∨ task.assignedTo = some agent)

/-- The pickup loop, with the attempts that are left. -/
def pickup (ctx : Context) (agent : String) : Nat → Db → Db × Response
  | 0, db => (db, .nothing "no_tasks_available")
  | attempts + 1, db =>
    let workspaceId := ctx.user.workspaceId
    match ctx.nextTask.pick (db.tasks.filter (claimable workspaceId agent)) with
    | none => (db, .nothing "no_tasks_available")
    | some candidate =>
      if db.tasks.any fun t => t.id = candidate.id ∧ claimable workspaceId agent t then
        (db.updateTask workspaceId candidate.id fun t =>
          if claimable workspaceId agent t then
            { t with status := .in_progress, assignedTo := some agent, updatedAt := ctx.now }
          else t, .task 200 candidate.id)
      else pickup ctx agent attempts db

def isDigits (text : String) : Bool := text ≠ "" ∧ text.toList.all Char.isDigit

def digitsValue (text : String) : Nat :=
  text.toList.foldl (fun n c => 10 * n + (c.toNat - '0'.toNat)) 0

/-- `GET /api/tasks/queue`, with its two parameters and its header. -/
def pollQueue (ctx : Context) (db : Db) (agentParam agentHeader maxCapacityParam : String) :
    Db × Response :=
  let workspaceId := ctx.user.workspaceId
  let agent := orElse (trim agentParam) (trim agentHeader)
  let maxCapacityRaw := orElse maxCapacityParam "1"
  let maxCapacity := digitsValue maxCapacityRaw
  if agent = "" then
    (db, .error 400 "Missing agent. Provide ?agent=... or x-agent-name header.")
  else if ¬ isDigits maxCapacityRaw ∨ maxCapacity < 1 ∨ 20 < maxCapacity then
    (db, .error 400 "Invalid max_capacity. Expected integer 1..20.")
  else
    let current := db.tasks.filter fun t =>
      t.workspaceId = workspaceId ∧ t.assignedTo = some agent ∧ t.status = .in_progress
    if current ≠ [] then (db, .nothing "continue_current")
    else if maxCapacity ≤ current.length then (db, .nothing "at_capacity")
    else pickup ctx agent 5 db

/-! ### Quality review -/

/-- The row id that a number of a body can equal. -/
def rowId (n : Rat) : Option Nat := if n.den = 1 ∧ 0 ≤ n.num then some n.num.toNat else none

/-- `POST /api/quality-review`. -/
def postReview (ctx : Context) (db : Db) (json : Json) : Db × Response :=
  let workspaceId := ctx.user.workspaceId
  match parseReview json with
  | .error issues => (db, .invalid issues)
  | .ok review =>
    match (rowId review.taskId).bind (db.task? workspaceId) with
    | none => (db, .error 404 "Task not found")
    | some task =>
      let inserted : Db :=
        { db with
          reviews := db.reviews ++ [⟨db.nextReviewId, task.id, review.reviewer, review.status,
            review.notes, ctx.now, workspaceId⟩]
          nextReviewId := db.nextReviewId + 1 }
      let logged := inserted.emit [.activity workspaceId "quality_review" task.id review.reviewer
        ("Quality review " ++ review.status.text ++ " for task: " ++ task.title)]
      if review.status = .approved ∧ review.reviewer = "aegis" then
        ((logged.updateTask workspaceId task.id fun t =>
          { t with status := .done, updatedAt := ctx.now }).emit
            [.broadcast "task.status_changed" task.id (some .done)], .created db.nextReviewId)
      else (logged, .created db.nextReviewId)

/-! ### A small database -/

def sampleContext : Context where
  user := ⟨"operator", none, 1⟩
  now := 1000
  mentions := fun _ => ⟨[], []⟩
  latestReview := FirstBy.first sorts_newer
  nextTask := FirstBy.first sorts_queue

def sampleProject : Project := ⟨1, 1, "General", "general", none, "TASK", 1, .active⟩

def sampleTask : Task where
  id := 1
  workspaceId := 1
  title := "Write the report"
  description := none
  status := .in_progress
  priority := .high
  projectId := some 1
  projectTicketNo := some 1
  assignedTo := some "worker"
  createdBy := "operator"
  createdAt := 900
  updatedAt := 900
  dueDate := none
  estimatedHours := none
  actualHours := none
  outcome := none
  errorMessage := none
  resolution := none
  feedbackRating := none
  feedbackNotes := none
  retryCount := 0
  completedAt := none
  tags := some ["report"]
  metadata := some []
  pipelineRunId := none
  prUrl := none

def sampleDb : Db where
  tasks := [sampleTask]
  projects := [sampleProject]
  reviews := []
  nextTaskId := 2
  nextProjectId := 2
  nextReviewId := 1
  effects := []

end MissionControl.Tasks.Routes
