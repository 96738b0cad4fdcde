import MissionControl.Events.Stores
import MissionControl.Foundations.Transition
import MissionControl.Gateway.AgentSave

/-!
The routes that write tasks, agents, chat messages, notifications and data rooms, with what they
announce on the bus, and the route that streams it. Each is given a request that the
authentication and the rate limits have let through. A route that awaits the gateway is one step,
at the moment the gateway has answered; only a chat message that is forwarded is announced in
several steps.
-/

set_option autoImplicit false
set_option relaxedAutoImplicit false

namespace MissionControl.Events.Producers

open MissionControl.Foundations.JsText
open MissionControl.Foundations.JsonValues (spread)
open MissionControl.Foundations.Query
open MissionControl.Foundations.Schema (Json)
open MissionControl.Foundations.Transition (Machine)
open MissionControl.Tasks.Validation
open MissionControl.Tasks.Database
open MissionControl.Tasks.Routes (bulkItem changes normalizeTaskCreateStatus
  normalizeTaskUpdateStatus textOr)
open MissionControl.Tasks.RouteSteps (Request serve)
open MissionControl.Gateway.AgentSave (Target)
open MissionControl.Events.Bus
open MissionControl.Events.Stores

/-- The authenticated user of a request. -/
structure Caller where
  username : String
  displayName : Option String
  deriving DecidableEq

inductive Answer where
  | done
  | error (status : Nat) (message : String)
  | task (response : Response)
  | room (reply : DataRooms.Routes.Reply)
  deriving DecidableEq

/-! ### Tasks -/

/-- How the database answers the queries that do not name a single row, and whom texts mention. -/
structure TaskQueries where
  mentions : String → MentionResolution
  latestReview : FirstBy Newer
  nextTask : FirstBy QueueOrder

def TaskQueries.context (queries : TaskQueries) (w : World) (workspaceId : Nat) (caller : Caller) :
    Context :=
  { user := ⟨caller.username, caller.displayName, workspaceId⟩
    now := w.now
    mentions := queries.mentions
    latestReview := queries.latestReview
    nextTask := queries.nextTask }

/-- A property that is left out when it is undefined. -/
def defined {α : Type} (key : String) (value : α → Json) (field : Option α) :
    List (String × Json) :=
  field.toList.map fun a => (key, value a)

/-- The columns of a task, with the two that hold JSON parsed. -/
def taskColumns (task : Task) : List (String × Json) :=
  [("id", natural task.id), ("title", .string task.title),
    ("description", text task.description), ("status", .string task.status.text),
    ("priority", .string task.priority.text), ("assigned_to", text task.assignedTo),
    ("created_by", .string task.createdBy), ("created_at", natural task.createdAt),
    ("updated_at", natural task.updatedAt), ("due_date", nullable .number task.dueDate),
    ("estimated_hours", nullable .number task.estimatedHours),
    ("actual_hours", nullable .number task.actualHours),
    ("tags", .array ((task.tags.getD []).map .string)),
    ("metadata", .object (task.metadata.getD [])),
    ("workspace_id", natural task.workspaceId),
    ("project_id", nullable natural task.projectId),
    ("project_ticket_no", nullable natural task.projectTicketNo),
    ("outcome", nullable (fun outcome => .string outcome.text) task.outcome),
    ("error_message", text task.errorMessage), ("resolution", text task.resolution),
    ("feedback_rating", nullable natural task.feedbackRating),
    ("feedback_notes", text task.feedbackNotes), ("retry_count", natural task.retryCount),
    ("completed_at", nullable .number task.completedAt),
    ("pipeline_run_id", nullable natural task.pipelineRunId), ("pr_url", text task.prUrl)]

/-- The row of a task with its project, as `mapTaskRow` returns it. -/
def taskPayload (db : Db) (task : Task) : Json :=
  let project := task.projectId.bind (db.project? task.workspaceId)
  .object <| taskColumns task ++
    [("project_name", text (project.map Project.name)),
      ("project_prefix", text (project.map Project.ticketPrefix))] ++
    defined "ticket_ref" .string (ticketRef db task)

/-- One write of a task route on the world: `data` is what the activity of the route records. -/
def announceEffect (data : Json) (workspaceId : Nat) (w : World) : Effect → World
  | .activity workspaceId type taskId actor description =>
    w.logActivity type "task" taskId actor description (some data) workspaceId
  | .subscription _ _ _ => w
  | .notification workspaceId recipient type title message taskId =>
    w.createNotification recipient type title message (some "task") (some taskId) workspaceId
  | .broadcast event taskId status =>
    match status with
    | some status => w.broadcast .taskStatusChanged (.object
        [("id", natural taskId), ("status", .string status.text), ("updated_at", natural w.now)])
    | none =>
      match w.tasks.task? workspaceId taskId with
      | some task => w.broadcast (if event = "task.created" then .taskCreated else .taskUpdated)
          (taskPayload w.tasks task)
      | none => w

/-- The effects that a route leaves in the task tables, carried out. -/
def settle (data : Json) (workspaceId : Nat) (w : World) (db : Db) : World :=
  db.effects.foldl (announceEffect data workspaceId) { w with tasks := { db with effects := [] } }

def createdData (body : TaskBody) : Json :=
  .object <|
    defined "title" .string (body .title) ++
    [("status", .string (normalizeTaskCreateStatus (body .status) (body .assigned_to)).text),
      ("priority", .string ((body .priority).getD .medium).text)] ++
    defined "assigned_to" .string (body .assigned_to) ++
    defined "outcome" (fun outcome => .string outcome.text) (body .outcome)

def updatedData (body : TaskBody) (task : Task) : Json :=
  let normalizedStatus := normalizeTaskUpdateStatus task.status (body .status)
    (body .assigned_to) (body .assigned_to).isSome
  .object
    [("changes", .array ((changes body normalizedStatus task).map .string)),
      ("oldValues", .object
        [("title", .string task.title), ("status", .string task.status.text),
          ("priority", .string task.priority.text), ("assigned_to", text task.assignedTo)]),
      ("newValues", .object <|
        defined "title" .string (body .title) ++
        [("status", .string (normalizedStatus.getD task.status).text)] ++
        defined "priority" (fun priority => .string priority.text) (body .priority) ++
        defined "assigned_to" .string (body .assigned_to))]

/-- What the activity of a request records. -/
def activityData (db : Db) (workspaceId : Nat) : Request → Json
  | .postTask json =>
    match validateBody createTaskSchema json with
    | .ok body => createdData body
    | .error _ => .null
  | .putTask taskId json =>
    match validateBody updateTaskSchema json, db.task? workspaceId taskId with
    | .ok body, some task => updatedData body task
    | _, _ => .null
  | .postReview json =>
    match parseReview json with
    | .ok review =>
      .object [("status", .string review.status.text), ("notes", .string review.notes)]
    | .error _ => .null
  | .nimbusTask params =>
    .object [("source", .string "nimbus-integration"), ("metadata", .object params.metadata)]
  | .putTasks _ => .null
  | .pollQueue _ _ _ => .null

/-- The transaction of the bulk update: each item announces its activity at once, also where a
later item makes the transaction fail. -/
def bulkTransaction (ctx : Context) : World → List BulkItem → World
  | w, [] => w
  | w, item :: items =>
    match bulkItem ctx w.tasks item with
    | .error _ => w
    | .ok db =>
      let data := match w.tasks.task? ctx.user.workspaceId item.id with
        | some old => .object
            [("oldStatus", .string old.status.text), ("newStatus", .string item.status.text)]
        | none => .null
      bulkTransaction ctx (settle data ctx.user.workspaceId w db) items

/-- `PUT /api/tasks`. A transaction that fails leaves the tables as they were, but what it has
announced has been sent. -/
def putTasks (ctx : Context) (w : World) (json : Json) : World × Answer :=
  let response := (Tasks.Routes.putTasks ctx w.tasks json).2
  match parseBulkUpdate json with
  | .error _ => (w, .task response)
  | .ok items =>
    let attempted := bulkTransaction ctx w items
    match response with
    | .success _ =>
      (items.foldl (fun w item => announceEffect .null ctx.user.workspaceId w
        (.broadcast "task.status_changed" item.id (some item.status))) attempted, .task response)
    | _ => ({ w with clients := attempted.clients }, .task response)

def serveTask (queries : TaskQueries) (w : World) (workspaceId : Nat) (caller : Caller)
    (request : Request) : World × Answer :=
  let ctx := queries.context w workspaceId caller
  match request with
  | .putTasks json => putTasks ctx w json
  | request =>
    let (db, response) := serve ctx w.tasks request
    (settle (activityData w.tasks workspaceId request) workspaceId w db, .task response)

/-- `DELETE /api/tasks/[id]`. The reviews of the task go with it. -/
def deleteTask (w : World) (workspaceId : Nat) (caller : Caller) (taskId : Nat) : World × Answer :=
  match w.tasks.task? workspaceId taskId with
  | none => (w, .error 404 "Task not found")
  | some task =>
    let tasks : Db :=
      { w.tasks with
        tasks := w.tasks.tasks.filter fun t => ¬ (t.id = taskId ∧ t.workspaceId = workspaceId)
        reviews := w.tasks.reviews.filter fun r => r.taskId ≠ taskId }
    let logged := { w with tasks := tasks }.logActivity "task_deleted" "task" taskId
      caller.username ("Deleted task: " ++ task.title)
      (some (.object [("title", .string task.title), ("status", .string task.status.text),
        ("assigned_to", text task.assignedTo)])) workspaceId
    (logged.broadcast .taskDeleted
      (.object [("id", natural taskId), ("title", .string task.title)]), .done)

/-! ### Agents -/

/-- What `POST /api/agents` works with: the body after its schema, and the role and the
configuration that its template, where there is one of that name, makes of it. -/
structure NewAgent where
  name : String
  role : Option String
  sessionKey : Option String
  soulContent : Option String
  status : String
  config : List (String × Json)
  template : Option String
  built : Option (String × List (String × Json))
  gatewayConfig : Option (List (String × Json))

def NewAgent.finalRole (body : NewAgent) : Option String :=
  (truthy body.role).or
    (match truthy body.template with
      | some _ => truthy (body.built.map Prod.fst)
      | none => none)

def NewAgent.finalConfig (body : NewAgent) : List (String × Json) :=
  match truthy body.template with
  | some _ =>
    match body.built with
    | some (_, builtConfig) => spread builtConfig body.config
    | none => body.config
  | none =>
    match body.gatewayConfig with
    | some gatewayConfig => spread body.config gatewayConfig
    | none => body.config

/-- Whether `name TEXT NOT NULL UNIQUE` and `session_key TEXT UNIQUE` allow a row beside the
others. -/
def admits (agents : List Agent) (name : String) (sessionKey : Option String) : Bool :=
  agents.all fun agent =>
    agent.name ≠ name ∧ (sessionKey = none ∨ agent.sessionKey ≠ sessionKey)

/-- `POST /api/agents`; `failure` is the message of a provisioning that fails. -/
def postAgent (w : World) (workspaceId : Nat) (caller : Caller) (body : NewAgent)
    (failure : Option String) : World × Answer :=
  match truthy (some body.name), body.finalRole with
  | some name, some finalRole =>
    if (w.agentNamed workspaceId name).isSome then (w, .error 409 "Agent name already exists")
    else if failure.isSome then
      (w, .error 502 (textOr "Failed to provision OpenClaw agent workspace" failure))
    else if admits w.agents name body.sessionKey = false then
      (w, .error 500 "Failed to create agent")
    else
      let agent : Agent :=
        { id := w.nextAgentId
          name := name
          role := finalRole
          sessionKey := body.sessionKey
          soulContent := body.soulContent
          status := body.status
          lastSeen := none
          lastActivity := none
          createdAt := w.now
          updatedAt := w.now
          config := body.finalConfig
          workspaceId := workspaceId }
      let template := truthy body.template
      let inserted :=
        { w with agents := w.agents ++ [agent], nextAgentId := w.nextAgentId + 1 }
      let logged := inserted.logActivity "agent_created" "agent" agent.id caller.username
        ("Created agent: " ++ name ++ " (" ++ finalRole ++ ")" ++
          (match template with
            | some template => " from template: " ++ template
            | none => ""))
        (some (.object ([("name", Json.string name), ("role", Json.string finalRole),
          ("status", Json.string body.status)] ++
          defined "session_key" .string body.sessionKey ++ [("template", text template)])))
        workspaceId
      (logged.broadcast .agentCreated (.object <| agent.columns ++
        [("taskStats", .object [("total", natural 0), ("assigned", natural 0),
          ("in_progress", natural 0), ("completed", natural 0)])]), .done)
  | _, _ => (w, .error 400 "Name and role are required")

/-- The fields of `PUT /api/agents`; `none` is a field that is undefined. -/
structure AgentUpdates where
  status : Option String
  lastActivity : Option (Option String)
  config : Option (List (String × Json))
  sessionKey : Option (Option String)
  soulContent : Option (Option String)
  role : Option String

def AgentUpdates.isEmpty (updates : AgentUpdates) : Bool :=
  updates.status.isNone ∧ updates.lastActivity.isNone ∧ updates.config.isNone ∧
    updates.sessionKey.isNone ∧ updates.soulContent.isNone ∧ updates.role.isNone

def AgentUpdates.apply (updates : AgentUpdates) (now : Nat) (agent : Agent) : Agent :=
  { agent with
    status := updates.status.getD agent.status
    lastSeen := if updates.status.isSome then some now else agent.lastSeen
    lastActivity := updates.lastActivity.getD agent.lastActivity
    config := updates.config.getD agent.config
    sessionKey := updates.sessionKey.getD agent.sessionKey
    soulContent := updates.soulContent.getD agent.soulContent
    role := updates.role.getD agent.role
    updatedAt := now }

/-- `PUT /api/agents`. -/
def putAgents (w : World) (workspaceId : Nat) (name : String) (updates : AgentUpdates) :
    World × Answer :=
  if name = "" then (w, .error 400 "Agent name is required")
  else
    match w.agentNamed workspaceId name with
    | none => (w, .error 404 "Agent not found")
    | some agent =>
      if updates.isEmpty then (w, .error 400 "No fields to update")
      else if w.agents.any fun other => other.id ≠ agent.id ∧
          (updates.sessionKey.getD none).isSome ∧ updates.sessionKey = some other.sessionKey then
        (w, .error 500 "Failed to update agent")
      else
        let updated := w.updateAgents workspaceId name (updates.apply w.now)
        let logged := match updates.status with
          | some status =>
            if status = agent.status then updated
            else updated.logActivity "agent_status_change" "agent" agent.id name
              ("Agent status changed from " ++ agent.status ++ " to " ++ status)
              (some (.object ([("oldStatus", Json.string agent.status),
                ("newStatus", Json.string status)] ++
                defined "last_activity" text updates.lastActivity))) workspaceId
          | none => updated
        (logged.broadcast .agentUpdated (.object <|
          [("id", natural agent.id), ("name", .string name)] ++
          defined "status" .string updates.status ++
          defined "last_activity" text updates.lastActivity ++
          defined "role" .string updates.role ++ [("updated_at", natural w.now)]), .done)

def isAt (target : Target) (agent : Agent) : Bool :=
  match target with
  | .named name => agent.name = name
  | .numbered id => agent.id = id

def agentAt (w : World) (workspaceId : Nat) (target : Target) : Option Agent :=
  w.agents.find? fun agent => isAt target agent ∧ agent.workspaceId = workspaceId

/-- The body of `PUT /api/agents/[id]`; a role can be null, which the column does not take. -/
structure AgentSave where
  role : Option (Option String)
  gatewayConfig : Option (List (String × Json))
  writeToGateway : Option Bool

def AgentSave.shouldWrite (body : AgentSave) : Bool :=
  body.gatewayConfig.isSome ∧ body.writeToGateway.getD true

/-- `PUT /api/agents/[id]`; `failure` is the message of a write to the gateway that fails. -/
def putAgent (w : World) (workspaceId : Nat) (caller : Caller) (target : Target) (body : AgentSave)
    (failure : Option String) : World × Answer :=
  match agentAt w workspaceId target with
  | none => (w, .error 404 "Agent not found")
  | some agent =>
    let newConfig := match body.gatewayConfig with
      | some gatewayConfig => spread agent.config gatewayConfig
      | none => agent.config
    let names := (body.gatewayConfig.getD []).map fun field => Json.string field.1
    if body.shouldWrite ∧ failure.isSome then
      (w, .error 502 ("Save failed: unable to update gateway config: " ++ failure.getD ""))
    else if body.role = some none then
      (w, .error 500 "Save failed: NOT NULL constraint failed: agents.role")
    else
      let updated :=
        { w with agents := w.agents.map fun other : Agent =>
            if other.id = agent.id ∧ other.workspaceId = workspaceId then
              { other with
                role := (body.role.getD none).getD other.role
                config := if body.gatewayConfig.isSome then newConfig else other.config
                updatedAt := w.now }
            else other }
      let logged := updated.logActivity "agent_config_updated" "agent" agent.id caller.username
        ("Config updated for agent " ++ agent.name ++
          (if body.shouldWrite then " (+ gateway)" else ""))
        (some (.object [("fields", .array names), ("write_to_gateway", .bool body.shouldWrite)]))
        workspaceId
      (logged.broadcast .agentUpdated (.object [("id", natural agent.id),
        ("name", .string agent.name), ("config", .object newConfig),
        ("updated_at", natural w.now)]), .done)

/-- `DELETE /api/agents/[id]`. -/
def deleteAgent (w : World) (workspaceId : Nat) (caller : Caller) (target : Target) :
    World × Answer :=
  match agentAt w workspaceId target with
  | none => (w, .error 404 "Agent not found")
  | some agent =>
    let removed :=
      { w with agents := w.agents.filter fun other =>
          ¬ (other.id = agent.id ∧ other.workspaceId = workspaceId) }
    let logged := removed.logActivity "agent_deleted" "agent" agent.id caller.username
      ("Deleted agent: " ++ agent.name)
      (some (.object [("name", .string agent.name), ("role", .string agent.role)])) workspaceId
    (logged.broadcast .agentDeleted (.object [("id", natural agent.id),
      ("name", .string agent.name)]), .done)

/-- `POST /api/agents/[id]/wake`; `failure` is what the gateway says against the message. -/
def wakeAgent (w : World) (workspaceId : Nat) (target : Target) (failure : Option String) :
    World × Answer :=
  match agentAt w workspaceId target with
  | none => (w, .error 404 "Agent not found")
  | some agent =>
    match truthy agent.sessionKey with
    | none => (w, .error 400 "Agent has no session key configured")
    | some _ =>
      if failure.isSome then (w, .error 500 (textOr "Failed to wake agent" failure))
      else (w.updateAgentStatus agent.name "idle" "Manual wake" workspaceId, .done)

end MissionControl.Events.Producers
