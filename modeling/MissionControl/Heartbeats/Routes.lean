import MissionControl.Comments.Routes
import MissionControl.Foundations.Numbers

/-!
The heartbeat of an agent: what it is asked to look at, which is what mentions it, what it is
assigned, its notifications and recent activities.
-/

set_option autoImplicit false
set_option relaxedAutoImplicit false

namespace MissionControl.Heartbeats.Routes

open MissionControl.Comments.Routes (Board Comment contentStart)
open MissionControl.Events.Stores
open MissionControl.Foundations.JsText
open MissionControl.Foundations.Numbers (Number)
open MissionControl.Foundations.Query
open MissionControl.Foundations.Schema (Json)
open MissionControl.Tasks.Database (Task)
open MissionControl.Tasks.Routes (rowId)

/-! ### Texts -/

/-- What `JSON.stringify` writes for a character of a text. -/
def escapeChar (c : Char) : List Char :=
  if c = '"' then ['\\', '"']
  else if c = '\\' then ['\\', '\\']
  else if c = '\n' then ['\\', 'n']
  else if c = '\r' then ['\\', 'r']
  else if c = '\t' then ['\\', 't']
  else if c.toNat = 8 then ['\\', 'b']
  else if c.toNat = 12 then ['\\', 'f']
  else if c.toNat < 32 then
    ['\\', 'u', '0', '0', Nat.digitChar (c.toNat / 16), Nat.digitChar (c.toNat % 16)]
  else [c]

def quoted (text : String) : List Char := '"' :: (text.toList.flatMap escapeChar ++ ['"'])

/-- `JSON.stringify` of a list of texts. -/
def stringify (texts : List String) : List Char :=
  '[' :: ([','].intercalate (texts.map quoted) ++ [']'])

example : stringify ["Ada", "bob"] = "[\"Ada\",\"bob\"]".toList := by decide

/-! ### The queries -/

/-- `%"name"%`. -/
def mentionPattern (agentName : String) : List Char := '%' :: '"' :: (agentName.toList ++ ['"', '%'])

/-- `c.mentions LIKE ?`, which no comment without mentions is. -/
def mentionsLike (agentName : String) (comment : Comment) : Bool :=
  comment.mentions.any fun tokens => like (mentionPattern agentName) (stringify tokens)

/-- The comments with their tasks, before they are ordered and limited. -/
def mentionRows (b : Board) (agentName : String) (workspaceId : Nat) (fourHoursAgo : Int) :
    List (Comment × Task) :=
  (b.comments.flatMap fun comment =>
    (b.world.tasks.tasks.filter fun task => comment.taskId = task.id).map fun task =>
      (comment, task)).filter fun row =>
    mentionsLike agentName row.1 && decide (row.1.workspaceId = workspaceId) &&
      decide (row.2.workspaceId = workspaceId) && decide (fourHoursAgo < (row.1.createdAt : Int))

def assignedRows (b : Board) (agentName : String) (workspaceId : Nat) : List Task :=
  b.world.tasks.tasks.filter fun task =>
    task.assignedTo = some agentName ∧ task.workspaceId = workspaceId ∧
      (task.status = .assigned ∨ task.status = .in_progress)

/-- `db_helpers.getUnreadNotifications`, unordered. -/
def unreadRows (b : Board) (recipient : String) (workspaceId : Nat) : List Notification :=
  b.world.notifications.filter fun notification =>
    notification.recipient = recipient ∧ notification.readAt = none ∧
      notification.workspaceId = workspaceId

def urgentRows (b : Board) (agentName : String) (workspaceId : Nat) (fourHoursAgo : Int) :
    List Activity :=
  b.world.activities.filter fun activity =>
    activity.type ∈ ["task_created", "task_assigned", "high_priority_alert"] ∧
      activity.workspaceId = workspaceId ∧ fourHoursAgo < activity.createdAt ∧
      like ('%' :: (agentName.toList ++ ['%'])) activity.description.toList

/-- `ORDER BY priority DESC, created_at ASC`, where the column is a text. -/
abbrev TextOrder : Task → Task → Prop :=
  ThenBy (fun a b => b.priority.text ≤ a.priority.text) fun a b => a.createdAt ≤ b.createdAt

/-- How the database answers the queries. -/
structure Queries where
  mentions : OrderBy fun a b : Comment × Task => b.1.createdAt ≤ a.1.createdAt
  assignedTasks : OrderBy TextOrder
  notifications : OrderBy fun a b : Notification => b.createdAt ≤ a.createdAt
  urgentActivities : OrderBy fun a b : Activity => b.createdAt ≤ a.createdAt

/-! ### The route -/

structure MentionItem where
  id : Nat
  taskTitle : String
  author : String
  content : String
  createdAt : Nat
  deriving DecidableEq

inductive WorkItem where
  | mentions (items : List MentionItem)
  | assignedTasks (items : List Task)
  | notifications (count : Nat) (items : List Notification)
  | urgentActivities (items : List Activity)

def WorkItem.type : WorkItem → String
  | .mentions _ => "mentions"
  | .assignedTasks _ => "assigned_tasks"
  | .notifications _ _ => "notifications"
  | .urgentActivities _ => "urgent_activities"

def WorkItem.count : WorkItem → Nat
  | .mentions items => items.length
  | .assignedTasks items => items.length
  | .notifications count _ => count
  | .urgentActivities items => items.length

inductive Response where
  | notFound
  /-- `HEARTBEAT_OK`. -/
  | nothing (agentName : String) (checkedAt : Nat)
  /-- `WORK_ITEMS_FOUND`. -/
  | found (agentName : String) (checkedAt : Nat) (workItems : List WorkItem) (totalItems : Nat)

/-- The agent by its name, if the parameter is no number, or by its id; `number` is `Number`. -/
def findAgent (number : String → Number) (w : World) (workspaceId : Nat) (agentId : String) :
    Option Agent :=
  match number agentId with
  | .nan => w.agentNamed workspaceId agentId
  | .finite x => (rowId x).bind fun id =>
      w.agents.find? fun agent => agent.id = id ∧ agent.workspaceId = workspaceId
  | .infinite _ => none

/-- `now - 4 * 60 * 60`. -/
def fourHoursBefore (now : Nat) : Int := now - 4 * 60 * 60

/-- The tasks that the heartbeat returns. -/
def assignedTasks (queries : Queries) (b : Board) (agentName : String) (workspaceId : Nat) :
    List Task :=
  (queries.assignedTasks.arrange (assignedRows b agentName workspaceId)).take 10

def mentionItem (row : Comment × Task) : MentionItem :=
  ⟨row.1.id, row.2.title, row.1.author, contentStart row.1.content ++ "...", row.1.createdAt⟩

/-- The lists that are not empty. -/
def workItems (queries : Queries) (b : Board) (agentName : String) (workspaceId : Nat) :
    List WorkItem :=
  let fourHoursAgo := fourHoursBefore b.world.now
  let mentions :=
    (queries.mentions.arrange (mentionRows b agentName workspaceId fourHoursAgo)).take 10
  let tasks := assignedTasks queries b agentName workspaceId
  let notifications := queries.notifications.arrange (unreadRows b agentName workspaceId)
  let activities := (queries.urgentActivities.arrange
    (urgentRows b agentName workspaceId fourHoursAgo)).take 5
  (if mentions = [] then [] else [.mentions (mentions.map mentionItem)]) ++
    (if tasks = [] then [] else [.assignedTasks tasks]) ++
    (if notifications = [] then []
      else [.notifications notifications.length (notifications.take 5)]) ++
    (if activities = [] then [] else [.urgentActivities activities])

/-- `GET /api/agents/[id]/heartbeat`. -/
def get (number : String → Number) (queries : Queries) (b : Board) (workspaceId : Nat)
    (agentId : String) : Board × Response :=
  match findAgent number b.world workspaceId agentId with
  | none => (b, .notFound)
  | some agent =>
    let items := workItems queries b agent.name workspaceId
    let found := if items = [] then "no work items" else toString items.length ++ " work items found"
    let w := (b.world.updateAgentStatus agent.name "idle" "Heartbeat check" workspaceId).logActivity
      "agent_heartbeat" "agent" agent.id agent.name ("Heartbeat check completed - " ++ found)
      (some (.object [("workItemsCount", natural items.length),
        ("workItemTypes", .array (items.map fun item => .string item.type))])) workspaceId
    ({ b with world := w },
      if items = [] then .nothing agent.name b.world.now
      else .found agent.name b.world.now items 
        (items.foldl (fun sum item => sum + item.count) 0))

end MissionControl.Heartbeats.Routes
