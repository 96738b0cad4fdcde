import MissionControl.DataRooms.Routes
import MissionControl.Events.Bus
import MissionControl.Tasks.RouteSteps

/-!
The tables behind the routes that announce what they write, the streams of `GET /api/events`,
and the helpers of the database that write an activity, a notification or the status of an agent
and announce it. The clock is that of the data rooms, in milliseconds.
-/

set_option autoImplicit false
set_option relaxedAutoImplicit false

namespace MissionControl.Events.Stores

open MissionControl.Foundations.JsText
open MissionControl.Foundations.Schema (Json)
open MissionControl.Tasks.Database (Db)
open MissionControl.Events.Bus

/-! ### Rows -/

/-- A row of `agents`; the configuration is the object that its text stands for. -/
structure Agent where
  id : Nat
  name : String
  role : String
  sessionKey : Option String
  soulContent : Option String
  status : String
  lastSeen : Option Nat
  lastActivity : Option String
  createdAt : Nat
  updatedAt : Nat
  config : List (String × Json)
  workspaceId : Nat

/-- A row of `messages`. -/
structure Message where
  id : Nat
  conversationId : String
  fromAgent : String
  toAgent : Option String
  content : String
  messageType : String
  metadata : Option Json
  readAt : Option Nat
  createdAt : Nat
  workspaceId : Nat

/-- A row of `activities`. -/
structure Activity where
  id : Nat
  type : String
  entityType : String
  entityId : Nat
  actor : String
  description : String
  data : Option Json
  workspaceId : Nat
  createdAt : Nat

/-- A row of `notifications`. -/
structure Notification where
  id : Nat
  recipient : String
  type : String
  title : String
  message : String
  sourceType : Option String
  sourceId : Option Nat
  readAt : Option Nat
  deliveredAt : Option Nat
  createdAt : Nat
  workspaceId : Nat

/-- A chat message whose forwarding to the gateway is still awaited. -/
structure Forwarding where
  message : Message
  sender : String

/-- A stream of `GET /api/events`: who reads it, and what it was sent after `connected`. -/
structure Client where
  id : Nat
  workspaceId : Nat
  received : List Broadcast

structure World where
  tasks : Db
  rooms : DataRooms.Routes.World
  agents : List Agent
  messages : List Message
  activities : List Activity
  notifications : List Notification
  forwarding : List Forwarding
  nextAgentId : Nat
  nextMessageId : Nat
  nextActivityId : Nat
  nextNotificationId : Nat
  clients : List Client

/-- `Math.floor(Date.now() / 1000)`. -/
def World.now (w : World) : Nat := seconds w.rooms.tables.now

/-! ### Payloads -/

def nullable {α : Type} (value : α → Json) : Option α → Json
  | none => .null
  | some a => value a

def text : Option String → Json := nullable .string

def natural (n : Nat) : Json := .number n

def Activity.payload (activity : Activity) : Json := .object
  [("id", natural activity.id), ("type", .string activity.type),
    ("entity_type", .string activity.entityType), ("entity_id", natural activity.entityId),
    ("actor", .string activity.actor), ("description", .string activity.description),
    ("data", activity.data.getD .null), ("created_at", natural activity.createdAt),
    ("workspace_id", natural activity.workspaceId)]

/-- `source_type || null` and `source_id || null`. -/
def Notification.payload (notification : Notification) : Json := .object
  [("id", natural notification.id), ("recipient", .string notification.recipient),
    ("type", .string notification.type), ("title", .string notification.title),
    ("message", .string notification.message),
    ("source_type", text (truthy notification.sourceType)),
    ("source_id", nullable natural (notification.sourceId.filter (· ≠ 0))),
    ("created_at", natural notification.createdAt),
    ("workspace_id", natural notification.workspaceId)]

def Agent.columns (agent : Agent) : List (String × Json) :=
  [("id", natural agent.id), ("name", .string agent.name), ("role", .string agent.role),
    ("session_key", text agent.sessionKey), ("soul_content", text agent.soulContent),
    ("status", .string agent.status), ("last_seen", nullable natural agent.lastSeen),
    ("last_activity", text agent.lastActivity), ("created_at", natural agent.createdAt),
    ("updated_at", natural agent.updatedAt), ("config", .object agent.config),
    ("workspace_id", natural agent.workspaceId)]

def Message.payload (message : Message) : Json := .object
  [("id", natural message.id), ("conversation_id", .string message.conversationId),
    ("from_agent", .string message.fromAgent), ("to_agent", text message.toAgent),
    ("content", .string message.content), ("message_type", .string message.messageType),
    ("metadata", message.metadata.getD .null), ("read_at", nullable natural message.readAt),
    ("created_at", natural message.createdAt), ("workspace_id", natural message.workspaceId)]

/-! ### The bus and the helpers -/

namespace World

variable (w : World)

/-- `eventBus.broadcast`. The handler of every stream forwards the event to its client. -/
def broadcast (type : EventType) (data : Json) : World :=
  { w with clients := w.clients.map fun client =>
      { client with received := client.received ++ [⟨type, data⟩] } }

def logActivity (type entityType : String) (entityId : Nat) (actor description : String)
    (data : Option Json) (workspaceId : Nat) : World :=
  let activity : Activity :=
    { id := w.nextActivityId
      type := type
      entityType := entityType
      entityId := entityId
      actor := actor
      description := description
      data := data
      workspaceId := workspaceId
      createdAt := w.now }
  { w with
    activities := w.activities ++ [activity]
    nextActivityId := w.nextActivityId + 1 }.broadcast .activityCreated activity.payload

/-- The row that `createNotification` inserts. -/
def newNotification (recipient type title message : String) (sourceType : Option String)
    (sourceId : Option Nat) (workspaceId : Nat) : Notification :=
  { id := w.nextNotificationId
    recipient := recipient
    type := type
    title := title
    message := message
    sourceType := sourceType
    sourceId := sourceId
    readAt := none
    deliveredAt := none
    createdAt := w.now
    workspaceId := workspaceId }

def insertNotification (notification : Notification) : World :=
  { w with
    notifications := w.notifications ++ [notification]
    nextNotificationId := w.nextNotificationId + 1 }

def createNotification (recipient type title message : String) (sourceType : Option String)
    (sourceId : Option Nat) (workspaceId : Nat) : World :=
  let notification :=
    w.newNotification recipient type title message sourceType sourceId workspaceId
  (w.insertNotification notification).broadcast .notificationCreated notification.payload

/-- `SELECT … FROM agents WHERE name = ? AND workspace_id = ?`. -/
def agentNamed (workspaceId : Nat) (name : String) : Option Agent :=
  w.agents.find? fun agent => agent.name = name ∧ agent.workspaceId = workspaceId

/-- `UPDATE agents SET … WHERE name = ? AND workspace_id = ?`. -/
def updateAgents (workspaceId : Nat) (name : String) (f : Agent → Agent) : World :=
  { w with agents := w.agents.map fun agent =>
      if agent.name = name ∧ agent.workspaceId = workspaceId then f agent else agent }

def updateAgentStatus (agentName status activity : String) (workspaceId : Nat) : World :=
  let agent := w.agentNamed workspaceId agentName
  let updated := w.updateAgents workspaceId agentName fun agent =>
    { agent with
      status := status
      lastSeen := some w.now
      lastActivity := some activity
      updatedAt := w.now }
  let announced := match agent with
    | some agent => updated.broadcast .agentStatusChanged (.object
        [("id", natural agent.id), ("name", .string agentName), ("status", .string status),
          ("last_seen", natural w.now), ("last_activity", text (truthy activity))])
    | none => updated
  announced.logActivity "agent_status_change" "agent" ((agent.map Agent.id).getD 0) agentName
    ("Agent status changed to " ++ status)
    (some (.object [("status", .string status), ("activity", .string activity)])) workspaceId

end World

end MissionControl.Events.Stores
