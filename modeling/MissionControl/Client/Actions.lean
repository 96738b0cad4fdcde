import MissionControl.Foundations.JsonValues

/-!
The store of the page: tasks, agents, notifications and chat messages, and what an event from the
server does with them.
-/

set_option autoImplicit false
set_option relaxedAutoImplicit false

namespace MissionControl.Client.Actions

open MissionControl.Foundations.JsonValues
open MissionControl.Foundations.Schema (Json lookup)

/-- A task, an agent, a notification or a message; an object without an id has none. -/
structure Entry where
  id : Option Int
  fields : List (String × Json)
  deriving DecidableEq

/-- `{ ...entry, ...updates }`, with updates that leave the id as it is. -/
def Entry.update (entry : Entry) (updates : List (String × Json)) : Entry :=
  { entry with fields := spread entry.fields updates }

structure Conversation where
  id : Json
  lastMessage : Option Entry
  updatedAt : Option Json
  unreadCount : Nat
  deriving DecidableEq

structure Store where
  tasks : List Entry
  selectedTask : Option Entry
  agents : List Entry
  selectedAgent : Option Entry
  notifications : List Entry
  unreadNotificationCount : Int
  chatMessages : List Entry
  conversations : List Conversation
  deriving DecidableEq

def Store.empty : Store := ⟨[], none, [], none, [], 0, [], []⟩

/-- The entries with an id, after an update. -/
def updateEntries (id : Int) (updates : List (String × Json)) (entries : List Entry) : List Entry :=
  entries.map fun entry => if entry.id = some id then entry.update updates else entry

def deleteEntries (id : Int) (entries : List Entry) : List Entry :=
  entries.filter fun entry => entry.id ≠ some id

/-- `messages.slice(-500)`. -/
def lastMessages (messages : List Entry) : List Entry := messages.drop (messages.length - 500)

namespace Store

variable (s : Store)

/-! ### Tasks -/

def setTasks (tasks : List Entry) : Store := { s with tasks := tasks }

def addTask (task : Entry) : Store := { s with tasks := task :: s.tasks }

def updateTask (taskId : Int) (updates : List (String × Json)) : Store :=
  { s with
    tasks := updateEntries taskId updates s.tasks
    selectedTask := s.selectedTask.map fun task =>
      if task.id = some taskId then task.update updates else task }

def deleteTask (taskId : Int) : Store :=
  { s with
    tasks := deleteEntries taskId s.tasks
    selectedTask := s.selectedTask.filter fun task => task.id ≠ some taskId }

/-! ### Agents -/

def setAgents (agents : List Entry) : Store := { s with agents := agents }

def addAgent (agent : Entry) : Store := { s with agents := agent :: s.agents }

def updateAgent (agentId : Int) (updates : List (String × Json)) : Store :=
  { s with
    agents := updateEntries agentId updates s.agents
    selectedAgent := s.selectedAgent.map fun agent =>
      if agent.id = some agentId then agent.update updates else agent }

/-! ### Notifications -/

def isRead (notification : Entry) : Bool := (lookup notification.fields "read_at").any truthy

def setNotifications (notifications : List Entry) : Store :=
  { s with
    notifications := notifications
    unreadNotificationCount := (notifications.filter fun n => !isRead n).length }

def addNotification (notification : Entry) : Store :=
  { s with
    notifications := notification :: s.notifications
    unreadNotificationCount := s.unreadNotificationCount + 1 }

/-- The reading of the clock, in seconds, is the time at which they are read. -/
def markNotificationRead (now : Nat) (notificationId : Int) : Store :=
  { s with
    notifications := updateEntries notificationId [("read_at", .number now)] s.notifications
    unreadNotificationCount := max 0 (s.unreadNotificationCount - 1) }

def markAllNotificationsRead (now : Nat) : Store :=
  { s with
    notifications := s.notifications.map fun notification =>
      if isRead notification then notification
      else notification.update [("read_at", .number now)]
    unreadNotificationCount := 0 }

/-! ### Chat -/

def setChatMessages (messages : List Entry) : Store :=
  { s with chatMessages := lastMessages messages }

/-- A message with the id of one that is there is left out, but only if the id is positive. -/
def addChatMessage (message : Entry) : Store :=
  if message.id.any (0 < ·) ∧ ∃ m ∈ s.chatMessages, m.id = message.id then s
  else
    { s with
      chatMessages := lastMessages (s.chatMessages ++ [message])
      conversations := s.conversations.map fun conversation =>
        if some conversation.id = lookup message.fields "conversation_id" then
          { conversation with
            lastMessage := some message
            updatedAt := lookup message.fields "created_at" }
        else conversation }

def replacePendingMessage (tempId : Int) (message : Entry) : Store :=
  { s with
    chatMessages := s.chatMessages.map fun m =>
      if m.id = some tempId then message.update [("pendingStatus", .string "sent")] else m }

def updatePendingMessage (tempId : Int) (updates : List (String × Json)) : Store :=
  { s with chatMessages := updateEntries tempId updates s.chatMessages }

def removePendingMessage (tempId : Int) : Store :=
  { s with chatMessages := deleteEntries tempId s.chatMessages }

end Store

/-! ### Events from the server -/

/-- The events that the page handles; all others do nothing to these lists. -/
inductive ServerEvent where
  | taskCreated (data : Entry)
  | taskUpdated (data : Entry)
  | taskStatusChanged (data : Entry)
  | taskDeleted (data : Entry)
  | agentCreated (data : Entry)
  | agentUpdated (data : Entry)
  | agentStatusChanged (data : Entry)
  | chatMessage (data : Entry)
  | notificationCreated (data : Entry)
  | other
  deriving DecidableEq

/-- `event.data?.id`, if it is true. -/
def idOf (data : Entry) : Option Int := data.id.filter (· ≠ 0)

/-- `value || otherwise`. -/
def orDefault (value : Option Json) (otherwise : Json) : Json := (value.filter truthy).getD otherwise

/-- The message that is added for an event. -/
def messageOf (now : Nat) (data : Entry) : Entry where
  id := data.id
  fields := select ["conversation_id", "from_agent", "to_agent", "content", "message_type",
      "metadata", "read_at", "created_at"] fun key =>
    if key = "message_type" then some (orDefault (lookup data.fields key) (.string "text"))
    else if key = "created_at" then some (orDefault (lookup data.fields key) (.number now))
    else lookup data.fields key

/-- The notification that is added for an event. -/
def notificationOf (now : Nat) (data : Entry) : Entry where
  id := data.id
  fields := select ["recipient", "type", "title", "message", "source_type", "source_id",
      "created_at"] fun key =>
    if key = "recipient" then some (orDefault (lookup data.fields key) (.string "operator"))
    else if key = "type" then some (orDefault (lookup data.fields key) (.string "info"))
    else if key = "title" ∨ key = "message" then
      some (orDefault (lookup data.fields key) (.string ""))
    else if key = "created_at" then some (orDefault (lookup data.fields key) (.number now))
    else lookup data.fields key

/-- What the page does with an event. -/
def dispatch (now : Nat) (s : Store) : ServerEvent → Store
  | .taskCreated data => s.addTask data
  | .taskUpdated data =>
    match idOf data with
    | some id => s.updateTask id data.fields
    | none => s
  | .taskStatusChanged data =>
    match idOf data with
    | some id => s.updateTask id (select ["status", "updated_at"] (lookup data.fields))
    | none => s
  | .taskDeleted data =>
    match idOf data with
    | some id => s.deleteTask id
    | none => s
  | .agentCreated data => s.addAgent data
  | .agentUpdated data | .agentStatusChanged data =>
    match idOf data with
    | some id => s.updateAgent id data.fields
    | none => s
  | .chatMessage data =>
    match idOf data with
    | some _ => s.addChatMessage (messageOf now data)
    | none => s
  | .notificationCreated data =>
    match idOf data with
    | some _ => s.addNotification (notificationOf now data)
    | none => s
  | .other => s

end MissionControl.Client.Actions
