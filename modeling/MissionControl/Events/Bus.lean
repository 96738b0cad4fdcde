import MissionControl.Foundations.JsonValues

/-!
What is announced on the event bus: the types of events, and an event before the bus gives it
a time.
-/

set_option autoImplicit false
set_option relaxedAutoImplicit false

namespace MissionControl.Events.Bus

open MissionControl.Foundations.Schema (Json)
open MissionControl.Foundations.JsonValues

inductive EventType where
  | taskCreated
  | taskUpdated
  | taskDeleted
  | taskStatusChanged
  | chatMessage
  | chatMessageDeleted
  | notificationCreated
  | notificationRead
  | activityCreated
  | agentUpdated
  | agentCreated
  | agentDeleted
  | agentSynced
  | agentStatusChanged
  | auditSecurity
  | connectionCreated
  | connectionDisconnected
  | githubSynced
  | dataroomVisitorEntered
  | dataroomDocumentViewed
  | dataroomDocumentDownloaded
  deriving DecidableEq

def EventType.text : EventType → String
  | .taskCreated => "task.created"
  | .taskUpdated => "task.updated"
  | .taskDeleted => "task.deleted"
  | .taskStatusChanged => "task.status_changed"
  | .chatMessage => "chat.message"
  | .chatMessageDeleted => "chat.message.deleted"
  | .notificationCreated => "notification.created"
  | .notificationRead => "notification.read"
  | .activityCreated => "activity.created"
  | .agentUpdated => "agent.updated"
  | .agentCreated => "agent.created"
  | .agentDeleted => "agent.deleted"
  | .agentSynced => "agent.synced"
  | .agentStatusChanged => "agent.status_changed"
  | .auditSecurity => "audit.security"
  | .connectionCreated => "connection.created"
  | .connectionDisconnected => "connection.disconnected"
  | .githubSynced => "github.synced"
  | .dataroomVisitorEntered => "dataroom.visitor_entered"
  | .dataroomDocumentViewed => "dataroom.document_viewed"
  | .dataroomDocumentDownloaded => "dataroom.document_downloaded"

/-- The arguments of `eventBus.broadcast`. -/
structure Broadcast where
  type : EventType
  data : Json
  deriving DecidableEq

end MissionControl.Events.Bus
