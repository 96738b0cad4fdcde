import MissionControl.Events.Stream

/-!
The connection of a command line and the heartbeat of an agent, which change the status of an agent
beside the routes of the agents, and what any of the operations sends to the bus.
-/

set_option autoImplicit false
set_option relaxedAutoImplicit false

namespace MissionControl.Events.Connections

open MissionControl.Foundations.JsText
open MissionControl.Foundations.Schema (Json)
open MissionControl.Gateway.AgentSave (Target)
open MissionControl.Events.Stream
open Bus Stores Producers

/-- The body of `POST /api/connect`, as far as agents and activities know of it. -/
structure ConnectBody where
  toolName : String
  toolVersion : Option String
  agentName : String
  agentRole : Option String

/-- The agent of a connection is made where there is none of the name; then the name must be free
in every workspace. -/
def connectAgent (w : World) (workspaceId : Nat) (body : ConnectBody) : Option (World × Nat) :=
  match w.agentNamed workspaceId body.agentName with
  | none =>
    if admits w.agents body.agentName none = false then none
    else
      let agent : Agent :=
        { id := w.nextAgentId
          name := body.agentName
          role := (truthy body.agentRole).getD "cli"
          sessionKey := none
          soulContent := none
          status := "online"
          lastSeen := none
          lastActivity := none
          createdAt := w.now
          updatedAt := w.now
          config := []
          workspaceId := workspaceId }
      let inserted :=
        { w with agents := w.agents ++ [agent], nextAgentId := w.nextAgentId + 1 }
      let logged := inserted.logActivity "agent_created" "agent" agent.id "system"
        ("Auto-created agent \"" ++ body.agentName ++ "\" via direct CLI connection") none
        workspaceId
      some (logged.broadcast .agentCreated (.object
        [("id", natural agent.id), ("name", .string body.agentName)]), agent.id)
  | some agent =>
    let updated :=
      { w with agents := w.agents.map fun other : Agent =>
          if other.id = agent.id ∧ other.workspaceId = workspaceId then
            { other with status := "online", updatedAt := w.now }
          else other }
    some (updated.broadcast .agentStatusChanged (.object
      [("id", natural agent.id), ("name", .string agent.name), ("status", .string "online")]),
      agent.id)

/-- `POST /api/connect`; the table of the connections is not part of the world. -/
def connect (w : World) (workspaceId : Nat) (body : ConnectBody) (connectionId : String) :
    World × Answer :=
  match connectAgent w workspaceId body with
  | none => (w, .error 500 "Internal Server Error")
  | some (online, agentId) =>
    let version := match truthy body.toolVersion with
      | some version => " v" ++ version
      | none => ""
    let logged := online.logActivity "connection_created" "agent" agentId body.agentName
      ("CLI connection established via " ++ body.toolName ++ version) none workspaceId
    (logged.broadcast .connectionCreated (.object
      [("connection_id", .string connectionId), ("agent_id", natural agentId),
        ("agent_name", .string body.agentName), ("tool_name", .string body.toolName)]), .done)

/-- What `GET /api/agents/[id]/heartbeat` writes; `workItems` are the types of the work items that
it has found. -/
def heartbeat (w : World) (workspaceId : Nat) (target : Target) (workItems : List String) :
    World × Answer :=
  match agentAt w workspaceId target with
  | none => (w, .error 404 "Agent not found")
  | some agent =>
    let updated := w.updateAgentStatus agent.name "idle" "Heartbeat check" workspaceId
    let found :=
      if 0 < workItems.length then toString workItems.length ++ " work items found"
      else "no work items"
    (updated.logActivity "agent_heartbeat" "agent" agent.id agent.name
      ("Heartbeat check completed - " ++ found)
      (some (.object [("workItemsCount", natural workItems.length),
        ("workItemTypes", .array (workItems.map .string))])) workspaceId, .done)

inductive Action where
  | operation (operation : Operation)
  | connect (body : ConnectBody) (connectionId : String)
  | heartbeat (target : Target) (workItems : List String)

variable (setting : Setting)

def act (w : World) (workspaceId : Nat) : Action → Option (World × Answer)
  | .operation operation => perform setting w workspaceId operation
  | .connect body connectionId => some (connect w workspaceId body connectionId)
  | .heartbeat target workItems => some (heartbeat w workspaceId target workItems)

/-- The world between two requests, with one listener on the bus and nothing left to announce. -/
def overheard (w : World) : World :=
  { w with tasks := { w.tasks with effects := [] }, clients := [⟨0, 0, []⟩] }

/-- What the action sends to the bus. -/
def emitted (w : World) (workspaceId : Nat) (action : Action) : List Broadcast :=
  match act setting (overheard w) workspaceId action with
  | some (w', _) => w'.clients.flatMap Client.received
  | none => []

end MissionControl.Events.Connections
