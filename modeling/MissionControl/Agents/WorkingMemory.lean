import MissionControl.Events.Stores
import MissionControl.Foundations.Doubles

/-!
The working memory of agents. The agent of a path is found by the number that its text reads as, or
else by its name; the memory is then read and written by the text of the path itself, which the
database converts when it compares it with an id.
-/

set_option autoImplicit false
set_option relaxedAutoImplicit false

namespace MissionControl.Agents.WorkingMemory

open MissionControl.Events.Stores
open MissionControl.Foundations.Doubles (number)
open MissionControl.Foundations.JsText
open MissionControl.Foundations.Schema (Json)

/-- What the language and the database make of a time and of a text. -/
structure Environment where
  /-- `new Date(milliseconds).toISOString()`. -/
  toISOString : Nat → String
  /-- The number that the database compares a text as, if it reads as one. -/
  textNumber : String → Option Rat

/-- The agents, and their column `working_memory` by the ids of the rows, if it exists. -/
structure State where
  world : World
  column : Option (Nat → String)
  ids : (world.agents.map Agent.id).Nodup
  names : (world.agents.map Agent.name).Nodup

/-- The column that is added is empty. -/
def State.memory (s : State) : Nat → String := s.column.getD fun _ => ""

/-! ### Agents of a path -/

/-- `WHERE id = ?` with the number of the path, or `WHERE name = ?`. -/
def isNamed (path : String) (workspaceId : Nat) (a : Agent) : Bool :=
  decide (a.workspaceId = workspaceId) &&
    match number path.toList with
    | .nan => decide (a.name = path)
    | .finite x => decide ((a.id : Rat) = x)
    | .infinite _ => false

def agent? (s : State) (path : String) (workspaceId : Nat) : Option Agent :=
  s.world.agents.find? (isNamed path workspaceId)

/-- `WHERE ${isNaN(Number(agentId)) ? 'name' : 'id'} = ?` with the text of the path. -/
def isSelected (env : Environment) (path : String) (workspaceId : Nat) (a : Agent) : Bool :=
  decide (a.workspaceId = workspaceId) &&
    match number path.toList with
    | .nan => decide (a.name = path)
    | _ => decide (env.textNumber path = some (a.id : Rat))

/-- `result?.working_memory || ''`. -/
def selectMemory (env : Environment) (s : State) (path : String) (workspaceId : Nat) : String :=
  ((s.world.agents.find? (isSelected env path workspaceId)).map fun a => s.memory a.id).getD ""

def touch (selected : Agent → Bool) (now : Nat) (a : Agent) : Agent :=
  if selected a then { a with updatedAt := now } else a

def touchedWorld (w : World) (selected : Agent → Bool) : World :=
  { w with agents := w.agents.map (touch selected w.now) }

theorem map_touch {β : Type} (f : Agent → β) (hf : ∀ a now, f { a with updatedAt := now } = f a)
    (selected : Agent → Bool) (now : Nat) (agents : List Agent) :
    (agents.map (touch selected now)).map f = agents.map f := by
  rw [List.map_map]
  apply List.map_congr_left
  intro a _
  simp only [Function.comp_apply, touch]
  split
  · exact hf a now
  · rfl

theorem nodup_ids_touched (s : State) (selected : Agent → Bool) :
    ((touchedWorld s.world selected).agents.map Agent.id).Nodup := by
  rw [touchedWorld, map_touch Agent.id fun _ _ => rfl]
  exact s.ids

theorem nodup_names_touched (s : State) (selected : Agent → Bool) :
    ((touchedWorld s.world selected).agents.map Agent.name).Nodup := by
  rw [touchedWorld, map_touch Agent.name fun _ _ => rfl]
  exact s.names

/-- `UPDATE agents SET working_memory = ?, updated_at = ?`. -/
def writeMemory (s : State) (selected : Agent → Bool) (content : String) : State where
  world := touchedWorld s.world selected
  column := some fun id =>
    if s.world.agents.any (fun a => a.id = id ∧ selected a) then content else s.memory id
  ids := nodup_ids_touched s selected
  names := nodup_names_touched s selected

/-- `ALTER TABLE agents ADD COLUMN working_memory TEXT DEFAULT ''`, if there is none. -/
def addColumn (s : State) : State := { s with column := some s.memory }

def logActivity (s : State) (type : String) (a : Agent) (description : String)
    (data : List (String × Json)) (workspaceId : Nat) : State :=
  { s with
    world := s.world.logActivity type "agent" a.id a.name description (some (.object data))
      workspaceId }

/-! ### Routes -/

inductive Reply where
  | memory (agentId : Nat) (agentName agentRole workingMemory : String) (updatedAt size : Nat)
  | updated (message workingMemory : String) (updatedAt size : Nat)
  | cleared (message workingMemory : String) (updatedAt : Nat)
  | error (status : Nat) (error : String)
  deriving DecidableEq

def notFound : Reply := .error 404 "Agent not found"

def getMemory (env : Environment) (s : State) (path : String) (workspaceId : Nat) : State × Reply :=
  match agent? s path workspaceId with
  | none => (s, notFound)
  | some a =>
    let s := addColumn s
    let workingMemory := selectMemory env s path workspaceId
    (s, .memory a.id a.name a.role workingMemory a.updatedAt (utf16Length workingMemory))

/-- What is appended, with the time of the clock. -/
def entryText (env : Environment) (s : State) (workingMemory : String) : String :=
  "## " ++ env.toISOString s.world.rooms.tables.now ++ "\n" ++ workingMemory

def appended (current entry : String) : String :=
  current ++ (if current = "" then "" else "\n\n") ++ entry

def putMemory (env : Environment) (s : State) (path : String) (workspaceId : Nat)
    (workingMemory : String) (append : Bool) : State × Reply :=
  match agent? s path workspaceId with
  | none => (s, notFound)
  | some a =>
    let s := addColumn s
    let content :=
      if append then appended (selectMemory env s path workspaceId) (entryText env s workingMemory)
      else workingMemory
    let now := s.world.now
    let done := if append then "appended" else "updated"
    let s := writeMemory s (isSelected env path workspaceId) content
    (logActivity s "agent_memory_updated" a ("Working memory " ++ done ++ " for agent " ++ a.name)
        [("content_length", .number (utf16Length content)), ("append_mode", .bool append),
          ("timestamp", .number now)] workspaceId,
      .updated ("Working memory " ++ done ++ " for " ++ a.name) content now (utf16Length content))

/-- Without the column the statement fails. -/
def deleteMemory (env : Environment) (s : State) (path : String) (workspaceId : Nat) :
    State × Reply :=
  match agent? s path workspaceId with
  | none => (s, notFound)
  | some a =>
    match s.column with
    | none => (s, .error 500 "Failed to clear working memory")
    | some _ =>
      let now := s.world.now
      let s := writeMemory s (isSelected env path workspaceId) ""
      (logActivity s "agent_memory_cleared" a ("Working memory cleared for agent " ++ a.name)
          [("timestamp", .number now)] workspaceId,
        .cleared ("Working memory cleared for " ++ a.name) "" now)

/-! ### Histories -/

inductive Operation where
  | get
  | put (workingMemory : String) (append : Bool)
  | delete
  deriving DecidableEq

/-- A request for the memory at a path, by someone of a workspace, some time after the last one. -/
structure Request where
  waited : Nat
  path : String
  workspaceId : Nat
  operation : Operation
  deriving DecidableEq

/-- The clock goes on. -/
def wait (s : State) (milliseconds : Nat) : State :=
  { s with
    world := { s.world with rooms := { s.world.rooms with
      tables := { s.world.rooms.tables with
        now := s.world.rooms.tables.now + milliseconds } } } }

def perform (env : Environment) (s : State) (request : Request) : State × Reply :=
  match request.operation with
  | .get => getMemory env s request.path request.workspaceId
  | .put workingMemory append =>
    putMemory env s request.path request.workspaceId workingMemory append
  | .delete => deleteMemory env s request.path request.workspaceId

def serve (env : Environment) (s : State) (request : Request) : State × Reply :=
  perform env (wait s request.waited) request

end MissionControl.Agents.WorkingMemory
