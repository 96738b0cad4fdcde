import MissionControl.Conductor.Files
import MissionControl.Events.Producers

/-!
The synchronization with the Conductor: companies become projects, tasks become tasks that carry
the id of the Conductor in their metadata, sessions become agents. A run is one step, since it
awaits nothing; it ends early where a statement or an entry throws.
-/

set_option autoImplicit false
set_option relaxedAutoImplicit false

namespace MissionControl.Conductor.Sync

open MissionControl.Foundations.JsText
open MissionControl.Foundations.Schema (Json lookup)
open MissionControl.Tasks.Validation
open MissionControl.Tasks.Database
open MissionControl.Tasks.Routes (insertTask)
open MissionControl.Events.Bus
open MissionControl.Events.Stores
open MissionControl.Events.Producers (admits)
open Files

def CONDUCTOR_WORKSPACE_ID : Nat := 1

/-- What a run draws and what it leaves to the platform: the upper case of a text, and a digit for
each company whose first prefix is taken. -/
structure Draws where
  toUpperCase : String → String
  digit : String → Nat

/-! ### Companies -/

/-- What comes of a company: a project, a warning, or an error that ends the run. -/
inductive CompanyResult where
  | mapped (projectId : Nat)
  | skipped
  | threw
  deriving DecidableEq

def findProject (db : Db) (slug : String) : Option Project :=
  db.projects.find? fun p => p.slug = slug ∧ p.workspaceId = CONDUCTOR_WORKSPACE_ID

/-- `UNIQUE(workspace_id, ticket_prefix)`. -/
def prefixTaken (db : Db) (ticketPrefix : String) : Bool :=
  db.projects.any fun p => p.workspaceId = CONDUCTOR_WORKSPACE_ID ∧ p.ticketPrefix = ticketPrefix

def insertProject (db : Db) (name slug description ticketPrefix : String) : Db :=
  { db with
    projects := db.projects ++ [⟨db.nextProjectId, CONDUCTOR_WORKSPACE_ID, name, slug,
      some description, ticketPrefix, 0, .active⟩]
    nextProjectId := db.nextProjectId + 1 }

def updateProject (db : Db) (id : Nat) (name description : String) : Db :=
  { db with projects := db.projects.map fun p =>
      if p.id = id then { p with name := name, description := some description } else p }

/-- The prefix of the tickets: up to four characters of the key without its hyphens. -/
def keyPrefix (draws : Draws) (key : String) : String :=
  draws.toUpperCase (String.ofList (takeUnits 4 (key.toList.filter (· ≠ '-'))))

def fallbackPrefix (draws : Draws) (key : String) : String :=
  draws.toUpperCase (String.ofList (takeUnits 3 key.toList)) ++ toString (draws.digit key)

/-- One company. A name that is missing violates `NOT NULL`: the update throws, the insertion is
logged. -/
def syncCompany (draws : Draws) (db : Db) (key : String) (company : Entry ConductorCompany) :
    Db × CompanyResult :=
  match company with
  | .malformed => (db, .threw)
  | .wellFormed company =>
    let description := company.type ++ " — " ++ ", ".intercalate company.contexts
    match findProject db key, company.name with
    | some existing, some name =>
      (updateProject db existing.id name description, .mapped existing.id)
    | some _, none => (db, .threw)
    | none, none => (db, .skipped)
    | none, some name =>
      if ¬ prefixTaken db (keyPrefix draws key) then
        (insertProject db name key description (keyPrefix draws key), .mapped db.nextProjectId)
      else if ¬ prefixTaken db (fallbackPrefix draws key) then
        (insertProject db name key description (fallbackPrefix draws key),
          .mapped db.nextProjectId)
      else (db, .threw)

/-- The companies with a project, `none` where the loop throws. -/
def syncCompanies (draws : Draws) : Db → List (String × Entry ConductorCompany) →
    Db × Option (List (String × Nat))
  | db, [] => (db, some [])
  | db, (key, company) :: rest =>
    match syncCompany draws db key company with
    | (db, .threw) => (db, none)
    | (db, .skipped) => syncCompanies draws db rest
    | (db, .mapped projectId) =>
      let (db, mapped) := syncCompanies draws db rest
      (db, mapped.map fun mapped => (key, projectId) :: mapped)

/-! ### Tasks -/

/-- The task carries the id in its metadata. -/
def carries (conductorId : String) (task : Task) : Bool :=
  lookup (task.metadata.getD []) "conductor_id" = some (.string conductorId)

/-- The rows are searched in their order. -/
def findTask (db : Db) (conductorId : String) : Option Task :=
  db.tasks.find? fun t => t.workspaceId = CONDUCTOR_WORKSPACE_ID ∧ carries conductorId t

def projectOf (companyToProjectId : List (String × Nat)) (company : String) : Option Nat :=
  ((companyToProjectId.find? fun entry => entry.1 = company).map Prod.snd).filter (· ≠ 0)

/-- The row that `insertTask` makes; the other columns have their defaults. -/
def newTask (id : Nat) (companyToProjectId : List (String × Nat)) (task : ConductorTask) : Task where
  id := id
  workspaceId := CONDUCTOR_WORKSPACE_ID
  title := task.title
  description := some task.prompt
  status := mcStatus task.status
  priority := task.priority
  projectId := projectOf companyToProjectId task.company
  projectTicketNo := none
  assignedTo := some task.tmuxSession
  createdBy := "conductor"
  createdAt := seconds task.startedAt
  updatedAt := seconds task.updatedAt
  dueDate := none
  estimatedHours := none
  actualHours := none
  outcome := none
  errorMessage := none
  resolution := none
  feedbackRating := none
  feedbackNotes := none
  retryCount := 0
  completedAt := none
  tags := some task.tags
  metadata := some task.metadata
  pipelineRunId := none
  prUrl := none

/-- The row after `updateTask`. -/
def updatedTask (task : ConductorTask) (row : Task) : Task :=
  { row with
    status := mcStatus task.status
    priority := task.priority
    assignedTo := some task.tmuxSession
    updatedAt := seconds task.updatedAt
    tags := some task.tags
    metadata := some task.metadata
    outcome := task.outcome
    completedAt := task.completedAt }

/-- `UPDATE tasks SET … WHERE id = ?`. -/
def updateRow (db : Db) (id : Nat) (f : Task → Task) : Db :=
  { db with tasks := db.tasks.map fun t => if t.id = id then f t else t }

/-- The rows after one task of the Conductor. -/
def writeTask (companyToProjectId : List (String × Nat)) (db : Db) (task : ConductorTask) : Db :=
  match findTask db task.id with
  | some existing => updateRow db existing.id (updatedTask task)
  | none => insertTask db (newTask db.nextTaskId companyToProjectId task)

/-- What one task of the Conductor announces, with the rows from before it. -/
def announceTask (w : World) (db : Db) (task : ConductorTask) : World :=
  match findTask db task.id with
  | some existing =>
    let status := mcStatus task.status
    let logged :=
      if existing.status = status then w
      else w.logActivity "task_updated" "task" existing.id "conductor"
        ("Task moved from " ++ existing.status.text ++ " to " ++ status.text ++ " (conductor: " ++
          task.status ++ ")")
        (some (.object [("old_status", .string existing.status.text),
          ("new_status", .string status.text), ("conductor_status", .string task.status)]))
        CONDUCTOR_WORKSPACE_ID
    logged.broadcast .taskUpdated (.object
      [("id", natural existing.id), ("status", .string status.text),
        ("conductor_status", .string task.status), ("pr_url", text task.pr.url),
        ("ci_status", text task.checks.ciStatus)])
  | none =>
    w.logActivity "task_created" "task" db.nextTaskId "conductor" ("Task created: " ++ task.title)
      (some (.object [("conductor_id", .string task.id), ("company", .string task.company),
        ("model", .string task.model)])) CONDUCTOR_WORKSPACE_ID

def syncTask (companyToProjectId : List (String × Nat)) (w : World) (task : ConductorTask) : World :=
  announceTask { w with tasks := writeTask companyToProjectId w.tasks task } w.tasks task

structure SyncStats where
  tasksCreated : Nat
  tasksUpdated : Nat
  statusChanges : Nat
  deriving DecidableEq

def SyncStats.count (stats : SyncStats) (db : Db) (task : ConductorTask) : SyncStats :=
  match findTask db task.id with
  | some existing =>
    { stats with
      tasksUpdated := stats.tasksUpdated + 1
      statusChanges :=
        stats.statusChanges + if existing.status = mcStatus task.status then 0 else 1 }
  | none => { stats with tasksCreated := stats.tasksCreated + 1 }

/-- The loop of the transaction, up to the entry that throws, if there is one. -/
def syncEntries (companyToProjectId : List (String × Nat)) :
    World → SyncStats → List (Entry ConductorTask) → World × Option SyncStats
  | w, stats, [] => (w, some stats)
  | w, _, .malformed :: _ => (w, none)
  | w, stats, .wellFormed task :: rest =>
    syncEntries companyToProjectId (syncTask companyToProjectId w task) (stats.count w.tasks task)
      rest

/-- The transaction. What it has announced is not taken back when it fails. -/
def syncTasks (w : World) (companyToProjectId : List (String × Nat))
    (entries : List (Entry ConductorTask)) : World × Option SyncStats :=
  match syncEntries companyToProjectId w ⟨0, 0, 0⟩ entries with
  | (synced, some stats) => (synced, some stats)
  | (attempted, none) => ({ w with clients := attempted.clients }, none)

/-! ### Agents -/

def companyName (companies : List (String × Entry ConductorCompany)) (company : String) : String :=
  match companies.find? fun entry => entry.1 = company with
  | some (_, .wellFormed found) => (truthy found.name).getD company
  | _ => company

def agentConfig (w : World) (companies : List (String × Entry ConductorCompany))
    (task : ConductorTask) : List (String × Json) :=
  [("conductor_task_id", .string task.id), ("company", .string task.company),
    ("company_name", .string (companyName companies task.company)),
    ("repo_slug", .string task.repoSlug), ("branch", .string task.branchName),
    ("worktree", .string task.worktree), ("model", .string task.model),
    ("model_tier", natural task.modelTier), ("conductor_status", .string task.status),
    ("pr_number", nullable natural task.pr.number), ("pr_url", text task.pr.url),
    ("ci_status", text task.checks.ciStatus), ("tmux_alive", .bool task.checks.tmuxAlive),
    ("retries", natural task.retries), ("started_at", natural task.startedAt),
    ("runtime_minutes", .number (((w.rooms.tables.now : Int) - task.startedAt) / 60000 : Int))]

/-- The agent of one task, `none` where a row for it cannot be inserted. -/
def syncAgent (companies : List (String × Entry ConductorCompany)) (w : World)
    (task : ConductorTask) : Option World :=
  if task.tmuxSession = "" then some w
  else
    let status := if task.checks.tmuxAlive then "busy" else "offline"
    let activity :=
      if task.checks.tmuxAlive then "Working on: " ++ task.title
      else "Session ended (" ++ task.status ++ ")"
    let role := "conductor-agent / " ++ companyName companies task.company
    match w.agentNamed CONDUCTOR_WORKSPACE_ID task.tmuxSession with
    | some existing =>
      let updated := w.updateAgents CONDUCTOR_WORKSPACE_ID task.tmuxSession fun agent =>
        { agent with
          role := role
          status := status
          lastSeen := some w.now
          lastActivity := some activity
          updatedAt := w.now
          config := agentConfig w companies task }
      if existing.status = status then some updated
      else
        let logged := updated.logActivity "agent_status_change" "agent" existing.id "conductor"
          ("Agent " ++ task.tmuxSession ++ " → " ++ status)
          (some (.object [("old_status", .string existing.status), ("new_status", .string status),
            ("task", .string task.title)])) CONDUCTOR_WORKSPACE_ID
        some (logged.broadcast .agentStatusChanged (.object
          [("id", natural existing.id), ("name", .string task.tmuxSession),
            ("status", .string status), ("last_activity", .string activity)]))
    | none =>
      if admits w.agents task.tmuxSession (some task.tmuxSession) then
        let agent : Agent :=
          { id := w.nextAgentId
            name := task.tmuxSession
            role := role
            sessionKey := some task.tmuxSession
            soulContent := none
            status := status
            lastSeen := some w.now
            lastActivity := some activity
            createdAt := seconds task.startedAt
            updatedAt := w.now
            config := agentConfig w companies task
            workspaceId := CONDUCTOR_WORKSPACE_ID }
        some ({ w with
          agents := w.agents ++ [agent]
          nextAgentId := w.nextAgentId + 1 }.logActivity "agent_status_change" "agent" agent.id
            "conductor" ("Conductor agent created: " ++ task.tmuxSession)
            (some (.object [("task", .string task.title),
              ("company", .string (companyName companies task.company)),
              ("model", .string task.model)])) CONDUCTOR_WORKSPACE_ID)
      else none

/-- The agents of the tasks, and whether the loop gets to its end. -/
def syncConductorAgents (companies : List (String × Entry ConductorCompany)) :
    World → List (Entry ConductorTask) → World × Bool
  | w, [] => (w, true)
  | w, .malformed :: _ => (w, false)
  | w, .wellFormed task :: rest =>
    match syncAgent companies w task with
    | none => (w, false)
    | some w => syncConductorAgents companies w rest

/-! ### The run -/

/-- `t:<mtimeMs>-<size>|c:<mtimeMs>-<size>`, as the values that it is written from. -/
structure SyncHash where
  tasks : Option FileStat
  companies : Option FileStat
  deriving DecidableEq

/-- The directory of the Conductor. -/
structure Disk where
  directory : Bool
  tasks : Option TasksFile
  companies : Option CompaniesFile
  deriving DecidableEq

/-- `none` is the empty text: there is no file. -/
def Disk.hash (disk : Disk) : Option SyncHash :=
  if disk.tasks.isNone ∧ disk.companies.isNone then none
  else some ⟨disk.tasks.map File.stat, disk.companies.map File.stat⟩

structure State where
  world : World
  disk : Disk
  lastSyncHash : Option SyncHash

inductive Reply where
  | noDirectory
  | noChanges
  | synced (tasks : Nat) (stats : SyncStats) (projects : Nat)
  | failed
  deriving DecidableEq

/-- Everything between the check for changes and the new hash. -/
def syncFiles (draws : Draws) (w : World) (disk : Disk) : World × Reply :=
  let companies := readCompaniesFile disk.companies
  let entries := readActiveTasksFile disk.tasks
  match syncCompanies draws w.tasks companies with
  | (db, none) => ({ w with tasks := db }, .failed)
  | (db, some companyToProjectId) =>
    match syncTasks { w with tasks := db } companyToProjectId entries with
    | (w, none) => (w, .failed)
    | (w, some stats) =>
      match syncConductorAgents companies w entries with
      | (w, false) => (w, .failed)
      | (w, true) => (w, .synced entries.length stats companyToProjectId.length)

def syncConductorData (draws : Draws) (s : State) : State × Reply :=
  if ¬ s.disk.directory then (s, .noDirectory)
  else if s.disk.hash.isSome ∧ s.disk.hash = s.lastSyncHash then (s, .noChanges)
  else
    match syncFiles draws s.world s.disk with
    | (w, .synced tasks stats projects) =>
      ({ s with world := w, lastSyncHash := s.disk.hash.or s.lastSyncHash },
        .synced tasks stats projects)
    | (w, reply) => ({ s with world := w }, reply)

/-! ### The archive -/

/-- A file of the directory `completed`. -/
structure CompletedTask where
  id : String
  status : String
  updatedAt : Option Nat
  deriving DecidableEq

def CompletedTask.outcome (task : CompletedTask) : TaskOutcome :=
  if task.status = "merged" then .success
  else if task.status = "cancelled" then .abandoned
  else .success

/-- `Math.floor((task.updatedAt || Date.now()) / 1000)`. -/
def CompletedTask.completedAt (task : CompletedTask) (nowMs : Nat) : Nat :=
  seconds ((task.updatedAt.filter (· ≠ 0)).getD nowMs)

/-- The rows after one file. -/
def archiveTask (db : Db) (nowMs : Nat) (task : CompletedTask) : Db :=
  match findTask db task.id with
  | none => db
  | some existing =>
    if existing.status = .done then db
    else
      updateRow db existing.id fun t =>
        if t.status = .done then t
        else
          { t with
            status := .done
            outcome := some task.outcome
            completedAt := some (task.completedAt nowMs)
            updatedAt := seconds nowMs }

def announceArchived (w : World) (db : Db) (task : CompletedTask) : World :=
  match findTask db task.id with
  | none => w
  | some existing =>
    if existing.status = .done then w
    else
      w.logActivity "task_updated" "task" existing.id "conductor"
        ("Task completed via archive (" ++ task.status ++ ")")
        (some (.object [("conductor_status", .string task.status),
          ("outcome", .string task.outcome.text)])) CONDUCTOR_WORKSPACE_ID

/-- Files that cannot be read or parsed are passed over. -/
def syncCompletedTasks (w : World) (files : List (Contents CompletedTask)) : World :=
  files.foldl (fun w file =>
    match file with
    | .parsed task =>
      announceArchived { w with tasks := archiveTask w.tasks w.rooms.tables.now task } w.tasks task
    | .unreadable => w
    | .unparsable => w) w

end MissionControl.Conductor.Sync
