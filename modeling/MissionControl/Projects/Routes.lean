import MissionControl.Tasks.RouteSteps

/-!
The requests that write projects, and the migration that introduces them: it gives every
workspace a default project, and every task of the workspace a number in it.
-/

set_option autoImplicit false
set_option relaxedAutoImplicit false

namespace MissionControl.Projects.Routes

open MissionControl.Foundations.JsText
open MissionControl.Foundations.Transition (Machine)
open Tasks.Database
open Tasks.RouteSteps (Request serve)

/-! ### Names -/

def isSlugChar (c : Char) : Bool := ('a' ≤ c && c ≤ 'z') || ('0' ≤ c && c ≤ '9')

/-- Replace every run of characters outside `a-z0-9` by one hyphen. -/
def hyphenate : List Char → List Char
  | [] => []
  | c :: cs =>
    if isSlugChar c then c :: hyphenate cs
    else match cs with
      | [] => ['-']
      | d :: _ => if isSlugChar d then '-' :: hyphenate cs else hyphenate cs

def slugify (input : String) : String :=
  let hyphenated := hyphenate (toLowerCase (trim input)).toList
  let stripped := ((hyphenated.dropWhile (· = '-')).reverse.dropWhile (· = '-')).reverse
  String.ofList (stripped.take 64)

def normalizePrefix (input : String) : String :=
  let normalized := (toUpperCase (trim input)).toList.filter fun c =>
    ('A' ≤ c && c ≤ 'Z') || ('0' ≤ c && c ≤ '9')
  String.ofList (normalized.take 12)

/-! ### Requests -/

/-- The texts that `POST /api/projects` makes of its body, a missing one empty. -/
structure ProjectInput where
  name : String
  description : String
  ticketPrefix : String
  slug : String
  deriving DecidableEq

/-- The texts in the body of `PATCH /api/projects/[id]`. -/
structure ProjectPatch where
  name : Option String
  description : Option String
  ticketPrefix : Option String
  status : Option String
  deriving DecidableEq

inductive ProjectRequest where
  | postProject (input : ProjectInput)
  | patchProject (projectId : Nat) (patch : ProjectPatch)
  | deleteProject (projectId : Nat) (mode : String)
  deriving DecidableEq

/-- `POST /api/projects`. -/
def postProject (ctx : Context) (db : Db) (input : ProjectInput) : Db × Response :=
  let workspaceId := ctx.user.workspaceId
  let name := trim input.name
  let description := trim input.description
  let prefixInput := trim input.ticketPrefix
  let slugInput := trim input.slug
  let slug := if slugInput = "" then slugify name else slugify slugInput
  let ticketPrefix := normalizePrefix
    (orElse prefixInput (String.ofList (takeUnits 5 name.toList)))
  if name = "" then (db, .error 400 "Project name is required")
  else if slug = "" then (db, .error 400 "Invalid project slug")
  else if ticketPrefix = "" then (db, .error 400 "Invalid ticket prefix")
  else if db.projects.any fun p =>
      p.workspaceId = workspaceId ∧ (p.slug = slug ∨ p.ticketPrefix = ticketPrefix) then
    (db, .error 409 "Project slug or ticket prefix already exists")
  else
    ({ db with
      projects := db.projects ++ [⟨db.nextProjectId, workspaceId, name, slug,
        truthy (some description), ticketPrefix, 0, .active⟩]
      nextProjectId := db.nextProjectId + 1 }, .created db.nextProjectId)

/-- The columns that a patch sets, with the prefix in its normal form. -/
def patched (patch : ProjectPatch) (ticketPrefix : Option String) (project : Project) : Project :=
  { project with
    name := (patch.name.map trim).getD project.name
    description := match patch.description with
      | some description => truthy (some (trim description))
      | none => project.description
    ticketPrefix := ticketPrefix.getD project.ticketPrefix
    status := match patch.status with
      | some status => if status = "archived" then .archived else .active
      | none => project.status }

/-- `PATCH /api/projects/[id]`. The body of a request for the default project is read twice,
and the second read throws. -/
def patchProject (ctx : Context) (db : Db) (projectId : Nat) (patch : ProjectPatch) :
    Db × Response :=
  let workspaceId := ctx.user.workspaceId
  match db.project? workspaceId projectId with
  | none => (db, .error 404 "Project not found")
  | some current =>
    let ticketPrefix := patch.ticketPrefix.map normalizePrefix
    if current.slug = "general" then
      if patch.status = some "archived" then (db, .error 400 "Default project cannot be archived")
      else (db, .error 500 "Failed to update project")
    else if patch.name.map trim = some "" then (db, .error 400 "Project name cannot be empty")
    else if ticketPrefix = some "" then (db, .error 400 "Invalid ticket prefix")
    else if db.projects.any fun p =>
        p.workspaceId = workspaceId ∧ some p.ticketPrefix = ticketPrefix ∧ p.id ≠ projectId then
      (db, .error 409 "Ticket prefix already in use")
    else if patch = ⟨none, none, none, none⟩ then (db, .error 400 "No fields to update")
    else (db.updateProject workspaceId projectId (patched patch ticketPrefix), .success 1)

/-- `UPDATE tasks SET project_id = ? WHERE workspace_id = ? AND project_id = ?`, on one row. -/
def carried (workspaceId projectId fallbackId : Nat) (t : Task) : Task :=
  if t.workspaceId = workspaceId ∧ t.projectId = some projectId then
    { t with projectId := some fallbackId }
  else t

/-- The transaction of a deletion: the tasks go to the default project as they are. -/
def mergeInto (db : Db) (workspaceId projectId fallbackId : Nat) : Db :=
  { db with
    tasks := db.tasks.map (carried workspaceId projectId fallbackId)
    projects := db.projects.filter fun p => ¬ (p.id = projectId ∧ p.workspaceId = workspaceId) }

def defaultProject? (db : Db) (workspaceId : Nat) : Option Project :=
  db.projects.find? fun p => p.workspaceId = workspaceId ∧ p.slug = "general"

/-- `DELETE /api/projects/[id]`. -/
def deleteProject (ctx : Context) (db : Db) (projectId : Nat) (mode : String) : Db × Response :=
  let workspaceId := ctx.user.workspaceId
  match db.project? workspaceId projectId with
  | none => (db, .error 404 "Project not found")
  | some current =>
    if current.slug = "general" then (db, .error 400 "Default project cannot be deleted")
    else if orElse mode "archive" ≠ "delete" then
      (db.updateProject workspaceId projectId fun p => { p with status := .archived }, .success 1)
    else
      match defaultProject? db workspaceId with
      | none => (db, .error 500 "Default project missing")
      | some fallback => (mergeInto db workspaceId projectId fallback.id, .success 1)

def serveProject (ctx : Context) (db : Db) : ProjectRequest → Db × Response
  | .postProject input => postProject ctx db input
  | .patchProject projectId patch => patchProject ctx db projectId patch
  | .deleteProject projectId mode => deleteProject ctx db projectId mode

/-- A request to the tasks or to the projects. -/
inductive Event where
  | task (ctx : Context) (request : Request)
  | project (ctx : Context) (request : ProjectRequest)

def machine : Machine Db Event where
  step db
    | .task ctx request => some (serve ctx db request).1
    | .project ctx request => some (serveProject ctx db request).1

/-! ### Migration 024 -/

/-- `INSERT OR IGNORE` of the default project of a workspace. -/
def ensureDefaultProject (db : Db) (workspaceId : Nat) : Db :=
  if db.projects.any fun p =>
      p.workspaceId = workspaceId ∧ (p.slug = "general" ∨ p.ticketPrefix = "TASK") then db
  else
    { db with
      projects := db.projects ++ [⟨db.nextProjectId, workspaceId, "General", "general",
        some "Default project for uncategorized tasks", "TASK", 0, .active⟩]
      nextProjectId := db.nextProjectId + 1 }

/-- `UPDATE tasks SET project_id = ? WHERE workspace_id = ? AND (project_id IS NULL OR
project_id = 0)`, on one row. -/
def categorized (workspaceId projectId : Nat) (t : Task) : Task :=
  if t.workspaceId = workspaceId ∧ (t.projectId = none ∨ t.projectId = some 0) then
    { t with projectId := some projectId }
  else t

def setTaskProject (db : Db) (workspaceId projectId : Nat) : Db :=
  { db with tasks := db.tasks.map (categorized workspaceId projectId) }

/-- The ids of a project's tasks by age, those of one age by id. -/
def listProjectTasks (db : Db) (workspaceId projectId : Nat) : List Nat :=
  ((db.tasks.filter fun t => t.workspaceId = workspaceId ∧ t.projectId = some projectId).mergeSort
    fun a b => a.createdAt < b.createdAt ∨ a.createdAt = b.createdAt ∧ a.id ≤ b.id).map Task.id

/-- Number the tasks with the listed ids, after those that are counted already. -/
def setTaskNos : Nat → List Nat → List Task → List Task
  | _, [], tasks => tasks
  | counter, id :: ids, tasks =>
    setTaskNos (counter + 1) ids (tasks.map fun t =>
      if t.id = id then { t with projectTicketNo := some (counter + 1) } else t)

def numberProject (workspaceId : Nat) (db : Db) (projectId : Nat) : Db :=
  let ids := listProjectTasks db workspaceId projectId
  { db with
    tasks := setTaskNos 0 ids db.tasks
    projects := db.projects.map fun p =>
      if p.id = projectId then { p with ticketCounter := ids.length } else p }

def migrateWorkspace (db : Db) (workspaceId : Nat) : Db :=
  let db := ensureDefaultProject db workspaceId
  match defaultProject? db workspaceId with
  | none => db
  | some project =>
    let db := setTaskProject db workspaceId project.id
    let projectRows := ((db.projects.filter fun p => p.workspaceId = workspaceId).map
      Project.id).mergeSort (· ≤ ·)
    projectRows.foldl (numberProject workspaceId) db

/-- The database before the migration: workspaces and tasks, and no column for a project. -/
structure Legacy where
  workspaces : List Nat
  tasks : List Task
  nextTaskId : Nat
  unique : (tasks.map Task.id).Nodup
  fresh : ∀ t ∈ tasks, t.id < nextTaskId
  unnumbered : ∀ t ∈ tasks, t.projectId = none ∧ t.projectTicketNo = none

def Legacy.db (legacy : Legacy) : Db where
  tasks := legacy.tasks
  projects := []
  reviews := []
  nextTaskId := legacy.nextTaskId
  nextProjectId := 1
  nextReviewId := 1
  effects := []

/-- `024_projects_support`. -/
def migration024 (legacy : Legacy) : Db := legacy.workspaces.foldl migrateWorkspace legacy.db

end MissionControl.Projects.Routes
