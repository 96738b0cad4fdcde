import MissionControl.Conductor.Rows
import MissionControl.Foundations.Transition
import MissionControl.Tasks.RouteSteps
import MissionControl.Workload.GitHubImport

/-!
Everything that writes tasks, as one machine: the requests of the task API, the import of GitHub
issues, and the two synchronizations with the Conductor, whose files change in the meantime. What
a request announces leaves the rows alone.
-/

set_option autoImplicit false
set_option relaxedAutoImplicit false

namespace MissionControl.Workload.Operations

open MissionControl.Foundations
open MissionControl.Foundations.Lists
open MissionControl.Foundations.Schema (Json)
open MissionControl.Foundations.Transition (Machine)
open MissionControl.Tasks.Validation
open MissionControl.Tasks.Database
open MissionControl.Tasks.RouteSteps (Change Request serve serve_change)
open MissionControl.Events.Stores
open MissionControl.Events.Producers
open MissionControl.Conductor.Files
open MissionControl.Conductor.Sync
open MissionControl.Conductor.Rows
open GitHubImport

inductive Operation where
  | wait (milliseconds : Nat)
  | request (queries : TaskQueries) (workspaceId : Nat) (caller : Caller) (request : Request)
  | importIssues (params : Import) (issues : List GitHubIssue)
  | files (disk : Disk)
  | syncConductor (draws : Draws)
  | syncCompleted (files : List (Contents CompletedTask))

def perform (s : State) : Operation → State
  | .wait milliseconds =>
    { s with world := { s.world with rooms := { s.world.rooms with
      tables := { s.world.rooms.tables with now := s.world.rooms.tables.now + milliseconds } } } }
  | .request queries workspaceId caller request =>
    { s with world := (serveTask queries s.world workspaceId caller request).1 }
  | .importIssues params issues => { s with world := handleSync params s.world issues }
  | .files disk => { s with disk := disk }
  | .syncConductor draws => (syncConductorData draws s).1
  | .syncCompleted files => { s with world := syncCompletedTasks s.world files }

def machine : Machine State Operation := ⟨fun s op => some (perform s op)⟩

/-- The task tables of the state. -/
def db (s : State) : Db := s.world.tasks

/-- The tables without the record of what is to be announced. -/
def rows (db : Db) : Db := { db with effects := [] }

@[simp]
theorem rows_rows (db : Db) : rows (rows db) = rows db := rfl

theorem rows_emit (db : Db) (effects : List Effect) : rows (db.emit effects) = rows db := rfl

/-! ### What is announced -/

@[simp]
theorem tasks_broadcast (w : World) (type : Events.Bus.EventType) (data : Json) :
    (w.broadcast type data).tasks = w.tasks := rfl

@[simp]
theorem tasks_logActivity (w : World) (type entityType : String) (entityId : Nat)
    (actor description : String) (data : Option Json) (workspaceId : Nat) :
    (w.logActivity type entityType entityId actor description data workspaceId).tasks =
      w.tasks := rfl

theorem tasks_announceEffect (data : Json) (workspaceId : Nat) (w : World) (effect : Effect) :
    (announceEffect data workspaceId w effect).tasks = w.tasks := by
  cases effect with
  | activity => rfl
  | subscription => rfl
  | notification => rfl
  | broadcast event taskId status =>
    cases status with
    | some status => rfl
    | none =>
      simp only [announceEffect]
      split <;> rfl

theorem tasks_announceEffects (data : Json) (workspaceId : Nat) (w : World)
    (effects : List Effect) :
    (effects.foldl (announceEffect data workspaceId) w).tasks = w.tasks := by
  induction effects generalizing w with
  | nil => rfl
  | cons effect effects ih => rw [List.foldl_cons, ih, tasks_announceEffect]

@[simp]
theorem tasks_settle (data : Json) (workspaceId : Nat) (w : World) (db : Db) :
    (settle data workspaceId w db).tasks = rows db :=
  tasks_announceEffects data workspaceId _ db.effects

/-! ### Bulk updates -/

theorem exists_effects {db db' : Db} (h : rows db = rows db') :
    ∃ effects, db' = { db with effects := effects } := by
  refine ⟨db'.effects, ?_⟩
  cases db
  cases db'
  simp only [rows, Db.mk.injEq] at h ⊢
  simpa using ⟨h.1.symm, h.2.1.symm, h.2.2.1.symm, h.2.2.2.1.symm, h.2.2.2.2.1.symm,
    h.2.2.2.2.2.1.symm⟩

section

variable {ctx : Context} {db db' : Db}

variable (ctx) in
/-- A bulk update does not read what is to be announced. -/
theorem bulkItem_rows (h : rows db = rows db') (item : BulkItem) :
    (Tasks.Routes.bulkItem ctx db item).map rows =
      (Tasks.Routes.bulkItem ctx db' item).map rows := by
  obtain ⟨effects, rfl⟩ := exists_effects h
  have htask : ({ db with effects := effects } : Db).task? ctx.user.workspaceId item.id =
      db.task? ctx.user.workspaceId item.id := rfl
  have happroval : hasAegisApproval ctx { db with effects := effects } item.id =
      hasAegisApproval ctx db item.id := rfl
  unfold Tasks.Routes.bulkItem
  simp only [htask, happroval]
  split
  · rfl
  · split
    · rfl
    · split <;> rfl

/-- The transaction of a bulk update, with its announcements, writes the rows of `bulkItems`. -/
theorem tasks_bulkTransaction {w : World} {items : List BulkItem} (hrows : rows w.tasks = rows db)
    (h : Tasks.Routes.bulkItems ctx db items = .ok db') :
    rows (bulkTransaction ctx w items).tasks = rows db' := by
  induction items generalizing w db with
  | nil =>
    obtain rfl := Except.ok.inj h
    exact hrows
  | cons item items ih =>
    unfold Tasks.Routes.bulkItems at h
    have hitem := bulkItem_rows ctx hrows item
    unfold bulkTransaction
    cases hleft : Tasks.Routes.bulkItem ctx w.tasks item with
    | error message =>
      cases hright : Tasks.Routes.bulkItem ctx db item with
      | error message' => simp [hright] at h
      | ok next => simp [hleft, hright, Except.map] at hitem
    | ok written =>
      cases hright : Tasks.Routes.bulkItem ctx db item with
      | error message' => simp [hleft, hright, Except.map] at hitem
      | ok next =>
        simp only [hright] at h
        simp only [hleft, hright, Except.map, Except.ok.injEq] at hitem
        refine ih ?_ h
        rw [tasks_settle]
        exact hitem

end

/-! ### Requests -/

theorem rows_putTasks (ctx : Context) (w : World) (json : Json) :
    rows (putTasks ctx w json).1.tasks = rows (Tasks.Routes.putTasks ctx w.tasks json).1 := by
  unfold putTasks Tasks.Routes.putTasks
  cases hitems : parseBulkUpdate json with
  | error issues => rfl
  | ok items =>
    dsimp only
    cases hbulk : Tasks.Routes.bulkItems ctx w.tasks items with
    | error message => rfl
    | ok written =>
      dsimp only
      have hannounced := tasks_announceEffects .null ctx.user.workspaceId
        (bulkTransaction ctx w items) (items.map fun item =>
          .broadcast "task.status_changed" item.id (some item.status))
      rw [List.foldl_map] at hannounced
      rw [hannounced, rows_emit]
      exact tasks_bulkTransaction rfl hbulk

/-- A request leaves the rows that its route writes. -/
theorem rows_serveTask (queries : TaskQueries) (w : World) (workspaceId : Nat) (caller : Caller)
    (request : Request) : rows (serveTask queries w workspaceId caller request).1.tasks =
      rows (serve (queries.context w workspaceId caller) w.tasks request).1 := by
  cases request with
  | putTasks json => exact rows_putTasks _ w json
  | postTask json | putTask taskId json | pollQueue agentParam agentHeader maxCapacityParam
    | postReview json | nimbusTask params =>
    unfold serveTask
    dsimp only
    rw [tasks_settle, rows_rows]

/-! ### The rows after an operation -/

theorem rows_request (s : State) (queries : TaskQueries) (workspaceId : Nat) (caller : Caller)
    (request : Request) : rows (db (perform s (.request queries workspaceId caller request))) =
      rows (serve (queries.context s.world workspaceId caller) (db s) request).1 :=
  rows_serveTask queries s.world workspaceId caller request

theorem db_importIssues (s : State) (params : Import) (issues : List GitHubIssue) :
    db (perform s (.importIssues params issues)) =
      issues.foldl (writeIssue s.world.now params) (db s) :=
  tasks_handleSync params s.world issues

theorem db_syncCompleted (s : State) (files : List (Contents CompletedTask)) :
    db (perform s (.syncCompleted files)) =
      files.foldl (archiveFile s.world.rooms.tables.now) (db s) :=
  tasks_syncCompletedTasks s.world files

/-- The run gets to the end of its transaction. -/
structure Commits (draws : Draws) (s : State) (companyToProjectId : List (String × Nat)) (start : Db) :
    Prop where
  directory : s.disk.directory = true
  changed : ¬ (s.disk.hash.isSome ∧ s.disk.hash = s.lastSyncHash)
  companies : syncCompanies draws (db s) (readCompaniesFile s.disk.companies) =
    (start, some companyToProjectId)
  entries : Entry.malformed ∉ readActiveTasksFile s.disk.tasks

/-- Companies write no tasks. -/
theorem Commits.tasks {draws : Draws} {s : State} {companyToProjectId : List (String × Nat)}
    {start : Db} (h : Commits draws s companyToProjectId start) :
    start.tasks = (db s).tasks ∧ start.nextTaskId = (db s).nextTaskId := by
  have htasks := tasks_syncCompanies draws (db s) (readCompaniesFile s.disk.companies)
  rw [h.companies] at htasks
  exact htasks

/-- A run of the synchronization that has nothing to do changes nothing, one that fails writes
projects only, and the others write the tasks of the file. -/
theorem db_syncConductor (s : State) (draws : Draws) :
    db (perform s (.syncConductor draws)) = db s ∨
    db (perform s (.syncConductor draws)) =
      (syncCompanies draws (db s) (readCompaniesFile s.disk.companies)).1 ∨
    ∃ companyToProjectId start, Commits draws s companyToProjectId start ∧
      writeTasks companyToProjectId start (readActiveTasksFile s.disk.tasks) =
        some (db (perform s (.syncConductor draws))) := by
  have hfiles := tasks_syncFiles draws s.world s.disk
  simp only [db, perform, syncConductorData]
  split
  · exact .inl rfl
  · rename_i hdirectory
    split
    · exact .inl rfl
    · rename_i hchanged
      obtain ⟨-, hkept⟩ | ⟨start, companyToProjectId, hcompanies, hwritten⟩ := hfiles
      · right; left
        split <;> rename_i heq <;> rw [heq] at hkept <;> exact hkept
      · right; right
        refine ⟨companyToProjectId, start, ⟨by simpa using hdirectory, hchanged, hcompanies,
          not_malformed hwritten⟩, ?_⟩
        rw [hwritten]
        split <;> rename_i heq <;> rw [heq]

/-- A run that says that it has synced has committed. -/
theorem commits_of_synced {s : State} {draws : Draws}
    (h : ∃ tasks stats projects, (syncConductorData draws s).2 = .synced tasks stats projects) :
    ∃ companyToProjectId start, Commits draws s companyToProjectId start ∧
      writeTasks companyToProjectId start (readActiveTasksFile s.disk.tasks) =
        some (db (perform s (.syncConductor draws))) := by
  obtain ⟨tasks, stats, projects, h⟩ := h
  have hfiles := tasks_syncFiles draws s.world s.disk
  simp only [db, perform]
  unfold syncConductorData at h ⊢
  split
  · rename_i hdirectory
    rw [if_pos hdirectory] at h
    cases h
  · rename_i hdirectory
    rw [if_neg hdirectory] at h
    split
    · rename_i hsame
      rw [if_pos hsame] at h
      cases h
    · rename_i hchanged
      rw [if_neg hchanged] at h
      split at h
      · rename_i w tasks' stats' projects' heq
        rw [heq] at hfiles
        obtain ⟨hfailed, -⟩ | ⟨start, companyToProjectId, hcompanies, hwritten⟩ := hfiles
        · cases hfailed
        · exact ⟨companyToProjectId, start, ⟨by simpa using hdirectory, hchanged, hcompanies,
            not_malformed hwritten⟩, hwritten⟩
      · rename_i w reply hreply heq
        exact absurd h (hreply _ _ _)

/-! ### Ids -/

theorem keyed_serve {db : Db} (h : Keyed Task.id db.tasks db.nextTaskId) (ctx : Context)
    (request : Request) : Keyed Task.id (serve ctx db request).1.tasks
      (serve ctx db request).1.nextTaskId := by
  have hchange : Change ctx db request (serve ctx db request).1 :=
    serve_change h.unique request
  revert hchange
  generalize (serve ctx db request).1 = db'
  intro hchange
  cases hchange with
  | kept => exact h
  | created _ hid => exact h.snoc hid
  | rewritten _ rewrites => exact h.map fun t => (rewrites.row t).1
  | moved _ keeps =>
    refine h.map fun t => ?_
    split
    · exact (keeps t).1
    · rfl
  | reviewed _ keeps => exact h.map fun t => (keeps t).1

/-- What every write of a loop keeps of the tables, the loop keeps. -/
theorem foldl_keeps {α : Type} {write : Db → α → Db} {P : Db → Prop}
    (hwrite : ∀ db a, P db → P (write db a)) {db : Db} (h : P db) (l : List α) :
    P (l.foldl write db) := by
  induction l generalizing db with
  | nil => exact h
  | cons a l ih => exact ih (hwrite db a h)

/-- No operation gives one id to two tasks. -/
theorem keyed_perform {s : State} (h : Keyed Task.id (db s).tasks (db s).nextTaskId)
    (op : Operation) : Keyed Task.id (db (perform s op)).tasks (db (perform s op)).nextTaskId := by
  cases op with
  | wait milliseconds => exact h
  | files disk => exact h
  | request queries workspaceId caller request =>
    have hserved := keyed_serve h (queries.context s.world workspaceId caller) request
    obtain ⟨effects, hrows⟩ := exists_effects
      (rows_request s queries workspaceId caller request).symm
    rw [hrows]
    exact hserved
  | importIssues params issues =>
    rw [db_importIssues]
    exact foldl_keeps (P := fun db => Keyed Task.id db.tasks db.nextTaskId)
      (fun _ issue hdb => keyed_writeIssue hdb _ params issue) h issues
  | syncCompleted files =>
    rw [db_syncCompleted]
    exact foldl_keeps (P := fun db => Keyed Task.id db.tasks db.nextTaskId)
      (fun _ file hdb => keyed_archiveFile hdb _ file) h files
  | syncConductor draws =>
    obtain hkept | hkept | ⟨companyToProjectId, start, hcommits, hwritten⟩ :=
      db_syncConductor s draws
    · rw [hkept]
      exact h
    · rw [hkept, (tasks_syncCompanies ..).1, (tasks_syncCompanies ..).2]
      exact h
    · refine keyed_writeTasks ?_ hwritten
      rw [hcommits.tasks.1, hcommits.tasks.2]
      exact h

/-! ### A small state -/

def sampleQueries : TaskQueries where
  mentions := fun _ => ⟨[], []⟩
  latestReview := Query.FirstBy.first sorts_newer
  nextTask := Query.FirstBy.first sorts_queue

/-- A workspace with one task in progress, and an empty directory of the Conductor. -/
def sampleState : State where
  world :=
    { tasks := Tasks.Routes.sampleDb
      rooms := .empty 1000000
      agents := []
      messages := []
      activities := []
      notifications := []
      forwarding := []
      nextAgentId := 1
      nextMessageId := 1
      nextActivityId := 1
      nextNotificationId := 1
      clients := [] }
  disk := ⟨true, none, none⟩
  lastSyncHash := none

def sampleConductorTask (id status : String) : ConductorTask where
  id := id
  executor := "codex"
  company := "acme"
  repoSlug := "acme/web"
  baseBranch := "main"
  branchName := "fix"
  tmuxSession := ""
  worktree := "/work/fix"
  modelTier := 2
  model := "large"
  prompt := "Task: Fix the login"
  startedAt := 900000
  updatedAt := 950000
  status := status
  retries := 0
  pr := ⟨none, none, none⟩
  checks := ⟨false, false, none, []⟩

/-- A directory with these entries, and no companies. -/
def sampleDisk (entries : List (Entry ConductorTask)) : Disk :=
  ⟨true, some ⟨⟨1, entries.length⟩, .parsed entries⟩, none⟩

def sampleDraws : Draws := ⟨JsText.toUpperCase, fun _ => 0⟩

def sampleOperation (request : Request) : Operation :=
  .request sampleQueries 1 ⟨"operator", none⟩ request

end MissionControl.Workload.Operations
