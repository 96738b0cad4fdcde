import MissionControl.Foundations.Lists
import MissionControl.Foundations.Query
import MissionControl.Tasks.Validation

/-!
The tables behind the task, project and review routes, and the queries that several of them
share. Rows are kept in the order of insertion; ids come from counters that only grow.
-/

set_option autoImplicit false
set_option relaxedAutoImplicit false

namespace MissionControl.Tasks.Database

open MissionControl.Foundations.JsText
open MissionControl.Foundations.Lists
open MissionControl.Foundations.Query
open MissionControl.Foundations.Schema (Json Issue)
open Validation

/-- A row of `tasks`. The JSON columns hold the values that their texts stand for. -/
structure Task where
  id : Nat
  workspaceId : Nat
  title : String
  description : Option String
  status : TaskStatus
  priority : TaskPriority
  projectId : Option Nat
  projectTicketNo : Option Nat
  assignedTo : Option String
  createdBy : String
  createdAt : Nat
  updatedAt : Nat
  dueDate : Option Rat
  estimatedHours : Option Rat
  actualHours : Option Rat
  outcome : Option TaskOutcome
  errorMessage : Option String
  resolution : Option String
  feedbackRating : Option Nat
  feedbackNotes : Option String
  retryCount : Nat
  completedAt : Option Rat
  tags : Option (List String)
  metadata : Option (List (String × Json))
  pipelineRunId : Option Nat
  prUrl : Option String

inductive ProjectStatus where
  | active
  | archived
  deriving DecidableEq

/-- A row of `projects`. -/
structure Project where
  id : Nat
  workspaceId : Nat
  name : String
  slug : String
  description : Option String
  ticketPrefix : String
  ticketCounter : Nat
  status : ProjectStatus
  deriving DecidableEq

/-- A row of `quality_reviews`. -/
structure Review where
  id : Nat
  taskId : Nat
  reviewer : String
  status : ReviewStatus
  notes : String
  createdAt : Nat
  workspaceId : Nat
  deriving DecidableEq

/-- What a request writes besides these tables, in order. -/
inductive Effect where
  | activity (workspaceId : Nat) (type : String) (taskId : Nat) (actor description : String)
  | subscription (workspaceId taskId : Nat) (agent : String)
  | notification (workspaceId : Nat) (recipient type title message : String) (taskId : Nat)
  | broadcast (event : String) (taskId : Nat) (status : Option TaskStatus)
  deriving DecidableEq

structure Db where
  tasks : List Task
  projects : List Project
  reviews : List Review
  nextTaskId : Nat
  nextProjectId : Nat
  nextReviewId : Nat
  effects : List Effect

/-- The authenticated user of a request. -/
structure User where
  username : String
  displayName : Option String
  workspaceId : Nat
  deriving DecidableEq

structure MentionResolution where
  unresolved : List String
  recipients : List String
  deriving DecidableEq

def queueRank : TaskPriority → Nat
  | .critical => 0
  | .high => 1
  | .medium => 2
  | .low => 3
  | .urgent => 4

/-- `due_date ASC NULLS LAST`. -/
def DueOrder : Option Rat → Option Rat → Prop
  | _, none => True
  | none, some _ => False
  | some a, some b => a ≤ b

/-- The order in which the queue serves tasks. -/
abbrev QueueOrder : Task → Task → Prop :=
  ThenBy (fun a b => queueRank a.priority ≤ queueRank b.priority)
    (ThenBy (fun a b => DueOrder a.dueDate b.dueDate) fun a b => a.createdAt ≤ b.createdAt)

/-- `ORDER BY created_at DESC`. -/
abbrev Newer (a b : Review) : Prop := b.createdAt ≤ a.createdAt

/-- What a request meets: its user, the clock in whole seconds, the users and agents that its
texts mention, and how the database answers the queries that do not name a single row. -/
structure Context where
  user : User
  now : Nat
  mentions : String → MentionResolution
  latestReview : FirstBy Newer
  nextTask : FirstBy QueueOrder

/-- What a request answers. -/
inductive Response where
  | invalid (issues : List Issue)
  | unknownMentions (names : List String)
  | error (status : Nat) (message : String)
  | task (status taskId : Nat)
  | success (updated : Nat)
  | created (id : Nat)
  | nothing (reason : String)
  deriving DecidableEq

instance decidableDueOrder : DecidableRel DueOrder
  | _, none => inferInstanceAs (Decidable True)
  | none, some _ => inferInstanceAs (Decidable False)
  | some a, some b => inferInstanceAs (Decidable (a ≤ b))

theorem sorts_due : Sorts DueOrder := by
  constructor
  · intro a b
    cases a with
    | none => cases b with
      | none => exact .inl trivial
      | some b => exact .inr trivial
    | some a => cases b with
      | none => exact .inl trivial
      | some b => exact Rat.le_total
  · intro a b c hab hbc
    cases c with
    | none => exact trivial
    | some c => cases b with
      | none => exact hbc.elim
      | some b => cases a with
        | none => exact hab.elim
        | some a => exact Rat.le_trans hab hbc

theorem sorts_queue : Sorts QueueOrder := by
  have hdue : Sorts fun a b : Task => DueOrder a.dueDate b.dueDate :=
    ⟨fun a b => sorts_due.total _ _, fun a b c => sorts_due.trans _ _ _⟩
  exact (sorts_by_key fun task => queueRank task.priority).thenBy
    (hdue.thenBy (sorts_by_key Task.createdAt))

theorem sorts_newer : Sorts Newer := (sorts_by_key Review.createdAt).reverse

/-! ### Queries -/

namespace Db

variable (db : Db)

def task? (workspaceId id : Nat) : Option Task :=
  db.tasks.find? fun t => t.id = id ∧ t.workspaceId = workspaceId

def project? (workspaceId id : Nat) : Option Project :=
  db.projects.find? fun p => p.id = id ∧ p.workspaceId = workspaceId

/-- `UPDATE tasks SET … WHERE id = ? AND workspace_id = ?`. -/
def updateTask (workspaceId id : Nat) (f : Task → Task) : Db :=
  { db with tasks := db.tasks.map fun t => if t.id = id ∧ t.workspaceId = workspaceId then f t else t }

/-- `UPDATE projects SET … WHERE id = ? AND workspace_id = ?`. -/
def updateProject (workspaceId id : Nat) (f : Project → Project) : Db :=
  { db with
    projects := db.projects.map fun p => if p.id = id ∧ p.workspaceId = workspaceId then f p else p }

def emit (effects : List Effect) : Db := { db with effects := db.effects ++ effects }

/-- The reviews that `hasAegisApproval` orders. -/
def aegisReviews (workspaceId taskId : Nat) : List Review :=
  db.reviews.filter fun r => r.taskId = taskId ∧ r.reviewer = "aegis" ∧ r.workspaceId = workspaceId

end Db

def hasAegisApproval (ctx : Context) (db : Db) (taskId : Nat) : Bool :=
  match ctx.latestReview.pick (db.aegisReviews ctx.user.workspaceId taskId) with
  | some review => review.status = .approved
  | none => false

/-- The id `resolveProjectId` returns, `none` where it throws. -/
def resolveProjectId (db : Db) (workspaceId : Nat) (requested : Option Nat) : Option Nat :=
  let active := db.projects.filter fun p => p.workspaceId = workspaceId ∧ p.status = .active
  let exact := requested.bind fun id => (active.find? fun p => p.id = id).map Project.id
  let general := ((active.filter fun p => p.slug = "general").map Project.id).min?
  (exact.or general).or (active.map Project.id).min?

/-- `SET ticket_counter = ticket_counter + 1`. -/
def raiseCounter (project : Project) : Project :=
  { project with ticketCounter := project.ticketCounter + 1 }

/-- Raise the ticket counter of a project and read it back; `none` where no number comes out. -/
def allocateTicket (db : Db) (workspaceId projectId : Nat) : Db × Option Nat :=
  let db := db.updateProject workspaceId projectId raiseCounter
  (db, ((db.project? workspaceId projectId).map Project.ticketCounter).filter (· ≠ 0))

def formatTicketRef (ticketPrefix : Option String) (num : Option Nat) : Option String :=
  match truthy ticketPrefix, num with
  | some ticketPrefix, some num =>
    if num = 0 then none else some (ticketPrefix ++ "-" ++ padStart 3 (toString num))
  | _, _ => none

/-- The `ticket_ref` of a task, by the join with its project that every route makes. -/
def ticketRef (db : Db) (task : Task) : Option String :=
  let project := task.projectId.bind (db.project? task.workspaceId)
  formatTicketRef (project.map Project.ticketPrefix) task.projectTicketNo

/-! ### Reads after writes -/

theorem task?_updateTask (db : Db) (workspaceId id : Nat) {f : Task → Task}
    (hf : ∀ t, (f t).id = t.id ∧ (f t).workspaceId = t.workspaceId) :
    (db.updateTask workspaceId id f).task? workspaceId id = (db.task? workspaceId id).map f := by
  apply find?_update
  intro t ht
  rwa [(hf t).1, (hf t).2]

theorem project?_updateProject (db : Db) (workspaceId id : Nat) {f : Project → Project}
    (hf : ∀ p, (f p).id = p.id ∧ (f p).workspaceId = p.workspaceId) :
    (db.updateProject workspaceId id f).project? workspaceId id =
      (db.project? workspaceId id).map f := by
  apply find?_update
  intro p hp
  rwa [(hf p).1, (hf p).2]

theorem project?_id {db : Db} {workspaceId id : Nat} {project : Project}
    (h : db.project? workspaceId id = some project) : project.id = id := by
  have hfound := List.find?_some h
  simp only [decide_eq_true_eq] at hfound
  exact hfound.1

theorem task?_id {db : Db} {workspaceId id : Nat} {task : Task}
    (h : db.task? workspaceId id = some task) : task.id = id := by
  have hfound := List.find?_some h
  simp only [decide_eq_true_eq] at hfound
  exact hfound.1

/-- Under unique ids the row that a query finds is the only one with its id. -/
theorem task?_unique {db : Db} (unique : (db.tasks.map Task.id).Nodup) {workspaceId id : Nat}
    {task t : Task} (h : db.task? workspaceId id = some task) (hmem : t ∈ db.tasks)
    (hid : t.id = id) : t = task := by
  have hfound := List.find?_some h
  simp only [decide_eq_true_eq] at hfound
  exact List.inj_on_of_nodup_map unique hmem (List.mem_of_find?_eq_some h)
    (hid.trans hfound.1.symm)

/-- A project that exists always yields the number after its counter. -/
theorem allocateTicket_eq {db : Db} {workspaceId projectId : Nat} {project : Project}
    (h : db.project? workspaceId projectId = some project) :
    allocateTicket db workspaceId projectId =
      (db.updateProject workspaceId projectId raiseCounter, some (project.ticketCounter + 1)) := by
  have hread := project?_updateProject db workspaceId projectId
    (f := raiseCounter) fun _ => ⟨rfl, rfl⟩
  simp [allocateTicket, hread, h, raiseCounter]

end MissionControl.Tasks.Database
