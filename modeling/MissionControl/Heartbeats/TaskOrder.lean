import MissionControl.Foundations.Pages
import MissionControl.Heartbeats.Routes
import MissionControl.Workload.Dispatch

/-!
The tasks that a heartbeat returns, which the text of their priority decides, against the order of
importance in which the queue hands tasks out.
-/

set_option autoImplicit false
set_option relaxedAutoImplicit false

namespace MissionControl.Heartbeats.TaskOrder

open MissionControl.Comments.Routes (Board Comment)
open MissionControl.Events.Stores (Activity Agent Notification)
open MissionControl.Foundations.Numbers (Number)
open MissionControl.Foundations.Pages
open MissionControl.Foundations.Query
open MissionControl.Tasks.Database (Task)
open MissionControl.Tasks.Validation (TaskPriority TaskStatus)
open MissionControl.Workload.Dispatch (promisedRank)
open Routes

/-- Where a priority comes in the order of texts, the greatest first. -/
def textRank : TaskPriority → Nat
  | .urgent => 0
  | .medium => 1
  | .low => 2
  | .high => 3
  | .critical => 4

theorem text_le_iff (p q : TaskPriority) : q.text ≤ p.text ↔ textRank p ≤ textRank q := by
  cases p <;> cases q <;> decide

/-- The order of the query is that of two keys. -/
theorem textOrder_iff {a b : Task} :
    TextOrder a b ↔ By (fun t : Task => textRank t.priority) Task.createdAt a b := by
  simp only [TextOrder, By, ThenBy, text_le_iff]

theorem textRank_inj {p q : TaskPriority} (h : textRank p = textRank q) : p = q := by
  cases p <;> cases q <;> first | rfl | exact absurd h (by decide)

def tasksOf : WorkItem → List Task
  | .assignedTasks tasks => tasks
  | _ => []

def returnedTasks : Response → List Task
  | .found _ _ items _ => items.flatMap tasksOf
  | _ => []

/-- Of two assigned tasks of which the first has the greater text: it is no less important, unless
ten have greater texts still; and if it is no more important, it is no younger, unless ten have
greater texts than the second. -/
def TextsAgree (b : Board) (agentName : String) (workspaceId : Nat) : Prop :=
  Agree (fun t : Task => textRank t.priority) (fun t => promisedRank t.priority) Task.createdAt 10
    (assignedRows b agentName workspaceId)

instance (b : Board) (agentName : String) (workspaceId : Nat) :
    Decidable (TextsAgree b agentName workspaceId) :=
  inferInstanceAs (Decidable (Agree _ _ _ _ _))

variable {number : String → Number} {queries : Queries} {b : Board} {workspaceId : Nat}
  {agentId agentName : String}

/-- Only one of the lists is of tasks. -/
theorem tasksOf_workItems :
    (workItems queries b agentName workspaceId).flatMap tasksOf =
      assignedTasks queries b agentName workspaceId := by
  have hone : ∀ (p : Prop) [Decidable p] (item : WorkItem),
      (if p then [] else [item]).flatMap tasksOf = if p then [] else tasksOf item := by
    intro p _ item
    split <;> simp
  unfold workItems
  dsimp only
  rw [List.flatMap_append, List.flatMap_append, List.flatMap_append, hone, hone, hone, hone]
  simp only [tasksOf, ite_self, List.nil_append, List.append_nil]
  split
  · rename_i hnil
    exact hnil.symm
  · rfl

theorem returnedTasks_get {agent : Agent}
    (h : findAgent number b.world workspaceId agentId = some agent) :
    returnedTasks (Routes.get number queries b workspaceId agentId).2 =
      assignedTasks queries b agent.name workspaceId := by
  rw [← tasksOf_workItems]
  unfold Routes.get
  rw [h]
  dsimp only
  split
  · rename_i hnil
    rw [hnil]
    rfl
  · rfl

theorem ranked_assignedTasks_iff :
    Ranked (fun t : Task => promisedRank t.priority) Task.createdAt
        (assignedRows b agentName workspaceId) (assignedTasks queries b agentName workspaceId) ↔
      TextsAgree b agentName workspaceId := by
  have hperm := queries.assignedTasks.perm (assignedRows b agentName workspaceId)
  have hsorted := (queries.assignedTasks.sorted (assignedRows b agentName workspaceId)).imp
    textOrder_iff.mp
  have hrank : ∀ s t : Task, textRank s.priority = textRank t.priority →
      promisedRank s.priority = promisedRank t.priority := by
    intro s t h
    rw [textRank_inj h]
  unfold TextsAgree assignedTasks
  rw [← ranked_perm hperm, ← agree_perm hperm]
  exact ranked_take_iff hsorted hrank

/-- The returned tasks are in the order of importance and then of creation, with none left out that
is more important than one of them, exactly if the texts of the priorities agree with it. -/
theorem heartbeat_prioritised_iff {agent : Agent}
    (h : findAgent number b.world workspaceId agentId = some agent) :
    Ranked (fun t : Task => promisedRank t.priority) Task.createdAt
        (assignedRows b agent.name workspaceId)
        (returnedTasks (Routes.get number queries b workspaceId agentId).2) ↔
      TextsAgree b agent.name workspaceId := by
  rw [returnedTasks_get h]
  exact ranked_assignedTasks_iff

/-! ### Eleven tasks -/

def sampleAgent : Agent where
  id := 1
  name := "worker"
  role := "developer"
  sessionKey := none
  soulContent := none
  status := "idle"
  lastSeen := none
  lastActivity := none
  createdAt := 100
  updatedAt := 100
  config := []
  workspaceId := 1

/-- Tasks of the agent with these priorities, created one after the other. -/
def sampleTasks (priorities : List TaskPriority) : List Task :=
  priorities.mapIdx fun i priority =>
    { Tasks.Routes.sampleTask with id := i + 1, priority := priority, createdAt := 900 + i }

def sampleBoard (priorities : List TaskPriority) : Board where
  world :=
    { tasks := { Tasks.Routes.sampleDb with tasks := sampleTasks priorities }
      rooms := .empty 1000000
      agents := [sampleAgent]
      messages := []
      activities := []
      notifications := []
      forwarding := []
      nextAgentId := 2
      nextMessageId := 1
      nextActivityId := 1
      nextNotificationId := 1
      clients := [] }
  subscriptions := []
  comments := []
  nextCommentId := 1

def sampleQueries : Queries where
  mentions := OrderBy.stable (sorts_by_key fun row : Comment × Task => row.1.createdAt).reverse
  assignedTasks := (OrderBy.stable (sorts_by (fun t : Task => textRank t.priority)
    Task.createdAt)).weaken fun _ _ => textOrder_iff.mpr
  notifications := OrderBy.stable (sorts_by_key Notification.createdAt).reverse
  urgentActivities := OrderBy.stable (sorts_by_key Activity.createdAt).reverse

theorem heartbeat_prioritised_sample :
    Ranked (fun t : Task => promisedRank t.priority) Task.createdAt
        (assignedRows (sampleBoard [.low, .medium, .urgent]) "worker" 1)
        (returnedTasks (Routes.get (fun _ => .nan) sampleQueries (sampleBoard [.low, .medium, .urgent]) 1
          "worker").2) ↔
      TextsAgree (sampleBoard [.low, .medium, .urgent]) "worker" 1 :=
  heartbeat_prioritised_iff (show findAgent _ _ _ _ = some sampleAgent from rfl)

/-- Ten tasks of low priority hide one that is critical. -/
theorem critical_task_hidden :
    ¬ Ranked (fun t : Task => promisedRank t.priority) Task.createdAt
      (assignedRows (sampleBoard (.critical :: List.replicate 10 .low)) "worker" 1)
      (returnedTasks (Routes.get (fun _ => .nan) sampleQueries
        (sampleBoard (.critical :: List.replicate 10 .low)) 1 "worker").2) := by
  have hdisagree : ¬ TextsAgree (sampleBoard (.critical :: List.replicate 10 .low)) "worker" 1 := by
    decide +kernel
  rw [returnedTasks_get (show findAgent _ _ _ _ = some sampleAgent from rfl)]
  exact fun hranked => hdisagree (ranked_assignedTasks_iff.mp hranked)

end MissionControl.Heartbeats.TaskOrder
