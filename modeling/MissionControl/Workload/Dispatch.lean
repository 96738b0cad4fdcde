import MissionControl.Workload.Operations

/-!
The queue over every run. A task that is handed out is held by its agent until an update of the
task ends that, and nobody else is given it. Among the eligible tasks the queue serves the urgent
ones last; where that makes no difference it serves them in the order of their priority.
-/

set_option autoImplicit false
set_option relaxedAutoImplicit false

namespace MissionControl.Workload.Dispatch

open MissionControl.Foundations
open MissionControl.Foundations.Lists
open MissionControl.Foundations.Query
open MissionControl.Foundations.Transition (Machine)
open MissionControl.Tasks.Validation
open MissionControl.Tasks.Database
open MissionControl.Tasks.Routes
open MissionControl.Tasks.RouteSteps (Request serve createTaskTx_some)
open MissionControl.Events.Producers
open MissionControl.Conductor.Sync (State)
open GitHubImport (writeIssue)
open Operations

/-! ### Polls -/

structure Poll where
  queries : TaskQueries
  workspaceId : Nat
  caller : Caller
  agentParam : String
  agentHeader : String
  maxCapacityParam : String

def Poll.operation (poll : Poll) : Operation :=
  .request poll.queries poll.workspaceId poll.caller
    (.pollQueue poll.agentParam poll.agentHeader poll.maxCapacityParam)

def Poll.agent (poll : Poll) : String :=
  JsText.orElse (JsText.trim poll.agentParam) (JsText.trim poll.agentHeader)

def Poll.response (poll : Poll) (s : State) : Response :=
  (pollQueue (poll.queries.context s.world poll.workspaceId poll.caller) (db s) poll.agentParam
    poll.agentHeader poll.maxCapacityParam).2

/-- The agent works on the task. -/
def Held (db : Db) (taskId workspaceId : Nat) (agent : String) : Prop :=
  ∃ t ∈ db.tasks, t.id = taskId ∧ t.workspaceId = workspaceId ∧ t.status = .in_progress ∧
    t.assignedTo = some agent

/-- The poll answers with the task: one that it has picked up, or one that its agent works on. -/
def HandedOut (s : State) (poll : Poll) (taskId : Nat) : Prop :=
  poll.response s = .task 200 taskId ∨
    poll.response s = .nothing "continue_current" ∧
      Held (db s) taskId poll.workspaceId poll.agent

def eligible (db : Db) (workspaceId : Nat) (agent : String) : List Task :=
  db.tasks.filter (claimable workspaceId agent)

/-- The operation updates tasks that exist. -/
def IsUpdate : Operation → Prop
  | .request _ _ _ (.putTasks _) => True
  | .request _ _ _ (.putTask _ _) => True
  | .request _ _ _ (.postReview _) => True
  | .syncConductor _ => True
  | .syncCompleted _ => True
  | _ => False

/-! ### The pickup -/

section

variable {ctx : Context} {db : Db} {agent : String}

/-- The row after the agent has tried to claim it. -/
def claimed (ctx : Context) (agent : String) (t : Task) : Task :=
  if claimable ctx.user.workspaceId agent t then
    { t with status := .in_progress, assignedTo := some agent, updatedAt := ctx.now }
  else t

/-- The candidate is claimed at the first attempt. -/
theorem pickup_succ (attempts : Nat) : pickup ctx agent (attempts + 1) db =
    match ctx.nextTask.pick (eligible db ctx.user.workspaceId agent) with
    | none => (db, .nothing "no_tasks_available")
    | some candidate =>
      (db.updateTask ctx.user.workspaceId candidate.id (claimed ctx agent),
        .task 200 candidate.id) := by
  unfold pickup eligible
  dsimp only
  cases hpick : ctx.nextTask.pick (db.tasks.filter (claimable ctx.user.workspaceId agent)) with
  | none => rfl
  | some candidate =>
    dsimp only
    have hcandidate := List.mem_filter.mp (ctx.nextTask.mem _ _ hpick)
    have hclaimed : (db.tasks.any fun t =>
        t.id = candidate.id ∧ claimable ctx.user.workspaceId agent t) = true :=
      List.any_eq_true.mpr ⟨candidate, hcandidate.1, by simpa using hcandidate.2⟩
    rw [if_pos hclaimed]
    rfl

/-- What a poll does: it picks up a task, or it changes nothing. -/
theorem pollQueue_cases (ctx : Context) (db : Db) (agentParam agentHeader maxCapacityParam : String) :
    (∃ candidate, ctx.nextTask.pick (eligible db ctx.user.workspaceId
        (JsText.orElse (JsText.trim agentParam) (JsText.trim agentHeader))) = some candidate ∧
      pollQueue ctx db agentParam agentHeader maxCapacityParam =
        (db.updateTask ctx.user.workspaceId candidate.id
          (claimed ctx (JsText.orElse (JsText.trim agentParam) (JsText.trim agentHeader))),
          .task 200 candidate.id)) ∨
    (pollQueue ctx db agentParam agentHeader maxCapacityParam).1 = db ∧
      ∀ taskId, (pollQueue ctx db agentParam agentHeader maxCapacityParam).2 ≠ .task 200 taskId := by
  unfold pollQueue
  dsimp only
  generalize JsText.orElse (JsText.trim agentParam) (JsText.trim agentHeader) = agent
  split
  · exact .inr ⟨rfl, nofun⟩
  · split
    · exact .inr ⟨rfl, nofun⟩
    · split
      · exact .inr ⟨rfl, nofun⟩
      · split
        · exact .inr ⟨rfl, nofun⟩
        · rw [pickup_succ]
          cases hpick : ctx.nextTask.pick (eligible db ctx.user.workspaceId agent) with
          | none => exact .inr ⟨rfl, nofun⟩
          | some candidate => exact .inl ⟨candidate, rfl, rfl⟩

end

/-! ### Holding a task -/

section

variable {db db' : Db} {taskId workspaceId : Nat} {agent : String}

theorem Held.of_rows (h : Held db taskId workspaceId agent)
    (hrows : ∀ t ∈ db.tasks, t.status = .in_progress → t ∈ db'.tasks) :
    Held db' taskId workspaceId agent := by
  obtain ⟨t, ht, hid, hworkspace, hstatus, hagent⟩ := h
  exact ⟨t, hrows t ht hstatus, hid, hworkspace, hstatus, hagent⟩

/-- A creation keeps every row. -/
theorem held_createTaskTx {ctx : Context} {requested : Option Nat}
    {row : (id projectId no : Nat) → Task} (h : createTaskTx ctx db requested row = some db') :
    ∀ t ∈ db.tasks, t ∈ db'.tasks := by
  obtain ⟨project, -, rfl⟩ := createTaskTx_some h
  intro t ht
  exact List.mem_append_left _ ht

theorem mem_postTask {ctx : Context} {json : Schema.Json} :
    ∀ t ∈ db.tasks, t ∈ (Tasks.Routes.postTask ctx db json).1.tasks := by
  intro t ht
  unfold Tasks.Routes.postTask
  dsimp only
  split
  · exact ht
  · split
    · exact ht
    · split
      · exact ht
      · split
        · exact ht
        · rename_i created hcreated
          exact held_createTaskTx hcreated t ht

theorem mem_nimbusTask {ctx : Context} {params : NimbusTask} :
    ∀ t ∈ db.tasks, t ∈ (nimbusTask ctx db params).1.tasks := by
  intro t ht
  unfold nimbusTask
  dsimp only
  split
  · exact ht
  · rename_i created hcreated
    exact held_createTaskTx hcreated t ht

/-- A poll leaves a task in progress as it is. -/
theorem mem_pollQueue {ctx : Context} {agentParam agentHeader maxCapacityParam : String} :
    ∀ t ∈ db.tasks, t.status = .in_progress →
      t ∈ (pollQueue ctx db agentParam agentHeader maxCapacityParam).1.tasks := by
  intro t ht hstatus
  obtain ⟨candidate, -, heq⟩ | ⟨heq, -⟩ :=
    pollQueue_cases ctx db agentParam agentHeader maxCapacityParam
  · rw [heq]
    refine List.mem_map.mpr ⟨t, ht, ?_⟩
    simp [claimed, claimable, hstatus]
  · rw [heq]
    exact ht

/-- A request that is no update keeps the tasks in progress. -/
theorem mem_serve {queries : TaskQueries} {workspaceId : Nat} {caller : Caller} {request : Request}
    {ctx : Context} (hop : ¬ IsUpdate (.request queries workspaceId caller request)) :
    ∀ t ∈ db.tasks, t.status = .in_progress → t ∈ (serve ctx db request).1.tasks := by
  intro t ht hstatus
  cases request with
  | putTasks json => exact absurd trivial hop
  | putTask taskId json => exact absurd trivial hop
  | postReview json => exact absurd trivial hop
  | postTask json =>
    unfold serve
    exact mem_postTask t ht
  | nimbusTask params =>
    unfold serve
    exact mem_nimbusTask t ht
  | pollQueue agentParam agentHeader maxCapacityParam =>
    unfold serve
    exact mem_pollQueue t ht hstatus

theorem mem_writeIssue (now : Nat) (params : GitHubImport.Import)
    (issues : List GitHubImport.GitHubIssue) :
    ∀ t ∈ db.tasks, t ∈ (issues.foldl (writeIssue now params) db).tasks := by
  intro t ht
  refine foldl_keeps (P := fun db => t ∈ db.tasks) ?_ ht issues
  intro db issue hdb
  unfold writeIssue
  split
  · exact hdb
  · exact List.mem_append_left _ hdb

end

/-- Only an update ends that an agent holds a task. -/
theorem held_perform {s : State} {op : Operation} {taskId workspaceId : Nat} {agent : String}
    (h : Held (db s) taskId workspaceId agent) (hop : ¬ IsUpdate op) :
    Held (db (perform s op)) taskId workspaceId agent := by
  cases op with
  | wait milliseconds => exact h
  | files disk => exact h
  | importIssues params issues =>
    rw [db_importIssues]
    exact h.of_rows fun t ht _ => mem_writeIssue s.world.now params issues t ht
  | syncConductor draws => exact absurd trivial hop
  | syncCompleted files => exact absurd trivial hop
  | request queries workspaceId' caller request =>
    obtain ⟨effects, hrows⟩ := exists_effects
      (rows_request s queries workspaceId' caller request).symm
    rw [hrows]
    exact h.of_rows (mem_serve hop)

/-- While an agent holds a task, nobody else is handed it. -/
theorem agent_of_held {s : State} (hkeyed : Keyed Task.id (db s).tasks (db s).nextTaskId)
    {taskId workspaceId : Nat} {agent : String} (h : Held (db s) taskId workspaceId agent)
    {poll : Poll} (hpoll : HandedOut s poll taskId) : poll.agent = agent := by
  obtain ⟨t, ht, rfl, hworkspace, hstatus, hagent⟩ := h
  rcases hpoll with hfresh | ⟨-, t', ht', hid, -, -, hagent'⟩
  · obtain ⟨candidate, hpick, heq⟩ | ⟨-, hnone⟩ := pollQueue_cases
      (poll.queries.context s.world poll.workspaceId poll.caller) (db s) poll.agentParam
      poll.agentHeader poll.maxCapacityParam
    · rw [Poll.response, heq] at hfresh
      have hcandidate := List.mem_filter.mp
        ((poll.queries.context s.world poll.workspaceId poll.caller).nextTask.mem _ _ hpick)
      have hid : candidate.id = t.id := by simpa using hfresh
      obtain rfl := hkeyed.eq_of_key hcandidate.1 ht hid
      simp [claimable, hstatus] at hcandidate
    · exact absurd hfresh (hnone t.id)
  · obtain rfl := hkeyed.eq_of_key ht' ht hid
    exact Option.some.inj (hagent'.symm.trans hagent)

/-- A task that is handed out is held by the agent of the poll. -/
theorem held_of_handedOut {s : State} {poll : Poll} {taskId : Nat} (h : HandedOut s poll taskId) :
    Held (db (perform s poll.operation)) taskId poll.workspaceId poll.agent := by
  rcases h with hfresh | ⟨-, hheld⟩
  · obtain ⟨effects, hrows⟩ := exists_effects
      (rows_request s poll.queries poll.workspaceId poll.caller
        (.pollQueue poll.agentParam poll.agentHeader poll.maxCapacityParam)).symm
    obtain ⟨candidate, hpick, heq⟩ | ⟨-, hnone⟩ := pollQueue_cases
      (poll.queries.context s.world poll.workspaceId poll.caller) (db s) poll.agentParam
      poll.agentHeader poll.maxCapacityParam
    · rw [Poll.response, heq] at hfresh
      have hid : candidate.id = taskId := by simpa using hfresh
      obtain ⟨hmem, hclaimable⟩ := List.mem_filter.mp
        ((poll.queries.context s.world poll.workspaceId poll.caller).nextTask.mem _ _ hpick)
      have hworkspace : candidate.workspaceId = poll.workspaceId := by
        simp only [claimable, decide_eq_true_eq] at hclaimable
        exact hclaimable.1
      have hserve : serve (poll.queries.context s.world poll.workspaceId poll.caller) (db s)
          (.pollQueue poll.agentParam poll.agentHeader poll.maxCapacityParam) = _ := heq
      rw [Poll.operation, hrows, hserve]
      refine ⟨_, List.mem_map_of_mem hmem, ?_⟩
      rw [if_pos ⟨rfl, hworkspace⟩, claimed, if_pos hclaimable]
      exact ⟨hid, hworkspace, rfl, rfl⟩
    · exact absurd hfresh (hnone taskId)
  · exact held_perform hheld not_false

/-! ### The order -/

/-- Urgent tasks are as important as critical ones. -/
def promisedRank : TaskPriority → Nat
  | .urgent => 0
  | .critical => 0
  | .high => 1
  | .medium => 2
  | .low => 3

/-- The earlier due date, then the earlier creation. -/
abbrev NoLater : Task → Task → Prop :=
  ThenBy (fun a b => DueOrder a.dueDate b.dueDate) fun a b => a.createdAt ≤ b.createdAt

abbrev PromisedOrder : Task → Task → Prop :=
  ThenBy (fun a b => promisedRank a.priority ≤ promisedRank b.priority) NoLater

/-- All tasks are urgent, or every urgent one has a critical one beside it that is no later. -/
def UrgentNotFirst (rows : List Task) : Prop :=
  (∀ t ∈ rows, t.priority = .urgent) ∨
    ∀ u ∈ rows, u.priority = .urgent → ∃ t ∈ rows, t.priority = .critical ∧ NoLater t u

theorem queueOrder_iff {a b : Task} : QueueOrder a b ↔
    queueRank a.priority ≤ queueRank b.priority ∧
      (queueRank b.priority ≤ queueRank a.priority → NoLater a b) :=
  Iff.rfl

theorem promisedOrder_iff {a b : Task} : PromisedOrder a b ↔
    promisedRank a.priority ≤ promisedRank b.priority ∧
      (promisedRank b.priority ≤ promisedRank a.priority → NoLater a b) :=
  Iff.rfl

theorem sorts_noLater : Sorts NoLater := by
  refine Sorts.thenBy ⟨?_, ?_⟩ (sorts_by_key Task.createdAt)
  · exact fun a b => sorts_due.total a.dueDate b.dueDate
  · exact fun a b c => sorts_due.trans a.dueDate b.dueDate c.dueDate

theorem queueRank_of_ne_urgent {priority : TaskPriority} (h : priority ≠ .urgent) :
    queueRank priority = promisedRank priority ∧ queueRank priority < queueRank .urgent := by
  cases priority <;> simp [queueRank, promisedRank] at h ⊢

theorem critical_of_rank {priority : TaskPriority} :
    (queueRank priority ≤ queueRank .critical → priority = .critical) ∧
      (queueRank .urgent ≤ queueRank priority → priority = .urgent) := by
  cases priority <;> simp [queueRank]

/-- The first task in the order of the queue is one that is promised to come first. -/
theorem promised_iff {rows : List Task} {candidate : Task} (hmem : candidate ∈ rows)
    (hleast : ∀ t ∈ rows, QueueOrder candidate t) :
    (∀ t ∈ rows, PromisedOrder candidate t) ↔ UrgentNotFirst rows := by
  constructor
  · intro hpromised
    by_cases hurgent : candidate.priority = .urgent
    · left
      intro t ht
      have hrank := (queueOrder_iff.mp (hleast t ht)).1
      rw [hurgent] at hrank
      exact critical_of_rank.2 hrank
    · right
      intro u hu hpriority
      obtain ⟨hrank, hlater⟩ := promisedOrder_iff.mp (hpromised u hu)
      rw [hpriority] at hrank hlater
      have hcritical : candidate.priority = .critical := by
        apply critical_of_rank.1
        rw [(queueRank_of_ne_urgent hurgent).1]
        exact hrank
      exact ⟨candidate, hmem, hcritical, hlater (Nat.zero_le _)⟩
  · intro hrows t ht
    obtain ⟨hrank, hlater⟩ := queueOrder_iff.mp (hleast t ht)
    rw [promisedOrder_iff]
    by_cases hpriority : t.priority = .urgent
    · rcases hrows with hall | hcritical
      · rw [hall candidate hmem, hpriority] at hlater
        rw [hall candidate hmem, hpriority]
        exact ⟨Nat.le_refl _, fun _ => hlater (Nat.le_refl _)⟩
      · obtain ⟨c, hc, hcpriority, hcu⟩ := hcritical t ht hpriority
        obtain ⟨hcrank, hclater⟩ := queueOrder_iff.mp (hleast c hc)
        rw [hcpriority] at hcrank hclater
        have hcandidate := critical_of_rank.1 hcrank
        rw [hcandidate] at hclater
        rw [hcandidate]
        exact ⟨Nat.zero_le _,
          fun _ => sorts_noLater.trans candidate c t (hclater (Nat.le_refl _)) hcu⟩
    · obtain ⟨hsame, hlt⟩ := queueRank_of_ne_urgent hpriority
      have hcandidate : candidate.priority ≠ .urgent := by
        intro hurgent
        rw [hurgent] at hrank
        omega
      obtain ⟨hsame', -⟩ := queueRank_of_ne_urgent hcandidate
      rw [hsame, hsame'] at hrank hlater
      exact ⟨hrank, hlater⟩

/-! ### Runs -/

/-- The task is first, among those that the agent may get, in the promised order. -/
def Best (db : Db) (poll : Poll) (taskId : Nat) : Prop :=
  ∃ row ∈ eligible db poll.workspaceId poll.agent, row.id = taskId ∧
    ∀ t ∈ eligible db poll.workspaceId poll.agent, PromisedOrder row t

theorem best_iff {s : State} (hkeyed : Keyed Task.id (db s).tasks (db s).nextTaskId) {poll : Poll}
    {taskId : Nat} (h : poll.response s = .task 200 taskId) :
    Best (db s) poll taskId ↔ UrgentNotFirst (eligible (db s) poll.workspaceId poll.agent) := by
  obtain ⟨candidate, hpick, heq⟩ | ⟨-, hnone⟩ := pollQueue_cases
    (poll.queries.context s.world poll.workspaceId poll.caller) (db s) poll.agentParam
    poll.agentHeader poll.maxCapacityParam
  · rw [Poll.response, heq] at h
    have hid : candidate.id = taskId := by simpa using h
    have hmem := (poll.queries.context s.world poll.workspaceId poll.caller).nextTask.mem _ _ hpick
    have hleast := (poll.queries.context s.world poll.workspaceId poll.caller).nextTask.least _ _ hpick
    refine Iff.trans ?_ (promised_iff hmem hleast)
    constructor
    · rintro ⟨row, hrow, hrowid, hbest⟩
      obtain rfl := hkeyed.eq_of_key (List.mem_of_mem_filter hrow) (List.mem_of_mem_filter hmem)
        (hrowid.trans hid.symm)
      exact hbest
    · intro hbest
      exact ⟨candidate, hmem, hid, hbest⟩
  · exact absurd h (hnone taskId)

/-- A task that is handed out is held by the agent until an update ends that, meanwhile nobody else
is handed it, and it comes first in the promised order exactly if the urgent tasks among those that
the agent may get are not to come before it. -/
theorem queue_dispatch {start s : State} (trace : List Operation)
    (hkeyed : Keyed Task.id (db start).tasks (db start).nextTaskId)
    (hrun : machine.run start trace = some s) (poll : Poll) (taskId : Nat)
    (hpoll : HandedOut s poll taskId) :
    Held (db (perform s poll.operation)) taskId poll.workspaceId poll.agent ∧
    (∀ later s', machine.Meets (fun s op => IsUpdate op →
        Held (db (perform s op)) taskId poll.workspaceId poll.agent) (perform s poll.operation) later →
      machine.run (perform s poll.operation) later = some s' →
      Held (db s') taskId poll.workspaceId poll.agent ∧
        ∀ poll', HandedOut s' poll' taskId → poll'.agent = poll.agent) ∧
    (poll.response s = .task 200 taskId → (Best (db s) poll taskId ↔
      UrgentNotFirst (eligible (db s) poll.workspaceId poll.agent))) := by
  have hkept : ∀ s op s', Keyed Task.id (db s).tasks (db s).nextTaskId →
      machine.step s op = some s' → Keyed Task.id (db s').tasks (db s').nextTaskId := by
    intro s op s' h hstep
    obtain rfl := Option.some.inj hstep
    exact keyed_perform h op
  have hhere := Machine.invariant_of_run hkept hkeyed hrun
  have hheld := held_of_handedOut hpoll
  refine ⟨hheld, ?_, best_iff hhere⟩
  intro later s' hmeets hlater
  have hkeyed' := Machine.invariant_of_run hkept (keyed_perform hhere poll.operation) hlater
  have hpreserved : ∀ s op s', Held (db s) taskId poll.workspaceId poll.agent →
      (IsUpdate op → Held (db (perform s op)) taskId poll.workspaceId poll.agent) →
      machine.step s op = some s' → Held (db s') taskId poll.workspaceId poll.agent := by
    intro s op s' h hguard hstep
    obtain rfl := Option.some.inj hstep
    by_cases hop : IsUpdate op
    · exact hguard hop
    · exact held_perform h hop
  have hend := Machine.run_invariant hpreserved hheld hmeets hlater
  exact ⟨hend, fun poll' hpoll' => agent_of_held hkeyed' hend hpoll'⟩

/-- A task of low priority, and an urgent one that the Conductor has queued for the helper. -/
def sampleTrace : List Operation :=
  [sampleOperation (.postTask (.object [("title", .string "Tidy up"), ("priority", .string "low")])),
    .files (sampleDisk [.wellFormed
      { sampleConductorTask "acme-1" "queued" with tmuxSession := "helper", modelTier := 1 }]),
    .syncConductor sampleDraws]

def samplePoll : Poll := ⟨sampleQueries, 1, ⟨"operator", none⟩, "helper", "", ""⟩

theorem keyed_sampleState : Keyed Task.id (db sampleState).tasks (db sampleState).nextTaskId :=
  ⟨by decide, by decide⟩

theorem queue_dispatch_sample : ∃ s, machine.run sampleState sampleTrace = some s ∧
    Held (db (perform s samplePoll.operation)) 2 1 "helper" ∧
    (∀ later s', machine.Meets (fun s op => IsUpdate op → Held (db (perform s op)) 2 1 "helper")
        (perform s samplePoll.operation) later →
      machine.run (perform s samplePoll.operation) later = some s' →
      Held (db s') 2 1 "helper" ∧ ∀ poll', HandedOut s' poll' 2 → poll'.agent = "helper") ∧
    (Best (db s) samplePoll 2 ↔ UrgentNotFirst (eligible (db s) 1 "helper")) := by
  have hagent : samplePoll.agent = "helper" := by decide +kernel
  have hresponse : (machine.run sampleState sampleTrace).map samplePoll.response =
      some (.task 200 2) := by
    decide +kernel
  obtain ⟨s, hrun, hs⟩ := Option.map_eq_some_iff.mp hresponse
  obtain ⟨hheld, hlater, hbest⟩ :=
    queue_dispatch sampleTrace keyed_sampleState hrun samplePoll 2 (.inl hs)
  rw [hagent] at hheld hlater hbest
  exact ⟨s, hrun, hheld, hlater, hbest hs⟩

/-- The task of low priority is handed out before the urgent one. -/
theorem urgent_task_passed_over : ∃ s, machine.run sampleState sampleTrace = some s ∧
    samplePoll.response s = .task 200 2 ∧ ¬ Best (db s) samplePoll 2 := by
  have hresponse : (machine.run sampleState sampleTrace).any (fun s =>
      samplePoll.response s = .task 200 2 ∧
        (eligible (db s) samplePoll.workspaceId samplePoll.agent).map
          (fun t => (t.id, t.priority)) = [(2, .low), (3, .urgent)]) = true := by
    decide +kernel
  obtain ⟨s, hrun, hs⟩ := (Option.any_eq_true ..).mp hresponse
  obtain ⟨hs, hrows⟩ := of_decide_eq_true hs
  refine ⟨s, hrun, hs, ?_⟩
  rintro ⟨row, hrow, hid, hbest⟩
  have hurgent : (3, TaskPriority.urgent) ∈
      (eligible (db s) samplePoll.workspaceId samplePoll.agent).map fun t => (t.id, t.priority) := by
    simp [hrows]
  obtain ⟨t, ht, hpriority⟩ := List.mem_map.mp hurgent
  have hlow : (row.id, row.priority) ∈
      (eligible (db s) samplePoll.workspaceId samplePoll.agent).map fun t => (t.id, t.priority) :=
    List.mem_map_of_mem hrow
  rw [hrows, hid] at hlow
  have hrank := (promisedOrder_iff.mp (hbest t ht)).1
  simp only [List.mem_cons, Prod.mk.injEq, true_and, List.not_mem_nil, or_false] at hlow
  rcases hlow with hlow | ⟨hcontra, -⟩
  · rw [hlow, (Prod.mk.inj hpriority).2] at hrank
    cases hrank
  · cases hcontra

end MissionControl.Workload.Dispatch
