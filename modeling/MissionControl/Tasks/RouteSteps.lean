import MissionControl.Tasks.Routes

/-!
What one request of the task API can do to the tables: insert a task under a fresh number,
rewrite tasks in place, move one task to another project, or insert a review.
-/

set_option autoImplicit false
set_option relaxedAutoImplicit false

namespace MissionControl.Tasks.RouteSteps

open MissionControl.Foundations
open MissionControl.Foundations.Schema (Json)
open MissionControl.Foundations.Transition (Machine)
open Validation Database Routes

inductive Request where
  | postTask (json : Json)
  | putTasks (json : Json)
  | putTask (taskId : Nat) (json : Json)
  | pollQueue (agentParam agentHeader maxCapacityParam : String)
  | postReview (json : Json)
  | nimbusTask (params : NimbusTask)

/-- Serve a request; it is never refused by the state, only answered with an error. -/
def serve (ctx : Context) (db : Db) : Request → Db × Response
  | .postTask json => postTask ctx db json
  | .putTasks json => putTasks ctx db json
  | .putTask taskId json => putTask ctx db taskId json
  | .pollQueue agentParam agentHeader maxCapacityParam =>
    pollQueue ctx db agentParam agentHeader maxCapacityParam
  | .postReview json => postReview ctx db json
  | .nimbusTask params => nimbusTask ctx db params

def machine : Machine Db (Context × Request) := ⟨fun db ev => some (serve ev.1 db ev.2).1⟩

/-- The columns that number a task. -/
def ticket (task : Task) : Option Nat × Option Nat := (task.projectId, task.projectTicketNo)

/-- Every row keeps its identity. -/
def KeepsRow (g : Task → Task) : Prop :=
  ∀ t, (g t).id = t.id ∧ (g t).workspaceId = t.workspaceId

/-- Every task keeps the columns that number it. -/
def KeepsTicket (db : Db) (g : Task → Task) : Prop := ∀ t ∈ db.tasks, ticket (g t) = ticket t

/-- A task that a rewriting makes done is approved in the workspace of the request. -/
def Gated (ctx : Context) (db : Db) (g : Task → Task) : Prop :=
  ∀ t ∈ db.tasks, (g t).status = .done → t.status = .done ∨
    t.workspaceId = ctx.user.workspaceId ∧ hasAegisApproval ctx db t.id = true

/-- A rewriting of tasks in place that leaves their numbers alone. -/
structure Rewrites (ctx : Context) (db : Db) (g : Task → Task) : Prop where
  row : KeepsRow g
  gate : Gated ctx db g
  number : KeepsTicket db g

/-- The review that a request inserts. -/
structure Reviews (ctx : Context) (db : Db) (review : Review) : Prop where
  task : ∃ t ∈ db.tasks, t.id = review.taskId ∧ t.workspaceId = ctx.user.workspaceId
  workspaceId : review.workspaceId = ctx.user.workspaceId

/-- Every way one request changes the tables. -/
inductive Change (ctx : Context) (db : Db) : Request → Db → Prop
  | kept {request : Request} {effects : List Effect} :
      Change ctx db request { db with effects := effects }
  | created {request : Request} {task : Task} {project : Project} {effects : List Effect}
      (row : db.project? ctx.user.workspaceId project.id = some project)
      (id : task.id = db.nextTaskId) (workspaceId : task.workspaceId = ctx.user.workspaceId)
      (number : ticket task = (some project.id, some (project.ticketCounter + 1))) :
      Change ctx db request
        { insertTask (db.updateProject ctx.user.workspaceId project.id raiseCounter) task with
          effects := effects }
  | rewritten {request : Request} {g : Task → Task} {effects : List Effect}
      (update : ∀ json, request ≠ .postReview json) (rewrites : Rewrites ctx db g) :
      Change ctx db request { db with tasks := db.tasks.map g, effects := effects }
  | moved {taskId : Nat} {json : Json} {f : Task → Task} {project : Project}
      {effects : List Effect} (row : db.project? ctx.user.workspaceId project.id = some project)
      (keeps : KeepsRow f) (gate : Gated ctx db fun t =>
        if t.id = taskId ∧ t.workspaceId = ctx.user.workspaceId then f t else t)
      (number : ∀ t, ticket (f t) = (some project.id, some (project.ticketCounter + 1))) :
      Change ctx db (.putTask taskId json)
        { (db.updateProject ctx.user.workspaceId project.id raiseCounter).updateTask
            ctx.user.workspaceId taskId f with effects := effects }
  | reviewed {json : Json} {review : Review} {g : Task → Task} {nextReviewId : Nat}
      {effects : List Effect} (reviews : Reviews ctx db review) (keeps : KeepsRow g)
      (gate : ∀ t, (g t).status = .done → t.status = .done ∨
        t.id = review.taskId ∧ review.reviewer = "aegis" ∧ review.status = .approved)
      (number : KeepsTicket db g) :
      Change ctx db (.postReview json)
        { db with
          tasks := db.tasks.map g
          reviews := db.reviews ++ [review]
          nextReviewId := nextReviewId
          effects := effects }

/-! ### Rewriting in place -/

section

variable {ctx : Context} {db : Db}

theorem KeepsRow.guarded {P : Task → Prop} [DecidablePred P] {f : Task → Task} (h : KeepsRow f) :
    KeepsRow fun t => if P t then f t else t := by
  intro t
  by_cases ht : P t
  · simp only [ht, if_true, h t, and_self]
  · simp only [ht, if_false, and_self]

theorem keepsTicket_guarded {P : Task → Prop} [DecidablePred P] {f : Task → Task}
    (h : ∀ t ∈ db.tasks, P t → ticket (f t) = ticket t) :
    KeepsTicket db fun t => if P t then f t else t := by
  intro t hmem
  by_cases ht : P t
  · simp only [ht, if_true, h t hmem ht]
  · simp only [ht, if_false]

theorem done_of_ite {p : Prop} [Decidable p] {a b : Task}
    (h : (if p then a else b).status = .done) : b.status = .done ∨ p ∧ a.status = .done := by
  by_cases hp : p
  · rw [if_pos hp] at h
    exact .inr ⟨hp, h⟩
  · rw [if_neg hp] at h
    exact .inl h

/-- A write to one task asks the gate about that task only. -/
theorem gated_single {taskId : Nat} {f : Task → Task}
    (gate : ∀ t, (f t).status = .done → t.status = .done ∨ hasAegisApproval ctx db taskId = true) :
    Gated ctx db fun t =>
      if t.id = taskId ∧ t.workspaceId = ctx.user.workspaceId then f t else t := by
  intro t _ hdone
  dsimp only at hdone
  rcases done_of_ite hdone with hdone | ⟨⟨rfl, hworkspace⟩, hwritten⟩
  · exact .inl hdone
  · rcases gate t hwritten with hdone | happroved
    · exact .inl hdone
    · exact .inr ⟨hworkspace, happroved⟩

theorem Rewrites.id : Rewrites ctx db fun t => t :=
  ⟨fun _ => ⟨rfl, rfl⟩, fun _ _ h => .inl h, fun _ _ => rfl⟩

theorem Rewrites.comp {g g' : Task → Task} {effects : List Effect} (h : Rewrites ctx db g)
    (h' : Rewrites ctx { db with tasks := db.tasks.map g, effects := effects } g') :
    Rewrites ctx db (g' ∘ g) := by
  constructor
  · intro t
    exact ⟨(h'.row (g t)).1.trans (h.row t).1, (h'.row (g t)).2.trans (h.row t).2⟩
  · intro t ht hdone
    rcases h'.gate (g t) (List.mem_map_of_mem ht) hdone with hdone | ⟨hworkspace, happroved⟩
    · exact h.gate t ht hdone
    · rw [(h.row t).2] at hworkspace
      rw [(h.row t).1] at happroved
      exact .inr ⟨hworkspace, happroved⟩
  · intro t ht
    exact (h'.number (g t) (List.mem_map_of_mem ht)).trans (h.number t ht)

/-- Rewriting one task: the gate is asked about that task only. -/
theorem Rewrites.single {taskId : Nat} {f : Task → Task} (keeps : KeepsRow f)
    (gate : ∀ t, (f t).status = .done → t.status = .done ∨ hasAegisApproval ctx db taskId = true)
    (number : ∀ t ∈ db.tasks, t.id = taskId ∧ t.workspaceId = ctx.user.workspaceId →
      ticket (f t) = ticket t) :
    Rewrites ctx db fun t =>
      if t.id = taskId ∧ t.workspaceId = ctx.user.workspaceId then f t else t :=
  ⟨keeps.guarded, gated_single gate, keepsTicket_guarded number⟩

private theorem emit_updateTask (workspaceId id : Nat) (f : Task → Task) (effects : List Effect) :
    (db.updateTask workspaceId id f).emit effects =
      { db with
        tasks := db.tasks.map fun t => if t.id = id ∧ t.workspaceId = workspaceId then f t else t
        effects := db.effects ++ effects } := rfl

theorem bulkItem_rewrites {db' : Db} {item : BulkItem} (h : bulkItem ctx db item = .ok db') :
    ∃ g effects, Rewrites ctx db g ∧
      db' = { db with tasks := db.tasks.map g, effects := effects } := by
  unfold bulkItem at h
  dsimp only at h
  split at h
  · obtain rfl := Except.ok.inj h
    exact ⟨fun t => t, db.effects, .id, by rw [List.map_id']⟩
  · rename_i oldTask hrow
    split at h
    · cases h
    · rename_i happroval
      obtain rfl := Except.ok.inj h
      let f : Task → Task := fun t =>
        if item.status = .done then
          { t with
            status := item.status
            updatedAt := ctx.now
            completedAt := t.completedAt.or (some ctx.now) }
        else { t with status := item.status, updatedAt := ctx.now }
      have hkeeps : KeepsRow f := by
        intro t
        by_cases hdone : item.status = .done <;> simp [f, hdone]
      have hgate : ∀ t, (f t).status = .done →
          t.status = .done ∨ hasAegisApproval ctx db item.id = true := by
        intro t hdone
        have hstatus : item.status = .done := by
          by_cases hitem : item.status = .done
          · exact hitem
          · simp [f, hitem] at hdone
        exact .inr (by simpa [hstatus] using happroval)
      have hnumber : ∀ t, ticket (f t) = ticket t := by
        intro t
        by_cases hdone : item.status = .done <;> simp [f, ticket, hdone]
      have hrewrites := Rewrites.single hkeeps hgate fun t _ _ => hnumber t
      by_cases hsame : oldTask.status = item.status
      · rw [if_pos hsame]
        exact ⟨_, db.effects, hrewrites, rfl⟩
      · rw [if_neg hsame]
        exact ⟨_, _, hrewrites, emit_updateTask ..⟩

theorem bulkItems_rewrites {items : List BulkItem} {db' : Db}
    (h : bulkItems ctx db items = .ok db') : ∃ g effects, Rewrites ctx db g ∧
      db' = { db with tasks := db.tasks.map g, effects := effects } := by
  induction items generalizing db with
  | nil =>
    obtain rfl := Except.ok.inj h
    exact ⟨fun t => t, db.effects, .id, by rw [List.map_id']⟩
  | cons item items ih =>
    unfold bulkItems at h
    split at h
    · rename_i written hitem
      obtain ⟨g, effects, hg, rfl⟩ := bulkItem_rewrites hitem
      obtain ⟨g', effects', hg', rfl⟩ := ih h
      exact ⟨g' ∘ g, effects', hg.comp hg', by rw [List.map_map]⟩
    · cases h

theorem pickup_rewrites (ctx : Context) (db : Db) (agent : String) (attempts : Nat) :
    ∃ g, Rewrites ctx db g ∧ (pickup ctx agent attempts db).1 = { db with tasks := db.tasks.map g } := by
  induction attempts with
  | zero => exact ⟨fun t => t, .id, by rw [List.map_id']; rfl⟩
  | succ attempts ih =>
    unfold pickup
    dsimp only
    split
    · exact ⟨fun t => t, .id, by rw [List.map_id']⟩
    · rename_i candidate hcandidate
      split
      · refine ⟨_, Rewrites.single (KeepsRow.guarded ?_) ?_ ?_, rfl⟩
        · exact fun t => ⟨rfl, rfl⟩
        · intro t hdone
          rcases done_of_ite hdone with hdone | ⟨-, hdone⟩
          · exact .inl hdone
          · cases hdone
        · intro t _ _
          split <;> rfl
      · exact ih

end

/-! ### One request -/

section

variable {ctx : Context} {db : Db}

theorem createTaskTx_some {requested : Option Nat} {row : (id projectId no : Nat) → Task}
    {db' : Db} (h : createTaskTx ctx db requested row = some db') : ∃ project,
      db.project? ctx.user.workspaceId project.id = some project ∧
      db' = insertTask (db.updateProject ctx.user.workspaceId project.id raiseCounter)
        (row db.nextTaskId project.id (project.ticketCounter + 1)) := by
  obtain ⟨projectId, -, h⟩ := Option.bind_eq_some_iff.mp h
  cases hrow : db.project? ctx.user.workspaceId projectId with
  | none =>
    have hread := project?_updateProject db ctx.user.workspaceId projectId
      (f := raiseCounter) fun _ => ⟨rfl, rfl⟩
    simp [allocateTicket, hread, hrow] at h
  | some project =>
    obtain rfl := project?_id hrow
    rw [allocateTicket_eq hrow] at h
    exact ⟨project, hrow, (Option.some.inj h).symm⟩

private theorem postTask_change (json : Json) :
    Change ctx db (.postTask json) (postTask ctx db json).1 := by
  unfold postTask
  dsimp only
  split
  · exact .kept
  · split
    · exact .kept
    · split
      · exact .kept
      · split
        · exact .kept
        · rename_i created hcreated
          obtain ⟨project, hrow, rfl⟩ := createTaskTx_some hcreated
          exact .created hrow rfl rfl rfl

private theorem nimbusTask_change (params : NimbusTask) :
    Change ctx db (.nimbusTask params) (nimbusTask ctx db params).1 := by
  unfold nimbusTask
  dsimp only
  split
  · exact .kept
  · rename_i created hcreated
    obtain ⟨project, hrow, rfl⟩ := createTaskTx_some hcreated
    exact .created hrow rfl rfl rfl

private theorem putTasks_change (json : Json) :
    Change ctx db (.putTasks json) (putTasks ctx db json).1 := by
  unfold putTasks
  split
  · exact .kept
  · split
    · exact .kept
    · rename_i written hitems
      obtain ⟨g, effects, hg, rfl⟩ := bulkItems_rewrites hitems
      exact .rewritten (fun _ => nofun) hg

private theorem pollQueue_change (agentParam agentHeader maxCapacityParam : String) :
    Change ctx db (.pollQueue agentParam agentHeader maxCapacityParam)
      (pollQueue ctx db agentParam agentHeader maxCapacityParam).1 := by
  unfold pollQueue
  dsimp only
  split
  · exact .kept
  · split
    · exact .kept
    · split
      · exact .kept
      · split
        · exact .kept
        · obtain ⟨g, hg, hdb⟩ := pickup_rewrites ctx db
            (JsText.orElse (JsText.trim agentParam) (JsText.trim agentHeader)) 5
          rw [hdb]
          exact .rewritten (fun _ => nofun) hg

private theorem postReview_change (json : Json) :
    Change ctx db (.postReview json) (postReview ctx db json).1 := by
  unfold postReview
  dsimp only
  split
  · exact .kept
  · rename_i review hreview
    split
    · exact .kept
    · rename_i task hrow
      obtain ⟨id, -, hrow⟩ := Option.bind_eq_some_iff.mp hrow
      have hfound := List.find?_some hrow
      simp only [decide_eq_true_eq] at hfound
      have hreviews : Reviews ctx db ⟨db.nextReviewId, task.id, review.reviewer, review.status,
          review.notes, ctx.now, ctx.user.workspaceId⟩ :=
        ⟨⟨task, List.mem_of_find?_eq_some hrow, rfl, hfound.2⟩, rfl⟩
      split
      · rename_i happroved
        refine .reviewed hreviews (KeepsRow.guarded ?_) ?_ (keepsTicket_guarded ?_)
        · exact fun t => ⟨rfl, rfl⟩
        · intro t hdone
          rcases done_of_ite hdone with hdone | ⟨⟨hid, -⟩, -⟩
          · exact .inl hdone
          · exact .inr ⟨hid, happroved.2, happroved.1⟩
        · exact fun _ _ _ => rfl
      · have hlogged := @Change.reviewed ctx db json _ (fun t => t) (db.nextReviewId + 1)
          (db.effects ++ [.activity ctx.user.workspaceId "quality_review" task.id review.reviewer
            ("Quality review " ++ review.status.text ++ " for task: " ++ task.title)])
          hreviews (fun _ => ⟨rfl, rfl⟩) (fun _ h => .inl h) fun _ _ => rfl
        rw [List.map_id'] at hlogged
        exact hlogged

/-- What a move comes to, with the row of the project that a number is taken from. -/
private theorem moveProject_cases (ctx : Context) (db : Db) (task : Task)
    (projectId : Option Nat) :
    (∃ response, moveProject ctx db task projectId = (db, .error response)) ∨
    (moveProject ctx db task projectId = (db, .ok none) ∧ projectId.or task.projectId = task.projectId) ∨
    ∃ project, db.project? ctx.user.workspaceId project.id = some project ∧
      projectId = some project.id ∧ moveProject ctx db task projectId =
        (db.updateProject ctx.user.workspaceId project.id raiseCounter,
          .ok (some (project.ticketCounter + 1))) := by
  cases projectId with
  | none => exact .inr (.inl ⟨rfl, rfl⟩)
  | some id =>
    cases hrow : db.project? ctx.user.workspaceId id with
    | none => exact .inl ⟨_, by simp only [moveProject, hrow]; rfl⟩
    | some project =>
      obtain rfl := project?_id hrow
      by_cases hactive : project.status = .active
      · by_cases hsame : task.projectId = some project.id
        · exact .inr (.inl ⟨by simp [moveProject, hrow, hactive, hsame], hsame.symm⟩)
        · refine .inr (.inr ⟨project, hrow, rfl, ?_⟩)
          simp [moveProject, hrow, hactive, hsame, allocateTicket_eq hrow]
      · exact .inl ⟨.error 400 "Project not found or archived", by
          simp [moveProject, hrow, hactive]⟩

/-- An update makes a task done only when its normalized status says so. -/
private theorem done_of_updatedTask {body : TaskBody} {status : Option TaskStatus}
    {ticketNo : Option Nat} {now : Nat} {t : Task}
    (h : (updatedTask body status ticketNo now t).status = .done) :
    t.status = .done ∨ status = some .done := by
  cases status with
  | none => exact .inl h
  | some status => exact .inr (congrArg some h)

private theorem fieldsToUpdate_ne_nil {body : TaskBody} {status : Option TaskStatus}
    (h : (body .project_id).isSome = true) : fieldsToUpdate body status ≠ [] := by
  intro hempty
  have hmem : TaskField.project_id ∈ fieldsToUpdate body status := by
    simp [fieldsToUpdate, TaskField.all, h]
  rw [hempty] at hmem
  cases hmem

private theorem putTask_change (unique : (db.tasks.map Task.id).Nodup) (taskId : Nat) (json : Json) :
    Change ctx db (.putTask taskId json) (putTask ctx db taskId json).1 := by
  unfold putTask
  dsimp only
  split
  · exact .kept
  · rename_i body hbody
    split
    · exact .kept
    · rename_i currentTask hrow
      split
      · exact .kept
      · split
        · exact .kept
        · rename_i happroval
          have hgate : ∀ ticketNo t, (updatedTask body (normalizeTaskUpdateStatus currentTask.status
              (body .status) (body .assigned_to) (body .assigned_to).isSome) ticketNo ctx.now
                t).status = .done → t.status = .done ∨ hasAegisApproval ctx db taskId = true := by
            intro ticketNo t hdone
            rcases done_of_updatedTask hdone with hdone | hdone
            · exact .inl hdone
            · exact .inr (by simpa [hdone] using happroval)
          rcases moveProject_cases ctx db currentTask (body .project_id) with
            ⟨response, hmove⟩ | ⟨hmove, hsame⟩ | ⟨project, hproject, hid, hmove⟩
          · rw [hmove]
            exact .kept
          · rw [hmove]
            dsimp only
            split
            · exact .kept
            · refine .rewritten (fun _ => nofun) (Rewrites.single (fun _ => ⟨rfl, rfl⟩) (hgate none) ?_)
              intro t hmem ht
              have hcurrent : t = currentTask := task?_unique unique hrow hmem ht.1
              subst hcurrent
              simp only [ticket, updatedTask, hsame, Option.none_or]
          · rw [hmove]
            dsimp only
            split
            · exact absurd ‹_› (fieldsToUpdate_ne_nil (by simp [hid]))
            · exact .moved hproject (fun _ => ⟨rfl, rfl⟩) (gated_single (hgate _)) fun t => by
                simp [ticket, updatedTask, hid]

theorem serve_change (unique : (db.tasks.map Task.id).Nodup) (request : Request) :
    Change ctx db request (serve ctx db request).1 := by
  cases request with
  | postTask json => exact postTask_change json
  | putTasks json => exact putTasks_change json
  | putTask taskId json => exact putTask_change unique taskId json
  | pollQueue agentParam agentHeader maxCapacityParam =>
    simp only [serve]
    exact pollQueue_change agentParam agentHeader maxCapacityParam
  | postReview json => exact postReview_change json
  | nimbusTask params => exact nimbusTask_change params

end

end MissionControl.Tasks.RouteSteps
