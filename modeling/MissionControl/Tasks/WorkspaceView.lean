import MissionControl.Foundations.Noninterference
import MissionControl.Tasks.RouteSteps

/-!
The rows of one workspace. A request is served from the rows of its own workspace, and writes
nothing else. So two runs in which a workspace makes the same requests answer it alike and leave it
the same rows, whatever the other workspaces do.
-/

set_option autoImplicit false
set_option relaxedAutoImplicit false

namespace MissionControl.Tasks.WorkspaceView

open MissionControl.Foundations.Lists
open MissionControl.Foundations.Noninterference (Unwinds)
open MissionControl.Foundations.Query
open MissionControl.Foundations.Schema (Json)
open MissionControl.Foundations.Transition (Machine)
open Validation Database Routes
open RouteSteps hiding machine

/-- The rows of a workspace. -/
def view (workspaceId : Nat) (db : Db) : Db :=
  { db with
    tasks := db.tasks.filter fun t => t.workspaceId = workspaceId
    projects := db.projects.filter fun p => p.workspaceId = workspaceId
    reviews := db.reviews.filter fun r => r.workspaceId = workspaceId }

variable {ctx : Context} {db db' : Db} {workspaceId : Nat}

/-! ### Queries -/

theorem task?_view (db : Db) (workspaceId id : Nat) :
    (view workspaceId db).task? workspaceId id = db.task? workspaceId id :=
  find?_filter_of_imp fun t _ ht => by simp_all

theorem project?_view (db : Db) (workspaceId id : Nat) :
    (view workspaceId db).project? workspaceId id = db.project? workspaceId id :=
  find?_filter_of_imp fun p _ hp => by simp_all

theorem hasAegisApproval_view (h : ctx.user.workspaceId = workspaceId) (taskId : Nat) :
    hasAegisApproval ctx (view workspaceId db) taskId = hasAegisApproval ctx db taskId := by
  have hreviews : (view workspaceId db).aegisReviews ctx.user.workspaceId taskId =
      db.aegisReviews ctx.user.workspaceId taskId := by
    subst h
    exact filter_filter_of_imp fun r _ hr => by simp_all
  rw [hasAegisApproval, hasAegisApproval, hreviews]

theorem resolveProjectId_view (db : Db) (workspaceId : Nat) (requested : Option Nat) :
    resolveProjectId (view workspaceId db) workspaceId requested =
      resolveProjectId db workspaceId requested := by
  have hactive : ((view workspaceId db).projects.filter fun p =>
      p.workspaceId = workspaceId ∧ p.status = .active) =
      db.projects.filter fun p => p.workspaceId = workspaceId ∧ p.status = .active :=
    filter_filter_of_imp fun p _ hp => by simp_all
  rw [resolveProjectId, resolveProjectId]
  simp only [hactive]

theorem any_view {p : Task → Bool} (hp : ∀ t, p t = true → t.workspaceId = workspaceId) :
    (view workspaceId db).tasks.any p = db.tasks.any p :=
  any_filter_of_imp fun t _ ht => by simp [hp t ht]

theorem filter_view {p : Task → Bool} (hp : ∀ t, p t = true → t.workspaceId = workspaceId) :
    (view workspaceId db).tasks.filter p = db.tasks.filter p :=
  filter_filter_of_imp fun t _ ht => by simp [hp t ht]

/-! ### Writes -/

theorem view_updateTask {f : Task → Task} (hf : KeepsRow f) (id : Nat) :
    view workspaceId (db.updateTask workspaceId id f) =
      (view workspaceId db).updateTask workspaceId id f := by
  simp only [view, Db.updateTask, Db.mk.injEq, and_true]
  apply filter_map_of_keeps
  intro t
  split
  · rw [(hf t).2]
  · rfl

theorem view_updateProject (id : Nat) :
    view workspaceId (db.updateProject workspaceId id raiseCounter) =
      (view workspaceId db).updateProject workspaceId id raiseCounter := by
  simp only [view, Db.updateProject, Db.mk.injEq, and_true, true_and]
  apply filter_map_of_keeps
  intro p
  split
  · rfl
  · rfl

theorem view_allocateTicket (db : Db) (workspaceId projectId : Nat) :
    allocateTicket (view workspaceId db) workspaceId projectId =
      (view workspaceId (allocateTicket db workspaceId projectId).1,
        (allocateTicket db workspaceId projectId).2) := by
  simp only [allocateTicket, ← view_updateProject, project?_view]

theorem view_insertTask {task : Task} (h : task.workspaceId = workspaceId) :
    view workspaceId (insertTask db task) = insertTask (view workspaceId db) task := by
  simp [view, insertTask, h]

theorem view_emit (effects : List Effect) :
    view workspaceId (db.emit effects) = (view workspaceId db).emit effects := rfl

/-! ### Requests -/

theorem createTaskTx_view (h : ctx.user.workspaceId = workspaceId) (requested : Option Nat)
    {row : (id projectId ticketNo : Nat) → Task}
    (hrow : ∀ id projectId ticketNo, (row id projectId ticketNo).workspaceId = workspaceId) :
    createTaskTx ctx (view workspaceId db) requested row =
      (createTaskTx ctx db requested row).map (view workspaceId) := by
  subst h
  simp only [createTaskTx, resolveProjectId_view, view_allocateTicket]
  cases resolveProjectId db ctx.user.workspaceId requested with
  | none => rfl
  | some projectId =>
    simp only [Option.bind_some, Option.map_map]
    congr 1
    funext no
    exact (view_insertTask (hrow _ _ _)).symm

theorem postTask_view (h : ctx.user.workspaceId = workspaceId) (json : Json) :
    postTask ctx (view workspaceId db) json =
      (view workspaceId (postTask ctx db json).1, (postTask ctx db json).2) := by
  have htaken : ∀ title, ((view workspaceId db).tasks.any fun t =>
      t.title = title ∧ t.workspaceId = workspaceId) =
      db.tasks.any fun t => t.title = title ∧ t.workspaceId = workspaceId :=
    fun title => any_view fun t ht => (of_decide_eq_true ht).2
  have hcreated : ∀ (body : TaskBody) title actor,
      createTaskTx ctx (view workspaceId db) (body .project_id) (newTask ctx body title actor) =
        (createTaskTx ctx db (body .project_id) (newTask ctx body title actor)).map
          (view workspaceId) :=
    fun body title actor => createTaskTx_view h _ fun _ _ _ => h
  unfold postTask
  rw [h]
  simp only [htaken, hcreated]
  cases validateBody createTaskSchema json with
  | error issues => rfl
  | ok body =>
    dsimp only
    split
    · rfl
    · split
      · rfl
      · cases createTaskTx ctx db (body .project_id) _ with
        | none => rfl
        | some created => rfl

theorem bulkItem_view (h : ctx.user.workspaceId = workspaceId) (item : BulkItem) :
    bulkItem ctx (view workspaceId db) item = (bulkItem ctx db item).map (view workspaceId) := by
  unfold bulkItem
  rw [h]
  simp only [task?_view, hasAegisApproval_view h]
  cases db.task? workspaceId item.id with
  | none => rfl
  | some old =>
    dsimp only
    have hwritten : ∀ f : Task → Task, KeepsRow f →
        (view workspaceId db).updateTask workspaceId item.id f =
          view workspaceId (db.updateTask workspaceId item.id f) :=
      fun f hf => (view_updateTask hf item.id).symm
    rw [hwritten]
    · split
      · rfl
      · split
        · rfl
        · rfl
    · intro t
      split
      · exact ⟨rfl, rfl⟩
      · exact ⟨rfl, rfl⟩

theorem bulkItems_view (h : ctx.user.workspaceId = workspaceId) (items : List BulkItem) (db : Db) :
    bulkItems ctx (view workspaceId db) items =
      (bulkItems ctx db items).map (view workspaceId) := by
  induction items generalizing db with
  | nil => rfl
  | cons item items ih =>
    simp only [bulkItems, bulkItem_view h]
    cases bulkItem ctx db item with
    | error message => rfl
    | ok db => exact ih db

theorem putTasks_view (h : ctx.user.workspaceId = workspaceId) (json : Json) :
    putTasks ctx (view workspaceId db) json =
      (view workspaceId (putTasks ctx db json).1, (putTasks ctx db json).2) := by
  unfold putTasks
  cases parseBulkUpdate json with
  | error issues => rfl
  | ok items =>
    simp only [bulkItems_view h]
    cases bulkItems ctx db items with
    | error message => rfl
    | ok db => rfl

theorem moveProject_view (h : ctx.user.workspaceId = workspaceId) (task : Task)
    (projectId : Option Nat) :
    moveProject ctx (view workspaceId db) task projectId =
      (view workspaceId (moveProject ctx db task projectId).1,
        (moveProject ctx db task projectId).2) := by
  unfold moveProject
  rw [h]
  cases projectId with
  | none => rfl
  | some projectId =>
    simp only [project?_view, view_allocateTicket]
    split
    · rfl
    · split
      · rfl
      · rcases allocateTicket db workspaceId projectId with ⟨db, _ | no⟩
        · rfl
        · rfl

theorem keepsRow_updatedTask (body : TaskBody) (status : Option TaskStatus) (no : Option Nat)
    (now : Nat) : KeepsRow (updatedTask body status no now) :=
  fun _ => ⟨rfl, rfl⟩

theorem putTask_view (h : ctx.user.workspaceId = workspaceId) (taskId : Nat) (json : Json) :
    putTask ctx (view workspaceId db) taskId json =
      (view workspaceId (putTask ctx db taskId json).1, (putTask ctx db taskId json).2) := by
  unfold putTask
  rw [h]
  simp only [task?_view, hasAegisApproval_view h, moveProject_view h]
  cases validateBody updateTaskSchema json with
  | error issues => rfl
  | ok body =>
    dsimp only
    cases db.task? workspaceId taskId with
    | none => rfl
    | some task =>
      dsimp only
      split
      · rfl
      · split
        · rfl
        · rcases moveProject ctx db task (body .project_id) with ⟨db, response | no⟩
          · rfl
          · dsimp only
            split
            · rfl
            · rw [← view_updateTask (keepsRow_updatedTask body _ no ctx.now)]
              rfl

theorem pickup_view (h : ctx.user.workspaceId = workspaceId) (agent : String) (attempts : Nat)
    (db : Db) :
    pickup ctx agent attempts (view workspaceId db) =
      (view workspaceId (pickup ctx agent attempts db).1, (pickup ctx agent attempts db).2) := by
  have hclaimable : ∀ t, claimable workspaceId agent t = true → t.workspaceId = workspaceId :=
    fun t ht => (of_decide_eq_true ht).1
  induction attempts generalizing db with
  | zero => rfl
  | succ attempts ih =>
    simp only [pickup, h, filter_view hclaimable]
    cases ctx.nextTask.pick (db.tasks.filter (claimable workspaceId agent)) with
    | none => rfl
    | some candidate =>
      dsimp only
      rw [any_view fun t ht => hclaimable t (of_decide_eq_true ht).2]
      split
      · rw [← view_updateTask]
        intro t
        dsimp only
        split
        · exact ⟨rfl, rfl⟩
        · exact ⟨rfl, rfl⟩
      · exact ih db

theorem pollQueue_view (h : ctx.user.workspaceId = workspaceId)
    (agentParam agentHeader maxCapacityParam : String) :
    pollQueue ctx (view workspaceId db) agentParam agentHeader maxCapacityParam =
      (view workspaceId (pollQueue ctx db agentParam agentHeader maxCapacityParam).1,
        (pollQueue ctx db agentParam agentHeader maxCapacityParam).2) := by
  unfold pollQueue
  rw [h]
  dsimp only
  rw [filter_view fun t ht => (of_decide_eq_true ht).1, pickup_view h]
  split
  · rfl
  · split
    · rfl
    · split
      · rfl
      · split
        · rfl
        · rfl

theorem postReview_view (h : ctx.user.workspaceId = workspaceId) (json : Json) :
    postReview ctx (view workspaceId db) json =
      (view workspaceId (postReview ctx db json).1, (postReview ctx db json).2) := by
  unfold postReview
  rw [h]
  cases parseReview json with
  | error issues => rfl
  | ok review =>
    have hfound : ((rowId review.taskId).bind ((view workspaceId db).task? workspaceId)) =
        (rowId review.taskId).bind (db.task? workspaceId) := by
      congr 1
      funext id
      exact task?_view db workspaceId id
    dsimp only
    rw [hfound]
    cases (rowId review.taskId).bind (db.task? workspaceId) with
    | none => rfl
    | some task =>
      have hinserted : ∀ review : Review, review.workspaceId = workspaceId →
          view workspaceId { db with
            reviews := db.reviews ++ [review], nextReviewId := db.nextReviewId + 1 } =
          { view workspaceId db with
            reviews := (view workspaceId db).reviews ++ [review]
            nextReviewId := (view workspaceId db).nextReviewId + 1 } := by
        intro review hreview
        simp [view, hreview]
      dsimp only
      rw [← hinserted _ rfl, ← view_emit, ← view_updateTask]
      · split
        · rfl
        · rfl
      · exact fun t => ⟨rfl, rfl⟩

theorem nimbusTask_view (h : ctx.user.workspaceId = workspaceId) (params : NimbusTask) :
    nimbusTask ctx (view workspaceId db) params =
      (view workspaceId (nimbusTask ctx db params).1, (nimbusTask ctx db params).2) := by
  unfold nimbusTask
  dsimp only
  rw [createTaskTx_view h _ fun _ _ _ => h]
  cases createTaskTx ctx db params.projectId _ with
  | none => rfl
  | some created => rfl

/-- A request is served from the rows of its workspace. -/
theorem serve_view (h : ctx.user.workspaceId = workspaceId) (request : Request) :
    serve ctx (view workspaceId db) request =
      (view workspaceId (serve ctx db request).1, (serve ctx db request).2) := by
  cases request with
  | postTask json => exact postTask_view h json
  | putTasks json => exact putTasks_view h json
  | putTask taskId json => exact putTask_view h taskId json
  | pollQueue agentParam agentHeader maxCapacityParam =>
    simp only [serve]
    exact pollQueue_view h agentParam agentHeader maxCapacityParam
  | postReview json => exact postReview_view h json
  | nimbusTask params => exact nimbusTask_view h params

/-! ### The other workspaces -/

/-- The tables with the id that the next task or review gets, and nothing announced yet. -/
def numbered (id : Nat) (db : Db) : Db :=
  { db with nextTaskId := id, nextReviewId := id, effects := [] }

/-- What a workspace sees of the tables. -/
def seen (workspaceId : Nat) (db : Db) : Db := view workspaceId (numbered 0 db)

theorem seen_eq_of_view (h : view workspaceId db' = view workspaceId db) :
    seen workspaceId db' = seen workspaceId db :=
  congrArg (numbered 0) h

theorem seen_emit (effects : List Effect) :
    seen workspaceId (db.emit effects) = seen workspaceId db := rfl

theorem view_updateTask_other {owner : Nat} (hother : owner ≠ workspaceId) {f : Task → Task}
    (hf : KeepsRow f) (db : Db) (id : Nat) :
    view workspaceId (db.updateTask owner id f) = view workspaceId db := by
  simp only [view, Db.updateTask, Db.mk.injEq, and_true]
  apply filter_map_of_id
  · intro t
    split
    · rw [(hf t).2]
    · rfl
  · intro t ht
    rw [if_neg]
    rintro ⟨-, howner⟩
    exact hother (howner.symm.trans (of_decide_eq_true ht))

theorem view_allocateTicket_other {owner : Nat} (hother : owner ≠ workspaceId) (db : Db)
    (projectId : Nat) :
    view workspaceId (allocateTicket db owner projectId).1 = view workspaceId db := by
  simp only [view, allocateTicket, Db.updateProject, Db.mk.injEq, and_true, true_and]
  apply filter_map_of_id
  · intro p
    split
    · rfl
    · rfl
  · intro p hp
    rw [if_neg]
    rintro ⟨-, howner⟩
    exact hother (howner.symm.trans (of_decide_eq_true hp))

theorem seen_insertTask_other {task : Task} (hother : task.workspaceId ≠ workspaceId) (db : Db) :
    seen workspaceId (insertTask db task) = seen workspaceId db := by
  simp [seen, view, numbered, insertTask, hother]

variable (hother : ctx.user.workspaceId ≠ workspaceId)
include hother

theorem seen_createTaskTx_other {requested : Option Nat}
    {row : (id projectId ticketNo : Nat) → Task}
    (hrow : ∀ id projectId ticketNo, (row id projectId ticketNo).workspaceId = ctx.user.workspaceId)
    (h : createTaskTx ctx db requested row = some db') :
    seen workspaceId db' = seen workspaceId db := by
  obtain ⟨projectId, -, h⟩ := Option.bind_eq_some_iff.mp h
  obtain ⟨no, -, rfl⟩ := Option.map_eq_some_iff.mp h
  rw [seen_insertTask_other (by rwa [hrow])]
  exact seen_eq_of_view (view_allocateTicket_other hother db projectId)

theorem seen_postTask_other (json : Json) :
    seen workspaceId (postTask ctx db json).1 = seen workspaceId db := by
  unfold postTask
  dsimp only
  split
  · rfl
  · split
    · rfl
    · split
      · rfl
      · split
        · rfl
        · rename_i created hcreated
          have hkept : seen workspaceId created = seen workspaceId db :=
            seen_createTaskTx_other hother (fun _ _ _ => rfl) hcreated
          exact hkept

theorem seen_bulkItem_other {item : BulkItem} (h : bulkItem ctx db item = .ok db') :
    seen workspaceId db' = seen workspaceId db := by
  rw [bulkItem] at h
  dsimp only at h
  split at h
  · obtain rfl := Except.ok.inj h
    rfl
  · split at h
    · cases h
    · have hwritten : seen workspaceId (db.updateTask ctx.user.workspaceId item.id fun t =>
          if item.status = .done then
            { t with
              status := item.status
              updatedAt := ctx.now
              completedAt := t.completedAt.or (some ctx.now) }
          else { t with status := item.status, updatedAt := ctx.now }) = seen workspaceId db := by
        apply seen_eq_of_view
        apply view_updateTask_other hother
        intro t
        split
        · exact ⟨rfl, rfl⟩
        · exact ⟨rfl, rfl⟩
      obtain rfl := Except.ok.inj h
      split
      · exact hwritten
      · exact hwritten

theorem seen_bulkItems_other {items : List BulkItem} (h : bulkItems ctx db items = .ok db') :
    seen workspaceId db' = seen workspaceId db := by
  induction items generalizing db with
  | nil =>
    obtain rfl := Except.ok.inj h
    rfl
  | cons item items ih =>
    rw [bulkItems] at h
    split at h
    · rename_i hitem
      exact (ih h).trans (seen_bulkItem_other hother hitem)
    · cases h

theorem seen_putTasks_other (json : Json) :
    seen workspaceId (putTasks ctx db json).1 = seen workspaceId db := by
  rw [putTasks]
  split
  · rfl
  · split
    · rfl
    · rename_i hitems
      have hkept := seen_bulkItems_other hother hitems
      exact hkept

theorem view_moveProject_other (task : Task) (projectId : Option Nat) :
    view workspaceId (moveProject ctx db task projectId).1 = view workspaceId db := by
  unfold moveProject
  dsimp only
  split
  · rfl
  · rename_i projectId
    have hallocated := view_allocateTicket_other hother db projectId
    split
    · rfl
    · split
      · rfl
      · split
        · rename_i hticket
          rwa [hticket] at hallocated
        · rename_i hticket
          rwa [hticket] at hallocated

theorem seen_putTask_other (taskId : Nat) (json : Json) :
    seen workspaceId (putTask ctx db taskId json).1 = seen workspaceId db := by
  unfold putTask
  cases validateBody updateTaskSchema json with
  | error issues => rfl
  | ok body =>
    dsimp only
    cases db.task? ctx.user.workspaceId taskId with
    | none => rfl
    | some task =>
      have hmoved : view workspaceId (moveProject ctx db task (body .project_id)).1 =
          view workspaceId db := view_moveProject_other hother task (body .project_id)
      dsimp only
      split
      · rfl
      · split
        · rfl
        · rcases hmove : moveProject ctx db task (body .project_id) with ⟨moved, response | no⟩
          · rw [hmove] at hmoved
            exact seen_eq_of_view hmoved
          · rw [hmove] at hmoved
            dsimp only
            split
            · exact seen_eq_of_view hmoved
            · have hupdated := view_updateTask_other hother
                (keepsRow_updatedTask body (normalizeTaskUpdateStatus task.status (body .status)
                  (body .assigned_to) (body .assigned_to).isSome) no ctx.now) moved taskId
              have hkept := seen_eq_of_view (hupdated.trans hmoved)
              exact hkept

theorem view_pickup_other (agent : String) (attempts : Nat) (db : Db) :
    view workspaceId (pickup ctx agent attempts db).1 = view workspaceId db := by
  induction attempts generalizing db with
  | zero => rfl
  | succ attempts ih =>
    unfold pickup
    dsimp only
    split
    · rfl
    · split
      · apply view_updateTask_other hother
        intro t
        dsimp only
        split
        · exact ⟨rfl, rfl⟩
        · exact ⟨rfl, rfl⟩
      · exact ih db

theorem seen_pollQueue_other (agentParam agentHeader maxCapacityParam : String) :
    seen workspaceId (pollQueue ctx db agentParam agentHeader maxCapacityParam).1 =
      seen workspaceId db := by
  unfold pollQueue
  dsimp only
  split
  · rfl
  · split
    · rfl
    · split
      · rfl
      · split
        · rfl
        · exact seen_eq_of_view (view_pickup_other hother _ _ db)

theorem seen_postReview_other (json : Json) :
    seen workspaceId (postReview ctx db json).1 = seen workspaceId db := by
  unfold postReview
  cases parseReview json with
  | error issues => rfl
  | ok review =>
    dsimp only
    cases (rowId review.taskId).bind (db.task? ctx.user.workspaceId) with
    | none => rfl
    | some task =>
      have hinserted : ∀ review : Review, review.workspaceId = ctx.user.workspaceId →
          seen workspaceId { db with
            reviews := db.reviews ++ [review], nextReviewId := db.nextReviewId + 1 } =
          seen workspaceId db := by
        intro review hreview
        simp [seen, view, numbered, hreview, hother]
      have hkept := hinserted ⟨db.nextReviewId, task.id, review.reviewer, review.status,
        review.notes, ctx.now, ctx.user.workspaceId⟩ rfl
      dsimp only
      split
      · rw [seen_emit, seen_eq_of_view (view_updateTask_other hother ?_ _ _)]
        · exact hkept
        · exact fun _ => ⟨rfl, rfl⟩
      · exact hkept

theorem seen_nimbusTask_other (params : NimbusTask) :
    seen workspaceId (nimbusTask ctx db params).1 = seen workspaceId db := by
  unfold nimbusTask
  dsimp only
  split
  · rfl
  · rename_i created hcreated
    have hkept : seen workspaceId created = seen workspaceId db :=
      seen_createTaskTx_other hother (fun _ _ _ => rfl) hcreated
    exact hkept

/-- A request changes no rows of another workspace. -/
theorem seen_serve_other (request : Request) :
    seen workspaceId (serve ctx db request).1 = seen workspaceId db := by
  cases request with
  | postTask json => exact seen_postTask_other hother json
  | putTasks json => exact seen_putTasks_other hother json
  | putTask taskId json => exact seen_putTask_other hother taskId json
  | pollQueue agentParam agentHeader maxCapacityParam =>
    simp only [serve]
    exact seen_pollQueue_other hother agentParam agentHeader maxCapacityParam
  | postReview json => exact seen_postReview_other hother json
  | nimbusTask params => exact seen_nimbusTask_other hother params

omit hother

/-! ### Runs -/

/-- A request with what it meets and the id that a new row gets. Which unused id that is, is the
database's choice. -/
structure Call where
  ctx : Context
  id : Nat
  request : Request

/-- The tables, and what each request was answered and announced with. -/
structure History where
  db : Db
  answers : List (Nat × Response × List Effect)

def calls : Machine History Call where
  step s call :=
    if s.db.tasks.all (·.id ≠ call.id) ∧ s.db.reviews.all (·.id ≠ call.id) then
      let (db, response) := serve call.ctx (numbered call.id s.db) call.request
      some ⟨db, s.answers ++ [(call.ctx.user.workspaceId, response, db.effects)]⟩
    else none

/-- What was said to a workspace. -/
def told (workspaceId : Nat) (s : History) : List (Nat × Response × List Effect) :=
  s.answers.filter fun answer => answer.1 = workspaceId

/-- A workspace sees the same of both. -/
structure Alike (workspaceId : Nat) (s s' : History) : Prop where
  rows : seen workspaceId s.db = seen workspaceId s'.db
  told : told workspaceId s = told workspaceId s'

theorem alike_equivalence : Equivalence (Alike workspaceId) where
  refl _ := ⟨rfl, rfl⟩
  symm h := ⟨h.rows.symm, h.told.symm⟩
  trans h h' := ⟨h.rows.trans h'.rows, h.told.trans h'.told⟩

theorem calls_step {s s' : History} {call : Call} (h : calls.step s call = some s') :
    s' = ⟨(serve call.ctx (numbered call.id s.db) call.request).1, s.answers ++
      [(call.ctx.user.workspaceId, (serve call.ctx (numbered call.id s.db) call.request).2,
        (serve call.ctx (numbered call.id s.db) call.request).1.effects)]⟩ := by
  simp only [calls] at h
  split at h
  · exact (Option.some.inj h).symm
  · cases h

/-- Rows that a workspace sees alike answer it alike. -/
theorem serve_of_seen (h : ctx.user.workspaceId = workspaceId)
    (hseen : seen workspaceId db = seen workspaceId db') (id : Nat) (request : Request) :
    (view workspaceId (serve ctx (numbered id db) request).1,
      (serve ctx (numbered id db) request).2) =
    (view workspaceId (serve ctx (numbered id db') request).1,
      (serve ctx (numbered id db') request).2) := by
  have hview : view workspaceId (numbered id db) = view workspaceId (numbered id db') :=
    congrArg (numbered id) hseen
  rw [← serve_view h, ← serve_view h, hview]

theorem unwinds (workspaceId : Nat) :
    Unwinds calls (fun call => call.ctx.user.workspaceId = workspaceId) (fun _ _ => True)
      (fun _ => True) (Alike workspaceId) where
  equivalence := alike_equivalence
  kept _ _ _ _ _ _ := trivial
  unseen s call s' _ hshared _ hstep := by
    obtain rfl := calls_step hstep
    have hother : call.ctx.user.workspaceId ≠ workspaceId := of_decide_eq_false hshared
    refine ⟨seen_serve_other hother call.request, ?_⟩
    simp [told, hother]
  respected s t call s' t' _ _ halike hshared _ _ hstep hstep' := by
    obtain rfl := calls_step hstep
    obtain rfl := calls_step hstep'
    obtain ⟨hview, hresponse⟩ :=
      Prod.mk.inj (serve_of_seen (of_decide_eq_true hshared) halike.rows call.id call.request)
    refine ⟨seen_eq_of_view hview, ?_⟩
    have heffects := congrArg Db.effects hview
    have htold := halike.told
    simp only [told, view, List.filter_append, hresponse] at htold heffects ⊢
    rw [htold, heffects]

/-- A user of a workspace asks for a task. -/
def posting (workspaceId id : Nat) (title : String) : Call where
  ctx := { sampleContext with user := ⟨"operator", none, workspaceId⟩ }
  id := id
  request := .postTask (.object [("title", .string title)])

/-- Each of two workspaces has a project. -/
def twoProjects : History :=
  ⟨{ sampleDb with
    projects := [sampleProject, { sampleProject with id := 2, workspaceId := 2 }] }, []⟩

end MissionControl.Tasks.WorkspaceView
